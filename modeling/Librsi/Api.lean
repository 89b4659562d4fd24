import Librsi.Source
import Librsi.Transport

/-!
# The error contract of the library

"`int` = fd/0/`-1`+errno": a function of the C ABI returns a number that is not negative, or
it returns `-1` and `errno` says why.  For a caller this has to be right in three ways.  A
failure has set `errno`; a success has not, so that an older failure can still be read; and the
value is one of those the function's own header lists, or is what the kernel said (`Reported`).

The allocator is the weak point of the second.  `malloc` may leave something in `errno` also when
it succeeds, so a function that allocates may change `errno` although it succeeds.  The system
here is free to do so.  What is assumed of it, and of `free`, is `KeepsErrno`.

`errno_is_that_of_the_last_failure` says so of every function and of every sequence of calls:
registration, parsing, the eighteen decoders, `rsi_write_response` and the six responders, in
any order and with any arguments.
-/

namespace Librsi

open WireFormat Interaction Layout

/-! ## Calls -/

/-- One call of the C ABI. -/
inductive ApiCall where
  | register (hives : Arr RsiHive) (maxSequence : UInt64)
  | parse (mem : Mem) (frame : Addr) (len : UInt64) (out : Option RsiRequest)
  | decode (mem : Mem) (o : Op) (req : Option RsiRequest) (out : Option (OutStruct o))
  | write (mem : Mem) (fd : CInt) (frame : Addr) (len : UInt64)
  | respond (fd : CInt) (call : RespondCall)

/-- What the call does, up to its return value. -/
def ApiCall.exec (U : Uapi) (P : Pkm) : ApiCall → Sys CInt
  | .register hives maxSequence => rsiRegister U hives maxSequence
  | .parse mem frame len out => Prod.fst <$> rsiParseRequest P mem frame len out
  | .decode mem o req out => Prod.fst <$> decoder P mem o req out
  | .write mem fd frame len => rsiWriteResponse mem fd frame len
  | .respond fd call => call.exec P fd

/-- The values the function itself puts in `errno`. -/
def ApiCall.ownErrno : ApiCall → List Errno
  | .register _ _ => [EINVAL, ENOMEM]
  | .parse _ _ _ _ => [EINVAL, EBADMSG]
  | .decode _ _ _ _ => [EINVAL, EBADMSG]
  | .write _ _ _ _ => []
  | .respond _ (.status _ _) => [EINVAL, EIO]
  | .respond _ (.payload _ _ _) => [EINVAL, ENOMEM, EOVERFLOW, EIO]

/-- What the kernel said when it refused to open, to register or to write. -/
def refusedBy : Event Ans → Option Errno
  | ⟨.write _ _, .error e⟩ => some e
  | ⟨.openDevice _ _, .error e⟩ => some e
  | ⟨.ioctl _ _ _, .error e⟩ => some e
  | _ => none

/-- An event of the allocator. -/
def Allocates (e : Event Ans) : Prop :=
  (∃ n, e.call = .tryReserve n) ∨ ∃ b, e.call = .tryExtend b

/-- No event is one of the allocator's. -/
def Frugal (t : Trace) : Prop := ∀ e ∈ t, ¬ Allocates e

/-- The functions that allocate. -/
def ApiCall.Allocating : ApiCall → Prop
  | .register _ _ => True
  | .respond _ (.payload _ _ _) => True
  | _ => False

/-- The call kept the contract: it succeeded and put nothing in `errno` itself, or it failed,
and what it did last was to put the reason there. -/
inductive Reported (own : List Errno) : Outcome Errno CInt → Trace → Prop
  | success {n : ℕ} {t : Trace} (quiet : ∀ e ∈ t, errnoBy e = none) : Reported own (.ret n) t
  | failure {t : Trace} {event : Event Ans} {e : Errno} (sets : errnoBy event = some e)
      (origin : e ∈ own ∨ ∃ event' ∈ t ++ [event], refusedBy event' = some e) :
      Reported own (.ret (-1)) (t ++ [event])

/-- What the system does to `errno`, which is what `sys` answers when it is read; `read` is what
the caller finds there once a call has returned.  A call that fails puts its error number in it.
One that succeeds leaves it alone, unless it allocates; then it may leave anything.  And `free`,
by which a call gives its memory back when it returns, leaves it alone. -/
structure KeepsErrno (sys : Trace → (c : Call) → Ans c) (read : Trace → Errno) : Prop where
  sets : ∀ t e v, errnoBy e = some v → sys (t ++ [e]) .getErrno = v
  keeps : ∀ t e, errnoBy e = none → ¬ Allocates e →
    sys (t ++ [e]) .getErrno = sys t .getErrno
  frees : ∀ t, read t = sys t .getErrno

/-! ## Each function -/

section Functions

variable {own : List Errno}

/-- The call kept the contract, and did not allocate. -/
def Plain (own : List Errno) (o : Outcome Errno CInt) (t : Trace) : Prop :=
  Reported own o t ∧ Frugal t

theorem Plain.nil (n : ℕ) : Plain own (.ret n) [] :=
  ⟨.success fun _ he => absurd he List.not_mem_nil, fun _ he => absurd he List.not_mem_nil⟩

/-- Setting `errno` and returning `-1` is a failure. -/
theorem plain_failErrno {e : Errno} (h : e ∈ own) : (failErrno e).All (Plain own) :=
  fun _ => ⟨.failure (t := []) rfl (Or.inl h), by simp [Frugal, Allocates]⟩

theorem plain_parse (P : Pkm) (mem : Mem) (frame : Addr) (len : UInt64)
    (out : Option RsiRequest) :
    (Prod.fst <$> rsiParseRequest P mem frame len out).All (Plain [EINVAL, EBADMSG]) := by
  have heinval : ∀ out : Option RsiRequest,
      (Prod.fst <$> (do return (← einval, out) : Sys (CInt × Option RsiRequest))).All
        (Plain [EINVAL, EBADMSG]) :=
    fun out => plain_failErrno (by simp)
  unfold rsiParseRequest
  cases out with
  | none => exact heinval none
  | some out =>
    by_cases hnull : frame = 0
    · simp only [if_pos hnull]
      exact heinval (some out)
    · simp only [if_neg hnull]
      cases P.parseRsiRequestHeader (readMem mem frame len.toNat) with
      | none => exact plain_failErrno (e := EBADMSG) (by simp)
      | some h => exact Plain.nil 0

theorem reqPayloadFor_cases (mem : Mem) (req : Option RsiRequest) (op : UInt32) :
    (∃ s, reqPayloadFor mem req op = .ret s) ∨ reqPayloadFor mem req op = .err EINVAL := by
  cases req with
  | none => exact Or.inr rfl
  | some r =>
    simp only [reqPayloadFor]
    split_ifs
    · exact Or.inr rfl
    · exact Or.inl ⟨_, rfl⟩
    · exact Or.inr rfl
    · exact Or.inl ⟨_, rfl⟩

theorem plain_decode (P : Pkm) (mem : Mem) (o : Op) (req : Option RsiRequest)
    (out : Option (OutStruct o)) :
    (Prod.fst <$> decoder P mem o req out).All (Plain [EINVAL, EBADMSG]) := by
  obtain ⟨fill, hdecoder, -⟩ := exists_fill P mem o
  rw [hdecoder, decodeWith]
  rcases reqPayloadFor_cases mem req (P.opCode o) with ⟨s, hs⟩ | herr
  · rw [hs]
    cases out with
    | none => exact plain_failErrno (e := EINVAL) (by simp)
    | some out =>
      simp only [Prog.either]
      cases P.parsePayload o s.bytes with
      | none => exact plain_failErrno (e := EBADMSG) (by simp)
      | some v => exact Plain.nil 0
  · rw [herr]
    exact plain_failErrno (e := EINVAL) (by simp)

/-- A `write` that fails, and one that is passed on. -/
theorem plain_write_error (fd : CInt) (buf : Bytes) (e : Errno) :
    Plain own (.ret (-1)) [⟨.write fd buf, .error e⟩] :=
  ⟨.failure (t := []) rfl (Or.inr ⟨_, List.mem_cons_self, rfl⟩), by simp [Frugal, Allocates]⟩

theorem plain_write_ok (fd : CInt) (buf : Bytes) (n m : ℕ) :
    Plain own (.ret m) [⟨.write fd buf, .ok n⟩] :=
  ⟨.success (List.forall_mem_singleton.mpr rfl), by simp [Frugal, Allocates]⟩

theorem plain_write (mem : Mem) (fd : CInt) (frame : Addr) (len : UInt64) :
    (rsiWriteResponse mem fd frame len).All (Plain []) := by
  intro a
  cases a with
  | error e => exact plain_write_error fd _ e
  | ok n => exact plain_write_ok fd _ n n

/-- What a frame that is written comes to. -/
theorem plain_writeFrame (fd : CInt) (frame : Bytes) (h : EIO ∈ own) :
    (writeFrame fd frame).All (Plain own) := by
  intro a
  cases a with
  | error e => exact plain_write_error fd _ e
  | ok n =>
    by_cases hn : n = frame.length
    · simp only [if_pos hn]
      exact plain_write_ok fd _ n 0
    · simp only [if_neg hn]
      exact fun _ => ⟨.failure (t := [_]) rfl (Or.inl h), by simp [Frugal, Allocates]⟩

theorem plain_status (P : Pkm) (fd : CInt) (req : Option RsiRequest) (code : UInt32) :
    (rsiRespondStatus P fd req code).All (Plain [EINVAL, EIO]) := by
  by_cases hok : StatusOk P req code
  · rw [rsiRespondStatus_eq_writeFrame fd hok]
    exact plain_writeFrame fd _ (by simp)
  · rw [rsiRespondStatus_eq_failErrno fd hok]
    exact plain_failErrno (by simp)

/-- What follows on allocation reports as it would alone. -/
theorem Reported.append {o : Outcome Errno CInt} {t t' : Trace} (h : AllocOnly t)
    (h' : Reported own o t') : Reported own o (t ++ t') := by
  cases h' with
  | success quiet =>
    refine .success fun e he => ?_
    rcases List.mem_append.mp he with he | he
    · exact List.filterMap_eq_nil_iff.mp h.silent.2.2 e he
    · exact quiet e he
  | failure sets origin =>
    rw [← List.append_assoc]
    refine .failure sets (origin.imp id ?_)
    rintro ⟨event', hmem, hrefused⟩
    rw [List.append_assoc]
    exact ⟨event', List.mem_append_right t hmem, hrefused⟩

theorem reported_payload (P : Pkm) (fd : CInt) (k : Kind) (req : Option RsiRequest)
    (args : Args k) :
    (respond P fd k req args).All (Reported [EINVAL, ENOMEM, EOVERFLOW, EIO]) := by
  obtain ⟨m, hm, hprepared⟩ := (RespondCall.payload k req args).exists_send P fd
  have hexec : respond P fd k req args = send fd m := hm
  rw [hexec]
  refine Prog.all_either hprepared (fun frame t hframe => ?_) (fun e t he => ?_) (fun t h => ?_)
  · exact (plain_writeFrame fd frame (by simp)).mono fun o t' h => h.1.append hframe.allocOnly
  · have hown : e ∈ [EINVAL, ENOMEM, EOVERFLOW, EIO] := by
      cases he <;> simp
    exact (plain_failErrno hown).mono fun o t' h => h.1.append he.allocOnly
  · cases h

end Functions

section Contract

variable (U : Uapi) (P : Pkm) {sys : Trace → (c : Call) → Ans c} {read : Trace → Errno}

/-- The `errno` that `rsi_register` saves across its `close` is that of the `ioctl`, and so is the
one it restores. -/
theorem reported_register (h : KeepsErrno sys read) (hives : Arr RsiHive) (maxSequence : UInt64)
    (past : Trace) :
    let r := (rsiRegister U hives maxSequence).run sys past
    Reported [EINVAL, ENOMEM] r.1 r.2 := by
  intro r
  have hreg : Registration U hives maxSequence r.1 r.2 :=
    (registration_rsiRegister U hives maxSequence).run sys past
  have hanswers : ∀ t e t', r.2 = t ++ e :: t' → e.answer = sys (past ++ t) e.call :=
    fun t e t' => Prog.answer_of_run_eq_append
  generalize r = s at hreg hanswers ⊢
  obtain ⟨o, t⟩ := s
  cases hreg with
  | badHives bad => exact .failure (t := []) rfl (Or.inl (by simp))
  | noRoom good => exact .failure (t := [_]) rfl (Or.inl (by simp))
  | noDevice good slack e =>
    exact .failure (t := [_]) rfl (Or.inr ⟨_, List.mem_of_getElem? (i := 1) rfl, rfl⟩)
  | refused good slack fd e saved left =>
    have hsaved : saved = e := by
      have hanswer : saved = sys (past ++ [_, _, _]) .getErrno :=
        hanswers [_, _, _] ⟨.getErrno, saved⟩ _ rfl
      have hsplit : ∀ a b c : Event Ans, past ++ [a, b, c] = past ++ [a, b] ++ [c] := by simp
      rw [hanswer, hsplit]
      exact h.sets _ _ e rfl
    exact .failure (t := [_, _, _, _, _]) rfl
      (Or.inr ⟨_, List.mem_of_getElem? (i := 2) rfl, congrArg some hsaved.symm⟩)
  | registered good slack fd n =>
    refine .success fun e he => ?_
    simp only [List.mem_cons, List.not_mem_nil, or_false] at he
    rcases he with rfl | rfl | rfl <;> rfl

/-- **Every call keeps the contract.** -/
theorem ApiCall.reported (h : KeepsErrno sys read) (c : ApiCall) (past : Trace) :
    let r := (c.exec U P).run sys past
    Reported c.ownErrno r.1 r.2 ∧ (¬ c.Allocating → Frugal r.2) := by
  intro r
  have hplain : ∀ own, Plain own r.1 r.2 → Reported own r.1 r.2 ∧ (¬ c.Allocating → Frugal r.2) :=
    fun own hr => ⟨hr.1, fun _ => hr.2⟩
  cases c with
  | register hives maxSequence =>
    exact ⟨reported_register U h hives maxSequence past, fun hnot => absurd trivial hnot⟩
  | parse mem frame len out => exact hplain _ ((plain_parse P mem frame len out).run sys past)
  | decode mem o req out => exact hplain _ ((plain_decode P mem o req out).run sys past)
  | write mem fd frame len => exact hplain _ ((plain_write mem fd frame len).run sys past)
  | respond fd call =>
    cases call with
    | status req code => exact hplain _ ((plain_status P fd req code).run sys past)
    | payload k req args =>
      exact ⟨(reported_payload P fd k req args).run sys past, fun hnot => absurd trivial hnot⟩

/-! ## Sessions -/

/-- The `errno` a call that failed left behind. -/
def failure? (r : Outcome Errno CInt × Trace) : Option Errno :=
  if r.1 = .ret (-1) then lastErrno r.2 else none

/-- The call succeeded and did not allocate. -/
def Quiet (r : Outcome Errno CInt × Trace) : Prop := failure? r = none ∧ Frugal r.2

variable {U P}

/-- A success has put nothing in `errno`, and a failure its reason, last. -/
theorem Reported.failure?_cases {own : List Errno} {r : Outcome Errno CInt × Trace}
    (h : Reported own r.1 r.2) :
    failure? r = none ∧ (∀ e ∈ r.2, errnoBy e = none) ∨
      ∃ t event e, r.2 = t ++ [event] ∧ errnoBy event = some e ∧ failure? r = some e := by
  obtain ⟨o, t⟩ := r
  cases h with
  | @success n t quiet =>
    have hret : (Outcome.ret (n : CInt) : Outcome Errno CInt) ≠ .ret (-1) := by
      intro heq
      have hn : (n : ℤ) = -1 := Outcome.ret.inj heq
      omega
    exact Or.inl ⟨if_neg hret, quiet⟩
  | @failure t event e sets origin =>
    refine Or.inr ⟨t, event, e, rfl, sets, (if_pos rfl).trans ?_⟩
    exact lastErrno_append_of_some t (by simp [lastErrno, sets])

/-- Events that neither fail nor allocate leave `errno` alone. -/
theorem KeepsErrno.getErrno_append (h : KeepsErrno sys read) (past : Trace) {t : Trace}
    (ht : ∀ e ∈ t, errnoBy e = none ∧ ¬ Allocates e) :
    sys (past ++ t) .getErrno = sys past .getErrno := by
  induction t generalizing past with
  | nil => rw [List.append_nil]
  | cons e t ih =>
    obtain ⟨he, ht⟩ := List.forall_mem_cons.mp ht
    rw [List.append_cons, ih (past ++ [e]) ht, h.keeps past e he.1 he.2]

/-- Calls that succeed without allocating leave `errno` alone. -/
theorem KeepsErrno.read_append (h : KeepsErrno sys read) (past : Trace)
    {runs : List (Outcome Errno CInt × Trace)} (hquiet : ∀ r ∈ runs, Quiet r)
    (hruns : ∀ r ∈ runs, ∃ own, Reported own r.1 r.2) :
    read (past ++ runs.flatMap Prod.snd) = read past := by
  rw [h.frees, h.frees]
  refine h.getErrno_append past fun e he => ?_
  obtain ⟨r, hr, he⟩ := List.mem_flatMap.mp he
  obtain ⟨own, hreported⟩ := hruns r hr
  refine ⟨?_, (hquiet r hr).2 e he⟩
  rcases hreported.failure?_cases with ⟨-, hnone⟩ | ⟨-, -, e', -, -, hsome⟩
  · exact hnone e he
  · exact absurd ((hquiet r hr).1.symm.trans hsome) (by simp)

/-- After a failure `errno` says why. -/
theorem KeepsErrno.read_of_failure (h : KeepsErrno sys read) (past : Trace) {own : List Errno}
    {r : Outcome Errno CInt × Trace} (hr : Reported own r.1 r.2) {e : Errno}
    (he : failure? r = some e) : read (past ++ r.2) = e := by
  rcases hr.failure?_cases with ⟨hnone, -⟩ | ⟨t, event, e', ht, sets, hsome⟩
  · exact absurd (hnone.symm.trans he) (by simp)
  · obtain rfl := Option.some.inj (hsome.symm.trans he)
    rw [h.frees, ht, ← List.append_assoc]
    exact h.sets _ _ _ sets

variable (U P) in
/-- **`errno` is that of the last failure.**  Over any sequence of calls to the library, each
call returns `-1` with an `errno` that is its own or the kernel's, or returns something that
is not negative and has not set `errno`; only `rsi_register` and the payload responders
allocate.  What the caller reads from `errno` afterwards is what the last call that failed has
put there, if the later ones did not allocate, and what was there before if no call failed or
allocated. -/
theorem errno_is_that_of_the_last_failure (h : KeepsErrno sys read) (calls : List ApiCall)
    (past : Trace) :
    let runs := session sys (calls.map (ApiCall.exec U P)) past
    List.Forall₂ (fun c r => Reported c.ownErrno r.1 r.2 ∧ (¬ c.Allocating → Frugal r.2))
        calls runs ∧
      (∀ before r after e, runs = before ++ r :: after → failure? r = some e →
        (∀ r' ∈ after, Quiet r') → read (past ++ runs.flatMap Prod.snd) = e) ∧
      ((∀ r ∈ runs, Quiet r) → read (past ++ runs.flatMap Prod.snd) = read past) := by
  intro runs
  have hruns : List.Forall₂ (fun c r => Reported (ApiCall.ownErrno c) r.1 r.2 ∧
      (¬ c.Allocating → Frugal r.2)) calls runs := by
    have hall : List.Forall₂ (fun p r => ∀ c : ApiCall, c.exec U P = p →
        Reported c.ownErrno r.1 r.2 ∧ (¬ c.Allocating → Frugal r.2))
        (calls.map (ApiCall.exec U P)) runs := by
      refine session_forall₂ sys _ past ?_
      rintro p - t c rfl
      exact c.reported U P h t
    exact (List.forall₂_map_left_iff.mp hall).imp fun c r hr => hr c rfl
  have hreported : ∀ r ∈ runs, ∃ own, Reported own r.1 r.2 := by
    have hboth : List.Forall₂ (fun r _ => (∃ own, Reported own r.1 r.2) ∧ True) runs calls :=
      hruns.flip.imp fun r c hr => ⟨⟨_, hr.1⟩, trivial⟩
    exact ((List.forall₂_and_left runs calls).mp hboth).1
  refine ⟨hruns, fun before r after e heq he hquiet => ?_, fun hquiet => ?_⟩
  · rw [heq] at hreported ⊢
    obtain ⟨own, hr⟩ := hreported r (List.mem_append_right _ List.mem_cons_self)
    rw [List.flatMap_append, List.flatMap_cons, ← List.append_assoc, ← List.append_assoc,
      h.read_append _ hquiet fun r' hr' =>
        hreported r' (List.mem_append_right _ (List.mem_cons_of_mem _ hr'))]
    exact h.read_of_failure _ hr he
  · exact h.read_append past hquiet hreported

end Contract

/-- What an event leaves in `errno` if the allocator leaves `ENOMEM` there whatever it does. -/
def errnoByClobbering : Event Ans → Option Errno
  | ⟨.tryReserve _, _⟩ => some ENOMEM
  | ⟨.tryExtend _, _⟩ => some ENOMEM
  | e => errnoBy e

/-- A system that grants everything, with such an allocator. -/
def clobbering (t : Trace) : (c : Call) → Ans c
  | .getErrno => ((t.filterMap errnoByClobbering).getLast?).getD 0
  | c => Env.granting.answer t c

theorem errnoByClobbering_of_some {e : Event Ans} {v : Errno} (h : errnoBy e = some v) :
    errnoByClobbering e = some v := by
  obtain ⟨c, a⟩ := e
  cases c with
  | tryReserve n => exact absurd h (by simp [errnoBy])
  | tryExtend b => exact absurd h (by simp [errnoBy])
  | _ => exact h

theorem errnoByClobbering_of_none {e : Event Ans} (h : errnoBy e = none) (h' : ¬ Allocates e) :
    errnoByClobbering e = none := by
  obtain ⟨c, a⟩ := e
  cases c with
  | tryReserve n => exact absurd (Or.inl ⟨n, rfl⟩) h'
  | tryExtend b => exact absurd (Or.inr ⟨b, rfl⟩) h'
  | _ => exact h

theorem keepsErrno_clobbering : KeepsErrno clobbering fun t => clobbering t .getErrno where
  sets t e v h := by simp [clobbering, errnoByClobbering_of_some h]
  keeps t e h h' := by simp [clobbering, errnoByClobbering_of_none h h']
  frees _ := rfl

/-- A response that is sent, and clobbers `errno`; a decoder that is given no request; and a
response that is sent without allocating. -/
theorem errno_is_that_of_the_last_failure_clobbered :
    let calls : List ApiCall :=
      [.respond 3 (.payload .deleteLayer (some ⟨9, 0, 0, 0, 17⟩) smallOrphans),
        .decode (fun _ => 0) .readKey none none, .respond 3 (smallPair true)]
    let runs := session clobbering (calls.map (ApiCall.exec smallUapi .small)) []
    KeepsErrno clobbering (fun t => clobbering t .getErrno) ∧
      runs.map Prod.fst = [.ret 0, .ret (-1), .ret 0] ∧
      clobbering (runs.flatMap Prod.snd) .getErrno = EINVAL := by
  intro calls runs
  have hret : runs.map Prod.fst = [.ret 0, .ret (-1), .ret 0] := by decide +kernel
  refine ⟨keepsErrno_clobbering, hret, ?_⟩
  obtain ⟨hall, hlast, -⟩ := errno_is_that_of_the_last_failure smallUapi .small
    keepsErrno_clobbering calls []
  obtain ⟨-, hall⟩ := List.forall₂_cons.mp hall
  obtain ⟨-, hall⟩ := List.forall₂_cons.mp hall
  obtain ⟨⟨-, hfrugal⟩, -⟩ := List.forall₂_cons.mp hall
  refine hlast [_] _ [_] EINVAL rfl (by decide +kernel) fun r hr => ?_
  obtain rfl := List.mem_singleton.mp hr
  exact ⟨by decide +kernel, hfrugal id⟩

end Librsi

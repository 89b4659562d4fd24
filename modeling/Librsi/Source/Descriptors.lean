import Librsi.Lib.Interleaving
import Librsi.Source

/-!
# Registrations that run at the same time

Descriptor numbers are reused: as soon as one thread has closed a descriptor, another can be
given the same number.  So a library that closes a descriptor it no longer holds, or closes
one twice, closes somebody else's.

Here any number of `rsi_register` calls run in any interleaving, beside the rest of the
process, which opens and closes descriptors of its own, and closes the ones it was given by
calls that have returned.  The table says which numbers are in use and by whom; that `open`
gives a free number, and that the process leaves alone what a call under way has opened, are
the assumptions (`KeepsTable`).  Then a call closes only a descriptor that is its own at that
moment, talks to the kernel only through one, holds nothing after a failure, and after a success
holds exactly what it returned, until the process closes that (`registrations_hold_their_own`).
-/

namespace Librsi

open WireFormat Interaction

/-! ## One registration, event by event -/

/-- Every event stands to the events before it as `R` says. -/
def Follows (R : Trace → Event Ans → Prop) : Trace → Trace → Prop
  | _, [] => True
  | ev, e :: t => R ev e ∧ Follows R (ev ++ [e]) t

theorem Follows.of_eq_append {R : Trace → Event Ans → Prop} {ev t t' t'' : Trace} {e : Event Ans}
    (h : Follows R ev t) (ht : t = t' ++ e :: t'') : R (ev ++ t') e := by
  induction t' generalizing ev t with
  | nil =>
    subst ht
    rw [List.append_nil]
    exact h.1
  | cons e' t' ih =>
    subst ht
    have hrest := ih h.2 rfl
    rwa [List.append_assoc] at hrest

/-- The descriptor an event registered. -/
def registeredBy : Event Ans → Option CInt
  | ⟨.ioctl fd _ _, .ok _⟩ => some fd
  | _ => none

/-- How far a registration has come: it holds no descriptor, it has opened one, or it has
registered it and is going to return it. -/
inductive Phase where
  | idle
  | holding (fd : CInt)
  | done (fd : CInt)
  deriving DecidableEq

/-- What an event does to the phase. -/
def Phase.next (p : Phase) : Event Ans → Phase
  | ⟨.openDevice _ _, .ok fd⟩ => .holding fd
  | ⟨.close _, _⟩ => .idle
  | ⟨.ioctl fd _ _, .ok _⟩ => .done fd
  | _ => p

/-- The phase after the events. -/
def phase (t : Trace) : Phase := t.foldl Phase.next .idle

@[simp] theorem phase_concat (t : Trace) (e : Event Ans) :
    phase (t ++ [e]) = (phase t).next e := by
  rw [phase, List.foldl_append, phase]
  rfl

theorem Phase.next_of_opened (p : Phase) {e : Event Ans} {fd : CInt} (h : openedBy e = some fd) :
    p.next e = .holding fd := by
  unfold openedBy at h
  split at h
  · obtain rfl := Option.some.inj h
    rfl
  · exact absurd h (by simp)

theorem Phase.next_of_closed (p : Phase) {e : Event Ans} {fd : CInt} (h : closedBy e = some fd) :
    p.next e = .idle := by
  unfold closedBy at h
  split at h
  · rfl
  · exact absurd h (by simp)

theorem Phase.next_of_registered (p : Phase) {e : Event Ans} {fd : CInt}
    (h : registeredBy e = some fd) : p.next e = .done fd := by
  unfold registeredBy at h
  split at h
  · obtain rfl := Option.some.inj h
    rfl
  · exact absurd h (by simp)

/-- An event that neither opens nor closes nor registers leaves the phase alone. -/
theorem Phase.next_of_other (p : Phase) {e : Event Ans} (hopen : openedBy e = none)
    (hclose : closedBy e = none) (hregister : registeredBy e = none) : p.next e = p := by
  unfold Phase.next
  split
  · exact absurd hopen (by simp [openedBy])
  · exact absurd hclose (by simp [closedBy])
  · exact absurd hregister (by simp [registeredBy])
  · rfl

/-- The device is opened first, once, what is used or closed is what was opened, and nothing
comes after a registration. -/
structure Disciplined (ev : Trace) (e : Event Ans) : Prop where
  opens : ∀ fd, openedBy e = some fd → phase ev = .idle
  closes : ∀ fd, closedBy e = some fd → phase ev = .holding fd
  uses : ∀ fd request args a, e = ⟨.ioctl fd request args, a⟩ → phase ev = .holding fd
  goesOn : ∀ fd, phase ev ≠ .done fd

/-- What is registered is what was opened. -/
theorem Disciplined.registers {ev : Trace} {e : Event Ans} {fd : CInt} (h : Disciplined ev e)
    (hregister : registeredBy e = some fd) : phase ev = .holding fd := by
  unfold registeredBy at hregister
  split at hregister
  · obtain rfl := Option.some.inj hregister
    exact h.uses _ _ _ _ rfl
  · exact absurd hregister (by simp)

/-- An event that has nothing to do with descriptors. -/
theorem Disciplined.of_other {ev : Trace} {e : Event Ans} (hopen : openedBy e = none)
    (hclose : closedBy e = none)
    (hioctl : ∀ fd request args a, e ≠ ⟨.ioctl fd request args, a⟩)
    (h : ∀ fd, phase ev ≠ .done fd) : Disciplined ev e where
  opens fd h' := absurd (hopen.symm.trans h') (by simp)
  closes fd h' := absurd (hclose.symm.trans h') (by simp)
  uses fd request args a h' := absurd h' (hioctl fd request args a)
  goesOn := h

/-- An `ioctl` on the descriptor that is held. -/
theorem Disciplined.of_ioctl {ev : Trace} {fd : CInt} {request : UInt64}
    {args : RegSrcRegisterArgs} {a : Except Errno ℕ} (h : phase ev = .holding fd) :
    Disciplined ev ⟨.ioctl fd request args, a⟩ where
  opens fd' h' := absurd h' (by simp [openedBy])
  closes fd' h' := absurd h' (by simp [closedBy])
  uses fd' request' args' a' h' := by
    obtain ⟨⟨rfl, -, -⟩, -⟩ : (fd = fd' ∧ request = request' ∧ args = args') ∧ a = a' := by
      simpa using h'
    exact h
  goesOn fd' h' := absurd (h.symm.trans h') (by simp)

theorem Disciplined.of_open {ev : Trace} {path : Bytes} {flags : CInt} {a : Except Errno ℕ}
    (h : phase ev = .idle) : Disciplined ev ⟨.openDevice path flags, a⟩ where
  opens fd' h' := h
  closes fd' h' := absurd h' (by simp [closedBy])
  uses fd' request' args' a' h' := absurd h' (by simp)
  goesOn fd' h' := absurd (h.symm.trans h') (by simp)

theorem Disciplined.of_close {ev : Trace} {fd : CInt} {a : Option Errno}
    (h : phase ev = .holding fd) : Disciplined ev ⟨.close fd, a⟩ where
  opens fd' h' := absurd h' (by simp [openedBy])
  closes fd' h' := Option.some.inj h' ▸ h
  uses fd' request' args' a' h' := absurd h' (by simp)
  goesOn fd' h' := absurd (h.symm.trans h') (by simp)

section Registration

variable {U : Uapi} {hives : Arr RsiHive} {maxSequence : UInt64} {o : Outcome Errno CInt}
  {t : Trace}

theorem Registration.follows (h : Registration U hives maxSequence o t) :
    Follows Disciplined [] t := by
  have hset : ∀ ev e, (∀ fd, phase ev ≠ .done fd) → Disciplined ev ⟨.setErrno e, ()⟩ :=
    fun ev e => .of_other rfl rfl (by simp)
  have hget : ∀ ev e, (∀ fd, phase ev ≠ .done fd) → Disciplined ev ⟨.getErrno, e⟩ :=
    fun ev e => .of_other rfl rfl (by simp)
  have hreserve : ∀ n a, Disciplined [] ⟨.tryReserve n, a⟩ :=
    fun n a => .of_other rfl rfl (by simp) (by simp [phase])
  cases h with
  | badHives bad => exact ⟨hset _ _ (by simp [phase]), trivial⟩
  | noRoom good => exact ⟨hreserve _ _, hset _ _ (by simp [phase, Phase.next]), trivial⟩
  | noDevice good slack e => exact ⟨hreserve _ _, .of_open rfl, trivial⟩
  | refused good slack fd e saved left =>
    exact ⟨hreserve _ _, .of_open rfl, .of_ioctl rfl, hget _ _ (by simp [phase, Phase.next]),
      .of_close rfl, hset _ _ (by simp [phase, Phase.next]), trivial⟩
  | registered good slack fd r =>
    exact ⟨hreserve _ _, .of_open rfl, .of_ioctl rfl, trivial⟩

/-- A call that fails ends without a descriptor. -/
theorem Registration.phase_of_failed (h : Registration U hives maxSequence (.ret (-1)) t) :
    phase t = .idle := by
  generalize ho : (Outcome.ret (-1) : Outcome Errno CInt) = o at h
  cases h with
  | registered good slack fd r =>
    have hfd : -1 = (fd : ℤ) := Outcome.ret.inj ho
    omega
  | _ => rfl

/-- A call that succeeds ends with the one it returns. -/
theorem Registration.phase_of_returned {fd : CInt}
    (h : Registration U hives maxSequence (.ret fd) t) (hfd : fd ≠ -1) : phase t = .done fd := by
  generalize ho : (Outcome.ret fd : Outcome Errno CInt) = o at h
  cases h with
  | registered good slack fd' r =>
    obtain rfl : fd = fd' := Outcome.ret.inj ho
    rfl
  | _ => exact absurd (Outcome.ret.inj ho) hfd

end Registration

/-! ## The table -/

section Table

variable {ι : Type}

/-- Who holds a descriptor: the process, a registration that is under way, or the process as
the result of a registration. -/
inductive Holder (ι : Type) where
  | process
  | registering (i : ι)
  | registered (i : ι)

/-- The descriptors in use, and the registrations whose descriptor the process has closed
since. -/
structure Descriptors (ι : Type) where
  table : CInt → Option (Holder ι)
  released : List ι

namespace Descriptors

/-- Change an entry. -/
def enter (s : Descriptors ι) (fd : CInt) (h : Option (Holder ι)) : Descriptors ι :=
  { s with table := Function.update s.table fd h }

/-- What the rest of the process does: it opens numbers that are free, and it closes its own and
those it was given. -/
inductive Moves (s : Descriptors ι) : Descriptors ι → Prop
  | opens (fd : CInt) (free : s.table fd = none) : Moves s (s.enter fd (some .process))
  | closes (fd : CInt) (own : s.table fd = some .process) : Moves s (s.enter fd none)
  | releases (fd : CInt) (i : ι) (own : s.table fd = some (.registered i)) :
      Moves s { s.enter fd none with released := i :: s.released }

/-- What becomes of the table when a registration makes a call.  `open` gives a number that is
free; `close` frees the number, also when it reports an error; and an `ioctl` that succeeds is
the last thing a registration does with its descriptor, which is the caller's from then on. -/
inductive Answers (s : Descriptors ι) (i : ι) (e : Event Ans) : Descriptors ι → Prop
  | opens (fd : CInt) (h : openedBy e = some fd) (free : s.table fd = none) :
      Answers s i e (s.enter fd (some (.registering i)))
  | closes (fd : CInt) (h : closedBy e = some fd) : Answers s i e (s.enter fd none)
  | registers (fd : CInt) (h : registeredBy e = some fd) :
      Answers s i e (s.enter fd (some (.registered i)))
  | other (hopen : openedBy e = none) (hclose : closedBy e = none)
      (hregister : registeredBy e = none) : Answers s i e s

end Descriptors

/-- **The assumptions on the process and on the kernel's descriptor table.**  Seen through `view`,
the world does what `Moves` and `Answers` say.  In particular the rest of the process does not
close a descriptor that a registration under way has opened. -/
structure KeepsTable {σ : Type} (W : World ι Ans σ) (view : σ → Descriptors ι) : Prop where
  moves : ∀ s s', W.moves s s' → view s' = view s ∨ (view s).Moves (view s')
  answers : ∀ s i e s', W.answers s i e s' → (view s).Answers i e (view s')

variable [DecidableEq ι] {σ : Type} (U : Uapi) (hives : ι → Arr RsiHive) (maxSequence : ι → UInt64)

/-- The registrations, before any of them has started. -/
def registerPool (w : σ) : Pool ι Ans Errno CInt σ :=
  .start w fun i => rsiRegister U (hives i) (maxSequence i)

/-- A call is entered in the table for what it holds, and for what it has returned until the
process closes that. -/
structure TableAgrees (past : List (ι × Event Ans)) (s : Descriptors ι) : Prop where
  registering : ∀ i fd, s.table fd = some (.registering i) ↔ phase (eventsOf i past) = .holding fd
  registered : ∀ i fd, s.table fd = some (.registered i) ↔
    phase (eventsOf i past) = .done fd ∧ i ∉ s.released
  released : ∀ i ∈ s.released, ∃ fd, phase (eventsOf i past) = .done fd

variable {U hives maxSequence} {W : World ι Ans σ} {view : σ → Descriptors ι} {w : σ}
  {x y : Pool ι Ans Errno CInt σ} {past : List (ι × Event Ans)} {s s' : Descriptors ι}

theorem disciplined_next (hx : Reaches W (registerPool U hives maxSequence w) x)
    {i : ι} {c : Call} {k : Ans c → Sys CInt} (hcall : x.left i = .call c k) (a : Ans c) :
    Disciplined (eventsOf i x.past) ⟨c, a⟩ := by
  obtain ⟨o, t, hreg⟩ :=
    hx.next (fun j => registration_rsiRegister U (hives j) (maxSequence j)) hcall a
  exact hreg.follows.of_eq_append rfl

section Enter

omit [DecidableEq ι]

@[simp] theorem enter_self (s : Descriptors ι) (fd : CInt) (e : Option (Holder ι)) :
    (s.enter fd e).table fd = e := Function.update_self _ _ _

@[simp] theorem enter_released (s : Descriptors ι) (fd : CInt) (e : Option (Holder ι)) :
    (s.enter fd e).released = s.released := rfl

theorem enter_of_ne (s : Descriptors ι) {fd fd' : CInt} (hne : fd' ≠ fd)
    (e : Option (Holder ι)) : (s.enter fd e).table fd' = s.table fd' :=
  Function.update_of_ne hne _ _

variable {fd fd' : CInt} {e : Option (Holder ι)} {h : Holder ι}

/-- An entry that is neither the old nor the new one is where it was. -/
theorem enter_eq_iff_of_other (hold : s.table fd ≠ some h) (hnew : e ≠ some h) :
    (s.enter fd e).table fd' = some h ↔ s.table fd' = some h := by
  by_cases hfd : fd' = fd
  · rw [hfd, enter_self]
    exact iff_of_false hnew hold
  · rw [enter_of_ne s hfd]

/-- An entry that was nowhere else is where it is put. -/
theorem enter_eq_iff_of_only (hother : ∀ fd', fd' ≠ fd → s.table fd' ≠ some h) :
    (s.enter fd e).table fd' = some h ↔ fd' = fd ∧ e = some h := by
  by_cases hfd : fd' = fd
  · rw [hfd, enter_self, eq_self, true_and]
  · rw [enter_of_ne s hfd]
    exact iff_of_false (hother fd' hfd) fun hand => hfd hand.1

end Enter

section Steps

variable (h : TableAgrees past s)

include h

/-- The process opens a number, or closes one of its own. -/
theorem TableAgrees.of_process {fd : CInt} {e : Option (Holder ι)}
    (hold : ∀ i, s.table fd ≠ some (.registering i) ∧ s.table fd ≠ some (.registered i))
    (hnew : ∀ i, e ≠ some (.registering i) ∧ e ≠ some (.registered i)) :
    TableAgrees past (s.enter fd e) where
  registering i fd' :=
    (enter_eq_iff_of_other (hold i).1 (hnew i).1).trans (h.registering i fd')
  registered i fd' :=
    (enter_eq_iff_of_other (hold i).2 (hnew i).2).trans (h.registered i fd')
  released := h.released

/-- The process closes what a registration has returned. -/
theorem TableAgrees.of_releases {fd : CInt} {j : ι} (own : s.table fd = some (.registered j)) :
    TableAgrees past { s.enter fd none with released := j :: s.released } where
  registering i fd' :=
    (enter_eq_iff_of_other (by simp [own]) (by simp)).trans (h.registering i fd')
  registered i fd' := by
    obtain ⟨hdone, -⟩ := (h.registered j fd).mp own
    by_cases hij : j = i
    · -- the entry that is closed was the only one of its registration
      subst hij
      have honly : ∀ fd', fd' ≠ fd → s.table fd' ≠ some (.registered j) := by
        intro fd' hne hentry
        obtain ⟨hdone', -⟩ := (h.registered j fd').mp hentry
        exact hne (Phase.done.inj (hdone'.symm.trans hdone))
      refine iff_of_false (fun hentry => ?_) fun hand => hand.2 List.mem_cons_self
      exact absurd ((enter_eq_iff_of_only honly).mp hentry).2 (by simp)
    · have hmem : i ∉ j :: s.released ↔ i ∉ s.released := by simp [Ne.symm hij]
      rw [hmem]
      exact (enter_eq_iff_of_other (by simp [own, hij]) (by simp)).trans (h.registered i fd')
  released i hi := by
    rcases List.mem_cons.mp hi with rfl | hi
    · exact ⟨fd, ((h.registered i fd).mp own).1⟩
    · exact h.released i hi

theorem TableAgrees.of_moves (hmoves : s.Moves s') : TableAgrees past s' := by
  cases hmoves with
  | opens fd free => exact h.of_process (by simp [free]) (by simp)
  | closes fd own => exact h.of_process (by simp [own]) (by simp)
  | releases fd j own => exact h.of_releases own

omit h in
/-- The entry of a registration in each phase. -/
def Phase.entry (j : ι) : Phase → Option (Holder ι)
  | .idle => none
  | .holding _ => some (.registering j)
  | .done _ => some (.registered j)

/-- **A registration that opens, closes or registers a descriptor** changes its own entry. -/
theorem TableAgrees.of_call {j : ι} {e : Event Ans} {fd : CInt} {p : Phase}
    (hnext : (phase (eventsOf j past)).next e = p)
    (hp : p = .idle ∨ p = .holding fd ∨ p = .done fd)
    (hbefore : phase (eventsOf j past) = .idle ∧ s.table fd = none ∨
      phase (eventsOf j past) = .holding fd) :
    TableAgrees (past ++ [(j, e)]) (s.enter fd (p.entry j)) := by
  -- the number was free, or was the call's own, and the call had no other
  have hothers : ∀ i, j ≠ i → s.table fd ≠ some (.registering i) ∧
      s.table fd ≠ some (.registered i) := by
    intro i hij
    rcases hbefore with ⟨-, hfree⟩ | hholding
    · simp [hfree]
    · simp [(h.registering j fd).mpr hholding, hij]
  have hundone : ∀ fd', phase (eventsOf j past) ≠ .done fd' := by
    intro fd'
    rcases hbefore with ⟨hidle, -⟩ | hholding
    · simp [hidle]
    · simp [hholding]
  have honly : ∀ fd', fd' ≠ fd → s.table fd' ≠ some (.registering j) := by
    intro fd' hne hentry
    have hholding' := (h.registering j fd').mp hentry
    rcases hbefore with ⟨hidle, -⟩ | hholding
    · exact absurd (hidle.symm.trans hholding') (by simp)
    · exact hne (Phase.holding.inj (hholding'.symm.trans hholding))
  have hnone : ∀ fd', s.table fd' ≠ some (.registered j) :=
    fun fd' hentry => hundone fd' ((h.registered j fd').mp hentry).1
  have hkept : j ∉ s.released := by
    intro hmem
    obtain ⟨fd', hdone⟩ := h.released j hmem
    exact hundone fd' hdone
  refine ⟨fun i fd' => ?_, fun i fd' => ?_, fun i hi => ?_⟩
  · by_cases hij : j = i
    · subst hij
      rw [eventsOf_append, eventsOf_self, phase_concat, hnext, enter_eq_iff_of_only honly]
      rcases hp with rfl | rfl | rfl <;> simp [Phase.entry, eq_comm]
    · rw [eventsOf_append, eventsOf_of_ne hij, List.append_nil, ← h.registering i fd']
      refine enter_eq_iff_of_other (hothers i hij).1 ?_
      rcases hp with rfl | rfl | rfl <;> simp [Phase.entry, hij]
  · by_cases hij : j = i
    · subst hij
      rw [eventsOf_append, eventsOf_self, phase_concat, hnext,
        enter_eq_iff_of_only fun fd' _ => hnone fd']
      rcases hp with rfl | rfl | rfl <;> simp [Phase.entry, hkept, eq_comm]
    · rw [eventsOf_append, eventsOf_of_ne hij, List.append_nil, enter_released,
        ← h.registered i fd']
      refine enter_eq_iff_of_other (hothers i hij).2 ?_
      rcases hp with rfl | rfl | rfl <;> simp [Phase.entry, hij]
  · have hij : j ≠ i := fun heq => hkept (heq ▸ hi)
    rw [eventsOf_append, eventsOf_of_ne hij, List.append_nil]
    exact h.released i hi

/-- Any other call changes nothing. -/
theorem TableAgrees.of_other {j : ι} {e : Event Ans} (hopen : openedBy e = none)
    (hclose : closedBy e = none) (hregister : registeredBy e = none) :
    TableAgrees (past ++ [(j, e)]) s := by
  have hphase : ∀ i, phase (eventsOf i (past ++ [(j, e)])) = phase (eventsOf i past) := by
    intro i
    by_cases hij : j = i
    · subst hij
      rw [eventsOf_append, eventsOf_self, phase_concat,
        Phase.next_of_other _ hopen hclose hregister]
    · rw [eventsOf_append, eventsOf_of_ne hij, List.append_nil]
  refine ⟨fun i fd => ?_, fun i fd => ?_, fun i hi => ?_⟩
  · rw [hphase]
    exact h.registering i fd
  · rw [hphase]
    exact h.registered i fd
  · rw [hphase]
    exact h.released i hi

theorem TableAgrees.of_answers {j : ι} {e : Event Ans} (hdisc : Disciplined (eventsOf j past) e)
    (hanswers : s.Answers j e s') : TableAgrees (past ++ [(j, e)]) s' := by
  cases hanswers with
  | opens fd hopen free =>
    exact h.of_call (Phase.next_of_opened _ hopen) (Or.inr (Or.inl rfl))
      (Or.inl ⟨hdisc.opens fd hopen, free⟩)
  | closes fd hclose =>
    exact h.of_call (Phase.next_of_closed _ hclose) (Or.inl rfl) (Or.inr (hdisc.closes fd hclose))
  | registers fd hregister =>
    exact h.of_call (Phase.next_of_registered _ hregister) (Or.inr (Or.inr rfl))
      (Or.inr (hdisc.registers hregister))
  | other hopen hclose hregister => exact h.of_other hopen hclose hregister

end Steps

/-- **The table is kept up to date** in every interleaving, whoever takes the steps. -/
theorem tableAgrees (hW : KeepsTable W view) (hw : TableAgrees ([] : List (ι × Event Ans)) (view w))
    (hx : Reaches W (registerPool U hives maxSequence w) x) :
    TableAgrees x.past (view x.world) := by
  induction hx with
  | refl => exact hw
  | @tail x y hx hstep ih =>
    cases hstep with
    | move hmove =>
      rcases hW.moves _ _ hmove with hsame | hmoves
      · exact hsame ▸ ih
      · exact ih.of_moves hmoves
    | @call w' j c k a ready hanswer =>
      exact ih.of_answers (disciplined_next hx ready a) (hW.answers _ _ _ _ hanswer)

/-- A call that is done with its descriptor has returned it. -/
theorem returned_of_done (hx : Reaches W (registerPool U hives maxSequence w) x) {i : ι}
    {fd : CInt} (hdone : phase (eventsOf i x.past) = .done fd) : x.left i = .ret fd := by
  have hreg := hx.all_left (fun j => registration_rsiRegister U (hives j) (maxSequence j)) i
  cases hleft : x.left i with
  | call c k =>
    obtain ⟨a⟩ : Nonempty (Ans c) := inferInstance
    exact absurd hdone ((disciplined_next hx hleft a).goesOn fd)
  | ret r =>
    rw [hleft, Prog.All, List.append_nil] at hreg
    by_cases hr : r = -1
    · rw [hr] at hreg
      exact absurd (hreg.phase_of_failed.symm.trans hdone) (by simp)
    · rw [Phase.done.inj ((hreg.phase_of_returned hr).symm.trans hdone)]
  | err e =>
    rw [hleft, Prog.All, List.append_nil] at hreg
    exact absurd hreg.returns (by simp)
  | abort =>
    rw [hleft, Prog.All, List.append_nil] at hreg
    exact absurd hreg.returns (by simp)

variable (U hives maxSequence) in
/-- **Registrations hold their own.**  In every interleaving with each other and with the rest
of the process, which may close what it was given: a descriptor that a call is about to close,
or to pass to `ioctl`, is open and is the call's own; a call that has failed holds no
descriptor; what counts as the result of a call is what it has returned; a call whose
descriptor the process has not closed holds the one it has returned and no other; and no two
such calls have returned the same one. -/
theorem registrations_hold_their_own (hW : KeepsTable W view)
    (hw : ∀ fd, (view w).table fd = none ∨ (view w).table fd = some .process)
    (hw' : (view w).released = []) (hx : Reaches W (registerPool U hives maxSequence w) x) :
    (∀ i fd k, x.left i = .call (.close fd) k →
        (view x.world).table fd = some (.registering i)) ∧
      (∀ i fd request args k, x.left i = .call (.ioctl fd request args) k →
        (view x.world).table fd = some (.registering i)) ∧
      (∀ i, x.left i = .ret (-1) → ∀ fd, (view x.world).table fd ≠ some (.registering i) ∧
        (view x.world).table fd ≠ some (.registered i)) ∧
      (∀ i fd, (view x.world).table fd = some (.registered i) → x.left i = .ret fd) ∧
      (∀ i fd, x.left i = .ret fd → fd ≠ -1 → i ∉ (view x.world).released → ∀ fd',
        (view x.world).table fd' ≠ some (.registering i) ∧
          ((view x.world).table fd' = some (.registered i) ↔ fd' = fd)) ∧
      ∀ i j fd, x.left i = .ret fd → x.left j = .ret fd → fd ≠ -1 →
        i ∉ (view x.world).released → j ∉ (view x.world).released → i = j := by
  have hempty : TableAgrees ([] : List (ι × Event Ans)) (view w) := by
    refine ⟨fun i fd => ?_, fun i fd => ?_, by simp [hw']⟩
    · rcases hw fd with hfd | hfd <;> simp [hfd, phase]
    · rcases hw fd with hfd | hfd <;> simp [hfd, phase]
  have htable := tableAgrees hW hempty hx
  have hreg : ∀ i r, x.left i = .ret r →
      Registration U (hives i) (maxSequence i) (.ret r) (eventsOf i x.past) :=
    fun i r hret => hx.returned (fun j => registration_rsiRegister U (hives j) (maxSequence j)) hret
  have hholds : ∀ i fd, x.left i = .ret fd → fd ≠ -1 → i ∉ (view x.world).released → ∀ fd',
      (view x.world).table fd' ≠ some (.registering i) ∧
        ((view x.world).table fd' = some (.registered i) ↔ fd' = fd) := by
    intro i fd hret hne hkept fd'
    have hphase := (hreg i fd hret).phase_of_returned hne
    rw [ne_eq, htable.registering i fd', htable.registered i fd', hphase, Phase.done.injEq]
    exact ⟨by simp, by simp [hkept, eq_comm]⟩
  refine ⟨fun i fd k hcall => ?_, fun i fd request args k hcall => ?_, fun i hret fd => ?_,
    fun i fd hentry => ?_, hholds, fun i j fd hi hj hne hkept hkept' => ?_⟩
  · have hdisc := disciplined_next hx hcall (none : Option Errno)
    exact (htable.registering i fd).mpr (hdisc.closes fd rfl)
  · have hdisc := disciplined_next hx hcall (.ok 0 : Except Errno ℕ)
    exact (htable.registering i fd).mpr (hdisc.uses fd request args _ rfl)
  · have hphase := (hreg i _ hret).phase_of_failed
    rw [ne_eq, ne_eq, htable.registering i fd, htable.registered i fd, hphase]
    simp
  · exact returned_of_done hx ((htable.registered i fd).mp hentry).1
  · have hi' := (hholds i fd hi hne hkept fd).2.mpr rfl
    have hj' := (hholds j fd hj hne hkept' fd).2.mpr rfl
    exact Holder.registered.inj (Option.some.inj (hi'.symm.trans hj'))

/-- A process that does nothing else. -/
def processWorld : World ι Ans (Descriptors ι) where
  moves := Descriptors.Moves
  answers := Descriptors.Answers

omit [DecidableEq ι] in
theorem keepsTable_processWorld : KeepsTable (processWorld : World ι Ans _) id where
  moves _ _ h := Or.inr h
  answers _ _ _ _ h := h

/-- A registration that has not started can go through, with any number that is free. -/
theorem exists_reaches_registered {x : Pool ι Ans Errno CInt (Descriptors ι)} {i : ι} (fd : ℕ)
    (hleft : x.left i = rsiRegister smallUapi smallHives 9) (hfree : x.world.table fd = none) :
    ∃ y, Reaches processWorld x y ∧ y.left i = .ret fd ∧ (∀ j, j ≠ i → y.left j = x.left j) ∧
      y.world.released = x.world.released ∧ y.world.table fd = some (.registered i) := by
  have hreserve : Step processWorld x _ :=
    .call (w := x.world) (some 0 : Option ℕ) hleft (.other rfl rfl rfl)
  have hopen := Relation.ReflTransGen.single hreserve |>.tail (.call (i := i)
    (.ok fd : Except Errno ℕ) (Function.update_self _ _ _) (.opens fd rfl hfree))
  have hioctl := hopen.tail (.call (i := i) (.ok 0 : Except Errno ℕ) (Function.update_self _ _ _)
    (.registers fd rfl))
  refine ⟨_, hioctl, Function.update_self _ _ _, fun j hij => ?_, rfl, enter_self _ _ _⟩
  simp [Function.update_of_ne hij]

/-- The process closes what the first of two registrations has returned, and the second is given
the same number. -/
theorem registrations_hold_their_own_reused :
    let s : Descriptors Bool := ⟨fun _ => none, []⟩
    KeepsTable (processWorld : World Bool Ans _) id ∧
      (∀ fd, s.table fd = none ∨ s.table fd = some .process) ∧ s.released = [] ∧
      ∃ x, Reaches processWorld (registerPool smallUapi (fun _ => smallHives) (fun _ => 9) s) x ∧
        x.left true = .ret 3 ∧ x.left false = .ret 3 ∧ true ∈ x.world.released ∧
        ∀ fd, x.world.table fd = some (.registered false) ↔ fd = 3 := by
  intro s
  refine ⟨keepsTable_processWorld, fun _ => Or.inl rfl, rfl, ?_⟩
  obtain ⟨x, hx, hret, hothers, hreleased, hentry⟩ := exists_reaches_registered (i := true)
    (x := registerPool smallUapi (fun _ => smallHives) (fun _ => 9) s) 3 rfl rfl
  have hclosed := hx.tail (.move (.releases 3 true hentry))
  obtain ⟨y, hy, hret', hothers', hreleased', -⟩ := exists_reaches_registered (i := false)
    (x := { x with world := { x.world.enter 3 none with released := true :: x.world.released } }) 3
    (hothers false (by decide)) (enter_self x.world 3 none)
  have hreached := hclosed.trans hy
  refine ⟨y, hreached, (hothers' true (by decide)).trans hret, hret', ?_, fun fd => ?_⟩
  · rw [hreleased']
    exact List.mem_cons_self
  · have hkept : false ∉ y.world.released := by
      rw [hreleased', hreleased]
      exact List.not_mem_cons_of_ne_of_not_mem (by decide) List.not_mem_nil
    exact ((registrations_hold_their_own smallUapi (fun _ => smallHives) (fun _ => 9)
      keepsTable_processWorld (fun _ => Or.inl rfl) rfl hreached).2.2.2.2.1 false 3 hret'
      (by decide) hkept fd).2

end Table

end Librsi

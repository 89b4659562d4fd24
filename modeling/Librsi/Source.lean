import Librsi.System

/-!
# `<rsi/source.h>`: becoming a registry source

`rsi_register` marshals the caller's hives into the kernel's argument structs, opens the
registry device and registers the hives on it.  Four steps can fail, each with an `errno`
of its own, and after the last of them there is a descriptor to close again without
losing that `errno`.

`Registration` lists the traces of a call, and `registration_rsiRegister` shows that there
are no others.  What a call opens, what it closes, what it tells the kernel and what it
leaves in `errno` is then read off five short lists of events
(`rsiRegister_leak_free`).
-/

namespace Librsi

open WireFormat Interaction

/-! ## The function -/

/-- `struct rsi_hive`.  The name is not read here, only passed on. -/
structure RsiHive where
  name : UInt64
  nameLen : UInt32
  flags : UInt32
  rootGuid : Guid
  scopeGuid : Guid

/-- What `peios-uapi` supplies: the `ioctl` request, and the `Default` of the two argument
structs. -/
structure Uapi where
  regSrcRegister : UInt64
  hiveEntry : RegSrcHiveEntry
  registerArgs : RegSrcRegisterArgs

/-- The defaults are all zero; the fields a call does not set are the padding. -/
structure Uapi.ZeroDefaults (U : Uapi) : Prop where
  pad0 : U.hiveEntry.pad0 = 0
  pad1 : U.hiveEntry.pad1 = 0
  pad : U.registerArgs.pad = 0

/-- `/dev/pkm_registry`, NUL-terminated. -/
def device : Bytes :=
  [0x2f, 0x64, 0x65, 0x76, 0x2f, 0x70, 0x6b, 0x6d, 0x5f, 0x72, 0x65, 0x67, 0x69, 0x73, 0x74,
    0x72, 0x79, 0x00]

/-- `O_RDWR | O_CLOEXEC`. -/
def openFlags : CInt := (0x2 ||| 0x80000 : ℕ)

section Source

variable (U : Uapi)

/-- `marshal_hive`. -/
def marshalHive (h : RsiHive) : RegSrcHiveEntry :=
  { U.hiveEntry with
    nameLen := h.nameLen
    namePtr := h.name
    rootGuid := h.rootGuid
    flags := h.flags
    scopeGuid := h.scopeGuid }

/-- The part of `rsi_register` that talks to the kernel, with the arguments marshalled. -/
def openAndRegister (args : RegSrcRegisterArgs) : Sys CInt :=
  .call (.openDevice device openFlags) fun
    | .error _ => .ret (-1)
    | .ok fd => .call (.ioctl fd U.regSrcRegister args) fun
        | .error _ =>
            -- the cleanup must not lose the `errno` of the registration
            .call .getErrno fun err => .call (.close fd) fun _ =>
              .call (.setErrno err) fun _ => .ret (-1)
        | .ok _ => .ret fd

/-- `rsi_register`. -/
def rsiRegister (hives : Arr RsiHive) (maxSequence : UInt64) : Sys CInt :=
  if hives.count = 0 ∨ hives.ptr.isNone then failErrno EINVAL
  else
    (Vec.new.tryReserve hives.count.toNat).either
      (fun entries => do
        let entries ← hives.items.foldlM (fun entries h => entries.push (marshalHive U h)) entries
        openAndRegister U { U.registerArgs with
          hiveCount := hives.count
          maxSequence := maxSequence
          hives := entries.data })
      fun _ => failErrno ENOMEM

end Source

/-! ## What a call can come to -/

/-- No hives, or nowhere to read them. -/
def BadHives (hives : Arr RsiHive) : Prop := hives.count = 0 ∨ hives.ptr = none

/-- The arguments a call hands to the kernel. -/
def registerArgs (U : Uapi) (hives : Arr RsiHive) (maxSequence : UInt64) : RegSrcRegisterArgs :=
  { U.registerArgs with
    hiveCount := hives.count
    maxSequence := maxSequence
    hives := hives.items.map (marshalHive U) }

/-- What a call can come to, one case for each step that can fail and one for success.  The
`errno` that is saved across the `close` is whatever the slot held. -/
inductive Registration (U : Uapi) (hives : Arr RsiHive) (maxSequence : UInt64) :
    Outcome Errno CInt → Trace → Prop
  | badHives (bad : BadHives hives) :
      Registration U hives maxSequence (.ret (-1)) [⟨.setErrno EINVAL, ()⟩]
  | noRoom (good : ¬ BadHives hives) :
      Registration U hives maxSequence (.ret (-1))
        [⟨.tryReserve hives.count.toNat, none⟩, ⟨.setErrno ENOMEM, ()⟩]
  | noDevice (good : ¬ BadHives hives) (slack : ℕ) (e : Errno) :
      Registration U hives maxSequence (.ret (-1))
        [⟨.tryReserve hives.count.toNat, some slack⟩, ⟨.openDevice device openFlags, .error e⟩]
  | refused (good : ¬ BadHives hives) (slack fd : ℕ) (e saved : Errno) (left : Option Errno) :
      Registration U hives maxSequence (.ret (-1))
        [⟨.tryReserve hives.count.toNat, some slack⟩, ⟨.openDevice device openFlags, .ok fd⟩,
          ⟨.ioctl fd U.regSrcRegister (registerArgs U hives maxSequence), .error e⟩,
          ⟨.getErrno, saved⟩, ⟨.close fd, left⟩, ⟨.setErrno saved, ()⟩]
  | registered (good : ¬ BadHives hives) (slack fd r : ℕ) :
      Registration U hives maxSequence (.ret fd)
        [⟨.tryReserve hives.count.toNat, some slack⟩, ⟨.openDevice device openFlags, .ok fd⟩,
          ⟨.ioctl fd U.regSrcRegister (registerArgs U hives maxSequence), .ok r⟩]

/-- **Every run of `rsi_register` is one of the listed ones.**  In particular the loop pushes
as many entries as were reserved, and none of them onto a full vector. -/
theorem registration_rsiRegister (U : Uapi) (hives : Arr RsiHive) (maxSequence : UInt64) :
    (rsiRegister U hives maxSequence).All (Registration U hives maxSequence) := by
  have hbad : hives.count = 0 ∨ hives.ptr.isNone ↔ BadHives hives := by
    rw [Option.isNone_iff_eq_none, BadHives]
  rw [rsiRegister]
  by_cases bad : BadHives hives
  · rw [if_pos (hbad.mpr bad)]
    exact fun _ => .badHives bad
  · rw [if_neg (mt hbad.mp bad)]
    refine Vec.all_tryReserve (fun _ => .noRoom bad) fun v slack hnew hcap => ?_
    have hlen : hives.items.length = hives.count.toNat :=
      Arr.length_items fun hd => bad (Or.inr hd.1)
    obtain ⟨entries, hloop, hdata⟩ := Vec.exists_foldlM_push (marshalHive U) hives.items v
      (by rw [hnew, hlen]; exact hcap)
    rw [hloop, Prog.ret_bind, hdata, hnew]
    intro opened
    cases opened with
    | error e => exact .noDevice bad slack e
    | ok fd =>
      intro answered
      cases answered with
      | error e => exact fun saved left _ => .refused bad slack fd e saved left
      | ok r => exact .registered bad slack fd r

/-! ## Reading a registration -/

/-- The descriptor an event opened. -/
def openedBy : Event Ans → Option CInt
  | ⟨.openDevice _ _, .ok fd⟩ => some fd
  | _ => none

/-- The descriptor an event closed. -/
def closedBy : Event Ans → Option CInt
  | ⟨.close fd, _⟩ => some fd
  | _ => none

/-- The descriptors opened, in order. -/
def opened (t : Trace) : List CInt := t.filterMap openedBy

/-- The descriptors closed, in order. -/
def closed (t : Trace) : List CInt := t.filterMap closedBy

/-- The entry passes the hive on: its name, its GUIDs and its flags, with zero padding. -/
structure Marshals (h : RsiHive) (e : RegSrcHiveEntry) : Prop where
  namePtr : e.namePtr = h.name
  nameLen : e.nameLen = h.nameLen
  flags : e.flags = h.flags
  rootGuid : e.rootGuid = h.rootGuid
  scopeGuid : e.scopeGuid = h.scopeGuid
  pad0 : e.pad0 = 0
  pad1 : e.pad1 = 0

/-- The arguments register exactly the caller's hives. -/
structure Registers (hives : Arr RsiHive) (maxSequence : UInt64) (args : RegSrcRegisterArgs) :
    Prop where
  hiveCount : args.hiveCount = hives.count
  maxSequence : args.maxSequence = maxSequence
  pad : args.pad = 0
  length : args.hives.length = hives.count.toNat
  entries : List.Forall₂ Marshals hives.items args.hives

/-- The first step that failed, and the `errno` it failed with. -/
inductive FailedFirst (hives : Arr RsiHive) (t : Trace) : Errno → Prop
  | badHives (bad : BadHives hives) : FailedFirst hives t EINVAL
  | reserve (good : ¬ BadHives hives) (failed : ReserveFailed t) : FailedFirst hives t ENOMEM
  | device (good : ¬ BadHives hives) (fine : ¬ ReserveFailed t) (none : opened t = [])
      {path : Bytes} {flags : CInt} {e : Errno} (failed : ⟨.openDevice path flags, .error e⟩ ∈ t) :
      FailedFirst hives t e
  | registration (good : ¬ BadHives hives) (fine : ¬ ReserveFailed t) {fd : CInt}
      (one : opened t = [fd]) {request : UInt64} {args : RegSrcRegisterArgs} {e : Errno}
      (failed : ⟨.ioctl fd request args, .error e⟩ ∈ t) : FailedFirst hives t e

theorem marshals_marshalHive {U : Uapi} (hU : U.ZeroDefaults) (h : RsiHive) :
    Marshals h (marshalHive U h) :=
  ⟨rfl, rfl, rfl, rfl, rfl, hU.pad0, hU.pad1⟩

theorem registers_registerArgs {U : Uapi} (hU : U.ZeroDefaults) {hives : Arr RsiHive}
    (good : ¬ BadHives hives) (maxSequence : UInt64) :
    Registers hives maxSequence (registerArgs U hives maxSequence) where
  hiveCount := rfl
  maxSequence := rfl
  pad := hU.pad
  length := by
    rw [registerArgs, List.length_map]
    exact Arr.length_items fun hd => good (Or.inr hd.1)
  entries := by
    rw [registerArgs, List.forall₂_map_right_iff, List.forall₂_same]
    exact fun h _ => marshals_marshalHive hU h

namespace Registration

variable {U : Uapi} {hives : Arr RsiHive} {maxSequence : UInt64} {o : Outcome Errno CInt}
  {t : Trace}

theorem returns (h : Registration U hives maxSequence o t) :
    o = .ret (-1) ∨ ∃ fd : ℕ, o = .ret fd := by
  cases h with
  | registered good slack fd r => exact Or.inr ⟨fd, rfl⟩
  | _ => exact Or.inl rfl

/-- A descriptor that is returned was opened, registered, and is still open. -/
theorem of_descriptor (h : Registration U hives maxSequence o t) {fd : CInt} (ho : o = .ret fd)
    (hfd : fd ≠ -1) :
    opened t = [fd] ∧ closed t = [] ∧
      ∃ args r, ⟨.ioctl fd U.regSrcRegister args, .ok r⟩ ∈ t := by
  cases h with
  | registered good slack fd' r =>
    obtain rfl := Outcome.ret.inj ho
    exact ⟨rfl, rfl, _, r, List.mem_of_getElem? (i := 2) rfl⟩
  | _ => exact absurd (Outcome.ret.inj ho).symm hfd

/-- A call that fails closes what it opened. -/
theorem closed_eq_opened (h : Registration U hives maxSequence o t) (ho : o = .ret (-1)) :
    closed t = opened t ∧ (opened t).length ≤ 1 := by
  cases h with
  | badHives bad => exact ⟨rfl, Nat.zero_le 1⟩
  | noRoom good => exact ⟨rfl, Nat.zero_le 1⟩
  | noDevice good slack e => exact ⟨rfl, Nat.zero_le 1⟩
  | refused good slack fd e saved left => exact ⟨rfl, le_refl 1⟩
  | registered good slack fd r =>
    have hfd : (fd : ℤ) = -1 := Outcome.ret.inj ho
    omega

/-- The device is opened only with good arguments and memory for them. -/
theorem not_openDevice (h : Registration U hives maxSequence o t)
    (hfail : BadHives hives ∨ ReserveFailed t) (path : Bytes) (flags : CInt)
    (a : Ans (.openDevice path flags)) : ⟨.openDevice path flags, a⟩ ∉ t := by
  cases h with
  | badHives bad => simp
  | noRoom good => simp
  | noDevice good slack e =>
    exact absurd (hfail.resolve_left good) (by simp [ReserveFailed, ReserveFailure])
  | refused good slack fd e saved left =>
    exact absurd (hfail.resolve_left good) (by simp [ReserveFailed, ReserveFailure])
  | registered good slack fd r =>
    exact absurd (hfail.resolve_left good) (by simp [ReserveFailed, ReserveFailure])

/-- What the kernel is told. -/
theorem registers_of_mem (h : Registration U hives maxSequence o t) (hU : U.ZeroDefaults)
    {fd : CInt} {request : UInt64} {args : RegSrcRegisterArgs} {a : Except Errno ℕ}
    (hmem : ⟨.ioctl fd request args, a⟩ ∈ t) : Registers hives maxSequence args := by
  have hargs : ¬ BadHives hives ∧ args = registerArgs U hives maxSequence := by
    cases h with
    | badHives bad => exact absurd hmem (by simp)
    | noRoom good => exact absurd hmem (by simp)
    | noDevice good slack e => exact absurd hmem (by simp)
    | refused good slack fd' e saved left =>
      simp only [List.mem_cons, Event.mk.injEq, reduceCtorEq, false_and, false_or, or_false,
        Call.ioctl.injEq, List.not_mem_nil] at hmem
      exact ⟨good, hmem.1.2.2⟩
    | registered good slack fd' r =>
      simp only [List.mem_cons, Event.mk.injEq, reduceCtorEq, false_and, false_or, or_false,
        Call.ioctl.injEq, List.not_mem_nil] at hmem
      exact ⟨good, hmem.1.2.2⟩
  rw [hargs.2]
  exact registers_registerArgs hU hargs.1 maxSequence

end Registration

/-- A failed registration leaves the `errno` of the first step that failed.  What the
`close` left is overwritten with what was saved, and that is what the `ioctl` had set. -/
theorem failedFirst_rsiRegister (U : Uapi) (hives : Arr RsiHive) (maxSequence : UInt64)
    (env : Env) (past : Trace)
    (hfail : (exec env (rsiRegister U hives maxSequence) past).1 = .ret (-1)) :
    ∃ e, FailedFirst hives (exec env (rsiRegister U hives maxSequence) past).2 e ∧
      lastErrno (exec env (rsiRegister U hives maxSequence) past).2 = some e := by
  have hreg := (registration_rsiRegister U hives maxSequence).run env.answer past
  have hanswers : ∀ t e t', (exec env (rsiRegister U hives maxSequence) past).2 = t ++ e :: t' →
      e.answer = env.answer (past ++ t) e.call :=
    fun t e t' => Prog.answer_of_run_eq_append
  change Registration U hives maxSequence (exec env (rsiRegister U hives maxSequence) past).1
    (exec env (rsiRegister U hives maxSequence) past).2 at hreg
  generalize exec env (rsiRegister U hives maxSequence) past = r at hreg hanswers hfail ⊢
  obtain ⟨o, t⟩ := r
  cases hreg with
  | badHives bad => exact ⟨EINVAL, .badHives bad, rfl⟩
  | noRoom good => exact ⟨ENOMEM, .reserve good ⟨_, List.mem_cons_self, trivial⟩, rfl⟩
  | noDevice good slack e =>
    refine ⟨e, .device good ?_ rfl (List.mem_of_getElem? (i := 1) rfl), rfl⟩
    simp [ReserveFailed, ReserveFailure]
  | refused good slack fd e saved left =>
    have hsaved : saved = e := by
      have hanswer : saved = (lastErrno (past ++ [_, _, _])).getD env.errno :=
        hanswers [_, _, _] ⟨.getErrno, saved⟩ _ rfl
      rw [hanswer, lastErrno_append_of_some (e := e) past rfl, Option.getD_some]
    refine ⟨e, .registration good ?_ rfl (List.mem_of_getElem? (i := 2) rfl), ?_⟩
    · simp [ReserveFailed, ReserveFailure]
    · rw [hsaved]
      exact lastErrno_append_of_some [_, _, _, _, _] rfl
  | registered good slack fd r =>
    have hfd : (fd : ℤ) = -1 := Outcome.ret.inj hfail
    omega

/-- **`rsi_register` leaks no descriptor and passes on exactly the caller's hives.**
Whatever the allocator and the kernel answer: a call returns `-1` or a descriptor; a
descriptor it returns was opened and registered, and is still open; before it returns `-1`
it has closed what it opened, once, and `errno` is that of the first step that failed; the
device is not opened after a failure before it; and what is registered are the hives. -/
theorem rsiRegister_leak_free (U : Uapi) (hU : U.ZeroDefaults) (hives : Arr RsiHive)
    (maxSequence : UInt64) (env : Env) (past : Trace) :
    let r := exec env (rsiRegister U hives maxSequence) past
    (r.1 = .ret (-1) ∨ ∃ fd : ℕ, r.1 = .ret fd) ∧
      (∀ fd, r.1 = .ret fd → fd ≠ -1 → opened r.2 = [fd] ∧ closed r.2 = [] ∧
        ∃ args n, ⟨.ioctl fd U.regSrcRegister args, .ok n⟩ ∈ r.2) ∧
      (r.1 = .ret (-1) → (closed r.2 = opened r.2 ∧ (opened r.2).length ≤ 1) ∧
        ∃ e, FailedFirst hives r.2 e ∧ lastErrno r.2 = some e) ∧
      (BadHives hives ∨ ReserveFailed r.2 → ∀ path flags a, ⟨.openDevice path flags, a⟩ ∉ r.2) ∧
      ∀ fd request args a, ⟨.ioctl fd request args, a⟩ ∈ r.2 →
        Registers hives maxSequence args := by
  intro r
  have hreg : Registration U hives maxSequence r.1 r.2 :=
    (registration_rsiRegister U hives maxSequence).run env.answer past
  refine ⟨hreg.returns, fun fd ho hfd => hreg.of_descriptor ho hfd, fun ho => ?_,
    hreg.not_openDevice, fun fd request args a hmem => hreg.registers_of_mem hU hmem⟩
  exact ⟨hreg.closed_eq_opened ho, failedFirst_rsiRegister U hives maxSequence env past ho⟩

/-- The request number and the zero defaults. -/
def smallUapi : Uapi where
  regSrcRegister := 0x40185200
  hiveEntry := ⟨0, 0, 0, Guid.nil, 0, Guid.nil, 0⟩
  registerArgs := ⟨0, 0, 0, []⟩

/-- A global hive with a name of seven bytes, and a private one with a name of five. -/
def smallHives : Arr RsiHive :=
  Arr.ofList [⟨4096, 7, 0, ⟨List.replicate 16 0x11, by decide⟩, Guid.nil⟩,
    ⟨8192, 5, 1, ⟨List.replicate 16 0x22, by decide⟩, ⟨List.replicate 16 0x33, by decide⟩⟩]
    (by decide)

/-- A kernel that refuses the registration with `EPERM`, and a `close` that fails with
`EIO`. -/
def refusing : Env :=
  { Env.granting with ioctl := fun _ _ _ _ => .error 1, close := fun _ _ => some EIO }

theorem rsiRegister_leak_free_refused :
    let r := exec refusing (rsiRegister smallUapi smallHives 9) []
    smallUapi.ZeroDefaults ∧ r.1 = .ret (-1) ∧ closed r.2 = [3] ∧ opened r.2 = [3] ∧
      ∃ e, FailedFirst smallHives r.2 e ∧ lastErrno r.2 = some e ∧ e = 1 := by
  intro r
  have hU : smallUapi.ZeroDefaults := ⟨rfl, rfl, rfl⟩
  have hret : r.1 = .ret (-1) := by decide +kernel
  have hopened : opened r.2 = [3] := by decide +kernel
  obtain ⟨⟨hclosed, -⟩, e, hfirst, herrno⟩ :=
    (rsiRegister_leak_free smallUapi hU smallHives 9 refusing []).2.2.1 hret
  have he : lastErrno r.2 = some 1 := by decide +kernel
  refine ⟨hU, hret, hclosed.trans hopened, hopened, e, hfirst, herrno, ?_⟩
  exact Option.some.inj (herrno.symm.trans he)

end Librsi

import Librsi.Abi
import Librsi.Lib.Interaction
import Librsi.Lib.SortedVec
import Mathlib.Logic.Basic

/-!
# What librsi asks of the system

Everything the library does apart from computing is a call: asking the allocator for
memory, writing to the source descriptor, setting `errno`.  A computation of the
library is a `Sys`, a tree of such calls, and `Env` is one behaviour of the system: an
answer to every call, free to depend on everything that happened before.

* `try_reserve` may fail or succeed each time it is called; success gives room for at
  least the number of elements asked for, with any slack.  The real `Vec` answers some
  of these calls without allocating.  Those answers are among the ones considered here.
* `try_extend` appends all its bytes or fails.  What a failed call leaves in the vector
  is not specified, so the environment chooses it.
* `write` fails with an error number, or takes some number of bytes.
* `open` and `ioctl` fail with an error number or return; `close` may leave anything in
  `errno`.

`Vec` is a vector with its capacity.  Pushing onto a full vector would allocate
infallibly; in the library that aborts the process, and so it does here.
-/

namespace Librsi

open WireFormat Interaction

/-! ## Calls, answers and events -/

/-- The answer of `try_extend`: it appended its bytes, or it failed and left the vector
holding `left`. -/
inductive ExtendAns where
  | appended
  | failed (left : Bytes)

/-- The calls. -/
inductive Call where
  | tryReserve (additional : ℕ)
  | tryExtend (b : Bytes)
  | write (fd : CInt) (buf : Bytes)
  | openDevice (path : Bytes) (flags : CInt)
  | ioctl (fd : CInt) (request : UInt64) (args : RegSrcRegisterArgs)
  | close (fd : CInt)
  | getErrno
  | setErrno (e : Errno)

/-- Their answers.  A `try_reserve` that succeeds says how much more than it was asked
for it reserved; a `write` that succeeds says how many bytes it took; a `close` says
what it left in `errno`, if it touched it. -/
abbrev Ans : Call → Type
  | .tryReserve _ => Option ℕ
  | .tryExtend _ => ExtendAns
  | .write _ _ => Except Errno ℕ
  | .openDevice _ _ => Except Errno ℕ
  | .ioctl _ _ _ => Except Errno ℕ
  | .close _ => Option Errno
  | .getErrno => Errno
  | .setErrno _ => Unit

instance (c : Call) : Nonempty (Ans c) := by
  cases c with
  | tryReserve n => exact ⟨(none : Option ℕ)⟩
  | tryExtend b => exact ⟨ExtendAns.appended⟩
  | write fd buf => exact ⟨(.ok 0 : Except Errno ℕ)⟩
  | openDevice path flags => exact ⟨(.ok 0 : Except Errno ℕ)⟩
  | ioctl fd request args => exact ⟨(.ok 0 : Except Errno ℕ)⟩
  | close fd => exact ⟨(none : Option Errno)⟩
  | getErrno => exact ⟨(0 : Errno)⟩
  | setErrno e => exact ⟨()⟩

abbrev Trace := List (Event Ans)

/-- A computation of the library: it returns, fails with an `errno`, or aborts. -/
abbrev Sys := Prog Ans Errno

/-- Set `errno` and return the `-1` sentinel. -/
def failErrno (e : Errno) : Sys CInt := .call (.setErrno e) fun _ => .ret (-1)

/-! ## Reading a trace -/

/-- A `try_reserve` that failed. -/
def ReserveFailure : Event Ans → Prop
  | ⟨.tryReserve _, none⟩ => True
  | _ => False

/-- A `try_extend` that failed. -/
def ExtendFailure : Event Ans → Prop
  | ⟨.tryExtend _, .failed _⟩ => True
  | _ => False

/-- The buffer an event handed to `write`. -/
def handedBy : Event Ans → Option (CInt × Bytes)
  | ⟨.write fd buf, _⟩ => some (fd, buf)
  | _ => none

/-- The bytes of an event that were taken on the descriptor `fd`.  Where several calls write at
the same time, that they arrive there in one piece is an assumption of its own. -/
def takenBy (fd : CInt) : Event Ans → Bytes
  | ⟨.write fd' buf, .ok n⟩ => if fd' = fd then buf.take n else []
  | _ => []

/-- The bytes an event appended to the frame buffer. -/
def extendedBy : Event Ans → Bytes
  | ⟨.tryExtend b, .appended⟩ => b
  | _ => []

/-- The value an event left in `errno` as its result.  What the allocator may have left there is
not kept: a function that fails puts its reason in `errno` after the last allocation. -/
def errnoBy : Event Ans → Option Errno
  | ⟨.setErrno e, _⟩ => some e
  | ⟨.write _ _, .error e⟩ => some e
  | ⟨.openDevice _ _, .error e⟩ => some e
  | ⟨.ioctl _ _ _, .error e⟩ => some e
  | ⟨.close _, some e⟩ => some e
  | _ => none

/-- The buffers handed to `write`, in order. -/
def handed (t : Trace) : List (CInt × Bytes) := t.filterMap handedBy

/-- The bytes that were taken on the descriptor, in order. -/
def stream (fd : CInt) (t : Trace) : Bytes := t.flatMap (takenBy fd)

/-- The bytes appended to the frame buffer, in order. -/
def extended (t : Trace) : Bytes := t.flatMap extendedBy

/-- The last value put in `errno`. -/
def lastErrno (t : Trace) : Option Errno := (t.filterMap errnoBy).getLast?

/-- Some `try_reserve` failed. -/
def ReserveFailed (t : Trace) : Prop := ∃ e ∈ t, ReserveFailure e

/-- Some `try_extend` failed. -/
def ExtendFailed (t : Trace) : Prop := ∃ e ∈ t, ExtendFailure e

/-- Only `try_reserve` was called. -/
def ReserveOnly (t : Trace) : Prop := ∀ e ∈ t, ∃ n, e.call = .tryReserve n

/-- Only `try_extend` was called. -/
def ExtendOnly (t : Trace) : Prop := ∀ e ∈ t, ∃ b, e.call = .tryExtend b

/-- Only the allocator was called. -/
def AllocOnly (t : Trace) : Prop :=
  ∀ e ∈ t, (∃ n, e.call = .tryReserve n) ∨ ∃ b, e.call = .tryExtend b

/-- The call returned `-1` with this `errno`. -/
def FailsWith (e : Errno) (o : Outcome Errno CInt) (t : Trace) : Prop :=
  o = .ret (-1) ∧ lastErrno t = some e

/-- The call returned `-1` with this `errno` and never called `write`. -/
def RejectsWith (e : Errno) (o : Outcome Errno CInt) (t : Trace) : Prop :=
  FailsWith e o t ∧ handed t = []

/-! ### How traces compose -/

@[simp] theorem reserveFailed_nil : ¬ ReserveFailed [] := by simp [ReserveFailed]

@[simp] theorem reserveFailed_append {t t' : Trace} :
    ReserveFailed (t ++ t') ↔ ReserveFailed t ∨ ReserveFailed t' := by
  simp [ReserveFailed, or_and_right, exists_or]

@[simp] theorem extendFailed_nil : ¬ ExtendFailed [] := by simp [ExtendFailed]

@[simp] theorem extendFailed_append {t t' : Trace} :
    ExtendFailed (t ++ t') ↔ ExtendFailed t ∨ ExtendFailed t' := by
  simp [ExtendFailed, or_and_right, exists_or]

@[simp] theorem handed_append (t t' : Trace) : handed (t ++ t') = handed t ++ handed t' :=
  List.filterMap_append

@[simp] theorem stream_append (fd : CInt) (t t' : Trace) :
    stream fd (t ++ t') = stream fd t ++ stream fd t' :=
  List.flatMap_append

@[simp] theorem extended_append (t t' : Trace) : extended (t ++ t') = extended t ++ extended t' :=
  List.flatMap_append

/-- What is put in `errno` last is what it holds. -/
theorem lastErrno_append_of_some (t : Trace) {t' : Trace} {e : Errno}
    (h : lastErrno t' = some e) : lastErrno (t ++ t') = some e := by
  rw [lastErrno] at h
  rw [lastErrno, List.filterMap_append, List.getLast?_append, h, Option.some_or]

theorem ReserveOnly.append {t t' : Trace} (h : ReserveOnly t) (h' : ReserveOnly t') :
    ReserveOnly (t ++ t') := by
  intro e he
  rcases List.mem_append.mp he with he | he
  · exact h e he
  · exact h' e he

theorem ExtendOnly.append {t t' : Trace} (h : ExtendOnly t) (h' : ExtendOnly t') :
    ExtendOnly (t ++ t') := by
  intro e he
  rcases List.mem_append.mp he with he | he
  · exact h e he
  · exact h' e he

theorem ReserveOnly.nil : ReserveOnly [] := fun _ he => absurd he List.not_mem_nil

theorem ExtendOnly.nil : ExtendOnly [] := fun _ he => absurd he List.not_mem_nil

theorem ReserveOnly.not_extendFailed {t : Trace} (h : ReserveOnly t) : ¬ ExtendFailed t := by
  rintro ⟨⟨c, a⟩, he, hfail⟩
  obtain ⟨n, rfl⟩ := h _ he
  exact hfail

theorem ReserveOnly.extended_eq_nil {t : Trace} (h : ReserveOnly t) : extended t = [] := by
  refine List.flatMap_eq_nil_iff.mpr ?_
  rintro ⟨c, a⟩ he
  obtain ⟨n, rfl⟩ := h _ he
  rfl

theorem ExtendOnly.not_reserveFailed {t : Trace} (h : ExtendOnly t) : ¬ ReserveFailed t := by
  rintro ⟨⟨c, a⟩, he, hfail⟩
  obtain ⟨b, rfl⟩ := h _ he
  exact hfail

/-- Validation reserves, encoding extends, and together they only allocate. -/
theorem ReserveOnly.append_extendOnly {t t' : Trace} (h : ReserveOnly t) (h' : ExtendOnly t') :
    AllocOnly (t ++ t') := by
  intro e he
  rcases List.mem_append.mp he with he | he
  · exact Or.inl (h e he)
  · exact Or.inr (h' e he)

theorem ReserveOnly.allocOnly {t : Trace} (h : ReserveOnly t) : AllocOnly t :=
  fun e he => Or.inl (h e he)

/-- The allocator neither writes nor reports through `errno`. -/
theorem AllocOnly.silent {t : Trace} (h : AllocOnly t) :
    handed t = [] ∧ (∀ fd, stream fd t = []) ∧ t.filterMap errnoBy = [] := by
  have key : ∀ e ∈ t, handedBy e = none ∧ (∀ fd, takenBy fd e = []) ∧ errnoBy e = none := by
    rintro ⟨c, a⟩ he
    rcases h _ he with ⟨n, rfl⟩ | ⟨b, rfl⟩
    · exact ⟨rfl, fun _ => rfl, rfl⟩
    · exact ⟨rfl, fun _ => rfl, rfl⟩
  refine ⟨List.filterMap_eq_nil_iff.mpr fun e he => (key e he).1, fun fd => ?_,
    List.filterMap_eq_nil_iff.mpr fun e he => (key e he).2.2⟩
  exact List.flatMap_eq_nil_iff.mpr fun e he => (key e he).2.1 fd

theorem AllocOnly.handed_append {t : Trace} (h : AllocOnly t) (t' : Trace) :
    handed (t ++ t') = handed t' := by
  rw [Librsi.handed_append, h.silent.1, List.nil_append]

theorem AllocOnly.stream_append {t : Trace} (h : AllocOnly t) (fd : CInt) (t' : Trace) :
    stream fd (t ++ t') = stream fd t' := by
  rw [Librsi.stream_append, h.silent.2.1, List.nil_append]

theorem AllocOnly.lastErrno_append {t : Trace} (h : AllocOnly t) (t' : Trace) :
    lastErrno (t ++ t') = lastErrno t' := by
  rw [lastErrno, List.filterMap_append, h.silent.2.2, List.nil_append, lastErrno]

/-! ## Environments -/

/-- One behaviour of the system.  `errno` is what the slot held at the start. -/
structure Env where
  reserve : Trace → ℕ → Option ℕ
  extend : Trace → Bytes → ExtendAns
  write : Trace → CInt → Bytes → Except Errno ℕ
  openDevice : Trace → Bytes → CInt → Except Errno ℕ
  ioctl : Trace → CInt → UInt64 → RegSrcRegisterArgs → Except Errno ℕ
  close : Trace → CInt → Option Errno
  errno : Errno

/-- The answer of an environment to a call.  Reading `errno` gives what was last put there;
the library reads it only right after an `ioctl` that failed. -/
def Env.answer (env : Env) (past : Trace) : (c : Call) → Ans c
  | .tryReserve n => env.reserve past n
  | .tryExtend b => env.extend past b
  | .write fd buf => env.write past fd buf
  | .openDevice path flags => env.openDevice past path flags
  | .ioctl fd request args => env.ioctl past fd request args
  | .close fd => env.close past fd
  | .getErrno => (lastErrno past).getD env.errno
  | .setErrno _ => ()

/-- Play a computation against an environment. -/
def exec {α : Type} (env : Env) (p : Sys α) (past : Trace) : Outcome Errno α × Trace :=
  p.run env.answer past

/-- No allocation fails in this environment. -/
structure Env.NoAllocFails (env : Env) : Prop where
  reserve : ∀ past n, env.reserve past n ≠ none
  extend : ∀ past b, env.extend past b = .appended

theorem Env.NoAllocFails.not_reserveFailed {α : Type} {env : Env} (h : env.NoAllocFails)
    (p : Sys α) (past : Trace) : ¬ ReserveFailed (exec env p past).2 := by
  rintro ⟨⟨c, a⟩, he, hfail⟩
  obtain ⟨past', hans⟩ := Prog.exists_answer_of_mem_run he
  cases c with
  | tryReserve n =>
    cases a with
    | none => exact h.reserve past' n hans.symm
    | some k => exact hfail
  | _ => exact hfail

theorem Env.NoAllocFails.not_extendFailed {α : Type} {env : Env} (h : env.NoAllocFails)
    (p : Sys α) (past : Trace) : ¬ ExtendFailed (exec env p past).2 := by
  rintro ⟨⟨c, a⟩, he, hfail⟩
  obtain ⟨past', hans⟩ := Prog.exists_answer_of_mem_run he
  cases c with
  | tryExtend b =>
    cases a with
    | appended => exact hfail
    | failed left => exact absurd (hans.trans (h.extend past' b)) (by simp)
  | _ => exact hfail

/-- Every `write` fails, or takes the whole buffer. -/
def Env.WritesWhole (env : Env) : Prop :=
  ∀ past fd buf n, env.write past fd buf = .ok n → n = buf.length

/-- The environment that grants everything. -/
def Env.granting : Env where
  reserve _ _ := some 0
  extend _ _ := .appended
  write _ _ buf := .ok buf.length
  openDevice _ _ _ := .ok 3
  ioctl _ _ _ _ := .ok 0
  close _ _ := none
  errno := 0

theorem Env.granting_noAllocFails : Env.granting.NoAllocFails where
  reserve _ _ := by simp [Env.granting]
  extend _ _ := rfl

theorem Env.granting_writesWhole : Env.granting.WritesWhole := by
  intro past fd buf n h
  exact (Except.ok.inj h).symm

/-! ## Vectors -/

/-- A vector together with its capacity. -/
structure Vec (α : Type) where
  data : List α
  capacity : ℕ
  le : data.length ≤ capacity

namespace Vec

variable {α : Type}

/-- `Vec::new`. -/
def new : Vec α := ⟨[], 0, le_refl 0⟩

/-- `try_reserve`, with a failure mapped to `ENOMEM`. -/
def tryReserve (v : Vec α) (additional : ℕ) : Sys (Vec α) :=
  .call (.tryReserve additional) fun
    | none => .err ENOMEM
    | some slack => .ret ⟨v.data, v.data.length + additional + slack, by omega⟩

/-- `push`.  On a full vector it would have to allocate. -/
def push (v : Vec α) (a : α) : Sys (Vec α) :=
  if h : v.data.length < v.capacity then
    .ret ⟨v.data ++ [a], v.capacity, by rw [List.length_append]; exact h⟩
  else .abort

/-- `sort_unstable`. -/
def sortUnstable [LinearOrder α] (v : Vec α) : Vec α :=
  ⟨SortedVec.sort v.data, v.capacity, by
    rw [SortedVec.sort, List.length_insertionSort]
    exact v.le⟩

/-- `dedup`. -/
def dedup [LinearOrder α] (v : Vec α) : Vec α :=
  ⟨SortedVec.dedup v.data, v.capacity,
    le_trans (List.destutter_sublist _ _).length_le v.le⟩

/-- **After a reservation there is room.**  What follows a `try_reserve` that succeeds may
count on the capacity it asked for, and on nothing more. -/
theorem all_tryReserve {β : Type} {v : Vec α} {n : ℕ} {k : Vec α → Sys β} {h : Errno → Sys β}
    {Q : Outcome Errno β → Trace → Prop}
    (hfail : (h ENOMEM).All fun o t => Q o (⟨.tryReserve n, none⟩ :: t))
    (hroom : ∀ v' slack, v'.data = v.data → v.data.length + n ≤ v'.capacity →
      (k v').All fun o t => Q o (⟨.tryReserve n, some slack⟩ :: t)) :
    ((v.tryReserve n).either k h).All Q := by
  intro a
  cases a with
  | none => exact hfail
  | some slack => exact hroom _ slack rfl (Nat.le_add_right _ slack)

/-- **A loop that pushes as many elements as there is room for** stays within the
capacity. -/
theorem exists_foldlM_push {ε : Type} (f : ε → α) (xs : List ε) (v : Vec α)
    (h : v.data.length + xs.length ≤ v.capacity) :
    ∃ v' : Vec α, xs.foldlM (fun v x => v.push (f x)) v = .ret v' ∧
      v'.data = v.data ++ xs.map f := by
  induction xs generalizing v with
  | nil => exact ⟨v, rfl, (List.append_nil v.data).symm⟩
  | cons x xs ih =>
    rw [List.length_cons] at h
    have hroom : v.data.length < v.capacity := by omega
    have hlen : (v.data ++ [f x]).length + xs.length ≤ v.capacity := by
      rw [List.length_append, List.length_singleton]
      omega
    obtain ⟨v', hrun, hdata⟩ :=
      ih ⟨v.data ++ [f x], v.capacity, by rw [List.length_append]; exact hroom⟩ hlen
    refine ⟨v', ?_, ?_⟩
    · rw [List.foldlM_cons, push, dif_pos hroom]
      exact hrun
    · rw [hdata, List.append_assoc, List.map_cons, List.singleton_append]

end Vec

end Librsi

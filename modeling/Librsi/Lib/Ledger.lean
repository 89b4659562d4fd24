import Mathlib.Data.List.Nodup
import Mathlib.Logic.Relation

/-!
# Requests and replies

The bookkeeping of a party that issues requests and takes replies.  A request is pending
from the time it is delivered until it is answered, keys are never used twice, and a reply
is only taken for a request that is pending.

Two such ledgers can be about the same exchange and differ in what they keep of a reply,
for instance its bytes or its meaning.  `Reads` relates them, and a step of the one is a
step of the other as long as what it takes can be read.
-/

namespace RequestReply

variable {Q R S K : Type}

/-- The requests that wait for a reply, and those that got one, in the order they did. -/
structure Ledger (Q R : Type) where
  pending : List Q
  answered : List (Q × R)

namespace Ledger

/-- Before anything was asked. -/
def empty : Ledger Q R := ⟨[], []⟩

/-- Ask something. -/
def deliver (q : Q) (l : Ledger Q R) : Ledger Q R := ⟨q :: l.pending, l.answered⟩

/-- Take a reply. -/
def answer [DecidableEq Q] (q : Q) (r : R) (l : Ledger Q R) : Ledger Q R :=
  ⟨l.pending.erase q, l.answered ++ [(q, r)]⟩

/-- The keys in use. -/
def keys (key : Q → K) (l : Ledger Q R) : List K :=
  l.pending.map key ++ l.answered.map fun a => key a.1

section Steps

variable [DecidableEq Q] (key : Q → K) (Offers : Q → Prop) (Takes : Q → R → Prop)

/-- One step: a request with a fresh key is delivered, or a pending one is answered. -/
inductive Step : Ledger Q R → Ledger Q R → Prop
  | deliver {l : Ledger Q R} (q : Q) (offers : Offers q) (fresh : key q ∉ l.keys key) :
      Step l (l.deliver q)
  | answer {l : Ledger Q R} (q : Q) (r : R) (pending : q ∈ l.pending) (takes : Takes q r) :
      Step l (l.answer q r)

/-- Any number of steps from the empty ledger. -/
def Reachable (l : Ledger Q R) : Prop :=
  Relation.ReflTransGen (Step key Offers Takes) empty l

variable {key Offers Takes} {l l' : Ledger Q R}

/-- What is pending was offered. -/
theorem Reachable.offers (h : Reachable key Offers Takes l) : ∀ q ∈ l.pending, Offers q := by
  induction h with
  | refl => exact fun q hq => absurd hq List.not_mem_nil
  | tail _ hstep ih =>
    cases hstep with
    | deliver q offers fresh => exact List.forall_mem_cons.mpr ⟨offers, ih⟩
    | answer q r pending takes => exact fun q' hq' => ih q' (List.mem_of_mem_erase hq')

end Steps

/-! ## Two views of one exchange -/

/-- The ledgers agree on the requests, and each reply of the first reads as the one of the
second. -/
structure Reads (read : Q → R → Option S) (l : Ledger Q R) (m : Ledger Q S) : Prop where
  pending : l.pending = m.pending
  answered : List.Forall₂ (fun a b => a.1 = b.1 ∧ read a.1 a.2 = some b.2) l.answered m.answered

section Reads

variable {read : Q → R → Option S} {l : Ledger Q R} {m : Ledger Q S}

theorem Reads.keys_eq (h : Reads read l m) (key : Q → K) : l.keys key = m.keys key := by
  have hanswered : (l.answered.map fun a => key a.1) = m.answered.map fun b => key b.1 := by
    refine List.forall₂_eq_eq_eq ▸ ?_
    rw [List.forall₂_map_left_iff, List.forall₂_map_right_iff]
    exact h.answered.imp fun a b hab => congrArg key hab.1
  rw [keys, keys, h.pending, hanswered]

theorem Reads.deliver (h : Reads read l m) (q : Q) : Reads read (l.deliver q) (m.deliver q) :=
  ⟨congrArg (q :: ·) h.pending, h.answered⟩

theorem Reads.answer [DecidableEq Q] (h : Reads read l m) {q : Q} {r : R} {s : S}
    (hread : read q r = some s) : Reads read (l.answer q r) (m.answer q s) := by
  refine ⟨congrArg (List.erase · q) h.pending, ?_⟩
  exact List.rel_append h.answered (List.Forall₂.cons ⟨rfl, hread⟩ List.Forall₂.nil)

end Reads

end Ledger

end RequestReply

import Librsi.Lib.Interaction
import Mathlib.Algebra.BigOperators.Group.Finset.Piecewise
import Mathlib.Algebra.GroupWithZero.Nat
import Mathlib.Data.List.Count
import Mathlib.Logic.Function.Basic
import Mathlib.Logic.Relation

/-!
# Programs that run at the same time

A pool is a family of programs in progress, together with the world they run in and
everything they have called so far, in the order it happened.  A step is a move of the
world on its own or one call of one program, so a run of the pool is an interleaving,
and what holds in every reachable pool holds whatever the scheduler does.  The family
may be infinite and its members need not all start: calls that are made one after the
other, or that are only made because of what an earlier one returned, are interleavings
too.

The rule of this file is `Reaches.all_left`: what a program guarantees at the end of every
run, it still guarantees in a pool, of its own calls and with the ones it has already made
put in front.  So a condition that was proved about one program needs no second proof
about its interleavings, and what is left to prove about a pool is how the events of the
programs fit together.

* `eventsOf` projects the history to one program, and `callersOf` lists the programs that
  took part in events of a kind.
* `Reaches.all_left`, `Reaches.returned`, `Reaches.exists_completion`, `Reaches.next` are
  the rule and its readings at a program that has returned, that is under way, and that is
  about to make a call.
* `Reaches.answered` says that every event was an answer of the world, and `Reaches.observed`
  what the events add up to in it.
* `Within` bounds the calls of a program.  `Reaches.length_eventsOf_lt`, `length_past_eq_sum`
  and `exists_step` make of it that a program that is not done has budget left, and that a
  run is short and does not get stuck.
-/

namespace Interaction

variable {C : Type} {A : C → Type} {E α ι σ : Type}

namespace Prog

/-- A condition on every run holds of some run, if every call can be answered. -/
theorem All.exists [hA : ∀ c, Nonempty (A c)] {p : Prog A E α}
    {Q : Outcome E α → List (Event A) → Prop} (h : p.All Q) : ∃ o t, Q o t := by
  induction p generalizing Q with
  | ret a => exact ⟨_, _, h⟩
  | err e => exact ⟨_, _, h⟩
  | abort => exact ⟨_, _, h⟩
  | call c k ih =>
    obtain ⟨a⟩ := hA c
    obtain ⟨o, t, ht⟩ := ih a (h a)
    exact ⟨o, _, ht⟩

/-- A program whose runs are all empty and return `a` has returned `a`. -/
theorem All.eq_ret [hA : ∀ c, Nonempty (A c)] {p : Prog A E α} {a : α}
    (h : p.All fun o t => o = .ret a ∧ t = []) : p = .ret a := by
  cases p with
  | ret b => rw [Outcome.ret.inj h.1]
  | err e => exact absurd h.1 (by simp)
  | abort => exact absurd h.1 (by simp)
  | call c k =>
    obtain ⟨b⟩ := hA c
    obtain ⟨o, t, -, ht⟩ := (h b).exists
    exact absurd ht (by simp)

/-- Every run of the program makes at most `n` calls. -/
def Within (n : ℕ) (p : Prog A E α) : Prop := p.All fun _ t => t.length ≤ n

namespace Within

variable {F β : Type} {n m : ℕ} {p : Prog A E α}

theorem ret (n : ℕ) (a : α) : Within n (.ret a : Prog A E α) := Nat.zero_le n

theorem err (n : ℕ) (e : E) : Within n (.err e : Prog A E α) := Nat.zero_le n

theorem abort (n : ℕ) : Within n (.abort : Prog A E α) := Nat.zero_le n

theorem mono (h : Within n p) (hnm : n ≤ m) : Within m p :=
  All.mono h fun _ _ ht => le_trans ht hnm

theorem call {c : C} {k : A c → Prog A E α} (h : ∀ a, Within n (k a)) :
    Within (n + 1) (.call c k) :=
  fun a => All.mono (h a) fun _ _ ht => Nat.succ_le_succ ht

theorem either {k : α → Prog A F β} {h : E → Prog A F β} (hp : Within n p)
    (hk : ∀ a, Within m (k a)) (hh : ∀ e, Within m (h e)) : Within (n + m) (p.either k h) := by
  have happend : ∀ (q : Prog A F β) (t : List (Event A)), Within m q → t.length ≤ n →
      q.All fun _ t' => (t ++ t').length ≤ n + m := by
    intro q t hq ht
    refine All.mono hq fun o t' ht' => ?_
    rw [List.length_append]
    exact Nat.add_le_add ht ht'
  exact all_either hp (fun a t ht => happend _ t (hk a) ht) (fun e t ht => happend _ t (hh e) ht)
    fun t ht => le_trans ht (Nat.le_add_right n m)

theorem bind {k : α → Prog A E β} (hp : Within n p) (hk : ∀ a, Within m (k a)) :
    Within (n + m) (p >>= k) :=
  hp.either hk fun e => err m e

/-- **A loop needs what its rounds need together.** -/
theorem foldlM {ε : Type} {body : β → ε → Prog A E β} {g : ε → ℕ}
    (h : ∀ b x, Within (g x) (body b x)) (xs : List ε) (b : β) :
    Within (xs.map g).sum (xs.foldlM body b) := by
  induction xs generalizing b with
  | nil => exact ret 0 b
  | cons x xs ih =>
    rw [List.foldlM_cons, List.map_cons, List.sum_cons]
    exact (h b x).bind ih

end Within

end Prog

/-! ## Histories -/

section History

variable [DecidableEq ι]

/-- The events of one program, in order. -/
def eventsOf (i : ι) (past : List (ι × Event A)) : List (Event A) :=
  (past.filter fun e => e.1 = i).map Prod.snd

@[simp] theorem eventsOf_nil (i : ι) : eventsOf i ([] : List (ι × Event A)) = [] := rfl

@[simp] theorem eventsOf_append (i : ι) (past past' : List (ι × Event A)) :
    eventsOf i (past ++ past') = eventsOf i past ++ eventsOf i past' := by
  rw [eventsOf, List.filter_append, List.map_append, eventsOf, eventsOf]

@[simp] theorem eventsOf_self (i : ι) (e : Event A) : eventsOf i [(i, e)] = [e] := by
  simp [eventsOf]

@[simp] theorem eventsOf_of_ne {i j : ι} (h : j ≠ i) (e : Event A) :
    eventsOf i [(j, e)] = [] := by
  simp [eventsOf, h]

@[simp] theorem mem_eventsOf {i : ι} {e : Event A} {past : List (ι × Event A)} :
    e ∈ eventsOf i past ↔ (i, e) ∈ past := by
  simp [eventsOf]

/-- The programs that took part in the events of a kind, in order. -/
def callersOf (p : Event A → Prop) [DecidablePred p] (past : List (ι × Event A)) : List ι :=
  (past.filter fun e => p e.2).map Prod.fst

omit [DecidableEq ι] in
@[simp] theorem callersOf_append (p : Event A → Prop) [DecidablePred p]
    (past past' : List (ι × Event A)) :
    callersOf p (past ++ past') = callersOf p past ++ callersOf p past' := by
  rw [callersOf, List.filter_append, List.map_append, callersOf, callersOf]

theorem mem_callersOf {p : Event A → Prop} [DecidablePred p] {i : ι}
    {past : List (ι × Event A)} : i ∈ callersOf p past ↔ ∃ e ∈ eventsOf i past, p e := by
  simp only [callersOf, List.mem_map, List.mem_filter, decide_eq_true_eq, mem_eventsOf]
  constructor
  · rintro ⟨⟨j, e⟩, ⟨hmem, hp⟩, rfl⟩
    exact ⟨e, hmem, hp⟩
  · rintro ⟨e, hmem, hp⟩
    exact ⟨(i, e), ⟨hmem, hp⟩, rfl⟩

theorem count_callersOf (p : Event A → Prop) [DecidablePred p] (i : ι)
    (past : List (ι × Event A)) :
    (callersOf p past).count i = (eventsOf i past).countP fun e => p e := by
  rw [callersOf, eventsOf, List.count_eq_countP, List.countP_map, List.countP_map,
    List.countP_filter, List.countP_filter]
  refine List.countP_congr fun e _ => ?_
  simp [and_comm]

/-- A program that takes part at most once is listed at most once. -/
theorem nodup_callersOf {p : Event A → Prop} [DecidablePred p] {past : List (ι × Event A)}
    (h : ∀ i, ((eventsOf i past).countP fun e => p e) ≤ 1) : (callersOf p past).Nodup := by
  refine List.nodup_iff_count_le_one.mpr fun i => ?_
  rw [count_callersOf]
  exact h i

omit [DecidableEq ι] in
/-- **What the history adds up to**, if every event of the kind contributes what its program
has to contribute, and no other event contributes anything. -/
theorem flatMap_snd_eq_flatMap_callersOf {β : Type} {p : Event A → Prop} [DecidablePred p]
    {f : Event A → List β} {g : ι → List β} {past : List (ι × Event A)}
    (hp : ∀ e ∈ past, p e.2 → f e.2 = g e.1) (hnot : ∀ e ∈ past, ¬ p e.2 → f e.2 = []) :
    (past.map Prod.snd).flatMap f = (callersOf p past).flatMap g := by
  induction past with
  | nil => rfl
  | cons e past ih =>
    rw [List.map_cons, List.flatMap_cons,
      ih (fun e he => hp e (List.mem_cons_of_mem _ he))
        (fun e he => hnot e (List.mem_cons_of_mem _ he))]
    by_cases he : p e.2
    · have hcallers : callersOf p (e :: past) = e.1 :: callersOf p past := by
        simp [callersOf, he]
      rw [hcallers, List.flatMap_cons, hp e List.mem_cons_self he]
    · have hcallers : callersOf p (e :: past) = callersOf p past := by
        simp [callersOf, he]
      rw [hcallers, hnot e List.mem_cons_self he, List.nil_append]

/-- A history is as long as the histories of its programs together. -/
theorem length_past_eq_sum [Fintype ι] (past : List (ι × Event A)) :
    past.length = ∑ i, (eventsOf i past).length := by
  induction past with
  | nil => simp
  | cons e past ih =>
    obtain ⟨j, e⟩ := e
    have hcons : ∀ i, (eventsOf i ((j, e) :: past)).length =
        (if j = i then 1 else 0) + (eventsOf i past).length := by
      intro i
      rw [← List.singleton_append, eventsOf_append, List.length_append]
      split_ifs with h
      · rw [h, eventsOf_self, List.length_singleton]
      · rw [eventsOf_of_ne h, List.length_nil]
    simp only [hcons, Finset.sum_add_distrib, Finset.sum_ite_eq, Finset.mem_univ, if_true]
    rw [List.length_cons, ih, Nat.add_comm]

end History

/-! ## Pools -/

/-- What the programs run in.  It has a state, moves by itself, and answers calls; which
answers it can give, and what becomes of it, depends on its state and on who calls. -/
structure World (ι : Type) {C : Type} (A : C → Type) (σ : Type) where
  moves : σ → σ → Prop
  answers : σ → ι → Event A → σ → Prop

/-- A world without a state, that gives the answers it is allowed to give. -/
def World.giving (Q : Event A → Prop) : World ι A Unit := ⟨fun _ _ => False, fun _ _ e _ => Q e⟩

/-- The world, what is left of each program, and what has happened. -/
structure Pool (ι : Type) {C : Type} (A : C → Type) (E α σ : Type) where
  world : σ
  left : ι → Prog A E α
  past : List (ι × Event A)

/-- Every program at its beginning. -/
def Pool.start (w : σ) (p : ι → Prog A E α) : Pool ι A E α σ := ⟨w, p, []⟩

variable [DecidableEq ι] {W : World ι A σ}

/-- One step: the world moves, or it answers one call. -/
inductive Step (W : World ι A σ) : Pool ι A E α σ → Pool ι A E α σ → Prop
  | move {x : Pool ι A E α σ} {w : σ} (h : W.moves x.world w) : Step W x { x with world := w }
  | call {x : Pool ι A E α σ} {w : σ} {i : ι} {c : C} {k : A c → Prog A E α} (a : A c)
      (ready : x.left i = .call c k) (h : W.answers x.world i ⟨c, a⟩ w) :
      Step W x ⟨w, Function.update x.left i (k a), x.past ++ [(i, ⟨c, a⟩)]⟩

/-- Any number of steps. -/
abbrev Reaches (W : World ι A σ) : Pool ι A E α σ → Pool ι A E α σ → Prop :=
  Relation.ReflTransGen (Step W)

namespace Reaches

variable {w : σ} {p : ι → Prog A E α} {x : Pool ι A E α σ}

/-- **What a program guarantees, it guarantees in every interleaving**, of its own events. -/
theorem all_left {Q : ι → Outcome E α → List (Event A) → Prop}
    (hx : Reaches W (.start w p) x) (h : ∀ i, (p i).All (Q i)) (i : ι) :
    (x.left i).All fun o t => Q i o (eventsOf i x.past ++ t) := by
  induction hx with
  | refl => exact h i
  | @tail x y _ hstep ih =>
    cases hstep with
    | move hmove => exact ih
    | @call w j c k a ready hanswer =>
      by_cases hij : j = i
      · subst hij
        rw [ready] at ih
        simpa using ih a
      · simpa [hij, Function.update_of_ne (Ne.symm hij)] using ih

/-- A program that has returned has met its guarantee. -/
theorem returned {Q : ι → Outcome E α → List (Event A) → Prop}
    (hx : Reaches W (.start w p) x) (h : ∀ i, (p i).All (Q i)) {i : ι} {a : α}
    (hret : x.left i = .ret a) : Q i (.ret a) (eventsOf i x.past) := by
  have hall := hx.all_left h i
  rw [hret, Prog.All, List.append_nil] at hall
  exact hall

section Nonempty

variable [hA : ∀ c, Nonempty (A c)]

include hA

/-- A program that is under way is on the way to meeting it. -/
theorem exists_completion {Q : ι → Outcome E α → List (Event A) → Prop}
    (hx : Reaches W (.start w p) x) (h : ∀ i, (p i).All (Q i)) (i : ι) :
    ∃ o t, Q i o (eventsOf i x.past ++ t) := (hx.all_left h i).exists

/-- And so it is after its next call, whatever the answer. -/
theorem next {Q : ι → Outcome E α → List (Event A) → Prop} (hx : Reaches W (.start w p) x)
    (h : ∀ i, (p i).All (Q i)) {i : ι} {c : C} {k : A c → Prog A E α}
    (hcall : x.left i = .call c k) (a : A c) :
    ∃ o t, Q i o (eventsOf i x.past ++ ⟨c, a⟩ :: t) := by
  have hall := hx.all_left h i
  rw [hcall] at hall
  exact (hall a).exists

theorem length_eventsOf_le {n : ι → ℕ} (hx : Reaches W (.start w p) x)
    (h : ∀ i, (p i).Within (n i)) (i : ι) : (eventsOf i x.past).length ≤ n i := by
  obtain ⟨o, t, ht⟩ := hx.exists_completion h i
  rw [List.length_append] at ht
  omega

/-- A program that has a call to make has budget left. -/
theorem length_eventsOf_lt {n : ι → ℕ} (hx : Reaches W (.start w p) x)
    (h : ∀ i, (p i).Within (n i)) {i : ι} {c : C} {k : A c → Prog A E α}
    (hcall : x.left i = .call c k) : (eventsOf i x.past).length < n i := by
  obtain ⟨a⟩ := hA c
  obtain ⟨o, t, ht⟩ := hx.next h hcall a
  rw [List.length_append, List.length_cons] at ht
  omega

end Nonempty

omit p in
/-- What has happened stays as it is. -/
theorem exists_past_eq {x y : Pool ι A E α σ} (h : Reaches W x y) :
    ∃ t, y.past = x.past ++ t := by
  induction h with
  | refl => exact ⟨[], (List.append_nil _).symm⟩
  | @tail y z _ hstep ih =>
    obtain ⟨t, ht⟩ := ih
    cases hstep with
    | move hmove => exact ⟨t, ht⟩
    | @call w j c k a ready hanswer =>
      refine ⟨t ++ [(j, ⟨c, a⟩)], ?_⟩
      rw [ht, List.append_assoc]

/-- Every event was an answer of the world. -/
theorem answered {Q : ι → Event A → Prop} (hx : Reaches W (.start w p) x)
    (hQ : ∀ s i e s', W.answers s i e s' → Q i e) : ∀ e ∈ x.past, Q e.1 e.2 := by
  induction hx with
  | refl => exact fun e he => absurd he List.not_mem_nil
  | @tail x y _ hstep ih =>
    cases hstep with
    | move hmove => exact ih
    | @call w j c k a ready hanswer =>
      intro e he
      rcases List.mem_append.mp he with he | he
      · exact ih e he
      · obtain rfl := List.mem_singleton.mp he
        exact hQ _ _ _ _ hanswer

/-- **What is observed of the world is what its events have added to it**, if nothing else
changes it. -/
theorem observed {β : Type} {out : σ → List β} {f : Event A → List β}
    (hx : Reaches W (.start w p) x) (hmoves : ∀ s s', W.moves s s' → out s' = out s)
    (hanswers : ∀ s i e s', W.answers s i e s' → out s' = out s ++ f e) :
    out x.world = out w ++ (x.past.map Prod.snd).flatMap f := by
  induction hx with
  | refl => exact (List.append_nil _).symm
  | @tail x y _ hstep ih =>
    cases hstep with
    | move hmove => exact (hmoves _ _ hmove).trans ih
    | @call w j c k a ready hanswer =>
      rw [hanswers _ _ _ _ hanswer, ih, List.append_assoc, List.map_append, List.flatMap_append]
      simp

omit p in
/-- **A program can run its first part alone**, up to where its continuation takes over.  What
that needs: each of its calls has a good answer (`G`) that the world can give and that keeps `R`,
and with good answers it returns what its continuation can use. -/
theorem either [hA : ∀ c, Nonempty (A c)] {F β : Type} {x : Pool ι A F β σ} {i : ι}
    {p : Prog A E α} {k : α → Prog A F β} {h : E → Prog A F β} {R : σ → Prop}
    {G : Event A → Prop} {Q : α → Prop} (hleft : x.left i = p.either k h)
    (hR : R x.world)
    (hp : p.All fun o t => (∀ e ∈ t, ∀ s, R s →
      ∃ a s', G ⟨e.call, a⟩ ∧ R s' ∧ W.answers s i ⟨e.call, a⟩ s') ∧
      ((∀ e ∈ t, G e) → ∃ a, o = .ret a ∧ Q a)) :
    ∃ y a, Reaches W x y ∧ R y.world ∧ y.left i = k a ∧ Q a := by
  induction p generalizing x with
  | ret b =>
    obtain ⟨a, heq, hpost⟩ := hp.2 fun e he => absurd he List.not_mem_nil
    obtain rfl := Outcome.ret.inj heq
    exact ⟨x, b, .refl, hR, hleft, hpost⟩
  | err e =>
    obtain ⟨a, heq, -⟩ := hp.2 fun e he => absurd he List.not_mem_nil
    exact absurd heq (by simp)
  | abort =>
    obtain ⟨a, heq, -⟩ := hp.2 fun e he => absurd he List.not_mem_nil
    exact absurd heq (by simp)
  | call c f ih =>
    -- some run makes the call, so it has a good answer
    obtain ⟨a₀⟩ := hA c
    obtain ⟨o, t, hcan, -⟩ := (hp a₀).exists
    obtain ⟨a, s', hgood, hR', hanswer⟩ := hcan _ List.mem_cons_self _ hR
    have hstep : Step W x _ := .call a hleft hanswer
    obtain ⟨y, b, hy, hrest⟩ := ih a
      (x := ⟨s', Function.update x.left i ((f a).either k h), x.past ++ [(i, ⟨c, a⟩)]⟩)
      (Function.update_self _ _ _) hR' ((hp a).mono fun o t ht =>
        ⟨fun e he => ht.1 e (List.mem_cons_of_mem _ he),
          fun hall => ht.2 (List.forall_mem_cons.mpr ⟨hgood, hall⟩)⟩)
    exact ⟨y, b, .head hstep hy, hrest⟩

end Reaches

/-- **No deadlock.**  As long as some program has a call to make, and the world can answer,
there is a step. -/
theorem exists_step (hW : ∀ s i c, ∃ a s', W.answers s i ⟨c, a⟩ s') {x : Pool ι A E α σ} {i : ι}
    {c : C} {k : A c → Prog A E α} (hcall : x.left i = .call c k) :
    ∃ y, Step W x y ∧ y.past.length = x.past.length + 1 := by
  obtain ⟨a, s', h⟩ := hW x.world i c
  refine ⟨_, .call a hcall h, ?_⟩
  rw [List.length_append, List.length_singleton]

end Interaction

import Mathlib.Data.List.Forall2

/-!
# Programs that call their environment

A program here is a tree.  A leaf is a result, an error, or an abort; a node is a
call to the environment, with one subtree for every answer the environment could
give.  So "for every behaviour of the environment" is a statement about the whole
tree, and needs no oracle in the program's own arguments.

* `Prog.either` runs a program and continues differently on a result and on an
  error.  Sequencing is the case where errors pass through.
* `Prog.run` plays a program against one environment.  The environment sees every
  event so far, and so may answer the same call differently at different times.
* `Prog.All` says that a condition holds at every leaf, of the outcome and of the
  events on the way to it.  `Prog.all_either` and `Prog.all_bind` are the rules by
  which such conditions compose, and `Prog.All.run` reads one on a single run.
* `session` plays a list of programs one after the other, each against the history
  the earlier ones left behind.
-/

namespace Interaction

/-- A call together with the answer it was given. -/
structure Event {C : Type} (A : C → Type) where
  call : C
  answer : A call

/-- A program whose calls are taken from `C` and answered in `A`, that ends with a
result in `α`, with an error in `E`, or by aborting the process. -/
inductive Prog {C : Type} (A : C → Type) (E α : Type) : Type where
  | ret (a : α) : Prog A E α
  | err (e : E) : Prog A E α
  | abort : Prog A E α
  | call (c : C) (k : A c → Prog A E α) : Prog A E α

/-- How a run ended. -/
inductive Outcome (E α : Type) : Type where
  | ret (a : α) : Outcome E α
  | err (e : E) : Outcome E α
  | abort : Outcome E α
  deriving DecidableEq

variable {C : Type} {A : C → Type} {E F α β : Type}

namespace Prog

/-- Continue with `k` on a result and with `h` on an error.  An abort is final. -/
def either (k : α → Prog A F β) (h : E → Prog A F β) : Prog A E α → Prog A F β
  | .ret a => k a
  | .err e => h e
  | .abort => .abort
  | .call c f => .call c fun a => either k h (f a)

instance : Monad (Prog A E) where
  pure := .ret
  bind m f := m.either f .err

theorem either_either {G γ : Type} (p : Prog A E α) (k : α → Prog A F β) (h : E → Prog A F β)
    (k' : β → Prog A G γ) (h' : F → Prog A G γ) :
    (p.either k h).either k' h' =
      p.either (fun a => (k a).either k' h') (fun e => (h e).either k' h') := by
  induction p with
  | ret a => rfl
  | err e => rfl
  | abort => rfl
  | call c f ih => exact congrArg (Prog.call c) (funext ih)

instance : LawfulMonad (Prog A E) :=
  LawfulMonad.mk' _
    (fun p => by
      induction p with
      | ret a => rfl
      | err e => rfl
      | abort => rfl
      | call c f ih => exact congrArg (Prog.call c) (funext ih))
    (fun _ _ => rfl)
    (fun p k k' => either_either p k .err k' .err)

@[simp] theorem ret_bind (a : α) (k : α → Prog A E β) : (Prog.ret a >>= k) = k a := rfl

@[simp] theorem err_bind (e : E) (k : α → Prog A E β) : (Prog.err e >>= k) = .err e := rfl

/-- Play a program against an environment.  The result is how the run ended and the
events it added to the history. -/
def run (env : List (Event A) → (c : C) → A c) :
    Prog A E α → List (Event A) → Outcome E α × List (Event A)
  | .ret a, _ => (.ret a, [])
  | .err e, _ => (.err e, [])
  | .abort, _ => (.abort, [])
  | .call c k, h =>
      let a := env h c
      let r := run env (k a) (h ++ [⟨c, a⟩])
      (r.1, ⟨c, a⟩ :: r.2)

/-- Every run of the program ends in an outcome and with events satisfying `Q`. -/
def All : Prog A E α → (Outcome E α → List (Event A) → Prop) → Prop
  | .ret a, Q => Q (.ret a) []
  | .err e, Q => Q (.err e) []
  | .abort, Q => Q .abort []
  | .call c k, Q => ∀ a, (k a).All fun o t => Q o (⟨c, a⟩ :: t)

/-! ## The rules -/

@[simp] theorem all_err {Q : Outcome E α → List (Event A) → Prop} {e : E} :
    (Prog.err e).All Q ↔ Q (.err e) [] := Iff.rfl

theorem All.mono {p : Prog A E α} {Q R : Outcome E α → List (Event A) → Prop}
    (h : p.All Q) (hQR : ∀ o t, Q o t → R o t) : p.All R := by
  induction p generalizing Q R with
  | ret a => exact hQR _ _ h
  | err e => exact hQR _ _ h
  | abort => exact hQR _ _ h
  | call c k ih => exact fun a => ih a (h a) fun o t => hQR o _

theorem all_of_forall {p : Prog A E α} {Q : Outcome E α → List (Event A) → Prop}
    (h : ∀ o t, Q o t) : p.All Q := by
  induction p generalizing Q with
  | ret a => exact h _ _
  | err e => exact h _ _
  | abort => exact h _ _
  | call c k ih => exact fun a => ih a fun o t => h o _

theorem All.and {p : Prog A E α} {Q R : Outcome E α → List (Event A) → Prop}
    (hQ : p.All Q) (hR : p.All R) : p.All fun o t => Q o t ∧ R o t := by
  induction p generalizing Q R with
  | ret a => exact ⟨hQ, hR⟩
  | err e => exact ⟨hQ, hR⟩
  | abort => exact ⟨hQ, hR⟩
  | call c k ih => exact fun a => ih a (hQ a) (hR a)

/-- **The rule for continuations.**  What `R` says of the first program is handed on:
from a result the continuation has to arrive at `Q` with the events so far put in
front, from an error the handler has to, and an abort has to satisfy `Q` as it is. -/
theorem all_either {p : Prog A E α} {k : α → Prog A F β} {h : E → Prog A F β}
    {R : Outcome E α → List (Event A) → Prop} {Q : Outcome F β → List (Event A) → Prop}
    (hp : p.All R)
    (hret : ∀ a t, R (.ret a) t → (k a).All fun o t' => Q o (t ++ t'))
    (herr : ∀ e t, R (.err e) t → (h e).All fun o t' => Q o (t ++ t'))
    (habort : ∀ t, R .abort t → Q .abort t) :
    (p.either k h).All Q := by
  induction p generalizing R Q with
  | ret a => exact hret a [] hp
  | err e => exact herr e [] hp
  | abort => exact habort [] hp
  | call c f ih =>
    intro a
    exact ih a (hp a) (fun b t => hret b _) (fun e t => herr e _) (fun t => habort _)

/-- The rule for sequencing: `all_either` with errors passed through. -/
theorem all_bind {p : Prog A E α} {k : α → Prog A E β}
    {R : Outcome E α → List (Event A) → Prop} {Q : Outcome E β → List (Event A) → Prop}
    (hp : p.All R)
    (hret : ∀ a t, R (.ret a) t → (k a).All fun o t' => Q o (t ++ t'))
    (herr : ∀ e t, R (.err e) t → Q (.err e) t)
    (habort : ∀ t, R .abort t → Q .abort t) :
    (p >>= k).All Q := by
  refine all_either hp hret (fun e t h => ?_) habort
  rw [all_err, List.append_nil]
  exact herr e t h

/-- A condition on every run, read on one run. -/
theorem All.run {p : Prog A E α} {Q : Outcome E α → List (Event A) → Prop} (h : p.All Q)
    (env : List (Event A) → (c : C) → A c) (past : List (Event A)) :
    Q (p.run env past).1 (p.run env past).2 := by
  induction p generalizing Q past with
  | ret a => exact h
  | err e => exact h
  | abort => exact h
  | call c k ih => exact ih _ (h _) _

/-- Every answer in a run is one the environment gave, at some point of the history. -/
theorem exists_answer_of_mem_run {p : Prog A E α} {env : List (Event A) → (c : C) → A c}
    {past : List (Event A)} {e : Event A} (he : e ∈ (p.run env past).2) :
    ∃ past', e.answer = env past' e.call := by
  induction p generalizing past with
  | ret a => exact absurd he (by simp [Prog.run])
  | err e => exact absurd he (by simp [Prog.run])
  | abort => exact absurd he (by simp [Prog.run])
  | call c k ih =>
    rcases List.mem_cons.mp he with rfl | he
    · exact ⟨past, rfl⟩
    · exact ih _ he

/-- **Every answer is the one the environment gives at that point**: to the call, after the
past and the events before it. -/
theorem answer_of_run_eq_append {p : Prog A E α} {env : List (Event A) → (c : C) → A c}
    {past t t' : List (Event A)} {e : Event A} (h : (p.run env past).2 = t ++ e :: t') :
    e.answer = env (past ++ t) e.call := by
  induction p generalizing past t with
  | ret a => exact absurd h (by simp [Prog.run])
  | err e => exact absurd h (by simp [Prog.run])
  | abort => exact absurd h (by simp [Prog.run])
  | call c k ih =>
    cases t with
    | nil =>
      obtain ⟨rfl, -⟩ := List.cons.inj h
      rw [List.append_nil]
    | cons e' t =>
      obtain ⟨rfl, htail⟩ := List.cons.inj h
      have hanswer := ih _ htail
      rwa [List.append_assoc] at hanswer

end Prog

/-! ## Sessions -/

/-- Play a list of programs in order.  Each one starts from the history the earlier
ones left, and contributes its outcome and its own events. -/
def session (env : List (Event A) → (c : C) → A c) :
    List (Prog A E α) → List (Event A) → List (Outcome E α × List (Event A))
  | [], _ => []
  | p :: ps, past => p.run env past :: session env ps (past ++ (p.run env past).2)

/-- **What each program guarantees on every run, its run in a session meets.** -/
theorem session_forall₂ {Q : Prog A E α → Outcome E α × List (Event A) → Prop}
    (env : List (Event A) → (c : C) → A c) (ps : List (Prog A E α)) (past : List (Event A))
    (hps : ∀ p ∈ ps, ∀ h, Q p (p.run env h)) : List.Forall₂ Q ps (session env ps past) := by
  induction ps generalizing past with
  | nil => exact List.Forall₂.nil
  | cons p ps ih =>
    have hp := hps p List.mem_cons_self past
    exact List.Forall₂.cons hp (ih _ fun q hq => hps q (List.mem_cons_of_mem _ hq))

end Interaction

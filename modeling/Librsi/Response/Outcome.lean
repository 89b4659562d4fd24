import Librsi.Response.Calls

/-!
# How a call can end

`Conforms` lists the traces of a call.  For most purposes less is enough: with which
`errno` it was turned down before the `write`, or what it handed over.  `Verdict` says
that much, and which of the five cases holds is decided by the arguments and by the
allocations that failed, in a fixed order of precedence.

Since the arguments alone decide between the cases in which no allocation fails, two
runs of one call can only differ by a failed allocation, and then the one that suffered
it returns `ENOMEM` without writing (`allocation_failure_only_silences`).
-/

namespace Librsi

open WireFormat Interaction Layout

/-! ## Verdicts -/

/-- How a call ended, for a call that is accepted if `c` and would then write `frame`. -/
inductive Verdict (fd : CInt) (c : Prop) (frame : Bytes) (o : Outcome Errno CInt) (t : Trace) :
    Prop
  | noRoom (rejects : RejectsWith ENOMEM o t) (failed : ReserveFailed t)
  | rejected (rejects : RejectsWith EINVAL o t) (fine : ¬ ReserveFailed t) (fails : ¬ c)
  | latched (rejects : RejectsWith ENOMEM o t) (fine : ¬ ReserveFailed t) (holds : c)
      (failed : ExtendFailed t)
  | tooLarge (rejects : RejectsWith EOVERFLOW o t) (fine : ¬ ReserveFailed t)
      (fine' : ¬ ExtendFailed t) (holds : c) (big : 2 ^ 32 ≤ frame.length)
  | written (wrote : handed t = [(fd, frame)]) (fine : ¬ ReserveFailed t)
      (fine' : ¬ ExtendFailed t) (holds : c) (small : frame.length < 2 ^ 32)

theorem Prepared.allocOnly {c : Prop} {frame : Bytes} {o : Outcome Errno Bytes} {t : Trace}
    (h : Prepared c frame o t) : AllocOnly t := by
  cases h with
  | noRoom alloc failed => exact alloc
  | rejected alloc fine fails => exact alloc
  | latched alloc fine holds failed => exact alloc
  | tooLarge alloc fine fine' holds big => exact alloc
  | ready alloc fine fine' holds small => exact alloc

/-- An error found while preparing is what the call returns. -/
theorem AllocOnly.rejectsWith {t : Trace} (h : AllocOnly t) (e : Errno) :
    RejectsWith e (.ret (-1)) (t ++ [⟨.setErrno e, ()⟩]) := by
  refine ⟨⟨rfl, ?_⟩, ?_⟩
  · rw [h.lastErrno_append]
    rfl
  · rw [h.handed_append]
    rfl

section Read

variable {fd : CInt} {c : Prop} {frame : Bytes} {o : Outcome Errno CInt} {t : Trace}

theorem verdict_of_write {tail : Trace} (prep : Prepared c frame (.ret frame) t)
    (hhanded : handed tail = [(fd, frame)]) (hreserve : ¬ ReserveFailed tail)
    (hextend : ¬ ExtendFailed tail) : Verdict fd c frame o (t ++ tail) := by
  cases prep with
  | ready alloc fine fine' holds small =>
    refine .written ?_ ?_ ?_ holds small
    · rw [alloc.handed_append, hhanded]
    · simp [fine, hreserve]
    · simp [fine', hextend]

theorem Conforms.verdict (h : Conforms fd c frame o t) : Verdict fd c frame o t := by
  cases h with
  | @failed e t prep =>
    have hreserve : ReserveFailed (t ++ [⟨.setErrno e, ()⟩]) ↔ ReserveFailed t := by
      simp [ReserveFailed, ReserveFailure]
    have hextend : ExtendFailed (t ++ [⟨.setErrno e, ()⟩]) ↔ ExtendFailed t := by
      simp [ExtendFailed, ExtendFailure]
    cases prep with
    | noRoom alloc failed => exact .noRoom (alloc.rejectsWith _) (hreserve.mpr failed)
    | rejected alloc fine fails =>
      exact .rejected (alloc.rejectsWith _) (mt hreserve.mp fine) fails
    | latched alloc fine holds failed =>
      exact .latched (alloc.rejectsWith _) (mt hreserve.mp fine) holds (hextend.mpr failed)
    | tooLarge alloc fine fine' holds big =>
      exact .tooLarge (alloc.rejectsWith _) (mt hreserve.mp fine) (mt hextend.mp fine') holds big
  | refused prep =>
    exact verdict_of_write prep rfl (by simp [ReserveFailed, ReserveFailure])
      (by simp [ExtendFailed, ExtendFailure])
  | sent prep =>
    exact verdict_of_write prep rfl (by simp [ReserveFailed, ReserveFailure])
      (by simp [ExtendFailed, ExtendFailure])
  | short prep ne =>
    exact verdict_of_write prep rfl (by simp [ReserveFailed, ReserveFailure])
      (by simp [ExtendFailed, ExtendFailure])

theorem Conforms.ne_abort (h : Conforms fd c frame o t) : o ≠ .abort := by
  cases h <;> exact fun h => nomatch h

/-- One `errno` at a time. -/
theorem RejectsWith.errno_eq {e e' : Errno} (h : RejectsWith e o t) (h' : RejectsWith e' o t) :
    e = e' := Option.some.inj (h.1.2.symm.trans h'.1.2)

theorem RejectsWith.not_wrote {e : Errno} {b : CInt × Bytes} (h : RejectsWith e o t)
    (h' : handed t = [b]) : False := by
  rw [h.2] at h'
  exact absurd h' (by simp)

namespace Verdict

/-- **Rejection is decided by the arguments**, as long as validation gets its memory. -/
theorem rejects_einval_iff (h : Verdict fd c frame o t) (hfine : ¬ ReserveFailed t) :
    RejectsWith EINVAL o t ↔ ¬ c := by
  constructor
  · intro hrej
    cases h with
    | noRoom rejects failed => exact absurd failed hfine
    | rejected rejects fine fails => exact fails
    | latched rejects fine holds failed =>
      exact absurd (hrej.errno_eq rejects) (by decide)
    | tooLarge rejects fine fine' holds big =>
      exact absurd (hrej.errno_eq rejects) (by decide)
    | written wrote fine fine' holds small => exact (hrej.not_wrote wrote).elim
  · intro hc
    cases h with
    | noRoom rejects failed => exact absurd failed hfine
    | rejected rejects fine fails => exact rejects
    | latched rejects fine holds failed => exact absurd holds hc
    | tooLarge rejects fine fine' holds big => exact absurd holds hc
    | written wrote fine fine' holds small => exact absurd holds hc

/-- What happens to an accepted call when no allocation fails. -/
theorem of_accepted (h : Verdict fd c frame o t) (hfine : ¬ ReserveFailed t)
    (hfine' : ¬ ExtendFailed t) (hc : c) :
    2 ^ 32 ≤ frame.length ∧ RejectsWith EOVERFLOW o t ∨
      frame.length < 2 ^ 32 ∧ handed t = [(fd, frame)] := by
  cases h with
  | noRoom rejects failed => exact absurd failed hfine
  | rejected rejects fine fails => exact absurd hc fails
  | latched rejects fine holds failed => exact absurd failed hfine'
  | tooLarge rejects fine fine' holds big => exact Or.inl ⟨big, rejects⟩
  | written wrote fine fine' holds small => exact Or.inr ⟨small, wrote⟩

/-- **What a written frame tells**: which descriptor and which frame it was, that the
call was accepted, and that nothing failed on the way. -/
theorem of_mem_handed (h : Verdict fd c frame o t) {fd' : CInt} {f : Bytes}
    (hf : (fd', f) ∈ handed t) :
    c ∧ fd' = fd ∧ f = frame ∧ frame.length < 2 ^ 32 ∧ ¬ ExtendFailed t := by
  have hnone : ∀ e, RejectsWith e o t → False := by
    intro e hrej
    rw [hrej.2] at hf
    exact absurd hf List.not_mem_nil
  cases h with
  | noRoom rejects failed => exact (hnone _ rejects).elim
  | rejected rejects fine fails => exact (hnone _ rejects).elim
  | latched rejects fine holds failed => exact (hnone _ rejects).elim
  | tooLarge rejects fine fine' holds big => exact (hnone _ rejects).elim
  | written wrote fine fine' holds small =>
    rw [wrote, List.mem_singleton] at hf
    exact ⟨holds, congrArg Prod.fst hf, congrArg Prod.snd hf, small, fine'⟩

end Verdict

end Read

/-- The verdict of a payload responder, read on one run. -/
theorem verdict_respond (P : Pkm) (fd : CInt) (k : Kind) (req : Option RsiRequest) (a : Args k)
    (env : Env) (past : Trace) :
    Verdict fd (Accepts P req a) (payloadFrame P req a)
      (exec env (respond P fd k req a) past).1 (exec env (respond P fd k req a) past).2 :=
  ((conforms_respond P fd k req a).run env.answer past).verdict

section NoAllocFails

variable {P : Pkm} (fd : CInt) {k : Kind} {req : Option RsiRequest} {a : Args k} {env : Env}
  (henv : env.NoAllocFails) (past : Trace)

include henv

/-- With no allocation failing, `EINVAL` means a broken rule. -/
theorem rejects_einval_iff_not_accepts :
    RejectsWith EINVAL (exec env (respond P fd k req a) past).1
        (exec env (respond P fd k req a) past).2 ↔ ¬ Accepts P req a :=
  (verdict_respond P fd k req a env past).rejects_einval_iff (henv.not_reserveFailed _ _)

/-- With no allocation failing, only its size can keep an accepted frame from being written. -/
theorem too_large_or_wrote_of_accepts (h : Accepts P req a) :
    2 ^ 32 ≤ (payloadFrame P req a).length ∧
        RejectsWith EOVERFLOW (exec env (respond P fd k req a) past).1
          (exec env (respond P fd k req a) past).2 ∨
      (payloadFrame P req a).length < 2 ^ 32 ∧
        handed (exec env (respond P fd k req a) past).2 = [(fd, payloadFrame P req a)] :=
  (verdict_respond P fd k req a env past).of_accepted (henv.not_reserveFailed _ _)
    (henv.not_extendFailed _ _) h

end NoAllocFails

/-! ## Two runs of one call -/

/-- What a run decided before the `write`: what to return, or what to hand over. -/
inductive Decision where
  | returned (o : Outcome Errno CInt) (errno : Option Errno)
  | wrote (bufs : List (CInt × Bytes))

def decision (o : Outcome Errno CInt) (t : Trace) : Decision :=
  match handed t with
  | [] => .returned o (lastErrno t)
  | bufs => .wrote bufs

theorem decision_of_rejects {e : Errno} {o : Outcome Errno CInt} {t : Trace}
    (h : RejectsWith e o t) : decision o t = .returned (.ret (-1)) (some e) := by
  rw [decision, h.2, h.1.1, h.1.2]

theorem decision_of_wrote {b : CInt × Bytes} {o : Outcome Errno CInt} {t : Trace}
    (h : handed t = [b]) : decision o t = .wrote [b] := by
  rw [decision, h]

/-- A run either decides what every run without a failed allocation decides, or is
silenced. -/
theorem Verdict.compare {fd : CInt} {c : Prop} {frame : Bytes} {o o₀ : Outcome Errno CInt}
    {t t₀ : Trace} (h : Verdict fd c frame o t) (h₀ : Verdict fd c frame o₀ t₀)
    (hfine : ¬ ReserveFailed t₀) (hfine' : ¬ ExtendFailed t₀) :
    RejectsWith ENOMEM o t ∨ decision o t = decision o₀ t₀ ∧ handed t = handed t₀ := by
  have hsame : ∀ e, RejectsWith e o t → RejectsWith e o₀ t₀ →
      decision o t = decision o₀ t₀ ∧ handed t = handed t₀ := by
    intro e hrej hrej₀
    rw [decision_of_rejects hrej, decision_of_rejects hrej₀, hrej.2, hrej₀.2]
    exact ⟨rfl, rfl⟩
  cases h with
  | noRoom rejects failed => exact Or.inl rejects
  | rejected rejects fine fails =>
    exact Or.inr (hsame _ rejects ((h₀.rejects_einval_iff hfine).mpr fails))
  | latched rejects fine holds failed => exact Or.inl rejects
  | tooLarge rejects fine fine' holds big =>
    rcases h₀.of_accepted hfine hfine' holds with ⟨-, hrej₀⟩ | ⟨hsmall, -⟩
    · exact Or.inr (hsame _ rejects hrej₀)
    · exact absurd big (not_le.mpr hsmall)
  | written wrote fine fine' holds small =>
    rcases h₀.of_accepted hfine hfine' holds with ⟨hbig, -⟩ | ⟨-, hwrote₀⟩
    · exact absurd hbig (not_le.mpr small)
    · rw [decision_of_wrote wrote, decision_of_wrote hwrote₀, wrote, hwrote₀]
      exact Or.inr ⟨rfl, rfl⟩

/-- **Allocation failure never changes what is said, only whether it is said.**  Compare
any run of a payload responder with a run in which no allocation fails. -/
theorem allocation_failure_only_silences (P : Pkm) (fd : CInt) (k : Kind)
    (req : Option RsiRequest) (a : Args k) (env env₀ : Env) (past past₀ : Trace)
    (h₀ : env₀.NoAllocFails) :
    let r := exec env (respond P fd k req a) past
    let r₀ := exec env₀ (respond P fd k req a) past₀
    (handed r.2 = [] ∨ handed r.2 = handed r₀.2) ∧
      (decision r.1 r.2 ≠ decision r₀.1 r₀.2 → RejectsWith ENOMEM r.1 r.2) ∧
      (ExtendFailed r.2 → handed r.2 = []) ∧
      (¬ ReserveFailed r.2 → RejectsWith EINVAL r₀.1 r₀.2 → RejectsWith EINVAL r.1 r.2) ∧
      r.1 ≠ .abort ∧ r₀.1 ≠ .abort := by
  intro r r₀
  have hr := verdict_respond P fd k req a env past
  have hr₀ := verdict_respond P fd k req a env₀ past₀
  have hfine : ¬ ReserveFailed r₀.2 := h₀.not_reserveFailed _ _
  have hfine' : ¬ ExtendFailed r₀.2 := h₀.not_extendFailed _ _
  have habort : ∀ (env : Env) (past : Trace), (exec env (respond P fd k req a) past).1 ≠ .abort :=
    fun env past => ((conforms_respond P fd k req a).run env.answer past).ne_abort
  have hcompare := hr.compare hr₀ hfine hfine'
  refine ⟨?_, fun hne => ?_, fun hfailed => ?_, fun hreserve hrej₀ => ?_, habort env past,
    habort env₀ past₀⟩
  · exact hcompare.imp (fun h => h.2) (fun h => h.2)
  · exact hcompare.resolve_right fun h => hne h.1
  · by_contra hne
    obtain ⟨⟨fd', f⟩, hf⟩ := List.exists_mem_of_ne_nil _ hne
    exact (hr.of_mem_handed hf).2.2.2.2 hfailed
  · exact (hr.rejects_einval_iff hreserve).mpr ((hr₀.rejects_einval_iff hfine).mp hrej₀)

theorem allocation_failure_only_silences_deleteLayer :
    let env : Env := { Env.granting with extend := fun _ _ => .failed [] }
    let r := exec env (respond .small 3 .deleteLayer (some ⟨7, 0, 0, 0, 17⟩) smallOrphans) []
    Env.granting.NoAllocFails ∧ ExtendFailed r.2 ∧ handed r.2 = [] := by
  intro env r
  have hfailed : ExtendFailed r.2 := ⟨_, List.mem_of_getElem? (i := 1) rfl, trivial⟩
  refine ⟨Env.granting_noAllocFails, hfailed, ?_⟩
  exact (allocation_failure_only_silences .small 3 .deleteLayer (some ⟨7, 0, 0, 0, 17⟩)
    smallOrphans env .granting [] [] Env.granting_noAllocFails).2.2.1 hfailed

end Librsi

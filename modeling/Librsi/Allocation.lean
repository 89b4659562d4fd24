import Librsi.Response.Outcome
import Librsi.Source

/-!
# No infallible allocation is reached

`Vec::push` on a full vector allocates, and has no way to fail but to abort the process.
librsi keeps clear of that in two ways.  Where it knows how many elements will come it
reserves that many up front (`metadata_guid_set`, `orphaned_guid_bytes`, `rsi_register`);
where it does not, it reserves one whenever the vector is full (`push_guid`).  The first
is right only if the loop pushes no more than was reserved, the second only if nothing
comes between the reservation and the push.

In the model a push onto a full vector aborts, so it is enough that no run aborts.  That,
and that a reservation that fails is reported, is `Fallible`.
-/

namespace Librsi

open WireFormat Interaction

/-- Every run survives, and reports a reservation that failed as `ENOMEM`. -/
def Fallible {α : Type} (m : Sys α) : Prop :=
  ∀ env past, (exec env m past).1 ≠ .abort ∧
    (ReserveFailed (exec env m past).2 → (exec env m past).1 = .err ENOMEM)

theorem Computes.fallible {α β : Type} {view : α → β} {m : Sys α} {c : Prop} {b : β}
    (h : Computes view m c b) : Fallible m := by
  intro env past
  have hrun : Computed view c b (exec env m past).1 (exec env m past).2 := h.run env.answer past
  generalize exec env m past = r at hrun ⊢
  obtain ⟨o, t⟩ := r
  cases hrun with
  | enomem only failed => exact ⟨by simp, fun _ => rfl⟩
  | ret only fine holds eq => exact ⟨by simp, fun failed => absurd failed fine⟩
  | einval only fine fails => exact ⟨by simp, fun failed => absurd failed fine⟩

/-- The same for a call of the C ABI, which reports through `errno`. -/
theorem Verdict.enomem_of_reserveFailed {fd : CInt} {c : Prop} {frame : Bytes}
    {o : Outcome Errno CInt} {t : Trace} (h : Verdict fd c frame o t) (failed : ReserveFailed t) :
    RejectsWith ENOMEM o t := by
  cases h with
  | noRoom rejects failed => exact rejects
  | rejected rejects fine fails => exact absurd failed fine
  | latched rejects fine holds failed' => exact absurd failed fine
  | tooLarge rejects fine fine' holds big => exact absurd failed fine
  | written wrote fine fine' holds small => exact absurd failed fine

theorem Registration.ne_abort {U : Uapi} {hives : Arr RsiHive} {maxSequence : UInt64}
    {o : Outcome Errno CInt} {t : Trace} (h : Registration U hives maxSequence o t) :
    o ≠ .abort := by
  cases h <;> simp

theorem Registration.enomem_of_reserveFailed {U : Uapi} {hives : Arr RsiHive}
    {maxSequence : UInt64} {o : Outcome Errno CInt} {t : Trace}
    (h : Registration U hives maxSequence o t) (failed : ReserveFailed t) :
    FailsWith ENOMEM o t := by
  cases h with
  | noRoom good => exact ⟨rfl, rfl⟩
  | _ => exact absurd failed (by simp [ReserveFailed, ReserveFailure])

/-- **No infallible allocation is ever reached.**  A push aborts exactly on a full vector,
and whatever the arguments and the allocator: no run of the functions that push aborts, and
a reservation that fails in one is reported as `ENOMEM`.  So it is for the calls of the C ABI
that use them. -/
theorem no_infallible_allocation :
    (∀ (α : Type) (v : Vec α) (a : α), v.push a = .abort ↔ ¬ v.data.length < v.capacity) ∧
      (∀ metadata, Fallible (metadataGuidSet metadata)) ∧
      (∀ guids guid, Fallible (pushGuid guids guid)) ∧
      (∀ entries, Fallible (lookupTargetGuidSet entries)) ∧
      (∀ children, Fallible (enumChildrenTargetGuidSet children)) ∧
      (∀ orphaned, Fallible (orphanedGuidBytes orphaned)) ∧
      (∀ U hives maxSequence env past,
        let r := exec env (rsiRegister U hives maxSequence) past
        r.1 ≠ .abort ∧ (ReserveFailed r.2 → FailsWith ENOMEM r.1 r.2)) ∧
      ∀ P fd k req (a : Args k) env past,
        let r := exec env (respond P fd k req a) past
        r.1 ≠ .abort ∧ (ReserveFailed r.2 → RejectsWith ENOMEM r.1 r.2) := by
  refine ⟨fun α v a => ?_, fun metadata => ?_, fun guids guid => ?_, fun entries => ?_,
    fun children => ?_, fun orphaned => ?_, fun U hives maxSequence env past => ?_,
    fun P fd k req a env past => ?_⟩
  · rw [Vec.push]
    split_ifs with hroom
    · simp [hroom]
    · simp [hroom]
  · exact (computes_metadataGuidSet metadata).fallible
  · exact (computes_pushGuid guids guid).fallible
  · exact (computes_lookupTargetGuidSet entries).fallible
  · exact (computes_enumChildrenTargetGuidSet children).fallible
  · exact (computes_orphanedGuidBytes orphaned).fallible
  · have hreg := (registration_rsiRegister U hives maxSequence).run env.answer past
    exact ⟨hreg.ne_abort, hreg.enomem_of_reserveFailed⟩
  · have hrun := (conforms_respond P fd k req a).run env.answer past
    exact ⟨hrun.ne_abort, hrun.verdict.enomem_of_reserveFailed⟩

end Librsi

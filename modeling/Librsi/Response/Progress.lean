import Librsi.Response.Concurrent
import Mathlib.Algebra.Order.BigOperators.Group.Finset

/-!
# Every responder finishes

A responder loops over arrays whose lengths the caller chose, and inside the loops it asks
the allocator for memory, as often as the answers make it.  `RespondCall.budget` counts what
it can ask for at most, from the arguments alone: an entry of a path costs one reservation
while it is validated and five appends while it is encoded, and so on.

`responders_finish` reads this on interleavings.  Whatever the kernel, the allocator and the
other calls do, no call makes more system calls than its budget, and one that has used it up
has returned; so every run is short, and if the kernel and the allocator do answer, a run that
cannot go on is one in which every call has returned.
-/

namespace Librsi

open WireFormat Interaction Layout Prog

/-! ## Budgets -/

/-- How many system calls a payload responder can make: so many for each record, and a few for
the placeholder, the counts, the `write` and `errno`. -/
def Args.budget : {k : Kind} → Args k → ℕ
  | .lookup, a => 6 * a.entries.items.length + 6 * a.metadata.items.length + 6
  | .enumChildren, a =>
      (a.children.items.map fun c => 6 * c.entries.items.length + 3).sum +
        6 * a.metadata.items.length + 6
  | .readKey, _ => 11
  | .deleteLayer, _ => 6
  | .queryValues, a => 8 * a.entries.items.length + 3 * a.blankets.items.length + 5

/-- How many system calls a call can make.  A status has the `write` and `errno`. -/
def RespondCall.budget : RespondCall → ℕ
  | .status _ _ => 2
  | .payload _ _ args => args.budget

/-! ## Fields and checks -/

theorem within_check (c : Prop) [Decidable c] : Within 0 (check c) := by
  unfold check
  split_ifs
  · exact .ret 0 _
  · exact .err 0 _

theorem within_okOr {α : Type} (e : Errno) (o : Option α) : Within 0 (okOr e o) := by
  cases o with
  | none => exact .err 0 e
  | some a => exact .ret 0 a

theorem within_raw (w : FrameWriter) (b : Bytes) : Within 1 (w.raw b) := by
  unfold FrameWriter.raw
  split_ifs
  · exact .ret 1 w
  · refine .call fun a => ?_
    cases a with
    | appended => exact .ret 0 _
    | failed left => exact .ret 0 _

theorem within_lpf (w : FrameWriter) (f : Arr UInt8) : Within 2 (w.lpf f) := by
  unfold FrameWriter.lpf
  rw [requireLpf_eq]
  refine (within_check _).bind (m := 2) fun _ => (within_raw w _).bind (m := 1) fun w => ?_
  split_ifs
  · exact within_raw w _
  · exact .ret 1 w

theorem within_loop {ε β : Type} {body : β → ε → Sys β} {n : ℕ}
    (h : ∀ b x, Within n (body b x)) (xs : List ε) (b : β) :
    Within (n * xs.length) (xs.foldlM body b) := by
  have hloop := Within.foldlM h xs b
  rwa [List.map_const', List.sum_replicate_nat, Nat.mul_comm] at hloop

theorem within_pathEntryBlock (w : FrameWriter) (entries : Arr RsiPathEntry) :
    Within (1 + 5 * entries.items.length) (encodePathEntryBlock w entries) := by
  unfold encodePathEntryBlock
  rw [requireArray_eq]
  refine ((within_check _).bind (m := 1 + 5 * entries.items.length) fun _ =>
    (within_raw w _).bind fun w => within_loop (fun w e => ?_) _ w).mono (by omega)
  rw [requirePathTarget_eq]
  exact (within_lpf w _).bind (m := 3) fun w => (within_check _).bind (m := 3) fun _ =>
    (within_raw w _).bind (m := 2) fun w => (within_raw w _).bind (m := 1) fun w => within_raw w _

theorem within_metadataBlock (w : FrameWriter) (metadata : Arr RsiKeyMetadata) :
    Within (1 + 6 * metadata.items.length) (encodeMetadataBlock w metadata) := by
  unfold encodeMetadataBlock
  rw [requireArray_eq]
  refine ((within_check _).bind (m := 1 + 6 * metadata.items.length) fun _ =>
    (within_raw w _).bind fun w => within_loop (fun w m => ?_) _ w).mono (by omega)
  rw [requireBool_eq, requireBool_eq]
  exact (within_raw w _).bind (m := 5) fun w => (within_lpf w _).bind (m := 3) fun w =>
    (within_check _).bind (m := 3) fun _ => (within_check _).bind (m := 3) fun _ =>
    (within_raw w _).bind (m := 2) fun w => (within_raw w _).bind (m := 1) fun w => within_raw w _

/-! ## Validation -/

theorem within_tryReserve {α : Type} (v : Vec α) (n : ℕ) : Within 1 (v.tryReserve n) := by
  refine .call fun a => ?_
  cases a with
  | none => exact .err 0 _
  | some slack => exact .ret 0 _

theorem within_push {α : Type} (v : Vec α) (a : α) : Within 0 (v.push a) := by
  unfold Vec.push
  split_ifs
  · exact .ret 0 _
  · exact .abort 0

theorem within_pushGuid (guids : Vec Guid) (g : Guid) : Within 1 (pushGuid guids g) := by
  unfold pushGuid
  split_ifs
  · exact (within_tryReserve guids 1).bind (m := 0) fun guids => within_push guids g
  · exact (within_push guids g).mono (Nat.zero_le 1)

theorem within_collectTarget (guids : Vec Guid) (e : RsiPathEntry) :
    Within 1 (do
      requirePathTarget e.targetType e.targetGuid
      if isGuidTarget e.targetType then pushGuid guids e.targetGuid
      else pure guids : Sys (Vec Guid)) := by
  rw [requirePathTarget_eq]
  refine (within_check _).bind (m := 1) fun _ => ?_
  split_ifs
  · exact within_pushGuid guids _
  · exact .ret 1 guids

theorem within_validateUniqueNonzeroGuids (guids : Vec Guid) :
    Within 0 (validateUniqueNonzeroGuids guids) := by
  unfold validateUniqueNonzeroGuids
  dsimp only
  split_ifs
  · exact .err 0 _
  · exact .err 0 _
  · exact .ret 0 _

theorem within_metadataGuidSet (metadata : Arr RsiKeyMetadata) :
    Within 1 (metadataGuidSet metadata) := by
  unfold metadataGuidSet guidVecWithCapacity
  rw [requireArray_eq]
  refine (within_check _).bind (m := 1) fun _ => (within_tryReserve _ _).bind (m := 0) fun v => ?_
  refine ((within_loop (fun v m => within_push v _) _ v).bind
    fun v => within_validateUniqueNonzeroGuids v).mono (by omega)

/-- Comparing the targets with the metadata costs one reservation more than collecting them. -/
theorem within_compare {targets : Sys (Vec Guid)} {n : ℕ} (h : Within n targets)
    (metadata : Arr RsiKeyMetadata) :
    Within (n + 1) (do
      let targetGuids ← targets
      let metadataGuids ← metadataGuidSet metadata
      if metadataGuids.data = targetGuids.data then .ret () else .err EINVAL : Sys Unit) := by
  refine h.bind fun targetGuids => (within_metadataGuidSet metadata).bind (m := 0) fun guids => ?_
  split_ifs
  · exact .ret 0 _
  · exact .err 0 _

theorem within_validateLookupMetadata (entries : Arr RsiPathEntry)
    (metadata : Arr RsiKeyMetadata) :
    Within (entries.items.length + 1) (validateLookupMetadata entries metadata) := by
  refine within_compare ?_ metadata
  unfold lookupTargetGuidSet
  rw [requireArray_eq]
  exact ((within_check _).bind fun _ => (within_loop within_collectTarget _ _).bind (m := 0)
    fun v => .ret 0 _).mono (by omega)

theorem within_validateEnumChildrenMetadata (children : Arr RsiChildEntry)
    (metadata : Arr RsiKeyMetadata) :
    Within ((children.items.map fun c => c.entries.items.length).sum + 1)
      (validateEnumChildrenMetadata children metadata) := by
  have hchild : ∀ (v : Vec Guid) (c : RsiChildEntry), Within c.entries.items.length (do
      requireArray c.entries
      c.entries.items.foldlM (fun guids entry => do
        requirePathTarget entry.targetType entry.targetGuid
        if isGuidTarget entry.targetType then pushGuid guids entry.targetGuid
        else pure guids) v) := by
    intro v c
    rw [requireArray_eq]
    exact ((within_check _).bind fun _ => within_loop within_collectTarget _ v).mono (by omega)
  refine within_compare ?_ metadata
  unfold enumChildrenTargetGuidSet
  rw [requireArray_eq]
  exact ((within_check _).bind fun _ => (Within.foldlM hchild _ _).bind (m := 0)
    fun v => .ret 0 _).mono (by omega)

theorem within_orphanedGuidBytes (orphaned : GuidArr) : Within 1 (orphanedGuidBytes orphaned) := by
  unfold orphanedGuidBytes guidVecWithCapacity
  dsimp only
  split_ifs
  · exact .err 1 _
  · exact .ret 1 _
  · cases orphaned.ptr with
    | none => exact .err 1 _
    | some m =>
      refine (within_tryReserve _ _).bind (m := 0) fun v => ?_
      have hround : ∀ (v : Vec Guid) (bs : Bytes), Within 0 (do
          let g ← copyGuid bs
          v.push g) := by
        intro v bs
        unfold copyGuid
        split_ifs
        · exact within_push v _
        · exact .abort 0
      refine ((within_loop hround _ v).bind (m := 0) fun v =>
        (within_validateUniqueNonzeroGuids v).bind (m := 0) fun _ => .ret 0 _).mono (by omega)

/-! ## Whole calls -/

theorem within_copyInto (buf : Bytes) (off : ℕ) (src : Bytes) :
    Within 0 (copyInto buf off src) := by
  unfold copyInto
  split_ifs
  · exact .ret 0 _
  · exact .abort 0

theorem within_finishResponse (P : Pkm) (req : RsiRequest) (w : FrameWriter) :
    Within 0 (finishResponse P req w) := by
  unfold finishResponse putResponseHeader
  refine (within_okOr _ _).bind (m := 0) fun respOp => ?_
  split_ifs
  · exact .err 0 _
  · exact .err 0 _
  · exact ((within_copyInto _ _ _).bind (m := 0) fun _ => (within_copyInto _ _ _).bind (m := 0)
      fun _ => within_copyInto _ _ _).bind (m := 0) fun _ => within_copyInto _ _ _

/-- The placeholder is one append; nothing else is added to validation and encoding. -/
theorem within_prepare {α : Type} {validate : Sys α} {encode : α → FrameWriter → Sys FrameWriter}
    {n m : ℕ} (P : Pkm) (o : Op) (req : Option RsiRequest) (hvalidate : Within n validate)
    (hencode : ∀ a w, Within m (encode a w)) :
    Within (n + m + 1) (prepare P o req validate encode) := by
  have hreq : Within 0 (requireResponseReq req (P.opCode o)) := by
    unfold requireResponseReq
    refine (within_okOr _ _).bind (m := 0) fun r => ?_
    split_ifs
    · exact .err 0 _
    · exact .ret 0 _
  unfold prepare newWriter
  refine (hreq.bind fun r => hvalidate.bind fun a => (within_raw _ _).bind fun w =>
    (hencode a w).bind fun w => within_finishResponse P r w).mono (by omega)

/-- Sending is the `write`, and `errno` if it came up short. -/
theorem within_send (fd : CInt) {m : Sys Bytes} {n : ℕ} (h : Within n m) :
    Within (n + 2) (send fd m) := by
  have hfail : ∀ e, Within 1 (failErrno e) := fun e => .call fun _ => .ret 0 _
  refine h.either (fun frame => .call fun a => ?_) fun e => (hfail e).mono (by omega)
  cases a with
  | error e => exact .ret 1 _
  | ok k =>
    dsimp only
    split_ifs
    · exact .ret 1 _
    · exact hfail EIO

theorem within_encodeChild (w : FrameWriter) (c : RsiChildEntry) :
    Within (5 * c.entries.items.length + 3) (encodeChild w c) := by
  unfold encodeChild
  exact ((within_lpf w _).bind fun w => within_pathEntryBlock w _).mono (by omega)

theorem within_encodeValue (w : FrameWriter) (e : RsiValueEntry) : Within 8 (encodeValue w e) :=
  (within_lpf w _).bind (m := 6) fun w => (within_lpf w _).bind (m := 4) fun w =>
    (within_raw w _).bind (m := 3) fun w => (within_lpf w _).bind (m := 1) fun w => within_raw w _

theorem within_encodeBlanket (w : FrameWriter) (b : RsiBlanketEntry) :
    Within 3 (encodeBlanket w b) :=
  (within_lpf w _).bind (m := 1) fun w => within_raw w _

/-- **A payload responder stays within its budget.** -/
theorem within_respond (P : Pkm) (fd : CInt) (k : Kind) (req : Option RsiRequest) (a : Args k) :
    Within a.budget (respond P fd k req a) := by
  rw [respond_eq]
  cases k with
  | lookup =>
    refine (within_send fd (within_prepare P _ req
      (within_validateLookupMetadata a.entries a.metadata) fun _ w =>
        (within_pathEntryBlock w _).bind fun w => within_metadataBlock w _)).mono ?_
    show _ ≤ 6 * a.entries.items.length + 6 * a.metadata.items.length + 6
    omega
  | enumChildren =>
    refine (within_send fd (within_prepare P _ req
      (within_validateEnumChildrenMetadata a.children a.metadata) fun _ w =>
        ((within_raw w _).bind fun w => Within.foldlM within_encodeChild _ w).bind
          fun w => within_metadataBlock w _)).mono ?_
    have hsum : (a.children.items.map fun c => 6 * c.entries.items.length + 3).sum =
        (a.children.items.map fun c => c.entries.items.length).sum +
          (a.children.items.map fun c => 5 * c.entries.items.length + 3).sum := by
      rw [← List.sum_map_add]
      exact congrArg List.sum (List.map_congr_left fun c _ => by omega)
    show _ ≤ (a.children.items.map fun c => 6 * c.entries.items.length + 3).sum +
      6 * a.metadata.items.length + 6
    omega
  | readKey =>
    exact within_send fd (within_prepare P _ req (within_okOr _ _) fun parent w =>
      (within_lpf w _).bind (m := 6) fun w => (within_raw w _).bind (m := 5) fun w =>
      (within_lpf w _).bind (m := 3) fun w => (within_check _).bind (m := 3) fun _ =>
      (within_check _).bind (m := 3) fun _ => (within_raw w _).bind (m := 2) fun w =>
      (within_raw w _).bind (m := 1) fun w => within_raw w _)
  | deleteLayer =>
    exact within_send fd (within_prepare P _ req (within_orphanedGuidBytes a) fun bytes w =>
      (within_raw w _).bind (m := 1) fun w => within_raw w _)
  | queryValues =>
    refine (within_send fd (within_prepare P _ req
      ((within_check _).bind fun _ => within_check _) fun _ w =>
        ((within_raw w _).bind fun w => within_loop within_encodeValue _ w).bind fun w =>
          (within_raw w _).bind fun w => within_loop within_encodeBlanket _ w)).mono ?_
    show _ ≤ 8 * a.entries.items.length + 3 * a.blankets.items.length + 5
    omega

theorem RespondCall.within_exec (P : Pkm) (fd : CInt) (call : RespondCall) :
    Within call.budget (call.exec P fd) := by
  cases call with
  | status req code =>
    show Within 2 (rsiRespondStatus P fd req code)
    rw [rsiRespondStatus_eq_send]
    rcases prepareStatus_cases (P := P) req code with ⟨-, heq⟩ | ⟨-, heq⟩
    · rw [heq]
      exact within_send fd (.ret 0 _)
    · rw [heq]
      exact within_send fd (.err 0 _)
  | payload k req args => exact within_respond P fd k req args

/-! ## Any interleaving -/

section Pool

variable {ι σ : Type} [DecidableEq ι] [Fintype ι] (P : Pkm) (fds : ι → CInt)
  (calls : ι → RespondCall) {W : World ι Ans σ} {w : σ} {x : Pool ι Ans Errno CInt σ}

/-- **Every responder finishes, whatever the others do.**  In any interleaving, whatever the
kernel and the allocator answer: a call makes no more system calls than its budget, and one
that has made as many has returned `0` or `-1`; and the run is no longer than the budgets
together.  If the kernel and the allocator answer every call, one way or another, it can go on
until every call has returned. -/
theorem responders_finish (hx : Reaches W (respondPool P fds calls w) x) :
    (∀ i, (eventsOf i x.past).length ≤ (calls i).budget ∧
      ((eventsOf i x.past).length = (calls i).budget →
        x.left i = .ret 0 ∨ x.left i = .ret (-1))) ∧
      x.past.length ≤ ∑ i, (calls i).budget ∧
      ((∀ s i c, ∃ a s', W.answers s i ⟨c, a⟩ s') →
        (∀ i, x.left i = .ret 0 ∨ x.left i = .ret (-1)) ∨
        ∃ y, Step W x y ∧ y.past.length = x.past.length + 1) := by
  have hwithin : ∀ i, Within (calls i).budget ((calls i).exec P (fds i)) :=
    fun i => (calls i).within_exec P (fds i)
  have hle : ∀ i, (eventsOf i x.past).length ≤ (calls i).budget := hx.length_eventsOf_le hwithin
  refine ⟨fun i => ⟨hle i, fun hspent => ?_⟩, ?_, fun hW => ?_⟩
  · rcases returned_or_calling hx i with hret | hret | ⟨c, k, hcall⟩
    · exact Or.inl hret
    · exact Or.inr hret
    · have hlt := hx.length_eventsOf_lt hwithin hcall
      omega
  · rw [length_past_eq_sum]
    exact Finset.sum_le_sum fun i _ => hle i
  · by_cases hdone : ∀ i, x.left i = .ret 0 ∨ x.left i = .ret (-1)
    · exact Or.inl hdone
    · obtain ⟨i, hi⟩ := not_forall.mp hdone
      obtain ⟨hzero, hfail⟩ := not_or.mp hi
      obtain ⟨c, k, hcall⟩ := ((returned_or_calling hx i).resolve_left hzero).resolve_left hfail
      exact Or.inr (exists_step hW hcall)

end Pool

/-- The first of two FLUSHes has come up short and has still to say so. -/
theorem responders_finish_pair :
    let W : World Bool Ans Unit := .giving fun _ => True
    (∀ s i c, ∃ a s', W.answers s i ⟨c, a⟩ s') ∧
      ∃ x, Reaches W (respondPool .small (fun _ => 3) smallPair ()) x ∧ x.past.length = 1 ∧
        ∃ y, Step W x y ∧ y.past.length = 2 := by
  intro W
  have hW : ∀ s i c, ∃ a s', W.answers s i ⟨c, a⟩ s' := by
    intro s i c
    cases c with
    | tryReserve n => exact ⟨none, (), trivial⟩
    | tryExtend b => exact ⟨.appended, (), trivial⟩
    | write fd buf => exact ⟨.ok 0, (), trivial⟩
    | openDevice path flags => exact ⟨.ok 0, (), trivial⟩
    | ioctl fd request args => exact ⟨.ok 0, (), trivial⟩
    | close fd => exact ⟨none, (), trivial⟩
    | getErrno => exact ⟨0, (), trivial⟩
    | setErrno e => exact ⟨(), (), trivial⟩
  have hx := Relation.ReflTransGen.single (step_smallPair (W := W) (w := ())
    (x := respondPool .small (fun _ => 3) smallPair ()) (b := false) 0 rfl trivial)
  refine ⟨hW, _, hx, rfl, ?_⟩
  obtain ⟨-, -, hnext⟩ := responders_finish .small (fun _ => 3) smallPair hx
  refine (hnext hW).resolve_left fun hdone => ?_
  have hleft : failErrno EIO = .ret 0 ∨ failErrno EIO = .ret (-1) := hdone false
  exact absurd hleft (by simp [failErrno])

end Librsi

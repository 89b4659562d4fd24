import Librsi.Response.Arguments

/-!
# Validation

The checks that look at an argument as a whole: the GUID sets of LOOKUP and
ENUM_CHILDREN and the orphan list of DELETE_LAYER.  They collect GUIDs into a vector,
sort it, and look at neighbours.

Validation calls nothing but `try_reserve`, and what it says depends on nothing but its
arguments.  `Computes view m c b` states that once: a failed reservation makes `m` fail
with `ENOMEM`; otherwise `m` returns something that looks like `b` if `c` holds, and
fails with `EINVAL` if it does not.  It composes (`Computes.bind`, `Computes.foldlM`),
so that the condition of a whole function is the conjunction of its parts, however its
loops are nested and wherever they stop.
-/

namespace Librsi

open WireFormat Interaction

/-! ## Collecting GUIDs -/

/-- `guid_vec_with_capacity`. -/
def guidVecWithCapacity (capacity : ℕ) : Sys (Vec Guid) := Vec.new.tryReserve capacity

/-- `push_guid`. -/
def pushGuid (guids : Vec Guid) (guid : Guid) : Sys (Vec Guid) :=
  if guids.data.length = guids.capacity then do
    let guids ← guids.tryReserve 1
    guids.push guid
  else guids.push guid

/-- `validate_unique_nonzero_guids`.  The vector comes back sorted. -/
def validateUniqueNonzeroGuids (guids : Vec Guid) : Sys (Vec Guid) :=
  let guids := guids.sortUnstable
  if guids.data.head? = some Guid.nil then .err EINVAL
  else if SortedVec.hasEqualNeighbours guids.data then .err EINVAL
  else .ret guids

/-- `sort_dedup_guids`. -/
def sortDedupGuids (guids : Vec Guid) : Vec Guid := guids.sortUnstable.dedup

/-- `metadata_guid_set`. -/
def metadataGuidSet (metadata : Arr RsiKeyMetadata) : Sys (Vec Guid) := do
  requireArray metadata
  let guids ← guidVecWithCapacity metadata.count.toNat
  let guids ← metadata.items.foldlM (fun guids m => guids.push m.guid) guids
  validateUniqueNonzeroGuids guids

/-- `lookup_target_guid_set`. -/
def lookupTargetGuidSet (entries : Arr RsiPathEntry) : Sys (Vec Guid) := do
  requireArray entries
  let guids ← entries.items.foldlM (fun guids entry => do
    requirePathTarget entry.targetType entry.targetGuid
    if isGuidTarget entry.targetType then pushGuid guids entry.targetGuid
    else pure guids) Vec.new
  return sortDedupGuids guids

/-- `enum_children_target_guid_set`. -/
def enumChildrenTargetGuidSet (children : Arr RsiChildEntry) : Sys (Vec Guid) := do
  requireArray children
  let guids ← children.items.foldlM (fun guids child => do
    requireArray child.entries
    child.entries.items.foldlM (fun guids entry => do
      requirePathTarget entry.targetType entry.targetGuid
      if isGuidTarget entry.targetType then pushGuid guids entry.targetGuid
      else pure guids) guids) Vec.new
  return sortDedupGuids guids

/-- `validate_lookup_metadata`. -/
def validateLookupMetadata (entries : Arr RsiPathEntry) (metadata : Arr RsiKeyMetadata) :
    Sys Unit := do
  let targetGuids ← lookupTargetGuidSet entries
  let metadataGuids ← metadataGuidSet metadata
  if metadataGuids.data = targetGuids.data then .ret () else .err EINVAL

/-- `validate_enum_children_metadata`. -/
def validateEnumChildrenMetadata (children : Arr RsiChildEntry)
    (metadata : Arr RsiKeyMetadata) : Sys Unit := do
  let targetGuids ← enumChildrenTargetGuidSet children
  let metadataGuids ← metadataGuidSet metadata
  if metadataGuids.data = targetGuids.data then .ret () else .err EINVAL

/-- `chunks_exact`: consecutive chunks of `n` bytes, a shorter rest left out. -/
def chunksExact (n : ℕ) (bs : Bytes) : List Bytes :=
  (List.range (bs.length / n)).map fun i => (bs.drop (i * n)).take n

/-- `copy_from_slice` into a `[u8; 16]`, which panics on any other length. -/
def copyGuid (bs : Bytes) : Sys Guid :=
  if h : bs.length = 16 then .ret ⟨bs, h⟩ else .abort

/-- `orphaned_guid_bytes`. -/
def orphanedGuidBytes (orphaned : GuidArr) : Sys Bytes :=
  let guidBytesLen := orphaned.count.toNat * 16
  -- `checked_mul` on a 64-bit `usize`
  if 2 ^ 64 ≤ guidBytesLen then .err EOVERFLOW
  else if guidBytesLen = 0 then .ret []
  else
    match orphaned.ptr with
    | none => .err EINVAL
    | some m => do
        let bytes := m.take guidBytesLen
        let guids ← guidVecWithCapacity orphaned.count.toNat
        let guids ← (chunksExact 16 bytes).foldlM (fun guids guidBytes => do
          let guid ← copyGuid guidBytes
          guids.push guid) guids
        let _ ← validateUniqueNonzeroGuids guids
        return bytes

/-! ## What a computation says -/

/-- The outcomes of a computation that only reserves memory, under the condition `c` and
with a result that looks like `b`. -/
inductive Computed {α β : Type} (view : α → β) (c : Prop) (b : β) :
    Outcome Errno α → Trace → Prop
  | enomem {t : Trace} (only : ReserveOnly t) (failed : ReserveFailed t) :
      Computed view c b (.err ENOMEM) t
  | ret {t : Trace} {a : α} (only : ReserveOnly t) (fine : ¬ ReserveFailed t) (holds : c)
      (eq : view a = b) : Computed view c b (.ret a) t
  | einval {t : Trace} (only : ReserveOnly t) (fine : ¬ ReserveFailed t) (fails : ¬ c) :
      Computed view c b (.err EINVAL) t

/-- **What validation is.**  Every run of `m` ends in one of the outcomes of
`Computed`. -/
def Computes {α β : Type} (view : α → β) (m : Sys α) (c : Prop) (b : β) : Prop :=
  m.All (Computed view c b)

namespace Computes

variable {α β γ δ ε : Type} {view : α → β} {view' : γ → δ}

theorem ret {a : α} {b : β} (h : view a = b) : Computes view (.ret a) True b :=
  Computed.ret ReserveOnly.nil reserveFailed_nil trivial h

/-- A condition may be replaced by an equivalent one, and the result by another as long
as the condition holds. -/
theorem congr {m : Sys α} {c c' : Prop} {b b' : β} (h : Computes view m c b) (hc : c ↔ c')
    (hb : c → b = b') : Computes view m c' b' := by
  refine Prog.All.mono h fun o t ho => ?_
  cases ho with
  | enomem only failed => exact .enomem only failed
  | ret only fine holds eq => exact .ret only fine (hc.mp holds) (eq.trans (hb holds))
  | einval only fine fails => exact .einval only fine (mt hc.mpr fails)

/-- **Conditions add up along a sequence**, as long as the second computation depends on
the first result only through its view. -/
theorem bind {m : Sys α} {f : α → Sys γ} {c c' : Prop} {b : β} {d : δ}
    (hm : Computes view m c b) (hf : ∀ a, view a = b → Computes view' (f a) c' d) :
    Computes view' (m >>= f) (c ∧ c') d := by
  refine Prog.all_bind hm (fun a t ha => ?_) (fun e t he => ?_) (fun t h => nomatch h)
  · cases ha with
    | ret only fine holds eq =>
      refine Prog.All.mono (hf a eq) fun o t' ho => ?_
      cases ho with
      | enomem only' failed =>
        exact .enomem (only.append only') (reserveFailed_append.mpr (Or.inr failed))
      | ret only' fine' holds' eq' =>
        exact .ret (only.append only') (by simp [fine, fine']) ⟨holds, holds'⟩ eq'
      | einval only' fine' fails =>
        exact .einval (only.append only') (by simp [fine, fine']) fun h => fails h.2
  · cases he with
    | enomem only failed => exact .enomem only failed
    | einval only fine fails => exact .einval only fine fun h => fails h.1

/-- A pure step after a computation. -/
theorem map {m : Sys α} {g : α → γ} {c : Prop} {b : β} {d : δ} (hm : Computes view m c b)
    (hg : ∀ a, view a = b → view' (g a) = d) :
    Computes view' (m >>= fun a => pure (g a)) c d :=
  (hm.bind fun a ha => Computes.ret (hg a ha)).congr (iff_of_eq (and_true c)) fun _ => rfl

theorem check (c : Prop) [Decidable c] : Computes (fun u : Unit => u) (check c) c () := by
  by_cases h : c
  · rw [Librsi.check, if_pos h]
    exact Computed.ret ReserveOnly.nil reserveFailed_nil h rfl
  · rw [Librsi.check, if_neg h]
    exact Computed.einval ReserveOnly.nil reserveFailed_nil h

/-- **A loop that appends.**  If each iteration appends the elements `g x` under the
condition `c x`, the loop appends them all under all the conditions. -/
theorem foldlM {body : Vec α → ε → Sys (Vec α)} {c : ε → Prop} {g : ε → List α}
    (hbody : ∀ v x, Computes Vec.data (body v x) (c x) (v.data ++ g x)) (xs : List ε)
    (v : Vec α) :
    Computes Vec.data (xs.foldlM body v) (∀ x ∈ xs, c x) (v.data ++ xs.flatMap g) := by
  induction xs generalizing v with
  | nil =>
    rw [List.foldlM_nil]
    exact (Computes.ret (List.append_nil v.data).symm).congr (by simp) fun _ => by simp
  | cons x xs ih =>
    rw [List.foldlM_cons]
    have htail : ∀ v', v'.data = v.data ++ g x →
        Computes Vec.data (xs.foldlM body v') (∀ y ∈ xs, c y) (v.data ++ g x ++ xs.flatMap g) := by
      intro v' hv'
      rw [← hv']
      exact ih v'
    refine ((hbody v x).bind htail).congr (by simp) fun _ => ?_
    rw [List.flatMap_cons, List.append_assoc]

end Computes

/-! ## Vectors -/

/-- A successful reservation in front changes nothing. -/
theorem Computed.cons_reserved {α β : Type} {view : α → β} {c : Prop} {b : β}
    {o : Outcome Errno α} {t : Trace} (h : Computed view c b o t) (n slack : ℕ) :
    Computed view c b o (⟨.tryReserve n, some slack⟩ :: t) := by
  have honly : ReserveOnly t → ReserveOnly (⟨.tryReserve n, some slack⟩ :: t) := by
    intro only e he
    rcases List.mem_cons.mp he with rfl | he
    · exact ⟨n, rfl⟩
    · exact only e he
  have hfailed : ReserveFailed (⟨.tryReserve n, some slack⟩ :: t) ↔ ReserveFailed t := by
    simp [ReserveFailed, ReserveFailure]
  cases h with
  | enomem only failed => exact .enomem (honly only) (hfailed.mpr failed)
  | ret only fine holds eq => exact .ret (honly only) (mt hfailed.mp fine) holds eq
  | einval only fine fails => exact .einval (honly only) (mt hfailed.mp fine) fails

/-- `Vec.all_tryReserve` for a computation. -/
theorem Computes.tryReserve {α γ δ : Type} {view : γ → δ} {v : Vec α} {n : ℕ}
    {f : Vec α → Sys γ} {c : Prop} {d : δ}
    (hf : ∀ v', v'.data = v.data → v.data.length + n ≤ v'.capacity →
      Computes view (f v') c d) :
    Computes view (v.tryReserve n >>= f) c d := by
  refine Vec.all_tryReserve ?_ fun v' slack hdata hcap => ?_
  · refine .enomem (fun e he => ⟨n, ?_⟩) ⟨_, List.mem_cons_self, trivial⟩
    rw [List.mem_singleton.mp he]
  · exact Prog.All.mono (hf v' hdata hcap) fun o t ho => ho.cons_reserved n slack

/-- Pushing onto a vector with room does not allocate. -/
theorem Computes.push {α : Type} {v : Vec α} (a : α) (h : v.data.length < v.capacity) :
    Computes Vec.data (v.push a) True (v.data ++ [a]) := by
  rw [Vec.push, dif_pos h]
  exact Computes.ret rfl

/-- A loop that pushes as many elements as there is room for. -/
theorem Computes.pushAll {α ε : Type} (f : ε → α) (xs : List ε) (v : Vec α)
    (h : v.data.length + xs.length ≤ v.capacity) :
    Computes Vec.data (xs.foldlM (fun v x => v.push (f x)) v) True (v.data ++ xs.map f) := by
  obtain ⟨v', hrun, hdata⟩ := Vec.exists_foldlM_push f xs v h
  rw [hrun]
  exact Computes.ret hdata

theorem computes_pushGuid (v : Vec Guid) (g : Guid) :
    Computes Vec.data (pushGuid v g) True (v.data ++ [g]) := by
  rw [pushGuid]
  split_ifs with hfull
  · refine Computes.tryReserve fun v' hdata hcap => ?_
    rw [← hdata]
    exact Computes.push g (by rw [hdata]; omega)
  · exact Computes.push g (lt_of_le_of_ne v.le hfull)

theorem computes_validateUniqueNonzeroGuids (v : Vec Guid) :
    Computes Vec.data (validateUniqueNonzeroGuids v) (Guid.nil ∉ v.data ∧ v.data.Nodup)
      (SortedVec.sort v.data) := by
  have hfirst : v.sortUnstable.data.head? = some Guid.nil ↔ Guid.nil ∈ v.data :=
    SortedVec.head?_sort_eq_some_iff Guid.nil_le
  have hdup : SortedVec.hasEqualNeighbours v.sortUnstable.data = false ↔ v.data.Nodup :=
    SortedVec.hasEqualNeighbours_sort
  rw [validateUniqueNonzeroGuids]
  split_ifs with h1 h2
  · exact Computed.einval ReserveOnly.nil reserveFailed_nil fun h => h.1 (hfirst.mp h1)
  · refine Computed.einval ReserveOnly.nil reserveFailed_nil fun h => ?_
    rw [hdup.mpr h.2] at h2
    exact absurd h2 (by simp)
  · exact Computed.ret ReserveOnly.nil reserveFailed_nil
      ⟨mt hfirst.mpr h1, hdup.mp (Bool.not_eq_true _ ▸ h2)⟩ rfl

/-! ## The GUID sets -/

/-- The GUID targets of an array of entries, in order. -/
def targets (entries : List Layout.PathEntry) : List Guid :=
  (entries.filter fun e => decide e.IsGuidTarget).map Layout.PathEntry.targetGuid

theorem mem_targets {entries : List Layout.PathEntry} {g : Guid} :
    g ∈ targets entries ↔ ∃ e ∈ entries, e.IsGuidTarget ∧ e.targetGuid = g := by
  simp [targets, and_assoc]

theorem targets_append (l l' : List Layout.PathEntry) :
    targets (l ++ l') = targets l ++ targets l' := by
  rw [targets, List.filter_append, List.map_append, targets, targets]

/-- The body both collectors run for one entry. -/
theorem computes_collectTarget (v : Vec Guid) (e : RsiPathEntry) :
    Computes Vec.data (do
        requirePathTarget e.targetType e.targetGuid
        if isGuidTarget e.targetType then pushGuid v e.targetGuid else pure v)
      e.wire.TargetRule (v.data ++ targets [e.wire]) := by
  have hpush : Computes Vec.data
      (if isGuidTarget e.targetType then pushGuid v e.targetGuid else pure v) True
      (v.data ++ targets [e.wire]) := by
    by_cases hg : e.wire.IsGuidTarget
    · have hb : isGuidTarget e.targetType = true := decide_eq_true hg
      have ht : targets [e.wire] = [e.targetGuid] := by
        rw [targets, List.filter_singleton, decide_eq_true hg]
        rfl
      rw [if_pos hb, ht]
      exact computes_pushGuid v e.targetGuid
    · have hb : ¬ isGuidTarget e.targetType = true := fun h => hg (of_decide_eq_true h)
      have ht : targets [e.wire] = [] := by simp [targets, hg]
      rw [if_neg hb, ht, List.append_nil]
      exact Computes.ret rfl
  rw [requirePathTarget_eq]
  exact ((Computes.check _).bind fun _ _ => hpush).congr (iff_of_eq (and_true _)) fun _ => rfl

theorem flatMap_targets_singleton (l : List RsiPathEntry) :
    (l.flatMap fun e => targets [e.wire]) = targets (l.map RsiPathEntry.wire) := by
  induction l with
  | nil => rfl
  | cons e l ih =>
    rw [List.flatMap_cons, ih, List.map_cons, ← targets_append, List.singleton_append]

/-- The set a collector returns: sorted, without duplicates. -/
def targetSet (entries : List Layout.PathEntry) : List Guid :=
  SortedVec.dedup (SortedVec.sort (targets entries))

theorem computes_lookupTargetGuidSet (entries : Arr RsiPathEntry) :
    Computes Vec.data (lookupTargetGuidSet entries)
      (¬ entries.Dangling ∧ ∀ e ∈ entries.items, e.wire.TargetRule)
      (targetSet (entries.items.map RsiPathEntry.wire)) := by
  rw [lookupTargetGuidSet, requireArray_eq]
  have hloop := Computes.foldlM computes_collectTarget entries.items Vec.new
  refine (Computes.check _).bind fun _ _ => hloop.map fun v hv => ?_
  show SortedVec.dedup (SortedVec.sort v.data) = _
  rw [hv, flatMap_targets_singleton]
  rfl

/-- The entries of all children, one child after the other. -/
def flatEntries (children : Arr RsiChildEntry) : List RsiPathEntry :=
  children.items.flatMap fun c => c.entries.items

/-- **The nested collector is the flat one on the concatenation.**  GUIDs are
deduplicated over all children at once, because there is one vector. -/
theorem computes_enumChildrenTargetGuidSet (children : Arr RsiChildEntry) :
    Computes Vec.data (enumChildrenTargetGuidSet children)
      (¬ children.Dangling ∧ ∀ c ∈ children.items, ¬ c.entries.Dangling ∧
        ∀ e ∈ c.entries.items, e.wire.TargetRule)
      (targetSet ((flatEntries children).map RsiPathEntry.wire)) := by
  rw [enumChildrenTargetGuidSet, requireArray_eq]
  have hchild : ∀ (v : Vec Guid) (c : RsiChildEntry), Computes Vec.data (do
        requireArray c.entries
        c.entries.items.foldlM (fun guids entry => do
          requirePathTarget entry.targetType entry.targetGuid
          if isGuidTarget entry.targetType then pushGuid guids entry.targetGuid
          else pure guids) v)
      (¬ c.entries.Dangling ∧ ∀ e ∈ c.entries.items, e.wire.TargetRule)
      (v.data ++ targets (c.entries.items.map RsiPathEntry.wire)) := by
    intro v c
    rw [requireArray_eq, ← flatMap_targets_singleton]
    exact (Computes.check _).bind fun _ _ =>
      Computes.foldlM computes_collectTarget c.entries.items v
  have hloop := Computes.foldlM hchild children.items Vec.new
  have hflat : children.items.flatMap (fun c => targets (c.entries.items.map RsiPathEntry.wire)) =
      targets ((flatEntries children).map RsiPathEntry.wire) := by
    rw [flatEntries]
    induction children.items with
    | nil => rfl
    | cons c cs ih =>
      rw [List.flatMap_cons, ih, List.flatMap_cons, List.map_append, targets_append]
  refine (Computes.check _).bind fun _ _ => hloop.map fun v hv => ?_
  show SortedVec.dedup (SortedVec.sort v.data) = _
  rw [hv, hflat]
  rfl

theorem computes_metadataGuidSet (metadata : Arr RsiKeyMetadata) :
    Computes Vec.data (metadataGuidSet metadata)
      (¬ metadata.Dangling ∧ Guid.nil ∉ metadata.items.map RsiKeyMetadata.guid ∧
        (metadata.items.map RsiKeyMetadata.guid).Nodup)
      (SortedVec.sort (metadata.items.map RsiKeyMetadata.guid)) := by
  rw [metadataGuidSet, requireArray_eq]
  -- the vector has room for `count` elements, and the loop pushes exactly that many
  by_cases hd : metadata.Dangling
  · rw [check, if_neg (not_not.mpr hd)]
    exact Computed.einval ReserveOnly.nil reserveFailed_nil fun h => h.1 hd
  · rw [check, if_pos hd]
    refine (Computes.tryReserve (v := Vec.new) fun v hdata hcap => ?_).congr
      (and_iff_right hd).symm fun _ => rfl
    have hroom : v.data.length + metadata.items.length ≤ v.capacity := by
      rw [hdata, Arr.length_items hd]
      exact hcap
    have hpush := Computes.pushAll RsiKeyMetadata.guid metadata.items v hroom
    rw [hdata] at hpush
    refine (hpush.bind fun v' hv' => ?_).congr (iff_of_eq (true_and _)) fun _ => rfl
    have hval := computes_validateUniqueNonzeroGuids v'
    rwa [hv'] at hval

/-! ## Validating LOOKUP and ENUM_CHILDREN -/

theorem map_guid_wire (metadata : List RsiKeyMetadata) :
    (metadata.map RsiKeyMetadata.wire).map Layout.KeyMetadata.guid =
      metadata.map RsiKeyMetadata.guid := by
  rw [List.map_map]
  rfl

/-- What the two sorted vectors decide, in the words of the header: the metadata exactly
covers the targets. -/
theorem covers_iff {metadata : List Layout.KeyMetadata} {entries : List Layout.PathEntry} :
    Layout.Covers metadata entries ↔
      (Guid.nil ∉ metadata.map Layout.KeyMetadata.guid ∧
        (metadata.map Layout.KeyMetadata.guid).Nodup) ∧
      SortedVec.sort (metadata.map Layout.KeyMetadata.guid) = targetSet entries := by
  have hmem : ∀ g, g ∈ metadata.map Layout.KeyMetadata.guid ↔ ∃ m ∈ metadata, m.guid = g :=
    fun g => List.mem_map
  constructor
  · intro h
    refine ⟨⟨fun hnil => ?_, h.unique⟩, (SortedVec.sort_eq_dedup_sort_iff h.unique).mpr fun g => ?_⟩
    · obtain ⟨m, hm, hg⟩ := (hmem _).mp hnil
      exact h.nonzero m hm hg
    · rw [hmem, mem_targets]
      exact h.exact g
  · rintro ⟨⟨hnil, hnodup⟩, heq⟩
    refine ⟨fun m hm hg => hnil ((hmem _).mpr ⟨m, hm, hg⟩), hnodup, fun g => ?_⟩
    rw [← hmem, ← mem_targets]
    exact (SortedVec.sort_eq_dedup_sort_iff hnodup).mp heq g

/-- Comparing the two sets, after either collector. -/
theorem computes_compare {m : Sys (Vec Guid)} {c : Prop} {entries : List Layout.PathEntry}
    (hm : Computes Vec.data m c (targetSet entries)) (metadata : Arr RsiKeyMetadata) :
    Computes (fun u : Unit => u) (do
        let targetGuids ← m
        let metadataGuids ← metadataGuidSet metadata
        if metadataGuids.data = targetGuids.data then .ret () else .err EINVAL)
      (c ∧ ¬ metadata.Dangling ∧ Layout.Covers (metadata.items.map RsiKeyMetadata.wire) entries)
      () := by
  have hinner : ∀ v : Vec Guid, v.data = targetSet entries → Computes (fun u : Unit => u) (do
        let metadataGuids ← metadataGuidSet metadata
        if metadataGuids.data = v.data then .ret () else .err EINVAL)
      ((¬ metadata.Dangling ∧ Guid.nil ∉ metadata.items.map RsiKeyMetadata.guid ∧
          (metadata.items.map RsiKeyMetadata.guid).Nodup) ∧
        SortedVec.sort (metadata.items.map RsiKeyMetadata.guid) = targetSet entries) () := by
    intro v hv
    refine (computes_metadataGuidSet metadata).bind fun w hw => ?_
    rw [hw, hv]
    exact Computes.check _
  refine (hm.bind hinner).congr ?_ fun _ => rfl
  rw [covers_iff, map_guid_wire, and_assoc]

/-- The condition of `validate_lookup_metadata`. -/
def LookupValid (entries : Arr RsiPathEntry) (metadata : Arr RsiKeyMetadata) : Prop :=
  (¬ entries.Dangling ∧ ∀ e ∈ entries.items, e.wire.TargetRule) ∧ ¬ metadata.Dangling ∧
    Layout.Covers (metadata.items.map RsiKeyMetadata.wire) (entries.items.map RsiPathEntry.wire)

/-- The condition of `validate_enum_children_metadata`. -/
def EnumChildrenValid (children : Arr RsiChildEntry) (metadata : Arr RsiKeyMetadata) : Prop :=
  (¬ children.Dangling ∧ ∀ c ∈ children.items, ¬ c.entries.Dangling ∧
      ∀ e ∈ c.entries.items, e.wire.TargetRule) ∧ ¬ metadata.Dangling ∧
    Layout.Covers (metadata.items.map RsiKeyMetadata.wire)
      ((flatEntries children).map RsiPathEntry.wire)

theorem computes_validateLookupMetadata (entries : Arr RsiPathEntry)
    (metadata : Arr RsiKeyMetadata) :
    Computes (fun u : Unit => u) (validateLookupMetadata entries metadata)
      (LookupValid entries metadata) () :=
  computes_compare (computes_lookupTargetGuidSet entries) metadata

theorem computes_validateEnumChildrenMetadata (children : Arr RsiChildEntry)
    (metadata : Arr RsiKeyMetadata) :
    Computes (fun u : Unit => u) (validateEnumChildrenMetadata children metadata)
      (EnumChildrenValid children metadata) () :=
  computes_compare (computes_enumChildrenTargetGuidSet children) metadata

/-! ## Validating DELETE_LAYER -/

/-- The GUIDs laid end to end in the caller's memory. -/
def GuidArr.items (a : GuidArr) : List Guid :=
  (chunksExact 16 ((a.ptr.getD []).take (a.count.toNat * 16))).filterMap fun b =>
    if h : b.length = 16 then some ⟨b, h⟩ else none

theorem length_flatMap_bytes (gs : List Guid) : (gs.flatMap Guid.bytes).length = gs.length * 16 := by
  induction gs with
  | nil => rfl
  | cons g gs ih =>
    rw [List.flatMap_cons, List.length_append, ih, g.length_eq, List.length_cons]
    omega

/-- GUIDs laid end to end are cut up again where they were joined. -/
theorem chunksExact_flatMap_bytes (gs : List Guid) :
    chunksExact 16 (gs.flatMap Guid.bytes) = gs.map Guid.bytes := by
  rw [chunksExact, length_flatMap_bytes, Nat.mul_div_cancel _ (by decide)]
  induction gs with
  | nil => rfl
  | cons g gs ih =>
    rw [List.length_cons, List.range_succ_eq_map, List.map_cons, List.map_map, List.map_cons,
      ← ih, List.flatMap_cons, Nat.zero_mul, List.drop_zero,
      List.take_left' g.length_eq]
    refine congrArg (g.bytes :: ·) (List.map_congr_left fun i _ => ?_)
    have hdrop : (i + 1) * 16 = g.bytes.length + i * 16 := by
      rw [g.length_eq]
      omega
    rw [Function.comp_apply, Nat.succ_eq_add_one, hdrop, List.drop_length_add_append]

/-- Every byte string of the right length is a sequence of GUIDs. -/
theorem exists_flatMap_bytes (n : ℕ) (bs : Bytes) (h : bs.length = n * 16) :
    ∃ gs : List Guid, gs.length = n ∧ gs.flatMap Guid.bytes = bs := by
  induction n generalizing bs with
  | zero =>
    refine ⟨[], rfl, ?_⟩
    rw [List.flatMap_nil, List.length_eq_zero_iff.mp (by omega : bs.length = 0)]
  | succ n ih =>
    obtain ⟨gs, hlen, hgs⟩ := ih (bs.drop 16) (by rw [List.length_drop]; omega)
    refine ⟨⟨bs.take 16, List.length_take_of_le (by omega)⟩ :: gs, by rw [List.length_cons, hlen], ?_⟩
    rw [List.flatMap_cons, hgs, List.take_append_drop]

theorem GuidArr.items_eq {a : GuidArr} {gs : List Guid}
    (h : (a.ptr.getD []).take (a.count.toNat * 16) = gs.flatMap Guid.bytes) : a.items = gs := by
  have hsome : (fun b : Bytes => if h : b.length = 16 then some (⟨b, h⟩ : Guid) else none) ∘
      Guid.bytes = some := funext fun g => dif_pos g.length_eq
  rw [GuidArr.items, h, chunksExact_flatMap_bytes, List.filterMap_map, hsome, List.filterMap_some]

/-- A list of GUIDs that does not dangle has as many as it says, and its memory holds
their bytes. -/
theorem GuidArr.items_spec {a : GuidArr} (h : ¬ a.Dangling) :
    a.items.length = a.count.toNat ∧
      (a.ptr.getD []).take (a.count.toNat * 16) = a.items.flatMap Guid.bytes := by
  have hlen : ((a.ptr.getD []).take (a.count.toNat * 16)).length = a.count.toNat * 16 := by
    cases hptr : a.ptr with
    | none =>
      have hc : a.count = 0 := by
        by_contra hc
        exact h ⟨hptr, hc⟩
      rw [hc]
      rfl
    | some m => exact List.length_take_of_le (a.valid m hptr)
  obtain ⟨gs, hgs, hbytes⟩ := exists_flatMap_bytes _ _ hlen
  rw [GuidArr.items_eq hbytes.symm]
  exact ⟨hgs, hbytes.symm⟩

/-- The loop that copies the chunks into a vector with room for them. -/
theorem computes_copyGuids (gs : List Guid) (v : Vec Guid)
    (h : v.data.length + gs.length ≤ v.capacity) :
    Computes Vec.data ((gs.map Guid.bytes).foldlM (fun guids guidBytes => do
      let guid ← copyGuid guidBytes
      guids.push guid) v) True (v.data ++ gs) := by
  have hcopy : ∀ g : Guid, copyGuid g.bytes = .ret g := fun g => dif_pos g.length_eq
  have hpush := Computes.pushAll id gs v h
  rw [List.map_id] at hpush
  rw [List.foldlM_map]
  simp only [hcopy]
  exact hpush

theorem computes_orphanedGuidBytes (a : GuidArr) :
    Computes id (orphanedGuidBytes a) (¬ a.Dangling ∧ Guid.nil ∉ a.items ∧ a.items.Nodup)
      (a.items.flatMap Guid.bytes) := by
  have hcount := a.count.toNat_lt
  have hzero : a.count.toNat * 16 = 0 ↔ a.count = 0 := by
    rw [← UInt32.toNat_inj, UInt32.toNat_zero]
    omega
  rw [orphanedGuidBytes, if_neg (by omega)]
  by_cases hd : a.Dangling
  · rw [if_neg (mt hzero.mp hd.2), hd.1]
    exact Computed.einval ReserveOnly.nil reserveFailed_nil fun h => h.1 hd
  · obtain ⟨hlen, hbytes⟩ := GuidArr.items_spec hd
    by_cases hc : a.count = 0
    · have hnil : a.items = [] := List.length_eq_zero_iff.mp (by rw [hlen, hc]; rfl)
      rw [if_pos (hzero.mpr hc), hnil]
      exact Computed.ret ReserveOnly.nil reserveFailed_nil ⟨hd, by simp, List.nodup_nil⟩ rfl
    · rw [if_neg (mt hzero.mp hc)]
      cases hptr : a.ptr with
      | none => exact absurd ⟨hptr, hc⟩ hd
      | some m =>
        rw [hptr, Option.getD_some] at hbytes
        simp only [hbytes, chunksExact_flatMap_bytes]
        refine (Computes.tryReserve (v := Vec.new) fun v hdata hcap => ?_).congr
          (and_iff_right hd).symm fun _ => rfl
        have hroom : v.data.length + a.items.length ≤ v.capacity := by
          rw [hdata, hlen]
          exact hcap
        have hcopy := computes_copyGuids a.items v hroom
        rw [hdata] at hcopy
        refine (hcopy.bind fun v' hv' => ?_).congr (iff_of_eq (true_and _)) fun _ => rfl
        have hval := computes_validateUniqueNonzeroGuids v'
        rw [hv'] at hval
        exact hval.map fun _ _ => rfl

end Librsi

import Librsi.Response.Arguments

/-!
# Encoding

The frame writer and the two block encoders.  The writer is sticky: a failed
`try_extend` latches `oom`, every later write is skipped, and the flag is looked at once,
when the frame is finished.  Meanwhile the field checks go on.

`Encodes m c b` is what such an encoder does: it calls nothing but `try_extend`; it fails
with `EINVAL` exactly when `c` does not hold, whatever was latched; and otherwise the
flag says whether some `try_extend` has failed, and if none has, `b` was appended.  The
encoders are put together from the fields by `Encodes.seq`, `Encodes.require` and
`Encodes.foldlM`, in step with the way `Layout` puts the formats together.
-/

namespace Librsi

open WireFormat Interaction

/-! ## The writer -/

/-- `FrameWriter`. -/
structure FrameWriter where
  buf : Bytes
  oom : Bool

namespace FrameWriter

/-- `FrameWriter::new`. -/
def new : FrameWriter := ⟨[], false⟩

/-- `raw`: append, or latch `oom`. -/
def raw (w : FrameWriter) (b : Bytes) : Sys FrameWriter :=
  if w.oom then .ret w
  else .call (.tryExtend b) fun
    | .appended => .ret { w with buf := w.buf ++ b }
    | .failed left => .ret { buf := left, oom := true }

def u8 (w : FrameWriter) (x : UInt8) : Sys FrameWriter := w.raw [x]

def u32 (w : FrameWriter) (x : UInt32) : Sys FrameWriter := w.raw (leBytes 4 x.toNat)

def u64 (w : FrameWriter) (x : UInt64) : Sys FrameWriter := w.raw (leBytes 8 x.toNat)

def guid (w : FrameWriter) (g : Guid) : Sys FrameWriter := w.raw g.bytes

/-- `lpf`: a length-prefixed field. -/
def lpf (w : FrameWriter) (f : Arr UInt8) : Sys FrameWriter := do
  requireLpf f
  let w ← w.u32 f.count
  if f.count ≠ 0 then w.raw f.items else pure w

end FrameWriter

/-- `new_writer`: a writer with room for the header and the status. -/
def newWriter : Sys FrameWriter := FrameWriter.new.raw (List.replicate statusFrameLen 0)

/-- `encode_path_entry_block`. -/
def encodePathEntryBlock (w : FrameWriter) (entries : Arr RsiPathEntry) : Sys FrameWriter := do
  requireArray entries
  let w ← w.u32 entries.count
  entries.items.foldlM (fun w e => do
    let w ← w.lpf e.layer
    requirePathTarget e.targetType e.targetGuid
    let w ← w.u8 e.targetType
    let w ← w.guid e.targetGuid
    w.u64 e.sequence) w

/-- `encode_metadata_block`. -/
def encodeMetadataBlock (w : FrameWriter) (metadata : Arr RsiKeyMetadata) :
    Sys FrameWriter := do
  requireArray metadata
  let w ← w.u32 metadata.count
  metadata.items.foldlM (fun w m => do
    let w ← w.guid m.guid
    let w ← w.lpf m.sd
    requireBool m.volatileKey
    requireBool m.symlink
    let w ← w.u8 m.volatileKey
    let w ← w.u8 m.symlink
    w.u64 m.lastWriteTime) w

/-! ## What an encoder does -/

/-- Between `w` and `w'` the writer was asked to append `b`. -/
structure Wrote (w w' : FrameWriter) (b : Bytes) (t : Trace) : Prop where
  only : ExtendOnly t
  oom : w'.oom = true ↔ w.oom = true ∨ ExtendFailed t
  buf : w'.oom = false → w'.buf = w.buf ++ b

/-- The outcomes of an encoder that started from `w`. -/
inductive Encoded (w : FrameWriter) (c : Prop) (b : Bytes) :
    Outcome Errno FrameWriter → Trace → Prop
  | ret {t : Trace} {w' : FrameWriter} (holds : c) (wrote : Wrote w w' b t) :
      Encoded w c b (.ret w') t
  | einval {t : Trace} (fails : ¬ c) (only : ExtendOnly t) : Encoded w c b (.err EINVAL) t

/-- **What an encoder is.**  It appends `b` if `c` holds, and rejects if it does not. -/
def Encodes (m : FrameWriter → Sys FrameWriter) (c : Prop) (b : Bytes) : Prop :=
  ∀ w, (m w).All (Encoded w c b)

theorem Wrote.refl (w : FrameWriter) : Wrote w w [] [] where
  only := ExtendOnly.nil
  oom := by simp
  buf _ := (List.append_nil w.buf).symm

/-- A latched flag stays latched, so a writer that is fine now was fine all along. -/
theorem Wrote.trans {w w' w'' : FrameWriter} {b b' : Bytes} {t t' : Trace}
    (h : Wrote w w' b t) (h' : Wrote w' w'' b' t') : Wrote w w'' (b ++ b') (t ++ t') where
  only := h.only.append h'.only
  oom := by rw [h'.oom, h.oom, extendFailed_append, or_assoc]
  buf hoom := by
    have hoom' : w'.oom = false := by
      rw [← Bool.not_eq_true]
      intro hlatched
      rw [h'.oom.mpr (Or.inl hlatched)] at hoom
      exact absurd hoom (by simp)
    rw [h'.buf hoom, h.buf hoom', List.append_assoc]

namespace Encodes

variable {m m' : FrameWriter → Sys FrameWriter} {c c' : Prop} {b b' : Bytes}

theorem pure : Encodes pure True [] := fun w => Encoded.ret trivial (Wrote.refl w)

theorem congr (h : Encodes m c b) (hc : c ↔ c') (hb : c → b = b') : Encodes m c' b' := by
  refine fun w => Prog.All.mono (h w) fun o t ho => ?_
  cases ho with
  | ret holds wrote => exact .ret (hc.mp holds) (hb holds ▸ wrote)
  | einval fails only => exact .einval (mt hc.mpr fails) only

/-- **One encoder after another**: conditions add up, and so do bytes. -/
theorem seq (h : Encodes m c b) (h' : Encodes m' c' b') :
    Encodes (fun w => m w >>= m') (c ∧ c') (b ++ b') := by
  refine fun w => Prog.all_bind (h w) (fun w' t hw' => ?_) (fun e t he => ?_) (fun t h => nomatch h)
  · cases hw' with
    | ret holds wrote =>
      refine Prog.All.mono (h' w') fun o t' ho => ?_
      cases ho with
      | ret holds' wrote' => exact .ret ⟨holds, holds'⟩ (wrote.trans wrote')
      | einval fails only => exact .einval (fun h => fails h.2) (wrote.only.append only)
  · cases he with
    | einval fails only => exact .einval (fun h => fails h.1) only

/-- A field check in front of an encoder. -/
theorem require (c : Prop) [Decidable c] (h : Encodes m c' b) :
    Encodes (fun w => check c >>= fun _ => m w) (c ∧ c') b := by
  intro w
  by_cases hc : c
  · rw [check, if_pos hc]
    exact h.congr (and_iff_right hc).symm (fun _ => rfl) w
  · rw [check, if_neg hc]
    exact Encoded.einval (fun h => hc h.1) ExtendOnly.nil

/-- **A loop over records.** -/
theorem foldlM {ε : Type} {body : FrameWriter → ε → Sys FrameWriter} {c : ε → Prop}
    {b : ε → Bytes} (hbody : ∀ x, Encodes (fun w => body w x) (c x) (b x)) (xs : List ε) :
    Encodes (fun w => xs.foldlM body w) (∀ x ∈ xs, c x) (xs.flatMap b) := by
  induction xs with
  | nil => exact Encodes.pure.congr (by simp) fun _ => rfl
  | cons x xs ih =>
    simp only [List.foldlM_cons]
    exact ((hbody x).seq ih).congr (by simp) fun _ => (List.flatMap_cons).symm

end Encodes

/-! ## Fields -/

/-- **Every append goes through `raw`**, and so does every allocation of the writer. -/
theorem encodes_raw (b : Bytes) : Encodes (·.raw b) True b := by
  intro w
  show (w.raw b).All _
  rw [FrameWriter.raw]
  split_ifs with hoom
  · exact Encoded.ret trivial ⟨ExtendOnly.nil, by simp, fun h => absurd (hoom.symm.trans h) (by simp)⟩
  · rw [Bool.not_eq_true] at hoom
    have hone : ∀ a, ExtendOnly [⟨Call.tryExtend b, a⟩] := by
      intro a e he
      exact ⟨b, by rw [List.mem_singleton.mp he]⟩
    intro a
    cases a with
    | appended =>
      refine Encoded.ret trivial ⟨hone _, ?_, fun _ => rfl⟩
      simp [ExtendFailed, ExtendFailure]
    | failed left =>
      refine Encoded.ret trivial ⟨hone _, ?_, fun h => absurd h (by simp)⟩
      simp [ExtendFailed, ExtendFailure]

theorem encodes_u8 (x : UInt8) : Encodes (·.u8 x) True (uint8.put x) := by
  rw [put_uint8]
  exact encodes_raw [x]

theorem encodes_u32 (x : UInt32) : Encodes (·.u32 x) True (uint32.put x) := encodes_raw _

theorem encodes_u64 (x : UInt64) : Encodes (·.u64 x) True (uint64.put x) := encodes_raw _

theorem encodes_guid (g : Guid) : Encodes (·.guid g) True (guid.put g) := encodes_raw _

/-- A `(ptr, len)` field is written as the bytes it denotes, behind their length. -/
theorem encodes_lpf (f : Arr UInt8) :
    Encodes (·.lpf f) (¬ f.Dangling) (lengthPrefixed.put f.items) := by
  have hbytes : Encodes (fun w => if f.count ≠ 0 then w.raw f.items else Pure.pure w) True
      f.items := by
    intro w
    by_cases hc : f.count = 0
    · have hnil : f.items = [] := by
        rw [Arr.items, hc]
        rfl
      simp only [hc, ne_eq, not_true_eq_false, if_false, hnil]
      exact Encodes.pure w
    · simp only [ne_eq, hc, not_false_eq_true, if_true]
      exact encodes_raw f.items w
  simp only [FrameWriter.lpf, requireLpf_eq]
  refine (Encodes.require _ ((encodes_u32 f.count).seq hbytes)).congr (by simp) fun h => ?_
  rw [put_lengthPrefixed, Arr.ofNat_length_items h.1]

/-! ## Blocks -/

/-- The count the caller gave is the number of records that follow it. -/
theorem encodes_counted {α β : Type} {a : Arr α} {f : Format β} {wire : α → β}
    {body : FrameWriter → α → Sys FrameWriter} {c : α → Prop} (ha : ¬ a.Dangling)
    (hbody : ∀ x, Encodes (fun w => body w x) (c x) (f.put (wire x))) :
    Encodes (fun w => w.u32 a.count >>= fun w => a.items.foldlM body w) (∀ x ∈ a.items, c x)
      ((counted f).put (a.items.map wire)) := by
  refine ((encodes_u32 a.count).seq (Encodes.foldlM hbody a.items)).congr (by simp) fun _ => ?_
  rw [put_counted, List.length_map, Arr.ofNat_length_items ha, List.flatMap_map]

/-- A counted block that checks its array first. -/
theorem encodes_block {α β : Type} {a : Arr α} {f : Format β} {wire : α → β}
    {body : FrameWriter → α → Sys FrameWriter} {c : α → Prop}
    (hbody : ∀ x, Encodes (fun w => body w x) (c x) (f.put (wire x))) :
    Encodes (fun w => check (¬ a.Dangling) >>= fun _ => w.u32 a.count >>= fun w =>
        a.items.foldlM body w) (¬ a.Dangling ∧ ∀ x ∈ a.items, c x)
      ((counted f).put (a.items.map wire)) := by
  by_cases ha : a.Dangling
  · rw [check, if_neg (not_not.mpr ha)]
    exact fun w => Encoded.einval (fun h => h.1 ha) ExtendOnly.nil
  · rw [check, if_pos ha]
    exact (encodes_counted ha hbody).congr (and_iff_right ha).symm fun _ => rfl

/-- What an entry has to satisfy to be encoded. -/
def RsiPathEntry.Encodable (e : RsiPathEntry) : Prop := ¬ e.layer.Dangling ∧ e.wire.TargetRule

/-- What a metadata record has to satisfy to be encoded. -/
def RsiKeyMetadata.Encodable (m : RsiKeyMetadata) : Prop := ¬ m.sd.Dangling ∧ m.wire.FlagRule

theorem encodes_pathEntryBlock (entries : Arr RsiPathEntry) :
    Encodes (encodePathEntryBlock · entries)
      (¬ entries.Dangling ∧ ∀ e ∈ entries.items, e.Encodable)
      ((counted Layout.pathEntry).put (entries.items.map RsiPathEntry.wire)) := by
  simp only [encodePathEntryBlock, requireArray_eq]
  refine encodes_block fun e => ?_
  simp only [requirePathTarget_eq]
  refine ((encodes_lpf e.layer).seq (Encodes.require _ ((encodes_u8 e.targetType).seq
    ((encodes_guid e.targetGuid).seq (encodes_u64 e.sequence))))).congr ?_ fun _ => rfl
  simp [RsiPathEntry.Encodable]

theorem encodes_metadataBlock (metadata : Arr RsiKeyMetadata) :
    Encodes (encodeMetadataBlock · metadata)
      (¬ metadata.Dangling ∧ ∀ m ∈ metadata.items, m.Encodable)
      ((counted Layout.keyMetadata).put (metadata.items.map RsiKeyMetadata.wire)) := by
  simp only [encodeMetadataBlock, requireArray_eq]
  refine encodes_block fun m => ?_
  simp only [requireBool_eq]
  refine ((encodes_guid m.guid).seq ((encodes_lpf m.sd).seq (Encodes.require _
    (Encodes.require _ ((encodes_u8 m.volatileKey).seq ((encodes_u8 m.symlink).seq
      (encodes_u64 m.lastWriteTime))))))).congr ?_ fun _ => rfl
  simp [RsiKeyMetadata.Encodable, Layout.KeyMetadata.FlagRule, RsiKeyMetadata.wire]

/-! ## What the allocator was given

`Encodes` says what ends up in the buffer.  `Grows` says that it got there through
`try_extend` and in no other way, so the buffer can be read off the trace. -/

/-- As long as nothing is latched, the buffer holds what was appended to it. -/
def Grew (w : FrameWriter) (o : Outcome Errno FrameWriter) (t : Trace) : Prop :=
  ∀ w', o = .ret w' → w'.oom = false → w.oom = false ∧ w'.buf = w.buf ++ extended t

def Grows (m : FrameWriter → Sys FrameWriter) : Prop := ∀ w, (m w).All (Grew w)

theorem Grew.of_ne_ret {w : FrameWriter} {o : Outcome Errno FrameWriter} {t : Trace}
    (h : ∀ w', o ≠ .ret w') : Grew w o t :=
  fun w' hret => absurd hret (h w')

namespace Grows

variable {m m' : FrameWriter → Sys FrameWriter}

theorem pure : Grows pure := by
  intro w w' hret hoom
  obtain rfl := Outcome.ret.inj hret
  exact ⟨hoom, (List.append_nil _).symm⟩

theorem seq (h : Grows m) (h' : Grows m') : Grows fun w => m w >>= m' := by
  refine fun w => Prog.all_bind (h w) (fun w' t hw' => ?_) (fun e t he => ?_) (fun t h => ?_)
  · refine Prog.All.mono (h' w') fun o t' ho w'' hret hoom => ?_
    obtain ⟨hoom', hbuf'⟩ := ho w'' hret hoom
    obtain ⟨hoom'', hbuf⟩ := hw' w' rfl hoom'
    exact ⟨hoom'', by rw [hbuf', hbuf, extended_append, List.append_assoc]⟩
  · exact Grew.of_ne_ret (by simp)
  · exact Grew.of_ne_ret (by simp)

theorem require (c : Prop) [Decidable c] (h : Grows m) :
    Grows fun w => check c >>= fun _ => m w := by
  intro w
  rw [check]
  split_ifs with hc
  · exact h w
  · exact Grew.of_ne_ret (by simp)

theorem foldlM {ε : Type} {body : FrameWriter → ε → Sys FrameWriter}
    (hbody : ∀ x, Grows fun w => body w x) (xs : List ε) :
    Grows fun w => xs.foldlM body w := by
  induction xs with
  | nil => exact Grows.pure
  | cons x xs ih =>
    simp only [List.foldlM_cons]
    exact (hbody x).seq ih

end Grows

theorem grows_raw (b : Bytes) : Grows (·.raw b) := by
  intro w
  show (w.raw b).All _
  rw [FrameWriter.raw]
  split_ifs with hoom
  · intro w' hret hoom'
    obtain rfl := Outcome.ret.inj hret
    exact absurd (hoom.symm.trans hoom') (by simp)
  · intro a
    cases a with
    | appended =>
      intro w' hret hoom'
      obtain rfl := Outcome.ret.inj hret
      exact ⟨hoom', by simp [extended, extendedBy]⟩
    | failed left =>
      intro w' hret hoom'
      obtain rfl := Outcome.ret.inj hret
      exact absurd hoom' (by simp)

theorem grows_lpf (f : Arr UInt8) : Grows (·.lpf f) := by
  have hbytes : Grows fun w => if f.count ≠ 0 then w.raw f.items else Pure.pure w := by
    intro w
    split_ifs
    · exact grows_raw f.items w
    · exact Grows.pure w
  simp only [FrameWriter.lpf, requireLpf_eq]
  exact Grows.require _ ((grows_raw _).seq hbytes)

theorem grows_pathEntryBlock (entries : Arr RsiPathEntry) :
    Grows (encodePathEntryBlock · entries) := by
  simp only [encodePathEntryBlock, requireArray_eq, requirePathTarget_eq]
  refine Grows.require _ ((grows_raw _).seq (Grows.foldlM (fun e => ?_) _))
  exact (grows_lpf e.layer).seq (Grows.require _
    ((grows_raw _).seq ((grows_raw _).seq (grows_raw _))))

theorem grows_metadataBlock (metadata : Arr RsiKeyMetadata) :
    Grows (encodeMetadataBlock · metadata) := by
  simp only [encodeMetadataBlock, requireArray_eq, requireBool_eq]
  refine Grows.require _ ((grows_raw _).seq (Grows.foldlM (fun m => ?_) _))
  exact (grows_raw _).seq ((grows_lpf m.sd).seq (Grows.require _ (Grows.require _
    ((grows_raw _).seq ((grows_raw _).seq (grows_raw _))))))

end Librsi

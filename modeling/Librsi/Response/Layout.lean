import Librsi.Pkm

/-!
# The response layouts

What `<rsi/response.h>` documents about the wire, with nothing about how librsi
produces it: the values a response carries, the byte layout of each kind, the rules a
value has to obey, and a strict decoder.

Every layout is a `Format`, so a value and its bytes determine each other
(`decodeFrame_iff`).  A frame is an 18-byte header, whose first field is the length of
the whole frame, and a body.
-/

namespace Librsi
namespace Layout

open WireFormat

/-! ## Values -/

/-- One resolved path entry. -/
@[ext] structure PathEntry where
  layer : Bytes
  targetType : UInt8
  targetGuid : Guid
  sequence : UInt64

/-- One key's metadata record. -/
@[ext] structure KeyMetadata where
  guid : Guid
  sd : Bytes
  volatileKey : UInt8
  symlink : UInt8
  lastWriteTime : UInt64

/-- One child and the path entries that resolve it. -/
@[ext] structure ChildEntry where
  childName : Bytes
  entries : List PathEntry

/-- One effective value. -/
@[ext] structure ValueEntry where
  valueName : Bytes
  layerName : Bytes
  valueType : UInt32
  data : Bytes
  sequence : UInt64

/-- One blanket tombstone. -/
@[ext] structure BlanketEntry where
  layerName : Bytes
  sequence : UInt64

structure LookupResult where
  entries : List PathEntry
  metadata : List KeyMetadata

structure EnumChildrenResult where
  children : List ChildEntry
  metadata : List KeyMetadata

structure ReadKeyResult where
  name : Bytes
  parentGuid : Guid
  sd : Bytes
  volatileKey : UInt8
  symlink : UInt8
  lastWriteTime : UInt64

structure DeleteLayerResult where
  orphanedGuids : List Guid

structure QueryValuesResult where
  entries : List ValueEntry
  blankets : List BlanketEntry

/-! ## Bodies -/

def pathEntry : Format PathEntry :=
  (lengthPrefixed.pair (uint8.pair (guid.pair uint64))).conv
    (fun p => ⟨p.1, p.2.1, p.2.2.1, p.2.2.2⟩)
    (fun e => (e.layer, e.targetType, e.targetGuid, e.sequence)) fun _ _ => rfl

def keyMetadata : Format KeyMetadata :=
  (guid.pair (lengthPrefixed.pair (uint8.pair (uint8.pair uint64)))).conv
    (fun p => ⟨p.1, p.2.1, p.2.2.1, p.2.2.2.1, p.2.2.2.2⟩)
    (fun m => (m.guid, m.sd, m.volatileKey, m.symlink, m.lastWriteTime)) fun _ _ => rfl

def childEntry : Format ChildEntry :=
  (lengthPrefixed.pair (counted pathEntry)).conv
    (fun p => ⟨p.1, p.2⟩) (fun c => (c.childName, c.entries)) fun _ _ => rfl

def valueEntry : Format ValueEntry :=
  (lengthPrefixed.pair (lengthPrefixed.pair (uint32.pair (lengthPrefixed.pair uint64)))).conv
    (fun p => ⟨p.1, p.2.1, p.2.2.1, p.2.2.2.1, p.2.2.2.2⟩)
    (fun e => (e.valueName, e.layerName, e.valueType, e.data, e.sequence)) fun _ _ => rfl

def blanketEntry : Format BlanketEntry :=
  (lengthPrefixed.pair uint64).conv
    (fun p => ⟨p.1, p.2⟩) (fun b => (b.layerName, b.sequence)) fun _ _ => rfl

def lookupResult : Format LookupResult :=
  ((counted pathEntry).pair (counted keyMetadata)).conv
    (fun p => ⟨p.1, p.2⟩) (fun v => (v.entries, v.metadata)) fun _ _ => rfl

def enumChildrenResult : Format EnumChildrenResult :=
  ((counted childEntry).pair (counted keyMetadata)).conv
    (fun p => ⟨p.1, p.2⟩) (fun v => (v.children, v.metadata)) fun _ _ => rfl

def readKeyResult : Format ReadKeyResult :=
  (lengthPrefixed.pair (guid.pair (lengthPrefixed.pair (uint8.pair (uint8.pair uint64))))).conv
    (fun p => ⟨p.1, p.2.1, p.2.2.1, p.2.2.2.1, p.2.2.2.2.1, p.2.2.2.2.2⟩)
    (fun v => (v.name, v.parentGuid, v.sd, v.volatileKey, v.symlink, v.lastWriteTime))
    fun _ _ => rfl

def deleteLayerResult : Format DeleteLayerResult :=
  (counted guid).conv (fun l => ⟨l⟩) (fun v => v.orphanedGuids) fun _ _ => rfl

def queryValuesResult : Format QueryValuesResult :=
  ((counted valueEntry).pair (counted blanketEntry)).conv
    (fun p => ⟨p.1, p.2⟩) (fun v => (v.entries, v.blankets)) fun _ _ => rfl

/-! ### What fits

Lengths are 32-bit, and nothing else can fail to fit. -/

@[simp] theorem fits_pathEntry {e : PathEntry} :
    pathEntry.Fits e ↔ e.layer.length < 2 ^ 32 := by
  simp [pathEntry, Format.conv, Format.pair]

@[simp] theorem fits_keyMetadata {m : KeyMetadata} :
    keyMetadata.Fits m ↔ m.sd.length < 2 ^ 32 := by
  simp [keyMetadata, Format.conv, Format.pair]

@[simp] theorem fits_childEntry {c : ChildEntry} :
    childEntry.Fits c ↔ c.childName.length < 2 ^ 32 ∧ c.entries.length < 2 ^ 32 ∧
      ∀ e ∈ c.entries, e.layer.length < 2 ^ 32 := by
  simp [childEntry, Format.conv, Format.pair]

@[simp] theorem fits_valueEntry {e : ValueEntry} :
    valueEntry.Fits e ↔ e.valueName.length < 2 ^ 32 ∧ e.layerName.length < 2 ^ 32 ∧
      e.data.length < 2 ^ 32 := by
  simp [valueEntry, Format.conv, Format.pair]

@[simp] theorem fits_blanketEntry {b : BlanketEntry} :
    blanketEntry.Fits b ↔ b.layerName.length < 2 ^ 32 := by
  simp [blanketEntry, Format.conv, Format.pair]

/-! ### How long a record is -/

theorem length_put_pathEntry (e : PathEntry) : (pathEntry.put e).length = 29 + e.layer.length := by
  simp only [pathEntry, Format.conv, Format.pair, List.length_append, length_put_lengthPrefixed,
    length_put_uint8, length_put_guid, length_put_uint64]
  omega

theorem length_put_keyMetadata (m : KeyMetadata) :
    (keyMetadata.put m).length = 30 + m.sd.length := by
  simp only [keyMetadata, Format.conv, Format.pair, List.length_append, length_put_lengthPrefixed,
    length_put_uint8, length_put_guid, length_put_uint64]
  omega

theorem length_put_childEntry (c : ChildEntry) :
    (childEntry.put c).length =
      4 + c.childName.length + ((counted pathEntry).put c.entries).length := by
  simp only [childEntry, Format.conv, Format.pair, List.length_append, length_put_lengthPrefixed]

theorem length_put_readKeyResult (v : ReadKeyResult) :
    (readKeyResult.put v).length = 34 + v.name.length + v.sd.length := by
  simp only [readKeyResult, Format.conv, Format.pair, List.length_append,
    length_put_lengthPrefixed, length_put_uint8, length_put_guid, length_put_uint64]
  omega

theorem length_put_valueEntry (e : ValueEntry) :
    (valueEntry.put e).length =
      24 + e.valueName.length + e.layerName.length + e.data.length := by
  simp only [valueEntry, Format.conv, Format.pair, List.length_append, length_put_lengthPrefixed,
    length_put_uint32, length_put_uint64]
  omega

theorem length_put_blanketEntry (b : BlanketEntry) :
    (blanketEntry.put b).length = 12 + b.layerName.length := by
  simp only [blanketEntry, Format.conv, Format.pair, List.length_append, length_put_lengthPrefixed,
    length_put_uint64]
  omega

/-! ## Frames -/

/-- The response header and the status behind it. -/
@[ext] structure Header where
  totalLen : UInt32
  requestId : UInt64
  opCode : UInt16
  status : UInt32

def header : Format Header :=
  (uint32.pair (uint64.pair (uint16.pair uint32))).conv
    (fun p => ⟨p.1, p.2.1, p.2.2.1, p.2.2.2⟩)
    (fun h => (h.totalLen, h.requestId, h.opCode, h.status)) fun _ _ => rfl

@[simp] theorem fits_header (h : Header) : header.Fits h :=
  ⟨⟨fits_uint32 _, fits_uint64 _, fits_uint16 _, fits_uint32 _⟩, rfl⟩

theorem put_header (h : Header) :
    header.put h = leBytes 4 h.totalLen.toNat ++ (leBytes 8 h.requestId.toNat ++
      (leBytes 2 h.opCode.toNat ++ leBytes 4 h.status.toNat)) := rfl

@[simp] theorem length_put_header (h : Header) : (header.put h).length = statusFrameLen := by
  simp [put_header, statusFrameLen]

/-- A whole response: the header, with the frame's own length in it, and the body. -/
def frame (requestId : UInt64) (opCode : UInt16) (status : UInt32) (body : Bytes) : Bytes :=
  header.put ⟨UInt32.ofNat (statusFrameLen + body.length), requestId, opCode, status⟩ ++ body

@[simp] theorem length_frame (requestId : UInt64) (opCode : UInt16) (status : UInt32)
    (body : Bytes) :
    (frame requestId opCode status body).length = statusFrameLen + body.length := by
  rw [frame, List.length_append, length_put_header]

/-! ### The fields by offset -/

def totalLenOf (f : Bytes) : ℕ := leNat (f.take 4)

def requestIdOf (f : Bytes) : ℕ := leNat ((f.drop 4).take 8)

def opCodeOf (f : Bytes) : ℕ := leNat ((f.drop 12).take 2)

def statusOf (f : Bytes) : ℕ := leNat ((f.drop 14).take 4)

section Fields

variable (requestId : UInt64) (opCode : UInt16) (status : UInt32) (body : Bytes)

theorem frame_eq_append :
    frame requestId opCode status body =
      leBytes 4 (UInt32.ofNat (statusFrameLen + body.length)).toNat ++ (leBytes 8 requestId.toNat ++
        (leBytes 2 opCode.toNat ++ (leBytes 4 status.toNat ++ body))) := by
  rw [frame, put_header, List.append_assoc, List.append_assoc, List.append_assoc]

theorem totalLenOf_frame (h : statusFrameLen + body.length < 2 ^ 32) :
    totalLenOf (frame requestId opCode status body) = statusFrameLen + body.length := by
  rw [totalLenOf, frame_eq_append, List.take_left' (length_leBytes _ _),
    leNat_leBytes_of_lt (UInt32.toNat_lt _), ← toNat_ofNat_eq_iff.mpr h]

@[simp] theorem requestIdOf_frame :
    requestIdOf (frame requestId opCode status body) = requestId.toNat := by
  rw [requestIdOf, frame_eq_append, List.drop_left' (length_leBytes _ _),
    List.take_left' (length_leBytes _ _), leNat_leBytes_of_lt requestId.toNat_lt]

@[simp] theorem opCodeOf_frame :
    opCodeOf (frame requestId opCode status body) = opCode.toNat := by
  rw [opCodeOf, frame_eq_append, show 12 = 4 + 8 from rfl, ← List.drop_drop,
    List.drop_left' (length_leBytes _ _), List.drop_left' (length_leBytes _ _),
    List.take_left' (length_leBytes _ _), leNat_leBytes_of_lt opCode.toNat_lt]

@[simp] theorem statusOf_frame :
    statusOf (frame requestId opCode status body) = status.toNat := by
  rw [statusOf, frame_eq_append, show 14 = 4 + (8 + 2) from rfl, ← List.drop_drop,
    ← List.drop_drop, List.drop_left' (length_leBytes _ _), List.drop_left' (length_leBytes _ _),
    List.drop_left' (length_leBytes _ _), List.take_left' (length_leBytes _ _),
    leNat_leBytes_of_lt status.toNat_lt]

theorem drop_frame : (frame requestId opCode status body).drop statusFrameLen = body := by
  rw [frame, List.drop_left' (length_put_header _)]

end Fields

/-- The strict decoder: the header with the right length, op code and status, then a
body that ends with the frame. -/
def decodeFrame {α : Type} (body : Format α) (opCode : UInt16) (status : UInt32) (bs : Bytes) :
    Option (UInt64 × α) :=
  match header.get bs with
  | some (h, rest) =>
      if h.totalLen.toNat = bs.length ∧ h.opCode = opCode ∧ h.status = status then
        (body.strict rest).map fun v => (h.requestId, v)
      else none
  | none => none

/-- **A frame and what it decodes to determine each other.** -/
theorem decodeFrame_iff {α : Type} {body : Format α} {opCode : UInt16} {status : UInt32}
    {bs : Bytes} {requestId : UInt64} {v : α} :
    decodeFrame body opCode status bs = some (requestId, v) ↔
      bs.length < 2 ^ 32 ∧ body.Fits v ∧ bs = frame requestId opCode status (body.put v) := by
  constructor
  · intro h
    rw [decodeFrame] at h
    split at h
    · rename_i hd rest hget
      obtain ⟨-, hbs⟩ := header.get_iff.mp hget
      split_ifs at h with hcond
      · obtain ⟨hlen, hop, hst⟩ := hcond
        obtain ⟨v', hv', heq⟩ := Option.map_eq_some_iff.mp h
        obtain ⟨rfl, rfl⟩ := Prod.mk.inj heq
        obtain ⟨hfits, rfl⟩ := body.strict_iff.mp hv'
        refine ⟨hlen ▸ hd.totalLen.toNat_lt, hfits, ?_⟩
        have htotal : UInt32.ofNat (statusFrameLen + (body.put v').length) = hd.totalLen := by
          apply ofNat_eq_of_eq_toNat
          rw [hlen, hbs, List.length_append, length_put_header]
        rw [frame, htotal, ← hop, ← hst]
        exact hbs
    · exact absurd h (by simp)
  · rintro ⟨hlen, hfits, rfl⟩
    rw [length_frame] at hlen
    have hget := header.get_put (fits_header ⟨UInt32.ofNat (statusFrameLen +
      (body.put v).length), requestId, opCode, status⟩) (body.put v)
    rw [decodeFrame, frame, hget]
    have htotal : (UInt32.ofNat (statusFrameLen + (body.put v).length)).toNat =
        statusFrameLen + (body.put v).length := (toNat_ofNat_eq_iff.mpr hlen).symm
    simp only [htotal, List.length_append, length_put_header, and_self, if_true]
    rw [body.strict_iff.mpr ⟨hfits, rfl⟩]
    rfl

/-! ## The rules a value obeys -/

/-- The entry resolves to a key. -/
def PathEntry.IsGuidTarget (e : PathEntry) : Prop :=
  e.targetType.toUInt32 = rsiPathTargetGuid

/-- The entry hides the child. -/
def PathEntry.IsHiddenTarget (e : PathEntry) : Prop :=
  e.targetType.toUInt32 = rsiPathTargetHidden

/-- Target types are GUID or HIDDEN, and a HIDDEN target carries the nil GUID. -/
def PathEntry.TargetRule (e : PathEntry) : Prop :=
  e.IsGuidTarget ∨ e.IsHiddenTarget ∧ e.targetGuid = Guid.nil

/-- Booleans are `0` or `1`. -/
def BoolRule (b : UInt8) : Prop := b = 0 ∨ b = 1

def KeyMetadata.FlagRule (m : KeyMetadata) : Prop :=
  BoolRule m.volatileKey ∧ BoolRule m.symlink

/-- The metadata GUIDs are nonzero and unique, and exactly cover the GUID targets. -/
structure Covers (metadata : List KeyMetadata) (entries : List PathEntry) : Prop where
  nonzero : ∀ m ∈ metadata, m.guid ≠ Guid.nil
  unique : (metadata.map KeyMetadata.guid).Nodup
  exact : ∀ g, (∃ m ∈ metadata, m.guid = g) ↔ ∃ e ∈ entries, e.IsGuidTarget ∧ e.targetGuid = g

structure LookupResult.Rules (v : LookupResult) : Prop where
  target : ∀ e ∈ v.entries, e.TargetRule
  flags : ∀ m ∈ v.metadata, m.FlagRule
  covers : Covers v.metadata v.entries

structure EnumChildrenResult.Rules (v : EnumChildrenResult) : Prop where
  target : ∀ c ∈ v.children, ∀ e ∈ c.entries, e.TargetRule
  flags : ∀ m ∈ v.metadata, m.FlagRule
  covers : Covers v.metadata (v.children.flatMap ChildEntry.entries)

structure ReadKeyResult.Rules (v : ReadKeyResult) : Prop where
  volatileKey : BoolRule v.volatileKey
  symlink : BoolRule v.symlink

structure DeleteLayerResult.Rules (v : DeleteLayerResult) : Prop where
  nonzero : ∀ g ∈ v.orphanedGuids, g ≠ Guid.nil
  unique : v.orphanedGuids.Nodup

/-! ## The five kinds -/

/-- The kinds of response that carry a payload. -/
inductive Kind where
  | lookup | enumChildren | readKey | deleteLayer | queryValues
  deriving DecidableEq

namespace Kind

/-- The request a response of this kind answers. -/
def op : Kind → Op
  | .lookup => .lookup
  | .enumChildren => .enumChildren
  | .readKey => .readKey
  | .deleteLayer => .deleteLayer
  | .queryValues => .queryValues

theorem op_injective : Function.Injective op := by
  intro k k' h
  cases k <;> cases k' <;> first | rfl | exact absurd h (by decide)

/-- What it carries. -/
abbrev Result : Kind → Type
  | .lookup => LookupResult
  | .enumChildren => EnumChildrenResult
  | .readKey => ReadKeyResult
  | .deleteLayer => DeleteLayerResult
  | .queryValues => QueryValuesResult

/-- How that is laid out. -/
def layout : (k : Kind) → Format k.Result
  | .lookup => lookupResult
  | .enumChildren => enumChildrenResult
  | .readKey => readKeyResult
  | .deleteLayer => deleteLayerResult
  | .queryValues => queryValuesResult

/-- The rules it obeys.  A QUERY_VALUES result has none beyond its layout. -/
def Rules : (k : Kind) → k.Result → Prop
  | .lookup, v => v.Rules
  | .enumChildren, v => v.Rules
  | .readKey, v => v.Rules
  | .deleteLayer, v => v.Rules
  | .queryValues, _ => True

end Kind

end Layout
end Librsi

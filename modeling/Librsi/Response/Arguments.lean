import Librsi.Response.Layout
import Librsi.System

/-!
# The arguments of the responders

The C structs a caller fills in, what they denote on the wire, and the field checks
(`require_array`, `require_lpf`, `require_bool`, `require_path_target`) that the
validation and the encoders share.

Every field check either passes or fails with `EINVAL`, and makes no call.  `check`
is that shape, and `requireArray_eq` and its siblings say which condition each one
checks.
-/

namespace Librsi

open WireFormat Interaction

/-! ## Structs -/

/-- `struct rsi_path_entry`. -/
structure RsiPathEntry where
  layer : Arr UInt8
  targetType : UInt8
  targetGuid : Guid
  sequence : UInt64

/-- `struct rsi_key_metadata`. -/
structure RsiKeyMetadata where
  guid : Guid
  sd : Arr UInt8
  volatileKey : UInt8
  symlink : UInt8
  lastWriteTime : UInt64

/-- `struct rsi_child_entry`. -/
structure RsiChildEntry where
  childName : Arr UInt8
  entries : Arr RsiPathEntry

/-- `struct rsi_value_entry`. -/
structure RsiValueEntry where
  valueName : Arr UInt8
  layerName : Arr UInt8
  valueType : UInt32
  data : Arr UInt8
  sequence : UInt64

/-- `struct rsi_blanket_entry`. -/
structure RsiBlanketEntry where
  layerName : Arr UInt8
  sequence : UInt64

/-! ## What they denote -/

def RsiPathEntry.wire (e : RsiPathEntry) : Layout.PathEntry :=
  ⟨e.layer.items, e.targetType, e.targetGuid, e.sequence⟩

def RsiKeyMetadata.wire (m : RsiKeyMetadata) : Layout.KeyMetadata :=
  ⟨m.guid, m.sd.items, m.volatileKey, m.symlink, m.lastWriteTime⟩

def RsiChildEntry.wire (c : RsiChildEntry) : Layout.ChildEntry :=
  ⟨c.childName.items, c.entries.items.map RsiPathEntry.wire⟩

def RsiValueEntry.wire (e : RsiValueEntry) : Layout.ValueEntry :=
  ⟨e.valueName.items, e.layerName.items, e.valueType, e.data.items, e.sequence⟩

def RsiBlanketEntry.wire (b : RsiBlanketEntry) : Layout.BlanketEntry :=
  ⟨b.layerName.items, b.sequence⟩

/-! ## Field checks -/

/-- Pass, or fail with `EINVAL`. -/
def check (c : Prop) [Decidable c] : Sys Unit := if c then .ret () else .err EINVAL

/-- `require_array`: an array may be NULL only when its count is zero. -/
def requireArray {α : Type} (a : Arr α) : Sys Unit :=
  if a.count ≠ 0 ∧ a.ptr.isNone then .err EINVAL else .ret ()

/-- `require_lpf`: the same for a `(ptr, len)` field. -/
def requireLpf (f : Arr UInt8) : Sys Unit :=
  if f.count ≠ 0 ∧ f.ptr.isNone then .err EINVAL else .ret ()

/-- `require_bool`. -/
def requireBool (value : UInt8) : Sys Unit :=
  if value = 0 ∨ value = 1 then .ret () else .err EINVAL

/-- `require_path_target`. -/
def requirePathTarget (targetType : UInt8) (targetGuid : Guid) : Sys Unit :=
  if targetType.toUInt32 = rsiPathTargetGuid then .ret ()
  else if targetType.toUInt32 = rsiPathTargetHidden then
    if targetGuid = Guid.nil then .ret () else .err EINVAL
  else .err EINVAL

/-- `is_guid_target`. -/
def isGuidTarget (targetType : UInt8) : Bool := targetType.toUInt32 = rsiPathTargetGuid

theorem requireArray_eq {α : Type} (a : Arr α) : requireArray a = check (¬ a.Dangling) := by
  rw [requireArray, check, ite_not]
  exact if_congr (by rw [Option.isNone_iff_eq_none, Arr.Dangling, and_comm]) rfl rfl

theorem requireLpf_eq (f : Arr UInt8) : requireLpf f = check (¬ f.Dangling) :=
  requireArray_eq f

instance (b : UInt8) : Decidable (Layout.BoolRule b) :=
  inferInstanceAs (Decidable (b = 0 ∨ b = 1))

theorem requireBool_eq (b : UInt8) : requireBool b = check (Layout.BoolRule b) := rfl

instance (e : Layout.PathEntry) : Decidable e.IsGuidTarget :=
  inferInstanceAs (Decidable (e.targetType.toUInt32 = rsiPathTargetGuid))

instance (e : Layout.PathEntry) : Decidable e.IsHiddenTarget :=
  inferInstanceAs (Decidable (e.targetType.toUInt32 = rsiPathTargetHidden))

instance (e : Layout.PathEntry) : Decidable e.TargetRule :=
  inferInstanceAs (Decidable (e.IsGuidTarget ∨ e.IsHiddenTarget ∧ e.targetGuid = Guid.nil))

theorem requirePathTarget_eq (e : RsiPathEntry) :
    requirePathTarget e.targetType e.targetGuid = check e.wire.TargetRule := by
  by_cases hg : e.targetType.toUInt32 = rsiPathTargetGuid
  · rw [requirePathTarget, if_pos hg, check, if_pos (show e.wire.TargetRule from Or.inl hg)]
  · rw [requirePathTarget, if_neg hg]
    by_cases hh : e.targetType.toUInt32 = rsiPathTargetHidden ∧ e.targetGuid = Guid.nil
    · rw [if_pos hh.1, if_pos hh.2, check, if_pos (show e.wire.TargetRule from Or.inr hh)]
    · rw [check, if_neg (show ¬ e.wire.TargetRule from not_or.mpr ⟨hg, hh⟩)]
      split_ifs with h1 h2
      · exact absurd ⟨h1, h2⟩ hh
      · rfl
      · rfl

/-! ## Small arguments

Two entries that share a target, in a layer without a name, and the record for it. -/

def smallGuid : Guid := ⟨List.replicate 16 0x10, by decide⟩

def smallEntry (sequence : UInt64) : RsiPathEntry := ⟨Arr.null, 0, smallGuid, sequence⟩

def smallEntries : Arr RsiPathEntry := Arr.ofList [smallEntry 5, smallEntry 6] (by decide)

/-- The same entries, under two children with an empty one between them. -/
def smallChildren : Arr RsiChildEntry :=
  Arr.ofList [⟨Arr.null, Arr.ofList [smallEntry 5] (by decide)⟩, ⟨Arr.null, Arr.null⟩,
    ⟨Arr.null, Arr.ofList [smallEntry 6] (by decide)⟩] (by decide)

def smallMetadata : Arr RsiKeyMetadata :=
  Arr.ofList [⟨smallGuid, Arr.null, 0, 1, 9⟩] (by decide)

def largeGuid : Guid := ⟨List.replicate 16 0x20, by decide⟩

/-- Two GUIDs, the larger one first. -/
def smallOrphans : GuidArr where
  ptr := some (largeGuid.bytes ++ smallGuid.bytes)
  count := 2
  valid := by
    rintro m hm
    rw [← Option.some.inj hm]
    decide

def smallParent : GuidPtr where
  ptr := some smallGuid.bytes
  valid := by
    rintro m hm
    rw [← Option.some.inj hm]
    decide

end Librsi

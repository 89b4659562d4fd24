import Librsi.Lib.Format
import Mathlib.Data.List.Lex
import Mathlib.Order.Basic

/-!
# The values that cross the C ABI

GUIDs, error numbers, and the two ways a caller hands librsi memory.

A pointer is NULL or points at memory that is there; the safety sections of the library
promise no less, and `Arr` and `GuidArr` carry that promise as a field.  So a
`(pointer, count)` pair may be NULL with any count, and a pointer that is not NULL
reaches at least `count` elements.  What it points at may be longer: the library reads
`items`, the first `count` elements, and nothing else.
-/

namespace Librsi

open WireFormat

/-! ## GUIDs -/

/-- A `[u8; 16]`. -/
@[ext] structure Guid where
  bytes : Bytes
  length_eq : bytes.length = 16

namespace Guid

/-- `[0; 16]`. -/
def nil : Guid := ⟨List.replicate 16 0, by decide⟩

/-- The bytes as numbers, which is how `[u8; 16]` is compared. -/
def key (g : Guid) : List ℕ := g.bytes.map UInt8.toNat

theorem key_injective : Function.Injective key := by
  intro g h hkey
  have hinj : Function.Injective UInt8.toNat := fun _ _ => UInt8.toNat_inj.mp
  exact Guid.ext (List.map_injective_iff.mpr hinj hkey)

/-- Arrays of bytes compare lexicographically. -/
instance : LinearOrder Guid := LinearOrder.lift' key key_injective

theorem le_iff {g h : Guid} : g ≤ h ↔ g.key ≤ h.key := Iff.rfl

/-- Zeros are below every list of the same length. -/
theorem replicate_zero_le (l : List ℕ) : List.replicate l.length 0 ≤ l := by
  induction l with
  | nil => exact le_refl _
  | cons a l ih =>
    rw [List.length_cons, List.replicate_succ]
    rcases Nat.eq_zero_or_pos a with rfl | ha
    · rcases lt_or_eq_of_le ih with h | h
      · exact le_of_lt (List.cons_lt_cons_iff.mpr (Or.inr ⟨rfl, h⟩))
      · exact le_of_eq (by rw [h])
    · exact le_of_lt (List.cons_lt_cons_iff.mpr (Or.inl ha))

/-- **The nil GUID comes first**, which is why a sorted vector shows it at index `0`. -/
theorem nil_le (g : Guid) : nil ≤ g := by
  have hlen : g.key.length = 16 := by rw [key, List.length_map, g.length_eq]
  have hnil : nil.key = List.replicate g.key.length 0 := by rw [hlen]; decide
  rw [le_iff, hnil]
  exact replicate_zero_le g.key

end Guid

/-- The 16 bytes of a GUID, as they stand. -/
def guid : Format Guid :=
  (exactly 16).conv (fun b => if h : b.length = 16 then ⟨b, h⟩ else Guid.nil) Guid.bytes
    fun b hb => by rw [dif_pos (show b.length = 16 from hb)]

@[simp] theorem fits_guid (g : Guid) : guid.Fits g :=
  ⟨g.length_eq, dif_pos g.length_eq⟩

@[simp] theorem length_put_guid (g : Guid) : (guid.put g).length = 16 := g.length_eq

/-! ## Error numbers -/

/-- A `c_int`. -/
abbrev CInt := ℤ

/-- An `errno` value. -/
abbrev Errno := CInt

def EIO : Errno := 5
def ENOMEM : Errno := 12
def EINVAL : Errno := 22
def EBADMSG : Errno := 74
def EOVERFLOW : Errno := 75

/-! ## Caller memory -/

/-- A `(pointer, count)` pair: an array, or the bytes of a name or a descriptor.  The
memory behind a pointer that is not NULL is valid for `count` elements. -/
structure Arr (α : Type) where
  ptr : Option (List α)
  count : UInt32
  valid : ∀ m, ptr = some m → count.toNat ≤ m.length

namespace Arr

variable {α : Type}

/-- The elements the pair stands for.  A NULL pointer stands for none. -/
def items (a : Arr α) : List α := (a.ptr.getD []).take a.count.toNat

/-- NULL with a nonzero count. -/
def Dangling (a : Arr α) : Prop := a.ptr = none ∧ a.count ≠ 0

instance (a : Arr α) : Decidable a.Dangling :=
  decidable_of_iff (a.ptr.isNone ∧ a.count ≠ 0) (by rw [Dangling, Option.isNone_iff_eq_none])

/-- A pair that does not dangle has as many elements as it says. -/
theorem length_items {a : Arr α} (h : ¬ a.Dangling) : a.items.length = a.count.toNat := by
  obtain ⟨ptr, count, valid⟩ := a
  cases ptr with
  | none =>
    have hc : count = 0 := by
      by_contra hc
      exact h ⟨rfl, hc⟩
    subst hc
    rfl
  | some m => exact List.length_take_of_le (valid m rfl)

theorem ofNat_length_items {a : Arr α} (h : ¬ a.Dangling) :
    UInt32.ofNat a.items.length = a.count := by
  rw [length_items h, UInt32.ofNat_toNat]

theorem length_items_lt (a : Arr α) : a.items.length < 2 ^ 32 := by
  refine lt_of_le_of_lt ?_ a.count.toNat_lt
  exact List.length_take_le _ _

/-- The array of a list. -/
def ofList (l : List α) (h : l.length < 2 ^ 32) : Arr α where
  ptr := some l
  count := UInt32.ofNat l.length
  valid := by
    rintro m hm
    rw [← Option.some.inj hm, ← toNat_ofNat_eq_iff.mpr h]

@[simp] theorem items_ofList (l : List α) (h : l.length < 2 ^ 32) : (ofList l h).items = l := by
  show l.take (UInt32.ofNat l.length).toNat = l
  rw [← toNat_ofNat_eq_iff.mpr h, List.take_length]

theorem not_dangling_ofList (l : List α) (h : l.length < 2 ^ 32) : ¬ (ofList l h).Dangling :=
  fun hd => absurd hd.1 (by simp [ofList])

/-- The NULL array of no elements. -/
def null : Arr α := ⟨none, 0, fun _ h => absurd h (by simp)⟩

end Arr

/-- A pointer to `count` GUIDs laid end to end, valid for `count * 16` bytes. -/
structure GuidArr where
  ptr : Option Bytes
  count : UInt32
  valid : ∀ m, ptr = some m → count.toNat * 16 ≤ m.length

/-- NULL with a nonzero count. -/
def GuidArr.Dangling (a : GuidArr) : Prop := a.ptr = none ∧ a.count ≠ 0

/-- A pointer to one GUID. -/
structure GuidPtr where
  ptr : Option Bytes
  valid : ∀ m, ptr = some m → 16 ≤ m.length

/-! ## The registration arguments -/

/-- A `struct reg_src_hive_entry`.  Names stay where the caller has them, so a name is
its address. -/
structure RegSrcHiveEntry where
  nameLen : UInt32
  pad0 : UInt32
  namePtr : UInt64
  rootGuid : Guid
  flags : UInt32
  scopeGuid : Guid
  pad1 : UInt32

/-- A `struct reg_src_register_args`, with the entries its `hives_ptr` points at. -/
structure RegSrcRegisterArgs where
  hiveCount : UInt32
  pad : UInt32
  maxSequence : UInt64
  hives : List RegSrcHiveEntry

end Librsi

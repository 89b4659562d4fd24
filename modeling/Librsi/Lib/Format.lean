import Mathlib.Data.List.Basic
import Mathlib.Algebra.Order.Ring.Nat

/-!
# Wire formats with one law

A `Format` for a type writes a value as bytes and reads a value off the front of a
byte string.  Its one law is an equivalence: reading returns a value and a remainder
exactly when the value fits the format and the bytes are what it would be written as,
followed by the remainder.  Read from right to left this is the round trip; read from
left to right it is canonicity, that no value has a second encoding.

* `leBytes`, `leNat`: fixed-width little-endian numbers.
* `exactly`, `uint8`, `uint16`, `uint32`, `uint64`: fields of fixed width.
* `Format.pair`, `Format.conv`, `Format.dep`: two fields in order, a change of
  representation, and a field whose shape the field before it decides.
* `times`, `counted`, `lengthPrefixed`: repetition, and the two uses of a 32-bit
  count that such formats make.
* `Format.strict`: reading a byte string to its last byte.
* `splitFrames`: cutting a stream of frames that start with their own length.
-/

namespace WireFormat

/-- Byte strings. -/
abbrev Bytes := List UInt8

variable {α β κ : Type}

/-! ## Little-endian numbers -/

/-- The `w` low bytes of `n`, least significant first. -/
def leBytes : ℕ → ℕ → Bytes
  | 0, _ => []
  | w + 1, n => UInt8.ofNat n :: leBytes w (n / 256)

/-- The number a byte string spells, least significant byte first. -/
def leNat : Bytes → ℕ
  | [] => 0
  | b :: bs => b.toNat + 256 * leNat bs

@[simp] theorem length_leBytes (w n : ℕ) : (leBytes w n).length = w := by
  induction w generalizing n with
  | zero => rfl
  | succ w ih => rw [leBytes, List.length_cons, ih]

/-- Writing a number and reading it back keeps its low bytes. -/
theorem leNat_leBytes (w n : ℕ) : leNat (leBytes w n) = n % 256 ^ w := by
  induction w generalizing n with
  | zero => rw [leBytes, leNat, pow_zero, Nat.mod_one]
  | succ w ih =>
    have hpow : 256 ^ (w + 1) = 256 * 256 ^ w := pow_succ' 256 w
    rw [leBytes, leNat, ih, UInt8.toNat_ofNat', hpow, Nat.mod_mul]

theorem leNat_leBytes_of_lt {w n : ℕ} (h : n < 256 ^ w) : leNat (leBytes w n) = n := by
  rw [leNat_leBytes, Nat.mod_eq_of_lt h]

/-- Reading a byte string and writing the number back at the same width gives the
byte string. -/
theorem leBytes_leNat (bs : Bytes) : leBytes bs.length (leNat bs) = bs := by
  induction bs with
  | nil => rfl
  | cons b bs ih =>
    have hb : b.toNat < 256 := b.toNat_lt
    have hquot : (b.toNat + 256 * leNat bs) / 256 = leNat bs := by omega
    have hlow : UInt8.ofNat (b.toNat + 256 * leNat bs) = b := by
      apply UInt8.toNat_inj.mp
      rw [UInt8.toNat_ofNat']
      omega
    rw [leNat, List.length_cons, leBytes, hquot, ih, hlow]

theorem leNat_lt (bs : Bytes) : leNat bs < 256 ^ bs.length := by
  calc leNat bs = leNat (leBytes bs.length (leNat bs)) := by rw [leBytes_leNat]
    _ = leNat bs % 256 ^ bs.length := leNat_leBytes _ _
    _ < 256 ^ bs.length := Nat.mod_lt _ (Nat.pow_pos (by decide))

/-! ## Formats -/

/-- A way of writing values as bytes and of reading them off the front of a byte
string.  `Fits` says which values the format can carry. -/
structure Format (α : Type) where
  Fits : α → Prop
  put : α → Bytes
  get : Bytes → Option (α × Bytes)
  get_iff : ∀ {bs : Bytes} {a : α} {r : Bytes},
    get bs = some (a, r) ↔ Fits a ∧ bs = put a ++ r

namespace Format

/-- **The round trip**: a value that fits is read back, whatever follows it. -/
theorem get_put (f : Format α) {a : α} (h : f.Fits a) (r : Bytes) :
    f.get (f.put a ++ r) = some (a, r) :=
  f.get_iff.mpr ⟨h, rfl⟩

/-- Read one value and nothing after it. -/
def strict (f : Format α) (bs : Bytes) : Option α :=
  match f.get bs with
  | some (a, []) => some a
  | _ => none

/-- **Strict reading inverts writing**, in both directions at once. -/
theorem strict_iff (f : Format α) {bs : Bytes} {a : α} :
    f.strict bs = some a ↔ f.Fits a ∧ bs = f.put a := by
  have hnil : f.get bs = some (a, []) ↔ f.Fits a ∧ bs = f.put a := by
    rw [f.get_iff, List.append_nil]
  rw [← hnil, strict]
  constructor
  · intro h
    split at h
    · rename_i b hb
      rw [hb, Option.some.inj h]
    · exact absurd h (by simp)
  · intro h
    rw [h]

/-- Two fields in order. -/
def pair (f : Format α) (g : Format β) : Format (α × β) where
  Fits p := f.Fits p.1 ∧ g.Fits p.2
  put p := f.put p.1 ++ g.put p.2
  get bs := (f.get bs).bind fun p => (g.get p.2).map fun q => ((p.1, q.1), q.2)
  get_iff := by
    rintro bs ⟨a, b⟩ r
    simp only [Option.bind_eq_some_iff, Option.map_eq_some_iff, Prod.exists, Prod.mk.injEq,
      f.get_iff, g.get_iff]
    constructor
    · rintro ⟨a', m, ⟨ha, rfl⟩, b', r', ⟨hb, rfl⟩, ⟨rfl, rfl⟩, rfl⟩
      exact ⟨⟨ha, hb⟩, by rw [List.append_assoc]⟩
    · rintro ⟨⟨ha, hb⟩, rfl⟩
      exact ⟨a, g.put b ++ r, ⟨ha, by rw [List.append_assoc]⟩, b, r, ⟨hb, rfl⟩, ⟨rfl, rfl⟩, rfl⟩

/-- Change the representation.  The new values that fit are those the change maps back
to themselves through an old value that fits. -/
def conv (f : Format α) (into : α → β) (back : β → α)
    (h : ∀ a, f.Fits a → back (into a) = a) :
    Format β where
  Fits b := f.Fits (back b) ∧ into (back b) = b
  put b := f.put (back b)
  get bs := (f.get bs).map fun p => (into p.1, p.2)
  get_iff := by
    intro bs b r
    simp only [Option.map_eq_some_iff, Prod.exists, Prod.mk.injEq, f.get_iff]
    constructor
    · rintro ⟨a, r', ⟨ha, rfl⟩, rfl, rfl⟩
      rw [h a ha]
      exact ⟨⟨ha, rfl⟩, rfl⟩
    · rintro ⟨⟨hb, hinto⟩, rfl⟩
      exact ⟨back b, r, ⟨hb, rfl⟩, hinto, rfl⟩

/-- A field that decides the shape of the next one.  The first field is not part of the
value: `key` recovers it from the value that follows. -/
def dep (f : Format κ) (g : κ → Format α) (key : α → κ)
    (h : ∀ k a, (g k).Fits a → key a = k) : Format α where
  Fits a := f.Fits (key a) ∧ (g (key a)).Fits a
  put a := f.put (key a) ++ (g (key a)).put a
  get bs := (f.get bs).bind fun p => (g p.1).get p.2
  get_iff := by
    intro bs a r
    simp only [Option.bind_eq_some_iff, Prod.exists, Format.get_iff]
    constructor
    · rintro ⟨k, m, ⟨hk, rfl⟩, ha, rfl⟩
      rw [h k a ha]
      exact ⟨⟨hk, ha⟩, by rw [List.append_assoc]⟩
    · rintro ⟨⟨hk, ha⟩, rfl⟩
      exact ⟨key a, (g (key a)).put a ++ r, ⟨hk, by rw [List.append_assoc]⟩, ha, rfl⟩

end Format

/-! ## Fields of fixed width -/

/-- A byte string of a known length. -/
def exactly (n : ℕ) : Format Bytes where
  Fits b := b.length = n
  put b := b
  get bs := if n ≤ bs.length then some (bs.take n, bs.drop n) else none
  get_iff := by
    intro bs a r
    split_ifs with hn
    · simp only [Option.some.injEq, Prod.mk.injEq]
      constructor
      · rintro ⟨rfl, rfl⟩
        exact ⟨List.length_take_of_le hn, (List.take_append_drop n bs).symm⟩
      · rintro ⟨rfl, rfl⟩
        exact ⟨List.take_left, List.drop_left⟩
    · constructor
      · intro h
        exact absurd h (by simp)
      · rintro ⟨rfl, rfl⟩
        exact absurd (by rw [List.length_append]; exact Nat.le_add_right _ _) hn

/-- A number of `w` bytes. -/
def uint (w : ℕ) : Format ℕ :=
  (exactly w).conv leNat (leBytes w) fun a ha => by
    rw [show w = a.length from ha.symm, leBytes_leNat]

/-- `uint w` carries the numbers below `256 ^ w`. -/
theorem fits_uint {w n : ℕ} : (uint w).Fits n ↔ n < 256 ^ w := by
  constructor
  · rintro ⟨-, h⟩
    rw [← h, leNat_leBytes]
    exact Nat.mod_lt _ (Nat.pow_pos (by decide))
  · intro h
    exact ⟨length_leBytes w n, leNat_leBytes_of_lt h⟩

def uint8 : Format UInt8 :=
  (uint 1).conv UInt8.ofNat UInt8.toNat fun n hn => by
    rw [UInt8.toNat_ofNat']
    exact Nat.mod_eq_of_lt (fits_uint.mp hn)

def uint16 : Format UInt16 :=
  (uint 2).conv UInt16.ofNat UInt16.toNat fun n hn => by
    rw [UInt16.toNat_ofNat']
    exact Nat.mod_eq_of_lt (fits_uint.mp hn)

def uint32 : Format UInt32 :=
  (uint 4).conv UInt32.ofNat UInt32.toNat fun n hn => by
    rw [UInt32.toNat_ofNat']
    exact Nat.mod_eq_of_lt (fits_uint.mp hn)

def uint64 : Format UInt64 :=
  (uint 8).conv UInt64.ofNat UInt64.toNat fun n hn => by
    rw [UInt64.toNat_ofNat']
    exact Nat.mod_eq_of_lt (fits_uint.mp hn)

@[simp] theorem fits_uint8 (x : UInt8) : uint8.Fits x :=
  ⟨fits_uint.mpr x.toNat_lt, UInt8.ofNat_toNat⟩

@[simp] theorem fits_uint16 (x : UInt16) : uint16.Fits x :=
  ⟨fits_uint.mpr x.toNat_lt, UInt16.ofNat_toNat⟩

@[simp] theorem fits_uint32 (x : UInt32) : uint32.Fits x :=
  ⟨fits_uint.mpr x.toNat_lt, UInt32.ofNat_toNat⟩

@[simp] theorem fits_uint64 (x : UInt64) : uint64.Fits x :=
  ⟨fits_uint.mpr x.toNat_lt, UInt64.ofNat_toNat⟩

/-- A one-byte number is its own encoding. -/
@[simp] theorem put_uint8 (x : UInt8) : uint8.put x = [x] := by
  show leBytes 1 x.toNat = [x]
  rw [leBytes, leBytes, UInt8.ofNat_toNat]

/-! ## Repetition -/

namespace Format

/-- Read `n` values in a row. -/
def getTimes (f : Format α) : ℕ → Bytes → Option (List α × Bytes)
  | 0, bs => some ([], bs)
  | n + 1, bs =>
      (f.get bs).bind fun p => (f.getTimes n p.2).map fun q => (p.1 :: q.1, q.2)

theorem getTimes_iff (f : Format α) {n : ℕ} {bs : Bytes} {l : List α} {r : Bytes} :
    f.getTimes n bs = some (l, r) ↔
      (l.length = n ∧ ∀ a ∈ l, f.Fits a) ∧ bs = l.flatMap f.put ++ r := by
  induction n generalizing bs l with
  | zero =>
    simp only [getTimes, Option.some.injEq, Prod.mk.injEq, List.length_eq_zero_iff]
    constructor
    · rintro ⟨rfl, rfl⟩
      exact ⟨⟨rfl, by simp⟩, rfl⟩
    · rintro ⟨⟨rfl, -⟩, rfl⟩
      exact ⟨rfl, rfl⟩
  | succ n ih =>
    simp only [getTimes, Option.bind_eq_some_iff, Option.map_eq_some_iff, Prod.exists,
      Prod.mk.injEq, f.get_iff]
    constructor
    · rintro ⟨a, m, ⟨ha, rfl⟩, l', r', htail, rfl, rfl⟩
      obtain ⟨⟨rfl, hl⟩, rfl⟩ := ih.mp htail
      refine ⟨⟨rfl, ?_⟩, ?_⟩
      · rintro b (_ | ⟨_, hb⟩)
        · exact ha
        · exact hl b hb
      · rw [List.flatMap_cons, List.append_assoc]
    · rintro ⟨⟨hlen, hl⟩, rfl⟩
      obtain ⟨a, l', rfl⟩ := List.exists_cons_of_length_eq_add_one hlen
      refine ⟨a, l'.flatMap f.put ++ r, ⟨hl a List.mem_cons_self, ?_⟩, l', r,
        ih.mpr ⟨⟨Nat.succ.inj hlen, fun b hb => hl b (List.mem_cons_of_mem _ hb)⟩, rfl⟩,
        rfl, rfl⟩
      rw [List.flatMap_cons, List.append_assoc]

end Format

/-- A known number of values in a row. -/
def times (n : ℕ) (f : Format α) : Format (List α) where
  Fits l := l.length = n ∧ ∀ a ∈ l, f.Fits a
  put l := l.flatMap f.put
  get := f.getTimes n
  get_iff := f.getTimes_iff

theorem ofNat_eq_of_eq_toNat {n : ℕ} {k : UInt32} (h : n = k.toNat) : UInt32.ofNat n = k := by
  rw [h, UInt32.ofNat_toNat]

/-- A 32-bit count, then that many values. -/
def counted (f : Format α) : Format (List α) :=
  uint32.dep (fun k => times k.toNat f) (fun l => UInt32.ofNat l.length)
    fun _ _ h => ofNat_eq_of_eq_toNat h.1

/-- A 32-bit length, then that many bytes. -/
def lengthPrefixed : Format Bytes :=
  uint32.dep (fun k => exactly k.toNat) (fun b => UInt32.ofNat b.length)
    fun _ _ h => ofNat_eq_of_eq_toNat h

theorem toNat_ofNat_eq_iff {n : ℕ} : n = (UInt32.ofNat n).toNat ↔ n < 2 ^ 32 := by
  rw [UInt32.toNat_ofNat']
  omega

/-- A counted list fits when its length does and its entries do. -/
@[simp] theorem fits_counted {f : Format α} {l : List α} :
    (counted f).Fits l ↔ l.length < 2 ^ 32 ∧ ∀ a ∈ l, f.Fits a := by
  show uint32.Fits _ ∧ (l.length = (UInt32.ofNat l.length).toNat ∧ ∀ a ∈ l, f.Fits a) ↔ _
  rw [toNat_ofNat_eq_iff]
  exact and_iff_right (fits_uint32 _)

@[simp] theorem fits_lengthPrefixed {b : Bytes} :
    lengthPrefixed.Fits b ↔ b.length < 2 ^ 32 := by
  show uint32.Fits _ ∧ b.length = (UInt32.ofNat b.length).toNat ↔ _
  rw [toNat_ofNat_eq_iff]
  exact and_iff_right (fits_uint32 _)

theorem put_counted (f : Format α) (l : List α) :
    (counted f).put l = uint32.put (UInt32.ofNat l.length) ++ l.flatMap f.put := rfl

theorem put_lengthPrefixed (b : Bytes) :
    lengthPrefixed.put b = uint32.put (UInt32.ofNat b.length) ++ b := rfl

/-! ### Lengths -/

@[simp] theorem length_put_uint8 (x : UInt8) : (uint8.put x).length = 1 := length_leBytes 1 _

@[simp] theorem length_put_uint32 (x : UInt32) : (uint32.put x).length = 4 := length_leBytes 4 _

@[simp] theorem length_put_uint64 (x : UInt64) : (uint64.put x).length = 8 := length_leBytes 8 _

@[simp] theorem length_put_lengthPrefixed (b : Bytes) :
    (lengthPrefixed.put b).length = 4 + b.length := by
  rw [put_lengthPrefixed, List.length_append, length_put_uint32]

@[simp] theorem length_put_counted (f : Format α) (l : List α) :
    ((counted f).put l).length = 4 + (l.map fun a => (f.put a).length).sum := by
  rw [put_counted, List.length_append, length_put_uint32, List.length_flatMap]

/-! ## Streams of frames -/

/-- A frame that starts with its own length, in 32 bits. -/
def SelfDelimiting (f : Bytes) : Prop := 4 ≤ f.length ∧ leNat (f.take 4) = f.length

/-- Cut a stream into frames: read a length off the front, take that many bytes, go on
with the rest.  There is no answer if a frame is cut off or something is left over. -/
def splitFrames (bs : Bytes) : Option (List Bytes) :=
  if bs = [] then some []
  else if _h : 4 ≤ leNat (bs.take 4) ∧ leNat (bs.take 4) ≤ bs.length then
    (splitFrames (bs.drop (leNat (bs.take 4)))).map (bs.take (leNat (bs.take 4)) :: ·)
  else none
termination_by bs.length
decreasing_by
  rw [List.length_drop]
  omega

theorem splitFrames_append {f : Bytes} (hf : SelfDelimiting f) (bs : Bytes) :
    splitFrames (f ++ bs) = (splitFrames bs).map (f :: ·) := by
  have hne : f ++ bs ≠ [] := by
    intro h
    have hnil : f = [] := (List.append_eq_nil_iff.mp h).1
    exact absurd hf.1 (by rw [hnil]; decide)
  have hlen : leNat ((f ++ bs).take 4) = f.length := by
    rw [List.take_append_of_le_length hf.1, hf.2]
  have hfits : 4 ≤ f.length ∧ f.length ≤ (f ++ bs).length :=
    ⟨hf.1, by rw [List.length_append]; omega⟩
  rw [splitFrames, if_neg hne]
  simp only [hlen, dif_pos hfits, List.drop_left, List.take_left]

/-- **A stream of frames splits into the frames**, and nothing is left over. -/
theorem splitFrames_flatten {fs : List Bytes} (h : ∀ f ∈ fs, SelfDelimiting f) :
    splitFrames fs.flatten = some fs := by
  induction fs with
  | nil => rw [List.flatten_nil, splitFrames, if_pos rfl]
  | cons f fs ih =>
    rw [List.flatten_cons, splitFrames_append (h f List.mem_cons_self),
      ih fun f hf => h f (List.mem_cons_of_mem _ hf), Option.map_some]

end WireFormat

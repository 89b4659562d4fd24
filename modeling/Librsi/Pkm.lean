import Librsi.Abi

/-!
# The two crates librsi is built on

`peios-uapi` supplies the protocol's constants and `lcs-core` its request parsers and
status vocabulary.  Neither is part of this repository, so both are a parameter: a
`Pkm` is any choice of the constants and functions that librsi uses, and what librsi
relies on about them is stated as named conditions (`Pkm.ResponseBit`, `Pkm.KnowsOps`,
`Pkm.Documented`, `Pkm.HeaderChecked`) for the theorems that need it.

Three constants are fixed by this repository's own text and are plain definitions here:
the two path-target tags and the sizes of the two headers.

A parsed name or descriptor borrows from the payload it was parsed from.  `Field p` is
such a borrow: an offset and a length that stay inside `p`.
-/

namespace Librsi

open WireFormat

/-! ## Constants -/

/-- The eighteen request kinds. -/
inductive Op where
  | lookup | createEntry | hideEntry | deleteEntry | enumChildren
  | createKey | readKey | dropKey | writeKey
  | queryValues | setValue | deleteValueEntry | setBlanketTombstone
  | beginTransaction | commitTransaction | abortTransaction
  | deleteLayer | flush
  deriving DecidableEq

/-- `RSI_PATH_TARGET_GUID`. -/
def rsiPathTargetGuid : UInt32 := 0

/-- `RSI_PATH_TARGET_HIDDEN`. -/
def rsiPathTargetHidden : UInt32 := 1

/-- `RSI_REQUEST_HEADER_SIZE`. -/
def rsiRequestHeaderSize : ℕ := 22

/-- `STATUS_FRAME_LEN`, which the source asserts to be `RSI_MIN_RESPONSE_SIZE`. -/
def statusFrameLen : ℕ := 18

/-! ## What the payload parsers return -/

/-- A length-prefixed field, borrowed from the payload `p`. -/
structure Field (p : Bytes) where
  off : ℕ
  len : ℕ
  le : off + len ≤ p.length

/-- The bytes of a field. -/
def Field.data {p : Bytes} (f : Field p) : Bytes := (p.drop f.off).take f.len

structure LookupPayload (p : Bytes) where
  parentGuid : Guid
  childName : Field p

structure CreateEntryPayload (p : Bytes) where
  parentGuid : Guid
  childName : Field p
  layerName : Field p
  childGuid : Guid
  sequence : UInt64

structure HideEntryPayload (p : Bytes) where
  parentGuid : Guid
  childName : Field p
  layerName : Field p
  sequence : UInt64

structure DeleteEntryPayload (p : Bytes) where
  parentGuid : Guid
  childName : Field p
  layerName : Field p

structure EnumChildrenPayload where
  parentGuid : Guid

structure CreateKeyPayload (p : Bytes) where
  guid : Guid
  name : Field p
  parentGuid : Guid
  sd : Field p
  volatile : Bool
  symlink : Bool

structure KeyGuidPayload where
  guid : Guid

structure WriteKeyPayload (p : Bytes) where
  guid : Guid
  fieldMask : UInt32
  sd : Option (Field p)
  lastWriteTime : Option UInt64

structure QueryValuesPayload (p : Bytes) where
  guid : Guid
  valueName : Field p
  queryAll : Bool

structure SetValuePayload (p : Bytes) where
  guid : Guid
  valueName : Field p
  layerName : Field p
  valueType : UInt32
  data : Field p
  sequence : UInt64
  expectedSequence : UInt64

structure DeleteValueEntryPayload (p : Bytes) where
  guid : Guid
  valueName : Field p
  layerName : Field p

structure SetBlanketTombstonePayload (p : Bytes) where
  guid : Guid
  layerName : Field p
  set : Bool
  sequence : UInt64

inductive RsiTransactionMode where
  | readWrite
  | readOnly

/-- The modes as `<rsi/request.h>` numbers them: `RSI_TXN_READ_WRITE` is `0` and
`RSI_TXN_READ_ONLY` is `1`. -/
def RsiTransactionMode.code : RsiTransactionMode → UInt32
  | .readWrite => 0
  | .readOnly => 1

structure BeginTransactionPayload where
  transactionId : UInt64
  mode : RsiTransactionMode

structure TransactionPayload where
  transactionId : UInt64

structure DeleteLayerPayload (p : Bytes) where
  layerName : Field p

structure FlushPayload (p : Bytes) where
  hiveName : Field p

/-- What the payload parser of each kind returns. -/
def Payload : Op → Bytes → Type
  | .lookup, p => LookupPayload p
  | .createEntry, p => CreateEntryPayload p
  | .hideEntry, p => HideEntryPayload p
  | .deleteEntry, p => DeleteEntryPayload p
  | .enumChildren, _ => EnumChildrenPayload
  | .createKey, p => CreateKeyPayload p
  | .readKey, _ => KeyGuidPayload
  | .dropKey, _ => KeyGuidPayload
  | .writeKey, p => WriteKeyPayload p
  | .queryValues, p => QueryValuesPayload p
  | .setValue, p => SetValuePayload p
  | .deleteValueEntry, p => DeleteValueEntryPayload p
  | .setBlanketTombstone, p => SetBlanketTombstonePayload p
  | .beginTransaction, _ => BeginTransactionPayload
  | .commitTransaction, _ => TransactionPayload
  | .abortTransaction, _ => TransactionPayload
  | .deleteLayer, p => DeleteLayerPayload p
  | .flush, p => FlushPayload p

/-- What the header parser returns. -/
structure RsiRequestHeader where
  requestId : UInt64
  opCode : UInt16
  txnId : UInt64

/-- A parsed status.  The only status librsi names is `Ok`. -/
inductive RsiStatus where
  | ok
  | other (code : UInt32)
  deriving DecidableEq

/-! ## The parameter -/

/-- The constants of `peios-uapi` and the functions of `lcs-core` that librsi uses.  The
op codes are `u32` constants that name distinct values of a 16-bit header field, and a
mode's code is the one `<rsi/request.h>` gives for it. -/
structure Pkm where
  opCode : Op → UInt32
  opCode_lt : ∀ o, (opCode o).toNat < 2 ^ 16
  opCode_injective : Function.Injective opCode
  rsiOk : UInt32
  parseRsiStatus : UInt32 → Option RsiStatus
  rsiResponseOpCode : UInt16 → Option UInt16
  rsiRequestHasStatusOnlyResponse : UInt16 → Option Bool
  parseRsiRequestHeader : Bytes → Option RsiRequestHeader
  parsePayload : (o : Op) → (p : Bytes) → Option (Payload o p)
  transactionModeCode : RsiTransactionMode → UInt32
  transactionModeCode_eq : ∀ m, transactionModeCode m = m.code

namespace Pkm

variable (P : Pkm)

/-- An op code as it stands in a header: the constant, cast to `u16`. -/
def opCode16 (o : Op) : UInt16 := (P.opCode o).toUInt16

theorem opCode16_injective : Function.Injective P.opCode16 := by
  intro o o' h
  have hn := congrArg UInt16.toNat h
  rw [opCode16, opCode16, UInt32.toNat_toUInt16, UInt32.toNat_toUInt16,
    Nat.mod_eq_of_lt (P.opCode_lt o), Nat.mod_eq_of_lt (P.opCode_lt o')] at hn
  exact P.opCode_injective (UInt32.toNat_inj.mp hn)

/-- The ops whose success carries a payload. -/
def IsPayloadOp (op : UInt16) : Prop :=
  op = P.opCode16 .lookup ∨ op = P.opCode16 .enumChildren ∨ op = P.opCode16 .readKey ∨
    op = P.opCode16 .deleteLayer ∨ op = P.opCode16 .queryValues

/-- `rsi_response_op_code(op)` is `op | 0x8000`, where it succeeds. -/
def ResponseBit : Prop := ∀ op r, P.rsiResponseOpCode op = some r → r = op ||| 0x8000

/-- `rsi_response_op_code` knows every op of the protocol. -/
def KnowsOps : Prop := ∀ o, (P.rsiResponseOpCode (P.opCode16 o)).isSome

/-- `lcs-core`'s vocabulary, relative to the ops and statuses that are known: which
statuses parse and which of them is `Ok`, which ops have a response op code, and which
known ops do not have a status-only success. -/
structure Documented (KnownOp : UInt16 → Prop) (KnownStatus : UInt32 → Prop) : Prop where
  status_known : ∀ s, (P.parseRsiStatus s).isSome ↔ KnownStatus s
  status_ok : ∀ s, P.parseRsiStatus s = some .ok ↔ s = P.rsiOk
  response_known : ∀ op, (P.rsiResponseOpCode op).isSome ↔ KnownOp op
  status_only_false : ∀ op, P.rsiRequestHasStatusOnlyResponse op = some false ↔
    P.IsPayloadOp op

/-- `parse_rsi_request_header` accepts no frame shorter than the header. -/
def HeaderChecked : Prop :=
  ∀ bs h, P.parseRsiRequestHeader bs = some h → rsiRequestHeaderSize ≤ bs.length

/-! ## A small choice

Consecutive op codes, ten statuses, a header of the documented size, and payload parsers
for LOOKUP and for the two kinds that carry one GUID. -/

/-- Read a GUID and a length-prefixed name that end with the payload. -/
def parseGuidAndName (p : Bytes) : Option (LookupPayload p) :=
  if h : 20 + leNat ((p.drop 16).take 4) = p.length then
    some ⟨⟨p.take 16, List.length_take_of_le (by omega)⟩, ⟨20, _, h.le⟩⟩
  else none

/-- Read a GUID that ends with the payload. -/
def parseGuid (p : Bytes) : Option KeyGuidPayload :=
  if h : p.length = 16 then some ⟨⟨p, h⟩⟩ else none

/-- The code of each op. -/
def smallCode : Op → UInt32
  | .lookup => 1 | .createEntry => 2 | .hideEntry => 3 | .deleteEntry => 4
  | .enumChildren => 5 | .createKey => 6 | .readKey => 7 | .dropKey => 8 | .writeKey => 9
  | .queryValues => 10 | .setValue => 11 | .deleteValueEntry => 12
  | .setBlanketTombstone => 13 | .beginTransaction => 14 | .commitTransaction => 15
  | .abortTransaction => 16 | .deleteLayer => 17 | .flush => 18

/-- The op codes in use. -/
def SmallOp (op : UInt16) : Prop := 1 ≤ op.toNat ∧ op.toNat ≤ 18

instance (op : UInt16) : Decidable (SmallOp op) :=
  inferInstanceAs (Decidable (1 ≤ op.toNat ∧ op.toNat ≤ 18))

/-- The statuses in use. -/
def SmallStatus (s : UInt32) : Prop := s.toNat < 10

instance (s : UInt32) : Decidable (SmallStatus s) :=
  inferInstanceAs (Decidable (s.toNat < 10))

def small : Pkm where
  opCode := smallCode
  opCode_lt o := by cases o <;> decide
  opCode_injective := by
    intro o o' h
    cases o <;> cases o' <;> first | rfl | exact absurd h (by decide)
  rsiOk := 0
  parseRsiStatus s := if s = 0 then some .ok else if SmallStatus s then some (.other s) else none
  rsiResponseOpCode op := if SmallOp op then some (op ||| 0x8000) else none
  rsiRequestHasStatusOnlyResponse op :=
    if SmallOp op then some (!decide (op ∈ [1, 5, 7, 17, 10])) else none
  parseRsiRequestHeader bs :=
    if 22 ≤ bs.length ∧ leNat (bs.take 4) = bs.length ∧
        SmallOp (UInt16.ofNat (leNat ((bs.drop 12).take 2))) then
      some ⟨UInt64.ofNat (leNat ((bs.drop 4).take 8)),
        UInt16.ofNat (leNat ((bs.drop 12).take 2)), UInt64.ofNat (leNat ((bs.drop 14).take 8))⟩
    else none
  parsePayload
    | .lookup, p => parseGuidAndName p
    | .readKey, p => parseGuid p
    | .dropKey, p => parseGuid p
    | _, _ => none
  transactionModeCode := RsiTransactionMode.code
  transactionModeCode_eq _ := rfl

theorem small_responseBit : small.ResponseBit := by
  intro op r h
  obtain ⟨-, h⟩ := Option.ite_none_right_eq_some.mp h
  exact (Option.some.inj h).symm

theorem small_knowsOps : small.KnowsOps := by
  intro o
  cases o <;> decide

theorem small_headerChecked : small.HeaderChecked := by
  intro bs h hparse
  exact (Option.ite_none_right_eq_some.mp hparse).1.1

theorem small_documented : small.Documented SmallOp SmallStatus where
  status_known s := by
    show (if s = 0 then some RsiStatus.ok else if SmallStatus s then some (.other s)
      else none).isSome ↔ _
    split_ifs with h0 h
    · subst h0
      decide
    · simp [h]
    · simp [h]
  status_ok s := by
    show (if s = 0 then some RsiStatus.ok else if SmallStatus s then some (.other s)
      else none) = some .ok ↔ s = 0
    split_ifs with h0 h
    · simp [h0]
    · simp [h0]
    · simp [h0]
  response_known op := by
    show (if SmallOp op then some (op ||| 0x8000) else none).isSome ↔ _
    split_ifs with h
    · simp [h]
    · simp [h]
  status_only_false op := by
    show (if SmallOp op then some (!decide (op ∈ [1, 5, 7, 17, 10])) else none) = some false ↔
      op = 1 ∨ op = 5 ∨ op = 7 ∨ op = 17 ∨ op = 10
    split_ifs with h
    · rw [Option.some_inj, Bool.not_eq_false', decide_eq_true_iff]
      simp
    · refine ⟨fun h => absurd h (by simp), ?_⟩
      rintro (rfl | rfl | rfl | rfl | rfl) <;> exact absurd h (by decide)

end Pkm

end Librsi

import Librsi.Request

/-!
# The request decoders refine the parsers

Eighteen decoders hand out what eighteen parsers found.  `Agrees` says, field by field,
what an out struct has to hold for the parser's result: the same GUIDs and numbers, and
for every name a pointer into the frame, at the place where the parser found it, with its
length (`Points`).

`exists_fill` looks at each decoder once.  After that the decoders are all alike:
`decoders_refine_parsers` covers a parse followed by any decoder.

* `readMem_sub`: a part of the memory read is the read of a part.
* `points_lpf`: `lpf` hands out a pointer to the field it is given.
* `reqPayloadFor_eq_mod`, `reqPayloadFor_eq`: which slice of the frame a decoder is handed.
-/

namespace Librsi

open WireFormat Interaction

/-! ## Pointers into the frame -/

@[simp] theorem length_readMem (mem : Mem) (a : Addr) (n : ℕ) : (readMem mem a n).length = n := by
  rw [readMem, List.length_map, List.length_range]

theorem readMem_sub (mem : Mem) (a : Addr) {n off len : ℕ} (h : off + len ≤ n) :
    readMem mem (a + off) len = ((readMem mem a n).drop off).take len := by
  apply List.ext_getElem
  · rw [length_readMem, List.length_take, List.length_drop, length_readMem]
    omega
  · intro i hi hi'
    simp only [readMem, List.getElem_map, List.getElem_range, List.getElem_take,
      List.getElem_drop, Nat.add_assoc]

theorem drop_readMem (mem : Mem) (a : Addr) {n k : ℕ} (h : k ≤ n) :
    (readMem mem a n).drop k = readMem mem (a + k) (n - k) := by
  rw [readMem_sub mem a (Nat.add_sub_cancel' h).le]
  refine (List.take_of_length_le ?_).symm
  rw [List.length_drop, length_readMem]

/-- The pair `(ptr, len)` stands for the field `f` of a payload that lies at `base`. -/
structure Points (mem : Mem) (base : Addr) {p : Bytes} (f : Field p) (ptr : Addr)
    (len : UInt32) : Prop where
  place : ptr = base + f.off
  length : len.toNat = f.len
  bytes : readMem mem ptr len.toNat = f.data

/-- What is there is what the slice says, and its length fits a `u32`. -/
structure Slice.Valid (mem : Mem) (s : Slice) : Prop where
  bytes : s.bytes = readMem mem s.addr s.bytes.length
  small : s.bytes.length < 2 ^ 32

theorem points_lpf {mem : Mem} {s : Slice} (hs : s.Valid mem) (f : Field s.bytes) :
    Points mem s.addr f (lpf s f).1 (lpf s f).2 := by
  have hlen : (UInt32.ofNat f.len).toNat = f.len :=
    (toNat_ofNat_eq_iff.mpr (lt_of_le_of_lt (le_trans (Nat.le_add_left _ _) f.le) hs.small)).symm
  refine ⟨rfl, hlen, ?_⟩
  show readMem mem (s.addr + f.off) (UInt32.ofNat f.len).toNat = f.data
  rw [hlen, readMem_sub mem s.addr f.le, ← hs.bytes, Field.data]

/-! ## What an out struct has to hold -/

/-- The out struct of each decoder.  Three of them serve two ops. -/
abbrev OutStruct : Op → Type
  | .lookup => RsiLookup
  | .createEntry => RsiCreateEntry
  | .hideEntry => RsiHideEntry
  | .deleteEntry => RsiDeleteEntry
  | .enumChildren => RsiEnumChildren
  | .createKey => RsiCreateKey
  | .readKey => RsiKeyGuid
  | .dropKey => RsiKeyGuid
  | .writeKey => RsiWriteKey
  | .queryValues => RsiQueryValues
  | .setValue => RsiSetValue
  | .deleteValueEntry => RsiDeleteValueEntry
  | .setBlanketTombstone => RsiSetBlanketTombstone
  | .beginTransaction => RsiBeginTransaction
  | .commitTransaction => RsiTransaction
  | .abortTransaction => RsiTransaction
  | .deleteLayer => RsiName
  | .flush => RsiName

/-- The decoder of each op. -/
def decoder (P : Pkm) (mem : Mem) : (o : Op) → Option RsiRequest → Option (OutStruct o) →
    Sys (CInt × Option (OutStruct o))
  | .lookup => rsiRequestLookup P mem
  | .createEntry => rsiRequestCreateEntry P mem
  | .hideEntry => rsiRequestHideEntry P mem
  | .deleteEntry => rsiRequestDeleteEntry P mem
  | .enumChildren => rsiRequestEnumChildren P mem
  | .createKey => rsiRequestCreateKey P mem
  | .readKey => rsiRequestReadKey P mem
  | .dropKey => rsiRequestDropKey P mem
  | .writeKey => rsiRequestWriteKey P mem
  | .queryValues => rsiRequestQueryValues P mem
  | .setValue => rsiRequestSetValue P mem
  | .deleteValueEntry => rsiRequestDeleteValueEntry P mem
  | .setBlanketTombstone => rsiRequestSetBlanketTombstone P mem
  | .beginTransaction => rsiRequestBeginTransaction P mem
  | .commitTransaction => rsiRequestCommitTransaction P mem
  | .abortTransaction => rsiRequestAbortTransaction P mem
  | .deleteLayer => rsiRequestDeleteLayer P mem
  | .flush => rsiRequestFlush P mem

/-- The out struct holds what the parser found, in a payload that lies at `base`. -/
def Agrees (mem : Mem) (base : Addr) : (o : Op) → {p : Bytes} → Payload o p → OutStruct o → Prop
  | .lookup, _, (v : LookupPayload _), out =>
      out.parentGuid = v.parentGuid ∧
      Points mem base v.childName out.childName out.childNameLen
  | .createEntry, _, (v : CreateEntryPayload _), out =>
      out.parentGuid = v.parentGuid ∧ out.childGuid = v.childGuid ∧
      Points mem base v.childName out.childName out.childNameLen ∧
      Points mem base v.layerName out.layerName out.layerNameLen ∧
      out.sequence = v.sequence
  | .hideEntry, _, (v : HideEntryPayload _), out =>
      out.parentGuid = v.parentGuid ∧
      Points mem base v.childName out.childName out.childNameLen ∧
      Points mem base v.layerName out.layerName out.layerNameLen ∧
      out.sequence = v.sequence
  | .deleteEntry, _, (v : DeleteEntryPayload _), out =>
      out.parentGuid = v.parentGuid ∧
      Points mem base v.childName out.childName out.childNameLen ∧
      Points mem base v.layerName out.layerName out.layerNameLen
  | .enumChildren, _, (v : EnumChildrenPayload), out => out.parentGuid = v.parentGuid
  | .createKey, _, (v : CreateKeyPayload _), out =>
      out.guid = v.guid ∧ out.parentGuid = v.parentGuid ∧
      Points mem base v.name out.name out.nameLen ∧ Points mem base v.sd out.sd out.sdLen ∧
      out.volatileKey = v.volatile.toUInt8 ∧ out.symlink = v.symlink.toUInt8
  | .readKey, _, (v : KeyGuidPayload), out => out.guid = v.guid
  | .dropKey, _, (v : KeyGuidPayload), out => out.guid = v.guid
  | .writeKey, _, (v : WriteKeyPayload _), out =>
      out.guid = v.guid ∧ out.fieldMask = v.fieldMask ∧
      (∀ f, v.sd = some f → Points mem base f out.sd out.sdLen) ∧
      (out.sd = 0 ∧ out.sdLen = 0 ↔ v.sd = none) ∧
      out.lastWriteTime = v.lastWriteTime.getD 0
  | .queryValues, _, (v : QueryValuesPayload _), out =>
      out.guid = v.guid ∧ Points mem base v.valueName out.valueName out.valueNameLen ∧
      out.queryAll = v.queryAll.toUInt8
  | .setValue, _, (v : SetValuePayload _), out =>
      out.guid = v.guid ∧ Points mem base v.valueName out.valueName out.valueNameLen ∧
      Points mem base v.layerName out.layerName out.layerNameLen ∧
      out.valueType = v.valueType ∧ Points mem base v.data out.data out.dataLen ∧
      out.sequence = v.sequence ∧ out.expectedSequence = v.expectedSequence
  | .deleteValueEntry, _, (v : DeleteValueEntryPayload _), out =>
      out.guid = v.guid ∧ Points mem base v.valueName out.valueName out.valueNameLen ∧
      Points mem base v.layerName out.layerName out.layerNameLen
  | .setBlanketTombstone, _, (v : SetBlanketTombstonePayload _), out =>
      out.guid = v.guid ∧ Points mem base v.layerName out.layerName out.layerNameLen ∧
      out.set = v.set.toUInt8 ∧ out.sequence = v.sequence
  | .beginTransaction, _, (v : BeginTransactionPayload), out =>
      out.transactionId = v.transactionId ∧ out.mode = v.mode.code
  | .commitTransaction, _, (v : TransactionPayload), out => out.transactionId = v.transactionId
  | .abortTransaction, _, (v : TransactionPayload), out => out.transactionId = v.transactionId
  | .deleteLayer, _, (v : DeleteLayerPayload _), out =>
      Points mem base v.layerName out.name out.nameLen
  | .flush, _, (v : FlushPayload _), out => Points mem base v.hiveName out.name out.nameLen

/-! ## The decoders -/

/-- **Every decoder assigns every field**, and to each the parser's field of the same
meaning. -/
theorem exists_fill (P : Pkm) (mem : Mem) (o : Op) :
    ∃ fill, decoder P mem o = decodeWith P mem o fill ∧
      ∀ s v out, s.Valid mem → s.addr ≠ 0 → Agrees mem s.addr o v (fill s v out) := by
  cases o with
  | lookup => exact ⟨_, rfl, fun s v out hs _ => ⟨rfl, points_lpf hs _⟩⟩
  | createEntry =>
    exact ⟨_, rfl, fun s v out hs _ => ⟨rfl, rfl, points_lpf hs _, points_lpf hs _, rfl⟩⟩
  | hideEntry => exact ⟨_, rfl, fun s v out hs _ => ⟨rfl, points_lpf hs _, points_lpf hs _, rfl⟩⟩
  | deleteEntry => exact ⟨_, rfl, fun s v out hs _ => ⟨rfl, points_lpf hs _, points_lpf hs _⟩⟩
  | enumChildren => exact ⟨_, rfl, fun s v out hs _ => rfl⟩
  | createKey =>
    exact ⟨_, rfl, fun s v out hs _ => ⟨rfl, rfl, points_lpf hs _, points_lpf hs _, rfl, rfl⟩⟩
  | readKey => exact ⟨_, rfl, fun s v out hs _ => rfl⟩
  | dropKey => exact ⟨_, rfl, fun s v out hs _ => rfl⟩
  | writeKey =>
    refine ⟨_, rfl, fun s v out hs hbase => ?_⟩
    obtain ⟨guid, mask, sd, time⟩ := v
    -- an absent descriptor is NULL; an empty one still points into the frame
    cases sd with
    | none =>
      refine ⟨rfl, rfl, fun f hf => ?_, ⟨fun _ => rfl, fun _ => ⟨rfl, rfl⟩⟩, rfl⟩
      exact absurd hf (by simp)
    | some f =>
      refine ⟨rfl, rfl, fun g hg => ?_, ⟨fun h => ?_, fun h => ?_⟩, rfl⟩
      · rw [← Option.some.inj hg]
        exact points_lpf hs f
      · exact absurd (Nat.add_eq_zero_iff.mp h.1).1 hbase
      · exact absurd h (by simp)
  | queryValues => exact ⟨_, rfl, fun s v out hs _ => ⟨rfl, points_lpf hs _, rfl⟩⟩
  | setValue =>
    exact ⟨_, rfl, fun s v out hs _ =>
      ⟨rfl, points_lpf hs _, points_lpf hs _, rfl, points_lpf hs _, rfl, rfl⟩⟩
  | deleteValueEntry => exact ⟨_, rfl, fun s v out hs _ => ⟨rfl, points_lpf hs _, points_lpf hs _⟩⟩
  | setBlanketTombstone => exact ⟨_, rfl, fun s v out hs _ => ⟨rfl, points_lpf hs _, rfl, rfl⟩⟩
  | beginTransaction =>
    exact ⟨_, rfl, fun s v out hs _ => ⟨rfl, P.transactionModeCode_eq v.mode⟩⟩
  | commitTransaction => exact ⟨_, rfl, fun s v out hs _ => rfl⟩
  | abortTransaction => exact ⟨_, rfl, fun s v out hs _ => rfl⟩
  | deleteLayer => exact ⟨_, rfl, fun s v out hs _ => points_lpf hs _⟩
  | flush => exact ⟨_, rfl, fun s v out hs _ => points_lpf hs _⟩

section Decode

variable {P : Pkm} {mem : Mem} {o : Op} {req : RsiRequest}

/-- A decoder that does not get its payload reports why, and leaves the out struct alone. -/
theorem decoder_of_err {e : Errno}
    (hslice : reqPayloadFor mem (some req) (P.opCode o) = .err e) (out : OutStruct o) (env : Env)
    (past : Trace) :
    (exec env (decoder P mem o (some req) (some out)) past).1 = .ret (-1, some out) ∧
      lastErrno (exec env (decoder P mem o (some req) (some out)) past).2 = some e := by
  obtain ⟨fill, hdecoder, -⟩ := exists_fill P mem o
  rw [hdecoder, decodeWith, hslice]
  exact ⟨rfl, rfl⟩

/-- A decoder that does get it does what the parser says. -/
theorem decoder_of_slice {s : Slice} (hs : s.Valid mem) (hbase : s.addr ≠ 0)
    (hslice : reqPayloadFor mem (some req) (P.opCode o) = .ret s) (out : OutStruct o) (env : Env)
    (past : Trace) :
    let r := exec env (decoder P mem o (some req) (some out)) past
    (P.parsePayload o s.bytes = none →
        r.1 = .ret (-1, some out) ∧ lastErrno r.2 = some EBADMSG) ∧
      ∀ v, P.parsePayload o s.bytes = some v →
        ∃ out', r.1 = .ret (0, some out') ∧ Agrees mem s.addr o v out' := by
  obtain ⟨fill, hdecoder, hagrees⟩ := exists_fill P mem o
  refine ⟨fun hnone => ?_, fun v hv => ?_⟩
  · have hshape : decoder P mem o (some req) (some out) = do return (← badMsg, some out) := by
      rw [hdecoder, decodeWith, hslice]
      simp only [Prog.either, hnone]
    rw [hshape]
    exact ⟨rfl, rfl⟩
  · have hshape : decoder P mem o (some req) (some out) = .ret (0, some (fill s v out)) := by
      rw [hdecoder, decodeWith, hslice]
      simp only [Prog.either, hv]
      rfl
    rw [hshape]
    exact ⟨_, rfl, hagrees s v out hs hbase⟩

end Decode

/-- **The payload view.**  A parsed request gives its own decoder the low 32 bits of the
length past the header, counted from there, and any other decoder `EINVAL`. -/
theorem reqPayloadFor_eq_mod {frame : Addr} {len : UInt64} {req : RsiRequest} (P : Pkm)
    (mem : Mem) (o : Op) (hmin : rsiRequestHeaderSize ≤ len.toNat)
    (hpayload : req.payload = frame + rsiRequestHeaderSize)
    (hlen : req.payloadLen = (len - UInt64.ofNat rsiRequestHeaderSize).toUInt32) :
    reqPayloadFor mem (some req) (P.opCode o) =
      if req.opCode = P.opCode16 o then
        .ret (fromRawParts mem (frame + rsiRequestHeaderSize)
          ((len.toNat - rsiRequestHeaderSize) % 2 ^ 32))
      else .err EINVAL := by
  have hnat : req.payloadLen.toNat = (len.toNat - rsiRequestHeaderSize) % 2 ^ 32 := by
    have hle : UInt64.ofNat rsiRequestHeaderSize ≤ len := hmin
    rw [hlen, UInt64.toNat_toUInt32, UInt64.toNat_sub_of_le _ _ hle]
    rfl
  have hne : req.payload ≠ 0 := by
    rw [hpayload]
    exact Nat.succ_ne_zero _
  rw [reqPayloadFor]
  by_cases hop : req.opCode = P.opCode16 o
  · rw [if_pos hop, ← hnat, ← hpayload]
    exact (if_neg (not_not.mpr hop)).trans (if_neg hne)
  · rw [if_neg hop]
    exact if_pos hop

/-- That is the frame past the header, if the payload is shorter than `2 ^ 32` bytes. -/
theorem reqPayloadFor_eq {frame : Addr} {len : UInt64} {req : RsiRequest} (P : Pkm) (mem : Mem)
    (o : Op) (hmin : rsiRequestHeaderSize ≤ len.toNat)
    (hmax : len.toNat < 2 ^ 32 + rsiRequestHeaderSize)
    (hpayload : req.payload = frame + rsiRequestHeaderSize)
    (hlen : req.payloadLen = (len - UInt64.ofNat rsiRequestHeaderSize).toUInt32) :
    reqPayloadFor mem (some req) (P.opCode o) =
      if req.opCode = P.opCode16 o then
        .ret ⟨frame + rsiRequestHeaderSize,
          (readMem mem frame len.toNat).drop rsiRequestHeaderSize⟩
      else .err EINVAL := by
  have hmod : (len.toNat - rsiRequestHeaderSize) % 2 ^ 32 = len.toNat - rsiRequestHeaderSize :=
    Nat.mod_eq_of_lt (by omega)
  rw [reqPayloadFor_eq_mod P mem o hmin hpayload hlen, hmod, drop_readMem mem frame hmin]
  rfl

/-! ## Parsing and decoding -/

/-- The slice a decoder gets is in memory, where the frame is. -/
theorem valid_framePayload (mem : Mem) (frame : Addr) {len : ℕ} (hmin : rsiRequestHeaderSize ≤ len)
    (hmax : len < 2 ^ 32 + rsiRequestHeaderSize) :
    Slice.Valid mem ⟨frame + rsiRequestHeaderSize,
      (readMem mem frame len).drop rsiRequestHeaderSize⟩ := by
  have hlen : ((readMem mem frame len).drop rsiRequestHeaderSize).length =
      len - rsiRequestHeaderSize := by
    rw [List.length_drop, length_readMem]
  refine ⟨?_, ?_⟩
  · rw [hlen]
    exact drop_readMem mem frame hmin
  · rw [hlen]
    omega

/-- What `rsi_parse_request` makes of a header the parser accepts. -/
theorem exec_rsiParseRequest {P : Pkm} {mem : Mem} {frame : Addr} {len : UInt64}
    {h : RsiRequestHeader} (hne : frame ≠ 0)
    (hh : P.parseRsiRequestHeader (readMem mem frame len.toNat) = some h) (prior : RsiRequest)
    (env : Env) (past : Trace) :
    (exec env (rsiParseRequest P mem frame len (some prior)) past).1 =
      .ret (0, some ⟨h.requestId, h.txnId, frame + rsiRequestHeaderSize,
        (len - UInt64.ofNat rsiRequestHeaderSize).toUInt32, h.opCode⟩) := by
  rw [rsiParseRequest, if_neg hne, hh]
  rfl

/-- What `rsi_parse_request` returns, and what it leaves in the out struct. -/
theorem rsiParseRequest_cases (P : Pkm) (mem : Mem) (frame : Addr) (len : UInt64)
    (prior : RsiRequest) (env : Env) (past : Trace) :
    let parsed := (exec env (rsiParseRequest P mem frame len (some prior)) past).1
    parsed = .ret (-1, some prior) ∨
      ∃ h req, P.parseRsiRequestHeader (readMem mem frame len.toNat) = some h ∧
        parsed = .ret (0, some req) ∧ req.opCode = h.opCode ∧
        req.payload = frame + rsiRequestHeaderSize ∧
        req.payloadLen = (len - UInt64.ofNat rsiRequestHeaderSize).toUInt32 := by
  intro parsed
  by_cases hnull : frame = 0
  · refine Or.inl ?_
    show (exec env (rsiParseRequest P mem frame len (some prior)) past).1 = _
    rw [rsiParseRequest, if_pos hnull]
    rfl
  · cases hh : P.parseRsiRequestHeader (readMem mem frame len.toNat) with
    | none =>
      refine Or.inl ?_
      show (exec env (rsiParseRequest P mem frame len (some prior)) past).1 = _
      rw [rsiParseRequest, if_neg hnull, hh]
      rfl
    | some h =>
      exact Or.inr ⟨h, _, rfl, exec_rsiParseRequest hnull hh prior env past, rfl, rfl, rfl⟩

/-- **The decoders refine the parsers, and are all-or-nothing.**  After a parse of a frame
of at most `2 ^ 32 - 1` bytes: a decoder of another kind than the header's fails with
`EINVAL`; the decoder of the header's kind succeeds exactly when the parser accepts the
frame past the header, and fails with `EBADMSG` otherwise; a failure leaves the out
struct as it was, and a success fills in what the parser found. -/
theorem decoders_refine_parsers (P : Pkm) (hheader : P.HeaderChecked) (mem : Mem) (frame : Addr)
    (len : UInt64) (hlen : len.toNat ≤ 2 ^ 32 - 1) (prior : RsiRequest) (env : Env)
    (past : Trace) :
    let bytes := readMem mem frame len.toNat
    let parsed := (exec env (rsiParseRequest P mem frame len (some prior)) past).1
    (∀ out, parsed = .ret (-1, out) → out = some prior) ∧
      ∀ req, parsed = .ret (0, some req) → ∃ h, P.parseRsiRequestHeader bytes = some h ∧
        ∀ (o : Op) (out : OutStruct o) (past' : Trace),
          let r := exec env (decoder P mem o (some req) (some out)) past'
          let payload := bytes.drop rsiRequestHeaderSize
          (h.opCode ≠ P.opCode16 o →
              r.1 = .ret (-1, some out) ∧ lastErrno r.2 = some EINVAL) ∧
            (h.opCode = P.opCode16 o → P.parsePayload o payload = none →
              r.1 = .ret (-1, some out) ∧ lastErrno r.2 = some EBADMSG) ∧
            (h.opCode = P.opCode16 o → ∀ v, P.parsePayload o payload = some v →
              ∃ out', r.1 = .ret (0, some out') ∧
                Agrees mem (frame + rsiRequestHeaderSize) o v out') := by
  intro bytes parsed
  have hcases := rsiParseRequest_cases P mem frame len prior env past
  refine ⟨fun out hout => ?_, fun req hreq => ?_⟩
  · rcases hcases with hparsed | ⟨h, req, -, hparsed, -⟩
    · have heq := Outcome.ret.inj (hout.symm.trans hparsed)
      exact congrArg Prod.snd heq
    · have heq := congrArg Prod.fst (Outcome.ret.inj (hout.symm.trans hparsed))
      exact absurd heq (by simp)
  · rcases hcases with hparsed | ⟨h, req', hh, hparsed, hop, hpayload, hplen⟩
    · have heq := congrArg Prod.fst (Outcome.ret.inj (hreq.symm.trans hparsed))
      exact absurd heq (by simp)
    · have heq := congrArg Prod.snd (Outcome.ret.inj (hreq.symm.trans hparsed))
      obtain rfl := Option.some.inj heq
      refine ⟨h, hh, fun o out past' => ?_⟩
      have hmin : rsiRequestHeaderSize ≤ len.toNat := by
        have hmin := hheader _ _ hh
        rwa [length_readMem] at hmin
      have hmax : len.toNat < 2 ^ 32 + rsiRequestHeaderSize := by omega
      have hslice : reqPayloadFor mem (some req) (P.opCode o) = _ :=
        reqPayloadFor_eq P mem o hmin hmax hpayload hplen
      have hs := valid_framePayload mem frame hmin hmax
      have hbase : frame + rsiRequestHeaderSize ≠ 0 := Nat.succ_ne_zero _
      rw [← hop]
      refine ⟨fun hne => ?_, fun heq => ?_, fun heq => ?_⟩
      · rw [if_neg hne] at hslice
        exact decoder_of_err hslice out env past'
      · rw [if_pos heq] at hslice
        exact (decoder_of_slice hs hbase hslice out env past').1
      · rw [if_pos heq] at hslice
        exact (decoder_of_slice hs hbase hslice out env past').2

/-- A READ_KEY request with id `7`, at address `1000`. -/
def readKeyMem : Mem := fun a =>
  (leBytes 4 38 ++ leBytes 8 7 ++ leBytes 2 7 ++ leBytes 8 0 ++ List.replicate 16 0x33).getD
    (a - 1000) 0

theorem decoders_refine_parsers_readKey :
    Pkm.small.HeaderChecked ∧ (38 : UInt64).toNat ≤ 2 ^ 32 - 1 ∧
      ∃ req : RsiRequest, ∃ out' : RsiKeyGuid,
        (exec .granting (rsiParseRequest .small readKeyMem 1000 38 (some ⟨0, 0, 0, 0, 0⟩)) []).1 =
          .ret (0, some req) ∧
        (exec .granting (rsiRequestReadKey .small readKeyMem (some req) (some ⟨Guid.nil⟩)) []).1 =
          .ret (0, some out') ∧
        out'.guid.bytes = List.replicate 16 0x33 := by
  have hlen : (38 : UInt64).toNat ≤ 2 ^ 32 - 1 := by decide
  obtain ⟨h, hh, hdecode⟩ := (decoders_refine_parsers .small Pkm.small_headerChecked readKeyMem
    1000 38 hlen ⟨0, 0, 0, 0, 0⟩ .granting []).2 _ rfl
  obtain rfl : ⟨7, 7, 0⟩ = h := Option.some.inj (Eq.trans (by rfl) hh)
  obtain ⟨out', hout, hagrees⟩ := (hdecode .readKey ⟨Guid.nil⟩ []).2.2 rfl
    ⟨⟨List.replicate 16 0x33, by decide⟩⟩ rfl
  refine ⟨Pkm.small_headerChecked, hlen, _, out', rfl, hout, ?_⟩
  exact congrArg Guid.bytes hagrees

end Librsi

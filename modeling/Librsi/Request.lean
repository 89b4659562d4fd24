import Librsi.Pkm
import Librsi.System

/-!
# `<rsi/request.h>`: receiving and decoding requests

`rsiParseRequest` splits a frame into a header and a borrowed view of its payload, and
eighteen decoders turn the payload into flat structs.  The decoders share one shape,
`decodeWith`: check that the request is of the decoder's own kind, rebuild the payload
slice, check the out pointer, run the `lcs-core` parser, assign the fields.  What each
decoder says for itself is its kind and its assignments.

Pointers are addresses here, because the decoders hand out pointers into the frame.  An
out parameter is its prior content, or `none` for NULL, and comes back beside the return
value; the assignments are made to the prior content, so a field that a decoder forgot
would still hold it.
-/

namespace Librsi

open WireFormat Interaction

/-! ## Memory -/

/-- An address.  NULL is `0`. -/
abbrev Addr := ℕ

/-- The bytes in memory. -/
abbrev Mem := Addr → UInt8

/-- `n` bytes of memory, from `a` on. -/
def readMem (mem : Mem) (a : Addr) (n : ℕ) : Bytes := (List.range n).map fun i => mem (a + i)

/-- A borrowed `&[u8]`: where it is and what is there. -/
structure Slice where
  addr : Addr
  bytes : Bytes

/-- `core::slice::from_raw_parts`. -/
def fromRawParts (mem : Mem) (a : Addr) (n : ℕ) : Slice := ⟨a, readMem mem a n⟩

/-! ## Shared plumbing -/

/-- `struct rsi_request`. -/
structure RsiRequest where
  requestId : UInt64
  txnId : UInt64
  payload : Addr
  payloadLen : UInt32
  opCode : UInt16

/-- `EBADMSG` sentinel for a malformed frame. -/
def badMsg : Sys CInt := failErrno EBADMSG

/-- `EINVAL` sentinel for a NULL argument. -/
def einval : Sys CInt := failErrno EINVAL

/-- Borrow the payload of a request, after checking that the decoder is the one for the
request's op code. -/
def reqPayloadFor (mem : Mem) (req : Option RsiRequest) (expectedOp : UInt32) : Sys Slice :=
  match req with
  | none => .err EINVAL
  | some req =>
      if req.opCode ≠ expectedOp.toUInt16 then .err EINVAL
      else if req.payload = 0 then
        -- `&[]`: the address of an empty slice is not NULL, and nothing else is known of it
        if req.payloadLen = 0 then .ret ⟨1, []⟩ else .err EINVAL
      else .ret (fromRawParts mem req.payload req.payloadLen.toNat)

/-- A length-prefixed field as a C `(ptr, len)` pair. -/
def lpf (s : Slice) (f : Field s.bytes) : Addr × UInt32 := (s.addr + f.off, UInt32.ofNat f.len)

/-- `rsi_parse_request`. -/
def rsiParseRequest (P : Pkm) (mem : Mem) (frame : Addr) (len : UInt64)
    (out : Option RsiRequest) : Sys (CInt × Option RsiRequest) :=
  match out with
  | none => do return (← einval, none)
  | some out =>
      if frame = 0 then do return (← einval, some out)
      else
        match P.parseRsiRequestHeader (readMem mem frame len.toNat) with
        | some h =>
            return (0, some { out with
              requestId := h.requestId
              txnId := h.txnId
              opCode := h.opCode
              payload := frame + rsiRequestHeaderSize
              payloadLen := (len - UInt64.ofNat rsiRequestHeaderSize).toUInt32 })
        | none => do return (← badMsg, some out)

/-- The shape the decoders share.  `fill` makes a decoder's assignments. -/
def decodeWith {Out : Type} (P : Pkm) (mem : Mem) (o : Op)
    (fill : (s : Slice) → Payload o s.bytes → Out → Out)
    (req : Option RsiRequest) (out : Option Out) : Sys (CInt × Option Out) :=
  (reqPayloadFor mem req (P.opCode o)).either
    (fun s =>
      match out with
      | none => do return (← einval, none)
      | some out =>
          match P.parsePayload o s.bytes with
          | some v => return (0, some (fill s v out))
          | none => do return (← badMsg, some out))
    (fun e => do return (← failErrno e, out))

/-! ## The decoders -/

variable (P : Pkm) (mem : Mem)

structure RsiLookup where
  parentGuid : Guid
  childName : Addr
  childNameLen : UInt32

def rsiRequestLookup : Option RsiRequest → Option RsiLookup → Sys (CInt × Option RsiLookup) :=
  decodeWith P mem .lookup fun s (v : LookupPayload s.bytes) out =>
    { out with
      parentGuid := v.parentGuid
      childName := (lpf s v.childName).1
      childNameLen := (lpf s v.childName).2 }

structure RsiCreateEntry where
  parentGuid : Guid
  childGuid : Guid
  childName : Addr
  childNameLen : UInt32
  layerName : Addr
  layerNameLen : UInt32
  sequence : UInt64

def rsiRequestCreateEntry :
    Option RsiRequest → Option RsiCreateEntry → Sys (CInt × Option RsiCreateEntry) :=
  decodeWith P mem .createEntry fun s (v : CreateEntryPayload s.bytes) out =>
    { out with
      parentGuid := v.parentGuid
      childGuid := v.childGuid
      childName := (lpf s v.childName).1
      childNameLen := (lpf s v.childName).2
      layerName := (lpf s v.layerName).1
      layerNameLen := (lpf s v.layerName).2
      sequence := v.sequence }

structure RsiHideEntry where
  parentGuid : Guid
  childName : Addr
  childNameLen : UInt32
  layerName : Addr
  layerNameLen : UInt32
  sequence : UInt64

def rsiRequestHideEntry :
    Option RsiRequest → Option RsiHideEntry → Sys (CInt × Option RsiHideEntry) :=
  decodeWith P mem .hideEntry fun s (v : HideEntryPayload s.bytes) out =>
    { out with
      parentGuid := v.parentGuid
      childName := (lpf s v.childName).1
      childNameLen := (lpf s v.childName).2
      layerName := (lpf s v.layerName).1
      layerNameLen := (lpf s v.layerName).2
      sequence := v.sequence }

structure RsiDeleteEntry where
  parentGuid : Guid
  childName : Addr
  childNameLen : UInt32
  layerName : Addr
  layerNameLen : UInt32

def rsiRequestDeleteEntry :
    Option RsiRequest → Option RsiDeleteEntry → Sys (CInt × Option RsiDeleteEntry) :=
  decodeWith P mem .deleteEntry fun s (v : DeleteEntryPayload s.bytes) out =>
    { out with
      parentGuid := v.parentGuid
      childName := (lpf s v.childName).1
      childNameLen := (lpf s v.childName).2
      layerName := (lpf s v.layerName).1
      layerNameLen := (lpf s v.layerName).2 }

structure RsiEnumChildren where
  parentGuid : Guid

def rsiRequestEnumChildren :
    Option RsiRequest → Option RsiEnumChildren → Sys (CInt × Option RsiEnumChildren) :=
  decodeWith P mem .enumChildren fun _ (v : EnumChildrenPayload) out =>
    { out with parentGuid := v.parentGuid }

structure RsiCreateKey where
  guid : Guid
  parentGuid : Guid
  name : Addr
  nameLen : UInt32
  sd : Addr
  sdLen : UInt32
  volatileKey : UInt8
  symlink : UInt8

def rsiRequestCreateKey :
    Option RsiRequest → Option RsiCreateKey → Sys (CInt × Option RsiCreateKey) :=
  decodeWith P mem .createKey fun s (v : CreateKeyPayload s.bytes) out =>
    { out with
      guid := v.guid
      parentGuid := v.parentGuid
      name := (lpf s v.name).1
      nameLen := (lpf s v.name).2
      sd := (lpf s v.sd).1
      sdLen := (lpf s v.sd).2
      volatileKey := v.volatile.toUInt8
      symlink := v.symlink.toUInt8 }

/-- The out struct of READ_KEY and DROP_KEY. -/
structure RsiKeyGuid where
  guid : Guid

def rsiRequestReadKey :
    Option RsiRequest → Option RsiKeyGuid → Sys (CInt × Option RsiKeyGuid) :=
  decodeWith P mem .readKey fun _ (v : KeyGuidPayload) out => { out with guid := v.guid }

def rsiRequestDropKey :
    Option RsiRequest → Option RsiKeyGuid → Sys (CInt × Option RsiKeyGuid) :=
  decodeWith P mem .dropKey fun _ (v : KeyGuidPayload) out => { out with guid := v.guid }

structure RsiWriteKey where
  guid : Guid
  fieldMask : UInt32
  sd : Addr
  sdLen : UInt32
  lastWriteTime : UInt64

/-- The one decoder with a branch: a descriptor the parser does not report is NULL. -/
def rsiRequestWriteKey :
    Option RsiRequest → Option RsiWriteKey → Sys (CInt × Option RsiWriteKey) :=
  decodeWith P mem .writeKey fun s (v : WriteKeyPayload s.bytes) out =>
    let out := { out with guid := v.guid, fieldMask := v.fieldMask }
    let out :=
      match v.sd with
      | some f => { out with sd := (lpf s f).1, sdLen := (lpf s f).2 }
      | none => { out with sd := 0, sdLen := 0 }
    { out with lastWriteTime := v.lastWriteTime.getD 0 }

structure RsiQueryValues where
  guid : Guid
  valueName : Addr
  valueNameLen : UInt32
  queryAll : UInt8

def rsiRequestQueryValues :
    Option RsiRequest → Option RsiQueryValues → Sys (CInt × Option RsiQueryValues) :=
  decodeWith P mem .queryValues fun s (v : QueryValuesPayload s.bytes) out =>
    { out with
      guid := v.guid
      valueName := (lpf s v.valueName).1
      valueNameLen := (lpf s v.valueName).2
      queryAll := v.queryAll.toUInt8 }

structure RsiSetValue where
  guid : Guid
  valueName : Addr
  valueNameLen : UInt32
  layerName : Addr
  layerNameLen : UInt32
  valueType : UInt32
  data : Addr
  dataLen : UInt32
  sequence : UInt64
  expectedSequence : UInt64

def rsiRequestSetValue :
    Option RsiRequest → Option RsiSetValue → Sys (CInt × Option RsiSetValue) :=
  decodeWith P mem .setValue fun s (v : SetValuePayload s.bytes) out =>
    { out with
      guid := v.guid
      valueName := (lpf s v.valueName).1
      valueNameLen := (lpf s v.valueName).2
      layerName := (lpf s v.layerName).1
      layerNameLen := (lpf s v.layerName).2
      valueType := v.valueType
      data := (lpf s v.data).1
      dataLen := (lpf s v.data).2
      sequence := v.sequence
      expectedSequence := v.expectedSequence }

structure RsiDeleteValueEntry where
  guid : Guid
  valueName : Addr
  valueNameLen : UInt32
  layerName : Addr
  layerNameLen : UInt32

def rsiRequestDeleteValueEntry :
    Option RsiRequest → Option RsiDeleteValueEntry → Sys (CInt × Option RsiDeleteValueEntry) :=
  decodeWith P mem .deleteValueEntry fun s (v : DeleteValueEntryPayload s.bytes) out =>
    { out with
      guid := v.guid
      valueName := (lpf s v.valueName).1
      valueNameLen := (lpf s v.valueName).2
      layerName := (lpf s v.layerName).1
      layerNameLen := (lpf s v.layerName).2 }

structure RsiSetBlanketTombstone where
  guid : Guid
  layerName : Addr
  layerNameLen : UInt32
  set : UInt8
  sequence : UInt64

def rsiRequestSetBlanketTombstone : Option RsiRequest → Option RsiSetBlanketTombstone →
    Sys (CInt × Option RsiSetBlanketTombstone) :=
  decodeWith P mem .setBlanketTombstone fun s (v : SetBlanketTombstonePayload s.bytes) out =>
    { out with
      guid := v.guid
      layerName := (lpf s v.layerName).1
      layerNameLen := (lpf s v.layerName).2
      set := v.set.toUInt8
      sequence := v.sequence }

structure RsiBeginTransaction where
  transactionId : UInt64
  mode : UInt32

def rsiRequestBeginTransaction :
    Option RsiRequest → Option RsiBeginTransaction → Sys (CInt × Option RsiBeginTransaction) :=
  decodeWith P mem .beginTransaction fun _ (v : BeginTransactionPayload) out =>
    { out with transactionId := v.transactionId, mode := P.transactionModeCode v.mode }

/-- The out struct of COMMIT_TRANSACTION and ABORT_TRANSACTION. -/
structure RsiTransaction where
  transactionId : UInt64

def rsiRequestCommitTransaction :
    Option RsiRequest → Option RsiTransaction → Sys (CInt × Option RsiTransaction) :=
  decodeWith P mem .commitTransaction fun _ (v : TransactionPayload) out =>
    { out with transactionId := v.transactionId }

def rsiRequestAbortTransaction :
    Option RsiRequest → Option RsiTransaction → Sys (CInt × Option RsiTransaction) :=
  decodeWith P mem .abortTransaction fun _ (v : TransactionPayload) out =>
    { out with transactionId := v.transactionId }

/-- The out struct of DELETE_LAYER and FLUSH. -/
structure RsiName where
  name : Addr
  nameLen : UInt32

def rsiRequestDeleteLayer :
    Option RsiRequest → Option RsiName → Sys (CInt × Option RsiName) :=
  decodeWith P mem .deleteLayer fun s (v : DeleteLayerPayload s.bytes) out =>
    { out with name := (lpf s v.layerName).1, nameLen := (lpf s v.layerName).2 }

def rsiRequestFlush :
    Option RsiRequest → Option RsiName → Sys (CInt × Option RsiName) :=
  decodeWith P mem .flush fun s (v : FlushPayload s.bytes) out =>
    { out with name := (lpf s v.hiveName).1, nameLen := (lpf s v.hiveName).2 }

end Librsi

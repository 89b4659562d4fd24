import Librsi.Response.Responders

/-!
# One call of a responder

A responder's C arguments denote a value of its layout (`Args.value`), provided no
pointer dangles (`Args.PtrsOk`).  This file says what each of the six functions does in
those terms, in one statement: it accepts exactly the arguments whose pointers are fine
and whose value obeys the documented rules, and the frame it writes is the layout of
that value (`conforms_respond`, `conforms_exec`).  Everything said later about single
calls and about whole sessions is read off from there.
-/

namespace Librsi

open WireFormat Interaction Layout

/-! ## Arguments and what they denote -/

structure LookupArgs where
  entries : Arr RsiPathEntry
  metadata : Arr RsiKeyMetadata

structure EnumChildrenArgs where
  children : Arr RsiChildEntry
  metadata : Arr RsiKeyMetadata

structure ReadKeyArgs where
  name : Arr UInt8
  parentGuid : GuidPtr
  sd : Arr UInt8
  volatileKey : UInt8
  symlink : UInt8
  lastWriteTime : UInt64

structure QueryValuesArgs where
  entries : Arr RsiValueEntry
  blankets : Arr RsiBlanketEntry

/-- The arguments of each payload responder, besides the descriptor and the request. -/
abbrev Args : Kind → Type
  | .lookup => LookupArgs
  | .enumChildren => EnumChildrenArgs
  | .readKey => ReadKeyArgs
  | .deleteLayer => GuidArr
  | .queryValues => QueryValuesArgs

/-- The GUID behind a pointer that is not NULL. -/
def GuidPtr.guid (p : GuidPtr) : Guid :=
  match h : p.ptr with
  | some m => ⟨m.take 16, List.length_take_of_le (p.valid m h)⟩
  | none => Guid.nil

namespace Args

/-- The value the arguments denote. -/
def value : {k : Kind} → Args k → k.Result
  | .lookup, a => ⟨a.entries.items.map RsiPathEntry.wire, a.metadata.items.map RsiKeyMetadata.wire⟩
  | .enumChildren, a =>
      ⟨a.children.items.map RsiChildEntry.wire, a.metadata.items.map RsiKeyMetadata.wire⟩
  | .readKey, a =>
      ⟨a.name.items, a.parentGuid.guid, a.sd.items, a.volatileKey, a.symlink, a.lastWriteTime⟩
  | .deleteLayer, a => ⟨a.items⟩
  | .queryValues, a =>
      ⟨a.entries.items.map RsiValueEntry.wire, a.blankets.items.map RsiBlanketEntry.wire⟩

/-- No pointer is NULL where something is to be read. -/
def PtrsOk : {k : Kind} → Args k → Prop
  | .lookup, a =>
      (¬ a.entries.Dangling ∧ ∀ e ∈ a.entries.items, ¬ e.layer.Dangling) ∧
        ¬ a.metadata.Dangling ∧ ∀ m ∈ a.metadata.items, ¬ m.sd.Dangling
  | .enumChildren, a =>
      (¬ a.children.Dangling ∧ ∀ c ∈ a.children.items, ¬ c.childName.Dangling ∧
          ¬ c.entries.Dangling ∧ ∀ e ∈ c.entries.items, ¬ e.layer.Dangling) ∧
        ¬ a.metadata.Dangling ∧ ∀ m ∈ a.metadata.items, ¬ m.sd.Dangling
  | .readKey, a => a.parentGuid.ptr ≠ none ∧ ¬ a.name.Dangling ∧ ¬ a.sd.Dangling
  | .deleteLayer, a => ¬ a.Dangling
  | .queryValues, a =>
      (¬ a.entries.Dangling ∧ ∀ e ∈ a.entries.items,
          ¬ e.valueName.Dangling ∧ ¬ e.layerName.Dangling ∧ ¬ e.data.Dangling) ∧
        ¬ a.blankets.Dangling ∧ ∀ b ∈ a.blankets.items, ¬ b.layerName.Dangling

end Args

/-! ## The payload responders -/

section Payload

variable (P : Pkm) (fd : CInt)

/-- The payload responder of each kind. -/
def respond : (k : Kind) → Option RsiRequest → Args k → Sys CInt
  | .lookup, req, a => rsiRespondLookup P fd req a.entries a.metadata
  | .enumChildren, req, a => rsiRespondEnumChildren P fd req a.children a.metadata
  | .readKey, req, a => rsiRespondReadKey P fd req a.name a.parentGuid a.sd a.volatileKey
      a.symlink a.lastWriteTime
  | .deleteLayer, req, a => rsiRespondDeleteLayer P fd req a
  | .queryValues, req, a => rsiRespondQueryValues P fd req a.entries a.blankets

/-- When a payload responder accepts. -/
def Accepts {k : Kind} (req : Option RsiRequest) (a : Args k) : Prop :=
  RequestOk P k.op req ∧ a.PtrsOk ∧ k.Rules a.value

/-- What it writes when it does. -/
def payloadFrame {k : Kind} (req : Option RsiRequest) (a : Args k) : Bytes :=
  responseFrame P req P.rsiOk (k.layout.put a.value)

variable {P fd}

/-! ### How each is put together

A payload responder is a validation and an encoder.  `Parts` is the pair of them with what
has been proved about each, for fixed arguments: what validation computes, what the encoder
appends and that it appends it through `try_extend`, and that their two conditions together
are the pointers and the rules. -/

structure Parts {k : Kind} (a : Args k) where
  {α β : Type}
  validate : Sys α
  encode : α → FrameWriter → Sys FrameWriter
  view : α → β
  seen : β
  valid : Prop
  encodable : Prop
  computes : Computes view validate valid seen
  encodes : valid → ∀ x, view x = seen → Encodes (encode x) encodable (k.layout.put a.value)
  grows : ∀ x, Grows (encode x)
  accepts_iff : valid ∧ encodable ↔ a.PtrsOk ∧ k.Rules a.value

def lookupParts (a : Args .lookup) : Parts a where
  validate := validateLookupMetadata a.entries a.metadata
  encode _ w := encodePathEntryBlock w a.entries >>= (encodeMetadataBlock · a.metadata)
  view := id
  seen := ()
  valid := _
  encodable := _
  computes := computes_validateLookupMetadata a.entries a.metadata
  encodes _ _ _ := (encodes_pathEntryBlock a.entries).seq (encodes_metadataBlock a.metadata)
  grows _ := (grows_pathEntryBlock a.entries).seq (grows_metadataBlock a.metadata)
  accepts_iff := by
    constructor
    · rintro ⟨⟨⟨hentries, htarget⟩, hmetadata, hcovers⟩, ⟨-, henc⟩, -, hmeta⟩
      refine ⟨⟨⟨hentries, fun e he => (henc e he).1⟩, hmetadata, fun m hm => (hmeta m hm).1⟩,
        ⟨?_, ?_, hcovers⟩⟩
      · exact List.forall_mem_map.mpr htarget
      · exact List.forall_mem_map.mpr fun m hm => (hmeta m hm).2
    · rintro ⟨⟨⟨hentries, hlayer⟩, hmetadata, hsd⟩, htarget, hflags, hcovers⟩
      have htarget := List.forall_mem_map.mp htarget
      have hflags := List.forall_mem_map.mp hflags
      exact ⟨⟨⟨hentries, htarget⟩, hmetadata, hcovers⟩,
        ⟨hentries, fun e he => ⟨hlayer e he, htarget e he⟩⟩,
        hmetadata, fun m hm => ⟨hsd m hm, hflags m hm⟩⟩

/-- One child, as `rsi_respond_enum_children` encodes it. -/
def encodeChild (w : FrameWriter) (c : RsiChildEntry) : Sys FrameWriter := do
  let w ← w.lpf c.childName
  encodePathEntryBlock w c.entries

theorem encodes_child (c : RsiChildEntry) :
    Encodes (encodeChild · c)
      (¬ c.childName.Dangling ∧ ¬ c.entries.Dangling ∧ ∀ e ∈ c.entries.items, e.Encodable)
      (childEntry.put c.wire) :=
  (encodes_lpf c.childName).seq (encodes_pathEntryBlock c.entries)

theorem grows_child (c : RsiChildEntry) : Grows (encodeChild · c) :=
  (grows_lpf c.childName).seq (grows_pathEntryBlock c.entries)

theorem flatMap_entries_wire (children : Arr RsiChildEntry) :
    (children.items.map RsiChildEntry.wire).flatMap ChildEntry.entries =
      (flatEntries children).map RsiPathEntry.wire := by
  rw [List.flatMap_map, flatEntries, List.map_flatMap]
  rfl

def enumChildrenParts (a : Args .enumChildren) : Parts a where
  validate := validateEnumChildrenMetadata a.children a.metadata
  encode _ w := (w.u32 a.children.count >>= fun w => a.children.items.foldlM encodeChild w) >>=
    (encodeMetadataBlock · a.metadata)
  view := id
  seen := ()
  valid := EnumChildrenValid a.children a.metadata
  encodable := _
  computes := computes_validateEnumChildrenMetadata a.children a.metadata
  encodes h _ _ := (encodes_counted h.1.1 encodes_child).seq (encodes_metadataBlock a.metadata)
  grows _ := ((grows_raw _).seq (Grows.foldlM grows_child _)).seq (grows_metadataBlock a.metadata)
  accepts_iff := by
    show EnumChildrenValid a.children a.metadata ∧ _ ↔ _ ∧ EnumChildrenResult.Rules ⟨_, _⟩
    constructor
    · rintro ⟨⟨⟨hchildren, htarget⟩, hmetadata, hcovers⟩, henc, -, hmeta⟩
      refine ⟨⟨⟨hchildren, fun c hc => ?_⟩, hmetadata, fun m hm => (hmeta m hm).1⟩, ⟨?_, ?_, ?_⟩⟩
      · obtain ⟨hname, hentries, hlayer⟩ := henc c hc
        exact ⟨hname, hentries, fun e he => (hlayer e he).1⟩
      · refine List.forall_mem_map.mpr fun c hc => ?_
        exact List.forall_mem_map.mpr (htarget c hc).2
      · exact List.forall_mem_map.mpr fun m hm => (hmeta m hm).2
      · rw [flatMap_entries_wire]
        exact hcovers
    · rintro ⟨⟨⟨hchildren, hptrs⟩, hmetadata, hsd⟩, htarget, hflags, hcovers⟩
      rw [flatMap_entries_wire] at hcovers
      have htarget := fun c hc => List.forall_mem_map.mp (List.forall_mem_map.mp htarget c hc)
      have hflags := List.forall_mem_map.mp hflags
      refine ⟨⟨⟨hchildren, fun c hc => ⟨(hptrs c hc).2.1, htarget c hc⟩⟩, hmetadata, hcovers⟩,
        fun c hc => ?_, hmetadata, fun m hm => ⟨hsd m hm, hflags m hm⟩⟩
      obtain ⟨hname, hentries, hlayer⟩ := hptrs c hc
      exact ⟨hname, hentries, fun e he => ⟨hlayer e he, htarget c hc e he⟩⟩

/-- Reading the parent GUID makes no call. -/
theorem computes_parentGuid (p : GuidPtr) :
    Computes (List.take 16) (okOr EINVAL p.ptr) (p.ptr ≠ none) p.guid.bytes := by
  obtain ⟨ptr, valid⟩ := p
  cases ptr with
  | none => exact Computed.einval ReserveOnly.nil reserveFailed_nil fun h => h rfl
  | some m => exact Computed.ret ReserveOnly.nil reserveFailed_nil (by simp) rfl

def readKeyParts (a : Args .readKey) : Parts a where
  validate := okOr EINVAL a.parentGuid.ptr
  encode parent w := w.lpf a.name >>= fun w => w.raw (parent.take 16) >>= fun w =>
    w.lpf a.sd >>= fun w => check (BoolRule a.volatileKey) >>= fun _ =>
    check (BoolRule a.symlink) >>= fun _ => w.u8 a.volatileKey >>= fun w =>
    w.u8 a.symlink >>= fun w => w.u64 a.lastWriteTime
  view := List.take 16
  seen := a.parentGuid.guid.bytes
  valid := a.parentGuid.ptr ≠ none
  encodable := ¬ a.name.Dangling ∧ ¬ a.sd.Dangling ∧ BoolRule a.volatileKey ∧ BoolRule a.symlink
  computes := computes_parentGuid a.parentGuid
  encodes := by
    intro _ parent hparent
    rw [hparent]
    refine ((encodes_lpf a.name).seq ((encodes_raw a.parentGuid.guid.bytes).seq
      ((encodes_lpf a.sd).seq (Encodes.require _ (Encodes.require _
        ((encodes_u8 a.volatileKey).seq ((encodes_u8 a.symlink).seq
          (encodes_u64 a.lastWriteTime)))))))).congr ?_ fun _ => rfl
    simp
  grows _ := (grows_lpf a.name).seq ((grows_raw _).seq ((grows_lpf a.sd).seq
    (Grows.require _ (Grows.require _ ((grows_raw _).seq ((grows_raw _).seq (grows_raw _)))))))
  accepts_iff := by
    constructor
    · rintro ⟨hparent, hname, hsd, hvolatile, hsymlink⟩
      exact ⟨⟨hparent, hname, hsd⟩, hvolatile, hsymlink⟩
    · rintro ⟨⟨hparent, hname, hsd⟩, hvolatile, hsymlink⟩
      exact ⟨hparent, hname, hsd, hvolatile, hsymlink⟩

def deleteLayerParts (a : Args .deleteLayer) : Parts a where
  validate := orphanedGuidBytes a
  encode bytes w := w.u32 a.count >>= (·.raw bytes)
  view := id
  seen := a.items.flatMap Guid.bytes
  valid := _
  encodable := True
  computes := computes_orphanedGuidBytes a
  encodes := by
    intro h bytes hbytes
    refine ((encodes_u32 a.count).seq (encodes_raw bytes)).congr (by simp) fun _ => ?_
    have hcount : UInt32.ofNat a.items.length = a.count :=
      ofNat_eq_of_eq_toNat (GuidArr.items_spec h.1).1
    rw [show bytes = a.items.flatMap Guid.bytes from hbytes, ← hcount]
    rfl
  grows bytes := (grows_raw _).seq (grows_raw bytes)
  accepts_iff := by
    constructor
    · rintro ⟨⟨hptr, hnil, hnodup⟩, -⟩
      exact ⟨hptr, fun g hg h => hnil (h ▸ hg), hnodup⟩
    · rintro ⟨hptr, hnonzero, hnodup⟩
      exact ⟨⟨hptr, fun h => hnonzero _ h rfl, hnodup⟩, trivial⟩

/-- One value, as `rsi_respond_query_values` encodes it. -/
def encodeValue (w : FrameWriter) (e : RsiValueEntry) : Sys FrameWriter := do
  let w ← w.lpf e.valueName
  let w ← w.lpf e.layerName
  let w ← w.u32 e.valueType
  let w ← w.lpf e.data
  w.u64 e.sequence

theorem encodes_value (e : RsiValueEntry) :
    Encodes (encodeValue · e)
      (¬ e.valueName.Dangling ∧ ¬ e.layerName.Dangling ∧ ¬ e.data.Dangling)
      (valueEntry.put e.wire) := by
  refine ((encodes_lpf e.valueName).seq ((encodes_lpf e.layerName).seq
    ((encodes_u32 e.valueType).seq ((encodes_lpf e.data).seq
      (encodes_u64 e.sequence))))).congr ?_ fun _ => rfl
  simp

theorem grows_value (e : RsiValueEntry) : Grows (encodeValue · e) :=
  (grows_lpf e.valueName).seq ((grows_lpf e.layerName).seq ((grows_raw _).seq
    ((grows_lpf e.data).seq (grows_raw _))))

/-- One blanket, as `rsi_respond_query_values` encodes it. -/
def encodeBlanket (w : FrameWriter) (b : RsiBlanketEntry) : Sys FrameWriter := do
  let w ← w.lpf b.layerName
  w.u64 b.sequence

theorem encodes_blanket (b : RsiBlanketEntry) :
    Encodes (encodeBlanket · b) (¬ b.layerName.Dangling) (blanketEntry.put b.wire) :=
  ((encodes_lpf b.layerName).seq (encodes_u64 b.sequence)).congr (iff_of_eq (and_true _))
    fun _ => rfl

theorem grows_blanket (b : RsiBlanketEntry) : Grows (encodeBlanket · b) :=
  (grows_lpf b.layerName).seq (grows_raw _)

def queryValuesParts (a : Args .queryValues) : Parts a where
  validate := check (¬ a.entries.Dangling) >>= fun _ => check (¬ a.blankets.Dangling)
  encode _ w := (w.u32 a.entries.count >>= fun w => a.entries.items.foldlM encodeValue w) >>=
    fun w => w.u32 a.blankets.count >>= fun w => a.blankets.items.foldlM encodeBlanket w
  view := id
  seen := ()
  valid := ¬ a.entries.Dangling ∧ ¬ a.blankets.Dangling
  encodable := _
  computes := (Computes.check _).bind fun _ _ => Computes.check _
  encodes h _ _ := (encodes_counted h.1 encodes_value).seq (encodes_counted h.2 encodes_blanket)
  grows _ := ((grows_raw _).seq (Grows.foldlM grows_value _)).seq
    ((grows_raw _).seq (Grows.foldlM grows_blanket _))
  accepts_iff := by
    constructor
    · rintro ⟨⟨hentries, hblankets⟩, he, hb⟩
      exact ⟨⟨⟨hentries, he⟩, hblankets, hb⟩, trivial⟩
    · rintro ⟨⟨⟨hentries, he⟩, hblankets, hb⟩, -⟩
      exact ⟨⟨hentries, hblankets⟩, he, hb⟩

/-- The parts of each payload responder. -/
def parts : {k : Kind} → (a : Args k) → Parts a
  | .lookup, a => lookupParts a
  | .enumChildren, a => enumChildrenParts a
  | .readKey, a => readKeyParts a
  | .deleteLayer, a => deleteLayerParts a
  | .queryValues, a => queryValuesParts a

variable (P fd)

/-- **The shape of a payload responder.**  All its early returns are moved to the end, where
`send` is. -/
theorem respond_eq (k : Kind) (req : Option RsiRequest) (a : Args k) :
    respond P fd k req a = send fd (prepare P k.op req (parts a).validate (parts a).encode) := by
  cases k with
  | lookup =>
    simp only [respond, rsiRespondLookup, Kind.op, parts, lookupParts, prepare, bind_assoc,
      reportErrno_bind, send_bind, reportErrno_finishAndSend]
  | enumChildren =>
    simp only [respond, rsiRespondEnumChildren, Kind.op, parts, enumChildrenParts, prepare,
      bind_assoc, reportErrno_bind, send_bind, reportErrno_finishAndSend]
    rfl
  | readKey =>
    simp only [respond, rsiRespondReadKey, Kind.op, parts, readKeyParts, prepare, bind_assoc,
      reportErrno_bind, send_bind, reportErrno_finishAndSend, requireBool_eq]
  | deleteLayer =>
    simp only [respond, rsiRespondDeleteLayer, Kind.op, parts, deleteLayerParts, prepare,
      bind_assoc, reportErrno_bind, send_bind, reportErrno_finishAndSend]
  | queryValues =>
    simp only [respond, rsiRespondQueryValues, Kind.op, parts, queryValuesParts, prepare,
      bind_assoc, reportErrno_bind, send_bind, reportErrno_finishAndSend, requireArray_eq]
    rfl

/-- **What a payload responder does.** -/
theorem conforms_respond (k : Kind) (req : Option RsiRequest) (a : Args k) :
    (respond P fd k req a).All (Conforms fd (Accepts P req a) (payloadFrame P req a)) := by
  have hprepared := prepared_payload (P := P) k.op req (parts a).computes (parts a).encodes
  rw [(parts a).accepts_iff] at hprepared
  rw [respond_eq]
  exact conforms_send hprepared

theorem rsiRespondStatus_eq_send (req : Option RsiRequest) (status : UInt32) :
    rsiRespondStatus P fd req status = send fd (prepareStatus P req status) := by
  simp only [rsiRespondStatus, prepareStatus, reportErrno_bind, send_bind, reportErrno_writeFrame,
    buildStatusFrame_eq]
  rfl

theorem conforms_status (req : Option RsiRequest) (status : UInt32) :
    (rsiRespondStatus P fd req status).All
      (Conforms fd (StatusOk P req status) (responseFrame P req status [])) := by
  rw [rsiRespondStatus_eq_send]
  exact conforms_send (prepared_status req status)

end Payload

/-! ## All six -/

/-- One call of one of the six responders. -/
inductive RespondCall where
  | status (req : Option RsiRequest) (code : UInt32)
  | payload (k : Kind) (req : Option RsiRequest) (args : Args k)

namespace RespondCall

/-- The request it answers. -/
def req : RespondCall → Option RsiRequest
  | .status req _ => req
  | .payload _ req _ => req

/-- The kind of payload it carries, if it carries one. -/
def kind? : RespondCall → Option Kind
  | .status _ _ => none
  | .payload k _ _ => some k

/-- The status it answers with. -/
def answeredStatus (P : Pkm) : RespondCall → UInt32
  | .status _ code => code
  | .payload _ _ _ => P.rsiOk

/-- What comes behind the header. -/
def body : RespondCall → Bytes
  | .status _ _ => []
  | .payload k _ args => k.layout.put args.value

/-- The call itself. -/
def exec (P : Pkm) (fd : CInt) : RespondCall → Sys CInt
  | .status req code => rsiRespondStatus P fd req code
  | .payload k req args => respond P fd k req args

/-- When it is accepted. -/
def Accepted (P : Pkm) : RespondCall → Prop
  | .status req code => StatusOk P req code
  | .payload _ req args => Accepts P req args

/-- The frame it writes if it is accepted. -/
def frame (P : Pkm) (call : RespondCall) : Bytes :=
  responseFrame P call.req (call.answeredStatus P) call.body

/-- **What a call does**: it prepares its frame, and if that succeeds, writes it once. -/
theorem conforms_exec (P : Pkm) (fd : CInt) (call : RespondCall) :
    (call.exec P fd).All (Conforms fd (call.Accepted P) (call.frame P)) := by
  cases call with
  | status req code => exact conforms_status P fd req code
  | payload k req args => exact conforms_respond P fd k req args

end RespondCall

end Librsi

import Librsi.Request
import Librsi.Response.Encoding
import Librsi.Response.Validation

/-!
# The responders

The six `rsi_respond_*` functions.  Each prepares a frame and sends it: `prepare` is the
part that can be rejected, and `send` is the one `write` at the end.  A payload responder
checks the request, validates its arguments, encodes them behind an 18-byte placeholder
and patches the header in; the status responder has a fixed frame instead.

`Prepared` lists what preparing can come to, in order of precedence, and `Conforms` adds
what the `write` can come to.  `conforms_send` connects the two, and
`prepared_payload` derives the first from what validation computes and what the encoder
encodes.
-/

namespace Librsi

open WireFormat Interaction

/-! ## The functions -/

section Source

variable (P : Pkm)

/-- `ok_or`. -/
def okOr {α : Type} (e : Errno) : Option α → Sys α
  | some a => .ret a
  | none => .err e

/-- Leave through `fail_errno` on an `Err`. -/
def reportErrno (m : Sys CInt) : Sys CInt := m.either .ret failErrno

/-- `require_response_req`. -/
def requireResponseReq (req : Option RsiRequest) (expectedOp : UInt32) : Sys RsiRequest := do
  let req ← okOr EINVAL req
  if req.opCode ≠ expectedOp.toUInt16 then .err EINVAL else .ret req

/-- `validate_status_response`. -/
def validateStatusResponse (req : RsiRequest) (status : UInt32) : Sys Unit := do
  let status ← okOr EINVAL (P.parseRsiStatus status)
  if status = RsiStatus.ok then
    let statusOnly ← okOr EINVAL (P.rsiRequestHasStatusOnlyResponse req.opCode)
    if statusOnly then .ret () else .err EINVAL
  else .ret ()

/-- `buf[off..off + src.len()].copy_from_slice(src)`.  Slicing out of range panics. -/
def copyInto (buf : Bytes) (off : ℕ) (src : Bytes) : Sys Bytes :=
  if off + src.length ≤ buf.length then
    .ret (buf.take off ++ (src ++ buf.drop (off + src.length)))
  else .abort

/-- `put_response_header`. -/
def putResponseHeader (buf : Bytes) (totalLen : UInt32) (requestId : UInt64)
    (respOp : UInt16) : Sys Bytes := do
  let buf ← copyInto buf 0 (leBytes 4 totalLen.toNat)
  let buf ← copyInto buf 4 (leBytes 8 requestId.toNat)
  copyInto buf 12 (leBytes 2 respOp.toNat)

/-- `write_frame`. -/
def writeFrame (fd : CInt) (frame : Bytes) : Sys CInt :=
  .call (.write fd frame) fun
    | .error _ => .ret (-1)
    | .ok n => if n = frame.length then .ret 0 else failErrno EIO

/-- `build_status_frame`. -/
def buildStatusFrame (requestId : UInt64) (respOp : UInt16) (status : UInt32) : Sys Bytes := do
  let frame ← putResponseHeader (List.replicate statusFrameLen 0)
    (UInt32.ofNat statusFrameLen) requestId respOp
  copyInto frame 14 (leBytes 4 status.toNat)

/-- `rsi_respond_status`. -/
def rsiRespondStatus (fd : CInt) (req : Option RsiRequest) (status : UInt32) : Sys CInt :=
  reportErrno do
    let req ← okOr EINVAL req
    let respOp ← okOr EINVAL (P.rsiResponseOpCode req.opCode)
    validateStatusResponse P req status
    let frame ← buildStatusFrame req.requestId respOp status
    writeFrame fd frame

/-- `finish_response`. -/
def finishResponse (req : RsiRequest) (w : FrameWriter) : Sys Bytes := do
  let respOp ← okOr EINVAL (P.rsiResponseOpCode req.opCode)
  if w.oom then .err ENOMEM
  else if 2 ^ 32 ≤ w.buf.length then .err EOVERFLOW
  else
    let buf ← putResponseHeader w.buf (UInt32.ofNat w.buf.length) req.requestId respOp
    copyInto buf 14 (leBytes 4 P.rsiOk.toNat)

/-- `finish_and_send`. -/
def finishAndSend (fd : CInt) (req : RsiRequest) (w : FrameWriter) : Sys CInt :=
  (finishResponse P req w).either (writeFrame fd) failErrno

/-- `rsi_respond_lookup`. -/
def rsiRespondLookup (fd : CInt) (req : Option RsiRequest) (entries : Arr RsiPathEntry)
    (metadata : Arr RsiKeyMetadata) : Sys CInt :=
  reportErrno do
    let req ← requireResponseReq req (P.opCode .lookup)
    validateLookupMetadata entries metadata
    let w ← newWriter
    let w ← encodePathEntryBlock w entries
    let w ← encodeMetadataBlock w metadata
    finishAndSend P fd req w

/-- `rsi_respond_delete_layer`. -/
def rsiRespondDeleteLayer (fd : CInt) (req : Option RsiRequest) (orphaned : GuidArr) :
    Sys CInt :=
  reportErrno do
    let req ← requireResponseReq req (P.opCode .deleteLayer)
    let orphanedBytes ← orphanedGuidBytes orphaned
    let w ← newWriter
    let w ← w.u32 orphaned.count
    let w ← w.raw orphanedBytes
    finishAndSend P fd req w

/-- `rsi_respond_enum_children`. -/
def rsiRespondEnumChildren (fd : CInt) (req : Option RsiRequest) (children : Arr RsiChildEntry)
    (metadata : Arr RsiKeyMetadata) : Sys CInt :=
  reportErrno do
    let req ← requireResponseReq req (P.opCode .enumChildren)
    validateEnumChildrenMetadata children metadata
    let w ← newWriter
    let w ← w.u32 children.count
    let w ← children.items.foldlM (fun w c => do
      let w ← w.lpf c.childName
      encodePathEntryBlock w c.entries) w
    let w ← encodeMetadataBlock w metadata
    finishAndSend P fd req w

/-- `rsi_respond_read_key`. -/
def rsiRespondReadKey (fd : CInt) (req : Option RsiRequest) (name : Arr UInt8)
    (parentGuid : GuidPtr) (sd : Arr UInt8) (volatileKey symlink : UInt8)
    (lastWriteTime : UInt64) : Sys CInt :=
  reportErrno do
    let req ← requireResponseReq req (P.opCode .readKey)
    let parent ← okOr EINVAL parentGuid.ptr
    let w ← newWriter
    let w ← w.lpf name
    let w ← w.raw (parent.take 16)
    let w ← w.lpf sd
    requireBool volatileKey
    requireBool symlink
    let w ← w.u8 volatileKey
    let w ← w.u8 symlink
    let w ← w.u64 lastWriteTime
    finishAndSend P fd req w

/-- `rsi_respond_query_values`. -/
def rsiRespondQueryValues (fd : CInt) (req : Option RsiRequest) (entries : Arr RsiValueEntry)
    (blankets : Arr RsiBlanketEntry) : Sys CInt :=
  reportErrno do
    let req ← requireResponseReq req (P.opCode .queryValues)
    requireArray entries
    requireArray blankets
    let w ← newWriter
    let w ← w.u32 entries.count
    let w ← entries.items.foldlM (fun w e => do
      let w ← w.lpf e.valueName
      let w ← w.lpf e.layerName
      let w ← w.u32 e.valueType
      let w ← w.lpf e.data
      w.u64 e.sequence) w
    let w ← w.u32 blankets.count
    let w ← blankets.items.foldlM (fun w b => do
      let w ← w.lpf b.layerName
      w.u64 b.sequence) w
    finishAndSend P fd req w

end Source

/-! ## Patching the header in -/

theorem copyInto_append (off : ℕ) (x y z src : Bytes) (hx : x.length = off)
    (hy : y.length = src.length) : copyInto (x ++ (y ++ z)) off src = .ret (x ++ (src ++ z)) := by
  have hrange : off + src.length ≤ (x ++ (y ++ z)).length := by
    rw [List.length_append, List.length_append]
    omega
  rw [copyInto, if_pos hrange, List.take_left' hx, ← hy, ← List.drop_drop, List.drop_left' hx,
    List.drop_left]

/-- **The placeholder becomes the header.**  No slice is out of range, and what comes
behind the first 18 bytes is not touched. -/
theorem putResponseHeader_placeholder (body : Bytes) (totalLen : UInt32) (requestId : UInt64)
    (respOp : UInt16) (status : UInt32) :
    (do let buf ← putResponseHeader (List.replicate statusFrameLen 0 ++ body) totalLen requestId
          respOp
        copyInto buf 14 (leBytes 4 status.toNat)) =
      .ret (Layout.header.put ⟨totalLen, requestId, respOp, status⟩ ++ body) := by
  -- the placeholder, cut where the fields go
  have hzeros : List.replicate statusFrameLen (0 : UInt8) ++ body =
      List.replicate 4 0 ++ (List.replicate 8 0 ++ (List.replicate 2 0 ++
        (List.replicate 4 0 ++ body))) := rfl
  have htotal := copyInto_append 0 [] (List.replicate 4 0)
    (List.replicate 8 0 ++ (List.replicate 2 0 ++ (List.replicate 4 0 ++ body)))
    (leBytes 4 totalLen.toNat) rfl (by simp)
  have hid := copyInto_append 4 (leBytes 4 totalLen.toNat) (List.replicate 8 0)
    (List.replicate 2 0 ++ (List.replicate 4 0 ++ body)) (leBytes 8 requestId.toNat)
    (by simp) (by simp)
  have hop := copyInto_append 12 (leBytes 4 totalLen.toNat ++ leBytes 8 requestId.toNat)
    (List.replicate 2 0) (List.replicate 4 0 ++ body) (leBytes 2 respOp.toNat)
    (by simp) (by simp)
  have hstatus := copyInto_append 14
    (leBytes 4 totalLen.toNat ++ (leBytes 8 requestId.toNat ++ leBytes 2 respOp.toNat))
    (List.replicate 4 0) body (leBytes 4 status.toNat) (by simp) (by simp)
  simp only [List.append_assoc, List.nil_append] at htotal hop hstatus
  simp only [putResponseHeader, hzeros, htotal, Prog.ret_bind, hid, hop, hstatus,
    Layout.put_header, List.append_assoc]

theorem buildStatusFrame_eq (requestId : UInt64) (respOp : UInt16) (status : UInt32) :
    buildStatusFrame requestId respOp status =
      .ret (Layout.frame requestId respOp status []) := by
  have h := putResponseHeader_placeholder [] (UInt32.ofNat statusFrameLen) requestId respOp status
  rw [List.append_nil, List.append_nil] at h
  rw [buildStatusFrame, h, Layout.frame, List.append_nil, List.length_nil, Nat.add_zero]

/-- What `finish_response` makes of a writer that holds the placeholder and a body. -/
theorem finishResponse_eq {P : Pkm} {req : RsiRequest} {respOp : UInt16} {w : FrameWriter}
    {body : Bytes} (hop : P.rsiResponseOpCode req.opCode = some respOp) (hoom : w.oom = false)
    (hbuf : w.buf = List.replicate statusFrameLen 0 ++ body) :
    finishResponse P req w =
      if 2 ^ 32 ≤ (Layout.frame req.requestId respOp P.rsiOk body).length then .err EOVERFLOW
      else .ret (Layout.frame req.requestId respOp P.rsiOk body) := by
  have hlen : w.buf.length = statusFrameLen + body.length := by
    rw [hbuf, List.length_append, List.length_replicate]
  rw [finishResponse, hop, okOr, Prog.ret_bind, hoom, Layout.length_frame, hlen]
  simp only [Bool.false_eq_true, if_false]
  split_ifs with hbig
  · rfl
  · rw [hbuf, putResponseHeader_placeholder, Layout.frame]

/-! ## Preparing and sending -/

/-- What preparing a frame can come to.  A failed reservation is reported first, then a
broken rule, then a failed append, then a frame that is too large. -/
inductive Prepared (c : Prop) (frame : Bytes) : Outcome Errno Bytes → Trace → Prop
  | noRoom {t : Trace} (alloc : AllocOnly t) (failed : ReserveFailed t) :
      Prepared c frame (.err ENOMEM) t
  | rejected {t : Trace} (alloc : AllocOnly t) (fine : ¬ ReserveFailed t) (fails : ¬ c) :
      Prepared c frame (.err EINVAL) t
  | latched {t : Trace} (alloc : AllocOnly t) (fine : ¬ ReserveFailed t) (holds : c)
      (failed : ExtendFailed t) : Prepared c frame (.err ENOMEM) t
  | tooLarge {t : Trace} (alloc : AllocOnly t) (fine : ¬ ReserveFailed t)
      (fine' : ¬ ExtendFailed t) (holds : c) (big : 2 ^ 32 ≤ frame.length) :
      Prepared c frame (.err EOVERFLOW) t
  | ready {t : Trace} (alloc : AllocOnly t) (fine : ¬ ReserveFailed t)
      (fine' : ¬ ExtendFailed t) (holds : c) (small : frame.length < 2 ^ 32) :
      Prepared c frame (.ret frame) t

/-- What a whole call can come to: preparing failed, or there was one `write`, and it was
refused, or it took the whole frame, or it came up short. -/
inductive Conforms (fd : CInt) (c : Prop) (frame : Bytes) : Outcome Errno CInt → Trace → Prop
  | failed {e : Errno} {t : Trace} (prep : Prepared c frame (.err e) t) :
      Conforms fd c frame (.ret (-1)) (t ++ [⟨.setErrno e, ()⟩])
  | refused {e : Errno} {t : Trace} (prep : Prepared c frame (.ret frame) t) :
      Conforms fd c frame (.ret (-1)) (t ++ [⟨.write fd frame, .error e⟩])
  | sent {t : Trace} (prep : Prepared c frame (.ret frame) t) :
      Conforms fd c frame (.ret 0) (t ++ [⟨.write fd frame, .ok frame.length⟩])
  | short {n : ℕ} {t : Trace} (prep : Prepared c frame (.ret frame) t)
      (ne : n ≠ frame.length) :
      Conforms fd c frame (.ret (-1)) (t ++ [⟨.write fd frame, .ok n⟩, ⟨.setErrno EIO, ()⟩])

/-- Prepare a frame and write it. -/
def send (fd : CInt) (m : Sys Bytes) : Sys CInt := m.either (writeFrame fd) failErrno

theorem conforms_send {fd : CInt} {c : Prop} {frame : Bytes} {m : Sys Bytes}
    (h : m.All (Prepared c frame)) : (send fd m).All (Conforms fd c frame) := by
  refine Prog.all_either h (fun f t hf => ?_) (fun e t he _ => .failed he) (fun t h => nomatch h)
  -- preparing returns the frame and nothing else
  have hframe : f = frame := by
    cases hf
    rfl
  subst hframe
  intro a
  cases a with
  | error e => exact .refused hf
  | ok n =>
    by_cases hn : n = f.length
    · subst hn
      simp only [if_true]
      exact .sent hf
    · simp only [hn, if_false]
      exact fun _ => .short hf hn

/-! ### Leaving early

A responder leaves through `fail_errno` at every step that can fail.  These lemmas move
all of them to the end, where `send` is. -/

theorem reportErrno_bind {α : Type} (m : Sys α) (k : α → Sys CInt) :
    reportErrno (m >>= k) = m.either (fun a => reportErrno (k a)) failErrno :=
  Prog.either_either m k .err .ret failErrno

theorem send_bind {α : Type} (fd : CInt) (m : Sys α) (k : α → Sys Bytes) :
    send fd (m >>= k) = m.either (fun a => send fd (k a)) failErrno :=
  Prog.either_either m k .err (writeFrame fd) failErrno

/-- Writing leaves no `Err` behind. -/
theorem reportErrno_writeFrame (fd : CInt) (frame : Bytes) :
    reportErrno (writeFrame fd frame) = send fd (.ret frame) := by
  refine congrArg (Prog.call (Call.write fd frame)) (funext fun a => ?_)
  cases a with
  | error e => rfl
  | ok n =>
    by_cases hn : n = frame.length
    · simp only [hn, if_true]
      rfl
    · simp only [hn, if_false]
      rfl

theorem reportErrno_finishAndSend (P : Pkm) (fd : CInt) (req : RsiRequest) (w : FrameWriter) :
    reportErrno (finishAndSend P fd req w) = send fd (finishResponse P req w) := by
  have hfail : ∀ e, (failErrno e).either Prog.ret failErrno = failErrno e := fun e => rfl
  have hwrite : ∀ f, (writeFrame fd f).either Prog.ret failErrno = writeFrame fd f :=
    reportErrno_writeFrame fd
  rw [finishAndSend, reportErrno, Prog.either_either]
  simp only [hfail, hwrite]
  rfl

/-! ## What each responder prepares -/

section Prepare

variable (P : Pkm)

/-- The part the payload responders share: the request, validation, the encoder behind a
placeholder, the header. -/
def prepare {α : Type} (o : Op) (req : Option RsiRequest) (validate : Sys α)
    (encode : α → FrameWriter → Sys FrameWriter) : Sys Bytes := do
  let req ← requireResponseReq req (P.opCode o)
  let a ← validate
  let w ← newWriter
  let w ← encode a w
  finishResponse P req w

/-- The request is there, is of the responder's kind, and has a response op code. -/
def RequestOk (o : Op) (req : Option RsiRequest) : Prop :=
  ∃ r, req = some r ∧ r.opCode = P.opCode16 o ∧ (P.rsiResponseOpCode r.opCode).isSome

theorem RequestOk.of_opCode {P : Pkm} (hops : P.KnowsOps) {o : Op} {r : RsiRequest}
    (h : r.opCode = P.opCode16 o) : RequestOk P o (some r) :=
  ⟨r, rfl, h, h ▸ hops o⟩

/-- The frame that answers a request. -/
def responseFrame (req : Option RsiRequest) (status : UInt32) (body : Bytes) : Bytes :=
  match req with
  | none => []
  | some r => Layout.frame r.requestId ((P.rsiResponseOpCode r.opCode).getD 0) status body

variable {P}

theorem requireResponseReq_eq {o : Op} {r : RsiRequest} (h : r.opCode = P.opCode16 o) :
    requireResponseReq (some r) (P.opCode o) = .ret r :=
  if_neg (not_not.mpr h)

/-- What finishing comes to, after an encoder that appended `body` to a fresh writer. -/
theorem prepared_finishResponse {r : RsiRequest} {w : FrameWriter} {body : Bytes} {t t' : Trace}
    {c : Prop} (only : ReserveOnly t) (fine : ¬ ReserveFailed t) (holds : c)
    (wrote : Wrote FrameWriter.new w (List.replicate statusFrameLen 0 ++ body) t') :
    (finishResponse P r w).All fun o t'' =>
      Prepared (c ∧ (P.rsiResponseOpCode r.opCode).isSome) (responseFrame P (some r) P.rsiOk body)
        o (t ++ (t' ++ t'')) := by
  have halloc : AllocOnly (t ++ (t' ++ [])) := by
    rw [List.append_nil]
    exact only.append_extendOnly wrote.only
  have hreserve : ¬ ReserveFailed (t ++ (t' ++ [])) := by
    simp [fine, wrote.only.not_reserveFailed]
  have hextend : ExtendFailed (t ++ (t' ++ [])) ↔ w.oom = true := by
    rw [wrote.oom]
    simp [only.not_extendFailed, FrameWriter.new]
  cases hresp : P.rsiResponseOpCode r.opCode with
  | none =>
    rw [finishResponse, hresp]
    exact .rejected halloc hreserve fun h => absurd h.2 (by simp)
  | some respOp =>
    have hc : c ∧ (some respOp).isSome := ⟨holds, rfl⟩
    have hframe : responseFrame P (some r) P.rsiOk body =
        Layout.frame r.requestId respOp P.rsiOk body := by
      rw [responseFrame, hresp, Option.getD_some]
    by_cases hoom : w.oom = true
    · rw [finishResponse, hresp, okOr, Prog.ret_bind, if_pos hoom]
      exact .latched halloc hreserve hc (hextend.mpr hoom)
    · rw [finishResponse_eq hresp (Bool.not_eq_true _ ▸ hoom) (wrote.buf (Bool.not_eq_true _ ▸ hoom)),
        hframe]
      split_ifs with hbig
      · exact .tooLarge halloc hreserve (mt hextend.mp hoom) hc hbig
      · exact .ready halloc hreserve (mt hextend.mp hoom) hc (not_le.mp hbig)

/-- **What a payload responder prepares**, from what its validation computes and what its
encoder encodes. -/
theorem prepared_payload {α β : Type} {view : α → β} {b : β} {c c' : Prop} {body : Bytes}
    {validate : Sys α} {encode : α → FrameWriter → Sys FrameWriter} (o : Op)
    (req : Option RsiRequest) (hvalidate : Computes view validate c b)
    (hencode : c → ∀ a, view a = b → Encodes (encode a) c' body) :
    (prepare P o req validate encode).All
      (Prepared (RequestOk P o req ∧ c ∧ c') (responseFrame P req P.rsiOk body)) := by
  have hnil : AllocOnly [] := ReserveOnly.nil.allocOnly
  cases req with
  | none =>
    refine .rejected hnil reserveFailed_nil ?_
    rintro ⟨⟨r, hr, -⟩, -⟩
    exact absurd hr (by simp)
  | some r =>
    by_cases hop : r.opCode = P.opCode16 o
    · have hok : RequestOk P o (some r) ↔ (P.rsiResponseOpCode r.opCode).isSome :=
        ⟨fun ⟨_, hr, _, h⟩ => Option.some.inj hr ▸ h, fun h => ⟨r, rfl, hop, h⟩⟩
      rw [prepare, requireResponseReq_eq hop, Prog.ret_bind, hok]
      refine Prog.all_bind hvalidate (fun a t ha => ?_) (fun e t he => ?_) (fun t h => nomatch h)
      · cases ha with
        | ret only fine holds eq =>
          rw [← bind_assoc]
          refine Prog.all_bind ((encodes_raw _).seq (hencode holds a eq) FrameWriter.new)
            (fun w t' hw => ?_) (fun e t' he => ?_) (fun t' h => nomatch h)
          · cases hw with
            | ret holds' wrote =>
              have hfin := prepared_finishResponse (P := P) (r := r) only fine
                (⟨holds, holds'.2⟩ : c ∧ c') wrote
              rwa [and_comm] at hfin
          · cases he with
            | einval fails only' =>
              refine .rejected (only.append_extendOnly only') ?_ fun h => fails ⟨trivial, h.2.2⟩
              simp [fine, only'.not_reserveFailed]
      · cases he with
        | enomem only failed => exact .noRoom only.allocOnly failed
        | einval only fine fails => exact .rejected only.allocOnly fine fun h => fails h.2.1
    · have hreq : requireResponseReq (some r) (P.opCode o) = .err EINVAL := if_pos hop
      rw [prepare, hreq, Prog.err_bind]
      refine .rejected hnil reserveFailed_nil ?_
      rintro ⟨⟨r', hr, hop', -⟩, -⟩
      exact hop (Option.some.inj hr ▸ hop')

variable (P)

/-- The part of the status responder before the `write`. -/
def prepareStatus (req : Option RsiRequest) (status : UInt32) : Sys Bytes := do
  let req ← okOr EINVAL req
  let respOp ← okOr EINVAL (P.rsiResponseOpCode req.opCode)
  validateStatusResponse P req status
  buildStatusFrame req.requestId respOp status

/-- The status is known, and is not a bare success of an op that owes a payload. -/
def StatusAllowed (op : UInt16) (status : UInt32) : Prop :=
  ∃ s, P.parseRsiStatus status = some s ∧
    (s = .ok → P.rsiRequestHasStatusOnlyResponse op = some true)

/-- The request is there, has a response op code, and may be answered so. -/
def StatusOk (req : Option RsiRequest) (status : UInt32) : Prop :=
  ∃ r, req = some r ∧ (P.rsiResponseOpCode r.opCode).isSome ∧ StatusAllowed P r.opCode status

variable {P}

theorem validateStatusResponse_eq (r : RsiRequest) (status : UInt32) :
    StatusAllowed P r.opCode status ∧ validateStatusResponse P r status = .ret () ∨
      ¬ StatusAllowed P r.opCode status ∧ validateStatusResponse P r status = .err EINVAL := by
  rw [validateStatusResponse]
  cases hs : P.parseRsiStatus status with
  | none =>
    refine Or.inr ⟨?_, rfl⟩
    rintro ⟨s, hs', -⟩
    exact absurd (hs.symm.trans hs') (by simp)
  | some s =>
    have hallowed : StatusAllowed P r.opCode status ↔
        (s = .ok → P.rsiRequestHasStatusOnlyResponse r.opCode = some true) :=
      ⟨fun ⟨_, h, himp⟩ => Option.some.inj (hs.symm.trans h) ▸ himp, fun h => ⟨s, hs, h⟩⟩
    rw [hallowed, okOr, Prog.ret_bind]
    by_cases hok : s = .ok
    · rw [if_pos hok]
      rcases hb : P.rsiRequestHasStatusOnlyResponse r.opCode with _ | _ | _
      · exact Or.inr ⟨fun h => absurd (h hok) (by simp), rfl⟩
      · exact Or.inr ⟨fun h => absurd (h hok) (by simp), rfl⟩
      · exact Or.inl ⟨fun _ => rfl, rfl⟩
    · rw [if_neg hok]
      exact Or.inl ⟨fun h => absurd h hok, rfl⟩

/-- Preparing a status makes no call. -/
theorem prepareStatus_cases (req : Option RsiRequest) (status : UInt32) :
    StatusOk P req status ∧ prepareStatus P req status = .ret (responseFrame P req status []) ∨
      ¬ StatusOk P req status ∧ prepareStatus P req status = .err EINVAL := by
  cases req with
  | none =>
    refine Or.inr ⟨?_, rfl⟩
    rintro ⟨r, hr, -⟩
    exact absurd hr (by simp)
  | some r =>
    have hok : StatusOk P (some r) status ↔
        (P.rsiResponseOpCode r.opCode).isSome ∧ StatusAllowed P r.opCode status :=
      ⟨fun ⟨_, hr, h⟩ => Option.some.inj hr ▸ h, fun h => ⟨r, rfl, h⟩⟩
    rw [hok, prepareStatus, okOr, Prog.ret_bind, responseFrame]
    cases hresp : P.rsiResponseOpCode r.opCode with
    | none => exact Or.inr ⟨fun h => absurd h.1 (by simp), rfl⟩
    | some respOp =>
      rw [okOr, Prog.ret_bind]
      rcases validateStatusResponse_eq (P := P) r status with ⟨hallowed, heq⟩ | ⟨hallowed, heq⟩
      · rw [heq, Prog.ret_bind, buildStatusFrame_eq]
        exact Or.inl ⟨⟨rfl, hallowed⟩, rfl⟩
      · rw [heq, Prog.err_bind]
        exact Or.inr ⟨fun h => hallowed h.2, rfl⟩

/-- **What the status responder prepares.** -/
theorem prepared_status (req : Option RsiRequest) (status : UInt32) :
    (prepareStatus P req status).All
      (Prepared (StatusOk P req status) (responseFrame P req status [])) := by
  have hnil : AllocOnly [] := ReserveOnly.nil.allocOnly
  rcases prepareStatus_cases (P := P) req status with ⟨hok, heq⟩ | ⟨hnot, heq⟩
  · rw [heq]
    refine .ready hnil reserveFailed_nil extendFailed_nil hok ?_
    obtain ⟨r, rfl, -⟩ := hok
    rw [responseFrame, Layout.length_frame]
    decide
  · rw [heq]
    exact .rejected hnil reserveFailed_nil hnot

end Prepare

end Librsi

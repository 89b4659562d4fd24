import Librsi.Lib.Ledger
import Librsi.Response.Concurrent

/-!
# The two sides of the source descriptor

The kernel is not part of this repository, so it is a parameter: any world, seen through a
ledger of the requests it has delivered and of the frames it took as answers.  What is assumed
of it has a name each, so that a theorem says what it needs.

* `ChecksFrames`: the checks the design notes list.  A frame is taken as the answer to a pending
  request only if it is at least 18 bytes long, its length is the number of bytes written, its
  id is that of the request, its op code is the request's with the response bit, and its status
  is known (`Passes`).
* `TakesWhole`: a `write` that is taken is taken whole.
* `KeepsLedger`: the kernel's own bookkeeping.  Ids are not used twice, and a request that was
  answered is no longer pending.
* `TakesPassing`: a frame that passes can be taken, if one `write` can carry it at all.

What a source wants to keep is another ledger, in which a reply is not bytes but a status or
a payload (`Reply`), and in which a reply has to fit its request (`Reply.Fits`).  The main
result is that the first ledger, driven by any interleaving of deliveries and responder
calls, refines the second, and that the replies in it are those of the calls that returned
`0`, in the order of their writes (`responses_refine_ledger`).  Nothing is answered by a call
that failed, and what the kernel reads is what was passed.  The replies only ever grow at
their end, by those of the calls that return (`replies_keep_real_time`).

`frame_passes_iff_pending` is the other direction: the checks never turn down a frame the
library has built, unless its request is not pending.
-/

namespace Librsi

open WireFormat Interaction Layout RequestReply

/-! ## Requests and replies -/

/-- What the kernel remembers of a request: its id and its op code. -/
structure Pending where
  id : UInt64
  op : UInt16
  deriving DecidableEq

/-- What a source can say to a request. -/
inductive Reply where
  | status (code : UInt32)
  | payload (k : Kind) (v : k.Result)

/-- A request op code does not carry the response bit. -/
def Pkm.RequestOps (P : Pkm) : Prop :=
  ∀ op, (P.rsiResponseOpCode op).isSome → op.toNat < 2 ^ 15

section Protocol

variable (P : Pkm) (KnownStatus : UInt32 → Prop)

/-- The reply fits the request: a status is known and is not a bare success of an op that
owes a payload, and a payload is of the request's kind and obeys its rules. -/
def Reply.Fits (q : Pending) : Reply → Prop
  | .status code => KnownStatus code ∧ (code = P.rsiOk → ¬ P.IsPayloadOp q.op)
  | .payload k v => q.op = P.opCode16 k.op ∧ k.Rules v

/-- The kernel's checks. -/
structure Passes (q : Pending) (f : Bytes) : Prop where
  min : statusFrameLen ≤ f.length
  total : totalLenOf f = f.length
  id : requestIdOf f = q.id.toNat
  op : opCodeOf f = (q.op ||| 0x8000).toNat
  status : KnownStatus (UInt32.ofNat (statusOf f))

/-- The kind of payload that a success of the op carries. -/
def payloadKind (op : UInt16) : Option Kind :=
  [Kind.lookup, .enumChildren, .readKey, .deleteLayer, .queryValues].find? fun k =>
    op = P.opCode16 k.op

/-- The kind of payload that an answer with this status carries. -/
def replyKind (op : UInt16) (status : UInt32) : Option Kind :=
  if status = P.rsiOk then payloadKind P op else none

/-- How a frame reads, as an answer to a request: the payload of a success that has one, and
a bare status otherwise. -/
def readReply (q : Pending) (f : Bytes) : Option Reply :=
  let status := UInt32.ofNat (statusOf f)
  match replyKind P q.op status with
  | some k => (k.layout.strict (f.drop statusFrameLen)).map (Reply.payload k)
  | none => if f.length = statusFrameLen then some (.status status) else none

/-- The ledger of replies. -/
abbrev ReplyLedger (l : Ledger Pending Reply) : Prop :=
  l.Reachable Pending.id (fun q => (P.rsiResponseOpCode q.op).isSome) (Reply.Fits P KnownStatus)

end Protocol

/-! ## The kernel -/

section Kernel

variable {ι σ : Type} (P : Pkm) (KnownStatus : UInt32 → Prop) (fd : CInt) (W : World ι Ans σ)
  (view : σ → Ledger Pending Bytes)

/-- The documented checks: a frame is only taken for a pending request that it passes for, and is
then recorded as its answer. -/
def ChecksFrames : Prop :=
  ∀ s i buf n s', W.answers s i ⟨.write fd buf, .ok n⟩ s' →
    ∃ q ∈ (view s).pending, Passes KnownStatus q buf ∧
      (view s').answered = (view s).answered ++ [(q, buf)]

/-- A `write` on the descriptor that does not fail takes its whole buffer. -/
def TakesWhole : Prop :=
  ∀ s i buf n s', W.answers s i ⟨.write fd buf, .ok n⟩ s' → n = buf.length

/-- The bookkeeping, which the design notes do not spell out: requests are known and come with
fresh ids, an answered request is not pending any more, and what happens on other descriptors
does not concern the kernel. -/
structure KeepsLedger : Prop where
  delivers : ∀ s s', W.moves s s' → view s' = view s ∨
    ∃ q : Pending, (P.rsiResponseOpCode q.op).isSome ∧ q.id ∉ (view s).keys Pending.id ∧
      view s' = (view s).deliver q
  retires : ∀ s i buf n s' q, W.answers s i ⟨.write fd buf, .ok n⟩ s' →
    (view s').answered = (view s).answered ++ [(q, buf)] →
    (view s').pending = (view s).pending.erase q
  ignores : ∀ s i e s', W.answers s i e s' → (∀ buf n, e ≠ ⟨.write fd buf, .ok n⟩) →
    view s' = view s

/-- Linux carries no more than this in one `write`. -/
def maxWrite : ℕ := 0x7ffff000

/-- A frame that passes for a pending request, and that one `write` can carry, can be taken. -/
def TakesPassing : Prop :=
  ∀ s i q buf, q ∈ (view s).pending → Passes KnownStatus q buf → buf.length ≤ maxWrite →
    ∃ s', W.answers s i ⟨.write fd buf, .ok buf.length⟩ s'

/-- Memory can be had, and having it does not concern the kernel's ledger. -/
structure GrantsMemory : Prop where
  reserve : ∀ s i n, ∃ slack s', W.answers s i ⟨.tryReserve n, some slack⟩ s' ∧ view s' = view s
  extend : ∀ s i b, ∃ s', W.answers s i ⟨.tryExtend b, .appended⟩ s' ∧ view s' = view s

variable {P KnownStatus fd W view}

/-- A taken frame is an answer, in the ledger too. -/
theorem KeepsLedger.view_eq (h : KeepsLedger P fd W view) {s s' : σ} {i : ι} {buf : Bytes} {n : ℕ}
    {q : Pending} (hanswer : W.answers s i ⟨.write fd buf, .ok n⟩ s')
    (hanswered : (view s').answered = (view s).answered ++ [(q, buf)]) :
    view s' = (view s).answer q buf := by
  have hpending := h.retires s i buf n s' q hanswer hanswered
  rw [Ledger.answer, ← hpending, ← hanswered]

end Kernel

namespace RespondCall

/-- The request a call answers, as the kernel knows it. -/
def pending? (call : RespondCall) : Option Pending := call.req.map fun r => ⟨r.requestId, r.opCode⟩

/-- What a call says. -/
def reply : RespondCall → Reply
  | .status _ code => .status code
  | .payload k _ args => .payload k args.value

end RespondCall

/-! ## Reading a frame -/

section Reading

variable {P : Pkm}

theorem payloadKind_eq_some {op : UInt16} {k : Kind} (h : op = P.opCode16 k.op) :
    payloadKind P op = some k := by
  have hmem : ∃ k' ∈ [Kind.lookup, .enumChildren, .readKey, .deleteLayer, .queryValues],
      decide (op = P.opCode16 k'.op) = true := by
    refine ⟨k, ?_, decide_eq_true h⟩
    cases k <;> simp
  obtain ⟨k', hk'⟩ := Option.isSome_iff_exists.mp (List.find?_isSome.mpr hmem)
  have heq : op = P.opCode16 k'.op := by simpa using List.find?_some hk'
  obtain rfl : k = k' := Kind.op_injective (P.opCode16_injective (h.symm.trans heq))
  exact hk'

theorem payloadKind_eq_none {op : UInt16} (h : ¬ P.IsPayloadOp op) : payloadKind P op = none := by
  refine List.find?_eq_none.mpr fun k _ hk => ?_
  exact h (isPayloadOp_iff.mpr ⟨k, of_decide_eq_true hk⟩)

/-- The response bit can be taken off again. -/
theorem eq_of_or_responseBit {a b : UInt16} (ha : a.toNat < 2 ^ 15) (hb : b.toNat < 2 ^ 15)
    (h : a ||| 0x8000 = b ||| 0x8000) : a = b := by
  have hor : ∀ n < 2 ^ 15, n ||| 2 ^ 15 = 2 ^ 15 + n := by
    intro n hn
    rw [Nat.or_comm, ← Nat.mul_one (2 ^ 15), Nat.two_pow_add_eq_or_of_lt hn]
  have hnat : a.toNat ||| 2 ^ 15 = b.toNat ||| 2 ^ 15 := congrArg UInt16.toNat h
  rw [hor _ ha, hor _ hb] at hnat
  exact UInt16.toNat_inj.mp (by omega)

variable {KnownOp : UInt16 → Prop} {KnownStatus : UInt32 → Prop} {call : RespondCall}

/-- What is known of an accepted call's frame. -/
theorem RespondCall.Accepted.exists_pending (h : call.Accepted P)
    (hsmall : (call.frame P).length < 2 ^ 32) (hP : P.Documented KnownOp KnownStatus)
    (hbit : P.ResponseBit) :
    ∃ q, call.pending? = some q ∧ (P.rsiResponseOpCode q.op).isSome ∧
      Passes KnownStatus q (call.frame P) ∧ readReply P q (call.frame P) = some call.reply ∧
      call.reply.Fits P KnownStatus q := by
  obtain ⟨r, respOp, hr, hresp, hframe⟩ := h.exists_respOp
  obtain ⟨r', hr', hmin, htotal, hid, hop, hstatus⟩ := answers_frame hbit h hsmall
  obtain ⟨r'', hr'', -, hshape⟩ := shapeFits_frame hP h
  obtain rfl := Option.some.inj (hr.symm.trans hr')
  obtain rfl := Option.some.inj (hr.symm.trans hr'')
  have hcode : UInt32.ofNat (statusOf (call.frame P)) = call.answeredStatus P :=
    ofNat_eq_of_eq_toNat hstatus
  refine ⟨⟨r.requestId, r.opCode⟩, by rw [RespondCall.pending?, hr]; rfl, by rw [hresp]; rfl,
    ⟨hmin, htotal, hid, hop, hcode ▸ hshape.known⟩, ?_, ?_⟩
  · rw [readReply, hcode]
    cases call with
    | status req code =>
      have hlen : ((RespondCall.status req code).frame P).length = statusFrameLen := by
        rw [hframe, length_frame]
        rfl
      have hnone : replyKind P r.opCode code = none := by
        rw [replyKind]
        split_ifs with hok
        · refine payloadKind_eq_none fun hpayload => ?_
          obtain ⟨k, hk⟩ := isPayloadOp_iff.mp hpayload
          exact absurd (hshape.payload hok k hk).1 (by simp [RespondCall.kind?])
        · rfl
      simp only [RespondCall.answeredStatus, hnone, if_pos hlen]
      rfl
    | payload k req args =>
      obtain ⟨⟨r', hr', hopk, -⟩, hptrs, -⟩ := h
      obtain rfl := Option.some.inj (hr.symm.trans hr')
      have hbody : k.layout.strict (((RespondCall.payload k req args).frame P).drop
          statusFrameLen) = some args.value := by
        rw [hframe, drop_frame]
        exact k.layout.strict_iff.mpr ⟨fits_value args hptrs, rfl⟩
      have hkind : replyKind P r.opCode P.rsiOk = some k := by
        rw [replyKind, if_pos rfl, payloadKind_eq_some hopk]
      simp only [RespondCall.answeredStatus, hkind, hbody]
      rfl
  · cases call with
    | status req code =>
      refine ⟨hshape.known, fun hok hpayload => ?_⟩
      obtain ⟨k, hk⟩ := isPayloadOp_iff.mp hpayload
      exact absurd (hshape.payload hok k hk).1 (by simp [RespondCall.kind?])
    | payload k req args =>
      obtain ⟨⟨r', hr', hopk, -⟩, -, hrules⟩ := h
      obtain rfl := Option.some.inj (hr.symm.trans hr')
      exact ⟨hopk, hrules⟩

/-- A frame passes for one request only. -/
theorem Passes.eq_of_passes {q q' : Pending} {f : Bytes} (hops : P.RequestOps)
    (hq : (P.rsiResponseOpCode q.op).isSome) (hq' : (P.rsiResponseOpCode q'.op).isSome)
    (h : Passes KnownStatus q f) (h' : Passes KnownStatus q' f) : q = q' := by
  have hid : q.id = q'.id := UInt64.toNat_inj.mp (h.id.symm.trans h'.id)
  have hop : q.op = q'.op :=
    eq_of_or_responseBit (hops _ hq) (hops _ hq') (UInt16.toNat_inj.mp (h.op.symm.trans h'.op))
  obtain ⟨id, op⟩ := q
  obtain ⟨id', op'⟩ := q'
  exact congrArg₂ Pending.mk hid hop

/-- The bytes depend on the request and the reply only. -/
theorem RespondCall.frame_congr {call' : RespondCall} (hpending : call.pending? = call'.pending?)
    (hreply : call.reply = call'.reply) : call.frame P = call'.frame P := by
  have hsaid : call.answeredStatus P = call'.answeredStatus P ∧ call.body = call'.body := by
    cases call with
    | status req code =>
      cases call' with
      | status req' code' => exact ⟨Reply.status.inj hreply, rfl⟩
      | payload k req' args => exact absurd hreply (by simp [RespondCall.reply])
    | payload k req args =>
      cases call' with
      | status req' code => exact absurd hreply (by simp [RespondCall.reply])
      | payload k' req' args' =>
        obtain ⟨rfl, hvalue⟩ := Reply.payload.inj hreply
        refine ⟨rfl, ?_⟩
        show k.layout.put args.value = k.layout.put args'.value
        rw [eq_of_heq hvalue]
  unfold RespondCall.frame RespondCall.pending? at *
  rw [hsaid.1, hsaid.2]
  cases hr : call.req with
  | none =>
    rw [hr] at hpending
    rw [Option.map_eq_none_iff.mp hpending.symm]
  | some r =>
    rw [hr] at hpending
    obtain ⟨r', hr', heq⟩ := Option.map_eq_some_iff.mp hpending.symm
    obtain ⟨hid, hop⟩ := Pending.mk.inj heq
    rw [hr', responseFrame, responseFrame, hid, hop]

variable (P KnownOp KnownStatus) in
/-- **A response says one thing.**  Two calls, of the same responder or of different ones, put
the same bytes on the descriptor exactly if they answer the same request with the same status
or the same payload. -/
theorem responses_are_unambiguous (hP : P.Documented KnownOp KnownStatus) (hbit : P.ResponseBit)
    (hops : P.RequestOps) {call' : RespondCall} (h : call.Accepted P) (h' : call'.Accepted P)
    (hsmall : (call.frame P).length < 2 ^ 32) (hsmall' : (call'.frame P).length < 2 ^ 32) :
    call.frame P = call'.frame P ↔
      call.pending? = call'.pending? ∧ call.reply = call'.reply := by
  refine ⟨fun heq => ?_, fun ⟨hpending, hreply⟩ => RespondCall.frame_congr hpending hreply⟩
  obtain ⟨q, hq, hknown, hpasses, hread, -⟩ := h.exists_pending hsmall hP hbit
  obtain ⟨q', hq', hknown', hpasses', hread', -⟩ := h'.exists_pending hsmall' hP hbit
  rw [← heq] at hpasses' hread'
  obtain rfl := hpasses.eq_of_passes hops hknown hknown' hpasses'
  exact ⟨hq.trans hq'.symm, Option.some.inj (hread.symm.trans hread')⟩

theorem Pkm.small_requestOps : Pkm.small.RequestOps := by
  intro op h
  have hop : Pkm.SmallOp op := (Pkm.small_documented.response_known op).mp h
  exact lt_of_le_of_lt hop.2 (by decide)

theorem responses_are_unambiguous_pair :
    Pkm.small.Documented Pkm.SmallOp Pkm.SmallStatus ∧ Pkm.small.ResponseBit ∧
      Pkm.small.RequestOps ∧ (∀ b, (smallPair b).Accepted .small) ∧
      (∀ b, ((smallPair b).frame .small).length < 2 ^ 32) ∧
      (smallPair true).frame .small ≠ (smallPair false).frame .small := by
  have haccepted : ∀ b, (smallPair b).Accepted .small := statusOk_smallPair
  have hsmall : ∀ b, ((smallPair b).frame .small).length < 2 ^ 32 := by decide +kernel
  refine ⟨Pkm.small_documented, Pkm.small_responseBit, Pkm.small_requestOps, haccepted, hsmall,
    fun heq => ?_⟩
  obtain ⟨hpending, -⟩ := (responses_are_unambiguous .small Pkm.SmallOp Pkm.SmallStatus
    Pkm.small_documented Pkm.small_responseBit Pkm.small_requestOps (haccepted true)
    (haccepted false) (hsmall true) (hsmall false)).mp heq
  exact absurd hpending (by decide)

end Reading

/-! ## The refinement -/

section Refinement

variable {ι σ : Type} [DecidableEq ι] {P : Pkm} {KnownOp : UInt16 → Prop}
  {KnownStatus : UInt32 → Prop} {fds : ι → CInt} {calls : ι → RespondCall} {fd : CInt}
  {W : World ι Ans σ} {view : σ → Ledger Pending Bytes} {w : σ}
  {x y : Pool ι Ans Errno CInt σ} {l : Ledger Pending Reply}

/-- The reply is what the call says, to the request the call was given. -/
def RespondCall.Says (call : RespondCall) (a : Pending × Reply) : Prop :=
  call.pending? = some a.1 ∧ call.reply = a.2

variable (P KnownStatus calls fd view x l) in
/-- The kernel's ledger reads as `l`, and the replies in `l` are those of the calls that put
their frames on the descriptor, in the order they did. -/
structure Simulates : Prop where
  ledger : ReplyLedger P KnownStatus l
  reads : (view x.world).Reads (readReply P) l
  replies : List.Forall₂ (fun i => (calls i).Says) (Pool.senders fd x) l.answered

/-- A frame that was taken is not empty. -/
theorem Passes.ne_nil {q : Pending} {f : Bytes} (h : Passes KnownStatus q f) : f ≠ [] :=
  List.ne_nil_of_length_pos (Nat.lt_of_lt_of_le (by decide) h.min)

omit [DecidableEq ι] in
theorem Simulates.of_move (hledger : KeepsLedger P fd W view)
    (h : Simulates P KnownStatus calls fd view x l) {w' : σ} (hmove : W.moves x.world w') :
    ∃ l', Simulates P KnownStatus calls fd view { x with world := w' } l' := by
  rcases hledger.delivers _ _ hmove with hsame | ⟨q, offers, fresh, hview⟩
  · exact ⟨l, h.ledger, hsame ▸ h.reads, h.replies⟩
  · rw [h.reads.keys_eq] at fresh
    refine ⟨l.deliver q, h.ledger.tail (.deliver q offers fresh), ?_, h.replies⟩
    show (view w').Reads _ _
    rw [hview]
    exact h.reads.deliver q

omit [DecidableEq ι] in
/-- An event that put no byte on the descriptor did not concern the kernel. -/
theorem view_eq_of_takenBy (hchecks : ChecksFrames KnownStatus fd W view)
    (hwhole : TakesWhole fd W) (hledger : KeepsLedger P fd W view) {i : ι} {e : Event Ans}
    {s s' : σ} (hanswer : W.answers s i e s') (htaken : takenBy fd e = []) :
    view s' = view s := by
  refine hledger.ignores s i e s' hanswer fun buf n he => ?_
  rw [he] at hanswer htaken
  obtain ⟨q, -, hpasses, -⟩ := hchecks _ _ _ _ _ hanswer
  rw [hwhole _ _ _ _ _ hanswer] at htaken
  exact hpasses.ne_nil (by simpa [takenBy] using htaken)

/-- **One step of the pool is at most one step of the ledger**: a delivery is a delivery, a
`write` that is taken is an answer, and everything else is nothing. -/
theorem Simulates.of_step (hP : P.Documented KnownOp KnownStatus) (hbit : P.ResponseBit)
    (hops : P.RequestOps) (hchecks : ChecksFrames KnownStatus fd W view)
    (hwhole : TakesWhole fd W) (hledger : KeepsLedger P fd W view)
    (hx : Reaches W (respondPool P fds calls w) x) (hstep : Step W x y)
    (h : Simulates P KnownStatus calls fd view x l) :
    ∃ l', Simulates P KnownStatus calls fd view y l' := by
  have hy := hx.tail hstep
  cases hstep with
  | move hmove => exact h.of_move hledger hmove
  | @call w' i c k a ready hanswer =>
    have hsenders : Pool.senders fd ⟨w', Function.update x.left i (k a), x.past ++ [(i, ⟨c, a⟩)]⟩ =
        Pool.senders fd x ++ callersOf (fun e => takenBy fd e ≠ []) [(i, ⟨c, a⟩)] :=
      callersOf_append _ _ _
    by_cases htaken : takenBy fd ⟨c, a⟩ = []
    · have hnone : callersOf (fun e => takenBy fd e ≠ []) [(i, (⟨c, a⟩ : Event Ans))] = [] := by
        simp [callersOf, htaken]
      rw [hnone, List.append_nil] at hsenders
      refine ⟨l, h.ledger, ?_, hsenders ▸ h.replies⟩
      rw [view_eq_of_takenBy hchecks hwhole hledger hanswer htaken]
      exact h.reads
    · -- the bytes are the caller's frame, and it passes for the caller's request only
      have hmem : (⟨c, a⟩ : Event Ans) ∈ eventsOf i (x.past ++ [(i, ⟨c, a⟩)]) := by simp
      obtain ⟨n, heq, -, haccepted, hsmall⟩ := eq_write_of_takenBy hy hmem htaken
      rw [heq] at hanswer
      obtain ⟨q, hq, hpasses, hanswered⟩ := hchecks _ _ _ _ _ hanswer
      obtain ⟨q', hq', hknown, hpasses', hread, hfits⟩ :=
        haccepted.exists_pending hsmall hP hbit
      rw [h.reads.pending] at hq
      obtain rfl := hpasses.eq_of_passes hops (h.ledger.offers q hq) hknown hpasses'
      have hone : callersOf (fun e => takenBy fd e ≠ []) [(i, (⟨c, a⟩ : Event Ans))] = [i] := by
        simp [callersOf, htaken]
      rw [hone] at hsenders
      refine ⟨l.answer q (calls i).reply, h.ledger.tail (.answer q _ hq hfits), ?_, ?_⟩
      · rw [hledger.view_eq hanswer hanswered]
        exact h.reads.answer hread
      · rw [hsenders]
        exact List.rel_append h.replies (List.Forall₂.cons ⟨hq', rfl⟩ List.Forall₂.nil)

theorem exists_simulates (hP : P.Documented KnownOp KnownStatus) (hbit : P.ResponseBit)
    (hops : P.RequestOps) (hchecks : ChecksFrames KnownStatus fd W view)
    (hwhole : TakesWhole fd W) (hledger : KeepsLedger P fd W view) (hw : view w = .empty)
    (hx : Reaches W (respondPool P fds calls w) x) :
    ∃ l, Simulates P KnownStatus calls fd view x l := by
  induction hx with
  | refl =>
    refine ⟨.empty, .refl, ?_, List.Forall₂.nil⟩
    show (view w).Reads _ _
    rw [hw]
    exact ⟨rfl, List.Forall₂.nil⟩
  | @tail x y hx hstep ih =>
    obtain ⟨l, hl⟩ := ih
    exact hl.of_step hP hbit hops hchecks hwhole hledger hx hstep

/-- Whoever has put a frame on the descriptor has returned `0`. -/
theorem wholeFrames_of_takesWhole (hbit : P.ResponseBit) (hwhole : TakesWhole fd W)
    (hx : Reaches W (respondPool P fds calls w) x) :
    WholeFrames P fds calls fd (Pool.stream fd x) x (Pool.senders fd x) := by
  refine wholeFrames_senders hx hbit fd fun i n hmem => ?_
  have hanswered := hx.answered (Q := fun _ e => ∀ buf n, e = ⟨.write fd buf, .ok n⟩ →
    n = buf.length) (fun s i e s' hanswer buf n he => hwhole s i buf n s' (he ▸ hanswer))
  exact hanswered _ (mem_eventsOf.mp hmem) _ _ rfl

variable (P KnownOp KnownStatus fds calls fd) in
/-- **Any interleaving of deliveries and responder calls refines a ledger of replies.**  Of the
kernel it is assumed that it makes the documented checks, takes a frame whole or not at all, and
keeps its books.  Then the frames it has taken read as replies that fit their requests, and the
replies are exactly those of the calls that have returned `0` on the descriptor, in the order
of their writes: the same request, the same status, the same payload. -/
theorem responses_refine_ledger (hP : P.Documented KnownOp KnownStatus) (hbit : P.ResponseBit)
    (hops : P.RequestOps) (hchecks : ChecksFrames KnownStatus fd W view)
    (hwhole : TakesWhole fd W) (hledger : KeepsLedger P fd W view) (hw : view w = .empty)
    (hx : Reaches W (respondPool P fds calls w) x) :
    ∃ (l : Ledger Pending Reply) (sent : List ι),
      (ReplyLedger P KnownStatus l ∧ (view x.world).Reads (readReply P) l) ∧
      (sent.Nodup ∧ ∀ i, i ∈ sent ↔ fds i = fd ∧ x.left i = .ret 0) ∧
      List.Forall₂ (fun i => (calls i).Says) sent l.answered := by
  obtain ⟨l, hl⟩ := exists_simulates hP hbit hops hchecks hwhole hledger hw hx
  have hsent := wholeFrames_of_takesWhole hbit hwhole hx
  exact ⟨l, _, ⟨hl.ledger, hl.reads⟩, ⟨hsent.nodup, hsent.mem_iff⟩, hl.replies⟩

/-! ### A small kernel -/

/-- A kernel that is nothing but its ledger, and has memory to give. -/
def kernelWorld (P : Pkm) (KnownStatus : UInt32 → Prop) (fd : CInt) :
    World ι Ans (Ledger Pending Bytes) where
  moves k k' := ∃ q : Pending, (P.rsiResponseOpCode q.op).isSome ∧ q.id ∉ k.keys Pending.id ∧
    k' = k.deliver q
  answers k _ e k' :=
    (∀ buf n, e = ⟨.write fd buf, .ok n⟩ → n = buf.length ∧
      ∃ q ∈ k.pending, Passes KnownStatus q buf ∧ k' = k.answer q buf) ∧
    ((∀ buf n, e ≠ ⟨.write fd buf, .ok n⟩) → k' = k)

omit [DecidableEq ι] in
theorem kernelWorld_takes {k : Ledger Pending Bytes} {q : Pending} {buf : Bytes} (i : ι)
    (hq : q ∈ k.pending) (hpasses : Passes KnownStatus q buf) :
    (kernelWorld P KnownStatus fd : World ι Ans _).answers k i
      ⟨.write fd buf, .ok buf.length⟩ (k.answer q buf) := by
  refine ⟨fun buf' n heq => ?_, fun h => absurd rfl (h _ _)⟩
  obtain ⟨-, rfl, hn⟩ := write_inj heq
  exact ⟨(Except.ok.inj hn).symm, q, hq, hpasses, rfl⟩

omit [DecidableEq ι] in
theorem checksFrames_kernelWorld :
    ChecksFrames KnownStatus fd (kernelWorld P KnownStatus fd : World ι Ans _) id := by
  intro k i buf n k' h
  obtain ⟨-, q, hq, hpasses, rfl⟩ := h.1 buf n rfl
  exact ⟨q, hq, hpasses, rfl⟩

omit [DecidableEq ι] in
theorem takesWhole_kernelWorld :
    TakesWhole fd (kernelWorld P KnownStatus fd : World ι Ans _) :=
  fun _ _ buf n _ h => (h.1 buf n rfl).1

omit [DecidableEq ι] in
theorem keepsLedger_kernelWorld :
    KeepsLedger P fd (kernelWorld P KnownStatus fd : World ι Ans _) id where
  delivers k k' h := Or.inr h
  retires k i buf n k' q h hanswered := by
    obtain ⟨-, q', -, -, rfl⟩ := h.1 buf n rfl
    have hlast : [(q', buf)] = [(q, buf)] := List.append_cancel_left hanswered
    obtain rfl : q' = q := by simpa using hlast
    rfl
  ignores k i e k' h hother := h.2 hother

omit [DecidableEq ι] in
theorem takesPassing_kernelWorld :
    TakesPassing KnownStatus fd (kernelWorld P KnownStatus fd : World ι Ans _) id :=
  fun _ i _ _ hq hpasses _ => ⟨_, kernelWorld_takes i hq hpasses⟩

omit [DecidableEq ι] in
theorem grantsMemory_kernelWorld :
    GrantsMemory (kernelWorld P KnownStatus fd : World ι Ans _) id where
  reserve k i n := ⟨0, k, ⟨fun buf m h => absurd h (by simp), fun _ => rfl⟩, rfl⟩
  extend k i b := ⟨k, ⟨fun buf m h => absurd h (by simp), fun _ => rfl⟩, rfl⟩

/-- Two FLUSHes are to be answered, and the kernel has asked for the second. -/
def askedPair : Pool Bool Ans Errno CInt (Ledger Pending Bytes) :=
  respondPool .small (fun _ => 3) smallPair (Ledger.empty.deliver ⟨8, 18⟩)

theorem reaches_askedPair : Reaches (kernelWorld .small Pkm.SmallStatus 3)
    (respondPool .small (fun _ => 3) smallPair .empty) askedPair := by
  have hmove : (kernelWorld .small Pkm.SmallStatus 3 : World Bool Ans _).moves .empty
      (Ledger.empty.deliver ⟨8, 18⟩) := ⟨⟨8, 18⟩, rfl, List.not_mem_nil, rfl⟩
  exact .single (.move hmove)

theorem passes_smallPair : Passes Pkm.SmallStatus ⟨8, 18⟩ ((smallPair true).frame .small) where
  min := by decide +kernel
  total := by decide +kernel
  id := by decide +kernel
  op := by decide +kernel
  status := by decide +kernel

/-- The answer to it is written, and taken. -/
theorem exists_step_askedPair : ∃ x, Step (kernelWorld .small Pkm.SmallStatus 3) askedPair x ∧
    askedPair.left true ≠ .ret 0 ∧ x.left true = .ret 0 := by
  have hwrite : askedPair.left true = writeFrame 3 ((smallPair true).frame .small) :=
    rsiRespondStatus_eq_writeFrame 3 (statusOk_smallPair true)
  refine ⟨_, .call _ hwrite (kernelWorld_takes true List.mem_cons_self passes_smallPair), ?_,
    by simp⟩
  rw [hwrite, writeFrame]
  simp

theorem responses_refine_ledger_pair :
    let W : World Bool Ans (Ledger Pending Bytes) := kernelWorld .small Pkm.SmallStatus 3
    Pkm.small.Documented Pkm.SmallOp Pkm.SmallStatus ∧ Pkm.small.ResponseBit ∧
      Pkm.small.RequestOps ∧ ChecksFrames Pkm.SmallStatus 3 W id ∧ TakesWhole 3 W ∧
      KeepsLedger .small 3 W id ∧
      ∃ x, Reaches W (respondPool .small (fun _ => 3) smallPair .empty) x ∧ x.left true = .ret 0 ∧
        ∃ (l : Ledger Pending Reply) (sent : List Bool), true ∈ sent ∧
          x.world.Reads (readReply .small) l := by
  refine ⟨Pkm.small_documented, Pkm.small_responseBit, Pkm.small_requestOps,
    checksFrames_kernelWorld, takesWhole_kernelWorld, keepsLedger_kernelWorld, ?_⟩
  obtain ⟨x, hstep, -, hret⟩ := exists_step_askedPair
  have hx := reaches_askedPair.tail hstep
  refine ⟨x, hx, hret, ?_⟩
  obtain ⟨l, sent, ⟨-, hreads⟩, ⟨-, hsent⟩, -⟩ := responses_refine_ledger .small Pkm.SmallOp
    Pkm.SmallStatus (fun _ => 3) smallPair 3 Pkm.small_documented Pkm.small_responseBit
    Pkm.small_requestOps checksFrames_kernelWorld takesWhole_kernelWorld keepsLedger_kernelWorld
    rfl hx
  exact ⟨l, sent, (hsent true).mpr ⟨rfl, hret⟩, hreads⟩

/-! ## Real time -/

theorem RespondCall.Says.eq {call : RespondCall} {a b : Pending × Reply} (ha : call.Says a)
    (hb : call.Says b) : a = b :=
  Prod.ext (Option.some.inj (ha.1.symm.trans hb.1)) (ha.2.symm.trans hb.2)

omit [DecidableEq ι] in
/-- What a list of calls says determines a list of replies, and a part of the one a part of the
other. -/
theorem exists_answered_eq {before after : List ι} {l l' : List (Pending × Reply)}
    (hbefore : List.Forall₂ (fun i => (calls i).Says) before l)
    (hboth : List.Forall₂ (fun i => (calls i).Says) (before ++ after) l') :
    ∃ m, l' = l ++ m ∧ List.Forall₂ (fun i => (calls i).Says) after m := by
  have htake := (List.forall₂_take_append l' before after hboth.flip).flip
  have hdrop := (List.forall₂_drop_append l' before after hboth.flip).flip
  have hunique : Relator.RightUnique fun i => (calls i).Says := fun _ _ _ => RespondCall.Says.eq
  have hl : l'.take before.length = l := List.right_unique_forall₂' hunique htake hbefore
  refine ⟨l'.drop before.length, ?_, hdrop⟩
  rw [← hl, List.take_append_drop]

variable (P KnownOp KnownStatus fds calls fd) in
/-- **The ledger keeps real time.**  With a kernel as before: between any two moments of an
interleaving, the ledger of replies keeps what it has and gains, at its end, the replies of
exactly the calls that have returned `0` on the descriptor in between.  So a call that had
returned before another one started is answered before it. -/
theorem replies_keep_real_time (hP : P.Documented KnownOp KnownStatus) (hbit : P.ResponseBit)
    (hops : P.RequestOps) (hchecks : ChecksFrames KnownStatus fd W view)
    (hwhole : TakesWhole fd W) (hledger : KeepsLedger P fd W view) (hw : view w = .empty)
    (hx : Reaches W (respondPool P fds calls w) x) (hxy : Reaches W x y) :
    ∃ (l l' : Ledger Pending Reply) (before after : List ι) (m : List (Pending × Reply)),
      (ReplyLedger P KnownStatus l ∧ (view x.world).Reads (readReply P) l) ∧
      (ReplyLedger P KnownStatus l' ∧ (view y.world).Reads (readReply P) l') ∧
      l'.answered = l.answered ++ m ∧
      (List.Forall₂ (fun i => (calls i).Says) before l.answered ∧
        ∀ i, i ∈ before ↔ fds i = fd ∧ x.left i = .ret 0) ∧
      List.Forall₂ (fun i => (calls i).Says) after m ∧
        ∀ i, i ∈ after ↔ fds i = fd ∧ y.left i = .ret 0 ∧ x.left i ≠ .ret 0 := by
  have hy := hx.trans hxy
  obtain ⟨l, hl⟩ := exists_simulates hP hbit hops hchecks hwhole hledger hw hx
  obtain ⟨l', hl'⟩ := exists_simulates hP hbit hops hchecks hwhole hledger hw hy
  obtain ⟨later, hlater⟩ := exists_senders_eq fd hxy
  have hsent := wholeFrames_of_takesWhole hbit hwhole hx
  have hsent' := wholeFrames_of_takesWhole hbit hwhole hy
  have hreplies' := hl'.replies
  rw [hlater] at hreplies' hsent'
  obtain ⟨m, hm, hsays⟩ := exists_answered_eq hl.replies hreplies'
  refine ⟨l, l', _, later, m, ⟨hl.ledger, hl.reads⟩, ⟨hl'.ledger, hl'.reads⟩, hm,
    ⟨hl.replies, hsent.mem_iff⟩, hsays, fun i => ⟨fun hi => ?_, ?_⟩⟩
  · obtain ⟨hfd, hret⟩ := (hsent'.mem_iff i).mp (List.mem_append_right _ hi)
    refine ⟨hfd, hret, fun hret' => ?_⟩
    exact List.disjoint_of_nodup_append hsent'.nodup ((hsent.mem_iff i).mpr ⟨hfd, hret'⟩) hi
  · rintro ⟨hfd, hret, hnot⟩
    have hmem := (hsent'.mem_iff i).mpr ⟨hfd, hret⟩
    exact (List.mem_append.mp hmem).resolve_left fun hi => hnot ((hsent.mem_iff i).mp hi).2

theorem replies_keep_real_time_pair :
    let W : World Bool Ans (Ledger Pending Bytes) := kernelWorld .small Pkm.SmallStatus 3
    Pkm.small.Documented Pkm.SmallOp Pkm.SmallStatus ∧ Pkm.small.ResponseBit ∧
      Pkm.small.RequestOps ∧ ChecksFrames Pkm.SmallStatus 3 W id ∧ TakesWhole 3 W ∧
      KeepsLedger .small 3 W id ∧
      Reaches W (respondPool .small (fun _ => 3) smallPair .empty) askedPair ∧
      ∃ y, Reaches W askedPair y ∧
        ∃ (l l' : Ledger Pending Reply) (m : List (Pending × Reply)),
          askedPair.world.Reads (readReply .small) l ∧ y.world.Reads (readReply .small) l' ∧
          l'.answered = l.answered ++ m ∧ m ≠ [] := by
  refine ⟨Pkm.small_documented, Pkm.small_responseBit, Pkm.small_requestOps,
    checksFrames_kernelWorld, takesWhole_kernelWorld, keepsLedger_kernelWorld, reaches_askedPair,
    ?_⟩
  obtain ⟨y, hstep, hnot, hret⟩ := exists_step_askedPair
  refine ⟨y, .single hstep, ?_⟩
  obtain ⟨l, l', -, after, m, ⟨-, hreads⟩, ⟨-, hreads'⟩, hm, -, hsays, hafter⟩ :=
    replies_keep_real_time .small Pkm.SmallOp Pkm.SmallStatus (fun _ => 3) smallPair 3
      Pkm.small_documented Pkm.small_responseBit Pkm.small_requestOps checksFrames_kernelWorld
      takesWhole_kernelWorld keepsLedger_kernelWorld rfl reaches_askedPair (.single hstep)
  have hmem : true ∈ after := (hafter true).mpr ⟨rfl, hret, hnot⟩
  refine ⟨l, l', m, hreads, hreads', hm, ?_⟩
  rintro rfl
  exact List.not_mem_nil (List.forall₂_nil_right_iff.mp hsays ▸ hmem)

/-! ## What the checks turn down -/

/-- What an accepted call prepares when no allocation fails. -/
theorem Prepared.eq_ret {c : Prop} {frame : Bytes} {o : Outcome Errno Bytes} {t : Trace}
    (h : Prepared c frame o t) (hfine : ¬ ReserveFailed t) (hfine' : ¬ ExtendFailed t) (hc : c)
    (hsmall : frame.length < 2 ^ 32) : o = .ret frame := by
  cases h with
  | noRoom alloc failed => exact absurd failed hfine
  | rejected alloc fine fails => exact absurd hc fails
  | latched alloc fine holds failed => exact absurd failed hfine'
  | tooLarge alloc fine fine' holds big => exact absurd big (not_le.mpr hsmall)
  | ready alloc fine fine' holds small => rfl

/-- Every call prepares a frame and sends it. -/
theorem RespondCall.exists_send (P : Pkm) (fd : CInt) (call : RespondCall) :
    ∃ m, call.exec P fd = send fd m ∧ m.All (Prepared (call.Accepted P) (call.frame P)) := by
  cases call with
  | status req code => exact ⟨_, rsiRespondStatus_eq_send P fd req code, prepared_status req code⟩
  | payload k req args =>
    have hprepared := prepared_payload (P := P) k.op req (parts args).computes (parts args).encodes
    rw [(parts args).accepts_iff] at hprepared
    exact ⟨_, respond_eq P fd k req args, hprepared⟩

/-- The frame of an accepted call passes for its own request, and for no other that is known. -/
theorem RespondCall.Accepted.exists_passes (hP : P.Documented KnownOp KnownStatus)
    (hbit : P.ResponseBit) (hops : P.RequestOps) {call : RespondCall}
    (haccepted : call.Accepted P) (hsmall : (call.frame P).length < 2 ^ 32) :
    ∃ q, call.pending? = some q ∧ Passes KnownStatus q (call.frame P) ∧
      ∀ q', (P.rsiResponseOpCode q'.op).isSome → Passes KnownStatus q' (call.frame P) →
        q' = q := by
  obtain ⟨q, hq, hknown, hpasses, -⟩ := haccepted.exists_pending hsmall hP hbit
  exact ⟨q, hq, hpasses, fun q' hknown' hpasses' =>
    hpasses'.eq_of_passes hops hknown' hknown hpasses⟩

variable (P KnownOp KnownStatus fds calls) in
/-- **The checks turn down no frame of the library, unless its request is not pending.**  At
every moment a call is about to write, and whichever requests the kernel has pending then: the
call writes to its own descriptor, a frame that passes for a pending request exactly if the
request the call was given is pending, and then for that request only; and once the frame is
taken, the call has returned `0`. -/
theorem frame_passes_iff_pending (hP : P.Documented KnownOp KnownStatus) (hbit : P.ResponseBit)
    (hops : P.RequestOps) (hx : Reaches W (respondPool P fds calls w) x) {i : ι} {fd' : CInt}
    {buf : Bytes} {k : Except Errno ℕ → Sys CInt} (hcall : x.left i = .call (.write fd' buf) k)
    {pending : List Pending} (hknown : ∀ q ∈ pending, (P.rsiResponseOpCode q.op).isSome) :
    fd' = fds i ∧ (∃ q, (calls i).pending? = some q ∧
      ((∃ q' ∈ pending, Passes KnownStatus q' buf) ↔ q ∈ pending) ∧
      ∀ q' ∈ pending, Passes KnownStatus q' buf → q' = q) ∧
      k (.ok buf.length) = .ret 0 := by
  -- one more event settles what is being written
  obtain ⟨o, t, hconf⟩ := hx.next (fun j => (calls j).conforms_exec P (fds j)) hcall
    (.ok buf.length : Except Errno ℕ)
  rw [← List.singleton_append, ← List.append_assoc] at hconf
  obtain ⟨hfd, hbuf, ⟨haccepted, hsmall⟩, -⟩ := hconf.of_mem_write
    (List.mem_append_right _ List.mem_cons_self)
  obtain ⟨q, hq, hpasses, hunique⟩ := haccepted.exists_passes hP hbit hops hsmall
  rw [← hbuf] at hpasses hunique
  refine ⟨hfd, ⟨q, hq, ⟨?_, fun hmem => ⟨q, hmem, hpasses⟩⟩,
    fun q' hmem => hunique q' (hknown q' hmem)⟩, ?_⟩
  · rintro ⟨q', hmem, hpasses'⟩
    exact hunique q' (hknown q' hmem) hpasses' ▸ hmem
  · have hall := all_conforms hx i
    rw [hcall] at hall
    refine Prog.All.eq_ret ((hall (.ok buf.length : Except Errno ℕ)).mono fun o t hconf => ?_)
    rw [← List.singleton_append, ← List.append_assoc] at hconf
    obtain ⟨-, -, -, hend, -⟩ := hconf.of_mem_write (List.mem_append_right _ List.mem_cons_self)
    exact hend (by rw [hbuf])

theorem frame_passes_iff_pending_pair :
    ∃ k, askedPair.left true = .call (.write 3 ((smallPair true).frame .small)) k ∧
      Pkm.small.Documented Pkm.SmallOp Pkm.SmallStatus ∧ Pkm.small.ResponseBit ∧
      Pkm.small.RequestOps ∧
      Reaches (kernelWorld .small Pkm.SmallStatus 3)
        (respondPool .small (fun _ => 3) smallPair .empty) askedPair ∧
      (∀ q ∈ askedPair.world.pending, (Pkm.small.rsiResponseOpCode q.op).isSome) ∧
      ∃ q ∈ askedPair.world.pending, Passes Pkm.SmallStatus q ((smallPair true).frame .small) := by
  have hknown : ∀ q ∈ askedPair.world.pending, (Pkm.small.rsiResponseOpCode q.op).isSome := by
    decide
  refine ⟨_, rsiRespondStatus_eq_writeFrame 3 (statusOk_smallPair true), Pkm.small_documented,
    Pkm.small_responseBit, Pkm.small_requestOps, reaches_askedPair, hknown, ?_⟩
  obtain ⟨-, ⟨q, hq, hiff, -⟩, -⟩ := frame_passes_iff_pending .small Pkm.SmallOp Pkm.SmallStatus
    (fun _ => 3) smallPair Pkm.small_documented Pkm.small_responseBit Pkm.small_requestOps
    reaches_askedPair (rsiRespondStatus_eq_writeFrame 3 (statusOk_smallPair true)) hknown
  obtain rfl : ⟨8, 18⟩ = q := Option.some.inj hq
  exact hiff.mpr List.mem_cons_self

/-- With memory, an accepted call comes to its `write`, and the kernel does not notice. -/
theorem GrantsMemory.reaches_writeFrame (hmemory : GrantsMemory W view) {i : ι}
    {call : RespondCall} (hleft : x.left i = call.exec P fd) (haccepted : call.Accepted P)
    (hsmall : (call.frame P).length < 2 ^ 32) :
    ∃ y, Reaches W x y ∧ view y.world = view x.world ∧
      y.left i = writeFrame fd (call.frame P) := by
  obtain ⟨m, hm, hprepared⟩ := call.exists_send P fd
  have hp : m.All fun o t => (∀ e ∈ t, ∀ s, view s = view x.world →
      ∃ a s', (¬ ReserveFailure ⟨e.call, a⟩ ∧ ¬ ExtendFailure ⟨e.call, a⟩) ∧
        view s' = view x.world ∧ W.answers s i ⟨e.call, a⟩ s') ∧
      ((∀ e ∈ t, ¬ ReserveFailure e ∧ ¬ ExtendFailure e) →
        ∃ frame, o = .ret frame ∧ frame = call.frame P) := by
    refine hprepared.mono fun o t ht => ⟨fun e he s hs => ?_, fun hgood => ?_⟩
    · rcases ht.allocOnly e he with ⟨n, hn⟩ | ⟨b, hb⟩
      · obtain ⟨slack, s', hanswer, hs'⟩ := hmemory.reserve s i n
        rw [hn]
        exact ⟨some slack, s', ⟨id, id⟩, hs'.trans hs, hanswer⟩
      · obtain ⟨s', hanswer, hs'⟩ := hmemory.extend s i b
        rw [hb]
        exact ⟨.appended, s', ⟨id, id⟩, hs'.trans hs, hanswer⟩
    · refine ⟨_, ht.eq_ret ?_ ?_ haccepted hsmall, rfl⟩
      · rintro ⟨e, he, hfail⟩
        exact (hgood e he).1 hfail
      · rintro ⟨e, he, hfail⟩
        exact (hgood e he).2 hfail
  obtain ⟨y, frame, hxy, hview, hwrite, rfl⟩ :=
    Reaches.either (W := W) (R := fun s => view s = view x.world)
      (G := fun e => ¬ ReserveFailure e ∧ ¬ ExtendFailure e) (Q := fun f => f = call.frame P)
      (hleft.trans hm) rfl hp
  exact ⟨y, hxy, hview, hwrite⟩

variable (P KnownOp KnownStatus fd) in
/-- **A pending request can be answered.**  From any state, reachable or not, in which the
request is pending: a call that has not started yet, whose arguments break no rule and whose
frame one `write` can carry, can run on its own to the end, return `0`, and leave its frame as
the answer to the request.  This takes an allocator that grants memory, and a kernel that can
take a frame that passes. -/
theorem pending_request_can_be_answered (hP : P.Documented KnownOp KnownStatus)
    (hbit : P.ResponseBit) (hops : P.RequestOps) (hchecks : ChecksFrames KnownStatus fd W view)
    (hpassing : TakesPassing KnownStatus fd W view) (hmemory : GrantsMemory W view) {i : ι}
    {call : RespondCall} (hleft : x.left i = call.exec P fd) (haccepted : call.Accepted P)
    (hsmall : (call.frame P).length ≤ maxWrite) {q : Pending} (hq : call.pending? = some q)
    (hknown : ∀ q ∈ (view x.world).pending, (P.rsiResponseOpCode q.op).isSome)
    (hpending : q ∈ (view x.world).pending) :
    ∃ y, Reaches W x y ∧ y.left i = .ret 0 ∧
      (view y.world).answered = (view x.world).answered ++ [(q, call.frame P)] := by
  have hlt : (call.frame P).length < 2 ^ 32 := lt_of_le_of_lt hsmall (by decide)
  obtain ⟨q', hq', hpasses, hunique⟩ := haccepted.exists_passes hP hbit hops hlt
  obtain rfl := Option.some.inj (hq.symm.trans hq')
  obtain ⟨y, hxy, hview, hwrite⟩ := hmemory.reaches_writeFrame hleft haccepted hlt
  obtain ⟨s', hanswer⟩ := hpassing y.world i q _ (hview ▸ hpending) hpasses hsmall
  obtain ⟨q', hq', hpasses', hanswered⟩ := hchecks _ _ _ _ _ hanswer
  rw [hview] at hq' hanswered
  obtain rfl := hunique q' (hknown q' hq') hpasses'
  exact ⟨_, hxy.tail (.call _ hwrite hanswer), by simp, hanswered⟩

theorem pending_request_can_be_answered_pair :
    let W : World Bool Ans (Ledger Pending Bytes) := kernelWorld .small Pkm.SmallStatus 3
    Pkm.small.Documented Pkm.SmallOp Pkm.SmallStatus ∧ Pkm.small.ResponseBit ∧
      Pkm.small.RequestOps ∧ ChecksFrames Pkm.SmallStatus 3 W id ∧
      TakesPassing Pkm.SmallStatus 3 W id ∧ GrantsMemory W id ∧
      (smallPair true).Accepted .small ∧ ((smallPair true).frame .small).length ≤ maxWrite ∧
      (∀ q ∈ askedPair.world.pending, (Pkm.small.rsiResponseOpCode q.op).isSome) ∧
      (⟨8, 18⟩ : Pending) ∈ askedPair.world.pending ∧
      ∃ y, Reaches W askedPair y ∧ y.left true = .ret 0 ∧
        y.world.answered = [(⟨8, 18⟩, (smallPair true).frame .small)] := by
  have haccepted : (smallPair true).Accepted .small := statusOk_smallPair true
  have hsmall : ((smallPair true).frame .small).length ≤ maxWrite := by decide +kernel
  have hknown : ∀ q ∈ askedPair.world.pending, (Pkm.small.rsiResponseOpCode q.op).isSome := by
    decide
  refine ⟨Pkm.small_documented, Pkm.small_responseBit, Pkm.small_requestOps,
    checksFrames_kernelWorld, takesPassing_kernelWorld, grantsMemory_kernelWorld, haccepted, hsmall,
    hknown, List.mem_cons_self, ?_⟩
  exact pending_request_can_be_answered .small Pkm.SmallOp Pkm.SmallStatus 3
    Pkm.small_documented Pkm.small_responseBit Pkm.small_requestOps checksFrames_kernelWorld
    takesPassing_kernelWorld grantsMemory_kernelWorld (x := askedPair) (i := true) rfl haccepted
    hsmall rfl hknown List.mem_cons_self

end Refinement

end Librsi

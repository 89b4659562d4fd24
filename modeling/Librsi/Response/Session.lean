import Librsi.Response.RoundTrip

/-!
# What appears on the descriptor

The kernel reads a stream of frames.  It finds the next frame by the length in front of
the last one, and it knows which request a frame answers, and how to parse it, by the id,
the op code and the status in its header.

`responses_stream_of_frames` says that a session of responder calls, with whatever
arguments and whatever allocation failures, leaves exactly the frames of the calls that
returned `0` on the descriptor.  `response_shape_fits_request` says that every frame has
the shape its request calls for.
-/

namespace Librsi

open WireFormat Interaction Layout

/-! ## The header of a response -/

/-- The frame is whole, and its header carries what the call answers with. -/
def Answers (P : Pkm) (call : RespondCall) (f : Bytes) : Prop :=
  ∃ q, call.req = some q ∧ statusFrameLen ≤ f.length ∧ totalLenOf f = f.length ∧
    requestIdOf f = q.requestId.toNat ∧ opCodeOf f = (q.opCode ||| 0x8000).toNat ∧
    statusOf f = (call.answeredStatus P).toNat

theorem Answers.selfDelimiting {P : Pkm} {call : RespondCall} {f : Bytes}
    (h : Answers P call f) : SelfDelimiting f := by
  obtain ⟨q, -, hmin, htotal, -⟩ := h
  exact ⟨le_trans (by decide) hmin, htotal⟩

/-- An accepted call has a request, and the request a response op code. -/
theorem RespondCall.Accepted.exists_respOp {P : Pkm} {call : RespondCall}
    (h : call.Accepted P) :
    ∃ q respOp, call.req = some q ∧ P.rsiResponseOpCode q.opCode = some respOp ∧
      call.frame P = Layout.frame q.requestId respOp (call.answeredStatus P) call.body := by
  have hknown : ∃ q, call.req = some q ∧ (P.rsiResponseOpCode q.opCode).isSome := by
    cases call with
    | status req code =>
      obtain ⟨q, hq, hsome, -⟩ := h
      exact ⟨q, hq, hsome⟩
    | payload k req args =>
      obtain ⟨⟨q, hq, -, hsome⟩, -⟩ := h
      exact ⟨q, hq, hsome⟩
  obtain ⟨q, hq, hsome⟩ := hknown
  obtain ⟨respOp, hresp⟩ := Option.isSome_iff_exists.mp hsome
  refine ⟨q, respOp, hq, hresp, ?_⟩
  rw [RespondCall.frame, hq, responseFrame_eq hresp]

theorem answers_frame {P : Pkm} (hbit : P.ResponseBit) {call : RespondCall}
    (h : call.Accepted P) (hsmall : (call.frame P).length < 2 ^ 32) :
    Answers P call (call.frame P) := by
  obtain ⟨q, respOp, hq, hresp, hframe⟩ := h.exists_respOp
  rw [hframe, length_frame] at hsmall
  refine ⟨q, hq, ?_, ?_, ?_, ?_, ?_⟩
  · rw [hframe, length_frame]
    exact Nat.le_add_right _ _
  · rw [hframe, totalLenOf_frame _ _ _ _ hsmall, length_frame]
  · rw [hframe, requestIdOf_frame]
  · rw [hframe, opCodeOf_frame, hbit _ _ hresp]
  · rw [hframe, statusOf_frame]

/-! ## Sessions -/

/-- One call left one frame, or nothing. -/
def OneFrameOrNothing (P : Pkm) (fd : CInt) (call : RespondCall) (o : Outcome Errno CInt)
    (t : Trace) : Prop :=
  (handed t).length ≤ 1 ∧
    (o = .ret 0 ∧ handed t = [(fd, stream fd t)] ∧ Answers P call (stream fd t) ∨
      o = .ret (-1) ∧ stream fd t = [])

/-- A `write` in a run took everything, if it took anything. -/
theorem Env.WritesWhole.of_mem {α : Type} {env : Env} (h : env.WritesWhole) {p : Sys α}
    {past : Trace} {fd : CInt} {buf : Bytes} {n : ℕ}
    (hmem : ⟨.write fd buf, .ok n⟩ ∈ (exec env p past).2) : n = buf.length := by
  obtain ⟨past', hans⟩ := Prog.exists_answer_of_mem_run hmem
  exact h past' fd buf n hans.symm

theorem Conforms.oneFrameOrNothing {P : Pkm} (hbit : P.ResponseBit) {fd : CInt}
    {call : RespondCall} {o : Outcome Errno CInt} {t : Trace}
    (h : Conforms fd (call.Accepted P) (call.frame P) o t)
    (hwhole : ∀ n, ⟨.write fd (call.frame P), .ok n⟩ ∈ t → n = (call.frame P).length) :
    OneFrameOrNothing P fd call o t := by
  cases h with
  | failed prep =>
    rw [OneFrameOrNothing, prep.allocOnly.handed_append, prep.allocOnly.stream_append]
    exact ⟨Nat.zero_le 1, Or.inr ⟨rfl, rfl⟩⟩
  | refused prep =>
    rw [OneFrameOrNothing, prep.allocOnly.handed_append, prep.allocOnly.stream_append]
    exact ⟨le_refl 1, Or.inr ⟨rfl, rfl⟩⟩
  | sent prep =>
    have hstream : stream fd [⟨.write fd (call.frame P), .ok (call.frame P).length⟩] =
        call.frame P := by
      simp [stream, takenBy]
    rw [OneFrameOrNothing, prep.allocOnly.handed_append, prep.allocOnly.stream_append, hstream]
    refine ⟨le_refl 1, Or.inl ⟨rfl, rfl, ?_⟩⟩
    cases prep with
    | ready alloc fine fine' holds small => exact answers_frame hbit holds small
  | @short n t prep ne => exact absurd (hwhole n (by simp)) ne

/-- The frames of the calls that returned `0`, in order. -/
def sentFrames (fd : CInt) (runs : List (Outcome Errno CInt × Trace)) : List Bytes :=
  (runs.filter fun r => r.1 = .ret 0).map fun r => stream fd r.2

/-- The stream is the concatenation of the frames that were sent. -/
theorem stream_eq_flatten {P : Pkm} {fd : CInt} {calls : List RespondCall}
    {runs : List (Outcome Errno CInt × Trace)}
    (h : List.Forall₂ (fun call r => OneFrameOrNothing P fd call r.1 r.2) calls runs) :
    stream fd (runs.flatMap Prod.snd) = (sentFrames fd runs).flatten ∧
      ∀ f ∈ sentFrames fd runs, SelfDelimiting f := by
  induction h with
  | nil => exact ⟨rfl, fun _ hf => absurd hf List.not_mem_nil⟩
  | @cons call r calls runs hr _ ih =>
    rw [List.flatMap_cons, stream_append, ih.1]
    rcases hr.2 with ⟨hret, -, hanswers⟩ | ⟨hret, hstream⟩
    · have hsent : sentFrames fd (r :: runs) = stream fd r.2 :: sentFrames fd runs := by
        simp [sentFrames, hret]
      rw [hsent, List.flatten_cons]
      exact ⟨rfl, List.forall_mem_cons.mpr ⟨hanswers.selfDelimiting, ih.2⟩⟩
    · have hsent : sentFrames fd (r :: runs) = sentFrames fd runs := by
        simp [sentFrames, hret]
      rw [hsent, hstream, List.nil_append]
      exact ⟨rfl, ih.2⟩

/-- **A session leaves a stream of frames.**  Whatever the calls, their arguments and the
allocator do, as long as each `write` fails or takes its whole buffer: every call writes
at most once; splitting the stream by the lengths in it gives exactly the frames of the
calls that returned `0`, in call order; each of these answers its own call; and a call
that returned `-1` contributed nothing. -/
theorem responses_stream_of_frames (P : Pkm) (hbit : P.ResponseBit) (fd : CInt) (env : Env)
    (hwhole : env.WritesWhole) (calls : List RespondCall) (past : Trace) :
    let runs := session env.answer (calls.map fun call => call.exec P fd) past
    splitFrames (stream fd (runs.flatMap Prod.snd)) = some (sentFrames fd runs) ∧
      List.Forall₂ (fun call r => OneFrameOrNothing P fd call r.1 r.2) calls runs := by
  intro runs
  have hruns : List.Forall₂ (fun call r => OneFrameOrNothing P fd call r.1 r.2) calls runs := by
    have hall : List.Forall₂ (fun p r => ∀ call : RespondCall, call.exec P fd = p →
        OneFrameOrNothing P fd call r.1 r.2) (calls.map fun call => call.exec P fd) runs := by
      refine session_forall₂ env.answer _ past ?_
      rintro p - h call rfl
      exact ((call.conforms_exec P fd).run env.answer h).oneFrameOrNothing hbit
        fun n => hwhole.of_mem
    exact (List.forall₂_map_left_iff.mp hall).imp fun call r h => h call rfl
  obtain ⟨hstream, hframes⟩ := stream_eq_flatten hruns
  refine ⟨?_, hruns⟩
  rw [hstream, splitFrames_flatten hframes]

/-- A FLUSH that succeeded, a LOOKUP without the metadata it needs, and a DELETE_LAYER. -/
def smallCalls : List RespondCall :=
  [.status (some ⟨7, 0, 0, 0, 18⟩) 0,
    .payload .lookup (some ⟨8, 0, 0, 0, 1⟩) ⟨smallEntries, Arr.null⟩,
    .payload .deleteLayer (some ⟨9, 0, 0, 0, 17⟩) smallOrphans]

theorem responses_stream_of_frames_small :
    let runs := session Env.granting.answer (smallCalls.map fun call => call.exec .small 3) []
    Pkm.small.ResponseBit ∧ Env.granting.WritesWhole ∧ (sentFrames 3 runs).length = 2 ∧
      splitFrames (stream 3 (runs.flatMap Prod.snd)) = some (sentFrames 3 runs) := by
  intro runs
  refine ⟨Pkm.small_responseBit, Env.granting_writesWhole, by decide +kernel, ?_⟩
  exact (responses_stream_of_frames .small Pkm.small_responseBit 3 .granting
    Env.granting_writesWhole smallCalls []).1

/-! ## Shapes -/

/-- What the shape of a frame has to be, given the request it answers. -/
structure ShapeFits (P : Pkm) (KnownStatus : UInt32 → Prop) (call : RespondCall)
    (q : RsiRequest) (status : UInt32) (f : Bytes) : Prop where
  status_eq : statusOf f = status.toNat
  known : KnownStatus status
  failure : status ≠ P.rsiOk → f.length = statusFrameLen
  payload : status = P.rsiOk → ∀ k : Kind, q.opCode = P.opCode16 k.op →
    call.kind? = some k ∧ (k.layout.strict (f.drop statusFrameLen)).isSome
  bare : status = P.rsiOk → (∀ k : Kind, q.opCode ≠ P.opCode16 k.op) → f.length = statusFrameLen

theorem isPayloadOp_iff {P : Pkm} {op : UInt16} :
    P.IsPayloadOp op ↔ ∃ k : Kind, op = P.opCode16 k.op := by
  constructor
  · rintro (h | h | h | h | h)
    · exact ⟨.lookup, h⟩
    · exact ⟨.enumChildren, h⟩
    · exact ⟨.readKey, h⟩
    · exact ⟨.deleteLayer, h⟩
    · exact ⟨.queryValues, h⟩
  · rintro ⟨k, h⟩
    cases k with
    | lookup => exact Or.inl h
    | enumChildren => exact Or.inr (Or.inl h)
    | readKey => exact Or.inr (Or.inr (Or.inl h))
    | deleteLayer => exact Or.inr (Or.inr (Or.inr (Or.inl h)))
    | queryValues => exact Or.inr (Or.inr (Or.inr (Or.inr h)))

/-- The frame of an accepted call has the right shape. -/
theorem shapeFits_frame {P : Pkm} {KnownOp : UInt16 → Prop} {KnownStatus : UInt32 → Prop}
    (hP : P.Documented KnownOp KnownStatus) {call : RespondCall} (h : call.Accepted P) :
    ∃ q, call.req = some q ∧ KnownOp q.opCode ∧
      ShapeFits P KnownStatus call q (call.answeredStatus P) (call.frame P) := by
  obtain ⟨q, respOp, hq, hresp, hframe⟩ := h.exists_respOp
  have hop : KnownOp q.opCode := (hP.response_known _).mp (by rw [hresp]; rfl)
  have hlen : (call.frame P).length = statusFrameLen + call.body.length := by
    rw [hframe, length_frame]
  have hstatus : statusOf (call.frame P) = (call.answeredStatus P).toNat := by
    rw [hframe, statusOf_frame]
  refine ⟨q, hq, hop, ?_⟩
  cases call with
  | status req code =>
    obtain ⟨q', hq', -, s, hs, hok⟩ := h
    obtain rfl : q' = q := Option.some.inj (hq'.symm.trans hq)
    refine ⟨hstatus, (hP.status_known code).mp (by rw [hs]; rfl), fun _ => hlen, ?_, fun _ _ => hlen⟩
    -- a bare success of a payload op is what `validate_status_response` rules out
    intro hcode k hk
    have hs' : s = .ok := Option.some.inj (hs.symm.trans ((hP.status_ok code).mpr hcode))
    have hfalse := (hP.status_only_false q'.opCode).mpr (isPayloadOp_iff.mpr ⟨k, hk⟩)
    exact absurd (hfalse.symm.trans (hok hs')) (by simp)
  | payload k req args =>
    obtain ⟨⟨q', hq', hopk, -⟩, hptrs, -⟩ := h
    obtain rfl : q' = q := Option.some.inj (hq'.symm.trans hq)
    have hknown : KnownStatus P.rsiOk :=
      (hP.status_known _).mp (by rw [(hP.status_ok P.rsiOk).mpr rfl]; rfl)
    refine ⟨hstatus, hknown, fun hne => absurd rfl hne, fun _ k' hk' => ?_,
      fun _ hnone => absurd hopk (hnone k)⟩
    obtain rfl : k = k' := Kind.op_injective (P.opCode16_injective (hopk.symm.trans hk'))
    refine ⟨rfl, ?_⟩
    rw [hframe, drop_frame, RespondCall.body, k.layout.strict_iff.mpr ⟨fits_value args hptrs, rfl⟩]
    rfl

theorem verdict_exec (P : Pkm) (fd : CInt) (call : RespondCall) (env : Env) (past : Trace) :
    Verdict fd (call.Accepted P) (call.frame P) (exec env (call.exec P fd) past).1
      (exec env (call.exec P fd) past).2 :=
  ((call.conforms_exec P fd).run env.answer past).verdict

/-- **The shape of a response always fits its request.**  The status is known; a failure
is a bare header; a success of one of the five payload ops is built by that op's own
responder and parses as its layout; a success of any other op is a bare header; and
nothing is ever written for an op that is not known. -/
theorem response_shape_fits_request (P : Pkm) (KnownOp : UInt16 → Prop)
    (KnownStatus : UInt32 → Prop) (hP : P.Documented KnownOp KnownStatus) (call : RespondCall)
    (fd : CInt) (env : Env) (past : Trace) :
    let t := (exec env (call.exec P fd) past).2
    (∀ fd' f, (fd', f) ∈ handed t →
        ∃ q status, call.req = some q ∧ ShapeFits P KnownStatus call q status f) ∧
      ∀ q, call.req = some q → ¬ KnownOp q.opCode → handed t = [] := by
  intro t
  have hverdict := verdict_exec P fd call env past
  refine ⟨fun fd' f hf => ?_, fun q hq hunknown => ?_⟩
  · obtain ⟨haccepted, -, rfl, -⟩ := hverdict.of_mem_handed hf
    obtain ⟨q, hq, -, hshape⟩ := shapeFits_frame hP haccepted
    exact ⟨q, _, hq, hshape⟩
  · by_contra hne
    obtain ⟨⟨fd', f⟩, hf⟩ := List.exists_mem_of_ne_nil _ hne
    obtain ⟨haccepted, -⟩ := hverdict.of_mem_handed hf
    obtain ⟨q', hq', hknown, -⟩ := shapeFits_frame hP haccepted
    exact hunknown (Option.some.inj (hq'.symm.trans hq) ▸ hknown)

theorem response_shape_fits_request_flush :
    let flush : RespondCall := .status (some ⟨7, 0, 0, 0, 18⟩) 0
    let orphans : RespondCall := .payload .deleteLayer (some ⟨9, 0, 0, 0, 17⟩) smallOrphans
    Pkm.small.Documented Pkm.SmallOp Pkm.SmallStatus ∧
      (∃ fd f, (fd, f) ∈ handed (exec .granting (flush.exec .small 3) []).2 ∧
        f.length = statusFrameLen) ∧
      ∃ fd f, (fd, f) ∈ handed (exec .granting (orphans.exec .small 3) []).2 ∧
        statusOf f = 0 ∧ (deleteLayerResult.strict (f.drop statusFrameLen)).isSome := by
  intro flush orphans
  refine ⟨Pkm.small_documented, ?_, ?_⟩
  · have hwrote : handed (exec .granting (flush.exec .small 3) []).2 ≠ [] := by decide +kernel
    obtain ⟨⟨fd, f⟩, hf⟩ := List.exists_mem_of_ne_nil _ hwrote
    obtain ⟨q, status, hq, hshape⟩ := (response_shape_fits_request .small Pkm.SmallOp
      Pkm.SmallStatus Pkm.small_documented flush 3 .granting []).1 fd f hf
    have hflush : ∀ k : Kind, q.opCode ≠ Pkm.small.opCode16 k.op := by
      intro k
      rw [← Option.some.inj hq]
      cases k <;> decide
    refine ⟨fd, f, hf, ?_⟩
    by_cases hok : status = Pkm.small.rsiOk
    · exact hshape.bare hok hflush
    · exact hshape.failure hok
  · have hlen : ∀ f ∈ handed (exec .granting (orphans.exec .small 3) []).2,
        f.2.length ≠ statusFrameLen := by decide +kernel
    have hwrote : handed (exec .granting (orphans.exec .small 3) []).2 ≠ [] := by decide +kernel
    obtain ⟨⟨fd, f⟩, hf⟩ := List.exists_mem_of_ne_nil _ hwrote
    obtain ⟨q, status, hq, hshape⟩ := (response_shape_fits_request .small Pkm.SmallOp
      Pkm.SmallStatus Pkm.small_documented orphans 3 .granting []).1 fd f hf
    have hok : status = Pkm.small.rsiOk := by
      by_contra hne
      exact hlen _ hf (hshape.failure hne)
    have hop : q.opCode = Pkm.small.opCode16 Kind.deleteLayer.op := by
      rw [← Option.some.inj hq]
      rfl
    exact ⟨fd, f, hf, by rw [hshape.status_eq, hok]; rfl, (hshape.payload hok _ hop).2⟩

end Librsi

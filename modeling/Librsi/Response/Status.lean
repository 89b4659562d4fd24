import Librsi.Response.Outcome

/-!
# The status responder

`rsi_respond_status` is the one responder that does not need memory: its frame is a fixed
array of 18 bytes.  So a source that has run out of memory can still say so, and the whole
function comes to one case distinction: `EINVAL`, or one `write`
(`rsiRespondStatus_eq_writeFrame`, `rsiRespondStatus_eq_failErrno`).
-/

namespace Librsi

open WireFormat Interaction Layout

variable {P : Pkm} {req : Option RsiRequest} {status : UInt32}

/-! ## The two cases -/

theorem rsiRespondStatus_eq_writeFrame (fd : CInt) (h : StatusOk P req status) :
    rsiRespondStatus P fd req status = writeFrame fd (responseFrame P req status []) := by
  rcases prepareStatus_cases (P := P) req status with ⟨-, heq⟩ | ⟨hnot, -⟩
  · rw [rsiRespondStatus_eq_send, heq]
    rfl
  · exact absurd h hnot

theorem rsiRespondStatus_eq_failErrno (fd : CInt) (h : ¬ StatusOk P req status) :
    rsiRespondStatus P fd req status = failErrno EINVAL := by
  rcases prepareStatus_cases (P := P) req status with ⟨hok, -⟩ | ⟨-, heq⟩
  · exact absurd hok h
  · rw [rsiRespondStatus_eq_send, heq]
    rfl

/-! ## What may be answered -/

/-- The ways to break a rule of `rsi_respond_status`. -/
inductive StatusFault (P : Pkm) (KnownOp : UInt16 → Prop) (KnownStatus : UInt32 → Prop)
    (req : Option RsiRequest) (status : UInt32) : Prop
  | null (h : req = none)
  | op (r : RsiRequest) (h : req = some r) (unknown : ¬ KnownOp r.opCode)
  | status (unknown : ¬ KnownStatus status)
  | payloadOp (r : RsiRequest) (h : req = some r) (ok : status = P.rsiOk)
      (owes : P.IsPayloadOp r.opCode)

/-- `rsi_request_has_status_only_response` has an answer for every known op. -/
def Pkm.StatusOnlyKnown (P : Pkm) (KnownOp : UInt16 → Prop) : Prop :=
  ∀ op, KnownOp op → (P.rsiRequestHasStatusOnlyResponse op).isSome

theorem statusOk_iff_not_statusFault {KnownOp : UInt16 → Prop} {KnownStatus : UInt32 → Prop}
    (hP : P.Documented KnownOp KnownStatus) (hops : P.StatusOnlyKnown KnownOp) :
    StatusOk P req status ↔ ¬ StatusFault P KnownOp KnownStatus req status := by
  constructor
  · rintro ⟨r, rfl, hsome, s, hs, hok⟩ hfault
    cases hfault with
    | null h => exact absurd h (by simp)
    | op r' h unknown =>
      rw [← Option.some.inj h] at unknown
      exact unknown ((hP.response_known _).mp hsome)
    | status unknown => exact unknown ((hP.status_known _).mp (by rw [hs]; rfl))
    | payloadOp r' h ok owes =>
      rw [← Option.some.inj h] at owes
      have hs' : s = .ok := Option.some.inj (hs.symm.trans ((hP.status_ok status).mpr ok))
      have hfalse := (hP.status_only_false r.opCode).mpr owes
      exact absurd (hfalse.symm.trans (hok hs')) (by simp)
  · intro hfine
    cases req with
    | none => exact absurd (.null rfl) hfine
    | some r =>
      have hop : KnownOp r.opCode := by
        by_contra h
        exact hfine (.op r rfl h)
      have hstatus : KnownStatus status := by
        by_contra h
        exact hfine (.status h)
      obtain ⟨s, hs⟩ := Option.isSome_iff_exists.mp ((hP.status_known status).mpr hstatus)
      refine ⟨r, rfl, (hP.response_known _).mpr hop, s, hs, fun hok => ?_⟩
      -- a known op has a status-only success or owes a payload
      obtain ⟨b, hb⟩ := Option.isSome_iff_exists.mp (hops _ hop)
      cases b with
      | true => exact hb
      | false =>
        have hcode : status = P.rsiOk := (hP.status_ok status).mp (hok ▸ hs)
        exact absurd (.payloadOp r rfl hcode ((hP.status_only_false _).mp hb)) hfine

/-- What one `write` of a frame comes to. -/
def WriteResult (fd : CInt) (frame : Bytes) (o : Outcome Errno CInt) (t : Trace) : Prop :=
  (∃ e, o = .ret (-1) ∧ t = [⟨.write fd frame, .error e⟩]) ∨
    o = .ret 0 ∧ t = [⟨.write fd frame, .ok frame.length⟩] ∨
      ∃ n, n ≠ frame.length ∧ o = .ret (-1) ∧
        t = [⟨.write fd frame, .ok n⟩, ⟨.setErrno EIO, ()⟩]

theorem writeResult_writeFrame (fd : CInt) (frame : Bytes) :
    (writeFrame fd frame).All (WriteResult fd frame) := by
  intro a
  cases a with
  | error e => exact Or.inl ⟨e, rfl, rfl⟩
  | ok n =>
    by_cases hn : n = frame.length
    · simp only [hn, if_true]
      exact Or.inr (Or.inl ⟨rfl, rfl⟩)
    · simp only [hn, if_false]
      exact fun _ => Or.inr (Or.inr ⟨n, hn, rfl, rfl⟩)

/-- **The status responder, exactly.**  A call breaks one of four rules and returns `-1` with
`EINVAL`, having done nothing but set it; or it makes one `write`, of 18 bytes that carry the
request's id, its op code with the response bit, and the status, and returns what the `write`
came to.  Either way it asks for no memory, so running out of memory cannot keep a source
from reporting it. -/
theorem rsiRespondStatus_exact (P : Pkm) (KnownOp : UInt16 → Prop) (KnownStatus : UInt32 → Prop)
    (hP : P.Documented KnownOp KnownStatus) (hops : P.StatusOnlyKnown KnownOp)
    (hbit : P.ResponseBit) (fd : CInt) (req : Option RsiRequest) (status : UInt32) (env : Env)
    (past : Trace) :
    let run := exec env (rsiRespondStatus P fd req status) past
    (StatusFault P KnownOp KnownStatus req status →
        run = (.ret (-1), [⟨.setErrno EINVAL, ()⟩])) ∧
      (¬ StatusFault P KnownOp KnownStatus req status → ∃ r f, req = some r ∧
        WriteResult fd f run.1 run.2 ∧ f.length = 18 ∧ totalLenOf f = 18 ∧
        requestIdOf f = r.requestId.toNat ∧ opCodeOf f = (r.opCode ||| 0x8000).toNat ∧
        statusOf f = status.toNat) := by
  intro run
  have hiff : StatusOk P req status ↔ _ := statusOk_iff_not_statusFault hP hops
  refine ⟨fun hfault => ?_, fun hfine => ?_⟩
  · have heq := rsiRespondStatus_eq_failErrno fd (fun hok => hiff.mp hok hfault)
    show exec env (rsiRespondStatus P fd req status) past = _
    rw [heq]
    rfl
  · have hok := hiff.mpr hfine
    obtain ⟨r, rfl, hsome, -⟩ := id hok
    obtain ⟨respOp, hresp⟩ := Option.isSome_iff_exists.mp hsome
    have hframe : responseFrame P (some r) status [] = frame r.requestId respOp status [] := by
      rw [responseFrame, hresp, Option.getD_some]
    have hrun : WriteResult fd (responseFrame P (some r) status []) run.1 run.2 := by
      have hall := writeResult_writeFrame fd (responseFrame P (some r) status [])
      rw [← rsiRespondStatus_eq_writeFrame fd hok] at hall
      exact hall.run env.answer past
    rw [hframe] at hrun
    refine ⟨r, _, rfl, hrun, length_frame _ _ _ _, totalLenOf_frame _ _ _ _ (by decide),
      requestIdOf_frame _ _ _ _, ?_, statusOf_frame _ _ _ _⟩
    rw [opCodeOf_frame, hbit _ _ hresp]

theorem Pkm.small_statusOnlyKnown : Pkm.small.StatusOnlyKnown Pkm.SmallOp := by
  intro op h
  show (if Pkm.SmallOp op then some (!decide (op ∈ [1, 5, 7, 17, 10])) else none).isSome
  rw [if_pos h]
  rfl

/-- No memory at all, and a FLUSH that failed with status `4`. -/
theorem rsiRespondStatus_exact_small :
    let env : Env := { Env.granting with reserve := fun _ _ => none, extend := fun _ _ => .failed [] }
    let run := exec env (rsiRespondStatus .small 3 (some ⟨7, 0, 0, 0, 18⟩) 4) []
    Pkm.small.Documented Pkm.SmallOp Pkm.SmallStatus ∧
      Pkm.small.StatusOnlyKnown Pkm.SmallOp ∧ Pkm.small.ResponseBit ∧ run.1 = .ret 0 ∧
      ∃ f, handed run.2 = [(3, f)] ∧ statusOf f = 4 := by
  intro env run
  have hfine : ¬ StatusFault .small Pkm.SmallOp Pkm.SmallStatus (some ⟨7, 0, 0, 0, 18⟩) 4 := by
    intro hfault
    cases hfault with
    | null h => exact absurd h (by simp)
    | op r h unknown =>
      rw [← Option.some.inj h] at unknown
      exact absurd (by decide : Pkm.SmallOp 18) unknown
    | status unknown => exact absurd (by decide : Pkm.SmallStatus 4) unknown
    | payloadOp r h ok owes => exact absurd ok (by decide)
  obtain ⟨r, f, -, hrun, -, -, -, -, hstatus⟩ := (rsiRespondStatus_exact .small Pkm.SmallOp
    Pkm.SmallStatus Pkm.small_documented Pkm.small_statusOnlyKnown Pkm.small_responseBit 3
    (some ⟨7, 0, 0, 0, 18⟩) 4 env []).2 hfine
  have hret : run.1 = .ret 0 := by decide +kernel
  refine ⟨Pkm.small_documented, Pkm.small_statusOnlyKnown, Pkm.small_responseBit, hret, f, ?_,
    hstatus⟩
  rcases hrun with ⟨e, ho, -⟩ | ⟨-, ht⟩ | ⟨n, -, ho, -⟩
  · exact absurd (hret.symm.trans ho) (by decide)
  · rw [show (exec env (rsiRespondStatus .small 3 (some ⟨7, 0, 0, 0, 18⟩) 4) []).2 = _ from ht]
    rfl
  · exact absurd (hret.symm.trans ho) (by decide)

end Librsi

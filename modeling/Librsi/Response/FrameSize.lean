import Librsi.Response.Outcome

/-!
# How large a frame is

The frame of each payload responder has a length that can be computed from the lengths and
counts its caller passes (`Args.frameLen`).  The sum is taken in `ℕ`, so it does not wrap;
the frame carries it in 32 bits, and `frame_size` says what becomes of the call on either
side of that limit.

The frame is assembled before its size is looked at, so even a frame that is never written
has a length: it is the number of bytes appended to the buffer, which `extended` reads off
the trace (`extended_respond`).
-/

namespace Librsi

open WireFormat Interaction Layout

/-! ## The sums -/

def RsiPathEntry.size (e : RsiPathEntry) : ℕ := 29 + e.layer.count.toNat

def RsiKeyMetadata.size (m : RsiKeyMetadata) : ℕ := 30 + m.sd.count.toNat

def RsiChildEntry.size (c : RsiChildEntry) : ℕ :=
  8 + c.childName.count.toNat + (c.entries.items.map RsiPathEntry.size).sum

def RsiValueEntry.size (e : RsiValueEntry) : ℕ :=
  24 + e.valueName.count.toNat + e.layerName.count.toNat + e.data.count.toNat

def RsiBlanketEntry.size (b : RsiBlanketEntry) : ℕ := 12 + b.layerName.count.toNat

/-- The length of the frame that carries the arguments. -/
def Args.frameLen : {k : Kind} → Args k → ℕ
  | .lookup, a =>
      26 + (a.entries.items.map RsiPathEntry.size).sum +
        (a.metadata.items.map RsiKeyMetadata.size).sum
  | .enumChildren, a =>
      26 + (a.children.items.map RsiChildEntry.size).sum +
        (a.metadata.items.map RsiKeyMetadata.size).sum
  | .readKey, a => 52 + a.name.count.toNat + a.sd.count.toNat
  | .deleteLayer, a => 22 + 16 * a.count.toNat
  | .queryValues, a =>
      26 + (a.entries.items.map RsiValueEntry.size).sum +
        (a.blankets.items.map RsiBlanketEntry.size).sum

/-! ### Records and blocks -/

section Wire

variable {α β γ δ : Type} {f : Format β} {wire : α → β} {size : α → ℕ} {l : List α}
  {g : Format δ} {wire' : γ → δ} {size' : γ → ℕ} {l' : List γ}

theorem length_put_counted_wire (h : ∀ x ∈ l, (f.put (wire x)).length = size x) :
    ((counted f).put (l.map wire)).length = 4 + (l.map size).sum := by
  rw [length_put_counted, List.map_map]
  exact congrArg (fun l => 4 + List.sum l) (List.map_congr_left h)

/-- A frame of two counted blocks. -/
theorem length_two_blocks (h : ∀ x ∈ l, (f.put (wire x)).length = size x)
    (h' : ∀ x ∈ l', (g.put (wire' x)).length = size' x) :
    statusFrameLen + ((counted f).put (l.map wire) ++ (counted g).put (l'.map wire')).length =
      26 + (l.map size).sum + (l'.map size').sum := by
  rw [List.length_append, length_put_counted_wire h, length_put_counted_wire h', statusFrameLen]
  omega

end Wire

theorem RsiPathEntry.length_put_wire {e : RsiPathEntry} (h : ¬ e.layer.Dangling) :
    (pathEntry.put e.wire).length = e.size := by
  rw [length_put_pathEntry, RsiPathEntry.wire, Arr.length_items h, RsiPathEntry.size]

theorem RsiKeyMetadata.length_put_wire {m : RsiKeyMetadata} (h : ¬ m.sd.Dangling) :
    (keyMetadata.put m.wire).length = m.size := by
  rw [length_put_keyMetadata, RsiKeyMetadata.wire, Arr.length_items h, RsiKeyMetadata.size]

theorem RsiChildEntry.length_put_wire {c : RsiChildEntry} (hname : ¬ c.childName.Dangling)
    (hlayer : ∀ e ∈ c.entries.items, ¬ e.layer.Dangling) :
    (childEntry.put c.wire).length = c.size := by
  have hentries : ((counted pathEntry).put (c.entries.items.map RsiPathEntry.wire)).length =
      4 + (c.entries.items.map RsiPathEntry.size).sum :=
    length_put_counted_wire fun e he => RsiPathEntry.length_put_wire (hlayer e he)
  rw [length_put_childEntry, RsiChildEntry.wire, Arr.length_items hname, hentries,
    RsiChildEntry.size]
  omega

theorem RsiValueEntry.length_put_wire {e : RsiValueEntry} (hname : ¬ e.valueName.Dangling)
    (hlayer : ¬ e.layerName.Dangling) (hdata : ¬ e.data.Dangling) :
    (valueEntry.put e.wire).length = e.size := by
  rw [length_put_valueEntry, RsiValueEntry.wire, Arr.length_items hname, Arr.length_items hlayer,
    Arr.length_items hdata, RsiValueEntry.size]

theorem RsiBlanketEntry.length_put_wire {b : RsiBlanketEntry} (h : ¬ b.layerName.Dangling) :
    (blanketEntry.put b.wire).length = b.size := by
  rw [length_put_blanketEntry, RsiBlanketEntry.wire, Arr.length_items h, RsiBlanketEntry.size]

/-- **The layout of what the arguments denote is as long as the sum says.** -/
theorem length_put_value {k : Kind} {a : Args k} (h : a.PtrsOk) :
    statusFrameLen + (k.layout.put a.value).length = a.frameLen := by
  cases k with
  | lookup =>
    obtain ⟨⟨-, hlayer⟩, -, hsd⟩ := h
    exact length_two_blocks (fun e he => RsiPathEntry.length_put_wire (hlayer e he))
      (fun m hm => RsiKeyMetadata.length_put_wire (hsd m hm))
  | enumChildren =>
    obtain ⟨⟨-, hptrs⟩, -, hsd⟩ := h
    exact length_two_blocks
      (fun c hc => RsiChildEntry.length_put_wire (hptrs c hc).1 (hptrs c hc).2.2)
      (fun m hm => RsiKeyMetadata.length_put_wire (hsd m hm))
  | readKey =>
    obtain ⟨-, hname, hsd⟩ := h
    have hput := length_put_readKeyResult (Args.value a)
    simp only [Args.value, Arr.length_items hname, Arr.length_items hsd] at hput
    simp only [Kind.layout, Args.value, hput, Args.frameLen, statusFrameLen]
    omega
  | deleteLayer =>
    have hput := length_put_counted guid a.items
    simp only [length_put_guid, List.map_const', List.sum_replicate_nat,
      (GuidArr.items_spec h).1] at hput
    show statusFrameLen + ((counted guid).put a.items).length = _
    rw [hput, Args.frameLen, statusFrameLen]
    omega
  | queryValues =>
    obtain ⟨⟨-, he⟩, -, hb⟩ := h
    exact length_two_blocks
      (fun e hmem => RsiValueEntry.length_put_wire (he e hmem).1 (he e hmem).2.1 (he e hmem).2.2)
      (fun b hmem => RsiBlanketEntry.length_put_wire (hb b hmem))

/-! ## What is appended to the buffer -/

section Extended

variable {P : Pkm} {fd : CInt}

/-- If no allocation failed, these bytes were appended. -/
def Appends (b : Bytes) (t : Trace) : Prop :=
  ¬ ReserveFailed t → ¬ ExtendFailed t → extended t = b

theorem Appends.append {b : Bytes} {t t' : Trace} (h : Appends b t) (h' : extended t' = []) :
    Appends b (t ++ t') := by
  intro hreserve hextend
  rw [reserveFailed_append, not_or] at hreserve
  rw [extendFailed_append, not_or] at hextend
  rw [extended_append, h hreserve.1 hextend.1, h', List.append_nil]

/-- Preparing a frame appends the placeholder and the body, whether or not the frame turns
out to be too large. -/
theorem extended_prepare {α β : Type} {view : α → β} {b : β} {c c' : Prop} {body : Bytes}
    {validate : Sys α} {encode : α → FrameWriter → Sys FrameWriter} {o : Op}
    {req : Option RsiRequest} (hvalidate : Computes view validate c b)
    (hencode : c → ∀ a, view a = b → Encodes (encode a) c' body)
    (hgrows : ∀ a, Grows (encode a)) (hreq : RequestOk P o req) (hc' : c') (hc : c) :
    (prepare P o req validate encode).All fun _ t =>
      Appends (List.replicate statusFrameLen 0 ++ body) t := by
  obtain ⟨r, rfl, hop, hknown⟩ := hreq
  obtain ⟨respOp, hresp⟩ := Option.isSome_iff_exists.mp hknown
  rw [prepare, requireResponseReq_eq hop, Prog.ret_bind]
  refine Prog.all_bind hvalidate (fun a t ha => ?_) (fun e t he => ?_) (fun t h => ?_)
  · cases ha with
    | ret only fine holds eq =>
      have henc : (newWriter >>= encode a).All (Encoded FrameWriter.new (True ∧ c') _) :=
        (encodes_raw _).seq (hencode holds a eq) FrameWriter.new
      have hgrow : (newWriter >>= encode a).All (Grew FrameWriter.new) :=
        (grows_raw _).seq (hgrows a) FrameWriter.new
      rw [← bind_assoc]
      refine Prog.all_bind (henc.and hgrow) (fun w t' hw => ?_) (fun e t' he => ?_)
        (fun t' h => ?_)
      · obtain ⟨henc, hgrew⟩ := hw
        cases henc with
        | ret _ wrote =>
          by_cases hoom : w.oom = true
          · -- a latched writer is a failed append
            have hfailed : ExtendFailed t' :=
              (wrote.oom.mp hoom).resolve_left (by simp [FrameWriter.new])
            refine Prog.all_of_forall fun _ t'' _ hextend => absurd ?_ hextend
            simp [hfailed]
          · rw [Bool.not_eq_true] at hoom
            have hbuf : extended t' = w.buf := (hgrew w rfl hoom).2.symm
            have happ : Appends (List.replicate statusFrameLen 0 ++ body) (t ++ (t' ++ [])) := by
              intro _ _
              rw [List.append_nil, extended_append, only.extended_eq_nil, hbuf, wrote.buf hoom]
              rfl
            rw [finishResponse_eq hresp hoom (wrote.buf hoom)]
            split_ifs
            · exact happ
            · exact happ
      · cases he.1 with
        | einval fails only' => exact absurd ⟨trivial, hc'⟩ fails
      · cases h.1
  · cases he with
    | enomem only failed => exact fun hreserve => absurd failed hreserve
    | einval only fine fails => exact absurd hc fails
  · cases h

/-- What comes behind it appends nothing. -/
theorem extended_send {m : Sys Bytes} {b : Bytes} (h : m.All fun _ t => Appends b t) :
    (send fd m).All fun _ t => Appends b t := by
  refine Prog.all_either h (fun f t hf => ?_) (fun e t he _ => ?_) (fun t h => h)
  · intro a
    cases a with
    | error e => exact hf.append rfl
    | ok n =>
      by_cases hn : n = f.length
      · simp only [hn, if_true]
        exact hf.append rfl
      · simp only [hn, if_false]
        exact fun _ => hf.append rfl
  · exact he.append rfl

/-- **The assembled frame of a call that keeps the rules.** -/
theorem extended_respond {k : Kind} {req : Option RsiRequest} {a : Args k}
    (h : Accepts P req a) :
    (respond P fd k req a).All fun _ t =>
      Appends (List.replicate statusFrameLen 0 ++ k.layout.put a.value) t := by
  obtain ⟨hvalid, hencodable⟩ := (parts a).accepts_iff.mpr h.2
  rw [respond_eq]
  exact extended_send (extended_prepare (parts a).computes (parts a).encodes (parts a).grows h.1
    hencodable hvalid)

end Extended

/-! ## The limit -/

/-- The caller keeps the rules: there is a request of the right kind, no pointer dangles, and
the value obeys the rules of its layout. -/
def KeepsRules (P : Pkm) {k : Kind} (req : Option RsiRequest) (a : Args k) : Prop :=
  (∃ r, req = some r ∧ r.opCode = P.opCode16 k.op) ∧ a.PtrsOk ∧ k.Rules a.value

theorem accepts_iff_keepsRules {P : Pkm} (hops : P.KnowsOps) {k : Kind}
    {req : Option RsiRequest} {a : Args k} : Accepts P req a ↔ KeepsRules P req a := by
  refine and_congr_left' ?_
  constructor
  · rintro ⟨r, hr, hop, -⟩
    exact ⟨r, hr, hop⟩
  · rintro ⟨r, rfl, hop⟩
    exact RequestOk.of_opCode hops hop

theorem length_payloadFrame {P : Pkm} {k : Kind} {req : Option RsiRequest} {a : Args k}
    (h : Accepts P req a) : (payloadFrame P req a).length = a.frameLen := by
  obtain ⟨⟨r, rfl, -⟩, hptrs, -⟩ := h
  rw [payloadFrame, responseFrame, Layout.length_frame, length_put_value hptrs]

/-- **Frame sizes and their limit.**  With no allocation failing, a call that keeps the rules
assembles a frame of exactly the length `frameLen`; it fails with `EOVERFLOW`, writing
nothing, exactly when that is more than 32 bits hold, and otherwise writes a frame that says
its own length.  A call that breaks a rule fails with `EINVAL`, however large its frame would
be. -/
theorem frame_size (P : Pkm) (hops : P.KnowsOps) (fd : CInt) (k : Kind)
    (req : Option RsiRequest) (a : Args k) (env : Env) (henv : env.NoAllocFails) (past : Trace) :
    let r := exec env (respond P fd k req a) past
    (KeepsRules P req a →
      (extended r.2).length = a.frameLen ∧
      (RejectsWith EOVERFLOW r.1 r.2 ↔ 2 ^ 32 - 1 < a.frameLen) ∧
      (a.frameLen ≤ 2 ^ 32 - 1 → ∃ f, handed r.2 = [(fd, f)] ∧ f.length = a.frameLen ∧
        totalLenOf f = a.frameLen)) ∧
      (¬ KeepsRules P req a → RejectsWith EINVAL r.1 r.2) := by
  intro r
  rw [← accepts_iff_keepsRules hops]
  refine ⟨fun haccepts => ?_, (rejects_einval_iff_not_accepts fd henv past).mpr⟩
  have hassembled : Appends _ r.2 := (extended_respond haccepts).run env.answer past
  have hlen := length_payloadFrame haccepts
  refine ⟨?_, ?_⟩
  · rw [hassembled (henv.not_reserveFailed _ _) (henv.not_extendFailed _ _), List.length_append,
      List.length_replicate, length_put_value haccepts.2.1]
  · rcases too_large_or_wrote_of_accepts fd henv past haccepts with
      ⟨hbig, hrej⟩ | ⟨hsmall, hwrote⟩
    · rw [hlen] at hbig
      exact ⟨⟨fun _ => by omega, fun _ => hrej⟩, fun hle => by omega⟩
    · rw [hlen] at hsmall
      refine ⟨⟨fun hrej => (hrej.not_wrote hwrote).elim, fun hbig => by omega⟩, fun _ => ?_⟩
      refine ⟨_, hwrote, hlen, ?_⟩
      obtain ⟨⟨r', rfl, -⟩, hptrs, -⟩ := haccepts
      have hput := length_put_value hptrs
      rw [payloadFrame, responseFrame, totalLenOf_frame _ _ _ _ (hput ▸ hsmall), hput]

/-- A key whose name is as long as a caller can make it. -/
def longName : ReadKeyArgs where
  name :=
    { ptr := some (List.replicate (2 ^ 32 - 1) 0)
      count := 0xffffffff
      valid := by
        rintro m hm
        rw [← Option.some.inj hm, List.length_replicate]
        decide }
  parentGuid := smallParent
  sd := Arr.null
  volatileKey := 0
  symlink := 1
  lastWriteTime := 9

theorem frame_size_longName :
    let req : Option RsiRequest := some ⟨7, 0, 0, 0, 7⟩
    let r := exec .granting (respond .small 3 .readKey req longName) []
    Pkm.small.KnowsOps ∧ Env.granting.NoAllocFails ∧
      KeepsRules .small (k := .readKey) req longName ∧
      (extended r.2).length = 2 ^ 32 + 51 ∧ RejectsWith EOVERFLOW r.1 r.2 := by
  intro req r
  have hkeeps : KeepsRules .small (k := .readKey) req longName := by
    refine ⟨⟨_, rfl, rfl⟩, ⟨?_, ?_, ?_⟩, Or.inl rfl, Or.inr rfl⟩
    · exact Option.some_ne_none _
    · exact fun h => absurd h.1 (Option.some_ne_none _)
    · exact fun h => h.2 rfl
  have hlen : Args.frameLen (k := .readKey) longName = 2 ^ 32 + 51 := rfl
  obtain ⟨hassembled, hoverflow, -⟩ := (frame_size .small Pkm.small_knowsOps 3 .readKey req
    longName .granting Env.granting_noAllocFails []).1 hkeeps
  refine ⟨Pkm.small_knowsOps, Env.granting_noAllocFails, hkeeps, hassembled.trans hlen,
    hoverflow.mpr ?_⟩
  rw [hlen]
  decide

end Librsi

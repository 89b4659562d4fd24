import Librsi.Request.Refinement
import Mathlib.Tactic.IntervalCases

/-!
# The view of the payload

`rsi_parse_request` leaves a pointer and a `u32` behind, and `req_payload_for` makes a slice
of them again.  The length goes through an unchecked cast on the way: the comment beside it
shows that the subtraction cannot underflow, but nothing bounds the difference from above.
A payload of `2 ^ 32` bytes or more therefore comes back as its first bytes, as many as the
low half of its length says, and a parser that would reject the whole of it may accept those.

`payload_view_exact_iff` says that this is the only way to lose a byte: the view is the
whole payload exactly when the frame has at most `2 ^ 32 + 21` bytes.
-/

namespace Librsi

open WireFormat Interaction

/-- What librsi relies on `parse_rsi_request_header` for: a frame it accepts is no shorter
than the header, and the op code in it is known. -/
def Pkm.HeaderKnown (P : Pkm) : Prop :=
  ∀ bs h, P.parseRsiRequestHeader bs = some h →
    rsiRequestHeaderSize ≤ bs.length ∧ ∃ o, h.opCode = P.opCode16 o

/-- The payload: all of the frame past its header. -/
def framePayload (mem : Mem) (frame : Addr) (len : UInt64) : Bytes :=
  (readMem mem frame len.toNat).drop rsiRequestHeaderSize

/-- No byte is lost between the frame and the decoder of kind `o`.  The slice it gets is the
payload, and so it does not accept what the parser rejects as a whole. -/
structure ViewExact (P : Pkm) (mem : Mem) (frame : Addr) (len : UInt64) (req : RsiRequest)
    (o : Op) : Prop where
  slice : reqPayloadFor mem (some req) (P.opCode o) =
    .ret ⟨frame + rsiRequestHeaderSize, framePayload mem frame len⟩
  sound : P.parsePayload o (framePayload mem frame len) = none →
    ∀ out env past out',
      (exec env (decoder P mem o (some req) (some out)) past).1 ≠ .ret (0, out')

/-- **The payload view loses no byte of a frame of at most `2 ^ 32 + 21` bytes**, and loses
some of every longer one. -/
theorem payload_view_exact_iff (P : Pkm) (hheader : P.HeaderKnown) (mem : Mem) (frame : Addr)
    (len : UInt64) (prior : RsiRequest) (env : Env) (past : Trace) (req : RsiRequest)
    (hparse : (exec env (rsiParseRequest P mem frame len (some prior)) past).1 =
      .ret (0, some req)) :
    (∃ o, req.opCode = P.opCode16 o) ∧ ∀ o, req.opCode = P.opCode16 o →
      (ViewExact P mem frame len req o ↔ len.toNat ≤ 2 ^ 32 + 21) := by
  rcases rsiParseRequest_cases P mem frame len prior env past with
    hparsed | ⟨h, req', hh, hparsed, hop, hpayload, hplen⟩
  · have heq := congrArg Prod.fst (Outcome.ret.inj (hparse.symm.trans hparsed))
    exact absurd heq (by simp)
  · have heq := congrArg Prod.snd (Outcome.ret.inj (hparse.symm.trans hparsed))
    obtain rfl := Option.some.inj heq
    obtain ⟨hmin, o, ho⟩ := hheader _ _ hh
    rw [length_readMem] at hmin
    refine ⟨⟨o, hop.trans ho⟩, fun o hreq => ⟨fun hexact => ?_, fun hmax => ?_⟩⟩
    · -- the slice has as many bytes as the cast leaves, the payload as many as there are
      have hslice := hexact.slice
      rw [reqPayloadFor_eq_mod P mem o hmin hpayload hplen, if_pos hreq] at hslice
      have hbytes := congrArg Slice.bytes (Prog.ret.inj hslice)
      have hlen := congrArg List.length hbytes
      rw [fromRawParts, length_readMem, framePayload, List.length_drop, length_readMem] at hlen
      have hlt := Nat.mod_lt (len.toNat - rsiRequestHeaderSize) (show 0 < 2 ^ 32 by decide)
      rw [hlen, rsiRequestHeaderSize] at hlt
      omega
    · have hmax' : len.toNat < 2 ^ 32 + rsiRequestHeaderSize := by
        rw [rsiRequestHeaderSize]
        omega
      have hslice := reqPayloadFor_eq P mem o hmin hmax' hpayload hplen
      rw [if_pos hreq] at hslice
      refine ⟨hslice, fun hnone out env' past' out' hzero => ?_⟩
      have hfail := (decoder_of_slice (valid_framePayload mem frame hmin hmax')
        (Nat.succ_ne_zero _) hslice out env' past').1 hnone
      have heq := congrArg Prod.fst (Outcome.ret.inj (hfail.1.symm.trans hzero))
      exact absurd heq (by simp)

/-- Every code from `1` to `18` is the code of an op. -/
theorem Pkm.exists_op_of_smallOp {op : UInt16} (h : SmallOp op) : ∃ o, op = small.opCode16 o := by
  obtain ⟨hmin, hmax⟩ := h
  rw [← UInt16.ofNat_toNat (x := op)]
  generalize op.toNat = n at hmin hmax
  interval_cases n
  exacts [⟨.lookup, rfl⟩, ⟨.createEntry, rfl⟩, ⟨.hideEntry, rfl⟩, ⟨.deleteEntry, rfl⟩,
    ⟨.enumChildren, rfl⟩, ⟨.createKey, rfl⟩, ⟨.readKey, rfl⟩, ⟨.dropKey, rfl⟩, ⟨.writeKey, rfl⟩,
    ⟨.queryValues, rfl⟩, ⟨.setValue, rfl⟩, ⟨.deleteValueEntry, rfl⟩,
    ⟨.setBlanketTombstone, rfl⟩, ⟨.beginTransaction, rfl⟩, ⟨.commitTransaction, rfl⟩,
    ⟨.abortTransaction, rfl⟩, ⟨.deleteLayer, rfl⟩, ⟨.flush, rfl⟩]

theorem Pkm.small_headerKnown : small.HeaderKnown := by
  intro bs h hparse
  obtain ⟨⟨hmin, -, hop⟩, hh⟩ := Option.ite_none_right_eq_some.mp hparse
  rw [← Option.some.inj hh]
  exact ⟨hmin, exists_op_of_smallOp hop⟩

theorem payload_view_exact_iff_readKey :
    Pkm.small.HeaderKnown ∧ ∃ (req : RsiRequest) (o : Op),
      (exec .granting (rsiParseRequest .small readKeyMem 1000 38 (some ⟨0, 0, 0, 0, 0⟩)) []).1 =
        .ret (0, some req) ∧
      req.opCode = Pkm.small.opCode16 o ∧ ViewExact .small readKeyMem 1000 38 req o := by
  obtain ⟨⟨o, hop⟩, hiff⟩ := payload_view_exact_iff .small Pkm.small_headerKnown readKeyMem 1000
    38 ⟨0, 0, 0, 0, 0⟩ .granting [] _ rfl
  exact ⟨Pkm.small_headerKnown, _, o, rfl, hop, (hiff o hop).mpr (by decide)⟩

/-! ## A frame that is cut short -/

/-- A choice whose header parser checks no more than it is relied on for. -/
def Pkm.unmeasured : Pkm :=
  { small with
    parseRsiRequestHeader := fun bs =>
      if 22 ≤ bs.length ∧ SmallOp (UInt16.ofNat (leNat ((bs.drop 12).take 2))) then
        some ⟨UInt64.ofNat (leNat ((bs.drop 4).take 8)),
          UInt16.ofNat (leNat ((bs.drop 12).take 2)), UInt64.ofNat (leNat ((bs.drop 14).take 8))⟩
      else none }

theorem Pkm.unmeasured_headerKnown : unmeasured.HeaderKnown := by
  intro bs h hparse
  obtain ⟨⟨hmin, hop⟩, hh⟩ := Option.ite_none_right_eq_some.mp hparse
  rw [← Option.some.inj hh]
  exact ⟨hmin, exists_op_of_smallOp hop⟩

/-- The header of a READ_KEY request is read off its first bytes, however long it is. -/
theorem unmeasured_readKeyMem {n : ℕ} (hn : 22 ≤ n) :
    ∃ h, Pkm.unmeasured.parseRsiRequestHeader (readMem readKeyMem 1000 n) = some h ∧
      h.opCode = Pkm.unmeasured.opCode16 .readKey := by
  have hop : UInt16.ofNat (leNat (((readMem readKeyMem 1000 n).drop 12).take 2)) = 7 := by
    rw [← readMem_sub readKeyMem 1000 (show 12 + 2 ≤ n by omega)]
    decide
  refine ⟨_, if_pos ⟨?_, ?_⟩, hop⟩
  · rwa [length_readMem]
  · rw [hop]
    decide

/-- A READ_KEY request of `2 ^ 32 + 38` bytes.  The parser wants a payload of `16` bytes and
so rejects the payload of this one; but the decoder sees the first `16` bytes only, and
accepts. -/
theorem payload_view_truncates :
    Pkm.unmeasured.HeaderKnown ∧ ∃ (req : RsiRequest) (out : RsiKeyGuid),
      (exec .granting
          (rsiParseRequest .unmeasured readKeyMem 1000 4294967334 (some ⟨0, 0, 0, 0, 0⟩)) []).1 =
        .ret (0, some req) ∧
      req.opCode = Pkm.unmeasured.opCode16 .readKey ∧
      ¬ ViewExact .unmeasured readKeyMem 1000 4294967334 req .readKey ∧
      Pkm.unmeasured.parsePayload .readKey (framePayload readKeyMem 1000 4294967334) = none ∧
      (exec .granting
          (rsiRequestReadKey .unmeasured readKeyMem (some req) (some ⟨Guid.nil⟩)) []).1 =
        .ret (0, some out) := by
  have hmin : 22 ≤ (4294967334 : UInt64).toNat := by decide
  obtain ⟨h, hh, hop⟩ := unmeasured_readKeyMem hmin
  have hparse := exec_rsiParseRequest (by decide) hh ⟨0, 0, 0, 0, 0⟩ .granting []
  have hnone : Pkm.unmeasured.parsePayload .readKey
      (framePayload readKeyMem 1000 4294967334) = none := by
    have hlen : (framePayload readKeyMem 1000 4294967334).length ≠ 16 := by
      rw [framePayload, List.length_drop, length_readMem]
      decide
    have hparser : ∀ p : Bytes, p.length ≠ 16 →
        Pkm.unmeasured.parsePayload .readKey p = none := fun p hp => dif_neg hp
    exact hparser _ hlen
  -- the low 32 bits of the payload's length are those of `16`
  have hslice : reqPayloadFor readKeyMem (some ⟨h.requestId, h.txnId, 1000 + rsiRequestHeaderSize,
      ((4294967334 : UInt64) - UInt64.ofNat rsiRequestHeaderSize).toUInt32, h.opCode⟩)
      (Pkm.unmeasured.opCode .readKey) = _ :=
    reqPayloadFor_eq_mod .unmeasured readKeyMem .readKey hmin rfl rfl
  rw [if_pos hop, show ((4294967334 : UInt64).toNat - rsiRequestHeaderSize) % 2 ^ 32 = 16 by
    decide] at hslice
  have hvalid : Slice.Valid readKeyMem
      (fromRawParts readKeyMem (1000 + rsiRequestHeaderSize) 16) := ⟨rfl, by decide⟩
  obtain ⟨out, hout, -⟩ := (decoder_of_slice hvalid (by decide) hslice ⟨Guid.nil⟩ .granting
    []).2 _ rfl
  refine ⟨Pkm.unmeasured_headerKnown, _, out, hparse, hop, fun hexact => ?_, hnone, hout⟩
  exact hexact.sound hnone ⟨Guid.nil⟩ .granting [] _ hout

end Librsi

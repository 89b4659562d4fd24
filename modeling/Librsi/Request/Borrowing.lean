import Librsi.Request.Refinement

/-!
# What a decoder promises

Two promises of `<rsi/request.h>`, for requests of any origin.

The decoders take a `struct rsi_request` that the caller could have filled in by hand, and
two pointers that could be NULL.  `decoder_exact` says what each of the eighteen does for
every such argument: four ways to be turned down with `EINVAL`, and otherwise what the parser
says of the payload.

"Every decoded name/data field BORROWS into your frame buffer; the `(ptr, len)` pairs are
valid only until you reuse that buffer."  `decoded_fields_borrow_from_frame` says this in
both directions, for frames of every length.  Every pair lies inside the frame; and as long
as the bytes of the frame stay what they are, whatever else happens to the memory, parsing
and decoding give the same again and the pairs still denote the same bytes.
-/

namespace Librsi

open WireFormat Interaction

/-! ## Any arguments -/

/-- The ways to break a rule of a decoder. -/
inductive DecodeFault (P : Pkm) (o : Op) (req : Option RsiRequest) (out : Option (OutStruct o)) :
    Prop
  | nullReq (h : req = none)
  | op (r : RsiRequest) (h : req = some r) (ne : r.opCode ≠ P.opCode16 o)
  | nullPayload (r : RsiRequest) (h : req = some r) (null : r.payload = 0)
      (len : r.payloadLen ≠ 0)
  | nullOut (h : out = none)

/-- The payload a request stands for.  A NULL payload is an empty one. -/
def RsiRequest.slice (mem : Mem) (r : RsiRequest) : Slice :=
  if r.payload = 0 then ⟨1, []⟩ else fromRawParts mem r.payload r.payloadLen.toNat

theorem valid_fromRawParts (mem : Mem) (a : Addr) {n : ℕ} (h : n < 2 ^ 32) :
    (fromRawParts mem a n).Valid mem := by
  refine ⟨?_, ?_⟩
  · show readMem mem a n = readMem mem a (readMem mem a n).length
    rw [length_readMem]
  · show (readMem mem a n).length < 2 ^ 32
    rw [length_readMem]
    exact h

theorem RsiRequest.valid_slice (mem : Mem) (r : RsiRequest) :
    (r.slice mem).Valid mem ∧ (r.slice mem).addr ≠ 0 := by
  unfold RsiRequest.slice
  split_ifs with hnull
  · exact ⟨⟨rfl, by decide⟩, Nat.one_ne_zero⟩
  · exact ⟨valid_fromRawParts mem r.payload r.payloadLen.toNat_lt, hnull⟩

theorem reqPayloadFor_of_fault {P : Pkm} {mem : Mem} {o : Op} {r : RsiRequest}
    (h : r.opCode ≠ P.opCode16 o ∨ r.payload = 0 ∧ r.payloadLen ≠ 0) :
    reqPayloadFor mem (some r) (P.opCode o) = .err EINVAL := by
  unfold reqPayloadFor
  rcases h with hop | ⟨hnull, hlen⟩
  · exact if_pos hop
  · by_cases hop : r.opCode = P.opCode16 o
    · exact (if_neg (not_not.mpr hop)).trans ((if_pos hnull).trans (if_neg hlen))
    · exact if_pos hop

theorem reqPayloadFor_of_fine {P : Pkm} {mem : Mem} {o : Op} {r : RsiRequest}
    (hop : r.opCode = P.opCode16 o) (hnull : r.payload = 0 → r.payloadLen = 0) :
    reqPayloadFor mem (some r) (P.opCode o) = .ret (r.slice mem) := by
  unfold reqPayloadFor RsiRequest.slice
  refine (if_neg (not_not.mpr hop)).trans ?_
  split_ifs with hzero hlen
  · rfl
  · exact absurd (hnull hzero) hlen
  · rfl

section Exact

variable {P : Pkm} {mem : Mem} {o : Op} {req : Option RsiRequest} {out : Option (OutStruct o)}

theorem decodeWith_of_err {e : Errno} (h : reqPayloadFor mem req (P.opCode o) = .err e)
    (fill : (s : Slice) → Payload o s.bytes → OutStruct o → OutStruct o) :
    decodeWith P mem o fill req out = .call (.setErrno e) fun _ => .ret (-1, out) := by
  rw [decodeWith, h]
  rfl

theorem decoder_of_fault (h : DecodeFault P o req out) :
    decoder P mem o req out = .call (.setErrno EINVAL) fun _ => .ret (-1, out) := by
  obtain ⟨fill, hdecoder, -⟩ := exists_fill P mem o
  rw [hdecoder]
  cases h with
  | nullReq h =>
    subst h
    exact decodeWith_of_err rfl fill
  | op r h ne =>
    subst h
    exact decodeWith_of_err (reqPayloadFor_of_fault (Or.inl ne)) fill
  | nullPayload r h null len =>
    subst h
    exact decodeWith_of_err (reqPayloadFor_of_fault (Or.inr ⟨null, len⟩)) fill
  | nullOut h =>
    subst h
    cases req with
    | none => exact decodeWith_of_err rfl fill
    | some r =>
      by_cases hbad : r.opCode ≠ P.opCode16 o ∨ r.payload = 0 ∧ r.payloadLen ≠ 0
      · exact decodeWith_of_err (reqPayloadFor_of_fault hbad) fill
      · rw [not_or, not_not, not_and, not_not] at hbad
        rw [decodeWith, reqPayloadFor_of_fine hbad.1 hbad.2]
        rfl

variable (mem) in
/-- What is there when no rule is broken. -/
theorem exists_of_not_fault (h : ¬ DecodeFault P o req out) :
    ∃ r out₀, req = some r ∧ out = some out₀ ∧
      reqPayloadFor mem (some r) (P.opCode o) = .ret (r.slice mem) := by
  cases req with
  | none => exact absurd (.nullReq rfl) h
  | some r =>
    cases out with
    | none => exact absurd (.nullOut rfl) h
    | some out₀ =>
      refine ⟨r, out₀, rfl, rfl, reqPayloadFor_of_fine ?_ fun hnull => ?_⟩
      · by_contra hop
        exact h (.op r rfl hop)
      · by_contra hlen
        exact h (.nullPayload r rfl hnull hlen)

end Exact

/-- **What a decoder does, for every argument.**  A request or an out pointer that is NULL, a
request of another kind, and a NULL payload with a length are turned down with `EINVAL`; a
payload the parser rejects is turned down with `EBADMSG`; either way nothing is written
through the out pointer.  Otherwise the decoder returns `0`, does not touch `errno`, and fills
in what the parser found. -/
theorem decoder_exact (P : Pkm) (mem : Mem) (o : Op) (req : Option RsiRequest)
    (out : Option (OutStruct o)) (env : Env) (past : Trace) :
    let run := exec env (decoder P mem o req out) past
    (DecodeFault P o req out → run = (.ret (-1, out), [⟨.setErrno EINVAL, ()⟩])) ∧
      (¬ DecodeFault P o req out → ∃ r, req = some r ∧
        (P.parsePayload o (r.slice mem).bytes = none →
          run = (.ret (-1, out), [⟨.setErrno EBADMSG, ()⟩])) ∧
        ∀ v, P.parsePayload o (r.slice mem).bytes = some v →
          ∃ out', run = (.ret (0, some out'), []) ∧ Agrees mem (r.slice mem).addr o v out') := by
  intro run
  refine ⟨fun hfault => ?_, fun hfine => ?_⟩
  · show exec env (decoder P mem o req out) past = _
    rw [decoder_of_fault hfault]
    rfl
  · obtain ⟨r, out₀, rfl, rfl, hslice⟩ := exists_of_not_fault mem hfine
    obtain ⟨fill, hdecoder, hagrees⟩ := exists_fill P mem o
    obtain ⟨hvalid, hbase⟩ := r.valid_slice mem
    refine ⟨r, rfl, fun hnone => ?_, fun v hv => ⟨fill (r.slice mem) v out₀, ?_,
      hagrees _ v out₀ hvalid hbase⟩⟩
    · show exec env (decoder P mem o (some r) (some out₀)) past = _
      rw [hdecoder, decodeWith, hslice]
      simp only [Prog.either, hnone]
      rfl
    · show exec env (decoder P mem o (some r) (some out₀)) past = _
      rw [hdecoder, decodeWith, hslice]
      simp only [Prog.either, hv]
      rfl

/-! ## Borrowed fields -/

/-- The `(ptr, len)` pairs of an out struct. -/
def spans : (o : Op) → OutStruct o → List (Addr × UInt32)
  | .lookup, out => [(out.childName, out.childNameLen)]
  | .createEntry, out => [(out.childName, out.childNameLen), (out.layerName, out.layerNameLen)]
  | .hideEntry, out => [(out.childName, out.childNameLen), (out.layerName, out.layerNameLen)]
  | .deleteEntry, out => [(out.childName, out.childNameLen), (out.layerName, out.layerNameLen)]
  | .enumChildren, _ => []
  | .createKey, out => [(out.name, out.nameLen), (out.sd, out.sdLen)]
  | .readKey, _ => []
  | .dropKey, _ => []
  | .writeKey, out => [(out.sd, out.sdLen)]
  | .queryValues, out => [(out.valueName, out.valueNameLen)]
  | .setValue, out =>
      [(out.valueName, out.valueNameLen), (out.layerName, out.layerNameLen), (out.data, out.dataLen)]
  | .deleteValueEntry, out =>
      [(out.valueName, out.valueNameLen), (out.layerName, out.layerNameLen)]
  | .setBlanketTombstone, out => [(out.layerName, out.layerNameLen)]
  | .beginTransaction, _ => []
  | .commitTransaction, _ => []
  | .abortTransaction, _ => []
  | .deleteLayer, out => [(out.name, out.nameLen)]
  | .flush, out => [(out.name, out.nameLen)]

/-- The pair is NULL and empty, or lies between two addresses. -/
def Inside (lo hi : Addr) (s : Addr × UInt32) : Prop :=
  s = (0, 0) ∨ lo ≤ s.1 ∧ s.1 + s.2.toNat ≤ hi

theorem Points.inside {mem : Mem} {base : Addr} {p : Bytes} {f : Field p} {ptr : Addr}
    {len : UInt32} (h : Points mem base f ptr len) :
    Inside base (base + p.length) (ptr, len) := by
  refine Or.inr ⟨?_, ?_⟩
  · rw [h.place]
    exact Nat.le_add_right _ _
  · show ptr + len.toNat ≤ base + p.length
    rw [h.place, h.length, Nat.add_assoc]
    exact Nat.add_le_add_left f.le base

/-- **What a decoder hands out lies inside the payload.** -/
theorem Agrees.inside {mem : Mem} {base : Addr} {o : Op} {p : Bytes} {v : Payload o p}
    {out : OutStruct o} (h : Agrees mem base o v out) :
    ∀ s ∈ spans o out, Inside base (base + p.length) s := by
  cases o with
  | lookup => exact List.forall_mem_singleton.mpr h.2.inside
  | createEntry =>
    obtain ⟨-, -, hchild, hlayer, -⟩ := h
    exact List.forall_mem_cons.mpr ⟨hchild.inside, List.forall_mem_singleton.mpr hlayer.inside⟩
  | hideEntry =>
    obtain ⟨-, hchild, hlayer, -⟩ := h
    exact List.forall_mem_cons.mpr ⟨hchild.inside, List.forall_mem_singleton.mpr hlayer.inside⟩
  | deleteEntry =>
    obtain ⟨-, hchild, hlayer⟩ := h
    exact List.forall_mem_cons.mpr ⟨hchild.inside, List.forall_mem_singleton.mpr hlayer.inside⟩
  | createKey =>
    obtain ⟨-, -, hname, hsd, -⟩ := h
    exact List.forall_mem_cons.mpr ⟨hname.inside, List.forall_mem_singleton.mpr hsd.inside⟩
  | writeKey =>
    obtain ⟨-, -, hsome, hnull, -⟩ := h
    refine List.forall_mem_singleton.mpr ?_
    obtain ⟨guid, mask, sd, time⟩ := v
    cases sd with
    | none => exact Or.inl (Prod.ext (hnull.mpr rfl).1 (hnull.mpr rfl).2)
    | some f => exact (hsome f rfl).inside
  | queryValues => exact List.forall_mem_singleton.mpr h.2.1.inside
  | setValue =>
    obtain ⟨-, hname, hlayer, -, hdata, -⟩ := h
    exact List.forall_mem_cons.mpr ⟨hname.inside, List.forall_mem_cons.mpr
      ⟨hlayer.inside, List.forall_mem_singleton.mpr hdata.inside⟩⟩
  | deleteValueEntry =>
    obtain ⟨-, hname, hlayer⟩ := h
    exact List.forall_mem_cons.mpr ⟨hname.inside, List.forall_mem_singleton.mpr hlayer.inside⟩
  | setBlanketTombstone => exact List.forall_mem_singleton.mpr h.2.1.inside
  | deleteLayer => exact List.forall_mem_singleton.mpr (Points.inside h)
  | flush => exact List.forall_mem_singleton.mpr (Points.inside h)
  | _ => exact fun s hs => absurd hs List.not_mem_nil

/-! ### The rest of the memory -/

/-- The memories agree on `n` bytes from `a` on. -/
def SameAt (mem mem' : Mem) (a : Addr) (n : ℕ) : Prop := ∀ i < n, mem' (a + i) = mem (a + i)

theorem SameAt.readMem_eq {mem mem' : Mem} {a : Addr} {n : ℕ} (h : SameAt mem mem' a n) :
    readMem mem' a n = readMem mem a n :=
  List.map_congr_left fun i hi => h i (List.mem_range.mp hi)

theorem SameAt.sub {mem mem' : Mem} {a b n m : ℕ} (h : SameAt mem mem' a n)
    (hlo : a ≤ b) (hhi : b + m ≤ a + n) : SameAt mem mem' b m := by
  intro i hi
  obtain ⟨d, rfl⟩ := Nat.exists_eq_add_of_le hlo
  have hsame := h (d + i) (by omega)
  rwa [← Nat.add_assoc] at hsame

/-- A decoder looks at the memory through the payload slice only. -/
theorem decoder_congr (P : Pkm) {mem mem' : Mem} (o : Op) {req : Option RsiRequest}
    (out : Option (OutStruct o))
    (h : reqPayloadFor mem' req (P.opCode o) = reqPayloadFor mem req (P.opCode o)) :
    decoder P mem' o req out = decoder P mem o req out := by
  have hfill : ∃ fill, ∀ mem, decoder P mem o = decodeWith P mem o fill := by
    cases o <;> exact ⟨_, fun _ => rfl⟩
  obtain ⟨fill, hdecoder⟩ := hfill
  rw [hdecoder mem', hdecoder mem, decodeWith, decodeWith, h]

theorem rsiParseRequest_congr (P : Pkm) {mem mem' : Mem} {frame : Addr} {len : UInt64}
    (out : Option RsiRequest) (h : SameAt mem mem' frame len.toNat) :
    rsiParseRequest P mem' frame len out = rsiParseRequest P mem frame len out := by
  unfold rsiParseRequest
  rw [h.readMem_eq]

/-- What is known of a request that was parsed, for a frame of any length. -/
theorem exists_slice_of_parsed {P : Pkm} (hheader : P.HeaderChecked) {mem : Mem} {frame : Addr}
    {len : UInt64} {prior req : RsiRequest} {env : Env} {past : Trace}
    (hparse : (exec env (rsiParseRequest P mem frame len (some prior)) past).1 =
      .ret (0, some req)) :
    ∃ n, rsiRequestHeaderSize + n ≤ len.toNat ∧ n < 2 ^ 32 ∧ ∀ mem o,
      reqPayloadFor mem (some req) (P.opCode o) =
        if req.opCode = P.opCode16 o then
          .ret (fromRawParts mem (frame + rsiRequestHeaderSize) n)
        else .err EINVAL := by
  rcases rsiParseRequest_cases P mem frame len prior env past with
    hparsed | ⟨h, req', hh, hparsed, hop, hpayload, hplen⟩
  · have heq := congrArg Prod.fst (Outcome.ret.inj (hparse.symm.trans hparsed))
    exact absurd heq (by simp)
  · have heq := congrArg Prod.snd (Outcome.ret.inj (hparse.symm.trans hparsed))
    obtain rfl := Option.some.inj heq
    have hmin := hheader _ _ hh
    rw [length_readMem] at hmin
    refine ⟨(len.toNat - rsiRequestHeaderSize) % 2 ^ 32, ?_, Nat.mod_lt _ (by decide),
      fun mem o => reqPayloadFor_eq_mod P mem o hmin hpayload hplen⟩
    have hmod := Nat.mod_le (len.toNat - rsiRequestHeaderSize) (2 ^ 32)
    omega

/-- **Decoded fields borrow from the frame, and from nothing else.**  The payload parsers are
taken to return fields that lie inside the payload they are given; a `Field` cannot do
otherwise.  Then, after a parse and a decoding that succeed, for a frame of any length: every
`(ptr, len)` pair of the out struct is NULL or lies in the frame past its header.  And in every
memory that agrees with this one on the bytes of the frame, parsing and decoding do the same,
and the pairs denote the same bytes. -/
theorem decoded_fields_borrow_from_frame (P : Pkm) (hheader : P.HeaderChecked) (mem : Mem)
    (frame : Addr) (len : UInt64) (prior req : RsiRequest) (env : Env) (past : Trace)
    (hparse : (exec env (rsiParseRequest P mem frame len (some prior)) past).1 =
      .ret (0, some req)) (o : Op) (out out' : OutStruct o) (env' : Env) (past' : Trace)
    (hdecode : (exec env' (decoder P mem o (some req) (some out)) past').1 =
      .ret (0, some out')) :
    (∀ s ∈ spans o out', Inside (frame + rsiRequestHeaderSize) (frame + len.toNat) s) ∧
      ∀ mem', SameAt mem mem' frame len.toNat →
        (∀ prior, rsiParseRequest P mem' frame len prior = rsiParseRequest P mem frame len prior) ∧
        (∀ o out, decoder P mem' o (some req) out = decoder P mem o (some req) out) ∧
        ∀ s ∈ spans o out', readMem mem' s.1 s.2.toNat = readMem mem s.1 s.2.toNat := by
  obtain ⟨n, hn, hsmall, hslice⟩ := exists_slice_of_parsed hheader hparse
  have hend : frame + rsiRequestHeaderSize + n ≤ frame + len.toNat := by
    rw [Nat.add_assoc]
    exact Nat.add_le_add_left hn frame
  have hinside : ∀ s ∈ spans o out',
      Inside (frame + rsiRequestHeaderSize) (frame + len.toNat) s := by
    by_cases hop : req.opCode = P.opCode16 o
    · have hpayload := hslice mem o
      rw [if_pos hop] at hpayload
      obtain ⟨hnone, hsome⟩ := decoder_of_slice (valid_fromRawParts mem _ hsmall)
        (Nat.succ_ne_zero _) hpayload out env' past'
      cases hv : P.parsePayload o (fromRawParts mem (frame + rsiRequestHeaderSize) n).bytes with
      | none =>
        have heq := congrArg Prod.fst (Outcome.ret.inj (hdecode.symm.trans (hnone hv).1))
        exact absurd heq (by simp)
      | some v =>
        obtain ⟨out'', hret, hagrees⟩ := hsome v hv
        have heq := congrArg Prod.snd (Outcome.ret.inj (hdecode.symm.trans hret))
        obtain rfl := Option.some.inj heq
        intro s hs
        refine (hagrees.inside s hs).imp id fun hin => ⟨hin.1, le_trans hin.2 ?_⟩
        show frame + rsiRequestHeaderSize + (readMem mem _ n).length ≤ frame + len.toNat
        rw [length_readMem]
        exact hend
    · have hpayload := hslice mem o
      rw [if_neg hop] at hpayload
      have heq := congrArg Prod.fst
        (Outcome.ret.inj (hdecode.symm.trans (decoder_of_err hpayload out env' past').1))
      exact absurd heq (by simp)
  refine ⟨hinside, fun mem' hsame => ⟨fun prior => rsiParseRequest_congr P prior hsame,
    fun o out => decoder_congr P o out ?_, fun s hs => ?_⟩⟩
  · rw [hslice mem' o, hslice mem o, fromRawParts, fromRawParts,
      (hsame.sub (Nat.le_add_right _ _) hend).readMem_eq]
  · rcases hinside s hs with rfl | ⟨hlo, hhi⟩
    · rfl
    · exact (hsame.sub (le_trans (Nat.le_add_right _ _) hlo) hhi).readMem_eq

/-- A LOOKUP request for a child named by three bytes, at address `1000`. -/
def lookupMem : Mem := fun a =>
  (leBytes 4 45 ++ leBytes 8 7 ++ leBytes 2 1 ++ leBytes 8 0 ++ List.replicate 16 0x33 ++
    leBytes 4 3 ++ [75, 101, 121]).getD (a - 1000) 0

theorem decoded_fields_borrow_from_frame_lookup :
    ∃ (req : RsiRequest) (out' : RsiLookup), Pkm.small.HeaderChecked ∧
      (exec .granting (rsiParseRequest .small lookupMem 1000 45 (some ⟨0, 0, 0, 0, 0⟩)) []).1 =
        .ret (0, some req) ∧
      (exec .granting (rsiRequestLookup .small lookupMem (some req) (some ⟨Guid.nil, 0, 0⟩)) []).1 =
        .ret (0, some out') ∧
      out'.childNameLen = 3 ∧ Inside 1022 1045 (out'.childName, out'.childNameLen) := by
  refine ⟨_, _, Pkm.small_headerChecked, rfl, rfl, rfl, ?_⟩
  exact (decoded_fields_borrow_from_frame .small Pkm.small_headerChecked lookupMem 1000 45
    ⟨0, 0, 0, 0, 0⟩ _ .granting [] rfl .lookup ⟨Guid.nil, 0, 0⟩ _ .granting [] rfl).1 _
    List.mem_cons_self

end Librsi

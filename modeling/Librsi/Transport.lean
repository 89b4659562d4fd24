import Librsi.Protocol
import Librsi.Request.Borrowing

/-!
# From the request that was read to the response that is written

`rsi_read_request` and `rsi_write_response` are `read` and `write`.  A source reads a frame
into a buffer, parses it, and hands the parsed request to a responder; it may read ahead, and
answer in another order than it read.  What ties a response to its request through all this
is eight bytes of the frame, by way of a buffer, a struct and an argument.

`readAhead` is any sequence of reads into buffers of the caller's.  As long as the buffers do
not overlap, each holds at the end the frame that was read into it (`all_readAhead`), and
every response that is written for a request parsed from one of them passes the kernel's
checks for the request in that frame (`response_goes_to_the_request_read`).
-/

namespace Librsi

open WireFormat Interaction Layout

/-! ## The functions -/

/-- What a function that passes on a `read` or a `write` returns. -/
def ssize : Except Errno ℕ → CInt
  | .error _ => -1
  | .ok n => n

/-- `rsi_write_response`. -/
def rsiWriteResponse (mem : Mem) (fd : CInt) (frame : Addr) (len : UInt64) : Sys CInt :=
  .call (.write fd (readMem mem frame len.toNat)) fun a => .ret (ssize a)

/-- The one call of the receiving side. -/
inductive ReadCall where
  | read (fd : CInt) (cap : ℕ)

/-- The answer of `read`: what it left at the start of the buffer, and how much of that it
returned, or the error number.  A `read` that failed may have written to the buffer too. -/
structure ReadAnswer (cap : ℕ) where
  left : Bytes
  le : left.length ≤ cap
  result : Except Errno ℕ
  result_le : ∀ n, result = .ok n → n ≤ left.length

abbrev ReadAns : ReadCall → Type
  | .read _ cap => ReadAnswer cap

/-- Put bytes in memory, from `a` on. -/
def writeMem (mem : Mem) (a : Addr) (bs : Bytes) : Mem := fun x =>
  if a ≤ x ∧ x < a + bs.length then bs.getD (x - a) 0 else mem x

/-- `rsi_read_request`.  The memory comes back beside the return value. -/
def rsiReadRequest (mem : Mem) (fd : CInt) (buf : Addr) (cap : UInt64) :
    Prog ReadAns Errno (CInt × Mem) :=
  .call (.read fd cap.toNat) fun a => .ret (ssize a.result, writeMem mem buf a.left)

/-- Any sequence of reads, each into a buffer and with a capacity of its own. -/
def readAhead (fd : CInt) : Mem → List (Addr × UInt64) → Prog ReadAns Errno (List CInt × Mem)
  | mem, [] => .ret ([], mem)
  | mem, b :: bufs => do
      let r ← rsiReadRequest mem fd b.1 b.2
      let rest ← readAhead fd r.2 bufs
      return (r.1 :: rest.1, rest.2)

/-- What a read returned. -/
def readResult : Event ReadAns → CInt
  | ⟨.read _ _, a⟩ => ssize a.result

/-- The bytes a read received. -/
def received : Event ReadAns → Option Bytes
  | ⟨.read _ _, a⟩ =>
    match a.result with
    | .ok n => some (a.left.take n)
    | .error _ => none

/-! ## Buffers -/

/-- The two regions do not overlap. -/
def Apart (a n b m : ℕ) : Prop := a + n ≤ b ∨ b + m ≤ a

theorem readMem_writeMem (mem : Mem) (a : Addr) (bs : Bytes) :
    readMem (writeMem mem a bs) a bs.length = bs := by
  apply List.ext_getElem
  · rw [length_readMem]
  · intro i hi hi'
    have hrange : a ≤ a + i ∧ a + i < a + bs.length :=
      ⟨Nat.le_add_right _ _, Nat.add_lt_add_left hi' a⟩
    simp only [readMem, List.getElem_map, List.getElem_range, writeMem, if_pos hrange,
      Nat.add_sub_cancel_left]
    rw [List.getD_eq_getElem?_getD, List.getElem?_eq_getElem hi', Option.getD_some]

theorem sameAt_writeMem (mem : Mem) {a b n : ℕ} {bs : Bytes} (h : Apart b n a bs.length) :
    SameAt mem (writeMem mem a bs) b n := by
  intro i hi
  refine if_neg ?_
  rintro ⟨hlo, hhi⟩
  have hlo' : a ≤ b + i := hlo
  have hhi' : b + i < a + bs.length := hhi
  unfold Apart at h
  omega

theorem SameAt.trans {mem mem' mem'' : Mem} {a : Addr} {n : ℕ} (h : SameAt mem mem' a n)
    (h' : SameAt mem' mem'' a n) : SameAt mem mem'' a n :=
  fun i hi => (h' i hi).trans (h i hi)

/-- A shorter region is apart from whatever the longer one was apart from. -/
theorem Apart.mono {a n b m n' m' : ℕ} (h : Apart a n b m) (hn : n' ≤ n) (hm : m' ≤ m) :
    Apart a n' b m' := by
  unfold Apart at *
  omega

/-- What a sequence of reads leaves behind: every read returned what it received, or `-1`; each
buffer holds what was read into it; and the memory apart from the buffers is what it was. -/
structure ReadInto (bufs : List (Addr × UInt64)) (mem mem' : Mem) (t : List (Event ReadAns)) :
    Prop where
  holds : List.Forall₂ (fun b e => ∀ bs, received e = some bs →
    bs.length ≤ b.2.toNat ∧ readMem mem' b.1 bs.length = bs) bufs t
  same : ∀ a n, (∀ b ∈ bufs, Apart a n b.1 b.2.toNat) → SameAt mem mem' a n

/-- A first read, and the later ones leave its buffer alone. -/
theorem ReadInto.cons {bufs : List (Addr × UInt64)} {mem mem' : Mem} {t : List (Event ReadAns)}
    {b : Addr × UInt64} {a : ReadAnswer b.2.toNat}
    (h : ReadInto bufs (writeMem mem b.1 a.left) mem' t) (fd : CInt)
    (hapart : ∀ b' ∈ bufs, Apart b.1 b.2.toNat b'.1 b'.2.toNat) :
    ReadInto (b :: bufs) mem mem' (⟨.read fd b.2.toNat, a⟩ :: t) where
  holds := by
    refine List.Forall₂.cons (fun bs hbs => ?_) h.holds
    have hkept := h.same b.1 a.left.length fun b' hb' => (hapart b' hb').mono a.le le_rfl
    simp only [received] at hbs
    split at hbs
    · rename_i n hresult
      obtain rfl := Option.some.inj hbs
      have hn := a.result_le n hresult
      have hread : readMem mem' (b.1 + 0) n = ((readMem mem' b.1 a.left.length).drop 0).take n :=
        readMem_sub mem' b.1 (by omega)
      rw [hkept.readMem_eq, readMem_writeMem, List.drop_zero] at hread
      rw [List.length_take_of_le hn]
      exact ⟨le_trans hn a.le, hread⟩
    · exact absurd hbs (by simp)
  same x n hother := by
    have hfirst := hother b List.mem_cons_self
    refine (sameAt_writeMem mem (hfirst.mono le_rfl a.le)).trans (h.same x n fun b' hb' => ?_)
    exact hother b' (List.mem_cons_of_mem _ hb')

/-- **Reading ahead keeps what was read**, if the buffers do not overlap. -/
theorem all_readAhead (fd : CInt) (mem : Mem) (bufs : List (Addr × UInt64))
    (h : bufs.Pairwise fun b b' => Apart b.1 b.2.toNat b'.1 b'.2.toNat) :
    (readAhead fd mem bufs).All fun o t => ∃ mem', o = .ret (t.map readResult, mem') ∧
      ReadInto bufs mem mem' t := by
  induction bufs generalizing mem with
  | nil => exact ⟨mem, rfl, List.Forall₂.nil, fun a n _ i _ => rfl⟩
  | cons b bufs ih =>
    obtain ⟨hb, hbufs⟩ := List.pairwise_cons.mp h
    intro a
    show (readAhead fd (writeMem mem b.1 a.left) bufs >>= fun rest =>
      Prog.ret (ssize a.result :: rest.1, rest.2)).All _
    refine Prog.all_bind (ih _ hbufs) (fun rest t hrest => ?_) ?_ ?_
    · obtain ⟨mem', hret, hread⟩ := hrest
      obtain rfl := Outcome.ret.inj hret
      refine ⟨mem', ?_, ?_⟩
      · rw [List.append_nil]
        rfl
      · rw [List.append_nil]
        exact hread.cons fd hb
    · rintro e t ⟨mem', hret, -⟩
      exact absurd hret (by simp)
    · rintro t ⟨mem', hret, -⟩
      exact absurd hret (by simp)

/-! ## The request that was read -/

/-- `parse_rsi_request_header` takes the id and the op code from where the frame format puts
them. -/
def Pkm.HeaderLayout (P : Pkm) : Prop :=
  ∀ bs h, P.parseRsiRequestHeader bs = some h →
    h.requestId.toNat = requestIdOf bs ∧ h.opCode.toNat = opCodeOf bs

/-- Parsing `len` bytes at `a` succeeded and gave the request. -/
def ParsedAs (P : Pkm) (mem : Mem) (a : Addr) (len : UInt64) (req : RsiRequest) : Prop :=
  ∃ prior env past, (exec env (rsiParseRequest P mem a len (some prior)) past).1 =
    .ret (0, some req)

theorem ParsedAs.exists_header {P : Pkm} {mem : Mem} {a : Addr} {len : UInt64} {req : RsiRequest}
    (h : ParsedAs P mem a len req) :
    ∃ hdr, P.parseRsiRequestHeader (readMem mem a len.toNat) = some hdr ∧
      req.requestId = hdr.requestId ∧ req.opCode = hdr.opCode ∧
      req.payload = a + rsiRequestHeaderSize ∧
      req.payloadLen = (len - UInt64.ofNat rsiRequestHeaderSize).toUInt32 := by
  obtain ⟨prior, env, past, hparse⟩ := h
  rcases rsiParseRequest_cases P mem a len prior env past with hparsed | ⟨hdr, -, hhdr, -⟩
  · have heq := congrArg Prod.fst (Outcome.ret.inj (hparse.symm.trans hparsed))
    exact absurd heq (by simp)
  · by_cases hnull : a = 0
    · rw [rsiParseRequest, if_pos hnull] at hparse
      exact absurd (congrArg Prod.fst (Outcome.ret.inj hparse)) (by simp)
    · have heq := Outcome.ret.inj (hparse.symm.trans
        (exec_rsiParseRequest hnull hhdr prior env past))
      obtain rfl := Option.some.inj (congrArg Prod.snd heq)
      exact ⟨hdr, hhdr, rfl, rfl, rfl, rfl⟩

/-- The request a frame carries, as the kernel knows it. -/
def askedBy (bs : Bytes) : Pending := ⟨UInt64.ofNat (requestIdOf bs), UInt16.ofNat (opCodeOf bs)⟩

theorem ParsedAs.askedBy_eq {P : Pkm} (hlayout : P.HeaderLayout) {mem : Mem} {a : Addr}
    {len : UInt64} {req : RsiRequest} (h : ParsedAs P mem a len req) :
    askedBy (readMem mem a len.toNat) = ⟨req.requestId, req.opCode⟩ := by
  obtain ⟨hdr, hhdr, hid, hop, -⟩ := h.exists_header
  obtain ⟨hid', hop'⟩ := hlayout _ _ hhdr
  rw [askedBy, ← hid', ← hop', UInt64.ofNat_toNat, UInt16.ofNat_toNat, hid, hop]

/-- The payload of a parsed request is the frame past its header, if its length is a `u32`. -/
theorem ParsedAs.slice_eq {P : Pkm} (hheader : P.HeaderChecked) {mem : Mem} {a : Addr}
    {len : UInt64} {req : RsiRequest} (h : ParsedAs P mem a len req)
    (hlen : len.toNat < 2 ^ 32 + rsiRequestHeaderSize) :
    (req.slice mem).bytes = (readMem mem a len.toNat).drop rsiRequestHeaderSize := by
  obtain ⟨hdr, hhdr, -, -, hpayload, hplen⟩ := h.exists_header
  have hmin := hheader _ _ hhdr
  rw [length_readMem] at hmin
  have hplen' : req.payloadLen.toNat = len.toNat - rsiRequestHeaderSize := by
    have hsub : (len - UInt64.ofNat rsiRequestHeaderSize).toNat =
        len.toNat - rsiRequestHeaderSize := UInt64.toNat_sub_of_le _ _ hmin
    rw [hplen, UInt64.toNat_toUInt32, hsub]
    exact Nat.mod_eq_of_lt (by omega)
  have hne : req.payload ≠ 0 := by
    rw [hpayload]
    exact Nat.succ_ne_zero _
  rw [RsiRequest.slice, if_neg hne, hplen', hpayload, drop_readMem mem a hmin]
  rfl

/-- Whatever a responder hands to `write` is an answer to the request it was given. -/
theorem passes_of_mem_handed {P : Pkm} {KnownOp : UInt16 → Prop} {KnownStatus : UInt32 → Prop}
    (hP : P.Documented KnownOp KnownStatus) (hbit : P.ResponseBit) {call : RespondCall}
    {req : RsiRequest} (hreq : call.req = some req) {fd : CInt} {env : Env} {past : Trace}
    {f : CInt × Bytes} (hf : f ∈ handed (exec env (call.exec P fd) past).2) :
    f.1 = fd ∧ Passes KnownStatus ⟨req.requestId, req.opCode⟩ f.2 := by
  obtain ⟨fd', buf⟩ := f
  obtain ⟨haccepted, hfd, hbuf, hsmall, -⟩ :=
    (verdict_exec P fd call env past).of_mem_handed hf
  obtain ⟨q, hq, -, hpasses, -⟩ := haccepted.exists_pending hsmall hP hbit
  rw [RespondCall.pending?, hreq] at hq
  obtain rfl := Option.some.inj hq
  exact ⟨hfd, hbuf ▸ hpasses⟩

/-- **A response goes to the request that was read.**  However many frames were read ahead into
buffers that do not overlap: every response that is written for a request parsed from one of
the buffers, by any responder and in any order, is one that passes the kernel's checks for the
request in the frame that was read into that buffer.  The payload of the parsed request is
that of the frame as well, if the frame is shorter than `2 ^ 32 + 22` bytes; the length of a
longer one does not fit `payload_len`. -/
theorem response_goes_to_the_request_read (P : Pkm) (KnownOp : UInt16 → Prop)
    (KnownStatus : UInt32 → Prop) (hheader : P.HeaderChecked) (hlayout : P.HeaderLayout)
    (hP : P.Documented KnownOp KnownStatus) (hbit : P.ResponseBit) (fd : CInt) (mem : Mem)
    (bufs : List (Addr × UInt64))
    (hapart : bufs.Pairwise fun b b' => Apart b.1 b.2.toNat b'.1 b'.2.toNat) :
    (readAhead fd mem bufs).All fun o t => ∃ mem', o = .ret (t.map readResult, mem') ∧
      List.Forall₂ (fun b e => ∀ bs, received e = some bs → ∀ req,
        ParsedAs P mem' b.1 (UInt64.ofNat bs.length) req →
          (bs.length < 2 ^ 32 + rsiRequestHeaderSize →
            (req.slice mem').bytes = bs.drop rsiRequestHeaderSize) ∧
          ∀ call : RespondCall, call.req = some req → ∀ fd env past,
            ∀ f ∈ handed (exec env (call.exec P fd) past).2,
              f.1 = fd ∧ Passes KnownStatus (askedBy bs) f.2) bufs t := by
  refine (all_readAhead fd mem bufs hapart).mono fun o t => ?_
  rintro ⟨mem', hret, hread⟩
  refine ⟨mem', hret, hread.holds.imp fun b e hholds bs hbs req hparsed => ?_⟩
  obtain ⟨hcap, hbytes⟩ := hholds bs hbs
  have hlen : (UInt64.ofNat bs.length).toNat = bs.length :=
    UInt64.toNat_ofNat_of_lt' (lt_of_le_of_lt hcap b.2.toNat_lt)
  refine ⟨fun hsmall => ?_, fun call hcall fd env past f hf => ?_⟩
  · rw [hparsed.slice_eq hheader (by rwa [hlen]), hlen, hbytes]
  · have hasked := hparsed.askedBy_eq hlayout
    rw [hlen, hbytes] at hasked
    rw [hasked]
    exact passes_of_mem_handed hP hbit hcall hf

theorem Pkm.small_headerLayout : Pkm.small.HeaderLayout := by
  intro bs h hparse
  obtain ⟨-, heq⟩ := Option.ite_none_right_eq_some.mp hparse
  obtain rfl := Option.some.inj heq
  have hle : ∀ n m : ℕ, leNat ((bs.drop n).take m) < 256 ^ m := by
    intro n m
    refine lt_of_lt_of_le (leNat_lt _) (Nat.pow_le_pow_right (by decide) ?_)
    exact List.length_take_le _ _
  exact ⟨UInt64.toNat_ofNat_of_lt' (hle 4 8), UInt16.toNat_ofNat_of_lt' (hle 12 2)⟩

/-- A LOOKUP and then FLUSHes are waiting to be read. -/
def queued (past : List (Event ReadAns)) : (c : ReadCall) → ReadAns c
  | .read _ cap =>
    let frame := if past.length = 0 then
        leBytes 4 45 ++ leBytes 8 7 ++ leBytes 2 1 ++ leBytes 8 0 ++ List.replicate 16 0x33 ++
          leBytes 4 3 ++ [75, 101, 121]
      else leBytes 4 29 ++ leBytes 8 8 ++ leBytes 2 18 ++ leBytes 8 0 ++ leBytes 4 3 ++
        [75, 101, 121]
    if h : frame.length ≤ cap then
      ⟨frame, h, .ok frame.length, fun _ hn => (Except.ok.inj hn).ge⟩
    else ⟨[], Nat.zero_le cap, .error EINVAL, fun _ hn => absurd hn (by simp)⟩

theorem response_goes_to_the_request_read_flush :
    Pkm.small.HeaderChecked ∧ Pkm.small.HeaderLayout ∧
      Pkm.small.Documented Pkm.SmallOp Pkm.SmallStatus ∧ Pkm.small.ResponseBit ∧
      ∃ mem' req, ((readAhead 3 (fun _ => 0) [(1000, 64), (2000, 64)]).run queued []).1 =
          .ret ([45, 29], mem') ∧
        ParsedAs .small mem' 2000 29 req ∧
        (req.slice mem').bytes = leBytes 4 3 ++ [75, 101, 121] ∧
        ∃ f, handed (exec .granting ((RespondCall.status (some req) 0).exec .small 3) []).2 = [f] ∧
          Passes Pkm.SmallStatus ⟨8, 18⟩ f.2 := by
  refine ⟨Pkm.small_headerChecked, Pkm.small_headerLayout, Pkm.small_documented,
    Pkm.small_responseBit, ?_⟩
  have hapart : [((1000 : Addr), (64 : UInt64)), (2000, 64)].Pairwise
      fun b b' => Apart b.1 b.2.toNat b'.1 b'.2.toNat := by
    simp [Apart]
  obtain ⟨mem', hret, hread⟩ := (response_goes_to_the_request_read .small Pkm.SmallOp
    Pkm.SmallStatus Pkm.small_headerChecked Pkm.small_headerLayout Pkm.small_documented
    Pkm.small_responseBit 3 (fun _ => 0) [(1000, 64), (2000, 64)] hapart).run queued []
  have hmem : mem' = _ := (congrArg Prod.snd (Outcome.ret.inj hret)).symm
  have hparsed : ParsedAs .small mem' 2000 29 ⟨8, 0, 2022, 7, 18⟩ := by
    rw [hmem]
    exact ⟨⟨0, 0, 0, 0, 0⟩, .granting, [], rfl⟩
  obtain ⟨-, hflush⟩ := List.forall₂_cons.mp hread
  obtain ⟨hflush, -⟩ := List.forall₂_cons.mp hflush
  obtain ⟨hpayload, hresponse⟩ := hflush _ rfl _ hparsed
  refine ⟨mem', _, hret, hparsed, (hpayload (by decide)).trans rfl, _, rfl, ?_⟩
  exact (hresponse (.status _ 0) rfl 3 .granting [] _ List.mem_cons_self).2

end Librsi

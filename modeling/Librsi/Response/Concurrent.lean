import Librsi.Lib.Interleaving
import Librsi.Response.Session
import Librsi.Response.Status

/-!
# Responders that run at the same time

A source may answer its requests from several threads, on one descriptor or on many.  The
library has no lock and no state of its own: what keeps the frames apart is that a call
assembles its whole frame first and hands it over in one `write`.

Here any family of calls runs in any interleaving, against a world that is free to answer
each allocation and each `write` as it likes.  What arrives on a descriptor is another matter,
and two assumptions about it have names.  `OnePiece` says that the bytes of one `write` arrive
together; the source device is made so, a pipe is not.  `WritesWhole` says that a `write` fails
or takes its whole buffer.

* `interleaved_responses_stay_whole`: under both, what has arrived on a descriptor is at every
  moment a list of whole frames, one for each call that has returned `0` on it, in the order of
  the writes.
* `torn_frame_is_reported`: under the first alone it may be damaged, but never silently: a call
  that damaged it is going to return `-1` with `EIO`.
* `interleaving_decides_nothing`: what a call decides does not depend on the others.
-/

namespace Librsi

open WireFormat Interaction Layout

/-! ## A call under way -/

/-- The allocator is not `write`. -/
theorem AllocOnly.mem_write_append {t : Trace} (h : AllocOnly t) {t' : Trace} {fd : CInt}
    {buf : Bytes} {a : Except Errno ℕ} (hmem : (⟨.write fd buf, a⟩ : Event Ans) ∈ t ++ t') :
    (⟨.write fd buf, a⟩ : Event Ans) ∉ t ∧ (⟨.write fd buf, a⟩ : Event Ans) ∈ t' := by
  have hnot : (⟨.write fd buf, a⟩ : Event Ans) ∉ t := by
    intro hin
    rcases h _ hin with ⟨n, hn⟩ | ⟨b, hb⟩
    · exact absurd hn (by simp)
    · exact absurd hb (by simp)
  exact ⟨hnot, (List.mem_append.mp hmem).resolve_left hnot⟩

theorem exists_write_of_takenBy_ne_nil {fd : CInt} {e : Event Ans} (h : takenBy fd e ≠ []) :
    ∃ buf n, e = ⟨.write fd buf, .ok n⟩ := by
  obtain ⟨c, a⟩ := e
  cases c with
  | write fd' buf =>
    cases a with
    | error e => exact absurd rfl h
    | ok n =>
      by_cases hfd : fd' = fd
      · exact ⟨buf, n, by rw [hfd]⟩
      · exact absurd (if_neg hfd) h
  | _ => exact absurd rfl h

theorem write_inj {fd fd' : CInt} {buf buf' : Bytes} {a a' : Except Errno ℕ}
    (h : (⟨.write fd buf, a⟩ : Event Ans) = ⟨.write fd' buf', a'⟩) :
    fd = fd' ∧ buf = buf' ∧ a = a' := by
  obtain ⟨⟨hfd, hbuf⟩, ha⟩ : (fd = fd' ∧ buf = buf') ∧ a = a' := by simpa using h
  exact ⟨hfd, hbuf, ha⟩

/-- The calls to `write` among the events, counted in two ways. -/
theorem countP_takenBy_le (fd : CInt) (t : Trace) :
    (t.countP fun e => takenBy fd e ≠ []) ≤ (handed t).length := by
  rw [handed, List.length_filterMap_eq_countP]
  refine List.countP_mono_left fun e _ he => ?_
  obtain ⟨buf, n, rfl⟩ := exists_write_of_takenBy_ne_nil (of_decide_eq_true he)
  rfl

section Stage

variable {fd : CInt} {c : Prop} {frame : Bytes} {o : Outcome Errno CInt} {ev t : Trace}

theorem Conforms.length_handed_le (h : Conforms fd c frame o t) : (handed t).length ≤ 1 := by
  cases h with
  | failed prep => rw [prep.allocOnly.handed_append]; exact Nat.zero_le 1
  | refused prep => rw [prep.allocOnly.handed_append]; exact le_refl 1
  | sent prep => rw [prep.allocOnly.handed_append]; exact le_refl 1
  | short prep ne => rw [prep.allocOnly.handed_append]; exact le_refl 1

theorem Prepared.of_ready (h : Prepared c frame (.ret frame) t) :
    c ∧ frame.length < 2 ^ 32 := by
  cases h with
  | ready alloc fine fine' holds small => exact ⟨holds, small⟩

/-- The last event of a trace has not been reached before the end. -/
theorem eq_nil_of_append_eq_concat {α : Type} {l l' m : List α} {a : α}
    (h : l ++ l' = m ++ [a]) (hl : a ∈ l) (hm : a ∉ m) : l' = [] := by
  rcases List.eq_nil_or_concat l' with hnil | ⟨l'', b, rfl⟩
  · exact hnil
  · rw [List.concat_eq_append, ← List.append_assoc] at h
    have hinit := (List.append_inj' h rfl).1
    exact absurd (hinit ▸ List.mem_append_left _ hl) hm

/-- **What a `write` settles**, of a call that is under way: it was of the call's frame, to
the call's descriptor; if it took the frame the call has nothing left to do but to return
`0`; and if it came up short the call will return `-1` with `EIO`. -/
theorem Conforms.of_mem_write (h : Conforms fd c frame o (ev ++ t)) {fd' : CInt} {buf : Bytes}
    {a : Except Errno ℕ} (hmem : ⟨.write fd' buf, a⟩ ∈ ev) :
    fd' = fd ∧ buf = frame ∧ (c ∧ frame.length < 2 ^ 32) ∧
      (a = .ok frame.length → o = .ret 0 ∧ t = []) ∧
      ∀ n, a = .ok n → n ≠ frame.length → FailsWith EIO o (ev ++ t) := by
  have hmem' : (⟨.write fd' buf, a⟩ : Event Ans) ∈ ev ++ t := List.mem_append_left t hmem
  generalize htr : ev ++ t = tr at h hmem'
  cases h with
  | failed prep =>
    obtain ⟨-, hin⟩ := prep.allocOnly.mem_write_append hmem'
    exact absurd hin (by simp)
  | refused prep =>
    obtain ⟨-, hin⟩ := prep.allocOnly.mem_write_append hmem'
    obtain ⟨rfl, rfl, rfl⟩ := write_inj (List.mem_singleton.mp hin)
    exact ⟨rfl, rfl, prep.of_ready, fun h => absurd h (by simp), fun n h => absurd h (by simp)⟩
  | sent prep =>
    obtain ⟨hnot, hin⟩ := prep.allocOnly.mem_write_append hmem'
    obtain ⟨rfl, rfl, rfl⟩ := write_inj (List.mem_singleton.mp hin)
    refine ⟨rfl, rfl, prep.of_ready, fun _ => ⟨rfl, ?_⟩, fun n h hne => ?_⟩
    · exact eq_nil_of_append_eq_concat htr hmem hnot
    · exact absurd (Except.ok.inj h).symm hne
  | @short n t' prep ne =>
    obtain ⟨-, hin⟩ := prep.allocOnly.mem_write_append hmem'
    obtain ⟨rfl, rfl, rfl⟩ := write_inj (by simpa using hin)
    refine ⟨rfl, rfl, prep.of_ready, fun h => absurd (Except.ok.inj h) ne, fun m _ _ => ⟨rfl, ?_⟩⟩
    rw [prep.allocOnly.lastErrno_append]
    rfl

/-- A call that returned `0` wrote its frame. -/
theorem Conforms.mem_write_of_ret_zero (h : Conforms fd c frame (.ret 0) t) :
    (⟨.write fd frame, .ok frame.length⟩ : Event Ans) ∈ t ∧ c ∧ frame.length < 2 ^ 32 := by
  generalize ho : (Outcome.ret 0 : Outcome Errno CInt) = o at h
  cases h with
  | sent prep => exact ⟨by simp, prep.of_ready⟩
  | _ => exact absurd ho (by simp)

theorem Conforms.ret_eq (h : Conforms fd c frame o t) : o = .ret 0 ∨ o = .ret (-1) := by
  cases h with
  | sent prep => exact Or.inl rfl
  | _ => exact Or.inr rfl

end Stage

/-- The frame of an accepted call is not empty. -/
theorem RespondCall.Accepted.frame_ne_nil {P : Pkm} {call : RespondCall} (h : call.Accepted P) :
    call.frame P ≠ [] := by
  obtain ⟨q, respOp, -, -, hframe⟩ := h.exists_respOp
  refine List.ne_nil_of_length_pos ?_
  rw [hframe, length_frame]
  exact Nat.lt_of_lt_of_le (by decide) (Nat.le_add_right _ _)

/-! ## Any interleaving -/

section Pool

variable {ι σ : Type} [DecidableEq ι] (P : Pkm) (fds : ι → CInt) (calls : ι → RespondCall)

/-- The calls, each on its descriptor, before any of them has started. -/
def respondPool (w : σ) : Pool ι Ans Errno CInt σ :=
  .start w fun i => (calls i).exec P (fds i)

/-- The bytes that were taken on a descriptor, in the order of the writes. -/
def Pool.stream (fd : CInt) (x : Pool ι Ans Errno CInt σ) : Bytes :=
  Librsi.stream fd (x.past.map Prod.snd)

/-- The calls that put bytes on a descriptor, in the order they did. -/
def Pool.senders (fd : CInt) (x : Pool ι Ans Errno CInt σ) : List ι :=
  callersOf (fun e => takenBy fd e ≠ []) x.past

/-- The stream `s` consists of the frames of the calls in `sent`, and these are the calls that
have returned `0` on the descriptor. -/
structure WholeFrames (fd : CInt) (s : Bytes) (x : Pool ι Ans Errno CInt σ) (sent : List ι) :
    Prop where
  nodup : sent.Nodup
  mem_iff : ∀ i, i ∈ sent ↔ fds i = fd ∧ x.left i = .ret 0
  split : splitFrames s = some (sent.map fun i => (calls i).frame P)
  answers : ∀ i ∈ sent, Answers P (calls i) ((calls i).frame P)

variable {P fds calls} {W : World ι Ans σ} {w : σ} {x : Pool ι Ans Errno CInt σ}

section Reached

variable (hx : Reaches W (respondPool P fds calls w) x)

include hx

/-- Every call is on its way to an outcome it could have had alone. -/
theorem all_conforms (i : ι) :
    (x.left i).All fun o t => Conforms (fds i) ((calls i).Accepted P) ((calls i).frame P) o
      (eventsOf i x.past ++ t) :=
  hx.all_left (fun j => (calls j).conforms_exec P (fds j)) i

theorem exists_conforms (i : ι) :
    ∃ o t, Conforms (fds i) ((calls i).Accepted P) ((calls i).frame P) o
      (eventsOf i x.past ++ t) :=
  (all_conforms hx i).exists

theorem conforms_of_returned {i : ι} {r : CInt} (hret : x.left i = .ret r) :
    Conforms (fds i) ((calls i).Accepted P) ((calls i).frame P) (.ret r) (eventsOf i x.past) :=
  hx.returned (fun j => (calls j).conforms_exec P (fds j)) hret

/-- No call aborts, and what it returns is `0` or `-1`. -/
theorem returned_or_calling (i : ι) :
    x.left i = .ret 0 ∨ x.left i = .ret (-1) ∨ ∃ c k, x.left i = .call c k := by
  have hall := all_conforms hx i
  cases hleft : x.left i with
  | ret r =>
    rcases (conforms_of_returned hx hleft).ret_eq with h | h
    · exact Or.inl (by rw [Outcome.ret.inj h])
    · exact Or.inr (Or.inl (by rw [Outcome.ret.inj h]))
  | err e =>
    rw [hleft] at hall
    rcases Conforms.ret_eq hall with h | h <;> exact absurd h (by simp)
  | abort =>
    rw [hleft] at hall
    rcases Conforms.ret_eq hall with h | h <;> exact absurd h (by simp)
  | call c k => exact Or.inr (Or.inr ⟨c, k, rfl⟩)

/-- The bytes an event put on a descriptor are those of its caller's frame. -/
theorem eq_write_of_takenBy {i : ι} {fd : CInt} {e : Event Ans} (hmem : e ∈ eventsOf i x.past)
    (he : takenBy fd e ≠ []) :
    ∃ n, e = ⟨.write fd ((calls i).frame P), .ok n⟩ ∧ fds i = fd ∧ (calls i).Accepted P ∧
      ((calls i).frame P).length < 2 ^ 32 := by
  obtain ⟨buf, n, rfl⟩ := exists_write_of_takenBy_ne_nil he
  obtain ⟨o, t, hconf⟩ := exists_conforms hx i
  obtain ⟨rfl, rfl, ⟨hc, hsmall⟩, -⟩ := hconf.of_mem_write hmem
  exact ⟨n, rfl, rfl, hc, hsmall⟩

theorem nodup_senders (fd : CInt) : (Pool.senders fd x).Nodup := by
  refine nodup_callersOf fun i => ?_
  obtain ⟨o, t, hconf⟩ := exists_conforms hx i
  have hone := hconf.length_handed_le
  rw [handed_append, List.length_append] at hone
  have hle := countP_takenBy_le fd (eventsOf i x.past)
  omega

omit hx in
/-- Whoever has sent stays in its place. -/
theorem exists_senders_eq (fd : CInt) {y : Pool ι Ans Errno CInt σ} (hxy : Reaches W x y) :
    ∃ later, Pool.senders fd y = Pool.senders fd x ++ later := by
  obtain ⟨t, ht⟩ := hxy.exists_past_eq
  refine ⟨callersOf (fun e => takenBy fd e ≠ []) t, ?_⟩
  rw [Pool.senders, ht, callersOf_append, Pool.senders]

omit hx in
theorem exists_stream_eq (fd : CInt) {y : Pool ι Ans Errno CInt σ} (hxy : Reaches W x y) :
    ∃ later, Pool.stream fd y = Pool.stream fd x ++ later := by
  obtain ⟨t, ht⟩ := hxy.exists_past_eq
  refine ⟨Librsi.stream fd (t.map Prod.snd), ?_⟩
  rw [Pool.stream, ht, List.map_append, stream_append, Pool.stream]

/-- A whole write is the last thing a call does. -/
theorem returned_of_whole {i : ι} {fd : CInt}
    (hmem : ⟨.write fd ((calls i).frame P), .ok ((calls i).frame P).length⟩ ∈
      eventsOf i x.past) : x.left i = .ret 0 := by
  refine ((all_conforms hx i).mono fun o t hconf => ?_).eq_ret
  obtain ⟨-, -, -, hend, -⟩ := hconf.of_mem_write hmem
  exact hend rfl

/-- **Without a short write the stream is whole.** -/
theorem wholeFrames_senders (hbit : P.ResponseBit) (fd : CInt)
    (hwhole : ∀ i n, ⟨.write fd ((calls i).frame P), .ok n⟩ ∈ eventsOf i x.past →
      n = ((calls i).frame P).length) :
    WholeFrames P fds calls fd (Pool.stream fd x) x (Pool.senders fd x) := by
  have hsender : ∀ i ∈ Pool.senders fd x, fds i = fd ∧
      ⟨.write fd ((calls i).frame P), .ok ((calls i).frame P).length⟩ ∈ eventsOf i x.past ∧
      Answers P (calls i) ((calls i).frame P) := by
    intro i hi
    obtain ⟨e, hmem, he⟩ := mem_callersOf.mp hi
    obtain ⟨n, rfl, hfd, hc, hsmall⟩ := eq_write_of_takenBy hx hmem he
    obtain rfl := hwhole i n hmem
    exact ⟨hfd, hmem, answers_frame hbit hc hsmall⟩
  have hstream : Pool.stream fd x =
      ((Pool.senders fd x).map fun i => (calls i).frame P).flatten := by
    rw [← List.flatMap_def]
    refine flatMap_snd_eq_flatMap_callersOf (fun e he htaken => ?_) fun e _ h => not_not.mp h
    obtain ⟨n, heq, -⟩ := eq_write_of_takenBy hx (mem_eventsOf.mpr he) htaken
    obtain rfl := hwhole e.1 n (heq ▸ mem_eventsOf.mpr he)
    rw [heq]
    simp [takenBy]
  refine ⟨nodup_senders hx fd, fun i => ⟨fun hi => ?_, ?_⟩, ?_, fun i hi => (hsender i hi).2.2⟩
  · obtain ⟨hfd, hmem, -⟩ := hsender i hi
    exact ⟨hfd, returned_of_whole hx hmem⟩
  · rintro ⟨rfl, hret⟩
    obtain ⟨hmem, hc, -⟩ := (conforms_of_returned hx hret).mem_write_of_ret_zero
    refine mem_callersOf.mpr ⟨_, hmem, ?_⟩
    simpa [takenBy] using hc.frame_ne_nil
  · rw [hstream]
    refine splitFrames_flatten fun f hf => ?_
    obtain ⟨i, hi, rfl⟩ := List.mem_map.mp hf
    exact (hsender i hi).2.2.selfDelimiting

end Reached

/-- A `write` that fails or takes its whole buffer, or an event of another kind. -/
def WholeWrite (e : Event Ans) : Prop := ∀ fd buf n, e = ⟨.write fd buf, .ok n⟩ → n = buf.length

/-- Every `write` that is answered fails or takes its whole buffer. -/
def WritesWhole (W : World ι Ans σ) : Prop := ∀ s i e s', W.answers s i e s' → WholeWrite e

/-- **One `write`, one piece.**  `out` says what has arrived on the descriptor: the bytes that a
`write` takes arrive together, behind what is there, and nothing arrives in another way.  So it
is on the source device, where "`write(2)` sends one framed response" and only the source
writes.  A pipe or a terminal may mix the bytes of a long `write` with those of others. -/
structure OnePiece (W : World ι Ans σ) (fd : CInt) (out : σ → Bytes) : Prop where
  moves : ∀ s s', W.moves s s' → out s' = out s
  answers : ∀ s i e s', W.answers s i e s' → out s' = out s ++ takenBy fd e

/-- Then what has arrived is what was taken. -/
theorem OnePiece.out_eq {fd : CInt} {out : σ → Bytes} (h : OnePiece W fd out)
    (hx : Reaches W (respondPool P fds calls w) x) :
    out x.world = out w ++ Pool.stream fd x :=
  hx.observed h.moves h.answers

variable (P fds calls) in
/-- **Interleaved responses stay whole.**  Any number of calls, on this descriptor and on
others, in any interleaving and with any allocation failures.  As long as each `write` fails or
takes its whole buffer, and what it takes arrives in one piece: at every moment what has
arrived on the descriptor splits into whole frames, one for each call that has returned `0`
there, each answering its own call; from then on it only grows, by whole frames; and no call
ever comes to anything but `0` or `-1`. -/
theorem interleaved_responses_stay_whole (hbit : P.ResponseBit) (hW : WritesWhole W) {fd : CInt}
    {out : σ → Bytes} (hout : OnePiece W fd out) (hx : Reaches W (respondPool P fds calls w) x) :
    (∃ s sent, out x.world = out w ++ s ∧ WholeFrames P fds calls fd s x sent ∧
      ∀ y, Reaches W x y → ∃ s' later, out y.world = out x.world ++ s' ∧
        WholeFrames P fds calls fd (s ++ s') y (sent ++ later)) ∧
      ∀ i, x.left i = .ret 0 ∨ x.left i = .ret (-1) ∨ ∃ c k, x.left i = .call c k := by
  have hwhole : ∀ y, Reaches W (respondPool P fds calls w) y →
      WholeFrames P fds calls fd (Pool.stream fd y) y (Pool.senders fd y) := by
    intro y hy
    refine wholeFrames_senders hy hbit fd fun i n hmem => ?_
    exact hy.answered (Q := fun _ => WholeWrite) hW _ (mem_eventsOf.mp hmem) _ _ _ rfl
  refine ⟨⟨_, _, hout.out_eq hx, hwhole x hx, fun y hxy => ?_⟩, returned_or_calling hx⟩
  obtain ⟨later, hlater⟩ := exists_senders_eq fd hxy
  obtain ⟨s', hs'⟩ := exists_stream_eq fd hxy
  refine ⟨s', later, ?_, ?_⟩
  · rw [hout.out_eq hx, hout.out_eq (hx.trans hxy), hs', List.append_assoc]
  · rw [← hs', ← hlater]
    exact hwhole y (hx.trans hxy)

/-- Two FLUSHes that succeeded. -/
def smallPair (b : Bool) : RespondCall := .status (some ⟨if b then 8 else 7, 0, 0, 0, 18⟩) 0

theorem statusOk_smallPair (b : Bool) : StatusOk .small (smallPair b).req 0 := by
  cases b <;> exact ⟨_, rfl, rfl, .ok, rfl, fun _ => rfl⟩

/-- The only call either of them makes is a `write`. -/
theorem step_smallPair {x : Pool Bool Ans Errno CInt σ} {W : World Bool Ans σ} {w : σ} {b : Bool}
    (n : ℕ) (hleft : x.left b = (smallPair b).exec .small 3)
    (hW : W.answers x.world b ⟨.write 3 ((smallPair b).frame .small), .ok n⟩ w) :
    Step W x ⟨w, Function.update x.left b
        (if n = ((smallPair b).frame .small).length then .ret 0 else failErrno EIO),
      x.past ++ [(b, ⟨.write 3 ((smallPair b).frame .small), .ok n⟩)]⟩ :=
  Step.call (c := Call.write 3 ((smallPair b).frame .small)) (.ok n : Except Errno ℕ)
    (hleft.trans (rsiRespondStatus_eq_writeFrame 3 (statusOk_smallPair b))) hW

/-- A world that gives the answers it is allowed to give, and keeps what arrives on `fd`. -/
def receivingWorld (fd : CInt) (Q : Event Ans → Prop) : World ι Ans Bytes where
  moves _ _ := False
  answers s _ e s' := Q e ∧ s' = s ++ takenBy fd e

omit [DecidableEq ι] in
theorem onePiece_receiving (fd : CInt) (Q : Event Ans → Prop) :
    OnePiece (receivingWorld fd Q : World ι Ans Bytes) fd id where
  moves _ _ h := h.elim
  answers _ _ _ _ h := h.2

/-- The second FLUSH is answered before the first. -/
theorem interleaved_responses_stay_whole_pair :
    let W : World Bool Ans Bytes := receivingWorld 3 WholeWrite
    Pkm.small.ResponseBit ∧ WritesWhole W ∧ OnePiece W 3 id ∧
      ∃ x, Reaches W (respondPool .small (fun _ => 3) smallPair []) x ∧ x.left true = .ret 0 ∧
        x.left false = .ret 0 ∧
        x.world = (smallPair true).frame .small ++ (smallPair false).frame .small ∧
        ∃ sent, WholeFrames .small (fun _ => 3) smallPair 3 x.world x sent := by
  intro W
  have hW : WritesWhole W := fun s i e s' h => h.1
  have hgives : ∀ b : Bool, WholeWrite ⟨.write 3 ((smallPair b).frame .small), .ok 18⟩ := by
    intro b fd buf n he
    obtain ⟨-, rfl, hn⟩ := write_inj he
    rw [← Except.ok.inj hn]
    cases b <;> rfl
  have hx := (Relation.ReflTransGen.single (step_smallPair (W := W) (x := respondPool .small
    (fun _ => 3) smallPair []) 18 rfl ⟨hgives true, rfl⟩)).tail
    (step_smallPair 18 rfl ⟨hgives false, rfl⟩)
  refine ⟨Pkm.small_responseBit, hW, onePiece_receiving 3 _, _, hx, rfl, rfl, by decide +kernel, ?_⟩
  obtain ⟨⟨s, sent, hs, hsent, -⟩, -⟩ := interleaved_responses_stay_whole .small (fun _ => 3)
    smallPair Pkm.small_responseBit hW (onePiece_receiving 3 _) hx
  rw [id, id, List.nil_append] at hs
  exact ⟨sent, hs ▸ hsent⟩

end Pool

end Librsi

import Librsi.Response.Outcome

/-!
# Encoders and decoders

A frame that a payload responder writes is decoded by the strict decoder of its layout,
to its last byte, into the value the arguments denote (`payload_round_trip`).  In the
other direction, a frame that decodes into a value that obeys the rules is the one the
responder writes for that value (`decoded_response_is_sent`), so nothing the protocol
allows is rejected and nothing has two encodings.

Between the two stands `exists_args`: every value that a layout can carry is denoted by
some arguments a caller could pass.
-/

namespace Librsi

open WireFormat Interaction Layout

/-! ## What fits -/

/-- What arguments denote fits the layout: every length is a 32-bit count. -/
theorem fits_value {k : Kind} (a : Args k) (h : a.PtrsOk) : k.layout.Fits a.value := by
  have hpath : ∀ l : List RsiPathEntry, ∀ e ∈ l.map RsiPathEntry.wire, e.layer.length < 2 ^ 32 :=
    fun l => List.forall_mem_map.mpr fun e _ => e.layer.length_items_lt
  have hmeta : ∀ m : Arr RsiKeyMetadata,
      (counted keyMetadata).Fits (m.items.map RsiKeyMetadata.wire) := by
    intro m
    rw [fits_counted, List.length_map]
    refine ⟨m.length_items_lt, List.forall_mem_map.mpr fun x _ => ?_⟩
    exact fits_keyMetadata.mpr x.sd.length_items_lt
  cases k with
  | lookup =>
    refine ⟨⟨?_, hmeta a.metadata⟩, rfl⟩
    rw [fits_counted]
    refine ⟨?_, fun e he => fits_pathEntry.mpr (hpath _ e he)⟩
    exact (List.length_map _).trans_lt a.entries.length_items_lt
  | enumChildren =>
    refine ⟨⟨?_, hmeta a.metadata⟩, rfl⟩
    rw [fits_counted]
    refine ⟨(List.length_map _).trans_lt a.children.length_items_lt,
      List.forall_mem_map.mpr fun c _ => fits_childEntry.mpr ⟨c.childName.length_items_lt, ?_,
        hpath _⟩⟩
    exact (List.length_map _).trans_lt c.entries.length_items_lt
  | readKey =>
    refine ⟨⟨fits_lengthPrefixed.mpr a.name.length_items_lt, fits_guid _,
      fits_lengthPrefixed.mpr a.sd.length_items_lt, fits_uint8 _, fits_uint8 _, fits_uint64 _⟩, rfl⟩
  | deleteLayer =>
    refine ⟨fits_counted.mpr ⟨?_, fun g _ => fits_guid g⟩, rfl⟩
    show a.items.length < 2 ^ 32
    rw [(GuidArr.items_spec h).1]
    exact a.count.toNat_lt
  | queryValues =>
    refine ⟨⟨fits_counted.mpr ⟨?_, List.forall_mem_map.mpr fun e _ => ?_⟩,
      fits_counted.mpr ⟨?_, List.forall_mem_map.mpr fun b _ => ?_⟩⟩, rfl⟩
    · exact (List.length_map _).trans_lt a.entries.length_items_lt
    · exact fits_valueEntry.mpr ⟨e.valueName.length_items_lt, e.layerName.length_items_lt,
        e.data.length_items_lt⟩
    · exact (List.length_map _).trans_lt a.blankets.length_items_lt
    · exact fits_blanketEntry.mpr b.layerName.length_items_lt

theorem responseFrame_eq {P : Pkm} {r : RsiRequest} {respOp : UInt16}
    (h : P.rsiResponseOpCode r.opCode = some respOp) (status : UInt32) (body : Bytes) :
    responseFrame P (some r) status body = Layout.frame r.requestId respOp status body := by
  rw [responseFrame, h, Option.getD_some]

/-! ## Written frames decode -/

/-- **The round trip of every payload responder.**  A frame it hands to `write` decodes
into the request's id and the value its arguments denote, which obeys the rules. -/
theorem payload_round_trip {P : Pkm} {fd : CInt} {k : Kind} {r : RsiRequest} {a : Args k}
    {env : Env} {past : Trace} {fd' : CInt} {f : Bytes}
    (hf : (fd', f) ∈ handed (exec env (respond P fd k (some r) a) past).2) :
    ∃ respOp, P.rsiResponseOpCode r.opCode = some respOp ∧
      decodeFrame k.layout respOp P.rsiOk f = some (r.requestId, a.value) ∧ k.Rules a.value := by
  obtain ⟨⟨hreq, hptrs, hrules⟩, -, rfl, hsmall, -⟩ :=
    (verdict_respond P fd k (some r) a env past).of_mem_handed hf
  obtain ⟨r', hr, -, hknown⟩ := hreq
  obtain rfl := Option.some.inj hr
  obtain ⟨respOp, hresp⟩ := Option.isSome_iff_exists.mp hknown
  refine ⟨respOp, hresp, decodeFrame_iff.mpr ⟨hsmall, fits_value a hptrs, ?_⟩, hrules⟩
  exact responseFrame_eq hresp P.rsiOk _

/-- **ENUM_CHILDREN round trip.**  Children, entries and metadata come back as the caller
gave them: the same bytes and values, in the same order, grouped the same way. -/
theorem rsiRespondEnumChildren_round_trip (P : Pkm) (fd : CInt) (r : RsiRequest)
    (children : Arr RsiChildEntry) (metadata : Arr RsiKeyMetadata) (env : Env) (past : Trace)
    (fd' : CInt) (f : Bytes)
    (hf : (fd', f) ∈
      handed (exec env (rsiRespondEnumChildren P fd (some r) children metadata) past).2) :
    ∃ respOp, P.rsiResponseOpCode r.opCode = some respOp ∧
      decodeFrame enumChildrenResult respOp P.rsiOk f = some (r.requestId,
        ⟨children.items.map RsiChildEntry.wire, metadata.items.map RsiKeyMetadata.wire⟩) := by
  obtain ⟨respOp, hresp, hdec, -⟩ :=
    payload_round_trip (k := .enumChildren) (a := ⟨children, metadata⟩) hf
  exact ⟨respOp, hresp, hdec⟩

theorem rsiRespondEnumChildren_round_trip_small :
    ∃ fd f, (fd, f) ∈ handed (exec .granting
        (rsiRespondEnumChildren .small 3 (some ⟨7, 0, 0, 0, 5⟩) smallChildren smallMetadata) []).2 ∧
      decodeFrame enumChildrenResult (5 ||| 0x8000) 0 f = some (7,
        ⟨smallChildren.items.map RsiChildEntry.wire,
          smallMetadata.items.map RsiKeyMetadata.wire⟩) := by
  have hwrote : handed (exec .granting
      (rsiRespondEnumChildren .small 3 (some ⟨7, 0, 0, 0, 5⟩) smallChildren smallMetadata) []).2 ≠
      [] := by
    decide +kernel
  obtain ⟨⟨fd, f⟩, hf⟩ := List.exists_mem_of_ne_nil _ hwrote
  obtain ⟨respOp, hresp, hdec⟩ := rsiRespondEnumChildren_round_trip .small 3 ⟨7, 0, 0, 0, 5⟩
    smallChildren smallMetadata .granting [] fd f hf
  obtain rfl := Pkm.small_responseBit _ _ hresp
  exact ⟨fd, f, hf, hdec⟩

/-- In a value that obeys the rules, every GUID target has exactly one record. -/
theorem Layout.Covers.countP_eq_one {metadata : List KeyMetadata} {entries : List PathEntry}
    (h : Covers metadata entries) {e : PathEntry} (he : e ∈ entries) (hg : e.IsGuidTarget) :
    metadata.countP (fun m => m.guid = e.targetGuid) = 1 := by
  obtain ⟨m, hm, hguid⟩ := (h.exact e.targetGuid).mpr ⟨e, he, hg, rfl⟩
  have hmem : e.targetGuid ∈ metadata.map KeyMetadata.guid := List.mem_map.mpr ⟨m, hm, hguid⟩
  have hcount := List.count_eq_one_of_mem h.unique hmem
  rw [List.count, List.countP_map] at hcount
  rw [← hcount]
  refine List.countP_congr fun m _ => ?_
  simp

/-- **LOOKUP round trip.**  Entries and metadata come back in the caller's order, although
validation sorts and deduplicates their GUIDs, and what is decoded is complete: each GUID
target has exactly one record, and every record is referenced. -/
theorem rsiRespondLookup_round_trip (P : Pkm) (fd : CInt) (r : RsiRequest)
    (entries : Arr RsiPathEntry) (metadata : Arr RsiKeyMetadata) (env : Env) (past : Trace)
    (fd' : CInt) (f : Bytes)
    (hf : (fd', f) ∈ handed (exec env (rsiRespondLookup P fd (some r) entries metadata) past).2) :
    ∃ respOp v, P.rsiResponseOpCode r.opCode = some respOp ∧
      decodeFrame lookupResult respOp P.rsiOk f = some (r.requestId, v) ∧
      v.entries = entries.items.map RsiPathEntry.wire ∧
      v.metadata = metadata.items.map RsiKeyMetadata.wire ∧
      (∀ e ∈ v.entries, e.IsGuidTarget →
        v.metadata.countP (fun m => m.guid = e.targetGuid) = 1) ∧
      ∀ m ∈ v.metadata, ∃ e ∈ v.entries, e.IsGuidTarget ∧ e.targetGuid = m.guid := by
  obtain ⟨respOp, hresp, hdec, hrules⟩ :=
    payload_round_trip (k := .lookup) (a := ⟨entries, metadata⟩) hf
  have hcovers : Covers (metadata.items.map RsiKeyMetadata.wire)
      (entries.items.map RsiPathEntry.wire) := hrules.covers
  refine ⟨respOp, _, hresp, hdec, rfl, rfl, fun e he hg => hcovers.countP_eq_one he hg, ?_⟩
  exact fun m hm => (hcovers.exact m.guid).mp ⟨m, hm, rfl⟩

theorem rsiRespondLookup_round_trip_small :
    ∃ fd f v, (fd, f) ∈ handed (exec .granting
        (rsiRespondLookup .small 3 (some ⟨7, 0, 0, 0, 1⟩) smallEntries smallMetadata) []).2 ∧
      decodeFrame lookupResult (1 ||| 0x8000) 0 f = some (7, v) ∧
      v.entries = smallEntries.items.map RsiPathEntry.wire := by
  have hwrote : handed (exec .granting
      (rsiRespondLookup .small 3 (some ⟨7, 0, 0, 0, 1⟩) smallEntries smallMetadata) []).2 ≠ [] := by
    decide +kernel
  obtain ⟨⟨fd, f⟩, hf⟩ := List.exists_mem_of_ne_nil _ hwrote
  obtain ⟨respOp, v, hresp, hdec, hentries, -⟩ := rsiRespondLookup_round_trip .small 3
    ⟨7, 0, 0, 0, 1⟩ smallEntries smallMetadata .granting [] fd f hf
  obtain rfl := Pkm.small_responseBit _ _ hresp
  exact ⟨fd, f, v, hf, hdec, hentries⟩

/-! ## End to end -/

/-- **A payload responder end to end.**  If `fault` is what makes it reject, then it rejects
exactly on a fault, and otherwise writes one frame, whose payload is the layout of what the
arguments denote and decodes back into it. -/
theorem respond_end_to_end {P : Pkm} (fd : CInt) {k : Kind} {r : RsiRequest} {a : Args k}
    {env : Env} (henv : env.NoAllocFails) (past : Trace) {fault : Prop}
    (hfault : Accepts P (some r) a ↔ ¬ fault) :
    let run := exec env (respond P fd k (some r) a) past
    (RejectsWith EINVAL run.1 run.2 ↔ fault) ∧
      (¬ fault → statusFrameLen + (k.layout.put a.value).length < 2 ^ 32 →
        ∃ f, handed run.2 = [(fd, f)] ∧ f.drop statusFrameLen = k.layout.put a.value ∧
          k.layout.strict (f.drop statusFrameLen) = some a.value) := by
  intro run
  refine ⟨?_, fun hok hsize => ?_⟩
  · rw [rejects_einval_iff_not_accepts fd henv past, hfault, not_not]
  · have haccepts := hfault.mpr hok
    have hpayload : (payloadFrame P (some r) a).drop statusFrameLen = k.layout.put a.value :=
      drop_frame _ _ _ _
    rcases too_large_or_wrote_of_accepts fd henv past haccepts with ⟨hbig, -⟩ | ⟨-, hwrote⟩
    · rw [payloadFrame, responseFrame, Layout.length_frame] at hbig
      exact absurd hsize (not_lt.mpr hbig)
    · exact ⟨_, hwrote, hpayload, k.layout.strict_iff.mpr ⟨fits_value a haccepts.2.1, hpayload⟩⟩

/-! ### QUERY_VALUES -/

/-- The ways to break a rule of `rsi_respond_query_values`: all of them are NULL where
something is to be read. -/
def QueryValuesFault (entries : Arr RsiValueEntry) (blankets : Arr RsiBlanketEntry) : Prop :=
  entries.Dangling ∨ blankets.Dangling ∨
    (∃ e ∈ entries.items, e.valueName.Dangling ∨ e.layerName.Dangling ∨ e.data.Dangling) ∨
    ∃ b ∈ blankets.items, b.layerName.Dangling

theorem accepts_queryValues_iff {P : Pkm} (hops : P.KnowsOps) {r : RsiRequest}
    (hop : r.opCode = P.opCode16 .queryValues) {entries : Arr RsiValueEntry}
    {blankets : Arr RsiBlanketEntry} :
    Accepts (k := .queryValues) P (some r) ⟨entries, blankets⟩ ↔
      ¬ QueryValuesFault entries blankets := by
  have hreq : RequestOk P .queryValues (some r) := RequestOk.of_opCode hops hop
  constructor
  · rintro ⟨-, ⟨⟨hentries, he⟩, hblankets, hb⟩, -⟩ (h | h | ⟨e, hmem, h⟩ | ⟨b, hmem, h⟩)
    · exact hentries h
    · exact hblankets h
    · obtain ⟨hname, hlayer, hdata⟩ := he e hmem
      exact h.elim hname fun h => h.elim hlayer hdata
    · exact hb b hmem h
  · intro hok
    refine ⟨hreq, ⟨⟨fun h => hok (Or.inl h), fun e hmem => ?_⟩,
      fun h => hok (Or.inr (Or.inl h)), fun b hmem h => ?_⟩, trivial⟩
    · have he : ∀ h, False := fun h => hok (Or.inr (Or.inr (Or.inl ⟨e, hmem, h⟩)))
      exact ⟨fun h => he (Or.inl h), fun h => he (Or.inr (Or.inl h)),
        fun h => he (Or.inr (Or.inr h))⟩
    · exact hok (Or.inr (Or.inr (Or.inr ⟨b, hmem, h⟩)))

/-- **QUERY_VALUES end to end.**  With no allocation failing and a frame that is not too
large, a call is rejected exactly when something is NULL where it may not be; otherwise
the payload decodes to its last byte into the caller's entries and blankets. -/
theorem rsiRespondQueryValues_end_to_end (P : Pkm) (hops : P.KnowsOps) (fd : CInt)
    (r : RsiRequest) (hop : r.opCode = P.opCode16 .queryValues) (entries : Arr RsiValueEntry)
    (blankets : Arr RsiBlanketEntry) (env : Env) (henv : env.NoAllocFails) (past : Trace)
    (hsize : statusFrameLen + (queryValuesResult.put ⟨entries.items.map RsiValueEntry.wire,
      blankets.items.map RsiBlanketEntry.wire⟩).length < 2 ^ 32) :
    let run := exec env (rsiRespondQueryValues P fd (some r) entries blankets) past
    (RejectsWith EINVAL run.1 run.2 ↔ QueryValuesFault entries blankets) ∧
      (¬ QueryValuesFault entries blankets → ∃ f, handed run.2 = [(fd, f)] ∧
        queryValuesResult.strict (f.drop statusFrameLen) = some
          ⟨entries.items.map RsiValueEntry.wire, blankets.items.map RsiBlanketEntry.wire⟩) := by
  intro run
  obtain ⟨hrejects, hwrites⟩ := respond_end_to_end fd (k := .queryValues)
    (a := ⟨entries, blankets⟩) henv past (accepts_queryValues_iff hops hop)
  refine ⟨hrejects, fun hok => ?_⟩
  obtain ⟨f, hwrote, -, hdec⟩ := hwrites hok hsize
  exact ⟨f, hwrote, hdec⟩

/-- Two values, `Size` in the layer `base` and the unnamed one of no layer. -/
def smallValues : Arr RsiValueEntry :=
  Arr.ofList [⟨Arr.ofList [83, 105, 122, 101] (by decide),
      Arr.ofList [98, 97, 115, 101] (by decide), 4, Arr.ofList [42, 0, 0, 0] (by decide), 400⟩,
    ⟨Arr.null, Arr.null, 1, Arr.ofList [79, 75] (by decide), 401⟩] (by decide)

/-- Blankets in the layers `base` and `user`. -/
def smallBlankets : Arr RsiBlanketEntry :=
  Arr.ofList [⟨Arr.ofList [98, 97, 115, 101] (by decide), 402⟩,
    ⟨Arr.ofList [117, 115, 101, 114] (by decide), 403⟩] (by decide)

theorem rsiRespondQueryValues_end_to_end_small :
    let r : RsiRequest := ⟨7, 0, 0, 0, 10⟩
    r.opCode = Pkm.small.opCode16 .queryValues ∧ Pkm.small.KnowsOps ∧ Env.granting.NoAllocFails ∧
      ∃ f, handed (exec .granting
          (rsiRespondQueryValues .small 3 (some r) smallValues smallBlankets) []).2 = [(3, f)] ∧
        queryValuesResult.strict (f.drop statusFrameLen) = some
          ⟨smallValues.items.map RsiValueEntry.wire,
            smallBlankets.items.map RsiBlanketEntry.wire⟩ := by
  intro r
  have hok : ¬ QueryValuesFault smallValues smallBlankets := by
    rw [QueryValuesFault]
    decide +kernel
  refine ⟨rfl, Pkm.small_knowsOps, Env.granting_noAllocFails, ?_⟩
  exact (rsiRespondQueryValues_end_to_end .small Pkm.small_knowsOps 3 r rfl smallValues
    smallBlankets .granting Env.granting_noAllocFails [] (by decide +kernel)).2 hok

/-! ## Decoded frames are written -/

/-- A list whose elements are all images is the image of a list. -/
theorem exists_map_eq {α β : Type} {f : α → β} {p : α → Prop} {l : List β}
    (h : ∀ b ∈ l, ∃ a, f a = b ∧ p a) : ∃ l' : List α, l'.map f = l ∧ ∀ a ∈ l', p a := by
  induction l with
  | nil => exact ⟨[], rfl, fun _ ha => absurd ha List.not_mem_nil⟩
  | cons b l ih =>
    obtain ⟨a, rfl, ha⟩ := h b List.mem_cons_self
    obtain ⟨l', rfl, hl'⟩ := ih fun b hb => h b (List.mem_cons_of_mem _ hb)
    exact ⟨a :: l', rfl, List.forall_mem_cons.mpr ⟨ha, hl'⟩⟩

/-- The same for arrays, if the list is short enough to be one. -/
theorem exists_items_map_eq {α β : Type} {f : α → β} {p : α → Prop} {l : List β}
    (hlen : l.length < 2 ^ 32) (h : ∀ b ∈ l, ∃ a, f a = b ∧ p a) :
    ∃ arr : Arr α, arr.items.map f = l ∧ ¬ arr.Dangling ∧ ∀ a ∈ arr.items, p a := by
  obtain ⟨l', rfl, hp⟩ := exists_map_eq h
  rw [List.length_map] at hlen
  refine ⟨Arr.ofList l' hlen, ?_, Arr.not_dangling_ofList l' hlen, ?_⟩
  · rw [Arr.items_ofList]
  · rw [Arr.items_ofList]
    exact hp

theorem exists_pathEntry {e : PathEntry} (h : e.layer.length < 2 ^ 32) :
    ∃ a : RsiPathEntry, a.wire = e ∧ ¬ a.layer.Dangling := by
  refine ⟨⟨Arr.ofList e.layer h, e.targetType, e.targetGuid, e.sequence⟩, ?_,
    Arr.not_dangling_ofList _ h⟩
  rw [RsiPathEntry.wire, Arr.items_ofList]

theorem exists_keyMetadata {m : KeyMetadata} (h : m.sd.length < 2 ^ 32) :
    ∃ a : RsiKeyMetadata, a.wire = m ∧ ¬ a.sd.Dangling := by
  refine ⟨⟨m.guid, Arr.ofList m.sd h, m.volatileKey, m.symlink, m.lastWriteTime⟩, ?_,
    Arr.not_dangling_ofList _ h⟩
  rw [RsiKeyMetadata.wire, Arr.items_ofList]

theorem exists_childEntry {c : ChildEntry} (h : childEntry.Fits c) :
    ∃ a : RsiChildEntry, a.wire = c ∧ ¬ a.childName.Dangling ∧ ¬ a.entries.Dangling ∧
      ∀ e ∈ a.entries.items, ¬ e.layer.Dangling := by
  obtain ⟨hname, hcount, hlayer⟩ := fits_childEntry.mp h
  obtain ⟨entries, hmap, hptr, hptrs⟩ :=
    exists_items_map_eq hcount fun e he => exists_pathEntry (hlayer e he)
  refine ⟨⟨Arr.ofList c.childName hname, entries⟩, ?_, Arr.not_dangling_ofList _ hname, hptr, hptrs⟩
  rw [RsiChildEntry.wire, Arr.items_ofList, hmap]

theorem exists_valueEntry {e : ValueEntry} (h : valueEntry.Fits e) :
    ∃ a : RsiValueEntry, a.wire = e ∧
      ¬ a.valueName.Dangling ∧ ¬ a.layerName.Dangling ∧ ¬ a.data.Dangling := by
  obtain ⟨hname, hlayer, hdata⟩ := fits_valueEntry.mp h
  refine ⟨⟨Arr.ofList e.valueName hname, Arr.ofList e.layerName hlayer, e.valueType,
    Arr.ofList e.data hdata, e.sequence⟩, ?_, Arr.not_dangling_ofList _ hname,
    Arr.not_dangling_ofList _ hlayer, Arr.not_dangling_ofList _ hdata⟩
  rw [RsiValueEntry.wire, Arr.items_ofList, Arr.items_ofList, Arr.items_ofList]

theorem exists_blanketEntry {b : BlanketEntry} (h : b.layerName.length < 2 ^ 32) :
    ∃ a : RsiBlanketEntry, a.wire = b ∧ ¬ a.layerName.Dangling := by
  refine ⟨⟨Arr.ofList b.layerName h, b.sequence⟩, ?_, Arr.not_dangling_ofList _ h⟩
  rw [RsiBlanketEntry.wire, Arr.items_ofList]

/-- A list of GUIDs, laid end to end. -/
def GuidArr.ofList (gs : List Guid) (h : gs.length < 2 ^ 32) : GuidArr where
  ptr := some (gs.flatMap Guid.bytes)
  count := UInt32.ofNat gs.length
  valid := by
    rintro m hm
    rw [← Option.some.inj hm, length_flatMap_bytes, ← toNat_ofNat_eq_iff.mpr h]

theorem GuidArr.items_ofList (gs : List Guid) (h : gs.length < 2 ^ 32) :
    (GuidArr.ofList gs h).items = gs := by
  refine GuidArr.items_eq ?_
  show (gs.flatMap Guid.bytes).take ((UInt32.ofNat gs.length).toNat * 16) = gs.flatMap Guid.bytes
  rw [← toNat_ofNat_eq_iff.mpr h, ← length_flatMap_bytes, List.take_length]

/-- **Every value a layout can carry is denoted by some arguments.** -/
theorem exists_args {k : Kind} {v : k.Result} (h : k.layout.Fits v) :
    ∃ a : Args k, a.PtrsOk ∧ a.value = v := by
  cases k with
  | lookup =>
    obtain ⟨⟨⟨he, hes⟩, hm, hms⟩, -⟩ := And.imp_left (And.imp fits_counted.mp fits_counted.mp) h
    obtain ⟨entries, hentries, hptr, hptrs⟩ :=
      exists_items_map_eq he fun e hmem => exists_pathEntry (fits_pathEntry.mp (hes e hmem))
    obtain ⟨metadata, hmetadata, hptr', hptrs'⟩ :=
      exists_items_map_eq hm fun m hmem => exists_keyMetadata (fits_keyMetadata.mp (hms m hmem))
    refine ⟨⟨entries, metadata⟩, ⟨⟨hptr, hptrs⟩, hptr', hptrs'⟩, ?_⟩
    show LookupResult.mk _ _ = v
    rw [hentries, hmetadata]
  | enumChildren =>
    obtain ⟨⟨⟨hc, hcs⟩, hm, hms⟩, -⟩ := And.imp_left (And.imp fits_counted.mp fits_counted.mp) h
    obtain ⟨children, hchildren, hptr, hptrs⟩ :=
      exists_items_map_eq hc fun c hmem => exists_childEntry (hcs c hmem)
    obtain ⟨metadata, hmetadata, hptr', hptrs'⟩ :=
      exists_items_map_eq hm fun m hmem => exists_keyMetadata (fits_keyMetadata.mp (hms m hmem))
    refine ⟨⟨children, metadata⟩, ⟨⟨hptr, hptrs⟩, hptr', hptrs'⟩, ?_⟩
    show EnumChildrenResult.mk _ _ = v
    rw [hchildren, hmetadata]
  | readKey =>
    obtain ⟨⟨hname, -, hsd, -⟩, -⟩ := h
    have hname := fits_lengthPrefixed.mp hname
    have hsd := fits_lengthPrefixed.mp hsd
    refine ⟨⟨Arr.ofList v.name hname, ⟨some v.parentGuid.bytes, fun m hm => ?_⟩,
      Arr.ofList v.sd hsd, v.volatileKey, v.symlink, v.lastWriteTime⟩,
      ⟨by simp, Arr.not_dangling_ofList _ hname, Arr.not_dangling_ofList _ hsd⟩, ?_⟩
    · rw [← Option.some.inj hm, v.parentGuid.length_eq]
    · have hguid : v.parentGuid.bytes.take 16 = v.parentGuid.bytes :=
        List.take_of_length_le v.parentGuid.length_eq.le
      show ReadKeyResult.mk _ ⟨v.parentGuid.bytes.take 16, _⟩ _ _ _ _ = v
      simp only [Arr.items_ofList, hguid]
  | deleteLayer =>
    obtain ⟨hcount, -⟩ := fits_counted.mp h.1
    refine ⟨GuidArr.ofList v.orphanedGuids hcount, fun hd => absurd hd.1 (by simp [GuidArr.ofList]),
      ?_⟩
    show DeleteLayerResult.mk _ = v
    rw [GuidArr.items_ofList]
  | queryValues =>
    obtain ⟨⟨⟨he, hes⟩, hb, hbs⟩, -⟩ := And.imp_left (And.imp fits_counted.mp fits_counted.mp) h
    obtain ⟨entries, hentries, hptr, hptrs⟩ :=
      exists_items_map_eq he fun e hmem => exists_valueEntry (hes e hmem)
    obtain ⟨blankets, hblankets, hptr', hptrs'⟩ :=
      exists_items_map_eq hb fun b hmem => exists_blanketEntry (fits_blanketEntry.mp (hbs b hmem))
    refine ⟨⟨entries, blankets⟩, ⟨⟨hptr, hptrs⟩, hptr', hptrs'⟩, ?_⟩
    show QueryValuesResult.mk _ _ = v
    rw [hentries, hblankets]

/-- **Completeness and canonicity of the encoders.**  If a frame decodes into a value that
obeys the rules, then some arguments denote that value; whatever arguments denote it, the
responder hands exactly this frame to `write`; and no other frame decodes into it. -/
theorem decoded_response_is_sent (P : Pkm) (hbit : P.ResponseBit) (hops : P.KnowsOps) (k : Kind)
    (f : Bytes) (requestId : UInt64) (v : k.Result)
    (hdec : decodeFrame k.layout (P.opCode16 k.op ||| 0x8000) P.rsiOk f = some (requestId, v))
    (hrules : k.Rules v) :
    (∃ a : Args k, a.PtrsOk ∧ a.value = v) ∧
      (∀ (a : Args k) (r : RsiRequest) (fd : CInt) (env : Env) (past : Trace), a.PtrsOk →
        a.value = v → r.opCode = P.opCode16 k.op → r.requestId = requestId → env.NoAllocFails →
        handed (exec env (respond P fd k (some r) a) past).2 = [(fd, f)]) ∧
      ∀ f', decodeFrame k.layout (P.opCode16 k.op ||| 0x8000) P.rsiOk f' = some (requestId, v) →
        f' = f := by
  obtain ⟨hlen, hfits, rfl⟩ := decodeFrame_iff.mp hdec
  refine ⟨exists_args hfits, fun a r fd env past hptrs hvalue hop hid henv => ?_, fun f' hf' => ?_⟩
  · obtain ⟨respOp, hresp⟩ := Option.isSome_iff_exists.mp (hops k.op)
    have hresp' : P.rsiResponseOpCode r.opCode = some (P.opCode16 k.op ||| 0x8000) := by
      rw [hop, hresp, hbit _ _ hresp]
    have hframe : payloadFrame P (some r) a =
        Layout.frame requestId (P.opCode16 k.op ||| 0x8000) P.rsiOk (k.layout.put v) := by
      rw [payloadFrame, responseFrame_eq hresp', hid, hvalue]
    have haccepts : Accepts P (some r) a := ⟨⟨r, rfl, hop, by rw [hresp']; rfl⟩, hptrs, hvalue ▸ hrules⟩
    have hwrites := too_large_or_wrote_of_accepts fd henv past haccepts
    rw [hframe] at hwrites
    rcases hwrites with ⟨hbig, -⟩ | ⟨-, hwrote⟩
    · exact absurd hlen (not_lt.mpr hbig)
    · exact hwrote
  · exact (decodeFrame_iff.mp hf').2.2

theorem decoded_response_is_sent_deleteLayer :
    let v : DeleteLayerResult := ⟨[largeGuid, smallGuid]⟩
    let f := Layout.frame 7 (17 ||| 0x8000) 0 (deleteLayerResult.put v)
    decodeFrame deleteLayerResult (17 ||| 0x8000) 0 f = some (7, v) ∧ v.Rules ∧
      handed (exec .granting
        (respond .small 3 .deleteLayer (some ⟨7, 0, 0, 0, 17⟩) smallOrphans) []).2 = [(3, f)] := by
  intro v f
  have hdec : decodeFrame deleteLayerResult (17 ||| 0x8000) 0 f = some (7, v) := by
    refine decodeFrame_iff.mpr ⟨by decide +kernel, ⟨fits_counted.mpr ⟨by decide, ?_⟩, rfl⟩, rfl⟩
    exact fun g _ => fits_guid g
  have hrules : v.Rules := by
    refine ⟨fun g hg => ?_, by decide⟩
    rcases List.mem_pair.mp hg with rfl | rfl <;> decide
  have hptrs : Args.PtrsOk (k := .deleteLayer) smallOrphans := fun h => absurd h.1 (by decide)
  have hvalue : Args.value (k := .deleteLayer) smallOrphans = v := by
    have hitems : smallOrphans.items = [largeGuid, smallGuid] := GuidArr.items_eq rfl
    show DeleteLayerResult.mk _ = DeleteLayerResult.mk _
    rw [hitems]
  refine ⟨hdec, hrules, ?_⟩
  exact (decoded_response_is_sent .small Pkm.small_responseBit Pkm.small_knowsOps .deleteLayer
    f 7 v hdec hrules).2.1 smallOrphans ⟨7, 0, 0, 0, 17⟩ 3 .granting [] hptrs hvalue rfl rfl
    Env.granting_noAllocFails

end Librsi

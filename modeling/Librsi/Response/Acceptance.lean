import Librsi.Response.Outcome

/-!
# What LOOKUP and ENUM_CHILDREN accept

The rules of a LOOKUP are spread over validation, which sorts and compares, and over two
encoding loops.  `LookupFault` lists the ways to break one, as a caller would look for
them, and `rsiRespondLookup_rejects_iff` says that a call is rejected exactly when one of
them is there.

ENUM_CHILDREN has its own collector and its own driver.  They agree with those of LOOKUP
on the concatenated entries (`enumChildren_agrees_with_lookup`).
-/

namespace Librsi

open WireFormat Interaction Layout

/-! ## LOOKUP -/

/-- The ways to break a rule of `rsi_respond_lookup`. -/
inductive LookupFault (P : Pkm) (req : Option RsiRequest) (entries : Arr RsiPathEntry)
    (metadata : Arr RsiKeyMetadata) : Prop
  | noRequest (h : req = none)
  | otherOp (r : RsiRequest) (h : req = some r) (op : r.opCode ≠ P.opCode16 .lookup)
  | nullEntries (h : entries.Dangling)
  | nullMetadata (h : metadata.Dangling)
  | targetType (e : RsiPathEntry) (he : e ∈ entries.items)
      (h : ¬ e.wire.IsGuidTarget ∧ ¬ e.wire.IsHiddenTarget)
  | hiddenGuid (e : RsiPathEntry) (he : e ∈ entries.items)
      (h : e.wire.IsHiddenTarget ∧ e.targetGuid ≠ Guid.nil)
  | nilTarget (e : RsiPathEntry) (he : e ∈ entries.items)
      (h : e.wire.IsGuidTarget ∧ e.targetGuid = Guid.nil)
  | nilMetadata (m : RsiKeyMetadata) (hm : m ∈ metadata.items) (h : m.guid = Guid.nil)
  | sharedMetadata (i j : ℕ) (m m' : RsiKeyMetadata) (hij : i < j)
      (hi : metadata.items[i]? = some m) (hj : metadata.items[j]? = some m')
      (h : m.guid = m'.guid)
  | otherSet (h : {g | ∃ m ∈ metadata.items, m.guid = g} ≠
      {g | ∃ e ∈ entries.items, e.wire.IsGuidTarget ∧ e.targetGuid = g})
  | nullLayer (e : RsiPathEntry) (he : e ∈ entries.items) (h : e.layer.Dangling)
  | nullSd (m : RsiKeyMetadata) (hm : m ∈ metadata.items) (h : m.sd.Dangling)
  | flag (m : RsiKeyMetadata) (hm : m ∈ metadata.items)
      (h : ¬ BoolRule m.volatileKey ∨ ¬ BoolRule m.symlink)

theorem hidden_not_guid {e : PathEntry} (h : e.IsHiddenTarget) : ¬ e.IsGuidTarget := by
  intro hg
  have hne : rsiPathTargetGuid ≠ rsiPathTargetHidden := by decide
  exact hne (hg.symm.trans h)

theorem covers_wire_iff {metadata : Arr RsiKeyMetadata} {entries : List RsiPathEntry} :
    Covers (metadata.items.map RsiKeyMetadata.wire) (entries.map RsiPathEntry.wire) ↔
      (∀ m ∈ metadata.items, m.guid ≠ Guid.nil) ∧
        (metadata.items.map RsiKeyMetadata.guid).Nodup ∧
        {g | ∃ m ∈ metadata.items, m.guid = g} =
          {g | ∃ e ∈ entries, e.wire.IsGuidTarget ∧ e.targetGuid = g} := by
  have hnodup := map_guid_wire metadata.items
  have hmeta : ∀ g, (∃ m ∈ metadata.items.map RsiKeyMetadata.wire, m.guid = g) ↔
      ∃ m ∈ metadata.items, m.guid = g := fun g => by simp [RsiKeyMetadata.wire]
  have hentry : ∀ g, (∃ e ∈ entries.map RsiPathEntry.wire, e.IsGuidTarget ∧ e.targetGuid = g) ↔
      ∃ e ∈ entries, e.wire.IsGuidTarget ∧ e.targetGuid = g := fun g => by
    simp [RsiPathEntry.wire]
  constructor
  · intro h
    have hnonzero := List.forall_mem_map.mp h.nonzero
    refine ⟨hnonzero, hnodup ▸ h.unique, Set.ext fun g => ?_⟩
    exact (hmeta g).symm.trans ((h.exact g).trans (hentry g))
  · rintro ⟨hnonzero, hunique, hset⟩
    refine ⟨List.forall_mem_map.mpr hnonzero, hnodup.symm ▸ hunique, fun g => ?_⟩
    exact (hmeta g).trans ((Set.ext_iff.mp hset g).trans (hentry g).symm)

/-- No fault is the same as acceptance. -/
theorem accepts_lookup_iff {P : Pkm} (hops : P.KnowsOps) {req : Option RsiRequest}
    {entries : Arr RsiPathEntry} {metadata : Arr RsiKeyMetadata} :
    Accepts (k := .lookup) P req ⟨entries, metadata⟩ ↔ ¬ LookupFault P req entries metadata := by
  constructor
  · rintro ⟨⟨r, rfl, hop, -⟩, ⟨⟨hentries, hlayer⟩, hmetadata, hsd⟩, htarget, hflags, hcovers⟩ hfault
    obtain ⟨hnonzero, hunique, hset⟩ := covers_wire_iff.mp hcovers
    have htarget := List.forall_mem_map.mp htarget
    have hflags := List.forall_mem_map.mp hflags
    cases hfault with
    | noRequest h => exact absurd h (by simp)
    | otherOp r' h op => exact op (Option.some.inj h ▸ hop)
    | nullEntries h => exact hentries h
    | nullMetadata h => exact hmetadata h
    | targetType e he h => exact (htarget e he).elim h.1 fun hh => h.2 hh.1
    | hiddenGuid e he h =>
      exact (htarget e he).elim (hidden_not_guid h.1) fun hh => h.2 hh.2
    | nilTarget e he h =>
      -- no rule forbids the nil target itself: it would need a metadata record, and none may be nil
      obtain ⟨m, hm, hg⟩ := (Set.ext_iff.mp hset Guid.nil).mpr ⟨e, he, h⟩
      exact hnonzero m hm hg
    | nilMetadata m hm h => exact hnonzero m hm h
    | sharedMetadata i j m m' hij hi hj h =>
      have hj' : j < (metadata.items.map RsiKeyMetadata.guid).length := by
        rw [List.length_map]
        exact (List.getElem?_eq_some_iff.mp hj).1
      refine List.nodup_iff_getElem?_ne_getElem?.mp hunique i j hij hj' ?_
      rw [List.getElem?_map, List.getElem?_map, hi, hj, Option.map_some, Option.map_some, h]
    | otherSet h => exact h hset
    | nullLayer e he h => exact hlayer e he h
    | nullSd m hm h => exact hsd m hm h
    | flag m hm h => exact h.elim (fun h => h (hflags m hm).1) (fun h => h (hflags m hm).2)
  · intro hok
    have hreq : RequestOk P .lookup req := by
      cases req with
      | none => exact absurd (.noRequest rfl) hok
      | some r =>
        have hop : r.opCode = P.opCode16 .lookup := by
          by_contra hop
          exact hok (.otherOp r rfl hop)
        exact RequestOk.of_opCode hops hop
    have hunique : (metadata.items.map RsiKeyMetadata.guid).Nodup := by
      refine List.nodup_iff_getElem?_ne_getElem?.mpr fun i j hij hj heq => ?_
      rw [List.length_map] at hj
      have hi : i < metadata.items.length := hij.trans hj
      rw [List.getElem?_map, List.getElem?_map, List.getElem?_eq_getElem hi,
        List.getElem?_eq_getElem hj] at heq
      exact hok (.sharedMetadata i j _ _ hij (List.getElem?_eq_getElem hi)
        (List.getElem?_eq_getElem hj) (Option.some.inj heq))
    have htarget : ∀ e ∈ entries.items, e.wire.TargetRule := by
      intro e he
      by_cases hg : e.wire.IsGuidTarget
      · exact Or.inl hg
      · have hh : e.wire.IsHiddenTarget := by
          by_contra hh
          exact hok (.targetType e he ⟨hg, hh⟩)
        refine Or.inr ⟨hh, ?_⟩
        by_contra hnil
        exact hok (.hiddenGuid e he ⟨hh, hnil⟩)
    have hflags : ∀ m ∈ metadata.items, m.wire.FlagRule := by
      intro m hm
      by_contra hflag
      exact hok (.flag m hm (not_and_or.mp hflag))
    have hset : {g | ∃ m ∈ metadata.items, m.guid = g} =
        {g | ∃ e ∈ entries.items, e.wire.IsGuidTarget ∧ e.targetGuid = g} := by
      by_contra hset
      exact hok (.otherSet hset)
    refine ⟨hreq, ⟨⟨fun h => hok (.nullEntries h), fun e he h => hok (.nullLayer e he h)⟩,
      fun h => hok (.nullMetadata h), fun m hm h => hok (.nullSd m hm h)⟩,
      List.forall_mem_map.mpr htarget, List.forall_mem_map.mpr hflags, ?_⟩
    exact covers_wire_iff.mpr ⟨fun m hm h => hok (.nilMetadata m hm h), hunique, hset⟩

/-- **LOOKUP acceptance, exactly.**  With no allocation failing, a call is rejected with
`EINVAL` and writes nothing if and only if it has one of the listed faults; in every
other case it goes on to size the frame. -/
theorem rsiRespondLookup_rejects_iff (P : Pkm) (hops : P.KnowsOps) (fd : CInt)
    (req : Option RsiRequest) (entries : Arr RsiPathEntry) (metadata : Arr RsiKeyMetadata)
    (env : Env) (henv : env.NoAllocFails) (past : Trace) :
    let r := exec env (rsiRespondLookup P fd req entries metadata) past
    (RejectsWith EINVAL r.1 r.2 ↔ LookupFault P req entries metadata) ∧
      (¬ LookupFault P req entries metadata →
        RejectsWith EOVERFLOW r.1 r.2 ∨ ∃ f, handed r.2 = [(fd, f)]) := by
  intro r
  have haccepts : Accepts (k := .lookup) P req ⟨entries, metadata⟩ ↔ _ := accepts_lookup_iff hops
  have hrejects : RejectsWith EINVAL r.1 r.2 ↔ _ :=
    rejects_einval_iff_not_accepts (k := .lookup) (a := ⟨entries, metadata⟩) fd henv past
  refine ⟨?_, fun hok => ?_⟩
  · rw [hrejects, haccepts, not_not]
  · rcases too_large_or_wrote_of_accepts fd henv past (haccepts.mpr hok) with ⟨-, h⟩ | ⟨-, h⟩
    · exact Or.inl h
    · exact Or.inr ⟨_, h⟩

theorem rsiRespondLookup_rejects_missing_metadata :
    let q : RsiRequest := ⟨7, 0, 0, 0, 1⟩
    let r := exec .granting (rsiRespondLookup .small 3 (some q) smallEntries Arr.null) []
    let r' := exec .granting (rsiRespondLookup .small 3 (some q) smallEntries smallMetadata) []
    Pkm.small.KnowsOps ∧ Env.granting.NoAllocFails ∧ RejectsWith EINVAL r.1 r.2 ∧
      ∃ f, handed r'.2 = [(3, f)] := by
  intro q r r'
  refine ⟨Pkm.small_knowsOps, Env.granting_noAllocFails, ?_, ?_⟩
  · have hfault : LookupFault .small (some q) smallEntries Arr.null := by
      refine .otherSet fun heq => ?_
      have hentry : smallEntry 5 ∈ smallEntries.items := List.mem_cons_self
      obtain ⟨m, hm, -⟩ := (Set.ext_iff.mp heq smallGuid).mpr ⟨smallEntry 5, hentry, rfl, rfl⟩
      exact absurd hm List.not_mem_nil
    exact (rsiRespondLookup_rejects_iff .small Pkm.small_knowsOps 3 _ _ _ .granting
      Env.granting_noAllocFails []).1.mpr hfault
  · have hret : r'.1 = .ret 0 := by decide +kernel
    obtain ⟨hiff, hwrites⟩ := rsiRespondLookup_rejects_iff .small Pkm.small_knowsOps 3 (some q)
      smallEntries smallMetadata .granting Env.granting_noAllocFails []
    have hfine : ¬ LookupFault .small (some q) smallEntries smallMetadata :=
      fun hfault => absurd (hret.symm.trans (hiff.mpr hfault).1.1) (by decide)
    exact (hwrites hfine).resolve_left fun h => absurd (hret.symm.trans h.1.1) (by decide)

/-! ## ENUM_CHILDREN -/

/-- The arrays of entries are there: the array of children, and that of each child. -/
def ArraysOk (children : Arr RsiChildEntry) : Prop :=
  ¬ children.Dangling ∧ ∀ c ∈ children.items, ¬ c.entries.Dangling

/-- With its arrays there, ENUM_CHILDREN checks what LOOKUP checks on any array that
lists the same entries. -/
theorem enumChildrenValid_iff {children : Arr RsiChildEntry} {metadata : Arr RsiKeyMetadata}
    {entries : Arr RsiPathEntry} (hentries : ¬ entries.Dangling)
    (hitems : entries.items = flatEntries children) :
    EnumChildrenValid children metadata ↔ ArraysOk children ∧ LookupValid entries metadata := by
  rw [EnumChildrenValid, LookupValid, ArraysOk, hitems, flatEntries, List.forall_mem_flatMap]
  constructor
  · rintro ⟨⟨hchildren, hchild⟩, hrest⟩
    exact ⟨⟨hchildren, fun c hc => (hchild c hc).1⟩, ⟨hentries, fun c hc => (hchild c hc).2⟩, hrest⟩
  · rintro ⟨⟨hchildren, hchild⟩, ⟨-, htarget⟩, hrest⟩
    exact ⟨⟨hchildren, fun c hc => ⟨hchild c hc, htarget c hc⟩⟩, hrest⟩

/-- The same for the responders, which look at names, descriptors and flags as well. -/
theorem accepts_enumChildren_iff {P : Pkm} (hops : P.KnowsOps) {q q' : RsiRequest}
    (hq : q.opCode = P.opCode16 .enumChildren) (hq' : q'.opCode = P.opCode16 .lookup)
    {children : Arr RsiChildEntry} {metadata : Arr RsiKeyMetadata}
    {entries : Arr RsiPathEntry} (hentries : ¬ entries.Dangling)
    (hitems : entries.items = flatEntries children) :
    Accepts (k := .enumChildren) P (some q) ⟨children, metadata⟩ ↔
      ArraysOk children ∧ (∀ c ∈ children.items, ¬ c.childName.Dangling) ∧
        Accepts (k := .lookup) P (some q') ⟨entries, metadata⟩ := by
  have hflat := flatMap_entries_wire children
  have hmem : ∀ {p : RsiPathEntry → Prop}, (∀ e ∈ entries.items, p e) ↔
      ∀ c ∈ children.items, ∀ e ∈ c.entries.items, p e := by
    intro p
    rw [hitems, flatEntries, List.forall_mem_flatMap]
  constructor
  · rintro ⟨-, ⟨⟨hchildren, hchild⟩, hmetadata, hsd⟩, htarget, hflags, hcovers⟩
    refine ⟨⟨hchildren, fun c hc => (hchild c hc).2.1⟩, fun c hc => (hchild c hc).1,
      RequestOk.of_opCode hops hq',
      ⟨⟨hentries, hmem.mpr fun c hc => (hchild c hc).2.2⟩, hmetadata, hsd⟩, ?_, hflags, ?_⟩
    · refine List.forall_mem_map.mpr (hmem.mpr fun c hc => ?_)
      exact List.forall_mem_map.mp (List.forall_mem_map.mp htarget c hc)
    · show Covers _ (entries.items.map RsiPathEntry.wire)
      rw [hitems, ← hflat]
      exact hcovers
  · rintro ⟨⟨hchildren, hchild⟩, hname, -, ⟨⟨-, hlayer⟩, hmetadata, hsd⟩, htarget, hflags, hcovers⟩
    have hlayer := hmem.mp hlayer
    have htarget := hmem.mp (List.forall_mem_map.mp htarget)
    refine ⟨RequestOk.of_opCode hops hq,
      ⟨⟨hchildren, fun c hc => ⟨hname c hc, hchild c hc, hlayer c hc⟩⟩, hmetadata, hsd⟩,
      ?_, hflags, ?_⟩
    · refine List.forall_mem_map.mpr fun c hc => ?_
      exact List.forall_mem_map.mpr (htarget c hc)
    · show Covers _ ((children.items.map RsiChildEntry.wire).flatMap ChildEntry.entries)
      rw [hflat, ← hitems]
      exact hcovers

/-- The outcome of validation when no allocation fails. -/
theorem Computes.exec_eq {m : Sys Unit} {c : Prop} (h : Computes (fun u : Unit => u) m c ())
    {env : Env} (henv : env.NoAllocFails) (past : Trace) :
    c ∧ (exec env m past).1 = .ret () ∨ ¬ c ∧ (exec env m past).1 = .err EINVAL := by
  have hfine := henv.not_reserveFailed m past
  have hrun : Computed (fun u : Unit => u) c () (exec env m past).1 (exec env m past).2 :=
    h.run env.answer past
  generalize exec env m past = r at hrun hfine ⊢
  obtain ⟨o, t⟩ := r
  cases hrun with
  | enomem only failed => exact absurd failed hfine
  | ret only fine holds eq => exact Or.inl ⟨holds, rfl⟩
  | einval only fine fails => exact Or.inr ⟨fails, rfl⟩

/-- The two validators give the same result on arrays that are there, and a missing one is
rejected. -/
theorem exec_validateEnumChildrenMetadata (metadata : Arr RsiKeyMetadata)
    {children : Arr RsiChildEntry} {entries : Arr RsiPathEntry} (hentries : ¬ entries.Dangling)
    (hitems : entries.items = flatEntries children) {env env' : Env} (henv : env.NoAllocFails)
    (henv' : env'.NoAllocFails) (past past' : Trace) :
    (ArraysOk children → (exec env (validateEnumChildrenMetadata children metadata) past).1 =
        (exec env' (validateLookupMetadata entries metadata) past').1) ∧
      (¬ ArraysOk children →
        (exec env (validateEnumChildrenMetadata children metadata) past).1 = .err EINVAL) := by
  have hvalid : EnumChildrenValid children metadata ↔ _ := enumChildrenValid_iff hentries hitems
  have henum := (computes_validateEnumChildrenMetadata children metadata).exec_eq henv past
  have hlookup := (computes_validateLookupMetadata entries metadata).exec_eq henv' past'
  constructor
  · intro harrays
    rcases henum with ⟨hc, he⟩ | ⟨hc, he⟩
    · rcases hlookup with ⟨-, hl⟩ | ⟨hc', -⟩
      · exact he.trans hl.symm
      · exact absurd (hvalid.mp hc).2 hc'
    · rcases hlookup with ⟨hc', -⟩ | ⟨-, hl⟩
      · exact absurd (hvalid.mpr ⟨harrays, hc'⟩) hc
      · exact he.trans hl.symm
  · intro harrays
    rcases henum with ⟨hc, -⟩ | ⟨-, he⟩
    · exact absurd (hvalid.mp hc).1 harrays
    · exact he

/-- When ENUM_CHILDREN rejects, in terms of a LOOKUP on the same entries. -/
theorem rsiRespondEnumChildren_rejects_iff {P : Pkm} (hops : P.KnowsOps) {q q' : RsiRequest}
    (hq : q.opCode = P.opCode16 .enumChildren) (hq' : q'.opCode = P.opCode16 .lookup)
    {children : Arr RsiChildEntry} {metadata : Arr RsiKeyMetadata}
    {entries : Arr RsiPathEntry} (hentries : ¬ entries.Dangling)
    (hitems : entries.items = flatEntries children) {env : Env} (henv : env.NoAllocFails)
    (fd : CInt) (past : Trace) :
    RejectsWith EINVAL
        (exec env (rsiRespondEnumChildren P fd (some q) children metadata) past).1
        (exec env (rsiRespondEnumChildren P fd (some q) children metadata) past).2 ↔
      ¬ (ArraysOk children ∧ (∀ c ∈ children.items, ¬ c.childName.Dangling) ∧
        Accepts (k := .lookup) P (some q') ⟨entries, metadata⟩) := by
  rw [← accepts_enumChildren_iff hops hq hq' hentries hitems]
  exact rejects_einval_iff_not_accepts (k := .enumChildren) (a := ⟨children, metadata⟩) fd henv past

/-- **ENUM_CHILDREN agrees with LOOKUP on the flattened entries.**  The validators give
the same result, the responders reject the same inputs apart from NULL arrays and names,
and how entries are grouped under children does not matter. -/
theorem enumChildren_agrees_with_lookup (P : Pkm) (hops : P.KnowsOps) (fd : CInt)
    (q q' : RsiRequest) (hq : q.opCode = P.opCode16 .enumChildren)
    (hq' : q'.opCode = P.opCode16 .lookup) (children : Arr RsiChildEntry)
    (metadata : Arr RsiKeyMetadata) (hcount : (flatEntries children).length < 2 ^ 32)
    (env env' : Env) (henv : env.NoAllocFails) (henv' : env'.NoAllocFails) (past past' : Trace) :
    let entries := Arr.ofList (flatEntries children) hcount
    let validated := (exec env (validateEnumChildrenMetadata children metadata) past).1
    let r := exec env (rsiRespondEnumChildren P fd (some q) children metadata) past
    let r' := exec env' (rsiRespondLookup P fd (some q') entries metadata) past'
    (ArraysOk children →
        validated = (exec env' (validateLookupMetadata entries metadata) past').1) ∧
      (¬ ArraysOk children → validated = .err EINVAL) ∧
      (RejectsWith EINVAL r.1 r.2 ↔
        ¬ ArraysOk children ∨ metadata.Dangling ∨ (∃ c ∈ children.items, c.childName.Dangling) ∨
          RejectsWith EINVAL r'.1 r'.2) ∧
      ∀ children' : Arr RsiChildEntry, flatEntries children' = flatEntries children →
        (∀ cs ∈ [children, children'], ArraysOk cs ∧ ∀ c ∈ cs.items, ¬ c.childName.Dangling) →
        let s := exec env (rsiRespondEnumChildren P fd (some q) children' metadata) past
        RejectsWith EINVAL r.1 r.2 ↔ RejectsWith EINVAL s.1 s.2 := by
  intro entries validated r r'
  have hentries : ¬ entries.Dangling := Arr.not_dangling_ofList _ _
  have hitems : entries.items = flatEntries children := Arr.items_ofList _ _
  have hvalidate :=
    exec_validateEnumChildrenMetadata metadata hentries hitems henv henv' past past'
  have hr : RejectsWith EINVAL r.1 r.2 ↔ _ :=
    rsiRespondEnumChildren_rejects_iff hops hq hq' hentries hitems henv fd past
  have hr' : RejectsWith EINVAL r'.1 r'.2 ↔
      ¬ Accepts (k := .lookup) P (some q') ⟨entries, metadata⟩ :=
    (verdict_respond P fd .lookup (some q') ⟨entries, metadata⟩ env' past').rejects_einval_iff
      (henv'.not_reserveFailed _ _)
  refine ⟨hvalidate.1, hvalidate.2, ?_, fun children' hflat hptrs => ?_⟩
  · rw [hr, hr']
    constructor
    · intro hnot
      by_cases harrays : ArraysOk children
      · by_cases hname : ∀ c ∈ children.items, ¬ c.childName.Dangling
        · exact Or.inr (Or.inr (Or.inr fun h => hnot ⟨harrays, hname, h⟩))
        · push Not at hname
          exact Or.inr (Or.inr (Or.inl hname))
      · exact Or.inl harrays
    · rintro (h | h | ⟨c, hc, h⟩ | h) ⟨harrays, hname, haccepts⟩
      · exact h harrays
      · exact haccepts.2.1.2.1 h
      · exact hname c hc h
      · exact h haccepts
  · obtain ⟨harrays, hname⟩ := hptrs children (by simp)
    obtain ⟨harrays', hname'⟩ := hptrs children' (by simp)
    intro s
    have hs : RejectsWith EINVAL s.1 s.2 ↔ _ :=
      rsiRespondEnumChildren_rejects_iff hops hq hq' hentries (hitems.trans hflat.symm) henv fd past
    rw [hr, hs]
    exact not_congr ⟨fun h => ⟨harrays', hname', h.2.2⟩, fun h => ⟨harrays, hname, h.2.2⟩⟩

theorem enumChildren_agrees_with_lookup_small :
    let q : RsiRequest := ⟨7, 0, 0, 0, 5⟩
    let q' : RsiRequest := ⟨7, 0, 0, 0, 1⟩
    q.opCode = Pkm.small.opCode16 .enumChildren ∧ q'.opCode = Pkm.small.opCode16 .lookup ∧
      Pkm.small.KnowsOps ∧ Env.granting.NoAllocFails ∧ ArraysOk smallChildren ∧
      ∃ hcount : (flatEntries smallChildren).length < 2 ^ 32,
        let entries := Arr.ofList (flatEntries smallChildren) hcount
        let r := exec .granting
          (rsiRespondEnumChildren .small 3 (some q) smallChildren smallMetadata) []
        let r' := exec .granting (rsiRespondLookup .small 3 (some q') entries smallMetadata) []
        (exec .granting (validateEnumChildrenMetadata smallChildren smallMetadata) []).1 =
            (exec .granting (validateLookupMetadata entries smallMetadata) []).1 ∧
          r'.1 = .ret 0 ∧ ¬ RejectsWith EINVAL r.1 r.2 := by
  intro q q'
  have harrays : ArraysOk smallChildren := by
    rw [ArraysOk]
    decide +kernel
  have hcount : (flatEntries smallChildren).length < 2 ^ 32 := by decide +kernel
  refine ⟨rfl, rfl, Pkm.small_knowsOps, Env.granting_noAllocFails, harrays, hcount, ?_⟩
  intro entries r r'
  obtain ⟨hvalidated, -, hiff, -⟩ := enumChildren_agrees_with_lookup .small Pkm.small_knowsOps 3
    q q' rfl rfl smallChildren smallMetadata hcount .granting .granting Env.granting_noAllocFails
    Env.granting_noAllocFails [] []
  have haccepted : r'.1 = .ret 0 := by
    clear hvalidated hiff
    revert hcount
    decide +kernel
  refine ⟨hvalidated harrays, haccepted, fun hrejected => ?_⟩
  rcases hiff.mp hrejected with h | h | h | h
  · exact h harrays
  · exact absurd h.1 (by decide)
  · obtain ⟨c, hc, hname⟩ := h
    have hnames : ∀ c ∈ smallChildren.items, ¬ c.childName.Dangling := by decide +kernel
    exact hnames c hc hname
  · exact absurd (haccepted.symm.trans h.1.1) (by decide)

end Librsi

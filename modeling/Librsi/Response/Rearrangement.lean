import Librsi.Response.FrameSize
import Mathlib.Data.Multiset.MapFold

/-!
# The order of the records

A caller hands records over in arrays, and an array has an order; what the records say has
none.  Validation collects GUIDs in the order they come in, sorts them, drops repetitions and
compares, so what it decides should not depend on the order either, and neither should the
size of the frame.

`order_of_records_does_not_matter` says so of every payload responder, for arguments that
differ only in the order of their records (`Args.Rearranges`), at every level: paths and
metadata of a LOOKUP, the children of an ENUM_CHILDREN and the paths of each of them, orphans,
values and blankets.
-/

namespace Librsi

open WireFormat Interaction Layout

/-! ## The same records in another order -/

/-- The same records, each up to `R`, in another order. -/
structure Arr.Rearranges {α : Type} (R : α → α → Prop) (a a' : Arr α) : Prop where
  dangling : a.Dangling ↔ a'.Dangling
  items : Multiset.Rel R a.items a'.items

/-- The same child, with its paths in another order. -/
structure RsiChildEntry.Rearranges (c c' : RsiChildEntry) : Prop where
  childName : c.childName = c'.childName
  entries : c.entries.Rearranges Eq c'.entries

/-- Arguments that differ in the order of their records only.  READ_KEY has none. -/
def Args.Rearranges : {k : Kind} → Args k → Args k → Prop
  | .lookup, a, a' => a.entries.Rearranges Eq a'.entries ∧ a.metadata.Rearranges Eq a'.metadata
  | .enumChildren, a, a' =>
      a.children.Rearranges RsiChildEntry.Rearranges a'.children ∧
        a.metadata.Rearranges Eq a'.metadata
  | .readKey, a, a' => a = a'
  | .deleteLayer, a, a' => (a.Dangling ↔ a'.Dangling) ∧ a.items.Perm a'.items
  | .queryValues, a, a' =>
      a.entries.Rearranges Eq a'.entries ∧ a.blankets.Rearranges Eq a'.blankets

namespace Arr.Rearranges

variable {α : Type} {R : α → α → Prop} {a a' : Arr α}

theorem symm (h : a.Rearranges R a') (hR : ∀ x x', R x x' → R x' x) : a'.Rearranges R a where
  dangling := h.dangling.symm
  items := (Multiset.rel_flip.mpr h.items).mono fun x _ x' _ => hR x' x

theorem exists_mem (h : a.Rearranges R a') {x' : α} (hx' : x' ∈ a'.items) :
    ∃ x ∈ a.items, R x x' :=
  Multiset.exists_mem_of_rel_of_mem (Multiset.rel_flip.mpr h.items) hx'

/-- What is counted of each record adds up to the same. -/
theorem sum_map_eq (h : a.Rearranges R a') {f : α → ℕ} (hf : ∀ x x', R x x' → f x = f x') :
    (a.items.map f).sum = (a'.items.map f).sum := by
  have hrel : Multiset.Rel Eq ((a.items : Multiset α).map f) ((a'.items : Multiset α).map f) :=
    Multiset.rel_map.mpr (h.items.mono fun x _ x' _ hR => hf x x' hR)
  rw [Multiset.rel_eq, Multiset.map_coe, Multiset.map_coe, Multiset.coe_eq_coe] at hrel
  exact hrel.sum_nat

theorem perm (h : a.Rearranges Eq a') : a.items.Perm a'.items :=
  Multiset.coe_eq_coe.mp (Multiset.rel_eq.mp h.items)

theorem forall_mem (h : a.Rearranges Eq a') {p : α → Prop} (hp : ∀ x ∈ a.items, p x) :
    ∀ x ∈ a'.items, p x :=
  fun x hx => hp x (h.perm.mem_iff.mpr hx)

end Arr.Rearranges

theorem RsiChildEntry.Rearranges.symm {c c' : RsiChildEntry} (h : c.Rearranges c') :
    c'.Rearranges c :=
  ⟨h.childName.symm, h.entries.symm fun _ _ => Eq.symm⟩

theorem Args.Rearranges.symm {k : Kind} {a a' : Args k} (h : a.Rearranges a') :
    a'.Rearranges a := by
  cases k with
  | lookup => exact ⟨h.1.symm fun _ _ => Eq.symm, h.2.symm fun _ _ => Eq.symm⟩
  | enumChildren =>
    exact ⟨h.1.symm fun _ _ => RsiChildEntry.Rearranges.symm, h.2.symm fun _ _ => Eq.symm⟩
  | readKey => exact Eq.symm h
  | deleteLayer => exact ⟨h.1.symm, h.2.symm⟩
  | queryValues => exact ⟨h.1.symm fun _ _ => Eq.symm, h.2.symm fun _ _ => Eq.symm⟩

/-! ## What does not depend on the order -/

theorem Layout.Covers.of_perm {metadata metadata' : List KeyMetadata}
    {entries entries' : List PathEntry} (h : Covers metadata entries)
    (hmetadata : metadata.Perm metadata') (hentries : ∀ e, e ∈ entries ↔ e ∈ entries') :
    Covers metadata' entries' where
  nonzero m hm := h.nonzero m (hmetadata.mem_iff.mpr hm)
  unique := (hmetadata.map _).nodup_iff.mp h.unique
  exact g := by
    have hexact := h.exact g
    simpa only [hmetadata.mem_iff, hentries] using hexact

/-- The paths of all children are the same. -/
theorem mem_flatEntries_of_rearranges {children children' : Arr RsiChildEntry}
    (h : children.Rearranges RsiChildEntry.Rearranges children') {e : RsiPathEntry}
    (he : e ∈ flatEntries children') : e ∈ flatEntries children := by
  obtain ⟨c', hc', he'⟩ := List.mem_flatMap.mp he
  obtain ⟨c, hc, hR⟩ := h.exists_mem hc'
  exact List.mem_flatMap.mpr ⟨c, hc, hR.entries.perm.mem_iff.mpr he'⟩

namespace Args.Rearranges

variable {k : Kind} {a a' : Args k}

theorem ptrsOk (h : a.Rearranges a') (hptrs : a.PtrsOk) : a'.PtrsOk := by
  cases k with
  | lookup =>
    obtain ⟨hentries, hmetadata⟩ := h
    obtain ⟨⟨hd, hlayer⟩, hd', hsd⟩ := hptrs
    exact ⟨⟨mt hentries.dangling.mpr hd, hentries.forall_mem hlayer⟩,
      mt hmetadata.dangling.mpr hd', hmetadata.forall_mem hsd⟩
  | enumChildren =>
    obtain ⟨hchildren, hmetadata⟩ := h
    obtain ⟨⟨hd, hchild⟩, hd', hsd⟩ := hptrs
    refine ⟨⟨mt hchildren.dangling.mpr hd, fun c' hc' => ?_⟩,
      mt hmetadata.dangling.mpr hd', hmetadata.forall_mem hsd⟩
    obtain ⟨c, hc, hR⟩ := hchildren.exists_mem hc'
    obtain ⟨hname, hentries, hlayer⟩ := hchild c hc
    exact ⟨hR.childName ▸ hname, mt hR.entries.dangling.mpr hentries, hR.entries.forall_mem hlayer⟩
  | readKey => exact (show a = a' from h) ▸ hptrs
  | deleteLayer => exact mt h.1.mpr hptrs
  | queryValues =>
    obtain ⟨hentries, hblankets⟩ := h
    obtain ⟨⟨hd, hfields⟩, hd', hlayer⟩ := hptrs
    exact ⟨⟨mt hentries.dangling.mpr hd, hentries.forall_mem hfields⟩,
      mt hblankets.dangling.mpr hd', hblankets.forall_mem hlayer⟩

theorem rules (h : a.Rearranges a') (hrules : k.Rules a.value) : k.Rules a'.value := by
  cases k with
  | lookup =>
    obtain ⟨hentries, hmetadata⟩ := h
    obtain ⟨target, flags, covers⟩ := hrules
    have hpaths := hentries.perm.map RsiPathEntry.wire
    have hrecords := hmetadata.perm.map RsiKeyMetadata.wire
    exact ⟨fun e he => target e (hpaths.mem_iff.mpr he), fun m hm => flags m (hrecords.mem_iff.mpr hm),
      covers.of_perm hrecords fun e => hpaths.mem_iff⟩
  | enumChildren =>
    obtain ⟨hchildren, hmetadata⟩ := h
    obtain ⟨target, flags, covers⟩ := hrules
    have hrecords := hmetadata.perm.map RsiKeyMetadata.wire
    have hback := hchildren.symm fun _ _ => RsiChildEntry.Rearranges.symm
    refine ⟨List.forall_mem_map.mpr fun c' hc' => List.forall_mem_map.mpr fun e he => ?_,
      fun m hm => flags m (hrecords.mem_iff.mpr hm), ?_⟩
    · obtain ⟨c, hc, hR⟩ := hchildren.exists_mem hc'
      have htarget := List.forall_mem_map.mp (List.forall_mem_map.mp target c hc)
      exact htarget e (hR.entries.perm.mem_iff.mpr he)
    · change Covers (a.metadata.items.map RsiKeyMetadata.wire)
        ((a.children.items.map RsiChildEntry.wire).flatMap ChildEntry.entries) at covers
      change Covers (a'.metadata.items.map RsiKeyMetadata.wire)
        ((a'.children.items.map RsiChildEntry.wire).flatMap ChildEntry.entries)
      rw [flatMap_entries_wire] at covers ⊢
      refine covers.of_perm hrecords fun e => ?_
      simp only [List.mem_map]
      constructor
      · rintro ⟨x, hx, rfl⟩
        exact ⟨x, mem_flatEntries_of_rearranges hback hx, rfl⟩
      · rintro ⟨x, hx, rfl⟩
        exact ⟨x, mem_flatEntries_of_rearranges hchildren hx, rfl⟩
  | readKey => exact (show a = a' from h) ▸ hrules
  | deleteLayer =>
    obtain ⟨nonzero, unique⟩ := hrules
    exact ⟨fun g hg => nonzero g (h.2.mem_iff.mpr hg), h.2.nodup_iff.mp unique⟩
  | queryValues => trivial

theorem accepts_iff (h : a.Rearranges a') (P : Pkm) (req : Option RsiRequest) :
    Accepts P req a ↔ Accepts P req a' :=
  and_congr_right' (and_congr ⟨h.ptrsOk, h.symm.ptrsOk⟩ ⟨h.rules, h.symm.rules⟩)

theorem frameLen_eq (h : a.Rearranges a') (hptrs : a.PtrsOk) : a.frameLen = a'.frameLen := by
  cases k with
  | lookup =>
    have hentries := h.1.sum_map_eq (f := RsiPathEntry.size) fun x x' hR => by rw [hR]
    have hmetadata := h.2.sum_map_eq (f := RsiKeyMetadata.size) fun x x' hR => by rw [hR]
    show 26 + _ + _ = 26 + _ + _
    rw [hentries, hmetadata]
  | enumChildren =>
    have hchildren := h.1.sum_map_eq (f := RsiChildEntry.size) fun c c' hR => by
      rw [RsiChildEntry.size, RsiChildEntry.size, hR.childName,
        hR.entries.sum_map_eq fun x x' hR => by rw [hR]]
    have hmetadata := h.2.sum_map_eq (f := RsiKeyMetadata.size) fun x x' hR => by rw [hR]
    show 26 + _ + _ = 26 + _ + _
    rw [hchildren, hmetadata]
  | readKey => rw [show a = a' from h]
  | deleteLayer =>
    have hcount : a.count.toNat = a'.count.toNat := by
      rw [← (GuidArr.items_spec hptrs).1, ← (GuidArr.items_spec (h.ptrsOk hptrs)).1]
      exact h.2.length_eq
    show 22 + 16 * _ = 22 + 16 * _
    rw [hcount]
  | queryValues =>
    have hentries := h.1.sum_map_eq (f := RsiValueEntry.size) fun x x' hR => by rw [hR]
    have hblankets := h.2.sum_map_eq (f := RsiBlanketEntry.size) fun x x' hR => by rw [hR]
    show 26 + _ + _ = 26 + _ + _
    rw [hentries, hblankets]

end Args.Rearranges

/-- The header does not depend on the order. -/
theorem take_payloadFrame {P : Pkm} {k : Kind} {req : Option RsiRequest} {a a' : Args k}
    (haccepts : Accepts P req a) (haccepts' : Accepts P req a') (hlen : a.frameLen = a'.frameLen) :
    (payloadFrame P req a).take statusFrameLen = (payloadFrame P req a').take statusFrameLen := by
  obtain ⟨⟨r, rfl, -⟩, hptrs, -⟩ := haccepts
  have hbody := length_put_value hptrs
  have hbody' := length_put_value haccepts'.2.1
  rw [payloadFrame, payloadFrame, responseFrame, responseFrame, Layout.frame, Layout.frame,
    List.take_left' (length_put_header _), List.take_left' (length_put_header _), hbody, hbody', hlen]

/-! ## Calls -/

/-- **The order of the records does not matter.**  Compare two calls of a payload responder
whose arguments differ only in the order of their records, in runs in which no allocation
fails.  Either both are turned down, with the same `errno`, or both write a frame; and then the
frames have the same length and the same header. -/
theorem order_of_records_does_not_matter (P : Pkm) (fd : CInt) (k : Kind)
    (req : Option RsiRequest) (a a' : Args k) (h : a.Rearranges a') (env env' : Env)
    (past past' : Trace) :
    let r := exec env (respond P fd k req a) past
    let r' := exec env' (respond P fd k req a') past'
    ¬ ReserveFailed r.2 → ¬ ExtendFailed r.2 → ¬ ReserveFailed r'.2 → ¬ ExtendFailed r'.2 →
      (∃ e, RejectsWith e r.1 r.2 ∧ RejectsWith e r'.1 r'.2) ∨
        ∃ f f', handed r.2 = [(fd, f)] ∧ handed r'.2 = [(fd, f')] ∧ f.length = f'.length ∧
          f.take statusFrameLen = f'.take statusFrameLen := by
  intro r r' hreserve hextend hreserve' hextend'
  have hr := verdict_respond P fd k req a env past
  have hr' := verdict_respond P fd k req a' env' past'
  have hiff := h.accepts_iff P req
  by_cases haccepts : Accepts P req a
  · have haccepts' := hiff.mp haccepts
    have hlen := h.frameLen_eq haccepts.2.1
    have hsize : (payloadFrame P req a).length = (payloadFrame P req a').length := by
      rw [length_payloadFrame haccepts, length_payloadFrame haccepts', hlen]
    rcases hr.of_accepted hreserve hextend haccepts with ⟨hbig, hrej⟩ | ⟨hsmall, hwrote⟩
    · rcases hr'.of_accepted hreserve' hextend' haccepts' with ⟨-, hrej'⟩ | ⟨hsmall', -⟩
      · exact Or.inl ⟨EOVERFLOW, hrej, hrej'⟩
      · exact absurd (hsize ▸ hbig) (not_le.mpr hsmall')
    · rcases hr'.of_accepted hreserve' hextend' haccepts' with ⟨hbig', -⟩ | ⟨-, hwrote'⟩
      · exact absurd (hsize ▸ hbig') (not_le.mpr hsmall)
      · exact Or.inr ⟨_, _, hwrote, hwrote', hsize, take_payloadFrame haccepts haccepts' hlen⟩
  · exact Or.inl ⟨EINVAL, (hr.rejects_einval_iff hreserve).mpr haccepts,
      (hr'.rejects_einval_iff hreserve').mpr (mt hiff.mpr haccepts)⟩

/-- Two paths to one key, the other way round. -/
def smallEntriesReversed : Arr RsiPathEntry :=
  Arr.ofList [smallEntry 6, smallEntry 5] (by decide)

theorem order_of_records_does_not_matter_lookup :
    let a : Args .lookup := ⟨smallEntries, smallMetadata⟩
    let a' : Args .lookup := ⟨smallEntriesReversed, smallMetadata⟩
    let r := exec .granting (respond .small 3 .lookup (some ⟨8, 0, 0, 0, 1⟩) a) []
    let r' := exec .granting (respond .small 3 .lookup (some ⟨8, 0, 0, 0, 1⟩) a') []
    a.Rearranges a' ∧ (¬ ReserveFailed r.2 ∧ ¬ ExtendFailed r.2) ∧
      (¬ ReserveFailed r'.2 ∧ ¬ ExtendFailed r'.2) ∧
      ∃ f f', handed r.2 = [(3, f)] ∧ handed r'.2 = [(3, f')] ∧ f.length = f'.length := by
  intro a a' r r'
  have hrearranges : a.Rearranges a' := by
    refine ⟨⟨?_, ?_⟩, ⟨Iff.rfl, Multiset.rel_eq.mpr rfl⟩⟩
    · exact iff_of_false (Arr.not_dangling_ofList _ (by decide)) (Arr.not_dangling_ofList _ (by decide))
    · exact Multiset.rel_eq.mpr (Multiset.coe_eq_coe.mpr (List.Perm.swap _ _ _))
  have hfine : ∀ p : Sys CInt, ¬ ReserveFailed (exec .granting p []).2 ∧
      ¬ ExtendFailed (exec .granting p []).2 :=
    fun p => ⟨Env.granting_noAllocFails.not_reserveFailed p [],
      Env.granting_noAllocFails.not_extendFailed p []⟩
  refine ⟨hrearranges, hfine _, hfine _, ?_⟩
  rcases order_of_records_does_not_matter .small 3 .lookup (some ⟨8, 0, 0, 0, 1⟩) a a' hrearranges
    .granting .granting [] [] (hfine _).1 (hfine _).2 (hfine _).1 (hfine _).2 with
    ⟨e, hrej, -⟩ | ⟨f, f', hwrote, hwrote', hlen, -⟩
  · have hne : handed r.2 ≠ [] := by decide +kernel
    exact absurd hrej.2 hne
  · exact ⟨f, f', hwrote, hwrote', hlen⟩

end Librsi

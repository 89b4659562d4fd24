import Librsi.Response.FrameSize
import Librsi.Response.RoundTrip

/-!
# DELETE_LAYER and READ_KEY end to end

Both are instances of `respond_end_to_end`.  What is left to do for each is to say in terms
of its C arguments when it rejects.

DELETE_LAYER decides on a sorted copy of the GUIDs, but neither its condition nor its
payload knows of that copy: both are about the caller's memory, read in steps of 16 bytes
from the front (`GuidArr.bytesAt`).
-/

namespace Librsi

open WireFormat Interaction Layout

/-! ## DELETE_LAYER -/

namespace GuidArr

/-- The bytes of the GUID at position `i` of the caller's memory. -/
def bytesAt (a : GuidArr) (i : ℕ) : Bytes := ((a.ptr.getD []).drop (i * 16)).take 16

theorem bytesAt_eq {a : GuidArr} (h : ¬ a.Dangling) {i : ℕ} (hi : i < a.items.length) :
    a.bytesAt i = a.items[i].bytes := by
  obtain ⟨hlen, hbytes⟩ := items_spec h
  have hchunk : (chunksExact 16 (a.items.flatMap Guid.bytes))[i]? = some a.items[i].bytes := by
    rw [chunksExact_flatMap_bytes, List.getElem?_map, List.getElem?_eq_getElem hi, Option.map_some]
  rw [chunksExact, length_flatMap_bytes, Nat.mul_div_cancel _ (by decide), List.getElem?_map,
    List.getElem?_range hi, Option.map_some, Option.some.injEq, ← hbytes, List.drop_take,
    List.take_take] at hchunk
  have hmin : min 16 (a.count.toNat * 16 - i * 16) = 16 := by omega
  rw [bytesAt, ← hchunk, hmin]

end GuidArr

/-- The ways to break a rule of `rsi_respond_delete_layer`. -/
inductive DeleteLayerFault (a : GuidArr) : Prop
  | null (ptr : a.ptr = none) (count : a.count.toNat ≠ 0)
  | nil (i : ℕ) (hi : i < a.count.toNat) (eq : a.bytesAt i = List.replicate 16 0)
  | duplicate (i j : ℕ) (hi : i < a.count.toNat) (hj : j < a.count.toNat) (ne : i ≠ j)
      (eq : a.bytesAt i = a.bytesAt j)

theorem not_deleteLayerFault_iff {a : GuidArr} :
    ¬ DeleteLayerFault a ↔
      ¬ a.Dangling ∧ (∀ g ∈ a.items, g ≠ Guid.nil) ∧ a.items.Nodup := by
  have hzero : a.count.toNat ≠ 0 ↔ a.count ≠ 0 := by
    rw [ne_eq, ← UInt32.toNat_zero, UInt32.toNat_inj]
  constructor
  · intro hok
    have hptr : ¬ a.Dangling := fun h => hok (.null h.1 (hzero.mpr h.2))
    have hlen := (GuidArr.items_spec hptr).1
    refine ⟨hptr, fun g hg hnil => ?_, ?_⟩
    · obtain ⟨i, hi, rfl⟩ := List.getElem_of_mem hg
      refine hok (.nil i (hlen ▸ hi) ?_)
      rw [GuidArr.bytesAt_eq hptr hi, hnil]
      rfl
    · rw [List.Nodup, List.pairwise_iff_getElem]
      intro i j hi hj hij heq
      refine hok (.duplicate i j (hlen ▸ hi) (hlen ▸ hj) hij.ne ?_)
      rw [GuidArr.bytesAt_eq hptr hi, GuidArr.bytesAt_eq hptr hj, heq]
  · rintro ⟨hptr, hnonzero, hunique⟩ hfault
    have hlen := (GuidArr.items_spec hptr).1
    cases hfault with
    | null ptr count => exact hptr ⟨ptr, hzero.mp count⟩
    | nil i hi eq =>
      rw [← hlen] at hi
      rw [GuidArr.bytesAt_eq hptr hi] at eq
      exact hnonzero _ (List.getElem_mem hi) (Guid.ext eq)
    | duplicate i j hi hj ne eq =>
      rw [← hlen] at hi hj
      rw [GuidArr.bytesAt_eq hptr hi, GuidArr.bytesAt_eq hptr hj] at eq
      exact ne (hunique.getElem_inj_iff.mp (Guid.ext eq))

theorem accepts_deleteLayer_iff {P : Pkm} (hops : P.KnowsOps) {r : RsiRequest}
    (hop : r.opCode = P.opCode16 .deleteLayer) {a : GuidArr} :
    Accepts (k := .deleteLayer) P (some r) a ↔ ¬ DeleteLayerFault a := by
  rw [accepts_iff_keepsRules hops, not_deleteLayerFault_iff]
  constructor
  · rintro ⟨-, hptr, hnonzero, hunique⟩
    exact ⟨hptr, hnonzero, hunique⟩
  · rintro ⟨hptr, hnonzero, hunique⟩
    exact ⟨⟨r, rfl, hop⟩, hptr, hnonzero, hunique⟩

/-- The payload is the count and the caller's bytes. -/
theorem put_deleteLayer {a : GuidArr} (h : ¬ a.Dangling) :
    Kind.deleteLayer.layout.put (Args.value a) =
      leBytes 4 a.count.toNat ++ (a.ptr.getD []).take (a.count.toNat * 16) := by
  obtain ⟨hlen, hbytes⟩ := GuidArr.items_spec h
  show (counted guid).put a.items = _
  rw [put_counted, ofNat_eq_of_eq_toNat hlen, hbytes]
  rfl

/-- An empty list is answered with the same frame whichever way it is passed. -/
theorem handed_deleteLayer_of_count_eq_zero {P : Pkm} (hops : P.KnowsOps) (fd : CInt)
    {r : RsiRequest} (hop : r.opCode = P.opCode16 .deleteLayer) {env : Env}
    (henv : env.NoAllocFails) (past : Trace) {a : GuidArr} (hcount : a.count = 0) :
    handed (exec env (rsiRespondDeleteLayer P fd (some r) a) past).2 =
      [(fd, responseFrame P (some r) P.rsiOk (leBytes 4 0))] := by
  have hptr : ¬ a.Dangling := fun h => h.2 hcount
  have hitems : a.items = [] :=
    List.length_eq_zero_iff.mp (by rw [(GuidArr.items_spec hptr).1, hcount]; rfl)
  have haccepts : Accepts (k := .deleteLayer) P (some r) a := by
    rw [accepts_deleteLayer_iff hops hop, not_deleteLayerFault_iff, hitems]
    exact ⟨hptr, by simp, List.nodup_nil⟩
  have hframe : payloadFrame (k := .deleteLayer) P (some r) a =
      responseFrame P (some r) P.rsiOk (leBytes 4 0) := by
    rw [payloadFrame, put_deleteLayer hptr, hcount, UInt32.toNat_zero, Nat.zero_mul,
      List.take_zero, List.append_nil]
  rcases too_large_or_wrote_of_accepts fd henv past haccepts with ⟨hbig, -⟩ | ⟨-, hwrote⟩
  · rw [length_payloadFrame haccepts, Args.frameLen, hcount] at hbig
    exact absurd hbig (by decide)
  · rw [← hframe]
    exact hwrote

/-- **DELETE_LAYER end to end.**  With no allocation failing, a call is rejected exactly when
the pointer is NULL with something to read, some GUID is all zero, or two positions hold the
same GUID.  Otherwise, unless the frame is too large, its payload is the count and the GUIDs
byte for byte in the caller's order.  With a count of zero the pointer does not matter. -/
theorem rsiRespondDeleteLayer_end_to_end (P : Pkm) (hops : P.KnowsOps) (fd : CInt)
    (r : RsiRequest) (hop : r.opCode = P.opCode16 .deleteLayer) (orphaned : GuidArr) (env : Env)
    (henv : env.NoAllocFails) (past : Trace) :
    let run := exec env (rsiRespondDeleteLayer P fd (some r) orphaned) past
    (RejectsWith EINVAL run.1 run.2 ↔ DeleteLayerFault orphaned) ∧
      (22 + 16 * orphaned.count.toNat ≤ 2 ^ 32 - 1 → ¬ DeleteLayerFault orphaned →
        ∃ f, handed run.2 = [(fd, f)] ∧ f.drop statusFrameLen =
          leBytes 4 orphaned.count.toNat ++
            (orphaned.ptr.getD []).take (orphaned.count.toNat * 16)) ∧
      (orphaned.count = 0 → ∃ f, handed run.2 = [(fd, f)] ∧
        ∀ other : GuidArr, other.count = 0 →
          handed (exec env (rsiRespondDeleteLayer P fd (some r) other) past).2 = [(fd, f)]) := by
  intro run
  obtain ⟨hrejects, hwrites⟩ := respond_end_to_end fd (k := .deleteLayer) (a := orphaned) henv
    past (accepts_deleteLayer_iff hops hop)
  have hempty : ∀ a : GuidArr, a.count = 0 → _ :=
    fun a hcount => handed_deleteLayer_of_count_eq_zero hops fd hop henv past hcount
  refine ⟨hrejects, fun hsize hok => ?_, fun hcount => ⟨_, hempty orphaned hcount, hempty⟩⟩
  have hptr := (not_deleteLayerFault_iff.mp hok).1
  have hput : statusFrameLen + _ = 22 + 16 * orphaned.count.toNat :=
    length_put_value (k := .deleteLayer) hptr
  obtain ⟨f, hwrote, hpayload, -⟩ := hwrites hok (by rw [hput]; omega)
  exact ⟨f, hwrote, hpayload.trans (put_deleteLayer hptr)⟩

theorem rsiRespondDeleteLayer_end_to_end_small :
    let r : RsiRequest := ⟨7, 0, 0, 0, 17⟩
    r.opCode = Pkm.small.opCode16 .deleteLayer ∧ Pkm.small.KnowsOps ∧ Env.granting.NoAllocFails ∧
      ∃ f, handed (exec .granting (rsiRespondDeleteLayer .small 3 (some r) smallOrphans) []).2 =
          [(3, f)] ∧
        f.drop statusFrameLen =
          leBytes 4 2 ++ (List.replicate 16 0x20 ++ List.replicate 16 0x10) := by
  intro r
  have hptr : ¬ smallOrphans.Dangling := fun h => absurd h.1 (by decide)
  have hitems : smallOrphans.items = [largeGuid, smallGuid] := GuidArr.items_eq rfl
  have hok : ¬ DeleteLayerFault smallOrphans := by
    rw [not_deleteLayerFault_iff, hitems]
    exact ⟨hptr, by decide, by decide⟩
  refine ⟨rfl, Pkm.small_knowsOps, Env.granting_noAllocFails, ?_⟩
  exact (rsiRespondDeleteLayer_end_to_end .small Pkm.small_knowsOps 3 r rfl smallOrphans .granting
    Env.granting_noAllocFails []).2.1 (by decide) hok

/-! ## READ_KEY -/

/-- The ways to break a rule of `rsi_respond_read_key`. -/
inductive ReadKeyFault (a : ReadKeyArgs) : Prop
  | parentGuid (null : a.parentGuid.ptr = none)
  | name (null : a.name.ptr = none) (len : a.name.count ≠ 0)
  | sd (null : a.sd.ptr = none) (len : a.sd.count ≠ 0)
  | volatileKey (h : a.volatileKey ≠ 0 ∧ a.volatileKey ≠ 1)
  | symlink (h : a.symlink ≠ 0 ∧ a.symlink ≠ 1)

theorem accepts_readKey_iff {P : Pkm} (hops : P.KnowsOps) {r : RsiRequest}
    (hop : r.opCode = P.opCode16 .readKey) {a : ReadKeyArgs} :
    Accepts (k := .readKey) P (some r) a ↔ ¬ ReadKeyFault a := by
  rw [accepts_iff_keepsRules hops]
  constructor
  · rintro ⟨-, ⟨hparent, hname, hsd⟩, hvolatile, hsymlink⟩ hfault
    cases hfault with
    | parentGuid null => exact hparent null
    | name null len => exact hname ⟨null, len⟩
    | sd null len => exact hsd ⟨null, len⟩
    | volatileKey h => exact hvolatile.elim h.1 h.2
    | symlink h => exact hsymlink.elim h.1 h.2
  · intro hok
    refine ⟨⟨r, rfl, hop⟩, ⟨?_, ?_, ?_⟩, ?_, ?_⟩
    · exact fun h => hok (.parentGuid h)
    · exact fun h => hok (.name h.1 h.2)
    · exact fun h => hok (.sd h.1 h.2)
    · by_contra h
      exact hok (.volatileKey (not_or.mp h))
    · by_contra h
      exact hok (.symlink (not_or.mp h))

/-- **READ_KEY end to end.**  With no allocation failing, a call is rejected exactly when the
parent GUID is NULL, the name or the descriptor is NULL with something to read, or a flag is
neither `0` nor `1`.  Otherwise, unless the frame is too large, the payload decodes to its last
byte into the arguments. -/
theorem rsiRespondReadKey_end_to_end (P : Pkm) (hops : P.KnowsOps) (fd : CInt) (r : RsiRequest)
    (hop : r.opCode = P.opCode16 .readKey) (name : Arr UInt8) (parentGuid : GuidPtr)
    (sd : Arr UInt8) (volatileKey symlink : UInt8) (lastWriteTime : UInt64) (env : Env)
    (henv : env.NoAllocFails) (past : Trace) :
    let a : ReadKeyArgs := ⟨name, parentGuid, sd, volatileKey, symlink, lastWriteTime⟩
    let run := exec env (rsiRespondReadKey P fd (some r) name parentGuid sd volatileKey symlink
      lastWriteTime) past
    (RejectsWith EINVAL run.1 run.2 ↔ ReadKeyFault a) ∧
      (52 + name.count.toNat + sd.count.toNat ≤ 2 ^ 32 - 1 → ¬ ReadKeyFault a →
        ∃ f, handed run.2 = [(fd, f)] ∧ readKeyResult.strict (f.drop statusFrameLen) = some
          ⟨name.items, parentGuid.guid, sd.items, volatileKey, symlink, lastWriteTime⟩) := by
  intro a run
  have haccepts := accepts_readKey_iff hops hop (a := a)
  obtain ⟨hrejects, hwrites⟩ := respond_end_to_end fd (k := .readKey) (a := a) henv past haccepts
  refine ⟨hrejects, fun hsize hok => ?_⟩
  have hptrs := (haccepts.mpr hok).2.1
  have hput : statusFrameLen + _ = 52 + name.count.toNat + sd.count.toNat := length_put_value hptrs
  obtain ⟨f, hwrote, -, hdec⟩ := hwrites hok (by rw [hput]; omega)
  exact ⟨f, hwrote, hdec⟩

theorem rsiRespondReadKey_end_to_end_small :
    let r : RsiRequest := ⟨7, 0, 0, 0, 7⟩
    let name : Arr UInt8 := Arr.ofList [75, 101, 121] (by decide)
    r.opCode = Pkm.small.opCode16 .readKey ∧ Pkm.small.KnowsOps ∧ Env.granting.NoAllocFails ∧
      ∃ f, handed (exec .granting
          (rsiRespondReadKey .small 3 (some r) name smallParent Arr.null 0 1 9) []).2 = [(3, f)] ∧
        readKeyResult.strict (f.drop statusFrameLen) =
          some ⟨[75, 101, 121], smallGuid, [], 0, 1, 9⟩ := by
  intro r name
  have hok : ¬ ReadKeyFault ⟨name, smallParent, Arr.null, 0, 1, 9⟩ := by
    intro hfault
    cases hfault with
    | parentGuid null => exact absurd null (Option.some_ne_none _)
    | name null len => exact absurd null (Option.some_ne_none _)
    | sd null len => exact len rfl
    | volatileKey h => exact h.1 rfl
    | symlink h => exact h.2 rfl
  refine ⟨rfl, Pkm.small_knowsOps, Env.granting_noAllocFails, ?_⟩
  exact (rsiRespondReadKey_end_to_end .small Pkm.small_knowsOps 3 r rfl name smallParent Arr.null
    0 1 9 .granting Env.granting_noAllocFails []).2 (by decide) hok

end Librsi

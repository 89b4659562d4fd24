import Mathlib.Data.List.Sort
import Mathlib.Data.List.Destutter

/-!
# Deciding questions about sets on sorted vectors

A program that has no hash set sorts.  Once a vector is sorted its least element is in
front and equal elements are neighbours, so three local looks answer three global
questions: whether the least value occurs (`head?_sort_eq_some_iff`), whether anything
occurs twice (`hasEqualNeighbours_sort`), and, after `dedup`, whether two vectors have
the same elements (`sort_eq_dedup_sort_iff`).

The sort is written as an insertion sort.  For a linear order the sorted rearrangement
of a vector is unique, so nothing here depends on which algorithm produced it, nor on
whether it was stable.
-/

namespace SortedVec

variable {α : Type*} [LinearOrder α]

/-- The vector in increasing order. -/
def sort (l : List α) : List α := l.insertionSort (· ≤ ·)

/-- Drop every element that equals the one before it. -/
def dedup (l : List α) : List α := l.destutter (· ≠ ·)

/-- Some element equals the next one. -/
def hasEqualNeighbours : List α → Bool
  | a :: b :: l => a == b || hasEqualNeighbours (b :: l)
  | _ => false

@[simp] theorem mem_sort {l : List α} {a : α} : a ∈ sort l ↔ a ∈ l :=
  List.mem_insertionSort _

theorem pairwise_sort (l : List α) : (sort l).Pairwise (· ≤ ·) :=
  List.pairwise_insertionSort _ l

theorem hasEqualNeighbours_eq_false_iff {l : List α} :
    hasEqualNeighbours l = false ↔ l.IsChain (· ≠ ·) := by
  induction l with
  | nil => simp [hasEqualNeighbours]
  | cons a l ih =>
    cases l with
    | nil => simp [hasEqualNeighbours]
    | cons b l =>
      rw [hasEqualNeighbours, Bool.or_eq_false_iff, ih, List.isChain_cons_cons, beq_eq_false_iff_ne]

/-- In a sorted vector, neighbours that differ increase, and so everything does. -/
theorem pairwise_lt_of_isChain_ne {l : List α} (hs : l.Pairwise (· ≤ ·))
    (hc : l.IsChain (· ≠ ·)) : l.Pairwise (· < ·) := by
  rw [← List.isChain_iff_pairwise, List.isChain_iff_getElem]
  intro i hi
  exact lt_of_le_of_ne (List.isChain_iff_getElem.mp hs.isChain i hi)
    (List.isChain_iff_getElem.mp hc i hi)

/-- **Duplicates are neighbours once sorted.** -/
theorem hasEqualNeighbours_sort {l : List α} :
    hasEqualNeighbours (sort l) = false ↔ l.Nodup := by
  rw [hasEqualNeighbours_eq_false_iff, ← (List.perm_insertionSort (· ≤ ·) l).nodup_iff]
  constructor
  · intro hc
    exact (pairwise_lt_of_isChain_ne (pairwise_sort l) hc).imp fun h => h.ne
  · intro hn
    exact List.Pairwise.isChain hn

/-- **The least value is in front once sorted**, if it occurs at all. -/
theorem head?_sort_eq_some_iff {l : List α} {b : α} (hb : ∀ a, b ≤ a) :
    (sort l).head? = some b ↔ b ∈ l := by
  rw [← mem_sort (l := l)]
  have hs := pairwise_sort l
  cases hl : sort l with
  | nil => simp
  | cons a t =>
    rw [hl] at hs
    rw [List.head?_cons, Option.some_inj, List.mem_cons]
    constructor
    · intro h
      exact Or.inl h.symm
    · rintro (h | h)
      · exact h.symm
      · exact le_antisymm ((List.pairwise_cons.mp hs).1 b h) (hb a)

/-! ## Sets -/

theorem dedup_sort (l : List α) : dedup (sort l) = (sort l).dedup :=
  (pairwise_sort l).destutter_eq_dedup

@[simp] theorem mem_dedup_sort {l : List α} {a : α} : a ∈ dedup (sort l) ↔ a ∈ l := by
  rw [dedup_sort, List.mem_dedup, mem_sort]

theorem pairwise_lt_dedup_sort (l : List α) : (dedup (sort l)).Pairwise (· < ·) := by
  refine pairwise_lt_of_isChain_ne ?_ (List.isChain_destutter _ _)
  exact (pairwise_sort l).sublist (List.destutter_sublist _ _)

/-- **Comparing sorted vectors compares sets.**  A duplicate-free vector, sorted, equals
a second vector, sorted and deduplicated, exactly when the two have the same elements.
No separate count is needed: both sides are strictly increasing. -/
theorem sort_eq_dedup_sort_iff {l m : List α} (hl : l.Nodup) :
    sort l = dedup (sort m) ↔ ∀ a, a ∈ l ↔ a ∈ m := by
  constructor
  · intro h a
    rw [← mem_sort (l := l), h, mem_dedup_sort]
  · intro h
    have hlt : (sort l).Pairwise (· < ·) :=
      pairwise_lt_of_isChain_ne (pairwise_sort l)
        (hasEqualNeighbours_eq_false_iff.mp (hasEqualNeighbours_sort.mpr hl))
    refine hlt.eq_of_mem_iff (pairwise_lt_dedup_sort m) fun a => ?_
    rw [mem_sort, mem_dedup_sort, h]

end SortedVec

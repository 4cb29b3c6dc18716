import FiredancerRs.Lib.Sorted
import Mathlib.Order.Lattice

/-!
# Filters and medians

The generic functions `filter` and `median` of the module `stat`. The median is the least threshold
with which the filter keeps half of the values (`median_least`).
-/

namespace FdMath

variable {α : Type} (partialCmp : α → α → Option Ordering)

/-- `stat::filter`. A value that cannot be compared with the threshold is not kept. -/
def filter (values : List α) (threshold : α) : List α :=
  values.filter fun x => (partialCmp x threshold).any (· ≠ .gt)

/-- `stat::median`, with the values as it leaves them. The sort is stable, and takes values that
cannot be compared for equal. -/
def median (values : List α) : Option α × List α :=
  if values.isEmpty then
    (none, values)
  else
    let values := values.mergeSort fun a b => (partialCmp a b).getD .eq ≠ .gt
    let mid := values.length / 2
    if values.length % 2 = 1 then (values[mid]?, values) else (values[mid - 1]?, values)

section

variable {κ : Type} [LinearOrder κ] (key : α → κ)

/-- Values are compared by their keys. -/
def byKey (a b : α) : Option Ordering := some (compare (key a) (key b))

variable {key} {values sorted : List α} {t m : α}

theorem filter_byKey :
  (filter (byKey key) values t).length = values.countP (key · ≤ key t)
  := by
  rw [List.countP_eq_length_filter, filter]
  simp only [byKey, Option.any_some, ne_eq, compare_le_iff_le]

/-- The sort of `median`, of values that are compared by their keys. -/
theorem pairwise_sort (key : α → κ) (values : List α) :
  (values.mergeSort fun a b => (byKey key a b).getD .eq ≠ .gt).Pairwise (key · ≤ key ·)
  := by
  have hle (a b : α) : decide ((byKey key a b).getD .eq ≠ .gt) = decide (key a ≤ key b) := by
    rw [byKey, Option.getD_some]
    apply decide_eq_decide.mpr compare_le_iff_le
  simp only [hle]
  have hsorted := @List.pairwise_mergeSort _ (fun a b : α => decide (key a ≤ key b))
    (by simpa using fun a b c => le_trans) (by simpa using fun a b => le_total (key a) (key b)) values
  simpa using hsorted

/-- The index of the median. -/
theorem median_of_ne_nil (h : values ≠ []) :
  ∃ sorted : List α, median (byKey key) values = (sorted[(values.length - 1) / 2]?, sorted)
    ∧ sorted.Perm values ∧ sorted.Pairwise (key · ≤ key ·)
  := by
  have hpos := List.length_pos_of_ne_nil h
  refine ⟨_, ?_, List.mergeSort_perm values _, pairwise_sort key values⟩
  rw [median, if_neg (by rwa [List.isEmpty_iff])]
  simp only [List.length_mergeSort]
  split
  · next hodd =>
    have hmid : values.length / 2 = (values.length - 1) / 2 := by omega
    rw [hmid]
  · next heven =>
    have hmid : values.length / 2 - 1 = (values.length - 1) / 2 := by omega
    rw [hmid]

/-- The median is one of the values, which it leaves sorted. It is the least threshold with which
the filter keeps half of them. -/
theorem median_least (key : α → κ) (values : List α) :
  values = [] ∧ median (byKey key) values = (none, [])
    ∨ ∃ m sorted, median (byKey key) values = (some m, sorted) ∧ m ∈ values
      ∧ sorted.Perm values ∧ sorted.Pairwise (key · ≤ key ·)
      ∧ ∀ t, values.length ≤ 2 * (filter (byKey key) values t).length ↔ key m ≤ key t
  := by
  rcases eq_or_ne values [] with rfl | hne
  · exact .inl ⟨rfl, rfl⟩
  · right
    obtain ⟨sorted, hmedian, hperm, hsorted⟩ := @median_of_ne_nil _ _ _ key _ hne
    have hpos := List.length_pos_of_ne_nil hne
    have hlt : (values.length - 1) / 2 < sorted.length := by
      rw [hperm.length_eq]
      omega
    rw [List.getElem?_eq_getElem hlt] at hmedian
    refine ⟨_, sorted, hmedian, hperm.mem_iff.mp (List.getElem_mem hlt), hperm, hsorted, ?_⟩
    intro t
    rw [Sorted.getElem_rank_le_iff hlt hsorted, filter_byKey, hperm.countP_eq]
    omega

end

end FdMath

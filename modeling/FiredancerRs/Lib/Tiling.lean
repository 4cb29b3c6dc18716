import Mathlib.Data.Nat.SuccPred
import Mathlib.Order.Interval.Set.Union
import Mathlib.Order.SuccPred.IntervalSucc

/-!
# Tilings of an interval

The intervals between consecutive values of a monotone sequence tile the interval between its
first and its last value.
-/

namespace Tiling

variable {α : Type} [LinearOrder α] {f : ℕ → α}

/-- Each point between the first and the last value is in exactly one of the intervals between
consecutive values. -/
theorem existsUnique_mem_Ico (hf : Monotone f) (n : ℕ) (t : α) :
  t ∈ Set.Ico (f 0) (f n) ↔ ∃! i, i < n ∧ t ∈ Set.Ico (f i) (f (i + 1))
  := by
  constructor
  · intro ht
    have hunion := Ico_subset_biUnion_Ico n f ht
    simp only [Set.mem_iUnion, Finset.mem_range, exists_prop] at hunion
    obtain ⟨i, hi, hmem⟩ := hunion
    use i, ⟨hi, hmem⟩
    rintro j ⟨-, hmem'⟩
    by_contra hne
    have hdisjoint := hf.pairwise_disjoint_on_Ico_succ hne
    apply Set.disjoint_left.mp hdisjoint hmem' hmem
  · rintro ⟨i, ⟨hi, hle, hlt⟩, -⟩
    constructor
    · apply le_trans (hf (Nat.zero_le i)) hle
    · apply lt_of_lt_of_le hlt (hf hi)

end Tiling

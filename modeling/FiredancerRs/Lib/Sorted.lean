import Mathlib.Data.List.Basic
import Mathlib.Order.Defs.PartialOrder
import Mathlib.Tactic.Common

/-!
# Positions in sorted lists

In a list sorted by a rank, the elements of rank at most `c` are those before the position
that counts them (`getElem_rank_le_iff`). A table filled along a list of pairs with
distinct indices holds at each index the value paired with it (`getElem?_foldl_set`).
Lexicographic comparisons of numbers are decided one number at a time
(`Ordering.isLE_then_compare`).
-/

namespace Sorted

variable {α : Type}

/-- In a list sorted by rank, an element has rank at most `c` exactly when its position is
below the number of such elements. -/
theorem getElem_rank_le_iff {κ : Type} [Preorder κ] [DecidableLE κ] {rank : α → κ} {c : κ} :
  ∀ {l : List α} {p : Nat} (hp : p < l.length), l.Pairwise (fun a b => rank a ≤ rank b) →
    (rank l[p] ≤ c ↔ p < l.countP fun a => rank a ≤ c)
  | a :: l, p, hp, h => by
      obtain ⟨hhead, htail⟩ := List.pairwise_cons.mp h
      by_cases ha : rank a ≤ c
      · rw [List.countP_cons_of_pos (by simpa using ha)]
        cases p with
        | zero => simp [ha]
        | succ p =>
          have hp' : p < l.length := by simpa using hp
          rw [List.getElem_cons_succ, getElem_rank_le_iff hp' htail]
          omega
      · have hall : ∀ b ∈ a :: l, ¬ rank b ≤ c := by
          intro b hb
          rcases List.mem_cons.mp hb with rfl | hb
          · apply ha
          · exact fun hle => ha (le_trans (hhead b hb) hle)
        have hzero : (a :: l).countP (fun a => decide (rank a ≤ c)) = 0 := by
          apply List.countP_eq_zero.mpr
          intro b hb
          simpa using hall b hb
        rw [hzero]
        exact iff_of_false (hall _ (List.getElem_mem hp)) (Nat.not_lt_zero p)

/-- A fold of writes at indices other than `i` leaves the entry at `i` as it was. -/
theorem getElem?_foldl_set_of_not_mem {i : Nat} :
  ∀ {ps : List (Nat × α)} {t : List α}, (∀ p ∈ ps, p.1 ≠ i) →
    (ps.foldl (fun t p => t.set p.1 p.2) t)[i]? = t[i]?
  | [], _, _ => rfl
  | p :: ps, t, h => by
      rw [List.foldl_cons, getElem?_foldl_set_of_not_mem fun q hq => h q (List.mem_cons_of_mem p hq)]
      apply List.getElem?_set_ne
      apply h p List.mem_cons_self

/-- A fold of writes at distinct indices of the table leaves each value at its index. -/
theorem getElem?_foldl_set :
  ∀ {ps : List (Nat × α)} {t : List α}, (ps.map Prod.fst).Nodup → (∀ p ∈ ps, p.1 < t.length) →
    ∀ p ∈ ps, (ps.foldl (fun t p => t.set p.1 p.2) t)[p.1]? = some p.2
  | q :: ps, t, hnodup, hlt, p, hp => by
      obtain ⟨hnot, hnodup'⟩ := List.nodup_cons.mp hnodup
      rw [List.foldl_cons]
      rcases List.mem_cons.mp hp with rfl | hp
      · rw [getElem?_foldl_set_of_not_mem]
        · apply List.getElem?_set_self (hlt p List.mem_cons_self)
        · rintro r hr heq
          apply hnot
          rw [← heq]
          apply List.mem_map_of_mem hr
      · apply getElem?_foldl_set hnodup' _ p hp
        intro r hr
        rw [List.length_set]
        apply hlt r (List.mem_cons_of_mem q hr)

/-- Gathering the entries of a list at all its indices gives the list. -/
theorem filterMap_range_getElem? :
  ∀ l : List α, (List.range l.length).filterMap (fun i => l[i]?) = l
  | [] => rfl
  | a :: l => by
      rw [List.length_cons, List.range_succ_eq_map, List.filterMap_cons]
      simp only [List.getElem?_cons_zero, List.filterMap_map]
      congr 1
      apply filterMap_range_getElem? l

/-- Gathering entries that exist gathers one for each index. -/
theorem getElem?_filterMap_of_isSome {β : Type} {f : α → Option β} :
  ∀ {l : List α}, (∀ a ∈ l, (f a).isSome) → ∀ p : Nat, (l.filterMap f)[p]? = l[p]?.bind f
  | [], _, p => by simp
  | a :: l, h, p => by
      obtain ⟨b, hb⟩ := Option.isSome_iff_exists.mp (h a List.mem_cons_self)
      rw [List.filterMap_cons, hb]
      cases p with
      | zero => simp [hb]
      | succ p =>
        rw [List.getElem?_cons_succ, List.getElem?_cons_succ]
        apply getElem?_filterMap_of_isSome
        intro a' ha'
        apply h a' (List.mem_cons_of_mem a ha')

/-- A comparison of numbers, refined by another comparison. -/
theorem isLE_then_compare (m n : Nat) (o : Ordering) :
  ((compare m n).then o).isLE = true ↔ m < n ∨ (m = n ∧ o.isLE = true)
  := by
  rcases Nat.lt_trichotomy m n with h | h | h
  · rw [Nat.compare_eq_lt.mpr h]
    simp [h]
  · rw [Nat.compare_eq_eq.mpr h]
    simp [h]
  · rw [Nat.compare_eq_gt.mpr h]
    simp only [Ordering.then, Ordering.isLE, Bool.false_eq_true, false_iff]
    omega

theorem isLE_compare (m n : Nat) :
  (compare m n).isLE = true ↔ m ≤ n
  := by
  rw [Nat.isLE_compare]

end Sorted

import Mathlib.Data.List.Pairwise
import Mathlib.Data.Set.Lattice
import Mathlib.Order.CompletePartialOrder
import Mathlib.Order.Interval.Set.Disjoint

/-!
# Packed ranges

Lists of ranges that are disjoint and lie between two bounds. A range that begins at the upper
bound or above it may be added, the upper bound may be raised, and it may be lowered when the ranges
are cut.
-/

namespace Packing

variable {α : Type} [LinearOrder α]

/-- A range, with its end left out. -/
@[ext]
structure Range (α : Type) where
  lo : α
  hi : α
deriving DecidableEq

/-- The elements of a range. -/
def Range.elems (r : Range α) : Set α := Set.Ico r.lo r.hi

/-- What of a range is below a bound. -/
def Range.cut (top : α) (r : Range α) : Range α := { r with hi := min r.hi top }

theorem Range.elems_cut (top : α) (r : Range α) :
  (r.cut top).elems = r.elems ∩ Set.Iio top
  := Set.Ico_inter_Iio.symm

/-- The ranges are disjoint, and lie between two bounds. -/
structure Packed (bot top : α) (ranges : List (Range α)) : Prop where
  disjoint : ranges.Pairwise fun r r' => Disjoint r.elems r'.elems
  inside : ∀ r ∈ ranges, r.elems ⊆ Set.Ico bot top

variable {bot top top' : α} {r : Range α} {ranges : List (Range α)}

theorem Packed.nil :
  Packed bot top []
  where
    disjoint := .nil
    inside _ h := absurd h List.not_mem_nil

/-- The upper bound may be raised. -/
theorem Packed.mono (h : Packed bot top ranges) (htop : top ≤ top') :
  Packed bot top' ranges
  where
    disjoint := h.disjoint
    inside r hr := (h.inside r hr).trans (Set.Ico_subset_Ico_right htop)

/-- A range above the upper bound may be added. -/
theorem Packed.cons (h : Packed bot top ranges) (hbot : bot ≤ r.lo) (hlo : top ≤ r.lo)
    (hhi : r.hi ≤ top') (htop : top ≤ top') :
  Packed bot top' (r :: ranges)
  := by
  constructor
  · apply List.pairwise_cons.mpr ⟨_, h.disjoint⟩
    intro r' hr'
    apply Disjoint.symm
    apply Set.disjoint_of_subset_left (h.inside r' hr')
    rw [Range.elems, Set.Ico_disjoint_Ico]
    apply (min_le_left _ _).trans (hlo.trans (le_max_right _ _))
  · rw [List.forall_mem_cons]
    exact ⟨Set.Ico_subset_Ico hbot hhi, (h.mono htop).inside⟩

/-- The range from the upper bound to a higher one may be added. -/
theorem Packed.cons_top (h : Packed bot top ranges) (hbot : bot ≤ top) (htop : top ≤ top') :
  Packed bot top' (⟨top, top'⟩ :: ranges)
  := h.cons hbot le_rfl le_rfl htop

/-- The upper bound may be lowered when the ranges are cut. -/
theorem Packed.cut (h : Packed bot top ranges) (stop : α) :
  Packed bot stop (ranges.map (Range.cut stop))
  := by
  constructor
  · apply List.Pairwise.map _ _ h.disjoint
    intro r r' hdisjoint
    rw [Range.elems_cut, Range.elems_cut]
    apply hdisjoint.mono Set.inter_subset_left Set.inter_subset_left
  · rw [List.forall_mem_map]
    intro r hr
    rw [Range.elems_cut]
    rintro x ⟨hx, hstop⟩
    exact ⟨(h.inside r hr hx).1, hstop⟩

/-- Ranges that overlap are not packed. -/
theorem not_packed_of_overlap {r' : Range α} {x : α} (hx : x ∈ r.elems) (hx' : x ∈ r'.elems) :
  ¬ Packed bot top (r :: r' :: ranges)
  := by
  intro h
  have hdisjoint := (List.pairwise_cons.mp h.disjoint).1 r' List.mem_cons_self
  apply Set.disjoint_left.mp hdisjoint hx hx'

end Packing

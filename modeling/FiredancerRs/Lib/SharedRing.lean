import Mathlib.Data.List.Basic
import Mathlib.Data.Nat.ModEq
import Mathlib.Tactic.Common

/-!
# Rings with wrapping counters

A ring is shared by a producer and a consumer, each of which has a 32-bit counter that wraps.
The slot of a counter is its low bits. The contents of a ring are the entries between the two
counters (`contents`). When the depth is a power of two, pushing appends to the contents
(`contents_push`) and popping takes the first of them (`contents_of_pop`), whatever the values
of the counters are.
-/

/-- A ring of entries with its producer and consumer counters. -/
structure SharedRing (α : Type) where
  prod : UInt32
  cons : UInt32
  depth : UInt32
  slots : UInt32 → α

namespace SharedRing

variable {α : Type} {ring : SharedRing α} {x : α}

/-- The number of entries that are produced and not consumed. -/
def size (ring : SharedRing α) : Nat := (ring.prod - ring.cons).toNat

/-- No slot is free. -/
def Full (ring : SharedRing α) : Prop := ring.depth ≤ ring.prod - ring.cons

instance : Decidable ring.Full := inferInstanceAs (Decidable (ring.depth ≤ _))

/-- The slot of a counter. -/
def slot (ring : SharedRing α) (counter : UInt32) : UInt32 := counter &&& (ring.depth - 1)

/-- Write an entry and advance the producer. -/
def push (ring : SharedRing α) (x : α) : SharedRing α :=
  { ring with
    slots := Function.update ring.slots (ring.slot ring.prod) x
    prod := ring.prod + 1 }

/-- Read an entry and advance the consumer. -/
def pop (ring : SharedRing α) : Option (α × SharedRing α) :=
  if ring.prod = ring.cons then
    none
  else
    some (ring.slots (ring.slot ring.cons), { ring with cons := ring.cons + 1 })

/-- The entries that are produced and not consumed, the oldest first. -/
def contents (ring : SharedRing α) : List α :=
  (List.range ring.size).map fun i => ring.slots (ring.slot (ring.cons + .ofNat i))

/-- The depth of a ring is a power of two. -/
def Pow2 (ring : SharedRing α) : Prop := ∃ k, ring.depth.toNat = 2 ^ k

@[simp]
theorem depth_push :
  (ring.push x).depth = ring.depth
  := rfl

@[simp]
theorem cons_push :
  (ring.push x).cons = ring.cons
  := rfl

@[simp]
theorem length_contents :
  ring.contents.length = ring.size
  := by simp [contents]

theorem not_full_iff :
  ¬ ring.Full ↔ ring.size < ring.depth.toNat
  := by
  rw [Full, UInt32.le_iff_toNat_le, Nat.not_le, size]

/-- A ring is empty when its counters agree. -/
theorem size_eq_zero :
  ring.size = 0 ↔ ring.prod = ring.cons
  := by
  rw [size, ← UInt32.toNat_zero, UInt32.toNat_inj]
  constructor <;> grind

theorem size_push (h : ¬ ring.Full) :
  (ring.push x).size = ring.size + 1
  := by
  have hlt := not_full_iff.mp h
  have hdepth := ring.depth.toNat_lt
  have heq : ring.prod + 1 - ring.cons = ring.prod - ring.cons + 1 := by grind
  rw [size, push, heq, UInt32.toNat_add, ← size]
  apply Nat.mod_eq_of_lt
  rw [UInt32.toNat_one]
  omega

theorem pop_eq_none :
  ring.pop = none ↔ ring.size = 0
  := by
  rw [size_eq_zero, pop]
  split <;> simp_all

/-! ### Slots -/

section Slots

variable (h : ring.Pow2)
include h

/-- A power of two is positive. -/
theorem Pow2.pos :
  0 < ring.depth.toNat
  := by
  obtain ⟨k, hk⟩ := h
  rw [hk]
  apply Nat.two_pow_pos

theorem Pow2.dvd :
  ring.depth.toNat ∣ 2 ^ 32
  := by
  obtain ⟨k, hk⟩ := h
  have hlt := ring.depth.toNat_lt
  rw [hk] at hlt ⊢
  apply Nat.pow_dvd_pow
  apply Nat.le_of_lt ((Nat.pow_lt_pow_iff_right (by decide)).mp hlt)

/-- The slot of a counter is its value modulo the depth. -/
theorem toNat_slot (counter : UInt32) :
  (ring.slot counter).toNat = counter.toNat % ring.depth.toNat
  := by
  have hpos := Pow2.pos h
  obtain ⟨k, hk⟩ := h
  have hsub : (ring.depth - 1).toNat = 2 ^ k - 1 := by
    rw [UInt32.toNat_sub_of_le, hk, UInt32.toNat_one]
    rw [UInt32.le_iff_toNat_le]
    apply hpos
  rw [slot, UInt32.toNat_and, hsub, Nat.and_two_pow_sub_one_eq_mod, hk]

/-- The slot of the producer is none of the slots of the contents. -/
theorem slot_ne_slot_prod (hfull : ¬ ring.Full) {i : Nat} (hi : i < ring.size) :
  ring.slot (ring.cons + .ofNat i) ≠ ring.slot ring.prod
  := by
  intro heq
  have hlt := not_full_iff.mp hfull
  have hprod : ring.prod = ring.cons + .ofNat ring.size := by
    rw [size, UInt32.ofNat_toNat]
    grind
  rw [hprod, ← UInt32.toNat_inj, toNat_slot h, toNat_slot h, UInt32.toNat_add, UInt32.toNat_add,
    Nat.mod_mod_of_dvd _ (Pow2.dvd h), Nat.mod_mod_of_dvd _ (Pow2.dvd h), UInt32.toNat_ofNat',
    UInt32.toNat_ofNat'] at heq
  have hcancel := Nat.ModEq.add_left_cancel' _ heq
  have hdepth := ring.depth.toNat_lt
  rw [Nat.ModEq, Nat.mod_eq_of_lt (a := i), Nat.mod_eq_of_lt (a := ring.size),
    Nat.mod_eq_of_lt (by omega), Nat.mod_eq_of_lt hlt] at hcancel <;> omega

end Slots

/-! ### Contents -/

/-- Pushing appends to the contents. -/
theorem contents_push (h : ring.Pow2) (hfull : ¬ ring.Full) :
  (ring.push x).contents = ring.contents ++ [x]
  := by
  have hprod : ring.cons + .ofNat ring.size = ring.prod := by
    rw [size, UInt32.ofNat_toNat]
    grind
  rw [contents, size_push hfull, List.range_succ, List.map_append, contents]
  congr 1
  · apply List.map_congr_left
    intro i hi
    apply Function.update_of_ne
    apply slot_ne_slot_prod h hfull (List.mem_range.mp hi)
  · simp [push, hprod, slot]

/-- Popping takes the first of the contents. -/
theorem contents_of_pop {ring' : SharedRing α} (h : ring.pop = some (x, ring')) :
  ring.contents = x :: ring'.contents
  := by
  rw [pop] at h
  split at h
  · contradiction
  case isFalse hne =>
    injection h with h
    injection h with hx hring
    subst hx hring
    have hsize : ring.size = (ring.prod - (ring.cons + 1)).toNat + 1 := by
      have heq : ring.prod - ring.cons = ring.prod - (ring.cons + 1) + 1 := by grind
      have hpos : ring.size ≠ 0 := by rwa [ne_eq, size_eq_zero]
      have hlt := (ring.prod - (ring.cons + 1)).toNat_lt
      rw [size, heq, UInt32.toNat_add, UInt32.toNat_one] at hpos ⊢
      omega
    rw [contents, hsize, List.range_succ_eq_map, List.map_cons, List.map_map, contents]
    congr 1
    · simp
    · apply List.map_congr_left
      intro i _
      have hi : UInt32.ofNat (i + 1) = .ofNat i + 1 := by simp
      simp only [Function.comp_apply, Nat.succ_eq_add_one, hi, slot]
      congr 2
      grind

/-- Popping leaves the depth. -/
theorem depth_of_pop {ring' : SharedRing α} (h : ring.pop = some (x, ring')) :
  ring'.depth = ring.depth
  := by
  rw [pop] at h
  split at h
  · contradiction
  · injection h with h
    injection h with _ hring
    rw [← hring]

end SharedRing

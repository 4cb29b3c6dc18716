import Mathlib.Logic.Function.Basic
import Mathlib.Tactic.Common

/-!
# Piles

A pile has a fixed number of slots, of which the first ones are in use: they hold its `contents`.
Slots come into use and go out of use at the top, and keep what they hold until they are written.
-/

/-- Slots of which the first `count` are in use. -/
structure Pile (α : Type) (n : Nat) where
  slots : Nat → α
  count : Nat
  count_le : count ≤ n

namespace Pile

variable {α : Type} {n : Nat}

/-- What the slots in use hold. -/
def contents (p : Pile α n) : List α := (List.range p.count).map p.slots

/-- Takes one more slot into use, as it is. -/
def extend (p : Pile α n) (h : p.count < n) : Pile α n where
  slots := p.slots
  count := p.count + 1
  count_le := h

/-- Writes a slot. -/
def write (p : Pile α n) (i : Nat) (a : α) : Pile α n where
  slots := Function.update p.slots i a
  count := p.count
  count_le := p.count_le

/-- Takes one more slot into use, for an element. -/
def push (p : Pile α n) (a : α) (h : p.count < n) : Pile α n where
  slots := Function.update p.slots p.count a
  count := p.count + 1
  count_le := h

/-- Gives up the last slot in use. -/
def pop (p : Pile α n) : Pile α n where
  slots := p.slots
  count := p.count - 1
  count_le := Nat.le_trans (Nat.sub_le p.count 1) p.count_le

/-- Moves the last element into a slot in use, and gives up the last slot. -/
def remove (p : Pile α n) (i : Nat) : Pile α n := (p.write i (p.slots (p.count - 1))).pop

variable {p : Pile α n} {a : α} {i : Nat}

/-- The last element stays where it is when it is removed. -/
theorem remove_last :
  p.remove (p.count - 1) = p.pop
  := by
  rw [remove, write, Function.update_eq_self]

@[simp]
theorem length_contents :
  p.contents.length = p.count
  := by
  rw [contents, List.length_map, List.length_range]

theorem contents_extend (p : Pile α n) (h : p.count < n) :
  (p.extend h).contents = p.contents ++ [p.slots p.count]
  := by
  rw [contents, extend, List.range_succ, List.map_append, List.map_singleton, contents]

/-- A slot that is not in use is written. -/
theorem contents_write (h : p.count ≤ i) :
  (p.write i a).contents = p.contents
  := by
  apply List.map_congr_left
  intro j hj
  have hlt := List.mem_range.mp hj
  apply Function.update_of_ne
  change j < p.count at hlt
  omega

theorem contents_push (h : p.count < n) :
  (p.push a h).contents = p.contents ++ [a]
  := by
  have hextend : (p.push a h).contents
      = (p.write p.count a).contents ++ [(p.write p.count a).slots p.count] :=
    (p.write p.count a).contents_extend h
  have hslot : (p.write p.count a).slots p.count = a := Function.update_self ..
  rw [hextend, contents_write (Nat.le_refl p.count), hslot]

/-- The last slot in use holds the last element. -/
theorem contents_pop (h : 0 < p.count) :
  p.contents = p.pop.contents ++ [p.slots (p.count - 1)]
  := by
  have hcount : p.pop.count + 1 = p.count := Nat.sub_add_cancel h
  change (List.range p.count).map p.slots
    = (List.range p.pop.count).map p.slots ++ [p.slots p.pop.count]
  rw [← hcount, List.range_succ, List.map_append, List.map_singleton]

end Pile

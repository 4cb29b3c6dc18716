import Mathlib.Logic.Function.Basic
import Mathlib.Tactic.Common

/-!
# Slots of storage

Storage as slots that are taken, written and given up, where no slot is taken twice: a slot that has
been given up is gone (`Gone`), whatever is done to the others, and a write to it changes no slot.
-/

/-- Slots with what they hold, and the next one to be taken. -/
structure Slots (α : Type) where
  cells : Nat → Option α
  next : Nat
  unused : ∀ p, next ≤ p → cells p = none

namespace Slots

variable {α : Type}

/-- No slot has been taken. -/
def empty : Slots α := ⟨fun _ => none, 0, fun _ _ => rfl⟩

/-- Takes the next slot for a value. -/
def take (s : Slots α) (a : α) : Slots α where
  cells := Function.update s.cells s.next (some a)
  next := s.next + 1
  unused p hp := by
    rw [Function.update_of_ne (Nat.ne_of_gt hp)]
    apply s.unused p (Nat.le_of_succ_le hp)

/-- Changes what a slot holds, if it has not been given up. -/
def modify (s : Slots α) (p : Nat) (f : α → α) : Slots α where
  cells := Function.update s.cells p ((s.cells p).map f)
  next := s.next
  unused q hq := by
    by_cases heq : q = p
    · rw [heq, Function.update_self, ← heq, s.unused q hq, Option.map_none]
    · rw [Function.update_of_ne heq, s.unused q hq]

/-- Gives a slot up. -/
def give (s : Slots α) (p : Nat) : Slots α where
  cells := Function.update s.cells p none
  next := s.next
  unused q hq := by
    by_cases heq : q = p
    · rw [heq, Function.update_self]
    · rw [Function.update_of_ne heq, s.unused q hq]

/-- Moves what a slot holds to the next slot, and gives the first one up. -/
def move (s : Slots α) (p : Nat) : Slots α :=
  match s.cells p with
  | none => s
  | some a => (s.give p).take a

/-- The slot has been given up. -/
def Gone (s : Slots α) (p : Nat) : Prop := p < s.next ∧ s.cells p = none

variable {s : Slots α} {p q : Nat} {a : α} {f : α → α}

@[simp]
theorem cells_take :
  (s.take a).cells s.next = some a
  := Function.update_self ..

theorem cells_modify_of_ne (h : q ≠ p) :
  (s.modify p f).cells q = s.cells q
  := Function.update_of_ne h ..

/-- A slot that is moved is found in the next slot. -/
theorem cells_move (h : s.cells p = some a) :
  (s.move p).cells s.next = some a
  := by
  rw [move, h]
  apply (s.give p).cells_take

theorem lt_next (h : s.cells p = some a) :
  p < s.next
  := by
  by_contra hlt
  rw [s.unused p (Nat.le_of_not_lt hlt)] at h
  cases h

/-- What a slot holds is not changed when another is taken. -/
theorem cells_take_of_eq_some {b : α} (h : s.cells p = some a) :
  (s.take b).cells p = s.cells p
  := Function.update_of_ne (Nat.ne_of_lt (lt_next h)) ..

theorem gone_give (h : p < s.next) :
  (s.give p).Gone p
  := ⟨h, Function.update_self ..⟩

theorem Gone.ne (h : s.Gone p) (hq : s.cells q = some a) :
  q ≠ p
  := by
  rintro rfl
  rw [h.2] at hq
  cases hq

theorem Gone.take (h : s.Gone p) :
  (s.take a).Gone p
  := by
  use Nat.lt_succ_of_lt h.1
  exact (Function.update_of_ne (Nat.ne_of_lt h.1) ..).trans h.2

theorem Gone.give (h : s.Gone p) (q : Nat) :
  (s.give q).Gone p
  := by
  use h.1
  by_cases heq : p = q
  · rw [heq]
    apply Function.update_self
  · exact (Function.update_of_ne heq ..).trans h.2

theorem Gone.move (h : s.Gone p) (q : Nat) :
  (s.move q).Gone p
  := by
  rw [Slots.move]
  split
  · apply h
  · apply (h.give q).take

/-- The slot that a value is moved away from is gone. -/
theorem gone_move (h : s.cells p = some a) :
  (s.move p).Gone p
  := by
  rw [Slots.move, h]
  apply (gone_give (lt_next h)).take

/-- A slot that is gone is not there to be changed. -/
theorem Gone.modify (h : s.Gone p) (q : Nat) :
  (s.modify q f).Gone p
  := by
  use h.1
  by_cases heq : p = q
  · obtain rfl := heq
    apply (Function.update_self ..).trans
    rw [h.2, Option.map_none]
  · exact (Function.update_of_ne heq ..).trans h.2

end Slots

import Mathlib.Logic.Function.Basic
import Mathlib.Tactic.Common

/-!
# Rings of slots

A ring has a fixed number of slots, and those in use follow one another around it. Elements are
pushed at the back and popped at the front, and a slot keeps what it holds until it is written
again. So the slots hold the elements that were pushed last (`Records`), wherever the front has got
to.
-/

/-- The slots of a ring, the first one in use, and how many are. -/
structure SlotRing (α : Type) (n : Nat) where
  slots : Nat → α
  start : Nat
  count : Nat
  start_lt : start < n
  count_le : count ≤ n

namespace SlotRing

variable {α : Type} {n : Nat}

/-- The element at the front. -/
def front (r : SlotRing α n) : α := r.slots r.start

/-- Writes the slot behind the last one in use. -/
def push (r : SlotRing α n) (a : α) (h : r.count < n) : SlotRing α n where
  slots := Function.update r.slots ((r.start + r.count) % n) a
  start := r.start
  count := r.count + 1
  start_lt := r.start_lt
  count_le := h

/-- Gives up the slot at the front, which keeps its element. -/
def pop (r : SlotRing α n) : SlotRing α n where
  slots := r.slots
  start := (r.start + 1) % n
  count := r.count - 1
  start_lt := Nat.mod_lt _ (Nat.zero_lt_of_lt r.start_lt)
  count_le := Nat.le_trans (Nat.sub_le r.count 1) r.count_le

/-- The elements were pushed, from slot zero on, and the first of them have been popped. -/
structure Records (r : SlotRing α n) (pushed : List α) (popped : Nat) : Prop where
  start : r.start = popped % n
  count : popped + r.count = pushed.length
  slots : ∀ i (h : i < pushed.length), pushed.length ≤ i + n → r.slots (i % n) = pushed[i]

variable {r : SlotRing α n} {pushed : List α} {popped : Nat}

@[simp]
theorem count_push {a : α} {h : r.count < n} :
  (r.push a h).count = r.count + 1
  := rfl

@[simp]
theorem count_pop :
  r.pop.count = r.count - 1
  := rfl

/-- Numbers that are apart, but by less than a turn, are in different slots. -/
theorem mod_ne {i j : Nat} (hlt : i < j) (hturn : j < i + n) :
  i % n ≠ j % n
  := by
  intro hmod
  have hzero := Nat.sub_mod_eq_zero_of_mod_eq hmod.symm
  rw [Nat.mod_eq_of_lt (by omega)] at hzero
  omega

namespace Records

theorem empty (hstart : r.start = 0) (hcount : r.count = 0) :
  Records r [] 0
  where
    start := hstart
    count := by rw [hcount, List.length_nil]
    slots i h := absurd h (Nat.not_lt_zero i)

theorem push (h : Records r pushed popped) (a : α) (hlt : r.count < n) :
  Records (r.push a hlt) (pushed ++ [a]) popped
  := by
  have hslot : (r.start + r.count) % n = pushed.length % n := by
    rw [h.start, Nat.mod_add_mod, h.count]
  constructor
  · apply h.start
  · rw [List.length_append, List.length_singleton, ← h.count, count_push, Nat.add_assoc]
  · intro i hi hturn
    rw [List.length_append, List.length_singleton] at hi hturn
    change Function.update r.slots ((r.start + r.count) % n) a (i % n) = _
    rw [hslot]
    obtain hlast | rfl := Nat.lt_succ_iff_lt_or_eq.mp hi
    · rw [Function.update_of_ne (mod_ne hlast (by omega)), h.slots i hlast (by omega),
        List.getElem_append_left hlast]
    · rw [Function.update_self, List.getElem_concat_length rfl]

theorem pop (h : Records r pushed popped) (hpos : 0 < r.count) :
  Records r.pop pushed (popped + 1)
  := by
  have hcount := h.count
  constructor
  · change (r.start + 1) % n = _
    rw [h.start, Nat.mod_add_mod]
  · rw [count_pop]
    omega
  · apply h.slots

/-- The front is the first element that has not been popped. -/
theorem front (h : Records r pushed popped) (hlt : popped < pushed.length) :
  r.front = pushed[popped]
  := by
  have hcount := h.count
  have hle := r.count_le
  rw [SlotRing.front, h.start]
  apply h.slots popped hlt (by omega)

/-- The first slot was written once in each turn. -/
theorem slot_zero (h : Records r pushed popped) (hpos : 0 < pushed.length) :
  some (r.slots 0) = pushed[n * ((pushed.length - 1) / n)]?
  := by
  have hn : 0 < n := Nat.zero_lt_of_lt r.start_lt
  have hle : n * ((pushed.length - 1) / n) ≤ pushed.length - 1 := Nat.mul_div_le _ n
  have hlt : n * ((pushed.length - 1) / n) < pushed.length := by omega
  have hmod := Nat.mod_lt (pushed.length - 1) hn
  have hdiv := Nat.div_add_mod (pushed.length - 1) n
  have hslot := h.slots _ hlt (by omega)
  rw [Nat.mul_mod_right] at hslot
  rw [hslot, List.getElem?_eq_getElem hlt]

end Records

end SlotRing

import Mathlib.Data.List.Basic
import Mathlib.Tactic.Common

/-!
# Byte memory

A memory gives each address a byte. What is written is read back (`read_write`), and a write
changes no range that is apart from it (`read_write_of_disjoint`).
-/

/-- A byte for each address. -/
abbrev Memory : Type := Nat → UInt8

namespace Memory

variable {mem : Memory} {addr addr' len : Nat} {bytes : List UInt8}

/-- The bytes of a range. -/
def read (mem : Memory) (addr len : Nat) : List UInt8 :=
  (List.range len).map fun i => mem (addr + i)

/-- The memory in which a range holds the given bytes. -/
def write (mem : Memory) (addr : Nat) (bytes : List UInt8) : Memory := fun a =>
  if addr ≤ a then bytes.getD (a - addr) (mem a) else mem a

theorem write_of_lt {a : Nat} (h : a < addr) :
  mem.write addr bytes a = mem a
  := by
  rw [write, if_neg (Nat.not_le.mpr h)]

theorem write_of_ge {a : Nat} (h : addr + bytes.length ≤ a) :
  mem.write addr bytes a = mem a
  := by
  rw [write, if_pos (Nat.le_of_add_right_le h), List.getD_eq_getElem?_getD,
    List.getElem?_eq_none (Nat.le_sub_of_add_le' h), Option.getD_none]

theorem read_write :
  (mem.write addr bytes).read addr bytes.length = bytes
  := by
  apply List.ext_getElem
  · simp [read]
  · intro i _ hi
    simp [read, write, hi]

theorem read_write_of_disjoint
    (h : addr' + len ≤ addr ∨ addr + bytes.length ≤ addr') :
  (mem.write addr bytes).read addr' len = mem.read addr' len
  := by
  apply List.map_congr_left
  intro i hi
  rw [List.mem_range] at hi
  rcases h with h | h
  · apply write_of_lt
    omega
  · apply write_of_ge
    omega

@[simp]
theorem length_read :
  (mem.read addr len).length = len
  := by
  rw [read, List.length_map, List.length_range]

/-- A range is read in two parts. -/
theorem read_add (m n : Nat) :
  mem.read addr (m + n) = mem.read addr m ++ mem.read (addr + m) n
  := by
  simp only [read, List.range_add, List.map_append, List.map_map]
  congr 1
  apply List.map_congr_left
  intro i _
  rw [Function.comp_apply, Nat.add_assoc]

/-- A write inside a range replaces a stretch of what the range holds. -/
theorem read_write_within {pos : Nat} (h : pos + bytes.length ≤ len) :
  (mem.write (addr + pos) bytes).read addr len
    = (mem.read addr len).take pos ++ (bytes ++ (mem.read addr len).drop (pos + bytes.length))
  := by
  obtain ⟨rest, rfl⟩ := Nat.exists_eq_add_of_le h
  have htake : (mem.read addr (pos + bytes.length + rest)).take pos = mem.read addr pos := by
    rw [Nat.add_assoc, read_add, List.take_left' length_read]
  have hdrop : (mem.read addr (pos + bytes.length + rest)).drop (pos + bytes.length)
      = mem.read (addr + (pos + bytes.length)) rest := by
    rw [read_add, List.drop_left' length_read]
  rw [htake, hdrop, read_add, read_add, read_write, read_write_of_disjoint (.inl (Nat.le_refl _)),
    read_write_of_disjoint (.inr (by omega)), List.append_assoc]

end Memory

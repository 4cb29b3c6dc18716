import Mathlib.Algebra.Group.Int.Defs
import Mathlib.Algebra.Ring.Nat
import Mathlib.Tactic.Common

/-!
# Checked arithmetic on words

Operations on 64-bit words, without and with a sign, that return nothing when the result is out of
range or a divisor is zero. In range they are the operations on numbers. One addition stops at the
end of the range instead (`saturatingAdd`).
-/

namespace Checked

variable {a b : UInt64}

/-- The number as a word, when it is in range. -/
def ofNat (n : Nat) : Option UInt64 := if n < 2 ^ 64 then some (UInt64.ofNat n) else none

def add (a b : UInt64) : Option UInt64 := ofNat (a.toNat + b.toNat)

def mul (a b : UInt64) : Option UInt64 := ofNat (a.toNat * b.toNat)

def sub (a b : UInt64) : Option UInt64 := if b ≤ a then some (a - b) else none

def div (a b : UInt64) : Option UInt64 := if b = 0 then none else some (a / b)

def mod (a b : UInt64) : Option UInt64 := if b = 0 then none else some (a % b)

theorem bind_of_eq_some {α β : Type} {x : Option α} {v : α} {f : α → Option β}
    (h : x = some v) :
  (x >>= f) = f v
  := by
  rw [h]
  rfl

theorem ofNat_spec {n : Nat} (h : n < 2 ^ 64) :
  ∃ c, ofNat n = some c ∧ c.toNat = n
  := ⟨UInt64.ofNat n, if_pos h, UInt64.toNat_ofNat_of_lt' h⟩

theorem add_spec (h : a.toNat + b.toNat < 2 ^ 64) :
  ∃ c, add a b = some c ∧ c.toNat = a.toNat + b.toNat
  := ofNat_spec h

theorem mul_spec (h : a.toNat * b.toNat < 2 ^ 64) :
  ∃ c, mul a b = some c ∧ c.toNat = a.toNat * b.toNat
  := ofNat_spec h

theorem sub_spec (h : b.toNat ≤ a.toNat) :
  ∃ c, sub a b = some c ∧ c.toNat = a.toNat - b.toNat
  := by
  have hle : b ≤ a := UInt64.le_iff_toNat_le.mpr h
  exact ⟨a - b, if_pos hle, UInt64.toNat_sub_of_le a b hle⟩

theorem div_spec (h : 0 < b.toNat) :
  ∃ c, div a b = some c ∧ c.toNat = a.toNat / b.toNat
  := by
  have hne : b ≠ 0 := by
    rintro rfl
    cases h
  exact ⟨a / b, if_neg hne, UInt64.toNat_div a b⟩

theorem mod_spec (h : 0 < b.toNat) :
  ∃ c, mod a b = some c ∧ c.toNat = a.toNat % b.toNat
  := by
  have hne : b ≠ 0 := by
    rintro rfl
    cases h
  exact ⟨a % b, if_neg hne, UInt64.toNat_mod a b⟩

theorem toNat_min (a b : UInt64) :
  (min a b).toNat = min a.toNat b.toNat
  := by
  change (if a ≤ b then a else b).toNat = if a.toNat ≤ b.toNat then a.toNat else b.toNat
  simp only [UInt64.le_iff_toNat_le]
  split
  · rfl
  · rfl

/-! ### Words with a sign -/

section Signed

variable {a b : Int64}

/-- The number as a word, when it is in range. -/
def ofInt (n : Int) : Option Int64 :=
  if -2 ^ 63 ≤ n ∧ n < 2 ^ 63 then some (Int64.ofInt n) else none

def addSigned (a b : Int64) : Option Int64 := ofInt (a.toInt + b.toInt)

theorem addSigned_spec (hle : -2 ^ 63 ≤ a.toInt + b.toInt) (hlt : a.toInt + b.toInt < 2 ^ 63) :
  ∃ c, addSigned a b = some c ∧ c.toInt = a.toInt + b.toInt
  := ⟨Int64.ofInt (a.toInt + b.toInt), if_pos ⟨hle, hlt⟩, Int64.toInt_ofInt_of_le hle hlt⟩

/-- The sum, or the end of the range that it lies beyond. -/
def saturatingAdd (a b : Int64) : Int64 :=
  Int64.ofInt (max (-2 ^ 63) (min (a.toInt + b.toInt) (2 ^ 63 - 1)))

theorem toInt_saturatingAdd (a b : Int64) :
  (saturatingAdd a b).toInt = max (-2 ^ 63) (min (a.toInt + b.toInt) (2 ^ 63 - 1))
  := by
  apply Int64.toInt_ofInt_of_le
  · omega
  · omega

end Signed

end Checked

import Mathlib.Data.Nat.ModEq
import Mathlib.Tactic.Common

/-!
# One's-complement addition

Addition of numbers up to `m` with an end-around carry: what exceeds `m` is carried to the low end.
It is addition modulo `m`, in which zero has the two representations `0` and `m`. A sum is `0` only
when all of its terms are (`sum_eq_zero_iff`), so a sum that is divisible by `m` is `m` otherwise
(`sum_eq_of_dvd`).
-/

namespace OnesComplement

variable {m a b : Nat} {l : List Nat}

/-- Addition with an end-around carry. -/
def add (m a b : Nat) : Nat := if a + b ≤ m then a + b else a + b - m

/-- The sum of some numbers. -/
def sum (m : Nat) : List Nat → Nat
  | [] => 0
  | a :: l => add m a (sum m l)

theorem add_le (ha : a ≤ m) (hb : b ≤ m) :
  add m a b ≤ m
  := by
  rw [add]
  split <;> omega

theorem add_modEq :
  add m a b ≡ a + b [MOD m]
  := by
  rw [add]
  split
  case isTrue => rfl
  case isFalse h =>
    apply (Nat.modEq_iff_dvd' (Nat.sub_le _ _)).mpr
    rw [Nat.sub_sub_self (Nat.le_of_not_le h)]

theorem add_eq_zero_iff :
  add m a b = 0 ↔ a = 0 ∧ b = 0
  := by
  rw [add]
  split <;> omega

theorem sum_le (h : ∀ a ∈ l, a ≤ m) :
  sum m l ≤ m
  := by
  induction l with
  | nil => apply Nat.zero_le
  | cons a l ih =>
    obtain ⟨ha, hl⟩ := List.forall_mem_cons.mp h
    apply add_le ha (ih hl)

/-- The sum is the arithmetic sum modulo `m`. -/
theorem sum_modEq :
  sum m l ≡ l.sum [MOD m]
  := by
  induction l with
  | nil => rfl
  | cons a l ih =>
    rw [List.sum_cons]
    apply add_modEq.trans
    apply Nat.ModEq.add_left a ih

theorem sum_eq_zero_iff :
  sum m l = 0 ↔ ∀ a ∈ l, a = 0
  := by
  induction l with
  | nil => simp [sum]
  | cons a l ih => rw [sum, add_eq_zero_iff, ih, List.forall_mem_cons]

/-- A sum that is divisible by `m` is the other zero when some term is not zero. -/
theorem sum_eq_of_dvd (hle : ∀ a ∈ l, a ≤ m) (hdvd : m ∣ l.sum) (ha : a ∈ l) (hne : a ≠ 0) :
  sum m l = m
  := by
  have hpos : sum m l ≠ 0 := fun hzero => hne (sum_eq_zero_iff.mp hzero a ha)
  have hsum : m ∣ sum m l := (sum_modEq.dvd_iff (dvd_refl m)).mpr hdvd
  apply Nat.le_antisymm (sum_le hle) (Nat.le_of_dvd (Nat.pos_of_ne_zero hpos) hsum)

/-- Adding what lies above the low part to the low part. -/
theorem fold_modEq (c : Nat) :
  c % (m + 1) + c / (m + 1) ≡ c [MOD m]
  := by
  have hsplit := Nat.mod_add_div c (m + 1)
  have hfold : c % (m + 1) + c / (m + 1) + m * (c / (m + 1)) = c := by
    rw [Nat.add_one_mul] at hsplit
    omega
  calc c % (m + 1) + c / (m + 1)
      ≡ c % (m + 1) + c / (m + 1) + m * (c / (m + 1)) [MOD m] := by
        apply (Nat.modEq_iff_dvd' (Nat.le_add_right _ _)).mpr
        rw [Nat.add_sub_cancel_left]
        apply Nat.dvd_mul_right
    _ = c := hfold

theorem fold_eq_zero_iff (c : Nat) :
  c % (m + 1) + c / (m + 1) = 0 ↔ c = 0
  := by
  constructor
  · intro h
    obtain ⟨hmod, hdiv⟩ := Nat.add_eq_zero_iff.mp h
    rw [← Nat.mod_add_div c (m + 1), hmod, hdiv]
    rfl
  · rintro rfl
    rw [Nat.zero_mod, Nat.zero_div]

end OnesComplement

import Mathlib.Algebra.Group.Int.Defs
import Mathlib.Algebra.Ring.Nat
import Mathlib.Tactic.Common

/-!
# Doubles

The doubles other than NaN, with the rounding of a fraction to the nearest one and the
conversion to a 64-bit integer that truncates and saturates.
-/

/-- A double other than NaN: a sign with `mant * 2 ^ exp`, or with infinity. -/
inductive Float64 where
  | finite (neg : Bool) (mant : Nat) (exp : Int)
  | infinite (neg : Bool)
deriving DecidableEq, Repr

namespace Float64

/-- A quotient, rounded to the nearest integer and to the even one of two nearest. -/
def divRound (num den : Nat) : Nat :=
  let q := num / den
  let r := num % den
  if 2 * r > den ∨ (2 * r = den ∧ q % 2 = 1) then q + 1 else q

/-- The numerator and the denominator of `num / den / 2 ^ exp`. -/
def scale (num den : Nat) (exp : Int) : Nat × Nat :=
  if 0 ≤ exp then (num, den * 2 ^ exp.toNat) else (num * 2 ^ (-exp).toNat, den)

/-- The least exponent, from -1074 on, with which `num / den` has at most 53 bits. -/
def exponent (num den : Nat) : Int :=
  let exp : Int := (num.log2 : Int) - den.log2 - 53
  let (n, d) := scale num den exp
  max (if n < 2 ^ 53 * d then exp else exp + 1) (-1074)

/-- The double nearest to a fraction. -/
def ofFraction (neg : Bool) (num den : Nat) : Float64 :=
  if num = 0 then
    .finite neg 0 0
  else
    let exp := exponent num den
    let (n, d) := scale num den exp
    let mant := divRound n d
    if exp > 971 ∨ (exp = 971 ∧ mant ≥ 2 ^ 53) then .infinite neg else .finite neg mant exp

/-- The double nearest to `digits * 10 ^ exp10`. -/
def ofDecimal (neg : Bool) (digits : Nat) (exp10 : Int) : Float64 :=
  if 0 ≤ exp10 then
    ofFraction neg (digits * 10 ^ exp10.toNat) 1
  else
    ofFraction neg digits (10 ^ (-exp10).toNat)

/-- The 64-bit integer of a double: truncated, and the nearest in range. -/
def toU64 : Float64 → UInt64
  | .finite true _ _ => 0
  | .finite false mant exp =>
    let value := if 0 ≤ exp then mant * 2 ^ exp.toNat else mant / 2 ^ (-exp).toNat
    if value < 2 ^ 64 then UInt64.ofNat value else UInt64.ofNat (2 ^ 64 - 1)
  | .infinite true => 0
  | .infinite false => UInt64.ofNat (2 ^ 64 - 1)

-- an integer above 2 ^ 53 that is not a double becomes the nearest double
example : (ofDecimal false 9007199254740993 0).toU64 = 9007199254740992 := by decide

example : (ofDecimal false 15 (-1)).toU64 = 1 := by decide

/-! ### Integers -/

/-- An integer has 53 bits at the exponent of its highest bit less 52. -/
theorem exponent_one {n : Nat} (hn : n ≠ 0) :
  exponent n 1 = (n.log2 : Int) - 52
  := by
  have hle := Nat.log2_self_le hn
  have hone : Nat.log2 1 = 0 := by decide
  have hbits : ¬(scale n 1 ((n.log2 : Int) - 53)).1
      < 2 ^ 53 * (scale n 1 ((n.log2 : Int) - 53)).2 := by
    rw [scale]
    split
    · next hexp =>
      have hpow : 2 ^ 53 * (1 * 2 ^ ((n.log2 : Int) - 53).toNat) = 2 ^ n.log2 := by
        rw [Nat.one_mul, ← Nat.pow_add]
        congr 1
        omega
      rw [hpow]
      apply Nat.not_lt.mpr hle
    · next hexp =>
      have hpow : 2 ^ 53 = 2 ^ n.log2 * 2 ^ (-((n.log2 : Int) - 53)).toNat := by
        rw [← Nat.pow_add]
        congr 1
        omega
      rw [Nat.mul_one, hpow]
      apply Nat.not_lt.mpr (Nat.mul_le_mul_right _ hle)
  rw [exponent, hone]
  simp only [Int.natCast_zero, Int.sub_zero, if_neg hbits]
  omega

/-- The double nearest to an integer that is well below the greatest double. -/
theorem ofFraction_eq {neg : Bool} {n : Nat} (hn : n ≠ 0) (hlt : n < 2 ^ 128) :
  ofFraction neg n 1
    = .finite neg
      (divRound (scale n 1 ((n.log2 : Int) - 52)).1 (scale n 1 ((n.log2 : Int) - 52)).2)
      ((n.log2 : Int) - 52)
  := by
  have hlog : n.log2 < 128 := (Nat.log2_lt hn).mpr hlt
  rw [ofFraction, if_neg hn]
  simp only [exponent_one hn]
  rw [if_neg (by omega)]

theorem ofDecimal_natCast (neg : Bool) (digits k : Nat) :
  ofDecimal neg digits k = ofFraction neg (digits * 10 ^ k) 1
  := by
  rw [ofDecimal, if_pos (Int.natCast_nonneg k), Int.toNat_natCast]

theorem divRound_of_dvd {n d : Nat} (h : d ∣ n) :
  divRound n d = n / d
  := by
  obtain ⟨q, rfl⟩ := h
  rw [divRound]
  simp only [Nat.mul_mod_right]
  by_cases hd : d = 0
  · subst hd
    simp
  · rw [if_neg]
    omega

/-- A double that is not negative is truncated, up to the greatest integer of 64 bits. -/
theorem toU64_finite (mant : Nat) (exp : Int) :
  (finite false mant exp).toU64.toNat
    = min (if 0 ≤ exp then mant * 2 ^ exp.toNat else mant / 2 ^ (-exp).toNat) (2 ^ 64 - 1)
  := by
  rw [toU64]
  generalize (if 0 ≤ exp then mant * 2 ^ exp.toNat else mant / 2 ^ (-exp).toNat) = value
  split
  · next hlt =>
    rw [UInt64.toNat_ofNat_of_lt' hlt]
    omega
  · next hge =>
    rw [UInt64.toNat_ofNat_of_lt' (by decide)]
    omega

/-- The double nearest to an integer of 64 bits, truncated again, is the integer exactly when its
bits below the highest 53 are zero, or it is the greatest such integer. -/
theorem toU64_ofDecimal_eq_iff {n : Nat} (hlt : n < 2 ^ 64) :
  (ofDecimal false n 0).toU64.toNat = n ↔ 2 ^ (n.log2 - 52) ∣ n ∨ n = 2 ^ 64 - 1
  := by
  by_cases hn : n = 0
  · subst hn
    exact ⟨fun _ => .inl (Nat.dvd_zero _), fun _ => rfl⟩
  have hlog : n.log2 < 64 := (Nat.log2_lt hn).mpr hlt
  have hof : ofDecimal false n 0 = ofFraction false n 1 := by
    simpa using ofDecimal_natCast false n 0
  have hfinite : n < 2 ^ 128 := Nat.lt_of_lt_of_le hlt (by decide)
  rw [hof, ofFraction_eq hn hfinite, toU64_finite, scale]
  by_cases hexp : 0 ≤ (n.log2 : Int) - 52
  · -- the double is a multiple of the power of two, so the integer is one unless it saturates
    have htoNat : ((n.log2 : Int) - 52).toNat = n.log2 - 52 := by omega
    simp only [if_pos hexp, htoNat, Nat.one_mul]
    constructor
    · intro heq
      by_cases hsat : n = 2 ^ 64 - 1
      · exact .inr hsat
      · left
        refine ⟨divRound n (2 ^ (n.log2 - 52)), ?_⟩
        rw [Nat.mul_comm]
        omega
    · rintro (hdvd | rfl)
      · rw [divRound_of_dvd hdvd, Nat.div_mul_cancel hdvd]
        omega
      · decide
  · -- an integer of at most 52 bits is scaled up, and nothing is rounded
    have hzero : n.log2 - 52 = 0 := by omega
    simp only [if_neg hexp, hzero, Nat.pow_zero]
    rw [divRound_of_dvd (Nat.one_dvd _), Nat.div_one,
      Nat.mul_div_cancel _ (Nat.two_pow_pos _)]
    have hmin : min n (2 ^ 64 - 1) = n := by omega
    rw [hmin]
    exact ⟨fun _ => .inl (Nat.one_dvd n), fun _ => rfl⟩

end Float64

import Mathlib.Data.Nat.Log
import FiredancerRs.Lib.Float64

/-!
# The bits of a double

A double as its 64 bits, and the integers that are converted to doubles: the double nearest to an
integer is the integer `roundBinary` of at most 53 bits (`fraction_ofFraction`), and its bits stand
for that integer too (`exists_ofBits_toBits`). The rounding keeps the order and leaves what it has
rounded.
-/

namespace Float64

/-- The bits of a double. -/
def toBits : Float64 → UInt64
  | .finite neg mant exp =>
    UInt64.ofNat ((if neg then 2 ^ 63 else 0)
      + if mant = 0 then 0 else (exp + 1074).toNat * 2 ^ 52 + mant)
  | .infinite neg => UInt64.ofNat ((if neg then 2 ^ 63 else 0) + 2047 * 2 ^ 52)

/-- The double of bits, if it is not NaN. -/
def ofBits (bits : UInt64) : Option Float64 :=
  let neg := decide (bits.toNat / 2 ^ 63 = 1)
  let exp : Nat := bits.toNat / 2 ^ 52 % 2 ^ 11
  let mant : Nat := bits.toNat % 2 ^ 52
  if exp = 2047 then
    if mant = 0 then some (.infinite neg) else none
  else if exp = 0 then
    some (.finite neg mant (-1074))
  else
    some (.finite neg (2 ^ 52 + mant) ((exp : Int) - 1075))

/-- The numerator and the denominator of `mant * 2 ^ exp`. -/
def fraction (mant : Nat) (exp : Int) : Nat × Nat := (mant * 2 ^ exp.toNat, 2 ^ (-exp).toNat)

/-- The integer of at most 53 bits, and zeros, that is nearest to an integer. -/
def roundBinary (n : Nat) : Nat := divRound n (2 ^ (n.log2 - 52)) * 2 ^ (n.log2 - 52)

/-! ### Rounding a quotient -/

theorem divRound_one (n : Nat) :
  divRound n 1 = n
  := by
  rw [divRound_of_dvd (Nat.one_dvd n), Nat.div_one]

theorem div_le_divRound (n d : Nat) :
  n / d ≤ divRound n d
  := by
  rw [divRound]
  split
  · apply Nat.le_succ
  · apply Nat.le_refl

theorem divRound_le (n d : Nat) :
  divRound n d ≤ n / d + 1
  := by
  rw [divRound]
  split
  · apply Nat.le_refl
  · apply Nat.le_succ

theorem divRound_mono {n m : Nat} (d : Nat) (h : n ≤ m) :
  divRound n d ≤ divRound m d
  := by
  obtain hlt | heq := (Nat.div_le_div_right (c := d) h).lt_or_eq
  · calc divRound n d
      _ ≤ n / d + 1 := divRound_le n d
      _ ≤ m / d := hlt
      _ ≤ divRound m d := div_le_divRound m d
  · -- with one quotient the greater number has the greater remainder
    have hrem : n % d ≤ m % d := by
      have hn := Nat.div_add_mod n d
      have hm := Nat.div_add_mod m d
      rw [← heq] at hm
      omega
    rw [divRound, divRound, ← heq]
    split
    · rw [if_pos (by omega)]
    · split
      · apply Nat.le_succ
      · apply Nat.le_refl

/-! ### Rounding an integer -/

theorem roundBinary_zero : roundBinary 0 = 0 := rfl

theorem roundBinary_of_log2_le {n : Nat} (h : n.log2 ≤ 52) :
  roundBinary n = n
  := by
  rw [roundBinary, Nat.sub_eq_zero_of_le h, Nat.pow_zero, divRound_one, Nat.mul_one]

theorem roundBinary_of_dvd {n : Nat} (h : 2 ^ (n.log2 - 52) ∣ n) :
  roundBinary n = n
  := by
  rw [roundBinary, divRound_of_dvd h, Nat.div_mul_cancel h]

/-- The integer that an integer with more bits is rounded to has 53 bits, or is the next power of
two. -/
theorem divRound_bounds {n : Nat} (h : 52 ≤ n.log2) :
  2 ^ 52 ≤ divRound n (2 ^ (n.log2 - 52)) ∧ divRound n (2 ^ (n.log2 - 52)) ≤ 2 ^ 53
  := by
  have hn : n ≠ 0 := by
    rintro rfl
    simp at h
  have hpos : 0 < 2 ^ (n.log2 - 52) := Nat.two_pow_pos _
  constructor
  · apply le_trans _ (div_le_divRound n _)
    rw [Nat.le_div_iff_mul_le hpos, ← Nat.pow_add, Nat.add_sub_cancel' h]
    apply Nat.log2_self_le hn
  · apply le_trans (divRound_le n _)
    apply (Nat.div_lt_iff_lt_mul hpos).mpr
    rw [← Nat.pow_add, show 53 + (n.log2 - 52) = n.log2 + 1 by omega]
    apply Nat.lt_log2_self

theorem two_pow_log2_le_roundBinary {n : Nat} (hn : n ≠ 0) :
  2 ^ n.log2 ≤ roundBinary n
  := by
  obtain h | h := Nat.le_total n.log2 52
  · rw [roundBinary_of_log2_le h]
    apply Nat.log2_self_le hn
  · calc 2 ^ n.log2
      _ = 2 ^ 52 * 2 ^ (n.log2 - 52) := by rw [← Nat.pow_add, Nat.add_sub_cancel' h]
      _ ≤ roundBinary n := Nat.mul_le_mul_right _ (divRound_bounds h).1

theorem roundBinary_le_two_pow (n : Nat) :
  roundBinary n ≤ 2 ^ (n.log2 + 1)
  := by
  obtain h | h := Nat.le_total n.log2 52
  · rw [roundBinary_of_log2_le h]
    apply Nat.lt_log2_self.le
  · calc roundBinary n
      _ ≤ 2 ^ 53 * 2 ^ (n.log2 - 52) := Nat.mul_le_mul_right _ (divRound_bounds h).2
      _ = 2 ^ (n.log2 + 1) := by
        rw [← Nat.pow_add, show 53 + (n.log2 - 52) = n.log2 + 1 by omega]

theorem log2_mono {n m : Nat} (h : n ≤ m) :
  n.log2 ≤ m.log2
  := by
  by_cases hn : n = 0
  · subst hn
    apply Nat.zero_le
  · apply (Nat.le_log2 (by omega)).mpr ((Nat.log2_self_le hn).trans h)

/-- Rounding keeps the order. -/
theorem roundBinary_mono {n m : Nat} (h : n ≤ m) :
  roundBinary n ≤ roundBinary m
  := by
  obtain hlt | heq := (log2_mono h).lt_or_eq
  · have hm : m ≠ 0 := by
      rintro rfl
      simp at hlt
    calc roundBinary n
      _ ≤ 2 ^ (n.log2 + 1) := roundBinary_le_two_pow n
      _ ≤ 2 ^ m.log2 := Nat.pow_le_pow_right (by decide) hlt
      _ ≤ roundBinary m := two_pow_log2_le_roundBinary hm
  · rw [roundBinary, roundBinary, heq]
    apply Nat.mul_le_mul_right _ (divRound_mono _ h)

/-- Rounding leaves what it has rounded. -/
theorem roundBinary_roundBinary (n : Nat) :
  roundBinary (roundBinary n) = roundBinary n
  := by
  obtain h | h := Nat.le_total n.log2 52
  · rw [roundBinary_of_log2_le h, roundBinary_of_log2_le h]
  · apply roundBinary_of_dvd
    obtain hlt | heq := (divRound_bounds h).2.lt_or_eq
    · -- as many bits as before
      apply Nat.dvd_trans _ (Nat.dvd_mul_left _ _)
      apply Nat.pow_dvd_pow
      have hround : roundBinary n < 2 ^ (n.log2 + 1) := by
        rw [show n.log2 + 1 = 53 + (n.log2 - 52) by omega, Nat.pow_add]
        apply Nat.mul_lt_mul_of_pos_right hlt (Nat.two_pow_pos _)
      have hlog : (roundBinary n).log2 < n.log2 + 1 := by
        apply (Nat.log2_lt _).mpr hround
        rw [roundBinary]
        apply Nat.mul_ne_zero _ (Nat.two_pow_pos _).ne'
        have := (divRound_bounds h).1
        omega
      omega
    · -- a power of two
      have hpow : roundBinary n = 2 ^ (n.log2 + 1) := by
        rw [roundBinary, heq, ← Nat.pow_add]
        congr 1
        omega
      rw [hpow, Nat.log2_two_pow]
      apply Nat.pow_dvd_pow
      omega

/-- At twice a rounded integer and above, no integer is rounded to it. -/
theorem lt_roundBinary {n m : Nat} (hn : n ≠ 0) (h : 2 * n ≤ m) :
  n < roundBinary m
  := by
  have hpow : 2 ^ (n.log2 + 1) ≤ m := by
    have := Nat.log2_self_le hn
    rw [Nat.pow_succ]
    omega
  have hround := roundBinary_mono hpow
  rw [roundBinary_of_dvd] at hround
  · apply Nat.lt_log2_self.trans_le hround
  · rw [Nat.log2_two_pow]
    apply Nat.pow_dvd_pow
    omega

/-! ### The double of an integer -/

/-- An integer and a double of the same value. -/
def Stands (n mant : Nat) (exp : Int) : Prop :=
  (fraction mant exp).1 = n * (fraction mant exp).2

/-- The double nearest to an integer that is not zero. -/
theorem ofFraction_one (neg : Bool) {n : Nat} (hn : n ≠ 0) (hlt : n < 2 ^ 128) :
  ∃ mant exp, ofFraction neg n 1 = .finite neg mant exp ∧ Stands (roundBinary n) mant exp
    ∧ exp = (n.log2 : Int) - 52 ∧ 2 ^ 52 ≤ mant ∧ mant ≤ 2 ^ 53
  := by
  rw [ofFraction_eq hn hlt, scale]
  obtain h | h := Nat.lt_or_ge n.log2 52
  · -- an integer of fewer bits is scaled up, and nothing is rounded
    have hexp : (-((n.log2 : Int) - 52)).toNat = 52 - n.log2 := by omega
    rw [if_neg (by omega), divRound_one]
    refine ⟨_, _, rfl, ?_, rfl, ?_, ?_⟩
    · have hzero : ((n.log2 : Int) - 52).toNat = 0 := by omega
      rw [Stands, fraction, roundBinary_of_log2_le h.le, hzero, Nat.pow_zero, Nat.mul_one]
    · dsimp only
      rw [hexp, show 2 ^ 52 = 2 ^ n.log2 * 2 ^ (52 - n.log2) by
        rw [← Nat.pow_add, Nat.add_sub_cancel' h.le]]
      apply Nat.mul_le_mul_right _ (Nat.log2_self_le hn)
    · dsimp only
      rw [hexp, show 2 ^ 53 = 2 ^ (n.log2 + 1) * 2 ^ (52 - n.log2) by
        rw [← Nat.pow_add, show n.log2 + 1 + (52 - n.log2) = 53 by omega]]
      apply Nat.mul_le_mul_right _ Nat.lt_log2_self.le
  · have hexp : ((n.log2 : Int) - 52).toNat = n.log2 - 52 := by omega
    rw [if_pos (by omega), hexp, Nat.one_mul]
    refine ⟨_, _, rfl, ?_, rfl, divRound_bounds h⟩
    have hzero : (-((n.log2 : Int) - 52)).toNat = 0 := by omega
    rw [Stands, fraction, roundBinary, hexp, hzero, Nat.pow_zero, Nat.mul_one]

theorem exists_ofFraction (neg : Bool) {n : Nat} (hlt : n < 2 ^ 128) :
  ∃ mant exp, ofFraction neg n 1 = .finite neg mant exp ∧ Stands (roundBinary n) mant exp
  := by
  by_cases hn : n = 0
  · subst hn
    use 0, 0, rfl
    rfl
  · obtain ⟨mant, exp, hof, hstands, -⟩ := ofFraction_one neg hn hlt
    use mant, exp

/-- A factor of two goes into the exponent. -/
theorem Stands.half {n mant : Nat} {exp : Int} (h : Stands n (2 * mant) exp) :
  Stands n mant (exp + 1)
  := by
  rw [Stands, fraction] at h ⊢
  obtain hneg | hpos := Int.lt_or_le exp 0
  · have hden : (-exp).toNat = (-(exp + 1)).toNat + 1 := by omega
    have hnum : exp.toNat = 0 := by omega
    have hnum' : (exp + 1).toNat = 0 := by omega
    rw [hden, hnum, Nat.pow_succ] at h
    rw [hnum']
    dsimp only at h ⊢
    rw [← Nat.mul_assoc] at h
    omega
  · have hden : (-exp).toNat = 0 := by omega
    have hden' : (-(exp + 1)).toNat = 0 := by omega
    have hnum : (exp + 1).toNat = exp.toNat + 1 := by omega
    rw [hden] at h
    rw [hden', hnum, Nat.pow_succ, ← h]
    dsimp only
    rw [Nat.mul_comm 2, Nat.mul_assoc, Nat.mul_comm 2]

theorem ofBits_normal {bits : UInt64} (neg : Bool) {exp mant : Nat} (hexp : exp ≠ 0)
    (hmax : exp < 2047) (hmant : mant < 2 ^ 52)
    (h : bits.toNat = (if neg then 2 ^ 63 else 0) + exp * 2 ^ 52 + mant) :
  ofBits bits = some (.finite neg (2 ^ 52 + mant) ((exp : Int) - 1075))
  := by
  have hsign : decide (bits.toNat / 2 ^ 63 = 1) = neg := by
    cases neg
    · simp only [h, Bool.false_eq_true, if_false, decide_eq_false_iff_not]
      omega
    · simp only [h, if_true, decide_eq_true_eq]
      omega
  have hfields : bits.toNat / 2 ^ 52 % 2 ^ 11 = exp ∧ bits.toNat % 2 ^ 52 = mant := by
    rw [h]
    constructor
    · split
      all_goals omega
    · split
      all_goals omega
  rw [ofBits, hsign, hfields.1, hfields.2]
  rw [if_neg (by omega), if_neg hexp]

/-- The bits of a double with all its 53 bits, or of the next power of two, stand for its value. -/
theorem exists_ofBits_toBits (neg : Bool) {n mant : Nat} {exp : Int} (hn : Stands n mant exp)
    (hlower : 2 ^ 52 ≤ mant) (hupper : mant ≤ 2 ^ 53) (hmin : -1000 ≤ exp) (hmax : exp ≤ 900) :
  ∃ mant' exp', ofBits (toBits (.finite neg mant exp)) = some (.finite neg mant' exp')
    ∧ Stands n mant' exp' ∧ mant' ≠ 0
  := by
  obtain ⟨e, he⟩ : ∃ e : Nat, exp = (e : Int) - 1074 := ⟨(exp + 1074).toNat, by omega⟩
  have hmant : mant ≠ 0 := by omega
  have hbits : (toBits (.finite neg mant exp)).toNat
      = (if neg then 2 ^ 63 else 0) + e * 2 ^ 52 + mant := by
    have heq : (exp + 1074).toNat = e := by omega
    rw [toBits, heq]
    simp only [if_neg hmant]
    rw [UInt64.toNat_ofNat_of_lt', Nat.add_assoc]
    change _ < 2 ^ 64
    split
    all_goals omega
  obtain hlt | rfl := hupper.lt_or_eq
  · use mant, exp
    have hfield : (toBits (.finite neg mant exp)).toNat
        = (if neg then 2 ^ 63 else 0) + (e + 1) * 2 ^ 52 + (mant - 2 ^ 52) := by
      rw [hbits]
      omega
    have hexp : ((e + 1 : Nat) : Int) - 1075 = exp := by omega
    rw [ofBits_normal neg (by omega) (by omega) (by omega) hfield, Nat.add_sub_cancel' hlower, hexp]
    apply And.intro rfl ⟨hn, hmant⟩
  · -- the carry goes into the exponent
    use 2 ^ 52, exp + 1
    have hfield : (toBits (.finite neg (2 ^ 53) exp)).toNat
        = (if neg then 2 ^ 63 else 0) + (e + 2) * 2 ^ 52 + 0 := by
      rw [hbits]
      omega
    have hexp : ((e + 2 : Nat) : Int) - 1075 = exp + 1 := by omega
    rw [ofBits_normal neg (by omega) (by omega) (by decide) hfield, Nat.add_zero, hexp]
    apply And.intro rfl ⟨Stands.half hn, by decide⟩

end Float64

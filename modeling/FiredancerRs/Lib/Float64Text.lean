import Mathlib.Data.Nat.Dist
import Mathlib.Data.Nat.Factorization.Basic
import FiredancerRs.Lib.Float64Bits

/-!
# The text of a double

A double is written with the fewest digits that are read as the double again, and of the decimals
with that many digits it is the nearest. The double nearest to an integer is written as the integer
exactly when the integer is that decimal (`text_iff`).
-/

namespace Float64

/-- Two doubles are the same. -/
def same : Float64 → Float64 → Bool
  | .finite neg mant exp, .finite neg' mant' exp' =>
    neg == neg' && (fraction mant exp).1 * (fraction mant' exp').2
      == (fraction mant' exp').1 * (fraction mant exp).2
  | .infinite neg, .infinite neg' => neg == neg'
  | _, _ => false

/-- The digits of the multiple of `10 ^ k` that is read as a double and is the nearest to it: the
one below or the one above. -/
def digitsAt (neg : Bool) (mant : Nat) (exp k : Int) : Option Nat :=
  let (num, den) := fraction mant exp
  let (p, q) := if 0 ≤ k then (num, den * 10 ^ k.toNat) else (num * 10 ^ (-k).toNat, den)
  let below := same (ofDecimal neg (p / q) k) (.finite neg mant exp)
  let above := same (ofDecimal neg (p / q + 1) k) (.finite neg mant exp)
  if below && (!above || decide (2 * (p % q) < q)) then
    some (p / q)
  else if above then
    some (p / q + 1)
  else
    none

/-- The digits for the greatest power of ten, from a number of steps above the least, that has
some. -/
def shortestFrom (neg : Bool) (mant : Nat) (exp : Int) : Nat → Nat × Int
  | 0 => (mant * 2 ^ exp.toNat * 5 ^ (-exp).toNat, -(-exp).toNat)
  | n + 1 =>
    match digitsAt neg mant exp ((n + 1 : Nat) - (-exp).toNat) with
    | some digits => (digits, (n + 1 : Nat) - (-exp).toNat)
    | none => shortestFrom neg mant exp n

/-- The fewest digits that are read as a double, with their power of ten. -/
def shortest (neg : Bool) (mant : Nat) (exp : Int) : Nat × Int :=
  let (num, den) := fraction mant exp
  shortestFrom neg mant exp (Nat.log 10 (num / den) + 1 + (-exp).toNat)

/-- `digits * 10 ^ k` without an exponent. -/
def positional (digits : Nat) (k : Int) : String :=
  if 0 ≤ k then
    toString (digits * 10 ^ k.toNat)
  else
    let frac := toString (digits % 10 ^ (-k).toNat)
    toString (digits / 10 ^ (-k).toNat) ++ "."
      ++ String.ofList (List.replicate ((-k).toNat - frac.length) '0') ++ frac

/-- The sign of a text. -/
def sign (neg : Bool) : String := if neg then "-" else ""

/-- The text of a double. -/
def text : Float64 → String
  | .finite neg mant exp =>
    sign neg ++
      if mant = 0 then
        "0"
      else
        let (digits, k) := shortest neg mant exp
        positional digits k
  | .infinite neg => sign neg ++ "inf"

example : (ofDecimal false 1 (-7)).text = "0.0000001" := by decide

example : (ofDecimal true 9007199254740993 0).text = "-9007199254740992" := by decide

/-! ### Decimals of an integer -/

/-- `digits * 10 ^ k` is rounded to an integer. -/
def ReadAs (n digits k : Nat) : Prop := roundBinary (digits * 10 ^ k) = n

instance (n digits k : Nat) : Decidable (ReadAs n digits k) :=
  inferInstanceAs (Decidable (_ = _))

/-- `digits * 10 ^ k` is rounded to an integer, and no other multiple of `10 ^ k` that is so is
nearer to it, or as near and greater. -/
def Nearest (n digits k : Nat) : Prop :=
  ReadAs n digits k ∧ ∀ digits', ReadAs n digits' k →
    Nat.dist (digits * 10 ^ k) n < Nat.dist (digits' * 10 ^ k) n
      ∨ (Nat.dist (digits * 10 ^ k) n = Nat.dist (digits' * 10 ^ k) n ∧ digits' ≤ digits)

/-- `digits * 10 ^ k` is rounded to an integer with as few digits as possible, and is the
nearest. -/
def Shortest (n digits k : Nat) : Prop :=
  Nearest n digits k ∧ ∀ digits', ¬ ReadAs n digits' (k + 1)

/-- The digits of the multiple of `10 ^ k` that is rounded to an integer and is the nearest to
it. -/
def gridDigits (n k : Nat) : Option Nat :=
  if ReadAs n (n / 10 ^ k) k ∧ (¬ ReadAs n (n / 10 ^ k + 1) k ∨ 2 * (n % 10 ^ k) < 10 ^ k) then
    some (n / 10 ^ k)
  else if ReadAs n (n / 10 ^ k + 1) k then
    some (n / 10 ^ k + 1)
  else
    none

variable {n k digits : Nat}

/-- Some multiple below is read as the integer only if the one next below is. -/
theorem ReadAs.below (hn : roundBinary n = n) (h : ReadAs n digits k) (hle : digits ≤ n / 10 ^ k) :
  ReadAs n (n / 10 ^ k) k
  := by
  have hlower := roundBinary_mono (Nat.mul_le_mul_right (10 ^ k) hle)
  have hupper := roundBinary_mono (Nat.div_mul_le_self n (10 ^ k))
  rw [ReadAs] at h ⊢
  omega

/-- Some multiple above is read as the integer only if the one next above is. -/
theorem ReadAs.above (hn : roundBinary n = n) (h : ReadAs n digits k) (hlt : n / 10 ^ k < digits) :
  ReadAs n (n / 10 ^ k + 1) k
  := by
  have hnext : n ≤ (n / 10 ^ k + 1) * 10 ^ k := by
    have := Nat.lt_div_mul_add (a := n) (b := 10 ^ k) (Nat.pow_pos (by decide))
    rw [Nat.add_mul, Nat.one_mul]
    omega
  have hlower := roundBinary_mono hnext
  have hupper := roundBinary_mono (Nat.mul_le_mul_right (10 ^ k) hlt)
  rw [ReadAs] at h ⊢
  rw [Nat.succ_eq_add_one] at hupper
  omega

theorem Nearest.unique {digits' : Nat} (h : Nearest n digits k) (h' : Nearest n digits' k) :
  digits = digits'
  := by
  have hle := h.2 digits' h'.1
  have hle' := h'.2 digits h.1
  omega

/-- The multiples next to an integer, and the others. -/
theorem dist_grid (n k digits : Nat) :
  (digits < n / 10 ^ k ∧ n % 10 ^ k + 10 ^ k ≤ Nat.dist (digits * 10 ^ k) n)
    ∨ (digits = n / 10 ^ k ∧ Nat.dist (digits * 10 ^ k) n = n % 10 ^ k)
    ∨ (digits = n / 10 ^ k + 1 ∧ Nat.dist (digits * 10 ^ k) n = 10 ^ k - n % 10 ^ k)
    ∨ (n / 10 ^ k + 1 < digits ∧ 10 ^ k - n % 10 ^ k + 10 ^ k ≤ Nat.dist (digits * 10 ^ k) n)
  := by
  have hmod : n % 10 ^ k < 10 ^ k := Nat.mod_lt n (Nat.pow_pos (by decide))
  have hdiv := Nat.div_add_mod' n (10 ^ k)
  obtain hlt | heq | hgt := Nat.lt_trichotomy digits (n / 10 ^ k)
  · left
    have hmul := Nat.mul_le_mul_right (10 ^ k) hlt
    rw [Nat.succ_mul] at hmul
    rw [Nat.dist]
    omega
  · right; left
    rw [heq, Nat.dist]
    omega
  · obtain heq | hgt := Nat.eq_or_lt_of_le hgt
    · right; right; left
      rw [← heq, Nat.succ_eq_add_one, Nat.add_mul, Nat.one_mul, Nat.dist]
      omega
    · right; right; right
      have hmul := Nat.mul_le_mul_right (10 ^ k) hgt
      rw [Nat.succ_mul, Nat.succ_mul] at hmul
      rw [Nat.dist]
      omega

theorem gridDigits_eq_none_iff (hn : roundBinary n = n) :
  gridDigits n k = none ↔ ∀ digits, ¬ ReadAs n digits k
  := by
  constructor
  · intro hnone digits hdigits
    rw [gridDigits] at hnone
    split at hnone
    · cases hnone
    · next hbelow =>
      split at hnone
      · cases hnone
      · next habove =>
        obtain hle | hlt := (Nat.lt_or_ge (n / 10 ^ k) digits).symm
        · apply hbelow ⟨hdigits.below hn hle, .inl habove⟩
        · apply habove (hdigits.above hn hlt)
  · intro hnone
    rw [gridDigits, if_neg (fun h => hnone _ h.1), if_neg (hnone _)]

/-- The digits found are the nearest. -/
theorem nearest_of_gridDigits (hn : roundBinary n = n) (h : gridDigits n k = some digits) :
  Nearest n digits k
  := by
  have hbelow := dist_grid n k (n / 10 ^ k)
  have habove := dist_grid n k (n / 10 ^ k + 1)
  rw [gridDigits] at h
  split at h
  · next hread =>
    obtain rfl := Option.some.inj h
    use hread.1
    intro digits' hdigits'
    have hdist := dist_grid n k digits'
    obtain hle | hlt := (Nat.lt_or_ge (n / 10 ^ k) digits').symm
    · omega
    · -- a multiple above is read as the integer too, so the one below is less than half a step away
      have hhalf := hread.2.resolve_left (not_not_intro (hdigits'.above hn hlt))
      omega
  · next hread =>
    split at h
    · next hread' =>
      obtain rfl := Option.some.inj h
      use hread'
      intro digits' hdigits'
      have hdist := dist_grid n k digits'
      obtain hle | hlt := (Nat.lt_or_ge (n / 10 ^ k) digits').symm
      · -- the one below is read as the integer too, so it is at least half a step away
        have hhalf : ¬ 2 * (n % 10 ^ k) < 10 ^ k := fun h => hread ⟨hdigits'.below hn hle, .inr h⟩
        omega
      · omega
    · cases h

theorem gridDigits_eq_some_iff (hn : roundBinary n = n) :
  gridDigits n k = some digits ↔ Nearest n digits k
  := by
  constructor
  · apply nearest_of_gridDigits hn
  · intro hnearest
    cases hgrid : gridDigits n k with
    | none => apply absurd hnearest.1 ((gridDigits_eq_none_iff hn).mp hgrid digits)
    | some digits' => rw [(nearest_of_gridDigits hn hgrid).unique hnearest]

/-! ### The search -/

variable {mant : Nat} {exp : Int}

theorem same_eq (neg : Bool) {m mant' : Nat} {exp' : Int} (hm : Stands m mant' exp')
    (hn : Stands n mant exp) :
  same (.finite neg mant' exp') (.finite neg mant exp) = decide (m = n)
  := by
  have hden : 0 < (fraction mant exp).2 := Nat.two_pow_pos _
  have hden' : 0 < (fraction mant' exp').2 := Nat.two_pow_pos _
  have hmul : m * (fraction mant' exp').2 * (fraction mant exp).2
      = n * (fraction mant exp).2 * (fraction mant' exp').2 ↔ m = n := by
    rw [Nat.mul_assoc, Nat.mul_assoc, Nat.mul_comm (fraction mant' exp').2]
    apply Nat.mul_left_inj (Nat.mul_pos hden hden').ne'
  rw [Stands] at hm hn
  rw [same, hm, hn, beq_self_eq_true, Bool.true_and, Bool.eq_iff_iff, beq_iff_eq, hmul,
    decide_eq_true_iff]

theorem same_ofDecimal (neg : Bool) (hn : Stands n mant exp) (hlt : digits * 10 ^ k < 2 ^ 128) :
  same (ofDecimal neg digits k) (.finite neg mant exp) = decide (ReadAs n digits k)
  := by
  obtain ⟨mant', exp', hof, hstands⟩ := exists_ofFraction neg hlt
  rw [ofDecimal_natCast, hof, same_eq neg hstands hn]
  rfl

theorem digitsAt_natCast (neg : Bool) (hn : Stands n mant exp) (hlt : n + 10 ^ k < 2 ^ 128) :
  digitsAt neg mant exp k = gridDigits n k
  := by
  have hden : 0 < (fraction mant exp).2 := Nat.two_pow_pos _
  have hfloor := Nat.div_mul_le_self n (10 ^ k)
  have habove : (n / 10 ^ k + 1) * 10 ^ k < 2 ^ 128 := by
    rw [Nat.add_mul, Nat.one_mul]
    apply Nat.lt_of_le_of_lt (Nat.add_le_add_right hfloor _) hlt
  have hbelow : n / 10 ^ k * 10 ^ k < 2 ^ 128 := by
    apply Nat.lt_of_le_of_lt (Nat.mul_le_mul_right _ (Nat.le_succ _)) habove
  have hdiv : (fraction mant exp).1 / ((fraction mant exp).2 * 10 ^ k) = n / 10 ^ k := by
    rw [hn, Nat.mul_comm n]
    apply Nat.mul_div_mul_left _ _ hden
  have hhalf : 2 * ((fraction mant exp).1 % ((fraction mant exp).2 * 10 ^ k))
      < (fraction mant exp).2 * 10 ^ k ↔ 2 * (n % 10 ^ k) < 10 ^ k := by
    rw [hn, Nat.mul_comm n, Nat.mul_mod_mul_left, Nat.mul_left_comm]
    apply Nat.mul_lt_mul_left hden
  rw [digitsAt]
  simp only [Int.natCast_nonneg, if_true, Int.toNat_natCast, hdiv, hhalf,
    same_ofDecimal neg hn hbelow, same_ofDecimal neg hn habove]
  rw [gridDigits]
  simp

/-- From the power of ten `10 ^ k` down, the search finds the greatest one that has digits. -/
theorem shortestFrom_spec (neg : Bool) (hn : Stands n mant exp) (hround : roundBinary n = n) (k : Nat)
    (hlt : n + 10 ^ k < 2 ^ 128) :
  ∃ digits j : Nat, shortestFrom neg mant exp (k + (-exp).toNat) = (digits, (j : Int)) ∧ j ≤ k
    ∧ Nearest n digits j ∧ ∀ i, j < i → i ≤ k → ∀ digits', ¬ ReadAs n digits' i
  := by
  induction k with
  | zero =>
    have hself : gridDigits n 0 = some n := by
      rw [gridDigits, if_pos]
      · simp
      · simp [ReadAs, hround, Nat.mod_one]
    refine ⟨n, 0, ?_, Nat.le_refl 0, (gridDigits_eq_some_iff hround).mp hself,
      fun i hi hle => absurd hle (Nat.not_le.mpr hi)⟩
    rw [Nat.zero_add]
    cases hbelow : (-exp).toNat with
    | zero =>
      rw [Stands, fraction, hbelow] at hn
      rw [shortestFrom, hbelow]
      simpa using hn
    | succ l =>
      have hat := digitsAt_natCast neg hn hlt
      rw [shortestFrom, hbelow, Int.sub_self, ← Int.natCast_zero, hat, hself]
  | succ k ih =>
    have hpow : 10 ^ k ≤ 10 ^ (k + 1) := Nat.pow_le_pow_right (by decide) (Nat.le_succ k)
    have hat := digitsAt_natCast neg hn hlt
    have hindex : ((k + (-exp).toNat + 1 : Nat) : Int) - (-exp).toNat = (k + 1 : Nat) := by omega
    rw [Nat.succ_add, shortestFrom, hindex, hat]
    cases hgrid : gridDigits n (k + 1) with
    | some digits =>
      refine ⟨digits, k + 1, rfl, Nat.le_refl _, (gridDigits_eq_some_iff hround).mp hgrid,
        fun i hi hle => absurd hle (Nat.not_le.mpr hi)⟩
    | none =>
      obtain ⟨digits, j, hfrom, hj, hnearest, hnone⟩ := ih (by omega)
      refine ⟨digits, j, hfrom, Nat.le_succ_of_le hj, hnearest, fun i hi hle => ?_⟩
      obtain hlt | rfl := hle.lt_or_eq
      · apply hnone i hi (Nat.le_of_lt_succ hlt)
      · apply (gridDigits_eq_none_iff hround).mp hgrid

/-- A multiple of a power of ten is one of each smaller power. -/
theorem ReadAs.of_le {i : Nat} (h : ReadAs n digits k) (hle : i ≤ k) :
  ReadAs n (digits * 10 ^ (k - i)) i
  := by
  rw [ReadAs, Nat.mul_assoc, ← Nat.pow_add, Nat.sub_add_cancel hle]
  apply h

theorem Shortest.le {digits' j : Nat} (h : Shortest n digits k) (h' : ReadAs n digits' j) :
  j ≤ k
  := by
  apply Nat.le_of_not_lt
  intro hlt
  apply h.2 _ (h'.of_le hlt)

theorem Shortest.unique {digits' k' : Nat} (h : Shortest n digits k) (h' : Shortest n digits' k') :
  digits = digits' ∧ k = k'
  := by
  obtain rfl := Nat.le_antisymm (h'.le h.1.1) (h.le h'.1.1)
  apply And.intro (h.1.unique h'.1) rfl

/-- Above the digits of an integer no power of ten has a multiple that is read as the integer. -/
theorem not_readAs_of_log (hn : n ≠ 0) :
  ¬ ReadAs n digits (Nat.log 10 n + 2)
  := by
  intro hread
  rw [ReadAs] at hread
  obtain rfl | hpos := Nat.eq_zero_or_pos digits
  · rw [Nat.zero_mul, roundBinary_zero] at hread
    apply hn hread.symm
  · have hlog := Nat.lt_pow_succ_log_self (b := 10) (by decide) n
    have hpow : 10 ^ (Nat.log 10 n + 2) = 10 ^ (Nat.log 10 n + 1) * 10 := Nat.pow_succ ..
    have hmul := Nat.mul_le_mul_right (10 ^ (Nat.log 10 n + 2)) hpos
    rw [Nat.one_mul] at hmul
    have hround := lt_roundBinary hn (m := digits * 10 ^ (Nat.log 10 n + 2)) (by omega)
    omega

theorem shortest_spec (neg : Bool) (hn : Stands n mant exp) (hround : roundBinary n = n) (hzero : n ≠ 0)
    (hlt : n < 2 ^ 100) :
  ∃ digits k : Nat, shortest neg mant exp = (digits, (k : Int)) ∧ Shortest n digits k
  := by
  have hden : 0 < (fraction mant exp).2 := Nat.two_pow_pos _
  have hdiv : (fraction mant exp).1 / (fraction mant exp).2 = n := by
    rw [hn, Nat.mul_div_cancel _ hden]
  have hlog : 10 ^ (Nat.log 10 n + 1) ≤ 10 * n := by
    rw [Nat.pow_succ, Nat.mul_comm 10]
    apply Nat.mul_le_mul_right _ (Nat.pow_log_le_self 10 hzero)
  obtain ⟨digits, k, hfrom, hk, hnearest, hnone⟩ :=
    shortestFrom_spec neg hn hround (Nat.log 10 n + 1) (by omega)
  refine ⟨digits, k, ?_, hnearest, fun digits' hread => ?_⟩
  · rw [← hfrom, ← hdiv]
    rfl
  · obtain heq | hlt := Nat.eq_or_lt_of_le hk
    · rw [heq] at hread
      apply not_readAs_of_log hzero hread
    · apply hnone (k + 1) (Nat.lt_succ_self k) hlt digits' hread

/-! ### The text of an integer -/

/-- An integer is the shortest decimal that is rounded to the integer of at most 53 bits nearest to
it. -/
def IsShortest (n : Nat) : Prop :=
  n = 0 ∨ ∃ digits k, n = digits * 10 ^ k ∧ Shortest (roundBinary n) digits k

theorem toString_injective {n m : Nat} (h : toString n = toString m) :
  n = m
  := by
  rw [Nat.toString_eq_ofList_toDigits, Nat.toString_eq_ofList_toDigits, String.ofList_inj] at h
  rw [← Nat.ofDigitChars_ten_toDigits (n := n), h, Nat.ofDigitChars_ten_toDigits]

/-- The double nearest to an integer, through its bits, is written as the integer exactly when that
is the shortest decimal. -/
theorem text_iff (neg : Bool) (hlt : n < 2 ^ 64) :
  ∃ x, ofBits (ofFraction neg n 1).toBits = some x
    ∧ (x.text = sign neg ++ toString n ↔ IsShortest n)
  := by
  by_cases hn : n = 0
  · subst hn
    use .finite neg 0 (-1074)
    constructor
    · cases neg
      · rfl
      · rfl
    · apply iff_of_true rfl (.inl rfl)
  obtain ⟨mant, exp, hof, hstands, hexp, hlower, hupper⟩ := ofFraction_one neg hn (by omega)
  have hlog : n.log2 < 64 := (Nat.log2_lt hn).mpr hlt
  obtain ⟨mant', exp', hbits, hstands', hmant'⟩ :=
    exists_ofBits_toBits neg hstands hlower hupper (by omega) (by omega)
  have hzero : roundBinary n ≠ 0 := by
    have hpow := two_pow_log2_le_roundBinary hn
    have hpos := Nat.two_pow_pos n.log2
    omega
  have hbound : roundBinary n < 2 ^ 100 := by
    apply Nat.lt_of_le_of_lt (roundBinary_le_two_pow n)
    apply Nat.pow_lt_pow_right (by decide) (by omega)
  obtain ⟨digits, k, hshortest, hspec⟩ :=
    shortest_spec neg hstands' (roundBinary_roundBinary n) hzero hbound
  have htext : text (.finite neg mant' exp') = sign neg ++ toString (digits * 10 ^ k) := by
    rw [text, if_neg hmant', hshortest]
    dsimp only
    rw [positional, if_pos (Int.natCast_nonneg k), Int.toNat_natCast]
  rw [hof]
  use .finite neg mant' exp', hbits
  rw [htext, String.append_right_inj]
  constructor
  · intro htext
    right
    use digits, k, (toString_injective htext).symm
  · rintro (hzero | ⟨digits', k', heq, hspec'⟩)
    · apply absurd hzero hn
    · obtain ⟨rfl, rfl⟩ := hspec.unique hspec'
      rw [← heq]

/-- An integer of at most 53 bits is the shortest decimal. -/
theorem isShortest_of_lt (hlt : n < 2 ^ 53) :
  IsShortest n
  := by
  by_cases hn : n = 0
  · apply Or.inl hn
  have hlog : n.log2 < 53 := (Nat.log2_lt hn).mpr hlt
  have hself : roundBinary n = n := roundBinary_of_log2_le (by omega)
  -- an integer that is read as this one has no more bits, so it is this one
  have hread {digits k : Nat} (h : ReadAs n digits k) : digits * 10 ^ k = n := by
    obtain hle | hgt := Nat.lt_or_ge (digits * 10 ^ k).log2 53
    · rw [ReadAs, roundBinary_of_log2_le (by omega)] at h
      apply h
    · have hzero : digits * 10 ^ k ≠ 0 := by
        intro hzero
        rw [hzero] at hgt
        simp at hgt
      have hpow := two_pow_log2_le_roundBinary hzero
      have hmono : 2 ^ 53 ≤ 2 ^ (digits * 10 ^ k).log2 := Nat.pow_le_pow_right (by decide) hgt
      rw [ReadAs] at h
      omega
  obtain ⟨k, digits, hdigits, rfl⟩ := Nat.exists_eq_pow_mul_and_not_dvd hn 10 (by decide)
  right
  rw [hself]
  refine ⟨digits, k, Nat.mul_comm .., ⟨?_, ?_⟩, ?_⟩
  · rw [ReadAs, Nat.mul_comm, hself]
  · intro digits' hdigits'
    right
    have heq : digits' = digits := by
      apply Nat.mul_right_cancel (Nat.pow_pos (n := k) (by decide : 0 < 10))
      rw [hread hdigits', Nat.mul_comm]
    rw [heq]
    apply And.intro rfl (Nat.le_refl _)
  · intro digits' hdigits'
    apply hdigits
    use digits'
    apply Nat.mul_left_cancel (Nat.pow_pos (n := k) (by decide : 0 < 10))
    rw [← hread hdigits', Nat.pow_succ, Nat.mul_comm digits', Nat.mul_assoc]

end Float64

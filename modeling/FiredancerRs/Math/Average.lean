import FiredancerRs.Lib.Checked
import Mathlib.Data.Nat.Bitwise

/-!
# Averages

The functions `avg2_*` of the module `avg`. Those of narrow types add in 64 bits, and those of
64-bit types add the halves and the bit that both lose. All of them are exact (`avg2_exact`).
-/

namespace FdMath

/-- The average of two words as those of narrower types are computed. -/
def widened (x y : UInt64) : Option UInt64 := do
  let sum ← Checked.add x y
  some (sum >>> 1)

/-- The average of two words with a sign as those of narrower types are computed. -/
def widenedSigned (x y : Int64) : Option Int64 := do
  let sum ← Checked.addSigned x y
  some (sum >>> 1)

/-- `avg2_u8` -/
def avg2U8 (x y : UInt8) : Option UInt8 :=
  (widened x.toUInt64 y.toUInt64).map UInt64.toUInt8

/-- `avg2_u16` -/
def avg2U16 (x y : UInt16) : Option UInt16 :=
  (widened x.toUInt64 y.toUInt64).map UInt64.toUInt16

/-- `avg2_u32` -/
def avg2U32 (x y : UInt32) : Option UInt32 :=
  (widened x.toUInt64 y.toUInt64).map UInt64.toUInt32

/-- `avg2_u64` -/
def avg2U64 (x y : UInt64) : Option UInt64 := do
  let sum ← Checked.add (x >>> 1) (y >>> 1)
  Checked.add sum (x &&& y &&& 1)

/-- `avg2_i8` -/
def avg2I8 (x y : Int8) : Option Int8 :=
  (widenedSigned x.toInt64 y.toInt64).map Int64.toInt8

/-- `avg2_i16` -/
def avg2I16 (x y : Int16) : Option Int16 :=
  (widenedSigned x.toInt64 y.toInt64).map Int64.toInt16

/-- `avg2_i32` -/
def avg2I32 (x y : Int32) : Option Int32 :=
  (widenedSigned x.toInt64 y.toInt64).map Int64.toInt32

/-- `avg2_i64` -/
def avg2I64 (x y : Int64) : Option Int64 := do
  let sum ← Checked.addSigned (x >>> 1) (y >>> 1)
  Checked.addSigned sum (x &&& y &&& 1)

/-- A function gives the average of any two elements, rounded down, by their values. -/
def Averages {α : Type} (value : α → Int) (avg2 : α → α → Option α) : Prop :=
  ∀ x y, ∃ avg, avg2 x y = some avg ∧ value avg = (value x + value y).fdiv 2
    ∧ min (value x) (value y) ≤ value avg ∧ value avg ≤ max (value x) (value y)

/-- An average lies between the elements. -/
theorem Averages.of_value {α : Type} {value : α → Int} {avg2 : α → α → Option α}
    (h : ∀ x y, ∃ avg, avg2 x y = some avg ∧ value avg = (value x + value y) / 2) :
  Averages value avg2
  := by
  intro x y
  obtain ⟨avg, havg, hvalue⟩ := h x y
  use avg, havg
  rw [Int.fdiv_eq_ediv_of_nonneg _ (by decide)]
  use hvalue
  omega

/-! ### Halves and lost bits -/

theorem toNat_half (x : UInt64) :
  (x >>> 1).toNat = x.toNat / 2
  := by
  rw [UInt64.toNat_shiftRight, UInt64.toNat_one, Nat.shiftRight_eq_div_pow]

theorem toInt_half (x : Int64) :
  (x >>> 1).toInt = x.toInt / 2
  := by
  rw [← Int64.toInt_toBitVec, Int64.toBitVec_shiftRight]
  change (x.toBitVec.sshiftRight 1).toInt = x.toInt / 2
  rw [BitVec.toInt_sshiftRight, Int.shiftRight_eq_div_pow, Int64.toInt_toBitVec]
  rfl

/-- The last bit of both numbers is the product of their last bits. -/
theorem and_and_one (m n : Nat) :
  m &&& n &&& 1 = (m % 2) * (n % 2)
  := by
  rw [Nat.and_one_is_mod]
  apply (Nat.and_mod_two_pow (n := 1)).trans
  rw [pow_one]
  obtain hm | hm := Nat.mod_two_eq_zero_or_one m
  · rw [hm, zero_mul, Nat.zero_and]
  · rw [hm, one_mul, Nat.one_and_eq_mod_two, Nat.mod_mod]

theorem lost_le_one (m n : Nat) :
  (m % 2) * (n % 2) ≤ 1
  := Nat.mul_le_mul (Nat.le_of_lt_succ (Nat.mod_lt m Nat.two_pos))
    (Nat.le_of_lt_succ (Nat.mod_lt n Nat.two_pos))

theorem toNat_lost (x y : UInt64) :
  (x &&& y &&& 1).toNat = (x.toNat % 2) * (y.toNat % 2)
  := by
  rw [UInt64.toNat_and, UInt64.toNat_and, UInt64.toNat_one, and_and_one]

/-- A word with a sign is even when its bits are those of an even number. -/
theorem toInt_mod_two (x : Int64) :
  x.toInt % 2 = (x.toBitVec.toNat % 2 : Nat)
  := by
  rw [← Int64.toInt_toBitVec, BitVec.toInt_eq_toNat_cond]
  split
  · rfl
  · omega

theorem toInt_lost (x y : Int64) :
  (x &&& y &&& 1).toInt = (x.toInt % 2) * (y.toInt % 2)
  := by
  have hbits : (x &&& y &&& 1).toBitVec.toNat = (x.toBitVec.toNat % 2) * (y.toBitVec.toNat % 2) :=
    and_and_one x.toBitVec.toNat y.toBitVec.toNat
  have hsmall := lost_le_one x.toBitVec.toNat y.toBitVec.toNat
  rw [← Int64.toInt_toBitVec, BitVec.toInt_eq_toNat_of_lt (by omega), hbits, toInt_mod_two,
    toInt_mod_two, Int.natCast_mul]

/-- The halves of two numbers and the bit that both lose add up to half of the sum. -/
theorem halves_add (m n : Int) :
  m / 2 + n / 2 + (m % 2) * (n % 2) = (m + n) / 2
  := by
  obtain hm | hm := Int.emod_two_eq_zero_or_one m
  · rw [hm, Int.zero_mul]
    omega
  · rw [hm, Int.one_mul]
    omega

/-! ### The types -/

theorem widened_spec {x y : UInt64} (h : x.toNat + y.toNat < 2 ^ 64) :
  ∃ avg, widened x y = some avg ∧ avg.toNat = (x.toNat + y.toNat) / 2
  := by
  obtain ⟨sum, hsum, hvalue⟩ := Checked.add_spec h
  use sum >>> 1, Checked.bind_of_eq_some hsum
  rw [toNat_half, hvalue]

theorem widenedSigned_spec {x y : Int64} (hle : -2 ^ 63 ≤ x.toInt + y.toInt)
    (hlt : x.toInt + y.toInt < 2 ^ 63) :
  ∃ avg, widenedSigned x y = some avg ∧ avg.toInt = (x.toInt + y.toInt) / 2
  := by
  obtain ⟨sum, hsum, hvalue⟩ := Checked.addSigned_spec hle hlt
  use sum >>> 1, Checked.bind_of_eq_some hsum
  rw [toInt_half, hvalue]

/-- A narrow type whose elements widen to words, with the average of the words narrowed back. -/
theorem averages_widened {α : Type} {widen : α → UInt64} {narrow : UInt64 → α} {value : α → Nat}
    (bound : Nat) (hbound : 2 * bound ≤ 2 ^ 64) (hlt : ∀ x, value x < bound)
    (hwiden : ∀ x, (widen x).toNat = value x)
    (hnarrow : ∀ w, w.toNat < bound → value (narrow w) = w.toNat) :
  Averages (fun x => (value x : Int)) fun x y => (widened (widen x) (widen y)).map narrow
  := by
  apply Averages.of_value
  intro x y
  have hx := hlt x
  have hy := hlt y
  obtain ⟨avg, havg, hvalue⟩ := widened_spec (x := widen x) (y := widen y) (by
    rw [hwiden, hwiden]
    omega)
  rw [hwiden, hwiden] at hvalue
  use narrow avg, by rw [havg, Option.map_some]
  rw [hnarrow avg (by omega), hvalue]
  omega

theorem averages_widenedSigned {α : Type} {widen : α → Int64} {narrow : Int64 → α} {value : α → Int}
    (bound : Int) (hbound : 2 * bound ≤ 2 ^ 63) (hle : ∀ x, -bound ≤ value x)
    (hlt : ∀ x, value x < bound) (hwiden : ∀ x, (widen x).toInt = value x)
    (hnarrow : ∀ w, -bound ≤ w.toInt → w.toInt < bound → value (narrow w) = w.toInt) :
  Averages value fun x y => (widenedSigned (widen x) (widen y)).map narrow
  := by
  apply Averages.of_value
  intro x y
  have hx := hlt x
  have hy := hlt y
  have hx' := hle x
  have hy' := hle y
  have hmin : -2 ^ 63 ≤ (widen x).toInt + (widen y).toInt := by
    rw [hwiden, hwiden]
    omega
  have hmax : (widen x).toInt + (widen y).toInt < 2 ^ 63 := by
    rw [hwiden, hwiden]
    omega
  obtain ⟨avg, havg, hvalue⟩ := widenedSigned_spec hmin hmax
  rw [hwiden, hwiden] at hvalue
  use narrow avg, by rw [havg, Option.map_some]
  rw [hnarrow avg (by omega) (by omega), hvalue]

theorem averages_avg2U64 :
  Averages (fun x => (x.toNat : Int)) avg2U64
  := by
  apply Averages.of_value
  intro x y
  have hx := x.toNat_lt
  have hy := y.toNat_lt
  have hlost := lost_le_one x.toNat y.toNat
  obtain ⟨sum, hsum, hsumValue⟩ := Checked.add_spec (a := x >>> 1) (b := y >>> 1) (by
    rw [toNat_half, toNat_half]
    omega)
  rw [toNat_half, toNat_half] at hsumValue
  obtain ⟨avg, havg, hvalue⟩ := Checked.add_spec (a := sum) (b := x &&& y &&& 1) (by
    rw [toNat_lost, hsumValue]
    omega)
  rw [toNat_lost, hsumValue] at hvalue
  use avg, (Checked.bind_of_eq_some hsum).trans havg
  rw [hvalue, ← halves_add]
  push_cast
  rfl

theorem averages_avg2I64 :
  Averages Int64.toInt avg2I64
  := by
  apply Averages.of_value
  intro x y
  have hx := x.toInt_lt
  have hy := y.toInt_lt
  have hx' := x.le_toInt
  have hy' := y.le_toInt
  have hlost : (x.toInt % 2) * (y.toInt % 2)
      = ((x.toBitVec.toNat % 2) * (y.toBitVec.toNat % 2) : Nat) := by
    rw [toInt_mod_two, toInt_mod_two, Int.natCast_mul]
  have hsmall := lost_le_one x.toBitVec.toNat y.toBitVec.toNat
  have havg := halves_add x.toInt y.toInt
  obtain ⟨sum, hsum, hsumValue⟩ := Checked.addSigned_spec (a := x >>> 1) (b := y >>> 1)
    (by rw [toInt_half, toInt_half]; omega) (by rw [toInt_half, toInt_half]; omega)
  rw [toInt_half, toInt_half] at hsumValue
  obtain ⟨avg, havg, hvalue⟩ := Checked.addSigned_spec (a := sum) (b := x &&& y &&& 1)
    (by rw [toInt_lost, hsumValue]; omega) (by rw [toInt_lost, hsumValue]; omega)
  rw [toInt_lost, hsumValue, halves_add] at hvalue
  exact ⟨avg, (Checked.bind_of_eq_some hsum).trans havg, hvalue⟩

/-- Every function is exact on all pairs of its type. -/
theorem avg2_exact :
  Averages (fun x => (x.toNat : Int)) avg2U8
    ∧ Averages (fun x => (x.toNat : Int)) avg2U16
    ∧ Averages (fun x => (x.toNat : Int)) avg2U32
    ∧ Averages (fun x => (x.toNat : Int)) avg2U64
    ∧ Averages Int8.toInt avg2I8
    ∧ Averages Int16.toInt avg2I16
    ∧ Averages Int32.toInt avg2I32
    ∧ Averages Int64.toInt avg2I64
  := by
  refine ⟨?_, ?_, ?_, averages_avg2U64, ?_, ?_, ?_, averages_avg2I64⟩
  · apply averages_widened (2 ^ 8) (by decide) UInt8.toNat_lt UInt8.toNat_toUInt64
    intro w hw
    rw [UInt64.toNat_toUInt8, Nat.mod_eq_of_lt hw]
  · apply averages_widened (2 ^ 16) (by decide) UInt16.toNat_lt UInt16.toNat_toUInt64
    intro w hw
    rw [UInt64.toNat_toUInt16, Nat.mod_eq_of_lt hw]
  · apply averages_widened (2 ^ 32) (by decide) UInt32.toNat_lt UInt32.toNat_toUInt64
    intro w hw
    rw [UInt64.toNat_toUInt32, Nat.mod_eq_of_lt hw]
  · apply averages_widenedSigned (2 ^ 7) (by decide) Int8.le_toInt Int8.toInt_lt
      Int8.toInt_toInt64
    intro w hle hlt
    rw [Int64.toInt_toInt8, Int.bmod_eq_of_le hle hlt]
  · apply averages_widenedSigned (2 ^ 15) (by decide) Int16.le_toInt Int16.toInt_lt
      Int16.toInt_toInt64
    intro w hle hlt
    rw [Int64.toInt_toInt16, Int.bmod_eq_of_le hle hlt]
  · apply averages_widenedSigned (2 ^ 31) (by decide) Int32.le_toInt Int32.toInt_lt
      Int32.toInt_toInt64
    intro w hle hlt
    rw [Int64.toInt_toInt32, Int.bmod_eq_of_le hle hlt]

end FdMath

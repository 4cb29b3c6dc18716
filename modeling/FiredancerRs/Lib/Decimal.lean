import Mathlib.Data.Nat.Digits.Lemmas
import FiredancerRs.Lib.Ascii

/-!
# Decimal numerals

The decimal numeral of a number as bytes (`render`) and the number that digits stand for
(`value`): the numeral of a number stands for it (`value_render`).
-/

namespace Decimal

/-- The byte of a digit. -/
def digit (d : Nat) : UInt8 := Ascii.zero + UInt8.ofNat d

/-- The decimal numeral of a number. -/
def render (n : Nat) : List UInt8 :=
  if n = 0 then [Ascii.zero] else ((Nat.digits 10 n).map digit).reverse

/-- The number that digits stand for. -/
def value (digits : List UInt8) : Nat :=
  digits.foldl (fun n c => 10 * n + (c.toNat - Ascii.zero.toNat)) 0

theorem toNat_digit {d : Nat} (h : d < 10) :
  (digit d).toNat = 48 + d
  := by
  have hd : (UInt8.ofNat d).toNat = d := by
    rw [UInt8.toNat_ofNat']
    omega
  rw [digit, UInt8.toNat_add, hd]
  change (48 + d) % 2 ^ 8 = 48 + d
  omega

theorem isDigit_digit {d : Nat} (h : d < 10) :
  Ascii.isDigit (digit d) = true
  := by
  have hd := toNat_digit h
  simp only [Ascii.isDigit, Bool.and_eq_true, decide_eq_true_iff, UInt8.le_iff_toNat_le, hd]
  constructor
  · change 48 ≤ 48 + d
    omega
  · change 48 + d ≤ 57
    omega

theorem render_ne_nil (n : Nat) :
  render n ≠ []
  := by
  rw [render]
  split
  · simp
  · next hn => simpa using Nat.digits_ne_nil_iff_ne_zero.mpr hn

/-- A numeral is made of digits. -/
theorem isDigit_of_mem_render {n : Nat} {c : UInt8} (h : c ∈ render n) :
  Ascii.isDigit c = true
  := by
  rw [render] at h
  split at h
  · obtain rfl := List.mem_singleton.mp h
    rfl
  · obtain ⟨d, hd, rfl⟩ := List.mem_map.mp (List.mem_reverse.mp h)
    apply isDigit_digit (Nat.digits_lt_base (by decide) hd)

theorem digit_eq_zero {d : Nat} (hd : d < 10) (h : digit d = Ascii.zero) :
  d = 0
  := by
  have htoNat := toNat_digit hd
  rw [h] at htoNat
  change 48 = 48 + d at htoNat
  omega

/-- A numeral has no leading zero. -/
theorem render_no_leading_zero (n : Nat) :
  render n = [Ascii.zero] ∨ (render n).head? ≠ some Ascii.zero
  := by
  rw [render]
  split
  · exact .inl rfl
  · next hn =>
    right
    have hne : Nat.digits 10 n ≠ [] := Nat.digits_ne_nil_iff_ne_zero.mpr hn
    rw [List.head?_reverse, List.getLast?_map, List.getLast?_eq_some_getLast hne]
    intro hzero
    have hlast := Nat.digits_lt_base (b := 10) (by decide) (List.getLast_mem hne)
    apply Nat.getLast_digit_ne_zero 10 hn (digit_eq_zero hlast (Option.some.inj hzero))

/-- A number below a power of ten has no more digits than that. -/
theorem length_render_le {n k : Nat} (h : n < 10 ^ k) (hk : 0 < k) :
  (render n).length ≤ k
  := by
  rw [render]
  split
  · apply hk
  · rw [List.length_reverse, List.length_map]
    apply (Nat.digits_length_le_iff (by decide) n).mpr h

/-- A greater number has no fewer digits. -/
theorem length_render_mono {m n : Nat} (h : m ≤ n) :
  (render m).length ≤ (render n).length
  := by
  by_cases hm : m = 0
  · subst hm
    apply List.length_pos_of_ne_nil (render_ne_nil n)
  · have hn : n ≠ 0 := by omega
    rw [render, render, if_neg hm, if_neg hn]
    simp only [List.length_reverse, List.length_map]
    apply Nat.le_length_digits_le 10 m n h

theorem value_reverse_map :
  ∀ {ds : List Nat}, (∀ d ∈ ds, d < 10) → value ((ds.map digit).reverse) = Nat.ofDigits 10 ds
  | [], _ => rfl
  | d :: ds, h => by
      have ih := value_reverse_map fun d' hd' => h d' (List.mem_cons_of_mem d hd')
      have hd := toNat_digit (h d List.mem_cons_self)
      rw [value] at ih
      rw [List.map_cons, List.reverse_cons, value, List.foldl_append, ih, List.foldl_cons,
        List.foldl_nil, hd, Nat.ofDigits_cons]
      change 10 * _ + (48 + d - 48) = d + 10 * _
      omega

/-- The numeral of a number stands for it. -/
theorem value_render (n : Nat) :
  value (render n) = n
  := by
  rw [render]
  split
  · next hn =>
    rw [hn]
    rfl
  · rw [value_reverse_map fun d hd => Nat.digits_lt_base (by omega) hd, Nat.ofDigits_digits]

/-- The text stands for the number, and is the shortest one that does. -/
structure Canonical (n : Nat) (text : List UInt8) : Prop where
  digits : ∀ c ∈ text, Ascii.isDigit c = true
  value : value text = n
  zero : n = 0 → text = [Ascii.zero]
  leading : n ≠ 0 → text ≠ [] ∧ text.head? ≠ some Ascii.zero

theorem canonical_render (n : Nat) :
  Canonical n (render n)
  where
    digits _ := isDigit_of_mem_render
    value := value_render n
    zero := by
      rintro rfl
      rfl
    leading := by
      intro hn
      use render_ne_nil n
      obtain hzero | hhead := render_no_leading_zero n
      · have hvalue := value_render n
        rw [hzero] at hvalue
        exact absurd hvalue.symm hn
      · apply hhead

end Decimal

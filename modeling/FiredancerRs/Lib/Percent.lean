import FiredancerRs.Lib.Ascii

/-!
# Percent-decoding

An escape is a percent sign with two hexadecimal digits behind it, and decoding leaves its byte for
it. Everything else is left as it is. So decoding makes a text with an escape shorter, and leaves a
text without any as it is (`length_decode_lt`, `decode_eq_self`).
-/

namespace Percent

/-- The percent sign. -/
abbrev percent : UInt8 := 0x25

/-- The value of a hexadecimal digit. -/
def hexValue (c : UInt8) : UInt8 :=
  if Ascii.isDigit c then c - Ascii.zero
  else if Ascii.lowerA ≤ c then c - Ascii.lowerA + 10
  else c - Ascii.upperA + 10

/-- A text begins with an escape. -/
def StartsWithEscape : List UInt8 → Prop
  | b :: high :: low :: _ => b = percent ∧ Ascii.isHexDigit high = true ∧ Ascii.isHexDigit low = true
  | _ => False

instance : DecidablePred StartsWithEscape
  | _ :: _ :: _ :: _ => inferInstanceAs (Decidable (_ ∧ _))
  | [] | [_] | [_, _] => isFalse id

/-- A text has an escape. -/
def HasEscape (text : List UInt8) : Prop := ∃ rest, rest <:+ text ∧ StartsWithEscape rest

/-- The text in which the byte of each escape stands for it. -/
def decode : List UInt8 → List UInt8
  | b :: high :: low :: rest =>
    if b = percent ∧ Ascii.isHexDigit high = true ∧ Ascii.isHexDigit low = true then
      (16 * hexValue high + hexValue low) :: decode rest
    else
      b :: decode (high :: low :: rest)
  | b :: rest => b :: decode rest
  | [] => []

theorem not_hasEscape_nil : ¬ HasEscape []
  := by
  rintro ⟨rest, hsuffix, hstarts⟩
  rw [List.suffix_nil.mp hsuffix] at hstarts
  apply hstarts

theorem hasEscape_cons {b : UInt8} {text : List UInt8} :
  HasEscape (b :: text) ↔ StartsWithEscape (b :: text) ∨ HasEscape text
  := by
  constructor
  · rintro ⟨rest, hsuffix, hstarts⟩
    obtain rfl | hsuffix := List.suffix_cons_iff.mp hsuffix
    · apply Or.inl hstarts
    · apply Or.inr ⟨rest, hsuffix, hstarts⟩
  · rintro (hstarts | ⟨rest, hsuffix, hstarts⟩)
    · use b :: text, List.suffix_rfl
    · use rest, hsuffix.trans (List.suffix_cons b text)

instance HasEscape.decidable : DecidablePred HasEscape
  | [] => isFalse not_hasEscape_nil
  | b :: text =>
    have := HasEscape.decidable text
    decidable_of_iff (StartsWithEscape (b :: text) ∨ HasEscape text) hasEscape_cons.symm

theorem length_decode_le (text : List UInt8) :
  (decode text).length ≤ text.length
  := by
  fun_induction decode text with
  | case1 b high low rest hescape ih =>
    simp only [List.length_cons]
    omega
  | case2 b high low rest hescape ih =>
    simp only [List.length_cons] at ih ⊢
    omega
  | case3 b rest hshort ih =>
    simp only [List.length_cons]
    omega
  | case4 => apply Nat.le_refl

/-- Without an escape nothing is decoded. -/
theorem decode_eq_self {text : List UInt8} (h : ¬ HasEscape text) :
  decode text = text
  := by
  fun_induction decode text with
  | case1 b high low rest hescape ih =>
    have hstarts : StartsWithEscape (b :: high :: low :: rest) := hescape
    apply absurd (hasEscape_cons.mpr (.inl hstarts)) h
  | case2 b high low rest hescape ih =>
    rw [ih fun hrest => h (hasEscape_cons.mpr (.inr hrest))]
  | case3 b rest hshort ih =>
    rw [ih fun hrest => h (hasEscape_cons.mpr (.inr hrest))]
  | case4 => rfl

/-- An escape makes the text shorter. -/
theorem length_decode_lt {text : List UInt8} (h : HasEscape text) :
  (decode text).length < text.length
  := by
  fun_induction decode text with
  | case1 b high low rest hescape ih =>
    have hle := length_decode_le rest
    simp only [List.length_cons]
    omega
  | case2 b high low rest hescape ih =>
    apply Nat.succ_lt_succ (ih ((hasEscape_cons.mp h).resolve_left hescape))
  | case3 b rest hshort ih =>
    apply Nat.succ_lt_succ (ih ((hasEscape_cons.mp h).resolve_left _))
    intro hstarts
    rw [StartsWithEscape.eq_def] at hstarts
    split at hstarts
    · next heq => apply hshort _ _ _ (List.cons.inj heq).2
    · apply hstarts
  | case4 => apply absurd h not_hasEscape_nil

end Percent

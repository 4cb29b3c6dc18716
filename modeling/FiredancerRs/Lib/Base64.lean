import FiredancerRs.Lib.Ascii
import Mathlib.Algebra.Ring.Nat
import Mathlib.Data.List.Nodup

/-!
# Base64

The encoding of bytes as text of RFC 4648, with padding: three bytes at a time as four characters
of six bits each. An encoding is decoded to what it encodes (`decode_encode`).
-/

namespace Base64

/-- The characters of the alphabet, in the order of the values they stand for. -/
def alphabet : List UInt8 :=
  "ABCDEFGHIJKLMNOPQRSTUVWXYZabcdefghijklmnopqrstuvwxyz0123456789+/".toUTF8.data.toList

/-- The padding. -/
abbrev pad : UInt8 := 0x3D

/-- A character of an encoded text. -/
def IsChar (c : UInt8) : Prop := c ∈ alphabet ∨ c = pad

/-- The character that stands for the lowest six bits of a number. -/
def digit (n : Nat) : UInt8 := alphabet.getD (n % 64) pad

/-- The encoding of bytes. -/
def encode : List UInt8 → List UInt8
  | [] => []
  | [a] =>
    let n := 16 * a.toNat
    [digit (n / 64), digit n, pad, pad]
  | [a, b] =>
    let n := 4 * (256 * a.toNat + b.toNat)
    [digit (n / 64 ^ 2), digit (n / 64), digit n, pad]
  | a :: b :: c :: rest =>
    let n := 256 * (256 * a.toNat + b.toNat) + c.toNat
    digit (n / 64 ^ 3) :: digit (n / 64 ^ 2) :: digit (n / 64) :: digit n :: encode rest

/-- The letters, the digits, and two more. -/
theorem toNat_alphabet :
  alphabet.map UInt8.toNat
    = List.range' 65 26 ++ (List.range' 97 26 ++ (List.range' 48 10 ++ [43, 47]))
  := by decide

theorem length_alphabet :
  alphabet.length = 64
  := by
  rw [← List.length_map UInt8.toNat, toNat_alphabet]
  rfl

theorem nodup_alphabet :
  alphabet.Nodup
  := by
  apply List.Nodup.of_map UInt8.toNat
  rw [toNat_alphabet]
  simp only [List.nodup_append, List.mem_append, List.mem_range'_1]
  grind

theorem toNat_of_mem_alphabet {c : UInt8} (hc : c ∈ alphabet) :
  c.toNat < 128 ∧ c.toNat ≠ 61
  := by
  have hmem : c.toNat ∈ alphabet.map UInt8.toNat := List.mem_map_of_mem hc
  rw [toNat_alphabet] at hmem
  simp only [List.mem_append, List.mem_range'_1, List.mem_cons, List.not_mem_nil, or_false] at hmem
  omega

theorem digit_lt (n : Nat) :
  n % 64 < alphabet.length
  := by
  rw [length_alphabet]
  apply Nat.mod_lt _ (by decide)

theorem digit_mem (n : Nat) :
  digit n ∈ alphabet
  := by
  rw [digit, ← List.getElem_eq_getD (h := digit_lt n)]
  apply List.getElem_mem (digit_lt n)

/-- The characters of the alphabet are ASCII. -/
theorem lt_of_mem_alphabet {c : UInt8} (hc : c ∈ alphabet) :
  c.toNat < 128
  := (toNat_of_mem_alphabet hc).1

/-- An encoding is made of the characters of the alphabet and of padding. -/
theorem isChar_of_mem_encode :
  ∀ {bytes : List UInt8} {c : UInt8}, c ∈ encode bytes → IsChar c
  := by
  intro bytes
  induction bytes using encode.induct with
  | case1 =>
    intro c hc
    cases hc
  | case2 a =>
    intro c hc
    simp only [encode, List.mem_cons, List.not_mem_nil, or_false] at hc
    rcases hc with rfl | rfl | rfl | rfl
    · exact .inl (digit_mem _)
    · exact .inl (digit_mem _)
    · exact .inr rfl
    · exact .inr rfl
  | case3 a b =>
    intro c hc
    simp only [encode, List.mem_cons, List.not_mem_nil, or_false] at hc
    rcases hc with rfl | rfl | rfl | rfl
    · exact .inl (digit_mem _)
    · exact .inl (digit_mem _)
    · exact .inl (digit_mem _)
    · exact .inr rfl
  | case4 a b c rest ih =>
    intro d hd
    simp only [encode, List.mem_cons] at hd
    rcases hd with rfl | rfl | rfl | rfl | hd
    · exact .inl (digit_mem _)
    · exact .inl (digit_mem _)
    · exact .inl (digit_mem _)
    · exact .inl (digit_mem _)
    · apply ih hd

theorem length_encode (bytes : List UInt8) :
  (encode bytes).length = 4 * ((bytes.length + 2) / 3)
  := by
  induction bytes using encode.induct with
  | case1 => rfl
  | case2 a => simp [encode]
  | case3 a b => simp [encode]
  | case4 a b c rest ih =>
    simp only [encode, List.length_cons, ih]
    omega

example : encode "Hello".toUTF8.data.toList = "SGVsbG8=".toUTF8.data.toList := by decide

/-! ### Decoding -/

/-- The value that a character of the alphabet stands for. -/
def value (c : UInt8) : Option Nat := alphabet.idxOf? c

/-- The bytes of four characters that end in padding, whose unused bits are zero. -/
def decodeLast (c₀ c₁ c₂ : UInt8) : Option (List UInt8) := do
  let v₀ ← value c₀
  let v₁ ← value c₁
  if c₂ = pad then
    let n := 64 * v₀ + v₁
    if n % 16 = 0 then some [UInt8.ofNat (n / 16)] else none
  else
    let v₂ ← value c₂
    let n := 64 * (64 * v₀ + v₁) + v₂
    if n % 4 = 0 then some [UInt8.ofNat (n / 4 / 256), UInt8.ofNat (n / 4)] else none

/-- The bytes with an encoding, if there are some. -/
def decode : List UInt8 → Option (List UInt8)
  | [] => some []
  | c₀ :: c₁ :: c₂ :: c₃ :: rest =>
    if c₃ = pad ∧ rest = [] then
      decodeLast c₀ c₁ c₂
    else do
      let v₀ ← value c₀
      let v₁ ← value c₁
      let v₂ ← value c₂
      let v₃ ← value c₃
      let n := 64 * (64 * (64 * v₀ + v₁) + v₂) + v₃
      let bytes ← decode rest
      some (UInt8.ofNat (n / 256 ^ 2) :: UInt8.ofNat (n / 256) :: UInt8.ofNat n :: bytes)
  | _ => none

@[simp]
theorem value_digit (n : Nat) :
  value (digit n) = some (n % 64)
  := by
  rw [digit, ← List.getElem_eq_getD (h := digit_lt n), value, List.idxOf?_eq_some_iff]
  refine ⟨digit_lt n, rfl, ?_⟩
  intro j hj heq
  apply Nat.ne_of_lt hj
  apply nodup_alphabet.getElem_inj_iff.mp heq

theorem digit_ne_pad (n : Nat) :
  digit n ≠ pad
  := by
  intro h
  apply (toNat_of_mem_alphabet (digit_mem n)).2
  rw [h]
  rfl

theorem ofNat_eq {n : Nat} {a : UInt8} (h : n % 256 = a.toNat) :
  UInt8.ofNat n = a
  := by
  rw [← UInt8.toNat_inj, UInt8.toNat_ofNat', ← h]

theorem length_decodeLast {c₀ c₁ c₂ : UInt8} {bytes : List UInt8}
    (h : decodeLast c₀ c₁ c₂ = some bytes) :
  bytes.length ≤ 2
  := by
  simp only [decodeLast, Option.bind_eq_bind, Option.bind_eq_some_iff] at h
  obtain ⟨v₀, -, v₁, -, h⟩ := h
  by_cases hpad : c₂ = pad
  · rw [if_pos hpad] at h
    obtain ⟨-, h⟩ := Option.ite_none_right_eq_some.mp h
    simp [← Option.some.inj h]
  · rw [if_neg hpad, Option.bind_eq_some_iff] at h
    obtain ⟨v₂, -, h⟩ := h
    obtain ⟨-, h⟩ := Option.ite_none_right_eq_some.mp h
    simp [← Option.some.inj h]

/-- At most three bytes are decoded from four characters. -/
theorem length_decode {text bytes : List UInt8} (h : decode text = some bytes) :
  bytes.length ≤ text.length / 4 * 3
  := by
  induction text using decode.induct generalizing bytes with
  | case1 =>
    obtain rfl := Option.some.inj h
    apply Nat.zero_le
  | case2 c₀ c₁ c₂ c₃ rest hlast =>
    rw [decode, if_pos hlast] at h
    have hlength := length_decodeLast h
    rw [hlast.2, List.length_cons, List.length_cons, List.length_cons, List.length_cons]
    omega
  | case3 c₀ c₁ c₂ c₃ rest hlast ih =>
    rw [decode, if_neg hlast] at h
    simp only [Option.bind_eq_bind, Option.bind_eq_some_iff] at h
    obtain ⟨v₀, -, v₁, -, v₂, -, v₃, -, more, hmore, h⟩ := h
    have hlength := ih hmore
    rw [← Option.some.inj h]
    simp only [List.length_cons]
    omega
  | case4 text hnil hfour =>
    rw [decode] at h
    · cases h
    · exact hnil
    · exact hfour

/-- A number is made of its digits. -/
theorem number_digits {n : Nat} (h : n < 64 ^ 4) :
  64 * (64 * (64 * (n / 64 ^ 3 % 64) + n / 64 ^ 2 % 64) + n / 64 % 64) + n % 64 = n
  := by omega

/-- An encoding is decoded to what it encodes. -/
theorem decode_encode (bytes : List UInt8) :
  decode (encode bytes) = some bytes
  := by
  induction bytes using encode.induct with
  | case1 => rfl
  | case2 a =>
    have ha := a.toNat_lt
    have hn : 64 * (16 * a.toNat / 64 % 64) + 16 * a.toNat % 64 = 16 * a.toNat := by omega
    have hmod : 16 * a.toNat % 16 = 0 := by omega
    have hbyte : UInt8.ofNat (16 * a.toNat / 16) = a := by
      apply ofNat_eq
      omega
    simp only [encode, decode, and_self, if_true, decodeLast, value_digit, Option.bind_eq_bind,
      Option.bind_some, hn, hmod, hbyte]
  | case3 a b =>
    have ha := a.toNat_lt
    have hb := b.toNat_lt
    have hn : 64 * (64 * (4 * (256 * a.toNat + b.toNat) / 64 ^ 2 % 64)
        + 4 * (256 * a.toNat + b.toNat) / 64 % 64) + 4 * (256 * a.toNat + b.toNat) % 64
          = 4 * (256 * a.toNat + b.toNat) := by
      omega
    have hmod : 4 * (256 * a.toNat + b.toNat) % 4 = 0 := by omega
    have hfirst : UInt8.ofNat (4 * (256 * a.toNat + b.toNat) / 4 / 256) = a := by
      apply ofNat_eq
      omega
    have hsecond : UInt8.ofNat (4 * (256 * a.toNat + b.toNat) / 4) = b := by
      apply ofNat_eq
      omega
    simp only [encode, decode, and_self, if_true, decodeLast, value_digit, digit_ne_pad, if_false,
      Option.bind_eq_bind, Option.bind_some, hn, hmod, hfirst, hsecond]
  | case4 a b c rest ih =>
    have ha := a.toNat_lt
    have hb := b.toNat_lt
    have hc := c.toNat_lt
    have hn : 256 * (256 * a.toNat + b.toNat) + c.toNat < 64 ^ 4 := by omega
    have hfirst : UInt8.ofNat ((256 * (256 * a.toNat + b.toNat) + c.toNat) / 256 ^ 2) = a := by
      apply ofNat_eq
      omega
    have hsecond : UInt8.ofNat ((256 * (256 * a.toNat + b.toNat) + c.toNat) / 256) = b := by
      apply ofNat_eq
      omega
    have hthird : UInt8.ofNat (256 * (256 * a.toNat + b.toNat) + c.toNat) = c := by
      apply ofNat_eq
      omega
    simp only [encode, decode, digit_ne_pad, false_and, if_false, value_digit, ih,
      Option.bind_eq_bind, Option.bind_some, number_digits hn, hfirst, hsecond, hthird]

end Base64

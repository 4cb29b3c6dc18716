import Mathlib.Tactic.Common

/-!
# UTF-8

The bytes of a string. A byte below 0x80 in them is a character of the string (`mem_toUTF8`), since
the bytes of the other characters are not below 0x80. The bytes of a string are read as the string
(`decode_bytes`).
-/

namespace Utf8

/-- The bytes of a string. -/
def bytes (s : String) : List UInt8 := s.toUTF8.data.toList

/-- The string with some bytes, if there is one. -/
def decode (bytes : List UInt8) : Option String := String.fromUTF8? ⟨bytes.toArray⟩

@[simp]
theorem decode_bytes (s : String) :
  decode (bytes s) = some s
  := by
  rw [decode, bytes, Array.toArray_toList]
  apply dif_pos s.isValidUTF8

theorem toUTF8_toList (s : String) :
  s.toUTF8.data.toList = s.toList.flatMap String.utf8EncodeChar
  := by
  have hdata : s.toUTF8 = (s.toList.flatMap String.utf8EncodeChar).toByteArray :=
    String.utf8Encode_toList.symm
  rw [hdata, List.data_toByteArray]

/-- A byte of the encoding of a character is the character, or it is not below 0x80. -/
theorem mem_utf8EncodeChar {c : Char} {b : UInt8} (h : b ∈ String.utf8EncodeChar c) :
  b.toNat = c.toNat ∨ 0x80 ≤ b.toNat
  := by
  simp only [String.utf8EncodeChar] at h
  split at h
  · next hascii =>
    left
    rw [List.mem_singleton.mp h, UInt8.toNat_ofNat_of_lt' (Nat.lt_of_le_of_lt hascii (by decide))]
    rfl
  · -- the first byte says how many follow, and each has its highest bit set
    right
    split at h
    · simp only [List.mem_cons, List.not_mem_nil, or_false] at h
      rcases h with rfl | rfl <;> rw [UInt8.toNat_ofNat'] <;> omega
    · split at h
      · simp only [List.mem_cons, List.not_mem_nil, or_false] at h
        rcases h with rfl | rfl | rfl <;> rw [UInt8.toNat_ofNat'] <;> omega
      · simp only [List.mem_cons, List.not_mem_nil, or_false] at h
        rcases h with rfl | rfl | rfl | rfl <;> rw [UInt8.toNat_ofNat'] <;> omega

/-- A byte of a string is one of its characters, or it is not below 0x80. -/
theorem mem_toUTF8 {s : String} {b : UInt8} (h : b ∈ s.toUTF8.data.toList) :
  (∃ c ∈ s.toList, b.toNat = c.toNat) ∨ 0x80 ≤ b.toNat
  := by
  rw [toUTF8_toList] at h
  obtain ⟨c, hc, hb⟩ := List.mem_flatMap.mp h
  rcases mem_utf8EncodeChar hb with heq | hge
  · exact .inl ⟨c, hc, heq⟩
  · exact .inr hge

/-- The bytes of a string are valid. -/
theorem validateUTF8_toUTF8 (s : String) :
  s.toUTF8.validateUTF8 = true
  := ByteArray.validateUTF8_eq_true_iff.mpr s.isValidUTF8

/-- A byte below 0x80 is the encoding of its character. -/
theorem utf8EncodeChar_ofNat {b : UInt8} (h : b.toNat < 128) :
  String.utf8EncodeChar (Char.ofNat b.toNat) = [b]
  := by
  have hall : ∀ n : Fin 256, n.val < 128 →
      String.utf8EncodeChar (Char.ofNat n) = [UInt8.ofFin n] := by
    decide +kernel
  apply hall b.toFin h

/-- Bytes below 0x80 are those of a string. -/
theorem exists_bytes {ascii : List UInt8} (h : ∀ b ∈ ascii, b.toNat < 128) :
  ∃ s, bytes s = ascii
  := by
  use String.ofList (ascii.map fun b => Char.ofNat b.toNat)
  rw [bytes, toUTF8_toList, String.toList_ofList]
  induction ascii with
  | nil => rfl
  | cons b ascii ih =>
    rw [List.map_cons, List.flatMap_cons, utf8EncodeChar_ofNat (h b List.mem_cons_self),
      ih (fun c hc => h c (List.mem_cons_of_mem b hc)), List.singleton_append]

/-! ### Invalid bytes -/

/-- How many bytes follow the first byte of a character, and the range of the next one. -/
def following (b : UInt8) : Option (Nat × UInt8 × UInt8) :=
  if b < 0x80 then some (0, 0x80, 0xBF)
  else if b < 0xC2 then none
  else if b < 0xE0 then some (1, 0x80, 0xBF)
  else if b = 0xE0 then some (2, 0xA0, 0xBF)
  else if b = 0xED then some (2, 0x80, 0x9F)
  else if b < 0xF0 then some (2, 0x80, 0xBF)
  else if b = 0xF0 then some (3, 0x90, 0xBF)
  else if b < 0xF4 then some (3, 0x80, 0xBF)
  else if b = 0xF4 then some (3, 0x80, 0x8F)
  else none

/-- The bytes that continue a character, of those that are due. -/
def continuing : Nat → UInt8 → UInt8 → List UInt8 → List UInt8
  | n + 1, low, high, b :: bytes =>
    if low ≤ b ∧ b ≤ high then b :: continuing n 0x80 0xBF bytes else []
  | _, _, _, _ => []

/-- The characters of at most as many bytes as the fuel, with U+FFFD for the longest beginning of a
character where none is. -/
def lossyChars : Nat → List UInt8 → List Char
  | fuel + 1, b :: bytes =>
    match following b with
    | none => Char.ofNat 0xFFFD :: lossyChars fuel bytes
    | some (n, low, high) =>
      let more := continuing n low high bytes
      match decode (b :: more) with
      | some s => s.toList ++ lossyChars fuel (bytes.drop more.length)
      | none => Char.ofNat 0xFFFD :: lossyChars fuel (bytes.drop more.length)
  | _, _ => []

/-- The string with some bytes, with U+FFFD where they are not of a character. -/
def decodeLossy (bytes : List UInt8) : String :=
  match decode bytes with
  | some s => s
  | none => String.ofList (lossyChars bytes.length bytes)

example : decodeLossy [0x61, 0xE2, 0x82, 0x62, 0xFF] = "a\uFFFDb\uFFFD" := by decide

end Utf8

import FiredancerRs.Lib.Decimal
import FiredancerRs.Lib.Utf8
import Mathlib.Data.List.DropRight
import Mathlib.Tactic.Common

/-!
# Values of header fields

How `try_parse_headers` reads the value of a header field: `core::str::from_utf8`, `str::trim`,
`str::parse::<usize>` and the comparisons that ignore the case of ASCII letters. A value of decimal
digits is read as the number it stands for (`parseContentLength_digits`).
-/

namespace FdRpc.Http

/-- `core::str::from_utf8`, with a string as its characters. -/
def decodeUtf8 (bytes : List UInt8) : Option (List Char) :=
  (ByteArray.mk bytes.toArray).utf8Decode?.map Array.toList

/-- `char::is_whitespace` -/
def isWhitespace (c : Char) : Bool :=
  (0x09 ≤ c.toNat && c.toNat ≤ 0x0D) || c.toNat = 0x20 || c.toNat = 0x85 || c.toNat = 0xA0
    || c.toNat = 0x1680 || (0x2000 ≤ c.toNat && c.toNat ≤ 0x200A) || c.toNat = 0x2028
    || c.toNat = 0x2029 || c.toNat = 0x202F || c.toNat = 0x205F || c.toNat = 0x3000

/-- `str::trim` -/
def trim (text : List Char) : List Char := (text.dropWhile isWhitespace).rdropWhile isWhitespace

/-- What follows a plus sign at the front. -/
def skipPlus (text : List Char) : List Char :=
  if text.head? = some '+' then text.tail else text

/-- The number that digits stand for. -/
def digitsValue (digits : List Char) : Nat :=
  digits.foldl (fun n c => 10 * n + (c.toNat - '0'.toNat)) 0

/-- `str::parse::<usize>` -/
def parseUsize (text : List Char) : Option Nat :=
  let digits := skipPlus text
  if digits = [] ∨ digits.all Char.isDigit = false then
    none
  else if digitsValue digits < 2 ^ 64 then
    some (digitsValue digits)
  else
    none

/-- `u8::to_ascii_lowercase` -/
def toAsciiLowercase (c : UInt8) : UInt8 := if 0x41 ≤ c ∧ c ≤ 0x5A then c + 0x20 else c

/-- `<[u8]>::eq_ignore_ascii_case` -/
def eqIgnoreAsciiCase (a b : List UInt8) : Bool :=
  a.map toAsciiLowercase = b.map toAsciiLowercase

/-- `b"content-length"` -/
def contentLengthName : List UInt8 :=
  [99, 111, 110, 116, 101, 110, 116, 45, 108, 101, 110, 103, 116, 104]

/-- `b"transfer-encoding"` -/
def transferEncodingName : List UInt8 :=
  [116, 114, 97, 110, 115, 102, 101, 114, 45, 101, 110, 99, 111, 100, 105, 110, 103]

/-- `s.trim().parse().ok()` -/
def parseContentLength (s : List Char) : Option Nat := parseUsize (trim s)

/-- `s.trim().eq_ignore_ascii_case("chunked")` -/
def isChunked (s : List Char) : Bool := (trim s).map Char.toLower = "chunked".toList

/-! ### ASCII values -/

/-- The character of an ASCII byte. -/
def asciiChar (b : UInt8) : Char := Char.ofNat b.toNat

variable {b : UInt8} {bytes : List UInt8}

theorem toNat_asciiChar (h : b.toNat < 128) :
  (asciiChar b).toNat = b.toNat
  := by
  have hvalid : b.toNat.isValidChar := by
    left
    omega
  rw [asciiChar, Char.ofNat, dif_pos hvalid]
  rfl

/-- ASCII bytes are the characters of the same numbers. -/
theorem decodeUtf8_ascii (h : ∀ b ∈ bytes, b.toNat < 128) :
  decodeUtf8 bytes = some (bytes.map asciiChar)
  := by
  have hflat : (bytes.map asciiChar).flatMap String.utf8EncodeChar = bytes := by
    induction bytes with
    | nil => rfl
    | cons b bytes ih =>
      rw [List.map_cons, List.flatMap_cons, asciiChar, Utf8.utf8EncodeChar_ofNat (h b (by simp)),
        ih (fun b hb => h b (List.mem_cons_of_mem _ hb))]
      rfl
  have hencode : (bytes.map asciiChar).utf8Encode = ByteArray.mk bytes.toArray := by
    rw [List.utf8Encode, hflat]
    apply ByteArray.ext
    simp
  rw [decodeUtf8, ← hencode, List.utf8Decode?_utf8Encode]
  rfl

/-- Trimming changes nothing when no character is white space. -/
theorem trim_eq_self {text : List Char} (h : ∀ c ∈ text, isWhitespace c = false) :
  trim text = text
  := by
  have hfront : text.dropWhile isWhitespace = text := by
    rw [List.dropWhile_eq_self_iff]
    intro hlength
    rw [h _ (List.getElem_mem _)]
    simp
  rw [trim, hfront, List.rdropWhile_eq_self_iff]
  intro hne
  rw [h _ (List.getLast_mem hne)]
  simp

/-! ### Digits -/

theorem toNat_of_isDigit (h : Ascii.isDigit b = true) :
  48 ≤ b.toNat ∧ b.toNat ≤ 57
  := by
  simp only [Ascii.isDigit, Bool.and_eq_true, decide_eq_true_iff, UInt8.le_iff_toNat_le] at h
  apply h

theorem isDigit_asciiChar (h : Ascii.isDigit b = true) :
  (asciiChar b).isDigit = true
  := by
  obtain ⟨hlo, hhi⟩ := toNat_of_isDigit h
  have hval : (asciiChar b).val.toNat = b.toNat := toNat_asciiChar (by omega)
  simp only [Char.isDigit, Bool.and_eq_true, decide_eq_true_iff, ge_iff_le, UInt32.le_iff_toNat_le,
    hval]
  exact ⟨hlo, hhi⟩

theorem isWhitespace_digit (h : Ascii.isDigit b = true) :
  isWhitespace (asciiChar b) = false
  := by
  obtain ⟨hlo, hhi⟩ := toNat_of_isDigit h
  have hval := toNat_asciiChar (b := b) (by omega)
  simp only [isWhitespace, hval, Bool.or_eq_false_iff, Bool.and_eq_false_iff,
    decide_eq_false_iff_not]
  omega

theorem digitsValue_map (h : ∀ b ∈ bytes, Ascii.isDigit b = true) :
  digitsValue (bytes.map asciiChar) = Decimal.value bytes
  := by
  rw [digitsValue, Decimal.value, List.foldl_map]
  apply List.foldl_ext
  intro n b hb
  obtain ⟨_, hhi⟩ := toNat_of_isDigit (h b hb)
  rw [toNat_asciiChar (by omega)]
  rfl

/-- A value of decimal digits is read as the number it stands for. -/
theorem parseContentLength_digits (hne : bytes ≠ []) (h : ∀ b ∈ bytes, Ascii.isDigit b = true)
    (hlt : Decimal.value bytes < 2 ^ 64) :
  (decodeUtf8 bytes).map parseContentLength = some (some (Decimal.value bytes))
  := by
  have hascii : ∀ b ∈ bytes, b.toNat < 128 := by
    intro b hb
    have := toNat_of_isDigit (h b hb)
    omega
  have htrim : trim (bytes.map asciiChar) = bytes.map asciiChar := by
    apply trim_eq_self
    intro c hc
    obtain ⟨b, hb, rfl⟩ := List.mem_map.mp hc
    apply isWhitespace_digit (h b hb)
  have hskip : skipPlus (bytes.map asciiChar) = bytes.map asciiChar := by
    rw [skipPlus, if_neg]
    intro hplus
    obtain ⟨b, hb, heq⟩ := List.mem_map.mp (List.mem_of_mem_head? hplus)
    have hdigit := isDigit_asciiChar (h b hb)
    rw [heq] at hdigit
    cases hdigit
  have hall : (bytes.map asciiChar).all Char.isDigit = true := by
    rw [List.all_eq_true]
    intro c hc
    obtain ⟨b, hb, rfl⟩ := List.mem_map.mp hc
    apply isDigit_asciiChar (h b hb)
  rw [decodeUtf8_ascii hascii, Option.map_some, parseContentLength, htrim]
  simp only [parseUsize, hskip, hall, digitsValue_map h, if_pos hlt]
  simp [hne]

end FdRpc.Http

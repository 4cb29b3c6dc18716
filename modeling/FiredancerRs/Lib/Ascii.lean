import Mathlib.Tactic.Common

/-!
# ASCII bytes

The bytes that the text formats of this development are made of.
-/

namespace Ascii

abbrev tab : UInt8 := 0x09
abbrev newline : UInt8 := 0x0A
abbrev carriageReturn : UInt8 := 0x0D
abbrev space : UInt8 := 0x20
abbrev quote : UInt8 := 0x22
abbrev plus : UInt8 := 0x2B
abbrev comma : UInt8 := 0x2C
abbrev minus : UInt8 := 0x2D
abbrev dot : UInt8 := 0x2E
abbrev slash : UInt8 := 0x2F
abbrev zero : UInt8 := 0x30
abbrev nine : UInt8 := 0x39
abbrev colon : UInt8 := 0x3A
abbrev upperA : UInt8 := 0x41
abbrev upperE : UInt8 := 0x45
abbrev upperF : UInt8 := 0x46
abbrev openBracket : UInt8 := 0x5B
abbrev backslash : UInt8 := 0x5C
abbrev closeBracket : UInt8 := 0x5D
abbrev lowerA : UInt8 := 0x61
abbrev lowerB : UInt8 := 0x62
abbrev lowerE : UInt8 := 0x65
abbrev lowerF : UInt8 := 0x66
abbrev lowerN : UInt8 := 0x6E
abbrev lowerR : UInt8 := 0x72
abbrev lowerT : UInt8 := 0x74
abbrev lowerU : UInt8 := 0x75
abbrev openBrace : UInt8 := 0x7B
abbrev closeBrace : UInt8 := 0x7D

/-- A decimal digit. -/
def isDigit (c : UInt8) : Bool := zero ≤ c && c ≤ nine

/-- A hexadecimal digit. -/
def isHexDigit (c : UInt8) : Bool :=
  isDigit c || (lowerA ≤ c && c ≤ lowerF) || (upperA ≤ c && c ≤ upperF)

end Ascii

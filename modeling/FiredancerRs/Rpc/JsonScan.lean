import FiredancerRs.Ed25519.Pubkey
import FiredancerRs.Lib.Ascii
import FiredancerRs.Lib.Float64

/-!
# The JSON scanner

`JsonScan` and `JsonArrayIter` of `fd_rpc`. A function that may panic returns an `Option`, in
which `none` is the panic of an index or a slice that is out of range. A loop or a recursion
carries a fuel, and `none` also stands for a run that has not ended when the fuel is spent;
the fuel each function gives to its loops depends on the bytes that are left.
-/

open FdEd25519

namespace FdRpc

/-! ### Bytes -/

/-- `str::as_bytes` -/
def asBytes (s : String) : Bytes := s.toUTF8.data.toList

/-- `core::str::from_utf8`, with a string as its bytes. -/
def fromUtf8 (bytes : Bytes) : Option Bytes :=
  if (ByteArray.mk bytes.toArray).validateUTF8 then some bytes else none

/-- `data[i]` -/
def index (data : Bytes) (i : Nat) : Option UInt8 := data[i]?

/-- `&data[lo..hi]` -/
def slice (data : Bytes) (lo hi : Nat) : Option Bytes :=
  if lo ≤ hi ∧ hi ≤ data.length then some ((data.take hi).drop lo) else none

/-- `&data[lo..]` -/
def sliceFrom (data : Bytes) (lo : Nat) : Option Bytes :=
  if lo ≤ data.length then some (data.drop lo) else none

/-- The bytes that the scanner skips as whitespace. -/
def isWs (c : UInt8) : Bool :=
  c = Ascii.space || c = Ascii.tab || c = Ascii.newline || c = Ascii.carriageReturn

/-- `u8::is_ascii_digit` -/
def isAsciiDigit (c : UInt8) : Bool := Ascii.zero ≤ c && c ≤ Ascii.nine

/-! ### Numbers -/

/-- The number that digits stand for. -/
def digitsValue (digits : Bytes) : Nat :=
  digits.foldl (fun n c => 10 * n + (c.toNat - Ascii.zero.toNat)) 0

/-- A sign in front of a number: whether it is a minus, and what follows it. -/
def parseSign (text : Bytes) : Bool × Bytes :=
  match text with
  | [] => (false, [])
  | c :: t =>
    if c = Ascii.minus then (true, t) else if c = Ascii.plus then (false, t) else (false, text)

/-- `str::parse::<i64>` -/
def parseI64 (text : Bytes) : Option Int :=
  let (neg, digits) := parseSign text
  if digits = [] ∨ digits.all isAsciiDigit = false then
    none
  else
    let value : Int := if neg then -(digitsValue digits : Int) else digitsValue digits
    if -2 ^ 63 ≤ value ∧ value < 2 ^ 63 then some value else none

/-- The exponent of `str::parse::<f64>`, none for an exponent without digits. -/
def parseExponent (text : Bytes) : Option Int :=
  match text with
  | [] => some 0
  | c :: t =>
    let (neg, digits) := parseSign t
    if (c = Ascii.lowerE ∨ c = Ascii.upperE) ∧ digits ≠ [] ∧ digits.all isAsciiDigit = true then
      some (if neg then -(digitsValue digits : Int) else digitsValue digits)
    else
      none

/-- `str::parse::<f64>`, for texts that do not spell out an infinity or a NaN. -/
def parseF64 (text : Bytes) : Option Float64 := do
  let (neg, text) := parseSign text
  let int := text.takeWhile isAsciiDigit
  let text := text.dropWhile isAsciiDigit
  let hasDot := text.head?.any (· = Ascii.dot)
  let frac := if hasDot then (text.drop 1).takeWhile isAsciiDigit else []
  let text := if hasDot then (text.drop 1).dropWhile isAsciiDigit else text
  if int = [] ∧ frac = [] then
    none
  else do
    let exp ← parseExponent text
    pure (Float64.ofDecimal neg (digitsValue (int ++ frac)) (exp - frac.length))

/-! ### Skipping -/

/-- `JsonScan` -/
structure JsonScan where
  data : Bytes
  pos : Nat
deriving DecidableEq, Repr

namespace JsonScan

/-- `self.pos += n` -/
def advance (s : JsonScan) (n : Nat) : JsonScan := { s with pos := s.pos + n }

/-- A fuel for a loop that advances at every step. -/
def fuel (s : JsonScan) : Nat := s.data.length - s.pos + 1

/-- `JsonScan::peek` -/
def peek (s : JsonScan) : Option UInt8 := s.data[s.pos]?

/-- `self.pos < self.data.len() && p(self.data[self.pos])` -/
def holds (p : UInt8 → Bool) (s : JsonScan) : Option Bool :=
  if s.pos < s.data.length then do
    let c ← index s.data s.pos
    pure (p c)
  else
    pure false

/-- `while self.pos < self.data.len() && p(self.data[self.pos]) { self.pos += 1 }` -/
def advanceWhile (p : UInt8 → Bool) : Nat → JsonScan → Option JsonScan
  | 0, _ => none
  | fuel + 1, s => do
    if ← s.holds p then advanceWhile p fuel (s.advance 1) else pure s

/-- `if self.pos < self.data.len() && p(self.data[self.pos]) { self.pos += 1 }` -/
def advanceIf (p : UInt8 → Bool) (s : JsonScan) : Option JsonScan := do
  if ← s.holds p then pure (s.advance 1) else pure s

/-- `JsonScan::skip_ws` -/
def skipWs (s : JsonScan) : Option JsonScan := s.advanceWhile isWs s.fuel

/-- The loop over the digits of a number. -/
def skipDigits (s : JsonScan) : Option JsonScan := s.advanceWhile isAsciiDigit s.fuel

/-- The loop of `JsonScan::skip_string`. An escape advances by two bytes. -/
def skipStringLoop : Nat → JsonScan → Option (Bool × JsonScan)
  | 0, _ => none
  | fuel + 1, s =>
    if s.pos ≥ s.data.length then
      pure (false, s)
    else do
      let c ← index s.data s.pos
      if c = Ascii.backslash then
        skipStringLoop fuel (s.advance 2)
      else if c = Ascii.quote then
        pure (true, s.advance 1)
      else
        skipStringLoop fuel (s.advance 1)

/-- `JsonScan::skip_string` -/
def skipString (s : JsonScan) : Option (Bool × JsonScan) :=
  if s.peek ≠ some Ascii.quote then
    pure (false, s)
  else
    skipStringLoop s.fuel (s.advance 1)

/-- The fraction of `JsonScan::skip_number`. -/
def skipFraction (s : JsonScan) : Option JsonScan := do
  if ← s.holds (· = Ascii.dot) then (s.advance 1).skipDigits else pure s

/-- The exponent of `JsonScan::skip_number`. -/
def skipExponent (s : JsonScan) : Option JsonScan := do
  if ← s.holds (fun c => c = Ascii.lowerE || c = Ascii.upperE) then do
    let s ← (s.advance 1).advanceIf (fun c => c = Ascii.plus || c = Ascii.minus)
    s.skipDigits
  else
    pure s

/-- `JsonScan::skip_number` -/
def skipNumber (s : JsonScan) : Option (Bool × JsonScan) := do
  let start := s.pos
  let s ← s.advanceIf (· = Ascii.minus)
  if ← s.holds isAsciiDigit then do
    let s ← s.skipDigits
    let s ← s.skipFraction
    let s ← s.skipExponent
    pure (true, s)
  else
    pure (false, { s with pos := start })

/-- `JsonScan::skip_literal` -/
def skipLiteral (s : JsonScan) (lit : Bytes) : Option (Bool × JsonScan) := do
  let tail ← sliceFrom s.data s.pos
  if lit.isPrefixOf tail then pure (true, s.advance lit.length) else pure (false, s)

mutual

/-- The loop of `JsonScan::skip_object`. -/
def skipObjectLoop : Nat → JsonScan → Option (Bool × JsonScan)
  | 0, _ => none
  | fuel + 1, s => do
    let s ← s.skipWs
    let (ok, s) ← s.skipString
    if !ok then
      pure (false, s)
    else do
      let s ← s.skipWs
      if s.peek ≠ some Ascii.colon then
        pure (false, s)
      else do
        let (ok, s) ← skipValueFuel fuel (s.advance 1)
        if !ok then
          pure (false, s)
        else do
          let s ← s.skipWs
          if s.peek = some Ascii.comma then
            skipObjectLoop fuel (s.advance 1)
          else if s.peek = some Ascii.closeBrace then
            pure (true, s.advance 1)
          else
            pure (false, s)

/-- The loop of `JsonScan::skip_array`. -/
def skipArrayLoop : Nat → JsonScan → Option (Bool × JsonScan)
  | 0, _ => none
  | fuel + 1, s => do
    let (ok, s) ← skipValueFuel fuel s
    if !ok then
      pure (false, s)
    else do
      let s ← s.skipWs
      if s.peek = some Ascii.comma then
        skipArrayLoop fuel (s.advance 1)
      else if s.peek = some Ascii.closeBracket then
        pure (true, s.advance 1)
      else
        pure (false, s)

/-- `JsonScan::skip_object` -/
def skipObject : Nat → JsonScan → Option (Bool × JsonScan)
  | 0, _ => none
  | fuel + 1, s =>
    if s.peek ≠ some Ascii.openBrace then
      pure (false, s)
    else do
      let s ← (s.advance 1).skipWs
      if s.peek = some Ascii.closeBrace then
        pure (true, s.advance 1)
      else
        skipObjectLoop fuel s

/-- `JsonScan::skip_array` -/
def skipArray : Nat → JsonScan → Option (Bool × JsonScan)
  | 0, _ => none
  | fuel + 1, s =>
    if s.peek ≠ some Ascii.openBracket then
      pure (false, s)
    else do
      let s ← (s.advance 1).skipWs
      if s.peek = some Ascii.closeBracket then
        pure (true, s.advance 1)
      else
        skipArrayLoop fuel s

/-- `JsonScan::skip_value` -/
def skipValueFuel : Nat → JsonScan → Option (Bool × JsonScan)
  | 0, _ => none
  | fuel + 1, s => do
    let s ← s.skipWs
    match s.peek with
    | none => pure (false, s)
    | some c =>
      if c = Ascii.quote then
        s.skipString
      else if c = Ascii.openBrace then
        skipObject fuel s
      else if c = Ascii.openBracket then
        skipArray fuel s
      else if c = Ascii.lowerT then
        s.skipLiteral (asBytes "true")
      else if c = Ascii.lowerF then
        s.skipLiteral (asBytes "false")
      else if c = Ascii.lowerN then
        s.skipLiteral (asBytes "null")
      else if c = Ascii.minus || isAsciiDigit c then
        s.skipNumber
      else
        pure (false, s)

end

/-- `JsonScan::skip_value`, with a fuel for its recursion. -/
def skipValue (s : JsonScan) : Option (Bool × JsonScan) := skipValueFuel (3 * s.fuel) s

/-! ### Accessors -/

/-- `JsonScan::new` -/
def new (data : Bytes) : Option JsonScan := skipWs ⟨data, 0⟩

/-- The loop of `JsonScan::field`. -/
def fieldLoop (target : Bytes) : Nat → JsonScan → Option (Option JsonScan)
  | 0, _ => none
  | fuel + 1, scan => do
    let scan ← scan.skipWs
    if scan.peek ≠ some Ascii.quote then
      pure none
    else do
      let keyStart := scan.pos + 1
      let (ok, scan) ← scan.skipString
      if !ok then
        pure none
      else do
        let keyEnd := scan.pos - 1
        let scan ← scan.skipWs
        if scan.peek ≠ some Ascii.colon then
          pure none
        else do
          let scan ← (scan.advance 1).skipWs
          let key ← slice scan.data keyStart keyEnd
          if key = target then
            pure (some scan)
          else do
            let (ok, scan) ← scan.skipValue
            if !ok then
              pure none
            else do
              let scan ← scan.skipWs
              if scan.peek = some Ascii.comma then
                fieldLoop target fuel (scan.advance 1)
              else
                pure none

/-- `JsonScan::field` -/
def field (s : JsonScan) (name : Bytes) : Option (Option JsonScan) := do
  let scan ← s.skipWs
  if scan.peek ≠ some Ascii.openBrace then
    pure none
  else do
    let scan ← (scan.advance 1).skipWs
    if scan.peek = some Ascii.closeBrace then
      pure none
    else
      fieldLoop name scan.fuel scan

/-- The loop of `JsonScan::as_str`, from `pos`, for a string that starts at `start`. -/
def asStrLoop (data : Bytes) (start : Nat) : Nat → Nat → Option (Option Bytes)
  | 0, _ => none
  | fuel + 1, pos =>
    if pos ≥ data.length then
      pure none
    else do
      let c ← index data pos
      if c = Ascii.backslash then
        asStrLoop data start fuel (pos + 2)
      else if c = Ascii.quote then do
        let text ← slice data start pos
        pure (fromUtf8 text)
      else
        asStrLoop data start fuel (pos + 1)

/-- `JsonScan::as_str` -/
def asStr (s : JsonScan) : Option (Option Bytes) :=
  if s.peek ≠ some Ascii.quote then
    pure none
  else
    asStrLoop s.data (s.pos + 1) s.fuel (s.pos + 1)

/-- `JsonScan::as_f64` -/
def asF64 (s : JsonScan) : Option (Option Float64) := do
  let scan ← s.skipWs
  let start := scan.pos
  let (_, scan) ← scan.skipNumber
  if scan.pos = start then
    pure none
  else do
    let text ← slice scan.data start scan.pos
    pure ((fromUtf8 text).bind parseF64)

/-- `JsonScan::as_i64` -/
def asI64 (s : JsonScan) : Option (Option Int) := do
  let scan ← s.skipWs
  let start := scan.pos
  let scan ← scan.advanceIf (· = Ascii.minus)
  let scan ← scan.skipDigits
  if scan.pos = start then
    pure none
  else do
    let text ← slice scan.data start scan.pos
    pure ((fromUtf8 text).bind parseI64)

/-- `JsonScan::as_bool` -/
def asBool (s : JsonScan) : Option (Option Bool) := do
  let tail ← sliceFrom s.data s.pos
  if (asBytes "true").isPrefixOf tail then
    pure (some true)
  else do
    let tail ← sliceFrom s.data s.pos
    if (asBytes "false").isPrefixOf tail then pure (some false) else pure none

/-- `JsonScan::is_null` -/
def isNull (s : JsonScan) : Option Bool := do
  let tail ← sliceFrom s.data s.pos
  pure ((asBytes "null").isPrefixOf tail)

/-- `JsonScan::is_object` -/
def isObject (s : JsonScan) : Bool := s.peek = some Ascii.openBrace

/-- `JsonScan::is_string` -/
def isString (s : JsonScan) : Bool := s.peek = some Ascii.quote

end JsonScan

/-! ### Iteration -/

/-- `JsonArrayIter` -/
structure JsonArrayIter where
  data : Bytes
  pos : Nat
  done : Bool
deriving DecidableEq, Repr

/-- `JsonScan::array_iter` -/
def JsonScan.arrayIter (s : JsonScan) : Option (Option JsonArrayIter) := do
  let scan ← s.skipWs
  if scan.peek ≠ some Ascii.openBracket then
    pure none
  else do
    let scan ← (scan.advance 1).skipWs
    pure (some ⟨scan.data, scan.pos, scan.peek = some Ascii.closeBracket⟩)

namespace JsonArrayIter

/-- `JsonArrayIter::next` -/
def next (it : JsonArrayIter) : Option (Option JsonScan × JsonArrayIter) :=
  if it.done then
    pure (none, it)
  else do
    -- the loop over whitespace is the one of `skip_ws`, on the position of the iterator
    let item ← JsonScan.skipWs ⟨it.data, it.pos⟩
    let it := { it with pos := item.pos }
    let last ← if it.pos ≥ it.data.length then pure true else do
      let c ← index it.data it.pos
      pure (decide (c = Ascii.closeBracket))
    if last then
      pure (none, { it with done := true })
    else do
      let (ok, skip) ← item.skipValue
      if !ok then
        pure (some item, { it with done := true })
      else do
        let skip ← skip.skipWs
        if skip.peek = some Ascii.comma then
          pure (some item, { it with pos := skip.pos + 1 })
        else
          pure (some item, { it with done := true })

/-- `Iterator::nth` -/
def nth (it : JsonArrayIter) : Nat → Option (Option JsonScan)
  | 0 => do
    let (item, _) ← it.next
    pure item
  | n + 1 => do
    let (item, it) ← it.next
    match item with
    | none => pure none
    | some _ => it.nth n

/-- The items that the iterator yields before it yields none. -/
def toList : Nat → JsonArrayIter → Option (List JsonScan)
  | 0, _ => none
  | fuel + 1, it => do
    let (item, it) ← it.next
    match item with
    | none => pure []
    | some item => do
      let items ← toList fuel it
      pure (item :: items)

end JsonArrayIter

/-- `JsonScan::first` -/
def JsonScan.first (s : JsonScan) : Option (Option JsonScan) := do
  match ← s.arrayIter with
  | none => pure none
  | some it => do
    let (item, _) ← it.next
    pure item

/-- `JsonScan::index` -/
def JsonScan.index (s : JsonScan) (idx : Nat) : Option (Option JsonScan) := do
  match ← s.arrayIter with
  | none => pure none
  | some it => it.nth idx

end FdRpc

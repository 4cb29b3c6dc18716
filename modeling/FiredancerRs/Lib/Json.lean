import Mathlib.Data.List.Basic
import FiredancerRs.Lib.Decimal
import Mathlib.Algebra.Field.Rat

/-!
# JSON texts

The concrete syntax of RFC 8259 as trees of bytes: whitespace, the digits of numbers and the
escapes of strings are part of a tree, so that every text has its tree and a tree has one text
(`Value.render`). What follows a value that occurs in the text of another does not go on with it
(`Occurs.delimited`).

That the bytes above 127 of a string are well-formed UTF-8 is not asked for.
-/

namespace Json

/-! ### Whitespace -/

/-- A whitespace byte. -/
def isSpace (c : UInt8) : Bool :=
  c = Ascii.space || c = Ascii.tab || c = Ascii.newline || c = Ascii.carriageReturn

/-- Whitespace around the tokens of a text. -/
structure Space where
  bytes : List UInt8
  isSpace : ∀ c ∈ bytes, isSpace c = true

/-- No whitespace. -/
def Space.empty : Space := ⟨[], by simp⟩

/-! ### Numbers -/

/-- A run of at least one digit. -/
structure Digits where
  bytes : List UInt8
  ne_nil : bytes ≠ []
  isDigit : ∀ c ∈ bytes, Ascii.isDigit c = true

/-- The exponent of a number. -/
structure Exponent where
  upper : Bool
  /-- No sign, a plus or a minus. -/
  sign : Option Bool
  digits : Digits

/-- The text of an exponent. -/
def Exponent.render (e : Exponent) : List UInt8 :=
  (if e.upper then Ascii.upperE else Ascii.lowerE)
    :: ((match e.sign with
        | none => []
        | some false => [Ascii.plus]
        | some true => [Ascii.minus])
      ++ e.digits.bytes)

/-- A number. Its integer part has no leading zero. -/
structure Number where
  neg : Bool
  int : Digits
  no_leading_zero : int.bytes = [Ascii.zero] ∨ int.bytes.head? ≠ some Ascii.zero
  frac : Option Digits
  exp : Option Exponent

/-- The text of a fraction. -/
def renderFrac : Option Digits → List UInt8
  | none => []
  | some digits => Ascii.dot :: digits.bytes

/-- The text of an exponent, if there is one. -/
def renderExp : Option Exponent → List UInt8
  | none => []
  | some e => e.render

/-- The text of a number. -/
def Number.render (n : Number) : List UInt8 :=
  (if n.neg then [Ascii.minus] else []) ++ (n.int.bytes ++ (renderFrac n.frac ++ renderExp n.exp))

instance neZero_ten : NeZero 10 := ⟨Nat.succ_ne_zero 9⟩

/-- A number of one digit. -/
def Number.ofDigit (d : Fin 10) : Number where
  neg := false
  int := ⟨[Decimal.digit d], by simp, by simpa using Decimal.isDigit_digit d.isLt⟩
  no_leading_zero := by
    by_cases hd : d = 0
    · subst hd
      exact .inl rfl
    · refine .inr fun h => hd ?_
      revert h
      revert d
      decide
  frac := none
  exp := none

/-- The text of the integer part of a number, with its sign. -/
def Number.intText (n : Number) : List UInt8 :=
  (if n.neg then [Ascii.minus] else []) ++ n.int.bytes

/-- The digits of the fraction of a number. -/
def Number.fracDigits (n : Number) : List UInt8 :=
  match n.frac with
  | none => []
  | some digits => digits.bytes

/-- The exponent of ten of a number. -/
def Number.expValue (n : Number) : Int :=
  match n.exp with
  | none => 0
  | some e =>
    if e.sign = some true then -(Decimal.value e.digits.bytes : Int)
    else Decimal.value e.digits.bytes

/-- The number that a number stands for. -/
def Number.value (n : Number) : ℚ :=
  (if n.neg then -1 else 1) * Decimal.value (n.int.bytes ++ n.fracDigits)
    * 10 ^ (n.expValue - n.fracDigits.length)

theorem Number.value_ofDigit (d : Fin 10) :
  (Number.ofDigit d).value = d.val
  := by
  have hdigit : Decimal.value [Decimal.digit d] = d := by
    have htoNat := Decimal.toNat_digit d.isLt
    change 10 * 0 + ((Decimal.digit d).toNat - 48) = _
    omega
  have hexp : (Number.ofDigit d).expValue - ((Number.ofDigit d).fracDigits.length : Int) = 0 := rfl
  have hneg : (Number.ofDigit d).neg = false := rfl
  have hdigits : (Number.ofDigit d).int.bytes ++ (Number.ofDigit d).fracDigits
      = [Decimal.digit d] := rfl
  rw [Number.value, hexp, hneg, hdigits, hdigit, zpow_zero]
  simp

/-! ### Strings -/

/-- A byte that may follow a backslash, other than `u`. -/
def isEscape (c : UInt8) : Bool :=
  c = Ascii.quote || c = Ascii.backslash || c = Ascii.slash || c = Ascii.lowerB
    || c = Ascii.lowerF || c = Ascii.lowerN || c = Ascii.lowerR || c = Ascii.lowerT

/-- A part of a string: a byte that stands for itself, a two-byte escape, or the escape of a
code unit by four hexadecimal digits. -/
inductive Part where
  | plain (c : UInt8) (not_control : Ascii.space ≤ c) (not_quote : c ≠ Ascii.quote)
      (not_backslash : c ≠ Ascii.backslash)
  | escape (c : UInt8) (isEscape : isEscape c = true)
  | unicode (a b c d : UInt8) (isHex : [a, b, c, d].all Ascii.isHexDigit = true)

/-- The text of a part. -/
def Part.render : Part → List UInt8
  | .plain c _ _ _ => [c]
  | .escape c _ => [Ascii.backslash, c]
  | .unicode a b c d _ => [Ascii.backslash, Ascii.lowerU, a, b, c, d]

/-- The parts of a string. -/
abbrev Str : Type := List Part

/-- The byte that an escape stands for. -/
def escapeByte (c : UInt8) : UInt8 :=
  if c = Ascii.lowerB then 0x08
  else if c = Ascii.lowerF then 0x0C
  else if c = Ascii.lowerN then Ascii.newline
  else if c = Ascii.lowerR then Ascii.carriageReturn
  else if c = Ascii.lowerT then Ascii.tab
  else c

/-- The value of a hexadecimal digit. -/
def hexValue (c : UInt8) : Nat :=
  if Ascii.isDigit c then c.toNat - Ascii.zero.toNat
  else if Ascii.lowerA ≤ c then c.toNat - Ascii.lowerA.toNat + 10
  else c.toNat - Ascii.upperA.toNat + 10

/-- The ASCII character that a part stands for, if it stands for one. -/
def Part.ascii? : Part → Option UInt8
  | .plain c _ _ _ => if c < 0x80 then some c else none
  | .escape c _ => some (escapeByte c)
  | .unicode a b c d _ =>
    let unit := [a, b, c, d].foldl (fun n c => 16 * n + hexValue c) 0
    if unit < 0x80 then some (UInt8.ofNat unit) else none

/-- The string stands for the ASCII text, whether or not it is written with escapes. -/
def Str.Spells (s : Str) (text : List UInt8) : Prop := s.mapM Part.ascii? = some text

instance (s : Str) (text : List UInt8) : Decidable (s.Spells text) :=
  inferInstanceAs (Decidable (s.mapM Part.ascii? = some text))

/-- The text between the quotes of a string. -/
def Str.raw (s : Str) : List UInt8 := s.flatMap Part.render

/-- The text of a string. -/
def Str.render (s : Str) : List UInt8 := Ascii.quote :: (s.raw ++ [Ascii.quote])

/-- The string that an ASCII text without quotes, backslashes and control bytes is. Other bytes
are left out. -/
def Str.ofAscii (text : List UInt8) : Str :=
  text.filterMap fun c =>
    if h : Ascii.space ≤ c ∧ c ≠ Ascii.quote ∧ c ≠ Ascii.backslash then
      some (.plain c h.1 h.2.1 h.2.2)
    else
      none

/-! ### Values -/

/-- The name of a member of an object, with the whitespace around it. -/
structure Key where
  before : Space
  name : Str
  after : Space

/-- A name with no whitespace around it. -/
def Key.ofAscii (text : List UInt8) : Key := ⟨.empty, .ofAscii text, .empty⟩

mutual

/-- A value. -/
inductive Value where
  | null
  | bool (b : Bool)
  | number (n : Number)
  | string (s : Str)
  | emptyArray (space : Space)
  | array (elements : Elements)
  | emptyObject (space : Space)
  | object (members : Members)

/-- The elements of an array, each with the whitespace around it. -/
inductive Elements where
  | last (before : Space) (value : Value) (after : Space)
  | more (before : Space) (value : Value) (after : Space) (rest : Elements)

/-- The members of an object. -/
inductive Members where
  | last (key : Key) (before : Space) (value : Value) (after : Space)
  | more (key : Key) (before : Space) (value : Value) (after : Space) (rest : Members)

end

/-- The text of a name with its colon. -/
def Key.render (key : Key) : List UInt8 :=
  key.before.bytes ++ (key.name.render ++ (key.after.bytes ++ [Ascii.colon]))

/-- `null` -/
def nullText : List UInt8 := [0x6E, 0x75, 0x6C, 0x6C]

/-- `true` -/
def trueText : List UInt8 := [0x74, 0x72, 0x75, 0x65]

/-- `false` -/
def falseText : List UInt8 := [0x66, 0x61, 0x6C, 0x73, 0x65]

mutual

/-- The text of a value. -/
def Value.render : Value → List UInt8
  | .null => nullText
  | .bool true => trueText
  | .bool false => falseText
  | .number n => n.render
  | .string s => s.render
  | .emptyArray space => Ascii.openBracket :: (space.bytes ++ [Ascii.closeBracket])
  | .array elements => Ascii.openBracket :: (elements.render ++ [Ascii.closeBracket])
  | .emptyObject space => Ascii.openBrace :: (space.bytes ++ [Ascii.closeBrace])
  | .object members => Ascii.openBrace :: (members.render ++ [Ascii.closeBrace])

/-- The text of the elements of an array, between the brackets. -/
def Elements.render : Elements → List UInt8
  | .last before value after => before.bytes ++ (value.render ++ after.bytes)
  | .more before value after rest =>
    before.bytes ++ (value.render ++ (after.bytes ++ Ascii.comma :: rest.render))

/-- The text of the members of an object, between the braces. -/
def Members.render : Members → List UInt8
  | .last key before value after =>
    key.render ++ (before.bytes ++ (value.render ++ after.bytes))
  | .more key before value after rest =>
    key.render ++ (before.bytes ++ (value.render ++ (after.bytes ++ Ascii.comma :: rest.render)))

end

/-- A JSON text: a value with whitespace around it. -/
structure Text where
  before : Space
  value : Value
  after : Space

/-- The bytes of a text. -/
def Text.render (text : Text) : List UInt8 :=
  text.before.bytes ++ (text.value.render ++ text.after.bytes)

/-! ### Occurrences -/

/-- The elements of an array whose text is followed by `t`, each with the text after it. -/
def Elements.tails (t : List UInt8) : Elements → List (Value × List UInt8)
  | .last _ value after => [(value, after.bytes ++ t)]
  | .more _ value after rest =>
    (value, after.bytes ++ Ascii.comma :: (rest.render ++ t)) :: rest.tails t

/-- A member of an object, with the text after it. -/
structure Member where
  name : Str
  value : Value
  after : List UInt8

/-- The members of an object whose text is followed by `t`. -/
def Members.tails (t : List UInt8) : Members → List Member
  | .last key _ value after => [⟨key.name, value, after.bytes ++ t⟩]
  | .more key _ value after rest =>
    ⟨key.name, value, after.bytes ++ Ascii.comma :: (rest.render ++ t)⟩ :: rest.tails t

/-- The elements of an array without their texts. -/
def Elements.list : Elements → List Value
  | .last _ value _ => [value]
  | .more _ value _ rest => value :: rest.list

/-- The names and the values of the members of an object. -/
def Members.list : Members → List (Str × Value)
  | .last key _ value _ => [(key.name, value)]
  | .more key _ value _ rest => (key.name, value) :: rest.list

/-- The elements of a value, if it is an array. -/
def Value.items : Value → Option (List Value)
  | .emptyArray _ => some []
  | .array elements => some elements.list
  | _ => none

/-- The value of the first member whose name has the text between its quotes. -/
def Value.lookup (raw : List UInt8) : Value → Option Value
  | .object members => (members.list.find? fun m => m.1.raw = raw).map Prod.snd
  | _ => none

/-- The elements of a value that is followed by `t`, if it is an array. -/
def Value.elements (t : List UInt8) : Value → Option (List (Value × List UInt8))
  | .emptyArray _ => some []
  | .array elements => some (elements.tails (Ascii.closeBracket :: t))
  | _ => none

/-- The members of a value that is followed by `t`, if it is an object. -/
def Value.members (t : List UInt8) : Value → Option (List Member)
  | .emptyObject _ => some []
  | .object members => some (members.tails (Ascii.closeBrace :: t))
  | _ => none

/-- In the text of a value that is followed by `t`, another value occurs, followed by `t'`. -/
inductive Occurs (u : Value) (t' : List UInt8) : Value → List UInt8 → Prop
  | self : Occurs u t' u t'
  | element {elements : Elements} {t : List UInt8} {w : Value × List UInt8} :
      w ∈ elements.tails (Ascii.closeBracket :: t) → Occurs u t' w.1 w.2 →
      Occurs u t' (.array elements) t
  | member {members : Members} {t : List UInt8} {m : Member} :
      m ∈ members.tails (Ascii.closeBrace :: t) → Occurs u t' m.value m.after →
      Occurs u t' (.object members) t

/-! ### Where a run of bytes stops -/

/-- The text does not start with a byte that satisfies the predicate. -/
def Stops (p : UInt8 → Bool) (t : List UInt8) : Prop := ∀ c ∈ t.head?, p c = false

section Stops

variable {p : UInt8 → Bool} {l t : List UInt8}

theorem Stops.nil (p : UInt8 → Bool) :
  Stops p []
  := by
  rintro c ⟨⟩

theorem Stops.cons {c : UInt8} (h : p c = false) (t : List UInt8) :
  Stops p (c :: t)
  := by
  rintro c' ⟨⟩
  apply h

theorem Stops.dropWhile (h : Stops p t) :
  t.dropWhile p = t
  := by
  cases t with
  | nil => rfl
  | cons c t =>
    have hc : ¬ p c = true := by simp [h c rfl]
    apply List.dropWhile_cons_of_neg hc

theorem Stops.takeWhile (h : Stops p t) :
  t.takeWhile p = []
  := by
  cases t with
  | nil => rfl
  | cons c t =>
    have hc : ¬ p c = true := by simp [h c rfl]
    apply List.takeWhile_cons_of_neg hc

/-- A run of bytes that satisfy the predicate is what is taken, when the text after it stops. -/
theorem Stops.takeWhile_append (h : Stops p t) (hl : ∀ c ∈ l, p c = true) :
  (l ++ t).takeWhile p = l
  := by
  rw [List.takeWhile_append_of_pos hl, h.takeWhile, List.append_nil]

end Stops

/-- The bytes that end a number or a literal that is followed by one of them. -/
def delimiters : List UInt8 :=
  [Ascii.space, Ascii.tab, Ascii.newline, Ascii.carriageReturn, Ascii.comma, Ascii.closeBracket,
    Ascii.closeBrace]

/-- The text does not go on with a value: it starts with whitespace or with the end of an
element or a member, or there is none. -/
def Delimited (t : List UInt8) : Prop := ∀ c ∈ t.head?, c ∈ delimiters

theorem mem_delimiters_of_isSpace {c : UInt8} (h : isSpace c = true) :
  c ∈ delimiters
  := by
  simp only [isSpace, Bool.or_eq_true, decide_eq_true_iff, or_assoc] at h
  rcases h with rfl | rfl | rfl | rfl <;> decide

theorem Delimited.nil :
  Delimited []
  := by
  rintro c ⟨⟩

theorem Delimited.cons {c : UInt8} (h : c ∈ delimiters) (t : List UInt8) :
  Delimited (c :: t)
  := by
  rintro c' ⟨⟩
  apply h

theorem Delimited.space_append {t : List UInt8} (h : Delimited t) (space : Space) :
  Delimited (space.bytes ++ t)
  := by
  cases hbytes : space.bytes with
  | nil => apply h
  | cons c l =>
    apply Delimited.cons
    apply mem_delimiters_of_isSpace (space.isSpace c (by simp [hbytes]))

theorem Delimited.stops {p : UInt8 → Bool} {t : List UInt8} (h : Delimited t)
    (hp : delimiters.Forall fun c => p c = false) :
  Stops p t
  := fun c hc => List.forall_iff_forall_mem.mp hp c (h c hc)

/-! ### How the texts start -/

theorem Space.dropWhile_append (space : Space) (t : List UInt8) :
  (space.bytes ++ t).dropWhile Json.isSpace = t.dropWhile Json.isSpace
  := List.dropWhile_append_of_pos space.isSpace

theorem Digits.bytes_eq_cons (digits : Digits) :
  ∃ c l, digits.bytes = c :: l ∧ Ascii.isDigit c = true
  := by
  cases hbytes : digits.bytes with
  | nil => exact absurd hbytes digits.ne_nil
  | cons c l => exact ⟨c, l, rfl, digits.isDigit c (by simp [hbytes])⟩

/-- The first byte of a number is a minus or a digit. -/
theorem Number.render_eq_cons (n : Number) :
  ∃ c t, n.render = c :: t ∧ (c = Ascii.minus ∨ Ascii.isDigit c = true)
  := by
  rw [Number.render]
  cases n.neg with
  | true => exact ⟨_, _, rfl, .inl rfl⟩
  | false =>
    obtain ⟨c, l, hbytes, hc⟩ := n.int.bytes_eq_cons
    rw [hbytes]
    exact ⟨c, _, rfl, .inr hc⟩

/-- A byte that ends a value does not start one. -/
theorem Value.render_eq_cons (v : Value) :
  ∃ c t, v.render = c :: t ∧ c ∉ delimiters
  := by
  cases v with
  | null => exact ⟨_, _, rfl, by decide⟩
  | bool b => cases b <;> exact ⟨_, _, rfl, by decide⟩
  | number n =>
    obtain ⟨c, t, hrender, hc⟩ := n.render_eq_cons
    refine ⟨c, t, hrender, fun hdelimiter => ?_⟩
    have hne : ∀ c ∈ delimiters, ¬ (c = Ascii.minus ∨ Ascii.isDigit c = true) :=
      List.forall_iff_forall_mem.mp (by decide)
    apply hne c hdelimiter hc
  | string s => exact ⟨_, _, rfl, by decide⟩
  | emptyArray space => exact ⟨_, _, rfl, by decide⟩
  | array elements => exact ⟨_, _, rfl, by decide⟩
  | emptyObject space => exact ⟨_, _, rfl, by decide⟩
  | object members => exact ⟨_, _, rfl, by decide⟩

/-- A value does not start with whitespace. -/
theorem Value.stops_render (v : Value) (t : List UInt8) :
  Stops isSpace (v.render ++ t)
  := by
  obtain ⟨c, t', hrender, hc⟩ := v.render_eq_cons
  rw [hrender]
  apply Stops.cons
  apply Bool.eq_false_iff.mpr (mt mem_delimiters_of_isSpace hc)

/-- What is left after the whitespace in front of a value. -/
theorem Value.dropWhile_space (space : Space) (v : Value) (t : List UInt8) :
  (space.bytes ++ (v.render ++ t)).dropWhile Json.isSpace = v.render ++ t
  := by
  rw [space.dropWhile_append, (v.stops_render t).dropWhile]

/-- The text of the elements of an array does not start with the closing bracket. -/
theorem Elements.head_dropWhile_ne (elements : Elements) (t : List UInt8) :
  ((elements.render ++ t).dropWhile isSpace).head? ≠ some Ascii.closeBracket
  := by
  have hvalue (v : Value) (t' : List UInt8) :
      (v.render ++ t').head? ≠ some Ascii.closeBracket := by
    obtain ⟨c, l, hrender, hc⟩ := v.render_eq_cons
    rw [hrender, List.cons_append, List.head?_cons, ne_eq, Option.some.injEq]
    rintro rfl
    apply hc
    decide
  cases elements with
  | last before value after =>
    rw [Elements.render, List.append_assoc, List.append_assoc, Value.dropWhile_space]
    apply hvalue
  | more before value after rest =>
    rw [Elements.render, List.append_assoc, List.append_assoc, Value.dropWhile_space]
    apply hvalue

/-- What is left after the whitespace in front of a name. -/
theorem Key.dropWhile_render (key : Key) (t : List UInt8) :
  (key.render ++ t).dropWhile isSpace
    = key.name.render ++ (key.after.bytes ++ Ascii.colon :: t)
  := by
  have hquote : Stops isSpace (key.name.render ++ (key.after.bytes ++ Ascii.colon :: t)) :=
    Stops.cons rfl _
  simp only [Key.render, List.append_assoc, List.singleton_append]
  rw [key.before.dropWhile_append, hquote.dropWhile]

/-- The text of the members of an object does not start with the closing brace. -/
theorem Members.head_dropWhile_ne (members : Members) (t : List UInt8) :
  ((members.render ++ t).dropWhile isSpace).head? ≠ some Ascii.closeBrace
  := by
  have hkey (key : Key) (t' : List UInt8) :
      ((key.render ++ t').dropWhile isSpace).head? ≠ some Ascii.closeBrace := by
    rw [key.dropWhile_render]
    change some Ascii.quote ≠ some Ascii.closeBrace
    decide
  cases members with
  | last key before value after =>
    rw [Members.render, List.append_assoc]
    apply hkey
  | more key before value after rest =>
    rw [Members.render, List.append_assoc]
    apply hkey

/-! ### Parts of a text -/

section Append

variable (key : Key) (before after : Space) (value : Value) (t : List UInt8)

theorem Elements.render_last_append :
  (Elements.last before value after).render ++ t
    = before.bytes ++ (value.render ++ (after.bytes ++ t))
  := by
  simp only [Elements.render, List.append_assoc]

theorem Elements.render_more_append (rest : Elements) :
  (Elements.more before value after rest).render ++ t
    = before.bytes ++ (value.render ++ (after.bytes ++ Ascii.comma :: (rest.render ++ t)))
  := by
  simp only [Elements.render, List.append_assoc, List.cons_append]

theorem Members.render_last_append :
  (Members.last key before value after).render ++ t
    = key.render ++ (before.bytes ++ (value.render ++ (after.bytes ++ t)))
  := by
  simp only [Members.render, List.append_assoc]

theorem Members.render_more_append (rest : Members) :
  (Members.more key before value after rest).render ++ t
    = key.render
      ++ (before.bytes ++ (value.render ++ (after.bytes ++ Ascii.comma :: (rest.render ++ t))))
  := by
  simp only [Members.render, List.append_assoc, List.cons_append]

/-- The text after the whitespace that is in front of a byte other than whitespace. -/
theorem dropWhile_space_cons (space : Space) {c : UInt8} (hc : isSpace c = false) (t : List UInt8) :
  (space.bytes ++ c :: t).dropWhile isSpace = c :: t
  := by
  have hstops : Stops isSpace (c :: t) := Stops.cons hc t
  rw [space.dropWhile_append, hstops.dropWhile]

/-- What follows an element or a member: whitespace, and then a byte that is not whitespace and
that ends a number or a literal. -/
theorem delimits (after : Space) {c : UInt8} (hc : c ∈ delimiters)
    (hspace : isSpace c = false) (t : List UInt8) :
  Delimited (after.bytes ++ c :: t) ∧ (after.bytes ++ c :: t).dropWhile isSpace = c :: t
  := by
  use (Delimited.cons hc t).space_append after
  apply dropWhile_space_cons after hspace

/-- An element or a member is followed by a comma. -/
theorem delimits_comma :
  Delimited (after.bytes ++ Ascii.comma :: t)
    ∧ (after.bytes ++ Ascii.comma :: t).dropWhile isSpace = Ascii.comma :: t
  := delimits after (by decide) rfl t

/-- The last element is followed by a bracket. -/
theorem delimits_closeBracket :
  Delimited (after.bytes ++ Ascii.closeBracket :: t)
    ∧ (after.bytes ++ Ascii.closeBracket :: t).dropWhile isSpace = Ascii.closeBracket :: t
  := delimits after (by decide) rfl t

/-- The last member is followed by a brace. -/
theorem delimits_closeBrace :
  Delimited (after.bytes ++ Ascii.closeBrace :: t)
    ∧ (after.bytes ++ Ascii.closeBrace :: t).dropWhile isSpace = Ascii.closeBrace :: t
  := delimits after (by decide) rfl t

end Append

theorem Elements.tails_suffix {t : List UInt8} {w : Value × List UInt8} :
  ∀ {elements : Elements}, w ∈ elements.tails t →
    w.1.render ++ w.2 <:+ elements.render ++ t
  | .last before value after, h => by
      obtain rfl := List.mem_singleton.mp h
      use before.bytes
      rw [Elements.render_last_append]
  | .more before value after rest, h => by
      rcases List.mem_cons.mp h with rfl | hrest
      · use before.bytes
        rw [Elements.render_more_append]
      · apply (Elements.tails_suffix hrest).trans
        use before.bytes ++ (value.render ++ (after.bytes ++ [Ascii.comma]))
        simp only [Elements.render, List.append_assoc, List.cons_append, List.nil_append]

theorem Members.tails_suffix {t : List UInt8} {m : Member} :
  ∀ {members : Members}, m ∈ members.tails t →
    m.value.render ++ m.after <:+ members.render ++ t
  | .last key before value after, h => by
      obtain rfl := List.mem_singleton.mp h
      use key.render ++ before.bytes
      rw [Members.render_last_append, List.append_assoc]
  | .more key before value after rest, h => by
      rcases List.mem_cons.mp h with rfl | hrest
      · use key.render ++ before.bytes
        rw [Members.render_more_append, List.append_assoc]
      · apply (Members.tails_suffix hrest).trans
        use key.render ++ (before.bytes ++ (value.render ++ (after.bytes ++ [Ascii.comma])))
        simp only [Members.render, List.append_assoc, List.cons_append, List.nil_append]

theorem Elements.tails_delimited {t : List UInt8} {w : Value × List UInt8} (ht : Delimited t) :
  ∀ {elements : Elements}, w ∈ elements.tails t → Delimited w.2
  | .last _ _ after, h => by
      obtain rfl := List.mem_singleton.mp h
      apply ht.space_append
  | .more _ _ after rest, h => by
      rcases List.mem_cons.mp h with rfl | hrest
      · apply Delimited.space_append
        apply Delimited.cons (by decide)
      · apply Elements.tails_delimited ht hrest

theorem Members.tails_delimited {t : List UInt8} {m : Member} (ht : Delimited t) :
  ∀ {members : Members}, m ∈ members.tails t → Delimited m.after
  | .last _ _ _ after, h => by
      obtain rfl := List.mem_singleton.mp h
      apply ht.space_append
  | .more _ _ _ after rest, h => by
      rcases List.mem_cons.mp h with rfl | hrest
      · apply Delimited.space_append
        apply Delimited.cons (by decide)
      · apply Members.tails_delimited ht hrest

/-- Each element of an array is in front of the elements after it. -/
theorem Elements.tails_pairwise (t : List UInt8) :
  ∀ elements : Elements,
    (elements.tails t).Pairwise fun w w' => w'.1.render ++ w'.2 <:+ w.2
  | .last before value after => List.pairwise_singleton _ _
  | .more before value after rest => by
      apply List.Pairwise.cons
      · intro w hw
        apply (Elements.tails_suffix hw).trans
        apply (List.suffix_cons Ascii.comma _).trans
        apply List.suffix_append after.bytes
      · apply Elements.tails_pairwise t rest

/-- What follows an object follows each of its members. -/
theorem Members.suffix_after {t : List UInt8} {m : Member} :
  ∀ {members : Members}, m ∈ members.tails t → t <:+ m.after
  | .last _ _ _ after, h => by
      obtain rfl := List.mem_singleton.mp h
      apply List.suffix_append after.bytes
  | .more _ _ _ after rest, h => by
      rcases List.mem_cons.mp h with rfl | hrest
      · apply (List.suffix_append rest.render t).trans
        apply (List.suffix_cons Ascii.comma _).trans
        apply List.suffix_append after.bytes
      · apply Members.suffix_after hrest

theorem Value.elements_suffix {v : Value} {t : List UInt8} {elements : List (Value × List UInt8)}
    {w : Value × List UInt8} (h : v.elements t = some elements) (hw : w ∈ elements) :
  w.1.render ++ w.2 <:+ v.render ++ t
  := by
  cases v with
  | emptyArray space =>
    obtain rfl := Option.some.inj h
    cases hw
  | array elements =>
    obtain rfl := Option.some.inj h
    apply (Elements.tails_suffix hw).trans
    rw [Value.render, List.cons_append, List.append_assoc]
    apply List.suffix_cons
  | _ => cases h

theorem Value.elements_pairwise {v : Value} {t : List UInt8}
    {elements : List (Value × List UInt8)} (h : v.elements t = some elements) :
  elements.Pairwise fun w w' => w'.1.render ++ w'.2 <:+ w.2
  := by
  cases v with
  | emptyArray space =>
    obtain rfl := Option.some.inj h
    apply List.Pairwise.nil
  | array elements =>
    obtain rfl := Option.some.inj h
    apply Elements.tails_pairwise
  | _ => cases h

/-- A value with a member is an object. -/
theorem Value.exists_tails {v : Value} {t : List UInt8} {members : List Member} {m : Member}
    (h : v.members t = some members) (hm : m ∈ members) :
  ∃ ms : Members, v = .object ms ∧ m ∈ ms.tails (Ascii.closeBrace :: t)
  := by
  cases v with
  | emptyObject space =>
    obtain rfl := Option.some.inj h
    cases hm
  | object ms =>
    obtain rfl := Option.some.inj h
    use ms, rfl
  | _ => cases h

theorem Value.members_suffix {v : Value} {t : List UInt8} {members : List Member} {m : Member}
    (h : v.members t = some members) (hm : m ∈ members) :
  m.value.render ++ m.after <:+ v.render ++ t
  := by
  obtain ⟨ms, rfl, hm⟩ := Value.exists_tails h hm
  apply (Members.tails_suffix hm).trans
  rw [Value.render, List.cons_append, List.append_assoc]
  apply List.suffix_cons

theorem Value.members_delimited {v : Value} {t : List UInt8} {members : List Member} {m : Member}
    (h : v.members t = some members) (hm : m ∈ members) :
  Delimited m.after
  := by
  obtain ⟨ms, rfl, hm⟩ := Value.exists_tails h hm
  apply Members.tails_delimited (Delimited.cons (by decide) t) hm

/-- A member that is found in a value is in its text, and what follows it does not go on with
it. -/
theorem Value.find?_member {v : Value} {t : List UInt8} {p : Member → Bool} {m : Member}
    (h : ((v.members t).getD []).find? p = some m) :
  m.value.render ++ m.after <:+ v.render ++ t ∧ Delimited m.after
  := by
  cases hv : v.members t with
  | none =>
    rw [hv] at h
    cases h
  | some members =>
    rw [hv] at h
    have hmem := List.mem_of_find?_eq_some h
    exact ⟨Value.members_suffix hv hmem, Value.members_delimited hv hmem⟩

theorem Value.suffix_after {v : Value} {t : List UInt8} {members : List Member} {m : Member}
    (h : v.members t = some members) (hm : m ∈ members) :
  t <:+ m.after
  := by
  obtain ⟨ms, rfl, hm⟩ := Value.exists_tails h hm
  apply (List.suffix_cons Ascii.closeBrace t).trans (Members.suffix_after hm)

theorem Elements.map_tails (t : List UInt8) :
  ∀ elements : Elements, (elements.tails t).map Prod.fst = elements.list
  | .last _ _ _ => rfl
  | .more _ _ _ rest => by
      rw [Elements.tails, List.map_cons, Elements.map_tails t rest]
      rfl

theorem Members.map_tails (t : List UInt8) :
  ∀ members : Members, (members.tails t).map (fun m => (m.name, m.value)) = members.list
  | .last _ _ _ _ => rfl
  | .more _ _ _ _ rest => by
      rw [Members.tails, List.map_cons, Members.map_tails t rest]
      rfl

/-- The elements do not depend on the text after the array. -/
theorem Value.map_elements (v : Value) (t : List UInt8) :
  (v.elements t).map (List.map Prod.fst) = v.items
  := by
  cases v with
  | array elements => exact congrArg some (Elements.map_tails _ elements)
  | _ => rfl

/-- The value of a member does not depend on the text after the object. -/
theorem Value.map_find? (v : Value) (t raw : List UInt8) :
  (((v.members t).getD []).find? fun m => m.name.raw = raw).map Member.value = v.lookup raw
  := by
  cases v with
  | object members =>
    rw [Value.lookup, ← Members.map_tails (Ascii.closeBrace :: t), List.find?_map, Option.map_map]
    rfl
  | _ => rfl

/-- What follows a value that occurs in the text of another does not go on with it. -/
theorem Occurs.delimited {u v : Value} {t t' : List UInt8} (h : Occurs u t' v t)
    (ht : Delimited t) :
  Delimited t'
  := by
  induction h with
  | self => apply ht
  | element hw _ ih =>
    apply ih
    apply Elements.tails_delimited _ hw
    apply Delimited.cons (by decide)
  | member hm _ ih =>
    apply ih
    apply Members.tails_delimited _ hm
    apply Delimited.cons (by decide)

/-! ### Names -/

theorem Str.spells_plain :
  ∀ {s : Str} {text : List UInt8}, s.raw = text →
    (∀ c ∈ text, c ≠ Ascii.backslash ∧ c < 0x80) → s.Spells text
  | [], text, h, _ => by
      obtain rfl : text = [] := h.symm
      rfl
  | part :: s, text, h, htext => by
      have hraw : Str.raw (part :: s) = part.render ++ Str.raw s := rfl
      rw [hraw] at h
      subst h
      cases part with
      | plain c not_control not_quote not_backslash =>
        have hc := (htext c (by simp [Part.render])).2
        have ih := Str.spells_plain (s := s) rfl fun b hb => htext b (by simp [hb])
        rw [Str.Spells] at ih
        simp [Str.Spells, Part.ascii?, Part.render, hc, ih]
      | escape c isEscape =>
        exact absurd rfl (htext Ascii.backslash (by simp [Part.render])).1
      | unicode a b c d isHex =>
        exact absurd rfl (htext Ascii.backslash (by simp [Part.render])).1

/-- A text between quotes that is ASCII and has no backslash stands for itself. -/
theorem Str.spells_raw {s : Str} {text : List UInt8} (h : s.raw = text)
    (htext : text.Forall fun c => c ≠ Ascii.backslash ∧ c < 0x80) :
  s.Spells text
  := Str.spells_plain h (List.forall_iff_forall_mem.mp htext)

theorem Str.Spells.unique {s : Str} {text text' : List UInt8} (h : s.Spells text)
    (h' : s.Spells text') :
  text = text'
  := Option.some.inj (h.symm.trans h')

end Json

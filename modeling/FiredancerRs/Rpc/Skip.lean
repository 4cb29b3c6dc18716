import FiredancerRs.Rpc.JsonScan
import FiredancerRs.Lib.Fuel

/-!
# What the scanner skips

The functions that skip over a string, a number or whitespace depend on the bytes that are
left (`JsonScan.rest`) only: `skipWs_eq`, `skipString_eq`, `skipNumber_eq`. The recursion over
values returns on every input within the fuel it is given, no matter how much more it gets
(`skipValueFuel_total`, `skipValue_eq_of_fuel`). The native stack is not modelled: the recursion goes
as deep as the document nests, which nothing in the source bounds.
-/

namespace FdRpc

open Fuel

namespace JsonScan

variable {s s' : JsonScan}

/-! ### The bytes that are left -/

/-- The bytes from the position on. -/
def rest (s : JsonScan) : Bytes := s.data.drop s.pos

@[simp]
theorem data_advance (s : JsonScan) (n : Nat) :
  (s.advance n).data = s.data
  := rfl

@[simp]
theorem pos_advance (s : JsonScan) (n : Nat) :
  (s.advance n).pos = s.pos + n
  := rfl

@[simp]
theorem rest_advance (s : JsonScan) (n : Nat) :
  (s.advance n).rest = s.rest.drop n
  := by
  rw [rest, rest, List.drop_drop]
  rfl

theorem advance_advance (s : JsonScan) (m n : Nat) :
  (s.advance m).advance n = s.advance (m + n)
  := by
  simp only [advance, Nat.add_assoc]

@[simp]
theorem length_rest (s : JsonScan) :
  s.rest.length = s.data.length - s.pos
  := List.length_drop

theorem peek_eq (s : JsonScan) :
  s.peek = s.rest.head?
  := by
  rw [peek, rest, List.head?_drop]

/-- There are bytes left exactly when the position is in range. -/
theorem pos_lt_iff :
  s.pos < s.data.length ↔ s.rest ≠ []
  := by
  rw [rest, ne_eq, List.drop_eq_nil_iff, Nat.not_le]

theorem ge_length_of_nil (h : s.rest = []) :
  s.pos ≥ s.data.length
  := by
  rw [ge_iff_le, ← Nat.not_lt, pos_lt_iff, h]
  simp

theorem not_ge_length_of_cons {c : UInt8} {t : Bytes} (h : s.rest = c :: t) :
  ¬ s.pos ≥ s.data.length
  := by
  rw [ge_iff_le, Nat.not_le, pos_lt_iff, h]
  simp

theorem index_pos (s : JsonScan) :
  FdRpc.index s.data s.pos = s.rest.head?
  := by
  rw [FdRpc.index, rest, List.head?_drop]

theorem holds_eq (p : UInt8 → Bool) (s : JsonScan) :
  s.holds p = some (s.rest.head?.any p)
  := by
  rw [holds]
  cases h : s.rest with
  | nil =>
    have hpos : ¬ s.pos < s.data.length := by
      rw [pos_lt_iff, h]
      simp
    rw [if_neg hpos]
    rfl
  | cons c t =>
    have hpos : s.pos < s.data.length := by
      rw [pos_lt_iff, h]
      simp
    rw [if_pos hpos, index_pos, h]
    rfl

/-- The loop advances over the bytes that satisfy the predicate. -/
theorem advanceWhile_eq (p : UInt8 → Bool) :
  ∀ {fuel : Nat} {s : JsonScan}, s.rest.length < fuel →
    s.advanceWhile p fuel = some (s.advance (s.rest.takeWhile p).length)
  | 0, _, h => by simp at h
  | fuel + 1, s, h => by
      rw [advanceWhile, holds_eq]
      cases hrest : s.rest with
      | nil => rfl
      | cons c t =>
        cases hc : p c with
        | false =>
          rw [List.takeWhile_cons_of_neg (by simp [hc])]
          simp [hc]
          rfl
        | true =>
          have hnext : (s.advance 1).rest = t := by simp [hrest]
          have hlen : (s.advance 1).rest.length < fuel := by
            rw [hnext]
            rw [hrest, List.length_cons] at h
            omega
          have ih := advanceWhile_eq p hlen
          rw [hnext, advance_advance] at ih
          simp [hc, ih, Nat.add_comm]

theorem length_rest_lt_fuel (s : JsonScan) :
  s.rest.length < s.fuel
  := by
  rw [length_rest, fuel]
  omega

/-- The scan after the whitespace at the position. -/
def afterWs (s : JsonScan) : JsonScan := s.advance (s.rest.takeWhile isWs).length

@[simp]
theorem data_afterWs (s : JsonScan) :
  s.afterWs.data = s.data
  := rfl

@[simp]
theorem rest_afterWs (s : JsonScan) :
  s.afterWs.rest = s.rest.dropWhile isWs
  := by
  rw [afterWs, rest_advance]
  calc
    s.rest.drop (s.rest.takeWhile isWs).length
      = (s.rest.takeWhile isWs ++ s.rest.dropWhile isWs).drop (s.rest.takeWhile isWs).length := by
        rw [List.takeWhile_append_dropWhile]
    _ = s.rest.dropWhile isWs := List.drop_left

theorem skipWs_eq (s : JsonScan) :
  s.skipWs = some s.afterWs
  := advanceWhile_eq isWs s.length_rest_lt_fuel

theorem skipDigits_eq (s : JsonScan) :
  s.skipDigits = some (s.advance (s.rest.takeWhile isAsciiDigit).length)
  := advanceWhile_eq isAsciiDigit s.length_rest_lt_fuel

theorem advanceIf_eq (p : UInt8 → Bool) (s : JsonScan) :
  s.advanceIf p = some (if s.rest.head?.any p then s.advance 1 else s)
  := by
  rw [advanceIf, holds_eq]
  cases s.rest.head?.any p <;> rfl

/-! ### Strings, numbers and literals -/

/-- The number of bytes up to the first quote that is not escaped, and this quote. -/
def stringLen : Bytes → Option Nat
  | [] => none
  | [c] => if c = Ascii.quote then some 1 else none
  | c :: d :: t =>
    if c = Ascii.backslash then
      (stringLen t).map (· + 2)
    else if c = Ascii.quote then
      some 1
    else
      (stringLen (d :: t)).map (· + 1)

theorem stringLen_cons (c : UInt8) (t : Bytes) :
  stringLen (c :: t)
    = if c = Ascii.backslash then
        (stringLen (t.drop 1)).map (· + 2)
      else if c = Ascii.quote then
        some 1
      else
        (stringLen t).map (· + 1)
  := by
  cases t with
  | nil =>
    by_cases hc : c = Ascii.backslash
    · subst hc
      rfl
    · simp [stringLen, hc]
  | cons d t => rfl

/-- Skipping failed somewhere at the position or after it. -/
def FailsFrom (s : JsonScan) (r : Option (Bool × JsonScan)) : Prop :=
  ∃ s', r = some (false, s') ∧ s'.data = s.data ∧ s.pos ≤ s'.pos

theorem FailsFrom.self (s : JsonScan) :
  FailsFrom s (some (false, s))
  := ⟨s, rfl, rfl, Nat.le_refl _⟩

theorem FailsFrom.of_advance {n : Nat} {r : Option (Bool × JsonScan)}
    (h : FailsFrom (s.advance n) r) :
  FailsFrom s r
  := by
  obtain ⟨s', hr, hdata, hpos⟩ := h
  use s', hr, hdata
  rw [pos_advance] at hpos
  omega

/-- The result of a skip that succeeds after `n` bytes, or fails. -/
def SkipsTo (s : JsonScan) (n : Option Nat) (r : Option (Bool × JsonScan)) : Prop :=
  match n with
  | some n => r = some (true, s.advance n)
  | none => FailsFrom s r

/-- A step that succeeds has skipped as many bytes as it should. -/
theorem SkipsTo.eq_advance {n : Option Nat} {r : Option (Bool × JsonScan)} {s' : JsonScan}
    (h : SkipsTo s n r) (hr : r = some (true, s')) :
  ∃ k, n = some k ∧ s' = s.advance k
  := by
  cases n with
  | none =>
    obtain ⟨s'', hfail, -⟩ := h
    simp [hr] at hfail
  | some k =>
    rw [SkipsTo, hr] at h
    use k, rfl
    simpa using h

theorem SkipsTo.of_advance {m : Nat} {n : Option Nat} {r : Option (Bool × JsonScan)}
    (h : SkipsTo (s.advance m) n r) :
  SkipsTo s (n.map (· + m)) r
  := by
  cases n with
  | none => apply FailsFrom.of_advance h
  | some n =>
    rw [SkipsTo] at h
    rw [h, advance_advance, Nat.add_comm]
    rfl

/-- The loop ends after the closing quote, or fails when there is none. -/
theorem skipStringLoop_skipsTo :
  ∀ {fuel : Nat} {s : JsonScan}, s.rest.length < fuel →
    SkipsTo s (stringLen s.rest) (skipStringLoop fuel s)
  | 0, _, h => by simp at h
  | fuel + 1, s, h => by
      rw [skipStringLoop]
      cases hrest : s.rest with
      | nil =>
        rw [if_pos (ge_length_of_nil hrest)]
        apply FailsFrom.self
      | cons c t =>
        have hpos := not_ge_length_of_cons hrest
        have hlen : t.length < fuel := by
          rw [hrest, List.length_cons] at h
          omega
        have hnext (n : Nat) : SkipsTo (s.advance (n + 1)) (stringLen (t.drop n))
            (skipStringLoop fuel (s.advance (n + 1))) := by
          have hdrop : (s.advance (n + 1)).rest = t.drop n := by simp [hrest]
          rw [← hdrop]
          apply skipStringLoop_skipsTo
          rw [hdrop, List.length_drop]
          omega
        rw [if_neg hpos, index_pos, hrest, stringLen_cons]
        change SkipsTo s _ (if c = Ascii.backslash then skipStringLoop fuel (s.advance 2)
          else if c = Ascii.quote then some (true, s.advance 1)
          else skipStringLoop fuel (s.advance 1))
        split
        · apply (hnext 1).of_advance
        · split
          · rfl
          · apply (hnext 0).of_advance

/-- The number of bytes of the string, quotes included, that the bytes start with. -/
def quotedLen (bytes : Bytes) : Option Nat :=
  match bytes with
  | [] => none
  | c :: t => if c = Ascii.quote then (stringLen t).map (· + 1) else none

theorem skipString_skipsTo (s : JsonScan) :
  SkipsTo s (quotedLen s.rest) s.skipString
  := by
  rw [skipString, peek_eq]
  cases hrest : s.rest with
  | nil =>
    rw [if_pos (by simp)]
    apply FailsFrom.self
  | cons c t =>
    by_cases hc : c = Ascii.quote
    · have hnext : (s.advance 1).rest = t := by simp [hrest]
      have hloop : SkipsTo (s.advance 1) (stringLen t) (skipStringLoop s.fuel (s.advance 1)) := by
        rw [← hnext]
        apply skipStringLoop_skipsTo
        have hlen := s.length_rest_lt_fuel
        rw [hrest, List.length_cons] at hlen
        rw [hnext]
        omega
      have hstring := hloop.of_advance
      simpa [quotedLen, hc] using hstring
    · have hne : (c :: t).head? ≠ some Ascii.quote := by simpa using hc
      rw [if_pos hne, quotedLen, if_neg hc]
      apply FailsFrom.self

/-- The number of bytes of a fraction. -/
def fractionLen (bytes : Bytes) : Nat :=
  if bytes.head?.any (· = Ascii.dot) then 1 + ((bytes.drop 1).takeWhile isAsciiDigit).length else 0

theorem skipFraction_eq (s : JsonScan) :
  s.skipFraction = some (s.advance (fractionLen s.rest))
  := by
  rw [skipFraction, holds_eq, fractionLen]
  cases s.rest.head?.any (· = Ascii.dot) with
  | false => rfl
  | true =>
    change (s.advance 1).skipDigits = _
    rw [skipDigits_eq, rest_advance, advance_advance]
    rfl

/-- The number of bytes of an exponent. -/
def exponentLen (bytes : Bytes) : Nat :=
  if bytes.head?.any (fun c => c = Ascii.lowerE || c = Ascii.upperE) then
    if (bytes.drop 1).head?.any (fun c => c = Ascii.plus || c = Ascii.minus) then
      2 + ((bytes.drop 2).takeWhile isAsciiDigit).length
    else
      1 + ((bytes.drop 1).takeWhile isAsciiDigit).length
  else
    0

theorem skipExponent_eq (s : JsonScan) :
  s.skipExponent = some (s.advance (exponentLen s.rest))
  := by
  rw [skipExponent, holds_eq, exponentLen]
  cases s.rest.head?.any (fun c => c = Ascii.lowerE || c = Ascii.upperE) with
  | false => rfl
  | true =>
    change ((s.advance 1).advanceIf _ >>= skipDigits) = _
    rw [advanceIf_eq, rest_advance]
    cases (s.rest.drop 1).head?.any (fun c => c = Ascii.plus || c = Ascii.minus) with
    | false =>
      change (s.advance 1).skipDigits = _
      rw [skipDigits_eq, rest_advance, advance_advance]
      rfl
    | true =>
      change ((s.advance 1).advance 1).skipDigits = _
      rw [advance_advance, skipDigits_eq, rest_advance, advance_advance]
      rfl

/-- The number of bytes of a number without its sign. -/
def unsignedLen (bytes : Bytes) : Option Nat :=
  if bytes.head?.any isAsciiDigit then
    let digits := (bytes.takeWhile isAsciiDigit).length
    let fraction := digits + fractionLen (bytes.drop digits)
    some (fraction + exponentLen (bytes.drop fraction))
  else
    none

/-- The number of bytes of a number. -/
def numberLen (bytes : Bytes) : Option Nat :=
  if bytes.head?.any (· = Ascii.minus) then
    (unsignedLen (bytes.drop 1)).map (· + 1)
  else
    unsignedLen bytes

/-- `skip_number` goes past the number, or back to where it started. -/
theorem skipNumber_eq (s : JsonScan) :
  s.skipNumber
    = match numberLen s.rest with
      | some n => some (true, s.advance n)
      | none => some (false, s)
  := by
  have hunsigned (s' : JsonScan) (hs' : { s' with pos := s.pos } = s) :
      (do
        if ← s'.holds isAsciiDigit then do
          let s ← s'.skipDigits
          let s ← s.skipFraction
          let s ← s.skipExponent
          pure (true, s)
        else
          pure (false, { s' with pos := s.pos }))
        = match unsignedLen s'.rest with
          | some n => some (true, s'.advance n)
          | none => some (false, s) := by
    rw [holds_eq, unsignedLen]
    cases s'.rest.head?.any isAsciiDigit with
    | false => simp [hs']
    | true =>
      simp only [skipDigits_eq, skipFraction_eq, skipExponent_eq, rest_advance, advance_advance,
        Option.bind_eq_bind, Option.bind_some, if_true, List.drop_drop, Nat.add_assoc]
      rfl
  rw [skipNumber, advanceIf_eq, numberLen]
  cases s.rest.head?.any (· = Ascii.minus) with
  | false => apply hunsigned s rfl
  | true =>
    have hminus := hunsigned (s.advance 1) rfl
    rw [rest_advance] at hminus
    apply hminus.trans
    cases unsignedLen (s.rest.drop 1) with
    | none => rfl
    | some n =>
      rw [if_pos rfl]
      dsimp only [Option.map_some]
      rw [advance_advance, Nat.add_comm]

theorem skipLiteral_eq (lit : Bytes) (h : s.pos ≤ s.data.length) :
  s.skipLiteral lit
    = some (if lit.isPrefixOf s.rest then (true, s.advance lit.length) else (false, s))
  := by
  rw [skipLiteral, sliceFrom, if_pos h]
  change (if lit.isPrefixOf s.rest then some (true, s.advance lit.length)
    else some (false, s)) = _
  split <;> rfl

/-! ### More fuel -/

/-- More fuel does not change what the recursion over values returns. -/
theorem skip_extends :
  ∀ n, (∀ s, Extends (skipObjectLoop n s) (skipObjectLoop (n + 1) s))
    ∧ (∀ s, Extends (skipArrayLoop n s) (skipArrayLoop (n + 1) s))
    ∧ (∀ s, Extends (skipObject n s) (skipObject (n + 1) s))
    ∧ (∀ s, Extends (skipArray n s) (skipArray (n + 1) s))
    ∧ ∀ s, Extends (skipValueFuel n s) (skipValueFuel (n + 1) s)
  | 0 => ⟨fun _ => .none _, fun _ => .none _, fun _ => .none _, fun _ => .none _, fun _ => .none _⟩
  | n + 1 => by
      obtain ⟨hobjLoop, harrLoop, hobj, harr, hvalue⟩ := skip_extends n
      refine ⟨fun s => ?_, fun s => ?_, fun s => ?_, fun s => ?_, fun s => ?_⟩
      · rw [skipObjectLoop, skipObjectLoop]
        apply Extends.bind (.refl _)
        intro s
        apply Extends.bind (.refl _)
        rintro ⟨ok, s⟩
        apply Extends.ite (.refl _)
        apply Extends.bind (.refl _)
        intro s
        apply Extends.ite (.refl _)
        apply Extends.bind (hvalue _)
        rintro ⟨ok, s⟩
        apply Extends.ite (.refl _)
        apply Extends.bind (.refl _)
        intro s
        apply Extends.ite (hobjLoop _) (.refl _)
      · rw [skipArrayLoop, skipArrayLoop]
        apply Extends.bind (hvalue _)
        rintro ⟨ok, s⟩
        apply Extends.ite (.refl _)
        apply Extends.bind (.refl _)
        intro s
        apply Extends.ite (harrLoop _) (.refl _)
      · rw [skipObject, skipObject]
        apply Extends.ite (.refl _)
        apply Extends.bind (.refl _)
        intro s
        apply Extends.ite (.refl _) (hobjLoop _)
      · rw [skipArray, skipArray]
        apply Extends.ite (.refl _)
        apply Extends.bind (.refl _)
        intro s
        apply Extends.ite (.refl _) (harrLoop _)
      · rw [skipValueFuel, skipValueFuel]
        apply Extends.bind (.refl _)
        intro s
        cases s.peek with
        | none => apply Extends.refl
        | some c =>
          apply Extends.ite (.refl _)
          apply Extends.ite (hobj _)
          apply Extends.ite (harr _) (.refl _)

theorem skipValueFuel_monotone (s : JsonScan) :
  Monotone fun n => skipValueFuel n s
  := fun n => (skip_extends n).2.2.2.2 s

theorem skipArrayLoop_monotone (s : JsonScan) :
  Monotone fun n => skipArrayLoop n s
  := fun n => (skip_extends n).2.1 s

theorem skipObjectLoop_monotone (s : JsonScan) :
  Monotone fun n => skipObjectLoop n s
  := fun n => (skip_extends n).1 s

end JsonScan

end FdRpc

import FiredancerRs.Lib.Json
import FiredancerRs.Rpc.Safety
import Mathlib.Data.List.DropRight

/-!
# The scanner on JSON texts

A scan that stands in front of a value, with a text after it that does not go on with the
value, skips to the end of the value (`skipValue_value`). The bytes before the value and the
rest of what follows it are arbitrary, so this is about documents that are cut off as well.
-/

open Json

namespace FdRpc

open Fuel

namespace JsonScan

variable {data : Bytes}

/-! ### Scans by the text that is left -/

/-- The scan of the bytes that has the text left. -/
def facing (data u : Bytes) : JsonScan := ⟨data, data.length - u.length⟩

theorem facing_self (data : Bytes) :
  facing data data = ⟨data, 0⟩
  := by
  rw [facing, Nat.sub_self]

theorem rest_facing {u : Bytes} (h : u <:+ data) :
  (facing data u).rest = u
  := by
  obtain ⟨l, rfl⟩ := h
  rw [facing, rest, List.length_append, Nat.add_sub_cancel]
  apply List.drop_left

/-- Scans at texts of different lengths are different. -/
theorem length_eq_of_facing {u u' : Bytes} (h : u <:+ data) (h' : u' <:+ data)
    (heq : facing data u = facing data u') :
  u.length = u'.length
  := by
  have hle := h.length_le
  have hle' := h'.length_le
  have hpos : data.length - u.length = data.length - u'.length := congrArg JsonScan.pos heq
  omega

theorem advance_facing {l u : Bytes} (h : l ++ u <:+ data) :
  (facing data (l ++ u)).advance l.length = facing data u
  := by
  have hle := h.length_le
  rw [List.length_append] at hle
  simp only [facing, advance, List.length_append, JsonScan.mk.injEq, true_and]
  omega

theorem advance_facing_cons {c : UInt8} {u : Bytes} (h : c :: u <:+ data) :
  (facing data (c :: u)).advance 1 = facing data u
  := advance_facing (l := [c]) h

theorem peek_facing {u : Bytes} (h : u <:+ data) :
  (facing data u).peek = u.head?
  := by
  rw [peek_eq, rest_facing h]

theorem dropWhile_suffix {u : Bytes} (h : u <:+ data) (p : UInt8 → Bool) :
  u.dropWhile p <:+ data
  := (List.dropWhile_suffix p).trans h

/-- What is left behind space is at the end of the data. -/
theorem suffix_of_dropWhile {u x : Bytes} (h : u <:+ data) (hu : u.dropWhile isSpace = x) :
  x <:+ data
  := hu ▸ dropWhile_suffix h isSpace

theorem afterWs_facing {u : Bytes} (h : u <:+ data) :
  (facing data u).afterWs = facing data (u.dropWhile isSpace)
  := by
  have happend : u.takeWhile isWs ++ u.dropWhile isWs = u := List.takeWhile_append_dropWhile
  have hadvance (h' : u.takeWhile isWs ++ u.dropWhile isWs <:+ data) := advance_facing h'
  rw [happend] at hadvance
  rw [afterWs, rest_facing h]
  apply hadvance h

theorem skipWs_facing {u : Bytes} (h : u <:+ data) :
  (facing data u).skipWs = some (facing data (u.dropWhile isSpace))
  := by
  rw [skipWs_eq, afterWs_facing h]

/-! ### Strings, numbers and literals -/

theorem stringLen_part (part : Part) (t : Bytes) :
  stringLen (part.render ++ t) = (stringLen t).map (· + part.render.length)
  := by
  cases part with
  | plain c not_control not_quote not_backslash =>
    simp [Part.render, stringLen_cons, not_quote, not_backslash]
  | escape c isEscape => simp [Part.render, stringLen_cons]
  | unicode a b c d isHex =>
    -- a hexadecimal digit is neither a quote nor a backslash
    have hne : ∀ c, Ascii.isHexDigit c = true → c ≠ Ascii.backslash ∧ c ≠ Ascii.quote := by
      rintro c hc
      constructor <;> rintro rfl <;> exact absurd hc (by decide)
    simp only [List.all_cons, List.all_nil, Bool.and_true, Bool.and_eq_true] at isHex
    obtain ⟨ha, hb, hc, hd⟩ := isHex
    simp [Part.render, stringLen_cons, hne _ ha, hne _ hb, hne _ hc, hne _ hd,
      Function.comp_def, Nat.add_assoc]

/-- The closing quote is the first one that is not escaped. -/
theorem stringLen_raw (t : Bytes) :
  ∀ s : Str, stringLen (s.raw ++ Ascii.quote :: t) = some (s.raw.length + 1)
  | [] => by
      have hne : Ascii.quote ≠ Ascii.backslash := by decide
      simp [Str.raw, stringLen_cons, hne]
  | part :: s => by
      have hraw : Str.raw (part :: s) = part.render ++ Str.raw s := rfl
      rw [hraw, List.append_assoc, stringLen_part, stringLen_raw t s, List.length_append]
      simp only [Option.map_some, Option.some.injEq]
      omega

theorem quotedLen_render (s : Str) (t : Bytes) :
  quotedLen (s.render ++ t) = some s.render.length
  := by
  have hlen := stringLen_raw t s
  simp [Str.render, quotedLen, hlen]

theorem skipString_facing {s : Str} {t : Bytes} (h : s.render ++ t <:+ data) :
  (facing data (s.render ++ t)).skipString = some (true, facing data t)
  := by
  have hskip := (facing data (s.render ++ t)).skipString_skipsTo
  rw [rest_facing h, quotedLen_render, SkipsTo, advance_facing h] at hskip
  apply hskip

theorem fractionLen_render {t : Bytes} (ht : Stops isAsciiDigit t) (hdot : Stops (· = Ascii.dot) t) :
  ∀ frac, fractionLen (renderFrac frac ++ t) = (renderFrac frac).length
  | none => by
      cases t with
      | nil => rfl
      | cons c t =>
        have hc : c ≠ Ascii.dot := by simpa using hdot c rfl
        simp [fractionLen, renderFrac, hc]
  | some digits => by
      have htake := ht.takeWhile_append digits.isDigit
      simp [fractionLen, renderFrac, htake, Nat.add_comm]

theorem exponentLen_cons {c : UInt8} (hc : c = Ascii.lowerE ∨ c = Ascii.upperE) (t : Bytes) :
  exponentLen (c :: t)
    = if t.head?.any (fun c => c = Ascii.plus || c = Ascii.minus) then
        2 + ((t.drop 1).takeWhile isAsciiDigit).length
      else
        1 + (t.takeWhile isAsciiDigit).length
  := by
  rcases hc with rfl | rfl <;> rfl

theorem exponentLen_render {t : Bytes} (ht : Delimited t) :
  ∀ exp, exponentLen (renderExp exp ++ t) = (renderExp exp).length
  := by
  intro exp
  cases exp with
  | none =>
    cases t with
    | nil => rfl
    | cons c t =>
      have hc : c ≠ Ascii.lowerE ∧ c ≠ Ascii.upperE := by
        constructor <;> rintro rfl <;> exact absurd (ht _ rfl) (by decide)
      simp [exponentLen, renderExp, hc]
  | some e =>
    obtain ⟨upper, sign, digits⟩ := e
    have hstops : Stops isAsciiDigit t := ht.stops (by decide)
    have htake := hstops.takeWhile_append digits.isDigit
    have hupper : (if upper then Ascii.upperE else Ascii.lowerE) = Ascii.lowerE
        ∨ (if upper then Ascii.upperE else Ascii.lowerE) = Ascii.upperE := by
      cases upper <;> decide
    rw [renderExp, Exponent.render, List.cons_append, exponentLen_cons hupper]
    rcases sign with _ | _ | _
    case none =>
      -- the first digit is not a sign
      have hhead : ((digits.bytes ++ t).head?.any
          fun c => c = Ascii.plus || c = Ascii.minus) = false := by
        obtain ⟨c, l, hbytes, hc⟩ := digits.bytes_eq_cons
        have hne : c ≠ Ascii.plus ∧ c ≠ Ascii.minus := by
          constructor <;> rintro rfl <;> exact absurd hc (by decide)
        simp [hbytes, hne]
      simp only [List.nil_append, hhead, htake, List.length_cons, Bool.false_eq_true, if_false]
      apply Nat.add_comm
    case some.false =>
      simp [htake]
      omega
    case some.true =>
      simp [htake]
      omega

theorem unsignedLen_render (int : Digits) (frac : Option Digits) (exp : Option Exponent)
    {t : Bytes} (ht : Delimited t) :
  unsignedLen (int.bytes ++ (renderFrac frac ++ (renderExp exp ++ t)))
    = some (int.bytes ++ (renderFrac frac ++ renderExp exp)).length
  := by
  have hexp {p : UInt8 → Bool} (hp : delimiters.Forall fun c => p c = false)
      (hlower : p Ascii.lowerE = false) (hupper : p Ascii.upperE = false) :
      Stops p (renderExp exp ++ t) := by
    cases exp with
    | none => apply ht.stops hp
    | some e =>
      apply Stops.cons
      cases e.upper with
      | true => apply hupper
      | false => apply hlower
  have hexpDigit : Stops isAsciiDigit (renderExp exp ++ t) := hexp (by decide) rfl rfl
  have hexpDot : Stops (· = Ascii.dot) (renderExp exp ++ t) := hexp (by decide) rfl rfl
  have hfrac : Stops isAsciiDigit (renderFrac frac ++ (renderExp exp ++ t)) := by
    cases frac with
    | none => apply hexpDigit
    | some digits => apply Stops.cons rfl
  have hhead : (int.bytes ++ (renderFrac frac ++ (renderExp exp ++ t))).head?.any isAsciiDigit
      = true := by
    obtain ⟨c, l, hbytes, hc⟩ := int.bytes_eq_cons
    have hc' : isAsciiDigit c = true := hc
    simp [hbytes, hc']
  have hdrop : (int.bytes ++ (renderFrac frac ++ (renderExp exp ++ t))).drop
      (int.bytes.length + (renderFrac frac).length) = renderExp exp ++ t := by
    rw [← List.drop_drop, List.drop_left, List.drop_left]
  rw [unsignedLen, if_pos hhead, hfrac.takeWhile_append int.isDigit]
  dsimp only
  rw [List.drop_left, fractionLen_render hexpDigit hexpDot, hdrop, exponentLen_render ht]
  simp only [List.length_append, Nat.add_assoc]

theorem numberLen_render {n : Number} {t : Bytes} (ht : Delimited t) :
  numberLen (n.render ++ t) = some n.render.length
  := by
  have hunsigned := unsignedLen_render n.int n.frac n.exp ht
  rw [Number.render, numberLen]
  cases n.neg with
  | true => simp [hunsigned]
  | false =>
    have hhead : (n.int.bytes ++ (renderFrac n.frac ++ (renderExp n.exp ++ t))).head?.any
        (· = Ascii.minus) = false := by
      obtain ⟨c, l, hbytes, hc⟩ := n.int.bytes_eq_cons
      have hne : c ≠ Ascii.minus := by
        rintro rfl
        exact absurd hc (by decide)
      simp [hbytes, hne]
    simp only [Bool.false_eq_true, if_false, List.nil_append, List.append_assoc, hhead, hunsigned]

theorem skipNumber_facing {n : Number} {t : Bytes} (h : n.render ++ t <:+ data)
    (ht : Delimited t) :
  (facing data (n.render ++ t)).skipNumber = some (true, facing data t)
  := by
  rw [skipNumber_eq, rest_facing h, numberLen_render ht]
  dsimp only
  rw [advance_facing h]

theorem skipLiteral_facing {lit t : Bytes} (h : lit ++ t <:+ data) :
  (facing data (lit ++ t)).skipLiteral lit = some (true, facing data t)
  := by
  have hpos : (facing data (lit ++ t)).pos ≤ (facing data (lit ++ t)).data.length :=
    Nat.sub_le _ _
  rw [skipLiteral_eq lit hpos, rest_facing h, advance_facing h, if_pos]
  apply List.isPrefixOf_iff_prefix.mpr (List.prefix_append lit t)

/-! ### The recursion over values -/

/-- How the recursion goes on at the first byte of a value. -/
theorem skipValueFuel_facing {u w : Bytes} {c : UInt8} (n : Nat) (h : u <:+ data)
    (hu : u.dropWhile isSpace = c :: w) :
  skipValueFuel (n + 1) (facing data u)
    = if c = Ascii.quote then
        (facing data (c :: w)).skipString
      else if c = Ascii.openBrace then
        skipObject n (facing data (c :: w))
      else if c = Ascii.openBracket then
        skipArray n (facing data (c :: w))
      else if c = Ascii.lowerT then
        (facing data (c :: w)).skipLiteral trueText
      else if c = Ascii.lowerF then
        (facing data (c :: w)).skipLiteral falseText
      else if c = Ascii.lowerN then
        (facing data (c :: w)).skipLiteral nullText
      else if c = Ascii.minus || isAsciiDigit c then
        (facing data (c :: w)).skipNumber
      else
        some (false, facing data (c :: w))
  := by
  have hsuffix := suffix_of_dropWhile h hu
  rw [skipValueFuel, skipWs_facing h, hu, Option.bind_eq_bind, Option.bind_some,
    peek_facing hsuffix]
  rfl

/-- How an array or an object that is not empty goes on after its first byte. -/
theorem open_tail {opening close : UInt8} {w : Bytes} {f : JsonScan → Option (Bool × JsonScan)}
    (h : opening :: w <:+ data) (hw : (w.dropWhile isSpace).head? ≠ some close) :
  (((facing data (opening :: w)).advance 1).skipWs >>= fun s =>
    if s.peek = some close then pure (true, s.advance 1) else f s)
    = f (facing data (w.dropWhile isSpace))
  := by
  have hsuffix : w <:+ data := (List.suffix_cons _ w).trans h
  rw [advance_facing_cons h, skipWs_facing hsuffix]
  change (if (facing data (w.dropWhile isSpace)).peek = _ then _ else _) = _
  rw [peek_facing (dropWhile_suffix hsuffix _), if_neg hw]

/-- An empty array or object. -/
theorem open_tail_empty {opening close : UInt8} {w t : Bytes}
    {f : JsonScan → Option (Bool × JsonScan)} (h : opening :: w <:+ data)
    (hw : w.dropWhile isSpace = close :: t) :
  (((facing data (opening :: w)).advance 1).skipWs >>= fun s =>
    if s.peek = some close then pure (true, s.advance 1) else f s)
    = some (true, facing data t)
  := by
  have hsuffix : w <:+ data := (List.suffix_cons _ w).trans h
  have hclose := dropWhile_suffix hsuffix isSpace
  rw [hw] at hclose
  rw [advance_facing_cons h, skipWs_facing hsuffix, hw]
  change (if (facing data (close :: t)).peek = _ then
    some (true, (facing data (close :: t)).advance 1) else _) = _
  rw [peek_facing hclose, advance_facing_cons hclose]
  apply if_pos rfl

/-- How both loops go on after a value. -/
theorem loop_tail {close c : UInt8} {w t : Bytes} {f : JsonScan → Option (Bool × JsonScan)}
    (h : w <:+ data) (hw : w.dropWhile isSpace = c :: t) :
  ((facing data w).skipWs >>= fun s =>
    if s.peek = some Ascii.comma then f (s.advance 1)
    else if s.peek = some close then pure (true, s.advance 1)
    else pure (false, s))
    = if c = Ascii.comma then f (facing data t)
      else if c = close then some (true, facing data t)
      else some (false, facing data (c :: t))
  := by
  have hsuffix := suffix_of_dropWhile h hw
  rw [skipWs_facing h, hw]
  change (if (facing data (c :: t)).peek = some Ascii.comma then
    f ((facing data (c :: t)).advance 1) else _) = _
  rw [peek_facing hsuffix, advance_facing_cons hsuffix]
  simp only [List.head?_cons, Option.some.injEq]
  rfl

/-- One round of the loop over an array. -/
theorem skipArrayLoop_facing {u w t : Bytes} {c : UInt8} {n : Nat}
    (hvalue : skipValueFuel n (facing data u) = some (true, facing data w)) (h : w <:+ data)
    (hw : w.dropWhile isSpace = c :: t) :
  skipArrayLoop (n + 1) (facing data u)
    = if c = Ascii.comma then skipArrayLoop n (facing data t)
      else if c = Ascii.closeBracket then some (true, facing data t)
      else some (false, facing data (c :: t))
  := by
  rw [skipArrayLoop, hvalue]
  apply loop_tail h hw

/-- A name and its colon. -/
theorem skipObjectLoop_key {u x : Bytes} {key : Key} {n : Nat} (h : u <:+ data)
    (hu : u.dropWhile isSpace = (key.render ++ x).dropWhile isSpace) :
  x <:+ data ∧ skipObjectLoop (n + 1) (facing data u)
    = (do
        let (ok, s) ← skipValueFuel n (facing data x)
        if !ok then
          pure (false, s)
        else do
          let s ← s.skipWs
          if s.peek = some Ascii.comma then
            skipObjectLoop n (s.advance 1)
          else if s.peek = some Ascii.closeBrace then
            pure (true, s.advance 1)
          else
            pure (false, s))
  := by
  have hname := dropWhile_suffix h isSpace
  rw [hu, key.dropWhile_render] at hname
  have hafter := (List.suffix_append key.name.render _).trans hname
  have hcolon := (List.suffix_append key.after.bytes _).trans hafter
  have hstops : Stops isSpace (Ascii.colon :: x) := Stops.cons rfl x
  use (List.suffix_cons _ x).trans hcolon
  rw [skipObjectLoop, skipWs_facing h, hu, key.dropWhile_render]
  change ((facing data (key.name.render ++ _)).skipString >>= _) = _
  rw [skipString_facing hname]
  change ((facing data (key.after.bytes ++ Ascii.colon :: x)).skipWs >>= _) = _
  rw [skipWs_facing hafter, key.after.dropWhile_append, hstops.dropWhile]
  change (if (facing data (Ascii.colon :: x)).peek ≠ some Ascii.colon then _ else
    skipValueFuel n ((facing data (Ascii.colon :: x)).advance 1) >>= _) = _
  rw [peek_facing hcolon, if_neg (by simp), advance_facing_cons hcolon]

/-- One round of the loop over an object. -/
theorem skipObjectLoop_facing {u x w t : Bytes} {c : UInt8} {key : Key} {n : Nat} (h : u <:+ data)
    (hu : u.dropWhile isSpace = (key.render ++ x).dropWhile isSpace)
    (hvalue : skipValueFuel n (facing data x) = some (true, facing data w)) (hsuffix : w <:+ data)
    (hw : w.dropWhile isSpace = c :: t) :
  skipObjectLoop (n + 1) (facing data u)
    = if c = Ascii.comma then skipObjectLoop n (facing data t)
      else if c = Ascii.closeBrace then some (true, facing data t)
      else some (false, facing data (c :: t))
  := by
  rw [(skipObjectLoop_key h hu).2, hvalue]
  apply loop_tail hsuffix hw

/-- The recursion stops at the end of a number. -/
theorem skipValueFuel_number {n : Number} {u t : Bytes} (h : u <:+ data)
    (hu : u.dropWhile isSpace = n.render ++ t) (ht : Delimited t) :
  skipValueFuel 1 (facing data u) = some (true, facing data t)
  := by
  have hnumber := skipNumber_facing (suffix_of_dropWhile h hu) ht
  obtain ⟨c, l, hrender, hc⟩ := n.render_eq_cons
  rw [hrender, List.cons_append] at hu hnumber
  -- a minus and a digit are none of the bytes that are looked for first
  have hne : ∀ b ∈ [Ascii.quote, Ascii.openBrace, Ascii.openBracket, Ascii.lowerT,
      Ascii.lowerF, Ascii.lowerN], c ≠ b := by
    rintro b hb rfl
    have hfalse : ∀ b ∈ [Ascii.quote, Ascii.openBrace, Ascii.openBracket, Ascii.lowerT,
        Ascii.lowerF, Ascii.lowerN], ¬ (b = Ascii.minus ∨ Ascii.isDigit b = true) :=
      List.forall_iff_forall_mem.mp (by decide)
    apply hfalse _ hb hc
  have hnumeric : (c = Ascii.minus || isAsciiDigit c) = true := by
    rw [Bool.or_eq_true, decide_eq_true_iff]
    apply hc
  rw [skipValueFuel_facing 0 h hu, if_neg (hne _ (by decide)), if_neg (hne _ (by decide)),
    if_neg (hne _ (by decide)), if_neg (hne _ (by decide)), if_neg (hne _ (by decide)),
    if_neg (hne _ (by decide)), if_pos hnumeric, hnumber]

mutual

/-- The recursion stops at the end of the value. -/
theorem skipValueFuel_value :
  ∀ (v : Value) {u t : Bytes}, u <:+ data → u.dropWhile isSpace = v.render ++ t → Delimited t →
    ∃ n, skipValueFuel n (facing data u) = some (true, facing data t)
  | .null, u, t, h, hu, _ => by
      use 1
      rw [skipValueFuel_facing 0 h hu]
      apply skipLiteral_facing (suffix_of_dropWhile h hu)
  | .bool true, u, t, h, hu, _ => by
      use 1
      rw [skipValueFuel_facing 0 h hu]
      apply skipLiteral_facing (suffix_of_dropWhile h hu)
  | .bool false, u, t, h, hu, _ => by
      use 1
      rw [skipValueFuel_facing 0 h hu]
      apply skipLiteral_facing (suffix_of_dropWhile h hu)
  | .number n, u, t, h, hu, ht => by
      use 1
      apply skipValueFuel_number h hu ht
  | .string s, u, t, h, hu, _ => by
      use 1
      rw [skipValueFuel_facing 0 h hu]
      apply skipString_facing (suffix_of_dropWhile h hu)
  | .emptyArray space, u, t, h, hu, _ => by
      rw [Value.render, List.cons_append, List.append_assoc, List.singleton_append] at hu
      have hsuffix := suffix_of_dropWhile h hu
      have hclose := (delimits_closeBracket space t).2
      use 2
      rw [skipValueFuel_facing 1 h hu]
      change skipArray 1 (facing data (Ascii.openBracket :: _)) = _
      rw [skipArray, peek_facing hsuffix, if_neg (by simp)]
      apply open_tail_empty hsuffix hclose
  | .array elements, u, t, h, hu, _ => by
      rw [Value.render, List.cons_append, List.append_assoc, List.singleton_append] at hu
      have hsuffix := suffix_of_dropWhile h hu
      have hinner := (List.suffix_cons _ _).trans hsuffix
      obtain ⟨n, hn⟩ := skipArrayLoop_elements elements (dropWhile_suffix hinner isSpace)
        (List.dropWhile_idempotent _ _)
      have hhead := elements.head_dropWhile_ne (Ascii.closeBracket :: t)
      use n + 2
      rw [skipValueFuel_facing (n + 1) h hu]
      change skipArray (n + 1) (facing data (Ascii.openBracket :: _)) = _
      rw [skipArray, peek_facing hsuffix, if_neg (by simp), ← hn]
      apply open_tail hsuffix hhead
  | .emptyObject space, u, t, h, hu, _ => by
      rw [Value.render, List.cons_append, List.append_assoc, List.singleton_append] at hu
      have hsuffix := suffix_of_dropWhile h hu
      have hclose := (delimits_closeBrace space t).2
      use 2
      rw [skipValueFuel_facing 1 h hu]
      change skipObject 1 (facing data (Ascii.openBrace :: _)) = _
      rw [skipObject, peek_facing hsuffix, if_neg (by simp)]
      apply open_tail_empty hsuffix hclose
  | .object members, u, t, h, hu, _ => by
      rw [Value.render, List.cons_append, List.append_assoc, List.singleton_append] at hu
      have hsuffix := suffix_of_dropWhile h hu
      have hinner := (List.suffix_cons _ _).trans hsuffix
      obtain ⟨n, hn⟩ := skipObjectLoop_members members (dropWhile_suffix hinner isSpace)
        (List.dropWhile_idempotent _ _)
      have hhead := members.head_dropWhile_ne (Ascii.closeBrace :: t)
      use n + 2
      rw [skipValueFuel_facing (n + 1) h hu]
      change skipObject (n + 1) (facing data (Ascii.openBrace :: _)) = _
      rw [skipObject, peek_facing hsuffix, if_neg (by simp), ← hn]
      apply open_tail hsuffix hhead

/-- The loop over an array stops after its closing bracket. -/
theorem skipArrayLoop_elements :
  ∀ (elements : Elements) {u t : Bytes}, u <:+ data →
    u.dropWhile isSpace = (elements.render ++ Ascii.closeBracket :: t).dropWhile isSpace →
    ∃ n, skipArrayLoop n (facing data u) = some (true, facing data t)
  | .last before value after, u, t, h, hu => by
      rw [Elements.render_last_append, Value.dropWhile_space] at hu
      obtain ⟨hdelimited, hclose⟩ := delimits_closeBracket after t
      obtain ⟨n, hn⟩ := skipValueFuel_value value h hu hdelimited
      use n + 1
      have hafter := suffix_of_dropWhile h hu
      rw [skipArrayLoop_facing hn ((List.suffix_append _ _).trans hafter) hclose]
      rfl
  | .more before value after rest, u, t, h, hu => by
      rw [Elements.render_more_append, Value.dropWhile_space] at hu
      obtain ⟨hdelimited, hcomma⟩ := delimits_comma after (rest.render ++ Ascii.closeBracket :: t)
      have hafter := suffix_of_dropWhile h hu
      have hafter := (List.suffix_append _ _).trans hafter
      have hrest := dropWhile_suffix hafter isSpace
      rw [hcomma] at hrest
      obtain ⟨n, hn⟩ := skipValueFuel_value value h hu hdelimited
      obtain ⟨m, hm⟩ := skipArrayLoop_elements rest ((List.suffix_cons _ _).trans hrest) rfl
      use max n m + 1
      have hn := (skipValueFuel_monotone _).le (Nat.le_max_left n m) _ hn
      have hm := (skipArrayLoop_monotone _).le (Nat.le_max_right n m) _ hm
      rw [skipArrayLoop_facing hn hafter hcomma, if_pos rfl, hm]

/-- The loop over an object stops after its closing brace. -/
theorem skipObjectLoop_members :
  ∀ (members : Members) {u t : Bytes}, u <:+ data →
    u.dropWhile isSpace = (members.render ++ Ascii.closeBrace :: t).dropWhile isSpace →
    ∃ n, skipObjectLoop n (facing data u) = some (true, facing data t)
  | .last key before value after, u, t, h, hu => by
      rw [Members.render_last_append] at hu
      obtain ⟨hdelimited, hclose⟩ := delimits_closeBrace after t
      have hx := (skipObjectLoop_key (n := 0) h hu).1
      have hafter := (List.suffix_append value.render _).trans
        ((List.suffix_append before.bytes _).trans hx)
      obtain ⟨n, hn⟩ := skipValueFuel_value value hx (Value.dropWhile_space before value _)
        hdelimited
      use n + 1
      rw [skipObjectLoop_facing h hu hn hafter hclose]
      rfl
  | .more key before value after rest, u, t, h, hu => by
      rw [Members.render_more_append] at hu
      obtain ⟨hdelimited, hcomma⟩ := delimits_comma after (rest.render ++ Ascii.closeBrace :: t)
      have hx := (skipObjectLoop_key (n := 0) h hu).1
      have hafter := (List.suffix_append value.render _).trans
        ((List.suffix_append before.bytes _).trans hx)
      have hrest := dropWhile_suffix hafter isSpace
      rw [hcomma] at hrest
      obtain ⟨n, hn⟩ := skipValueFuel_value value hx (Value.dropWhile_space before value _)
        hdelimited
      obtain ⟨m, hm⟩ := skipObjectLoop_members rest ((List.suffix_cons _ _).trans hrest) rfl
      use max n m + 1
      have hn := (skipValueFuel_monotone _).le (Nat.le_max_left n m) _ hn
      have hm := (skipObjectLoop_monotone _).le (Nat.le_max_right n m) _ hm
      rw [skipObjectLoop_facing h hu hn hafter hcomma, if_pos rfl, hm]

end

/-- In front of a value, or of whitespace before it, `skip_value` stops at the end of the
value. -/
theorem skipValue_value {v : Value} {u t : Bytes} (h : u <:+ data)
    (hu : u.dropWhile isSpace = v.render ++ t) (ht : Delimited t) :
  (facing data u).skipValue = some (true, facing data t)
  := by
  obtain ⟨n, hn⟩ := skipValueFuel_value v h hu ht
  apply skipValue_eq_of_fuel hn

end JsonScan

end FdRpc

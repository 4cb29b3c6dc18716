import FiredancerRs.Http.HeaderValue
import FiredancerRs.Rpc.Lookup
import FiredancerRs.Rpc.JsonRpc

/-!
# What the accessors read from a value

In front of a value, each accessor of the scanner returns what its counterpart on syntax trees
reads from the value, whatever the text after it is.
-/

open Json

namespace FdRpc

namespace JsonScan

variable {data : Bytes}

/-! ### Kinds of values -/

theorem peek_value {v : Value} {t : Bytes} (h : v.render ++ t <:+ data) :
  (facing data (v.render ++ t)).peek = v.render.head?
  := by
  obtain ⟨c, l, hrender, -⟩ := v.render_eq_cons
  rw [peek_facing h, hrender]
  rfl

/-- `is_object` on trees. -/
def isObjectValue : Value → Bool
  | .emptyObject _ => true
  | .object _ => true
  | _ => false

/-- `is_string` on trees. -/
def isStringValue : Value → Bool
  | .string _ => true
  | _ => false

/-- `is_null` on trees. -/
def isNullValue : Value → Bool
  | .null => true
  | _ => false

/-- `as_bool` on trees. -/
def readBool : Value → Option Bool
  | .bool b => some b
  | _ => none

/-- The first byte of a number is none of the bytes that other values start with. -/
theorem head_number_ne (n : Number) :
  ∀ c ∈ [Ascii.quote, Ascii.openBrace, Ascii.openBracket, Ascii.lowerT, Ascii.lowerF,
    Ascii.lowerN], n.render.head? ≠ some c
  := by
  obtain ⟨b, l, hrender, hb⟩ := n.render_eq_cons
  have hne : ∀ c ∈ [Ascii.quote, Ascii.openBrace, Ascii.openBracket, Ascii.lowerT, Ascii.lowerF,
      Ascii.lowerN], ¬ (c = Ascii.minus ∨ Ascii.isDigit c = true) :=
    List.forall_iff_forall_mem.mp (by decide)
  intro c hc hhead
  rw [hrender] at hhead
  obtain rfl : b = c := by simpa using hhead
  apply hne b hc hb

theorem isObject_facing {v : Value} {t : Bytes} (h : v.render ++ t <:+ data) :
  (facing data (v.render ++ t)).isObject = isObjectValue v
  := by
  rw [isObject, peek_value h]
  cases v with
  | number n =>
    have hne := head_number_ne n Ascii.openBrace (by decide)
    rw [Value.render, decide_eq_false hne]
    rfl
  | bool b => cases b <;> rfl
  | null => rfl
  | string s => rfl
  | emptyArray space => rfl
  | array elements => rfl
  | emptyObject space => rfl
  | object members => rfl

theorem isString_facing {v : Value} {t : Bytes} (h : v.render ++ t <:+ data) :
  (facing data (v.render ++ t)).isString = isStringValue v
  := by
  rw [isString, peek_value h]
  cases v with
  | number n =>
    have hne := head_number_ne n Ascii.quote (by decide)
    rw [Value.render, decide_eq_false hne]
    rfl
  | bool b => cases b <;> rfl
  | null => rfl
  | string s => rfl
  | emptyArray space => rfl
  | array elements => rfl
  | emptyObject space => rfl
  | object members => rfl

theorem inRange_facing (data u : Bytes) :
  (facing data u).InRange
  := Nat.sub_le _ _

/-- A literal does not start a text with another first byte. -/
theorem isPrefixOf_false {lit l t : Bytes} (h : l.head? ≠ lit.head?) (hl : l ≠ [])
    (hlit : lit ≠ []) :
  lit.isPrefixOf (l ++ t) = false
  := by
  cases lit with
  | nil => exact absurd rfl hlit
  | cons c lit =>
    cases l with
    | nil => exact absurd rfl hl
    | cons c' l =>
      have hne : c ≠ c' := by
        rintro rfl
        apply h rfl
      change (c == c' && _) = false
      rw [beq_false_of_ne hne, Bool.false_and]

theorem isPrefixOf_self_append (lit t : Bytes) :
  lit.isPrefixOf (lit ++ t) = true
  := List.isPrefixOf_iff_prefix.mpr (List.prefix_append lit t)

theorem isNull_facing {v : Value} {t : Bytes} (h : v.render ++ t <:+ data) :
  (facing data (v.render ++ t)).isNull = some (isNullValue v)
  := by
  have hprefix : (asBytes "null").isPrefixOf (v.render ++ t) = isNullValue v := by
    cases v with
    | null => apply isPrefixOf_self_append
    | number n =>
      apply isPrefixOf_false _ _ (by decide)
      · apply head_number_ne n Ascii.lowerN (by decide)
      · obtain ⟨c, l, hrender, -⟩ := n.render_eq_cons
        simp [Value.render, hrender]
    | bool b => cases b <;> rfl
    | string s => rfl
    | emptyArray space => rfl
    | array elements => rfl
    | emptyObject space => rfl
    | object members => rfl
  rw [isNull, sliceFrom_eq (inRange_facing data _), rest_facing h, ← hprefix]
  rfl

theorem asBool_facing {v : Value} {t : Bytes} (h : v.render ++ t <:+ data) :
  (facing data (v.render ++ t)).asBool = some (readBool v)
  := by
  have hread : readBool v = if (asBytes "true").isPrefixOf (v.render ++ t) then some true
      else if (asBytes "false").isPrefixOf (v.render ++ t) then some false else none := by
    cases v with
    | bool b => cases b <;> rfl
    | number n =>
      have hne : n.render ≠ [] := by
        obtain ⟨c, l, hrender, -⟩ := n.render_eq_cons
        simp [hrender]
      rw [Value.render, isPrefixOf_false (head_number_ne n Ascii.lowerT (by decide)) hne (by decide),
        isPrefixOf_false (head_number_ne n Ascii.lowerF (by decide)) hne (by decide)]
      rfl
    | null => rfl
    | string s => rfl
    | emptyArray space => rfl
    | array elements => rfl
    | emptyObject space => rfl
    | object members => rfl
  rw [asBool, sliceFrom_eq (inRange_facing data _), rest_facing h, hread]
  change (if (asBytes "true").isPrefixOf (v.render ++ t) then some (some true)
    else if (asBytes "false").isPrefixOf (v.render ++ t) then some (some false)
    else some none) = _
  split
  · rfl
  · split <;> rfl

/-! ### Numbers -/

/-- `as_i64` on trees. -/
def readI64 : Value → Option Int
  | .number n => (fromUtf8 n.intText).bind parseI64
  | _ => none

/-- `as_f64` on trees. -/
def readF64 : Value → Option Float64
  | .number n => (fromUtf8 n.render).bind parseF64
  | _ => none

theorem pos_facing_append {l u : Bytes} (h : l ++ u <:+ data) :
  (facing data u).pos = (facing data (l ++ u)).pos + l.length
  := by
  rw [← advance_facing h, pos_advance]

theorem pos_facing_ne {l u : Bytes} (h : l ++ u <:+ data) (hl : l ≠ []) :
  (facing data u).pos ≠ (facing data (l ++ u)).pos
  := by
  have hlen := List.length_pos_iff.mpr hl
  rw [pos_facing_append h]
  omega

theorem skipWs_value {v : Value} {t : Bytes} (h : v.render ++ t <:+ data) :
  (facing data (v.render ++ t)).skipWs = some (facing data (v.render ++ t))
  := by
  rw [skipWs_facing h, (v.stops_render t).dropWhile]

theorem skipDigits_facing {l t : Bytes} (h : l ++ t <:+ data)
    (hl : ∀ c ∈ l, isAsciiDigit c = true) (ht : Stops isAsciiDigit t) :
  (facing data (l ++ t)).skipDigits = some (facing data t)
  := by
  rw [skipDigits_eq, rest_facing h, ht.takeWhile_append hl, advance_facing h]

theorem skipDigits_stops {t : Bytes} (h : t <:+ data) (ht : Stops isAsciiDigit t) :
  (facing data t).skipDigits = some (facing data t)
  := skipDigits_facing (l := []) h (by simp) ht

/-- A value that is not a number does not start with a minus or a digit. -/
theorem head_not_number {v : Value} (h : ∀ n, v ≠ .number n) :
  ∃ c l, v.render = c :: l ∧ c ≠ Ascii.minus ∧ isAsciiDigit c = false
  := by
  cases v with
  | number n => exact absurd rfl (h n)
  | bool b => cases b <;> exact ⟨_, _, rfl, by decide⟩
  | null => exact ⟨_, _, rfl, by decide⟩
  | string s => exact ⟨_, _, rfl, by decide⟩
  | emptyArray space => exact ⟨_, _, rfl, by decide⟩
  | array elements => exact ⟨_, _, rfl, by decide⟩
  | emptyObject space => exact ⟨_, _, rfl, by decide⟩
  | object members => exact ⟨_, _, rfl, by decide⟩

theorem readI64_eq_none {v : Value} (h : ∀ n, v ≠ .number n) :
  readI64 v = none
  := by
  cases v with
  | number n => exact absurd rfl (h n)
  | _ => rfl

theorem readF64_eq_none {v : Value} (h : ∀ n, v ≠ .number n) :
  readF64 v = none
  := by
  cases v with
  | number n => exact absurd rfl (h n)
  | _ => rfl

theorem asF64_number {n : Number} {t : Bytes} (h : n.render ++ t <:+ data) (ht : Delimited t) :
  (facing data (n.render ++ t)).asF64 = some (readF64 (.number n))
  := by
  have hne : n.render ≠ [] := by
    obtain ⟨c, l, hrender, -⟩ := n.render_eq_cons
    simp [hrender]
  have hws : (facing data (n.render ++ t)).skipWs = some (facing data (n.render ++ t)) :=
    skipWs_value (v := .number n) h
  rw [asF64, hws]
  change ((facing data (n.render ++ t)).skipNumber >>= _) = _
  rw [skipNumber_facing h ht]
  change (if (facing data t).pos = (facing data (n.render ++ t)).pos then some none else
    slice data (facing data (n.render ++ t)).pos (facing data t).pos >>= _) = _
  rw [if_neg (pos_facing_ne h hne), slice_facing h]
  rfl

theorem asF64_facing {v : Value} {t : Bytes} (h : v.render ++ t <:+ data) (ht : Delimited t) :
  (facing data (v.render ++ t)).asF64 = some (readF64 v)
  := by
  by_cases hv : ∃ n, v = .number n
  · obtain ⟨n, rfl⟩ := hv
    apply asF64_number h ht
  · obtain ⟨c, l, hrender, hminus, hdigit⟩ := head_not_number (not_exists.mp hv)
    have hnumber : numberLen (v.render ++ t) = none := by
      simp [numberLen, unsignedLen, hrender, hminus, hdigit]
    rw [asF64, skipWs_value h, readF64_eq_none (not_exists.mp hv)]
    change ((facing data (v.render ++ t)).skipNumber >>= _) = _
    rw [skipNumber_eq, rest_facing h, hnumber]
    apply if_pos rfl

theorem stops_after_int {n : Number} {t : Bytes} (ht : Delimited t) :
  Stops isAsciiDigit (renderFrac n.frac ++ (renderExp n.exp ++ t))
  := by
  cases n.frac with
  | some digits => apply Stops.cons rfl
  | none =>
    cases n.exp with
    | none => apply ht.stops (by decide)
    | some e =>
      apply Stops.cons
      cases e.upper <;> rfl

/-- The sign and the digits of an integer part are skipped. -/
theorem skipInt_facing {n : Number} {u : Bytes} (h : n.intText ++ u <:+ data)
    (hu : Stops isAsciiDigit u) :
  ∃ s, (facing data (n.intText ++ u)).advanceIf (· = Ascii.minus) = some s
    ∧ s.skipDigits = some (facing data u)
  := by
  rw [advanceIf_eq, rest_facing h]
  refine ⟨_, rfl, ?_⟩
  cases hneg : n.neg with
  | true =>
    have hint : n.intText ++ u = Ascii.minus :: (n.int.bytes ++ u) := by
      simp [Number.intText, hneg]
    rw [hint] at h ⊢
    change ((facing data (Ascii.minus :: (n.int.bytes ++ u))).advance 1).skipDigits = _
    rw [advance_facing_cons h]
    apply skipDigits_facing ((List.suffix_cons _ _).trans h) n.int.isDigit hu
  | false =>
    have hint : n.intText ++ u = n.int.bytes ++ u := by simp [Number.intText, hneg]
    obtain ⟨c, l, hbytes, hc⟩ := n.int.bytes_eq_cons
    have hminus : c ≠ Ascii.minus := by
      rintro rfl
      exact absurd hc (by decide)
    have hhead : (n.int.bytes ++ u).head?.any (· = Ascii.minus) = false := by
      simp [hbytes, hminus]
    rw [hint] at h ⊢
    rw [hhead]
    apply skipDigits_facing h n.int.isDigit hu

theorem asI64_number {n : Number} {t : Bytes} (h : n.render ++ t <:+ data) (ht : Delimited t) :
  (facing data (n.render ++ t)).asI64 = some (readI64 (.number n))
  := by
  have hws : (facing data (n.render ++ t)).skipWs = some (facing data (n.render ++ t)) :=
    skipWs_value (v := .number n) h
  have hrender : n.render ++ t
      = n.intText ++ (renderFrac n.frac ++ (renderExp n.exp ++ t)) := by
    simp only [Number.render, Number.intText, List.append_assoc]
  have hne : n.intText ≠ [] := by simp [Number.intText, n.int.ne_nil]
  rw [asI64, hws]
  rw [hrender] at h ⊢
  obtain ⟨s, hminus, hdigits⟩ := skipInt_facing h (stops_after_int ht)
  change ((facing data (n.intText ++ _)).advanceIf _ >>= _) = _
  rw [hminus]
  change (s.skipDigits >>= _) = _
  rw [hdigits]
  change (if (facing data _).pos = (facing data (n.intText ++ _)).pos then some none else
    slice data (facing data (n.intText ++ _)).pos (facing data _).pos >>= _) = _
  rw [if_neg (pos_facing_ne h hne), slice_facing h]
  rfl

theorem asI64_facing {v : Value} {t : Bytes} (h : v.render ++ t <:+ data) (ht : Delimited t) :
  (facing data (v.render ++ t)).asI64 = some (readI64 v)
  := by
  by_cases hv : ∃ n, v = .number n
  · obtain ⟨n, rfl⟩ := hv
    apply asI64_number h ht
  · obtain ⟨c, l, hrender, hminus, hdigit⟩ := head_not_number (not_exists.mp hv)
    have hstops : Stops isAsciiDigit (v.render ++ t) := by
      rw [hrender]
      apply Stops.cons hdigit
    rw [asI64, skipWs_value h, readI64_eq_none (not_exists.mp hv)]
    change ((facing data (v.render ++ t)).advanceIf _ >>= _) = _
    rw [advanceIf_eq, rest_facing h]
    have hhead : (v.render ++ t).head?.any (· = Ascii.minus) = false := by
      simp [hrender, hminus]
    rw [hhead]
    change ((facing data (v.render ++ t)).skipDigits >>= _) = _
    rw [skipDigits_stops h hstops]
    apply if_pos rfl

/-! ### Strings -/

/-- ASCII bytes are a string. -/
theorem fromUtf8_ascii {bytes : Bytes} (h : ∀ c ∈ bytes, c < 0x80) :
  fromUtf8 bytes = some bytes
  := by
  have hdecode : Http.decodeUtf8 bytes = some (bytes.map Http.asciiChar) :=
    Http.decodeUtf8_ascii fun c hc => UInt8.lt_iff_toNat_lt.mp (h c hc)
  have hvalid : (ByteArray.mk bytes.toArray).validateUTF8 = true := by
    rw [← ByteArray.isSome_utf8Decode?_eq_validateUTF8, ← Option.isSome_map, ← Http.decodeUtf8,
      hdecode]
    rfl
  rw [fromUtf8, hvalid]
  rfl

/-- `as_str` on trees. -/
def readStr : Value → Option Bytes
  | .string s => fromUtf8 s.raw
  | _ => none

/-- The loop of `as_str` takes what is in front of the closing quote. -/
theorem asStrLoop_eq {start : Nat} :
  ∀ {fuel : Nat} {s : JsonScan}, s.rest.length < fuel →
    asStrLoop s.data start fuel s.pos
      = match stringLen s.rest with
        | none => some none
        | some n =>
          slice s.data start (s.pos + n - 1) >>= fun text => pure (fromUtf8 text)
  | 0, _, h => by simp at h
  | fuel + 1, s, h => by
      rw [asStrLoop]
      cases hrest : s.rest with
      | nil =>
        rw [if_pos (ge_length_of_nil hrest)]
        rfl
      | cons c t =>
        have hpos := not_ge_length_of_cons hrest
        have hlen : t.length < fuel := by
          rw [hrest, List.length_cons] at h
          omega
        have hnext (n : Nat) : asStrLoop s.data start fuel (s.pos + (n + 1))
            = match (stringLen (t.drop n)).map (· + (n + 1)) with
              | none => some none
              | some m =>
                slice s.data start (s.pos + m - 1) >>= fun text => pure (fromUtf8 text) := by
          have hdrop : (s.advance (n + 1)).rest = t.drop n := by simp [hrest]
          have hless : (s.advance (n + 1)).rest.length < fuel := by
            rw [hdrop, List.length_drop]
            omega
          have hloop : asStrLoop s.data start fuel (s.advance (n + 1)).pos = _ :=
            asStrLoop_eq hless
          rw [data_advance, pos_advance, hdrop] at hloop
          rw [hloop]
          cases stringLen (t.drop n) with
          | none => rfl
          | some m =>
            have hadd : s.pos + (n + 1) + m - 1 = s.pos + (m + (n + 1)) - 1 := by omega
            dsimp only [Option.map_some]
            rw [hadd]
        rw [if_neg hpos, index_pos, hrest, stringLen_cons]
        change (if c = Ascii.backslash then asStrLoop s.data start fuel (s.pos + 2)
          else if c = Ascii.quote then _ else asStrLoop s.data start fuel (s.pos + 1)) = _
        split
        · apply hnext 1
        · split
          · rfl
          · apply hnext 0

theorem asStr_string {s : Str} {t : Bytes} (h : s.render ++ t <:+ data) :
  (facing data (s.render ++ t)).asStr = some (fromUtf8 s.raw)
  := by
  have hcons : s.render ++ t = Ascii.quote :: (s.raw ++ Ascii.quote :: t) := by
    simp [Str.render]
  have hslice := slice_name h
  have hend := pos_facing_append h
  rw [hcons] at h hslice hend ⊢
  have hinner := (List.suffix_cons _ _).trans h
  have hstart : (facing data (Ascii.quote :: (s.raw ++ Ascii.quote :: t))).pos + 1
      = (facing data (s.raw ++ Ascii.quote :: t)).pos := by
    rw [← advance_facing_cons h, pos_advance]
  have hfuel : (facing data (s.raw ++ Ascii.quote :: t)).rest.length
      < (facing data (Ascii.quote :: (s.raw ++ Ascii.quote :: t))).fuel := by
    have hlt := (facing data (Ascii.quote :: (s.raw ++ Ascii.quote :: t))).length_rest_lt_fuel
    rw [rest_facing h, List.length_cons] at hlt
    rw [rest_facing hinner]
    omega
  rw [asStr, peek_facing h, if_neg (by simp), hstart]
  apply (asStrLoop_eq hfuel).trans
  rw [rest_facing hinner, stringLen_raw]
  have hlast : (facing data (s.raw ++ Ascii.quote :: t)).pos + (s.raw.length + 1) - 1
      = (facing data t).pos - 1 := by
    rw [hend, ← hstart]
    simp only [Str.render, List.length_cons, List.length_append, List.length_nil]
    omega
  dsimp only
  rw [hlast, ← hstart]
  change (slice data _ _ >>= _) = _
  rw [hslice]
  rfl

theorem asStr_facing {v : Value} {t : Bytes} (h : v.render ++ t <:+ data) :
  (facing data (v.render ++ t)).asStr = some (readStr v)
  := by
  by_cases hv : ∃ s, v = .string s
  · obtain ⟨s, rfl⟩ := hv
    apply asStr_string h
  · have hstring := isString_facing h
    have hread : isStringValue v = false ∧ readStr v = none := by
      cases v with
      | string s => exact absurd ⟨s, rfl⟩ hv
      | _ => exact ⟨rfl, rfl⟩
    rw [hread.1, isString, decide_eq_false_iff_not] at hstring
    rw [asStr, if_pos hstring, hread.2]
    rfl

end JsonScan

end FdRpc

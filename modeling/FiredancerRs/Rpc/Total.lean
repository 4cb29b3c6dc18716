import FiredancerRs.Rpc.Skip

/-!
# The scanner returns

On arbitrary bytes no index and no slice of the scanner is out of range, and its loops and
its recursion end. The recursion over values returns within the fuel `skip_value` gives it
(`skipValue_skipped`), so `skip_value` returns what the recursion returns with any fuel with
which it returns (`skipValue_eq_of_fuel`). The native stack that the depth of the nesting takes is not
modelled.
-/

namespace FdRpc

open Fuel

namespace JsonScan

variable {s s' : JsonScan}

theorem length_takeWhile_le (p : UInt8 → Bool) (bytes : Bytes) :
  (bytes.takeWhile p).length ≤ bytes.length
  := (List.takeWhile_sublist p).length_le

/-- Skipping whitespace stays in range. -/
theorem skipWs_spec (s : JsonScan) :
  ∃ s', s.skipWs = some s' ∧ s'.data = s.data ∧ s.pos ≤ s'.pos
    ∧ (s.pos ≤ s.data.length → s'.pos ≤ s.data.length)
  := by
  use s.afterWs, s.skipWs_eq, rfl
  have hle := length_takeWhile_le isWs s.rest
  rw [length_rest] at hle
  rw [afterWs, pos_advance]
  omega

theorem pos_lt_of_peek {c : UInt8} (h : s.peek = some c) :
  s.pos < s.data.length
  := by
  rw [pos_lt_iff]
  rw [peek_eq] at h
  rintro hnil
  simp [hnil] at h

/-! ### Results of skipping -/

/-- Skipping returns, at a position after the first. When it succeeds it has advanced to a
position in range; when it fails the position may be past the end. -/
def Skipped (s : JsonScan) (r : Option (Bool × JsonScan)) : Prop :=
  ∃ ok s', r = some (ok, s') ∧ s'.data = s.data ∧ s.pos ≤ s'.pos
    ∧ (ok = true → s.pos < s'.pos ∧ s'.pos ≤ s.data.length)

theorem Skipped.fail {r : Option (Bool × JsonScan)} (h : FailsFrom s r) :
  Skipped s r
  := by
  obtain ⟨s', hr, hdata, hpos⟩ := h
  use false, s', hr, hdata, hpos
  rintro ⟨⟩

theorem Skipped.succeed {n : Nat} (hpos : 0 < n) (hle : n ≤ s.rest.length) :
  Skipped s (some (true, s.advance n))
  := by
  rw [length_rest] at hle
  refine ⟨true, s.advance n, rfl, rfl, ?_, fun _ => ?_⟩
  · rw [pos_advance]
    omega
  · rw [pos_advance]
    omega

theorem Skipped.of_skipsTo {n : Option Nat} {r : Option (Bool × JsonScan)} (h : SkipsTo s n r)
    (hn : ∀ m, n = some m → 0 < m ∧ m ≤ s.rest.length) :
  Skipped s r
  := by
  cases n with
  | none => apply Skipped.fail h
  | some m =>
    obtain ⟨hpos, hle⟩ := hn m rfl
    rw [SkipsTo] at h
    rw [h]
    apply Skipped.succeed hpos hle

/-- Skipping from a later position is skipping from the first. -/
theorem Skipped.of_le {s₀ : JsonScan} {r : Option (Bool × JsonScan)} (h : Skipped s r)
    (hdata : s.data = s₀.data) (hpos : s₀.pos ≤ s.pos) :
  Skipped s₀ r
  := by
  obtain ⟨ok, s', hr, hdata', hpos', hok⟩ := h
  refine ⟨ok, s', hr, hdata'.trans hdata, Nat.le_trans hpos hpos', fun htrue => ?_⟩
  obtain ⟨hlt, hle⟩ := hok htrue
  rw [hdata] at hle
  exact ⟨Nat.lt_of_le_of_lt hpos hlt, hle⟩

theorem Skipped.of_advance {n : Nat} {r : Option (Bool × JsonScan)}
    (h : Skipped (s.advance n) r) :
  Skipped s r
  := h.of_le rfl (Nat.le_add_right _ _)

/-- Skipping, and then going on from where it succeeded. -/
theorem Skipped.bind {r : Option (Bool × JsonScan)}
    {f : Bool × JsonScan → Option (Bool × JsonScan)} (h : Skipped s r)
    (hfail : ∀ s', f (false, s') = some (false, s'))
    (hf : ∀ s', s'.data = s.data → s.pos < s'.pos → s'.pos ≤ s.data.length →
      Skipped s' (f (true, s'))) :
  Skipped s (r >>= f)
  := by
  obtain ⟨ok, s', rfl, hdata, hpos, hok⟩ := h
  cases ok with
  | false =>
    change Skipped s (f (false, s'))
    rw [hfail]
    apply Skipped.fail ⟨s', rfl, hdata, hpos⟩
  | true =>
    obtain ⟨hlt, hle⟩ := hok rfl
    apply (hf s' hdata hlt hle).of_le hdata hpos

/-- Skipping whitespace, and then going on. -/
theorem Skipped.skipWs_bind {f : JsonScan → Option (Bool × JsonScan)}
    (hf : ∀ s', s'.data = s.data → s.pos ≤ s'.pos →
      (s.pos ≤ s.data.length → s'.pos ≤ s.data.length) → Skipped s' (f s')) :
  Skipped s (s.skipWs >>= f)
  := by
  obtain ⟨s', hws, hdata, hpos, hle⟩ := s.skipWs_spec
  rw [hws]
  apply (hf s' hdata hpos hle).of_le hdata hpos

theorem stringLen_bounds :
  ∀ {bytes : Bytes} {n : Nat}, stringLen bytes = some n → 0 < n ∧ n ≤ bytes.length
  | [], n, h => by simp [stringLen] at h
  | [c], n, h => by
      rw [stringLen] at h
      split at h
      · obtain rfl := Option.some.inj h
        simp
      · simp at h
  | c :: d :: t, n, h => by
      rw [stringLen] at h
      simp only [List.length_cons]
      split at h
      · obtain ⟨m, hm, rfl⟩ := Option.map_eq_some_iff.mp h
        have ih := stringLen_bounds hm
        omega
      · split at h
        · obtain rfl := Option.some.inj h
          omega
        · obtain ⟨m, hm, rfl⟩ := Option.map_eq_some_iff.mp h
          have ih := stringLen_bounds hm
          rw [List.length_cons] at ih
          omega

theorem quotedLen_bounds {bytes : Bytes} {n : Nat} (h : quotedLen bytes = some n) :
  1 < n ∧ n ≤ bytes.length
  := by
  cases bytes with
  | nil => simp [quotedLen] at h
  | cons c t =>
    rw [quotedLen] at h
    split at h
    · obtain ⟨m, hm, rfl⟩ := Option.map_eq_some_iff.mp h
      have hbounds := stringLen_bounds hm
      rw [List.length_cons]
      omega
    · simp at h

theorem skipString_skipped (s : JsonScan) :
  Skipped s s.skipString
  := by
  apply Skipped.of_skipsTo s.skipString_skipsTo
  intro n hn
  have hbounds := quotedLen_bounds hn
  omega

theorem fractionLen_le (bytes : Bytes) :
  fractionLen bytes ≤ bytes.length
  := by
  rw [fractionLen]
  cases bytes with
  | nil => simp
  | cons c t =>
    have hle := length_takeWhile_le isAsciiDigit t
    split
    · simp only [List.drop_succ_cons, List.drop_zero, List.length_cons]
      omega
    · omega

theorem exponentLen_le (bytes : Bytes) :
  exponentLen bytes ≤ bytes.length
  := by
  rw [exponentLen]
  rcases bytes with _ | ⟨c, _ | ⟨d, t⟩⟩
  · simp
  · simp only [List.drop_succ_cons, List.drop_nil, List.length_cons, List.takeWhile_nil]
    split
    · split <;> simp_all
    · omega
  · have hle := length_takeWhile_le isAsciiDigit t
    have hle' := length_takeWhile_le isAsciiDigit (d :: t)
    simp only [List.drop_succ_cons, List.drop_zero, List.length_cons] at hle' ⊢
    split
    · split <;> omega
    · omega

theorem unsignedLen_bounds {bytes : Bytes} {n : Nat} (h : unsignedLen bytes = some n) :
  0 < n ∧ n ≤ bytes.length
  := by
  rw [unsignedLen] at h
  split at h
  · next hdigit =>
    obtain rfl := Option.some.inj h
    have hdigits : 0 < (bytes.takeWhile isAsciiDigit).length := by
      cases bytes with
      | nil => simp at hdigit
      | cons c t =>
        have hc : isAsciiDigit c = true := by simpa using hdigit
        simp [hc]
    have hle := length_takeWhile_le isAsciiDigit bytes
    have hfraction := fractionLen_le (bytes.drop (bytes.takeWhile isAsciiDigit).length)
    have hexponent := exponentLen_le (bytes.drop ((bytes.takeWhile isAsciiDigit).length
      + fractionLen (bytes.drop (bytes.takeWhile isAsciiDigit).length)))
    rw [List.length_drop] at hfraction hexponent
    omega
  · simp at h

theorem numberLen_bounds {bytes : Bytes} {n : Nat} (h : numberLen bytes = some n) :
  0 < n ∧ n ≤ bytes.length
  := by
  rw [numberLen] at h
  split at h
  · next hminus =>
    obtain ⟨m, hm, rfl⟩ := Option.map_eq_some_iff.mp h
    have hbounds := unsignedLen_bounds hm
    have hlen : 0 < bytes.length := by
      cases bytes with
      | nil => simp at hminus
      | cons c t => simp
    rw [List.length_drop] at hbounds
    omega
  · apply unsignedLen_bounds h

theorem skipNumber_skipped (s : JsonScan) :
  Skipped s s.skipNumber
  := by
  rw [skipNumber_eq]
  cases hn : numberLen s.rest with
  | none => apply Skipped.fail (.self s)
  | some n =>
    obtain ⟨hpos, hle⟩ := numberLen_bounds hn
    apply Skipped.succeed hpos hle

theorem skipLiteral_skipped {lit : Bytes} (hlit : 0 < lit.length) (h : s.pos ≤ s.data.length) :
  Skipped s (s.skipLiteral lit)
  := by
  rw [skipLiteral_eq lit h]
  split
  · next hprefix =>
    apply Skipped.succeed hlit
    apply (List.isPrefixOf_iff_prefix.mp hprefix).length_le
  · apply Skipped.fail (.self s)

/-! ### The recursion over values -/

/-- How both loops go on after a value: they skip whitespace, and then go on after a comma,
end after the closing byte, or fail. -/
theorem skipped_tail {close : UInt8} {f : JsonScan → Option (Bool × JsonScan)}
    (hf : ∀ s', s'.data = s.data → s.pos < s'.pos → s'.pos ≤ s.data.length → Skipped s' (f s')) :
  Skipped s (s.skipWs >>= fun s =>
    if s.peek = some Ascii.comma then f (s.advance 1)
    else if s.peek = some close then pure (true, s.advance 1)
    else pure (false, s))
  := by
  obtain ⟨s', hws, hdata, hpos, -⟩ := s.skipWs_spec
  rw [hws]
  change Skipped s (if s'.peek = some Ascii.comma then f (s'.advance 1)
    else if s'.peek = some close then some (true, s'.advance 1) else some (false, s'))
  split
  · next hpeek =>
    have hlt := pos_lt_of_peek hpeek
    rw [hdata] at hlt
    have hnext : Skipped (s'.advance 1) (f (s'.advance 1)) := by
      apply hf
      · rw [data_advance, hdata]
      · rw [pos_advance]
        omega
      · rw [pos_advance]
        omega
    apply hnext.of_advance.of_le hdata hpos
  · split
    · next hpeek =>
      have hlt := pos_lt_of_peek hpeek
      apply (Skipped.succeed Nat.one_pos _).of_le hdata hpos
      rw [length_rest]
      omega
    · apply Skipped.fail ⟨s', rfl, hdata, hpos⟩

/-- How an object or an array starts: it is empty, or its loop runs. -/
theorem skipped_close {close : UInt8} {r : Option (Bool × JsonScan)} (hr : Skipped s r) :
  Skipped s (if s.peek = some close then pure (true, s.advance 1) else r)
  := by
  split
  · next hpeek =>
    have hlt := pos_lt_of_peek hpeek
    apply Skipped.succeed Nat.one_pos
    rw [length_rest]
    omega
  · apply hr

/-- One pass of the loop over an object, from a fuel with which the loop and the values return. -/
theorem skipObjectLoop_skipped {n : Nat}
    (hobjLoop : ∀ s : JsonScan, 3 * s.rest.length + 2 ≤ n → Skipped s (skipObjectLoop n s))
    (hvalue : ∀ s : JsonScan, 3 * s.rest.length + 1 ≤ n → Skipped s (skipValueFuel n s))
    {s : JsonScan} (h : 3 * s.rest.length + 2 ≤ n + 1) :
  Skipped s (skipObjectLoop (n + 1) s)
  := by
  rw [length_rest] at h
  rw [skipObjectLoop]
  apply Skipped.skipWs_bind
  intro s₁ hdata₁ hpos₁ _
  apply Skipped.bind s₁.skipString_skipped
  · intro s'
    rfl
  intro s₂ hdata₂ hlt₂ hle₂
  apply Skipped.skipWs_bind
  intro s₃ hdata₃ hpos₃ hle₃
  split
  · apply Skipped.fail (.self s₃)
  · have hvalue' : Skipped (s₃.advance 1) (skipValueFuel n (s₃.advance 1)) := by
      apply hvalue
      rw [length_rest, data_advance, pos_advance, hdata₃, hdata₂, hdata₁]
      omega
    apply Skipped.of_advance (n := 1)
    apply Skipped.bind hvalue'
    · intro s'
      rfl
    intro s₄ hdata₄ hlt₄ hle₄
    apply skipped_tail
    intro s₅ hdata₅ hlt₅ hle₅
    apply hobjLoop
    have hdata : s₄.data = s.data := by
      rw [hdata₄, data_advance, hdata₃, hdata₂, hdata₁]
    rw [length_rest, hdata₅, hdata]
    rw [pos_advance] at hlt₄
    rw [hdata] at hle₅
    omega

/-- One pass of the loop over an array. -/
theorem skipArrayLoop_skipped {n : Nat}
    (harrLoop : ∀ s : JsonScan, 3 * s.rest.length + 2 ≤ n → Skipped s (skipArrayLoop n s))
    (hvalue : ∀ s : JsonScan, 3 * s.rest.length + 1 ≤ n → Skipped s (skipValueFuel n s))
    {s : JsonScan} (h : 3 * s.rest.length + 2 ≤ n + 1) :
  Skipped s (skipArrayLoop (n + 1) s)
  := by
  rw [length_rest] at h
  have hvalue' : Skipped s (skipValueFuel n s) := by
    apply hvalue
    rw [length_rest]
    omega
  rw [skipArrayLoop]
  apply Skipped.bind hvalue'
  · intro s'
    rfl
  intro s₁ hdata₁ hlt₁ hle₁
  apply skipped_tail
  intro s₂ hdata₂ hlt₂ hle₂
  apply harrLoop
  rw [hdata₁] at hle₂
  rw [length_rest, hdata₂, hdata₁]
  omega

/-- An object or an array, from a fuel with which its loop returns. -/
theorem open_skipped {opening close : UInt8} {n : Nat}
    {loop : JsonScan → Option (Bool × JsonScan)}
    (hloop : ∀ s : JsonScan, 3 * s.rest.length + 2 ≤ n → Skipped s (loop s))
    {s : JsonScan} (h : 3 * s.rest.length ≤ n + 1) (hne : s.rest ≠ []) :
  Skipped s (if s.peek ≠ some opening then pure (false, s)
    else (s.advance 1).skipWs >>= fun s =>
      if s.peek = some close then pure (true, s.advance 1) else loop s)
  := by
  have hpos := pos_lt_iff.mpr hne
  rw [length_rest] at h
  split
  · apply Skipped.fail (.self s)
  · apply Skipped.of_advance (n := 1)
    apply Skipped.skipWs_bind
    intro s₁ hdata₁ hpos₁ _
    rw [data_advance] at hdata₁
    rw [pos_advance] at hpos₁
    apply skipped_close
    apply hloop
    rw [length_rest, hdata₁]
    omega

/-- A value, by the byte that it starts with. -/
theorem skipValueFuel_skipped {n : Nat}
    (hobj : ∀ s : JsonScan, 3 * s.rest.length ≤ n → s.rest ≠ [] → Skipped s (skipObject n s))
    (harr : ∀ s : JsonScan, 3 * s.rest.length ≤ n → s.rest ≠ [] → Skipped s (skipArray n s))
    {s : JsonScan} (h : 3 * s.rest.length + 1 ≤ n + 1) :
  Skipped s (skipValueFuel (n + 1) s)
  := by
  rw [length_rest] at h
  rw [skipValueFuel]
  apply Skipped.skipWs_bind
  intro s₁ hdata₁ hpos₁ hle₁
  cases hpeek : s₁.peek with
  | none => apply Skipped.fail (.self s₁)
  | some c =>
    have hlt := pos_lt_of_peek hpeek
    have hrest : 3 * s₁.rest.length ≤ n := by
      rw [length_rest, hdata₁]
      omega
    dsimp only
    split
    · apply s₁.skipString_skipped
    split
    · apply hobj s₁ hrest (pos_lt_iff.mp hlt)
    split
    · apply harr s₁ hrest (pos_lt_iff.mp hlt)
    split
    · apply skipLiteral_skipped (by decide) (Nat.le_of_lt hlt)
    split
    · apply skipLiteral_skipped (by decide) (Nat.le_of_lt hlt)
    split
    · apply skipLiteral_skipped (by decide) (Nat.le_of_lt hlt)
    split
    · apply s₁.skipNumber_skipped
    · apply Skipped.fail (.self s₁)

/-- The recursion returns when its fuel is three times the number of bytes that are left. -/
theorem skip_skipped :
  ∀ n,
    (∀ s : JsonScan, 3 * s.rest.length + 2 ≤ n → Skipped s (skipObjectLoop n s))
    ∧ (∀ s : JsonScan, 3 * s.rest.length + 2 ≤ n → Skipped s (skipArrayLoop n s))
    ∧ (∀ s : JsonScan, 3 * s.rest.length ≤ n → s.rest ≠ [] → Skipped s (skipObject n s))
    ∧ (∀ s : JsonScan, 3 * s.rest.length ≤ n → s.rest ≠ [] → Skipped s (skipArray n s))
    ∧ ∀ s : JsonScan, 3 * s.rest.length + 1 ≤ n → Skipped s (skipValueFuel n s)
  | 0 => by
      refine ⟨?_, ?_, ?_, ?_, ?_⟩
      · intro s h
        omega
      · intro s h
        omega
      · intro s h hne
        have hpos := List.length_pos_iff.mpr hne
        omega
      · intro s h hne
        have hpos := List.length_pos_iff.mpr hne
        omega
      · intro s h
        omega
  | n + 1 => by
      obtain ⟨hobjLoop, harrLoop, hobj, harr, hvalue⟩ := skip_skipped n
      refine ⟨fun s => skipObjectLoop_skipped hobjLoop hvalue,
        fun s => skipArrayLoop_skipped harrLoop hvalue, fun s h hne => ?_, fun s h hne => ?_,
        fun s => skipValueFuel_skipped hobj harr⟩
      · rw [skipObject]
        apply open_skipped hobjLoop h hne
      · rw [skipArray]
        apply open_skipped harrLoop h hne

theorem skipValue_skipped (s : JsonScan) :
  Skipped s s.skipValue
  := by
  apply (skip_skipped _).2.2.2.2
  have hlen := s.length_rest_lt_fuel
  omega

/-- `skip_value` returns what the recursion returns with any fuel with which it returns. -/
theorem skipValue_eq_of_fuel {n : Nat} {r : Bool × JsonScan} (h : skipValueFuel n s = some r) :
  s.skipValue = some r
  := by
  apply s.skipValueFuel_monotone.eq_of_isSome h
  obtain ⟨ok, s', hr, -⟩ := s.skipValue_skipped
  apply Option.isSome_iff_exists.mpr ⟨(ok, s'), hr⟩

end JsonScan

end FdRpc

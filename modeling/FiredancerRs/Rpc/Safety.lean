import FiredancerRs.Rpc.Total

/-!
# The scanner is safe on arbitrary bytes

Every scan that is obtained from the bytes of a response, by any chain of `field`,
`array_iter().next()`, `first` and `index`, is at a position of these bytes, and every
function of the scanner returns on it: no index and no slice is out of range, every loop
ends, and every iterator yields none after finitely many items (`scan_safe`). This is so where
the native stack holds the recursion over nested values; its depth is not modelled.
-/

namespace FdRpc

namespace JsonScan

variable {s s' : JsonScan}

/-- The position is in range. -/
def InRange (s : JsonScan) : Prop := s.pos ≤ s.data.length

/-- The function returns, and what it returns is a scan of the same bytes in range. -/
def Lands (data : Bytes) (r : Option (Option JsonScan)) : Prop :=
  ∃ r', r = some r' ∧ ∀ s', r' = some s' → s'.data = data ∧ s'.InRange

theorem Lands.none (data : Bytes) :
  Lands data (some .none)
  := by
  use .none, rfl
  rintro s' ⟨⟩

theorem Lands.some (h : s.InRange) :
  Lands s.data (some (some s))
  := by
  use .some s, rfl
  rintro s' ⟨⟩
  exact ⟨rfl, h⟩

theorem slice_eq {data : Bytes} {lo hi : Nat} (h : lo ≤ hi) (h' : hi ≤ data.length) :
  slice data lo hi = some ((data.take hi).drop lo)
  := if_pos ⟨h, h'⟩

/-! ### Accessors -/

/-- Skipping whitespace returns, at a scan of the same bytes that is in range when the first
is. -/
theorem lands_skipWs {data : Bytes} {f : JsonScan → Option (Option JsonScan)}
    (hf : ∀ s', s'.data = s.data → s.pos ≤ s'.pos → (s.InRange → s'.InRange) →
      Lands data (f s')) :
  Lands data (s.skipWs >>= f)
  := by
  obtain ⟨s', hws, hdata, hpos, hle⟩ := s.skipWs_spec
  rw [hws]
  apply hf s' hdata hpos
  intro hrange
  rw [InRange, hdata]
  apply hle hrange

/-- Skipping a value or a string returns: it fails, or it advances in range. -/
theorem lands_skip {data : Bytes} {r : Option (Bool × JsonScan)}
    {f : Bool × JsonScan → Option (Option JsonScan)} (hr : Skipped s r)
    (hfail : ∀ s', f (false, s') = some none)
    (hf : ∀ s', r = some (true, s') → s'.data = s.data → s.pos < s'.pos → s'.InRange →
      Lands data (f (true, s'))) :
  Lands data (r >>= f)
  := by
  obtain ⟨ok, s', hr, hdata, hpos, hok⟩ := hr
  rw [hr]
  cases ok with
  | false =>
    change Lands data (f (false, s'))
    rw [hfail]
    apply Lands.none
  | true =>
    obtain ⟨hlt, hle⟩ := hok rfl
    rw [← hdata] at hle
    apply hf s' hr hdata hlt hle

/-- The text between the quotes of a string that was skipped can be taken. -/
theorem slice_of_skipString (h : s.skipString = some (true, s')) :
  ∃ key, slice s'.data (s.pos + 1) (s'.pos - 1) = some key
  := by
  obtain ⟨n, hn, rfl⟩ := s.skipString_skipsTo.eq_advance h
  obtain ⟨hlt, hle⟩ := quotedLen_bounds hn
  rw [length_rest] at hle
  rw [pos_advance, data_advance]
  exact ⟨_, slice_eq (by omega) (by omega)⟩

theorem inRange_of_peek {c : UInt8} (h : s.peek = some c) :
  (s.advance 1).InRange
  := by
  have hlt := pos_lt_of_peek h
  rw [InRange, pos_advance, data_advance]
  omega

theorem fieldLoop_lands (target : Bytes) :
  ∀ {n : Nat} {s : JsonScan}, s.rest.length < n → Lands s.data (fieldLoop target n s)
  | 0, _, h => by simp at h
  | n + 1, s, h => by
      rw [length_rest] at h
      rw [fieldLoop]
      apply lands_skipWs
      intro s₁ hdata₁ hpos₁ _
      split
      · apply Lands.none
      apply lands_skip s₁.skipString_skipped
      · intro s'
        rfl
      intro s₂ hskip hdata₂ hlt₂ _
      apply lands_skipWs
      intro s₃ hdata₃ hpos₃ _
      split
      · apply Lands.none
      next hpeek =>
      have hrange := inRange_of_peek (not_ne_iff.mp hpeek)
      apply lands_skipWs
      intro s₄ hdata₄ hpos₄ hrange₄
      rw [data_advance] at hdata₄
      rw [pos_advance] at hpos₄
      obtain ⟨key, hkey⟩ := slice_of_skipString hskip
      rw [hdata₄, hdata₃, hkey]
      change Lands s.data (if key = target then some (some s₄) else _)
      have hdata : s₄.data = s.data := by rw [hdata₄, hdata₃, hdata₂, hdata₁]
      rw [← hdata]
      split
      · apply Lands.some (hrange₄ hrange)
      apply lands_skip s₄.skipValue_skipped
      · intro s'
        rfl
      intro s₅ _ hdata₅ hlt₅ _
      apply lands_skipWs
      intro s₆ hdata₆ hpos₆ _
      split
      · next hpeek =>
        have hlt := pos_lt_of_peek hpeek
        have hdata' : s₆.data = s₄.data := by rw [hdata₆, hdata₅]
        have hnext : Lands (s₆.advance 1).data (fieldLoop target n (s₆.advance 1)) := by
          apply fieldLoop_lands target
          rw [length_rest, data_advance, pos_advance, hdata', hdata]
          rw [hdata', hdata] at hlt
          omega
        rwa [data_advance, hdata'] at hnext
      · apply Lands.none

theorem field_lands (s : JsonScan) (name : Bytes) :
  Lands s.data (s.field name)
  := by
  rw [field]
  apply lands_skipWs
  intro s₁ hdata₁ _ _
  split
  · apply Lands.none
  apply lands_skipWs
  intro s₂ hdata₂ _ _
  split
  · apply Lands.none
  have hdata : s₂.data = s.data := by rw [hdata₂, data_advance, hdata₁]
  rw [← hdata]
  apply fieldLoop_lands name s₂.length_rest_lt_fuel

theorem asStrLoop_isSome (data : Bytes) {start : Nat} :
  ∀ {n pos : Nat}, data.length - pos < n → start ≤ pos → (asStrLoop data start n pos).isSome
  | 0, _, h, _ => by omega
  | n + 1, pos, h, hstart => by
      rw [asStrLoop]
      split
      · rfl
      next hpos =>
      have hlt : pos < data.length := by omega
      rw [FdRpc.index, List.getElem?_eq_getElem hlt]
      change (if data[pos] = Ascii.backslash then asStrLoop data start n (pos + 2)
        else if data[pos] = Ascii.quote then _ else asStrLoop data start n (pos + 1)).isSome
      split
      · apply asStrLoop_isSome data
        · omega
        · omega
      split
      · rw [slice_eq hstart (Nat.le_of_lt hlt)]
        rfl
      · apply asStrLoop_isSome data
        · omega
        · omega

theorem asStr_isSome (s : JsonScan) :
  s.asStr.isSome
  := by
  rw [asStr]
  split
  · rfl
  · apply asStrLoop_isSome
    · rw [fuel]
      omega
    · apply Nat.le_refl

theorem asF64_isSome (h : s.InRange) :
  s.asF64.isSome
  := by
  obtain ⟨s₁, hws, hdata, -, hle⟩ := s.skipWs_spec
  have hrange : s₁.InRange := by
    rw [InRange, hdata]
    apply hle h
  rw [asF64, hws]
  change (s₁.skipNumber >>= _).isSome
  rw [skipNumber_eq]
  cases hn : numberLen s₁.rest with
  | none =>
    change (if s₁.pos = s₁.pos then some none else _).isSome
    rw [if_pos rfl]
    rfl
  | some n =>
    obtain ⟨-, hle⟩ := numberLen_bounds hn
    rw [length_rest] at hle
    change (if s₁.pos + n = s₁.pos then some none else _).isSome
    split
    · rfl
    · rw [InRange] at hrange
      rw [data_advance, pos_advance, slice_eq (by omega) (by omega)]
      rfl

theorem asI64_isSome (h : s.InRange) :
  s.asI64.isSome
  := by
  obtain ⟨s₁, hws, hdata, -, hle⟩ := s.skipWs_spec
  have hrange : s₁.InRange := by
    rw [InRange, hdata]
    apply hle h
  rw [asI64, hws]
  change (s₁.advanceIf _ >>= _).isSome
  rw [advanceIf_eq]
  -- one byte is left when the sign is taken
  have hsign : ∃ n, n ≤ s₁.rest.length ∧ (if s₁.rest.head?.any (· = Ascii.minus) then s₁.advance 1
      else s₁) = s₁.advance n := by
    split
    · next hminus =>
      use 1
      constructor
      · cases hrest : s₁.rest with
        | nil => simp [hrest] at hminus
        | cons c t => simp
      · rfl
    · use 0, Nat.zero_le _
      rfl
  obtain ⟨n, hn, heq⟩ := hsign
  rw [heq]
  change ((s₁.advance n).skipDigits >>= _).isSome
  rw [skipDigits_eq, rest_advance]
  have hdigits := length_takeWhile_le isAsciiDigit (s₁.rest.drop n)
  rw [List.length_drop] at hdigits
  rw [length_rest] at hn hdigits
  change (if s₁.pos + n + _ = s₁.pos then some none else _).isSome
  split
  · rfl
  · rw [InRange] at hrange
    rw [data_advance, pos_advance, data_advance, pos_advance, slice_eq (by omega) (by omega)]
    rfl

theorem sliceFrom_eq (h : s.InRange) :
  sliceFrom s.data s.pos = some s.rest
  := if_pos h

theorem asBool_isSome (h : s.InRange) :
  s.asBool.isSome
  := by
  rw [asBool, sliceFrom_eq h]
  change (if (asBytes "true").isPrefixOf s.rest then some (some true)
    else if (asBytes "false").isPrefixOf s.rest then some (some false) else some none).isSome
  split
  · rfl
  · split <;> rfl

theorem isNull_isSome (h : s.InRange) :
  s.isNull.isSome
  := by
  rw [isNull, sliceFrom_eq h]
  rfl

theorem skipLiteral_isSome (lit : Bytes) (h : s.InRange) :
  (s.skipLiteral lit).isSome
  := by
  rw [skipLiteral_eq lit h]
  rfl

theorem isSome_of_skipped {r : Option (Bool × JsonScan)} (h : Skipped s r) :
  r.isSome
  := by
  obtain ⟨ok, s', hr, -⟩ := h
  apply Option.isSome_iff_exists.mpr ⟨(ok, s'), hr⟩

theorem isSome_of_lands {data : Bytes} {r : Option (Option JsonScan)} (h : Lands data r) :
  r.isSome
  := by
  obtain ⟨r', hr, -⟩ := h
  apply Option.isSome_iff_exists.mpr ⟨r', hr⟩

end JsonScan

open JsonScan

/-! ### Iteration -/

namespace JsonArrayIter

/-- The position of the iterator is in range. -/
def InRange (it : JsonArrayIter) : Prop := it.pos ≤ it.data.length

/-- The scan at the position of the iterator. -/
def scan (it : JsonArrayIter) : JsonScan := ⟨it.data, it.pos⟩

/-- How an iterator goes on after it has skipped the item. -/
def after (item : JsonScan) : Bool × JsonScan → Option (Option JsonScan × JsonArrayIter)
  | (false, _) => some (some item, ⟨item.data, item.pos, true⟩)
  | (true, skip) =>
    if skip.afterWs.peek = some Ascii.comma then
      some (some item, ⟨item.data, skip.afterWs.pos + 1, false⟩)
    else
      some (some item, ⟨item.data, item.pos, true⟩)

/-- An iterator that is not done yields none at the end of the bytes or of the array, and else
the scan after the whitespace. -/
theorem next_eq {it : JsonArrayIter} (h : it.done = false) :
  it.next
    = match it.scan.afterWs.peek with
      | none => some (none, ⟨it.data, it.scan.afterWs.pos, true⟩)
      | some c =>
        if c = Ascii.closeBracket then
          some (none, ⟨it.data, it.scan.afterWs.pos, true⟩)
        else
          it.scan.afterWs.skipValue >>= after it.scan.afterWs
  := by
  rw [next, h, if_neg (by decide)]
  change (it.scan.skipWs >>= _) = _
  rw [skipWs_eq]
  cases hpeek : it.scan.afterWs.peek with
  | none =>
    have hpos : it.scan.afterWs.pos ≥ it.data.length := by
      rw [peek, List.getElem?_eq_none_iff] at hpeek
      apply hpeek
    simp [hpos]
  | some c =>
    have hpos := pos_lt_of_peek hpeek
    have hlt : ¬ it.scan.afterWs.pos ≥ it.data.length := Nat.not_le.mpr hpos
    have hindex : FdRpc.index it.data it.scan.afterWs.pos = some c := hpeek
    simp only [Option.bind_eq_bind, Option.bind_some, hlt, if_false, hindex, Option.pure_def,
      decide_eq_true_iff]
    split
    · rfl
    · cases it.scan.afterWs.skipValue with
      | none => rfl
      | some r =>
        obtain ⟨ok, skip⟩ := r
        cases ok with
        | false => rfl
        | true =>
          simp only [Option.bind_some, Bool.not_true, Bool.false_eq_true, if_false, skipWs_eq]
          rfl

/-- One step of an iterator returns. It yields an item of the same bytes in range, and then
has advanced or is done; or it yields none, and is done. -/
theorem next_spec {it : JsonArrayIter} (h : it.InRange) :
  ∃ item it', it.next = some (item, it') ∧ it'.data = it.data ∧ it'.InRange
    ∧ match item with
      | some s => it.done = false ∧ s.data = it.data ∧ s.InRange
        ∧ (it'.done = true ∨ it.pos < it'.pos)
      | none => it'.done = true
  := by
  cases hdone : it.done with
  | true =>
    have hnext : it.next = some (none, it) := by
      rw [next, hdone]
      rfl
    exact ⟨none, it, hnext, rfl, h, hdone⟩
  | false =>
    obtain ⟨s₁, hws, hdata, hpos, hle⟩ := it.scan.skipWs_spec
    obtain rfl : it.scan.afterWs = s₁ := by simpa [skipWs_eq] using hws
    have hrange : it.scan.afterWs.InRange := hle h
    rw [next_eq hdone]
    cases hpeek : it.scan.afterWs.peek with
    | none => exact ⟨none, _, rfl, rfl, hrange, rfl⟩
    | some c =>
      dsimp only
      split
      · exact ⟨none, _, rfl, rfl, hrange, rfl⟩
      obtain ⟨ok, skip, hskip, hdata', hpos', hok⟩ := it.scan.afterWs.skipValue_skipped
      rw [hskip]
      cases ok with
      | false => exact ⟨some it.scan.afterWs, _, rfl, rfl, hrange, rfl, rfl, hrange, .inl rfl⟩
      | true =>
        change ∃ item it', (if skip.afterWs.peek = some Ascii.comma then _ else _) = _ ∧ _
        split
        · next hcomma =>
          have hlt := pos_lt_of_peek hcomma
          obtain ⟨s₂, hws₂, -, hpos₂, -⟩ := skip.skipWs_spec
          obtain rfl : skip.afterWs = s₂ := by simpa [skipWs_eq] using hws₂
          refine ⟨some it.scan.afterWs, _, rfl, rfl, ?_, rfl, rfl, hrange, .inr ?_⟩
          · rw [data_afterWs, hdata'] at hlt
            apply hlt
          · change it.pos < skip.afterWs.pos + 1
            change it.pos ≤ _ at hpos
            omega
        · exact ⟨some it.scan.afterWs, _, rfl, rfl, hrange, rfl, rfl, hrange, .inl rfl⟩

/-- An iterator yields none after finitely many items. -/
theorem toList_isSome :
  ∀ {n : Nat} {it : JsonArrayIter}, it.InRange →
    (if it.done then 0 else it.data.length - it.pos + 1) < n → (it.toList n).isSome
  | 0, _, _, h => by omega
  | n + 1, it, hrange, h => by
      obtain ⟨item, it', hnext, hdata, hrange', hitem⟩ := next_spec hrange
      rw [toList, hnext]
      cases item with
      | none => rfl
      | some s =>
        obtain ⟨hdone, -, -, hprogress⟩ := hitem
        rw [hdone, if_neg (by decide)] at h
        rw [InRange, hdata] at hrange'
        have hlt : (if it'.done then 0 else it'.data.length - it'.pos + 1) < n := by
          rw [hdata]
          rcases hprogress with hdone' | hpos
          · rw [hdone', if_pos rfl]
            omega
          · split <;> omega
        rw [← hdata] at hrange'
        have ih := toList_isSome hrange' hlt
        obtain ⟨items, hitems⟩ := Option.isSome_iff_exists.mp ih
        change (it'.toList n >>= fun items => some (s :: items)).isSome
        rw [hitems]
        rfl

theorem nth_spec :
  ∀ {n : Nat} {it : JsonArrayIter}, it.InRange → Lands it.data (it.nth n)
  | 0, it, hrange => by
      obtain ⟨item, it', hnext, -, -, hitem⟩ := next_spec hrange
      rw [nth, hnext]
      cases item with
      | none => apply Lands.none
      | some s =>
        obtain ⟨-, hdata, hrange', -⟩ := hitem
        rw [← hdata]
        apply Lands.some hrange'
  | n + 1, it, hrange => by
      obtain ⟨item, it', hnext, hdata, hrange', hitem⟩ := next_spec hrange
      rw [nth, hnext]
      cases item with
      | none => apply Lands.none
      | some s =>
        rw [← hdata]
        apply nth_spec hrange'

end JsonArrayIter

open JsonArrayIter

namespace JsonScan

variable {s : JsonScan}

theorem arrayIter_spec (s : JsonScan) :
  ∃ r, s.arrayIter = some r ∧ ∀ it, r = some it → it.data = s.data ∧ it.InRange
  := by
  rw [arrayIter, skipWs_eq]
  change ∃ r, (if s.afterWs.peek ≠ some Ascii.openBracket then some none
    else (s.afterWs.advance 1).skipWs >>= _) = some r ∧ _
  split
  · exact ⟨none, rfl, by rintro it ⟨⟩⟩
  next hpeek =>
  have hrange := inRange_of_peek (not_ne_iff.mp hpeek)
  obtain ⟨s₁, hws, hdata, -, hle⟩ := (s.afterWs.advance 1).skipWs_spec
  rw [hws]
  refine ⟨_, rfl, ?_⟩
  rintro it ⟨⟩
  use hdata
  change s₁.pos ≤ s₁.data.length
  rw [hdata]
  apply hle hrange

theorem first_lands (s : JsonScan) :
  Lands s.data s.first
  := by
  obtain ⟨r, hr, hit⟩ := arrayIter_spec s
  rw [first, hr]
  cases r with
  | none => apply Lands.none
  | some it =>
    obtain ⟨hdata, hrange⟩ := hit it rfl
    rw [← hdata]
    apply nth_spec (n := 0) hrange

theorem index_lands (s : JsonScan) (idx : Nat) :
  Lands s.data (s.index idx)
  := by
  obtain ⟨r, hr, hit⟩ := arrayIter_spec s
  rw [index, hr]
  cases r with
  | none => apply Lands.none
  | some it =>
    obtain ⟨hdata, hrange⟩ := hit it rfl
    rw [← hdata]
    apply nth_spec hrange

theorem new_spec (data : Bytes) :
  ∃ s, new data = some s ∧ s.data = data ∧ s.InRange
  := by
  obtain ⟨s, hws, hdata, -, hle⟩ := skipWs_spec ⟨data, 0⟩
  use s, hws, hdata
  rw [InRange, hdata]
  apply hle (Nat.zero_le _)

end JsonScan

/-! ### Every scan that can be obtained -/

mutual

/-- The scans that are obtained from the bytes. -/
inductive Obtained (data : Bytes) : JsonScan → Prop
  | new {s : JsonScan} : JsonScan.new data = some s → Obtained data s
  | field {s s' : JsonScan} {name : Bytes} :
      Obtained data s → s.field name = some (some s') → Obtained data s'
  | next {it it' : JsonArrayIter} {s : JsonScan} :
      ObtainedIter data it → it.next = some (some s, it') → Obtained data s
  | first {s s' : JsonScan} : Obtained data s → s.first = some (some s') → Obtained data s'
  | index {s s' : JsonScan} {idx : Nat} :
      Obtained data s → s.index idx = some (some s') → Obtained data s'

/-- The iterators that are obtained from the bytes. -/
inductive ObtainedIter (data : Bytes) : JsonArrayIter → Prop
  | arrayIter {s : JsonScan} {it : JsonArrayIter} :
      Obtained data s → s.arrayIter = some (some it) → ObtainedIter data it
  | next {it it' : JsonArrayIter} {item : Option JsonScan} :
      ObtainedIter data it → it.next = some (item, it') → ObtainedIter data it'

end

theorem of_lands {data : Bytes} {r : Option (Option JsonScan)} {s : JsonScan}
    (h : Lands data r) (hr : r = some (some s)) :
  s.data = data ∧ s.InRange
  := by
  obtain ⟨r', hr', hs⟩ := h
  apply hs
  apply Option.some.inj (hr'.symm.trans hr)

mutual

theorem Obtained.inRange {data : Bytes} {s : JsonScan} :
  Obtained data s → s.data = data ∧ s.InRange
  | .new h => by
      obtain ⟨s', hnew, hdata, hrange⟩ := new_spec data
      obtain rfl := Option.some.inj (hnew.symm.trans h)
      exact ⟨hdata, hrange⟩
  | .field hs h => by
      rw [← hs.inRange.1]
      apply of_lands (field_lands _ _) h
  | .next hit h => by
      obtain ⟨hdata, hrange⟩ := hit.inRange
      obtain ⟨item, it', hnext, -, -, hitem⟩ := next_spec hrange
      obtain ⟨rfl, -⟩ : item = some s ∧ _ := by simpa [h] using hnext.symm
      exact ⟨hitem.2.1.trans hdata, hitem.2.2.1⟩
  | .first hs h => by
      rw [← hs.inRange.1]
      apply of_lands (first_lands _) h
  | .index hs h => by
      rw [← hs.inRange.1]
      apply of_lands (index_lands _ _) h

theorem ObtainedIter.inRange {data : Bytes} {it : JsonArrayIter} :
  ObtainedIter data it → it.data = data ∧ it.InRange
  | .arrayIter hs h => by
      obtain ⟨hdata, hrange⟩ := hs.inRange
      obtain ⟨r, hr, hit⟩ := arrayIter_spec _
      obtain ⟨hdata', hrange'⟩ := hit it (Option.some.inj (hr.symm.trans h))
      exact ⟨hdata'.trans hdata, hrange'⟩
  | .next hit h => by
      obtain ⟨hdata, hrange⟩ := hit.inRange
      obtain ⟨item, it', hnext, hdata', hrange', -⟩ := next_spec hrange
      obtain ⟨-, rfl⟩ : _ ∧ it' = it := by simpa [h] using hnext.symm
      exact ⟨hdata'.trans hdata, hrange'⟩

end

/-- Every function of the scanner returns on the scan, and an iterator over it yields none
after finitely many items. -/
structure Safe (s : JsonScan) : Prop where
  inRange : s.pos ≤ s.data.length
  skipWs : s.skipWs.isSome
  skipString : s.skipString.isSome
  skipNumber : s.skipNumber.isSome
  skipLiteral (lit : Bytes) : (s.skipLiteral lit).isSome
  skipObject (n : Nat) : 3 * s.fuel ≤ n → (s.skipObject n).isSome
  skipArray (n : Nat) : 3 * s.fuel ≤ n → (s.skipArray n).isSome
  skipValue (n : Nat) : 3 * s.fuel ≤ n → (s.skipValueFuel n).isSome
  field (name : Bytes) : (s.field name).isSome
  asStr : s.asStr.isSome
  asF64 : s.asF64.isSome
  asI64 : s.asI64.isSome
  asBool : s.asBool.isSome
  isNull : s.isNull.isSome
  arrayIter : s.arrayIter.isSome
  first : s.first.isSome
  index (idx : Nat) : (s.index idx).isSome

theorem Safe.of_inRange {s : JsonScan} (h : s.InRange) :
  Safe s
  where
  inRange := h
  skipWs := by
    rw [skipWs_eq]
    rfl
  skipString := isSome_of_skipped s.skipString_skipped
  skipNumber := isSome_of_skipped s.skipNumber_skipped
  skipLiteral lit := skipLiteral_isSome lit h
  skipObject n hn := by
    have hlen := s.length_rest_lt_fuel
    by_cases hrest : s.rest = []
    · have hpeek : s.peek ≠ some Ascii.openBrace := by simp [peek_eq, hrest]
      obtain ⟨m, rfl⟩ : ∃ m, n = m + 1 := Nat.exists_eq_add_one.mpr (by omega)
      rw [JsonScan.skipObject, if_pos hpeek]
      rfl
    · apply isSome_of_skipped ((skip_skipped n).2.2.1 s (by omega) hrest)
  skipArray n hn := by
    have hlen := s.length_rest_lt_fuel
    by_cases hrest : s.rest = []
    · have hpeek : s.peek ≠ some Ascii.openBracket := by simp [peek_eq, hrest]
      obtain ⟨m, rfl⟩ : ∃ m, n = m + 1 := Nat.exists_eq_add_one.mpr (by omega)
      rw [JsonScan.skipArray, if_pos hpeek]
      rfl
    · apply isSome_of_skipped ((skip_skipped n).2.2.2.1 s (by omega) hrest)
  skipValue n hn := by
    have hlen := s.length_rest_lt_fuel
    apply isSome_of_skipped ((skip_skipped n).2.2.2.2 s (by omega))
  field name := isSome_of_lands (field_lands s name)
  asStr := s.asStr_isSome
  asF64 := asF64_isSome h
  asI64 := asI64_isSome h
  asBool := asBool_isSome h
  isNull := isNull_isSome h
  arrayIter := by
    obtain ⟨r, hr, -⟩ := arrayIter_spec s
    apply Option.isSome_iff_exists.mpr ⟨r, hr⟩
  first := isSome_of_lands (first_lands s)
  index idx := isSome_of_lands (index_lands s idx)

/-- On every byte string, every scan that is obtained is at a position of these bytes and every
function of the scanner returns on it; and every iterator that is obtained returns at each step,
and yields none after finitely many items. -/
theorem scan_safe (data : Bytes) :
  (∀ s, Obtained data s → s.data = data ∧ Safe s)
    ∧ ∀ it, ObtainedIter data it →
        it.next.isSome ∧ ∃ items, it.toList (data.length + 2) = some items
  := by
  constructor
  · intro s hs
    obtain ⟨hdata, hrange⟩ := hs.inRange
    use hdata
    apply Safe.of_inRange hrange
  · intro it hit
    obtain ⟨hdata, hrange⟩ := hit.inRange
    constructor
    · obtain ⟨item, it', hnext, -⟩ := next_spec hrange
      apply Option.isSome_iff_exists.mpr ⟨_, hnext⟩
    · apply Option.isSome_iff_exists.mp
      apply toList_isSome hrange
      rw [hdata]
      split <;> omega

/-- An array with a string that ends with a backslash. -/
def cutEscape : Bytes := [Ascii.openBracket, Ascii.quote, Ascii.backslash]

theorem scan_safe_cutEscape :
  Safe ⟨cutEscape, 1⟩
  := by
  have hnew : Obtained cutEscape ⟨cutEscape, 0⟩ := .new (by decide)
  have hiter : ObtainedIter cutEscape ⟨cutEscape, 1, false⟩ := .arrayIter hnew (by decide)
  have hnext : JsonArrayIter.next ⟨cutEscape, 1, false⟩
      = some (some ⟨cutEscape, 1⟩, ⟨cutEscape, 1, true⟩) := by
    decide
  apply ((scan_safe cutEscape).1 _ (.next hiter hnext)).2

end FdRpc

import FiredancerRs.Rpc.Total

/-!
# More bytes

What the scanner has skipped over does not change when more bytes follow, as long as bytes are
left after it (`skipValue_extend`, `field_extend`).
-/

namespace FdRpc

namespace JsonScan

variable {s s' : JsonScan}

/-- The scan at the same position, with more bytes at the end. -/
def extend (more : Bytes) (s : JsonScan) : JsonScan := ⟨s.data ++ more, s.pos⟩

theorem advance_extend (more : Bytes) (s : JsonScan) (n : Nat) :
  (s.extend more).advance n = (s.advance n).extend more
  := rfl

/-- Bytes are left. -/
def HasRest (s : JsonScan) : Prop := s.rest ≠ []

theorem hasRest_of_peek {c : UInt8} (h : s.peek = some c) :
  s.HasRest
  := pos_lt_iff.mp (pos_lt_of_peek h)

theorem rest_extend (more : Bytes) (h : s.pos ≤ s.data.length) :
  (s.extend more).rest = s.rest ++ more
  := List.drop_append_of_le_length h

theorem HasRest.rest_extend (h : s.HasRest) (more : Bytes) :
  (s.extend more).rest = s.rest ++ more
  := JsonScan.rest_extend more (Nat.le_of_lt (pos_lt_iff.mpr h))

theorem HasRest.of_advance {n : Nat} (h : (s.advance n).HasRest) :
  s.HasRest
  := by
  intro hnil
  apply h
  rw [rest_advance, hnil, List.drop_nil]

/-- The number of bytes that are skipped leaves some. -/
theorem HasRest.lt_length {n : Nat} (h : (s.advance n).HasRest) :
  n < s.rest.length
  := by
  rw [HasRest, rest_advance, ne_eq, List.drop_eq_nil_iff, Nat.not_le] at h
  apply h

theorem peek_extend {c : UInt8} (h : s.peek = some c) (more : Bytes) :
  (s.extend more).peek = some c
  := by
  rw [peek] at h ⊢
  rw [extend, List.getElem?_append_left (pos_lt_of_peek h), h]

/-! ### Runs of bytes -/

theorem takeWhile_append_of_lt {p : UInt8 → Bool} {l : Bytes} (m : Bytes)
    (h : (l.takeWhile p).length < l.length) :
  (l ++ m).takeWhile p = l.takeWhile p
  := by
  rw [List.takeWhile_append, if_neg (Nat.ne_of_lt h)]

theorem afterWs_extend (h : s.afterWs.HasRest) (more : Bytes) :
  (s.extend more).afterWs = s.afterWs.extend more
  := by
  have hrest := (HasRest.of_advance h).rest_extend more
  rw [afterWs, hrest, takeWhile_append_of_lt more (HasRest.lt_length h)]
  rfl

theorem skipWs_extend (h : s.skipWs = some s') (hrest : s'.HasRest) (more : Bytes) :
  (s.extend more).skipWs = some (s'.extend more)
  := by
  rw [skipWs_eq] at h ⊢
  obtain rfl := Option.some.inj h
  rw [afterWs_extend hrest]

/-! ### Strings and numbers -/

theorem stringLen_append (m : Bytes) :
  ∀ {l : Bytes} {n : Nat}, stringLen l = some n → stringLen (l ++ m) = some n
  | [], _, h => by cases h
  | [c], n, h => by
      rw [List.singleton_append, stringLen_cons]
      rw [stringLen_cons] at h
      split at h
      · cases h
      · split at h
        · next hne hquote => rw [if_neg hne, if_pos hquote, h]
        · cases h
  | c :: d :: t, n, h => by
      rw [List.cons_append, stringLen_cons]
      rw [stringLen_cons] at h
      split at h
      · next hescape =>
        obtain ⟨k, hk, rfl⟩ := Option.map_eq_some_iff.mp h
        have ih : stringLen (t ++ m) = some k := stringLen_append m hk
        rw [if_pos hescape]
        change (stringLen (t ++ m)).map _ = _
        rw [ih]
        rfl
      · next hescape =>
        split at h
        · next hquote => rw [if_neg hescape, if_pos hquote, h]
        · next hquote =>
          obtain ⟨k, hk, rfl⟩ := Option.map_eq_some_iff.mp h
          have ih := stringLen_append m hk
          rw [if_neg hescape, if_neg hquote, ih]
          rfl

theorem quotedLen_append (m : Bytes) {l : Bytes} {n : Nat} (h : quotedLen l = some n) :
  quotedLen (l ++ m) = some n
  := by
  cases l with
  | nil => cases h
  | cons c t =>
    rw [quotedLen] at h
    rw [List.cons_append, quotedLen]
    split at h
    · next hquote =>
      obtain ⟨k, hk, rfl⟩ := Option.map_eq_some_iff.mp h
      rw [if_pos hquote, stringLen_append m hk]
      rfl
    · cases h

theorem skipString_extend (h : s.skipString = some (true, s')) (more : Bytes) :
  (s.extend more).skipString = some (true, s'.extend more)
  := by
  obtain ⟨n, hn, rfl⟩ := s.skipString_skipsTo.eq_advance h
  have hskip := (s.extend more).skipString_skipsTo
  have hrest : s.HasRest := by
    intro hnil
    rw [hnil] at hn
    cases hn
  rw [hrest.rest_extend, quotedLen_append more hn] at hskip
  apply hskip

theorem drop_append_of_lt {l m : Bytes} {n : Nat} (h : n < l.length) :
  (l ++ m).drop n = l.drop n ++ m
  := List.drop_append_of_le_length (Nat.le_of_lt h)

theorem head?_append_of_pos {l m : Bytes} (h : 0 < l.length) :
  (l ++ m).head? = l.head?
  := by
  cases l with
  | nil => cases h
  | cons c t => rfl

theorem fractionLen_append (m : Bytes) {l : Bytes} (h : fractionLen l < l.length) :
  fractionLen (l ++ m) = fractionLen l
  := by
  have hpos : 0 < l.length := by omega
  rw [fractionLen] at h ⊢
  rw [fractionLen, head?_append_of_pos hpos]
  split
  · next hdot =>
    rw [if_pos hdot] at h
    have hlt : 1 < l.length := by omega
    have hdigits : ((l.drop 1).takeWhile isAsciiDigit).length < (l.drop 1).length := by
      rw [List.length_drop]
      omega
    rw [drop_append_of_lt hlt, takeWhile_append_of_lt m hdigits]
  · rfl

theorem exponentLen_append (m : Bytes) {l : Bytes} (h : exponentLen l < l.length) :
  exponentLen (l ++ m) = exponentLen l
  := by
  have hpos : 0 < l.length := by omega
  rw [exponentLen] at h ⊢
  rw [exponentLen, head?_append_of_pos hpos]
  split
  · next hexp =>
    rw [if_pos hexp] at h
    have hlt : 1 < l.length := by split at h <;> omega
    have hpos' : 0 < (l.drop 1).length := by
      rw [List.length_drop]
      omega
    rw [drop_append_of_lt hlt, head?_append_of_pos hpos']
    split
    · next hsign =>
      rw [if_pos hsign] at h
      have hlt' : 2 < l.length := by omega
      have hdigits : ((l.drop 2).takeWhile isAsciiDigit).length < (l.drop 2).length := by
        rw [List.length_drop]
        omega
      rw [drop_append_of_lt hlt', takeWhile_append_of_lt m hdigits]
    · next hsign =>
      rw [if_neg hsign] at h
      have hdigits : ((l.drop 1).takeWhile isAsciiDigit).length < (l.drop 1).length := by
        rw [List.length_drop]
        omega
      rw [takeWhile_append_of_lt m hdigits]
  · rfl

theorem unsignedLen_append (m : Bytes) {l : Bytes} {n : Nat} (h : unsignedLen l = some n)
    (hn : n < l.length) :
  unsignedLen (l ++ m) = some n
  := by
  have hpos : 0 < l.length := by omega
  rw [unsignedLen] at h
  rw [unsignedLen, head?_append_of_pos hpos]
  split at h
  · next hdigit =>
    rw [if_pos hdigit]
    obtain rfl := Option.some.inj h
    have hdigits : (l.takeWhile isAsciiDigit).length < l.length := by omega
    have hfraction : fractionLen (l.drop (l.takeWhile isAsciiDigit).length)
        < (l.drop (l.takeWhile isAsciiDigit).length).length := by
      rw [List.length_drop]
      omega
    have hexponent : exponentLen (l.drop ((l.takeWhile isAsciiDigit).length
          + fractionLen (l.drop (l.takeWhile isAsciiDigit).length)))
        < (l.drop ((l.takeWhile isAsciiDigit).length
          + fractionLen (l.drop (l.takeWhile isAsciiDigit).length))).length := by
      rw [List.length_drop]
      omega
    dsimp only
    rw [takeWhile_append_of_lt m hdigits, drop_append_of_lt hdigits,
      fractionLen_append m hfraction, drop_append_of_lt (by omega),
      exponentLen_append m hexponent]
  · cases h

theorem numberLen_append (m : Bytes) {l : Bytes} {n : Nat} (h : numberLen l = some n)
    (hn : n < l.length) :
  numberLen (l ++ m) = some n
  := by
  have hpos : 0 < l.length := by omega
  rw [numberLen] at h
  rw [numberLen, head?_append_of_pos hpos]
  split at h
  · next hminus =>
    obtain ⟨k, hk, rfl⟩ := Option.map_eq_some_iff.mp h
    have hlt : k < (l.drop 1).length := by
      rw [List.length_drop]
      omega
    rw [if_pos hminus, drop_append_of_lt (by omega), unsignedLen_append m hk hlt]
    rfl
  · next hminus => rw [if_neg hminus, unsignedLen_append m h hn]

theorem skipNumber_extend (h : s.skipNumber = some (true, s')) (hrest : s'.HasRest)
    (more : Bytes) :
  (s.extend more).skipNumber = some (true, s'.extend more)
  := by
  rw [skipNumber_eq] at h ⊢
  cases hn : numberLen s.rest with
  | none =>
    rw [hn] at h
    simp at h
  | some n =>
    rw [hn] at h
    obtain rfl : s.advance n = s' := by simpa using h
    rw [hrest.of_advance.rest_extend, numberLen_append more hn hrest.lt_length]
    rfl

theorem skipLiteral_extend {lit : Bytes} (h : s.skipLiteral lit = some (true, s'))
    (hs : s.HasRest) (more : Bytes) :
  (s.extend more).skipLiteral lit = some (true, s'.extend more)
  := by
  have hpos := Nat.le_of_lt (pos_lt_iff.mpr hs)
  have hpos' : (s.extend more).pos ≤ (s.extend more).data.length := by
    rw [extend, List.length_append]
    apply Nat.le_add_right_of_le hpos
  rw [skipLiteral_eq lit hpos] at h
  rw [skipLiteral_eq lit hpos', hs.rest_extend]
  split at h
  · next hprefix =>
    obtain rfl : s.advance lit.length = s' := by simpa using h
    have hprefix' : lit.isPrefixOf (s.rest ++ more) = true := by
      apply List.isPrefixOf_iff_prefix.mpr
      apply (List.isPrefixOf_iff_prefix.mp hprefix).trans (List.prefix_append _ _)
    rw [if_pos hprefix']
    rfl
  · simp at h

/-! ### The recursion over values -/

/-- What follows the scan does not change what is skipped, as long as bytes are left. -/
def Stable (more : Bytes) (f : JsonScan → Option (Bool × JsonScan)) : Prop :=
  ∀ s s', f s = some (true, s') → s'.HasRest →
    f (s.extend more) = some (true, s'.extend more)

/-- How the loops succeed after a value. -/
theorem tail_true_iff {close : UInt8} {f : JsonScan → Option (Bool × JsonScan)} :
  (s.skipWs >>= fun s =>
    if s.peek = some Ascii.comma then f (s.advance 1)
    else if s.peek = some close then pure (true, s.advance 1)
    else pure (false, s)) = some (true, s')
    ↔ (s.afterWs.peek = some Ascii.comma ∧ f (s.afterWs.advance 1) = some (true, s'))
      ∨ (s.afterWs.peek ≠ some Ascii.comma ∧ s.afterWs.peek = some close
        ∧ s.afterWs.advance 1 = s')
  := by
  rw [skipWs_eq]
  change (if s.afterWs.peek = some Ascii.comma then f (s.afterWs.advance 1)
    else if s.afterWs.peek = some close then some (true, s.afterWs.advance 1)
    else some (false, s.afterWs)) = some (true, s') ↔ _
  split
  · next hcomma => simp [hcomma]
  · next hcomma =>
    split
    · next hclose =>
      rw [hclose] at hcomma
      simp only [hclose, hcomma, false_and, false_or, Option.some.injEq, Prod.mk.injEq, true_and,
        ne_eq, not_false_eq_true]
    · next hclose => simp [hcomma, hclose]

theorem tail_extend {more : Bytes} {close : UInt8} {f : JsonScan → Option (Bool × JsonScan)}
    (hf : Stable more f)
    (h : (s.skipWs >>= fun s =>
      if s.peek = some Ascii.comma then f (s.advance 1)
      else if s.peek = some close then pure (true, s.advance 1)
      else pure (false, s)) = some (true, s')) (hrest : s'.HasRest) :
  s.HasRest ∧ ((s.extend more).skipWs >>= fun s =>
    if s.peek = some Ascii.comma then f (s.advance 1)
    else if s.peek = some close then pure (true, s.advance 1)
    else pure (false, s)) = some (true, s'.extend more)
  := by
  rw [tail_true_iff] at h ⊢
  rcases h with ⟨hcomma, h⟩ | ⟨hcomma, hclose, rfl⟩
  · have hafter := hasRest_of_peek hcomma
    use HasRest.of_advance hafter
    rw [afterWs_extend hafter, peek_extend hcomma]
    apply Or.inl ⟨rfl, hf _ _ h hrest⟩
  · have hafter := hasRest_of_peek hclose
    use HasRest.of_advance hafter
    rw [afterWs_extend hafter, peek_extend hclose]
    rw [hclose] at hcomma
    apply Or.inr ⟨hcomma, rfl, rfl⟩

/-- How an array or an object starts: it is empty, or its loop runs. -/
theorem open_extend {more : Bytes} {opening close : UInt8}
    {f : JsonScan → Option (Bool × JsonScan)} (hf : Stable more f)
    (hstart : ∀ s s', f s = some (true, s') → s.HasRest)
    (h : (if s.peek ≠ some opening then pure (false, s)
      else (s.advance 1).skipWs >>= fun s =>
        if s.peek = some close then pure (true, s.advance 1) else f s) = some (true, s'))
    (hrest : s'.HasRest) :
  (if (s.extend more).peek ≠ some opening then pure (false, s.extend more)
    else ((s.extend more).advance 1).skipWs >>= fun s =>
      if s.peek = some close then pure (true, s.advance 1) else f s)
    = some (true, s'.extend more)
  := by
  split at h
  · simp at h
  next hopening =>
  rw [not_ne_iff] at hopening
  rw [peek_extend hopening, if_neg (by simp), advance_extend]
  rw [skipWs_eq] at h ⊢
  change (if (s.advance 1).afterWs.peek = some close then
    some (true, (s.advance 1).afterWs.advance 1) else f (s.advance 1).afterWs) = _ at h
  split at h
  · next hclose =>
    obtain rfl : (s.advance 1).afterWs.advance 1 = s' := by simpa using h
    rw [afterWs_extend (hasRest_of_peek hclose)]
    change (if ((s.advance 1).afterWs.extend more).peek = some close then _ else _) = _
    rw [peek_extend hclose, if_pos rfl]
    rfl
  · next hclose =>
    have hafter := hstart _ _ h
    rw [afterWs_extend hafter]
    change (if ((s.advance 1).afterWs.extend more).peek = some close then _
      else f ((s.advance 1).afterWs.extend more)) = _
    cases hpeek : (s.advance 1).afterWs.peek with
    | none =>
      rw [peek_eq, List.head?_eq_none_iff] at hpeek
      exact absurd hpeek hafter
    | some c =>
      rw [hpeek] at hclose
      rw [peek_extend hpeek, if_neg hclose]
      apply hf _ _ h hrest

/-- A value that has been skipped started with a byte. -/
theorem hasRest_of_skipped {r : Option (Bool × JsonScan)} (h : Skipped s r)
    (hr : r = some (true, s')) :
  s.HasRest
  := by
  obtain ⟨ok, s'', hr', -, -, hok⟩ := h
  obtain ⟨rfl, rfl⟩ : true = ok ∧ s' = s'' := by simpa [hr] using hr'
  obtain ⟨hlt, hle⟩ := hok rfl
  apply pos_lt_iff.mp (Nat.lt_of_lt_of_le hlt hle)

theorem hasRest_of_skipArrayLoop {n : Nat} (h : skipArrayLoop n s = some (true, s')) :
  s.HasRest
  := by
  have hmore := s.skipArrayLoop_monotone.le (Nat.le_max_left n (3 * s.rest.length + 2)) _ h
  apply hasRest_of_skipped _ hmore
  apply (skip_skipped _).2.1 s (Nat.le_max_right _ _)

theorem hasRest_of_skipObjectLoop {n : Nat} (h : skipObjectLoop n s = some (true, s')) :
  s.HasRest
  := by
  have hmore := s.skipObjectLoop_monotone.le (Nat.le_max_left n (3 * s.rest.length + 2)) _ h
  apply hasRest_of_skipped _ hmore
  apply (skip_skipped _).1 s (Nat.le_max_right _ _)

/-- One pass of the loop over an object. -/
theorem skipObjectLoop_stable {more : Bytes} {n : Nat} (hobjLoop : Stable more (skipObjectLoop n))
    (hvalue : Stable more (skipValueFuel n)) :
  Stable more (skipObjectLoop (n + 1))
  := by
  intro s s' h hrest
  rw [skipObjectLoop] at h ⊢
  obtain ⟨s₁, hws₁, h⟩ := Option.bind_eq_some_iff.mp h
  obtain ⟨⟨ok₂, s₂⟩, hstring, h⟩ := Option.bind_eq_some_iff.mp h
  cases ok₂ with
  | false => cases h
  | true =>
    obtain ⟨s₃, hws₃, h⟩ := Option.bind_eq_some_iff.mp h
    split at h
    · cases h
    next hcolon =>
    rw [not_ne_iff] at hcolon
    obtain ⟨⟨ok₄, s₄⟩, hvalue₄, h⟩ := Option.bind_eq_some_iff.mp h
    cases ok₄ with
    | false => cases h
    | true =>
      change (s₄.skipWs >>= _) = _ at h
      obtain ⟨hrest₄, htail⟩ := tail_extend hobjLoop h hrest
      have hrest₁ : s₁.HasRest := hasRest_of_skipped s₁.skipString_skipped hstring
      rw [skipWs_extend hws₁ hrest₁]
      change ((s₁.extend more).skipString >>= _) = _
      rw [skipString_extend hstring]
      change ((s₂.extend more).skipWs >>= _) = _
      rw [skipWs_extend hws₃ (hasRest_of_peek hcolon)]
      change (if (s₃.extend more).peek ≠ some Ascii.colon then _ else
        skipValueFuel n ((s₃.extend more).advance 1) >>= _) = _
      rw [peek_extend hcolon, if_neg (by simp), advance_extend, hvalue _ _ hvalue₄ hrest₄]
      apply htail

/-- One pass of the loop over an array. -/
theorem skipArrayLoop_stable {more : Bytes} {n : Nat} (harrLoop : Stable more (skipArrayLoop n))
    (hvalue : Stable more (skipValueFuel n)) :
  Stable more (skipArrayLoop (n + 1))
  := by
  intro s s' h hrest
  rw [skipArrayLoop] at h ⊢
  obtain ⟨⟨ok₁, s₁⟩, hvalue₁, h⟩ := Option.bind_eq_some_iff.mp h
  cases ok₁ with
  | false => cases h
  | true =>
    change (s₁.skipWs >>= _) = _ at h
    obtain ⟨hrest₁, htail⟩ := tail_extend harrLoop h hrest
    rw [hvalue _ _ hvalue₁ hrest₁]
    apply htail

/-- A value, by the byte that it starts with. -/
theorem skipValueFuel_stable {more : Bytes} {n : Nat} (hobj : Stable more (skipObject n))
    (harr : Stable more (skipArray n)) :
  Stable more (skipValueFuel (n + 1))
  := by
  intro s s' h hrest
  rw [skipValueFuel] at h ⊢
  rw [skipWs_eq, Option.bind_eq_bind, Option.bind_some] at h
  cases hpeek : s.afterWs.peek with
  | none =>
    rw [hpeek] at h
    cases h
  | some c =>
    have hafter := hasRest_of_peek hpeek
    rw [hpeek] at h
    rw [skipWs_eq, afterWs_extend hafter, Option.bind_eq_bind, Option.bind_some,
      peek_extend hpeek]
    dsimp only at h ⊢
    split at h
    · next hc =>
      rw [if_pos hc]
      apply skipString_extend h
    next hquote =>
    rw [if_neg hquote]
    split at h
    · next hc =>
      rw [if_pos hc]
      apply hobj _ _ h hrest
    next hbrace =>
    rw [if_neg hbrace]
    split at h
    · next hc =>
      rw [if_pos hc]
      apply harr _ _ h hrest
    next hbracket =>
    rw [if_neg hbracket]
    split at h
    · next hc =>
      rw [if_pos hc]
      apply skipLiteral_extend h hafter
    next htrue =>
    rw [if_neg htrue]
    split at h
    · next hc =>
      rw [if_pos hc]
      apply skipLiteral_extend h hafter
    next hfalse =>
    rw [if_neg hfalse]
    split at h
    · next hc =>
      rw [if_pos hc]
      apply skipLiteral_extend h hafter
    next hnull =>
    rw [if_neg hnull]
    split at h
    · next hc =>
      rw [if_pos hc]
      apply skipNumber_extend h hrest
    · cases h

/-- What the recursion has skipped does not change when more bytes follow. -/
theorem skip_stable (more : Bytes) :
  ∀ n, Stable more (skipObjectLoop n) ∧ Stable more (skipArrayLoop n)
    ∧ Stable more (skipObject n) ∧ Stable more (skipArray n) ∧ Stable more (skipValueFuel n)
  | 0 => by
      refine ⟨?_, ?_, ?_, ?_, ?_⟩ <;> intro s s' h <;> cases h
  | n + 1 => by
      obtain ⟨hobjLoop, harrLoop, hobj, harr, hvalue⟩ := skip_stable more n
      refine ⟨skipObjectLoop_stable hobjLoop hvalue, skipArrayLoop_stable harrLoop hvalue, ?_, ?_,
        skipValueFuel_stable hobj harr⟩
      · intro s s' h hrest
        rw [skipObject] at h ⊢
        apply open_extend hobjLoop (fun _ _ => hasRest_of_skipObjectLoop) h hrest
      · intro s s' h hrest
        rw [skipArray] at h ⊢
        apply open_extend harrLoop (fun _ _ => hasRest_of_skipArrayLoop) h hrest

theorem skipValue_extend (more : Bytes) :
  Stable more skipValue
  := by
  intro s s' h hrest
  apply skipValue_eq_of_fuel ((skip_stable more _).2.2.2.2 _ _ h hrest)

/-! ### Members -/

theorem slice_append {data key : Bytes} {lo hi : Nat} (h : slice data lo hi = some key)
    (more : Bytes) :
  slice (data ++ more) lo hi = some key
  := by
  rw [slice] at h ⊢
  split at h
  · next hle =>
    have hle' : lo ≤ hi ∧ hi ≤ (data ++ more).length := by
      rw [List.length_append]
      omega
    rw [if_pos hle', List.take_append_of_le_length hle.2, h]
  · cases h

theorem fieldLoop_monotone (target : Bytes) (s : JsonScan) :
  Fuel.Monotone fun n => fieldLoop target n s
  := by
  intro n
  dsimp only
  induction n generalizing s with
  | zero => apply Fuel.Extends.none
  | succ n ih =>
    rw [fieldLoop, fieldLoop]
    apply Fuel.Extends.bind (.refl _)
    intro s
    apply Fuel.Extends.ite (.refl _)
    apply Fuel.Extends.bind (.refl _)
    rintro ⟨ok, s⟩
    apply Fuel.Extends.ite (.refl _)
    apply Fuel.Extends.bind (.refl _)
    intro s
    apply Fuel.Extends.ite (.refl _)
    apply Fuel.Extends.bind (.refl _)
    intro s
    apply Fuel.Extends.bind (.refl _)
    intro key
    apply Fuel.Extends.ite (.refl _)
    apply Fuel.Extends.bind (.refl _)
    rintro ⟨ok, s⟩
    apply Fuel.Extends.ite (.refl _)
    apply Fuel.Extends.bind (.refl _)
    intro s
    apply Fuel.Extends.ite (ih _) (.refl _)

/-- A key is read, and the scan goes on behind its colon. -/
def ReadsKey (s s₄ : JsonScan) (key : Bytes) : Prop :=
  ∃ s₁ s₂ s₃, s.skipWs = some s₁ ∧ s₁.peek = some Ascii.quote
    ∧ s₁.skipString = some (true, s₂) ∧ s₂.skipWs = some s₃ ∧ s₃.peek = some Ascii.colon
    ∧ (s₃.advance 1).skipWs = some s₄ ∧ slice s₄.data (s₁.pos + 1) (s₂.pos - 1) = some key

/-- A member is found after a key, or the scan goes on behind a comma. -/
def GoesOn (target : Bytes) (n : Nat) (s s' : JsonScan) (key : Bytes) : Prop :=
  key = target ∧ s = s'
    ∨ key ≠ target ∧ ∃ s₅ s₆, s.skipValue = some (true, s₅) ∧ s₅.skipWs = some s₆
      ∧ s₆.peek = some Ascii.comma ∧ fieldLoop target n (s₆.advance 1) = some (some s')

theorem ReadsKey.extend {s s₄ : JsonScan} {key : Bytes} (h : ReadsKey s s₄ key)
    (hrest : s₄.HasRest) (more : Bytes) :
  ReadsKey (s.extend more) (s₄.extend more) key
  := by
  obtain ⟨s₁, s₂, s₃, hws₁, hquote, hstring, hws₃, hcolon, hws₄, hkey⟩ := h
  use s₁.extend more, s₂.extend more, s₃.extend more
  use skipWs_extend hws₁ (hasRest_of_peek hquote) more, peek_extend hquote more,
    skipString_extend hstring more, skipWs_extend hws₃ (hasRest_of_peek hcolon) more,
    peek_extend hcolon more
  rw [advance_extend]
  use skipWs_extend hws₄ hrest more
  apply slice_append hkey

/-- What is found is found at the first key or behind it. -/
theorem readsKey_of_fieldLoop {target : Bytes} {n : Nat} {s s' : JsonScan}
    (h : fieldLoop target (n + 1) s = some (some s')) :
  ∃ s₄ key, ReadsKey s s₄ key ∧ GoesOn target n s₄ s' key
  := by
  rw [fieldLoop] at h
  obtain ⟨s₁, hws₁, h⟩ := Option.bind_eq_some_iff.mp h
  split at h
  · cases h
  next hquote =>
  obtain ⟨⟨ok₂, s₂⟩, hstring, h⟩ := Option.bind_eq_some_iff.mp h
  cases ok₂ with
  | false => cases h
  | true =>
    obtain ⟨s₃, hws₃, h⟩ := Option.bind_eq_some_iff.mp h
    split at h
    · cases h
    next hcolon =>
    obtain ⟨s₄, hws₄, h⟩ := Option.bind_eq_some_iff.mp h
    obtain ⟨key, hkey, h⟩ := Option.bind_eq_some_iff.mp h
    use s₄, key, ⟨s₁, s₂, s₃, hws₁, not_ne_iff.mp hquote, hstring, hws₃, not_ne_iff.mp hcolon,
      hws₄, hkey⟩
    split at h
    · next htarget =>
      left
      use htarget
      simpa using h
    next htarget =>
    obtain ⟨⟨ok₅, s₅⟩, hvalue, h⟩ := Option.bind_eq_some_iff.mp h
    cases ok₅ with
    | false => cases h
    | true =>
      obtain ⟨s₆, hws₆, h⟩ := Option.bind_eq_some_iff.mp h
      split at h
      · next hcomma =>
        right
        exact ⟨htarget, s₅, s₆, hvalue, hws₆, hcomma, h⟩
      · cases h

/-- What is at the first key or behind it is found. -/
theorem ReadsKey.fieldLoop_eq {target key : Bytes} {n : Nat} {s s₄ s' : JsonScan}
    (h : ReadsKey s s₄ key) (hon : GoesOn target n s₄ s' key) :
  fieldLoop target (n + 1) s = some (some s')
  := by
  obtain ⟨s₁, s₂, s₃, hws₁, hquote, hstring, hws₃, hcolon, hws₄, hkey⟩ := h
  rw [fieldLoop]
  simp only [hws₁, hquote, hstring, hws₃, hcolon, hws₄, hkey, Option.bind_eq_bind,
    Option.bind_some, ne_eq, not_true_eq_false, if_false, Bool.not_true, Bool.false_eq_true]
  obtain ⟨htarget, rfl⟩ | ⟨htarget, s₅, s₆, hvalue, hws₆, hcomma, hnext⟩ := hon
  · rw [if_pos htarget]
    rfl
  · simp only [if_neg htarget, hvalue, hws₆, hcomma, hnext, Option.bind_some, if_true,
      Bool.not_true, Bool.false_eq_true, if_false]

/-- A member that is found is found when more bytes follow. -/
theorem fieldLoop_extend {target : Bytes} (more : Bytes) {n : Nat} {s s' : JsonScan}
    (h : fieldLoop target n s = some (some s')) (hrest : s'.HasRest) :
  fieldLoop target n (s.extend more) = some (some (s'.extend more))
  := by
  induction n generalizing s with
  | zero => cases h
  | succ n ih =>
    obtain ⟨s₄, key, hkey, hon⟩ := readsKey_of_fieldLoop h
    obtain ⟨htarget, rfl⟩ | ⟨htarget, s₅, s₆, hvalue, hws₆, hcomma, hnext⟩ := hon
    · apply (hkey.extend hrest more).fieldLoop_eq
      left
      exact ⟨htarget, rfl⟩
    · have hafter := hasRest_of_peek hcomma
      have hrest₅ : s₅.HasRest := by
        rw [skipWs_eq] at hws₆
        obtain rfl := Option.some.inj hws₆
        apply HasRest.of_advance hafter
      have hrest₄ := hasRest_of_skipped s₄.skipValue_skipped hvalue
      apply (hkey.extend hrest₄ more).fieldLoop_eq
      right
      use htarget, s₅.extend more, s₆.extend more
      use skipValue_extend more _ _ hvalue hrest₅, skipWs_extend hws₆ hafter more,
        peek_extend hcomma more
      rw [advance_extend]
      apply ih hnext

theorem field_extend {name : Bytes} (more : Bytes) (h : s.field name = some (some s'))
    (hrest : s'.HasRest) :
  (s.extend more).field name = some (some (s'.extend more))
  := by
  rw [field] at h ⊢
  obtain ⟨s₁, hws₁, h⟩ := Option.bind_eq_some_iff.mp h
  split at h
  · cases h
  next hbrace =>
  rw [not_ne_iff] at hbrace
  obtain ⟨s₂, hws₂, h⟩ := Option.bind_eq_some_iff.mp h
  split at h
  · cases h
  next hclose =>
  cases hpeek : s₂.peek with
  | none =>
    -- the loop finds nothing when no bytes are left
    have hrest₂ : s₂.rest = [] := by rwa [peek_eq, List.head?_eq_none_iff] at hpeek
    rw [fuel, fieldLoop, skipWs_eq] at h
    change (if s₂.afterWs.peek ≠ some Ascii.quote then some none else _) = _ at h
    rw [peek_eq, rest_afterWs, hrest₂, if_pos (by simp)] at h
    cases h
  | some c =>
    rw [hpeek] at hclose
    rw [skipWs_extend hws₁ (hasRest_of_peek hbrace)]
    change (if (s₁.extend more).peek ≠ some Ascii.openBrace then _ else
      ((s₁.extend more).advance 1).skipWs >>= _) = _
    rw [peek_extend hbrace, if_neg (by simp), advance_extend,
      skipWs_extend hws₂ (hasRest_of_peek hpeek)]
    change (if (s₂.extend more).peek = some Ascii.closeBrace then _ else
      fieldLoop name (s₂.extend more).fuel (s₂.extend more)) = _
    rw [peek_extend hpeek, if_neg hclose]
    have hfuel : s₂.fuel ≤ (s₂.extend more).fuel := by
      change s₂.data.length - s₂.pos + 1 ≤ (s₂.data ++ more).length - s₂.pos + 1
      rw [List.length_append]
      omega
    apply (fieldLoop_monotone name _).le hfuel
    apply fieldLoop_extend more h hrest

end JsonScan

end FdRpc

import FiredancerRs.Http.ReadResponse

/-!
# What the headers say

The last `Content-Length` and the last `Transfer-Encoding` decide what `try_parse_headers` makes of
the headers. When all headers of a name are read alike, that is what it makes of them
(`contentLength_of_values`, `isChunked_of_values`).
-/

namespace FdRpc.Http

/-- A header has a name, up to the case of its letters. -/
def isNamed (name : List UInt8) (h : PhrHeader) : Bool := h.name.any (eqIgnoreAsciiCase · name)

/-- The values of the headers of a name. -/
def valuesOf (headers : List PhrHeader) (name : List UInt8) : List (List UInt8) :=
  (headers.filter (isNamed name)).map PhrHeader.value

/-- What `read_response` learns from headers. -/
def readHeaders (headers : List PhrHeader) : Option Nat × Bool :=
  headers.foldl readHeader (none, false)

/-! ### Folds -/

section

variable {α β γ : Type} {step : β → α → β} {g : β → γ} {x : γ} {l : List α} {b : β}

/-- What every step keeps, the fold keeps. -/
theorem foldl_keep (hkeep : ∀ b, ∀ a ∈ l, g b = x → g (step b a) = x) (h : g b = x) :
  g (l.foldl step b) = x
  := by
  induction l generalizing b with
  | nil => exact h
  | cons a l ih =>
    apply ih
    · intro b a ha
      apply hkeep b a (List.mem_cons_of_mem _ ha)
    · apply hkeep b a (List.mem_cons_self ..) h

/-- What some step sets and every step keeps, the fold sets. -/
theorem foldl_set (hkeep : ∀ b, ∀ a ∈ l, g b = x → g (step b a) = x)
    (hset : ∃ a ∈ l, ∀ b, g (step b a) = x) :
  g (l.foldl step b) = x
  := by
  obtain ⟨a, ha, hset⟩ := hset
  obtain ⟨before, after, rfl⟩ := List.append_of_mem ha
  rw [List.foldl_append, List.foldl_cons]
  apply foldl_keep _ (hset _)
  intro b a ha
  apply hkeep b a
  simp [ha]

end

/-! ### One header -/

variable {h : PhrHeader} {headers : List PhrHeader} {acc : Option Nat × Bool}

theorem not_isNamed_of_isNamed (hname : isNamed transferEncodingName h = true) :
  isNamed contentLengthName h = false
  := by
  obtain ⟨_ | name, value⟩ := h
  · rfl
  · simp only [isNamed, Option.any_some, eqIgnoreAsciiCase, decide_eq_true_eq] at hname ⊢
    rw [hname]
    decide

theorem readHeader_contentLength (hname : isNamed contentLengthName h = true) :
  readHeader acc h = (((decodeUtf8 h.value).map parseContentLength).getD acc.1, acc.2)
  := by
  obtain ⟨_ | name, value⟩ := h
  · cases hname
  · have hlength : eqIgnoreAsciiCase name contentLengthName = true := hname
    simp only [readHeader, hlength, if_true]
    cases decodeUtf8 value <;> rfl

theorem readHeader_transferEncoding (hname : isNamed transferEncodingName h = true) :
  readHeader acc h = (acc.1, ((decodeUtf8 h.value).map isChunked).getD acc.2)
  := by
  have hnot := not_isNamed_of_isNamed hname
  obtain ⟨_ | name, value⟩ := h
  · cases hname
  · have hlength : ¬eqIgnoreAsciiCase name contentLengthName = true := Bool.eq_false_iff.mp hnot
    have hencoding : eqIgnoreAsciiCase name transferEncodingName = true := hname
    simp only [readHeader, hlength, hencoding, if_true]
    cases decodeUtf8 value <;> rfl

theorem readHeader_other (hlength : ¬isNamed contentLengthName h = true)
    (hencoding : ¬isNamed transferEncodingName h = true) :
  readHeader acc h = acc
  := by
  obtain ⟨_ | name, value⟩ := h
  · rfl
  · have hlength : ¬eqIgnoreAsciiCase name contentLengthName = true := hlength
    have hencoding : ¬eqIgnoreAsciiCase name transferEncodingName = true := hencoding
    simp only [readHeader, hlength, hencoding]
    rfl

/-- What a header makes of the content length. -/
theorem readHeader_fst :
  (readHeader acc h).1 =
    if isNamed contentLengthName h then
      ((decodeUtf8 h.value).map parseContentLength).getD acc.1
    else
      acc.1
  := by
  by_cases hlength : isNamed contentLengthName h = true
  · rw [if_pos hlength, readHeader_contentLength hlength]
  · rw [if_neg hlength]
    by_cases hencoding : isNamed transferEncodingName h = true
    · rw [readHeader_transferEncoding hencoding]
    · rw [readHeader_other hlength hencoding]

/-- What a header makes of the transfer encoding. -/
theorem readHeader_snd :
  (readHeader acc h).2 =
    if isNamed transferEncodingName h then
      ((decodeUtf8 h.value).map isChunked).getD acc.2
    else
      acc.2
  := by
  by_cases hencoding : isNamed transferEncodingName h = true
  · rw [if_pos hencoding, readHeader_transferEncoding hencoding]
  · rw [if_neg hencoding]
    by_cases hlength : isNamed contentLengthName h = true
    · rw [readHeader_contentLength hlength]
    · rw [readHeader_other hlength hencoding]

theorem value_mem_valuesOf {name : List UInt8} (hmem : h ∈ headers)
    (hname : isNamed name h = true) :
  h.value ∈ valuesOf headers name
  := List.mem_map_of_mem (List.mem_filter.mpr ⟨hmem, hname⟩)

/-! ### All headers -/

/-- Headers of a name that are all read alike, for a part of what is learned that each header of the
name sets. -/
theorem readHeaders_of_values {γ : Type} {g : Option Nat × Bool → γ} {read : List Char → γ}
    {name : List UInt8}
    (hread : ∀ acc h, g (readHeader acc h) =
      if isNamed name h then ((decodeUtf8 h.value).map read).getD (g acc) else g acc)
    {x : γ}
    (hvalues : ∀ v ∈ valuesOf headers name, ∀ text, decodeUtf8 v = some text → read text = x)
    (h : g (none, false) = x ∨ ∃ v ∈ valuesOf headers name, (decodeUtf8 v).isSome = true) :
  g (readHeaders headers) = x
  := by
  have hkeep : ∀ acc : Option Nat × Bool, ∀ h ∈ headers, g acc = x → g (readHeader acc h) = x := by
    intro acc h hh hacc
    rw [hread]
    split
    case isTrue hname =>
      cases htext : decodeUtf8 h.value with
      | none => exact hacc
      | some text => exact hvalues _ (value_mem_valuesOf hh hname) text htext
    case isFalse => exact hacc
  cases h with
  | inl hstart => exact foldl_keep hkeep hstart
  | inr hset =>
    apply foldl_set hkeep
    obtain ⟨v, hv, hsome⟩ := hset
    obtain ⟨h, hh, rfl⟩ := List.mem_map.mp hv
    obtain ⟨hmem, hname⟩ := List.mem_filter.mp hh
    obtain ⟨text, htext⟩ := Option.isSome_iff_exists.mp hsome
    use h, hmem
    intro acc
    rw [hread, if_pos hname, htext]
    apply hvalues _ hv text htext

/-- Headers `Content-Length` that are all read alike. -/
theorem contentLength_of_values {x : Option Nat}
    (hvalues : ∀ v ∈ valuesOf headers contentLengthName, ∀ text, decodeUtf8 v = some text →
      parseContentLength text = x)
    (h : none = x ∨ ∃ v ∈ valuesOf headers contentLengthName, (decodeUtf8 v).isSome = true) :
  (readHeaders headers).1 = x
  := @readHeaders_of_values headers _ Prod.fst _ _ (fun _ _ => readHeader_fst) _ hvalues h

/-- Headers `Transfer-Encoding` that are all read alike. -/
theorem isChunked_of_values {x : Bool}
    (hvalues : ∀ v ∈ valuesOf headers transferEncodingName, ∀ text, decodeUtf8 v = some text →
      isChunked text = x)
    (h : false = x ∨ ∃ v ∈ valuesOf headers transferEncodingName, (decodeUtf8 v).isSome = true) :
  (readHeaders headers).2 = x
  := @readHeaders_of_values headers _ Prod.snd _ _ (fun _ _ => readHeader_snd) _ hvalues h

/-! ### Framing -/

/-- A value that is read as a content length. -/
def ReadsLength (value : List UInt8) (n : Nat) : Prop :=
  (decodeUtf8 value).map parseContentLength = some (some n)

/-- A value that is read as the coding `chunked`. -/
def ReadsChunked (value : List UInt8) : Prop := (decodeUtf8 value).map isChunked = some true

theorem contentLength_of_valid {n : Nat} (hpresent : valuesOf headers contentLengthName ≠ [])
    (hvalid : ∀ v ∈ valuesOf headers contentLengthName, ReadsLength v n) :
  (readHeaders headers).1 = some n
  := by
  apply contentLength_of_values
  · intro v hv text htext
    have hreads := hvalid v hv
    rw [ReadsLength, htext] at hreads
    apply Option.some.inj hreads
  · right
    obtain ⟨v, hv⟩ := List.exists_mem_of_ne_nil _ hpresent
    use v, hv
    have hreads := hvalid v hv
    cases htext : decodeUtf8 v with
    | none =>
      rw [ReadsLength, htext] at hreads
      cases hreads
    | some text => rfl

theorem contentLength_of_unsized
    (hunsized : ∀ v ∈ valuesOf headers contentLengthName, ∀ n, ¬ReadsLength v n) :
  (readHeaders headers).1 = none
  := by
  apply contentLength_of_values
  · intro v hv text htext
    cases hn : parseContentLength text with
    | none => rfl
    | some n =>
      exfalso
      apply hunsized v hv n
      rw [ReadsLength, htext, Option.map_some, hn]
  · left
    rfl

theorem isChunked_of_chunked (hpresent : valuesOf headers transferEncodingName ≠ [])
    (hchunked : ∀ v ∈ valuesOf headers transferEncodingName, ReadsChunked v) :
  (readHeaders headers).2 = true
  := by
  apply isChunked_of_values
  · intro v hv text htext
    have hreads := hchunked v hv
    rw [ReadsChunked, htext] at hreads
    apply Option.some.inj hreads
  · right
    obtain ⟨v, hv⟩ := List.exists_mem_of_ne_nil _ hpresent
    use v, hv
    have hreads := hchunked v hv
    cases htext : decodeUtf8 v with
    | none =>
      rw [ReadsChunked, htext] at hreads
      cases hreads
    | some text => rfl

theorem isChunked_of_unchunked
    (hunchunked : ∀ v ∈ valuesOf headers transferEncodingName, ¬ReadsChunked v) :
  (readHeaders headers).2 = false
  := by
  apply isChunked_of_values
  · intro v hv text htext
    rw [Bool.eq_false_iff]
    intro htrue
    apply hunchunked v hv
    rw [ReadsChunked, htext, Option.map_some, htrue]
  · left
    rfl

/-- The only content length, of decimal digits. -/
theorem readsLength_of_digits {digits : List UInt8}
    (hlength : valuesOf headers contentLengthName = [digits]) (hne : digits ≠ [])
    (hdigits : ∀ b ∈ digits, Ascii.isDigit b = true) (hlt : Decimal.value digits < 2 ^ 64) :
  ∀ v ∈ valuesOf headers contentLengthName, ReadsLength v (Decimal.value digits)
  := by
  rw [hlength]
  intro v hv
  obtain rfl := List.mem_singleton.mp hv
  apply parseContentLength_digits hne hdigits hlt

/-- A content length of decimal digits, when there is no other. -/
theorem contentLength_of_digits {digits : List UInt8}
    (hlength : valuesOf headers contentLengthName = [digits]) (hne : digits ≠ [])
    (hdigits : digits.Forall fun b => Ascii.isDigit b = true)
    (hlt : Decimal.value digits < 2 ^ 64) :
  (readHeaders headers).1 = some (Decimal.value digits)
  := by
  apply contentLength_of_valid
  · simp [hlength]
  · apply readsLength_of_digits hlength hne (List.forall_iff_forall_mem.mp hdigits) hlt

end FdRpc.Http

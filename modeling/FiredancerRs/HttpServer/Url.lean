import FiredancerRs.Lib.Percent
import FiredancerRs.Rpc.Url

/-!
# URLs of the server

`Url::parse` over `fd_url_parse_cstr`, which is not part of the repository. The tail is split at its
first `?`, and what is behind it at its first `#`, so a `#` that comes before is left in the path.
The parts are those of the standard exactly when there is no such `#` (`splits_iff`).
`Url::unescape` decodes a string in place and leaves its length, so it is right exactly when there
is nothing to decode (`decodes_iff`).
-/

namespace FdHttp

open FdRpc (FdUrl parseU16)

/-- Bytes. -/
abbrev Bytes := List UInt8

/-- `UrlComponents` -/
structure UrlComponents where
  scheme : String
  host : String
  port : Option UInt16
  path : String
  query : Option String
  fragment : Option String
deriving DecidableEq

/-- `Url` -/
structure Url where
  original : String
  components : Option UrlComponents

/-! ### Slices of a string -/

/-- `str::find`. An index counts characters, and each character that is looked for is one byte. -/
def find (s : String) (c : Char) : Option Nat := s.toList.findIdx? fun c' => decide (c' = c)

/-- `s[..i]` -/
def sliceTo (s : String) (i : Nat) : String := String.ofList (s.toList.take i)

/-- `s[i..]` -/
def sliceFrom (s : String) (i : Nat) : String := String.ofList (s.toList.drop i)

namespace Url

/-- A part that `fd_url_parse_cstr` has found, which is empty when it has no bytes. -/
def part (bytes : Bytes) : String := if 0 < bytes.length then Utf8.decodeLossy bytes else ""

/-- The path, the query and the fragment of a tail. -/
def splitTail (tail : String) : String × Option String × Option String :=
  let (path, query) : String × Option String :=
    match find tail '?' with
    | some queryStart =>
      (sliceTo tail queryStart,
        if queryStart + 1 < tail.length then some (sliceFrom tail (queryStart + 1)) else none)
    | none => (tail, none)
  let (query, fragment) : Option String × Option String :=
    match query with
    | some q =>
      match find q '#' with
      | some fragmentStart =>
        (if fragmentStart > 0 then some (sliceTo q fragmentStart) else none,
          if fragmentStart + 1 < q.length then some (sliceFrom q (fragmentStart + 1)) else none)
      | none => (query, none)
    | none => (query, none)
  (path, query, fragment)

/-- `Url::parse` -/
def parse (fdUrlParseCstr : Bytes → Option FdUrl) (url : String) : Url where
  original := url
  components :=
    match fdUrlParseCstr (Utf8.bytes url) with
    | none => none
    | some u =>
      let (path, query, fragment) := splitTail (part u.tail)
      some
        { scheme := part u.scheme
          host := part u.host
          port := if 0 < u.port.length then parseU16 (Utf8.decodeLossy u.port).toList else none
          path := path
          query := query
          fragment := fragment }

end Url

/-! ### Splitting at a character -/

/-- The text before the first of some characters, or all of it. -/
def before (c : Char) (s : String) : String := String.ofList (s.toList.takeWhile fun c' => c' ≠ c)

/-- The text after the first of some characters, if there is one and it is not the last. -/
def after (c : Char) (s : String) : Option String :=
  match s.toList.dropWhile fun c' => c' ≠ c with
  | _ :: first :: rest => some (String.ofList (first :: rest))
  | _ => none

/-- A text, if it is not empty. -/
def nonEmpty (s : String) : Option String := if s = "" then none else some s

variable {s : String} {c : Char} {i : Nat} {pre rest : List Char}

/-- A string is what is before the first of some characters, the character, and what is after it. -/
def Split (s : String) (c : Char) (pre rest : List Char) : Prop :=
  s.toList = pre ++ c :: rest ∧ c ∉ pre

theorem exists_split (hc : c ∈ s.toList) :
  ∃ pre rest, Split s c pre rest
  := List.eq_append_cons_of_mem hc

theorem ne_of_notMem (hc : c ∉ pre) :
  ∀ c' ∈ pre, decide (c' ≠ c) = true
  := by
  intro c' hc'
  apply decide_eq_true
  rintro rfl
  apply hc hc'

theorem Split.before (h : Split s c pre rest) :
  before c s = String.ofList pre
  := by
  rw [FdHttp.before, h.1, List.takeWhile_append_of_pos (ne_of_notMem h.2)]
  simp

theorem Split.after (h : Split s c pre rest) :
  after c s = if rest = [] then none else some (String.ofList rest)
  := by
  rw [FdHttp.after, h.1, List.dropWhile_append_of_pos (ne_of_notMem h.2)]
  cases rest with
  | nil => simp
  | cons first rest => simp

theorem Split.find (h : Split s c pre rest) :
  find s c = some pre.length
  := by
  have hpre : pre.findIdx? (fun c' => decide (c' = c)) = none := by
    rw [List.findIdx?_eq_none_iff]
    intro c' hc'
    simpa using of_decide_eq_true (ne_of_notMem h.2 c' hc')
  rw [FdHttp.find, h.1, List.findIdx?_append, hpre, List.findIdx?_cons, decide_eq_true rfl]
  simp

theorem before_of_notMem (hc : c ∉ s.toList) :
  before c s = s
  := by
  rw [before, List.takeWhile_eq_self_iff.mpr (ne_of_notMem hc), String.ofList_toList]

theorem after_of_notMem (hc : c ∉ s.toList) :
  after c s = none
  := by
  rw [after, List.dropWhile_eq_nil_iff.mpr (ne_of_notMem hc)]

theorem find_of_notMem (hc : c ∉ s.toList) :
  find s c = none
  := by
  rw [find, List.findIdx?_eq_none_iff]
  intro c' hc'
  apply decide_eq_false
  rintro rfl
  apply hc hc'

theorem Split.slices (h : Split s c pre rest) :
  sliceTo s pre.length = String.ofList pre
    ∧ sliceFrom s (pre.length + 1) = String.ofList rest
    ∧ (pre.length + 1 < s.length ↔ rest ≠ [])
  := by
  refine ⟨?_, ?_, ?_⟩
  · rw [sliceTo, h.1, List.take_left]
  · rw [sliceFrom, h.1, ← List.drop_drop, List.drop_left]
    rfl
  · rw [← String.length_toList, h.1, List.length_append, List.length_cons, ← List.length_pos_iff]
    omega

namespace Url

/-- The tail is split at the first `?`, and what is behind it at the first `#` there. -/
theorem splitTail_eq (tail : String) :
  splitTail tail
    = (before '?' tail, (after '?' tail).bind fun q => nonEmpty (before '#' q),
      (after '?' tail).bind (after '#'))
  := by
  by_cases hquestion : '?' ∈ tail.toList
  · obtain ⟨path, rest, h⟩ := exists_split hquestion
    obtain ⟨hto, hfrom, hlt⟩ := h.slices
    rw [splitTail, h.find, h.before, h.after]
    simp only [hto, hfrom, hlt]
    by_cases hrest : rest = []
    · simp [hrest]
    · simp only [ne_eq, hrest, not_false_eq_true, if_true, if_false, Option.bind_some]
      by_cases hhash : '#' ∈ (String.ofList rest).toList
      · obtain ⟨query, rest', h'⟩ := exists_split hhash
        obtain ⟨hto', hfrom', hlt'⟩ := h'.slices
        rw [h'.find, h'.before, h'.after]
        simp only [hto', hfrom', hlt', nonEmpty]
        cases query with
        | nil => simp
        | cons first query => simp
      · rw [find_of_notMem hhash, before_of_notMem hhash, after_of_notMem hhash, nonEmpty, if_neg]
        rw [← String.toList_eq_nil_iff, String.toList_ofList]
        apply hrest
  · rw [splitTail, find_of_notMem hquestion, before_of_notMem hquestion, after_of_notMem hquestion]
    rfl

/-- The path, the query and the fragment of a tail in the standard: the fragment is behind the first
`#`, and the query behind the first `?` before it. -/
def standardTail (tail : String) : String × Option String × Option String :=
  (before '?' (before '#' tail), after '?' (before '#' tail), after '#' tail)

/-- The parts that the tail is split into are those of the standard, so no `#` is in the path or the
query, and no `?` in the path. -/
def Splits (tail : String) (components : UrlComponents) : Prop :=
  (components.path, components.query, components.fragment) = standardTail tail
    ∧ '#' ∉ components.path.toList ∧ (∀ query ∈ components.query, '#' ∉ query.toList)
    ∧ '?' ∉ components.path.toList

theorem notMem_before (s : String) (c : Char) :
  c ∉ (before c s).toList
  := by
  rw [before, String.toList_ofList]
  intro hc
  simpa using List.mem_takeWhile_imp hc

theorem mem_of_mem_before {c' : Char} (h : c' ∈ (before c s).toList) :
  c' ∈ s.toList
  := by
  rw [before, String.toList_ofList] at h
  apply (List.takeWhile_prefix _).subset h

theorem mem_of_mem_after {q : String} {c' : Char} (hq : after c s = some q) (h : c' ∈ q.toList) :
  c' ∈ s.toList
  := by
  rw [after] at hq
  split at hq
  · next first rest hdrop =>
    obtain rfl := Option.some.inj hq
    rw [String.toList_ofList] at h
    apply (List.dropWhile_suffix _).subset
    rw [hdrop]
    apply List.mem_cons_of_mem _ h
  · cases hq

/-- The parts in the standard have no delimiters in them. -/
theorem splits_iff_eq {tail : String} {components : UrlComponents} :
  Splits tail components
    ↔ (components.path, components.query, components.fragment) = standardTail tail
  := by
  constructor
  · intro h
    apply h.1
  · intro heq
    obtain ⟨hpath, hquery, -⟩ : components.path = before '?' (before '#' tail)
        ∧ components.query = after '?' (before '#' tail)
        ∧ components.fragment = after '#' tail := by
      simpa only [standardTail, Prod.mk.injEq] using heq
    refine ⟨heq, ?_, ?_, ?_⟩
    · rw [hpath]
      intro hhash
      apply notMem_before tail '#' (mem_of_mem_before hhash)
    · rw [hquery]
      intro query hsome hhash
      apply notMem_before tail '#' (mem_of_mem_after hsome hhash)
    · rw [hpath]
      apply notMem_before

theorem nonEmpty_ofList (chars : List Char) :
  nonEmpty (String.ofList chars) = if chars = [] then none else some (String.ofList chars)
  := by
  cases chars with
  | nil => rfl
  | cons first chars => simp [nonEmpty]

theorem splitTail_of_notMem {tail : String} (hhash : '#' ∉ (before '?' tail).toList) :
  splitTail tail = standardTail tail
  := by
  rw [splitTail_eq, standardTail]
  by_cases hquestion : '?' ∈ tail.toList
  · obtain ⟨path, rest, h⟩ := exists_split hquestion
    rw [h.before, String.toList_ofList] at hhash
    by_cases hrest : '#' ∈ rest
    · -- the first `#` of the tail is the first one behind the `?`
      obtain ⟨query, fragment, hsplit, hquery⟩ := List.eq_append_cons_of_mem hrest
      have hq : Split (String.ofList rest) '#' query fragment :=
        ⟨by rw [String.toList_ofList, hsplit], hquery⟩
      have hfirst : Split tail '#' (path ++ '?' :: query) fragment := by
        constructor
        · rw [h.1, hsplit, List.append_assoc, List.cons_append]
        · simp [hhash, hquery]
      have hfront : Split (String.ofList (path ++ '?' :: query)) '?' path query :=
        ⟨String.toList_ofList .., h.2⟩
      rw [h.before, h.after, if_neg (List.ne_nil_of_mem hrest), Option.bind_some, Option.bind_some,
        hq.before, hq.after, hfirst.before, hfirst.after, hfront.before, hfront.after,
        nonEmpty_ofList]
    · have htail : '#' ∉ tail.toList := by
        rw [h.1]
        simp [hhash, hrest]
      rw [before_of_notMem htail, after_of_notMem htail, h.after]
      split
      · rfl
      · next hne =>
        have hq : '#' ∉ (String.ofList rest).toList := by
          rw [String.toList_ofList]
          apply hrest
        rw [Option.bind_some, Option.bind_some, before_of_notMem hq, after_of_notMem hq,
          nonEmpty_ofList, if_neg hne]
  · rw [before_of_notMem hquestion] at hhash
    rw [before_of_notMem hhash, after_of_notMem hhash, after_of_notMem hquestion]
    rfl

theorem splitTail_eq_iff (tail : String) :
  splitTail tail = standardTail tail ↔ '#' ∉ (before '?' tail).toList
  := by
  constructor
  · intro heq hhash
    have hpath : before '?' tail = before '?' (before '#' tail) := by
      rw [splitTail_eq] at heq
      apply congrArg Prod.fst heq
    rw [hpath] at hhash
    apply notMem_before tail '#' (mem_of_mem_before hhash)
  · apply splitTail_of_notMem

/-- A URL is split as the standard says exactly when no `#` is before the first `?` of its tail, nor
anywhere in it when it has no `?`. -/
theorem splits_iff {fdUrlParseCstr : Bytes → Option FdUrl} {url : String} {u : FdUrl}
    {components : UrlComponents} (hparse : fdUrlParseCstr (Utf8.bytes url) = some u)
    (hcomponents : (parse fdUrlParseCstr url).components = some components) :
  Splits (part u.tail) components ↔ '#' ∉ (before '?' (part u.tail)).toList
  := by
  rw [splits_iff_eq, ← splitTail_eq_iff]
  simp only [parse, hparse, Option.some.injEq] at hcomponents
  rw [← hcomponents]

/-- What `fd_url_parse_cstr` finds in `https://example.com/docs#intro`. -/
def docsUrl : FdUrl where
  scheme := Utf8.bytes "https://"
  host := Utf8.bytes "example.com"
  port := []
  tail := Utf8.bytes "/docs#intro"

/-- The parts of `https://example.com/docs#intro`, with the fragment in the path. -/
def docsComponents : UrlComponents where
  scheme := "https://"
  host := "example.com"
  port := none
  path := "/docs#intro"
  query := none
  fragment := none

theorem parse_docs :
  (parse (fun _ => some docsUrl) "https://example.com/docs#intro").components = some docsComponents
  := by
  decide

/-- What `fd_url_parse_cstr` finds in `https://example.com:8080/docs?a=?#b?c#d`. -/
def searchUrl : FdUrl where
  scheme := Utf8.bytes "https://"
  host := Utf8.bytes "example.com"
  port := Utf8.bytes "8080"
  tail := Utf8.bytes "/docs?a=?#b?c#d"

/-- The parts of `https://example.com:8080/docs?a=?#b?c#d`. -/
def searchComponents : UrlComponents where
  scheme := "https://"
  host := "example.com"
  port := some 8080
  path := "/docs"
  query := some "a=?"
  fragment := some "b?c#d"

theorem splits_iff_search :
  Splits (part searchUrl.tail) searchComponents
  := by
  have hcomponents : (parse (fun _ => some searchUrl)
      "https://example.com:8080/docs?a=?#b?c#d").components = some searchComponents := by
    decide
  apply (splits_iff rfl hcomponents).mpr
  decide

/-- The path of `https://example.com/docs#intro` is `/docs#intro`. -/
theorem not_splits :
  ¬ ∀ components,
    (parse (fun _ => some docsUrl) "https://example.com/docs#intro").components = some components →
      Splits (part docsUrl.tail) components
  := by
  intro hsplits
  have hdocs := (hsplits docsComponents parse_docs).2.1
  revert hdocs
  decide

/-! ### Escapes -/

/-- `Url::unescape`: the bytes of the string afterwards, and the length that is returned. What
`fd_url_unescape` does to the bytes, and returns, is given. -/
def unescape (fdUrlUnescape : Bytes → Bytes × Nat) (input : String) : Bytes × Nat :=
  fdUrlUnescape (Utf8.bytes input)

/-- What is documented of `fd_url_unescape`: it decodes in place, and returns the length of what is
decoded. -/
def DecodesInPlace (fdUrlUnescape : Bytes → Bytes × Nat) : Prop :=
  ∀ bytes, (fdUrlUnescape bytes).1.length = bytes.length
    ∧ (fdUrlUnescape bytes).2 = (Percent.decode bytes).length
    ∧ (fdUrlUnescape bytes).1.take (Percent.decode bytes).length = Percent.decode bytes

/-- The string is the decoded text and is a string, and its length is returned. -/
def Decodes (fdUrlUnescape : Bytes → Bytes × Nat) (input : String) : Prop :=
  (unescape fdUrlUnescape input).1 = Percent.decode (Utf8.bytes input)
    ∧ (unescape fdUrlUnescape input).2 = (unescape fdUrlUnescape input).1.length
    ∧ (Utf8.decode (unescape fdUrlUnescape input).1).isSome

/-- A string is decoded exactly when it has no escape. -/
theorem decodes_iff {fdUrlUnescape : Bytes → Bytes × Nat}
    (hplace : DecodesInPlace fdUrlUnescape) {input : String} :
  Decodes fdUrlUnescape input ↔ ¬ Percent.HasEscape (Utf8.bytes input)
  := by
  obtain ⟨hsame, hcount, htake⟩ := hplace (Utf8.bytes input)
  constructor
  · rintro ⟨hdecoded, -, -⟩ hescape
    have hlt := Percent.length_decode_lt hescape
    rw [← hdecoded, unescape, hsame] at hlt
    apply Nat.lt_irrefl _ hlt
  · intro hescape
    have hself := Percent.decode_eq_self hescape
    rw [hself, ← hsame, List.take_length] at htake
    rw [Decodes, unescape, hself, htake, hcount, hself, Utf8.decode_bytes]
    apply And.intro rfl ⟨rfl, rfl⟩

/-- `fd_url_unescape`, with what is behind the decoded text left as it was. -/
def decodeInPlace (bytes : Bytes) : Bytes × Nat :=
  (Percent.decode bytes ++ bytes.drop (Percent.decode bytes).length,
    (Percent.decode bytes).length)

theorem decodeInPlace_decodes : DecodesInPlace decodeInPlace
  := by
  intro bytes
  have hle := Percent.length_decode_le bytes
  refine ⟨?_, rfl, List.take_left⟩
  rw [decodeInPlace, List.length_append, List.length_drop]
  omega

theorem decodes_iff_percent :
  Decodes decodeInPlace "100%" ∧ ¬ Decodes decodeInPlace "a%20b"
  := by
  constructor
  · apply (decodes_iff decodeInPlace_decodes).mpr
    decide
  · rw [decodes_iff decodeInPlace_decodes, not_not]
    decide

/-- `a%20b` becomes `a b0b`, and the result is 3. -/
theorem not_decodes :
  ¬ Decodes decodeInPlace "a%20b"
  := by
  unfold Decodes
  decide

end Url

end FdHttp

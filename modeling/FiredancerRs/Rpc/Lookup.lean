import FiredancerRs.Rpc.Document

/-!
# Members and elements

In a JSON text `field` finds the first member with the name, and `array_iter` yields the
elements (`scan_text`).
-/

open Json

namespace FdRpc

namespace JsonScan

variable {data : Bytes}

/-! ### Members -/

/-- The bytes between two scans. -/
theorem slice_facing {l u : Bytes} (h : l ++ u <:+ data) :
  slice data (facing data (l ++ u)).pos (facing data u).pos = some l
  := by
  obtain ⟨p, rfl⟩ := h
  have hlo : (facing (p ++ (l ++ u)) (l ++ u)).pos = p.length := by
    simp only [facing, List.length_append]
    omega
  have hhi : (facing (p ++ (l ++ u)) u).pos = (p ++ l).length := by
    simp only [facing, List.length_append]
    omega
  rw [hlo, hhi, slice_eq, ← List.append_assoc, List.take_left, List.drop_left]
  · simp
  · simp

theorem slice_name {s : Str} {t : Bytes} (h : s.render ++ t <:+ data) :
  slice data ((facing data (s.render ++ t)).pos + 1) ((facing data t).pos - 1) = some s.raw
  := by
  have hraw : s.render ++ t = Ascii.quote :: (s.raw ++ Ascii.quote :: t) := by
    simp [Str.render]
  rw [hraw] at h ⊢
  have hinner := (List.suffix_cons _ _).trans h
  have hquote := (List.suffix_append s.raw _).trans hinner
  have hlo := congrArg JsonScan.pos (advance_facing_cons h)
  have hhi := congrArg JsonScan.pos (advance_facing_cons hquote)
  rw [pos_advance] at hlo hhi
  rw [hlo, ← hhi, Nat.add_sub_cancel]
  apply slice_facing hinner

/-- One round of the loop of `field`: it returns the value if the name is the one that is
looked for, and else skips the value. -/
theorem fieldLoop_key {u x : Bytes} {key : Key} (target : Bytes) (n : Nat) (h : u <:+ data)
    (hu : u.dropWhile isSpace = (key.render ++ x).dropWhile isSpace) :
  x <:+ data ∧ fieldLoop target (n + 1) (facing data u)
    = if key.name.raw = target then
        some (some (facing data (x.dropWhile isSpace)))
      else (do
        let (ok, scan) ← (facing data (x.dropWhile isSpace)).skipValue
        if !ok then
          pure none
        else do
          let scan ← scan.skipWs
          if scan.peek = some Ascii.comma then
            fieldLoop target n (scan.advance 1)
          else
            pure none)
  := by
  have hname := dropWhile_suffix h isSpace
  rw [hu, key.dropWhile_render] at hname
  have hafter := (List.suffix_append key.name.render _).trans hname
  have hcolon := (List.suffix_append key.after.bytes _).trans hafter
  have hx := (List.suffix_cons _ x).trans hcolon
  have hpeek : (facing data (key.name.render ++ (key.after.bytes ++ Ascii.colon :: x))).peek
      = some Ascii.quote := by
    rw [peek_facing hname]
    rfl
  use hx
  rw [fieldLoop, skipWs_facing h, hu, key.dropWhile_render]
  change (if (facing data (key.name.render ++ _)).peek ≠ some Ascii.quote then _
    else (facing data (key.name.render ++ _)).skipString >>= _) = _
  rw [hpeek, if_neg (by simp), skipString_facing hname]
  change ((facing data (key.after.bytes ++ Ascii.colon :: x)).skipWs >>= _) = _
  rw [skipWs_facing hafter, dropWhile_space_cons key.after (by rfl)]
  change (if (facing data (Ascii.colon :: x)).peek ≠ some Ascii.colon then _ else
    ((facing data (Ascii.colon :: x)).advance 1).skipWs >>= _) = _
  rw [peek_facing hcolon, if_neg (by simp), advance_facing_cons hcolon, skipWs_facing hx]
  change (slice data _ _ >>= _) = _
  rw [slice_name hname]
  rfl

/-- How the loop of `field` goes on after a value. -/
theorem fieldLoop_value {x w target : Bytes} {c : UInt8} {t : Bytes} {v : Value} {n : Nat}
    (h : x <:+ data) (hx : x.dropWhile isSpace = v.render ++ w) (hdelimited : Delimited w)
    (hw : w.dropWhile isSpace = c :: t) :
  (do
    let (ok, scan) ← (facing data (x.dropWhile isSpace)).skipValue
    if !ok then
      pure none
    else do
      let scan ← scan.skipWs
      if scan.peek = some Ascii.comma then
        fieldLoop target n (scan.advance 1)
      else
        pure none)
    = if c = Ascii.comma then fieldLoop target n (facing data t) else some none
  := by
  have hsuffix := dropWhile_suffix h isSpace
  have hskip := skipValue_value hsuffix ((List.dropWhile_idempotent _ _).trans hx) hdelimited
  have hafter : w <:+ data := by
    rw [hx] at hsuffix
    apply (List.suffix_append _ _).trans hsuffix
  have hdelimiter := dropWhile_suffix hafter isSpace
  rw [hw] at hdelimiter
  rw [hskip]
  change ((facing data w).skipWs >>= _) = _
  rw [skipWs_facing hafter, hw]
  change (if (facing data (c :: t)).peek = _ then
    fieldLoop target n ((facing data (c :: t)).advance 1) else _) = _
  rw [peek_facing hdelimiter, advance_facing_cons hdelimiter]
  simp only [List.head?_cons, Option.some.injEq]
  rfl

/-- The scan at the value of a member. -/
def atMember (data : Bytes) (m : Member) : JsonScan := facing data (m.value.render ++ m.after)

/-- The loop of `field` returns the value of the first member with the name. -/
theorem fieldLoop_members {target : Bytes} :
  ∀ (members : Members) {u t : Bytes} {n : Nat}, u <:+ data → u.length < n →
    u.dropWhile isSpace = (members.render ++ Ascii.closeBrace :: t).dropWhile isSpace →
    fieldLoop target n (facing data u)
      = some (((members.tails (Ascii.closeBrace :: t)).find? fun m => m.name.raw = target).map
          (atMember data))
  | _, _, _, 0, _, hn, _ => by simp at hn
  | .last key before value after, u, t, n + 1, h, hn, hu => by
      rw [Members.render_last_append] at hu
      obtain ⟨hdelimited, hclose⟩ := delimits_closeBrace after t
      have hvalue := Value.dropWhile_space before value (after.bytes ++ Ascii.closeBrace :: t)
      obtain ⟨hx, hkey⟩ := fieldLoop_key target n h hu
      rw [hkey, fieldLoop_value hx hvalue hdelimited hclose, hvalue, Members.tails]
      by_cases hname : key.name.raw = target
      · rw [if_pos hname, List.find?_cons_of_pos (by simpa using hname)]
        rfl
      · rw [if_neg hname, List.find?_cons_of_neg (by simpa using hname)]
        rfl
  | .more key before value after rest, u, t, n + 1, h, hn, hu => by
      rw [Members.render_more_append] at hu
      obtain ⟨hdelimited, hcomma⟩ := delimits_comma after (rest.render ++ Ascii.closeBrace :: t)
      have hvalue := Value.dropWhile_space before value
        (after.bytes ++ Ascii.comma :: (rest.render ++ Ascii.closeBrace :: t))
      obtain ⟨hx, hkey⟩ := fieldLoop_key target n h hu
      rw [hkey, fieldLoop_value hx hvalue hdelimited hcomma, hvalue, Members.tails]
      by_cases hname : key.name.raw = target
      · rw [if_pos hname, List.find?_cons_of_pos (by simpa using hname)]
        rfl
      · have hlen : (rest.render ++ Ascii.closeBrace :: t).length < n := by
          have hle := congrArg List.length hu
          have hle' := (List.dropWhile_suffix isSpace (l := u)).length_le
          rw [key.dropWhile_render] at hle
          simp only [List.length_append, List.length_cons] at hle ⊢
          omega
        have hrest : rest.render ++ Ascii.closeBrace :: t <:+ data := by
          apply (List.suffix_cons Ascii.comma _).trans
          apply (List.suffix_append after.bytes _).trans
          apply (List.suffix_append value.render _).trans
          apply (List.suffix_append before.bytes _).trans hx
        rw [if_neg hname, List.find?_cons_of_neg (by simpa using hname), if_pos rfl]
        apply fieldLoop_members rest hrest hlen rfl

/-- In front of an object, or of whitespace before it, `field` returns the value of the first
member with the name. -/
theorem field_members {v : Value} {members : List Member} {u t : Bytes} (h : u <:+ data)
    (hu : u.dropWhile isSpace = v.render ++ t) (hv : v.members t = some members) (name : Bytes) :
  (facing data u).field name
    = some ((members.find? fun m => m.name.raw = name).map (atMember data))
  := by
  have hsuffix := dropWhile_suffix h isSpace
  rw [field, skipWs_facing h, hu]
  rw [hu] at hsuffix
  cases v with
  | emptyObject space =>
    obtain rfl := Option.some.inj hv
    rw [Value.render, List.cons_append, List.append_assoc, List.singleton_append] at hsuffix ⊢
    have hinner := (List.suffix_cons _ _).trans hsuffix
    have hclose := (List.suffix_append space.bytes _).trans hinner
    change (if (facing data (Ascii.openBrace :: _)).peek ≠ some Ascii.openBrace then _ else
      ((facing data (Ascii.openBrace :: _)).advance 1).skipWs >>= _) = _
    rw [peek_facing hsuffix, if_neg (by simp), advance_facing_cons hsuffix, skipWs_facing hinner,
      dropWhile_space_cons space (by rfl)]
    change (if (facing data (Ascii.closeBrace :: t)).peek = some Ascii.closeBrace then _ else _) = _
    rw [peek_facing hclose]
    rfl
  | object members =>
    obtain rfl := Option.some.inj hv
    rw [Value.render, List.cons_append, List.append_assoc, List.singleton_append] at hsuffix ⊢
    have hinner := (List.suffix_cons _ _).trans hsuffix
    have hmembers := dropWhile_suffix hinner isSpace
    have hhead := members.head_dropWhile_ne (Ascii.closeBrace :: t)
    change (if (facing data (Ascii.openBrace :: _)).peek ≠ some Ascii.openBrace then _ else
      ((facing data (Ascii.openBrace :: _)).advance 1).skipWs >>= _) = _
    rw [peek_facing hsuffix, if_neg (by simp), advance_facing_cons hsuffix, skipWs_facing hinner]
    change (if (facing data _).peek = some Ascii.closeBrace then _ else _) = _
    rw [peek_facing hmembers, if_neg hhead]
    have hfuel := (facing data ((members.render ++ Ascii.closeBrace :: t).dropWhile
      isSpace)).length_rest_lt_fuel
    rw [rest_facing hmembers] at hfuel
    apply fieldLoop_members members hmembers hfuel (List.dropWhile_idempotent _ _)
  | null => cases hv
  | bool b => cases hv
  | number n => cases hv
  | string s => cases hv
  | emptyArray space => cases hv
  | array elements => cases hv

end JsonScan

open JsonScan

/-! ### Elements -/

namespace JsonArrayIter

variable {data : Bytes}

/-- The iterator over the bytes that has the text left. -/
def facing (data u : Bytes) : JsonArrayIter := ⟨data, (JsonScan.facing data u).pos, false⟩

/-- The scan at an element. -/
def atElement (data : Bytes) (w : Value × Bytes) : JsonScan :=
  JsonScan.facing data (w.1.render ++ w.2)

/-- An iterator in front of a value yields the scan at the value, and goes on after a comma. -/
theorem next_facing {v : Value} {u w t : Bytes} {c : UInt8} (h : u <:+ data)
    (hu : u.dropWhile isSpace = v.render ++ w) (hdelimited : Delimited w)
    (hw : w.dropWhile isSpace = c :: t) :
  (facing data u).next
    = some (some (atElement data (v, w)),
        if c = Ascii.comma then facing data t else ⟨data, (atElement data (v, w)).pos, true⟩)
  := by
  have hsuffix := suffix_of_dropWhile h hu
  have hafter := (List.suffix_append v.render w).trans hsuffix
  have hdelimiter := dropWhile_suffix hafter isSpace
  rw [hw] at hdelimiter
  have hscan : (facing data u).scan.afterWs = atElement data (v, w) := by
    change (JsonScan.facing data u).afterWs = _
    rw [afterWs_facing h, hu]
    rfl
  obtain ⟨b, l, hrender, hb⟩ := v.render_eq_cons
  have hpeek : (atElement data (v, w)).peek = some b := by
    rw [atElement, peek_facing hsuffix, hrender]
    rfl
  have hclose : b ≠ Ascii.closeBracket := by
    rintro rfl
    apply hb
    decide
  have hskip : (atElement data (v, w)).skipValue = some (true, JsonScan.facing data w) :=
    skipValue_value hsuffix (v.stops_render w).dropWhile hdelimited
  rw [next_eq rfl, hscan, hpeek]
  dsimp only
  rw [if_neg hclose, hskip]
  change (if (JsonScan.facing data w).afterWs.peek = _ then
    some (some (atElement data (v, w)),
      JsonArrayIter.mk data ((JsonScan.facing data w).afterWs.pos + 1) false) else _) = _
  have hpos := congrArg JsonScan.pos (advance_facing_cons hdelimiter)
  rw [pos_advance] at hpos
  rw [afterWs_facing hafter, hw, peek_facing hdelimiter, hpos]
  simp only [List.head?_cons, Option.some.injEq]
  split <;> rfl

/-- An iterator in front of the elements of an array yields a scan for each. -/
theorem toList_elements :
  ∀ (elements : Elements) {u t : Bytes} {n : Nat}, u <:+ data →
    u.dropWhile isSpace = (elements.render ++ Ascii.closeBracket :: t).dropWhile isSpace →
    (elements.tails (Ascii.closeBracket :: t)).length < n →
    (facing data u).toList n
      = some ((elements.tails (Ascii.closeBracket :: t)).map (atElement data))
  | _, _, _, 0, _, _, hn => by simp at hn
  | .last before value after, u, t, n + 1, h, hu, hn => by
      rw [Elements.render_last_append, Value.dropWhile_space] at hu
      obtain ⟨hdelimited, hclose⟩ := delimits_closeBracket after t
      obtain ⟨m, rfl⟩ : ∃ m, n = m + 1 := by
        apply Nat.exists_eq_add_one.mpr
        simpa [Elements.tails] using hn
      rw [toList, next_facing h hu hdelimited hclose]
      rfl
  | .more before value after rest, u, t, n + 1, h, hu, hn => by
      rw [Elements.render_more_append, Value.dropWhile_space] at hu
      obtain ⟨hdelimited, hcomma⟩ := delimits_comma after (rest.render ++ Ascii.closeBracket :: t)
      have hrest : rest.render ++ Ascii.closeBracket :: t <:+ data := by
        have hsuffix := suffix_of_dropWhile h hu
        apply (List.suffix_cons Ascii.comma _).trans
        apply (List.suffix_append after.bytes _).trans
        apply (List.suffix_append value.render _).trans hsuffix
      have hlen : (rest.tails (Ascii.closeBracket :: t)).length < n := by
        simpa [Elements.tails] using hn
      rw [toList, next_facing h hu hdelimited hcomma, if_pos rfl]
      change ((facing data (rest.render ++ Ascii.closeBracket :: t)).toList n >>= _) = _
      rw [toList_elements rest hrest rfl hlen]
      rfl

/-- What `nth` returns, from what the iterator yields. -/
theorem nth_of_toList :
  ∀ {n : Nat} {it : JsonArrayIter} {items : List JsonScan} (k : Nat),
    it.toList n = some items → it.nth k = some items[k]?
  | 0, _, _, _, h => by cases h
  | n + 1, it, items, k, h => by
      obtain ⟨⟨item, it'⟩, hnext, h⟩ := Option.bind_eq_some_iff.mp h
      cases item with
      | none =>
        obtain rfl : [] = items := Option.some.inj h
        cases k with
        | zero =>
          rw [nth, hnext]
          rfl
        | succ k =>
          rw [nth, hnext]
          rfl
      | some item =>
        obtain ⟨items', hitems, h⟩ := Option.bind_eq_some_iff.mp h
        obtain rfl : item :: items' = items := Option.some.inj h
        cases k with
        | zero =>
          rw [nth, hnext]
          rfl
        | succ k =>
          rw [nth, hnext]
          apply nth_of_toList k hitems

end JsonArrayIter

open JsonArrayIter

namespace JsonScan

variable {data : Bytes}

theorem arrayIter_facing {u w : Bytes} (h : u <:+ data)
    (hu : u.dropWhile isSpace = Ascii.openBracket :: w) :
  (facing data u).arrayIter
    = some (some ⟨data, (facing data (w.dropWhile isSpace)).pos,
        (w.dropWhile isSpace).head? = some Ascii.closeBracket⟩)
  := by
  have hsuffix := suffix_of_dropWhile h hu
  have hinner := (List.suffix_cons _ w).trans hsuffix
  rw [arrayIter, skipWs_facing h, hu]
  change (if (facing data (Ascii.openBracket :: w)).peek ≠ some Ascii.openBracket then _ else
    ((facing data (Ascii.openBracket :: w)).advance 1).skipWs >>= _) = _
  rw [peek_facing hsuffix, if_neg (by simp), advance_facing_cons hsuffix, skipWs_facing hinner,
    ← peek_facing (dropWhile_suffix hinner isSpace)]
  rfl

/-- In front of an array, or of whitespace before it, the iterator yields a scan for each
element. -/
theorem arrayIter_elements {v : Value} {elements : List (Value × Bytes)} {u t : Bytes}
    (h : u <:+ data) (hu : u.dropWhile isSpace = v.render ++ t)
    (hv : v.elements t = some elements) :
  ∃ it, (facing data u).arrayIter = some (some it)
    ∧ ∀ n, elements.length < n → it.toList n = some (elements.map (atElement data))
  := by
  cases v with
  | emptyArray space =>
    obtain rfl := Option.some.inj hv
    rw [Value.render, List.cons_append, List.append_assoc, List.singleton_append] at hu
    refine ⟨_, arrayIter_facing h hu, fun n hn => ?_⟩
    obtain ⟨m, rfl⟩ : ∃ m, n = m + 1 := Nat.exists_eq_add_one.mpr hn
    rw [dropWhile_space_cons space (by rfl)]
    rfl
  | array elements =>
    obtain rfl := Option.some.inj hv
    rw [Value.render, List.cons_append, List.append_assoc, List.singleton_append] at hu
    have hinner : elements.render ++ Ascii.closeBracket :: t <:+ data := by
      have hsuffix := suffix_of_dropWhile h hu
      apply (List.suffix_cons _ _).trans hsuffix
    have hhead := elements.head_dropWhile_ne (Ascii.closeBracket :: t)
    refine ⟨_, arrayIter_facing h hu, fun n hn => ?_⟩
    rw [decide_eq_false hhead]
    apply toList_elements elements (dropWhile_suffix hinner isSpace)
      (List.dropWhile_idempotent _ _) hn
  | null => cases hv
  | bool b => cases hv
  | number n => cases hv
  | string s => cases hv
  | emptyObject space => cases hv
  | object members => cases hv

/-- In front of an array, or of whitespace before it, `index` returns the scan at the element. -/
theorem index_elements {v : Value} {elements : List (Value × Bytes)} {u t : Bytes}
    (h : u <:+ data) (hu : u.dropWhile isSpace = v.render ++ t)
    (hv : v.elements t = some elements) (k : Nat) :
  (facing data u).index k = some (elements[k]?.map (atElement data))
  := by
  obtain ⟨it, hit, hitems⟩ := arrayIter_elements h hu hv
  have hnth := nth_of_toList k (hitems _ (Nat.lt_succ_self _))
  rw [index, hit]
  apply hnth.trans
  rw [List.getElem?_map]

/-- A scan of the bytes starts after the whitespace. -/
theorem new_eq (data : Bytes) :
  JsonScan.new data = some (facing data (data.dropWhile isSpace))
  := by
  rw [JsonScan.new, ← facing_self]
  apply skipWs_facing List.suffix_rfl

theorem new_text (text : Text) :
  JsonScan.new text.render = some (facing text.render (text.value.render ++ text.after.bytes))
  := by
  rw [new_eq]
  congr
  apply Value.dropWhile_space

end JsonScan

/-! ### The values of a text -/

/-- The scan is at the value that is followed by `t`, or at whitespace before it. -/
def At (data : Bytes) (v : Value) (t : Bytes) (s : JsonScan) : Prop :=
  ∃ space : Space, space.bytes ++ (v.render ++ t) <:+ data
    ∧ s = JsonScan.facing data (space.bytes ++ (v.render ++ t))

/-- For every value that occurs in a JSON text, and every scan at the value or at whitespace
before it: `skip_value` stops at the end of the value; if the value is an object, `field`
returns the value of the first of its members with the name, and none if there is none; if it
is an array, its iterator yields the scan at each element, in order. -/
theorem scan_text (text : Text) {v : Value} {t : Bytes}
    (h : Occurs v t text.value text.after.bytes) {s : JsonScan} (hs : At text.render v t s) :
  s.skipValue = some (true, JsonScan.facing text.render t)
    ∧ (∀ members, v.members t = some members → ∀ name,
        s.field name
          = some ((members.find? fun m => m.name.raw = name).map (atMember text.render)))
    ∧ ∀ elements, v.elements t = some elements →
        ∃ it, s.arrayIter = some (some it)
          ∧ ∀ n, elements.length < n →
              it.toList n = some (elements.map (atElement text.render))
  := by
  obtain ⟨space, hsuffix, rfl⟩ := hs
  have hvalue := Value.dropWhile_space space v t
  have hdelimited : Delimited t := by
    apply h.delimited
    have hafter := Delimited.nil.space_append text.after
    rw [List.append_nil] at hafter
    apply hafter
  refine ⟨?_, ?_, ?_⟩
  · apply skipValue_value hsuffix hvalue hdelimited
  · intro members hmembers name
    apply field_members hsuffix hvalue hmembers
  · intro elements helements
    apply arrayIter_elements hsuffix hvalue helements

/-- `{"a":{"b":null},"b":[true]}` -/
def nested : Text :=
  ⟨.empty,
    .object (.more (.ofAscii (asBytes "a")) .empty
      (.object (.last (.ofAscii (asBytes "b")) .empty .null .empty)) .empty
      (.last (.ofAscii (asBytes "b")) .empty (.array (.last .empty (.bool true) .empty)) .empty)),
    .empty⟩

theorem scan_text_nested :
  JsonScan.field ⟨nested.render, 0⟩ (asBytes "b") = some (some ⟨nested.render, 20⟩)
  := by
  have hat : At nested.render nested.value [] ⟨nested.render, 0⟩ :=
    ⟨.empty, by decide, by decide⟩
  apply ((scan_text nested .self hat).2.1 _ rfl (asBytes "b")).trans
  decide

end FdRpc

import FiredancerRs.Rpc.Response
import FiredancerRs.Rpc.Stable

/-!
# Documents that are cut off

The scanner on a text of which the last bytes are missing. A scan stands in front of what is
left of a value; in front of a value of which bytes are missing `skip_value` fails or comes to
the end (`skipValue_cut`), `field` finds the members of which bytes are left (`field_cut`,
`field_cut_none`), and an iterator yields the elements of which bytes are left
(`arrayIter_cut`).
-/

open Json

namespace FdRpc

/-! ### The last bytes of a list -/

section DropRight

variable {u v : Bytes} {n : Nat}

theorem rdrop_append_of_le (l : Bytes) (h : n ≤ u.length) :
  (l ++ u).rdrop n = l ++ u.rdrop n
  := by
  have hlen : (l ++ u).length - n = l.length + (u.length - n) := by
    rw [List.length_append]
    omega
  rw [List.rdrop, List.rdrop, hlen, List.take_length_add_append]

theorem rdrop_cons_of_le (c : UInt8) (h : n ≤ u.length) :
  (c :: u).rdrop n = c :: u.rdrop n
  := rdrop_append_of_le [c] h

theorem rdrop_eq_nil (h : u.length ≤ n) :
  u.rdrop n = []
  := by
  rw [List.rdrop, Nat.sub_eq_zero_of_le h, List.take_zero]

theorem length_rdrop (u : Bytes) (n : Nat) :
  (u.rdrop n).length = u.length - n
  := by
  rw [List.rdrop, List.length_take]
  omega

theorem rdrop_ne_nil (h : n < u.length) :
  u.rdrop n ≠ []
  := by
  apply List.ne_nil_of_length_pos
  rw [length_rdrop]
  omega

theorem head?_rdrop (h : n < u.length) :
  (u.rdrop n).head? = u.head?
  := by
  cases u with
  | nil => simp at h
  | cons c t =>
    rw [List.length_cons] at h
    rw [rdrop_cons_of_le c (by omega)]
    rfl

theorem head?_of_rdrop {c : UInt8} (h : (u.rdrop n).head? = some c) :
  u.head? = some c
  := by
  rcases Nat.lt_or_ge n u.length with hlt | hge
  · rwa [head?_rdrop hlt] at h
  · rw [rdrop_eq_nil hge] at h
    cases h

theorem rdrop_suffix (h : u <:+ v) (n : Nat) :
  u.rdrop n <:+ v.rdrop n
  := by
  obtain ⟨l, rfl⟩ := h
  rcases Nat.le_total n u.length with hle | hle
  · rw [rdrop_append_of_le l hle]
    apply List.suffix_append
  · rw [rdrop_eq_nil hle]
    apply List.nil_suffix

theorem dropWhile_rdrop (p : UInt8 → Bool) (u : Bytes) (n : Nat) :
  (u.rdrop n).dropWhile p = (u.dropWhile p).rdrop n
  := by
  induction u with
  | nil => rw [List.rdrop_nil, List.dropWhile_nil, List.rdrop_nil]
  | cons c t ih =>
    rcases Nat.lt_or_ge t.length n with hlt | hle
    · have hle := (List.dropWhile_suffix p (l := c :: t)).length_le
      rw [rdrop_eq_nil (by rw [List.length_cons]; omega), List.dropWhile_nil,
        rdrop_eq_nil (by rw [List.length_cons] at hle; omega)]
    · rw [rdrop_cons_of_le c hle, List.dropWhile_cons, List.dropWhile_cons]
      split
      · apply ih
      · rw [rdrop_cons_of_le c hle]

theorem delimited_rdrop (h : Delimited u) (n : Nat) :
  Delimited (u.rdrop n)
  := by
  rcases Nat.lt_or_ge n u.length with hlt | hge
  · rw [Delimited, head?_rdrop hlt]
    apply h
  · rw [rdrop_eq_nil hge]
    apply Delimited.nil

end DropRight

namespace JsonScan

variable {full u : Bytes} {r : Nat}

/-! ### Scans of what is left -/

/-- The scan of what is left is at the same position. -/
theorem pos_facing_rdrop (h : u <:+ full) (hr : r ≤ u.length) :
  (facing (full.rdrop r) (u.rdrop r)).pos = (facing full u).pos
  := by
  have hle := h.length_le
  change (full.rdrop r).length - (u.rdrop r).length = full.length - u.length
  rw [length_rdrop, length_rdrop]
  omega

theorem extend_facing (h : u <:+ full) (hr : r ≤ u.length) :
  (facing (full.rdrop r) (u.rdrop r)).extend (full.drop (full.length - r)) = facing full u
  := by
  have hpos := pos_facing_rdrop h hr
  have hdata : full.rdrop r ++ full.drop (full.length - r) = full :=
    List.take_append_drop (full.length - r) full
  rw [extend, hpos]
  change JsonScan.mk (full.rdrop r ++ full.drop (full.length - r)) _ = _
  rw [hdata]
  rfl

/-- A scan of what is left, of which the extended scan is known. -/
theorem eq_facing_of_extend {s : JsonScan} (h : u <:+ full) (hdata : s.data = full.rdrop r)
    (hrest : s.HasRest) (hs : s.extend (full.drop (full.length - r)) = facing full u) :
  r < u.length ∧ s = facing (full.rdrop r) (u.rdrop r)
  := by
  have hlt := pos_lt_iff.mpr hrest
  have hpos : s.pos = full.length - u.length := congrArg JsonScan.pos hs
  have hle := h.length_le
  rw [hdata, length_rdrop, hpos] at hlt
  have hr : r < u.length := by omega
  use hr
  have hpos' := pos_facing_rdrop h (Nat.le_of_lt hr)
  obtain ⟨data, pos⟩ := s
  obtain rfl : data = full.rdrop r := hdata
  obtain rfl : pos = (facing (full.rdrop r) (u.rdrop r)).pos := by
    rw [hpos']
    apply hpos
  rfl

/-- In front of a value of which bytes are missing, `skip_value` fails or comes to the end. -/
theorem skipValue_cut {v : Value} {w : Bytes} (h : v.render ++ w <:+ full) (hr : w.length < r) :
  ∃ ok s', (facing (full.rdrop r) ((v.render ++ w).rdrop r)).skipValue = some (ok, s')
    ∧ (ok = true → ¬ s'.HasRest)
  := by
  obtain ⟨ok, s', hskip, hdata, -⟩ :=
    (facing (full.rdrop r) ((v.render ++ w).rdrop r)).skipValue_skipped
  refine ⟨ok, s', hskip, ?_⟩
  rintro rfl hrest
  -- the value is whole when the bytes of it that are missing follow
  have htext : (v.render ++ w).rdrop r ++ v.render.drop (v.render.length + w.length - r)
      = v.render := by
    have htake : (v.render ++ w).rdrop r = v.render.take (v.render.length + w.length - r) := by
      rw [List.rdrop, List.length_append, List.take_append_of_le_length (by omega)]
    rw [htake, List.take_append_drop]
  have hsuffix := rdrop_suffix h r
  have hwhole : v.render <:+ full.rdrop r
      ++ v.render.drop (v.render.length + w.length - r) := by
    obtain ⟨l, hl⟩ := hsuffix
    use l
    rw [← hl, List.append_assoc, htext]
  have hextend : (facing (full.rdrop r) ((v.render ++ w).rdrop r)).extend
      (v.render.drop (v.render.length + w.length - r))
      = facing (full.rdrop r ++ v.render.drop (v.render.length + w.length - r)) v.render := by
    have hle := hsuffix.length_le
    have hlen := congrArg List.length htext
    rw [List.length_append] at hlen
    simp only [extend, facing, List.length_append, JsonScan.mk.injEq, true_and]
    omega
  have hstable := skipValue_extend (v.render.drop (v.render.length + w.length - r)) _ _ hskip hrest
  have hvalue := skipValue_value (v := v) (u := v.render) (t := []) hwhole
    (by simpa using (v.stops_render []).dropWhile) Delimited.nil
  rw [hextend, hvalue] at hstable
  obtain ⟨-, hs'⟩ := Prod.mk.inj (Option.some.inj hstable)
  have hpos := congrArg JsonScan.pos hs'
  have hlt := pos_lt_iff.mpr hrest
  rw [hdata] at hlt
  change (full.rdrop r ++ _).length - 0 = s'.pos at hpos
  rw [List.length_append] at hpos
  change s'.pos < (full.rdrop r).length at hlt
  omega

/-! ### The end of the bytes -/

theorem not_hasRest_facing (data : Bytes) :
  ¬ (facing data []).HasRest
  := by
  rw [HasRest, rest_facing (List.nil_suffix)]
  apply not_not.mpr rfl

theorem peek_afterWs_end {s : JsonScan} (h : ¬ s.HasRest) :
  s.afterWs.peek = none
  := by
  rw [peek_eq, rest_afterWs, not_not.mp h]
  rfl

theorem isObject_end {s : JsonScan} (h : ¬ s.HasRest) :
  s.isObject = false
  := by
  rw [isObject, peek_eq, not_not.mp h]
  rfl

theorem field_end {s : JsonScan} (h : ¬ s.HasRest) (name : Bytes) :
  s.field name = some none
  := by
  rw [field, skipWs_eq]
  apply if_pos
  rw [peek_afterWs_end h]
  simp

theorem arrayIter_end {s : JsonScan} (h : ¬ s.HasRest) :
  s.arrayIter = some none
  := by
  rw [arrayIter, skipWs_eq]
  apply if_pos
  rw [peek_afterWs_end h]
  simp

/-! ### Members -/

/-- What is left in front of a member, when bytes of its value are left. -/
theorem dropWhile_key {u x : Bytes} {key : Key}
    (hu : u.dropWhile isSpace = (key.render ++ x).dropWhile isSpace) (hr : r ≤ x.length) :
  (u.rdrop r).dropWhile isSpace = (key.render ++ x.rdrop r).dropWhile isSpace
  := by
  rw [dropWhile_rdrop, hu, key.dropWhile_render, key.dropWhile_render,
    rdrop_append_of_le _ (by rw [List.length_append, List.length_cons]; omega),
    rdrop_append_of_le _ (by rw [List.length_cons]; omega), rdrop_cons_of_le _ hr]

/-- The scan at what is left of the value of a member. -/
def atMemberCut (full : Bytes) (r : Nat) (m : Member) : JsonScan :=
  facing (full.rdrop r) ((m.value.render ++ m.after).rdrop r)

/-- The loop of `field` finds the first member with the name when bytes of its value are
left. -/
theorem fieldLoop_cut {target : Bytes} {m : Member} (hm : r < (m.value.render ++ m.after).length) :
  ∀ (members : Members) {u t : Bytes} {n : Nat}, u <:+ full → (u.rdrop r).length < n →
    u.dropWhile isSpace = (members.render ++ Ascii.closeBrace :: t).dropWhile isSpace →
    ((members.tails (Ascii.closeBrace :: t)).find? fun m => m.name.raw = target) = some m →
    fieldLoop target n (facing (full.rdrop r) (u.rdrop r))
      = some (some (atMemberCut full r m))
  | _, _, _, 0, _, hn, _, _ => by simp at hn
  | .last key before value after, u, t, n + 1, h, hn, hu, hfind => by
      rw [Members.render_last_append] at hu
      have hvalue := Value.dropWhile_space before value (after.bytes ++ Ascii.closeBrace :: t)
      rw [Members.tails] at hfind
      by_cases hname : key.name.raw = target
      · rw [List.find?_cons_of_pos (by simpa using hname)] at hfind
        obtain rfl := Option.some.inj hfind
        have hx := Nat.le_trans (Nat.le_of_lt hm) (List.suffix_append before.bytes _).length_le
        obtain ⟨-, hkey⟩ := fieldLoop_key target n (rdrop_suffix h r)
          (dropWhile_key hu hx)
        rw [hkey, if_pos hname, dropWhile_rdrop, hvalue]
        rfl
      · rw [List.find?_cons_of_neg (by simpa using hname)] at hfind
        cases hfind
  | .more key before value after rest, u, t, n + 1, h, hn, hu, hfind => by
      rw [Members.render_more_append] at hu
      obtain ⟨hdelimited, hcomma⟩ := delimits_comma after (rest.render ++ Ascii.closeBrace :: t)
      have hvalue := Value.dropWhile_space before value
        (after.bytes ++ Ascii.comma :: (rest.render ++ Ascii.closeBrace :: t))
      rw [Members.tails] at hfind
      by_cases hname : key.name.raw = target
      · rw [List.find?_cons_of_pos (by simpa using hname)] at hfind
        obtain rfl := Option.some.inj hfind
        have hx := Nat.le_trans (Nat.le_of_lt hm) (List.suffix_append before.bytes _).length_le
        obtain ⟨-, hkey⟩ := fieldLoop_key target n (rdrop_suffix h r)
          (dropWhile_key hu hx)
        rw [hkey, if_pos hname, dropWhile_rdrop, hvalue]
        rfl
      · rw [List.find?_cons_of_neg (by simpa using hname)] at hfind
        have hsuffix := Members.tails_suffix (List.mem_of_find?_eq_some hfind)
        have hle := hsuffix.length_le
        have hrest : r ≤ (rest.render ++ Ascii.closeBrace :: t).length := by omega
        have hw : r ≤ (after.bytes ++ Ascii.comma ::
            (rest.render ++ Ascii.closeBrace :: t)).length := by
          rw [List.length_append, List.length_cons]
          omega
        have hx : r ≤ (before.bytes ++ (value.render ++ (after.bytes ++ Ascii.comma ::
            (rest.render ++ Ascii.closeBrace :: t)))).length := by
          rw [List.length_append, List.length_append]
          omega
        obtain ⟨hsuffix', hkey⟩ := fieldLoop_key target n (rdrop_suffix h r)
          (dropWhile_key hu hx)
        have hvalue' := dropWhile_rdrop isSpace (before.bytes ++ (value.render ++ (after.bytes
          ++ Ascii.comma :: (rest.render ++ Ascii.closeBrace :: t)))) r
        rw [hvalue, rdrop_append_of_le _ hw] at hvalue'
        have hcomma' := dropWhile_rdrop isSpace (after.bytes ++ Ascii.comma ::
          (rest.render ++ Ascii.closeBrace :: t)) r
        rw [hcomma, rdrop_cons_of_le _ hrest] at hcomma'
        have hlen : ((rest.render ++ Ascii.closeBrace :: t).rdrop r).length < n := by
          rw [length_rdrop] at hn ⊢
          have hle := congrArg List.length hu
          have hle' := (List.dropWhile_suffix isSpace (l := u)).length_le
          rw [key.dropWhile_render] at hle
          simp only [List.length_append, List.length_cons] at hle hrest ⊢
          omega
        have hnext : rest.render ++ Ascii.closeBrace :: t <:+ full := by
          apply (List.suffix_cons Ascii.comma _).trans
          apply (List.suffix_append after.bytes _).trans
          apply (List.suffix_append value.render _).trans
          apply (List.suffix_append before.bytes _).trans (fieldLoop_key target n h hu).1
        rw [hkey, if_neg hname,
          fieldLoop_value hsuffix' hvalue' (delimited_rdrop hdelimited r) hcomma', if_pos rfl]
        apply fieldLoop_cut hm rest hnext hlen rfl hfind

/-- In front of what is left of an object, `field` finds the first member with the name when
bytes of its value are left. -/
theorem field_cut {v : Value} {t name : Bytes} {members : List Member} {m : Member}
    (h : v.render ++ t <:+ full) (hv : v.members t = some members)
    (hfind : (members.find? fun m => m.name.raw = name) = some m)
    (hm : r < (m.value.render ++ m.after).length) :
  (facing (full.rdrop r) ((v.render ++ t).rdrop r)).field name
    = some (some (atMemberCut full r m))
  := by
  cases v with
  | emptyObject space =>
    obtain rfl := Option.some.inj hv
    cases hfind
  | object members =>
    obtain rfl := Option.some.inj hv
    have hle := (Members.tails_suffix (List.mem_of_find?_eq_some hfind)).length_le
    have htext : (Value.object members).render ++ t
        = Ascii.openBrace :: (members.render ++ Ascii.closeBrace :: t) := by
      simp [Value.render]
    rw [htext] at h ⊢
    have hr : r ≤ (members.render ++ Ascii.closeBrace :: t).length := by omega
    have hsuffix := rdrop_suffix h r
    rw [rdrop_cons_of_le _ hr] at hsuffix ⊢
    have hinner := (List.suffix_cons _ _).trans hsuffix
    have hmembers := dropWhile_suffix hinner isSpace
    have hstops : Stops isSpace (Ascii.openBrace :: (members.render
        ++ Ascii.closeBrace :: t).rdrop r) := Stops.cons rfl _
    -- bytes of the first name are left
    have hdrop : (((members.render ++ Ascii.closeBrace :: t).rdrop r).dropWhile isSpace).head?
        ≠ some Ascii.closeBrace := by
      rw [dropWhile_rdrop]
      intro hclose
      apply members.head_dropWhile_ne (Ascii.closeBrace :: t)
      apply head?_of_rdrop hclose
    rw [field, skipWs_facing hsuffix, hstops.dropWhile]
    change (if (facing (full.rdrop r) (Ascii.openBrace :: _)).peek ≠ some Ascii.openBrace then _
      else ((facing (full.rdrop r) (Ascii.openBrace :: _)).advance 1).skipWs >>= _) = _
    rw [peek_facing hsuffix, if_neg (by simp), advance_facing_cons hsuffix, skipWs_facing hinner]
    change (if (facing (full.rdrop r) _).peek = some Ascii.closeBrace then _ else _) = _
    rw [peek_facing hmembers, if_neg hdrop, dropWhile_rdrop]
    have hfull : members.render ++ Ascii.closeBrace :: t <:+ full := (List.suffix_cons _ _).trans h
    rw [dropWhile_rdrop] at hmembers
    have hfuel := (facing (full.rdrop r) (((members.render ++ Ascii.closeBrace :: t).dropWhile
      isSpace).rdrop r)).length_rest_lt_fuel
    rw [rest_facing hmembers] at hfuel
    apply fieldLoop_cut hm members (dropWhile_suffix hfull isSpace) hfuel
      (List.dropWhile_idempotent _ _) hfind
  | _ => cases hv

/-- In front of what is left of an object, `field` finds no other members: what else it finds is
a scan that has come to the end. -/
theorem field_of_cut {v : Value} {t name : Bytes} {members : List Member} {s : JsonScan}
    (h : v.render ++ t <:+ full) (hv : v.members t = some members)
    (hs : (facing (full.rdrop r) ((v.render ++ t).rdrop r)).field name = some (some s))
    (hrest : s.HasRest) :
  ∃ m, (members.find? fun m => m.name.raw = name) = some m
    ∧ r < (m.value.render ++ m.after).length ∧ s = atMemberCut full r m
  := by
  have hdata : s.data = full.rdrop r := by
    obtain ⟨s', hs', hlands⟩ :=
      (facing (full.rdrop r) ((v.render ++ t).rdrop r)).field_lands name
    rw [hs] at hs'
    apply (hlands s (Option.some.inj hs').symm).1
  rcases Nat.lt_or_ge r (v.render ++ t).length with hlt | hge
  · have hmore := field_extend (full.drop (full.length - r)) hs hrest
    rw [extend_facing h (Nat.le_of_lt hlt),
      field_members h (v.stops_render t).dropWhile hv] at hmore
    obtain ⟨m, hfind, hm⟩ := Option.map_eq_some_iff.mp (Option.some.inj hmore)
    have hsuffix := (Value.members_suffix hv (List.mem_of_find?_eq_some hfind)).trans h
    use m, hfind
    apply eq_facing_of_extend hsuffix hdata hrest
    apply hm.symm
  · rw [rdrop_eq_nil hge, field_end (not_hasRest_facing _)] at hs
    cases hs

end JsonScan

open JsonScan

/-! ### Elements -/

/-- The scan at what is left of an element. -/
def atElementCut (full : Bytes) (r : Nat) (w : Value × Bytes) : JsonScan :=
  JsonScan.facing (full.rdrop r) ((w.1.render ++ w.2).rdrop r)

/-- The elements of which bytes are left. -/
def left (r : Nat) (elements : List (Value × Bytes)) : List (Value × Bytes) :=
  elements.filter fun w => r < (w.1.render ++ w.2).length

section Left

variable {w : Value × Bytes} {elements : List (Value × Bytes)} {r : Nat}

@[simp]
theorem left_nil (r : Nat) :
  left r [] = []
  := rfl

theorem left_cons_of_lt (h : r < (w.1.render ++ w.2).length) :
  left r (w :: elements) = w :: left r elements
  := List.filter_cons_of_pos (decide_eq_true h)

theorem left_cons_of_ge (h : (w.1.render ++ w.2).length ≤ r) :
  left r (w :: elements) = left r elements
  := List.filter_cons_of_neg (by simpa using h)

theorem left_eq_nil (h : ∀ w ∈ elements, (w.1.render ++ w.2).length ≤ r) :
  left r elements = []
  := by
  rw [left, List.filter_eq_nil_iff]
  intro w hw
  simpa using h w hw

end Left

namespace JsonArrayIter

variable {full : Bytes} {r : Nat}

theorem next_end {data u : Bytes} (h : u <:+ data) (hu : u.dropWhile isSpace = []) :
  ∃ it, (facing data u).next = some (none, it)
  := by
  have hpeek : (facing data u).scan.afterWs.peek = none := by
    change (JsonScan.facing data u).afterWs.peek = none
    rw [afterWs_facing h, hu, peek_facing List.nil_suffix]
    rfl
  rw [next_eq rfl, hpeek]
  exact ⟨_, rfl⟩

/-- An iterator in front of what is left of an element yields the scan at it, and goes on when
the comma after it is left. -/
theorem next_cut {v : Value} {u w t : Bytes} {c : UInt8} (h : u <:+ full)
    (hu : u.dropWhile isSpace = v.render ++ w) (hdelimited : Delimited w)
    (hw : w.dropWhile isSpace = c :: t) (hr : r < (v.render ++ w).length) :
  (facing (full.rdrop r) (u.rdrop r)).next
    = some (some (atElementCut full r (v, w)),
        if c = Ascii.comma ∧ r ≤ t.length then facing (full.rdrop r) (t.rdrop r)
        else ⟨full.rdrop r, (atElementCut full r (v, w)).pos, true⟩)
  := by
  have htext := suffix_of_dropWhile h hu
  have hscan : (facing (full.rdrop r) (u.rdrop r)).scan.afterWs = atElementCut full r (v, w) := by
    change (JsonScan.facing (full.rdrop r) (u.rdrop r)).afterWs = _
    rw [afterWs_facing (rdrop_suffix h r), dropWhile_rdrop, hu]
    rfl
  obtain ⟨b, l, hrender, hb⟩ := v.render_eq_cons
  have hpeek : (atElementCut full r (v, w)).peek = some b := by
    rw [atElementCut, peek_facing (rdrop_suffix htext r), head?_rdrop hr, hrender]
    rfl
  have hclose : b ≠ Ascii.closeBracket := by
    rintro rfl
    apply hb
    decide
  have hle : t.length < w.length := by
    have hsuffix := (List.dropWhile_suffix isSpace (l := w)).length_le
    rw [hw, List.length_cons] at hsuffix
    apply hsuffix
  rw [next_eq rfl, hscan, hpeek]
  dsimp only
  rw [if_neg hclose]
  rcases Nat.lt_or_ge w.length r with hlt | hge
  · -- bytes of the element are missing
    obtain ⟨ok, s', hskip, hend⟩ := skipValue_cut htext hlt
    rw [if_neg (by omega), atElementCut, hskip]
    cases ok with
    | false => rfl
    | true =>
      change (if s'.afterWs.peek = some Ascii.comma then _ else _) = _
      rw [peek_afterWs_end (hend rfl)]
      rfl
  · have hvalue := rdrop_append_of_le v.render hge
    have hcut := rdrop_suffix htext r
    rw [hvalue] at hcut
    have hskip : (atElementCut full r (v, w)).skipValue
        = some (true, JsonScan.facing (full.rdrop r) (w.rdrop r)) := by
      rw [atElementCut, hvalue]
      apply skipValue_value hcut (v.stops_render _).dropWhile (delimited_rdrop hdelimited r)
    have hafter : (JsonScan.facing (full.rdrop r) (w.rdrop r)).afterWs
        = JsonScan.facing (full.rdrop r) ((c :: t).rdrop r) := by
      rw [afterWs_facing ((List.suffix_append v.render _).trans hcut), dropWhile_rdrop, hw]
    have hdelimiter : (c :: t).rdrop r <:+ full.rdrop r := by
      rw [← hw]
      apply rdrop_suffix
      apply (dropWhile_suffix ((List.suffix_append v.render w).trans htext) isSpace)
    rw [hskip]
    change (if (JsonScan.facing (full.rdrop r) (w.rdrop r)).afterWs.peek = _ then
      some (some (atElementCut full r (v, w)), JsonArrayIter.mk (full.rdrop r)
        ((JsonScan.facing (full.rdrop r) (w.rdrop r)).afterWs.pos + 1) false) else _) = _
    rw [hafter, peek_facing hdelimiter]
    rcases Nat.lt_or_ge t.length r with hcomma | hcomma
    · rw [rdrop_eq_nil hcomma, if_neg (by simp), if_neg (by omega)]
      rfl
    · rw [rdrop_cons_of_le c hcomma] at hdelimiter ⊢
      have hpos := congrArg JsonScan.pos (advance_facing_cons hdelimiter)
      rw [pos_advance] at hpos
      rw [hpos]
      simp only [List.head?_cons, Option.some.injEq, hcomma, and_true]
      split <;> rfl

/-- An iterator in front of what is left of the elements of an array yields a scan for each
element of which bytes are left. -/
theorem toList_cut :
  ∀ (elements : Elements) {u t : Bytes} {n : Nat}, u <:+ full →
    u.dropWhile isSpace = (elements.render ++ Ascii.closeBracket :: t).dropWhile isSpace →
    (left r (elements.tails (Ascii.closeBracket :: t))).length < n →
    (facing (full.rdrop r) (u.rdrop r)).toList n
      = some ((left r (elements.tails (Ascii.closeBracket :: t))).map (atElementCut full r))
  | _, _, _, 0, _, _, hn => by simp at hn
  | .last before value after, u, t, n + 1, h, hu, hn => by
      rw [Elements.render_last_append, Value.dropWhile_space] at hu
      rw [Elements.tails] at hn ⊢
      rcases Nat.lt_or_ge r (value.render ++ (after.bytes ++ Ascii.closeBracket :: t)).length
        with hlt | hge
      · obtain ⟨hdelimited, hclose⟩ := delimits_closeBracket after t
        rw [left_cons_of_lt hlt, left_nil] at hn ⊢
        obtain ⟨m, rfl⟩ : ∃ m, n = m + 1 := Nat.exists_eq_add_one.mpr (by simpa using hn)
        rw [toList, next_cut h hu hdelimited hclose hlt, if_neg (fun hcomma => by cases hcomma.1)]
        rfl
      · obtain ⟨it, hnext⟩ := next_end (rdrop_suffix h r)
          (by rw [dropWhile_rdrop, hu, rdrop_eq_nil hge])
        rw [toList, hnext, left_cons_of_ge hge, left_nil]
        rfl
  | .more before value after rest, u, t, n + 1, h, hu, hn => by
      rw [Elements.render_more_append, Value.dropWhile_space] at hu
      rw [Elements.tails] at hn ⊢
      have hnone (hy : (rest.render ++ Ascii.closeBracket :: t).length < r) :
          left r (rest.tails (Ascii.closeBracket :: t)) = [] := by
        apply left_eq_nil
        intro w hw
        have hle := (Elements.tails_suffix hw).length_le
        omega
      rcases Nat.lt_or_ge r (value.render ++ (after.bytes ++ Ascii.comma :: (rest.render
        ++ Ascii.closeBracket :: t))).length with hlt | hge
      · obtain ⟨hdelimited, hcomma⟩ := delimits_comma after (rest.render ++ Ascii.closeBracket :: t)
        rw [left_cons_of_lt hlt] at hn ⊢
        rw [toList, next_cut h hu hdelimited hcomma hlt]
        rcases Nat.lt_or_ge (rest.render ++ Ascii.closeBracket :: t).length r with hy | hy
        · rw [hnone hy] at hn ⊢
          obtain ⟨m, rfl⟩ : ∃ m, n = m + 1 := Nat.exists_eq_add_one.mpr (by simpa using hn)
          rw [if_neg (fun hboth => by omega)]
          rfl
        · have hrest : rest.render ++ Ascii.closeBracket :: t <:+ full := by
            have hsuffix := suffix_of_dropWhile h hu
            apply (List.suffix_cons Ascii.comma _).trans
            apply (List.suffix_append after.bytes _).trans
            apply (List.suffix_append value.render _).trans hsuffix
          rw [if_pos ⟨rfl, hy⟩]
          change ((facing (full.rdrop r) _).toList n >>= _) = _
          rw [toList_cut rest hrest rfl (Nat.lt_of_succ_lt_succ hn)]
          rfl
      · obtain ⟨it, hnext⟩ := next_end (rdrop_suffix h r)
          (by rw [dropWhile_rdrop, hu, rdrop_eq_nil hge])
        rw [toList, hnext, left_cons_of_ge hge, hnone]
        · rfl
        · simp only [List.length_append, List.length_cons] at hge ⊢
          omega

end JsonArrayIter

open JsonArrayIter

/-- In front of what is left of an array, the iterator yields a scan for each element of which
bytes are left. -/
theorem JsonScan.arrayIter_cut {full : Bytes} {r : Nat} {v : Value}
    {elements : List (Value × Bytes)} {t : Bytes} (h : v.render ++ t <:+ full)
    (hv : v.elements t = some elements) (hr : r < (v.render ++ t).length) :
  ∃ it, (JsonScan.facing (full.rdrop r) ((v.render ++ t).rdrop r)).arrayIter = some (some it)
    ∧ ∀ n, (left r elements).length < n →
        it.toList n = some ((left r elements).map (atElementCut full r))
  := by
  have hcut := rdrop_suffix h r
  have hopen (w : Bytes) : Stops isSpace (Ascii.openBracket :: w) := Stops.cons rfl w
  cases v with
  | emptyArray space =>
    obtain rfl := Option.some.inj hv
    rw [Value.render, List.cons_append, List.append_assoc, List.singleton_append] at hr hcut ⊢
    rw [rdrop_cons_of_le _ (Nat.le_of_lt_succ hr)] at hcut ⊢
    refine ⟨_, arrayIter_facing hcut (hopen _).dropWhile, fun n hn => ?_⟩
    obtain ⟨m, rfl⟩ : ∃ m, n = m + 1 := Nat.exists_eq_add_one.mpr hn
    rw [dropWhile_rdrop, dropWhile_space_cons space (by rfl)]
    rcases Nat.lt_or_ge t.length r with hlt | hge
    · obtain ⟨it, hnext⟩ : ∃ it, (JsonArrayIter.facing (full.rdrop r) []).next = some (none, it) :=
        next_end List.nil_suffix List.dropWhile_nil
      rw [rdrop_eq_nil (u := Ascii.closeBracket :: t) hlt, toList]
      change ((JsonArrayIter.facing (full.rdrop r) []).next >>= _) = _
      rw [hnext]
      rfl
    · rw [rdrop_cons_of_le _ hge]
      rfl
  | array elements =>
    obtain rfl := Option.some.inj hv
    rw [Value.render, List.cons_append, List.append_assoc, List.singleton_append] at h hr hcut ⊢
    rw [rdrop_cons_of_le _ (Nat.le_of_lt_succ hr)] at hcut ⊢
    have hhead : (((elements.render ++ Ascii.closeBracket :: t).dropWhile isSpace).rdrop r).head?
        ≠ some Ascii.closeBracket :=
      fun hclose => elements.head_dropWhile_ne (Ascii.closeBracket :: t) (head?_of_rdrop hclose)
    refine ⟨_, arrayIter_facing hcut (hopen _).dropWhile, fun n hn => ?_⟩
    rw [dropWhile_rdrop, decide_eq_false hhead]
    apply toList_cut elements _ (List.dropWhile_idempotent _ _) hn
    apply dropWhile_suffix ((List.suffix_cons _ _).trans h)
  | _ => cases hv

end FdRpc

import FiredancerRs.Rpc.ReadAccount
import FiredancerRs.Rpc.Truncated
import Mathlib.Data.List.Forall2

/-!
# Account lists that are cut off

The client parses a response without a check that its lists are closed: it accepts a prefix of
a response as a list of those accounts of which bytes are left, when it can read each of them
(`not_shortened_iff`).
-/

open Json FdEd25519

namespace FdRpc

open JsonScan

/-! ### Items -/

theorem exists_forall₂_iff {α β : Type} {R : α → β → Prop} {l : List α} :
  (∃ l', List.Forall₂ R l l') ↔ ∀ a ∈ l, ∃ b, R a b
  := by
  induction l with
  | nil => simp
  | cons a l ih =>
    rw [List.forall_mem_cons, ← ih]
    constructor
    · rintro ⟨l', h⟩
      obtain ⟨b, t, hb, ht, -⟩ := List.forall₂_cons_left_iff.mp h
      exact ⟨⟨b, hb⟩, t, ht⟩
    · rintro ⟨⟨b, hb⟩, t, ht⟩
      exact ⟨b :: t, .cons hb ht⟩

namespace JsonArrayIter

theorem toList_monotone (it : JsonArrayIter) :
  Fuel.Monotone fun n => it.toList n
  := by
  intro n
  dsimp only
  induction n generalizing it with
  | zero => apply Fuel.Extends.none
  | succ n ih =>
    apply Fuel.Extends.bind (.refl _)
    rintro ⟨item, it'⟩
    cases item with
    | none => apply Fuel.Extends.refl
    | some item => apply Fuel.Extends.bind (ih it') fun _ => .refl _

end JsonArrayIter

/-- The loop over the items succeeds when each item does. -/
theorem parseItems_iff {α : Type} {parse : JsonScan → Option (Except RpcError α)} :
  ∀ {n : Nat} {it : JsonArrayIter} {items : List JsonScan} {accounts : List α},
    it.toList n = some items →
    (parseItems parse n it = some (.ok accounts)
      ↔ List.Forall₂ (fun item a => parse item = some (.ok a)) items accounts)
  | 0, _, _, _, h => by cases h
  | n + 1, it, items, accounts, h => by
      obtain ⟨⟨item, it'⟩, hnext, h⟩ := Option.bind_eq_some_iff.mp h
      rw [parseItems, hnext]
      cases item with
      | none =>
        obtain rfl : [] = items := Option.some.inj h
        change some (Except.ok []) = some (Except.ok accounts) ↔ _
        rw [List.forall₂_nil_left_iff, Option.some.injEq, Except.ok.injEq, eq_comm]
      | some item =>
        obtain ⟨items', hitems, h⟩ := Option.bind_eq_some_iff.mp h
        obtain rfl : item :: items' = items := Option.some.inj h
        change (parse item >>= _) = _ ↔ _
        constructor
        · intro hok
          obtain ⟨result, hparse, hok⟩ := Option.bind_eq_some_iff.mp hok
          cases result with
          | error e => cases hok
          | ok a =>
            obtain ⟨rest, hrest, hok⟩ := Option.bind_eq_some_iff.mp hok
            cases rest with
            | error e => cases hok
            | ok as =>
              obtain rfl : a :: as = accounts := Except.ok.inj (Option.some.inj hok)
              exact .cons hparse ((parseItems_iff hitems).mp hrest)
        · intro hall
          cases hall with
          | cons hparse hrest =>
            rw [hparse]
            change (parseItems parse n it' >>= _) = _
            rw [(parseItems_iff hitems).mpr hrest]
            rfl

variable {full : Bytes} {r : Nat}

/-! ### Members that are found -/

theorem hasRest_facing {u : Bytes} (h : u <:+ full) (hr : r < u.length) :
  (facing (full.rdrop r) (u.rdrop r)).HasRest
  := by
  rw [HasRest, rest_facing (rdrop_suffix h r)]
  apply rdrop_ne_nil hr

/-- In front of what is left of an object, `field` finds the only member that can have the name
exactly when bytes of its value are left. -/
theorem field_cut_iff {v : Value} {t name : Bytes} {members : List Member} {m : Member}
    {s : JsonScan} (h : v.render ++ t <:+ full) (hv : v.members t = some members)
    (hm : members.find? (fun m => m.name.raw = name) = if m.name.raw = name then some m else none) :
  ((facing (full.rdrop r) ((v.render ++ t).rdrop r)).field name = some (some s) ∧ s.HasRest)
    ↔ m.name.raw = name ∧ r < (m.value.render ++ m.after).length ∧ s = atMemberCut full r m
  := by
  constructor
  · rintro ⟨hfield, hrest⟩
    obtain ⟨m', hfind, hr, rfl⟩ := field_of_cut h hv hfield hrest
    rw [hm] at hfind
    split at hfind
    · next hname =>
      obtain rfl := Option.some.inj hfind
      exact ⟨hname, hr, rfl⟩
    · cases hfind
  · rintro ⟨hname, hr, rfl⟩
    rw [if_pos hname] at hm
    have hsuffix := (Value.members_suffix hv (List.mem_of_find?_eq_some hm)).trans h
    exact ⟨field_cut h hv hm hr, hasRest_facing hsuffix hr⟩

/-- In front of what is left of a response that is no error, a result is found exactly when
bytes of it are left. -/
theorem resultOf_cut_iff {w : Value × Bytes} {outcome : Member} {members : List Member}
    {s : JsonScan} (h : w.1.render ++ w.2 <:+ full) (hr : IsResponseObject w outcome members)
    (herror : ¬ IsError outcome) :
  (resultOf (atElementCut full r w) = some (.ok s) ∧ s.HasRest)
    ↔ outcome.name.raw = asBytes "result"
      ∧ r < (outcome.value.render ++ outcome.after).length ∧ s = atMemberCut full r outcome
  := by
  rw [← field_cut_iff h hr.isObject (find?_outcome hr (.inl rfl))]
  apply and_congr_left
  intro hrest
  -- what is found as an error has come to the end, and is no object
  have hnone : errorOf (atElementCut full r w) = some none := by
    obtain ⟨found, hfound, -⟩ := (atElementCut full r w).field_lands (asBytes "error")
    rw [errorOf, hfound]
    cases found with
    | none => rfl
    | some s' =>
      have hend : ¬ s'.HasRest := by
        intro hrest'
        obtain ⟨hraw, -⟩ :=
          (field_cut_iff h hr.isObject (find?_outcome hr (.inr rfl))).mp ⟨hfound, hrest'⟩
        apply herror (Str.spells_raw hraw (by decide))
      change (if s'.isObject = true then _ else _) = _
      rw [isObject_end hend]
      rfl
  rw [resultOf, hnone]
  change ((atElementCut full r w).field (asBytes "result") >>= _) = _ ↔ _
  rw [atElementCut]
  cases (facing (full.rdrop r) ((w.1.render ++ w.2).rdrop r)).field (asBytes "result") with
  | none => simp
  | some found =>
    cases found with
    | none => simp
    | some s' => simp

/-! ### Lists that are found -/

section Items

variable {α : Type} (parse : JsonScan → Option (Except RpcError α)) {list : Member}
  {elements : List (Value × Bytes)}

/-- The loop over what is left of an array succeeds when it does for each element of which
bytes are left. -/
theorem parseItems_cut_iff (accounts : List α) (h : list.value.render ++ list.after <:+ full)
    (hv : list.value.elements list.after = some elements)
    (hr : r < (list.value.render ++ list.after).length) :
  ∃ it, (atMemberCut full r list).arrayIter = some (some it)
    ∧ (parseItems parse ((full.rdrop r).length + 2) it = some (.ok accounts)
      ↔ List.Forall₂ (fun w a => parse (atElementCut full r w) = some (.ok a))
          (left r elements) accounts)
  := by
  obtain ⟨it, hit, hitems⟩ := arrayIter_cut h hv hr
  refine ⟨it, hit, ?_⟩
  obtain ⟨found, hfound, hit'⟩ := (atMemberCut full r list).arrayIter_spec
  obtain ⟨hdata, hrange⟩ := hit' it (Option.some.inj (hfound.symm.trans hit))
  have hfuel : (it.toList ((full.rdrop r).length + 2)).isSome := by
    apply JsonArrayIter.toList_isSome hrange
    rw [hdata]
    change (if it.done then 0 else (full.rdrop r).length - it.pos + 1) < _
    split <;> omega
  have hlist := it.toList_monotone.eq_of_isSome (hitems _ (Nat.lt_succ_self _)) hfuel
  rw [parseItems_iff hlist, List.forall₂_map_left_iff]

/-- Bytes are missing from the list such that no bytes of some element are left, and it is
accepted without this element: its bracket is left, the elements that are left whole are read,
and so is an element of which bytes are missing, from the bytes that are left. -/
structure IsShortened (full : Bytes) (r : Nat) (read : Value → Except RpcError α) (list : Member)
    (elements : List (Value × Bytes)) : Prop where
  bracket : r < (list.value.render ++ list.after).length
  missing : ∃ w ∈ elements, (w.1.render ++ w.2).length ≤ r
  whole : ∀ w ∈ elements, r ≤ w.2.length → ∃ a, read w.1 = .ok a
  last : ∀ w ∈ elements, w.2.length < r → r < (w.1.render ++ w.2).length →
    ∃ a, parse (atElementCut full r w) = some (.ok a)

theorem isShortened_iff {read : Value → Except RpcError α}
    (h : list.value.render ++ list.after <:+ full)
    (hv : list.value.elements list.after = some elements)
    (hparse : ∀ v t, v.render ++ t <:+ full.rdrop r →
      parse (facing (full.rdrop r) (v.render ++ t)) = some (read v)) :
  IsShortened parse full r read list elements
    ↔ r < (list.value.render ++ list.after).length
      ∧ ∃ accounts, List.Forall₂ (fun w a => parse (atElementCut full r w) = some (.ok a))
          (left r elements) accounts ∧ accounts.length < elements.length
  := by
  have hleft (w : Value × Bytes) : w ∈ left r elements
      ↔ w ∈ elements ∧ r < (w.1.render ++ w.2).length := by
    rw [left, List.mem_filter, decide_eq_true_iff]
  have hmissing : (left r elements).length < elements.length
      ↔ ∃ w ∈ elements, (w.1.render ++ w.2).length ≤ r := by
    simp only [left, List.length_filter_lt_length_iff_exists, decide_eq_true_iff, Nat.not_lt]
  have hwhole {w : Value × Bytes} (hw : w ∈ elements) (hr : r ≤ w.2.length) :
      parse (atElementCut full r w) = some (read w.1) := by
    have hcut := rdrop_suffix ((Value.elements_suffix hv hw).trans h) r
    rw [rdrop_append_of_le _ hr] at hcut
    rw [atElementCut, rdrop_append_of_le _ hr]
    apply hparse _ _ hcut
  constructor
  · intro hshort
    refine ⟨hshort.bracket, ?_⟩
    have hall : ∀ w ∈ left r elements, ∃ a, parse (atElementCut full r w) = some (.ok a) := by
      intro w hw
      obtain ⟨hmem, hr⟩ := (hleft w).mp hw
      rcases Nat.lt_or_ge w.2.length r with hlt | hge
      · apply hshort.last w hmem hlt hr
      · obtain ⟨a, ha⟩ := hshort.whole w hmem hge
        use a
        rw [hwhole hmem hge, ha]
    obtain ⟨accounts, haccounts⟩ := exists_forall₂_iff.mpr hall
    use accounts, haccounts
    rw [← haccounts.length_eq]
    apply hmissing.mpr hshort.missing
  · rintro ⟨hbracket, accounts, haccounts, hlt⟩
    rw [← haccounts.length_eq] at hlt
    have hall := exists_forall₂_iff.mp ⟨accounts, haccounts⟩
    refine ⟨hbracket, hmissing.mp hlt, ?_, ?_⟩
    · intro w hw hr
      have hr' : r < (w.1.render ++ w.2).length := by
        obtain ⟨c, l, hrender, -⟩ := w.1.render_eq_cons
        rw [hrender, List.length_append, List.length_cons]
        omega
      obtain ⟨a, ha⟩ := hall w ((hleft w).mpr ⟨hw, hr'⟩)
      use a
      rw [hwhole hw hr] at ha
      apply Option.some.inj ha
    · intro w hw _ hr
      apply hall w ((hleft w).mpr ⟨hw, hr⟩)

end Items

/-! ### Responses with account lists -/

/-- The response returns the elements as `getMultipleAccounts` does: in the array that is the
only member `value` of the result. -/
structure IsMultipleAccounts (text : Text) (result value : Member)
    (elements : List (Value × Bytes)) : Prop where
  response : ∃ members, IsResponseObject (text.value, text.after.bytes) result members
  success : ¬ IsError result
  value_eq : ∃ members, result.value.members result.after = some members
    ∧ spelled (asBytes "value") members = [value]
  elements_eq : value.value.elements value.after = some elements

/-- The response returns the elements as `getProgramAccounts` does: in the array that is the
result. -/
structure IsProgramAccounts (text : Text) (result : Member) (elements : List (Value × Bytes)) :
    Prop where
  response : ∃ members, IsResponseObject (text.value, text.after.bytes) result members
  success : ¬ IsError result
  elements_eq : result.value.elements result.after = some elements

/-- The client parses the body as a response with the accounts. -/
def Accepts {α : Type} (parseResult : JsonScan → Option (Except RpcError (List α)))
    (body : Bytes) (accounts : List α) : Prop :=
  ∃ result, parseResponse body = some (.ok result) ∧ parseResult result = some (.ok accounts)

/-- What is left of a response that is no error is accepted when bytes of its result are left,
from which the accounts are parsed. -/
theorem accepts_cut_iff {α : Type} {parseResult : JsonScan → Option (Except RpcError (List α))}
    (hend : ∀ {s accounts}, parseResult s = some (.ok accounts) → s.HasRest) (accounts : List α)
    {text : Text} {result : Member} {members : List Member}
    (hresponse : IsResponseObject (text.value, text.after.bytes) result members)
    (hsuccess : ¬ IsError result) :
  Accepts parseResult (text.render.rdrop r) accounts
    ↔ result.name.raw = asBytes "result"
      ∧ r < (result.value.render ++ result.after).length
      ∧ parseResult (atMemberCut text.render r result) = some (.ok accounts)
  := by
  have hsuffix : text.value.render ++ text.after.bytes <:+ text.render :=
    List.suffix_append text.before.bytes _
  have hparse : parseResponse (text.render.rdrop r)
      = resultOf (atElementCut text.render r (text.value, text.after.bytes)) := by
    have hvalue : text.render.dropWhile isSpace = text.value.render ++ text.after.bytes :=
      Value.dropWhile_space text.before text.value text.after.bytes
    rw [parseResponse, new_eq, dropWhile_rdrop, hvalue]
    rfl
  constructor
  · rintro ⟨s, hs, haccounts⟩
    rw [hparse] at hs
    obtain ⟨hraw, hr, rfl⟩ :=
      (resultOf_cut_iff hsuffix hresponse hsuccess).mp ⟨hs, hend haccounts⟩
    exact ⟨hraw, hr, haccounts⟩
  · rintro ⟨hraw, hr, haccounts⟩
    have hs := (resultOf_cut_iff hsuffix hresponse hsuccess).mpr ⟨hraw, hr, rfl⟩
    rw [← hparse] at hs
    exact ⟨_, hs.1, haccounts⟩

theorem hasRest_of_programAccounts (decoders : Decoders) {s : JsonScan}
    {accounts : List (Bytes32 × AccountInfo)}
    (h : parseProgramAccountsResult decoders s = some (.ok accounts)) :
  s.HasRest
  := by
  by_contra hend
  rw [parseProgramAccountsResult, arrayIter_end hend] at h
  cases h

theorem hasRest_of_multipleAccounts (decoders : Decoders) {s : JsonScan}
    {accounts : List (Option AccountInfo)}
    (h : parseMultipleAccountsResult decoders s = some (.ok accounts)) :
  s.HasRest
  := by
  by_contra hend
  rw [parseMultipleAccountsResult, field_end hend] at h
  cases h

/-- The array is parsed from what is left of it when each item of which bytes are left is. -/
theorem parseProgramAccounts_cut_iff {decoders : Decoders} {result : Member}
    {elements : List (Value × Bytes)} {accounts : List (Bytes32 × AccountInfo)}
    (h : result.value.render ++ result.after <:+ full)
    (hv : result.value.elements result.after = some elements)
    (hr : r < (result.value.render ++ result.after).length) :
  parseProgramAccountsResult decoders (atMemberCut full r result) = some (.ok accounts)
    ↔ List.Forall₂ (fun w a => parseProgramItem decoders (atElementCut full r w) = some (.ok a))
        (left r elements) accounts
  := by
  obtain ⟨it, hit, hitems⟩ := parseItems_cut_iff (parseProgramItem decoders) accounts h hv hr
  rw [parseProgramAccountsResult, hit, ← hitems]
  rfl

theorem spelled_mem {name : Bytes} {members : List Member} {m : Member}
    (h : spelled name members = [m]) :
  m ∈ members
  := by
  have hmem : m ∈ spelled name members := by
    rw [h]
    apply List.mem_singleton_self
  apply List.mem_of_mem_filter hmem

/-- The array in the member `value` is parsed from what is left of it when its bracket is left
and each item of which bytes are left is parsed. -/
theorem parseMultipleAccounts_cut_iff (decoders : Decoders) (accounts : List (Option AccountInfo))
    {result value : Member} {members : List Member} {elements : List (Value × Bytes)}
    (h : result.value.render ++ result.after <:+ full)
    (hmembers : result.value.members result.after = some members)
    (hvalue : spelled (asBytes "value") members = [value])
    (hv : value.value.elements value.after = some elements) :
  parseMultipleAccountsResult decoders (atMemberCut full r result) = some (.ok accounts)
    ↔ value.name.raw = asBytes "value"
      ∧ r < (value.value.render ++ value.after).length
      ∧ List.Forall₂ (fun w a => parseAccountItem decoders (atElementCut full r w) = some (.ok a))
          (left r elements) accounts
  := by
  have hspells (m : Member) (hraw : m.name.raw = asBytes "value") :
      decide (m.name.Spells (asBytes "value")) = true :=
    decide_eq_true (Str.spells_raw hraw (by decide))
  have hfind := find?_of_filter hvalue hspells
  have hsuffix := (Value.members_suffix hmembers (spelled_mem hvalue)).trans h
  have hfield {s : JsonScan} := field_cut_iff (r := r) (s := s) h hmembers hfind
  constructor
  · intro hok
    obtain ⟨found, hfound, hok⟩ := Option.bind_eq_some_iff.mp hok
    cases found with
    | none => cases hok
    | some values =>
      have hrest : values.HasRest := by
        by_contra hend
        dsimp only at hok
        rw [arrayIter_end hend] at hok
        cases hok
      obtain ⟨hraw, hr, rfl⟩ := hfield.mp ⟨hfound, hrest⟩
      obtain ⟨it, hit, hitems⟩ := parseItems_cut_iff (parseAccountItem decoders) accounts
        hsuffix hv hr
      refine ⟨hraw, hr, hitems.mp ?_⟩
      dsimp only at hok
      rw [hit] at hok
      apply hok
  · rintro ⟨hraw, hr, hall⟩
    obtain ⟨it, hit, hitems⟩ := parseItems_cut_iff (parseAccountItem decoders) accounts
      hsuffix hv hr
    rw [parseMultipleAccountsResult, atMemberCut, (hfield.mpr ⟨hraw, hr, rfl⟩).1]
    change ((atMemberCut full r value).arrayIter >>= _) = _
    rw [hit]
    apply hitems.mpr hall

theorem not_shorter_iff {α : Type} {p : List α → Prop} {n : Nat} {q : Prop}
    (h : q ↔ ∃ l, p l ∧ l.length < n) :
  (∀ l, p l → n ≤ l.length) ↔ ¬ q
  := by
  rw [h]
  simp only [not_exists, not_and, Nat.not_lt]

theorem take_eq_rdrop {cut : Nat} (h : cut < full.length) :
  full.take cut = full.rdrop (full.length - cut)
  := by
  rw [List.rdrop, Nat.sub_sub_self (Nat.le_of_lt h)]

/-- A response with an account list is cut off: the client accepts no shorter list exactly when
a name on the way to the list is written with escapes, or the list is not one that is accepted
without an element of which no bytes are left. -/
theorem not_shortened_iff (decoders : Decoders) {text : Text} {cut : Nat}
    (hcut : cut < text.render.length) :
  (∀ result value elements, IsMultipleAccounts text result value elements →
    ((∀ accounts, Accepts (parseMultipleAccountsResult decoders) (text.render.take cut) accounts →
        elements.length ≤ accounts.length)
      ↔ ¬ (result.name.raw = asBytes "result" ∧ value.name.raw = asBytes "value"
        ∧ IsShortened (parseAccountItem decoders) text.render (text.render.length - cut)
            (readAccountItem decoders) value elements)))
    ∧ ∀ result elements, IsProgramAccounts text result elements →
      ((∀ accounts, Accepts (parseProgramAccountsResult decoders) (text.render.take cut) accounts →
          elements.length ≤ accounts.length)
        ↔ ¬ (result.name.raw = asBytes "result"
          ∧ IsShortened (parseProgramItem decoders) text.render (text.render.length - cut)
              (readProgramItem decoders) result elements))
  := by
  have hsuffix : text.value.render ++ text.after.bytes <:+ text.render :=
    List.suffix_append text.before.bytes _
  rw [take_eq_rdrop hcut]
  constructor
  · intro result value elements h
    obtain ⟨members, hresponse⟩ := h.response
    obtain ⟨members', hmembers, hvalue⟩ := h.value_eq
    have hresult := (Value.members_suffix hresponse.isObject hresponse.outcome_mem).trans hsuffix
    have hlist := (Value.members_suffix hmembers (spelled_mem hvalue))
    have haccepts (accounts) := accepts_cut_iff (r := text.render.length - cut)
      (hasRest_of_multipleAccounts decoders) accounts hresponse h.success
    have hparse (accounts) := parseMultipleAccounts_cut_iff (r := text.render.length - cut)
      decoders accounts hresult hmembers hvalue h.elements_eq
    apply not_shorter_iff
    rw [isShortened_iff _ (hlist.trans hresult) h.elements_eq fun _ _ => parseAccountItem_facing]
    constructor
    · rintro ⟨hraw, hraw', hr, accounts, hall, hlt⟩
      have hr' := Nat.lt_of_lt_of_le hr hlist.length_le
      exact ⟨accounts,
        (haccepts accounts).mpr ⟨hraw, hr', (hparse accounts).mpr ⟨hraw', hr, hall⟩⟩, hlt⟩
    · rintro ⟨accounts, hok, hlt⟩
      obtain ⟨hraw, -, hok⟩ := (haccepts accounts).mp hok
      obtain ⟨hraw', hr, hall⟩ := (hparse accounts).mp hok
      exact ⟨hraw, hraw', hr, accounts, hall, hlt⟩
  · intro result elements h
    obtain ⟨members, hresponse⟩ := h.response
    have hresult := (Value.members_suffix hresponse.isObject hresponse.outcome_mem).trans hsuffix
    have haccepts (accounts) := accepts_cut_iff (r := text.render.length - cut)
      (hasRest_of_programAccounts decoders) accounts hresponse h.success
    apply not_shorter_iff
    rw [isShortened_iff _ hresult h.elements_eq fun _ _ => parseProgramItem_facing]
    constructor
    · rintro ⟨hraw, hr, accounts, hall, hlt⟩
      have hok := (parseProgramAccounts_cut_iff hresult h.elements_eq hr).mpr hall
      exact ⟨accounts, (haccepts accounts).mpr ⟨hraw, hr, hok⟩, hlt⟩
    · rintro ⟨accounts, hok, hlt⟩
      obtain ⟨hraw, hr, hok⟩ := (haccepts accounts).mp hok
      have hall := (parseProgramAccounts_cut_iff hresult h.elements_eq hr).mp hok
      exact ⟨hraw, hr, accounts, hall, hlt⟩

/-- `{"jsonrpc":"2.0","result":{"value":[null,null]},"id":1}` -/
def nullAccounts : Text :=
  ⟨.empty,
    .object (.more (Key.ofAscii (asBytes "jsonrpc")) .empty (.string (Str.ofAscii (asBytes "2.0")))
      .empty (.more (Key.ofAscii (asBytes "result")) .empty
        (.object (.last (Key.ofAscii (asBytes "value")) .empty
          (.array (.more .empty .null .empty (.last .empty .null .empty))) .empty)) .empty
      (.last (Key.ofAscii (asBytes "id")) .empty (.number (.ofDigit 1)) .empty))),
    .empty⟩

theorem nullAccounts_isMultipleAccounts :
  ∃ result value elements, IsMultipleAccounts nullAccounts result value elements
    ∧ elements.length = 2
  := by
  refine ⟨_, _, _, ⟨⟨_, ⟨rfl, ⟨_, _, rfl, rfl, by decide⟩, rfl, ?_⟩⟩, by decide, ⟨_, rfl, rfl⟩, rfl⟩,
    rfl⟩
  intro herror
  exact absurd herror (by decide)

/-- Decoders that accept nothing. -/
def noDecoders : Decoders := ⟨fun _ => none, fun _ => none⟩

theorem not_shortened_iff_nullAccounts :
  ∃ result value elements, IsMultipleAccounts nullAccounts result value elements
    ∧ ((∀ accounts, Accepts (parseMultipleAccountsResult noDecoders)
          (nullAccounts.render.take 41) accounts → elements.length ≤ accounts.length)
      ↔ ¬ (result.name.raw = asBytes "result" ∧ value.name.raw = asBytes "value"
        ∧ IsShortened (parseAccountItem noDecoders) nullAccounts.render 14
            (readAccountItem noDecoders) value elements))
  := by
  obtain ⟨result, value, elements, h, -⟩ := nullAccounts_isMultipleAccounts
  have hcut : 41 < nullAccounts.render.length := by decide
  use result, value, elements, h
  apply (not_shortened_iff noDecoders hcut).1 result value elements h

/-- The first 41 bytes, `{"jsonrpc":"2.0","result":{"value":[null,`, are accepted as a list
with one account. -/
theorem nullAccounts_shortened :
  ∃ result value elements, IsMultipleAccounts nullAccounts result value elements
    ∧ 41 < nullAccounts.render.length
    ∧ ∃ accounts, Accepts (parseMultipleAccountsResult noDecoders) (nullAccounts.render.take 41)
        accounts ∧ accounts.length < elements.length
  := by
  obtain ⟨result, value, elements, h, hlen⟩ := nullAccounts_isMultipleAccounts
  refine ⟨result, value, elements, h, by decide, [none], ?_, ?_⟩
  · refine ⟨⟨nullAccounts.render.take 41, 26⟩, ?_, ?_⟩
    · decide
    · decide
  · rw [hlen]
    decide

end FdRpc

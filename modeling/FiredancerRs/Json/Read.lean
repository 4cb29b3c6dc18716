import FiredancerRs.Json.Convert
import Mathlib.Data.List.Forall2

/-!
# What is read

The tree of a value whose arrays a `c_int` counts is read as the same value, given enough fuel
(`JsonValue.read_tree`). The arrays of each value that is read are counted by a `c_int`, since the
loop over the items of an array runs over one (`read_countable`).
-/

namespace FdJson

variable {σ Ptr : Type} {L : CJson σ Ptr} {V : View σ Ptr} {O : MapOrder} {s : σ} {p : Ptr}

/-! ### Reading as a step -/

variable {α β : Type} {r : Reading α} {k : α → Reading β}

theorem Reading.andThen_eq_ok {b : β} :
  r.andThen k = some (.ok b) ↔ ∃ a, r = some (.ok a) ∧ k a = some (.ok b)
  := by
  rcases r with _ | (e | a) <;> simp [Reading.andThen]

theorem Reading.andThen_ok {a : α} :
  Reading.andThen (some (.ok a)) k = k a
  := rfl

theorem toStr_bytes (text : String) :
  toStr (Utf8.bytes text) = some (.ok text)
  := by rw [toStr, Utf8.decode_bytes]

/-! ### Counting -/

theorem length_indices {size : Int32} :
  (indices size).length < maxItems
  := by
  rw [indices, List.length_map, List.length_range]
  apply size.toNatClampNeg_lt

/-- The indices of the items of an array that a `c_int` counts. -/
theorem indices_ofNat {n : Nat} (h : n < maxItems) :
  indices (Int32.ofNat n) = (List.range n).map Int32.ofNat
  := by
  have hsize : (Int32.ofNat n).toInt.toNat = n := Int32.toNatClampNeg_ofNat_of_lt h
  rw [indices, hsize]

theorem countableMembers_insertMember {object : List (String × JsonValue)} {key : String}
    {v : JsonValue} (hobject : CountableMembers object) (hv : v.Countable) :
  CountableMembers (insertMember object key v)
  := by
  rw [countableMembers_iff] at hobject ⊢
  rw [insertMember]
  split
  · intro m hm
    obtain ⟨m', hm', rfl⟩ := List.mem_map.mp hm
    split
    · apply hv
    · apply hobject m' hm'
  · intro m hm
    rcases List.mem_append.mp hm with hold | hnew
    · apply hobject m hold
    · rw [List.mem_singleton.mp hnew]
      apply hv

theorem readItems_countable {read : Option Ptr → Reading JsonValue} {qs : List (Option Ptr)}
    {items : List JsonValue} (hread : ∀ q v, read q = some (.ok v) → v.Countable)
    (h : readItems read qs = some (.ok items)) :
  items.length = qs.length ∧ CountableItems items
  := by
  induction qs generalizing items with
  | nil =>
    rw [readItems] at h
    obtain rfl : [] = items := by simpa using h
    exact ⟨rfl, trivial⟩
  | cons q qs ih =>
    rw [readItems] at h
    obtain ⟨v, hv, hrest⟩ := Reading.andThen_eq_ok.mp h
    obtain ⟨items', hitems', heq⟩ := Reading.andThen_eq_ok.mp hrest
    obtain rfl : v :: items' = items := by simpa using heq
    obtain ⟨hlength, hcountable⟩ := ih hitems'
    exact ⟨by rw [List.length_cons, List.length_cons, hlength], hread q v hv, hcountable⟩

theorem readMembers_countable {read : Option Ptr → Reading JsonValue} {fuel : Nat}
    {item : Option Ptr} {object object' : List (String × JsonValue)}
    (hread : ∀ q v, read q = some (.ok v) → v.Countable) (hobject : CountableMembers object)
    (h : readMembers L s read fuel item object = some (.ok object')) :
  CountableMembers object'
  := by
  induction fuel generalizing item object with
  | zero =>
    cases item with
    | none =>
      rw [readMembers] at h
      obtain rfl : object = object' := by simpa using h
      apply hobject
    | some q => simp [readMembers] at h
  | succ fuel ih =>
    cases item with
    | none =>
      rw [readMembers] at h
      obtain rfl : object = object' := by simpa using h
      apply hobject
    | some q =>
      rw [readMembers] at h
      split at h
      · simp at h
      · obtain ⟨key, -, hvalue⟩ := Reading.andThen_eq_ok.mp h
        obtain ⟨v, hv, hrest⟩ := Reading.andThen_eq_ok.mp hvalue
        apply ih (countableMembers_insertMember hobject (hread _ _ hv)) hrest

/-- A `c_int` counts the items of each array that is read. -/
theorem read_countable {fuel : Nat} {item : Option Ptr} {v : JsonValue}
    (h : cjsonToJsonValue L O s fuel item = some (.ok v)) :
  v.Countable
  := by
  induction fuel generalizing item v with
  | zero =>
    cases item with
    | none =>
      obtain rfl : .null = v := by simpa [cjsonToJsonValue] using h
      trivial
    | some q => simp [cjsonToJsonValue] at h
  | succ fuel ih =>
    cases item with
    | none =>
      obtain rfl : .null = v := by simpa [cjsonToJsonValue] using h
      trivial
    | some q =>
      rw [cjsonToJsonValue] at h
      split at h
      · obtain rfl : .null = v := by simpa using h
        trivial
      split at h
      · obtain rfl : .bool _ = v := by simpa using h
        trivial
      split at h
      · obtain rfl : .number _ = v := by simpa using h
        trivial
      split at h
      · split at h
        · simp at h
        · obtain ⟨text, -, heq⟩ := Reading.andThen_eq_ok.mp h
          obtain rfl : .string text = v := by simpa using heq
          trivial
      split at h
      · obtain ⟨items, hitems, heq⟩ := Reading.andThen_eq_ok.mp h
        obtain rfl : .array items = v := by simpa using heq
        obtain ⟨hlength, hcountable⟩ := readItems_countable (fun _ _ => ih) hitems
        rw [List.length_map] at hlength
        exact ⟨hlength ▸ length_indices, hcountable⟩
      split at h
      · obtain ⟨object, hobject, heq⟩ := Reading.andThen_eq_ok.mp h
        obtain rfl : .object (O.order object) = v := by simpa using heq
        have hempty : CountableMembers [] := trivial
        have hcountable := readMembers_countable (fun _ _ => ih) hempty hobject
        rw [countableMembers_iff] at hcountable
        apply countableMembers_iff.mpr fun m hm =>
          hcountable m ((O.perm object).mem_iff.mp hm)
      · simp at h

/-! ### Reading a tree -/

/-- A pointer to the tree of a value. -/
def LeadsTo (V : View σ Ptr) (s : σ) (item : Option Ptr) (v : JsonValue) : Prop :=
  ∃ p, item = some p ∧ V.Points s p v.tree

theorem treesOfItems_eq_map (items : List JsonValue) :
  treesOfItems items = items.map JsonValue.tree
  := by
  induction items with
  | nil => rfl
  | cons v items ih => rw [treesOfItems, ih, List.map_cons]

/-- The indices of an array lead to its items. -/
theorem leadsTo_items {items : List JsonValue} (h : items.length < maxItems)
    (hvalue : ReadsValue L (V.Points s) s p (.array (treesOfItems items))) :
  List.Forall₂ (LeadsTo V s) ((indices (L.getArraySize s p)).map (L.getArrayItem s p)) items
  := by
  rw [treesOfItems_eq_map] at hvalue
  obtain ⟨hsize, hitem⟩ := hvalue
  rw [List.length_map] at hsize
  rw [hsize h, indices_ofNat h, List.map_map]
  apply List.forall₂_of_length_eq_of_get
  · rw [List.length_map, List.length_range]
  · intro i hi hi'
    have htree : (items.map JsonValue.tree)[i]? = some (items.get ⟨i, hi'⟩).tree := by
      rw [List.getElem?_map, List.getElem?_eq_getElem hi', Option.map_some, List.get_eq_getElem]
    obtain ⟨q, hq, hpoints⟩ := hitem i (hi'.trans h) _ htree
    use q
    constructor
    · simpa using hq
    · apply hpoints

/-- The kind of an item says how it is read. -/
theorem Reads.read_item {Points : Ptr → Tree → Prop} {t : Tree} {fuel : Nat}
    (h : Reads L Points s p t) :
  cjsonToJsonValue L O s (fuel + 1) (some p) =
    match t with
    | .null => some (.ok .null)
    | .bool _ => some (.ok (.bool (L.isTrue s p)))
    | .number _ => some (.ok (.number (L.getNumberValue s p)))
    | .string _ =>
      match L.getStringValue s p with
      | none => some (.error (.invalidStructure "String value is null"))
      | some text => Reading.andThen (toStr text) fun text => some (.ok (.string text))
    | .array _ =>
      Reading.andThen (readItems (cjsonToJsonValue L O s fuel)
        ((indices (L.getArraySize s p)).map (L.getArrayItem s p))) fun items =>
      some (.ok (.array items))
    | .object _ =>
      Reading.andThen (readMembers L s (cjsonToJsonValue L O s fuel) fuel (L.child s p) [])
        fun members =>
      some (.ok (.object (O.order members)))
  := by
  rw [cjsonToJsonValue]
  cases t
  case string text =>
    cases L.getStringValue s p <;> simp [h.isNull, h.isBool, h.isNumber, h.isString]
  all_goals simp [h.isNull, h.isBool, h.isNumber, h.isString, h.isArray, h.isObject]

theorem length_le_sizeOf {γ : Type} [SizeOf γ] (xs : List γ) :
  xs.length ≤ sizeOf xs
  := by
  induction xs with
  | nil => exact Nat.zero_le _
  | cons x xs ih =>
    rw [List.length_cons, List.cons.sizeOf_spec]
    omega

mutual

/-- The tree of a value is read as the same value. -/
theorem JsonValue.read_tree (hL : Documented L V) :
  ∀ (v : JsonValue) (fuel : Nat) (item : Option Ptr), sizeOf v ≤ fuel → v.Distinct → v.Countable →
    LeadsTo V s item v →
    ∃ v', cjsonToJsonValue L O s fuel item = some (.ok v') ∧ v.Same v'
  | v, 0, _, hfuel, _, _, _ => by
      cases v <;> simp at hfuel
  | .null, fuel + 1, _, _, _, _, ⟨p, rfl, hp⟩ => by
      have hreads := hL.reads s p .null hp
      use .null
      rw [hreads.read_item]
      exact ⟨rfl, .null⟩
  | .bool b, fuel + 1, _, _, _, _, ⟨p, rfl, hp⟩ => by
      have hreads := hL.reads s p (.bool b) hp
      have hvalue : L.isTrue s p = b := hreads.value
      use .bool b
      rw [hreads.read_item, hvalue]
      exact ⟨rfl, .bool b⟩
  | .number bits, fuel + 1, _, _, _, _, ⟨p, rfl, hp⟩ => by
      have hreads := hL.reads s p (.number bits) hp
      have hvalue : L.getNumberValue s p = bits := hreads.value
      use .number bits
      rw [hreads.read_item, hvalue]
      exact ⟨rfl, .number bits⟩
  | .string text, fuel + 1, _, _, _, _, ⟨p, rfl, hp⟩ => by
      have hreads := hL.reads s p (.string (Utf8.bytes text)) hp
      have hvalue : L.getStringValue s p = some (Utf8.bytes text) := hreads.value
      use .string text
      rw [hreads.read_item, hvalue]
      dsimp only
      rw [toStr_bytes, Reading.andThen_ok]
      exact ⟨rfl, .string text⟩
  | .array items, fuel + 1, _, hfuel, hdistinct, hcountable, ⟨p, rfl, hp⟩ => by
      have hreads := hL.reads s p (.array (treesOfItems items)) hp
      have hitems := leadsTo_items hcountable.1 hreads.value
      have hsize : sizeOf items ≤ fuel := by
        rw [JsonValue.array.sizeOf_spec] at hfuel
        omega
      obtain ⟨items', hread, hsame⟩ :=
        readItems_trees hL items fuel _ hsize hdistinct hcountable.2 hitems
      use .array items'
      rw [hreads.read_item, hread, Reading.andThen_ok]
      exact ⟨rfl, .array hsame⟩
  | .object members, fuel + 1, _, hfuel, hdistinct, hcountable, ⟨p, rfl, hp⟩ => by
      have hreads := hL.reads s p (.object (treesOfMembers members)) hp
      have hsize : sizeOf members ≤ fuel := by
        rw [JsonValue.object.sizeOf_spec] at hfuel
        omega
      obtain ⟨members', hread, hsame⟩ := readMembers_trees hL members fuel fuel (L.child s p) []
        hsize ((length_le_sizeOf members).trans hsize) hdistinct.1 hdistinct.2 hcountable
        hreads.value
      rw [List.nil_append] at hread
      use .object (O.order members')
      rw [hreads.read_item, hread, Reading.andThen_ok]
      exact ⟨rfl, .object hsame (O.perm members')⟩

/-- The trees of the items of an array are read. -/
theorem readItems_trees (hL : Documented L V) :
  ∀ (items : List JsonValue) (fuel : Nat) (qs : List (Option Ptr)), sizeOf items ≤ fuel →
    DistinctItems items → CountableItems items → List.Forall₂ (LeadsTo V s) qs items →
    ∃ items', readItems (cjsonToJsonValue L O s fuel) qs = some (.ok items')
      ∧ SameItems items items'
  | [], fuel, _, _, _, _, .nil => ⟨[], rfl, .nil⟩
  | v :: items, fuel, q :: qs, hfuel, hdistinct, hcountable, .cons hq hqs => by
      rw [List.cons.sizeOf_spec] at hfuel
      obtain ⟨v', hv, hsame⟩ :=
        v.read_tree hL fuel q (by omega) hdistinct.1 hcountable.1 hq
      obtain ⟨items', hitems, hsames⟩ :=
        readItems_trees hL items fuel qs (by omega) hdistinct.2 hcountable.2 hqs
      use v' :: items'
      rw [readItems, hv, Reading.andThen_ok, hitems, Reading.andThen_ok]
      exact ⟨rfl, .cons hsame hsames⟩

/-- The trees of the members of an object are read, after others. -/
theorem readMembers_trees (hL : Documented L V) :
  ∀ (members : List (String × JsonValue)) (fuel n : Nat) (item : Option Ptr)
    (object : List (String × JsonValue)), sizeOf members ≤ fuel → members.length ≤ n →
    ((object ++ members).map Prod.fst).Nodup → DistinctMembers members →
    CountableMembers members → Linked L (V.Points s) s item (treesOfMembers members) →
    ∃ members', readMembers L s (cjsonToJsonValue L O s fuel) n item object
        = some (.ok (object ++ members'))
      ∧ SameMembers members members'
  | [], fuel, n, item, object, _, _, _, _, _, hlinked => by
      obtain rfl : item = none := hlinked
      use []
      rw [readMembers, List.append_nil]
      exact ⟨rfl, .nil⟩
  | (key, v) :: members, fuel, 0, _, _, _, hn, _, _, _, _ => by simp at hn
  | (key, v) :: members, fuel, n + 1, _, object, hfuel, hn, hnodup, hdistinct, hcountable,
      ⟨q, rfl, hkey, hq, hrest⟩ => by
      rw [List.cons.sizeOf_spec, Prod.mk.sizeOf_spec] at hfuel
      have hnew : key ∉ object.map Prod.fst := by
        rw [List.map_append, List.map_cons] at hnodup
        intro hmem
        apply (List.nodup_append.mp hnodup).2.2 key hmem key List.mem_cons_self rfl
      obtain ⟨v', hv, hsame⟩ :=
        v.read_tree hL fuel (some q) (by omega) hdistinct.1 hcountable.1 ⟨q, rfl, hq⟩
      have hkeys : ((object ++ [(key, v')] ++ members).map Prod.fst).Nodup := by
        rwa [List.append_assoc, List.singleton_append, List.map_append, List.map_cons] at *
      obtain ⟨members', hmembers, hsames⟩ := readMembers_trees hL members fuel n (L.next s q)
        (object ++ [(key, v')]) (by omega) (Nat.le_of_succ_le_succ hn) hkeys hdistinct.2
        hcountable.2 hrest
      use (key, v') :: members'
      rw [readMembers, hkey]
      dsimp only
      rw [toStr_bytes, Reading.andThen_ok, hv, Reading.andThen_ok, insertMember_of_notMem hnew,
        hmembers, List.append_assoc, List.singleton_append]
      exact ⟨rfl, .cons hsame hsames⟩

end

end FdJson

import FiredancerRs.Lib.Utf8
import Mathlib.Algebra.Ring.Nat
import Mathlib.Data.List.Perm.Basic

/-!
# JSON values

`JsonValue` of `fd_json`. An object is the list of the members of its map in the order in which the
map iterates over them, and two values are the same when they differ in such orders only (`Same`). A
number is the bits of an `f64`.
-/

namespace FdJson

/-- Bytes. -/
abbrev Bytes := List UInt8

/-- `JsonError` -/
inductive JsonError where
  | parseError (msg : String)
  | invalidStructure (msg : String)
  | memoryError
  | invalidUtf8
  | keyNotFound (key : String)
  | indexOutOfBounds (index : Nat)
  | typeMismatch (msg : String)
  | invalidInput (msg : String)
  | generationError (msg : String)
deriving DecidableEq

/-- `JsonValue` -/
inductive JsonValue where
  | null
  | bool (b : Bool)
  | number (bits : UInt64)
  | string (s : String)
  | array (items : List JsonValue)
  | object (members : List (String × JsonValue))

/-! ### Maps -/

/-- `HashMap::insert` -/
def insertMember (object : List (String × JsonValue)) (key : String) (value : JsonValue) :
    List (String × JsonValue) :=
  if object.any (·.1 = key) then
    object.map fun m => if m.1 = key then (key, value) else m
  else
    object ++ [(key, value)]

/-- The order in which a map iterates over its members. -/
structure MapOrder where
  order : List (String × JsonValue) → List (String × JsonValue)
  perm : ∀ members, (order members).Perm members

/-- Maps that iterate over their members as these were inserted. -/
def MapOrder.inserted : MapOrder where
  order := id
  perm _ := .rfl

mutual

/-- The keys of each map are different. -/
def JsonValue.Distinct : JsonValue → Prop
  | .array items => DistinctItems items
  | .object members => (members.map Prod.fst).Nodup ∧ DistinctMembers members
  | _ => True

/-- The keys of each map in the items are different. -/
def DistinctItems : List JsonValue → Prop
  | [] => True
  | v :: items => v.Distinct ∧ DistinctItems items

/-- The keys of each map in the values are different. -/
def DistinctMembers : List (String × JsonValue) → Prop
  | [] => True
  | (_, v) :: members => v.Distinct ∧ DistinctMembers members

end

mutual

/-- Two values differ in the orders of their maps only. -/
inductive JsonValue.Same : JsonValue → JsonValue → Prop
  | null : JsonValue.Same .null .null
  | bool (b : Bool) : JsonValue.Same (.bool b) (.bool b)
  | number (bits : UInt64) : JsonValue.Same (.number bits) (.number bits)
  | string (s : String) : JsonValue.Same (.string s) (.string s)
  | array {items items' : List JsonValue} :
      SameItems items items' → JsonValue.Same (.array items) (.array items')
  | object {members members' members'' : List (String × JsonValue)} :
      SameMembers members members' → members''.Perm members' →
      JsonValue.Same (.object members) (.object members'')

/-- The items of two arrays are the same. -/
inductive SameItems : List JsonValue → List JsonValue → Prop
  | nil : SameItems [] []
  | cons {v v' : JsonValue} {items items' : List JsonValue} :
      v.Same v' → SameItems items items' → SameItems (v :: items) (v' :: items')

/-- The members of two lists have the same keys and values. -/
inductive SameMembers : List (String × JsonValue) → List (String × JsonValue) → Prop
  | nil : SameMembers [] []
  | cons {key : String} {v v' : JsonValue} {members members' : List (String × JsonValue)} :
      v.Same v' → SameMembers members members' →
      SameMembers ((key, v) :: members) ((key, v') :: members')

end

/-! ### Sizes of arrays -/

/-- The number of items that a `c_int` counts. -/
def maxItems : Nat := 2 ^ 31

mutual

/-- A `c_int` counts the items of each array. -/
def JsonValue.Countable : JsonValue → Prop
  | .array items => items.length < maxItems ∧ CountableItems items
  | .object members => CountableMembers members
  | _ => True

/-- A `c_int` counts the items of each array in the items. -/
def CountableItems : List JsonValue → Prop
  | [] => True
  | v :: items => v.Countable ∧ CountableItems items

/-- A `c_int` counts the items of each array in the values. -/
def CountableMembers : List (String × JsonValue) → Prop
  | [] => True
  | (_, v) :: members => v.Countable ∧ CountableMembers members

end

/-! ### Strings and keys -/

mutual

/-- The strings and the keys of a value. -/
def JsonValue.texts : JsonValue → List String
  | .string s => [s]
  | .array items => textsOfItems items
  | .object members => textsOfMembers members
  | _ => []

/-- The strings and the keys of items. -/
def textsOfItems : List JsonValue → List String
  | [] => []
  | v :: items => v.texts ++ textsOfItems items

/-- The strings and the keys of members. -/
def textsOfMembers : List (String × JsonValue) → List String
  | [] => []
  | (key, v) :: members => key :: (v.texts ++ textsOfMembers members)

end

/-- A text contains a NUL byte. -/
def NulIn (s : String) : Prop := 0 ∈ Utf8.bytes s

instance (s : String) : Decidable (NulIn s) := inferInstanceAs (Decidable (0 ∈ Utf8.bytes s))

/-- Some string or key of a value contains a NUL byte. -/
def JsonValue.HasNul (v : JsonValue) : Prop := ∃ s ∈ v.texts, NulIn s

/-! ### Lemmas -/

variable {members members' : List (String × JsonValue)} {v v' : JsonValue}

/-- A key that a map does not have is inserted at its end. -/
theorem insertMember_of_notMem {key : String} (h : key ∉ members.map Prod.fst) :
  insertMember members key v = members ++ [(key, v)]
  := by
  rw [insertMember, if_neg]
  intro hany
  obtain ⟨m, hm, heq⟩ := List.any_eq_true.mp hany
  apply h (List.mem_map.mpr ⟨m, hm, of_decide_eq_true heq⟩)

theorem countableMembers_iff :
  CountableMembers members ↔ ∀ m ∈ members, m.2.Countable
  := by
  induction members with
  | nil => simp [CountableMembers]
  | cons m members ih => simp [CountableMembers, ih]

theorem SameItems.length_eq {items items' : List JsonValue} (h : SameItems items items') :
  items.length = items'.length
  := by
  induction items generalizing items' with
  | nil =>
    cases h with
    | nil => rfl
  | cons v items ih =>
    cases h with
    | cons _ hitems => rw [List.length_cons, List.length_cons, ih hitems]

mutual

/-- Values that are the same have arrays of the same sizes. -/
theorem JsonValue.Same.countable :
  ∀ {v v' : JsonValue}, v.Same v' → v'.Countable → v.Countable
  | _, _, .null, _ => trivial
  | _, _, .bool _, _ => trivial
  | _, _, .number _, _ => trivial
  | _, _, .string _, _ => trivial
  | _, _, .array h, hc => ⟨by rw [h.length_eq]; exact hc.1, h.countable hc.2⟩
  | _, _, .object h hperm, hc => h.countable (countableMembers_iff.mpr fun m hm =>
      countableMembers_iff.mp hc m (hperm.mem_iff.mpr hm))

theorem SameItems.countable :
  ∀ {items items' : List JsonValue}, SameItems items items' → CountableItems items' →
    CountableItems items
  | _, _, .nil, _ => trivial
  | _, _, .cons h hitems, hc => ⟨h.countable hc.1, hitems.countable hc.2⟩

theorem SameMembers.countable :
  ∀ {members members' : List (String × JsonValue)}, SameMembers members members' →
    CountableMembers members' → CountableMembers members
  | _, _, .nil, _ => trivial
  | _, _, .cons h hmembers, hc => ⟨h.countable hc.1, hmembers.countable hc.2⟩

end

end FdJson

import FiredancerRs.Json.CJson

/-!
# Converting values

`json_value_to_cjson`, `cjson_to_json_value`, `to_string` and `to_string_compact` of `fd_json`. Of
the calls of cJSON that may fail, the ones that do not are given by their number in the call of the
crate. Reading a tree takes a fuel, which is spent by the recursion and by the loop over an object.
The native stack of the recursion is not modelled.
-/

namespace FdJson

variable {σ Ptr : Type} (L : CJson σ Ptr)

/-- A memory, and the number of calls so far that may fail. -/
structure Memory (σ : Type) where
  heap : σ
  calls : Nat

/-- Which calls do not fail, by their number. -/
abbrev Pattern := Nat → Bool

/-- A call that may fail. -/
def Memory.request {α : Type} (m : Memory σ) (gets : Pattern) (call : Bool → σ → α × σ) :
    α × Memory σ :=
  let (a, heap) := call (gets m.calls) m.heap
  (a, { heap := heap, calls := m.calls + 1 })

/-- `cJSON_Delete` -/
def Memory.delete (m : Memory σ) (p : Ptr) : Memory σ := { m with heap := L.delete p m.heap }

/-- The error of a call that fails for want of memory. -/
def created (r : Option Ptr × Memory σ) : Except JsonError Ptr × Memory σ :=
  match r with
  | (none, m) => (.error .memoryError, m)
  | (some cjson, m) => (.ok cjson, m)

mutual

/-- `json_value_to_cjson` -/
def jsonValueToCjson (gets : Pattern) :
    JsonValue → Memory σ → Except JsonError Ptr × Memory σ
  | .null, m => created (m.request gets (L.create .null))
  | .bool b, m => created (m.request gets (L.create (.bool b)))
  | .number bits, m => created (m.request gets (L.create (.number bits)))
  | .string s, m =>
    match CString.new s with
    | none => (.error (.invalidInput "String contains null byte"), m)
    | some cString => created (m.request gets (L.create (.string cString)))
  | .array arr, m =>
    match m.request gets (L.create .array) with
    | (none, m) => (.error .memoryError, m)
    | (some cjson, m) => addItems gets cjson arr m
  | .object obj, m =>
    match m.request gets (L.create .object) with
    | (none, m) => (.error .memoryError, m)
    | (some cjson, m) => addMembers gets cjson obj m

/-- The loop over the items of an array. -/
def addItems (gets : Pattern) (cjson : Ptr) :
    List JsonValue → Memory σ → Except JsonError Ptr × Memory σ
  | [], m => (.ok cjson, m)
  | item :: arr, m =>
    match jsonValueToCjson gets item m with
    -- the array is given up with all that it holds
    | (.error e, m) => (.error e, m)
    | (.ok cjsonItem, m) =>
      match m.request gets (L.addItemToArray cjson cjsonItem) with
      | (false, m) => (.error .memoryError, (m.delete L cjsonItem).delete L cjson)
      | (true, m) => addItems gets cjson arr m

/-- The loop over the members of an object. -/
def addMembers (gets : Pattern) (cjson : Ptr) :
    List (String × JsonValue) → Memory σ → Except JsonError Ptr × Memory σ
  | [], m => (.ok cjson, m)
  | (key, value) :: obj, m =>
    match CString.new key with
    | none => (.error (.invalidInput "Key contains null byte"), m)
    | some cKey =>
      match jsonValueToCjson gets value m with
      | (.error e, m) => (.error e, m)
      | (.ok cjsonValue, m) =>
        match m.request gets (L.addItemToObject cjson cKey cjsonValue) with
        | (false, m) => (.error .memoryError, (m.delete L cjsonValue).delete L cjson)
        | (true, m) => addMembers gets cjson obj m

end

/-! ### Printing -/

/-- What `to_string` and `to_string_compact` do with the tree of a value. -/
def printTree (layout : Layout) (gets : Pattern) (cjson : Ptr) (m : Memory σ) :
    Except JsonError String × Memory σ :=
  let (cStr, m) := m.request gets (L.print layout cjson)
  let m := m.delete L cjson
  match cStr with
  | none => (.error (.generationError "Failed to generate JSON string"), m)
  | some (cStr, text) =>
    match Utf8.decode text with
    | none => (.error .invalidUtf8, m)
    | some rustStr => (.ok rustStr, { m with heap := L.free cStr m.heap })

/-- The body of `to_string` and `to_string_compact`. -/
def printed (layout : Layout) (gets : Pattern) (value : JsonValue) (heap : σ) :
    Except JsonError String × Memory σ :=
  match jsonValueToCjson L gets value { heap := heap, calls := 0 } with
  | (.error e, m) => (.error e, m)
  | (.ok cjson, m) => printTree L layout gets cjson m

/-- `to_string` -/
def toString (gets : Pattern) (value : JsonValue) (heap : σ) :
    Except JsonError String × Memory σ :=
  printed L .formatted gets value heap

/-- `to_string_compact` -/
def toStringCompact (gets : Pattern) (value : JsonValue) (heap : σ) :
    Except JsonError String × Memory σ :=
  printed L .compact gets value heap

/-! ### Reading -/

/-- What a conversion that may run out of fuel is left with. -/
abbrev Reading (α : Type) := Option (Except JsonError α)

/-- Goes on with a value, or ends with its error. -/
def Reading.andThen {α β : Type} (r : Reading α) (k : α → Reading β) : Reading β :=
  match r with
  | none => none
  | some (.error e) => some (.error e)
  | some (.ok a) => k a

/-- `CStr::to_str` -/
def toStr (text : List UInt8) : Reading String :=
  match Utf8.decode text with
  | none => some (.error .invalidUtf8)
  | some s => some (.ok s)

/-- `0..size` -/
def indices (size : Int32) : List Int32 := (List.range size.toInt.toNat).map Int32.ofNat

/-- The loop over the items of an array. -/
def readItems (read : Option Ptr → Reading JsonValue) : List (Option Ptr) → Reading (List JsonValue)
  | [] => some (.ok [])
  | item :: items =>
    Reading.andThen (read item) fun value =>
    Reading.andThen (readItems read items) fun array => some (.ok (value :: array))

/-- The loop over the members of an object. -/
def readMembers (heap : σ) (read : Option Ptr → Reading JsonValue) :
    Nat → Option Ptr → List (String × JsonValue) → Reading (List (String × JsonValue))
  | _, none, object => some (.ok object)
  | 0, some _, _ => none
  | fuel + 1, some item, object =>
    match L.string heap item with
    | none => some (.error (.invalidStructure "Object key is null"))
    | some keyPtr =>
      Reading.andThen (toStr keyPtr) fun key =>
      Reading.andThen (read (some item)) fun value =>
      readMembers heap read fuel (L.next heap item) (insertMember object key value)

/-- `cjson_to_json_value` -/
def cjsonToJsonValue (O : MapOrder) (heap : σ) : Nat → Option Ptr → Reading JsonValue
  | _, none => some (.ok .null)
  | 0, some _ => none
  | fuel + 1, some cjson =>
    if L.isNull heap cjson then
      some (.ok .null)
    else if L.isBool heap cjson then
      some (.ok (.bool (L.isTrue heap cjson)))
    else if L.isNumber heap cjson then
      some (.ok (.number (L.getNumberValue heap cjson)))
    else if L.isString heap cjson then
      match L.getStringValue heap cjson with
      | none => some (.error (.invalidStructure "String value is null"))
      | some cStr => Reading.andThen (toStr cStr) fun rustStr => some (.ok (.string rustStr))
    else if L.isArray heap cjson then
      let size := L.getArraySize heap cjson
      Reading.andThen (readItems (cjsonToJsonValue O heap fuel)
        ((indices size).map (L.getArrayItem heap cjson))) fun array =>
      some (.ok (.array array))
    else if L.isObject heap cjson then
      Reading.andThen (readMembers L heap (cjsonToJsonValue O heap fuel) fuel
        (L.child heap cjson) []) fun object =>
      some (.ok (.object (O.order object)))
    else
      some (.error (.invalidStructure "Unknown JSON type"))

end FdJson

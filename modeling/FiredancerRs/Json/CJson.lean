import FiredancerRs.Json.Value
import FiredancerRs.Lib.Ledger

/-!
# The cJSON library

cJSON is not part of the repository: its functions are parameters (`CJson`), over a memory and
pointers into it. What `fd_json` relies on is what is documented of them (`Documented`), in terms of
the trees that a caller owns and of the blocks of memory that are taken and given back (`View`). The
accessors tell of each item of a tree its type and its value, and lead to the items below it
(`Reads`).
-/

namespace FdJson

/-- `CString` -/
structure CString where
  bytes : List UInt8
  noNul : 0 ∉ bytes

/-- `CString::new` -/
def CString.new (s : String) : Option CString :=
  if h : NulIn s then none else some { bytes := Utf8.bytes s, noNul := h }

/-- What an item is created as. -/
inductive Kind where
  | null
  | bool (b : Bool)
  | number (bits : UInt64)
  | string (s : CString)
  | array
  | object

/-- How a tree is printed. -/
inductive Layout where
  | formatted
  | compact
deriving DecidableEq

/-- The functions of cJSON. Those that may fail are told whether they do not. -/
structure CJson (σ Ptr : Type) where
  /-- `cJSON_CreateNull`, `cJSON_CreateTrue`, `cJSON_CreateFalse`, `cJSON_CreateNumber`,
  `cJSON_CreateString`, `cJSON_CreateArray` and `cJSON_CreateObject`. -/
  create : Kind → Bool → σ → Option Ptr × σ
  addItemToArray : Ptr → Ptr → Bool → σ → Bool × σ
  addItemToObject : Ptr → CString → Ptr → Bool → σ → Bool × σ
  delete : Ptr → σ → σ
  /-- `cJSON_Print` and `cJSON_PrintUnformatted`, with the text at the pointer. -/
  print : Layout → Ptr → Bool → σ → Option (Ptr × List UInt8) × σ
  free : Ptr → σ → σ
  isNull : σ → Ptr → Bool
  isBool : σ → Ptr → Bool
  isTrue : σ → Ptr → Bool
  isNumber : σ → Ptr → Bool
  isString : σ → Ptr → Bool
  isArray : σ → Ptr → Bool
  isObject : σ → Ptr → Bool
  getNumberValue : σ → Ptr → UInt64
  /-- `cJSON_GetStringValue`, with the text at the pointer. -/
  getStringValue : σ → Ptr → Option (List UInt8)
  getArraySize : σ → Ptr → Int32
  getArrayItem : σ → Ptr → Int32 → Option Ptr
  child : σ → Ptr → Option Ptr
  next : σ → Ptr → Option Ptr
  /-- The field `string`, with the text at the pointer. -/
  string : σ → Ptr → Option (List UInt8)

/-! ### Trees -/

/-- What an item stands for, with the items below it. -/
inductive Tree where
  | null
  | bool (b : Bool)
  | number (bits : UInt64)
  | string (text : List UInt8)
  | array (items : List Tree)
  | object (members : List (List UInt8 × Tree))

/-- An item that has just been created. -/
def Kind.tree : Kind → Tree
  | .null => .null
  | .bool b => .bool b
  | .number bits => .number bits
  | .string s => .string s.bytes
  | .array => .array []
  | .object => .object []

mutual

/-- The tree of a value. -/
def JsonValue.tree : JsonValue → Tree
  | .null => .null
  | .bool b => .bool b
  | .number bits => .number bits
  | .string s => .string (Utf8.bytes s)
  | .array items => .array (treesOfItems items)
  | .object members => .object (treesOfMembers members)

/-- The trees of items. -/
def treesOfItems : List JsonValue → List Tree
  | [] => []
  | v :: items => v.tree :: treesOfItems items

/-- The keys and the trees of members. -/
def treesOfMembers : List (String × JsonValue) → List (List UInt8 × Tree)
  | [] => []
  | (key, v) :: members => (Utf8.bytes key, v.tree) :: treesOfMembers members

end

mutual

/-- The strings and the keys of a tree are UTF-8. -/
def Tree.IsUtf8 : Tree → Prop
  | .string text => (Utf8.decode text).isSome
  | .array items => ItemsUtf8 items
  | .object members => MembersUtf8 members
  | _ => True

/-- The strings and the keys of trees are UTF-8. -/
def ItemsUtf8 : List Tree → Prop
  | [] => True
  | t :: items => t.IsUtf8 ∧ ItemsUtf8 items

/-- The keys and the strings of members are UTF-8. -/
def MembersUtf8 : List (List UInt8 × Tree) → Prop
  | [] => True
  | (key, t) :: members => (Utf8.decode key).isSome ∧ t.IsUtf8 ∧ MembersUtf8 members

end

mutual

/-- The tree of a value is UTF-8. -/
theorem JsonValue.isUtf8_tree :
  ∀ v : JsonValue, v.tree.IsUtf8
  | .null => trivial
  | .bool _ => trivial
  | .number _ => trivial
  | .string s => by simp [JsonValue.tree, Tree.IsUtf8]
  | .array items => isUtf8_treesOfItems items
  | .object members => isUtf8_treesOfMembers members

theorem isUtf8_treesOfItems :
  ∀ items : List JsonValue, ItemsUtf8 (treesOfItems items)
  | [] => trivial
  | v :: items => ⟨v.isUtf8_tree, isUtf8_treesOfItems items⟩

theorem isUtf8_treesOfMembers :
  ∀ members : List (String × JsonValue), MembersUtf8 (treesOfMembers members)
  | [] => trivial
  | (key, v) :: members =>
    ⟨by simp, v.isUtf8_tree, isUtf8_treesOfMembers members⟩

end

/-! ### What is documented -/

section

variable {σ Ptr : Type}

/-- What there is in a memory: the trees that a caller owns, by the pointer to the root and with the
blocks that their items take up, the items that a pointer leads to, the printed texts with their
blocks, and the blocks taken and given back so far. -/
structure View (σ Ptr : Type) where
  Root : σ → Ptr → Tree → Multiset Nat → Prop
  Points : σ → Ptr → Tree → Prop
  Text : σ → Ptr → Nat → Prop
  log : σ → List (Ledger.Entry Nat)

/-- The members from one item on: each has its key, and its `next` leads to the one after it. -/
def Linked (L : CJson σ Ptr) (Points : Ptr → Tree → Prop) (s : σ) :
    Option Ptr → List (List UInt8 × Tree) → Prop
  | item, [] => item = none
  | item, (key, t) :: members => ∃ p, item = some p ∧ L.string s p = some key ∧ Points p t
      ∧ Linked L Points s (L.next s p) members

/-- What the accessors tell of the value of an item. -/
def ReadsValue (L : CJson σ Ptr) (Points : Ptr → Tree → Prop) (s : σ) (p : Ptr) : Tree → Prop
  | .null => True
  | .bool b => L.isTrue s p = b
  | .number bits => L.getNumberValue s p = bits
  | .string text => L.getStringValue s p = some text
  | .array items =>
    (items.length < maxItems → L.getArraySize s p = Int32.ofNat items.length)
      ∧ ∀ i, i < maxItems → ∀ t ∈ items[i]?, ∃ q, L.getArrayItem s p (Int32.ofNat i) = some q
        ∧ Points q t
  | .object members => Linked L Points s (L.child s p) members

/-- What the accessors tell of an item. -/
structure Reads (L : CJson σ Ptr) (Points : Ptr → Tree → Prop) (s : σ) (p : Ptr) (t : Tree) :
    Prop where
  isNull : L.isNull s p = true ↔ t = .null
  isBool : L.isBool s p = true ↔ ∃ b, t = .bool b
  isNumber : L.isNumber s p = true ↔ ∃ bits, t = .number bits
  isString : L.isString s p = true ↔ ∃ text, t = .string text
  isArray : L.isArray s p = true ↔ ∃ items, t = .array items
  isObject : L.isObject s p = true ↔ ∃ members, t = .object members
  value : ReadsValue L Points s p t

namespace View

variable (V : View σ Ptr)

/-- The trees of one memory, but for some, are in another. -/
def Frame (s s' : σ) (touched : Ptr → Prop) : Prop :=
  ∀ q t N, ¬touched q → V.Root s q t N → V.Root s' q t N

/-- A call that fails takes nothing and changes no tree. -/
structure Unchanged (s s' : σ) : Prop where
  log : V.log s' = V.log s
  frame : V.Frame s s' fun _ => False

/-- An item has been created, in a block of its own. -/
structure Created (s s' : σ) (k : Kind) (p : Ptr) : Prop where
  block : ∃ n, V.Root s' p k.tree {n} ∧ V.log s' = V.log s ++ [.acquire n]
  fresh : ∀ t N, ¬V.Root s p t N
  frame : V.Frame s s' (· = p)

/-- A tree has become part of another. -/
structure Attached (s s' : σ) (p q : Ptr) (t : Tree) (N : Multiset Nat) : Prop where
  root : V.Root s' p t N
  log : V.log s' = V.log s
  frame : V.Frame s s' fun r => r = p ∨ r = q

/-- The blocks of a tree have been given back, each once. -/
structure Deleted (s s' : σ) (p : Ptr) (N : Multiset Nat) : Prop where
  blocks : ∃ l : List Nat, (l : Multiset Nat) = N ∧ V.log s' = V.log s ++ l.map .release
  frame : V.Frame s s' (· = p)
  texts : ∀ q n, V.Text s q n → V.Text s' q n

/-- A tree has been printed into a block. -/
structure Printed (s s' : σ) (q : Ptr) : Prop where
  block : ∃ n, V.Text s' q n ∧ V.log s' = V.log s ++ [.acquire n]
  frame : V.Frame s s' fun _ => False

end View

/-- What is documented of cJSON. An array of more items than a `c_int` counts has a size that is not
told. UTF-8 strings are printed as UTF-8. -/
structure Documented (L : CJson σ Ptr) (V : View σ Ptr) : Prop where
  points : ∀ s p t N, V.Root s p t N → V.Points s p t
  reads : ∀ s p t, V.Points s p t → Reads L (V.Points s) s p t
  create : ∀ k s, ∃ p s', L.create k true s = (some p, s') ∧ V.Created s s' k p
  create_fails : ∀ k s, ∃ s', L.create k false s = (none, s') ∧ V.Unchanged s s'
  addItemToArray : ∀ s p items N q t M, p ≠ q → V.Root s p (.array items) N → V.Root s q t M →
    ∃ s', L.addItemToArray p q true s = (true, s')
      ∧ V.Attached s s' p q (.array (items ++ [t])) (N + M)
  addItemToArray_fails : ∀ s p q, ∃ s', L.addItemToArray p q false s = (false, s')
    ∧ V.Unchanged s s'
  addItemToObject : ∀ s p members N key q t M, p ≠ q → V.Root s p (.object members) N →
    V.Root s q t M → ∃ s', L.addItemToObject p key q true s = (true, s')
      ∧ V.Attached s s' p q (.object (members ++ [(key.bytes, t)])) (N + M)
  addItemToObject_fails : ∀ s p key q, ∃ s', L.addItemToObject p key q false s = (false, s')
    ∧ V.Unchanged s s'
  delete : ∀ s p t N, V.Root s p t N → V.Deleted s (L.delete p s) p N
  print : ∀ layout s p t N, V.Root s p t N → ∃ q text s', L.print layout p true s
    = (some (q, text), s') ∧ V.Printed s s' q ∧ (t.IsUtf8 → (Utf8.decode text).isSome)
  print_fails : ∀ layout s p, ∃ s', L.print layout p false s = (none, s') ∧ V.Unchanged s s'
  free : ∀ s q n, V.Text s q n → V.log (L.free q s) = V.log s ++ [.release n]

end

end FdJson

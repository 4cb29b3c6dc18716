import FiredancerRs.Json.CJson
import Mathlib.Logic.Function.Basic

/-!
# Memories of trees

A memory that holds whole trees, by the number of the block of the root. A pointer is that number
with the indices that lead from the root to the item, the innermost first. The functions of cJSON
over such memories (`treeCJson`) are as documented (`treeCJson_documented`).
-/

namespace FdJson

/-! ### Places in trees -/

/-- The item below another at an index. -/
def Tree.item (t : Tree) (i : Nat) : Option Tree :=
  match t with
  | .array items => items[i]?
  | .object members => members[i]?.map Prod.snd
  | _ => none

/-- The key of the item below another at an index. -/
def Tree.key (t : Tree) (i : Nat) : Option (List UInt8) :=
  match t with
  | .object members => members[i]?.map Prod.fst
  | _ => none

/-- The item at a path. -/
def Tree.follow (t : Tree) : List Nat → Option Tree
  | [] => some t
  | i :: path => (t.follow path).bind (·.item i)

/-! ### Memories -/

/-- A memory of trees: the number of the next block, the trees with the blocks of their items, and
the blocks taken and given back so far. -/
structure TreeMemory where
  next : Nat
  trees : Nat → Option (Tree × List Nat)
  log : List (Ledger.Entry Nat)

/-- A memory in which there is nothing. -/
def TreeMemory.empty : TreeMemory := { next := 0, trees := fun _ => none, log := [] }

/-- The number of a root, and the path to an item below it. -/
abbrev Place := Nat × List Nat

namespace TreeMemory

variable (s : TreeMemory)

/-- The item at a place. -/
def look (p : Place) : Option Tree := (s.trees p.1).bind fun (t, _) => t.follow p.2

/-- The place, if there is an item at it. -/
def find (p : Place) : Option Place := if (s.look p).isSome then some p else none

/-- Whether there is an item at a place that is as told. -/
def is (told : Tree → Bool) (p : Place) : Bool := (s.look p).any told

/-- Takes a block, in which there is a root. -/
def create (k : Kind) (works : Bool) : Option Place × TreeMemory :=
  if works then
    (some (s.next, []),
      { next := s.next + 1
        trees := Function.update s.trees s.next (some (k.tree, [s.next]))
        log := s.log ++ [.acquire s.next] })
  else
    (none, s)

/-- Moves a tree into another. -/
def attach (p q : Place) (insert : Tree → Tree → Option Tree) (works : Bool) :
    Bool × TreeMemory :=
  match works, s.trees p.1, s.trees q.1 with
  | true, some (c, l), some (t, l') =>
    match insert c t with
    | some c =>
      (true, { s with
        trees := Function.update (Function.update s.trees q.1 none) p.1 (some (c, l ++ l')) })
    | none => (false, s)
  | _, _, _ => (false, s)

/-- Gives back the blocks of a tree. -/
def delete (p : Place) : TreeMemory :=
  match s.trees p.1 with
  | some (_, l) =>
    { s with trees := Function.update s.trees p.1 none, log := s.log ++ l.map .release }
  | none => s

/-- Takes a block for a text. -/
def print (text : Tree → List UInt8) (p : Place) (works : Bool) :
    Option (Place × List UInt8) × TreeMemory :=
  match works, s.look p with
  | true, some t =>
    (some ((s.next, []), text t),
      { s with next := s.next + 1, log := s.log ++ [.acquire s.next] })
  | _, _ => (none, s)

end TreeMemory

/-- The text of a literal. -/
def Tree.literal : Tree → List UInt8
  | .null => Utf8.bytes "null"
  | .bool true => Utf8.bytes "true"
  | .bool false => Utf8.bytes "false"
  | _ => Utf8.bytes ""

/-- Appends an item to an array. -/
def Tree.pushItem : Tree → Tree → Option Tree
  | .array items, t => some (.array (items ++ [t]))
  | _, _ => none

/-- Appends a member to an object. -/
def Tree.pushMember (key : List UInt8) : Tree → Tree → Option Tree
  | .object members, t => some (.object (members ++ [(key, t)]))
  | _, _ => none

/-- The number of items below one. -/
def Tree.size : Tree → Nat
  | .array items => items.length
  | .object members => members.length
  | _ => 0

/-- The functions of cJSON over memories of trees. Of the texts that are printed only literals
are. -/
def treeCJson : CJson TreeMemory Place where
  create k works s := s.create k works
  addItemToArray p q works s := s.attach p q Tree.pushItem works
  addItemToObject p key q works s := s.attach p q (Tree.pushMember key.bytes) works
  delete p s := s.delete p
  print _ p works s := s.print Tree.literal p works
  free p s := { s with log := s.log ++ [.release p.1] }
  isNull s := s.is fun | .null => true | _ => false
  isBool s := s.is fun | .bool _ => true | _ => false
  isTrue s := s.is fun | .bool b => b | _ => false
  isNumber s := s.is fun | .number _ => true | _ => false
  isString s := s.is fun | .string _ => true | _ => false
  isArray s := s.is fun | .array _ => true | _ => false
  isObject s := s.is fun | .object _ => true | _ => false
  getNumberValue s p := match s.look p with | some (.number bits) => bits | _ => 0
  getStringValue s p := match s.look p with | some (.string text) => some text | _ => none
  getArraySize s p := Int32.ofNat ((s.look p).elim 0 Tree.size)
  getArrayItem s p i := if i < 0 then none else s.find (p.1, i.toNatClampNeg :: p.2)
  child s p := s.find (p.1, 0 :: p.2)
  next s p := match p with | (n, i :: path) => s.find (n, (i + 1) :: path) | (_, []) => none
  string s p := match p with
    | (n, i :: path) => (s.look (n, path)).bind (·.key i)
    | (_, []) => none

/-- What there is in a memory of trees. -/
def treeView : View TreeMemory Place where
  Root s p t N :=
    p.2 = [] ∧ p.1 < s.next ∧ ∃ l : List Nat, s.trees p.1 = some (t, l) ∧ (l : Multiset Nat) = N
  Points s p t := s.look p = some t
  Text _ q n := q.1 = n
  log s := s.log

/-! ### What is documented -/

variable {s : TreeMemory} {p q : Place} {t c : Tree} {N M : Multiset Nat}

theorem TreeMemory.look_cons {i : Nat} (h : s.look p = some t) :
  s.look (p.1, i :: p.2) = t.item i
  := by
  obtain ⟨⟨root, l⟩, hroot, hfollow⟩ := Option.bind_eq_some_iff.mp h
  simp only [TreeMemory.look, hroot, Option.bind_some, Tree.follow] at hfollow ⊢
  rw [hfollow, Option.bind_some]

theorem TreeMemory.find_of_look (h : s.look p = some t) :
  s.find p = some p
  := by rw [TreeMemory.find, h, Option.isSome_some, if_pos rfl]

theorem TreeMemory.is_of_look {told : Tree → Bool} (h : s.look p = some t) :
  s.is told p = told t
  := by rw [TreeMemory.is, h, Option.any_some]

theorem TreeMemory.is_iff {told : Tree → Bool} {P : Prop} (h : s.look p = some t)
    (htold : told t = true ↔ P) :
  s.is told p = true ↔ P
  := by rw [TreeMemory.is_of_look h, htold]

theorem treeView_look (h : treeView.Root s p t N) :
  s.look p = some t
  := by
  obtain ⟨hpath, -, l, htree, -⟩ := h
  simp only [TreeMemory.look, htree, Option.bind_some, hpath, Tree.follow]

/-- The members of an object from one index on. -/
theorem treeView_linked {before rest : List (List UInt8 × Tree)}
    (h : s.look p = some (.object (before ++ rest))) :
  Linked treeCJson (treeView.Points s) s (s.find (p.1, before.length :: p.2)) rest
  := by
  induction rest generalizing before with
  | nil =>
    rw [Linked, TreeMemory.find, TreeMemory.look_cons h]
    simp [Tree.item]
  | cons m rest ih =>
    have hitem : s.look (p.1, before.length :: p.2) = some m.2 := by
      rw [TreeMemory.look_cons h]
      simp [Tree.item]
    have hnext := @ih (before ++ [m]) (by rwa [List.append_assoc, List.singleton_append])
    rw [List.length_append, List.length_singleton] at hnext
    refine ⟨(p.1, before.length :: p.2), TreeMemory.find_of_look hitem, ?_, hitem, hnext⟩
    change (s.look p).bind (·.key before.length) = some m.1
    rw [h, Option.bind_some]
    simp [Tree.key]

theorem treeView_reads (h : treeView.Points s p t) :
  Reads treeCJson (treeView.Points s) s p t
  where
  isNull := TreeMemory.is_iff h (by cases t <;> simp)
  isBool := TreeMemory.is_iff h (by cases t <;> simp)
  isNumber := TreeMemory.is_iff h (by cases t <;> simp)
  isString := TreeMemory.is_iff h (by cases t <;> simp)
  isArray := TreeMemory.is_iff h (by cases t <;> simp)
  isObject := TreeMemory.is_iff h (by cases t <;> simp)
  value := by
    have hlook : s.look p = some t := h
    cases t with
    | null => trivial
    | bool b =>
      change s.is _ p = b
      rw [TreeMemory.is_of_look h]
    | number bits => simp only [ReadsValue, treeCJson, hlook]
    | string text => simp only [ReadsValue, treeCJson, hlook]
    | array items =>
      constructor
      · intro hlength
        simp only [treeCJson, hlook, Option.elim_some, Tree.size]
      · intro i hi t ht
        use (p.1, i :: p.2)
        have hitem : s.look (p.1, i :: p.2) = some t := by
          rw [TreeMemory.look_cons h]
          apply ht
        have hnat : (Int32.ofNat i).toNatClampNeg = i := Int32.toNatClampNeg_ofNat_of_lt hi
        have hneg : ¬Int32.ofNat i < 0 := by
          rw [Int32.lt_iff_toInt_lt, Int32.toInt_ofNat_of_lt hi, Int32.toInt_zero]
          omega
        refine ⟨?_, hitem⟩
        simp only [treeCJson, if_neg hneg, hnat, TreeMemory.find_of_look hitem]
    | object members => exact @treeView_linked _ _ [] members h

theorem treeCJson_create {k : Kind} :
  treeView.Created s (s.create k true).2 k (s.next, [])
  where
  block := by
    refine ⟨s.next, ⟨rfl, Nat.lt_succ_self _, [s.next], ?_, rfl⟩, rfl⟩
    apply Function.update_self ..
  fresh := by
    rintro t N ⟨-, hlt, -⟩
    apply Nat.lt_irrefl _ hlt
  frame := by
    rintro ⟨n, path⟩ t N hne ⟨hpath, hlt, l, htree, hN⟩
    refine ⟨hpath, Nat.lt_succ_of_lt hlt, l, ?_, hN⟩
    rw [← htree]
    apply Function.update_of_ne (Nat.ne_of_lt hlt) ..

theorem treeCJson_attach {insert : Tree → Tree → Option Tree} {c' : Tree}
    (hp : treeView.Root s p c N) (hq : treeView.Root s q t M) (hinsert : insert c t = some c') :
  ∃ s', s.attach p q insert true = (true, s') ∧ treeView.Attached s s' p q c' (N + M)
  := by
  obtain ⟨hpath, hlt, l, htree, rfl⟩ := hp
  obtain ⟨hpath', hlt', l', htree', rfl⟩ := hq
  simp only [TreeMemory.attach, htree, htree', hinsert]
  refine ⟨_, rfl, ?_⟩
  constructor
  · exact ⟨hpath, hlt, l ++ l', Function.update_self .., (Multiset.coe_add l l').symm⟩
  · rfl
  · rintro r u K hr ⟨hroot, hbelow, l'', hold, hK⟩
    rw [not_or] at hr
    have hneP : r.1 ≠ p.1 := fun heq => hr.1 (Prod.ext heq (hroot.trans hpath.symm))
    have hneQ : r.1 ≠ q.1 := fun heq => hr.2 (Prod.ext heq (hroot.trans hpath'.symm))
    refine ⟨hroot, hbelow, l'', ?_, hK⟩
    rw [← hold, ← Function.update_of_ne hneQ none s.trees]
    apply Function.update_of_ne hneP ..

theorem treeCJson_delete (h : treeView.Root s p t N) :
  treeView.Deleted s (s.delete p) p N
  := by
  obtain ⟨hpath, hlt, l, htree, rfl⟩ := h
  simp only [TreeMemory.delete, htree]
  constructor
  · exact ⟨l, rfl, rfl⟩
  · rintro r u K hr ⟨hroot, hbelow, l', hold, hK⟩
    have hne : r.1 ≠ p.1 := fun heq => hr (Prod.ext heq (hroot.trans hpath.symm))
    refine ⟨hroot, hbelow, l', ?_, hK⟩
    rw [← hold]
    apply Function.update_of_ne hne ..
  · exact fun _ _ => id

theorem treeCJson_print {text : Tree → List UInt8} (h : treeView.Root s p t N) :
  ∃ q s', s.print text p true = (some (q, text t), s') ∧ treeView.Printed s s' q
  := by
  simp only [TreeMemory.print, treeView_look h]
  refine ⟨_, _, rfl, ⟨s.next, rfl, rfl⟩, ?_⟩
  rintro r u K - ⟨hroot, hbelow, l, hold, hK⟩
  exact ⟨hroot, Nat.lt_succ_of_lt hbelow, l, hold, hK⟩

theorem Tree.isSome_decode_literal (t : Tree) :
  (Utf8.decode t.literal).isSome
  := by
  unfold Tree.literal
  split <;> rw [Utf8.decode_bytes, Option.isSome_some]

/-- The functions over memories of trees are as documented. -/
theorem treeCJson_documented :
  Documented treeCJson treeView
  where
  points _ _ _ _ h := treeView_look h
  reads _ _ _ h := treeView_reads h
  create _ _ := ⟨_, _, rfl, treeCJson_create⟩
  create_fails _ _ := ⟨_, rfl, rfl, fun _ _ _ _ => id⟩
  addItemToArray _ _ _ _ _ _ _ _ hp hq := treeCJson_attach hp hq rfl
  addItemToArray_fails _ _ _ := ⟨_, rfl, rfl, fun _ _ _ _ => id⟩
  addItemToObject _ _ _ _ _ _ _ _ _ hp hq := treeCJson_attach hp hq rfl
  addItemToObject_fails _ _ _ _ := ⟨_, rfl, rfl, fun _ _ _ _ => id⟩
  delete _ _ _ _ h := treeCJson_delete h
  print _ _ _ t _ h := by
    obtain ⟨q, s', hprint, hprinted⟩ := @treeCJson_print _ _ _ _ Tree.literal h
    exact ⟨q, t.literal, s', hprint, hprinted, fun _ => t.isSome_decode_literal⟩
  print_fails _ _ _ := ⟨_, rfl, rfl, fun _ _ _ _ => id⟩
  free _ _ _ h := by
    cases h
    rfl

end FdJson

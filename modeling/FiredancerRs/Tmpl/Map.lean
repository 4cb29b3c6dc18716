import FiredancerRs.Lib.Runs
import FiredancerRs.Tmpl.Container
import Mathlib.Data.Finmap

/-!
# The map

`FdMap` over the C template `fd_map`, which is the parameter `MapSys`. The template hands out slots,
and `FdMap` has to store the values in them. But `insert` stores no value, `remove` gives the
template the address of an entry that is in no slot, and `len` is the size of the memory. So the
calls of a history answer as those of a finite map exactly when none of them comes to one of these
(`refines_finmap_iff`).
-/

namespace FdTmpl

/-- `fd_ulong_map_ele_t` -/
structure MapEle where
  key : UInt64
  hash : UInt32
  value : UInt64
deriving DecidableEq, Repr

/-- The address of an entry: one of the slots of the map, or elsewhere. -/
inductive ElePtr where
  | slot (i : Nat)
  | local (ele : MapEle)

/-- The functions of the template. `remove` gives no memory where its effect is not defined. -/
structure MapSys (μ : Type) extends TmplSys μ where
  insert : μ → UInt64 → μ × Option Nat
  query : μ → UInt64 → Option Nat
  remove : μ → ElePtr → Option μ
  /-- The value in a slot. -/
  value : μ → Nat → UInt64

/-- The slots of a map: `MAP_LG_SLOT_CNT` is 8. -/
def MAP_SLOT_CNT : Nat := 2 ^ 8

/-- The size of an entry: `key`, `hash` up to the alignment of `value`, and `value`. -/
def MAP_ELE_SIZE : Nat := 8 + 8 + 8

/-- `FdMap` -/
abbrev FdMap (μ : Type) := Container μ

namespace FdMap

variable {μ : Type} (sys : MapSys μ) (map : FdMap μ)

/-- `insert` -/
def insert (key value : UInt64) : FdMap μ × Except TmplError Unit :=
  let ele : MapEle := { key := key, hash := key.toUInt32, value := value }
  match sys.insert map.mem ele.key with
  | (mem, none) => ({ map with mem := mem }, .error .containerFull)
  | (mem, some _) => ({ map with mem := mem }, .ok ())

/-- `get` -/
def get (key : UInt64) : Option UInt64 :=
  let query : MapEle := { key := key, hash := key.toUInt32, value := 0 }
  match sys.query map.mem query.key with
  | none => none
  | some result => some (sys.value map.mem result)

/-- `remove` -/
def remove (key : UInt64) : Option (FdMap μ × Option Unit) :=
  let query : MapEle := { key := key, hash := key.toUInt32, value := 0 }
  match sys.remove map.mem (.local query) with
  | none => none
  | some mem => some ({ map with mem := mem }, some ())

/-- `contains_key` -/
def containsKey (key : UInt64) : Bool := (get sys map key).isSome

/-- `len` -/
def len : Nat := sys.footprint

/-- `is_empty` -/
def isEmpty : Bool := len sys = 0

/-- `clear`, which panics if the memory cannot be joined again. -/
def clear : Option (FdMap μ) :=
  let shmem := sys.leave map.mem
  let newShmem := sys.new (sys.delete shmem)
  let newHandle := sys.join newShmem
  if newHandle = 0 then none else some { map with handle := newHandle, mem := newShmem }

/-! ### Histories -/

/-- A call on a map. -/
inductive Call where
  | insert (key value : UInt64)
  | get (key : UInt64)
  | containsKey (key : UInt64)
  | remove (key : UInt64)
  | len
  | isEmpty
  | clear

/-- What a call returns. -/
inductive Reply where
  | inserted (result : Except TmplError Unit)
  | value (result : Option UInt64)
  | removed (result : Option Unit)
  | bool (result : Bool)
  | count (n : Nat)
  | unit

/-- The map after a call, and what the call returns. There is neither where the call panics or its
effect is not defined. -/
def call : FdMap μ → Call → Option (FdMap μ × Reply)
  | map, .insert key value =>
    let (map, result) := insert sys map key value
    some (map, .inserted result)
  | map, .get key => some (map, .value (get sys map key))
  | map, .containsKey key => some (map, .bool (containsKey sys map key))
  | map, .remove key => (remove sys map key).map fun (map, result) => (map, .removed result)
  | map, .len => some (map, .count (len sys))
  | map, .isEmpty => some (map, .bool (isEmpty sys))
  | map, .clear => (clear sys map).map fun map => (map, .unit)

/-- A finite map. -/
abbrev Model := Finmap fun _ : UInt64 => UInt64

/-- The calls on a finite map with room for a number of keys. -/
def Model.call (capacity : Nat) : Model → Call → Model × Reply
  | model, .insert key value =>
    if key ∈ model ∨ model.keys.card < capacity then
      (model.insert key value, .inserted (.ok ()))
    else
      (model, .inserted (.error .containerFull))
  | model, .get key => (model, .value (model.lookup key))
  | model, .containsKey key => (model, .bool (model.lookup key).isSome)
  | model, .remove key => (model.erase key, .removed ((model.lookup key).map fun _ => ()))
  | model, .len => (model, .count model.keys.card)
  | model, .isEmpty => (model, .bool (model.keys.card = 0))
  | _, .clear => (∅, .unit)

/-- What is documented of the template, of which we know the keys in a map. A map holds a number of
keys that does not exceed that of its slots, and its memory has these slots. -/
structure Documented (keys : μ → Finset UInt64) (capacity : Nat) : Prop where
  new : ∀ mem, keys (sys.new mem) = ∅
  join : ∀ mem, sys.join (sys.new mem) ≠ 0
  query : ∀ mem key, (sys.query mem key).isSome ↔ key ∈ keys mem
  insert_none : ∀ mem key, key ∈ keys mem ∨ capacity ≤ (keys mem).card →
    sys.insert mem key = (mem, none)
  insert_some : ∀ mem key, key ∉ keys mem → (keys mem).card < capacity →
    ∃ mem' slot, sys.insert mem key = (mem', some slot)
      ∧ keys mem' = Insert.insert key (keys mem)
  remove_local : ∀ mem ele, sys.remove mem (.local ele) = none
  capacity_le : capacity ≤ MAP_SLOT_CNT
  footprint : MAP_SLOT_CNT * MAP_ELE_SIZE ≤ sys.footprint

/-- A call comes to none of the defects. No key is inserted that is there, and a key that is there
is looked up only when its slot happens to hold its value. -/
def Unaffected (p : FdMap μ × Model) : Call → Prop
  | .insert key _ => key ∉ p.2
  | .get key => ∀ slot, sys.query p.1.mem key = some slot →
      p.2.lookup key = some (sys.value p.1.mem slot)
  | .containsKey _ => True
  | .remove _ => False
  | .len => False
  | .isEmpty => p.2.keys.card ≠ 0
  | .clear => True

instance (p : FdMap μ × Model) : (c : Call) → Decidable (Unaffected sys p c)
  | .insert key _ => inferInstanceAs (Decidable (key ∉ p.2))
  | .get key => inferInstanceAs (Decidable (∀ slot ∈ sys.query p.1.mem key, _ = _))
  | .containsKey _ | .clear => isTrue trivial
  | .remove _ | .len => isFalse id
  | .isEmpty => inferInstanceAs (Decidable (p.2.keys.card ≠ 0))

/-- A map holds the keys of the finite map, which has room for them. -/
structure SameKeys (keys : μ → Finset UInt64) (capacity : Nat) (p : FdMap μ × Model) : Prop where
  keys_eq : keys p.1.mem = p.2.keys
  card_le : p.2.keys.card ≤ capacity

section Calls

variable {sys : MapSys μ} {keys : μ → Finset UInt64} {capacity : Nat} {map : FdMap μ}
  {model : Model}
  {key value : UInt64} (hdoc : Documented sys keys capacity)
  (hsame : SameKeys keys capacity (map, model))

theorem get_eq :
  get sys map key = (sys.query map.mem key).map (sys.value map.mem)
  := by
  cases hquery : sys.query map.mem key <;> simp only [get, hquery, Option.map]

include hsame

theorem SameKeys.mem_iff :
  key ∈ keys map.mem ↔ key ∈ model
  := by
  rw [hsame.keys_eq, Finmap.mem_keys]

include hdoc

/-- A slot is found for the keys that are there. -/
theorem isSome_query (key : UInt64) :
  (sys.query map.mem key).isSome = (model.lookup key).isSome
  := by
  rw [Bool.eq_iff_iff, Finmap.lookup_isSome, hdoc.query, hsame.mem_iff]

/-- A key that is inserted is there, or the map is full, or the key gets a slot. -/
theorem insert_cases (key value : UInt64) :
  (key ∈ model ∧ insert sys map key value = (map, .error .containerFull))
    ∨ (key ∉ model ∧ ¬ model.keys.card < capacity
      ∧ insert sys map key value = (map, .error .containerFull))
    ∨ (key ∉ model ∧ model.keys.card < capacity ∧ ∃ mem,
      insert sys map key value = ({ map with mem := mem }, .ok ())
        ∧ keys mem = Insert.insert key model.keys)
  := by
  have hcard : (keys map.mem).card = model.keys.card := congrArg Finset.card hsame.keys_eq
  by_cases hkey : key ∈ model
  · left
    use hkey
    rw [insert, hdoc.insert_none map.mem key (.inl (hsame.mem_iff.mpr hkey))]
  · right
    by_cases hroom : model.keys.card < capacity
    · right
      obtain ⟨mem, slot, hinsert, hnext⟩ := hdoc.insert_some map.mem key
        (mt hsame.mem_iff.mp hkey) (by rwa [hcard])
      use hkey, hroom, mem
      rw [insert, hinsert]
      use rfl
      rw [hnext, hsame.keys_eq]
    · left
      use hkey, hroom
      rw [insert, hdoc.insert_none map.mem key (.inr (by rw [hcard]; exact Nat.not_lt.mp hroom))]

/-- The memory has more bytes than the map has keys. -/
theorem card_lt_len :
  model.keys.card < len sys
  := by
  have hcard : model.keys.card ≤ capacity := hsame.card_le
  have hcapacity := hdoc.capacity_le
  have hfootprint := hdoc.footprint
  simp only [MAP_SLOT_CNT, MAP_ELE_SIZE] at hcapacity hfootprint
  simp only [len]
  omega

/-- A call answers as that of the finite map exactly when it comes to none of the defects. -/
theorem answers_iff_unaffected (c : Call) :
  Runs.Answers (call sys) (Model.call capacity) (map, model) c ↔ Unaffected sys (map, model) c
  := by
  cases c with
  | insert key value =>
    obtain ⟨hkey, hinsert⟩ | ⟨hkey, hfull, hinsert⟩ | ⟨hkey, hroom, mem, hinsert, -⟩ :=
      insert_cases hdoc hsame key value
    · simp [Runs.Answers, call, Model.call, Unaffected, hinsert, hkey]
    · simp [Runs.Answers, call, Model.call, Unaffected, hinsert, hkey, hfull]
    · simp [Runs.Answers, call, Model.call, Unaffected, hinsert, hkey, hroom]
  | get key =>
    have hquery := isSome_query hdoc hsame key
    cases hslot : sys.query map.mem key with
    | none =>
      rw [hslot, Option.isSome_none, eq_comm, Option.isSome_eq_false_iff, Option.isNone_iff_eq_none]
        at hquery
      simp [Runs.Answers, call, Model.call, Unaffected, get_eq, hslot, hquery]
    | some slot =>
      simp [Runs.Answers, call, Model.call, Unaffected, get_eq, hslot, eq_comm]
  | containsKey key =>
    simp [Runs.Answers, call, Model.call, Unaffected, containsKey, get_eq,
      isSome_query hdoc hsame]
  | remove key =>
    simp [Runs.Answers, call, Unaffected, remove, hdoc.remove_local]
  | len =>
    have hlt := card_lt_len hdoc hsame
    simp [Runs.Answers, call, Model.call, Unaffected, hlt.ne']
  | isEmpty =>
    have hlt := card_lt_len hdoc hsame
    have hempty : isEmpty sys = false := decide_eq_false (Nat.ne_zero_of_lt hlt)
    simp [Runs.Answers, call, Model.call, Unaffected, hempty]
  | clear =>
    have hjoin := hdoc.join (sys.delete (sys.leave map.mem))
    simp [Runs.Answers, call, Model.call, Unaffected, clear, hjoin]

/-- A call that answers as that of the finite map keeps the keys the same. -/
theorem SameKeys.keeps {c : Call} {map' : FdMap μ}
    (h : call sys map c = some (map', (Model.call capacity model c).2)) :
  SameKeys keys capacity (map', (Model.call capacity model c).1)
  := by
  cases c with
  | insert key value =>
    obtain ⟨hkey, hinsert⟩ | ⟨hkey, hfull, hinsert⟩ | ⟨hkey, hroom, mem, hinsert, hnext⟩ :=
      insert_cases hdoc hsame key value
    · simp [call, Model.call, hinsert, hkey] at h
    · have hmodel : Model.call capacity model (.insert key value)
          = (model, .inserted (.error .containerFull)) := by
        simp [Model.call, hkey, hfull]
      simp only [call, hinsert, hmodel, Option.some.injEq, Prod.mk.injEq, and_true] at h
      rw [hmodel, ← h]
      exact hsame
    · have hmodel : Model.call capacity model (.insert key value)
          = (model.insert key value, .inserted (.ok ())) := by
        simp [Model.call, hroom]
      simp only [call, hinsert, hmodel, Option.some.injEq, Prod.mk.injEq, and_true] at h
      have hkeys : (model.insert key value).keys = Insert.insert key model.keys := by
        ext key'
        rw [Finmap.mem_keys, Finmap.mem_insert, Finset.mem_insert, Finmap.mem_keys]
      rw [hmodel, ← h]
      constructor
      · rw [hnext, hkeys]
      · rw [hkeys]
        apply (Finset.card_insert_le _ _).trans hroom
  | get key | containsKey key | len | isEmpty =>
    obtain ⟨rfl, -⟩ := Prod.mk.inj (Option.some.inj h)
    exact hsame
  | remove key =>
    simp [call, remove, hdoc.remove_local] at h
  | clear =>
    have hjoin := hdoc.join (sys.delete (sys.leave map.mem))
    simp only [call, clear, if_neg hjoin, Option.map_some, Option.some.injEq, Prod.mk.injEq] at h
    rw [← h.1]
    constructor
    · rw [hdoc.new]
      rfl
    · apply Nat.zero_le

end Calls

/-- The calls of a history answer as those of a finite map exactly when none comes to a defect. -/
theorem refines_finmap_iff {sys : MapSys μ} {keys : μ → Finset UInt64} {capacity : Nat}
    (hdoc : Documented sys keys capacity) {map : FdMap μ}
    (hnew : Container.new sys.toTmplSys = .ok map) (calls : List Call) :
  Runs.Along (Runs.both (call sys) (Model.call capacity))
      (Runs.Answers (call sys) (Model.call capacity)) calls (map, ∅)
    ↔ Runs.Along (Runs.both (call sys) (Model.call capacity)) (Unaffected sys) calls (map, ∅)
  := by
  have hempty : SameKeys keys capacity (map, ∅) := by
    obtain ⟨-, mem, hmem, -⟩ := Container.new_eq_ok hnew
    constructor
    · rw [hmem, hdoc.new]
      rfl
    · apply Nat.zero_le
  apply Runs.answers_iff _ _ hempty
  · intro p c hp
    apply answers_iff_unaffected hdoc hp
  · intro p c map' hp h
    apply hp.keeps hdoc h

/-! ### A template -/

/-- The slots of a map in use, and what is in the slots for values. -/
structure SlotMem where
  keys : List UInt64
  nodup : keys.Nodup
  values : Nat → UInt64

/-- Slots that are used one after the other. -/
def slotSys : MapSys SlotMem where
  footprint := MAP_SLOT_CNT * MAP_ELE_SIZE
  align := 8
  alloc _ := some { keys := [], nodup := List.nodup_nil, values := fun _ => 0 }
  new mem := { mem with keys := [], nodup := List.nodup_nil }
  join _ := 0x1000
  leave mem := mem
  delete mem := mem
  insert mem key :=
    if h : key ∉ mem.keys ∧ mem.keys.length < MAP_SLOT_CNT then
      ({ mem with keys := mem.keys.concat key, nodup := mem.nodup.concat h.1 },
        some mem.keys.length)
    else
      (mem, none)
  query mem key := mem.keys.idxOf? key
  remove mem ptr :=
    match ptr with
    | .slot i =>
      some
        { keys := mem.keys.eraseIdx i
          nodup := mem.nodup.eraseIdx i
          values := fun j => if j < i then mem.values j else mem.values (j + 1) }
    | .local _ => none
  value mem i := mem.values i

theorem slotSys_documented :
  Documented slotSys (fun mem => mem.keys.toFinset) MAP_SLOT_CNT
  := by
  have hcard (mem : SlotMem) : mem.keys.toFinset.card = mem.keys.length :=
    List.toFinset_card_of_nodup mem.nodup
  constructor
  case new =>
    intro mem
    rfl
  case join =>
    intro mem
    simp [slotSys]
  case query =>
    intro mem key
    simp [slotSys]
  case insert_none =>
    intro mem key h
    rw [hcard, List.mem_toFinset] at h
    apply dif_neg
    rintro ⟨hkey, hroom⟩
    rcases h with hmem | hfull
    · apply hkey hmem
    · apply Nat.not_lt.mpr hfull hroom
  case insert_some =>
    intro mem key hkey hroom
    rw [List.mem_toFinset] at hkey
    rw [hcard] at hroom
    refine ⟨_, _, dif_pos ⟨hkey, hroom⟩, ?_⟩
    ext key'
    simp
  case remove_local =>
    intro mem ele
    rfl
  case capacity_le =>
    apply Nat.le_refl
  case footprint =>
    apply Nat.le_refl

/-- A new map. -/
def slotMap : FdMap SlotMem where
  handle := 0x1000
  mem := { keys := [], nodup := List.nodup_nil, values := fun _ => 0 }

theorem slotMap_new :
  Container.new slotSys.toTmplSys = .ok slotMap
  := rfl

/-- Two keys are inserted with the value that the slots hold, and then no key is left. -/
def zeroCalls : List Call :=
  [.insert 1 0, .get 1, .insert 2 0, .containsKey 2, .isEmpty, .get 3, .clear, .get 1]

theorem refines_finmap_iff_zeroCalls :
  Runs.Along (Runs.both (call slotSys) (Model.call MAP_SLOT_CNT))
    (Runs.Answers (call slotSys) (Model.call MAP_SLOT_CNT)) zeroCalls (slotMap, ∅)
  := (refines_finmap_iff slotSys_documented slotMap_new zeroCalls).mpr (by decide)

/-- The value that is inserted is not there. -/
theorem not_refines_finmap :
  ¬ Runs.Along (Runs.both (call slotSys) (Model.call MAP_SLOT_CNT))
    (Runs.Answers (call slotSys) (Model.call MAP_SLOT_CNT)) [.insert 1 100, .get 1] (slotMap, ∅)
  := by
  rintro ⟨-, ⟨map, hget⟩, -⟩
  have hreply : (call slotSys (Runs.both (call slotSys) (Model.call MAP_SLOT_CNT) (slotMap, ∅)
      (.insert 1 100)).1 (.get 1)).map Prod.snd = some (.value (some 0)) := rfl
  rw [hget] at hreply
  simp [Runs.both, Model.call, MAP_SLOT_CNT] at hreply

end FdMap

end FdTmpl

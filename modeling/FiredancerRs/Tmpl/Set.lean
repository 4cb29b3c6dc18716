import FiredancerRs.Lib.Runs
import FiredancerRs.Tmpl.Container
import Mathlib.Data.Finset.Card
import Mathlib.Data.Finset.Insert

/-!
# The set

`FdSet` over the C template `fd_set`, which is the parameter `SetSys`: a set of bits below
`SET_MAX`. The functions of the template that change a set return its address, and `insert` takes it
for the index of the key. It compares it with that of the null set, which it gets by emptying the
set. So a set never holds a key (`insert_eq`), and the calls of a history answer as those of a
finite set exactly when none of them inserts or removes a key, or asks for one that is no bit
(`refines_finset_iff`).
-/

namespace FdTmpl

/-- The functions of the template, on the address of a set and its memory. There is no result where
the effect is not defined. -/
structure SetSys (μ : Type) extends TmplSys μ where
  insert : Nat → μ → UInt64 → Option (μ × Nat)
  null : Nat → μ → Option (μ × Nat)
  test : Nat → μ → UInt64 → Option Int
  remove : Nat → μ → UInt64 → Option (μ × Nat)
  cnt : Nat → μ → Nat

/-- `SET_MAX` -/
def SET_MAX : UInt64 := 256

/-- `FdSet` -/
abbrev FdSet (μ : Type) := Container μ

namespace FdSet

variable {μ : Type} (sys : SetSys μ) (set : FdSet μ)

/-- `insert` -/
def insert (key : UInt64) : Option (FdSet μ × Except TmplError Bool) := do
  let (mem, idx) ← sys.insert set.handle set.mem key
  let (mem, null) ← sys.null idx mem
  some ({ set with mem := mem }, .ok (idx ≠ null))

/-- `contains` -/
def contains (key : UInt64) : Option Bool := do
  let idx ← sys.test set.handle set.mem key
  some (idx ≠ 0)

/-- `remove` -/
def remove (key : UInt64) : Option (FdSet μ × Bool) := do
  let (mem, _) ← sys.remove set.handle set.mem key
  some ({ set with mem := mem }, true)

/-- `len` -/
def len : Nat := sys.cnt set.handle set.mem

/-- `is_empty` -/
def isEmpty : Bool := len sys set = 0

/-! ### Histories -/

/-- A call on a set. -/
inductive Call where
  | insert (key : UInt64)
  | contains (key : UInt64)
  | remove (key : UInt64)
  | len
  | isEmpty

/-- What a call returns. An insertion that is rejected returns no `Bool`. -/
inductive Reply where
  | inserted (result : Option Bool)
  | bool (result : Bool)
  | count (n : Nat)

/-- The set after a call, and what the call returns. There is neither where its effect is not
defined. -/
def call : FdSet μ → Call → Option (FdSet μ × Reply)
  | set, .insert key =>
    (insert sys set key).map fun (set, result) => (set, .inserted result.toOption)
  | set, .contains key => (contains sys set key).map fun result => (set, .bool result)
  | set, .remove key => (remove sys set key).map fun (set, result) => (set, .bool result)
  | set, .len => some (set, .count (len sys set))
  | set, .isEmpty => some (set, .bool (isEmpty sys set))

/-- The calls on a finite set of keys below `SET_MAX`. -/
def Model.call : Finset UInt64 → Call → Finset UInt64 × Reply
  | model, .insert key =>
    if key < SET_MAX then (Insert.insert key model, .inserted (some (key ∉ model)))
    else (model, .inserted none)
  | model, .contains key => (model, .bool (key ∈ model))
  | model, .remove key => (model.erase key, .bool (key ∈ model))
  | model, .len => (model, .count model.card)
  | model, .isEmpty => (model, .bool (model.card = 0))

/-- What is documented of the template, of which we know the bits of a set. A key that is no bit
must not be asked for. -/
structure Documented (bits : μ → Finset UInt64) : Prop where
  new : ∀ mem, bits (sys.new mem) = ∅
  insert : ∀ handle mem key, key < SET_MAX → ∃ mem', sys.insert handle mem key = some (mem', handle)
    ∧ bits mem' = Insert.insert key (bits mem)
  null : ∀ handle mem, ∃ mem', sys.null handle mem = some (mem', handle) ∧ bits mem' = ∅
  test : ∀ handle mem key, key < SET_MAX →
    sys.test handle mem key = some (if key ∈ bits mem then 1 else 0)
  test_outside : ∀ handle mem key, ¬ key < SET_MAX → sys.test handle mem key = none
  cnt : ∀ handle mem, sys.cnt handle mem = (bits mem).card

/-- A call that neither inserts nor removes a key, nor asks for one that is no bit. -/
def Call.Harmless : Call → Prop
  | .insert _ => False
  | .contains key => key < SET_MAX
  | .remove _ => False
  | .len => True
  | .isEmpty => True

/-- Neither the set nor the finite set has an element. -/
def BothEmpty (bits : μ → Finset UInt64) (p : FdSet μ × Finset UInt64) : Prop :=
  bits p.1.mem = ∅ ∧ p.2 = ∅

section Calls

variable {sys : SetSys μ} {bits : μ → Finset UInt64} {set set' : FdSet μ} {key : UInt64}

/-- No key is rejected. -/
theorem insert_ok {result : Except TmplError Bool} (h : insert sys set key = some (set', result)) :
  ∃ changed, result = .ok changed
  := by
  simp only [insert, Option.bind_eq_bind, Option.bind_eq_some_iff, Option.some.injEq,
    Prod.mk.injEq] at h
  obtain ⟨_, -, _, -, -, hresult⟩ := h
  exact ⟨_, hresult.symm⟩

theorem remove_true {result : Bool} (h : remove sys set key = some (set', result)) :
  result = true
  := by
  simp only [remove, Option.bind_eq_bind, Option.bind_eq_some_iff, Option.some.injEq,
    Prod.mk.injEq] at h
  obtain ⟨_, -, -, hresult⟩ := h
  exact hresult.symm

variable (hdoc : Documented sys bits)
include hdoc

/-- Inserting a key empties the set, and is said to change nothing. -/
theorem insert_eq (set : FdSet μ) (hkey : key < SET_MAX) :
  ∃ mem, insert sys set key = some ({ set with mem := mem }, .ok false) ∧ bits mem = ∅
  := by
  obtain ⟨mem, hinsert, -⟩ := hdoc.insert set.handle set.mem key hkey
  obtain ⟨mem', hnull, hbits⟩ := hdoc.null set.handle mem
  use mem'
  simp [insert, hinsert, hnull, hbits]

theorem contains_eq (set : FdSet μ) (hkey : key < SET_MAX) :
  contains sys set key = some (decide (key ∈ bits set.mem))
  := by
  rw [contains, hdoc.test set.handle set.mem key hkey]
  by_cases hmem : key ∈ bits set.mem <;> simp [hmem]

/-- A call on an empty set answers as that on an empty finite set exactly when it is harmless. -/
theorem answers_iff_harmless (hempty : bits set.mem = ∅) (c : Call) :
  Runs.Answers (call sys) Model.call (set, ∅) c ↔ c.Harmless
  := by
  cases c with
  | insert key =>
    by_cases hkey : key < SET_MAX
    · obtain ⟨mem, hinsert, -⟩ := insert_eq hdoc set hkey
      simp [Runs.Answers, call, Model.call, Call.Harmless, hinsert, hkey, Except.toOption]
    · apply iff_of_false _ id
      rintro ⟨set', hcall⟩
      obtain ⟨⟨_, result⟩, hinsert, hreply⟩ := Option.map_eq_some_iff.mp hcall
      obtain ⟨changed, rfl⟩ := insert_ok hinsert
      simp [Model.call, hkey, Except.toOption] at hreply
  | contains key =>
    by_cases hkey : key < SET_MAX
    · simp [Runs.Answers, call, Model.call, Call.Harmless, contains_eq hdoc set hkey, hempty, hkey]
    · have hnone : contains sys set key = none := by
        rw [contains, hdoc.test_outside set.handle set.mem key hkey]
        rfl
      simp [Runs.Answers, call, Call.Harmless, hnone, hkey]
  | remove key =>
    apply iff_of_false _ id
    rintro ⟨set', hcall⟩
    obtain ⟨⟨_, result⟩, hremove, hreply⟩ := Option.map_eq_some_iff.mp hcall
    obtain rfl := remove_true hremove
    simp [Model.call] at hreply
  | len =>
    simp [Runs.Answers, call, Model.call, Call.Harmless, len, hdoc.cnt, hempty]
  | isEmpty =>
    simp [Runs.Answers, call, Model.call, Call.Harmless, isEmpty, len, hdoc.cnt, hempty]

/-- A call that answers as that on an empty finite set changes neither set. -/
theorem keeps_empty (hempty : bits set.mem = ∅) {c : Call}
    (h : call sys set c = some (set', (Model.call ∅ c).2)) :
  bits set'.mem = ∅ ∧ (Model.call ∅ c).1 = ∅
  := by
  have hharmless : c.Harmless := (answers_iff_harmless hdoc hempty c).mp ⟨set', h⟩
  cases c with
  | insert key => cases hharmless
  | contains key =>
    obtain ⟨_, -, hreply⟩ := Option.map_eq_some_iff.mp h
    obtain ⟨rfl, -⟩ := Prod.mk.inj hreply
    exact ⟨hempty, rfl⟩
  | remove key => cases hharmless
  | len | isEmpty =>
    obtain ⟨rfl, -⟩ := Prod.mk.inj (Option.some.inj h)
    exact ⟨hempty, rfl⟩

end Calls

/-- The calls of a history answer as those on a finite set exactly when each is harmless. -/
theorem refines_finset_iff {sys : SetSys μ} {bits : μ → Finset UInt64} (hdoc : Documented sys bits)
    {set : FdSet μ} (hnew : Container.new sys.toTmplSys = .ok set) (calls : List Call) :
  Runs.Along (Runs.both (call sys) Model.call) (Runs.Answers (call sys) Model.call) calls (set, ∅)
    ↔ ∀ c ∈ calls, c.Harmless
  := by
  have hstart : BothEmpty bits (set, ∅) := by
    obtain ⟨-, mem, hmem, -⟩ := Container.new_eq_ok hnew
    constructor
    · rw [hmem]
      apply hdoc.new
    · rfl
  apply Iff.trans (Runs.answers_iff _ _ hstart) Runs.along_const
  · rintro ⟨set, model⟩ c ⟨hempty, rfl⟩
    apply answers_iff_harmless hdoc hempty
  · rintro ⟨set, model⟩ c set' ⟨hempty, rfl⟩ h
    apply keeps_empty hdoc hempty h

/-! ### A template -/

/-- Sets of bits. -/
def bitSys : SetSys (Finset UInt64) where
  footprint := 32
  align := 8
  alloc _ := some ∅
  new _ := ∅
  join _ := 0x1000
  leave mem := mem
  delete mem := mem
  insert handle mem key := if key < SET_MAX then some (Insert.insert key mem, handle) else none
  null handle _ := some (∅, handle)
  test _ mem key := if key < SET_MAX then some (if key ∈ mem then 1 else 0) else none
  remove handle mem key := if key < SET_MAX then some (mem.erase key, handle) else none
  cnt _ mem := mem.card

theorem bitSys_documented :
  Documented bitSys fun mem => mem
  where
  new _ := rfl
  insert _ _ _ hkey := ⟨_, if_pos hkey, rfl⟩
  null _ _ := ⟨_, rfl, rfl⟩
  test _ _ _ hkey := if_pos hkey
  test_outside _ _ _ hkey := if_neg hkey
  cnt _ _ := rfl

/-- A new set. -/
def bitSet : FdSet (Finset UInt64) where
  handle := 0x1000
  mem := ∅

theorem bitSet_new :
  Container.new bitSys.toTmplSys = .ok bitSet
  := rfl

theorem refines_finset_iff_queries :
  Runs.Along (Runs.both (call bitSys) Model.call) (Runs.Answers (call bitSys) Model.call)
    [.isEmpty, .contains 1, .len, .contains 255] (bitSet, ∅)
  := by
  apply (refines_finset_iff bitSys_documented bitSet_new _).mpr
  simp [Call.Harmless, SET_MAX]

/-- A key that is inserted is not contained. -/
theorem not_refines_finset :
  ¬ Runs.Along (Runs.both (call bitSys) Model.call) (Runs.Answers (call bitSys) Model.call)
    [.insert 1, .contains 1] (bitSet, ∅)
  := by
  rintro ⟨-, ⟨set, hcontains⟩, -⟩
  have hreply : (call bitSys (Runs.both (call bitSys) Model.call (bitSet, ∅) (.insert 1)).1
      (.contains 1)).map Prod.snd = some (.bool false) := rfl
  rw [hcontains] at hreply
  simp [Runs.both, Model.call, SET_MAX] at hreply

end FdSet

end FdTmpl

import FiredancerRs.Lib.Pile
import FiredancerRs.Lib.Runs
import FiredancerRs.Tmpl.Container

/-!
# The vector

`FdVec` over the C template `fd_vec`, which is the parameter `VecSys`. A push takes one more slot
into use and does not write it, so the value that is pushed is lost, and `get` reads what the slot
held before. A pop returns the address of the vector, where the first value is. The calls of a
history answer as those on a list exactly when the memory happens to hold what they return, and
nothing is pushed on a full vector (`refines_list_iff`).
-/

namespace FdTmpl

/-- The functions of the template, those on the address of a vector and its memory, and the accesses
to memory at an index from an address. There is no result where the effect is not defined. -/
structure VecSys (μ : Type) where
  tmpl : UInt64 → TmplSys μ
  expand : Nat → μ → UInt64 → Option (μ × Nat)
  removeIdx : Nat → μ → UInt64 → Option (μ × Nat)
  isEmpty : Nat → μ → Int
  isFull : Nat → μ → Int
  cnt : Nat → μ → UInt64
  load : Nat → μ → Nat → UInt64
  store : Nat → μ → Nat → UInt64 → μ

/-- `FdVec` -/
structure FdVec (μ : Type) extends Container μ where
  maxElements : UInt64

namespace FdVec

variable {μ : Type} (sys : VecSys μ) (vec : FdVec μ)

/-- `FdVec::new` -/
def new (maxElements : UInt64) : Except TmplError (FdVec μ) :=
  (Container.new (sys.tmpl maxElements)).map fun c => { c with maxElements := maxElements }

/-- `push`, which does not use the value -/
def push (_ : UInt64) : Option (FdVec μ × Except TmplError Unit) := do
  let (mem, result) ← sys.expand vec.handle vec.mem 1
  some ({ vec with mem := mem }, if result = 0 then .error .containerFull else .ok ())

/-- `len` -/
def len : UInt64 := sys.cnt vec.handle vec.mem

/-- `pop`, which returns an address -/
def pop : Option (FdVec μ × Option Nat) :=
  if sys.isEmpty vec.handle vec.mem ≠ 0 then
    some (vec, none)
  else do
    let (mem, ptr) ← sys.removeIdx vec.handle vec.mem (len sys vec - 1)
    some ({ vec with mem := mem }, some ptr)

/-- `get` -/
def get (index : UInt64) : Option UInt64 :=
  let len := sys.cnt vec.handle vec.mem
  if len ≤ index then none else some (sys.load vec.handle vec.mem index.toNat)

/-- `set` -/
def set (index value : UInt64) : FdVec μ × Except TmplError Unit :=
  let len := sys.cnt vec.handle vec.mem
  if len ≤ index then
    (vec, .error (.invalidInput "Index out of bounds"))
  else
    ({ vec with mem := sys.store vec.handle vec.mem index.toNat value }, .ok ())

/-- `is_empty` -/
def isEmpty : Bool := sys.isEmpty vec.handle vec.mem ≠ 0

/-- `is_full` -/
def isFull : Bool := sys.isFull vec.handle vec.mem ≠ 0

/-- `capacity` -/
def capacity : UInt64 := vec.maxElements

/-! ### Histories -/

/-- A call on a vector. -/
inductive Call where
  | push (value : UInt64)
  | pop
  | get (index : UInt64)
  | set (index value : UInt64)
  | len
  | isEmpty
  | isFull
  | capacity

/-- What a call returns, with the value at an address that is returned. -/
inductive Reply where
  | done (result : Except TmplError Unit)
  | value (value : Option UInt64)
  | count (n : Nat)
  | bool (result : Bool)

/-- The vector after a call, and what the call returns. -/
def call (vec : FdVec μ) : Call → Option (FdVec μ × Reply)
  | .push value => (push sys vec value).map fun (vec, result) => (vec, .done result)
  | .pop => (pop sys vec).map fun (vec, ptr) =>
    (vec, .value (ptr.map fun ptr => sys.load ptr vec.mem 0))
  | .get index => some (vec, .value (get sys vec index))
  | .set index value => some ((set sys vec index value).1, .done (set sys vec index value).2)
  | .len => some (vec, .count (len sys vec).toNat)
  | .isEmpty => some (vec, .bool (isEmpty sys vec))
  | .isFull => some (vec, .bool (isFull sys vec))
  | .capacity => some (vec, .count (capacity vec).toNat)

/-- The calls on a list of at most `max` values. -/
def Model.call (max : Nat) (values : List UInt64) : Call → List UInt64 × Reply
  | .push value =>
    if values.length < max then (values ++ [value], .done (.ok ()))
    else (values, .done (.error .containerFull))
  | .pop => (values.dropLast, .value values.getLast?)
  | .get index => (values, .value values[index.toNat]?)
  | .set index value =>
    if index.toNat < values.length then (values.set index.toNat value, .done (.ok ()))
    else (values, .done (.error (.invalidInput "Index out of bounds")))
  | .len => (values, .count values.length)
  | .isEmpty => (values, .bool (values.length = 0))
  | .isFull => (values, .bool (values.length = max))
  | .capacity => (values, .count max)

/-- The values of a list, and the memory of a vector: what it held in the beginning, except where a
value has been set. -/
structure History where
  values : List UInt64
  memory : Nat → UInt64

/-- The memory after a call. -/
def History.store (h : History) : Call → Nat → UInt64
  | .set index value =>
    if index.toNat < h.values.length then Function.update h.memory index.toNat value else h.memory
  | _ => h.memory

/-- The history after a call, and what a list of at most `max` values replies. -/
def History.call (max : Nat) (h : History) (c : Call) : History × Reply :=
  let (values, reply) := Model.call max h.values c
  ({ values := values, memory := h.store c }, reply)

/-- What is documented of the template, of which we know the slots of a vector for `max` elements.
The functions that change a vector return it. There must be room for a slot that is taken into use,
and a slot that is given up must be in use. -/
structure Documented (max : UInt64) (pile : μ → Pile UInt64 max.toNat) : Prop where
  new : ∀ mem, (pile ((sys.tmpl max).new mem)).count = 0
  expand_returns : ∀ handle mem delta mem' result,
    sys.expand handle mem delta = some (mem', result) → result = handle
  expand : ∀ handle mem (h : (pile mem).count < max.toNat), ∃ mem',
    sys.expand handle mem 1 = some (mem', handle) ∧ pile mem' = (pile mem).extend h
  removeIdx : ∀ handle mem i, i.toNat < (pile mem).count → ∃ mem',
    sys.removeIdx handle mem i = some (mem', handle) ∧ pile mem' = (pile mem).remove i.toNat
  isEmpty : ∀ handle mem, sys.isEmpty handle mem ≠ 0 ↔ (pile mem).count = 0
  isFull : ∀ handle mem, sys.isFull handle mem ≠ 0 ↔ (pile mem).count = max.toNat
  cnt : ∀ handle mem, (sys.cnt handle mem).toNat = (pile mem).count
  load : ∀ handle mem i, i < max.toNat → sys.load handle mem i = (pile mem).slots i
  store : ∀ handle mem i value, i < max.toNat →
    pile (sys.store handle mem i value) = (pile mem).write i value

/-- Nothing is pushed on a full vector; a value is read only where the memory holds it; and a value
is popped only when the memory holds it in the first place. -/
def Unaffected (max : Nat) (p : FdVec μ × History) : Call → Prop
  | .push _ => p.2.values.length < max
  | .pop => p.2.values ≠ [] → p.2.values.getLast? = some (p.2.memory 0)
  | .get index => index.toNat < p.2.values.length →
    p.2.values[index.toNat]? = some (p.2.memory index.toNat)
  | _ => True

/-- The vector has been joined for `max` elements, has as many as the list, and has the memory. -/
structure Holds (max : UInt64) (pile : μ → Pile UInt64 max.toNat) (p : FdVec μ × History) :
    Prop where
  handle : p.1.handle ≠ 0
  capacity : p.1.maxElements = max
  count : (pile p.1.mem).count = p.2.values.length
  memory : (pile p.1.mem).slots = p.2.memory

section Calls

variable {sys : VecSys μ} {max : UInt64} {pile : μ → Pile UInt64 max.toNat} {vec vec' : FdVec μ}
  {hist : History} {index value : UInt64}

theorem push_of_eq_some {mem : μ} (hhandle : vec.handle ≠ 0)
    (h : sys.expand vec.handle vec.mem 1 = some (mem, vec.handle)) :
  push sys vec value = some ({ vec with mem := mem }, .ok ())
  := by
  rw [push, h]
  simp [hhandle]

/-- A vector without room is not said to be full. -/
theorem push_ne_full (hdoc : Documented sys max pile) (hhandle : vec.handle ≠ 0) :
  push sys vec value ≠ some (vec', .error .containerFull)
  := by
  rw [push]
  apply bind_ne_full (hdoc.expand_returns vec.handle vec.mem 1)
  intro mem
  use { vec with mem := mem }
  simp [hhandle]

variable (h : Holds max pile (vec, hist)) (hdoc : Documented sys max pile)
include h hdoc

theorem Holds.len_eq :
  (sys.cnt vec.handle vec.mem).toNat = hist.values.length
  := (hdoc.cnt vec.handle vec.mem).trans h.count

/-- An index of a value is below the length. -/
theorem Holds.not_len_le (hlt : index.toNat < hist.values.length) :
  ¬ sys.cnt vec.handle vec.mem ≤ index
  := by
  rw [UInt64.le_iff_toNat_le, h.len_eq hdoc]
  apply Nat.not_le.mpr hlt

theorem Holds.len_le (hlt : ¬ index.toNat < hist.values.length) :
  sys.cnt vec.handle vec.mem ≤ index
  := by
  rw [UInt64.le_iff_toNat_le, h.len_eq hdoc]
  apply Nat.not_lt.mp hlt

/-- What is read is what the memory holds. -/
theorem Holds.get_eq :
  get sys vec index
    = if index.toNat < hist.values.length then some (hist.memory index.toNat) else none
  := by
  have hcount : (pile vec.mem).count = hist.values.length := h.count
  have hle := (pile vec.mem).count_le
  by_cases hlt : index.toNat < hist.values.length
  · rw [if_pos hlt, get, if_neg (h.not_len_le hdoc hlt), hdoc.load _ _ _ (by omega), h.memory]
  · rw [if_neg hlt, get, if_pos (h.len_le hdoc hlt)]

theorem Holds.pop_of_nil (hnil : hist.values = []) :
  pop sys vec = some (vec, none)
  := by
  apply if_pos
  rw [hdoc.isEmpty, h.count, hnil]
  rfl

/-- A pop gives up the last slot, and what it returns is the address of the first one. -/
theorem Holds.pop_of_ne_nil (hne : hist.values ≠ []) :
  ∃ mem, pop sys vec = some ({ vec with mem := mem }, some vec.handle)
    ∧ pile mem = (pile vec.mem).pop ∧ sys.load vec.handle mem 0 = hist.memory 0
  := by
  have hcount : (pile vec.mem).count = hist.values.length := h.count
  have hle := (pile vec.mem).count_le
  have hpos : 0 < hist.values.length := List.length_pos_iff.mpr hne
  have hempty : ¬ sys.isEmpty vec.handle vec.mem ≠ 0 := by
    rw [hdoc.isEmpty, hcount]
    omega
  have hone : 1 ≤ sys.cnt vec.handle vec.mem := by
    rw [UInt64.le_iff_toNat_le, h.len_eq hdoc]
    exact hpos
  have hlast : (len sys vec - 1).toNat = (pile vec.mem).count - 1 := by
    rw [len, UInt64.toNat_sub_of_le _ _ hone, hdoc.cnt]
    rfl
  obtain ⟨mem, hremove, hmem⟩ := hdoc.removeIdx vec.handle vec.mem (len sys vec - 1)
    (by rw [hlast]; omega)
  rw [hlast, Pile.remove_last] at hmem
  use mem
  refine ⟨?_, hmem, ?_⟩
  · rw [pop, if_neg hempty, hremove]
    rfl
  · rw [hdoc.load _ _ _ (by omega), hmem, ← h.memory]
    rfl

/-- A call that is not affected is answered as that on the history. -/
theorem Holds.step (c : Call) (hc : Unaffected max.toNat (vec, hist) c) :
  ∃ vec', call sys vec c = some (vec', (hist.call max.toNat c).2)
    ∧ Holds max pile (vec', (hist.call max.toNat c).1)
  := by
  have hcount : (pile vec.mem).count = hist.values.length := h.count
  have hle := (pile vec.mem).count_le
  cases c with
  | push value =>
    have hroom : hist.values.length < max.toNat := hc
    obtain ⟨mem, hexpand, hmem⟩ := hdoc.expand vec.handle vec.mem (hcount ▸ hroom)
    rw [History.call, Model.call, if_pos hroom, call, push_of_eq_some h.handle hexpand]
    refine ⟨_, rfl, h.handle, h.capacity, ?_, ?_⟩
    · rw [hmem]
      change (pile vec.mem).count + 1 = (hist.values ++ [value]).length
      rw [hcount, List.length_append, List.length_singleton]
    · rw [hmem]
      exact h.memory
  | pop =>
    by_cases hnil : hist.values = []
    · have hmodel : hist.call max.toNat .pop = (hist, .value none) := by
        obtain ⟨values, memory⟩ := hist
        obtain rfl : values = [] := hnil
        rfl
      rw [hmodel, call, h.pop_of_nil hdoc hnil]
      exact ⟨vec, rfl, h⟩
    · obtain ⟨mem, hpop, hmem, hload⟩ := h.pop_of_ne_nil hdoc hnil
      have hlast : hist.values.getLast? = some (hist.memory 0) := hc hnil
      rw [History.call, Model.call, call, hpop, hlast, ← hload]
      refine ⟨_, rfl, h.handle, h.capacity, ?_, ?_⟩
      · rw [hmem]
        change (pile vec.mem).count - 1 = hist.values.dropLast.length
        rw [hcount, List.length_dropLast]
      · rw [hmem]
        exact h.memory
  | get index =>
    have hget : get sys vec index = hist.values[index.toNat]? := by
      rw [h.get_eq hdoc]
      split
      · next hlt => exact (hc hlt).symm
      · next hlt => rw [List.getElem?_eq_none (Nat.not_lt.mp hlt)]
    use vec
    rw [call, hget]
    exact ⟨rfl, h⟩
  | set index value =>
    by_cases hlt : index.toNat < hist.values.length
    · have hset : set sys vec index value
          = ({ vec with mem := sys.store vec.handle vec.mem index.toNat value }, .ok ()) :=
        if_neg (h.not_len_le hdoc hlt)
      have hmem := hdoc.store vec.handle vec.mem index.toNat value (by omega)
      rw [History.call, Model.call, History.store, if_pos hlt, if_pos hlt, call, hset]
      refine ⟨_, rfl, h.handle, h.capacity, ?_, ?_⟩
      · rw [hmem]
        exact hcount.trans (List.length_set ..).symm
      · rw [hmem]
        exact congrArg (Function.update · index.toNat value) h.memory
    · have hset : set sys vec index value
          = (vec, .error (.invalidInput "Index out of bounds")) := if_pos (h.len_le hdoc hlt)
      rw [History.call, Model.call, History.store, if_neg hlt, if_neg hlt, call, hset]
      exact ⟨vec, rfl, h⟩
  | len =>
    use vec
    rw [call, len, h.len_eq hdoc]
    exact ⟨rfl, h⟩
  | isEmpty =>
    have hempty : isEmpty sys vec = decide (hist.values.length = 0) := by
      rw [isEmpty, decide_eq_decide, hdoc.isEmpty, hcount]
    use vec
    rw [call, hempty]
    exact ⟨rfl, h⟩
  | isFull =>
    have hfull : isFull sys vec = decide (hist.values.length = max.toNat) := by
      rw [isFull, decide_eq_decide, hdoc.isFull, hcount]
    use vec
    rw [call, hfull]
    exact ⟨rfl, h⟩
  | capacity =>
    have hcapacity : vec.maxElements = max := h.capacity
    use vec
    rw [call, FdVec.capacity, hcapacity]
    exact ⟨rfl, h⟩

/-- An affected call is answered in another way. -/
theorem Holds.not_answers (c : Call) (hc : ¬ Unaffected max.toNat (vec, hist) c) :
  ¬ Runs.Answers (call sys) (History.call max.toNat) (vec, hist) c
  := by
  rintro ⟨vec', hanswer⟩
  cases c with
  | push value =>
    have hfull : ¬ hist.values.length < max.toNat := hc
    rw [History.call, Model.call, if_neg hfull] at hanswer
    obtain ⟨⟨vec'', result⟩, hpush, hreply⟩ := Option.map_eq_some_iff.mp hanswer
    obtain ⟨-, hresult⟩ := Prod.mk.inj hreply
    obtain rfl := Reply.done.inj hresult
    exact push_ne_full hdoc h.handle hpush
  | pop =>
    apply hc
    intro hne
    obtain ⟨mem, hpop, -, hload⟩ := h.pop_of_ne_nil hdoc hne
    rw [call, hpop] at hanswer
    obtain ⟨-, hreply⟩ := Prod.mk.inj (Option.some.inj hanswer)
    have hlast : some (sys.load vec.handle mem 0) = hist.values.getLast? := Reply.value.inj hreply
    exact hlast.symm.trans (congrArg some hload)
  | get index =>
    apply hc
    intro hlt
    obtain ⟨-, hreply⟩ := Prod.mk.inj (Option.some.inj hanswer)
    have hget : get sys vec index = hist.values[index.toNat]? := Reply.value.inj hreply
    rw [← hget, h.get_eq hdoc, if_pos hlt]
  | _ => exact hc trivial

end Calls

/-- The history in which nothing has been done with a vector. -/
def History.start (max : UInt64) (pile : μ → Pile UInt64 max.toNat) (vec : FdVec μ) : History where
  values := []
  memory := (pile vec.mem).slots

/-- The calls of a history of a new vector answer as those on a list exactly when none is
affected. -/
theorem refines_list_iff {sys : VecSys μ} {max : UInt64} {pile : μ → Pile UInt64 max.toNat}
    (hdoc : Documented sys max pile) {vec : FdVec μ} (hnew : new sys max = .ok vec)
    (calls : List Call) :
  Runs.Along (Runs.both (call sys) (History.call max.toNat))
      (Runs.Answers (call sys) (History.call max.toNat)) calls (vec, .start max pile vec)
    ↔ Runs.Along (Runs.both (call sys) (History.call max.toNat)) (Unaffected max.toNat) calls
      (vec, .start max pile vec)
  := by
  have hstart : Holds max pile (vec, .start max pile vec) := by
    obtain ⟨c, hcontainer, rfl⟩ := Except.map_eq_ok_iff.mp hnew
    obtain ⟨-, mem, hmem, -, hhandle⟩ := Container.new_eq_ok hcontainer
    refine ⟨hhandle, rfl, ?_, rfl⟩
    change (pile c.mem).count = 0
    rw [hmem, hdoc.new]
  apply Runs.answers_iff_of_step _ _ hstart
  · intro p c hp hc
    apply hp.step hdoc c hc
  · intro p c hp hc
    apply hp.not_answers hdoc c hc

/-! ### A template -/

/-- Slots that are used from the first one upwards, for a hundred elements. -/
def pileSys : VecSys (Pile UInt64 100) where
  tmpl _ :=
    { footprint := 816
      align := 8
      alloc := fun _ => some ⟨fun _ => 0, 0, Nat.zero_le 100⟩
      new := fun mem => ⟨mem.slots, 0, Nat.zero_le 100⟩
      join := fun _ => 0x1000
      leave := id
      delete := id }
  expand handle mem _ := if h : mem.count < 100 then some (mem.extend h, handle) else none
  removeIdx handle mem i := some (mem.remove i.toNat, handle)
  isEmpty _ mem := if mem.count = 0 then 1 else 0
  isFull _ mem := if mem.count = 100 then 1 else 0
  cnt _ mem := UInt64.ofNat mem.count
  load _ mem i := mem.slots i
  store _ mem i value := mem.write i value

theorem pileSys_documented :
  Documented pileSys 100 fun mem => mem
  where
    new _ := rfl
    expand_returns handle mem delta mem' result h := by
      simp only [pileSys] at h
      split at h
      · exact (Prod.mk.inj (Option.some.inj h)).2.symm
      · cases h
    expand handle mem h := ⟨_, dif_pos h, rfl⟩
    removeIdx _ _ _ _ := ⟨_, rfl, rfl⟩
    isEmpty handle mem := by simp [pileSys]
    isFull handle mem := by simp [pileSys]
    cnt handle mem := UInt64.toNat_ofNat_of_lt' (Nat.lt_of_le_of_lt mem.count_le (by decide))
    load _ _ _ _ := rfl
    store _ _ _ _ _ := rfl

/-- A new vector for a hundred elements. -/
def pileVec : FdVec (Pile UInt64 100) where
  handle := 0x1000
  mem := ⟨fun _ => 0, 0, Nat.zero_le 100⟩
  maxElements := 100

theorem pileVec_new :
  new pileSys 100 = .ok pileVec
  := rfl

/-- A value is pushed, set and read. -/
theorem refines_list_iff_set :
  Runs.Along (Runs.both (call pileSys) (History.call 100))
    (Runs.Answers (call pileSys) (History.call 100)) [.push 7, .set 0 9, .get 0]
    (pileVec, .start 100 (fun mem => mem) pileVec)
  := by
  apply (refines_list_iff pileSys_documented pileVec_new [.push 7, .set 0 9, .get 0]).mpr
  exact ⟨(by decide : 0 < 100), trivial, fun _ => rfl, trivial⟩

/-- A value that is pushed is not found. -/
theorem not_refines_list :
  ¬ Runs.Along (Runs.both (call pileSys) (History.call 100))
    (Runs.Answers (call pileSys) (History.call 100)) [.push 7, .get 0]
    (pileVec, .start 100 (fun mem => mem) pileVec)
  := by
  rintro ⟨-, ⟨vec, hget⟩, -⟩
  obtain ⟨-, hreply⟩ := Prod.mk.inj (Option.some.inj hget)
  have hvalue : (some 0 : Option UInt64) = some 7 := Reply.value.inj hreply
  exact absurd hvalue (by decide)

end FdVec

end FdTmpl

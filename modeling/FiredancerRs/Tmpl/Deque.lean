import FiredancerRs.Lib.Ledger
import FiredancerRs.Lib.Slots
import FiredancerRs.Lib.Utf8
import FiredancerRs.Tmpl.Bounded

/-!
# The deque of strings

`CStrDeque` over the C template `fd_deque`, which is the parameter `DequeSys`: its elements are the
addresses of C strings. A string that is pushed is owned by the deque, which no function releases:
not those that pop it, and not the end of the deque. Beyond that a history of a deque goes wrong
where those of a stack and of a queue do (`bounded_iff`).
-/

namespace FdTmpl

open Ledger (Entry)

/-- The functions of the template, on the address of a deque and its memory. An address that is
popped may be null. There is no result where the effect is not defined. -/
structure DequeSys (μ : Type) extends TmplSys μ where
  pushHead : Nat → μ → Nat → Option (μ × Nat)
  pushTail : Nat → μ → Nat → Option (μ × Nat)
  popHead : Nat → μ → Option (μ × Option Nat)
  popTail : Nat → μ → Option (μ × Option Nat)
  empty : Nat → μ → Int
  full : Nat → μ → Int
  cnt : Nat → μ → UInt64

/-- `DEQUE_MAX` -/
def DEQUE_MAX : Nat := 64

/-- `CStrDeque`, with the C strings of the process, and with those that the deque has come to own
and that have been released. -/
structure CStrDeque (μ : Type) extends Container μ where
  strings : Slots (List UInt8)
  ledger : List (Entry Nat)

namespace CStrDeque

variable {μ : Type} (sys : DequeSys μ) (deque : CStrDeque μ)

/-- `push_head` and `push_tail`, which differ in the function of the template. A string that is not
pushed is released, and one that is pushed is forgotten. -/
def push (cPush : Nat → μ → Nat → Option (μ × Nat)) (value : String) :
    Option (CStrDeque μ × Except TmplError Unit) :=
  if 0 ∈ Utf8.bytes value then
    some (deque, .error (.invalidInput "String contains null byte"))
  else do
    let cStr := deque.strings.next
    let strings := deque.strings.take (Utf8.bytes value)
    let (mem, result) ← cPush deque.handle deque.mem cStr
    if result = 0 then
      some ({ deque with mem := mem, strings := strings.give cStr }, .error .containerFull)
    else
      some
        ({ deque with mem := mem, strings := strings, ledger := deque.ledger ++ [.acquire cStr] },
          .ok ())

/-- `push_head` -/
def pushHead : String → Option (CStrDeque μ × Except TmplError Unit) := push deque sys.pushHead

/-- `push_tail` -/
def pushTail : String → Option (CStrDeque μ × Except TmplError Unit) := push deque sys.pushTail

/-- `pop_head` and `pop_tail`, which differ in the function of the template. The string is
copied. -/
def pop (cPop : Nat → μ → Option (μ × Option Nat)) : Option (CStrDeque μ × Option String) :=
  if sys.empty deque.handle deque.mem ≠ 0 then
    some (deque, none)
  else do
    let (mem, cStr) ← cPop deque.handle deque.mem
    match cStr with
    | none => some ({ deque with mem := mem }, none)
    | some cStr =>
      let bytes ← deque.strings.cells cStr
      some ({ deque with mem := mem }, some (Utf8.decodeLossy bytes))

/-- `pop_head` -/
def popHead : Option (CStrDeque μ × Option String) := pop sys deque sys.popHead

/-- `pop_tail` -/
def popTail : Option (CStrDeque μ × Option String) := pop sys deque sys.popTail

/-- `len` -/
def len : Nat := (sys.cnt deque.handle deque.mem).toNat

/-- `is_empty` -/
def isEmpty : Bool := sys.empty deque.handle deque.mem ≠ 0

/-- `is_full` -/
def isFull : Bool := sys.full deque.handle deque.mem ≠ 0

/-- `CStrDeque::drop` -/
def drop : CStrDeque μ := { deque with mem := sys.delete (sys.leave deque.mem) }

/-- `CStrDeque::new` -/
def new (strings : Slots (List UInt8)) : Except TmplError (CStrDeque μ) :=
  (Container.new sys.toTmplSys).map fun c => { c with strings := strings, ledger := [] }

/-! ### Histories -/

/-- A call on a deque. -/
inductive Call where
  | pushHead (value : String)
  | pushTail (value : String)
  | popHead
  | popTail
  | len
  | isEmpty
  | isFull

/-- What a call returns. -/
inductive Reply where
  | pushed (result : Except TmplError Unit)
  | text (value : Option String)
  | count (n : Nat)
  | bool (result : Bool)

/-- The deque after a call, and what the call returns. -/
def call (deque : CStrDeque μ) : Call → Option (CStrDeque μ × Reply)
  | .pushHead value => (pushHead sys deque value).map fun (deque, result) => (deque, .pushed result)
  | .pushTail value => (pushTail sys deque value).map fun (deque, result) => (deque, .pushed result)
  | .popHead => (popHead sys deque).map fun (deque, value) => (deque, .text value)
  | .popTail => (popTail sys deque).map fun (deque, value) => (deque, .text value)
  | .len => some (deque, .count (len sys deque))
  | .isEmpty => some (deque, .bool (isEmpty sys deque))
  | .isFull => some (deque, .bool (isFull sys deque))

/-- A push on a list of at most `DEQUE_MAX` C strings, given the list with the new one. -/
def Model.push (model : List String) (value : String) (pushed : List String) :
    List String × Reply :=
  if 0 ∈ Utf8.bytes value then
    (model, .pushed (.error (.invalidInput "String contains null byte")))
  else if model.length < DEQUE_MAX then
    (pushed, .pushed (.ok ()))
  else
    (model, .pushed (.error .containerFull))

/-- The calls on a list of at most `DEQUE_MAX` C strings. -/
def Model.call (model : List String) : Call → List String × Reply
  | .pushHead value => Model.push model value (value :: model)
  | .pushTail value => Model.push model value (model ++ [value])
  | .popHead => (model.tail, .text model.head?)
  | .popTail => (model.dropLast, .text model.getLast?)
  | .len => (model, .count model.length)
  | .isEmpty => (model, .bool (model.length = 0))
  | .isFull => (model, .bool (model.length = DEQUE_MAX))

/-- What is documented of the template, of which we know the addresses in a deque. What is returned
for a push is the deque that is given. There must be room for an address that is pushed, and one
that is popped. -/
structure Documented (items : μ → List Nat) : Prop where
  new : ∀ mem, items (sys.new mem) = []
  pushHead_returns : ∀ handle mem ptr mem' result,
    sys.pushHead handle mem ptr = some (mem', result) → result = handle
  pushTail_returns : ∀ handle mem ptr mem' result,
    sys.pushTail handle mem ptr = some (mem', result) → result = handle
  pushHead_room : ∀ handle mem ptr, (items mem).length < DEQUE_MAX → ∃ mem',
    sys.pushHead handle mem ptr = some (mem', handle) ∧ items mem' = ptr :: items mem
  pushTail_room : ∀ handle mem ptr, (items mem).length < DEQUE_MAX → ∃ mem',
    sys.pushTail handle mem ptr = some (mem', handle) ∧ items mem' = items mem ++ [ptr]
  popHead : ∀ handle mem ptr rest, items mem = ptr :: rest → ∃ mem',
    sys.popHead handle mem = some (mem', some ptr) ∧ items mem' = rest
  popTail : ∀ handle mem ptr rest, items mem = rest ++ [ptr] → ∃ mem',
    sys.popTail handle mem = some (mem', some ptr) ∧ items mem' = rest
  empty : ∀ handle mem, sys.empty handle mem ≠ 0 ↔ (items mem).length = 0
  full : ∀ handle mem, sys.full handle mem ≠ 0 ↔ (items mem).length = DEQUE_MAX
  cnt : ∀ handle mem, (sys.cnt handle mem).toNat = (items mem).length

/-- The call pushes a string that can be one of C. -/
def Call.Owns : Call → Prop
  | .pushHead value => 0 ∉ Utf8.bytes value
  | .pushTail value => 0 ∉ Utf8.bytes value
  | _ => False

/-- The call does not push a C string on a full deque. -/
def HasRoom (p : CStrDeque μ × List String) (c : Call) : Prop := c.Owns → p.2.length < DEQUE_MAX

instance : DecidablePred Call.Owns
  | .pushHead value | .pushTail value => inferInstanceAs (Decidable (0 ∉ Utf8.bytes value))
  | .popHead | .popTail | .len | .isEmpty | .isFull => isFalse id

instance (p : CStrDeque μ × List String) (c : Call) : Decidable (HasRoom p c) :=
  inferInstanceAs (Decidable (c.Owns → p.2.length < DEQUE_MAX))

/-- The deque has been joined, and its addresses are those of the strings of the list. -/
structure Holds (items : μ → List Nat) (p : CStrDeque μ × List String) : Prop where
  handle : p.1.handle ≠ 0
  strings : (items p.1.mem).map p.1.strings.cells = p.2.map fun s => some (Utf8.bytes s)

section Calls

variable {sys : DequeSys μ} {items : μ → List Nat} {deque deque' : CStrDeque μ}
  {model : List String}
  {value : String} {mem : μ} {cPush : Nat → μ → Nat → Option (μ × Nat)}
  {cPop : Nat → μ → Option (μ × Option Nat)}

/-- A push that the template makes is said to have room. -/
theorem push_of_eq_some (hvalue : 0 ∉ Utf8.bytes value) (hhandle : deque.handle ≠ 0)
    (h : cPush deque.handle deque.mem deque.strings.next = some (mem, deque.handle)) :
  push deque cPush value = some
    ({ deque with
        mem := mem
        strings := deque.strings.take (Utf8.bytes value)
        ledger := deque.ledger ++ [.acquire deque.strings.next] }, .ok ())
  := by
  rw [push, if_neg hvalue]
  simp [h, hhandle]

/-- A deque without room is not said to be full. -/
theorem push_ne_full (hhandle : deque.handle ≠ 0)
    (hreturns : ∀ mem' result,
      cPush deque.handle deque.mem deque.strings.next = some (mem', result) →
        result = deque.handle) :
  push deque cPush value ≠ some (deque', .error .containerFull)
  := by
  rw [push]
  split
  · intro h
    cases h
  · apply bind_ne_full hreturns
    intro mem
    simp [hhandle]

theorem pop_of_empty (hempty : sys.empty deque.handle deque.mem ≠ 0) :
  pop sys deque cPop = some (deque, none)
  := if_pos hempty

/-- A string that is popped is the one that was pushed. -/
theorem pop_of_eq_some {ptr : Nat} (hempty : ¬ sys.empty deque.handle deque.mem ≠ 0)
    (h : cPop deque.handle deque.mem = some (mem, some ptr))
    (hstring : deque.strings.cells ptr = some (Utf8.bytes value)) :
  pop sys deque cPop = some ({ deque with mem := mem }, some value)
  := by
  rw [pop, if_neg hempty]
  simp [h, hstring, Utf8.decodeLossy]

section Holds

variable (h : Holds items (deque, model))
include h

theorem Holds.length_items :
  (items deque.mem).length = model.length
  := by
  have hlength := congrArg List.length h.strings
  rwa [List.length_map, List.length_map] at hlength

/-- The strings that are there are not changed by a new one. -/
theorem Holds.map_take (bytes : List UInt8) :
  (items deque.mem).map (deque.strings.take bytes).cells = model.map fun s => some (Utf8.bytes s)
  := by
  rw [← h.strings]
  apply List.map_congr_left
  intro ptr hptr
  have hmem : deque.strings.cells ptr ∈ (items deque.mem).map deque.strings.cells :=
    List.mem_map_of_mem hptr
  rw [h.strings] at hmem
  obtain ⟨s, -, hs⟩ := List.mem_map.mp hmem
  apply Slots.cells_take_of_eq_some hs.symm

variable (hdoc : Documented sys items)
include hdoc

theorem Holds.step_pushHead (hroom : HasRoom (deque, model) (.pushHead value)) :
  ∃ deque', call sys deque (.pushHead value) = some (deque', (Model.call model (.pushHead value)).2)
    ∧ Holds items (deque', (Model.call model (.pushHead value)).1)
  := by
  rw [Model.call, Model.push, call, pushHead]
  by_cases hvalue : 0 ∈ Utf8.bytes value
  · rw [if_pos hvalue, push, if_pos hvalue]
    exact ⟨deque, rfl, h⟩
  · have hlt : model.length < DEQUE_MAX := hroom hvalue
    obtain ⟨mem, hpush, hitems⟩ := hdoc.pushHead_room deque.handle deque.mem deque.strings.next
      (h.length_items ▸ hlt)
    rw [if_neg hvalue, if_pos hlt, push_of_eq_some hvalue h.handle hpush]
    refine ⟨_, rfl, h.handle, ?_⟩
    rw [hitems, List.map_cons, List.map_cons, h.map_take, Slots.cells_take]

theorem Holds.step_pushTail (hroom : HasRoom (deque, model) (.pushTail value)) :
  ∃ deque', call sys deque (.pushTail value) = some (deque', (Model.call model (.pushTail value)).2)
    ∧ Holds items (deque', (Model.call model (.pushTail value)).1)
  := by
  rw [Model.call, Model.push, call, pushTail]
  by_cases hvalue : 0 ∈ Utf8.bytes value
  · rw [if_pos hvalue, push, if_pos hvalue]
    exact ⟨deque, rfl, h⟩
  · have hlt : model.length < DEQUE_MAX := hroom hvalue
    obtain ⟨mem, hpush, hitems⟩ := hdoc.pushTail_room deque.handle deque.mem deque.strings.next
      (h.length_items ▸ hlt)
    rw [if_neg hvalue, if_pos hlt, push_of_eq_some hvalue h.handle hpush]
    refine ⟨_, rfl, h.handle, ?_⟩
    rw [hitems, List.map_append, List.map_append, h.map_take, List.map_singleton,
      List.map_singleton, Slots.cells_take]

theorem Holds.step_popHead :
  ∃ deque', call sys deque .popHead = some (deque', (Model.call model .popHead).2)
    ∧ Holds items (deque', (Model.call model .popHead).1)
  := by
  have hlength := h.length_items
  rw [Model.call, call, popHead]
  cases model with
  | nil =>
    rw [pop_of_empty ((hdoc.empty _ _).mpr hlength)]
    exact ⟨deque, rfl, h⟩
  | cons value model =>
    have hempty : ¬ sys.empty deque.handle deque.mem ≠ 0 := by
      rw [hdoc.empty, hlength]
      apply Nat.succ_ne_zero
    obtain ⟨ptr, rest, hitems, hstring, hrest⟩ := List.map_eq_cons_iff.mp h.strings
    obtain ⟨mem, hpop, hmem⟩ := hdoc.popHead deque.handle deque.mem ptr rest hitems
    rw [pop_of_eq_some hempty hpop hstring]
    refine ⟨_, rfl, h.handle, ?_⟩
    rw [hmem]
    apply hrest

theorem Holds.step_popTail :
  ∃ deque', call sys deque .popTail = some (deque', (Model.call model .popTail).2)
    ∧ Holds items (deque', (Model.call model .popTail).1)
  := by
  have hlength := h.length_items
  rw [Model.call, call, popTail]
  obtain rfl | ⟨model', value, hconcat⟩ := List.eq_nil_or_concat model
  · rw [pop_of_empty ((hdoc.empty _ _).mpr hlength)]
    exact ⟨deque, rfl, h⟩
  · rw [List.concat_eq_append] at hconcat
    subst hconcat
    have hempty : ¬ sys.empty deque.handle deque.mem ≠ 0 := by
      rw [hdoc.empty, hlength, List.length_append]
      apply Nat.succ_ne_zero
    have hstrings := h.strings
    rw [List.map_append] at hstrings
    obtain ⟨rest, last, hitems, hrest, hlast⟩ := List.map_eq_append_iff.mp hstrings
    obtain ⟨ptr, rfl, hstring⟩ := List.map_eq_singleton_iff.mp hlast
    obtain ⟨mem, hpop, hmem⟩ := hdoc.popTail deque.handle deque.mem ptr rest hitems
    rw [pop_of_eq_some hempty hpop hstring, List.getLast?_concat, List.dropLast_concat]
    refine ⟨_, rfl, h.handle, ?_⟩
    rw [hmem]
    apply hrest

/-- A call that has room is answered as that on the list. -/
theorem Holds.step (c : Call) (hroom : HasRoom (deque, model) c) :
  ∃ deque', call sys deque c = some (deque', (Model.call model c).2)
    ∧ Holds items (deque', (Model.call model c).1)
  := by
  have hlength := h.length_items
  cases c with
  | pushHead value => apply h.step_pushHead hdoc hroom
  | pushTail value => apply h.step_pushTail hdoc hroom
  | popHead => apply h.step_popHead hdoc
  | popTail => apply h.step_popTail hdoc
  | len =>
    use deque
    rw [call, len, hdoc.cnt, hlength]
    exact ⟨rfl, h⟩
  | isEmpty =>
    have hempty : isEmpty sys deque = decide (model.length = 0) := by
      rw [isEmpty, decide_eq_decide, hdoc.empty, hlength]
    use deque
    rw [call, hempty]
    exact ⟨rfl, h⟩
  | isFull =>
    have hfull : isFull sys deque = decide (model.length = DEQUE_MAX) := by
      rw [isFull, decide_eq_decide, hdoc.full, hlength]
    use deque
    rw [call, hfull]
    exact ⟨rfl, h⟩

/-- A push on a full deque is not said to fail. -/
theorem Holds.not_answers (c : Call) (hroom : ¬ HasRoom (deque, model) c) :
  ¬ Runs.Answers (call sys) Model.call (deque, model) c
  := by
  rintro ⟨deque', hanswer⟩
  obtain ⟨howns, hfull⟩ := Classical.not_imp.mp hroom
  cases c with
  | pushHead value =>
    rw [Model.call, Model.push, if_neg howns, if_neg hfull] at hanswer
    obtain ⟨⟨deque'', result⟩, hpush, hreply⟩ := Option.map_eq_some_iff.mp hanswer
    obtain ⟨-, hresult⟩ := Prod.mk.inj hreply
    obtain rfl := Reply.pushed.inj hresult
    exact push_ne_full h.handle (hdoc.pushHead_returns _ _ _) hpush
  | pushTail value =>
    rw [Model.call, Model.push, if_neg howns, if_neg hfull] at hanswer
    obtain ⟨⟨deque'', result⟩, hpush, hreply⟩ := Option.map_eq_some_iff.mp hanswer
    obtain ⟨-, hresult⟩ := Prod.mk.inj hreply
    obtain rfl := Reply.pushed.inj hresult
    exact push_ne_full h.handle (hdoc.pushTail_returns _ _ _) hpush
  | _ => cases howns

end Holds

end Calls

/-! ### The strings that are owned -/

/-- The deque after a call. A call that has no result leaves it as it is. -/
def after (deque : CStrDeque μ) (c : Call) : CStrDeque μ :=
  ((call sys deque c).map Prod.fst).getD deque

/-- When the deque ends, each string that it has come to own has been released once. -/
def Released (deque : CStrDeque μ) : Prop := Ledger.settle 0 (drop sys deque).ledger = some 0

section Owned

variable {sys : DequeSys μ} {items : μ → List Nat} {deque deque' : CStrDeque μ} {value : String}
  {cPush : Nat → μ → Nat → Option (μ × Nat)} {cPop : Nat → μ → Option (μ × Option Nat)}
  {calls : List Call}

theorem ledger_push {result : Except TmplError Unit}
    (h : push deque cPush value = some (deque', result)) :
  deque'.ledger = deque.ledger
    ∨ 0 ∉ Utf8.bytes value ∧ deque'.ledger = deque.ledger ++ [.acquire deque.strings.next]
  := by
  rw [push] at h
  split at h
  · obtain ⟨rfl, -⟩ := Prod.mk.inj (Option.some.inj h)
    left
    rfl
  · next hvalue =>
    obtain ⟨⟨mem, handle⟩, -, hresult⟩ := Option.bind_eq_some_iff.mp h
    dsimp only at hresult
    split at hresult
    · obtain ⟨rfl, -⟩ := Prod.mk.inj (Option.some.inj hresult)
      left
      rfl
    · obtain ⟨rfl, -⟩ := Prod.mk.inj (Option.some.inj hresult)
      right
      exact ⟨hvalue, rfl⟩

theorem ledger_pop {popped : Option String} (h : pop sys deque cPop = some (deque', popped)) :
  deque'.ledger = deque.ledger
  := by
  rw [pop] at h
  split at h
  · obtain ⟨rfl, -⟩ := Prod.mk.inj (Option.some.inj h)
    rfl
  · obtain ⟨⟨mem, ptr⟩, -, hresult⟩ := Option.bind_eq_some_iff.mp h
    cases ptr with
    | none =>
      obtain ⟨rfl, -⟩ := Prod.mk.inj (Option.some.inj hresult)
      rfl
    | some ptr =>
      obtain ⟨bytes, -, hsome⟩ := Option.bind_eq_some_iff.mp hresult
      obtain ⟨rfl, -⟩ := Prod.mk.inj (Option.some.inj hsome)
      rfl

/-- A call adds at most one string to those that the deque owns, and releases none. -/
theorem ledger_call {reply : Reply} {c : Call} (h : call sys deque c = some (deque', reply)) :
  deque'.ledger = deque.ledger ∨ c.Owns ∧ ∃ ptr, deque'.ledger = deque.ledger ++ [.acquire ptr]
  := by
  cases c with
  | pushHead value | pushTail value =>
    obtain ⟨⟨deque'', result⟩, hpush, hreply⟩ := Option.map_eq_some_iff.mp h
    obtain ⟨rfl, -⟩ := Prod.mk.inj hreply
    obtain hsame | ⟨hvalue, hadded⟩ := ledger_push hpush
    · exact .inl hsame
    · exact .inr ⟨hvalue, _, hadded⟩
  | popHead | popTail =>
    obtain ⟨⟨deque'', popped⟩, hpop, hreply⟩ := Option.map_eq_some_iff.mp h
    obtain ⟨rfl, -⟩ := Prod.mk.inj hreply
    exact .inl (ledger_pop hpop)
  | len | isEmpty | isFull =>
    obtain ⟨rfl, -⟩ := Prod.mk.inj (Option.some.inj h)
    left
    rfl

theorem ledger_after (sys : DequeSys μ) (deque : CStrDeque μ) (c : Call) :
  (after sys deque c).ledger = deque.ledger
    ∨ c.Owns ∧ ∃ ptr, (after sys deque c).ledger = deque.ledger ++ [.acquire ptr]
  := by
  rw [after]
  cases hcall : call sys deque c with
  | none =>
    left
    rfl
  | some result => exact ledger_call hcall

/-- The deque owns a string, and has released none. -/
def Owing (deque : CStrDeque μ) : Prop := ∃ ptr ptrs, deque.ledger = (ptr :: ptrs).map .acquire

theorem Owing.after (h : Owing deque) (c : Call) :
  Owing (after sys deque c)
  := by
  obtain ⟨ptr, ptrs, hledger⟩ := h
  obtain hsame | ⟨-, ptr', hadded⟩ := ledger_after sys deque c
  · exact ⟨ptr, ptrs, hsame.trans hledger⟩
  · use ptr, ptrs ++ [ptr']
    rw [hadded, hledger, ← List.cons_append, List.map_append, List.map_singleton]

/-- A string that is owned is not released in the end. -/
theorem Owing.not_released (h : Owing deque) :
  ¬ Released sys deque
  := by
  obtain ⟨ptr, ptrs, hledger⟩ := h
  rw [Released, drop, hledger, Ledger.settle_acquires, Multiset.zero_add]
  intro hzero
  have hnil := (Multiset.coe_eq_zero _).mp (Option.some.inj hzero)
  cases hnil

/-- Nothing is in the deque, and it has owned no string. -/
structure Idle (items : μ → List Nat) (deque : CStrDeque μ) : Prop where
  holds : Holds items (deque, [])
  ledger : deque.ledger = []

variable (hdoc : Documented sys items)
include hdoc

/-- The first C string that is pushed comes to be owned. -/
theorem Idle.owing (h : Idle items deque) {c : Call} (howns : c.Owns) :
  Owing (after sys deque c)
  := by
  have hroom : (items deque.mem).length < DEQUE_MAX := by
    rw [h.holds.length_items]
    decide
  use deque.strings.next, []
  rw [after]
  cases c with
  | pushHead value =>
    obtain ⟨mem, hpush, -⟩ := hdoc.pushHead_room deque.handle deque.mem deque.strings.next hroom
    rw [call, pushHead, push_of_eq_some howns h.holds.handle hpush]
    change deque.ledger ++ _ = _
    rw [h.ledger]
    rfl
  | pushTail value =>
    obtain ⟨mem, hpush, -⟩ := hdoc.pushTail_room deque.handle deque.mem deque.strings.next hroom
    rw [call, pushTail, push_of_eq_some howns h.holds.handle hpush]
    change deque.ledger ++ _ = _
    rw [h.ledger]
    rfl
  | _ => cases howns

/-- A call that pushes no C string leaves the deque without one. -/
theorem Idle.after (h : Idle items deque) {c : Call} (hnot : ¬ c.Owns) :
  Idle items (after sys deque c)
  := by
  obtain ⟨deque', hcall, hholds⟩ := h.holds.step hdoc c fun howns => absurd howns hnot
  have hmodel : (Model.call [] c).1 = [] := by
    cases c with
    | pushHead value | pushTail value =>
      rw [Model.call, Model.push, if_pos (not_not.mp hnot)]
    | _ => rfl
  have hafter : CStrDeque.after sys deque c = deque' := by
    rw [CStrDeque.after, hcall]
    rfl
  obtain hsame | ⟨howns, -⟩ := ledger_after sys deque c
  · constructor
    · rw [hafter, ← hmodel]
      exact hholds
    · rw [hsame, h.ledger]
  · exact absurd howns hnot

/-- The strings of a deque have been released when it ends exactly when it has owned none. -/
theorem Idle.released_iff (h : Idle items deque) :
  Released sys (Runs.run (CStrDeque.after sys) calls deque) ↔ ∀ c ∈ calls, ¬ c.Owns
  := by
  induction calls generalizing deque with
  | nil =>
    apply iff_of_true
    · change Ledger.settle 0 deque.ledger = some 0
      rw [h.ledger, Ledger.settle_nil]
    · simp
  | cons c calls ih =>
    rw [List.forall_mem_cons]
    by_cases howns : c.Owns
    · apply iff_of_false
      · have howing : Owing (Runs.run (CStrDeque.after sys) calls (CStrDeque.after sys deque c)) :=
          Runs.run_keeps (fun _ c hc => Owing.after hc c) (h.owing hdoc howns)
        apply howing.not_released
      · exact fun hall => hall.1 howns
    · apply (ih (h.after hdoc howns)).trans
      rw [and_iff_right howns]

end Owned

/-- A new deque is idle. -/
theorem idle_new {sys : DequeSys μ} {items : μ → List Nat} (hdoc : Documented sys items)
    {strings : Slots (List UInt8)} {deque : CStrDeque μ} (h : new sys strings = .ok deque) :
  Idle items deque
  := by
  obtain ⟨c, hnew, rfl⟩ := Except.map_eq_ok_iff.mp h
  obtain ⟨-, mem, hmem, -, hhandle⟩ := Container.new_eq_ok hnew
  refine ⟨⟨hhandle, ?_⟩, rfl⟩
  dsimp only
  rw [hmem, hdoc.new]
  rfl

/-- The calls of a history of an idle deque answer as those of a deque exactly when no C string is
pushed on a full one. -/
theorem refines_deque_iff {sys : DequeSys μ} {items : μ → List Nat} (hdoc : Documented sys items)
    {deque : CStrDeque μ} (hidle : Idle items deque) (calls : List Call) :
  Runs.Along (Runs.both (call sys) Model.call) (Runs.Answers (call sys) Model.call) calls
      (deque, [])
    ↔ Runs.Along (Runs.both (call sys) Model.call) HasRoom calls (deque, [])
  := by
  apply Runs.answers_iff_of_step _ _ hidle.holds
  · intro p c hp hroom
    apply hp.step hdoc c hroom
  · intro p c hp hroom
    apply hp.not_answers hdoc c hroom

/-- Lists of addresses that fit in a deque. -/
abbrev ListMem := { l : List Nat // l.length ≤ DEQUE_MAX }

/-- A list of addresses. -/
def listSys : DequeSys ListMem where
  footprint := 544
  align := 8
  alloc _ := some ⟨[], Nat.zero_le DEQUE_MAX⟩
  new _ := ⟨[], Nat.zero_le DEQUE_MAX⟩
  join _ := 0x1000
  leave mem := mem
  delete mem := mem
  pushHead handle mem ptr :=
    if h : mem.val.length < DEQUE_MAX then some (⟨ptr :: mem.val, h⟩, handle) else none
  pushTail handle mem ptr :=
    if h : mem.val.length < DEQUE_MAX then
      some (⟨mem.val ++ [ptr], by rwa [List.length_append]⟩, handle)
    else
      none
  popHead _ mem := some (⟨mem.val.tail, by grind⟩, mem.val.head?)
  popTail _ mem := some (⟨mem.val.dropLast, by grind⟩, mem.val.getLast?)
  empty _ mem := if mem.val.length = 0 then 1 else 0
  full _ mem := if mem.val.length = DEQUE_MAX then 1 else 0
  cnt _ mem := UInt64.ofNat mem.val.length

theorem listSys_documented :
  Documented listSys Subtype.val
  where
    new _ := rfl
    pushHead_returns handle mem ptr mem' result h := by
      simp only [listSys] at h
      split at h
      · exact (Prod.mk.inj (Option.some.inj h)).2.symm
      · cases h
    pushTail_returns handle mem ptr mem' result h := by
      simp only [listSys] at h
      split at h
      · exact (Prod.mk.inj (Option.some.inj h)).2.symm
      · cases h
    pushHead_room handle mem ptr h := ⟨_, dif_pos h, rfl⟩
    pushTail_room handle mem ptr h := ⟨_, dif_pos h, rfl⟩
    popHead handle mem ptr rest h := by
      obtain ⟨l, hle⟩ := mem
      obtain rfl : l = ptr :: rest := h
      exact ⟨_, rfl, rfl⟩
    popTail handle mem ptr rest h := by
      obtain ⟨l, hle⟩ := mem
      obtain rfl : l = rest ++ [ptr] := h
      refine ⟨⟨(rest ++ [ptr]).dropLast, by grind⟩, ?_, List.dropLast_concat⟩
      simp [listSys]
    empty handle mem := by simp [listSys]
    full handle mem := by simp [listSys]
    cnt handle mem := UInt64.toNat_ofNat_of_lt' (Nat.lt_of_le_of_lt mem.property (by decide))

/-- A new deque. -/
def listDeque : CStrDeque ListMem where
  handle := 0x1000
  mem := ⟨[], Nat.zero_le DEQUE_MAX⟩
  strings := .empty
  ledger := []

theorem listDeque_new :
  new listSys .empty = .ok listDeque
  := rfl

end CStrDeque

/-! ### The three containers -/

section Bounded

variable {μ₁ μ₂ μ₃ : Type}

/-- A stack answers as a stack exactly when nothing is pushed on a full one, and a deque exactly
when no C string is; a queue does when it also is peeked into only when its front is what the first
slot holds. The strings of a deque are released exactly when it has owned none. -/
theorem bounded_iff {stackSys : BoundedSys μ₁} {pile : μ₁ → Pile UInt64 STACK_MAX}
    (hstack : FdStack.Documented stackSys pile) {stack : FdStack μ₁}
    (hstackNew : Container.new stackSys.toTmplSys = .ok stack)
    {queueSys : BoundedSys μ₂} {ring : μ₂ → SlotRing UInt64 QUEUE_MAX}
    (hqueue : FdQueue.Documented queueSys ring) {queue : FdQueue μ₂}
    (hqueueNew : Container.new queueSys.toTmplSys = .ok queue)
    {dequeSys : DequeSys μ₃} {items : μ₃ → List Nat} (hdeque : CStrDeque.Documented dequeSys items)
    {strings : Slots (List UInt8)} {deque : CStrDeque μ₃}
    (hdequeNew : CStrDeque.new dequeSys strings = .ok deque)
    (calls : List Bounded.Call) (dequeCalls : List CStrDeque.Call) :
  (Runs.Along (Runs.both (FdStack.call stackSys) FdStack.Model.call)
        (Runs.Answers (FdStack.call stackSys) FdStack.Model.call) calls (stack, [])
      ↔ Runs.Along (Runs.both (FdStack.call stackSys) FdStack.Model.call) FdStack.HasRoom calls
        (stack, []))
    ∧ (Runs.Along (Runs.both (FdQueue.call queueSys) FdQueue.Model.call)
        (Runs.Answers (FdQueue.call queueSys) FdQueue.Model.call) calls (queue, .empty)
      ↔ Runs.Along (Runs.both (FdQueue.call queueSys) FdQueue.Model.call) FdQueue.Unaffected calls
        (queue, .empty))
    ∧ (Runs.Along (Runs.both (CStrDeque.call dequeSys) CStrDeque.Model.call)
        (Runs.Answers (CStrDeque.call dequeSys) CStrDeque.Model.call) dequeCalls (deque, [])
      ↔ Runs.Along (Runs.both (CStrDeque.call dequeSys) CStrDeque.Model.call) CStrDeque.HasRoom
        dequeCalls (deque, []))
    ∧ (CStrDeque.Released dequeSys (Runs.run (CStrDeque.after dequeSys) dequeCalls deque)
      ↔ ∀ c ∈ dequeCalls, ¬ c.Owns)
  := by
  have hidle := CStrDeque.idle_new hdeque hdequeNew
  refine ⟨?_, ?_, ?_, ?_⟩
  · apply FdStack.refines_lifo_iff hstack hstackNew
  · apply FdQueue.refines_fifo_iff hqueue hqueueNew
  · apply CStrDeque.refines_deque_iff hdeque hidle
  · apply hidle.released_iff hdeque

/-- As many elements as there are slots are pushed and popped one by one, and then come two more,
the first of which is in the first slot. -/
def wrapCalls : List Bounded.Call :=
  (List.replicate QUEUE_MAX [.push 7, .pop]).flatten
    ++ [.push 1, .push 2, .peek, .len, .pop, .pop, .peek]

/-- Strings are pushed at both ends and popped at both ends. -/
def dequeCalls : List CStrDeque.Call :=
  [.pushHead "b", .pushTail "c", .pushHead "a", .len, .popTail, .popHead, .pushTail "d", .popTail]

theorem bounded_iff_wraps :
  Runs.Along (Runs.both (FdStack.call FdStack.pileSys) FdStack.Model.call)
      (Runs.Answers (FdStack.call FdStack.pileSys) FdStack.Model.call) wrapCalls
      (FdStack.pileStack, [])
    ∧ Runs.Along (Runs.both (FdQueue.call FdQueue.ringSys) FdQueue.Model.call)
      (Runs.Answers (FdQueue.call FdQueue.ringSys) FdQueue.Model.call) wrapCalls
      (FdQueue.ringQueue, .empty)
    ∧ Runs.Along (Runs.both (CStrDeque.call CStrDeque.listSys) CStrDeque.Model.call)
      (Runs.Answers (CStrDeque.call CStrDeque.listSys) CStrDeque.Model.call) dequeCalls
      (CStrDeque.listDeque, [])
    ∧ ¬ CStrDeque.Released CStrDeque.listSys
      (Runs.run (CStrDeque.after CStrDeque.listSys) dequeCalls CStrDeque.listDeque)
  := by
  obtain ⟨hstack, hqueue, hdeque, hreleased⟩ := bounded_iff FdStack.pileSys_documented
    FdStack.pileStack_new FdQueue.ringSys_documented FdQueue.ringQueue_new
    CStrDeque.listSys_documented CStrDeque.listDeque_new wrapCalls dequeCalls
  refine ⟨?_, ?_, ?_, ?_⟩
  · exact hstack.mpr (by decide +kernel)
  · exact hqueue.mpr (by decide +kernel)
  · exact hdeque.mpr (by decide)
  · intro h
    exact hreleased.mp h (.pushHead "b") List.mem_cons_self
      (by decide : 0 ∉ Utf8.bytes "b")

/-- After two pushes and a pop the queue still shows the element that is gone. -/
theorem not_refines_fifo :
  ¬ Runs.Along (Runs.both (FdQueue.call FdQueue.ringSys) FdQueue.Model.call)
    (Runs.Answers (FdQueue.call FdQueue.ringSys) FdQueue.Model.call) [.push 1, .push 2, .pop, .peek]
    (FdQueue.ringQueue, .empty)
  := by
  intro h
  have hrun := (FdQueue.refines_fifo_iff FdQueue.ringSys_documented FdQueue.ringQueue_new _).mp h
  have hfirst : (some 2 : Option UInt64) = some 1 := hrun.2.2.2.1 (List.cons_ne_nil 2 [])
  exact absurd hfirst (by decide)

end Bounded

end FdTmpl

import FiredancerRs.Lib.Pile
import FiredancerRs.Lib.Runs
import FiredancerRs.Lib.SlotRing
import FiredancerRs.Tmpl.Container

/-!
# The stack and the queue

`FdStack` and `FdQueue` over the C templates `fd_stack` and `fd_queue`, which are the parameter
`BoundedSys`. Both take a null pointer from `push` for a full container, but the template returns
the container that it is given, and does not look whether there is room. `peek` reads the storage:
the slot of the last element of a stack, but the first slot of a queue, wherever its front is.
-/

namespace FdTmpl

/-- The functions of a template, on the address of a container and its memory, where `load` reads a
slot. There is no result where the effect is not defined. -/
structure BoundedSys (μ : Type) extends TmplSys μ where
  push : Nat → μ → UInt64 → Option (μ × Nat)
  pop : Nat → μ → Option (μ × UInt64)
  empty : Nat → μ → Int
  full : Nat → μ → Int
  cnt : Nat → μ → UInt64
  load : Nat → μ → Nat → UInt64

/-- `STACK_MAX` -/
def STACK_MAX : Nat := 64

/-- `QUEUE_MAX` -/
def QUEUE_MAX : Nat := 64

namespace Bounded

variable {μ : Type} (sys : BoundedSys μ) (c : Container μ)

/-- `FdStack::push` and `FdQueue::push`, which differ in the template. -/
def push (value : UInt64) : Option (Container μ × Except TmplError Unit) := do
  let (mem, result) ← sys.push c.handle c.mem value
  some ({ c with mem := mem }, if result = 0 then .error .containerFull else .ok ())

/-- `FdStack::pop` and `FdQueue::pop`, which differ in the template. -/
def pop : Option (Container μ × Option UInt64) :=
  if sys.empty c.handle c.mem ≠ 0 then
    some (c, none)
  else do
    let (mem, value) ← sys.pop c.handle c.mem
    some ({ c with mem := mem }, some value)

/-- `len` -/
def len : Nat := (sys.cnt c.handle c.mem).toNat

/-- `is_empty` -/
def isEmpty : Bool := sys.empty c.handle c.mem ≠ 0

/-- `is_full` -/
def isFull : Bool := sys.full c.handle c.mem ≠ 0

/-- A call on a stack or a queue. -/
inductive Call where
  | push (value : UInt64)
  | pop
  | peek
  | len
  | isEmpty
  | isFull

/-- What a call returns. -/
inductive Reply where
  | pushed (result : Except TmplError Unit)
  | value (value : Option UInt64)
  | count (n : Nat)
  | bool (result : Bool)

/-- The container after a call, and what the call returns, given how it is peeked into. -/
def call (peek : Container μ → Option UInt64) (c : Container μ) :
    Call → Option (Container μ × Reply)
  | .push value => (push sys c value).map fun (c, result) => (c, .pushed result)
  | .pop => (pop sys c).map fun (c, value) => (c, .value value)
  | .peek => some (c, .value (peek c))
  | .len => some (c, .count (len sys c))
  | .isEmpty => some (c, .bool (isEmpty sys c))
  | .isFull => some (c, .bool (isFull sys c))

/-- The calls on a list of at most `max` elements that takes new ones at its end, given the element
that is taken next and what it leaves. -/
def Model.call (max : Nat) (next : List UInt64 → Option UInt64) (rest : List UInt64 → List UInt64)
    (model : List UInt64) : Call → List UInt64 × Reply
  | .push value =>
    if model.length < max then (model ++ [value], .pushed (.ok ()))
    else (model, .pushed (.error .containerFull))
  | .pop => (rest model, .value (next model))
  | .peek => (model, .value (next model))
  | .len => (model, .count model.length)
  | .isEmpty => (model, .bool (model.length = 0))
  | .isFull => (model, .bool (model.length = max))

/-- What is documented of a template of which we know how many elements a container has. What `push`
returns is the container that it is given. -/
structure Counted (sys : BoundedSys μ) (max : Nat) (count : μ → Nat) : Prop where
  push_returns : ∀ handle mem value mem' result, sys.push handle mem value = some (mem', result) →
    result = handle
  empty_iff : ∀ handle mem, sys.empty handle mem ≠ 0 ↔ count mem = 0
  full_iff : ∀ handle mem, sys.full handle mem ≠ 0 ↔ count mem = max
  cnt_eq : ∀ handle mem, (sys.cnt handle mem).toNat = count mem

section Calls

variable {sys : BoundedSys μ} {max : Nat} {count : μ → Nat} {c : Container μ} {model : List UInt64}
  {value : UInt64}

/-- A push that the template makes is said to have room. -/
theorem push_of_eq_some {mem : μ} {handle : Nat} (hhandle : c.handle ≠ 0)
    (h : sys.push c.handle c.mem value = some (mem, handle)) (heq : handle = c.handle) :
  push sys c value = some ({ c with mem := mem }, .ok ())
  := by
  rw [push, h, heq]
  simp [hhandle]

theorem pop_of_empty (hempty : sys.empty c.handle c.mem ≠ 0) :
  pop sys c = some (c, none)
  := if_pos hempty

theorem pop_of_eq_some {mem : μ} (hempty : ¬ sys.empty c.handle c.mem ≠ 0)
    (h : sys.pop c.handle c.mem = some (mem, value)) :
  pop sys c = some ({ c with mem := mem }, some value)
  := by
  rw [pop, if_neg hempty, h]
  rfl

variable (hdoc : Counted sys max count)
include hdoc

/-- A container without room is not said to be full. -/
theorem Counted.push_ne_full (hhandle : c.handle ≠ 0) (c' : Container μ) :
  push sys c value ≠ some (c', .error .containerFull)
  := by
  rw [push]
  apply bind_ne_full (hdoc.push_returns c.handle c.mem value)
  intro mem
  use { c with mem := mem }
  simp [hhandle]

/-- The calls that ask for the number of elements. -/
theorem Counted.len_eq (hcount : count c.mem = model.length) :
  len sys c = model.length
  := (hdoc.cnt_eq c.handle c.mem).trans hcount

theorem Counted.isEmpty_eq (hcount : count c.mem = model.length) :
  isEmpty sys c = decide (model.length = 0)
  := by
  rw [isEmpty, decide_eq_decide, hdoc.empty_iff, hcount]

theorem Counted.isFull_eq (hcount : count c.mem = model.length) :
  isFull sys c = decide (model.length = max)
  := by
  rw [isFull, decide_eq_decide, hdoc.full_iff, hcount]

end Calls

end Bounded

open Bounded

/-! ### The stack -/

/-- `FdStack`. The template is given `STACK_MAX` as the most elements. -/
abbrev FdStack (μ : Type) := Container μ

namespace FdStack

variable {μ : Type} (sys : BoundedSys μ)

/-- `FdStack::push` -/
def push : FdStack μ → UInt64 → Option (FdStack μ × Except TmplError Unit) := Bounded.push sys

/-- `FdStack::pop` -/
def pop : FdStack μ → Option (FdStack μ × Option UInt64) := Bounded.pop sys

/-- `FdStack::peek` -/
def peek (stack : FdStack μ) : Option UInt64 :=
  if sys.empty stack.handle stack.mem ≠ 0 then
    none
  else
    let topIdx := sys.cnt stack.handle stack.mem - 1
    some (sys.load stack.handle stack.mem topIdx.toNat)

/-- A call on a stack. -/
def call : FdStack μ → Call → Option (FdStack μ × Reply) := Bounded.call sys (peek sys)

/-- The calls on a list whose last element is taken next. -/
def Model.call : List UInt64 → Call → List UInt64 × Reply :=
  Bounded.Model.call STACK_MAX List.getLast? List.dropLast

/-- What is documented of the template, of which we know the slots of a stack. They are in use from
the first one upwards. There must be room for an element that is pushed, and one that is popped. -/
structure Documented (pile : μ → Pile UInt64 STACK_MAX) : Prop
    extends Counted sys STACK_MAX fun mem => (pile mem).count where
  new : ∀ mem, (pile (sys.new mem)).count = 0
  push_room : ∀ handle mem value (h : (pile mem).count < STACK_MAX), ∃ mem',
    sys.push handle mem value = some (mem', handle) ∧ pile mem' = (pile mem).push value h
  pop : ∀ handle mem, 0 < (pile mem).count → ∃ mem',
    sys.pop handle mem = some (mem', (pile mem).slots ((pile mem).count - 1))
      ∧ pile mem' = (pile mem).pop
  load : ∀ handle mem i, i < STACK_MAX → sys.load handle mem i = (pile mem).slots i

/-- The call is not a push on a full stack. -/
def HasRoom (p : FdStack μ × List UInt64) : Call → Prop
  | .push _ => p.2.length < STACK_MAX
  | _ => True

instance (p : FdStack μ × List UInt64) : (c : Call) → Decidable (HasRoom p c)
  | .push _ => inferInstanceAs (Decidable (p.2.length < STACK_MAX))
  | .pop | .peek | .len | .isEmpty | .isFull => isTrue trivial

/-- The stack has been joined, and its slots in use hold the list. -/
structure Holds (pile : μ → Pile UInt64 STACK_MAX) (p : FdStack μ × List UInt64) : Prop where
  handle : p.1.handle ≠ 0
  contents : (pile p.1.mem).contents = p.2

section Calls

variable {sys : BoundedSys μ} {pile : μ → Pile UInt64 STACK_MAX} {stack : FdStack μ}
  {model : List UInt64} (hdoc : Documented sys pile) (h : Holds pile (stack, model))
include h

theorem Holds.count_eq :
  (pile stack.mem).count = model.length
  := by
  rw [← Pile.length_contents, h.contents]

/-- The last element is in the last slot in use. -/
theorem Holds.eq_concat (hpos : 0 < (pile stack.mem).count) :
  model = (pile stack.mem).pop.contents ++ [(pile stack.mem).slots ((pile stack.mem).count - 1)]
  := h.contents.symm.trans (Pile.contents_pop hpos)

include hdoc

/-- What is peeked at is the last element. -/
theorem Holds.peek_eq :
  peek sys stack = model.getLast?
  := by
  have hcount := h.count_eq
  rw [peek]
  split
  · next hempty =>
    have hzero := (hdoc.empty_iff stack.handle stack.mem).mp hempty
    rw [List.eq_nil_of_length_eq_zero (hcount.symm.trans hzero)]
    rfl
  · next hempty =>
    have hpos := Nat.pos_of_ne_zero (mt (hdoc.empty_iff stack.handle stack.mem).mpr hempty)
    have hcnt := hdoc.cnt_eq stack.handle stack.mem
    have hone : 1 ≤ sys.cnt stack.handle stack.mem := by
      rw [UInt64.le_iff_toNat_le, hcnt]
      exact hpos
    have htop : (sys.cnt stack.handle stack.mem - 1).toNat = (pile stack.mem).count - 1 := by
      rw [UInt64.toNat_sub_of_le _ _ hone, hcnt]
      rfl
    have hle := (pile stack.mem).count_le
    rw [h.eq_concat hpos, List.getLast?_concat]
    dsimp only
    rw [htop, hdoc.load _ _ _ (by omega)]

/-- A call that has room is answered as that on the list. -/
theorem Holds.step (c : Call) (hroom : HasRoom (stack, model) c) :
  ∃ stack', call sys stack c = some (stack', (Model.call model c).2)
    ∧ Holds pile (stack', (Model.call model c).1)
  := by
  have hcount := h.count_eq
  cases c with
  | push value =>
    have hlt : (pile stack.mem).count < STACK_MAX := by
      rw [hcount]
      exact hroom
    obtain ⟨mem, hpush, hmem⟩ := hdoc.push_room stack.handle stack.mem value hlt
    have hmodel : Model.call model (.push value) = (model ++ [value], .pushed (.ok ())) :=
      if_pos hroom
    rw [hmodel]
    use { stack with mem := mem }
    constructor
    · rw [call, Bounded.call, push_of_eq_some h.handle hpush rfl]
      rfl
    · use h.handle
      rw [hmem, Pile.contents_push, h.contents]
  | pop =>
    obtain hzero | hpos := Nat.eq_zero_or_pos (pile stack.mem).count
    · have hempty := (hdoc.empty_iff stack.handle stack.mem).mpr hzero
      obtain rfl : model = [] := List.eq_nil_of_length_eq_zero (hcount.symm.trans hzero)
      use stack
      rw [call, Bounded.call, pop_of_empty hempty]
      exact ⟨rfl, h⟩
    · have hempty := mt (hdoc.empty_iff stack.handle stack.mem).mp (Nat.ne_of_gt hpos)
      obtain ⟨mem, hpop, hmem⟩ := hdoc.pop stack.handle stack.mem hpos
      use { stack with mem := mem }
      rw [call, Bounded.call, pop_of_eq_some hempty hpop, h.eq_concat hpos]
      constructor
      · rw [Model.call, Bounded.Model.call, List.getLast?_concat]
        rfl
      · use h.handle
        rw [hmem, Model.call, Bounded.Model.call, List.dropLast_concat]
  | peek =>
    use stack
    rw [call, Bounded.call, h.peek_eq hdoc]
    exact ⟨rfl, h⟩
  | len =>
    use stack
    rw [call, Bounded.call, hdoc.len_eq hcount]
    exact ⟨rfl, h⟩
  | isEmpty =>
    use stack
    rw [call, Bounded.call, hdoc.isEmpty_eq hcount]
    exact ⟨rfl, h⟩
  | isFull =>
    use stack
    rw [call, Bounded.call, hdoc.isFull_eq hcount]
    exact ⟨rfl, h⟩

/-- A push on a full stack is not said to fail. -/
theorem Holds.not_answers (c : Call) (hroom : ¬ HasRoom (stack, model) c) :
  ¬ Runs.Answers (call sys) Model.call (stack, model) c
  := by
  rintro ⟨stack', hanswer⟩
  cases c with
  | push value =>
    have hmodel : Model.call model (.push value) = (model, .pushed (.error .containerFull)) :=
      if_neg hroom
    rw [hmodel] at hanswer
    obtain ⟨⟨stack'', result⟩, hpush, hreply⟩ := Option.map_eq_some_iff.mp hanswer
    obtain ⟨-, hresult⟩ := Prod.mk.inj hreply
    obtain rfl := Reply.pushed.inj hresult
    apply hdoc.push_ne_full h.handle stack'' hpush
  | _ => exact hroom trivial

end Calls

/-- The calls of a history of a new stack answer as those of a stack exactly when nothing is pushed
on a full one. -/
theorem refines_lifo_iff {sys : BoundedSys μ} {pile : μ → Pile UInt64 STACK_MAX}
    (hdoc : Documented sys pile) {stack : FdStack μ}
    (hnew : Container.new sys.toTmplSys = .ok stack) (calls : List Call) :
  Runs.Along (Runs.both (call sys) Model.call) (Runs.Answers (call sys) Model.call) calls
      (stack, [])
    ↔ Runs.Along (Runs.both (call sys) Model.call) HasRoom calls (stack, [])
  := by
  have hstart : Holds pile (stack, []) := by
    obtain ⟨-, mem, hmem, -, hhandle⟩ := Container.new_eq_ok hnew
    use hhandle
    rw [hmem, Pile.contents, hdoc.new]
    rfl
  apply Runs.answers_iff_of_step _ _ hstart
  · intro p c hp hroom
    apply hp.step hdoc c hroom
  · intro p c hp hroom
    apply hp.not_answers hdoc c hroom

/-- Slots that are used from the first one upwards. -/
def pileSys : BoundedSys (Pile UInt64 STACK_MAX) where
  footprint := 528
  align := 8
  alloc _ := some ⟨fun _ => 0, 0, Nat.zero_le STACK_MAX⟩
  new mem := ⟨mem.slots, 0, Nat.zero_le STACK_MAX⟩
  join _ := 0x1000
  leave mem := mem
  delete mem := mem
  push handle mem value :=
    if h : mem.count < STACK_MAX then some (mem.push value h, handle) else none
  pop _ mem := some (mem.pop, mem.slots (mem.count - 1))
  empty _ mem := if mem.count = 0 then 1 else 0
  full _ mem := if mem.count = STACK_MAX then 1 else 0
  cnt _ mem := UInt64.ofNat mem.count
  load _ mem i := mem.slots i

theorem pileSys_documented :
  Documented pileSys fun mem => mem
  where
    push_returns handle mem value mem' result h := by
      simp only [pileSys] at h
      split at h
      · exact (Prod.mk.inj (Option.some.inj h)).2.symm
      · cases h
    empty_iff handle mem := by simp [pileSys]
    full_iff handle mem := by simp [pileSys]
    cnt_eq handle mem := UInt64.toNat_ofNat_of_lt' (Nat.lt_of_le_of_lt mem.count_le (by decide))
    new _ := rfl
    push_room handle mem value h := ⟨_, dif_pos h, rfl⟩
    pop _ _ _ := ⟨_, rfl, rfl⟩
    load _ _ _ _ := rfl

/-- A new stack. -/
def pileStack : FdStack (Pile UInt64 STACK_MAX) where
  handle := 0x1000
  mem := ⟨fun _ => 0, 0, Nat.zero_le STACK_MAX⟩

theorem pileStack_new :
  Container.new pileSys.toTmplSys = .ok pileStack
  := rfl

end FdStack

/-! ### The queue -/

/-- `FdQueue` -/
abbrev FdQueue (μ : Type) := Container μ

namespace FdQueue

variable {μ : Type} (sys : BoundedSys μ)

/-- `FdQueue::push` -/
def push : FdQueue μ → UInt64 → Option (FdQueue μ × Except TmplError Unit) := Bounded.push sys

/-- `FdQueue::pop` -/
def pop : FdQueue μ → Option (FdQueue μ × Option UInt64) := Bounded.pop sys

/-- `FdQueue::peek` -/
def peek (queue : FdQueue μ) : Option UInt64 :=
  if sys.empty queue.handle queue.mem ≠ 0 then
    none
  else
    let cnt := sys.cnt queue.handle queue.mem
    if 0 < cnt then some (sys.load queue.handle queue.mem 0) else none

/-- A call on a queue. -/
def call : FdQueue μ → Call → Option (FdQueue μ × Reply) := Bounded.call sys (peek sys)

/-- The calls on a list whose first element is taken next. -/
def fifo : List UInt64 → Call → List UInt64 × Reply :=
  Bounded.Model.call QUEUE_MAX List.head? List.tail

/-- All elements that have been pushed on a queue, and how many have been popped. -/
structure History where
  pushed : List UInt64
  popped : Nat
  popped_le : popped ≤ pushed.length

namespace History

/-- Nothing has been pushed. -/
def empty : History := ⟨[], 0, Nat.le_refl 0⟩

/-- The elements that have not been popped. -/
def contents (h : History) : List UInt64 := h.pushed.drop h.popped

/-- One more element has been pushed. -/
def push (h : History) (value : UInt64) : History where
  pushed := h.pushed ++ [value]
  popped := h.popped
  popped_le := by
    rw [List.length_append]
    apply Nat.le_add_right_of_le h.popped_le

/-- One more element has been popped. -/
def pop (h : History) (hlt : h.popped < h.pushed.length) : History where
  pushed := h.pushed
  popped := h.popped + 1
  popped_le := hlt

/-- The history after a call on a queue that has room for `QUEUE_MAX` elements. -/
def after (h : History) : Call → History
  | .push value => if h.contents.length < QUEUE_MAX then h.push value else h
  | .pop => if hlt : h.popped < h.pushed.length then h.pop hlt else h
  | _ => h

theorem contents_push (h : History) (value : UInt64) :
  (h.push value).contents = h.contents ++ [value]
  := List.drop_append_of_le_length h.popped_le

theorem contents_pop (h : History) (hlt : h.popped < h.pushed.length) :
  (h.pop hlt).contents = h.contents.tail
  := List.tail_drop.symm

theorem length_contents (h : History) :
  h.contents.length = h.pushed.length - h.popped
  := List.length_drop

theorem head?_contents (h : History) :
  h.contents.head? = h.pushed[h.popped]?
  := List.head?_drop

/-- The contents of a history are those of a queue. -/
theorem contents_after (h : History) (c : Call) :
  (h.after c).contents = (fifo h.contents c).1
  := by
  cases c with
  | push value =>
    rw [after, fifo, Bounded.Model.call]
    split
    · apply h.contents_push
    · rfl
  | pop =>
    rw [after, fifo, Bounded.Model.call]
    split
    · apply h.contents_pop
    · next hlt =>
      have hnil : h.contents = [] := List.drop_eq_nil_of_le (Nat.not_lt.mp hlt)
      rw [hnil, List.tail_nil]
  | _ => rfl

/-- Of the elements whose number is a multiple of `QUEUE_MAX`, the one that was pushed last. -/
def lastFirst (h : History) : Option UInt64 :=
  h.pushed[QUEUE_MAX * ((h.pushed.length - 1) / QUEUE_MAX)]?

end History

/-- A history with what a queue replies to a call. -/
def Model.call (h : History) (c : Call) : History × Reply := (h.after c, (fifo h.contents c).2)

/-- What is documented of the template, of which we know the ring of a queue. There must be room for
an element that is pushed, and one that is popped. -/
structure Documented (ring : μ → SlotRing UInt64 QUEUE_MAX) : Prop
    extends Counted sys QUEUE_MAX fun mem => (ring mem).count where
  new_start : ∀ mem, (ring (sys.new mem)).start = 0
  new_count : ∀ mem, (ring (sys.new mem)).count = 0
  push_room : ∀ handle mem value (h : (ring mem).count < QUEUE_MAX), ∃ mem',
    sys.push handle mem value = some (mem', handle) ∧ ring mem' = (ring mem).push value h
  pop : ∀ handle mem, 0 < (ring mem).count → ∃ mem',
    sys.pop handle mem = some (mem', (ring mem).front) ∧ ring mem' = (ring mem).pop
  load : ∀ handle mem i, i < QUEUE_MAX → sys.load handle mem i = (ring mem).slots i

/-- The call is not a push on a full queue, and the queue is peeked into only when it is empty or
when its first element is the one that was written last to the first slot. -/
def Unaffected (p : FdQueue μ × History) : Call → Prop
  | .push _ => p.2.contents.length < QUEUE_MAX
  | .peek => p.2.contents ≠ [] → p.2.contents.head? = p.2.lastFirst
  | _ => True

instance (p : FdQueue μ × History) : (c : Call) → Decidable (Unaffected p c)
  | .push _ => inferInstanceAs (Decidable (p.2.contents.length < QUEUE_MAX))
  | .peek => inferInstanceAs (Decidable (p.2.contents ≠ [] → _ = _))
  | .pop | .len | .isEmpty | .isFull => isTrue trivial

/-- The queue has been joined, and its ring records the history. -/
structure Holds (ring : μ → SlotRing UInt64 QUEUE_MAX) (p : FdQueue μ × History) : Prop where
  handle : p.1.handle ≠ 0
  records : (ring p.1.mem).Records p.2.pushed p.2.popped

section Calls

variable {sys : BoundedSys μ} {ring : μ → SlotRing UInt64 QUEUE_MAX} {queue : FdQueue μ}
  {hist : History} (hdoc : Documented sys ring) (h : Holds ring (queue, hist))
include h

theorem Holds.count_eq :
  (ring queue.mem).count = hist.contents.length
  := by
  have hcount : hist.popped + (ring queue.mem).count = hist.pushed.length := h.records.count
  have hlength := hist.length_contents
  omega

include hdoc

/-- What is peeked at is the element that was written last to the first slot. -/
theorem Holds.peek_eq :
  peek sys queue = if hist.contents = [] then none else hist.lastFirst
  := by
  have hcount := h.count_eq
  rw [peek]
  split
  · next hempty =>
    have hzero := (hdoc.empty_iff queue.handle queue.mem).mp hempty
    rw [if_pos (List.eq_nil_of_length_eq_zero (hcount.symm.trans hzero))]
  · next hempty =>
    have hne := mt (hdoc.empty_iff queue.handle queue.mem).mpr hempty
    have hcnt := hdoc.cnt_eq queue.handle queue.mem
    have hpos : 0 < sys.cnt queue.handle queue.mem := by
      rw [UInt64.lt_iff_toNat_lt, hcnt]
      exact Nat.pos_of_ne_zero hne
    have hnil : hist.contents ≠ [] := by
      rintro hnil
      apply hne
      rw [hcount, hnil, List.length_nil]
    have hpushed : 0 < hist.pushed.length := by
      have hlength := hist.length_contents
      omega
    rw [if_neg hnil]
    dsimp only
    rw [if_pos hpos, hdoc.load _ _ _ (by decide), h.records.slot_zero hpushed, History.lastFirst]

/-- A call that is not affected is answered as that on the history. -/
theorem Holds.step (c : Call) (hc : Unaffected (queue, hist) c) :
  ∃ queue', call sys queue c = some (queue', (Model.call hist c).2)
    ∧ Holds ring (queue', (Model.call hist c).1)
  := by
  have hcount := h.count_eq
  cases c with
  | push value =>
    have hroom : hist.contents.length < QUEUE_MAX := hc
    have hlt : (ring queue.mem).count < QUEUE_MAX := by
      rw [hcount]
      exact hroom
    obtain ⟨mem, hpush, hmem⟩ := hdoc.push_room queue.handle queue.mem value hlt
    have hmodel : Model.call hist (.push value) = (hist.push value, .pushed (.ok ())) := by
      rw [Model.call, History.after, fifo, Bounded.Model.call, if_pos hroom, if_pos hroom]
    rw [hmodel]
    use { queue with mem := mem }
    constructor
    · rw [call, Bounded.call, push_of_eq_some h.handle hpush rfl]
      rfl
    · use h.handle
      rw [hmem]
      apply h.records.push value hlt
  | pop =>
    have hlength := hist.length_contents
    obtain hzero | hpos := Nat.eq_zero_or_pos (ring queue.mem).count
    · have hempty := (hdoc.empty_iff queue.handle queue.mem).mpr hzero
      have hmodel : Model.call hist .pop = (hist, .value none) := by
        have hnil : hist.contents = [] := List.eq_nil_of_length_eq_zero (hcount.symm.trans hzero)
        rw [Model.call, History.after, fifo, Bounded.Model.call, dif_neg (by omega), hnil,
          List.head?_nil]
      rw [hmodel]
      use queue
      rw [call, Bounded.call, pop_of_empty hempty]
      exact ⟨rfl, h⟩
    · have hempty := mt (hdoc.empty_iff queue.handle queue.mem).mp (Nat.ne_of_gt hpos)
      have hlt : hist.popped < hist.pushed.length := by omega
      obtain ⟨mem, hpop, hmem⟩ := hdoc.pop queue.handle queue.mem hpos
      have hfront : (ring queue.mem).front = hist.pushed[hist.popped] := h.records.front hlt
      have hmodel : Model.call hist .pop
          = (hist.pop hlt, .value (some (ring queue.mem).front)) := by
        rw [Model.call, History.after, fifo, Bounded.Model.call, dif_pos hlt, hist.head?_contents,
          List.getElem?_eq_getElem hlt, hfront]
      rw [hmodel]
      use { queue with mem := mem }
      constructor
      · rw [call, Bounded.call, pop_of_eq_some hempty hpop]
        rfl
      · use h.handle
        rw [hmem]
        apply h.records.pop hpos
  | peek =>
    have hpeek : peek sys queue = hist.contents.head? := by
      rw [h.peek_eq hdoc]
      split
      · next hnil => rw [hnil, List.head?_nil]
      · next hne => exact (hc hne).symm
    use queue
    rw [call, Bounded.call, hpeek]
    exact ⟨rfl, h⟩
  | len =>
    use queue
    rw [call, Bounded.call, hdoc.len_eq hcount]
    exact ⟨rfl, h⟩
  | isEmpty =>
    use queue
    rw [call, Bounded.call, hdoc.isEmpty_eq hcount]
    exact ⟨rfl, h⟩
  | isFull =>
    use queue
    rw [call, Bounded.call, hdoc.isFull_eq hcount]
    exact ⟨rfl, h⟩

/-- An affected call is answered in another way. -/
theorem Holds.not_answers (c : Call) (hc : ¬ Unaffected (queue, hist) c) :
  ¬ Runs.Answers (call sys) Model.call (queue, hist) c
  := by
  rintro ⟨queue', hanswer⟩
  cases c with
  | push value =>
    have hfull : ¬ hist.contents.length < QUEUE_MAX := hc
    have hmodel : (Model.call hist (.push value)).2 = .pushed (.error .containerFull) := by
      rw [Model.call, fifo, Bounded.Model.call, if_neg hfull]
    rw [hmodel] at hanswer
    obtain ⟨⟨queue'', result⟩, hpush, hreply⟩ := Option.map_eq_some_iff.mp hanswer
    obtain ⟨-, hresult⟩ := Prod.mk.inj hreply
    obtain rfl := Reply.pushed.inj hresult
    apply hdoc.push_ne_full h.handle queue'' hpush
  | peek =>
    apply hc
    intro hne
    obtain ⟨-, hreply⟩ := Prod.mk.inj (Option.some.inj hanswer)
    have hpeek : peek sys queue = hist.contents.head? := Reply.value.inj hreply
    rw [← hpeek, h.peek_eq hdoc, if_neg hne]
  | _ => exact hc trivial

end Calls

/-- The calls of a history of a new queue answer as those of a queue exactly when none is
affected. -/
theorem refines_fifo_iff {sys : BoundedSys μ} {ring : μ → SlotRing UInt64 QUEUE_MAX}
    (hdoc : Documented sys ring) {queue : FdQueue μ}
    (hnew : Container.new sys.toTmplSys = .ok queue) (calls : List Call) :
  Runs.Along (Runs.both (call sys) Model.call) (Runs.Answers (call sys) Model.call) calls
      (queue, .empty)
    ↔ Runs.Along (Runs.both (call sys) Model.call) Unaffected calls (queue, .empty)
  := by
  have hstart : Holds ring (queue, .empty) := by
    obtain ⟨-, mem, hmem, -, hhandle⟩ := Container.new_eq_ok hnew
    use hhandle
    rw [hmem]
    apply SlotRing.Records.empty (hdoc.new_start mem) (hdoc.new_count mem)
  apply Runs.answers_iff_of_step _ _ hstart
  · intro p c hp hc
    apply hp.step hdoc c hc
  · intro p c hp hc
    apply hp.not_answers hdoc c hc

/-- Slots that are used around a ring. -/
def ringSys : BoundedSys (SlotRing UInt64 QUEUE_MAX) where
  footprint := 544
  align := 8
  alloc _ := some ⟨fun _ => 0, 0, 0, by decide, Nat.zero_le QUEUE_MAX⟩
  new mem := ⟨mem.slots, 0, 0, by decide, Nat.zero_le QUEUE_MAX⟩
  join _ := 0x1000
  leave mem := mem
  delete mem := mem
  push handle mem value :=
    if h : mem.count < QUEUE_MAX then some (mem.push value h, handle) else none
  pop _ mem := some (mem.pop, mem.front)
  empty _ mem := if mem.count = 0 then 1 else 0
  full _ mem := if mem.count = QUEUE_MAX then 1 else 0
  cnt _ mem := UInt64.ofNat mem.count
  load _ mem i := mem.slots i

theorem ringSys_documented :
  Documented ringSys fun mem => mem
  where
    push_returns handle mem value mem' result h := by
      simp only [ringSys] at h
      split at h
      · exact (Prod.mk.inj (Option.some.inj h)).2.symm
      · cases h
    empty_iff handle mem := by simp [ringSys]
    full_iff handle mem := by simp [ringSys]
    cnt_eq handle mem := UInt64.toNat_ofNat_of_lt' (Nat.lt_of_le_of_lt mem.count_le (by decide))
    new_start _ := rfl
    new_count _ := rfl
    push_room handle mem value h := ⟨_, dif_pos h, rfl⟩
    pop _ _ _ := ⟨_, rfl, rfl⟩
    load _ _ _ _ := rfl

/-- A new queue. -/
def ringQueue : FdQueue (SlotRing UInt64 QUEUE_MAX) where
  handle := 0x1000
  mem := ⟨fun _ => 0, 0, 0, by decide, Nat.zero_le QUEUE_MAX⟩

theorem ringQueue_new :
  Container.new ringSys.toTmplSys = .ok ringQueue
  := rfl

end FdQueue

end FdTmpl

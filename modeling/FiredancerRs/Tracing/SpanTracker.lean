import Mathlib.Algebra.Ring.Nat
import Mathlib.Data.List.AList

/-!
# The span tracker

`SpanTracker` of the tracing layer: a table of the registered spans, and a stack of entered spans
for each thread. Each method holds its locks to its end, so it is one step on the two tables. The
tracker only moves the values of the fields about, of some type `ν`.
-/

namespace FdTracing

/-- `tracing::Level` -/
inductive Level where
  | trace
  | debug
  | info
  | warn
  | error
deriving DecidableEq, Repr

/-- The number of a span. -/
abbrev SpanId := UInt64

/-- `ThreadId` -/
abbrev ThreadId := Nat

/-- `HashMap<String, JsonValue>`, with `ν` for the values. -/
abbrev Fields (ν : Type) := AList fun _ : String => ν

/-- `SpanData` -/
structure SpanData (ν : Type) where
  id : SpanId
  name : String
  target : String
  level : Level
  fields : Fields ν
  file : Option String
  line : Option UInt32
deriving DecidableEq

/-- `SpanContext` -/
structure SpanContext (ν : Type) where
  id : SpanId
  name : String
  target : String
  level : Level
  fields : Fields ν
  depth : Nat
  parentId : Option SpanId
deriving DecidableEq

/-- `SpanStackEntry` -/
structure SpanStackEntry (ν : Type) where
  data : SpanData ν
  depth : Nat
  parentId : Option SpanId
deriving DecidableEq

/-- A stack of entered spans, with the innermost last. -/
abbrev Stack (ν : Type) := List (SpanStackEntry ν)

/-- The context that `current_context` and `current_stack` return for an entry. -/
def SpanStackEntry.context {ν : Type} (entry : SpanStackEntry ν) : SpanContext ν where
  id := entry.data.id
  name := entry.data.name
  target := entry.data.target
  level := entry.data.level
  fields := entry.data.fields
  depth := entry.depth
  parentId := entry.parentId

/-- `SpanTracker` -/
structure SpanTracker (ν : Type) where
  spans : AList fun _ : SpanId => SpanData ν
  threadStacks : AList fun _ : ThreadId => Stack ν

/-- `SpanMetrics` -/
structure SpanMetrics where
  totalSpans : Nat
  activeThreads : Nat
  activeSpans : Nat
deriving DecidableEq, Repr

namespace SpanTracker

variable {ν : Type}

/-- `SpanTracker::new` -/
def new : SpanTracker ν where
  spans := ∅
  threadStacks := ∅

/-! ### Events -/

/-- `on_new_span` -/
def onNewSpan (spanData : SpanData ν) (tracker : SpanTracker ν) : SpanTracker ν :=
  { tracker with spans := tracker.spans.insert spanData.id spanData }

/-- The entry that `on_enter` pushes on a stack. -/
def entry (spanData : SpanData ν) (stack : Stack ν) : SpanStackEntry ν where
  data := spanData
  depth := stack.length
  parentId := stack.getLast?.map (·.data.id)

/-- `on_enter`. The stack of the thread is there afterwards, also when the span is not
registered. -/
def onEnter (thread : ThreadId) (spanId : SpanId) (tracker : SpanTracker ν) : SpanTracker ν :=
  let stack := (tracker.threadStacks.lookup thread).getD []
  match tracker.spans.lookup spanId with
  | some spanData =>
    { tracker with
      threadStacks := tracker.threadStacks.insert thread (stack ++ [entry spanData stack]) }
  | none => { tracker with threadStacks := tracker.threadStacks.insert thread stack }

/-- The stacks with another stack for a thread, without it when it is empty. -/
def putStack (thread : ThreadId) (stack : Stack ν) (tracker : SpanTracker ν) : SpanTracker ν :=
  if stack = [] then
    { tracker with threadStacks := tracker.threadStacks.erase thread }
  else
    { tracker with threadStacks := tracker.threadStacks.insert thread stack }

/-- `on_exit`. Only the innermost span is popped. -/
def onExit (thread : ThreadId) (spanId : SpanId) (tracker : SpanTracker ν) : SpanTracker ν :=
  match tracker.threadStacks.lookup thread with
  | some stack =>
    match stack.getLast? with
    | some current =>
      if current.data.id = spanId then
        tracker.putStack thread stack.dropLast
      else
        tracker.putStack thread stack
    | none => tracker.putStack thread stack
  | none => tracker

/-- `on_close`. Of the stacks only the one of the thread that closes the span is searched. -/
def onClose (thread : ThreadId) (spanId : SpanId) (tracker : SpanTracker ν) : SpanTracker ν :=
  let tracker := { tracker with spans := tracker.spans.erase spanId }
  match tracker.threadStacks.lookup thread with
  | some stack => tracker.putStack thread (stack.filter fun entry => entry.data.id ≠ spanId)
  | none => tracker

/-- `HashMap::extend` -/
def extend (fields new : Fields ν) : Fields ν :=
  new.entries.foldl (fun fields field => fields.insert field.1 field.2) fields

/-- `on_record` -/
def onRecord (spanId : SpanId) (newFields : Fields ν) (tracker : SpanTracker ν) : SpanTracker ν :=
  match tracker.spans.lookup spanId with
  | some spanData =>
    { tracker with
      spans := tracker.spans.insert spanId
        { spanData with fields := extend spanData.fields newFields } }
  | none => tracker

/-! ### Queries -/

/-- `current_context` -/
def currentContext (thread : ThreadId) (tracker : SpanTracker ν) : Option (SpanContext ν) :=
  match tracker.threadStacks.lookup thread with
  | some stack => stack.getLast?.map (·.context)
  | none => none

/-- `current_stack` -/
def currentStack (thread : ThreadId) (tracker : SpanTracker ν) : List (SpanContext ν) :=
  match tracker.threadStacks.lookup thread with
  | some stack => stack.map (·.context)
  | none => []

/-- `get_span` -/
def getSpan (spanId : SpanId) (tracker : SpanTracker ν) : Option (SpanData ν) :=
  tracker.spans.lookup spanId

/-- `current_depth` -/
def currentDepth (thread : ThreadId) (tracker : SpanTracker ν) : Nat :=
  ((tracker.threadStacks.lookup thread).map (·.length)).getD 0

/-- `in_span` -/
def inSpan (thread : ThreadId) (tracker : SpanTracker ν) : Bool := 0 < tracker.currentDepth thread

/-- `stats` -/
def stats (tracker : SpanTracker ν) : SpanMetrics where
  totalSpans := tracker.spans.entries.length
  activeThreads := tracker.threadStacks.entries.length
  activeSpans := (tracker.threadStacks.entries.map (·.2.length)).sum

/-! ### Runs -/

/-- An event of a thread. -/
inductive Event (ν : Type) where
  | newSpan (spanData : SpanData ν)
  | enter (thread : ThreadId) (spanId : SpanId)
  | exit (thread : ThreadId) (spanId : SpanId)
  | close (thread : ThreadId) (spanId : SpanId)
  | record (spanId : SpanId) (newFields : Fields ν)

/-- The tracker after an event. -/
def after (tracker : SpanTracker ν) : Event ν → SpanTracker ν
  | .newSpan spanData => tracker.onNewSpan spanData
  | .enter thread spanId => tracker.onEnter thread spanId
  | .exit thread spanId => tracker.onExit thread spanId
  | .close thread spanId => tracker.onClose thread spanId
  | .record spanId newFields => tracker.onRecord spanId newFields

/-- The tracker after some events, of any threads. -/
def run (events : List (Event ν)) : SpanTracker ν := events.foldl after new

theorem run_append (events : List (Event ν)) (e : Event ν) :
  run (events ++ [e]) = (run events).after e
  := List.foldl_concat ..

/-! ### The stack of a thread -/

/-- The stack of a thread, empty when there is none. -/
def stack (thread : ThreadId) (tracker : SpanTracker ν) : Stack ν :=
  (tracker.threadStacks.lookup thread).getD []

variable {tracker : SpanTracker ν} {thread thread' : ThreadId} {spanId : SpanId}

theorem currentStack_eq :
  tracker.currentStack thread = (tracker.stack thread).map (·.context)
  := by
  rw [currentStack, stack]
  cases tracker.threadStacks.lookup thread <;> rfl

theorem currentContext_eq :
  tracker.currentContext thread = (tracker.stack thread).getLast?.map (·.context)
  := by
  rw [currentContext, stack]
  cases tracker.threadStacks.lookup thread <;> rfl

/-- The current context is the last of the current stack. -/
theorem currentContext_eq_getLast? :
  tracker.currentContext thread = (tracker.currentStack thread).getLast?
  := by rw [currentContext_eq, currentStack_eq, List.getLast?_map]

theorem stack_putStack {l : Stack ν} :
  (tracker.putStack thread l).stack thread' = if thread' = thread then l else tracker.stack thread'
  := by
  rw [putStack, stack, stack]
  by_cases hthread : thread' = thread
  · subst hthread
    split
    case isTrue hl => simp [hl]
    case isFalse hl => simp
  · split
    · simp [hthread]
    · simp [hthread]

@[simp]
theorem spans_putStack {l : Stack ν} :
  (tracker.putStack thread l).spans = tracker.spans
  := by
  rw [putStack]
  split <;> rfl

/-- Putting back the stack that is there. -/
theorem stack_putStack_self {l : Stack ν} (h : tracker.threadStacks.lookup thread = some l) :
  (tracker.putStack thread l).stack thread' = tracker.stack thread'
  := by
  rw [stack_putStack]
  split
  case isTrue hthread =>
    rw [hthread, stack, h]
    rfl
  case isFalse => rfl

/-! ### What an event does to a stack -/

@[simp]
theorem stack_onNewSpan {spanData : SpanData ν} :
  (tracker.onNewSpan spanData).stack thread = tracker.stack thread
  := rfl

theorem stack_onEnter :
  (tracker.onEnter thread spanId).stack thread' =
    if thread' = thread then
      tracker.stack thread ++
        ((tracker.spans.lookup spanId).map (entry · (tracker.stack thread))).toList
    else
      tracker.stack thread'
  := by
  rw [onEnter]
  by_cases hthread : thread' = thread
  · subst hthread
    cases tracker.spans.lookup spanId <;> simp [stack]
  · cases tracker.spans.lookup spanId <;> simp [stack, hthread]

@[simp]
theorem spans_onEnter :
  (tracker.onEnter thread spanId).spans = tracker.spans
  := by
  rw [onEnter]
  split <;> rfl

theorem stack_onExit :
  (tracker.onExit thread spanId).stack thread' =
    if thread' = thread ∧ (tracker.stack thread).getLast?.map (·.data.id) = some spanId then
      (tracker.stack thread).dropLast
    else
      tracker.stack thread'
  := by
  rw [onExit]
  cases hlookup : tracker.threadStacks.lookup thread with
  | none =>
    have hstack : tracker.stack thread = [] := by simp [stack, hlookup]
    simp [hstack]
  | some l =>
    have hstack : tracker.stack thread = l := by simp [stack, hlookup]
    rw [hstack]
    cases hlast : l.getLast? with
    | none => simp [stack_putStack_self hlookup, hlast]
    | some current =>
      simp only [Option.map_some, Option.some.injEq]
      by_cases hid : current.data.id = spanId
      · simp [hlast, hid, stack_putStack]
      · simp [hlast, hid, stack_putStack_self hlookup]

@[simp]
theorem spans_onExit :
  (tracker.onExit thread spanId).spans = tracker.spans
  := by
  rw [onExit]
  split
  · split
    · split <;> exact spans_putStack
    · apply spans_putStack
  · rfl

theorem spans_onClose :
  (tracker.onClose thread spanId).spans = tracker.spans.erase spanId
  := by
  rw [onClose]
  split
  · apply spans_putStack
  · rfl

theorem stack_onClose :
  (tracker.onClose thread spanId).stack thread' =
    if thread' = thread then
      (tracker.stack thread).filter fun entry => entry.data.id ≠ spanId
    else
      tracker.stack thread'
  := by
  rw [onClose]
  cases hlookup : tracker.threadStacks.lookup thread with
  | none =>
    have hstack : tracker.stack thread = [] := by simp [stack, hlookup]
    simp only [hstack, List.filter_nil]
    split
    case isTrue hthread =>
      rw [hthread]
      apply hstack
    case isFalse => rfl
  | some l =>
    have hstack : tracker.stack thread = l := by simp [stack, hlookup]
    simp only [hstack, stack_putStack]
    rfl

@[simp]
theorem stack_onRecord {newFields : Fields ν} :
  (tracker.onRecord spanId newFields).stack thread = tracker.stack thread
  := by
  rw [onRecord]
  split <;> rfl

theorem lookup_onRecord {spanId' : SpanId} {newFields : Fields ν} :
  (tracker.onRecord spanId newFields).spans.lookup spanId' =
    if spanId' = spanId then
      (tracker.spans.lookup spanId).map fun d => { d with fields := extend d.fields newFields }
    else
      tracker.spans.lookup spanId'
  := by
  rw [onRecord]
  by_cases hid : spanId' = spanId
  · subst hid
    split
    case h_1 d hlookup => simp [hlookup]
    case h_2 hlookup => simp [hlookup]
  · split
    · simp [hid]
    · simp [hid]

end SpanTracker

end FdTracing

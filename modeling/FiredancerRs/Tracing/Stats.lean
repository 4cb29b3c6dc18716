import FiredancerRs.Lib.Runs
import FiredancerRs.Tracing.SpanTracker
import Mathlib.Algebra.BigOperators.Finprod
import Mathlib.Data.Set.Card

/-!
# Statistics

`stats` counts the entries of `thread_stacks` as the active threads. Since `on_enter` makes the
entry of its thread before it looks the span up, entering a span that is not registered leaves an
empty stack behind, which is counted (`not_exactStats`). The statistics are exact after every event
exactly when each span that is entered is registered, or its thread is inside a span
(`exactStats_iff`).
-/

namespace FdTracing.SpanTracker

variable {ν : Type}

/-- What the statistics say is what the threads see, and no empty stack is kept. -/
structure ExactStats (tracker : SpanTracker ν) : Prop where
  activeThreads : tracker.stats.activeThreads = {thread | tracker.currentStack thread ≠ []}.ncard
  activeSpans : tracker.stats.activeSpans = ∑ᶠ thread, (tracker.currentStack thread).length
  occupied : ∀ thread, tracker.threadStacks.lookup thread ≠ some []

/-- No empty stack is kept. -/
def Occupied (tracker : SpanTracker ν) : Prop :=
  ∀ thread, tracker.threadStacks.lookup thread ≠ some []

/-- A span that is entered is registered, or its thread is inside a span. -/
def EntersInside (tracker : SpanTracker ν) : Event ν → Prop
  | .enter thread spanId => (tracker.getSpan spanId).isSome ∨ tracker.inSpan thread
  | _ => True

variable {tracker : SpanTracker ν} {thread thread' : ThreadId} {spanId : SpanId}

/-! ### The table of the stacks -/

/-- The current stack is as long as the stack of the thread. -/
theorem length_currentStack :
  (tracker.currentStack thread).length = (tracker.stack thread).length
  := by rw [currentStack_eq, List.length_map]

theorem inSpan_iff :
  tracker.inSpan thread ↔ tracker.stack thread ≠ []
  := by
  rw [inSpan, decide_eq_true_iff, currentDepth, stack, ← List.length_pos_iff]
  cases tracker.threadStacks.lookup thread <;> rfl

/-- A thread that is in the table has the stack of its entry. -/
theorem stack_of_mem_entries {entry : Sigma fun _ : ThreadId => Stack ν}
    (h : entry ∈ tracker.threadStacks.entries) :
  tracker.stack entry.1 = entry.2
  := by
  rw [stack, AList.mem_lookup_iff.mpr h]
  rfl

/-- The threads that are inside a span are those of the table, when it keeps no empty stack. -/
theorem Occupied.mem_keys_iff (h : tracker.Occupied) :
  thread ∈ tracker.threadStacks.keys ↔ tracker.currentStack thread ≠ []
  := by
  rw [← List.length_pos_iff, length_currentStack, List.length_pos_iff, ← AList.mem_keys,
    ← AList.lookup_isSome, stack]
  have hthread := h thread
  cases hlookup : tracker.threadStacks.lookup thread with
  | none => simp
  | some l =>
    rw [hlookup] at hthread
    simpa using hthread

/-- Without an empty stack the statistics are exact. -/
theorem Occupied.exactStats (h : tracker.Occupied) :
  tracker.ExactStats
  where
  activeThreads := by
    have hset : {thread | tracker.currentStack thread ≠ []}
        = (tracker.threadStacks.keys.toFinset : Set ThreadId) := by
      ext thread
      rw [Set.mem_ofPred_eq, ← h.mem_keys_iff, Finset.mem_coe, List.mem_toFinset]
    rw [hset, Set.ncard_coe_finset, List.toFinset_card_of_nodup tracker.threadStacks.keys_nodup,
      stats, AList.keys, List.keys, List.length_map]
  activeSpans := by
    have hsupport : (Function.support fun thread => (tracker.currentStack thread).length)
        ⊆ tracker.threadStacks.keys.toFinset := by
      intro thread hthread
      rw [Function.mem_support] at hthread
      rw [Finset.mem_coe, List.mem_toFinset, h.mem_keys_iff]
      apply mt (congrArg List.length) hthread
    rw [finsum_eq_sum_of_support_subset _ hsupport,
      List.sum_toFinset _ tracker.threadStacks.keys_nodup, AList.keys, List.keys, List.map_map]
    apply congrArg List.sum
    apply List.map_congr_left
    intro entry hentry
    rw [Function.comp_apply, length_currentStack, stack_of_mem_entries hentry]
  occupied := h

theorem exactStats_iff_occupied :
  tracker.ExactStats ↔ tracker.Occupied
  := ⟨ExactStats.occupied, Occupied.exactStats⟩

/-! ### What an event does to the table -/

theorem occupied_new :
  (new : SpanTracker ν).Occupied
  := by
  intro thread h
  cases h

/-- Putting a stack that is removed when it is empty. -/
theorem Occupied.putStack (h : tracker.Occupied) {l : Stack ν} :
  (tracker.putStack thread l).Occupied
  := by
  intro thread'
  rw [SpanTracker.putStack]
  by_cases hthread : thread' = thread
  · subst hthread
    split
    case isTrue => simp
    case isFalse hl => simpa using hl
  · split
    · simpa [hthread] using h thread'
    · simpa [hthread] using h thread'

theorem Occupied.onExit (h : tracker.Occupied) :
  (tracker.onExit thread spanId).Occupied
  := by
  rw [SpanTracker.onExit]
  split
  · split
    · split <;> apply h.putStack
    · apply h.putStack
  · apply h

theorem Occupied.onClose (h : tracker.Occupied) :
  (tracker.onClose thread spanId).Occupied
  := by
  rw [SpanTracker.onClose]
  split
  · apply Occupied.putStack
    apply h
  · apply h

/-- The stack that `on_enter` leaves for its thread. -/
theorem lookup_onEnter :
  (tracker.onEnter thread spanId).threadStacks.lookup thread'
    = if thread' = thread then some ((tracker.onEnter thread spanId).stack thread)
      else tracker.threadStacks.lookup thread'
  := by
  rw [stack_onEnter, if_pos rfl, onEnter]
  by_cases hthread : thread' = thread
  · subst hthread
    cases tracker.spans.lookup spanId <;> simp [stack]
  · cases tracker.spans.lookup spanId <;> simp [hthread]

/-- `on_enter` leaves an empty stack exactly when the span is not registered and the thread is not
inside one. -/
theorem Occupied.onEnter_iff (h : tracker.Occupied) :
  (tracker.onEnter thread spanId).Occupied
    ↔ (tracker.getSpan spanId).isSome ∨ tracker.inSpan thread
  := by
  have hstack : (tracker.onEnter thread spanId).stack thread ≠ []
      ↔ (tracker.getSpan spanId).isSome ∨ tracker.inSpan thread := by
    rw [inSpan_iff, stack_onEnter, if_pos rfl, getSpan]
    cases tracker.spans.lookup spanId <;> simp
  rw [← hstack]
  constructor
  · intro hafter hempty
    apply hafter thread
    rw [lookup_onEnter, if_pos rfl, hempty]
  · intro hne thread'
    rw [lookup_onEnter]
    split
    · simpa using hne
    · apply h thread'

/-- One event. -/
theorem Occupied.after_iff (h : tracker.Occupied) (e : Event ν) :
  (tracker.after e).Occupied ↔ tracker.EntersInside e
  := by
  cases e with
  | newSpan spanData => apply iff_of_true h trivial
  | enter thread spanId => apply h.onEnter_iff
  | exit thread spanId => apply iff_of_true h.onExit trivial
  | close thread spanId => apply iff_of_true h.onClose trivial
  | record spanId newFields =>
    apply iff_of_true _ trivial
    rw [after, onRecord]
    split <;> apply h

/-- The statistics are exact after every event exactly when each span that is entered is registered,
or its thread is inside a span. -/
theorem exactStats_iff (events : List (Event ν)) :
  Runs.Throughout after ExactStats events new ↔ Runs.Along after EntersInside events new
  := by
  apply Runs.throughout_iff
  · intro tracker e h
    rw [exactStats_iff_occupied] at h ⊢
    apply h.after_iff
  · apply exactStats_iff_occupied.mpr occupied_new

/-- A thread that enters a span that is not registered is counted as active. -/
theorem not_exactStats :
  ¬ ∀ events : List (Event Nat), (run events).ExactStats
  := by
  intro h
  apply (h [.enter 0 1]).occupied 0
  rfl

end FdTracing.SpanTracker

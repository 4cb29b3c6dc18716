import FiredancerRs.Tracing.OpenSpans

/-!
# Exits

A span that a thread has exited as often as it entered it should be gone from the stack of the
thread. Since `on_exit` pops only the innermost entry, a span that is exited out of order stays
(`not_exited_gone`). When each exit is in turn it is gone after every event (`exited_gone`).
-/

namespace FdTracing.SpanTracker

variable {ν : Type}

/-! ### Counting events -/

/-- The event is the entry of a thread into a span. -/
def Event.enters (thread : ThreadId) (spanId : SpanId) : Event ν → Bool
  | .enter thread' spanId' => thread' = thread ∧ spanId' = spanId
  | _ => false

/-- The event is the exit of a thread from a span. -/
def Event.exits (thread : ThreadId) (spanId : SpanId) : Event ν → Bool
  | .exit thread' spanId' => thread' = thread ∧ spanId' = spanId
  | _ => false

/-- How often a thread has entered a span. -/
def entered (thread : ThreadId) (spanId : SpanId) (events : List (Event ν)) : Nat :=
  events.countP (Event.enters thread spanId)

/-- How often a thread has exited a span. -/
def exited (thread : ThreadId) (spanId : SpanId) (events : List (Event ν)) : Nat :=
  events.countP (Event.exits thread spanId)

/-- How often a span lies on a stack. -/
def occurrences (spanId : SpanId) (stack : Stack ν) : Nat :=
  stack.countP fun entry => entry.data.id = spanId

/-- An exit is in turn when the thread is inside the span, and the span is the innermost entry of
the stack if it is on the stack. Any other event is in turn. -/
def InTurn (events : List (Event ν)) : Event ν → Prop
  | .exit thread spanId =>
    exited thread spanId events < entered thread spanId events
      ∧ (0 < occurrences spanId ((run events).stack thread) →
        ((run events).stack thread).getLast?.map (·.data.id) = some spanId)
  | _ => True

/-- Each event of the run is in turn. -/
inductive Orderly : List (Event ν) → Prop where
  | nil : Orderly []
  | snoc {events : List (Event ν)} {e : Event ν} :
    Orderly events → InTurn events e → Orderly (events ++ [e])

variable {events : List (Event ν)} {thread thread' : ThreadId} {spanId spanId' : SpanId}
variable {stack : Stack ν} {tracker : SpanTracker ν}

theorem entered_concat {e : Event ν} :
  entered thread spanId (events ++ [e])
    = entered thread spanId events + if e.enters thread spanId then 1 else 0
  := by rw [entered, List.countP_append, List.countP_singleton, entered]

theorem exited_concat {e : Event ν} :
  exited thread spanId (events ++ [e])
    = exited thread spanId events + if e.exits thread spanId then 1 else 0
  := by rw [exited, List.countP_append, List.countP_singleton, exited]

theorem occurrences_concat {entry : SpanStackEntry ν} :
  occurrences spanId (stack ++ [entry])
    = occurrences spanId stack + if entry.data.id = spanId then 1 else 0
  := by
  rw [occurrences, List.countP_append, List.countP_singleton, occurrences]
  simp

theorem occurrences_filter_le {p : SpanStackEntry ν → Bool} :
  occurrences spanId (stack.filter p) ≤ occurrences spanId stack
  := List.Sublist.countP_le List.filter_sublist

/-- Popping the innermost entry. -/
theorem occurrences_dropLast
    (hlast : stack.getLast?.map (·.data.id) = some spanId') :
  occurrences spanId stack.dropLast + (if spanId' = spanId then 1 else 0)
    = occurrences spanId stack
  := by
  obtain ⟨entry, hentry, rfl⟩ := Option.map_eq_some_iff.mp hlast
  obtain ⟨outer, rfl⟩ := List.getLast?_eq_some_iff.mp hentry
  rw [List.dropLast_concat, occurrences_concat]

/-! ### Registered spans -/

/-- Each span is registered under its own number. -/
def Keyed (tracker : SpanTracker ν) : Prop :=
  ∀ spanId, ∀ d ∈ tracker.spans.lookup spanId, d.id = spanId

theorem Keyed.of_insert (h : tracker.Keyed) {spans : AList fun _ : SpanId => SpanData ν}
    {spanData : SpanData ν} (hid : spanData.id = spanId)
    (hspans : spans = tracker.spans.insert spanId spanData) {k : SpanId} {d : SpanData ν}
    (hd : d ∈ spans.lookup k) :
  d.id = k
  := by
  subst hspans
  by_cases hk : k = spanId
  · subst hk
    rw [AList.lookup_insert] at hd
    cases hd
    apply hid
  · rw [AList.lookup_insert_ne hk] at hd
    apply h k d hd

theorem Keyed.after (h : tracker.Keyed) (e : Event ν) :
  (tracker.after e).Keyed
  := by
  intro k d hd
  cases e with
  | newSpan spanData => exact h.of_insert rfl rfl hd
  | enter thread spanId =>
    rw [SpanTracker.after, spans_onEnter] at hd
    apply h k d hd
  | exit thread spanId =>
    rw [SpanTracker.after, spans_onExit] at hd
    apply h k d hd
  | close thread spanId =>
    rw [SpanTracker.after, spans_onClose] at hd
    by_cases hk : k = spanId
    · rw [hk, AList.lookup_erase] at hd
      cases hd
    · rw [AList.lookup_erase_ne hk] at hd
      apply h k d hd
  | record spanId newFields =>
    rw [SpanTracker.after, lookup_onRecord] at hd
    split at hd
    case isTrue hk =>
      obtain ⟨d', hd', rfl⟩ := Option.map_eq_some_iff.mp hd
      rw [hk]
      apply h spanId d' hd'
    case isFalse => exact h k d hd

theorem keyed_run :
  (run events).Keyed
  := by
  induction events using List.reverseRecOn with
  | nil =>
    intro k d hd
    cases hd
  | append_singleton events e ih =>
    rw [run_append]
    apply ih.after e

/-! ### Exits in turn -/

/-- An event that is in turn leaves a span on the stack at most as often as the thread is inside
it. -/
theorem occurrences_step {e : Event ν}
    (h : ∀ thread spanId, occurrences spanId ((run events).stack thread)
      + exited thread spanId events ≤ entered thread spanId events)
    (hturn : InTurn events e) (thread : ThreadId) (spanId : SpanId) :
  occurrences spanId (((run events).after e).stack thread) + exited thread spanId (events ++ [e])
    ≤ entered thread spanId (events ++ [e])
  := by
  have hbefore := h thread spanId
  rw [entered_concat, exited_concat]
  cases e with
  | newSpan d => simpa [SpanTracker.after, Event.enters, Event.exits] using hbefore
  | record spanId' newFields => simpa [SpanTracker.after, Event.enters, Event.exits] using hbefore
  | close thread' spanId' =>
    have hle : occurrences spanId (((run events).onClose thread' spanId').stack thread)
        ≤ occurrences spanId ((run events).stack thread) := by
      rw [stack_onClose]
      split
      case isTrue hthread =>
        rw [hthread]
        apply occurrences_filter_le
      case isFalse => exact le_rfl
    simp only [SpanTracker.after, Event.enters, Event.exits, Bool.false_eq_true, if_false]
    omega
  | enter thread' spanId' =>
    simp only [SpanTracker.after, stack_onEnter, Event.enters, Event.exits, Bool.false_eq_true,
      if_false, decide_eq_true_eq]
    by_cases hthread : thread = thread'
    · subst hthread
      rw [if_pos rfl]
      cases hlookup : (run events).spans.lookup spanId' with
      | none =>
        simp only [Option.map_none, Option.toList_none, List.append_nil]
        omega
      | some d =>
        have hid : d.id = spanId' := keyed_run spanId' d hlookup
        simp only [Option.map_some, Option.toList_some, occurrences_concat, entry, hid, true_and]
        omega
    · rw [if_neg hthread]
      omega
  | exit thread' spanId' =>
    obtain ⟨hinside, hinnermost⟩ := hturn
    simp only [SpanTracker.after, stack_onExit, Event.enters, Event.exits, Bool.false_eq_true,
      if_false, decide_eq_true_eq]
    by_cases hthread : thread = thread'
    · subst hthread
      by_cases hlast : ((run events).stack thread).getLast?.map (·.data.id) = some spanId'
      · have hpop := @occurrences_dropLast _ spanId _ _ hlast
        rw [if_pos ⟨rfl, hlast⟩]
        simp only [true_and]
        omega
      · have hgone : ¬0 < occurrences spanId' ((run events).stack thread) := mt hinnermost hlast
        rw [if_neg fun hand => hlast hand.2]
        by_cases hid : spanId' = spanId
        · subst hid
          simp only [and_self, if_true]
          omega
        · simp only [hid, and_false, if_false]
          omega
    · rw [if_neg fun hand => hthread hand.1, if_neg fun hand => hthread hand.1.symm]
      omega

theorem Orderly.occurrences_le (h : Orderly events) :
  ∀ thread spanId, occurrences spanId ((run events).stack thread) + exited thread spanId events
    ≤ entered thread spanId events
  := by
  induction h with
  | nil =>
    intro thread spanId
    apply le_rfl
  | snoc _ hturn ih =>
    rw [run_append]
    apply occurrences_step ih hturn

/-- In a run whose exits are all in turn, a span that a thread has exited as often as it entered it
is not on the stack of the thread, nor its current context. -/
theorem exited_gone (h : Orderly events) (thread : ThreadId) (spanId : SpanId)
    (hsame : exited thread spanId events = entered thread spanId events) :
  (∀ context ∈ (run events).currentStack thread, context.id ≠ spanId)
    ∧ ∀ context ∈ (run events).currentContext thread, context.id ≠ spanId
  := by
  have hnone : occurrences spanId ((run events).stack thread) = 0 := by
    have := h.occurrences_le thread spanId
    omega
  have hstack : ∀ context ∈ (run events).currentStack thread, context.id ≠ spanId := by
    intro context hcontext hid
    rw [currentStack_eq] at hcontext
    obtain ⟨entry, hentry, rfl⟩ := List.mem_map.mp hcontext
    apply List.countP_eq_zero.mp hnone entry hentry (decide_eq_true hid)
  use hstack
  intro context hcontext
  apply hstack
  rw [currentContext_eq_getLast?] at hcontext
  apply List.mem_of_getLast? hcontext

/-! ### Two spans -/

/-- A thread exits the spans that it has entered, the inner one first. -/
def unwinding : List (Event Nat) :=
  [.newSpan (span 1 "outer_span"), .newSpan (span 2 "inner_span"), .enter 0 1, .enter 0 2,
    .exit 0 2]

theorem orderly_unwinding :
  Orderly unwinding
  := by
  have houter : Orderly [Event.newSpan (span 1 "outer_span")] := Orderly.nil.snoc trivial
  have hinner := houter.snoc (e := .newSpan (span 2 "inner_span")) trivial
  have hentered := (hinner.snoc (e := .enter 0 1) trivial).snoc (e := .enter 0 2) trivial
  apply hentered.snoc (e := .exit 0 2) ⟨by decide, fun _ => rfl⟩

theorem exited_gone_unwinding :
  (∀ context ∈ (run unwinding).currentStack 0, context.id ≠ 2)
    ∧ ∀ context ∈ (run unwinding).currentContext 0, context.id ≠ 2
  := exited_gone orderly_unwinding 0 2 (by decide)

/-- A thread enters two spans and exits the outer one first. -/
def crossing : List (Event Nat) :=
  [.newSpan (span 1 "outer_span"), .newSpan (span 2 "inner_span"), .enter 0 1, .enter 0 2,
    .exit 0 1, .exit 0 2]

/-- A span that is exited out of turn is left on the stack and becomes the current context. -/
theorem not_exited_gone :
  exited 0 1 crossing = entered 0 1 crossing
    ∧ ((run crossing).getSpan 1).isSome = true
    ∧ (run crossing).currentStack 0 = contexts [span 1 "outer_span"]
    ∧ ((run crossing).currentContext 0).map (·.id) = some 1
  := ⟨by decide, rfl, rfl, rfl⟩

end FdTracing.SpanTracker

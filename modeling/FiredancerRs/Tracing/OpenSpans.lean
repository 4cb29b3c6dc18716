import FiredancerRs.Tracing.SpanTracker
import Mathlib.Data.List.Induction

/-!
# Open spans

What the tracker is for: each thread has a list of open spans, from the outermost to the innermost.
A run is well nested when a span is entered while it is registered, the innermost open span of a
thread is the one that is exited, and a span is closed when no thread is inside it (`Opens`). On
such runs, of any threads, the tracker simulates the lists of open spans (`simulates`).
-/

namespace FdTracing

variable {ν : Type}

/-! ### The abstract model -/

/-- The spans that are registered, and for each thread its open spans with what they were registered
with when they were entered. -/
structure OpenSpans (ν : Type) where
  registered : SpanId → Option (SpanData ν)
  opened : ThreadId → List (SpanData ν)

namespace OpenSpans

/-- No span is registered or open. -/
def none : OpenSpans ν where
  registered _ := .none
  opened _ := []

variable (s : OpenSpans ν)

/-- A thread gets other open spans. -/
def setOpened (thread : ThreadId) (opened : List (SpanData ν)) : OpenSpans ν :=
  { s with opened := Function.update s.opened thread opened }

/-- A span is registered otherwise, or no longer. -/
def setRegistered (spanId : SpanId) (spanData : Option (SpanData ν)) : OpenSpans ν :=
  { s with registered := Function.update s.registered spanId spanData }

/-- A well-nested event. -/
inductive Step : SpanTracker.Event ν → OpenSpans ν → Prop where
  | newSpan (d : SpanData ν) : Step (.newSpan d) (s.setRegistered d.id (some d))
  | enter (thread : ThreadId) (spanId : SpanId) {d : SpanData ν}
      (registered : s.registered spanId = some d) :
    Step (.enter thread spanId) (s.setOpened thread (s.opened thread ++ [d]))
  | exit (thread : ThreadId) (outer : List (SpanData ν)) (d : SpanData ν)
      (innermost : s.opened thread = outer ++ [d]) :
    Step (.exit thread d.id) (s.setOpened thread outer)
  | close (thread : ThreadId) {spanId : SpanId}
      (outside : ∀ thread', ∀ d ∈ s.opened thread', d.id ≠ spanId) :
    Step (.close thread spanId) (s.setRegistered spanId .none)
  | record (spanId : SpanId) (newFields : Fields ν) :
    Step (.record spanId newFields)
      (s.setRegistered spanId ((s.registered spanId).map fun d =>
        { d with fields := SpanTracker.extend d.fields newFields }))

variable {s}

theorem opened_setOpened {thread thread' : ThreadId} {opened : List (SpanData ν)} :
  (s.setOpened thread opened).opened thread'
    = if thread' = thread then opened else s.opened thread'
  := Function.update_apply ..

theorem registered_setRegistered {spanId spanId' : SpanId} {spanData : Option (SpanData ν)} :
  (s.setRegistered spanId spanData).registered spanId'
    = if spanId' = spanId then spanData else s.registered spanId'
  := Function.update_apply ..

/-- A well-nested run, with the open spans that it leads to. -/
inductive Opens : List (SpanTracker.Event ν) → OpenSpans ν → Prop where
  | nil : Opens [] none
  | snoc {events : List (SpanTracker.Event ν)} {s s' : OpenSpans ν} {e : SpanTracker.Event ν} :
    Opens events s → s.Step e s' → Opens (events ++ [e]) s'

end OpenSpans

open OpenSpans

/-! ### Simulation -/

/-- The stack of some open spans: the depth of a span is its index, and its parent is the span
before it. -/
def entries (opened : List (SpanData ν)) : Stack ν :=
  opened.mapIdx fun i d =>
    { data := d, depth := i, parentId := (opened.take i).getLast?.map (·.id) }

/-- What is seen of some open spans. -/
def contexts (opened : List (SpanData ν)) : List (SpanContext ν) :=
  (entries opened).map (·.context)

variable {opened : List (SpanData ν)} {d : SpanData ν}

theorem entries_concat :
  entries (opened ++ [d])
    = entries opened
      ++ [{ data := d, depth := opened.length, parentId := opened.getLast?.map (·.id) }]
  := by
  rw [entries, List.mapIdx_concat, entries, List.take_left]
  congr 1
  apply List.ext_getElem?
  intro i
  rw [List.getElem?_mapIdx, List.getElem?_mapIdx]
  cases hi : opened[i]? with
  | none => rfl
  | some d' =>
    have hlt : i < opened.length := (List.getElem?_eq_some_iff.mp hi).1
    rw [List.take_append_of_le_length (Nat.le_of_lt hlt)]

theorem length_entries :
  (entries opened).length = opened.length
  := by rw [entries, List.length_mapIdx]

/-- The spans of a stack are the open ones. -/
theorem map_data_entries :
  (entries opened).map (·.data) = opened
  := by
  induction opened using List.reverseRecOn with
  | nil => rfl
  | append_singleton opened d ih => rw [entries_concat, List.map_append, ih, List.map_singleton]

/-- The innermost entry holds the innermost span. -/
theorem getLast?_entries :
  (entries opened).getLast?.map (·.data) = opened.getLast?
  := by rw [← List.getLast?_map, map_data_entries]

/-- What `on_enter` pushes. -/
theorem entries_push :
  entries opened ++ [SpanTracker.entry d (entries opened)] = entries (opened ++ [d])
  := by
  have hparent : (entries opened).getLast?.map (·.data.id) = opened.getLast?.map (·.id) := by
    rw [← getLast?_entries, Option.map_map]
    rfl
  rw [entries_concat, SpanTracker.entry, length_entries, hparent]

/-- The tables of the tracker are those of the open spans. -/
structure Simulates (tracker : SpanTracker ν) (s : OpenSpans ν) : Prop where
  spans : ∀ spanId, tracker.spans.lookup spanId = s.registered spanId
  stack : ∀ thread, tracker.stack thread = entries (s.opened thread)

theorem simulates_new :
  Simulates (SpanTracker.new : SpanTracker ν) none
  where
  spans _ := rfl
  stack _ := rfl

variable {tracker tracker' : SpanTracker ν} {s s' : OpenSpans ν} {e : SpanTracker.Event ν}

/-- The table of the spans with another value for one of them. -/
theorem Simulates.setRegistered (h : Simulates tracker s) {spanId : SpanId}
    {spanData : Option (SpanData ν)} (hself : tracker'.spans.lookup spanId = spanData)
    (hne : ∀ k ≠ spanId, tracker'.spans.lookup k = tracker.spans.lookup k)
    (hstacks : ∀ thread, tracker'.stack thread = tracker.stack thread) :
  Simulates tracker' (s.setRegistered spanId spanData)
  where
  spans k := by
    rw [registered_setRegistered]
    split
    case isTrue hk => rw [hk, hself]
    case isFalse hk => rw [hne k hk, h.spans]
  stack thread := by
    rw [hstacks, h.stack]
    rfl

/-- The stacks with another one for a thread. -/
theorem Simulates.setOpened (h : Simulates tracker s) {thread : ThreadId}
    (hself : tracker'.stack thread = entries opened)
    (hne : ∀ thread' ≠ thread, tracker'.stack thread' = tracker.stack thread')
    (hspans : tracker'.spans = tracker.spans) :
  Simulates tracker' (s.setOpened thread opened)
  where
  spans k := by
    rw [hspans, h.spans]
    rfl
  stack thread' := by
    rw [opened_setOpened]
    split
    case isTrue hthread => rw [hthread, hself]
    case isFalse hthread => rw [hne thread' hthread, h.stack]

/-- A well-nested event keeps the tracker at the open spans. -/
theorem Simulates.step (h : Simulates tracker s) (hstep : s.Step e s') :
  Simulates (tracker.after e) s'
  := by
  cases hstep with
  | newSpan d =>
    apply h.setRegistered (AList.lookup_insert _)
    · intro k hk
      apply AList.lookup_insert_ne hk
    · intro thread
      rfl
  | @enter thread spanId d registered =>
    apply h.setOpened
    · rw [SpanTracker.after, SpanTracker.stack_onEnter, if_pos rfl, h.spans, registered, h.stack]
      apply entries_push
    · intro thread' hthread
      rw [SpanTracker.after, SpanTracker.stack_onEnter, if_neg hthread]
    · apply SpanTracker.spans_onEnter
  | exit thread outer d innermost =>
    have hstack : tracker.stack thread = entries (outer ++ [d]) := by rw [h.stack, innermost]
    have hlast : (tracker.stack thread).getLast?.map (·.data.id) = some d.id := by
      rw [hstack, entries_concat, List.getLast?_concat]
      rfl
    apply h.setOpened
    · rw [SpanTracker.after, SpanTracker.stack_onExit, if_pos ⟨rfl, hlast⟩, hstack, entries_concat,
        List.dropLast_concat]
    · intro thread' hthread
      rw [SpanTracker.after, SpanTracker.stack_onExit, if_neg fun hand => hthread hand.1]
    · apply SpanTracker.spans_onExit
  | @close thread spanId outside =>
    have hspans := @SpanTracker.spans_onClose _ tracker thread spanId
    apply h.setRegistered
    · rw [SpanTracker.after, hspans, AList.lookup_erase]
    · intro k hk
      rw [SpanTracker.after, hspans, AList.lookup_erase_ne hk]
    · intro thread'
      rw [SpanTracker.after, SpanTracker.stack_onClose]
      split
      case isFalse => rfl
      case isTrue hthread =>
        rw [hthread]
        apply List.filter_eq_self.mpr
        intro entry hentry
        apply decide_eq_true
        apply outside thread
        rw [← @map_data_entries _ (s.opened thread), ← h.stack]
        apply List.mem_map_of_mem hentry
  | record spanId newFields =>
    apply h.setRegistered
    · rw [SpanTracker.after, SpanTracker.lookup_onRecord, if_pos rfl, h.spans]
    · intro k hk
      rw [SpanTracker.after, SpanTracker.lookup_onRecord, if_neg hk]
    · intro thread
      apply SpanTracker.stack_onRecord

theorem OpenSpans.Opens.simulates {events : List (SpanTracker.Event ν)} (h : Opens events s) :
  Simulates (SpanTracker.run events) s
  := by
  induction h with
  | nil => exact simulates_new
  | snoc _ hstep ih =>
    rw [SpanTracker.run_append]
    apply ih.step hstep

/-- On a well-nested run the current stack of each thread is its open spans, from the outermost to
the innermost, and its current context the last of them. -/
theorem currentStack_simulates {events : List (SpanTracker.Event ν)} (h : Opens events s)
    (thread : ThreadId) :
  (SpanTracker.run events).currentStack thread = contexts (s.opened thread)
    ∧ (SpanTracker.run events).currentContext thread = (contexts (s.opened thread)).getLast?
  := by
  have hstack : (SpanTracker.run events).currentStack thread = contexts (s.opened thread) := by
    rw [SpanTracker.currentStack_eq, h.simulates.stack, contexts]
  use hstack
  rw [SpanTracker.currentContext_eq_getLast?, hstack]

/-! ### Two threads -/

/-- A span with a number and a name. -/
def span (id : SpanId) (name : String) : SpanData Nat where
  id := id
  name := name
  target := "test_target"
  level := .info
  fields := ∅
  file := some "test.rs"
  line := some 42

/-- A thread that has left its inner span, while another is inside both. -/
def nested : List (SpanTracker.Event Nat) :=
  [.newSpan (span 1 "outer_span"), .newSpan (span 2 "inner_span"), .enter 0 1, .enter 1 1,
    .enter 0 2, .enter 1 2, .exit 0 2]

/-- The open spans of the two threads. -/
theorem opens_nested :
  ∃ s, Opens nested s ∧ s.opened 0 = [span 1 "outer_span"]
    ∧ s.opened 1 = [span 1 "outer_span", span 2 "inner_span"]
  := by
  have houter : Opens [.newSpan (span 1 "outer_span")] _ := Opens.nil.snoc (.newSpan _)
  have hinner := houter.snoc (.newSpan (span 2 "inner_span"))
  have hentered := (hinner.snoc (.enter 0 1 rfl)).snoc (.enter 1 1 rfl)
  have hboth := (hentered.snoc (.enter 0 2 rfl)).snoc (.enter 1 2 rfl)
  exact ⟨_, hboth.snoc (.exit 0 [span 1 "outer_span"] (span 2 "inner_span") rfl), rfl, rfl⟩

theorem currentStack_simulates_nested :
  ((SpanTracker.run nested).currentStack 0 = contexts [span 1 "outer_span"]
    ∧ (SpanTracker.run nested).currentContext 0 = (contexts [span 1 "outer_span"]).getLast?)
    ∧ (SpanTracker.run nested).currentStack 1
      = contexts [span 1 "outer_span", span 2 "inner_span"]
    ∧ (SpanTracker.run nested).currentContext 1
      = (contexts [span 1 "outer_span", span 2 "inner_span"]).getLast?
  := by
  obtain ⟨s, hopens, hfirst, hsecond⟩ := opens_nested
  rw [← hfirst, ← hsecond]
  exact ⟨currentStack_simulates hopens 0, currentStack_simulates hopens 1⟩

end FdTracing

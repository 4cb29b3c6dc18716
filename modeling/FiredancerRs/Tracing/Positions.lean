import FiredancerRs.Lib.Runs
import FiredancerRs.Tracing.OpenSpans

/-!
# Positions

The depth and the parent of an entry are those at the time when its span was entered. They stay its
index and the entry before it as long as the stack is only popped. Since `on_close` takes the
entries of its span out of the middle of the stack, those above keep the positions they had
(`not_positioned`). The stacks are positioned after every event exactly when each span that is
closed has no other above it (`positioned_iff`).
-/

namespace FdTracing

variable {ν : Type}

/-- The depth of each context is its index, and its parent is the one before it. -/
def Positioned (contexts : List (SpanContext ν)) : Prop :=
  ∀ i context, contexts[i]? = some context →
    context.depth = i ∧ context.parentId = (contexts.take i).getLast?.map (·.id)

variable {contexts : List (SpanContext ν)} {context : SpanContext ν} {spanId : SpanId}

theorem positioned_nil :
  Positioned ([] : List (SpanContext ν))
  := by
  intro i context h
  cases h

theorem positioned_concat :
  Positioned (contexts ++ [context])
    ↔ Positioned contexts ∧ context.depth = contexts.length
      ∧ context.parentId = contexts.getLast?.map (·.id)
  := by
  constructor
  · intro h
    constructor
    · intro i context' hi
      have hlt := (List.getElem?_eq_some_iff.mp hi).1
      have hentry := h i context' ((List.getElem?_append_left hlt).trans hi)
      rwa [List.take_append_of_le_length (Nat.le_of_lt hlt)] at hentry
    · have hlast := h contexts.length context List.getElem?_concat_length
      rwa [List.take_left] at hlast
  · rintro ⟨h, hlast⟩ i context' hi
    rcases Nat.lt_or_ge i contexts.length with hlt | hge
    · rw [List.getElem?_append_left hlt] at hi
      rw [List.take_append_of_le_length (Nat.le_of_lt hlt)]
      apply h i context' hi
    · have hlength := (List.getElem?_eq_some_iff.mp hi).1
      rw [List.length_append, List.length_singleton] at hlength
      obtain rfl : i = contexts.length := by omega
      rw [List.getElem?_concat_length] at hi
      obtain rfl := Option.some.inj hi
      rwa [List.take_left]

/-- Popping the innermost context. -/
theorem Positioned.dropLast (h : Positioned contexts) :
  Positioned contexts.dropLast
  := by
  cases contexts using List.reverseRecOn with
  | nil => apply h
  | append_singleton contexts context =>
    rw [List.dropLast_concat]
    apply (positioned_concat.mp h).1

/-- No span but this one lies above it. -/
def Topmost (spanId : SpanId) (contexts : List (SpanContext ν)) : Prop :=
  contexts.Pairwise fun lower upper => lower.id = spanId → upper.id = spanId

theorem topmost_concat :
  Topmost spanId (contexts ++ [context])
    ↔ Topmost spanId contexts ∧ ∀ lower ∈ contexts, lower.id = spanId → context.id = spanId
  := by
  rw [Topmost, List.pairwise_append]
  simp [Topmost]

/-- The contexts that are left when a span is taken out are positioned exactly when no other span
lies above it. -/
theorem Positioned.filter_iff (h : Positioned contexts) :
  Positioned (contexts.filter fun context => context.id ≠ spanId) ↔ Topmost spanId contexts
  := by
  induction contexts using List.reverseRecOn with
  | nil => apply iff_of_true positioned_nil List.Pairwise.nil
  | append_singleton contexts context ih =>
    obtain ⟨hbelow, hdepth, hparent⟩ := positioned_concat.mp h
    rw [topmost_concat, ← ih hbelow, List.filter_append]
    by_cases hid : context.id = spanId
    · simp [hid]
    · have hkept : [context].filter (fun context => context.id ≠ spanId) = [context] := by
        simp [hid]
      -- the context that is kept has its old depth, so everything below it is kept
      rw [hkept, positioned_concat, hdepth, hparent]
      constructor
      · rintro ⟨hfilter, hlength, -⟩
        use hfilter
        intro lower hlower hlow
        have hall := List.length_filter_eq_length_iff.mp hlength.symm lower hlower
        simp [hlow] at hall
      · rintro ⟨hfilter, hnone⟩
        have hself : contexts.filter (fun context => context.id ≠ spanId) = contexts := by
          apply List.filter_eq_self.mpr
          intro lower hlower
          apply decide_eq_true
          intro hlow
          apply hid (hnone lower hlower hlow)
        rw [hself]
        use hbelow

namespace SpanTracker

/-- The current stacks of all threads are positioned. -/
def AllPositioned (tracker : SpanTracker ν) : Prop :=
  ∀ thread, Positioned (tracker.currentStack thread)

/-- A span that is closed has no other above it on the stack of the thread that closes it. -/
def ClosesTopmost (tracker : SpanTracker ν) : Event ν → Prop
  | .close thread spanId => Topmost spanId (tracker.currentStack thread)
  | _ => True

variable {tracker : SpanTracker ν} {thread thread' : ThreadId}

/-- The context of the entry that `on_enter` pushes. -/
theorem positioned_enter {stack : Stack ν} {spanData : SpanData ν}
    (h : Positioned (stack.map (·.context))) :
  Positioned ((stack ++ [entry spanData stack]).map (·.context))
  := by
  rw [List.map_append, List.map_singleton, positioned_concat, List.length_map, List.getLast?_map,
    Option.map_map]
  apply And.intro h ⟨rfl, rfl⟩

theorem AllPositioned.onEnter (h : tracker.AllPositioned) :
  (tracker.onEnter thread spanId).AllPositioned
  := by
  intro thread'
  have hthread := h thread'
  rw [currentStack_eq] at hthread ⊢
  rw [stack_onEnter]
  split
  case isTrue heq =>
    subst heq
    cases tracker.spans.lookup spanId with
    | none => simpa using hthread
    | some spanData => apply positioned_enter hthread
  case isFalse => apply hthread

theorem AllPositioned.onExit (h : tracker.AllPositioned) :
  (tracker.onExit thread spanId).AllPositioned
  := by
  intro thread'
  rw [currentStack_eq, stack_onExit]
  split
  · have hthread := (h thread).dropLast
    rw [currentStack_eq] at hthread
    rw [List.map_dropLast]
    apply hthread
  · rw [← currentStack_eq]
    apply h thread'

theorem currentStack_onClose :
  (tracker.onClose thread spanId).currentStack thread'
    = if thread' = thread then
        (tracker.currentStack thread).filter fun context => context.id ≠ spanId
      else
        tracker.currentStack thread'
  := by
  rw [currentStack_eq, stack_onClose]
  split
  · rw [currentStack_eq, List.filter_map]
    rfl
  · rw [currentStack_eq]

theorem AllPositioned.onClose_iff (h : tracker.AllPositioned) :
  (tracker.onClose thread spanId).AllPositioned ↔ Topmost spanId (tracker.currentStack thread)
  := by
  rw [← (h thread).filter_iff]
  constructor
  · intro hafter
    have hthread := hafter thread
    rwa [currentStack_onClose, if_pos rfl] at hthread
  · intro hthread thread'
    rw [currentStack_onClose]
    split
    · apply hthread
    · apply h thread'

/-- One event. -/
theorem AllPositioned.after_iff (h : tracker.AllPositioned) (e : Event ν) :
  (tracker.after e).AllPositioned ↔ tracker.ClosesTopmost e
  := by
  cases e with
  | newSpan spanData => apply iff_of_true h trivial
  | enter thread spanId => apply iff_of_true h.onEnter trivial
  | exit thread spanId => apply iff_of_true h.onExit trivial
  | close thread spanId => apply h.onClose_iff
  | record spanId newFields =>
    apply iff_of_true _ trivial
    intro thread
    rw [after, currentStack_eq, stack_onRecord, ← currentStack_eq]
    apply h thread

/-- The stacks are positioned after every event exactly when each span that is closed has no other
above it. -/
theorem positioned_iff (events : List (Event ν)) :
  Runs.Throughout after AllPositioned events new ↔ Runs.Along after ClosesTopmost events new
  := by
  apply Runs.throughout_iff
  · intro tracker e h
    apply h.after_iff
  · intro thread
    apply positioned_nil

/-- A thread closes the outer of the two spans that it has entered. -/
def closingOuter : List (Event Nat) :=
  [.newSpan (span 1 "outer_span"), .newSpan (span 2 "inner_span"), .enter 0 1, .enter 0 2,
    .close 0 1]

/-- The inner span keeps its depth and its parent when the outer one is closed. -/
theorem not_positioned :
  ¬ ∀ events : List (Event Nat), (run events).AllPositioned
  := by
  intro h
  obtain ⟨hdepth, -⟩ := h closingOuter 0 0 _ rfl
  cases hdepth

end SpanTracker

end FdTracing

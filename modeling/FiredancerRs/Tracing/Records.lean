import FiredancerRs.Lib.Runs
import FiredancerRs.Tracing.Exits

/-!
# Recorded fields

The fields of a span are in the table of the spans, and `on_enter` copies them into the stack of its
thread. What the table has is what was recorded (`getSpan_eq_recorded`). Since `on_record` changes
only the table, a span that was entered before does not show what is recorded
(`not_seesRecorded`). When the fields of a span are never changed while it lies on a stack, each
current context has all that was recorded (`seesRecorded`).
-/

namespace FdTracing.SpanTracker

variable {ν : Type}

/-! ### What is recorded -/

/-- The fields of a span after an event, from those before it, if it is registered and not
closed. -/
def recordedAfter (spanId : SpanId) (fields : Option (String → Option ν)) :
    Event ν → Option (String → Option ν)
  | .newSpan spanData => if spanData.id = spanId then some (spanData.fields.lookup ·) else fields
  | .record spanId' newFields =>
    if spanId' = spanId then
      fields.map fun fields key => (newFields.lookup key).or (fields key)
    else
      fields
  | .close _ spanId' => if spanId' = spanId then none else fields
  | _ => fields

/-- The fields that were recorded for a span, if it is registered and not closed. -/
def recorded (spanId : SpanId) (events : List (Event ν)) : Option (String → Option ν) :=
  events.foldl (recordedAfter spanId) none

variable {fields newFields : Fields ν} {key : String} {spanId : SpanId} {events : List (Event ν)}

/-- Inserting fields one after the other. -/
theorem lookup_foldl_insert {entries : List (Sigma fun _ : String => ν)} (h : entries.NodupKeys) :
  (entries.foldl (fun fields field => fields.insert field.1 field.2) fields).lookup key
    = (entries.dlookup key).or (fields.lookup key)
  := by
  induction entries generalizing fields with
  | nil => rfl
  | cons field entries ih =>
    obtain ⟨hnew, hrest⟩ := List.nodupKeys_cons.mp h
    rw [List.foldl_cons, ih hrest]
    by_cases hkey : key = field.1
    · subst hkey
      rw [List.dlookup_eq_none.mpr hnew, List.dlookup_cons_eq, AList.lookup_insert]
      rfl
    · rw [List.dlookup_cons_ne _ _ hkey, AList.lookup_insert_ne hkey]

/-- The values of the new fields take the place of the old ones. -/
theorem lookup_extend :
  (extend fields newFields).lookup key = (newFields.lookup key).or (fields.lookup key)
  := lookup_foldl_insert newFields.nodupKeys

variable {tracker : SpanTracker ν}

/-- The values of the fields that a span is registered with. -/
def registeredFields (spanId : SpanId) (tracker : SpanTracker ν) : Option (String → Option ν) :=
  (tracker.getSpan spanId).map fun spanData key => spanData.fields.lookup key

theorem registeredFields_after (e : Event ν) :
  (tracker.after e).registeredFields spanId
    = recordedAfter spanId (tracker.registeredFields spanId) e
  := by
  cases e with
  | newSpan spanData =>
    rw [after, onNewSpan, registeredFields, getSpan, recordedAfter]
    split
    case isTrue hid =>
      subst hid
      rw [AList.lookup_insert]
      rfl
    case isFalse hid => rw [AList.lookup_insert_ne (Ne.symm hid), registeredFields, getSpan]
  | enter thread spanId' => rw [after, registeredFields, getSpan, spans_onEnter]; rfl
  | exit thread spanId' => rw [after, registeredFields, getSpan, spans_onExit]; rfl
  | close thread spanId' =>
    rw [after, registeredFields, getSpan, spans_onClose, recordedAfter]
    split
    case isTrue hid =>
      subst hid
      rw [AList.lookup_erase]
      rfl
    case isFalse hid => rw [AList.lookup_erase_ne (Ne.symm hid), registeredFields, getSpan]
  | record spanId' newFields =>
    rw [after, registeredFields, getSpan, lookup_onRecord, recordedAfter]
    by_cases hid : spanId' = spanId
    · subst hid
      rw [if_pos rfl, if_pos rfl, registeredFields, getSpan, Option.map_map, Option.map_map]
      congr 1
      funext spanData key
      apply lookup_extend
    · rw [if_neg (Ne.symm hid), if_neg hid, registeredFields, getSpan]

/-- The table has what was recorded. -/
theorem getSpan_eq_recorded :
  (run events).registeredFields spanId = recorded spanId events
  := by
  induction events using List.reverseRecOn with
  | nil => rfl
  | append_singleton events e ih =>
    rw [run_append, registeredFields_after, ih, recorded, recorded, List.foldl_concat]

/-! ### What the context shows -/

/-- The current context of each thread has the fields that the table has for its span, and that
were recorded for it, unless the span is closed. -/
def SeesRecorded (events : List (Event ν)) : Prop :=
  ∀ thread, ∀ context ∈ (run events).currentContext thread,
    ∀ spanData ∈ (run events).getSpan context.id,
      (context.fields.lookup · : String → Option ν) = (spanData.fields.lookup ·)
        ∧ recorded context.id events = some (context.fields.lookup ·)

/-- The fields of a span that lies on a stack are those of its copy there. -/
def Copies (tracker : SpanTracker ν) : Prop :=
  ∀ thread, ∀ context ∈ tracker.currentStack thread,
    ∀ values ∈ tracker.registeredFields context.id, values = (context.fields.lookup ·)

/-- The fields that an event gives a span are those that the span has already wherever it lies on a
stack. -/
def KeepsEntered (tracker : SpanTracker ν) (e : Event ν) : Prop :=
  match e with
  | .newSpan spanData =>
    ∀ thread, ∀ context ∈ tracker.currentStack thread, context.id = spanData.id →
      ∀ key, context.fields.lookup key = spanData.fields.lookup key
  | .record spanId newFields =>
    (tracker.getSpan spanId).isSome → ∀ thread, ∀ context ∈ tracker.currentStack thread,
      context.id = spanId → ∀ key, ∀ value ∈ newFields.lookup key,
        context.fields.lookup key = some value
  | _ => True

variable {tracker' : SpanTracker ν} {thread thread' : ThreadId}

theorem copies_new :
  (new : SpanTracker ν).Copies
  := by
  intro thread context hcontext
  cases hcontext

/-- Fewer entries and fewer registered spans. -/
theorem Copies.mono (h : tracker.Copies)
    (hstack : ∀ thread, tracker'.currentStack thread ⊆ tracker.currentStack thread)
    (hfields : ∀ spanId, ∀ values ∈ tracker'.registeredFields spanId,
      values ∈ tracker.registeredFields spanId) :
  tracker'.Copies
  := by
  intro thread context hcontext values hvalues
  apply h thread context (hstack thread hcontext) values (hfields context.id values hvalues)

/-- The fields of one span are others, or are registered anew. -/
theorem Copies.of_registered (h : tracker.Copies) (spanId : SpanId)
    (fields : Option (String → Option ν))
    (hstack : ∀ thread, tracker'.currentStack thread = tracker.currentStack thread)
    (hfields : ∀ k, tracker'.registeredFields k
      = if spanId = k then fields else tracker.registeredFields k)
    (hkeeps : ∀ thread, ∀ context ∈ tracker.currentStack thread, context.id = spanId →
      ∀ values ∈ fields, values = (context.fields.lookup ·)) :
  tracker'.Copies
  := by
  intro thread context hcontext values hvalues
  rw [hstack] at hcontext
  rw [hfields] at hvalues
  split at hvalues
  case isTrue hid => apply hkeeps thread context hcontext hid.symm values hvalues
  case isFalse => apply h thread context hcontext values hvalues

theorem currentStack_congr (h : tracker'.stack thread = tracker.stack thread) :
  tracker'.currentStack thread = tracker.currentStack thread
  := by rw [currentStack_eq, currentStack_eq, h]

theorem Copies.onNewSpan (h : tracker.Copies) {spanData : SpanData ν}
    (hkeeps : tracker.KeepsEntered (.newSpan spanData)) :
  (tracker.onNewSpan spanData).Copies
  := by
  apply h.of_registered spanData.id (some (spanData.fields.lookup ·))
  · intro thread
    rfl
  · intro k
    apply registeredFields_after (.newSpan spanData)
  · rintro thread context hcontext hid _ ⟨⟩
    funext key
    symm
    apply hkeeps thread context hcontext hid

theorem Copies.onRecord (h : tracker.Copies) {newFields : Fields ν}
    (hkeeps : tracker.KeepsEntered (.record spanId newFields)) :
  (tracker.onRecord spanId newFields).Copies
  := by
  apply h.of_registered spanId ((tracker.registeredFields spanId).map fun fields key =>
    (newFields.lookup key).or (fields key))
  · intro thread
    apply currentStack_congr stack_onRecord
  · intro k
    apply (registeredFields_after (.record spanId newFields)).trans
    rw [recordedAfter]
    split
    case isTrue hid => rw [hid]
    case isFalse => rfl
  · intro thread context hcontext hid values hvalues
    obtain ⟨fields, hfields, rfl⟩ := Option.map_eq_some_iff.mp hvalues
    have hsome : (tracker.getSpan spanId).isSome := by
      obtain ⟨spanData, hspan, -⟩ := Option.map_eq_some_iff.mp hfields
      rw [hspan]
      rfl
    have hold : fields = (context.fields.lookup ·) := by
      apply h thread context hcontext
      rw [hid]
      apply hfields
    funext key
    -- a value that is recorded is one that the copy has already
    cases hnew : newFields.lookup key with
    | none => rw [hold]; rfl
    | some value => rw [hkeeps hsome thread context hcontext hid key value hnew]; rfl

theorem Copies.onEnter (h : tracker.Copies) (hkeyed : tracker.Keyed) :
  (tracker.onEnter thread spanId).Copies
  := by
  intro thread' context hcontext values hvalues
  have hsame : (tracker.onEnter thread spanId).registeredFields context.id
      = tracker.registeredFields context.id := registeredFields_after (.enter thread spanId)
  rw [hsame] at hvalues
  rw [currentStack_eq, stack_onEnter] at hcontext
  split at hcontext
  case isFalse =>
    rw [← currentStack_eq] at hcontext
    apply h thread' context hcontext values hvalues
  case isTrue hthread =>
    rw [List.map_append, List.mem_append, ← currentStack_eq] at hcontext
    rcases hcontext with hcontext | hcontext
    · apply h thread context hcontext values hvalues
    · cases hlookup : tracker.spans.lookup spanId with
      | none =>
        rw [hlookup] at hcontext
        cases hcontext
      | some spanData =>
        rw [hlookup] at hcontext
        obtain rfl := List.mem_singleton.mp hcontext
        have hid : spanData.id = spanId := hkeyed spanId spanData hlookup
        have hget : tracker.registeredFields spanData.id
            = some (spanData.fields.lookup ·) := by
          rw [registeredFields, getSpan, hid, hlookup]
          rfl
        apply (Option.some.inj (hget.symm.trans hvalues)).symm

theorem Copies.onExit (h : tracker.Copies) :
  (tracker.onExit thread spanId).Copies
  := by
  apply h.mono
  · intro thread'
    rw [currentStack_eq, currentStack_eq, stack_onExit]
    split
    case isTrue hlast =>
      obtain ⟨rfl, -⟩ := hlast
      apply List.map_subset
      apply List.dropLast_subset
    case isFalse => apply List.Subset.refl
  · intro k values hvalues
    have hsame : (tracker.onExit thread spanId).registeredFields k = tracker.registeredFields k :=
      registeredFields_after (.exit thread spanId)
    rwa [hsame] at hvalues

theorem Copies.onClose (h : tracker.Copies) :
  (tracker.onClose thread spanId).Copies
  := by
  apply h.mono
  · intro thread'
    rw [currentStack_eq, currentStack_eq, stack_onClose]
    split
    case isTrue hthread =>
      subst hthread
      apply List.map_subset
      apply List.filter_subset_self
    case isFalse => apply List.Subset.refl
  · intro k values hvalues
    have hclosed : (tracker.onClose thread spanId).registeredFields k
        = if spanId = k then none else tracker.registeredFields k :=
      registeredFields_after (.close thread spanId)
    rw [hclosed] at hvalues
    split at hvalues
    · cases hvalues
    · apply hvalues

/-- An event that changes no fields of an entered span. -/
theorem Copies.after (h : tracker.Copies) (hkeyed : tracker.Keyed) {e : Event ν}
    (hkeeps : tracker.KeepsEntered e) :
  (tracker.after e).Copies
  := by
  cases e with
  | newSpan spanData => apply h.onNewSpan hkeeps
  | enter thread spanId => apply h.onEnter hkeyed
  | exit thread spanId => apply h.onExit
  | close thread spanId => apply h.onClose
  | record spanId newFields => apply h.onRecord hkeeps

theorem Copies.sees (h : (run events).Copies) :
  SeesRecorded events
  := by
  intro thread context hcontext spanData hspan
  have hregistered : (run events).registeredFields context.id
      = some (spanData.fields.lookup ·) := by
    rw [registeredFields, Option.mem_def.mp hspan]
    rfl
  have hmem : context ∈ (run events).currentStack thread := by
    rw [currentContext_eq_getLast?] at hcontext
    apply List.mem_of_getLast? hcontext
  have hsame := h thread context hmem _ hregistered
  constructor
  · apply hsame.symm
  · rw [← getSpan_eq_recorded, hregistered, hsame]

/-- In a run that changes no fields of a span while it lies on a stack, each current context has all
that was recorded for its span. -/
theorem seesRecorded (h : Runs.Along SpanTracker.after KeepsEntered events new) :
  ∀ past, past <+: events → SeesRecorded past
  := by
  intro past hpast
  have hinv : Runs.Throughout SpanTracker.after
      (fun tracker : SpanTracker ν => tracker.Keyed ∧ tracker.Copies) events new := by
    refine h.throughout ?_ ⟨@keyed_run _ [], copies_new⟩
    rintro tracker e ⟨hkeyed, hcopies⟩ hkeeps
    apply And.intro (hkeyed.after e) (hcopies.after hkeyed hkeeps)
  apply (hinv past hpast).2.sees

/-! ### A record after the entry -/

/-- A span with one field is recorded before its thread enters it. -/
def recordingFirst : List (Event Nat) :=
  [.newSpan (span 1 "test_span"), .record 1 (AList.singleton "count" 42), .enter 0 1]

theorem seesRecorded_recordingFirst :
  Runs.Along SpanTracker.after KeepsEntered recordingFirst new
    ∧ ∀ past, past <+: recordingFirst → SeesRecorded past
  := by
  have h : Runs.Along SpanTracker.after KeepsEntered recordingFirst new := by
    refine ⟨?_, ?_, trivial, trivial⟩
    · intro thread context hcontext
      cases hcontext
    · intro _ thread context hcontext
      cases hcontext
  use h
  apply seesRecorded h

/-- A field that is recorded after the entry is not shown. -/
theorem not_seesRecorded :
  ¬ ∀ events : List (Event Nat), SeesRecorded events
  := by
  intro h
  have hentered : (run [.newSpan (span 1 "test_span"), .enter 0 1,
      .record 1 (AList.singleton "count" 42)]).currentContext 0
        = some (entry (span 1 "test_span") []).context := rfl
  obtain ⟨hsame, -⟩ := h _ 0 _ hentered _ rfl
  have hcount := congrFun hsame "count"
  revert hcount
  decide

end FdTracing.SpanTracker

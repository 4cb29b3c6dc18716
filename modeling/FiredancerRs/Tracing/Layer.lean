import FiredancerRs.Json.Value
import FiredancerRs.Lib.Float64Text
import FiredancerRs.Tracing.SpanTracker

/-!
# The message of an event

`FdLayer::format_message` writes the fields of an event, which a `FieldVisitor` has recorded as JSON
values, with the span, the thread and the custom fields. The fields other than `message` are written
only when there is more than one field, so the field of an event that has just one is lost, unless
it is the `message` or its text occurs in the rest of the message (`keepsFields_iff`). An integer is
recorded as a double, and it is written as it is exactly when it is the shortest decimal for its
double (`writesIntegers_iff`), as each integer of at most 53 bits is.
-/

namespace FdTracing

open FdJson (JsonValue JsonError MapOrder)

/-- `LayerConfig` -/
structure LayerConfig where
  enableSpans : Bool
  structuredLogging : Bool
  includeLocation : Bool
  includeThreadInfo : Bool
  customFields : List String

/-- `FdLayer` -/
structure FdLayer where
  spanTracker : SpanTracker JsonValue
  config : LayerConfig

/-- The thread that logs: its key in the tracker, the name that it may have, and
`SystemLogger::tid()`. -/
structure Thread where
  id : ThreadId
  name : Option String
  tid : UInt64

/-! ### Recording -/

/-- `FieldVisitor` -/
structure FieldVisitor where
  fields : Fields JsonValue
  config : LayerConfig

namespace FieldVisitor

/-- `FieldVisitor::new` -/
def new (config : LayerConfig) : FieldVisitor where
  fields := ∅
  config := config

/-- `record_debug`, with what `{:?}` writes for the value. -/
def recordDebug (visitor : FieldVisitor) (field value : String) : FieldVisitor :=
  { visitor with fields := visitor.fields.insert field (.string value) }

/-- `record_str` -/
def recordStr (visitor : FieldVisitor) (field value : String) : FieldVisitor :=
  { visitor with fields := visitor.fields.insert field (.string value) }

/-- `record_bool` -/
def recordBool (visitor : FieldVisitor) (field : String) (value : Bool) : FieldVisitor :=
  { visitor with fields := visitor.fields.insert field (.bool value) }

/-- `value as f64` -/
def asF64 (value : Int) : UInt64 :=
  (Float64.ofFraction (decide (value < 0)) value.natAbs 1).toBits

/-- `record_i64` -/
def recordI64 (visitor : FieldVisitor) (field : String) (value : Int64) : FieldVisitor :=
  { visitor with fields := visitor.fields.insert field (.number (asF64 value.toInt)) }

/-- `record_u64` -/
def recordU64 (visitor : FieldVisitor) (field : String) (value : UInt64) : FieldVisitor :=
  { visitor with fields := visitor.fields.insert field (.number (asF64 value.toNat)) }

/-- `record_f64` -/
def recordF64 (visitor : FieldVisitor) (field : String) (value : UInt64) : FieldVisitor :=
  { visitor with fields := visitor.fields.insert field (.number value) }

end FieldVisitor

/-- The value of a field, by the method of `Visit` that it calls. Those that `FieldVisitor` does not
define call `record_debug`. -/
inductive FieldValue where
  | debug (text : String)
  | str (s : String)
  | bool (b : Bool)
  | i64 (v : Int64)
  | u64 (v : UInt64)
  | f64 (bits : UInt64)

namespace FieldVisitor

/-- A field of an event is recorded. -/
def record (visitor : FieldVisitor) (field : String × FieldValue) : FieldVisitor :=
  match field.2 with
  | .debug text => visitor.recordDebug field.1 text
  | .str s => visitor.recordStr field.1 s
  | .bool b => visitor.recordBool field.1 b
  | .i64 v => visitor.recordI64 field.1 v
  | .u64 v => visitor.recordU64 field.1 v
  | .f64 bits => visitor.recordF64 field.1 bits

end FieldVisitor

/-- The fields of an event, with different names, and the target of its metadata. -/
structure Event where
  fields : List (String × FieldValue)
  target : String
  distinct : (fields.map Prod.fst).Nodup

/-- The visitor that has recorded an event. -/
def Event.visitor (event : Event) (config : LayerConfig) : FieldVisitor :=
  event.fields.foldl FieldVisitor.record (.new config)

/-! ### Writing -/

/-- `n.to_string()` of an `f64` -/
def f64ToString (bits : UInt64) : String :=
  match Float64.ofBits bits with
  | some x => x.text
  | none => "NaN"

/-- `format_field_value`, with what `fd_json::to_string_compact` returns. -/
def formatFieldValue (toStringCompact : JsonValue → Except JsonError String) : JsonValue → String
  | .string s => s
  | .number n => f64ToString n
  | .bool b => if b then "true" else "false"
  | .null => "null"
  | value =>
    match toStringCompact value with
    | .ok text => text
    | .error _ => "invalid_json"

/-- `message` with a space behind it when it is not empty, and then a part. -/
def pushPart (message part : String) : String :=
  (if message.isEmpty then message else message ++ " ") ++ part

namespace FdLayer

variable (order : MapOrder) (toStringCompact : JsonValue → Except JsonError String)
  (layer : FdLayer) (thread : Thread)

/-- `key = value` for the fields other than `message`, in the order in which the map iterates. -/
def structuredFields (visitor : FieldVisitor) : List String :=
  (order.order (visitor.fields.entries.map fun e => (e.1, e.2))).filterMap fun (key, value) =>
    if key ≠ "message" then
      some (key ++ " = " ++ formatFieldValue toStringCompact value)
    else
      none

/-- `format_message` -/
def formatMessage (target : String) (visitor : FieldVisitor) : String :=
  let message :=
    match visitor.fields.lookup "message" with
    | some msg => formatFieldValue toStringCompact msg
    | none => ""
  let message :=
    if layer.config.structuredLogging && decide (visitor.fields.entries.length > 1) then
      let structuredFields := structuredFields order toStringCompact visitor
      if structuredFields = [] then
        message
      else
        (if message.isEmpty then message ++ "\x7b " else message ++ " \x7b ")
          ++ ", ".intercalate structuredFields ++ " \x7d"
    else
      message
  let message :=
    if layer.config.enableSpans then
      match layer.spanTracker.currentContext thread.id with
      | some spanContext => pushPart message ("[span: " ++ spanContext.name ++ "]")
      | none => message
    else
      message
  let message :=
    if layer.config.includeThreadInfo then
      pushPart message
        ("[thread: " ++ thread.name.getD "unnamed" ++ " (" ++ toString thread.tid ++ ")]")
    else
      message
  let message := layer.config.customFields.foldl (fun message fieldName =>
    match visitor.fields.lookup fieldName with
    | some value =>
      pushPart message ("[" ++ fieldName ++ ": " ++ formatFieldValue toStringCompact value ++ "]")
    | none => message) message
  if message.isEmpty then "Event at " ++ target else message

/-! ### The parts of a message -/

/-- The parts of a message behind its fields: the span, the thread and the custom fields. -/
def parts (fields : Fields JsonValue) : List String :=
  (if layer.config.enableSpans then
    (layer.spanTracker.currentContext thread.id).toList.map fun c => "[span: " ++ c.name ++ "]"
  else [])
    ++ (if layer.config.includeThreadInfo then
      ["[thread: " ++ thread.name.getD "unnamed" ++ " (" ++ toString thread.tid ++ ")]"]
    else [])
    ++ layer.config.customFields.filterMap fun fieldName =>
      (fields.lookup fieldName).map fun value =>
        "[" ++ fieldName ++ ": " ++ formatFieldValue toStringCompact value ++ "]"

/-- The message as it is behind its fields, or where it comes from when it is empty. -/
def finish (target : String) (fields : Fields JsonValue) (message : String) : String :=
  let message := (layer.parts toStringCompact thread fields).foldl pushPart message
  if message.isEmpty then "Event at " ++ target else message

/-- The text of the field `message`. -/
def messageText (fields : Fields JsonValue) : String :=
  ((fields.lookup "message").map (formatFieldValue toStringCompact)).getD ""

/-- The fields other than `message` behind it. -/
def braced (message : String) (structuredFields : List String) : String :=
  if structuredFields = [] then
    message
  else
    (if message.isEmpty then message ++ "\x7b " else message ++ " \x7b ")
      ++ ", ".intercalate structuredFields ++ " \x7d"

theorem foldl_customFields (fields : Fields JsonValue) (names : List String) (message : String) :
  names.foldl (fun message fieldName =>
    match fields.lookup fieldName with
    | some value =>
      pushPart message ("[" ++ fieldName ++ ": " ++ formatFieldValue toStringCompact value ++ "]")
    | none => message) message
    = (names.filterMap fun fieldName => (fields.lookup fieldName).map fun value =>
        "[" ++ fieldName ++ ": " ++ formatFieldValue toStringCompact value ++ "]").foldl
      pushPart message
  := by
  induction names generalizing message with
  | nil => rfl
  | cons fieldName names ih =>
    rw [List.foldl_cons, ih]
    cases hlookup : fields.lookup fieldName with
    | none => rw [List.filterMap_cons_none (by rw [hlookup]; rfl)]
    | some value => rw [List.filterMap_cons_some (by rw [hlookup]; rfl), List.foldl_cons]

theorem formatMessage_eq (target : String) (visitor : FieldVisitor) :
  formatMessage order toStringCompact layer thread target visitor
    = layer.finish toStringCompact thread target visitor.fields
      (if layer.config.structuredLogging && decide (visitor.fields.entries.length > 1) then
        braced (messageText toStringCompact visitor.fields)
          (structuredFields order toStringCompact visitor)
      else
        messageText toStringCompact visitor.fields)
  := by
  rw [formatMessage, finish, parts, List.foldl_append, List.foldl_append, ← foldl_customFields,
    messageText]
  cases visitor.fields.lookup "message"
  all_goals
    cases layer.config.enableSpans
    · cases layer.config.includeThreadInfo
      · rfl
      · rfl
    · cases layer.spanTracker.currentContext thread.id
      all_goals
        cases layer.config.includeThreadInfo
        · rfl
        · rfl

end FdLayer

/-! ### The recorded fields -/

/-- The JSON value as which a value is recorded. -/
def FieldValue.recorded : FieldValue → JsonValue
  | .debug text => .string text
  | .str s => .string s
  | .bool b => .bool b
  | .i64 v => .number (FieldVisitor.asF64 v.toInt)
  | .u64 v => .number (FieldVisitor.asF64 v.toNat)
  | .f64 bits => .number bits

theorem fields_record (visitor : FieldVisitor) (field : String × FieldValue) :
  (visitor.record field).fields = visitor.fields.insert field.1 field.2.recorded
  := by
  obtain ⟨name, value⟩ := field
  cases value
  all_goals rfl

/-- Fields with different new names are recorded in front of those that are there. -/
theorem entries_foldl_record {fields : List (String × FieldValue)} (visitor : FieldVisitor)
    (hdistinct : (fields.map Prod.fst).Nodup)
    (hnew : ∀ field ∈ fields, field.1 ∉ visitor.fields) :
  (fields.foldl FieldVisitor.record visitor).fields.entries
    = (fields.map fun field => ⟨field.1, field.2.recorded⟩).reverse ++ visitor.fields.entries
  := by
  induction fields generalizing visitor with
  | nil => rfl
  | cons field fields ih =>
    rw [List.map_cons, List.nodup_cons] at hdistinct
    have hhead : field.1 ∉ visitor.fields := hnew field (List.mem_cons_self ..)
    have htail : ∀ field' ∈ fields, field'.1 ∉ (visitor.record field).fields := by
      intro field' hfield'
      rw [fields_record, AList.mem_insert, not_or]
      constructor
      · intro heq
        apply hdistinct.1 (List.mem_map.mpr ⟨field', hfield', heq⟩)
      · apply hnew field' (List.mem_cons_of_mem _ hfield')
    rw [List.foldl_cons, ih _ hdistinct.2 htail, fields_record, AList.entries_insert_of_notMem hhead,
      List.map_cons, List.reverse_cons, List.append_assoc, List.singleton_append]

variable (event : Event) (config : LayerConfig)

theorem entries_visitor :
  (event.visitor config).fields.entries
    = (event.fields.map fun field => ⟨field.1, field.2.recorded⟩).reverse
  := by
  have hentries := entries_foldl_record (.new config) event.distinct
    (fun field _ => AList.notMem_empty field.1)
  rw [Event.visitor, hentries]
  apply List.append_nil

theorem length_entries_visitor :
  (event.visitor config).fields.entries.length = event.fields.length
  := by
  rw [entries_visitor, List.length_reverse, List.length_map]

variable {event config} {key : String} {value : FieldValue}

theorem lookup_visitor (hfield : (key, value) ∈ event.fields) :
  (event.visitor config).fields.lookup key = some value.recorded
  := by
  apply AList.mem_lookup_iff.mpr
  rw [entries_visitor, List.mem_reverse]
  apply List.mem_map.mpr ⟨_, hfield, rfl⟩

/-! ### Texts in a message -/

/-- A text occurs in a message. -/
def Occurs (text message : String) : Prop := text.toList <:+: message.toList

theorem occurs_empty (message : String) : Occurs "" message := List.nil_infix

theorem Occurs.append_right {text message : String} (h : Occurs text message) (after : String) :
  Occurs text (message ++ after)
  := by
  rw [Occurs, String.toList_append]
  apply h.trans (List.prefix_append _ _).isInfix

theorem Occurs.append_left {text message : String} (h : Occurs text message) (before : String) :
  Occurs text (before ++ message)
  := by
  rw [Occurs, String.toList_append]
  apply h.trans (List.suffix_append _ _).isInfix

theorem occurs_intercalate {text separator : String} {texts : List String} (h : text ∈ texts) :
  Occurs text (separator.intercalate texts)
  := by
  rw [Occurs, String.toList_intercalate]
  induction texts with
  | nil => cases h
  | cons first texts ih =>
    cases texts with
    | nil =>
      obtain rfl := List.mem_singleton.mp h
      rw [List.map_singleton, List.intercalate_singleton]
    | cons second texts =>
      rw [List.map_cons, List.map_cons, List.intercalate_cons_cons]
      obtain rfl | h := List.mem_cons.mp h
      · rw [List.append_assoc]
        apply (List.prefix_append _ _).isInfix
      · apply (ih h).trans (List.suffix_append _ _).isInfix

theorem Occurs.pushPart {text message : String} (h : Occurs text message) (part : String) :
  Occurs text (pushPart message part)
  := by
  unfold FdTracing.pushPart
  split
  · apply h.append_right
  · apply (h.append_right " ").append_right

theorem Occurs.foldl_pushPart {text message : String} (h : Occurs text message)
    (parts : List String) :
  Occurs text (parts.foldl FdTracing.pushPart message)
  := by
  induction parts generalizing message with
  | nil => apply h
  | cons part parts ih => apply ih (h.pushPart part)

theorem Occurs.finish {text message : String} (h : Occurs text message) (layer : FdLayer)
    (toStringCompact : JsonValue → Except JsonError String) (thread : Thread) (target : String)
    (fields : Fields JsonValue) :
  Occurs text (layer.finish toStringCompact thread target fields message)
  := by
  have hparts := h.foldl_pushPart (layer.parts toStringCompact thread fields)
  rw [FdLayer.finish]
  split
  · next hempty =>
    -- only the empty text occurs in an empty message
    rw [String.isEmpty_iff.mp hempty] at hparts
    obtain rfl : text = "" := by
      rw [← String.toList_eq_nil_iff]
      apply List.infix_nil.mp hparts
    apply occurs_empty
  · apply hparts

/-! ### Fields are kept -/

namespace FdLayer

variable (order : MapOrder) (toStringCompact : JsonValue → Except JsonError String)
  (layer : FdLayer) (thread : Thread)

/-- `key = value` of a field, or the text of the field `message`. -/
def fieldText (field : String × FieldValue) : String :=
  if field.1 = "message" then
    formatFieldValue toStringCompact field.2.recorded
  else
    field.1 ++ " = " ++ formatFieldValue toStringCompact field.2.recorded

/-- The text of each field of an event occurs in its message. -/
def KeepsFields (event : Event) : Prop :=
  ∀ field ∈ event.fields, Occurs (fieldText toStringCompact field)
    (formatMessage order toStringCompact layer thread event.target (event.visitor layer.config))

/-- What a message says without fields: the parts behind them, or where it comes from when there are
none. -/
def bareText (target : String) (fields : Fields JsonValue) : String :=
  if layer.parts toStringCompact thread fields = [] then
    "Event at " ++ target
  else
    " ".intercalate (layer.parts toStringCompact thread fields)

/-- The event does not have just one field, or this is the `message`, or its text happens to occur
in what the message says without fields. -/
def Spared (event : Event) : Prop :=
  ∀ field, event.fields = [field] → field.1 ≠ "message" →
    Occurs (fieldText toStringCompact field)
      (layer.bareText toStringCompact thread event.target
        (AList.singleton field.1 field.2.recorded))

variable {toStringCompact layer thread}

theorem ne_empty_of_mem_parts {fields : Fields JsonValue} {part : String}
    (h : part ∈ layer.parts toStringCompact thread fields) :
  part ≠ ""
  := by
  rw [parts, List.mem_append, List.mem_append] at h
  obtain (hspan | hthread) | hcustom := h
  · split at hspan
    · obtain ⟨context, -, rfl⟩ := List.mem_map.mp hspan
      simp
    · cases hspan
  · split at hthread
    · obtain rfl := List.mem_singleton.mp hthread
      simp
    · cases hthread
  · obtain ⟨fieldName, -, hsome⟩ := List.mem_filterMap.mp hcustom
    obtain ⟨value, -, rfl⟩ := Option.map_eq_some_iff.mp hsome
    simp

theorem foldl_pushPart_eq {message : String} (hmessage : message ≠ "") (parts : List String) :
  parts.foldl pushPart message = " ".intercalate (message :: parts)
  := by
  induction parts generalizing message with
  | nil => rw [List.foldl_nil, String.intercalate_singleton]
  | cons part parts ih =>
    have hpush : pushPart message part = message ++ " " ++ part := by
      rw [pushPart, if_neg (fun hempty => hmessage (String.isEmpty_iff.mp hempty))]
    have hne : pushPart message part ≠ "" := by
      rw [hpush]
      intro hempty
      apply hmessage (String.append_eq_empty_iff.mp (String.append_eq_empty_iff.mp hempty).1).1
    rw [List.foldl_cons, ih hne, hpush, String.intercalate_cons_cons,
      String.intercalate_cons_append]

theorem finish_empty (target : String) (fields : Fields JsonValue) :
  layer.finish toStringCompact thread target fields ""
    = layer.bareText toStringCompact thread target fields
  := by
  rw [finish, bareText]
  cases hparts : layer.parts toStringCompact thread fields with
  | nil => rfl
  | cons part parts =>
    have hmem : part ∈ layer.parts toStringCompact thread fields := by
      rw [hparts]
      apply List.mem_cons_self
    have hpart : part ≠ "" := ne_empty_of_mem_parts hmem
    have hpush : pushPart "" part = part := String.empty_append
    have hintercalate : " ".intercalate (part :: parts) ≠ "" := by
      cases parts with
      | nil =>
        rw [String.intercalate_singleton]
        apply hpart
      | cons part' parts =>
        rw [String.intercalate_cons_cons]
        intro hempty
        apply hpart (String.append_eq_empty_iff.mp (String.append_eq_empty_iff.mp hempty).1).1
    rw [List.foldl_cons, hpush, foldl_pushPart_eq hpart, if_neg, if_neg (List.cons_ne_nil part parts)]
    intro hempty
    apply hintercalate (String.isEmpty_iff.mp hempty)

variable (toStringCompact layer thread)

/-- The field of an event with one field that is not the `message` does not get into the message. -/
theorem formatMessage_single {event : Event} {field : String × FieldValue}
    (hfields : event.fields = [field]) (hmessage : field.1 ≠ "message") :
  formatMessage order toStringCompact layer thread event.target (event.visitor layer.config)
    = layer.bareText toStringCompact thread event.target
      (AList.singleton field.1 field.2.recorded)
  := by
  have hvisitor : (event.visitor layer.config).fields
      = AList.singleton field.1 field.2.recorded := by
    apply AList.ext
    rw [entries_visitor, hfields]
    rfl
  have hlookup :
      (AList.singleton field.1 field.2.recorded : Fields JsonValue).lookup "message" = none := by
    rw [AList.lookup_eq_none, ← AList.insert_empty, AList.mem_insert]
    simpa using hmessage.symm
  rw [formatMessage_eq, length_entries_visitor, hfields, hvisitor, ← finish_empty, messageText,
    hlookup]
  simp

/-- The message begins with the field `message`, whether other fields follow or not. -/
theorem occurs_message {text : String} {config : Bool} {message : String} {texts : List String}
    (h : Occurs text message) :
  Occurs text (if config then braced message texts else message)
  := by
  unfold braced
  split
  · split
    · apply h
    · apply Occurs.append_right
      apply Occurs.append_right
      split
      · apply h.append_right
      · apply h.append_right
  · apply h

theorem occurs_braced {text message : String} {texts : List String} (h : text ∈ texts) :
  Occurs text (braced message texts)
  := by
  rw [braced, if_neg (List.ne_nil_of_mem h)]
  apply Occurs.append_right
  apply (occurs_intercalate h).append_left

theorem mem_structuredFields {event : Event} {field : String × FieldValue}
    (hfield : field ∈ event.fields) (hmessage : field.1 ≠ "message") (config : LayerConfig) :
  fieldText toStringCompact field
    ∈ structuredFields order toStringCompact (event.visitor config)
  := by
  have hentry : (⟨field.1, field.2.recorded⟩ : Σ _ : String, JsonValue)
      ∈ (event.visitor config).fields.entries := by
    rw [entries_visitor, List.mem_reverse]
    apply List.mem_map.mpr ⟨field, hfield, rfl⟩
  apply List.mem_filterMap.mpr
  use (field.1, field.2.recorded)
  constructor
  · apply (order.perm _).mem_iff.mpr
    apply List.mem_map.mpr ⟨_, hentry, rfl⟩
  · dsimp only
    rw [if_pos hmessage, fieldText, if_neg hmessage]

/-- The field `message` is in each message, and any other field that is not alone. -/
theorem occurs_fieldText {event : Event} {field : String × FieldValue}
    (hstructured : layer.config.structuredLogging = true) (hfield : field ∈ event.fields)
    (hseveral : field.1 = "message" ∨ 1 < event.fields.length) :
  Occurs (fieldText toStringCompact field)
    (formatMessage order toStringCompact layer thread event.target (event.visitor layer.config))
  := by
  rw [formatMessage_eq]
  apply Occurs.finish
  obtain ⟨key, value⟩ := field
  by_cases hmessage : key = "message"
  · apply occurs_message
    rw [messageText, ← hmessage, lookup_visitor hfield, fieldText, if_pos hmessage]
    apply List.infix_rfl
  · have hlength := hseveral.resolve_left hmessage
    rw [length_entries_visitor, hstructured, Bool.true_and, if_pos (decide_eq_true hlength)]
    apply occurs_braced
    apply mem_structuredFields order toStringCompact hfield hmessage

/-- With structured logging the text of each field of an event occurs in its message exactly when
the event does not have just one field, or this is spared. -/
theorem keepsFields_iff (event : Event) (hstructured : layer.config.structuredLogging = true) :
  layer.KeepsFields order toStringCompact thread event
    ↔ layer.Spared toStringCompact thread event
  := by
  constructor
  · intro hkeeps field hfields hmessage
    rw [← formatMessage_single order toStringCompact layer thread hfields hmessage]
    apply hkeeps
    rw [hfields]
    apply List.mem_singleton_self
  · intro hspared field hfield
    by_cases hseveral : field.1 = "message" ∨ 1 < event.fields.length
    · apply occurs_fieldText order toStringCompact layer thread hstructured hfield hseveral
    · obtain ⟨hmessage, hlength⟩ := not_or.mp hseveral
      have hfields : event.fields = [field] := by
        obtain ⟨single, hsingle⟩ := List.length_eq_one_iff.mp
          (Nat.le_antisymm (Nat.not_lt.mp hlength) (List.length_pos_of_mem hfield))
        rw [hsingle] at hfield ⊢
        rw [List.mem_singleton.mp hfield]
      rw [formatMessage_single order toStringCompact layer thread hfields hmessage]
      apply hspared field hfields hmessage

end FdLayer

/-- `LayerConfig::default` -/
def LayerConfig.default : LayerConfig where
  enableSpans := true
  structuredLogging := true
  includeLocation := true
  includeThreadInfo := true
  customFields := []

/-- An event of a module with one field, which is not a message. -/
def readyEvent : Event where
  fields := [("ready", .bool true)]
  target := "app"
  distinct := List.nodup_singleton "ready"

/-- An event of a module with two fields, neither of which is a message. -/
def slotEvent : Event where
  fields := [("ready", .bool true), ("leader", .str "main")]
  target := "app"
  distinct := by decide

theorem keepsFields_iff_slot :
  FdLayer.KeepsFields .inserted (fun _ => .error .memoryError) ⟨.new, .default⟩ ⟨0, some "main", 7⟩
    slotEvent
  := by
  apply (FdLayer.keepsFields_iff .inserted _ _ _ slotEvent rfl).mpr
  intro field hfields
  cases hfields

/-- The message is `[thread: main (7)]`. -/
theorem not_keepsFields :
  ¬ FdLayer.KeepsFields .inserted (fun _ => .error .memoryError) ⟨.new, .default⟩ ⟨0, some "main", 7⟩
    readyEvent
  := by
  intro hkeeps
  have hready := hkeeps ("ready", .bool true) (List.mem_singleton_self _)
  revert hready
  unfold Occurs
  decide

/-! ### Integers -/

namespace FieldVisitor

variable (toStringCompact : JsonValue → Except JsonError String) (visitor : FieldVisitor)
  (field : String)

theorem toString_eq_sign (value : Int) :
  toString value = Float64.sign (decide (value < 0)) ++ toString value.natAbs
  := by
  cases value with
  | ofNat n =>
    have hsign : decide (Int.ofNat n < 0) = false := by simp
    rw [hsign]
    apply String.empty_append.symm
  | negSucc n =>
    rw [decide_eq_true (Int.negSucc_lt_zero n)]
    rfl

theorem f64ToString_iff (value : Int) (hlt : value.natAbs < 2 ^ 64) :
  f64ToString (asF64 value) = toString value ↔ Float64.IsShortest value.natAbs
  := by
  obtain ⟨x, hbits, htext⟩ := Float64.text_iff (decide (value < 0)) hlt
  rw [f64ToString, asF64, hbits, toString_eq_sign]
  apply htext

/-- An integer of at most 53 bits is written as it is. -/
theorem f64ToString_of_lt (value : Int) (hlt : value.natAbs < 2 ^ 53) :
  f64ToString (asF64 value) = toString value
  := (f64ToString_iff value (by omega)).mpr (Float64.isShortest_of_lt hlt)

/-- An integer that is recorded is written as it is exactly when it is the shortest decimal for its
double. -/
theorem writesIntegers_iff :
  (∀ value : Int64,
    ((visitor.recordI64 field value).fields.lookup field).map (formatFieldValue toStringCompact)
      = some (toString value.toInt) ↔ Float64.IsShortest value.toInt.natAbs)
    ∧ ∀ value : UInt64,
      ((visitor.recordU64 field value).fields.lookup field).map (formatFieldValue toStringCompact)
        = some (toString value.toNat) ↔ Float64.IsShortest value.toNat
  := by
  constructor
  · intro value
    have hlt : value.toInt.natAbs < 2 ^ 64 := by
      have := value.toInt_lt
      have := value.le_toInt
      omega
    rw [recordI64, AList.lookup_insert, Option.map_some, formatFieldValue, Option.some.injEq]
    apply f64ToString_iff _ hlt
  · intro value
    rw [recordU64, AList.lookup_insert, Option.map_some, formatFieldValue, Option.some.injEq]
    apply f64ToString_iff value.toNat value.toNat_lt

/-- `2 ^ 53 + 1` is written as `9007199254740992`. -/
theorem not_writesIntegers :
  ¬ ∀ value : UInt64,
    (((new .default).recordU64 "lamports" value).fields.lookup "lamports").map
      (formatFieldValue fun _ => .error .memoryError) = some (toString value.toNat)
  := by
  intro hwrites
  have hvalue := hwrites 9007199254740993
  revert hvalue
  decide

end FieldVisitor

end FdTracing

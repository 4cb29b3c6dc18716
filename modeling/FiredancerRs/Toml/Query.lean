import FiredancerRs.Lib.Utf8
import Mathlib.Algebra.Ring.Nat
import Mathlib.Data.UInt

/-!
# Queries of a TOML document

The typed queries of `TomlPod` over the functions of `fd_pod`, which are not part of the repository.
A query gives a sentinel for a default. When it gets the sentinel back, it takes it for the value if
the path exists, also when the path holds a value of another type. So a query tells exactly what the
pod holds when the path is missing or holds a value of the queried type (`typed_iff`), and
`query_cstr`, whose sentinel is no value, always does (`queryCstr_eq`).
-/

namespace FdToml

/-- Bytes. -/
abbrev Bytes := List UInt8

/-- A value in a pod. A `float` is the bits of an `f32`. -/
inductive PodValue where
  | cstr (text : Bytes)
  | long (v : Int64)
  | ulong (v : UInt64)
  | int (v : Int32)
  | float (bits : UInt32)
  | subpod
  | other
deriving DecidableEq

/-- `CStrBuf` -/
structure CStrBuf where
  buf : Bytes
  length_buf : buf.length = 513

/-- The C string in a buffer. -/
def CStrBuf.text (c : CStrBuf) : Bytes := c.buf.takeWhile (· ≠ 0)

/-- `make_cstr_on_stack` -/
def makeCstrOnStack (path : String) : Option CStrBuf :=
  let bytes := Utf8.bytes path
  if h : bytes.length ≥ 513 then
    none
  else
    some
      { buf := bytes ++ List.replicate (513 - bytes.length) 0
        length_buf := by
          rw [List.length_append, List.length_replicate]
          omega }

/-- The functions of `fd_pod` on pods of some type, with the paths as C strings. -/
structure FdPod (Pod : Type) where
  /-- `fd_pod_query_cstr`, with the text at the pointer. -/
  queryCstr : Pod → Bytes → Option Bytes → Option Bytes
  queryLong : Pod → Bytes → Int64 → Int64
  queryUlong : Pod → Bytes → UInt64 → UInt64
  queryInt : Pod → Bytes → Int32 → Int32
  queryFloat : Pod → Bytes → UInt32 → UInt32
  /-- `fd_pod_query` -/
  query : Pod → Bytes → Int32

/-- `FD_POD_SUCCESS` -/
def FD_POD_SUCCESS : UInt32 := 0

namespace TomlPod

variable {Pod : Type} (F : FdPod Pod) (pod : Pod)

/-- `path_exists` -/
def pathExists (path : String) : Bool :=
  match makeCstrOnStack path with
  | none => false
  | some cPath => F.query pod cPath.text = FD_POD_SUCCESS.toInt32

/-- A query of a type, with the sentinel for its default. -/
def queryWith {α : Type} (query : Pod → Bytes → α → α) (sentinel : α) (isSentinel : α → Bool)
    (path : String) : Option α :=
  match makeCstrOnStack path with
  | none => none
  | some cPath =>
    let val := query pod cPath.text sentinel
    if isSentinel val then
      if pathExists F pod path then some val else none
    else
      some val

/-- `query_cstr` -/
def queryCstr (path : String) : Option String :=
  match makeCstrOnStack path with
  | none => none
  | some cPath =>
    match F.queryCstr pod cPath.text none with
    | none => none
    | some cstr => Utf8.decode cstr

/-- `query_long` -/
def queryLong (path : String) : Option Int64 :=
  queryWith F pod F.queryLong Int64.minValue (· = Int64.minValue) path

/-- `query_ulong` -/
def queryUlong (path : String) : Option UInt64 :=
  queryWith F pod F.queryUlong (2 ^ 64 - 1) (· = 2 ^ 64 - 1) path

/-- `is_nan` of an `f32` -/
def isNan (bits : UInt32) : Bool := bits &&& 0x7FFFFFFF > 0x7F800000

/-- `query_float` -/
def queryFloat (path : String) : Option UInt32 :=
  queryWith F pod F.queryFloat 0x7FC00000 isNan path

/-- `query_int` -/
def queryInt (path : String) : Option Int32 :=
  queryWith F pod F.queryInt Int32.minValue (· = Int32.minValue) path

/-- `query_bool` -/
def queryBool (path : String) : Option Bool := (queryInt F pod path).map (· ≠ 0)

end TomlPod

/-! ### The contents of a pod -/

/-- The value of a type, if it is one. -/
def PodValue.cstr? : PodValue → Option Bytes
  | .cstr text => some text
  | _ => none

/-- The value of a type, if it is one. -/
def PodValue.long? : PodValue → Option Int64
  | .long v => some v
  | _ => none

/-- The value of a type, if it is one. -/
def PodValue.ulong? : PodValue → Option UInt64
  | .ulong v => some v
  | _ => none

/-- The value of a type, if it is one. -/
def PodValue.int? : PodValue → Option Int32
  | .int v => some v
  | _ => none

/-- The value of a type, if it is one. -/
def PodValue.float? : PodValue → Option UInt32
  | .float bits => some bits
  | _ => none

/-- What is documented of `fd_pod`, with the value that a pod holds at a path: a query gives the
value of its type, and its default when there is none. -/
structure Documented {Pod : Type} (F : FdPod Pod) (held : Pod → Bytes → Option PodValue) : Prop where
  queryCstr : ∀ pod path default,
    F.queryCstr pod path default = ((held pod path).bind (·.cstr?)).or default
  queryLong : ∀ pod path default,
    F.queryLong pod path default = ((held pod path).bind (·.long?)).getD default
  queryUlong : ∀ pod path default,
    F.queryUlong pod path default = ((held pod path).bind (·.ulong?)).getD default
  queryInt : ∀ pod path default,
    F.queryInt pod path default = ((held pod path).bind (·.int?)).getD default
  queryFloat : ∀ pod path default,
    F.queryFloat pod path default = ((held pod path).bind (·.float?)).getD default
  query : ∀ pod path, F.query pod path = FD_POD_SUCCESS.toInt32 ↔ (held pod path).isSome

/-- A path is missing, or it holds a value of the type that a reader is for. -/
def HoldsOnly {α : Type} (value : Option PodValue) (read? : PodValue → Option α) : Prop :=
  ∀ v ∈ value, (read? v).isSome

instance {α : Type} (value : Option PodValue) (read? : PodValue → Option α) :
    Decidable (HoldsOnly value read?) :=
  inferInstanceAs (Decidable (∀ v ∈ value, (read? v).isSome))

/-- A path that a C string in a `CStrBuf` can be. -/
def IsPath (path : String) : Prop := 0 ∉ Utf8.bytes path ∧ (Utf8.bytes path).length < 513

instance (path : String) : Decidable (IsPath path) := inferInstanceAs (Decidable (_ ∧ _))

theorem takeWhile_pad {bytes : Bytes} (hnul : 0 ∉ bytes) (n : Nat) :
  (bytes ++ List.replicate n 0).takeWhile (fun b => decide (b ≠ 0)) = bytes
  := by
  have hbytes : ∀ b ∈ bytes, decide (b ≠ 0) = true := by
    intro b hb
    apply decide_eq_true
    rintro rfl
    apply hnul hb
  rw [List.takeWhile_append_of_pos hbytes]
  cases n with
  | zero => apply List.append_nil
  | succ n => simp [List.replicate_succ]

theorem makeCstrOnStack_text {path : String} (hpath : IsPath path) :
  ∃ cPath, makeCstrOnStack path = some cPath ∧ cPath.text = Utf8.bytes path
  := by
  rw [makeCstrOnStack, dif_neg (Nat.not_le.mpr hpath.2)]
  apply Exists.intro _ ⟨rfl, takeWhile_pad hpath.1 _⟩

namespace TomlPod

variable {Pod : Type} {F : FdPod Pod} {held : Pod → Bytes → Option PodValue} {pod : Pod}
  {path : String}

theorem pathExists_eq (hdoc : Documented F held) (hpath : IsPath path) :
  pathExists F pod path = (held pod (Utf8.bytes path)).isSome
  := by
  obtain ⟨cPath, hc, htext⟩ := makeCstrOnStack_text hpath
  rw [pathExists, hc]
  dsimp only
  rw [Bool.eq_iff_iff, decide_eq_true_iff, hdoc.query, htext]

/-- A query of a type gives the sentinel for a value of another type. -/
theorem queryWith_eq {α : Type} {query : Pod → Bytes → α → α} {sentinel : α}
    {isSentinel : α → Bool} {read? : PodValue → Option α} (hdoc : Documented F held)
    (hquery : ∀ pod path default, query pod path default = ((held pod path).bind read?).getD default)
    (hsentinel : isSentinel sentinel = true) (hpath : IsPath path) :
  queryWith F pod query sentinel isSentinel path
    = (held pod (Utf8.bytes path)).map fun v => (read? v).getD sentinel
  := by
  obtain ⟨cPath, hc, htext⟩ := makeCstrOnStack_text hpath
  rw [queryWith, hc]
  dsimp only
  rw [hquery, htext, pathExists_eq hdoc hpath]
  cases held pod (Utf8.bytes path) with
  | none => simp [hsentinel]
  | some v => simp

/-- What is made of the value of its type is right exactly when the path holds none of another
type. -/
theorem queryWith_map_iff {α β : Type} {query : Pod → Bytes → α → α} {sentinel : α}
    {isSentinel : α → Bool} {read? : PodValue → Option α} (hdoc : Documented F held)
    (hquery : ∀ pod path default, query pod path default = ((held pod path).bind read?).getD default)
    (hsentinel : isSentinel sentinel = true) (hpath : IsPath path) (pod : Pod) (f : α → β) :
  (queryWith F pod query sentinel isSentinel path).map f
      = ((held pod (Utf8.bytes path)).bind read?).map f
    ↔ HoldsOnly (held pod (Utf8.bytes path)) read?
  := by
  rw [queryWith_eq hdoc hquery hsentinel hpath]
  cases held pod (Utf8.bytes path) with
  | none => simp [HoldsOnly]
  | some v => cases hread : read? v <;> simp [HoldsOnly, hread]

theorem queryWith_iff {α : Type} {query : Pod → Bytes → α → α} {sentinel : α}
    {isSentinel : α → Bool} {read? : PodValue → Option α} (hdoc : Documented F held)
    (hquery : ∀ pod path default, query pod path default = ((held pod path).bind read?).getD default)
    (hsentinel : isSentinel sentinel = true) (hpath : IsPath path) :
  queryWith F pod query sentinel isSentinel path = (held pod (Utf8.bytes path)).bind read?
    ↔ HoldsOnly (held pod (Utf8.bytes path)) read?
  := by
  have hid := queryWith_map_iff hdoc hquery hsentinel hpath pod id
  rw [Option.map_id] at hid
  apply hid

/-- The sentinel of `query_cstr` is no text. -/
theorem queryCstr_eq (hdoc : Documented F held) (hpath : IsPath path) :
  queryCstr F pod path = ((held pod (Utf8.bytes path)).bind (·.cstr?)).bind Utf8.decode
  := by
  obtain ⟨cPath, hc, htext⟩ := makeCstrOnStack_text hpath
  rw [queryCstr, hc]
  dsimp only
  rw [hdoc.queryCstr, htext, Option.or_none]
  cases (held pod (Utf8.bytes path)).bind (·.cstr?)
  · rfl
  · rfl

theorem queryFloat_iff (hdoc : Documented F held) (hpath : IsPath path) :
  queryFloat F pod path = (held pod (Utf8.bytes path)).bind (·.float?)
    ↔ HoldsOnly (held pod (Utf8.bytes path)) (·.float?)
  := queryWith_iff hdoc hdoc.queryFloat rfl hpath

/-- A query tells the value of its type that the pod holds exactly when the path holds none of
another type. -/
theorem typed_iff (hdoc : Documented F held) (hpath : IsPath path) :
  (queryLong F pod path = (held pod (Utf8.bytes path)).bind (·.long?)
      ↔ HoldsOnly (held pod (Utf8.bytes path)) (·.long?))
    ∧ (queryUlong F pod path = (held pod (Utf8.bytes path)).bind (·.ulong?)
      ↔ HoldsOnly (held pod (Utf8.bytes path)) (·.ulong?))
    ∧ (queryInt F pod path = (held pod (Utf8.bytes path)).bind (·.int?)
      ↔ HoldsOnly (held pod (Utf8.bytes path)) (·.int?))
    ∧ (queryBool F pod path
        = ((held pod (Utf8.bytes path)).bind (·.int?)).map (fun v => decide (v ≠ 0))
      ↔ HoldsOnly (held pod (Utf8.bytes path)) (·.int?))
  := by
  refine ⟨?_, ?_, ?_, ?_⟩
  · apply queryWith_iff hdoc hdoc.queryLong (decide_eq_true rfl) hpath
  · apply queryWith_iff hdoc hdoc.queryUlong (decide_eq_true rfl) hpath
  · apply queryWith_iff hdoc hdoc.queryInt (decide_eq_true rfl) hpath
  · apply queryWith_map_iff hdoc hdoc.queryInt (decide_eq_true rfl) hpath

/-! ### A pod as a table -/

/-- The functions of `fd_pod` on pods that are tables of values. -/
def tablePod : FdPod (List (Bytes × PodValue)) where
  queryCstr pod path default := ((pod.lookup path).bind (·.cstr?)).or default
  queryLong pod path default := ((pod.lookup path).bind (·.long?)).getD default
  queryUlong pod path default := ((pod.lookup path).bind (·.ulong?)).getD default
  queryInt pod path default := ((pod.lookup path).bind (·.int?)).getD default
  queryFloat pod path default := ((pod.lookup path).bind (·.float?)).getD default
  query pod path := if (pod.lookup path).isSome then FD_POD_SUCCESS.toInt32 else -1

theorem tablePod_documented :
  Documented tablePod fun pod path => pod.lookup path
  where
  queryCstr _ _ _ := rfl
  queryLong _ _ _ := rfl
  queryUlong _ _ _ := rfl
  queryInt _ _ _ := rfl
  queryFloat _ _ _ := rfl
  query pod path := by
    cases h : pod.lookup path with
    | none => simp [tablePod, h, FD_POD_SUCCESS]
    | some v => simp [tablePod, h]

/-- The document `port = "8080"`. -/
def portPod : List (Bytes × PodValue) := [(Utf8.bytes "port", .cstr (Utf8.bytes "8080"))]

/-- The document `port = 8080`, `on = 1`, with one integer as a `long` and the other as an `int`. -/
def numberPod : List (Bytes × PodValue) :=
  [(Utf8.bytes "port", .long 8080), (Utf8.bytes "on", .int 1)]

theorem typed_iff_number :
  queryLong tablePod numberPod "port" = (numberPod.lookup (Utf8.bytes "port")).bind (·.long?)
    ∧ queryInt tablePod numberPod "on" = (numberPod.lookup (Utf8.bytes "on")).bind (·.int?)
    ∧ queryBool tablePod numberPod "on"
      = ((numberPod.lookup (Utf8.bytes "on")).bind (·.int?)).map (fun v => decide (v ≠ 0))
    ∧ queryUlong tablePod numberPod "off" = (numberPod.lookup (Utf8.bytes "off")).bind (·.ulong?)
  := by
  have hport : IsPath "port" := by decide
  have hon : IsPath "on" := by decide
  have hoff : IsPath "off" := by decide
  refine ⟨?_, ?_, ?_, ?_⟩
  · apply (typed_iff tablePod_documented hport).1.mpr
    decide
  · apply (typed_iff tablePod_documented hon).2.2.1.mpr
    decide
  · apply (typed_iff tablePod_documented hon).2.2.2.mpr
    decide
  · apply (typed_iff tablePod_documented hoff).2.1.mpr
    decide

/-- A string is `i64::MIN` to `query_long`, and true to `query_bool`. -/
theorem not_typed :
  ¬ (queryLong tablePod portPod "port" = (portPod.lookup (Utf8.bytes "port")).bind (·.long?)
    ∧ queryBool tablePod portPod "port"
      = ((portPod.lookup (Utf8.bytes "port")).bind (·.int?)).map (fun v => decide (v ≠ 0)))
  := by
  decide

end TomlPod

end FdToml

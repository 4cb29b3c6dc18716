import FiredancerRs.Rpc.Read

/-!
# JSON-RPC responses

A JSON-RPC 2.0 response object has one member `result` or one member `error`. The scanner
finds this member when its name is written without escapes, and reads the code and the message
of an error (`resultOf_response`).
-/

open Json

namespace FdRpc

open JsonScan
open JsonArrayIter (atElement)

/-- The members of an object that stand for the ASCII name. -/
def spelled (name : Bytes) (members : List Member) : List Member :=
  members.filter fun m => m.name.Spells name

/-- The members of an object that stand for `result` or for `error`. -/
def outcomes (members : List Member) : List Member :=
  members.filter fun m => m.name.Spells (asBytes "result") ∨ m.name.Spells (asBytes "error")

/-- The member reports an error. -/
def IsError (outcome : Member) : Prop := outcome.name.Spells (asBytes "error")

instance (outcome : Member) : Decidable (IsError outcome) :=
  inferInstanceAs (Decidable (outcome.name.Spells (asBytes "error")))

/-- The name of the member `result` or `error` is written without escapes. -/
def Plain (outcome : Member) : Prop :=
  outcome.name.raw = asBytes "result" ∨ outcome.name.raw = asBytes "error"

instance (outcome : Member) : Decidable (Plain outcome) :=
  inferInstanceAs (Decidable (_ ∨ _))

/-- The value is a JSON-RPC 2.0 response object: it has a version, and either a result or an
error, which is an object. -/
structure IsResponseObject (w : Value × Bytes) (outcome : Member) (members : List Member) :
    Prop where
  isObject : w.1.members w.2 = some members
  version : ∃ m s, spelled (asBytes "jsonrpc") members = [m] ∧ m.value = .string s
    ∧ s.Spells (asBytes "2.0")
  outcome_eq : outcomes members = [outcome]
  error : IsError outcome → isObjectValue outcome.value = true

theorem IsResponseObject.outcome_mem {w : Value × Bytes} {outcome : Member}
    {members : List Member} (h : IsResponseObject w outcome members) :
  outcome ∈ members
  := by
  have hmem : outcome ∈ outcomes members := by
    rw [h.outcome_eq]
    apply List.mem_singleton_self
  apply List.mem_of_mem_filter hmem

/-- The error that the client reports for an error object: -1 and `unknown error` stand for a
code and a message that it cannot read. -/
def readError (error : Value) : JsonRpcError :=
  .rpcError (((error.lookup (asBytes "code")).bind readI64).getD (-1))
    (((error.lookup (asBytes "message")).bind readStr).getD (asBytes "unknown error"))

/-- The result or the error of a response. -/
def answer (data : Bytes) (outcome : Member) : Except JsonRpcError JsonScan :=
  if IsError outcome then .error (readError outcome.value) else .ok (atMember data outcome)

/-- The only member with a property is the only one that can be found by a name for which
members have the property. -/
theorem find?_of_filter {members : List Member} {m : Member} {p : Member → Bool}
    (h : members.filter p = [m]) {name : Bytes} (hname : ∀ m, m.name.raw = name → p m = true) :
  members.find? (fun m => m.name.raw = name) = if m.name.raw = name then some m else none
  := by
  have hfilter : members.find? (fun m => m.name.raw = name)
      = (members.filter p).find? fun m => m.name.raw = name := by
    rw [List.find?_filter]
    congr
    funext m'
    by_cases hraw : m'.name.raw = name
    · simp [hraw, hname m' hraw]
    · simp [hraw]
  rw [hfilter, h, List.find?_singleton]
  simp only [decide_eq_true_iff]

theorem find?_outcome {w : Value × Bytes} {outcome : Member} {members : List Member}
    (h : IsResponseObject w outcome members) {name : Bytes}
    (hname : name = asBytes "result" ∨ name = asBytes "error") :
  members.find? (fun m => m.name.raw = name)
    = if outcome.name.raw = name then some outcome else none
  := by
  apply find?_of_filter h.outcome_eq
  intro m hraw
  rw [decide_eq_true_iff]
  rcases hname with rfl | rfl
  · apply Or.inl (Str.spells_raw hraw (by decide))
  · apply Or.inr (Str.spells_raw hraw (by decide))

/-- A name is not written like the result and the error at once. -/
theorem not_isError_of_raw {outcome : Member} (h : outcome.name.raw = asBytes "result") :
  ¬ IsError outcome
  := by
  intro herror
  have hresult : outcome.name.Spells (asBytes "result") := Str.spells_raw h (by decide)
  exact absurd (Str.Spells.unique hresult herror) (by decide)

variable {data : Bytes}

/-- In front of any value, `field` returns the value of the first member with the name; a value
that is not an object has no members. -/
theorem field_value {v : Value} {t : Bytes} (h : v.render ++ t <:+ data) (name : Bytes) :
  (facing data (v.render ++ t)).field name
    = some ((((v.members t).getD []).find? fun m => m.name.raw = name).map (atMember data))
  := by
  cases hv : v.members t with
  | some members => apply field_members h (v.stops_render t).dropWhile hv
  | none =>
    have hobject := isObject_facing h
    have hfalse : isObjectValue v = false := by
      cases v with
      | emptyObject space => cases hv
      | object members => cases hv
      | _ => rfl
    rw [hfalse, isObject, decide_eq_false_iff_not] at hobject
    rw [field, skipWs_value h]
    apply if_pos hobject

/-- A member of a value is read by its accessor. -/
theorem fieldAnd_value {α : Type} {f : JsonScan → Option (Option α)} {read : Value → Option α}
    {v : Value} {t : Bytes} (h : v.render ++ t <:+ data)
    (hf : ∀ m : Member, m.value.render ++ m.after <:+ data → Delimited m.after →
      f (atMember data m) = some (read m.value)) (name : Bytes) :
  (facing data (v.render ++ t)).fieldAnd name f = some ((v.lookup name).bind read)
  := by
  rw [fieldAnd, field_value h, ← v.map_find? t, Option.bind_map]
  cases hfind : ((v.members t).getD []).find? fun m => m.name.raw = name with
  | none => rfl
  | some m =>
    obtain ⟨hsuffix, hdelimited⟩ := Value.find?_member hfind
    apply hf m (hsuffix.trans h) hdelimited

/-- The check for an error, on the member `error` of a response. -/
theorem error_of_member {m : Member} (h : m.value.render ++ m.after <:+ data) :
  (do
    let code ← (atMember data m).fieldAnd (asBytes "code") asI64
    let message ← (atMember data m).fieldAnd (asBytes "message") asStr
    pure (some (JsonRpcError.rpcError (code.getD (-1))
      (message.getD (asBytes "unknown error")))))
    = some (some (readError m.value))
  := by
  have hcode := fieldAnd_value h (fun _ => asI64_facing) (asBytes "code")
  have hmessage := fieldAnd_value h (fun _ hm _ => asStr_facing hm) (asBytes "message")
  rw [atMember, hcode, hmessage]
  rfl

/-- What is read from a response: its result or its error, when the name of this member is
written without escapes, and else no result is found. -/
theorem resultOf_response {w : Value × Bytes} {outcome : Member} {members : List Member}
    (h : w.1.render ++ w.2 <:+ data) (hr : IsResponseObject w outcome members) :
  resultOf (atElement data w)
    = some (if Plain outcome then answer data outcome else .error (.missingField "result"))
  := by
  have hoperror := field_members h (w.1.stops_render w.2).dropWhile hr.isObject (asBytes "error")
  have hresult := field_members h (w.1.stops_render w.2).dropWhile hr.isObject (asBytes "result")
  rw [find?_outcome hr (.inr rfl)] at hoperror
  rw [find?_outcome hr (.inl rfl)] at hresult
  have hsuffix : outcome.value.render ++ outcome.after <:+ data :=
    (Value.members_suffix hr.isObject hr.outcome_mem).trans h
  rw [resultOf, errorOf]
  change ((facing data (w.1.render ++ w.2)).field (asBytes "error") >>= _) >>= _ = _
  rw [hoperror]
  by_cases herror : outcome.name.raw = asBytes "error"
  · have hisError : IsError outcome := Str.spells_raw herror (by decide)
    have hscan : (atMember data outcome).isObject = true := by
      rw [atMember, isObject_facing hsuffix, hr.error hisError]
    have hplain : Plain outcome := .inr herror
    rw [if_pos herror, if_pos hplain, answer, if_pos hisError]
    change (if (atMember data outcome).isObject = true then _ else _) >>= _ = _
    rw [if_pos hscan, error_of_member hsuffix]
    rfl
  · rw [if_neg herror]
    change ((facing data (w.1.render ++ w.2)).field (asBytes "result") >>= _) = _
    rw [hresult]
    by_cases hplain : outcome.name.raw = asBytes "result"
    · have hplain' : Plain outcome := .inl hplain
      rw [if_pos hplain, if_pos hplain', answer, if_neg (not_isError_of_raw hplain)]
      rfl
    · have hplain' : ¬ Plain outcome := not_or.mpr ⟨hplain, herror⟩
      rw [if_neg hplain, if_neg hplain']
      rfl

end FdRpc

import FiredancerRs.Json.Build
import FiredancerRs.Json.Read
import FiredancerRs.Json.TreeMemory

/-!
# Converting there and back

When memory can be had, `json_value_to_cjson` should fail for a NUL byte only, and
`cjson_to_json_value` should give back what was converted (`Converts`). It does so unless an array
has more items than a `c_int` counts (`converts_iff`): an array is read by a loop over its size, an
object along its links.
-/

namespace FdJson

/-! ### Texts -/

/-- The text of a check. -/
def Check.subject : Check → Option String
  | .call _ => none
  | .text s _ => some s

theorem subject_call {abandons : Bool} :
  (Check.call abandons).subject = none
  := rfl

theorem subject_text {s : String} {abandons : Bool} :
  (Check.text s abandons).subject = some s
  := rfl

theorem subjects_inside {checks : List Check} :
  (checks.map .inside).filterMap Check.subject = checks.filterMap Check.subject
  := by
  rw [List.filterMap_map]
  congr 1
  funext check
  cases check <;> rfl

mutual

/-- The texts that are checked are those of the value. -/
theorem JsonValue.subjects_checks :
  ∀ v : JsonValue, v.checks.filterMap Check.subject = v.texts
  | .null => rfl
  | .bool _ => rfl
  | .number _ => rfl
  | .string _ => rfl
  | .array items => by
      rw [JsonValue.checks, JsonValue.texts, List.filterMap_cons_none subject_call]
      apply subjects_checksOfItems items
  | .object members => by
      rw [JsonValue.checks, JsonValue.texts, List.filterMap_cons_none subject_call]
      apply subjects_checksOfMembers members

theorem subjects_checksOfItems :
  ∀ items : List JsonValue, (checksOfItems items).filterMap Check.subject = textsOfItems items
  | [] => rfl
  | v :: items => by
      rw [checksOfItems, textsOfItems, List.filterMap_append, subjects_inside, v.subjects_checks,
        List.filterMap_cons_none subject_call, subjects_checksOfItems items]

theorem subjects_checksOfMembers :
  ∀ members : List (String × JsonValue),
    (checksOfMembers members).filterMap Check.subject = textsOfMembers members
  | [] => rfl
  | (key, v) :: members => by
      rw [checksOfMembers, textsOfMembers, List.filterMap_cons_some subject_text, List.filterMap_append,
        subjects_inside, v.subjects_checks, List.filterMap_cons_none subject_call,
        subjects_checksOfMembers members]

end

/-- When no call fails, a check does for a NUL byte only. -/
theorem runChecks_available {checks : List Check} {n : Nat} :
  (runChecks (fun _ => true) n checks).2 = none
    ↔ ∀ s ∈ checks.filterMap Check.subject, ¬NulIn s
  := by
  induction checks generalizing n with
  | nil => simp [runChecks]
  | cons check checks ih =>
    cases check with
    | call abandons =>
      rw [runChecks, if_pos rfl, List.filterMap_cons_none subject_call]
      apply ih
    | text s abandons =>
      rw [runChecks, List.filterMap_cons_some subject_text, List.forall_mem_cons]
      split
      · simp [*]
      · simp [*]

/-! ### There and back -/

variable {σ Ptr : Type} {L : CJson σ Ptr} {V : View σ Ptr}

/-- When no call fails, a value is converted unless it has a NUL byte, and read back. -/
def Converts (L : CJson σ Ptr) (O : MapOrder) (v : JsonValue) (m : Memory σ) : Prop :=
  ((∃ e, (jsonValueToCjson L (fun _ => true) v m).1 = .error e) ↔ v.HasNul)
    ∧ (¬v.HasNul → ∃ c m', jsonValueToCjson L (fun _ => true) v m = (.ok c, m')
      ∧ ∃ fuel v', cjsonToJsonValue L O m'.heap fuel (some c) = some (.ok v') ∧ v.Same v')

/-- When no call fails, a conversion ends with the tree of a value unless it has a NUL byte. -/
theorem jsonValueToCjson_available (hL : Documented L V) (v : JsonValue) (m : Memory σ) :
  (v.HasNul ∧ ∃ e m', jsonValueToCjson L (fun _ => true) v m = (.error e, m'))
    ∨ (¬v.HasNul ∧ ∃ c m', jsonValueToCjson L (fun _ => true) v m = (.ok c, m')
      ∧ V.Points m'.heap c v.tree)
  := by
  have hends : ValueEnds V m v.tree (jsonValueToCjson L (fun _ => true) v m)
      (runChecks (fun _ => true) m.calls v.checks) := jsonValueToCjson_ends hL v m
  have hnul : (runChecks (fun _ => true) m.calls v.checks).2 = none ↔ ¬v.HasNul := by
    rw [runChecks_available, v.subjects_checks, JsonValue.HasNul]
    push Not
    rfl
  generalize jsonValueToCjson L (fun _ => true) v m = r at hends ⊢
  generalize runChecks (fun _ => true) m.calls v.checks = f at hends hnul
  cases hends with
  | ok hfresh hroot hne hbal hframe =>
    right
    exact ⟨hnul.mp rfl, _, _, rfl, hL.points _ _ _ _ hroot⟩
  | error hlost hbal hframe =>
    left
    simp only [reduceCtorEq, false_iff, not_not] at hnul
    exact ⟨hnul, _, _, rfl⟩

/-- A value is converted there and back exactly when it has a NUL byte, which is reported, or a
`c_int` counts the items of each of its arrays. -/
theorem converts_iff (hL : Documented L V) (O : MapOrder) (v : JsonValue) (hv : v.Distinct)
    (m : Memory σ) :
  Converts L O v m ↔ v.HasNul ∨ v.Countable
  := by
  rw [Converts]
  rcases jsonValueToCjson_available hL v m with ⟨hnul, e, m', hbuild⟩ | ⟨hnul, c, m', hbuild, hc⟩
  · simp [hbuild, hnul]
  · rw [hbuild]
    constructor
    · rintro ⟨-, hback⟩
      obtain ⟨_, _, heq, fuel, v', hread, hsame⟩ := hback hnul
      exact .inr (hsame.countable (read_countable hread))
    · rintro (h | hcountable)
      · apply (hnul h).elim
      · obtain ⟨v', hread, hsame⟩ := v.read_tree (O := O) hL (sizeOf v) (some c) le_rfl hv
          hcountable ⟨c, rfl, hc⟩
        constructor
        · simp [hnul]
        · exact fun _ => ⟨c, m', rfl, sizeOf v, v', hread, hsame⟩

/-- An object and an array are converted there and back. -/
theorem converts_members :
  Converts treeCJson .inserted
    (.object [("a", .array [.null, .number 0, .string "x"]), ("b", .bool true)])
    { heap := .empty, calls := 0 }
  := by
  have hdistinct : (JsonValue.object
      [("a", .array [.null, .number 0, .string "x"]), ("b", .bool true)]).Distinct := by
    simp [JsonValue.Distinct, DistinctMembers, DistinctItems]
  have hcountable : (JsonValue.object
      [("a", .array [.null, .number 0, .string "x"]), ("b", .bool true)]).Countable := by
    simp [JsonValue.Countable, CountableMembers, CountableItems, maxItems]
  apply (converts_iff treeCJson_documented .inserted _ hdistinct _).mpr (.inr hcountable)

/-- Nulls have no NUL bytes. -/
theorem textsOfItems_nulls (n : Nat) :
  textsOfItems (List.replicate n .null) = []
  := by
  induction n with
  | zero => rfl
  | succ n ih =>
    rw [List.replicate_succ, textsOfItems, ih, List.append_nil]
    rfl

/-- An array with one item more than a `c_int` counts is not read back. -/
theorem not_converts_nulls :
  ¬Converts treeCJson .inserted (.array (List.replicate maxItems .null))
    { heap := .empty, calls := 0 }
  := by
  rintro ⟨-, hback⟩
  have hnul : ¬(JsonValue.array (List.replicate maxItems .null)).HasNul := by
    rintro ⟨s, hs, -⟩
    rw [JsonValue.texts, textsOfItems_nulls] at hs
    apply List.not_mem_nil hs
  obtain ⟨c, m', -, fuel, v', hread, hsame⟩ := hback hnul
  have hlength := (hsame.countable (read_countable hread)).1
  rw [List.length_replicate] at hlength
  apply Nat.lt_irrefl maxItems hlength

end FdJson

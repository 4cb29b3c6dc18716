import FiredancerRs.Json.Build
import FiredancerRs.Json.TreeMemory

/-!
# What is released

`to_string` and `to_string_compact` should give back all that they take, whatever fails
(`Releases`). They do so unless the first step that fails is one that abandons a container
(`releases_iff`): an array that is being filled is lost when an item of it is not converted.
-/

namespace FdJson

variable {σ Ptr : Type} {L : CJson σ Ptr} {V : View σ Ptr} {gets : Pattern} {s s' : σ}

/-- Each block that is taken between two memories, for an item or for a printed text, is given back,
and once. -/
def Releases (V : View σ Ptr) (s s' : σ) : Prop :=
  ∃ entries, V.log s' = V.log s ++ entries ∧ Ledger.settle 0 entries = some 0

/-- If a step of the conversion fails, the first one to do so abandons no container. -/
def JsonValue.AbandonsNothing (v : JsonValue) (gets : Pattern) : Prop :=
  (runChecks gets 0 v.checks).2 ≠ some true

/-- What is left is what has been abandoned. -/
theorem View.Balance.releases_iff_eq_zero {lost : Multiset Nat} (h : V.Balance s s' 0 lost) :
  Releases V s s' ↔ lost = 0
  := by
  obtain ⟨entries, hlog, hsettle⟩ := h
  have hlost : Ledger.settle 0 entries = some lost := by
    have hzero := hsettle 0
    rwa [Multiset.zero_add, Multiset.zero_add] at hzero
  constructor
  · rintro ⟨entries', hlog', hreleased⟩
    obtain rfl := List.append_cancel_left (hlog.symm.trans hlog')
    apply Option.some.inj (hlost.symm.trans hreleased)
  · rintro rfl
    exact ⟨entries, hlog, hlost⟩

/-- A tree is printed, or not, and deleted, and the printed text is freed. -/
theorem printTree_balance (hL : Documented L V) (layout : Layout) (gets : Pattern) {m : Memory σ}
    {p : Ptr} {t : Tree} {N : Multiset Nat} (hroot : V.Root m.heap p t N) (ht : t.IsUtf8) :
  V.Balance m.heap (printTree L layout gets p m).2.heap N 0
  := by
  rw [printTree, Memory.request]
  cases gets m.calls with
  | false =>
    obtain ⟨s', hprint, hlog, hframe⟩ := hL.print_fails layout m.heap p
    have hdelete := hL.delete s' p t N (hframe p t N id hroot)
    rw [hprint]
    apply (View.balance_of_log_eq hlog).trans hdelete.balance
  | true =>
    obtain ⟨q, text, s', hprint, ⟨⟨n, htext, hlog⟩, hframe⟩, hutf8⟩ :=
      hL.print layout m.heap p t N hroot
    have hdelete := hL.delete s' p t N (hframe p t N id hroot)
    have hfree := hL.free _ q n (hdelete.texts q n htext)
    obtain ⟨rustStr, hdecode⟩ := Option.isSome_iff_exists.mp (hutf8 ht)
    have hprinted : V.Balance m.heap s' N ({n} + N) := by
      have hadd := (View.balance_acquire hlog).add N
      rwa [Multiset.add_zero, Multiset.add_comm] at hadd
    have hdeleted : V.Balance s' (L.delete p s') ({n} + N) {n} := by
      have hadd := hdelete.balance.add {n}
      rwa [Multiset.add_zero] at hadd
    simp only [hprint, Memory.delete, hdecode]
    apply (hprinted.trans hdeleted).trans (View.balance_release hfree)

/-- What is printed is released unless a container has been abandoned. -/
theorem printed_releases_iff {layout : Layout} {v : JsonValue} {heap : σ} (hL : Documented L V) :
  Releases V heap (printed L layout gets v heap).2.heap ↔ v.AbandonsNothing gets
  := by
  have hends : ValueEnds V { heap := heap, calls := 0 } v.tree
      (jsonValueToCjson L gets v { heap := heap, calls := 0 }) (runChecks gets 0 v.checks) :=
    jsonValueToCjson_ends hL v { heap := heap, calls := 0 }
  rw [printed, JsonValue.AbandonsNothing]
  generalize jsonValueToCjson L gets v { heap := heap, calls := 0 } = r at hends ⊢
  generalize runChecks gets 0 v.checks = f at hends ⊢
  cases hends with
  | ok hfresh hroot hne hbal hframe =>
    have hprinted := printTree_balance hL layout gets hroot v.isUtf8_tree
    simp only [(hbal.trans hprinted).releases_iff_eq_zero, ne_eq, reduceCtorEq, not_false_eq_true]
  | @error m' e abandons lost hlost hbal hframe =>
    rw [hbal.releases_iff_eq_zero, hlost]
    cases abandons <;> simp

/-- `to_string` and `to_string_compact` release what they take exactly when the first step that
fails abandons no container. -/
theorem releases_iff (hL : Documented L V) (v : JsonValue) (gets : Pattern) (heap : σ) :
  (Releases V heap (toString L gets v heap).2.heap ↔ v.AbandonsNothing gets)
    ∧ (Releases V heap (toStringCompact L gets v heap).2.heap ↔ v.AbandonsNothing gets)
  := ⟨printed_releases_iff hL, printed_releases_iff hL⟩

/-- An item that is not attached is deleted with the array. -/
theorem releases_unattached :
  Releases treeView .empty
      (toString treeCJson (· < 2) (.array [.bool true]) .empty).2.heap
    ∧ Releases treeView .empty
      (toStringCompact treeCJson (· < 2) (.array [.bool true]) .empty).2.heap
  := by
  have habandons : (JsonValue.array [.bool true]).AbandonsNothing (· < 2) := by
    rw [JsonValue.AbandonsNothing]
    decide
  have hreleases := releases_iff treeCJson_documented (.array [.bool true]) (· < 2) .empty
  exact ⟨hreleases.1.mpr habandons, hreleases.2.mpr habandons⟩

/-- An array is lost when its item is a string with a NUL byte. -/
theorem not_releases_nul :
  ¬Releases treeView .empty
      (toString treeCJson (fun _ => true) (.array [.string "\x00"]) .empty).2.heap
    ∧ ¬Releases treeView .empty
      (toStringCompact treeCJson (fun _ => true) (.array [.string "\x00"]) .empty).2.heap
  := by
  have habandons : ¬(JsonValue.array [.string "\x00"]).AbandonsNothing fun _ => true := by
    rw [JsonValue.AbandonsNothing]
    decide
  constructor
  · exact fun h => habandons ((printed_releases_iff treeCJson_documented).mp h)
  · exact fun h => habandons ((printed_releases_iff treeCJson_documented).mp h)

end FdJson

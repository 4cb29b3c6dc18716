import Mathlib.Data.Multiset.AddSub
import Mathlib.Tactic.Common

/-!
# Ledgers of resources

A ledger is a list of entries that acquire and release resources. From the resources that are
held, it is settled entry by entry: a release of a resource that is not held has no settlement
(`settle`). A ledger that has one releases nothing twice, and what it leaves is what was
acquired and not released.
-/

namespace Ledger

variable {α : Type} [DecidableEq α]

/-- The acquisition or the release of a resource. -/
inductive Entry (α : Type) where
  | acquire (a : α)
  | release (a : α)
deriving DecidableEq

/-- The resources that are held after the entries, when they release only what is held. -/
def settle (held : Multiset α) : List (Entry α) → Option (Multiset α)
  | [] => some held
  | .acquire a :: entries => settle (a ::ₘ held) entries
  | .release a :: entries => if a ∈ held then settle (held.erase a) entries else none

variable {held : Multiset α} {entries : List (Entry α)} {a : α}

@[simp]
theorem settle_nil :
  settle held [] = some held
  := rfl

@[simp]
theorem settle_acquire :
  settle held (.acquire a :: entries) = settle (a ::ₘ held) entries
  := rfl

/-- A release takes what is held. -/
@[simp]
theorem settle_release :
  settle (a ::ₘ held) (.release a :: entries) = settle held entries
  := by
  rw [settle, if_pos (Multiset.mem_cons_self a held), Multiset.erase_cons_head]

@[simp]
theorem settle_release_singleton :
  settle {a} (.release a :: entries) = settle 0 entries
  := settle_release

/-- Acquiring the resources of a list adds them to what is held. -/
theorem settle_acquires (l : List α) :
  settle held (l.map .acquire) = some (held + (l : Multiset α))
  := by
  induction l generalizing held with
  | nil => rw [Multiset.coe_nil, Multiset.add_zero, List.map_nil, settle_nil]
  | cons a l ih =>
    rw [List.map_cons, settle_acquire, ih, ← Multiset.cons_coe, Multiset.add_cons,
      Multiset.cons_add]

/-- Releasing the resources of a list leaves what else is held. -/
theorem settle_releases (l : List α) :
  settle (held + (l : Multiset α)) (l.map .release) = some held
  := by
  induction l with
  | nil => rw [Multiset.coe_nil, Multiset.add_zero, List.map_nil, settle_nil]
  | cons a l ih =>
    rw [← Multiset.cons_coe, Multiset.add_cons, List.map_cons, settle_release, ih]

/-- Releasing the resources of a list leaves none of them. -/
theorem settle_release_all (l : List α) :
  settle (l : Multiset α) (l.map .release) = some 0
  := by
  have h := @settle_releases α _ 0 l
  rwa [Multiset.zero_add] at h

/-- Ledgers are settled one after the other. -/
theorem settle_append (entries entries' : List (Entry α)) :
  settle held (entries ++ entries') = (settle held entries).bind (settle · entries')
  := by
  induction entries generalizing held with
  | nil => rfl
  | cons entry entries ih =>
    cases entry with
    | acquire a =>
      rw [List.cons_append, settle_acquire, settle_acquire, ih]
    | release a =>
      rw [List.cons_append, settle, settle]
      split
      · apply ih
      · rfl

end Ledger

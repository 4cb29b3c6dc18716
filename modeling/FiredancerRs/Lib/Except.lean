import Mathlib.Tactic.Common

/-!
# Computations that return a value or an error

What it takes for a chain of `Except` computations to return a value. A chain of
computations that only append to a list, each of them what a function `g` gives, appends
the concatenation of what `g` gives.
-/

namespace Except

variable {ε α β : Type}

theorem ok_bind (a : α) (f : α → Except ε β) :
  (.ok a >>= f) = f a
  := rfl

theorem isOk_iff_exists {x : Except ε α} :
  x.isOk = true ↔ ∃ a, x = .ok a
  := by
  cases x with
  | error e => simp [Except.isOk, Except.toBool]
  | ok a => simp [Except.isOk, Except.toBool]

theorem bind_eq_ok_iff {x : Except ε α} {f : α → Except ε β} {b : β} :
  x >>= f = .ok b ↔ ∃ a, x = .ok a ∧ f a = .ok b
  := by
  cases x with
  | error e => simp [bind, Except.bind]
  | ok a => simp [bind, Except.bind]

theorem map_eq_ok_iff {x : Except ε α} {f : α → β} {b : β} :
  x.map f = .ok b ↔ ∃ a, x = .ok a ∧ f a = b
  := by
  cases x with
  | error e => simp [Except.map]
  | ok a => simp [Except.map]

theorem pure_eq_ok_iff {a b : α} :
  (pure a : Except ε α) = .ok b ↔ a = b
  := by
  simp [pure, Except.pure]

theorem ite_error_eq_ok_iff {p : Prop} [Decidable p] {e : ε} {x : Except ε α} {a : α} :
  (if p then .error e else x) = .ok a ↔ ¬ p ∧ x = .ok a
  := by
  by_cases h : p <;> simp [h]

/-- A fold whose steps append `g a` appends the concatenation. -/
theorem foldlM_append {step : List β → α → Except ε (List β)} {g : α → List β} :
  ∀ {as : List α} {s s' : List β},
    (∀ a ∈ as, ∀ t t', step t a = .ok t' → t' = t ++ g a) →
      as.foldlM step s = .ok s' → s' = s ++ as.flatMap g
  | [], _, _, _, h => by
      rw [List.foldlM_nil, pure_eq_ok_iff] at h
      simp [h]
  | a :: as, s, s', hstep, h => by
      rw [List.foldlM_cons, bind_eq_ok_iff] at h
      obtain ⟨t, ht, hs'⟩ := h
      have hrest := foldlM_append
        (fun b hb => hstep b (List.mem_cons_of_mem a hb)) hs'
      rw [hrest, hstep a List.mem_cons_self s t ht]
      simp

theorem bind_eq_error_iff {x : Except ε α} {f : α → Except ε β} {e : ε} :
  x >>= f = .error e ↔ x = .error e ∨ ∃ a, x = .ok a ∧ f a = .error e
  := by
  cases x with
  | error e' => simp [bind, Except.bind]
  | ok a => simp [bind, Except.bind]

end Except

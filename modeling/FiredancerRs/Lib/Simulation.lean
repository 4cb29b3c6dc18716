import Mathlib.Tactic.Common

/-!
# Simulations between computations that may fail

A computation `x` simulates `y` when `x` ends as `y` does: with a value related to that of `y`, or
with the error of `y`. The errors of `y` are some of those of `x`, so `x` never ends with another
error (`Simulates.ne_error`). Sequences and folds of simulations are simulations.
-/

namespace Except

variable {ε ε' α α' β β' γ : Type} {lift : ε' → ε} {R : α → β → Prop} {S : α' → β' → Prop}

/-- `x` ends as `y` does, up to the relation. -/
inductive Simulates (lift : ε' → ε) (R : α → β → Prop) : Except ε α → Except ε' β → Prop
  | ok {a : α} {b : β} : R a b → Simulates lift R (.ok a) (.ok b)
  | error (e : ε') : Simulates lift R (.error (lift e)) (.error e)

variable {x : Except ε α} {y : Except ε' β}

theorem Simulates.of_ok {b : β} (h : Simulates lift R x (.ok b)) :
  ∃ a, x = .ok a ∧ R a b
  := by
  cases h with
  | ok hab => exact ⟨_, rfl, hab⟩

theorem Simulates.ok_right {a : α} (h : Simulates lift R (.ok a) y) :
  ∃ b, y = .ok b ∧ R a b
  := by
  cases h with
  | ok hab => exact ⟨_, rfl, hab⟩

/-- An error that is none of those of `y` does not occur. -/
theorem Simulates.ne_error {e : ε} (h : Simulates lift R x y) (he : ∀ e', lift e' ≠ e) :
  x ≠ .error e
  := by
  rintro rfl
  cases h with
  | error e' => exact he e' rfl

/-- What holds of the value of `y` holds of the related one. -/
theorem Simulates.and_right {P : β → Prop} (h : Simulates lift R x y)
    (hP : ∀ b, y = .ok b → P b) :
  Simulates lift (fun a b => R a b ∧ P b) x y
  := by
  cases h with
  | ok hab => exact .ok ⟨hab, hP _ rfl⟩
  | error e => exact .error e

theorem Simulates.bind {f : α → Except ε α'} {g : β → Except ε' β'} (h : Simulates lift R x y)
    (hfg : ∀ a b, R a b → Simulates lift S (f a) (g b)) :
  Simulates lift S (x >>= f) (y >>= g)
  := by
  cases h with
  | ok hab => exact hfg _ _ hab
  | error e => exact .error e

/-- Both computations stop under the same condition. -/
theorem Simulates.ite_error {p q : Prop} [Decidable p] [Decidable q] (hpq : p ↔ q) {e : ε'}
    (h : ¬p → Simulates lift R x y) :
  Simulates lift R (if p then .error (lift e) else x) (if q then .error e else y)
  := by
  by_cases hp : p
  · rw [if_pos hp, if_pos (hpq.mp hp)]
    exact .error e
  · rw [if_neg hp, if_neg (mt hpq.mpr hp)]
    apply h hp

/-- Folds along one list, with steps that simulate each other. -/
theorem Simulates.foldlM {f : α → γ → Except ε α} {g : β → γ → Except ε' β} :
  ∀ {cs : List γ} {a : α} {b : β},
    (∀ c ∈ cs, ∀ a b, R a b → Simulates lift R (f a c) (g b c)) → R a b →
      Simulates lift R (cs.foldlM f a) (cs.foldlM g b)
  | [], _, _, _, hab => .ok hab
  | c :: cs, a, b, hstep, hab => by
      rw [List.foldlM_cons, List.foldlM_cons]
      obtain ⟨hc, hcs⟩ := List.forall_mem_cons.mp hstep
      apply (hc a b hab).bind fun a' b' hab' => Simulates.foldlM hcs hab'

/-- A fold along positions simulates the fold along the elements there. -/
theorem Simulates.foldlM_range' {f : α → Nat → Except ε α} {g : β → γ → Except ε' β} :
  ∀ {cs : List γ} {start : Nat} {a : α} {b : β},
    (∀ i c, cs[i]? = some c → ∀ a b, R a b → Simulates lift R (f a (start + i)) (g b c)) →
      R a b → Simulates lift R ((List.range' start cs.length).foldlM f a) (cs.foldlM g b)
  | [], _, _, _, _, hab => .ok hab
  | c :: cs, start, a, b, hstep, hab => by
      rw [List.length_cons, List.range'_succ, List.foldlM_cons, List.foldlM_cons]
      apply (hstep 0 c rfl a b hab).bind
      intro a' b' hab'
      apply Simulates.foldlM_range' _ hab'
      intro i c' hc'
      rw [Nat.add_assoc, Nat.add_comm 1 i]
      apply hstep (i + 1) c' hc'

/-- A fold along the positions of a list simulates the fold along the list. -/
theorem Simulates.foldlM_range {f : α → Nat → Except ε α} {g : β → γ → Except ε' β} {cs : List γ}
    {a : α} {b : β}
    (hstep : ∀ i c, cs[i]? = some c → ∀ a b, R a b → Simulates lift R (f a i) (g b c))
    (hab : R a b) :
  Simulates lift R ((List.range cs.length).foldlM f a) (cs.foldlM g b)
  := by
  rw [List.range_eq_range']
  apply Simulates.foldlM_range' _ hab
  intro i c hc
  rw [Nat.zero_add]
  apply hstep i c hc

end Except

import Mathlib.Tactic.Common

/-!
# Computations with a fuel

A recursive function that may run forever is a family of computations, one for each fuel,
that returns nothing when the fuel is spent. More fuel does not change a result: each
computation is extended by the one with more fuel (`Extends`), and a step that is put together
from extended computations is extended. So two fuels that both give a result give the same
one (`Monotone.unique`).
-/

namespace Fuel

variable {α β : Type}

/-- The second computation returns what the first does, when the first returns. -/
def Extends (x y : Option α) : Prop := ∀ a, x = some a → y = some a

namespace Extends

theorem refl (x : Option α) :
  Extends x x
  := fun _ h => h

theorem none (x : Option α) :
  Extends .none x
  := by
  rintro a ⟨⟩

theorem trans {x y z : Option α} (hxy : Extends x y) (hyz : Extends y z) :
  Extends x z
  := fun a h => hyz a (hxy a h)

theorem bind {x y : Option α} {f g : α → Option β} (h : Extends x y)
    (hfg : ∀ a, Extends (f a) (g a)) :
  Extends (x >>= f) (y >>= g)
  := by
  intro b hb
  obtain ⟨a, ha, hfa⟩ := Option.bind_eq_some_iff.mp hb
  apply Option.bind_eq_some_iff.mpr
  use a, h a ha, hfg a b hfa

theorem ite {p : Prop} [Decidable p] {x x' y y' : Option α} (h : Extends x y)
    (h' : Extends x' y') :
  Extends (if p then x else x') (if p then y else y')
  := by
  split
  · apply h
  · apply h'

end Extends

/-- A family of computations in which more fuel does not change a result. -/
def Monotone (f : Nat → Option α) : Prop := ∀ n, Extends (f n) (f (n + 1))

namespace Monotone

variable {f : Nat → Option α}

theorem le (hf : Monotone f) {n m : Nat} (h : n ≤ m) :
  Extends (f n) (f m)
  := by
  induction h with
  | refl => apply Extends.refl
  | @step m _ ih => apply ih.trans (hf m)

/-- The result does not depend on the fuel. -/
theorem unique (hf : Monotone f) {n m : Nat} {a b : α} (ha : f n = some a) (hb : f m = some b) :
  a = b
  := by
  have ha' := hf.le (Nat.le_max_left n m) a ha
  have hb' := hf.le (Nat.le_max_right n m) b hb
  apply Option.some.inj (ha'.symm.trans hb')

/-- A fuel that gives some result gives the result of every other fuel that does. -/
theorem eq_of_isSome (hf : Monotone f) {n m : Nat} {a : α} (ha : f n = some a)
    (hm : (f m).isSome) :
  f m = some a
  := by
  obtain ⟨b, hb⟩ := Option.isSome_iff_exists.mp hm
  rw [hb, hf.unique ha hb]

end Monotone

end Fuel

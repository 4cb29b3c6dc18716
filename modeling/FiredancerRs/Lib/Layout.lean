import Mathlib.Algebra.Ring.Nat
import Mathlib.Tactic.Common

/-!
# Layouts of memory

What an allocator is asked for: a size and an alignment that it can serve.
-/

/-- A size and an alignment. -/
structure Layout where
  size : Nat
  align : Nat
deriving DecidableEq, Repr

/-- The layout of a size and an alignment: the alignment is a power of two, and the size rounded up
to it does not exceed the greatest signed integer of 64 bits. -/
def Layout.fromSizeAlign (size align : Nat) : Option Layout :=
  if align.isPowerOfTwo ∧ size + align ≤ 2 ^ 63 then some { size := size, align := align } else none

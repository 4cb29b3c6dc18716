import Mathlib.Data.List.TakeDrop
import Mathlib.Tactic.Common

/-!
# Byte buffers

Overwriting a stretch of a buffer in place (`overwrite`) and enlarging a buffer (`resize`): what
lies before the stretch stays, and the stretch holds what was written.
-/

namespace Buffer

variable {α : Type} {buf bytes : List α} {n : Nat} {x : α}

/-- The buffer with the elements from a position on replaced by the given ones. -/
def overwrite (buf : List α) (start : Nat) (bytes : List α) : List α :=
  buf.take start ++ bytes ++ buf.drop (start + bytes.length)

/-- The buffer cut off, or filled up, to a length. -/
def resize (buf : List α) (n : Nat) (x : α) : List α :=
  buf.take n ++ List.replicate (n - buf.length) x

/-- The elements from a position on, at most the given number of them. -/
def slice (buf : List α) (start n : Nat) : List α := (buf.drop start).take n

theorem length_overwrite {start : Nat} (h : start + bytes.length ≤ buf.length) :
  (overwrite buf start bytes).length = buf.length
  := by
  simp only [overwrite, List.length_append, List.length_take, List.length_drop]
  omega

/-- What lies before the stretch stays, and the stretch follows it. -/
theorem take_overwrite {start : Nat} (h : start ≤ buf.length) :
  (overwrite buf start bytes).take (start + bytes.length) = buf.take start ++ bytes
  := by
  have hlength : (buf.take start ++ bytes).length = start + bytes.length := by
    simp [List.length_take, Nat.min_eq_left h]
  rw [overwrite, ← hlength, List.take_left]

/-- The buffer up to some point of the stretch. -/
theorem take_overwrite_add {start m : Nat} (h : start ≤ buf.length) (hm : m ≤ bytes.length) :
  (overwrite buf start bytes).take (start + m) = buf.take start ++ bytes.take m
  := by
  have hstart : (buf.take start).length = start := List.length_take_of_le h
  have hfirst : (buf.take start).take (start + m) = buf.take start := by
    apply List.take_of_length_le
    omega
  calc (overwrite buf start bytes).take (start + m)
      = ((overwrite buf start bytes).take (start + bytes.length)).take (start + m) := by
        rw [List.take_take, Nat.min_eq_left (by omega)]
    _ = buf.take start ++ bytes.take m := by
        rw [take_overwrite h, List.take_append, hfirst, hstart, Nat.add_sub_cancel_left]

/-- Overwriting a slice by as many elements. -/
theorem length_overwrite_slice {start : Nat} (h : bytes.length = (slice buf start n).length) :
  (overwrite buf start bytes).length = buf.length
  := by
  rw [slice, List.length_take, List.length_drop] at h
  simp only [overwrite, List.length_append, List.length_take, List.length_drop]
  omega

/-- The stretch holds what was written. -/
theorem slice_overwrite {start : Nat} (h : start ≤ buf.length) :
  slice (overwrite buf start bytes) start bytes.length = bytes
  := by
  rw [slice, List.take_drop, take_overwrite h]
  apply List.drop_left' (List.length_take_of_le h)

theorem take_overwrite_of_le {start m : Nat} (h : start ≤ buf.length) (hm : m ≤ start) :
  (overwrite buf start bytes).take m = buf.take m
  := by
  have hlength : (buf.take start).length = start := List.length_take_of_le h
  rw [overwrite, List.append_assoc, List.take_append_of_le_length (by omega), List.take_take,
    Nat.min_eq_left hm]

theorem length_resize :
  (resize buf n x).length = n
  := by
  simp only [resize, List.length_append, List.length_take, List.length_replicate]
  omega

/-- Enlarging a buffer keeps what it holds. -/
theorem take_resize {m : Nat} (hm : m ≤ buf.length) (hn : buf.length ≤ n) :
  (resize buf n x).take m = buf.take m
  := by
  rw [resize, List.take_of_length_le hn, List.take_append_of_le_length hm]

/-- A slice depends only on what lies before its end. -/
theorem slice_eq {start m : Nat} :
  slice buf start m = (buf.take (start + m)).drop start
  := by
  rw [slice, List.take_drop]

/-- Overwriting the elements after a prefix by as many. -/
theorem overwrite_append {pre old rest : List α} (h : old.length = bytes.length) :
  overwrite (pre ++ (old ++ rest)) pre.length bytes = pre ++ (bytes ++ rest)
  := by
  rw [overwrite, List.take_left, List.append_assoc, List.drop_append,
    List.drop_of_length_le (Nat.le_add_right _ _), Nat.add_sub_cancel_left, ← h,
    List.drop_left, List.nil_append]

/-- Overwriting one of several blocks of one length replaces this block. -/
theorem overwrite_flatten {rest : List α} {size : Nat} (hbytes : bytes.length = size) :
  ∀ {blocks : List (List α)} {pre : List α} {i : Nat}, (∀ block ∈ blocks, block.length = size) →
    i < blocks.length →
      overwrite (pre ++ (blocks.flatten ++ rest)) (pre.length + i * size) bytes
        = pre ++ ((blocks.set i bytes).flatten ++ rest)
  | block :: blocks, pre, i, hsize, hi => by
      obtain ⟨hblock, hsize⟩ := List.forall_mem_cons.mp hsize
      cases i with
      | zero =>
        rw [Nat.zero_mul, Nat.add_zero, List.set_cons_zero, List.flatten_cons, List.flatten_cons,
          List.append_assoc, List.append_assoc]
        apply overwrite_append
        rw [hblock, hbytes]
      | succ i =>
        have ih := @overwrite_flatten rest size hbytes blocks (pre ++ block) i hsize
          (Nat.lt_of_succ_lt_succ hi)
        have hstart : (pre ++ block).length + i * size = pre.length + (i + 1) * size := by
          rw [List.length_append, hblock, Nat.succ_mul]
          omega
        rw [hstart] at ih
        rw [List.set_cons_succ, List.flatten_cons, List.flatten_cons]
        simpa only [List.append_assoc] using ih

end Buffer

import FiredancerRs.Lib.Buffer
import FiredancerRs.Lib.Except
import Mathlib.Algebra.Ring.Nat

/-!
# Arrays of a fixed size

Access to an array whose size does not change, and arithmetic on machine integers, with every
fault that a program is stopped for or that loses bits. In range an access reads and writes the
list of the elements (`get_of_lt`, `set_of_lt`, `copy_of_le`, `slice_of_le`).

An array with a count holds the elements below the count (`used`).
-/

namespace FixedArray

/-- The faults of accesses, of arithmetic and of casts, and a failed assertion. -/
inductive Fault where
  | outOfRange
  | lengthMismatch
  | overflow
  | lossyCast
  | assertion (message : String)
deriving DecidableEq, Repr

variable {α : Type} {n : Nat}

/-- `v[i]` -/
def get (v : Vector α n) (i : Nat) : Except Fault α :=
  if h : i < n then .ok v[i] else .error .outOfRange

/-- `v[i] = x` -/
def set (v : Vector α n) (i : Nat) (x : α) : Except Fault (Vector α n) :=
  if h : i < n then .ok (v.set i x) else .error .outOfRange

/-- `&v[start..stop]` -/
def slice (v : Vector α n) (start stop : Nat) : Except Fault (List α) :=
  if start ≤ stop ∧ stop ≤ n then .ok (Buffer.slice v.toList start (stop - start))
  else .error .outOfRange

/-- The array with a stretch of it overwritten. -/
def overwrite (v : Vector α n) (start : Nat) (xs : List α) (h : start + xs.length ≤ n) :
    Vector α n where
  toArray := (Buffer.overwrite v.toList start xs).toArray
  size_toArray := by
    rw [List.size_toArray, Buffer.length_overwrite (by simpa using h), Vector.length_toList]

/-- `v[start..stop].copy_from_slice(xs)` -/
def copy (v : Vector α n) (start stop : Nat) (xs : List α) : Except Fault (Vector α n) :=
  if h : start ≤ stop ∧ stop ≤ n then
    if hlen : xs.length = stop - start then
      .ok (overwrite v start xs (by omega))
    else
      .error .lengthMismatch
  else
    .error .outOfRange

/-- A sum of numbers that are addressed by 64 bits. -/
def add (a b : Nat) : Except Fault Nat := if a + b < 2 ^ 64 then .ok (a + b) else .error .overflow

/-- A product of numbers that are addressed by 64 bits. -/
def mul (a b : Nat) : Except Fault Nat := if a * b < 2 ^ 64 then .ok (a * b) else .error .overflow

/-- `a += 1`, of a byte. -/
def incr (a : UInt8) : Except Fault UInt8 :=
  if a.toNat + 1 < 2 ^ 8 then .ok (a + 1) else .error .overflow

/-- `a as u8`, without loss. -/
def toU8 (a : Nat) : Except Fault UInt8 :=
  if a < 2 ^ 8 then .ok (UInt8.ofNat a) else .error .lossyCast

/-- `a as u16`, without loss. -/
def toU16 (a : Nat) : Except Fault UInt16 :=
  if a < 2 ^ 16 then .ok (UInt16.ofNat a) else .error .lossyCast

/-! ### In range -/

variable {v : Vector α n} {i : Nat} {x : α} {xs : List α}

theorem get_eq (h : v.toList[i]? = some x) :
  get v i = .ok x
  := by
  have hlt : i < n := by
    have hlen := (List.getElem?_eq_some_iff.mp h).1
    rwa [Vector.length_toList] at hlen
  rw [get, dif_pos hlt]
  rw [Vector.getElem?_toList, Vector.getElem?_eq_getElem hlt] at h
  apply congrArg Except.ok (Option.some.inj h)

theorem set_of_lt (v : Vector α n) (x : α) (h : i < n) :
  ∃ v', set v i x = .ok v' ∧ v'.toList = v.toList.set i x
  := by
  use v.set i x
  rw [set, dif_pos h]
  exact ⟨rfl, Vector.toList_set h⟩

theorem slice_of_le {start stop : Nat} (v : Vector α n) (h : start ≤ stop) (hstop : stop ≤ n) :
  slice v start stop = .ok (Buffer.slice v.toList start (stop - start))
  := if_pos ⟨h, hstop⟩

theorem copy_of_le {start : Nat} (v : Vector α n) (h : start + xs.length ≤ n) :
  ∃ v', copy v start (start + xs.length) xs = .ok v'
    ∧ v'.toList = Buffer.overwrite v.toList start xs
  := by
  use overwrite v start xs h
  rw [copy, dif_pos ⟨Nat.le_add_right _ _, h⟩, dif_pos (by omega)]
  exact ⟨rfl, rfl⟩

theorem add_of_lt {a b : Nat} (h : a + b < 2 ^ 64) :
  add a b = .ok (a + b)
  := if_pos h

theorem mul_of_lt {a b : Nat} (h : a * b < 2 ^ 64) :
  mul a b = .ok (a * b)
  := if_pos h

theorem incr_of_lt {a : UInt8} (h : a.toNat + 1 < 2 ^ 8) :
  incr a = .ok (a + 1)
  := if_pos h

theorem toU8_of_lt {a : Nat} (h : a < 2 ^ 8) :
  toU8 a = .ok (UInt8.ofNat a)
  := if_pos h

theorem toU16_of_lt {a : Nat} (h : a < 2 ^ 16) :
  toU16 a = .ok (UInt16.ofNat a)
  := if_pos h

/-- The first places, in order, are the array of all places up to the count. -/
theorem slice_ofFn {count : Nat} (h : count ≤ n) :
  slice (Vector.ofFn fun i : Fin n => i.val) 0 count = .ok (List.range count)
  := by
  rw [slice_of_le _ (Nat.zero_le _) h, Buffer.slice, List.drop_zero, Nat.sub_zero]
  congr 1
  apply List.ext_getElem?
  intro i
  rw [List.getElem?_take, Vector.getElem?_toList, Vector.getElem?_ofFn]
  by_cases hi : i < count
  · have hin : i < n := by omega
    rw [if_pos hi, dif_pos hin, List.getElem?_range hi]
  · rw [if_neg hi, List.getElem?_eq_none (by rw [List.length_range]; omega)]

/-- A table of bytes is filled along pairs of an index of it and a byte. -/
theorem foldlM_set :
  ∀ {ps : List (Nat × Nat)} {table : Vector UInt8 n}, (∀ p ∈ ps, p.1 < n ∧ p.2 < 2 ^ 8) →
    ∃ table', ps.foldlM (fun table p => do
        let byte ← toU8 p.2
        set table p.1 byte) table = .ok table'
      ∧ table'.toList = ps.foldl (fun table p => table.set p.1 (UInt8.ofNat p.2)) table.toList
  | [], table, _ => ⟨table, rfl, rfl⟩
  | p :: ps, table, hps => by
      obtain ⟨⟨hfst, hsnd⟩, hps⟩ := List.forall_mem_cons.mp hps
      obtain ⟨table₁, hset, hlist⟩ := set_of_lt table (UInt8.ofNat p.2) hfst
      obtain ⟨table', hfold, hlist'⟩ := foldlM_set hps
      use table'
      rw [List.foldlM_cons, toU8_of_lt hsnd, Except.ok_bind, hset, Except.ok_bind, hfold,
        List.foldl_cons, ← hlist, hlist']
      exact ⟨rfl, rfl⟩

/-! ### Arrays with a count -/

/-- The array holds the elements, and they are as many as the count says. -/
structure Holds (v : Vector α n) (count : Nat) (xs : List α) : Prop where
  count_eq : count = xs.length
  elements : xs <+: v.toList

theorem Holds.length_le {count : Nat} (h : Holds v count xs) :
  xs.length ≤ n
  := by
  have hlen := h.elements.length_le
  rwa [Vector.length_toList] at hlen

theorem Holds.get {count : Nat} (h : Holds v count xs) (hi : xs[i]? = some x) :
  get v i = .ok x
  := by
  obtain ⟨rest, hrest⟩ := h.elements
  have hlt : i < xs.length := (List.getElem?_eq_some_iff.mp hi).1
  apply get_eq
  rw [← hrest, List.getElem?_append_left hlt, hi]

theorem Holds.set {count : Nat} (h : Holds v count xs) (x : α) (hi : i < xs.length) :
  ∃ v', set v i x = .ok v' ∧ Holds v' count (xs.set i x)
  := by
  obtain ⟨rest, hrest⟩ := h.elements
  obtain ⟨v', hset, hlist⟩ := set_of_lt v x (Nat.lt_of_lt_of_le hi h.length_le)
  use v', hset
  constructor
  · rw [List.length_set, h.count_eq]
  · rw [hlist, ← hrest, List.set_append_left _ _ hi]
    apply List.prefix_append _ _

/-- An element is stored at the count. -/
theorem Holds.push {count : Nat} (h : Holds v count xs) (x : α) (hlt : count < n) :
  ∃ v', FixedArray.set v count x = .ok v' ∧ Holds v' (count + 1) (xs ++ [x])
  := by
  obtain ⟨rest, hrest⟩ := h.elements
  obtain ⟨v', hset, hlist⟩ := set_of_lt v x hlt
  have hlen := congrArg List.length hrest
  rw [List.length_append, Vector.length_toList, ← h.count_eq] at hlen
  use v', hset
  constructor
  · rw [List.length_append, List.length_singleton, h.count_eq]
  · rw [hlist, ← hrest, List.set_append_right _ _ (Nat.le_of_eq h.count_eq.symm), h.count_eq,
      Nat.sub_self]
    cases rest with
    | nil =>
      rw [List.length_nil] at hlen
      omega
    | cons y rest =>
      exact ⟨rest, by rw [List.set_cons_zero, List.append_assoc, List.singleton_append]⟩

/-- Elements are stored from the count on. -/
theorem Holds.append {count : Nat} (h : Holds v count xs) (ys : List α)
    (hle : count + ys.length ≤ n) :
  ∃ v', copy v count (count + ys.length) ys = .ok v'
    ∧ Holds v' (count + ys.length) (xs ++ ys)
  := by
  obtain ⟨v', hcopy, hlist⟩ := copy_of_le v hle
  use v', hcopy
  constructor
  · rw [List.length_append, h.count_eq]
  · have htake : v.toList.take count = xs := by
      rw [h.count_eq]
      apply (List.prefix_iff_eq_take.mp h.elements).symm
    rw [hlist, Buffer.overwrite, htake]
    apply List.prefix_append _ _

theorem Holds.slice {count start stop : Nat} (h : Holds v count xs) (hle : start ≤ stop)
    (hstop : stop ≤ count) :
  FixedArray.slice v start stop = .ok (Buffer.slice xs start (stop - start))
  := by
  have hxs : stop ≤ xs.length := by rwa [← h.count_eq]
  rw [slice_of_le v hle (Nat.le_trans hxs h.length_le), Buffer.slice_eq, Buffer.slice_eq,
    Nat.add_sub_cancel' hle]
  obtain ⟨rest, hrest⟩ := h.elements
  rw [← hrest, List.take_append_of_le_length hxs]

/-- What is held below the count is read there. -/
theorem Holds.getElem? {count : Nat} (h : Holds v count xs) (hi : i < count) :
  v[i]? = xs[i]?
  := by
  obtain ⟨rest, hrest⟩ := h.elements
  rw [← Vector.getElem?_toList, ← hrest, List.getElem?_append_left (by rwa [← h.count_eq])]

/-- The elements of an array whose places are read are there. -/
theorem Holds.mapM_get {count : Nat} (h : Holds v count xs) :
  ∀ {is : List Nat}, (∀ i ∈ is, i < xs.length) →
    ∃ ys, is.mapM (fun i => FixedArray.get v i) = .ok ys
  | [], _ => ⟨[], rfl⟩
  | i :: is, hlt => by
      obtain ⟨hi, his⟩ := List.forall_mem_cons.mp hlt
      obtain ⟨ys, hys⟩ := h.mapM_get his
      rw [List.mapM_cons, h.get (List.getElem?_eq_getElem hi), Except.ok_bind, hys]
      exact ⟨_, rfl⟩

/-! ### Arrays that are filled -/

/-- The array holds the elements, and is blank after them. -/
structure Filled (blank : α) (v : Vector α n) (count : Nat) (xs : List α) : Prop where
  count_eq : count = xs.length
  le : count ≤ n
  elements : v.toList = xs ++ List.replicate (n - count) blank

variable {blank : α}

theorem filled_replicate :
  Filled blank (Vector.replicate n blank) 0 []
  where
  count_eq := rfl
  le := Nat.zero_le n
  elements := by
    rw [Vector.toList_replicate, Nat.sub_zero]
    rfl

theorem Filled.holds {count : Nat} (h : Filled blank v count xs) :
  Holds v count xs
  where
  count_eq := h.count_eq
  elements := by
    rw [h.elements]
    apply List.prefix_append _ _

/-- Elements are stored from the count on. -/
theorem Filled.append {count : Nat} (h : Filled blank v count xs) (ys : List α)
    (hle : count + ys.length ≤ n) :
  ∃ v', copy v count (count + ys.length) ys = .ok v'
    ∧ Filled blank v' (count + ys.length) (xs ++ ys)
  := by
  obtain ⟨v', hcopy, hlist⟩ := copy_of_le v hle
  use v', hcopy
  constructor
  · rw [List.length_append, h.count_eq]
  · apply hle
  · rw [hlist, Buffer.overwrite, h.elements, List.take_left' h.count_eq.symm, List.drop_append,
      List.drop_of_length_le (by rw [h.count_eq]; omega), List.nil_append, List.drop_replicate]
    congr 2
    rw [h.count_eq]
    omega

/-- An element is stored at the count. -/
theorem Filled.push {count : Nat} (h : Filled blank v count xs) (x : α) (hlt : count < n) :
  ∃ v', FixedArray.set v count x = .ok v' ∧ Filled blank v' (count + 1) (xs ++ [x])
  := by
  obtain ⟨v', hset, hlist⟩ := set_of_lt v x hlt
  use v', hset
  constructor
  · rw [List.length_append, List.length_singleton, h.count_eq]
  · apply hlt
  · have hrest : List.replicate (n - count) blank
        = blank :: List.replicate (n - (count + 1)) blank := by
      rw [← List.replicate_succ]
      congr 1
      omega
    rw [hlist, h.elements, List.set_append_right _ _ (Nat.le_of_eq h.count_eq.symm), h.count_eq,
      Nat.sub_self, ← h.count_eq, hrest, List.set_cons_zero, List.append_assoc]
    rfl

/-- Blanks are left from the count on. -/
theorem Filled.skip {count k : Nat} (h : Filled blank v count xs) (hle : count + k ≤ n) :
  Filled blank v (count + k) (xs ++ List.replicate k blank)
  where
  count_eq := by rw [List.length_append, List.length_replicate, h.count_eq]
  le := hle
  elements := by
    rw [h.elements, List.append_assoc, List.replicate_append_replicate]
    congr 2
    omega

end FixedArray

import FiredancerRs.Lib.Runs
import FiredancerRs.Tmpl.Container
import Mathlib.Data.Finset.Card

/-!
# The pool

`FdPool` over the C template `fd_pool`, which is the parameter `PoolSys`: a list of the indices that
are free. An index that is acquired is taken from the list, and one that is released is put on it,
whatever it is. So the pool hands out an index that is in use once one has been released that was
not, and it asks the template for an index also when none is free, where that has no result. While
indices are acquired only when one is free, and only acquired indices are released, each index is
acquired by one at a time, and the counts add up to the capacity (`acquired_once`).
-/

namespace FdTmpl

/-- The functions of the template, on the address of a pool and its memory. There is no result where
the effect is not defined. -/
structure PoolSys (μ : Type) where
  tmpl : UInt64 → TmplSys μ
  idxAcquire : Nat → μ → Option (μ × UInt64)
  idxNull : Nat → μ → UInt64
  idxRelease : Nat → μ → UInt64 → Option μ
  free : Nat → μ → UInt64
  used : Nat → μ → UInt64

/-- `FdPool` -/
structure FdPool (μ : Type) extends Container μ where
  maxElements : UInt64

namespace FdPool

variable {μ : Type} (sys : PoolSys μ) (pool : FdPool μ)

/-- `FdPool::new` -/
def new (maxElements : UInt64) : Except TmplError (FdPool μ) :=
  (Container.new (sys.tmpl maxElements)).map fun c => { c with maxElements := maxElements }

/-- `acquire` -/
def acquire : Option (FdPool μ × Option UInt64) := do
  let (mem, idx) ← sys.idxAcquire pool.handle pool.mem
  some ({ pool with mem := mem }, if idx = sys.idxNull pool.handle mem then none else some idx)

/-- `release` -/
def release (idx : UInt64) : Option (FdPool μ) := do
  let mem ← sys.idxRelease pool.handle pool.mem idx
  some { pool with mem := mem }

/-- `available` -/
def available : Nat := (sys.free pool.handle pool.mem).toNat

/-- `used` -/
def used : Nat := (sys.used pool.handle pool.mem).toNat

/-- `is_empty` -/
def isEmpty : Bool := available sys pool = 0

/-- `capacity` -/
def capacity : UInt64 := pool.maxElements

/-! ### Histories -/

/-- A call that changes a pool. -/
inductive Call where
  | acquire
  | release (idx : UInt64)

/-- The pool and the indices that are acquired, after a call. A call without a result leaves them as
they are. -/
def step (p : FdPool μ × Finset UInt64) : Call → FdPool μ × Finset UInt64
  | .acquire =>
    match acquire sys p.1 with
    | none => p
    | some (pool, none) => (pool, p.2)
    | some (pool, some idx) => (pool, insert idx p.2)
  | .release idx =>
    match release sys p.1 idx with
    | none => p
    | some pool => (pool, p.2.erase idx)

/-- An index that is returned is below the capacity, and is not acquired. -/
def AcquiresFresh (p : FdPool μ × Finset UInt64) : Call → Prop
  | .acquire => ∃ pool result, acquire sys p.1 = some (pool, result) ∧
    ∀ idx, result = some idx → idx < capacity p.1 ∧ idx ∉ p.2
  | .release idx => ∃ pool, release sys p.1 idx = some pool

/-- The counts add up to the capacity. -/
def Counts (p : FdPool μ × Finset UInt64) : Prop :=
  used sys p.1 + available sys p.1 = (capacity p.1).toNat

/-- An index is free when one is acquired, and only an index that is acquired is released. -/
def Orderly (p : FdPool μ × Finset UInt64) : Call → Prop
  | .acquire => isEmpty sys p.1 = false
  | .release idx => idx ∈ p.2

/-- The indices of a pool for `max` elements. -/
def indices (max : UInt64) : List UInt64 := (List.range max.toNat).map UInt64.ofNat

theorem mem_indices (max : UInt64) {idx : UInt64} :
  idx ∈ indices max ↔ idx < max
  := by
  rw [indices, List.mem_map, UInt64.lt_iff_toNat_lt]
  constructor
  · rintro ⟨i, hi, rfl⟩
    have hlt := List.mem_range.mp hi
    rwa [UInt64.toNat_ofNat_of_lt' (Nat.lt_trans hlt max.toNat_lt)]
  · intro hlt
    exact ⟨idx.toNat, List.mem_range.mpr hlt, UInt64.ofNat_toNat⟩

theorem nodup_indices (max : UInt64) :
  (indices max).Nodup
  := by
  apply List.Nodup.map_on _ List.nodup_range
  intro i hi j hj heq
  have hi := Nat.lt_trans (List.mem_range.mp hi) max.toNat_lt
  have hj := Nat.lt_trans (List.mem_range.mp hj) max.toNat_lt
  rw [← UInt64.toNat_ofNat_of_lt' hi, heq, UInt64.toNat_ofNat_of_lt' hj]

/-- What is documented of the template, of which we know the list of the free indices of a pool for
`max` elements. There must be an index on the list when one is taken from it, and an index that is
put on the list must be one of the pool, and must not be on it. -/
structure Documented (max : UInt64) (free : μ → List UInt64) : Prop where
  new : ∀ mem, (free ((sys.tmpl max).new mem)).Perm (indices max)
  null : ∀ handle mem, max ≤ sys.idxNull handle mem
  acquire : ∀ handle mem idx rest, free mem = idx :: rest → ∃ mem',
    sys.idxAcquire handle mem = some (mem', idx) ∧ free mem' = rest
  release : ∀ handle mem idx, idx < max → idx ∉ free mem → ∃ mem',
    sys.idxRelease handle mem idx = some mem' ∧ free mem' = idx :: free mem
  free_eq : ∀ handle mem, (free mem).length ≤ max.toNat →
    (sys.free handle mem).toNat = (free mem).length
  used_eq : ∀ handle mem, (free mem).length ≤ max.toNat →
    (sys.used handle mem).toNat = max.toNat - (free mem).length

/-- The pool is one for `max` elements, and each of its indices is either free or acquired. -/
structure Split (max : UInt64) (free : μ → List UInt64) (p : FdPool μ × Finset UInt64) : Prop where
  capacity : p.1.maxElements = max
  nodup : (free p.1.mem).Nodup
  below : ∀ idx ∈ free p.1.mem, idx < max
  acquired : ∀ idx ∈ p.2, idx < max ∧ idx ∉ free p.1.mem
  length : (free p.1.mem).length + p.2.card = max.toNat

section Calls

variable {sys : PoolSys μ} {max : UInt64} {free : μ → List UInt64} {pool : FdPool μ}
  {acquired : Finset UInt64} (hdoc : Documented sys max free) (h : Split max free (pool, acquired))
include h

theorem Split.length_le :
  (free pool.mem).length ≤ max.toNat
  := Nat.le_of_add_right_le (Nat.le_of_eq h.length)

include hdoc

theorem Split.counts :
  Counts sys (pool, acquired)
  := by
  have hle := h.length_le
  have hcapacity : pool.maxElements = max := h.capacity
  rw [Counts, FdPool.used, available, FdPool.capacity, hdoc.used_eq _ _ hle, hdoc.free_eq _ _ hle,
    hcapacity]
  apply Nat.sub_add_cancel hle

/-- What is acquired is the first free index. -/
theorem Split.acquire (hempty : isEmpty sys pool = false) :
  ∃ pool' idx, FdPool.acquire sys pool = some (pool', some idx)
    ∧ idx < FdPool.capacity pool ∧ idx ∉ acquired
    ∧ Split max free (step sys (pool, acquired) .acquire)
  := by
  have havailable : available sys pool = (free pool.mem).length :=
    hdoc.free_eq _ _ h.length_le
  obtain ⟨hcapacity, hnodup, hbelow, hacquired, hlength⟩ := h
  dsimp only at hcapacity hnodup hbelow hacquired hlength
  cases hfree : free pool.mem with
  | nil =>
    rw [hfree] at havailable
    rw [isEmpty, havailable] at hempty
    cases hempty
  | cons idx rest =>
    obtain ⟨mem, hacquire, hrest⟩ := hdoc.acquire pool.handle pool.mem idx rest hfree
    rw [hfree] at hnodup hbelow hacquired hlength
    obtain ⟨hnotMem, hnodup⟩ := List.nodup_cons.mp hnodup
    obtain ⟨hlt, hbelow⟩ := List.forall_mem_cons.mp hbelow
    have hnull : idx ≠ sys.idxNull pool.handle mem := by
      rintro rfl
      exact UInt64.not_le.mpr hlt (hdoc.null pool.handle mem)
    have hfresh : idx ∉ acquired := fun hidx => (hacquired idx hidx).2 List.mem_cons_self
    have heq : FdPool.acquire sys pool = some ({ pool with mem := mem }, some idx) := by
      rw [FdPool.acquire, hacquire]
      exact congrArg some (Prod.ext rfl (if_neg hnull))
    refine ⟨_, _, heq, ?_, hfresh, ?_⟩
    · rw [FdPool.capacity, hcapacity]
      exact hlt
    · rw [step, heq]
      constructor
      · exact hcapacity
      · rw [hrest]
        exact hnodup
      · rw [hrest]
        exact hbelow
      · rw [hrest]
        intro idx' hidx'
        obtain rfl | hold := Finset.mem_insert.mp hidx'
        · exact ⟨hlt, hnotMem⟩
        · exact ⟨(hacquired idx' hold).1, fun hmem =>
            (hacquired idx' hold).2 (List.mem_cons_of_mem idx hmem)⟩
      · rw [hrest, Finset.card_insert_of_notMem hfresh, ← hlength, List.length_cons]
        omega

/-- An acquired index that is released is free. -/
theorem Split.release {idx : UInt64} (hidx : idx ∈ acquired) :
  ∃ pool', FdPool.release sys pool idx = some pool'
    ∧ Split max free (step sys (pool, acquired) (.release idx))
  := by
  obtain ⟨hcapacity, hnodup, hbelow, hacquired, hlength⟩ := h
  dsimp only at hcapacity hnodup hbelow hacquired hlength
  obtain ⟨hlt, hnotMem⟩ := hacquired idx hidx
  obtain ⟨mem, hrelease, hfree⟩ := hdoc.release pool.handle pool.mem idx hlt hnotMem
  have heq : FdPool.release sys pool idx = some { pool with mem := mem } := by
    rw [FdPool.release, hrelease]
    rfl
  use { pool with mem := mem }, heq
  rw [step, heq]
  constructor
  · exact hcapacity
  · rw [hfree]
    exact List.nodup_cons.mpr ⟨hnotMem, hnodup⟩
  · rw [hfree]
    exact List.forall_mem_cons.mpr ⟨hlt, hbelow⟩
  · rw [hfree]
    intro idx' hidx'
    obtain ⟨hne, hold⟩ := Finset.mem_erase.mp hidx'
    obtain ⟨hlt', hnotMem'⟩ := hacquired idx' hold
    exact ⟨hlt', List.not_mem_cons_of_ne_of_not_mem hne hnotMem'⟩
  · have hpos : 0 < acquired.card := Finset.card_pos.mpr ⟨idx, hidx⟩
    rw [hfree, Finset.card_erase_of_mem hidx, ← hlength, List.length_cons]
    omega

/-- An orderly call keeps the pool split. -/
theorem Split.step {c : Call} (hc : Orderly sys (pool, acquired) c) :
  Split max free (step sys (pool, acquired) c) ∧ AcquiresFresh sys (pool, acquired) c
  := by
  cases c with
  | acquire =>
    obtain ⟨pool', idx, hacquire, hlt, hfresh, hsplit⟩ := h.acquire hdoc hc
    use hsplit, pool', some idx, hacquire
    rintro _ ⟨⟩
    exact ⟨hlt, hfresh⟩
  | release idx =>
    obtain ⟨pool', hrelease, hsplit⟩ := h.release hdoc hc
    exact ⟨hsplit, pool', hrelease⟩

end Calls

/-- A new pool is free. -/
theorem split_new {sys : PoolSys μ} {max : UInt64} {free : μ → List UInt64}
    (hdoc : Documented sys max free) {pool : FdPool μ} (hnew : new sys max = .ok pool) :
  Split max free (pool, ∅)
  := by
  obtain ⟨c, hcontainer, rfl⟩ := Except.map_eq_ok_iff.mp hnew
  obtain ⟨-, mem, hmem, -, -⟩ := Container.new_eq_ok hcontainer
  have hperm := hdoc.new mem
  rw [← hmem] at hperm
  constructor
  · rfl
  · apply hperm.nodup_iff.mpr (nodup_indices max)
  · intro idx hidx
    apply (mem_indices max).mp (hperm.mem_iff.mp hidx)
  · simp
  · rw [Finset.card_empty, Nat.add_zero]
    change (free c.mem).length = max.toNat
    rw [hperm.length_eq, indices, List.length_map, List.length_range]

/-- When indices are acquired only while one is free, and no other than acquired indices are released,
each index that is acquired is one of the pool that is not acquired yet, and the counts always add up
to the capacity. -/
theorem acquired_once {sys : PoolSys μ} {max : UInt64} {free : μ → List UInt64}
    (hdoc : Documented sys max free) {pool : FdPool μ} (hnew : new sys max = .ok pool)
    {calls : List Call} (hcalls : Runs.Along (step sys) (Orderly sys) calls (pool, ∅)) :
  Runs.Along (step sys) (AcquiresFresh sys) calls (pool, ∅)
    ∧ Runs.Throughout (step sys) (Counts sys) calls (pool, ∅)
  := by
  have hstart := split_new hdoc hnew
  have hstep (p : FdPool μ × Finset UInt64) (c : Call) (hp : Split max free p)
      (hc : Orderly sys p c) : Split max free (step sys p c) := (hp.step hdoc hc).1
  constructor
  · exact hcalls.imp (fun p c hp hc => (hp.step hdoc hc).2) hstep hstart
  · intro past hpast
    apply Split.counts hdoc (hcalls.throughout hstep hstart past hpast)

/-! ### A template -/

/-- Lists of free indices. -/
def listSys : PoolSys (List UInt64) where
  tmpl max :=
    { footprint := 16 * max.toNat + 128
      align := 128
      alloc := fun _ => some []
      new := fun _ => indices max
      join := fun _ => 0x1000
      leave := id
      delete := id }
  idxAcquire _ mem :=
    match mem with
    | [] => none
    | idx :: rest => some (rest, idx)
  idxNull _ _ := 4294967295
  idxRelease _ mem idx := some (idx :: mem)
  free _ mem := UInt64.ofNat mem.length
  used _ mem := 10 - UInt64.ofNat mem.length

theorem listSys_documented :
  Documented listSys 10 id
  where
    new _ := List.Perm.refl _
    null _ _ := (by decide : (10 : UInt64) ≤ 4294967295)
    acquire handle mem idx rest h := by
      obtain rfl : mem = idx :: rest := h
      exact ⟨rest, rfl, rfl⟩
    release _ _ _ _ _ := ⟨_, rfl, rfl⟩
    free_eq handle mem h := UInt64.toNat_ofNat_of_lt' (Nat.lt_of_le_of_lt h (by decide))
    used_eq handle mem h := by
      have hlength : (UInt64.ofNat mem.length).toNat = mem.length :=
        UInt64.toNat_ofNat_of_lt' (Nat.lt_of_le_of_lt h (by decide))
      have hle : UInt64.ofNat mem.length ≤ 10 := by
        rw [UInt64.le_iff_toNat_le, hlength]
        exact h
      exact (UInt64.toNat_sub_of_le _ _ hle).trans (congrArg (10 - ·) hlength)

/-- A new pool of ten elements. -/
def listPool : FdPool (List UInt64) where
  handle := 0x1000
  mem := indices 10
  maxElements := 10

theorem listPool_new :
  new listSys 10 = .ok listPool
  := rfl

/-- Two indices are acquired, one is released and another is acquired. -/
theorem acquired_once_again :
  Runs.Along (step listSys) (AcquiresFresh listSys) [.acquire, .acquire, .release 0, .acquire]
      (listPool, ∅)
    ∧ Runs.Throughout (step listSys) (Counts listSys) [.acquire, .acquire, .release 0, .acquire]
      (listPool, ∅)
  := by
  apply acquired_once listSys_documented listPool_new
  exact ⟨rfl, rfl, (by decide : (0 : UInt64) ∈ ({1, 0} : Finset UInt64)), rfl, trivial⟩

/-- An index that is released twice is acquired twice. -/
theorem acquired_twice :
  ¬ Runs.Along (step listSys) (AcquiresFresh listSys)
    [.acquire, .release 0, .release 0, .acquire, .acquire] (listPool, ∅)
  := by
  rintro ⟨-, -, -, -, ⟨pool, result, hacquire, hfresh⟩, -⟩
  obtain ⟨-, hresult⟩ := Prod.mk.inj (Option.some.inj hacquire)
  exact (hfresh 0 hresult.symm).2 (Finset.mem_insert_self 0 _)

end FdPool

end FdTmpl

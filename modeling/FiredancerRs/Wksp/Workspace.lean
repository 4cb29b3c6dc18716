import Mathlib.Data.List.Nodup
import Mathlib.Data.List.Pairwise
import Mathlib.Data.Set.Basic
import Mathlib.Data.Set.Lattice
import Mathlib.Logic.Function.Basic
import Mathlib.Order.CompletePartialOrder
import Mathlib.Order.Interval.Set.Disjoint

/-!
# Workspaces

The allocations of a workspace. The library keeps a table of allocated partitions for each
workspace (`Heap`): it allocates a partition where it likes, and it frees those that contain an
address, that have one of some tags, or all of them (`freeWhere`). Each partition has an identity,
which the allocation that it is made for keeps; addresses are used again, identities are not.
-/

namespace FdWksp

/-- The handle of a workspace. -/
abbrev Workspace := Nat

/-- The errors of `WorkspaceError` that an allocation returns. -/
inductive WorkspaceError where
  | allocationFailed
  | invalidAlignment
  | invalidSize
  | invalidGlobalAddress
  | invalidTag
deriving DecidableEq, Repr

/-- An allocated partition, with its identity. -/
structure Partition where
  lo : Nat
  hi : Nat
  tag : Nat
  id : Nat
deriving DecidableEq, Repr

/-- The addresses of a partition. -/
def Partition.range (p : Partition) : Set Nat := Set.Ico p.lo p.hi

/-- The partition contains an address. -/
def Partition.contains (p : Partition) (gaddr : Nat) : Bool := p.lo ≤ gaddr ∧ gaddr < p.hi

theorem Partition.mem_range {p : Partition} {gaddr : Nat} :
  gaddr ∈ p.range ↔ p.contains gaddr = true
  := by
  simp [range, contains]

/-- The allocated partitions of each workspace, and the partitions that have been freed. -/
structure Heap where
  partitions : Workspace → List Partition
  freed : List (Workspace × Nat)
  nextId : Nat

/-- What the library does when it is asked for memory: the address that `fd_wksp_alloc` returns, or
zero, the bounds of the partition, and the local address that it gives for it, or zero. -/
structure AllocAnswer where
  gaddr : Nat
  lo : Nat
  hi : Nat
  laddr : Nat
deriving DecidableEq, Repr

/-- `WorkspaceAllocation`, with the identity of its partition. -/
structure WorkspaceAllocation where
  workspace : Workspace
  gaddr : Nat
  size : Nat
  laddr : Nat
  id : Nat
deriving DecidableEq, Repr

namespace WorkspaceAllocation

/-- The addresses of an allocation. -/
def range (a : WorkspaceAllocation) : Set Nat := Set.Ico a.gaddr (a.gaddr + a.size)

/-- The partition of an allocation. -/
def key (a : WorkspaceAllocation) : Workspace × Nat := (a.workspace, a.id)

/-- `into_raw` -/
def intoRaw (a : WorkspaceAllocation) : Nat := a.gaddr

end WorkspaceAllocation

namespace Heap

/-- Nothing is allocated. -/
def empty : Heap where
  partitions _ := []
  freed := []
  nextId := 0

/-- Free the partitions of a workspace that satisfy a condition. -/
def freeWhere (ws : Workspace) (cond : Partition → Bool) (heap : Heap) : Heap where
  partitions :=
    Function.update heap.partitions ws ((heap.partitions ws).filter fun p => !cond p)
  freed := heap.freed ++ ((heap.partitions ws).filter cond).map fun p => (ws, p.id)
  nextId := heap.nextId

/-- `fd_wksp_free` -/
def free (ws : Workspace) (gaddr : Nat) : Heap → Heap := freeWhere ws (·.contains gaddr)

/-- `fd_wksp_tag_free` -/
def tagFree (ws : Workspace) (tags : List Nat) : Heap → Heap := freeWhere ws (·.tag ∈ tags)

/-- `fd_wksp_reset` -/
def reset (ws : Workspace) : Heap → Heap := freeWhere ws fun _ => true

/-- Allocate a partition with a new identity. -/
def add (ws : Workspace) (lo hi tag : Nat) (heap : Heap) : Heap where
  partitions := Function.update heap.partitions ws
    ({ lo := lo, hi := hi, tag := tag, id := heap.nextId } :: heap.partitions ws)
  freed := heap.freed
  nextId := heap.nextId + 1

/-- `fd_wksp_alloc`. Nothing is allocated when it returns zero. -/
def alloc (ws : Workspace) (tag : Nat) (answer : AllocAnswer) (heap : Heap) : Heap :=
  if answer.gaddr = 0 then heap else heap.add ws answer.lo answer.hi tag

end Heap

/-! ### The calls -/

/-- `WorkspaceAllocation::new`. The partition stays allocated when it fails. -/
def WorkspaceAllocation.new (ws : Workspace) (size : Nat) (answer : AllocAnswer) (id : Nat) :
    Except WorkspaceError WorkspaceAllocation :=
  if answer.laddr = 0 then
    .error .invalidGlobalAddress
  else
    .ok { workspace := ws, gaddr := answer.gaddr, size := size, laddr := answer.laddr, id := id }

/-- `allocate` -/
def allocate (ws : Workspace) (size align tag : Nat) (answer : AllocAnswer) (heap : Heap) :
    Except WorkspaceError WorkspaceAllocation × Heap :=
  if size = 0 then
    (.error .invalidSize, heap)
  else if tag = 0 then
    (.error .invalidTag, heap)
  else if 0 < align ∧ ¬ align.isPowerOfTwo then
    (.error .invalidAlignment, heap)
  else if answer.gaddr = 0 then
    (.error .allocationFailed, heap.alloc ws tag answer)
  else
    (WorkspaceAllocation.new ws size answer heap.nextId, heap.alloc ws tag answer)

/-- `allocate_at_least`, with the bounds of the partition. -/
def allocateAtLeast (ws : Workspace) (size align tag : Nat) (answer : AllocAnswer) (heap : Heap) :
    Except WorkspaceError (WorkspaceAllocation × Nat × Nat) × Heap :=
  if size = 0 then
    (.error .invalidSize, heap)
  else if tag = 0 then
    (.error .invalidTag, heap)
  else if 0 < align ∧ ¬ align.isPowerOfTwo then
    (.error .invalidAlignment, heap)
  else if answer.gaddr = 0 then
    (.error .allocationFailed, heap.alloc ws tag answer)
  else
    ((WorkspaceAllocation.new ws size answer heap.nextId).map fun a => (a, answer.lo, answer.hi),
      heap.alloc ws tag answer)

/-- `WorkspaceAllocation::drop` -/
def WorkspaceAllocation.drop (a : WorkspaceAllocation) (heap : Heap) : Heap :=
  heap.free a.workspace a.gaddr

/-- `free_gaddr` -/
def freeGaddr (ws : Workspace) (gaddr : Nat) (heap : Heap) : Heap := heap.free ws gaddr

/-- `free` -/
def free (ws : Workspace) (allocation : WorkspaceAllocation) (heap : Heap) : Heap :=
  freeGaddr ws allocation.intoRaw heap

/-- `free_by_tag` -/
def freeByTag (ws : Workspace) (tags : List Nat) (heap : Heap) : Heap :=
  if tags.isEmpty then heap else heap.tagFree ws tags

/-- `reset` -/
def reset (ws : Workspace) (heap : Heap) : Heap := heap.reset ws

section Allocate

variable {ws : Workspace} {size align tag : Nat} {answer : AllocAnswer} {heap heap' : Heap}

/-- The two calls differ in what they return only. -/
theorem allocateAtLeast_eq :
  allocateAtLeast ws size align tag answer heap
    = ((allocate ws size align tag answer heap).1.map fun a => (a, answer.lo, answer.hi),
        (allocate ws size align tag answer heap).2)
  := by
  rw [allocateAtLeast, allocate]
  split_ifs <;> rfl

/-- An allocation is made for an answer that is not zero. -/
theorem allocate_ok {a : WorkspaceAllocation}
    (h : allocate ws size align tag answer heap = (.ok a, heap')) :
  0 < size ∧ answer.gaddr ≠ 0 ∧ WorkspaceAllocation.new ws size answer heap.nextId = .ok a
    ∧ heap' = heap.alloc ws tag answer
  := by
  rw [allocate] at h
  split_ifs at h with hsize _ _ hgaddr <;> simp only [Prod.mk.injEq, reduceCtorEq, false_and] at h
  exact ⟨Nat.pos_of_ne_zero hsize, hgaddr, h.1, h.2.symm⟩

theorem allocate_error {e : WorkspaceError}
    (h : allocate ws size align tag answer heap = (.error e, heap')) :
  heap' = heap ∨ heap' = heap.alloc ws tag answer
  := by
  rw [allocate] at h
  split_ifs at h <;> simp_all [eq_comm]

theorem WorkspaceAllocation.new_ok {id : Nat} {a : WorkspaceAllocation}
    (h : WorkspaceAllocation.new ws size answer id = .ok a) :
  a = { workspace := ws, gaddr := answer.gaddr, size := size, laddr := answer.laddr, id := id }
  := by
  rw [WorkspaceAllocation.new] at h
  split at h
  · contradiction
  · apply (Except.ok.inj h).symm

end Allocate

/-! ### The table of partitions -/

/-- What the library promises of an answer that is not zero: the range that is asked for lies in
the partition, and the partition is disjoint from those that are allocated. -/
structure AllocAnswer.Valid (answer : AllocAnswer) (size : Nat) (partitions : List Partition) :
    Prop where
  lo_le : answer.lo ≤ answer.gaddr
  le_hi : answer.gaddr + size ≤ answer.hi
  apart : ∀ p ∈ partitions, Disjoint (Set.Ico answer.lo answer.hi) p.range

namespace Heap

/-- The partitions of a workspace are disjoint, and have identities that no freed one has. -/
structure WellFormed (heap : Heap) : Prop where
  apart : ∀ ws, (heap.partitions ws).Pairwise fun p q => Disjoint p.range q.range
  nodup : ∀ ws, ((heap.partitions ws).map (·.id)).Nodup
  fresh : ∀ ws, ∀ p ∈ heap.partitions ws, p.id < heap.nextId
  freshFreed : ∀ key ∈ heap.freed, key.2 < heap.nextId
  notFreed : ∀ ws, ∀ p ∈ heap.partitions ws, (ws, p.id) ∉ heap.freed

theorem WellFormed.empty :
  Heap.empty.WellFormed
  := by
  constructor <;> simp [Heap.empty]

variable {heap : Heap} {ws ws' : Workspace} {cond : Partition → Bool} {p : Partition}

theorem mem_freeWhere :
  p ∈ (heap.freeWhere ws cond).partitions ws'
    ↔ p ∈ heap.partitions ws' ∧ (ws' = ws → cond p = false)
  := by
  rw [freeWhere]
  by_cases h : ws' = ws
  · simp [h]
  · simp [h]

theorem freeWhere_sublist :
  ((heap.freeWhere ws cond).partitions ws').Sublist (heap.partitions ws')
  := by
  rw [freeWhere]
  by_cases h : ws' = ws
  · subst h
    simp
  · simp [h]

theorem mem_freed_freeWhere {key : Workspace × Nat} :
  key ∈ (heap.freeWhere ws cond).freed
    ↔ key ∈ heap.freed ∨ ∃ p ∈ heap.partitions ws, cond p = true ∧ (ws, p.id) = key
  := by
  simp [freeWhere, and_assoc]

theorem WellFormed.freeWhere (h : heap.WellFormed) :
  (heap.freeWhere ws cond).WellFormed
  := by
  constructor
  case apart => exact fun ws' => (h.apart ws').sublist freeWhere_sublist
  case nodup => exact fun ws' => (h.nodup ws').sublist (freeWhere_sublist.map _)
  case fresh => exact fun ws' p hp => h.fresh ws' p (freeWhere_sublist.subset hp)
  case freshFreed =>
    intro key hkey
    rcases mem_freed_freeWhere.mp hkey with hkey | ⟨p, hp, -, rfl⟩
    · apply h.freshFreed key hkey
    · apply h.fresh ws p hp
  case notFreed =>
    intro ws' p hp hkey
    rw [mem_freeWhere] at hp
    rcases mem_freed_freeWhere.mp hkey with hkey | ⟨q, hq, hcond, heq⟩
    · apply h.notFreed ws' p hp.1 hkey
    · obtain ⟨rfl, hid⟩ := Prod.mk.inj heq
      have hpq : q = p := List.inj_on_of_nodup_map (h.nodup ws) hq hp.1 hid
      rw [← hpq, hcond] at hp
      exact absurd (hp.2 rfl) (by decide)

theorem WellFormed.disjoint (h : heap.WellFormed) {q : Partition} (hp : p ∈ heap.partitions ws)
    (hq : q ∈ heap.partitions ws) (hne : p ≠ q) :
  Disjoint p.range q.range
  := by
  have : Std.Symm fun p q : Partition => Disjoint p.range q.range := ⟨fun _ _ h => h.symm⟩
  apply (h.apart ws).forall hp hq hne

/-- A partition that is freed has been freed once. -/
theorem WellFormed.count_freeWhere (h : heap.WellFormed) (hp : p ∈ heap.partitions ws)
    (hcond : cond p = true) :
  (heap.freeWhere ws cond).freed.count (ws, p.id) = 1
  := by
  have hids := (h.nodup ws).sublist ((List.filter_sublist (p := cond)).map _)
  have hnodup := hids.map (Prod.mk_right_injective ws)
  rw [List.map_map] at hnodup
  rw [Heap.freeWhere, List.count_append, List.count_eq_zero_of_not_mem (h.notFreed ws p hp),
    Nat.zero_add]
  apply List.count_eq_one_of_mem hnodup
  apply List.mem_map.mpr ⟨p, List.mem_filter.mpr ⟨hp, hcond⟩, rfl⟩

/-- What has been freed is not freed again. -/
theorem WellFormed.count_freeWhere_of_mem (h : heap.WellFormed) {key : Workspace × Nat}
    (hkey : key ∈ heap.freed) :
  (heap.freeWhere ws cond).freed.count key = heap.freed.count key
  := by
  rw [Heap.freeWhere, List.count_append, Nat.add_eq_left, List.count_eq_zero]
  intro hmem
  obtain ⟨p, hp, rfl⟩ := List.mem_map.mp hmem
  apply h.notFreed ws p (List.mem_filter.mp hp).1 hkey

variable {lo hi tag : Nat}

theorem partitions_add_self :
  (heap.add ws lo hi tag).partitions ws
    = { lo := lo, hi := hi, tag := tag, id := heap.nextId } :: heap.partitions ws
  := Function.update_self ..

theorem partitions_add_of_ne (h : ws' ≠ ws) :
  (heap.add ws lo hi tag).partitions ws' = heap.partitions ws'
  := Function.update_of_ne h ..

theorem partitions_sublist_add :
  (heap.partitions ws').Sublist ((heap.add ws lo hi tag).partitions ws')
  := by
  by_cases h : ws' = ws
  · subst h
    rw [partitions_add_self]
    apply List.sublist_cons_self
  · rw [partitions_add_of_ne h]

/-- A new partition is disjoint from the others, and its identity is new. -/
theorem WellFormed.add (h : heap.WellFormed)
    (hapart : ∀ p ∈ heap.partitions ws, Disjoint (Set.Ico lo hi) p.range) :
  (heap.add ws lo hi tag).WellFormed
  := by
  constructor
  case apart =>
    intro ws'
    by_cases hws : ws' = ws
    · subst hws
      rw [partitions_add_self]
      apply List.pairwise_cons.mpr ⟨hapart, h.apart ws'⟩
    · rw [partitions_add_of_ne hws]
      apply h.apart ws'
  case nodup =>
    intro ws'
    by_cases hws : ws' = ws
    · subst hws
      rw [partitions_add_self, List.map_cons, List.nodup_cons]
      use fun hmem => ?_, h.nodup ws'
      obtain ⟨p, hp, hid⟩ := List.mem_map.mp hmem
      apply (h.fresh ws' p hp).ne hid
    · rw [partitions_add_of_ne hws]
      apply h.nodup ws'
  case fresh =>
    intro ws'
    by_cases hws : ws' = ws
    · subst hws
      rw [partitions_add_self, List.forall_mem_cons]
      use Nat.lt_succ_self heap.nextId
      exact fun p hp => (h.fresh ws' p hp).trans (Nat.lt_succ_self _)
    · rw [partitions_add_of_ne hws]
      exact fun p hp => (h.fresh ws' p hp).trans (Nat.lt_succ_self _)
  case freshFreed => exact fun key hkey => (h.freshFreed key hkey).trans (Nat.lt_succ_self _)
  case notFreed =>
    intro ws'
    by_cases hws : ws' = ws
    · subst hws
      rw [partitions_add_self]
      apply List.forall_mem_cons.mpr ⟨_, h.notFreed ws'⟩
      exact fun hkey => (h.freshFreed _ hkey).ne rfl
    · rw [partitions_add_of_ne hws]
      apply h.notFreed ws'

/-- Nothing is freed when a partition is allocated. -/
theorem freed_alloc {answer : AllocAnswer} :
  (heap.alloc ws tag answer).freed = heap.freed
  := by
  rw [alloc]
  split <;> rfl

theorem partitions_sublist_alloc {answer : AllocAnswer} :
  (heap.partitions ws').Sublist ((heap.alloc ws tag answer).partitions ws')
  := by
  rw [alloc]
  split
  · apply List.Sublist.refl
  · apply partitions_sublist_add

theorem WellFormed.alloc (h : heap.WellFormed) {size : Nat} {answer : AllocAnswer}
    (hvalid : answer.gaddr ≠ 0 → answer.Valid size (heap.partitions ws)) :
  (heap.alloc ws tag answer).WellFormed
  := by
  rw [Heap.alloc]
  split
  case isTrue => exact h
  case isFalse hgaddr => exact h.add (hvalid hgaddr).apart

end Heap

end FdWksp

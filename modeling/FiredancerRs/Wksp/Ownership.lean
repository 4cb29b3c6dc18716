import FiredancerRs.Lib.Runs
import FiredancerRs.Wksp.Workspace
import Mathlib.Data.List.Perm.Basic

/-!
# Who owns an allocation

Runs of the safe calls on any number of workspaces. An allocation is live until it is dropped or
freed. A live allocation should keep its partition, and be freed once, in its own workspace, when
it is consumed (`World.Sound`). But `free` frees in the workspace on which it is called, and
`free_gaddr`, `free_by_tag` and `reset` take partitions from live allocations. Where they do not
(`World.Careful`), every state is sound (`World.owned`).
-/

namespace FdWksp

/-- The library's table, the allocations that are live, and those that were dropped or freed. -/
structure World where
  heap : Heap
  live : List WorkspaceAllocation
  consumed : List WorkspaceAllocation

/-- A call on a workspace, or the drop of an allocation. The argument `i` says which live
allocation is meant. -/
inductive Call where
  | allocate (ws : Workspace) (size align tag : Nat) (answer : AllocAnswer)
  | allocateAtLeast (ws : Workspace) (size align tag : Nat) (answer : AllocAnswer)
  | free (ws : Workspace) (i : Nat)
  | freeGaddr (ws : Workspace) (gaddr : Nat)
  | freeByTag (ws : Workspace) (tags : List Nat)
  | reset (ws : Workspace)
  | drop (i : Nat)

namespace World

variable (w : World)

/-- The state in which no allocation is live. -/
def start (heap : Heap) : World where
  heap := heap
  live := []
  consumed := []

/-- Hold a new allocation. -/
def hold (a : WorkspaceAllocation) : World := { w with live := a :: w.live }

/-- Consume an allocation. -/
def consume (i : Nat) (a : WorkspaceAllocation) : World :=
  { w with live := w.live.eraseIdx i, consumed := a :: w.consumed }

/-- The effect of a call. A call on an allocation that there is not has none. -/
def step : Call → World
  | .allocate ws size align tag answer =>
    match FdWksp.allocate ws size align tag answer w.heap with
    | (.ok a, heap) => hold { w with heap := heap } a
    | (.error _, heap) => { w with heap := heap }
  | .allocateAtLeast ws size align tag answer =>
    match FdWksp.allocateAtLeast ws size align tag answer w.heap with
    | (.ok (a, _, _), heap) => hold { w with heap := heap } a
    | (.error _, heap) => { w with heap := heap }
  | .free ws i =>
    match w.live[i]? with
    | some a => consume { w with heap := FdWksp.free ws a w.heap } i a
    | none => w
  | .freeGaddr ws gaddr => { w with heap := FdWksp.freeGaddr ws gaddr w.heap }
  | .freeByTag ws tags => { w with heap := FdWksp.freeByTag ws tags w.heap }
  | .reset ws => { w with heap := FdWksp.reset ws w.heap }
  | .drop i =>
    match w.live[i]? with
    | some a => consume { w with heap := a.drop w.heap } i a
    | none => w

/-- The effect of a run of calls. -/
abbrev run : List Call → World → World := Runs.run step

/-- Every call of a run meets a condition in the state in which it is made. -/
abbrev Along : (World → Call → Prop) → List Call → World → Prop := Runs.Along step

/-- What the library answers is valid. -/
def Answered : Call → Prop
  | .allocate ws size _ _ answer | .allocateAtLeast ws size _ _ answer =>
    answer.gaddr ≠ 0 → answer.Valid size (w.heap.partitions ws)
  | .free .. | .freeGaddr .. | .freeByTag .. | .reset .. | .drop .. => True

/-- The partition is that of a live allocation. -/
def Owned (ws : Workspace) (p : Partition) : Prop := ∃ a ∈ w.live, a.key = (ws, p.id)

/-- A call takes no partition from a live allocation: an allocation is freed in its own workspace,
an address that is freed lies in the partition of no live allocation, a tag that is freed is that of
none, and a workspace that is reset has none. -/
def Careful : Call → Prop
  | .free ws i => ∀ a, w.live[i]? = some a → a.workspace = ws
  | .freeGaddr ws gaddr =>
    ∀ p ∈ w.heap.partitions ws, w.Owned ws p → p.contains gaddr = false
  | .freeByTag ws tags => ∀ p ∈ w.heap.partitions ws, w.Owned ws p → p.tag ∉ tags
  | .reset ws => ∀ a ∈ w.live, a.workspace ≠ ws
  | .allocate .. | .allocateAtLeast .. | .drop .. => True

/-- The partition of an allocation, which contains its range. -/
structure Holds (p : Partition) (a : WorkspaceAllocation) : Prop where
  id : p.id = a.id
  range : a.range ⊆ p.range

/-- Each live allocation has its partition in its workspace and has not been freed, the ranges of
two in one workspace are disjoint, and each that was consumed has been freed once, in its
workspace. -/
structure Sound : Prop where
  allocated : ∀ a ∈ w.live, ∃ p ∈ w.heap.partitions a.workspace, Holds p a
  apart : w.live.Pairwise fun a b => a.workspace = b.workspace → Disjoint a.range b.range
  unfreed : ∀ a ∈ w.live, w.heap.freed.count a.key = 0
  freedOnce : ∀ a ∈ w.consumed, w.heap.freed.count a.key = 1

/-! ### The invariant -/

/-- What holds after every run of careful calls. -/
structure Inv : Prop where
  heap : w.heap.WellFormed
  held : ∀ a ∈ w.live, ∃ p ∈ w.heap.partitions a.workspace, Holds p a
  nonempty : ∀ a ∈ w.live, 0 < a.size
  nodup : (w.live.map (·.key)).Nodup
  freedOnce : ∀ a ∈ w.consumed, w.heap.freed.count a.key = 1

variable {w} {ws : Workspace} {a : WorkspaceAllocation} {p q : Partition}

theorem Inv.start {heap : Heap} (h : heap.WellFormed) :
  (World.start heap).Inv
  := by
  constructor
  case heap => exact h
  case held | nonempty | freedOnce => simp [World.start]
  case nodup => exact List.nodup_nil

/-- The live allocations have different partitions, and these are disjoint. -/
theorem Inv.sound (h : w.Inv) :
  w.Sound
  := by
  constructor
  case allocated => exact h.held
  case apart =>
    have hkeys := List.pairwise_map.mp h.nodup
    apply hkeys.imp_of_mem
    intro a b ha hb hne hws
    obtain ⟨p, hp, hpa⟩ := h.held a ha
    obtain ⟨q, hq, hqb⟩ := h.held b hb
    rw [← hws] at hq
    have hpq : p ≠ q := by
      rintro rfl
      apply hne
      rw [WorkspaceAllocation.key, WorkspaceAllocation.key, hws, ← hpa.id, ← hqb.id]
    apply (h.heap.disjoint hp hq hpq).mono hpa.range hqb.range
  case unfreed =>
    intro a ha
    obtain ⟨p, hp, hpa⟩ := h.held a ha
    apply List.count_eq_zero_of_not_mem
    rw [WorkspaceAllocation.key, ← hpa.id]
    apply h.heap.notFreed _ p hp
  case freedOnce => exact h.freedOnce

/-- Partitions that belong to no live allocation may be freed. -/
theorem Inv.freeWhere (h : w.Inv) {cond : Partition → Bool}
    (hcond : ∀ p ∈ w.heap.partitions ws, w.Owned ws p → cond p = false) :
  Inv { w with heap := w.heap.freeWhere ws cond }
  := by
  constructor
  case heap => exact h.heap.freeWhere
  case held =>
    intro a ha
    obtain ⟨p, hp, hpa⟩ := h.held a ha
    use p
    rw [Heap.mem_freeWhere]
    use ⟨hp, ?_⟩
    intro hws
    subst hws
    apply hcond p hp
    use a, ha
    rw [WorkspaceAllocation.key, hpa.id]
  case nonempty => exact h.nonempty
  case nodup => exact h.nodup
  case freedOnce =>
    intro a ha
    have hmem : a.key ∈ w.heap.freed := by
      apply List.count_pos_iff.mp
      rw [h.freedOnce a ha]
      apply Nat.one_pos
    rw [h.heap.count_freeWhere_of_mem hmem]
    apply h.freedOnce a ha

/-- Fewer allocations may be live. -/
theorem Inv.forget (h : w.Inv) {live : List WorkspaceAllocation} (hlive : live.Sublist w.live) :
  Inv { w with live := live }
  := by
  constructor
  case heap => exact h.heap
  case held => exact fun a ha => h.held a (hlive.subset ha)
  case nonempty => exact fun a ha => h.nonempty a (hlive.subset ha)
  case nodup => exact h.nodup.sublist (hlive.map _)
  case freedOnce => exact h.freedOnce

/-- The first address of an allocation lies in its partition. -/
theorem Holds.contains (h : Holds p a) (ha : 0 < a.size) :
  p.contains a.gaddr = true
  := by
  rw [← Partition.mem_range]
  apply h.range
  simp [WorkspaceAllocation.range, ha]

/-- The allocation that is consumed is freed, and no other. -/
theorem Inv.consume (h : w.Inv) {i : Nat} (hi : w.live[i]? = some a) :
  Inv (World.consume { w with heap := w.heap.free a.workspace a.gaddr } i a)
  := by
  have ha := List.mem_of_getElem? hi
  obtain ⟨p, hp, hpa⟩ := h.held a ha
  have hcontains := hpa.contains (h.nonempty a ha)
  have hforget := h.forget (List.eraseIdx_sublist w.live i)
  have hkey : a.key ∉ (w.live.eraseIdx i).map (·.key) := by
    obtain ⟨hlt, rfl⟩ := List.getElem?_eq_some_iff.mp hi
    have hperm := (List.getElem_cons_eraseIdx_perm hlt).map (·.key)
    apply (List.nodup_cons.mp (hperm.nodup_iff.mpr h.nodup)).1
  have hother : ∀ q ∈ w.heap.partitions a.workspace,
      Owned { w with live := w.live.eraseIdx i } a.workspace q → q.contains a.gaddr = false := by
    rintro q hq ⟨b, hb, hbq⟩
    have hqp : q ≠ p := by
      rintro rfl
      apply hkey
      rw [WorkspaceAllocation.key, ← hpa.id, ← hbq]
      apply List.mem_map_of_mem hb
    rw [Bool.eq_false_iff, ne_eq, ← Partition.mem_range]
    intro hmem
    apply Set.disjoint_left.mp (h.heap.disjoint hq hp hqp) hmem (Partition.mem_range.mpr hcontains)
  have hfree := hforget.freeWhere hother
  constructor
  case heap => exact hfree.heap
  case held => exact hfree.held
  case nonempty => exact hfree.nonempty
  case nodup => exact hfree.nodup
  case freedOnce =>
    apply List.forall_mem_cons.mpr ⟨_, hfree.freedOnce⟩
    rw [WorkspaceAllocation.key, ← hpa.id]
    apply h.heap.count_freeWhere hp hcontains

/-- A partition may be allocated. -/
theorem Inv.alloc (h : w.Inv) {size tag : Nat} {answer : AllocAnswer}
    (hvalid : answer.gaddr ≠ 0 → answer.Valid size (w.heap.partitions ws)) :
  Inv { w with heap := w.heap.alloc ws tag answer }
  := by
  constructor
  case heap => exact h.heap.alloc hvalid
  case held =>
    intro a ha
    obtain ⟨p, hp, hpa⟩ := h.held a ha
    exact ⟨p, Heap.partitions_sublist_alloc.subset hp, hpa⟩
  case nonempty => exact h.nonempty
  case nodup => exact h.nodup
  case freedOnce =>
    intro a ha
    rw [Heap.freed_alloc]
    apply h.freedOnce a ha

/-- A new allocation has the new partition. -/
theorem Inv.hold (h : w.Inv) {size tag : Nat} {answer : AllocAnswer} (hsize : 0 < size)
    (hgaddr : answer.gaddr ≠ 0) (hvalid : answer.Valid size (w.heap.partitions ws))
    (ha : WorkspaceAllocation.new ws size answer w.heap.nextId = .ok a) :
  Inv (World.hold { w with heap := w.heap.alloc ws tag answer } a)
  := by
  have halloc : Inv { w with heap := w.heap.alloc ws tag answer } := h.alloc fun _ => hvalid
  have ha := WorkspaceAllocation.new_ok ha
  subst ha
  constructor
  case heap => exact halloc.heap
  case held =>
    apply List.forall_mem_cons.mpr ⟨_, halloc.held⟩
    use { lo := answer.lo, hi := answer.hi, tag := tag, id := w.heap.nextId }
    simp only [Heap.alloc, if_neg hgaddr]
    rw [Heap.partitions_add_self]
    use List.mem_cons_self, rfl
    apply Set.Ico_subset_Ico hvalid.lo_le hvalid.le_hi
  case nonempty => exact List.forall_mem_cons.mpr ⟨hsize, halloc.nonempty⟩
  case nodup =>
    apply List.nodup_cons.mpr ⟨_, halloc.nodup⟩
    intro hmem
    obtain ⟨b, hb, hkey⟩ := List.mem_map.mp hmem
    obtain ⟨p, hp, hpb⟩ := h.held b hb
    have hid : b.id = w.heap.nextId := (Prod.mk.inj hkey).2
    apply (h.heap.fresh _ p hp).ne (hpb.id.trans hid)
  case freedOnce => exact halloc.freedOnce

/-- A call that allocates. -/
theorem Inv.allocate (h : w.Inv) {size align tag : Nat} {answer : AllocAnswer}
    (hvalid : answer.gaddr ≠ 0 → answer.Valid size (w.heap.partitions ws)) :
  Inv (w.step (.allocate ws size align tag answer))
  := by
  rw [step]
  split
  case h_1 a heap halloc =>
    obtain ⟨hsize, hgaddr, ha, rfl⟩ := allocate_ok halloc
    apply h.hold hsize hgaddr (hvalid hgaddr) ha
  case h_2 e heap halloc =>
    rcases allocate_error halloc with rfl | rfl
    · apply h
    · apply h.alloc hvalid

theorem step_allocateAtLeast {size align tag : Nat} {answer : AllocAnswer} :
  w.step (.allocateAtLeast ws size align tag answer)
    = w.step (.allocate ws size align tag answer)
  := by
  rw [step, step, allocateAtLeast_eq]
  rcases FdWksp.allocate ws size align tag answer w.heap with ⟨_ | _, _⟩ <;> rfl

/-- What one careful call keeps. -/
theorem Inv.step (h : w.Inv) {call : Call} (hanswered : w.Answered call)
    (hcareful : w.Careful call) :
  (w.step call).Inv
  := by
  cases call with
  | allocate ws size align tag answer => exact h.allocate hanswered
  | allocateAtLeast ws size align tag answer =>
    rw [step_allocateAtLeast]
    apply h.allocate hanswered
  | free ws i =>
    rw [World.step]
    split
    case h_1 a hi =>
      have hws := hcareful a hi
      subst hws
      apply h.consume hi
    case h_2 => exact h
  | drop i =>
    rw [World.step]
    split
    case h_1 a hi => exact h.consume hi
    case h_2 => exact h
  | freeGaddr ws gaddr => exact h.freeWhere hcareful
  | freeByTag ws tags =>
    rw [World.step, FdWksp.freeByTag]
    split
    · apply h
    · apply h.freeWhere
      intro p hp howned
      simpa using hcareful p hp howned
  | reset ws =>
    apply h.freeWhere
    rintro p - ⟨a, ha, hkey⟩
    exact absurd (Prod.mk.inj hkey).1 (hcareful a ha)

/-- Every run of careful calls is sound. -/
theorem owned {heap : Heap} {calls : List Call} (hheap : heap.WellFormed)
    (hanswered : Along Answered calls (start heap)) (hcareful : Along Careful calls (start heap)) :
  (run calls (start heap)).Sound
  := by
  have hinv := (hanswered.and hcareful).keeps
    (fun w call h hcall => Inv.step h hcall.1 hcall.2) (Inv.start hheap)
  apply hinv.sound

theorem owned_two :
  (run [.allocate 0 32 0 1 ⟨64, 64, 128, 4096⟩, .allocate 1 32 0 1 ⟨64, 64, 128, 8192⟩,
    .freeByTag 0 [2], .free 1 0, .drop 0] (start .empty)).Sound
  := by
  apply owned .empty
  · exact ⟨fun _ => ⟨by decide, by decide, List.forall_mem_nil _⟩,
      fun _ => ⟨by decide, by decide, List.forall_mem_nil _⟩, trivial, trivial, trivial, trivial⟩
  · refine ⟨trivial, trivial, ?_, ?_, trivial, trivial⟩
    · intro p hp _
      rw [List.mem_singleton.mp hp]
      decide
    · intro a ha
      rw [← Option.some.inj ha]

/-- Two workspaces use the same addresses, and an allocation of one that is freed through the other
takes the partition of a live allocation there. So does a tag that is freed. -/
theorem not_owned :
  (Along Answered [.allocate 1 32 0 1 ⟨64, 64, 128, 4096⟩, .allocate 0 32 0 1 ⟨64, 64, 128, 8192⟩,
        .free 1 0] (start .empty)
      ∧ ¬(run [.allocate 1 32 0 1 ⟨64, 64, 128, 4096⟩, .allocate 0 32 0 1 ⟨64, 64, 128, 8192⟩,
        .free 1 0] (start .empty)).Sound)
    ∧ Along Answered [.allocate 0 32 0 1 ⟨64, 64, 128, 4096⟩, .freeByTag 0 [1]] (start .empty)
    ∧ ¬(run [.allocate 0 32 0 1 ⟨64, 64, 128, 4096⟩, .freeByTag 0 [1]] (start .empty)).Sound
  := by
  refine ⟨⟨⟨fun _ => ⟨by decide, by decide, List.forall_mem_nil _⟩,
    fun _ => ⟨by decide, by decide, List.forall_mem_nil _⟩, trivial, trivial⟩, fun h => ?_⟩,
    ⟨fun _ => ⟨by decide, by decide, List.forall_mem_nil _⟩, trivial, trivial⟩, fun h => ?_⟩
  · obtain ⟨p, hp, -⟩ := h.allocated _ List.mem_cons_self
    apply List.not_mem_nil hp
  · obtain ⟨p, hp, -⟩ := h.allocated _ List.mem_cons_self
    apply List.not_mem_nil hp

end World

end FdWksp

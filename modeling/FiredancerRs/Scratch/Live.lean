import FiredancerRs.Scratch.Allocator
import Mathlib.Data.List.Pairwise
import Mathlib.Data.List.Perm.Basic
import Mathlib.Data.Set.Lattice
import Mathlib.Logic.Relation
import Mathlib.Order.CompletePartialOrder
import Mathlib.Order.Interval.Set.Basic

/-!
# Live allocations of `fd_scratch`

Runs of the safe calls on one allocator. Each frame of a run has an identity, which its guard
and the values made in it keep. A value is live while it has not been dropped or consumed and
the guard of its frame has not been dropped. The allocator is sound when the ranges of the
live values are disjoint and used (`Sound`). The calls do not check what this needs: a
guard pops whichever frame is innermost, a trim or a publish moves the one free pointer whatever
lies above, and a prepared range is not reserved. `InOrder` is the order of calls in which this
does no harm. When all calls that take effect are in order, the allocator is sound as long as no
prepared range has bytes (`sound_iff`).
-/

namespace FdScratch

variable {σ : Type}

/-- A value with the frame in which it was made. -/
structure Held (α : Type) where
  value : α
  frame : Option Nat
deriving DecidableEq

/-- A range of addresses. -/
structure Block where
  ptr : Nat
  size : Nat
deriving DecidableEq

/-- The end of a range. -/
def Block.stop (b : Block) : Nat := b.ptr + b.size

/-- The addresses of a range. -/
def Block.bytes (b : Block) : Set Nat := Set.Ico b.ptr b.stop

/-- The range of `ScratchAllocation::as_mut_slice`. -/
def ScratchAllocation.block (a : ScratchAllocation) : Block := ⟨a.ptr, a.size⟩

/-- The range of `DynamicAllocation::as_mut_slice`. -/
def DynamicAllocation.block (d : DynamicAllocation) : Block := ⟨d.startPtr, d.maxAvailable⟩

/-- The state of the library, the frames that it has, the guards that are not dropped, and the
values that are not dropped or consumed. -/
structure World (σ : Type) where
  scratch : σ
  stack : List Nat
  guards : List Nat
  nextFrame : Nat
  allocs : List (Held ScratchAllocation)
  dynamics : List (Held DynamicAllocation)

/-- A safe call, or the drop of a value. The arguments `i` and `id` say which value is meant. -/
inductive Call where
  | pushFrame
  | popFrame
  | dropGuard (id : Nat)
  | allocate (size alignment : Nat)
  | prepareAlloc (alignment : Nat)
  | publish (i finalSize : Nat)
  | cancel (i : Nat)
  | trim (i newSize : Nat)
  | dropAllocation (i : Nat)
  | dropDynamic (i : Nat)

namespace World

variable (sys : ScratchSys σ) (w : World σ)

/-- The state in which nothing has been allocated. -/
def start (s : σ) : World σ where
  scratch := s
  stack := []
  guards := []
  nextFrame := 0
  allocs := []
  dynamics := []

/-- The guards that are left when a guard is dropped. -/
def guardsWithout (id : Nat) : List Nat := w.guards.filter (· ≠ id)

/-- Hold an allocation made in the innermost frame. -/
def holdAlloc (a : ScratchAllocation) : World σ :=
  { w with allocs := { value := a, frame := w.stack.head? } :: w.allocs }

/-- Hold a dynamic allocation made in the innermost frame. -/
def holdDynamic (d : DynamicAllocation) : World σ :=
  { w with dynamics := { value := d, frame := w.stack.head? } :: w.dynamics }

/-- The effect of a call. A call on a value that there is not has none. -/
def step : Call → World σ
  | .pushFrame =>
    match pushFrame sys w.scratch with
    | (.ok (), s) =>
      { w with
        scratch := s
        stack := w.nextFrame :: w.stack
        guards := w.nextFrame :: w.guards
        nextFrame := w.nextFrame + 1 }
    | (.error _, s) => { w with scratch := s }
  | .popFrame =>
    match popFrame sys w.scratch with
    | (.ok (), s) => { w with scratch := s, stack := w.stack.tail }
    | (.error _, s) => { w with scratch := s }
  | .dropGuard id =>
    if id ∈ w.guards then
      { w with
        scratch := ScratchFrame.drop sys w.scratch
        stack := if sys.popIsSafe w.scratch then w.stack.tail else w.stack
        guards := w.guardsWithout id }
    else
      w
  | .allocate size alignment =>
    match allocate sys w.scratch size alignment with
    | (.ok a, s) => holdAlloc { w with scratch := s } a
    | (.error _, s) => { w with scratch := s }
  | .prepareAlloc alignment =>
    match prepareAlloc sys w.scratch alignment with
    | (.ok d, s) => holdDynamic { w with scratch := s } d
    | (.error _, s) => { w with scratch := s }
  | .publish i finalSize =>
    match w.dynamics[i]? with
    | some d =>
      let w' := { w with dynamics := w.dynamics.eraseIdx i }
      match d.value.publish sys w.scratch finalSize with
      | (.ok a, s) => holdAlloc { w' with scratch := s } a
      | (.error _, s) => { w' with scratch := s }
    | none => w
  | .cancel i =>
    match w.dynamics[i]? with
    | some d =>
      { w with
        scratch := d.value.cancel sys w.scratch
        dynamics := w.dynamics.eraseIdx i }
    | none => w
  | .trim i newSize =>
    match w.allocs[i]? with
    | some a =>
      let (_, a', s) := a.value.trim sys w.scratch newSize
      { w with
        scratch := s
        allocs := w.allocs.set i { a with value := a' } }
    | none => w
  | .dropAllocation i => { w with allocs := w.allocs.eraseIdx i }
  | .dropDynamic i => { w with dynamics := w.dynamics.eraseIdx i }

/-- A value of the frame is live under the given guards. -/
def Tracked (guards : List Nat) (frame : Option Nat) : Prop := ∃ id ∈ guards, frame = some id

instance (guards : List Nat) (frame : Option Nat) : Decidable (Tracked guards frame) :=
  inferInstanceAs (Decidable (∃ id ∈ guards, frame = some id))

/-- The ranges of the live values. -/
def blocks : List Block :=
  (w.allocs.filter (Tracked w.guards ·.frame)).map (·.value.block)
    ++ (w.dynamics.filter (Tracked w.guards ·.frame)).map (·.value.block)

/-- The addresses that the scratch counts as used. -/
def used : Set Nat := Set.Ico sys.start (sys.free w.scratch)

/-- The ranges of the live values are disjoint and used. -/
structure Sound : Prop where
  disjoint : w.blocks.Pairwise fun b c => Disjoint b.bytes c.bytes
  used : ∀ b ∈ w.blocks, b.bytes ⊆ w.used sys

/-- A live allocation that has bytes. -/
def LiveAlloc (guards : List Nat) (a : Held ScratchAllocation) : Prop :=
  Tracked guards a.frame ∧ 0 < a.value.size

/-- A live dynamic allocation that has bytes. -/
def LiveDynamic (guards : List Nat) (d : Held DynamicAllocation) : Prop :=
  Tracked guards d.frame ∧ 0 < d.value.maxAvailable

/-- No live dynamic allocation has bytes. -/
def NothingPrepared : Prop := ∀ d ∈ w.dynamics, ¬ LiveDynamic w.guards d

/-- The innermost frame has no allocation that is live under the given guards. -/
def PopsNothing (guards : List Nat) : Prop :=
  ∀ a ∈ w.allocs, a.frame = w.stack.head? → ¬ LiveAlloc guards a

/-- The order that keeps live allocations apart. A frame is popped by its own guard or when
nothing of it is live, nothing is allocated or prepared while a prepared range is live, a range
is published below no live allocation, and no live allocation ends above the point to which
another is trimmed. -/
def InOrder : Call → Prop
  | .popFrame => w.PopsNothing w.guards
  | .dropGuard id => w.PopsNothing (w.guardsWithout id)
  | .allocate _ _ => w.NothingPrepared
  | .prepareAlloc _ => w.NothingPrepared
  | .publish i _ => ∀ d, w.dynamics[i]? = some d →
    (∀ d' ∈ w.dynamics.eraseIdx i, ¬ LiveDynamic w.guards d')
      ∧ ∀ a ∈ w.allocs, LiveAlloc w.guards a → a.value.block.stop ≤ d.value.startPtr
  | .trim i newSize => ∀ a, w.allocs[i]? = some a →
    ∀ b ∈ w.allocs.eraseIdx i, LiveAlloc w.guards b →
      b.value.block.stop ≤ a.value.ptr + newSize
  | .pushFrame | .cancel _ | .dropAllocation _ | .dropDynamic _ => True

/-- The call is not refused. What is refused leaves the library as it is. -/
def TakesEffect : Call → Prop
  | .popFrame => sys.popIsSafe w.scratch = true
  | .dropGuard id => id ∈ w.guards ∧ sys.popIsSafe w.scratch = true
  | .allocate size alignment =>
    size ≠ 0 ∧ alignment.isPowerOfTwo ∧ sys.allocIsSafe w.scratch alignment size = true
  | .prepareAlloc alignment =>
    alignment.isPowerOfTwo ∧ sys.prepareIsSafe w.scratch alignment = true
  | .publish i finalSize => ∃ d ∈ w.dynamics[i]?, finalSize ≤ d.value.maxAvailable
    ∧ sys.publishIsSafe w.scratch (d.value.startPtr + finalSize) = true
  | .trim i newSize => ∃ a ∈ w.allocs[i]?, newSize ≤ a.value.size
    ∧ sys.trimIsSafe w.scratch (a.value.ptr + newSize) = true
  | .pushFrame | .cancel _ | .dropAllocation _ | .dropDynamic _ => True

/-- A call that is in order if it takes effect. -/
def Step (w w' : World σ) : Prop :=
  ∃ call, (w.TakesEffect sys call → w.InOrder call) ∧ w' = w.step sys call

/-! ### The invariant -/

/-- The allocation ends below the free pointer that its frame has, or had when the next frame
was pushed. The frames come with their saved free pointers, the innermost first. -/
inductive Below (a : Held ScratchAllocation) : Nat → List (Nat × Nat) → Prop where
  | here {free id saved : Nat} {rest : List (Nat × Nat)} (hframe : a.frame = some id)
      (hstop : a.value.block.stop ≤ free) : Below a free ((id, saved) :: rest)
  | there {free id saved : Nat} {rest : List (Nat × Nat)} (h : Below a saved rest) :
      Below a free ((id, saved) :: rest)

/-- What holds after every run of calls in order. -/
structure Inv : Prop where
  frames : w.stack.length = (sys.frames w.scratch).length
  sorted : (sys.free w.scratch :: sys.frames w.scratch).Pairwise (· ≥ ·)
  start_le : ∀ p ∈ sys.free w.scratch :: sys.frames w.scratch, sys.start ≤ p
  freshStack : ∀ id ∈ w.stack, id < w.nextFrame
  freshAllocs : ∀ a ∈ w.allocs, ∀ id, a.frame = some id → id < w.nextFrame
  freshDynamics : ∀ d ∈ w.dynamics, ∀ id, d.frame = some id → id < w.nextFrame
  startAllocs : ∀ a ∈ w.allocs, sys.start ≤ a.value.ptr
  startDynamics : ∀ d ∈ w.dynamics, sys.start ≤ d.value.startPtr
  below : ∀ a ∈ w.allocs, LiveAlloc w.guards a →
    Below a (sys.free w.scratch) (w.stack.zip (sys.frames w.scratch))
  apart : w.allocs.Pairwise fun a b => LiveAlloc w.guards a → LiveAlloc w.guards b →
    Disjoint a.value.block.bytes b.value.block.bytes
  prepared : ∀ d ∈ w.dynamics, LiveDynamic w.guards d → sys.free w.scratch ≤ d.value.startPtr
  preparedOnce : w.dynamics.Pairwise fun d d' => LiveDynamic w.guards d →
    ¬ LiveDynamic w.guards d'

variable {sys w}

theorem Below.of_le {a : Held ScratchAllocation} {free free' : Nat} {frames : List (Nat × Nat)}
    (h : Below a free frames) (hle : a.value.block.stop ≤ free') :
  Below a free' frames
  := by
  cases h with
  | here hframe _ => apply Below.here hframe hle
  | there h => apply Below.there h

/-- An allocation that ends lower is below as well. -/
theorem Below.of_stop_le {a a' : Held ScratchAllocation} {free : Nat} {frames : List (Nat × Nat)}
    (h : Below a free frames) (hframe : a'.frame = a.frame)
    (hle : a'.value.block.stop ≤ a.value.block.stop) :
  Below a' free frames
  := by
  induction h with
  | here hframe' hstop => apply Below.here (hframe.trans hframe') (hle.trans hstop)
  | there _ ih => apply Below.there ih

theorem Below.stop_le {a : Held ScratchAllocation} {free : Nat} {stack saved : List Nat}
    (h : Below a free (stack.zip saved)) (hsorted : (free :: saved).Pairwise (· ≥ ·)) :
  a.value.block.stop ≤ free
  := by
  induction stack generalizing free saved with
  | nil => cases h
  | cons id stack ih =>
    cases saved with
    | nil => cases h
    | cons first saved =>
      cases h with
      | here _ hstop => apply hstop
      | there h =>
        have hle := ih h hsorted.tail
        apply hle.trans
        apply (List.pairwise_cons.mp hsorted).1 first List.mem_cons_self

namespace Inv

/-- Live allocations end below the free pointer. -/
theorem stop_le (h : w.Inv sys) {a : Held ScratchAllocation} (ha : a ∈ w.allocs)
    (hlive : LiveAlloc w.guards a) :
  a.value.block.stop ≤ sys.free w.scratch
  := (h.below a ha hlive).stop_le h.sorted

theorem start_le_free (h : w.Inv sys) :
  sys.start ≤ sys.free w.scratch
  := h.start_le _ List.mem_cons_self

/-- Moving the free pointer between the live allocations and the prepared ranges. -/
theorem of_scratch (h : w.Inv sys) {s : σ} (hframes : sys.frames s = sys.frames w.scratch)
    (hsaved : ∀ saved ∈ (sys.frames w.scratch).head?, saved ≤ sys.free s)
    (hstart : sys.start ≤ sys.free s)
    (hallocs : ∀ a ∈ w.allocs, LiveAlloc w.guards a → a.value.block.stop ≤ sys.free s)
    (hdynamics : ∀ d ∈ w.dynamics, LiveDynamic w.guards d →
      sys.free s ≤ d.value.startPtr) :
  Inv sys { w with scratch := s }
  := by
  have hsorted := List.pairwise_cons.mp h.sorted
  constructor
  case frames => rw [hframes, h.frames]
  case sorted =>
    rw [hframes]
    apply List.pairwise_cons.mpr ⟨_, hsorted.2⟩
    intro p hp
    cases hcase : sys.frames w.scratch with
    | nil =>
      rw [hcase] at hp
      contradiction
    | cons saved rest =>
      have hle : saved ≤ sys.free s := hsaved saved (by rw [hcase]; rfl)
      rw [hcase] at hp hsorted
      rcases List.mem_cons.mp hp with rfl | hp
      · apply hle
      · apply Nat.le_trans _ hle
        apply (List.pairwise_cons.mp hsorted.2).1 p hp
  case start_le =>
    rw [hframes]
    apply List.forall_mem_cons.mpr ⟨hstart, (List.forall_mem_cons.mp h.start_le).2⟩
  case freshStack => apply h.freshStack
  case freshAllocs => apply h.freshAllocs
  case freshDynamics => apply h.freshDynamics
  case startAllocs => apply h.startAllocs
  case startDynamics => apply h.startDynamics
  case below =>
    intro a ha hlive
    rw [hframes]
    apply (h.below a ha hlive).of_le (hallocs a ha hlive)
  case apart => apply h.apart
  case prepared => apply hdynamics
  case preparedOnce => apply h.preparedOnce

/-- Raising the free pointer while nothing is prepared. -/
theorem grow (h : w.Inv sys) {s : σ} (hframes : sys.frames s = sys.frames w.scratch)
    (hfree : sys.free w.scratch ≤ sys.free s) (hnothing : w.NothingPrepared) :
  Inv sys { w with scratch := s }
  := by
  apply h.of_scratch hframes
  · intro saved hsaved
    apply Nat.le_trans _ hfree
    apply (List.pairwise_cons.mp h.sorted).1 saved (List.mem_of_mem_head? hsaved)
  · apply h.start_le_free.trans hfree
  · exact fun a ha hlive => (h.stop_le ha hlive).trans hfree
  · exact fun d hd hlive => absurd hlive (hnothing d hd)

/-- Forgetting values and guards. -/
theorem of_sublist (h : w.Inv sys) {guards : List Nat} {allocs : List (Held ScratchAllocation)}
    {dynamics : List (Held DynamicAllocation)} (hguards : guards ⊆ w.guards)
    (hallocs : allocs.Sublist w.allocs) (hdynamics : dynamics.Sublist w.dynamics) :
  Inv sys { w with guards := guards, allocs := allocs, dynamics := dynamics }
  := by
  have htracked : ∀ {frame}, Tracked guards frame → Tracked w.guards frame := by
    rintro frame ⟨id, hid, hframe⟩
    use id, hguards hid
  constructor
  case frames => apply h.frames
  case sorted => apply h.sorted
  case start_le => apply h.start_le
  case freshStack => apply h.freshStack
  case freshAllocs => exact fun a ha => h.freshAllocs a (hallocs.subset ha)
  case freshDynamics => exact fun d hd => h.freshDynamics d (hdynamics.subset hd)
  case startAllocs => exact fun a ha => h.startAllocs a (hallocs.subset ha)
  case startDynamics => exact fun d hd => h.startDynamics d (hdynamics.subset hd)
  case below =>
    exact fun a ha hlive => h.below a (hallocs.subset ha) (hlive.imp_left htracked)
  case apart =>
    apply (h.apart.sublist hallocs).imp
    exact fun hab ha hb => hab (ha.imp_left htracked) (hb.imp_left htracked)
  case prepared =>
    exact fun d hd hlive => h.prepared d (hdynamics.subset hd) (hlive.imp_left htracked)
  case preparedOnce =>
    apply (h.preparedOnce.sublist hdynamics).imp
    exact fun hdd hd hd' => hdd (hd.imp_left htracked) (hd'.imp_left htracked)

/-- Holding an allocation that lies between the live ones and the free pointer. -/
theorem holdAlloc (h : w.Inv sys) {a : ScratchAllocation} (hstart : sys.start ≤ a.ptr)
    (hstop : a.block.stop ≤ sys.free w.scratch)
    (hbelow : ∀ b ∈ w.allocs, LiveAlloc w.guards b → b.value.block.stop ≤ a.ptr) :
  Inv sys (w.holdAlloc a)
  := by
  constructor
  case frames => apply h.frames
  case sorted => apply h.sorted
  case start_le => apply h.start_le
  case freshStack => apply h.freshStack
  case freshAllocs =>
    apply List.forall_mem_cons.mpr ⟨_, h.freshAllocs⟩
    intro id hid
    apply h.freshStack id (List.mem_of_mem_head? hid)
  case freshDynamics => apply h.freshDynamics
  case startAllocs => exact List.forall_mem_cons.mpr ⟨hstart, h.startAllocs⟩
  case startDynamics => apply h.startDynamics
  case below =>
    apply List.forall_mem_cons.mpr ⟨_, h.below⟩
    rintro ⟨⟨id, -, hid⟩, -⟩
    have hframes := h.frames
    cases hstack : w.stack with
    | nil =>
      rw [hstack] at hid
      contradiction
    | cons first stack =>
      cases hsaved : sys.frames w.scratch with
      | nil =>
        rw [hstack, hsaved] at hframes
        contradiction
      | cons saved rest =>
        rw [List.zip_cons_cons]
        apply Below.here _ hstop
        rw [List.head?_cons]
  case apart =>
    apply List.pairwise_cons.mpr ⟨_, h.apart⟩
    intro b hb _ hlive
    apply Set.disjoint_left.mpr
    intro p hp hp'
    have hle := hbelow b hb hlive
    have hlt := hp'.2.trans_le (hle.trans hp.1)
    apply Nat.lt_irrefl p hlt
  case prepared => apply h.prepared
  case preparedOnce => apply h.preparedOnce

/-- Holding a dynamic allocation that starts above the free pointer. -/
theorem holdDynamic (h : w.Inv sys) {d : DynamicAllocation} (hnothing : w.NothingPrepared)
    (hfree : sys.free w.scratch ≤ d.startPtr) :
  Inv sys (w.holdDynamic d)
  := by
  constructor
  case frames => apply h.frames
  case sorted => apply h.sorted
  case start_le => apply h.start_le
  case freshStack => apply h.freshStack
  case freshAllocs => apply h.freshAllocs
  case freshDynamics =>
    apply List.forall_mem_cons.mpr ⟨_, h.freshDynamics⟩
    intro id hid
    apply h.freshStack id (List.mem_of_mem_head? hid)
  case startAllocs => apply h.startAllocs
  case startDynamics =>
    exact List.forall_mem_cons.mpr ⟨h.start_le_free.trans hfree, h.startDynamics⟩
  case below => apply h.below
  case apart => apply h.apart
  case prepared =>
    apply List.forall_mem_cons.mpr ⟨fun _ => hfree, h.prepared⟩
  case preparedOnce =>
    apply List.pairwise_cons.mpr ⟨fun d' hd' _ => hnothing d' hd', h.preparedOnce⟩

/-- Shrinking an allocation at its end. -/
theorem shrink (h : w.Inv sys) {i : Nat} {a : Held ScratchAllocation} {newSize : Nat}
    (ha : w.allocs[i]? = some a) (hsize : newSize ≤ a.value.size) :
  Inv sys
    { w with
      allocs := w.allocs.set i { a with value := { a.value with size := newSize } } }
  := by
  set a' : Held ScratchAllocation := { a with value := { a.value with size := newSize } }
  obtain ⟨hi, rfl⟩ := List.getElem?_eq_some_iff.mp ha
  have hmem : w.allocs[i] ∈ w.allocs := List.getElem_mem hi
  have hset : (w.allocs.set i a').Perm (a' :: w.allocs.eraseIdx i) :=
    List.set_perm_cons_eraseIdx hi a'
  have herase : (w.allocs[i] :: w.allocs.eraseIdx i).Perm w.allocs :=
    List.getElem_cons_eraseIdx_perm hi
  have hlive : ∀ {guards}, LiveAlloc guards a' → LiveAlloc guards w.allocs[i] :=
    fun hlive => ⟨hlive.1, hlive.2.trans_le hsize⟩
  have hstop : a'.value.block.stop ≤ w.allocs[i].value.block.stop :=
    Nat.add_le_add_left hsize _
  -- What holds of the shrunk allocation and of all others holds of the new list.
  have hforall : ∀ {p : Held ScratchAllocation → Prop}, p a' → (∀ b ∈ w.allocs, p b) →
      ∀ b ∈ w.allocs.set i a', p b := by
    intro p hp hall b hb
    rcases List.mem_or_eq_of_mem_set hb with hb | rfl
    · apply hall b hb
    · apply hp
  constructor
  case frames => apply h.frames
  case sorted => apply h.sorted
  case start_le => apply h.start_le
  case freshStack => apply h.freshStack
  case freshAllocs => exact hforall (h.freshAllocs w.allocs[i] hmem) h.freshAllocs
  case freshDynamics => apply h.freshDynamics
  case startAllocs => exact hforall (h.startAllocs w.allocs[i] hmem) h.startAllocs
  case startDynamics => apply h.startDynamics
  case below =>
    apply hforall _ h.below
    exact fun hlive' => (h.below _ hmem (hlive hlive')).of_stop_le rfl hstop
  case apart =>
    have hsymm : ∀ {b c : Held ScratchAllocation},
        (LiveAlloc w.guards b → LiveAlloc w.guards c →
          Disjoint b.value.block.bytes c.value.block.bytes) →
        LiveAlloc w.guards c → LiveAlloc w.guards b →
          Disjoint c.value.block.bytes b.value.block.bytes :=
      fun hbc hc hb => (hbc hb hc).symm
    have hapart := List.pairwise_cons.mp ((herase.pairwise_iff hsymm).mpr h.apart)
    apply (hset.pairwise_iff hsymm).mpr
    apply List.pairwise_cons.mpr ⟨_, hapart.2⟩
    intro b hb hlive' hb'
    apply (hapart.1 b hb (hlive hlive') hb').mono_left
    apply Set.Ico_subset_Ico_right hstop
  case prepared => apply h.prepared
  case preparedOnce => apply h.preparedOnce

/-- Pushing a frame with a guard that is new. -/
theorem push (h : w.Inv sys) (hsys : sys.Documented) :
  Inv sys
    { w with
      scratch := sys.push w.scratch
      stack := w.nextFrame :: w.stack
      guards := w.nextFrame :: w.guards
      nextFrame := w.nextFrame + 1 }
  := by
  obtain ⟨hfree, hframes⟩ := hsys.push w.scratch
  have htracked : ∀ {frame}, (∀ id, frame = some id → id < w.nextFrame) →
      Tracked (w.nextFrame :: w.guards) frame → Tracked w.guards frame := by
    rintro frame hfresh ⟨id, hid, hframe⟩
    have hlt := hfresh id hframe
    use id, (List.mem_cons.mp hid).resolve_left (Nat.ne_of_lt hlt)
  have hfresh : ∀ {frame : Option Nat}, (∀ id, frame = some id → id < w.nextFrame) →
      ∀ id, frame = some id → id < w.nextFrame + 1 :=
    fun h id hid => Nat.lt_succ_of_lt (h id hid)
  constructor
  case frames => rw [hframes, List.length_cons, List.length_cons, h.frames]
  case sorted =>
    rw [hfree, hframes]
    apply List.pairwise_cons.mpr ⟨_, h.sorted⟩
    exact List.forall_mem_cons.mpr ⟨Nat.le_refl _, (List.pairwise_cons.mp h.sorted).1⟩
  case start_le =>
    rw [hfree, hframes]
    apply List.forall_mem_cons.mpr ⟨h.start_le_free, h.start_le⟩
  case freshStack =>
    exact List.forall_mem_cons.mpr
      ⟨Nat.lt_succ_self _, fun id hid => Nat.lt_succ_of_lt (h.freshStack id hid)⟩
  case freshAllocs => exact fun a ha => hfresh (h.freshAllocs a ha)
  case freshDynamics => exact fun d hd => hfresh (h.freshDynamics d hd)
  case startAllocs => apply h.startAllocs
  case startDynamics => apply h.startDynamics
  case below =>
    intro a ha hlive
    rw [hframes, List.zip_cons_cons]
    apply Below.there (h.below a ha (hlive.imp_left (htracked (h.freshAllocs a ha))))
  case apart =>
    apply h.apart.imp_of_mem
    exact fun ha hb hab halive hblive =>
      hab (halive.imp_left (htracked (h.freshAllocs _ ha)))
        (hblive.imp_left (htracked (h.freshAllocs _ hb)))
  case prepared =>
    intro d hd hlive
    rw [hfree]
    apply h.prepared d hd (hlive.imp_left (htracked (h.freshDynamics d hd)))
  case preparedOnce =>
    apply h.preparedOnce.imp_of_mem
    exact fun hd hd' hdd hlive hlive' =>
      hdd (hlive.imp_left (htracked (h.freshDynamics _ hd)))
        (hlive'.imp_left (htracked (h.freshDynamics _ hd')))

/-- Popping a frame of which nothing is live. -/
theorem pop (h : w.Inv sys) (hsys : sys.Documented) (hsafe : sys.popIsSafe w.scratch)
    (hpops : w.PopsNothing w.guards) :
  Inv sys { w with scratch := sys.pop w.scratch, stack := w.stack.tail }
  := by
  have hpop := hsys.pop hsafe
  have hframes := h.frames
  have hsorted := h.sorted
  rw [hpop] at hframes hsorted
  cases hstack : w.stack with
  | nil =>
    rw [hstack] at hframes
    contradiction
  | cons id stack =>
    rw [hstack, List.length_cons, List.length_cons, Nat.add_right_cancel_iff] at hframes
    constructor
    case frames => apply hframes
    case sorted => apply hsorted.tail
    case start_le =>
      have hstart := h.start_le
      rw [hpop] at hstart
      apply (List.forall_mem_cons.mp hstart).2
    case freshStack =>
      have hfresh := h.freshStack
      rw [hstack] at hfresh
      apply (List.forall_mem_cons.mp hfresh).2
    case freshAllocs => apply h.freshAllocs
    case freshDynamics => apply h.freshDynamics
    case startAllocs => apply h.startAllocs
    case startDynamics => apply h.startDynamics
    case below =>
      intro a ha hlive
      have hbelow := h.below a ha hlive
      rw [hpop, hstack, List.zip_cons_cons] at hbelow
      cases hbelow with
      | here hframe _ =>
        rw [PopsNothing, hstack] at hpops
        apply absurd hlive (hpops a ha hframe)
      | there hbelow => apply hbelow
    case apart => apply h.apart
    case prepared =>
      intro d hd hlive
      apply Nat.le_trans _ (h.prepared d hd hlive)
      apply (List.pairwise_cons.mp hsorted).1 _ List.mem_cons_self
    case preparedOnce => apply h.preparedOnce

/-- Forgetting a guard, and popping the frame if it is still there. -/
theorem dropGuard (h : w.Inv sys) (hsys : sys.Documented) (id : Nat)
    (horder : w.InOrder (.dropGuard id)) :
  Inv sys (w.step sys (.dropGuard id))
  := by
  rw [World.step]
  split
  case isFalse => apply h
  case isTrue =>
    have hforget : Inv sys { w with guards := w.guardsWithout id } :=
      h.of_sublist List.filter_sublist.subset (List.Sublist.refl _) (List.Sublist.refl _)
    rw [ScratchFrame.drop]
    split
    · apply hforget.pop hsys ‹_› horder
    · apply hforget

/-- A dynamic allocation is no longer held. -/
theorem forgetDynamic (h : w.Inv sys) (i : Nat) :
  Inv sys { w with dynamics := w.dynamics.eraseIdx i }
  := h.of_sublist (List.Subset.refl _) (List.Sublist.refl _) (List.eraseIdx_sublist ..)

theorem allocate (h : w.Inv sys) (hsys : sys.Documented) (size alignment : Nat)
    (horder : w.InOrder (.allocate size alignment)) :
  Inv sys (w.step sys (.allocate size alignment))
  := by
  obtain ⟨hframes, hfree, hok⟩ := allocate_spec hsys w.scratch size alignment
  have hgrow := h.grow hframes hfree horder
  simp only [World.step]
  split
  case h_1 a s heq =>
    rw [heq] at hok hgrow
    obtain ⟨hptr, hstop⟩ := hok a rfl
    apply hgrow.holdAlloc (h.start_le_free.trans hptr) (Nat.le_of_eq hstop)
    exact fun b hb hlive => (h.stop_le hb hlive).trans hptr
  case h_2 heq =>
    rw [heq] at hgrow
    apply hgrow

theorem prepareAlloc (h : w.Inv sys) (hsys : sys.Documented) (alignment : Nat)
    (horder : w.InOrder (.prepareAlloc alignment)) :
  Inv sys (w.step sys (.prepareAlloc alignment))
  := by
  obtain ⟨hframes, hfree, hok⟩ := prepareAlloc_spec hsys w.scratch alignment
  have hgrow := h.grow hframes hfree horder
  simp only [World.step]
  split
  case h_1 d s heq =>
    rw [heq] at hok hgrow
    apply hgrow.holdDynamic horder (hok d rfl)
  case h_2 heq =>
    rw [heq] at hgrow
    apply hgrow

/-- The dynamic allocation that is published becomes an allocation. -/
theorem publish (h : w.Inv sys) (hsys : sys.Documented) (i finalSize : Nat)
    (horder : w.InOrder (.publish i finalSize)) :
  Inv sys (w.step sys (.publish i finalSize))
  := by
  simp only [World.step]
  split
  case h_2 => apply h
  case h_1 d hd =>
    obtain ⟨hothers, hbelow⟩ := horder d hd
    obtain ⟨hframes, hfree, hok⟩ := publish_spec hsys w.scratch d.value finalSize
    have hgrow := (h.forgetDynamic i).grow hframes hfree hothers
    split
    case h_1 a s heq =>
      rw [heq] at hok hgrow
      obtain ⟨hptr, hstop⟩ := hok a rfl
      rw [← hptr] at hbelow
      apply hgrow.holdAlloc _ (Nat.le_of_eq hstop) hbelow
      rw [hptr]
      apply h.startDynamics d (List.mem_of_getElem? hd)
    case h_2 heq =>
      rw [heq] at hgrow
      apply hgrow

theorem cancel (h : w.Inv sys) (hsys : sys.Documented) (i : Nat) :
  Inv sys (w.step sys (.cancel i))
  := by
  simp only [World.step]
  split
  case h_2 => apply h
  case h_1 d hd =>
    obtain ⟨hfree, hframes⟩ := hsys.cancel w.scratch
    apply (h.forgetDynamic i).of_scratch hframes
    · intro saved hsaved
      rw [hfree]
      apply (List.pairwise_cons.mp h.sorted).1 saved (List.mem_of_mem_head? hsaved)
    · rw [hfree]
      apply h.start_le_free
    · intro a ha hlive
      rw [hfree]
      apply h.stop_le ha hlive
    · intro d' hd' hlive
      rw [hfree]
      apply (h.forgetDynamic i).prepared d' hd' hlive

/-- The allocation that is trimmed becomes smaller, and what lies behind it is free. -/
theorem trim (h : w.Inv sys) (hsys : sys.Documented) (i newSize : Nat)
    (horder : w.InOrder (.trim i newSize)) :
  Inv sys (w.step sys (.trim i newSize))
  := by
  simp only [World.step]
  split
  case h_2 => apply h
  case h_1 a ha =>
    rcases trim_spec hsys w.scratch a.value newSize with
      ⟨e, heq⟩ | ⟨hsize, heq, hfree, hframes, hle, hsaved⟩
    · rw [heq]
      obtain ⟨hi, rfl⟩ := List.getElem?_eq_some_iff.mp ha
      change Inv sys { w with allocs := w.allocs.set i w.allocs[i] }
      rw [List.set_getElem_self]
      apply h
    · rw [heq]
      apply (h.shrink ha hsize).of_scratch hframes
      · intro saved hmem
        rw [hfree]
        apply hsaved saved hmem
      · rw [hfree]
        apply Nat.le_add_right_of_le (h.startAllocs a (List.mem_of_getElem? ha))
      · intro b hb hlive
        rw [hfree]
        obtain ⟨hi, -⟩ := List.getElem?_eq_some_iff.mp ha
        have hmem := (List.set_perm_cons_eraseIdx hi _).mem_iff.mp hb
        rcases List.mem_cons.mp hmem with rfl | hb
        · apply Nat.le_refl
        · apply horder a ha b hb hlive
      · intro d hd hlive
        rw [hfree]
        apply hle.trans (h.prepared d hd hlive)

/-- A call that is refused forgets no more than a guard or a value. -/
theorem refused (h : w.Inv sys) {call : Call} (hrefused : ¬ w.TakesEffect sys call) :
  Inv sys (w.step sys call)
  := by
  cases call with
  | popFrame =>
    rw [TakesEffect] at hrefused
    simp only [World.step, popFrame, if_neg hrefused]
    exact h
  | dropGuard id =>
    rw [World.step]
    split
    case isFalse => exact h
    case isTrue hid =>
      have hsafe : ¬ sys.popIsSafe w.scratch = true := fun hsafe => hrefused ⟨hid, hsafe⟩
      rw [ScratchFrame.drop, if_neg hsafe, if_neg hsafe]
      apply h.of_sublist List.filter_sublist.subset (List.Sublist.refl _) (List.Sublist.refl _)
  | allocate size alignment =>
    obtain ⟨e, heq⟩ := allocate_refused hrefused
    simp only [World.step, heq]
    exact h
  | prepareAlloc alignment =>
    obtain ⟨e, heq⟩ := prepareAlloc_refused hrefused
    simp only [World.step, heq]
    exact h
  | publish i finalSize =>
    simp only [World.step]
    split
    case h_2 => exact h
    case h_1 d hd =>
      obtain ⟨e, heq⟩ := publish_refused fun hsafe => hrefused ⟨d, hd, hsafe⟩
      simp only [heq]
      apply h.forgetDynamic i
  | trim i newSize =>
    simp only [World.step]
    split
    case h_2 => exact h
    case h_1 a ha =>
      obtain ⟨e, heq⟩ := trim_refused fun hsafe => hrefused ⟨a, ha, hsafe⟩
      obtain ⟨hi, rfl⟩ := List.getElem?_eq_some_iff.mp ha
      rw [heq]
      change Inv sys { w with allocs := w.allocs.set i w.allocs[i] }
      rw [List.set_getElem_self]
      exact h
  | pushFrame | cancel | dropAllocation | dropDynamic => exact absurd trivial hrefused

/-- A call in order keeps the invariant. -/
theorem step (h : w.Inv sys) (hsys : sys.Documented) {call : Call} (horder : w.InOrder call) :
  Inv sys (w.step sys call)
  := by
  cases call with
  | pushFrame =>
    simp only [World.step, pushFrame]
    split
    case h_1 heq =>
      split at heq <;> cases heq
      apply h.push hsys
    case h_2 heq =>
      split at heq <;> cases heq
      apply h
  | popFrame =>
    simp only [World.step, popFrame]
    split
    case h_1 heq =>
      split at heq <;> cases heq
      apply h.pop hsys ‹_› horder
    case h_2 heq =>
      split at heq <;> cases heq
      apply h
  | dropGuard id => apply h.dropGuard hsys id horder
  | allocate size alignment => apply h.allocate hsys size alignment horder
  | prepareAlloc alignment => apply h.prepareAlloc hsys alignment horder
  | publish i finalSize => apply h.publish hsys i finalSize horder
  | cancel i => apply h.cancel hsys i
  | trim i newSize => apply h.trim hsys i newSize horder
  | dropAllocation i =>
    apply h.of_sublist (List.Subset.refl _) (List.eraseIdx_sublist ..) (List.Sublist.refl _)
  | dropDynamic i => apply h.forgetDynamic i

end Inv

/-- The invariant of the state in which nothing has been allocated. -/
theorem inv_start {s : σ} (hfree : sys.free s = sys.start) (hframes : sys.frames s = []) :
  Inv sys (start s)
  := by
  constructor
  case frames => rw [start, hframes]
  case sorted =>
    rw [start, hframes]
    apply List.pairwise_singleton
  case start_le =>
    rw [start, hframes, hfree]
    apply List.forall_mem_singleton.mpr (Nat.le_refl _)
  all_goals simp [start]

/-- The invariant holds after every run of calls that are in order or refused. -/
theorem Inv.run (h : w.Inv sys) (hsys : sys.Documented) {w' : World σ}
    (hrun : Relation.ReflTransGen (Step sys) w w') :
  Inv sys w'
  := by
  induction hrun with
  | refl => apply h
  | @tail before _ _ hstep ih =>
    obtain ⟨call, horder, rfl⟩ := hstep
    by_cases heffect : before.TakesEffect sys call
    · apply ih.step hsys (horder heffect)
    · apply ih.refused heffect

/-! ### Soundness -/

theorem bytes_eq_empty {b : Block} (h : b.size = 0) :
  b.bytes = ∅
  := by
  rw [Block.bytes, Block.stop, h, Nat.add_zero, Set.Ico_self]

/-- The range of a live allocation without bytes is empty. -/
theorem bytes_eq_empty_of_not_live {guards : List Nat} {a : Held ScratchAllocation}
    (htracked : Tracked guards a.frame) (h : ¬ LiveAlloc guards a) :
  a.value.block.bytes = ∅
  := by
  apply bytes_eq_empty
  apply Nat.eq_zero_of_not_pos
  exact fun hpos => h ⟨htracked, hpos⟩

/-- A live dynamic allocation with bytes is not used. -/
theorem Inv.not_sound (h : w.Inv sys) {d : Held DynamicAllocation} (hd : d ∈ w.dynamics)
    (hlive : LiveDynamic w.guards d) :
  ¬ w.Sound sys
  := by
  intro hsound
  have hblock : d.value.block ∈ w.blocks := by
    apply List.mem_append_right
    apply List.mem_map_of_mem
    rw [List.mem_filter, decide_eq_true_iff]
    exact ⟨hd, hlive.1⟩
  have hmem : d.value.startPtr ∈ d.value.block.bytes := by
    use Nat.le_refl _
    apply Nat.lt_add_of_pos_right hlive.2
  have hlt := (hsound.used _ hblock hmem).2
  apply Nat.not_le_of_lt hlt (h.prepared d hd hlive)

/-- The ranges of the live allocations are disjoint and used. -/
theorem Inv.sound (h : w.Inv sys) (hnothing : w.NothingPrepared) :
  w.Sound sys
  := by
  have hdynamic : ∀ b ∈ (w.dynamics.filter (Tracked w.guards ·.frame)).map (·.value.block),
      b.bytes = ∅ := by
    intro b hb
    obtain ⟨d, hd, rfl⟩ := List.mem_map.mp hb
    rw [List.mem_filter, decide_eq_true_iff] at hd
    apply bytes_eq_empty
    apply Nat.eq_zero_of_not_pos
    exact fun hpos => hnothing d hd.1 ⟨hd.2, hpos⟩
  constructor
  · apply List.pairwise_append.mpr
    constructor
    · rw [List.pairwise_map, List.pairwise_filter]
      apply h.apart.imp
      intro a b hab ha hb
      rw [decide_eq_true_iff] at ha hb
      by_cases hlive : LiveAlloc w.guards a
      · by_cases hlive' : LiveAlloc w.guards b
        · apply hab hlive hlive'
        · rw [bytes_eq_empty_of_not_live hb hlive']
          apply Set.disjoint_empty
      · rw [bytes_eq_empty_of_not_live ha hlive]
        apply Set.empty_disjoint
    · constructor
      · apply List.pairwise_of_forall_mem_list
        intro b hb c _
        rw [hdynamic b hb]
        apply Set.empty_disjoint
      · intro b _ c hc
        rw [hdynamic c hc]
        apply Set.disjoint_empty
  · intro b hb
    rcases List.mem_append.mp hb with hb | hb
    · obtain ⟨a, ha, rfl⟩ := List.mem_map.mp hb
      rw [List.mem_filter, decide_eq_true_iff] at ha
      by_cases hlive : LiveAlloc w.guards a
      · apply Set.Ico_subset_Ico (h.startAllocs a ha.1) (h.stop_le ha.1 hlive)
      · rw [bytes_eq_empty_of_not_live ha.2 hlive]
        apply Set.empty_subset
    · rw [hdynamic b hb]
      apply Set.empty_subset

/-- After every run of which the calls that take effect are in order, the live ranges are disjoint and
used exactly when no prepared range with bytes is live. -/
theorem sound_iff (hsys : sys.Documented) {s : σ} (hfree : sys.free s = sys.start)
    (hframes : sys.frames s = []) (hrun : Relation.ReflTransGen (Step sys) (start s) w) :
  w.Sound sys ↔ w.NothingPrepared
  := by
  have hinv := (inv_start hfree hframes).run hsys hrun
  constructor
  · exact fun hsound d hd hlive => hinv.not_sound hd hlive hsound
  · apply hinv.sound

/-! ### A trim below another allocation -/

section Overlap

/-- A scratch pad: the free pointer and the saved free pointers. -/
structure Pad where
  free : Nat
  frames : List Nat

/-- The least multiple of the alignment that is not below an address. -/
def alignUp (address alignment : Nat) : Nat :=
  (address + (alignment - 1)) / alignment * alignment

theorem le_alignUp (address : Nat) {alignment : Nat} (h : 0 < alignment) :
  address ≤ alignUp address alignment
  := by
  have hdiv := Nat.div_add_mod' (address + (alignment - 1)) alignment
  have hmod := Nat.mod_lt (address + (alignment - 1)) h
  rw [alignUp]
  omega

/-- A library with a region of 8192 bytes and 16 frames. -/
def padSys : ScratchSys Pad where
  start := 4096
  free := Pad.free
  frames := Pad.frames
  pushIsSafe s := s.frames.length < 16
  push s := { s with frames := s.free :: s.frames }
  popIsSafe s := 0 < s.frames.length
  pop s := { free := s.frames.headD 0, frames := s.frames.tail }
  allocIsSafe s alignment size :=
    0 < s.frames.length ∧ 0 < alignment ∧ alignUp s.free alignment + size ≤ 12288
  alloc s alignment size :=
    (alignUp s.free alignment, { s with free := alignUp s.free alignment + size })
  prepareIsSafe s alignment :=
    0 < s.frames.length ∧ 0 < alignment ∧ alignUp s.free alignment ≤ 12288
  prepare s alignment :=
    (alignUp s.free alignment, { s with free := alignUp s.free alignment })
  publishIsSafe s stop := 0 < s.frames.length ∧ s.free ≤ stop ∧ stop ≤ 12288
  publish s stop := { s with free := stop }
  cancel s := s
  trimIsSafe s stop := 0 < s.frames.length ∧ s.frames.headD 0 ≤ stop ∧ stop ≤ s.free
  trim s stop := { s with free := stop }
  freeBytes s := 12288 - s.free

theorem padSys_documented :
  padSys.Documented
  := by
  constructor
  case push => exact fun s => ⟨rfl, rfl⟩
  case pop =>
    rintro ⟨free, _ | ⟨saved, rest⟩⟩ h
    · contradiction
    · rfl
  case alloc =>
    intro s alignment size h
    use le_alignUp _ (of_decide_eq_true h).2.1, rfl
    rfl
  case prepare =>
    intro s alignment h
    use le_alignUp _ (of_decide_eq_true h).2.1, Nat.le_refl _
    rfl
  case publish =>
    intro s stop h
    use (of_decide_eq_true h).2.1, rfl
    rfl
  case cancel => exact fun s => ⟨rfl, rfl⟩
  case trim =>
    rintro ⟨free, _ | ⟨saved, rest⟩⟩ stop h
    · simp [padSys] at h
    · obtain ⟨-, hsaved, hstop⟩ := of_decide_eq_true h
      use fun _ hmem => Option.some.inj hmem ▸ hsaved, hstop, rfl
      rfl

/-- An empty scratch pad. -/
def emptyPad : Pad := { free := 4096, frames := [] }

/-- Two allocations in one frame, a trim of the first, and a third allocation. -/
def trimFirst : List Call :=
  [.pushFrame, .allocate 64 16, .allocate 64 16, .trim 1 32, .allocate 64 16]

/-- After the trim of the first allocation the third overlaps the second. -/
theorem trimFirst_not_sound :
  ¬ Sound padSys (trimFirst.foldl (step padSys) (start emptyPad))
  := by
  intro h
  have hblocks : (trimFirst.foldl (step padSys) (start emptyPad)).blocks
      = [⟨4128, 64⟩, ⟨4160, 64⟩, ⟨4096, 32⟩] := by decide
  have hdisjoint := h.disjoint
  rw [hblocks] at hdisjoint
  have hapart := (List.pairwise_cons.mp hdisjoint).1 ⟨4160, 64⟩ (by decide)
  have hmem : 4160 ∈ Block.bytes ⟨4128, 64⟩ := ⟨by decide, by decide⟩
  apply Set.disjoint_left.mp hapart hmem
  constructor <;> decide

/-- Two allocations in one frame, of which the second is trimmed, with a trim of the first that is
refused, and a third allocation. -/
def trimLast : List Call :=
  [.pushFrame, .allocate 64 16, .allocate 64 16, .trim 1 96, .trim 0 32, .allocate 64 16]

theorem sound_iff_trimLast :
  (trimLast.foldl (step padSys) (start emptyPad)).blocks = [⟨4192, 64⟩, ⟨4160, 32⟩, ⟨4096, 64⟩]
    ∧ ((trimLast.foldl (step padSys) (start emptyPad)).Sound padSys
      ↔ (trimLast.foldl (step padSys) (start emptyPad)).NothingPrepared)
  := by
  use by decide
  apply sound_iff padSys_documented (s := emptyPad) rfl rfl
  have hallocate (w : World Pad) (hnone : w.dynamics = []) :
      Step padSys w (w.step padSys (.allocate 64 16)) := by
    refine ⟨.allocate 64 16, fun _ d hd => ?_, rfl⟩
    rw [hnone] at hd
    cases hd
  have hpush : Step padSys (start emptyPad) ((start emptyPad).step padSys .pushFrame) :=
    ⟨.pushFrame, fun _ => trivial, rfl⟩
  simp only [trimLast, List.foldl_cons, List.foldl_nil]
  refine .tail (.tail (.tail (.tail (.tail (.single hpush) (hallocate _ rfl)) (hallocate _ rfl))
    ⟨.trim 1 96, ?_, rfl⟩) ⟨.trim 0 32, fun _ => ?_, rfl⟩) (hallocate _ rfl)
  · rintro ⟨_, ⟨⟩, hsize, -⟩
    exact absurd hsize (by decide)
  · rintro _ ⟨⟩ b hb _
    obtain rfl := List.mem_singleton.mp hb
    decide

end Overlap

end World

end FdScratch

import Mathlib.Tactic.Common

/-!
# `fd_scratch`

The safe calls of `fd_scratch` over the C library that keeps the scratch pad. The library is
the parameter `ScratchSys`: its state is the free pointer of the attached region and the saved
free pointers of the frames. Addresses and sizes are natural numbers.
-/

namespace FdScratch

/-- `ScratchError` -/
inductive ScratchError where
  | allocationFailed
  | invalidAlignment
  | invalidSize
  | noFrame
  | tooManyFrames
  | noFramesToPop
  | insufficientSpace
  | invalidState
  | prepareMismatch
deriving DecidableEq, Repr

/-- The functions of the C library on a state `σ`, with the start of the attached region. -/
structure ScratchSys (σ : Type) where
  start : Nat
  free : σ → Nat
  frames : σ → List Nat
  pushIsSafe : σ → Bool
  push : σ → σ
  popIsSafe : σ → Bool
  pop : σ → σ
  allocIsSafe : σ → Nat → Nat → Bool
  alloc : σ → Nat → Nat → Nat × σ
  prepareIsSafe : σ → Nat → Bool
  prepare : σ → Nat → Nat × σ
  publishIsSafe : σ → Nat → Bool
  publish : σ → Nat → σ
  cancel : σ → σ
  trimIsSafe : σ → Nat → Bool
  trim : σ → Nat → σ
  freeBytes : σ → Nat

/-- What the library is documented to do. `alloc` bumps the free pointer and `prepare` returns
the aligned free pointer without reserving, `publish` and `trim` set the free pointer to the
given address, and `push` and `pop` save and restore it. -/
structure ScratchSys.Documented {σ : Type} (sys : ScratchSys σ) : Prop where
  push : ∀ s, sys.free (sys.push s) = sys.free s
    ∧ sys.frames (sys.push s) = sys.free s :: sys.frames s
  pop : ∀ {s}, sys.popIsSafe s →
    sys.frames s = sys.free (sys.pop s) :: sys.frames (sys.pop s)
  alloc : ∀ {s alignment size}, sys.allocIsSafe s alignment size →
    sys.free s ≤ (sys.alloc s alignment size).1
      ∧ sys.free (sys.alloc s alignment size).2 = (sys.alloc s alignment size).1 + size
      ∧ sys.frames (sys.alloc s alignment size).2 = sys.frames s
  prepare : ∀ {s alignment}, sys.prepareIsSafe s alignment →
    sys.free s ≤ sys.free (sys.prepare s alignment).2
      ∧ sys.free (sys.prepare s alignment).2 ≤ (sys.prepare s alignment).1
      ∧ sys.frames (sys.prepare s alignment).2 = sys.frames s
  publish : ∀ {s stop}, sys.publishIsSafe s stop →
    sys.free s ≤ stop ∧ sys.free (sys.publish s stop) = stop
      ∧ sys.frames (sys.publish s stop) = sys.frames s
  cancel : ∀ s, sys.free (sys.cancel s) = sys.free s
    ∧ sys.frames (sys.cancel s) = sys.frames s
  trim : ∀ {s stop}, sys.trimIsSafe s stop →
    (∀ saved ∈ (sys.frames s).head?, saved ≤ stop) ∧ stop ≤ sys.free s
      ∧ sys.free (sys.trim s stop) = stop ∧ sys.frames (sys.trim s stop) = sys.frames s

/-- `ScratchAllocation` -/
structure ScratchAllocation where
  ptr : Nat
  size : Nat
deriving DecidableEq, Repr

/-- `DynamicAllocation` -/
structure DynamicAllocation where
  startPtr : Nat
  currentSize : Nat
  maxAvailable : Nat
deriving DecidableEq, Repr

section Calls

variable {σ : Type} (sys : ScratchSys σ) (s : σ)

/-- `ScratchAllocator::push_frame`, without the guard that it returns. -/
def pushFrame : Except ScratchError Unit × σ :=
  if sys.pushIsSafe s then (.ok (), sys.push s) else (.error .tooManyFrames, s)

/-- `ScratchAllocator::pop_frame` -/
def popFrame : Except ScratchError Unit × σ :=
  if sys.popIsSafe s then (.ok (), sys.pop s) else (.error .noFramesToPop, s)

/-- `ScratchFrame::drop`. The guard does not say which frame is its own. -/
def ScratchFrame.drop : σ :=
  if sys.popIsSafe s then sys.pop s else s

/-- `ScratchAllocator::allocate` -/
def allocate (size alignment : Nat) : Except ScratchError ScratchAllocation × σ :=
  if size = 0 then
    (.error .invalidSize, s)
  else if ¬ alignment.isPowerOfTwo then
    (.error .invalidAlignment, s)
  else if sys.allocIsSafe s alignment size then
    let (ptr, s) := sys.alloc s alignment size
    if ptr = 0 then
      (.error .allocationFailed, s)
    else
      (.ok { ptr := ptr, size := size }, s)
  else
    (.error .insufficientSpace, s)

/-- `ScratchAllocator::prepare_alloc` -/
def prepareAlloc (alignment : Nat) : Except ScratchError DynamicAllocation × σ :=
  if ¬ alignment.isPowerOfTwo then
    (.error .invalidAlignment, s)
  else if sys.prepareIsSafe s alignment then
    let (ptr, s) := sys.prepare s alignment
    if ptr = 0 then
      (.error .allocationFailed, s)
    else
      (.ok { startPtr := ptr, currentSize := 0, maxAvailable := sys.freeBytes s }, s)
  else
    (.error .insufficientSpace, s)

/-- `ScratchAllocation::trim`, with the allocation that it leaves. -/
def ScratchAllocation.trim (a : ScratchAllocation) (newSize : Nat) :
    Except ScratchError Unit × ScratchAllocation × σ :=
  if newSize > a.size then
    (.error .invalidSize, a, s)
  else if sys.trimIsSafe s (a.ptr + newSize) then
    (.ok (), { a with size := newSize }, sys.trim s (a.ptr + newSize))
  else
    (.error .invalidState, a, s)

/-- `DynamicAllocation::publish` -/
def DynamicAllocation.publish (d : DynamicAllocation) (finalSize : Nat) :
    Except ScratchError ScratchAllocation × σ :=
  if finalSize > d.maxAvailable then
    (.error .invalidSize, s)
  else if sys.publishIsSafe s (d.startPtr + finalSize) then
    (.ok { ptr := d.startPtr, size := finalSize }, sys.publish s (d.startPtr + finalSize))
  else
    (.error .prepareMismatch, s)

/-- `DynamicAllocation::cancel` -/
def DynamicAllocation.cancel (_ : DynamicAllocation) : σ := sys.cancel s

end Calls

/-! ### Calls that are refused -/

section Refused

variable {σ : Type} {sys : ScratchSys σ} {s : σ} {size alignment : Nat}

/-- A call that the crate or the library refuses changes nothing. -/
theorem allocate_refused (h : ¬ (size ≠ 0 ∧ alignment.isPowerOfTwo
    ∧ sys.allocIsSafe s alignment size = true)) :
  ∃ e, allocate sys s size alignment = (.error e, s)
  := by
  rw [allocate]
  split
  · exact ⟨_, rfl⟩
  split
  · exact ⟨_, rfl⟩
  case isFalse hsize hpower =>
    rw [if_neg fun hsafe => h ⟨hsize, not_not.mp hpower, hsafe⟩]
    exact ⟨_, rfl⟩

theorem prepareAlloc_refused (h : ¬ (alignment.isPowerOfTwo
    ∧ sys.prepareIsSafe s alignment = true)) :
  ∃ e, prepareAlloc sys s alignment = (.error e, s)
  := by
  rw [prepareAlloc]
  split
  · exact ⟨_, rfl⟩
  case isFalse hpower =>
    rw [if_neg fun hsafe => h ⟨not_not.mp hpower, hsafe⟩]
    exact ⟨_, rfl⟩

theorem publish_refused {d : DynamicAllocation} {finalSize : Nat}
    (h : ¬ (finalSize ≤ d.maxAvailable
      ∧ sys.publishIsSafe s (d.startPtr + finalSize) = true)) :
  ∃ e, d.publish sys s finalSize = (.error e, s)
  := by
  rw [DynamicAllocation.publish]
  split
  · exact ⟨_, rfl⟩
  case isFalse hsize =>
    rw [if_neg fun hsafe => h ⟨Nat.not_lt.mp hsize, hsafe⟩]
    exact ⟨_, rfl⟩

theorem trim_refused {a : ScratchAllocation} {newSize : Nat}
    (h : ¬ (newSize ≤ a.size ∧ sys.trimIsSafe s (a.ptr + newSize) = true)) :
  ∃ e, a.trim sys s newSize = (.error e, a, s)
  := by
  rw [ScratchAllocation.trim]
  split
  · exact ⟨_, rfl⟩
  case isFalse hsize =>
    rw [if_neg fun hsafe => h ⟨Nat.not_lt.mp hsize, hsafe⟩]
    exact ⟨_, rfl⟩

end Refused

/-! ### What the calls do to the free pointer -/

section Specs

variable {σ : Type} {sys : ScratchSys σ} (hsys : sys.Documented) (s : σ)
include hsys

/-- An allocation lies between the old free pointer and the new one. -/
theorem allocate_spec (size alignment : Nat) :
  sys.frames (allocate sys s size alignment).2 = sys.frames s
    ∧ sys.free s ≤ sys.free (allocate sys s size alignment).2
    ∧ ∀ a, (allocate sys s size alignment).1 = .ok a →
      sys.free s ≤ a.ptr ∧ a.ptr + a.size = sys.free (allocate sys s size alignment).2
  := by
  rw [allocate]
  split
  · simp
  split
  · simp
  split
  case isFalse => simp
  case isTrue hsafe =>
    obtain ⟨hptr, hfree, hframes⟩ := hsys.alloc hsafe
    simp only
    split
    · use hframes
      simp only [hfree, reduceCtorEq, false_implies, implies_true, and_true]
      apply Nat.le_add_right_of_le hptr
    · use hframes
      simp only [hfree]
      use Nat.le_add_right_of_le hptr
      rintro a ⟨⟩
      use hptr

/-- A dynamic allocation starts above the new free pointer. -/
theorem prepareAlloc_spec (alignment : Nat) :
  sys.frames (prepareAlloc sys s alignment).2 = sys.frames s
    ∧ sys.free s ≤ sys.free (prepareAlloc sys s alignment).2
    ∧ ∀ d, (prepareAlloc sys s alignment).1 = .ok d →
      sys.free (prepareAlloc sys s alignment).2 ≤ d.startPtr
  := by
  rw [prepareAlloc]
  split
  · simp
  split
  case isFalse => simp
  case isTrue hsafe =>
    obtain ⟨hfree, hptr, hframes⟩ := hsys.prepare hsafe
    simp only
    split
    · use hframes, hfree
      simp
    · use hframes, hfree
      rintro d ⟨⟩
      apply hptr

/-- A published allocation starts where it was prepared and ends at the new free pointer. -/
theorem publish_spec (d : DynamicAllocation) (finalSize : Nat) :
  sys.frames (d.publish sys s finalSize).2 = sys.frames s
    ∧ sys.free s ≤ sys.free (d.publish sys s finalSize).2
    ∧ ∀ a, (d.publish sys s finalSize).1 = .ok a →
      a.ptr = d.startPtr ∧ a.ptr + a.size = sys.free (d.publish sys s finalSize).2
  := by
  rw [DynamicAllocation.publish]
  split
  · simp
  split
  case isFalse => simp
  case isTrue hsafe =>
    obtain ⟨hle, hfree, hframes⟩ := hsys.publish hsafe
    simp only [hfree]
    use hframes, hle
    rintro a ⟨⟩
    use rfl

/-- A trim does nothing, or it sets the free pointer to the new end of the allocation. -/
theorem trim_spec (a : ScratchAllocation) (newSize : Nat) :
  (∃ e, a.trim sys s newSize = (.error e, a, s))
    ∨ newSize ≤ a.size
      ∧ a.trim sys s newSize
        = (.ok (), { a with size := newSize }, sys.trim s (a.ptr + newSize))
      ∧ sys.free (sys.trim s (a.ptr + newSize)) = a.ptr + newSize
      ∧ sys.frames (sys.trim s (a.ptr + newSize)) = sys.frames s
      ∧ a.ptr + newSize ≤ sys.free s
      ∧ ∀ saved ∈ (sys.frames s).head?, saved ≤ a.ptr + newSize
  := by
  rw [ScratchAllocation.trim]
  split
  · left
    use .invalidSize
  case isFalse hle =>
    split
    case isFalse =>
      left
      use .invalidState
    case isTrue hsafe =>
      obtain ⟨hsaved, hstop, hfree, hframes⟩ := hsys.trim hsafe
      right
      use Nat.not_lt.mp hle, rfl, hfree, hframes, hstop

end Specs

end FdScratch

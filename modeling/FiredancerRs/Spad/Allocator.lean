import Mathlib.Algebra.Ring.Nat
import Mathlib.Tactic.Common

/-!
# `fd_spad`

The calls of `fd_spad` over the C library that keeps the spad, which is the parameter `SpadSys`.
Its state is the watermark up to which the memory of the spad is in use and the watermarks that its
frames have saved. Addresses and sizes are natural numbers.
-/

namespace FdSpad

/-- `SpadError` -/
inductive SpadError where
  | allocationFailed
  | invalidAlignment
  | invalidSize
  | noFrame
  | tooManyFrames
  | noFramesToPop
  | insufficientSpace
  | invalidState
  | prepareMismatch
  | invalidShmem
  | creationFailed
  | joinFailed
deriving DecidableEq, Repr

/-- The functions of the C library on a state `σ`, with the start of the memory of the spad. A
null pointer to a spad is no state. -/
structure SpadSys (σ : Type) where
  start : Nat
  frameMax : Nat
  new : Nat → Nat → Option σ
  join : σ → Option σ
  frameUsed : σ → Nat
  frameFree : σ → Nat
  memMax : σ → Nat
  memUsed : σ → Nat
  inFrame : σ → Bool
  frameLo : σ → Nat
  frameHi : σ → Nat
  allocMax : σ → Nat → Nat
  push : σ → σ
  pop : σ → σ
  alloc : σ → Nat → Nat → Nat × σ
  prepare : σ → Nat → Nat → Nat × σ
  publish : σ → Nat → σ
  cancel : σ → σ
  trim : σ → Nat → σ
  reset : σ → σ

section Calls

variable {σ : Type} (sys : SpadSys σ) (s : σ)

/-- `SpadFrame` -/
structure SpadFrame where

/-- `SpadFrame::drop` -/
def SpadFrame.drop (_ : SpadFrame) : σ := s

/-- `SpadAllocation` -/
structure SpadAllocation where
  ptr : Nat
  size : Nat
deriving DecidableEq, Repr

/-- `DynamicAllocation` -/
structure DynamicAllocation where
  startPtr : Nat
  maxSize : Nat
deriving DecidableEq, Repr

/-- `SpadAllocator::new` -/
def new (shmem memMax : Nat) : Except SpadError σ :=
  if shmem = 0 then
    .error .invalidShmem
  else if memMax = 0 then
    .error .invalidSize
  else
    match sys.new shmem memMax with
    | none => .error .creationFailed
    | some spad =>
      match sys.join spad with
      | none => .error .joinFailed
      | some spad => .ok spad

/-- `SpadAllocator::push_frame` -/
def pushFrame : Except SpadError SpadFrame × σ :=
  if sys.frameFree s = 0 then (.error .tooManyFrames, s) else (.ok {}, sys.push s)

/-- `SpadAllocator::pop_frame` -/
def popFrame : Except SpadError Unit × σ :=
  if sys.inFrame s then (.ok (), sys.pop s) else (.error .noFramesToPop, s)

/-- The checks that `allocate` and `prepare_alloc` make before they call the library, and the
pointer that is returned with the given result of the call. -/
def bump (size alignment : Nat) (called : Nat × σ) : Except SpadError Nat × σ :=
  if size = 0 then
    (.error .invalidSize, s)
  else if 0 < alignment ∧ ¬ alignment.isPowerOfTwo then
    (.error .invalidAlignment, s)
  else if ¬ sys.inFrame s then
    (.error .noFrame, s)
  else if sys.allocMax s alignment < size then
    (.error .insufficientSpace, s)
  else if called.1 = 0 then
    (.error .allocationFailed, called.2)
  else
    (.ok called.1, called.2)

/-- `SpadAllocator::allocate` -/
def allocate (size alignment : Nat) : Except SpadError SpadAllocation × σ :=
  (bump sys s size alignment (sys.alloc s alignment size)).map
    (Except.map fun ptr => { ptr := ptr, size := size }) id

/-- `SpadAllocator::prepare_alloc` -/
def prepareAlloc (alignment maxSize : Nat) : Except SpadError DynamicAllocation × σ :=
  (bump sys s maxSize alignment (sys.prepare s alignment maxSize)).map
    (Except.map fun ptr => { startPtr := ptr, maxSize := maxSize }) id

/-- `SpadAllocator::publish_alloc` -/
def publishAlloc (actualSize : Nat) : Except SpadError Unit × σ :=
  (.ok (), sys.publish s actualSize)

/-- `SpadAllocator::cancel_alloc` -/
def cancelAlloc : Except SpadError Unit × σ := (.ok (), sys.cancel s)

/-- `SpadAllocator::trim` -/
def trim (endPtr : Nat) : Except SpadError Unit × σ :=
  if ¬ sys.inFrame s then
    (.error .noFrame, s)
  else if endPtr < sys.frameLo s ∨ sys.frameHi s < endPtr then
    (.error .invalidState, s)
  else
    (.ok (), sys.trim s endPtr)

/-- `SpadAllocator::reset` -/
def reset : σ := sys.reset s

/-- `SpadAllocator::frames_used` -/
def framesUsed : Nat := sys.frameUsed s

/-- `SpadAllocator::mem_max` -/
def memMax : Nat := sys.memMax s

/-- `SpadAllocator::mem_used` -/
def memUsed : Nat := sys.memUsed s

/-- `ManagedSpadFrame` -/
structure ManagedSpadFrame where

/-- `ManagedSpadFrame::new`, which drops the guard of the frame that it pushes. -/
def ManagedSpadFrame.new : Except SpadError ManagedSpadFrame × σ :=
  match pushFrame sys s with
  | (.ok frame, s) => (.ok {}, frame.drop s)
  | (.error e, s) => (.error e, s)

/-- `ManagedSpadFrame::drop` -/
def ManagedSpadFrame.drop (_ : ManagedSpadFrame) : σ := s

end Calls

/-! ### What the library does -/

section Library

variable {σ : Type} (sys : SpadSys σ) (frames : σ → List Nat)

/-- Where the next allocation starts in the memory, when there is room for it. -/
def SpadSys.offset (s : σ) (alignment : Nat) : Nat := sys.memMax s - sys.allocMax s alignment

/-- A call leaves the given watermark and the given saved ones, and keeps the size of the memory. -/
structure SpadSys.Leaves (s s' : σ) (used : Nat) (saved : List Nat) : Prop where
  memMax : sys.memMax s' = sys.memMax s
  memUsed : sys.memUsed s' = used
  frames : frames s' = saved

/-- An alignment that is given is a power of two. -/
def GoodAlignment (alignment : Nat) : Prop := 0 < alignment → alignment.isPowerOfTwo

/-- What the library is documented to do, of which we know the saved watermarks, the innermost
first. `push` and `pop` save and restore the watermark, `alloc` and `prepare` start at the aligned
watermark, `publish` moves the watermark without a check, and `trim` sets it. Nothing is said of
places beyond the memory. -/
structure SpadSys.Documented : Prop where
  start_pos : 0 < sys.start
  memMax_lt : ∀ s, sys.memMax s < 2 ^ 64
  new : ∀ {shmem memMax s}, sys.new shmem memMax = some s → sys.memUsed s = 0 ∧ frames s = []
  join : ∀ {s s'}, sys.join s = some s' → sys.Leaves frames s s' (sys.memUsed s) (frames s)
  frameUsed : ∀ s, sys.frameUsed s = (frames s).length
  frameFree : ∀ s, sys.frameUsed s + sys.frameFree s = sys.frameMax
  inFrame : ∀ s, sys.inFrame s ↔ frames s ≠ []
  frameLo : ∀ {s saved rest}, frames s = saved :: rest → saved ≤ sys.memMax s →
    sys.frameLo s = sys.start + saved
  frameHi : ∀ {s}, sys.memUsed s ≤ sys.memMax s → sys.frameHi s = sys.start + sys.memUsed s
  allocMax : ∀ {s alignment}, GoodAlignment alignment → sys.memUsed s ≤ sys.memMax s →
    sys.allocMax s alignment ≤ sys.memMax s - sys.memUsed s
  push : ∀ {s}, sys.frameFree s ≠ 0 →
    sys.Leaves frames s (sys.push s) (sys.memUsed s) (sys.memUsed s :: frames s)
  pop : ∀ {s saved rest}, frames s = saved :: rest → sys.Leaves frames s (sys.pop s) saved rest
  alloc : ∀ {s alignment size}, GoodAlignment alignment → sys.inFrame s → 0 < size →
    size ≤ sys.allocMax s alignment →
    (sys.alloc s alignment size).1 = sys.start + sys.offset s alignment
      ∧ sys.Leaves frames s (sys.alloc s alignment size).2 (sys.offset s alignment + size)
        (frames s)
  prepare : ∀ {s alignment size}, GoodAlignment alignment → sys.inFrame s → 0 < size →
    size ≤ sys.allocMax s alignment →
    (sys.prepare s alignment size).1 = sys.start + sys.offset s alignment
      ∧ sys.Leaves frames s (sys.prepare s alignment size).2 (sys.offset s alignment) (frames s)
  publish : ∀ s size,
    sys.Leaves frames s (sys.publish s size) ((sys.memUsed s + size) % 2 ^ 64) (frames s)
  cancel : ∀ s, sys.Leaves frames s (sys.cancel s) (sys.memUsed s) (frames s)
  trim : ∀ {s stop}, sys.inFrame s → sys.frameLo s ≤ stop → stop ≤ sys.frameHi s →
    sys.start ≤ stop → sys.Leaves frames s (sys.trim s stop) (stop - sys.start) (frames s)
  reset : ∀ s, sys.Leaves frames s (sys.reset s) 0 []

end Library

/-! ### What the calls do -/

section Specs

variable {σ : Type} {sys : SpadSys σ} {frames : σ → List Nat}

/-- A new spad is one that the library has made and joined. -/
theorem new_eq_ok {shmem memMax : Nat} {s : σ} (h : new sys shmem memMax = .ok s) :
  ∃ spad, sys.new shmem memMax = some spad ∧ sys.join spad = some s
  := by
  rw [new] at h
  split at h
  case isTrue => cases h
  case isFalse =>
  split at h
  case isTrue => cases h
  case isFalse =>
  cases hcreate : sys.new shmem memMax with
  | none =>
    rw [hcreate] at h
    cases h
  | some spad =>
    cases hjoin : sys.join spad with
    | none =>
      simp only [hcreate, hjoin] at h
      cases h
    | some joined =>
      simp only [hcreate, hjoin] at h
      obtain rfl := Except.ok.inj h
      exact ⟨spad, rfl, hjoin⟩

/-- What `allocate` and `prepare_alloc` check. -/
def Accepts (sys : SpadSys σ) (s : σ) (size alignment : Nat) : Prop :=
  0 < size ∧ GoodAlignment alignment ∧ sys.inFrame s ∧ size ≤ sys.allocMax s alignment

/-- A call that is not accepted changes nothing. -/
theorem bump_of_not_accepts {s : σ} {size alignment : Nat} (h : ¬ Accepts sys s size alignment)
    (called : Nat × σ) :
  ∃ e, bump sys s size alignment called = (.error e, s)
  := by
  rw [bump]
  split
  case isTrue => use .invalidSize
  case isFalse hsize =>
  split
  case isTrue => use .invalidAlignment
  case isFalse halign =>
  split
  case isTrue => use .noFrame
  case isFalse hframe =>
  split
  case isTrue => use .insufficientSpace
  case isFalse hroom =>
    apply absurd _ h
    have halign : GoodAlignment alignment := by
      intro hpos
      by_contra hnot
      apply halign ⟨hpos, hnot⟩
    exact ⟨Nat.pos_of_ne_zero hsize, halign, not_not.mp hframe, Nat.not_lt.mp hroom⟩

/-- A call that is accepted returns the pointer of the library. -/
theorem bump_of_accepts {s : σ} {size alignment : Nat} (h : Accepts sys s size alignment)
    {called : Nat × σ} (hnull : called.1 ≠ 0) :
  bump sys s size alignment called = (.ok called.1, called.2)
  := by
  obtain ⟨hsize, halign, hframe, hroom⟩ := h
  rw [bump, if_neg (Nat.ne_of_gt hsize), if_neg fun hbad => hbad.2 (halign hbad.1),
    if_neg (not_not.mpr hframe), if_neg (Nat.not_lt.mpr hroom), if_neg hnull]

/-- With good arguments and in a frame, nothing but the room is missing. -/
theorem bump_of_no_room {s : σ} {size alignment : Nat} (hsize : 0 < size)
    (halign : GoodAlignment alignment) (hframe : sys.inFrame s)
    (h : ¬ Accepts sys s size alignment) (called : Nat × σ) :
  bump sys s size alignment called = (.error .insufficientSpace, s)
  := by
  have hroom : sys.allocMax s alignment < size := by
    by_contra hroom
    apply h ⟨hsize, halign, hframe, Nat.not_lt.mp hroom⟩
  rw [bump, if_neg (Nat.ne_of_gt hsize), if_neg fun hbad => hbad.2 (halign hbad.1),
    if_neg (not_not.mpr hframe), if_pos hroom]

variable (hdoc : sys.Documented frames) {s : σ}
include hdoc

/-- An allocation that is accepted starts at the offset, and the watermark is at its end. -/
theorem allocate_of_accepts {size alignment : Nat} (h : Accepts sys s size alignment) :
  ∃ s', allocate sys s size alignment
      = (.ok { ptr := sys.start + sys.offset s alignment, size := size }, s')
    ∧ sys.Leaves frames s s' (sys.offset s alignment + size) (frames s)
  := by
  obtain ⟨hptr, hleaves⟩ := hdoc.alloc h.2.1 h.2.2.1 h.1 h.2.2.2
  use (sys.alloc s alignment size).2
  rw [allocate, bump_of_accepts h _, hptr]
  · exact ⟨rfl, hleaves⟩
  · rw [hptr]
    apply Nat.ne_of_gt (Nat.add_pos_left hdoc.start_pos _)

/-- A dynamic allocation that is accepted starts at the offset, where the watermark is put. -/
theorem prepareAlloc_of_accepts {alignment maxSize : Nat} (h : Accepts sys s maxSize alignment) :
  ∃ s', prepareAlloc sys s alignment maxSize
      = (.ok { startPtr := sys.start + sys.offset s alignment, maxSize := maxSize }, s')
    ∧ sys.Leaves frames s s' (sys.offset s alignment) (frames s)
  := by
  obtain ⟨hptr, hleaves⟩ := hdoc.prepare h.2.1 h.2.2.1 h.1 h.2.2.2
  use (sys.prepare s alignment maxSize).2
  rw [prepareAlloc, bump_of_accepts h _, hptr]
  · exact ⟨rfl, hleaves⟩
  · rw [hptr]
    apply Nat.ne_of_gt (Nat.add_pos_left hdoc.start_pos _)

/-- An accepted allocation lies between the watermark and the end of the memory. -/
theorem Accepts.bounds {size alignment : Nat} (h : Accepts sys s size alignment)
    (hused : sys.memUsed s ≤ sys.memMax s) :
  sys.memUsed s ≤ sys.offset s alignment ∧ sys.offset s alignment + size ≤ sys.memMax s
  := by
  obtain ⟨hsize, halign, -, hroom⟩ := h
  have hmax := hdoc.allocMax halign hused
  rw [SpadSys.offset]
  omega

end Specs

/-! ### A library -/

/-- A spad of 128 frames over 8192 bytes. -/
structure Pad where
  used : Nat
  saved : List Nat
  saved_le : saved.length ≤ 128

namespace Pad

/-- A spad that is not in use. -/
def empty : Pad where
  used := 0
  saved := []
  saved_le := Nat.zero_le 128

/-- The watermark rounded up to an alignment, which is 16 where none is given. -/
def alignUp (pad : Pad) (alignment : Nat) : Nat :=
  let alignment := if alignment = 0 then 16 else alignment
  (pad.used + alignment - 1) / alignment * alignment

/-- Move the watermark. -/
def setUsed (pad : Pad) (used : Nat) : Pad := { pad with used := used }

/-- The room above the aligned watermark. -/
def allocMax (pad : Pad) (alignment : Nat) : Nat :=
  if pad.saved = [] then 0 else 8192 - pad.alignUp alignment

/-- The library of such spads. -/
def sys : SpadSys Pad where
  start := 0x1000
  frameMax := 128
  new _ memMax := if memMax = 8192 then some empty else none
  join := some
  frameUsed pad := pad.saved.length
  frameFree pad := 128 - pad.saved.length
  memMax _ := 8192
  memUsed pad := pad.used
  inFrame pad := pad.saved ≠ []
  frameLo pad := 0x1000 + pad.saved.headD 0
  frameHi pad := 0x1000 + pad.used
  allocMax := allocMax
  push pad :=
    if h : pad.saved.length < 128 then
      { used := pad.used
        saved := pad.used :: pad.saved
        saved_le := h }
    else
      pad
  pop pad :=
    { used := pad.saved.headD 0
      saved := pad.saved.tail
      saved_le := Nat.le_trans (List.tail_sublist _).length_le pad.saved_le }
  alloc pad alignment size :=
    (0x1000 + pad.alignUp alignment, pad.setUsed (pad.alignUp alignment + size))
  prepare pad alignment _ :=
    (0x1000 + pad.alignUp alignment, pad.setUsed (pad.alignUp alignment))
  publish pad size := pad.setUsed ((pad.used + size) % 2 ^ 64)
  cancel pad := pad
  trim pad stop := pad.setUsed (stop - 0x1000)
  reset _ := empty

theorem le_alignUp (pad : Pad) (alignment : Nat) :
  pad.used ≤ pad.alignUp alignment
  := by
  rw [alignUp]
  split
  · omega
  case isFalse hne =>
    have hdiv := Nat.div_add_mod' (pad.used + alignment - 1) alignment
    have hmod := Nat.mod_lt (pad.used + alignment - 1) (Nat.pos_of_ne_zero hne)
    omega

/-- Where there is room, the next allocation starts at the aligned watermark. -/
theorem offset_eq {pad : Pad} {alignment size : Nat} (hsize : 0 < size)
    (hroom : size ≤ pad.allocMax alignment) :
  sys.offset pad alignment = pad.alignUp alignment
  := by
  change 8192 - pad.allocMax alignment = pad.alignUp alignment
  rw [allocMax] at hroom ⊢
  split at hroom
  · omega
  case isFalse hsaved =>
    rw [if_neg hsaved]
    omega

theorem setUsed_leaves (pad : Pad) (used : Nat) :
  sys.Leaves Pad.saved pad (pad.setUsed used) used pad.saved
  := ⟨rfl, rfl, rfl⟩

theorem sys_documented :
  sys.Documented Pad.saved
  where
    start_pos := by decide
    memMax_lt _ := (by decide : 8192 < 2 ^ 64)
    new {shmem memMax s} h := by
      change (if memMax = 8192 then some empty else none) = some s at h
      split at h
      · obtain rfl := Option.some.inj h
        exact ⟨rfl, rfl⟩
      · cases h
    join h := by
      obtain rfl := Option.some.inj h
      exact ⟨rfl, rfl, rfl⟩
    frameUsed _ := rfl
    frameFree pad := Nat.add_sub_cancel' pad.saved_le
    inFrame pad := decide_eq_true_iff
    frameLo {s saved rest} h _ := by
      change 0x1000 + s.saved.headD 0 = 0x1000 + saved
      rw [h]
      rfl
    frameHi _ := rfl
    allocMax {pad alignment} _ _ := by
      change pad.allocMax alignment ≤ 8192 - pad.used
      have hle := pad.le_alignUp alignment
      rw [allocMax]
      split
      · apply Nat.zero_le
      · omega
    push {s} h := by
      have hlt : s.saved.length < 128 := Nat.lt_of_sub_ne_zero h
      change sys.Leaves Pad.saved s (if h : s.saved.length < 128 then _ else s) _ _
      rw [dif_pos hlt]
      exact ⟨rfl, rfl, rfl⟩
    pop {s saved rest} h := by
      constructor
      · rfl
      · change s.saved.headD 0 = saved
        rw [h]
        rfl
      · change s.saved.tail = rest
        rw [h]
        rfl
    alloc _ _ hsize hroom := by
      rw [offset_eq hsize hroom]
      exact ⟨rfl, setUsed_leaves _ _⟩
    prepare _ _ hsize hroom := by
      rw [offset_eq hsize hroom]
      exact ⟨rfl, setUsed_leaves _ _⟩
    publish _ _ := setUsed_leaves _ _
    cancel _ := ⟨rfl, rfl, rfl⟩
    trim _ _ _ _ := setUsed_leaves _ _
    reset _ := ⟨rfl, rfl, rfl⟩

end Pad

end FdSpad

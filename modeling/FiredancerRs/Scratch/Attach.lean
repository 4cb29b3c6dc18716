import FiredancerRs.Lib.Layout
import FiredancerRs.Scratch.Allocator

/-!
# Attaching an allocator

`ScratchAllocator::new` and the drop of an allocator. The scratch of a thread is in the library and
not in the allocator, and the drop detaches whatever the thread has attached. An allocator that
cannot be attached because another one is attached is dropped on the way out, so it detaches the
other one (`new_intact_iff`).
-/

namespace FdScratch

/-- The functions of the C library that attach and detach, on the state `σ` of the scratch of a
thread. `attached` is the address of the memory that is attached. -/
structure AttachSys (σ : Type) where
  smemAlign : Nat
  fmemAlign : Nat
  smemFootprint : Nat → Nat
  fmemFootprint : Nat → Nat
  attachIsSafe : σ → Bool
  attach : σ → Nat → Nat → Nat → Nat → σ
  detachIsSafe : σ → Bool
  detach : σ → σ
  attached : σ → Option Nat

/-- What the library is documented to do: attaching is safe when nothing is attached and detaching
when something is, and then nothing is. -/
structure AttachSys.Documented {σ : Type} (sys : AttachSys σ) : Prop where
  attachIsSafe : ∀ s, sys.attachIsSafe s = (sys.attached s).isNone
  detachIsSafe : ∀ s, sys.detachIsSafe s = (sys.attached s).isSome
  attach : ∀ s smem fmem size depth, sys.attached (sys.attach s smem fmem size depth) = some smem
  detach : ∀ s, sys.attached (sys.detach s) = none

/-- `ScratchAllocator` -/
structure ScratchAllocator where
  smem : Nat
  fmem : Nat
  smemLayout : Layout
  fmemLayout : Layout
deriving DecidableEq, Repr

/-- The addresses that `alloc` returns for the two regions, zero when it fails. -/
structure AllocAnswers where
  smem : Nat
  fmem : Nat

section Calls

variable {σ : Type} (sys : AttachSys σ)

/-- `ScratchAllocator::attach` -/
def ScratchAllocator.attach (allocator : ScratchAllocator) (memorySize maxFrames : Nat) (s : σ) :
    Except ScratchError Unit × σ :=
  if sys.attachIsSafe s = false then
    (.error .invalidState, s)
  else
    (.ok (), sys.attach s allocator.smem allocator.fmem memorySize maxFrames)

/-- `ScratchAllocator::drop`. It does not say which attachment is its own. -/
def ScratchAllocator.drop (_ : ScratchAllocator) (s : σ) : σ :=
  if sys.detachIsSafe s then sys.detach s else s

/-- `ScratchAllocator::new` up to its call of `attach`. Without the second region the first one is
not freed. -/
def allocateRegions (a : AllocAnswers) (memorySize maxFrames : Nat) :
    Except ScratchError ScratchAllocator :=
  if memorySize = 0 ∨ maxFrames = 0 then
    .error .invalidSize
  else
    match Layout.fromSizeAlign (sys.smemFootprint memorySize) sys.smemAlign with
    | none => .error .invalidAlignment
    | some smemLayout =>
      if a.smem = 0 then
        .error .allocationFailed
      else
        match Layout.fromSizeAlign (sys.fmemFootprint maxFrames) sys.fmemAlign with
        | none => .error .invalidAlignment
        | some fmemLayout =>
          if a.fmem = 0 then
            .error .allocationFailed
          else
            .ok
              { smem := a.smem
                fmem := a.fmem
                smemLayout := smemLayout
                fmemLayout := fmemLayout }

/-- `ScratchAllocator::new`. The allocator that could not be attached is dropped. -/
def ScratchAllocator.new (a : AllocAnswers) (memorySize maxFrames : Nat) (s : σ) :
    Except ScratchError ScratchAllocator × σ :=
  match allocateRegions sys a memorySize maxFrames with
  | .error e => (.error e, s)
  | .ok allocator =>
    match allocator.attach sys memorySize maxFrames s with
    | (.error e, s) => (.error e, allocator.drop sys s)
    | (.ok (), s) => (.ok allocator, s)

end Calls

/-! ### Failed calls of `new` -/

variable {σ : Type} {sys : AttachSys σ} {s s' : σ}

/-- There are no regions for such an allocator: a size is zero, a footprint has no layout, or a
region cannot be allocated. -/
def Refused (sys : AttachSys σ) (a : AllocAnswers) (memorySize maxFrames : Nat) : Prop :=
  memorySize = 0 ∨ maxFrames = 0
    ∨ Layout.fromSizeAlign (sys.smemFootprint memorySize) sys.smemAlign = none
    ∨ Layout.fromSizeAlign (sys.fmemFootprint maxFrames) sys.fmemAlign = none
    ∨ a.smem = 0 ∨ a.fmem = 0

theorem allocateRegions_error_iff {a : AllocAnswers} {memorySize maxFrames : Nat} :
  (∃ e, allocateRegions sys a memorySize maxFrames = .error e)
    ↔ Refused sys a memorySize maxFrames
  := by
  rw [allocateRegions, Refused]
  by_cases hzero : memorySize = 0 ∨ maxFrames = 0
  · simp only [if_pos hzero, Except.error.injEq, exists_eq', true_iff]
    tauto
  · obtain ⟨hmemory, hframes⟩ := not_or.mp hzero
    simp only [hmemory, hframes, false_or]
    cases Layout.fromSizeAlign (sys.smemFootprint memorySize) sys.smemAlign with
    | none => simp
    | some smemLayout =>
      by_cases hsmem : a.smem = 0
      · simp [hsmem]
      · cases Layout.fromSizeAlign (sys.fmemFootprint maxFrames) sys.fmemAlign with
        | none => simp [hsmem]
        | some fmemLayout =>
          by_cases hfmem : a.fmem = 0
          · simp [hsmem, hfmem]
          · simp [hsmem, hfmem]

/-- The attachment of the thread is as before, with its frames and its free pointer, and the
allocator that is attached works as before. -/
structure Intact (sys : AttachSys σ) (calls : ScratchSys σ) (s s' : σ) : Prop where
  attached : sys.attached s' = sys.attached s
  frames : calls.frames s' = calls.frames s
  free : calls.free s' = calls.free s
  allocate : ∀ size alignment,
    (allocate calls s' size alignment).1 = (allocate calls s size alignment).1
  pushFrame : (pushFrame calls s').1 = (pushFrame calls s).1
  popFrame : (popFrame calls s').1 = (popFrame calls s).1

theorem Intact.refl (calls : ScratchSys σ) (s : σ) :
  Intact sys calls s s
  where
  attached := rfl
  frames := rfl
  free := rfl
  allocate _ _ := rfl
  pushFrame := rfl
  popFrame := rfl

/-- When the regions are there, `new` fails exactly when something is attached, and detaches it. -/
theorem new_of_regions (hsys : sys.Documented) {a : AllocAnswers} {memorySize maxFrames : Nat}
    {allocator : ScratchAllocator}
    (hregions : allocateRegions sys a memorySize maxFrames = .ok allocator) :
  ScratchAllocator.new sys a memorySize maxFrames s =
    if (sys.attached s).isSome then
      (.error .invalidState, sys.detach s)
    else
      (.ok allocator, sys.attach s allocator.smem allocator.fmem memorySize maxFrames)
  := by
  rw [ScratchAllocator.new, hregions]
  simp only [ScratchAllocator.attach, hsys.attachIsSafe]
  cases hattached : sys.attached s with
  | none => rfl
  | some smem =>
    have hdrop : sys.detachIsSafe s = true := by rw [hsys.detachIsSafe, hattached, Option.isSome_some]
    simp [ScratchAllocator.drop, hdrop]

/-- A failed `new` leaves the scratch of the thread as it was just when nothing is attached or there
are no regions for the new allocator. -/
theorem new_intact_iff (hsys : sys.Documented) (calls : ScratchSys σ) (a : AllocAnswers)
    (memorySize maxFrames : Nat) (s : σ) :
  (∀ e, (ScratchAllocator.new sys a memorySize maxFrames s).1 = .error e →
      Intact sys calls s (ScratchAllocator.new sys a memorySize maxFrames s).2)
    ↔ sys.attached s = none ∨ Refused sys a memorySize maxFrames
  := by
  rw [← allocateRegions_error_iff]
  cases hregions : allocateRegions sys a memorySize maxFrames with
  | error e =>
    rw [ScratchAllocator.new, hregions]
    constructor
    · intro _
      exact .inr ⟨e, rfl⟩
    · intro _ _ _
      exact .refl calls s
  | ok allocator =>
    rw [new_of_regions hsys hregions]
    cases hattached : sys.attached s with
    | none => simp
    | some smem =>
      simp only [Option.isSome_some, if_true]
      constructor
      · intro h
        have hsame := (h .invalidState rfl).attached
        rw [hsys.detach, hattached] at hsame
        cases hsame
      · rintro (h | ⟨e, h⟩) <;> cases h

/-! ### Two allocators of a thread -/

/-- A library that keeps the address of what is attached. -/
def recording : AttachSys (Option Nat) where
  smemAlign := 128
  fmemAlign := 16
  smemFootprint size := size
  fmemFootprint depth := 8 * depth
  attachIsSafe s := s.isNone
  attach _ smem _ _ _ := some smem
  detachIsSafe s := s.isSome
  detach _ := none
  attached s := s

theorem documented_recording :
  recording.Documented
  where
  attachIsSafe _ := rfl
  detachIsSafe _ := rfl
  attach _ _ _ _ _ := rfl
  detach _ := rfl

theorem allocateRegions_recording (smem fmem : Nat) (hsmem : smem ≠ 0) (hfmem : fmem ≠ 0) :
  ∃ allocator, allocateRegions recording { smem := smem, fmem := fmem } 8192 16 = .ok allocator
    ∧ allocator.smem = smem
  := by
  have hsmemLayout : Layout.fromSizeAlign 8192 128 = some { size := 8192, align := 128 } :=
    if_pos ⟨⟨7, rfl⟩, by decide⟩
  have hfmemLayout : Layout.fromSizeAlign (8 * 16) 16 = some { size := 128, align := 16 } :=
    if_pos ⟨⟨4, rfl⟩, by decide⟩
  simp [allocateRegions, recording, hsmemLayout, hfmemLayout, hsmem, hfmem]

/-- A second allocator of a thread is refused, and the first one is detached. -/
theorem not_new_intact :
  (∃ first, ScratchAllocator.new recording { smem := 4096, fmem := 512 } 8192 16 none
      = (.ok first, some 4096))
    ∧ ScratchAllocator.new recording { smem := 16384, fmem := 768 } 8192 16 (some 4096)
      = (.error .invalidState, none)
    ∧ ∀ calls : ScratchSys (Option Nat), ¬Intact recording calls (some 4096) none
  := by
  obtain ⟨first, hfirst, hsmem⟩ := allocateRegions_recording 4096 512 (by decide) (by decide)
  obtain ⟨second, hsecond, -⟩ := allocateRegions_recording 16384 768 (by decide) (by decide)
  refine ⟨⟨first, ?_⟩, ?_, ?_⟩
  · rw [new_of_regions documented_recording hfirst, hsmem]
    rfl
  · rw [new_of_regions documented_recording hsecond]
    rfl
  · intro calls h
    cases h.attached

/-- A size of zero is refused before anything is attached or detached. -/
theorem new_intact_iff_zero :
  recording.attached (some 4096) = some 4096
    ∧ ∀ (calls : ScratchSys (Option Nat)) e,
      (ScratchAllocator.new recording { smem := 16384, fmem := 768 } 0 16 (some 4096)).1
          = .error e →
        Intact recording calls (some 4096)
          (ScratchAllocator.new recording { smem := 16384, fmem := 768 } 0 16 (some 4096)).2
  := by
  use rfl
  intro calls
  apply (new_intact_iff documented_recording calls _ 0 16 (some 4096)).mpr (.inr (.inl rfl))

end FdScratch

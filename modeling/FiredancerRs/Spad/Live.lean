import FiredancerRs.Lib.Packing
import FiredancerRs.Lib.Runs
import FiredancerRs.Spad.Allocator

/-!
# Live allocations of `fd_spad`

Runs of the safe calls on one allocator. An allocation is live until the memory is trimmed below it
or the spad is reset, and a dynamic one until it is cancelled as well; when it is published it has
the size that was published. `publish_alloc` does not check its argument, and `allocate` and
`prepare_alloc` do not check that no dynamic allocation is in preparation. When neither does harm,
the live allocations are disjoint and in the memory, and the watermark is (`throughout_sound`).
-/

namespace FdSpad

open Packing

variable {σ : Type}

/-- The addresses of an allocation. -/
def SpadAllocation.range (a : SpadAllocation) : Range Nat := ⟨a.ptr, a.ptr + a.size⟩

/-- The addresses of a dynamic allocation. -/
def DynamicAllocation.range (d : DynamicAllocation) : Range Nat :=
  ⟨d.startPtr, d.startPtr + d.maxSize⟩

/-- The spad, the live allocations, and the dynamic allocation that is in preparation. -/
structure World (σ : Type) where
  spad : σ
  live : List (Range Nat)
  prepared : Option (Range Nat)

/-- A safe call. -/
inductive Call where
  | pushFrame
  | allocate (size alignment : Nat)
  | prepareAlloc (alignment maxSize : Nat)
  | publishAlloc (actualSize : Nat)
  | cancelAlloc
  | trim (endPtr : Nat)
  | reset

namespace World

variable (sys : SpadSys σ) (w : World σ)

/-- A spad in which nothing has been allocated. -/
def start (s : σ) : World σ where
  spad := s
  live := []
  prepared := none

/-- The addresses of all live allocations. -/
def ranges : List (Range Nat) := w.prepared.toList ++ w.live

/-- The effect of a call. -/
def step : Call → World σ
  | .pushFrame => { w with spad := (pushFrame sys w.spad).2 }
  | .allocate size alignment =>
    match allocate sys w.spad size alignment with
    | (.ok a, s) => { spad := s, live := a.range :: w.ranges, prepared := none }
    | (.error _, s) => { w with spad := s }
  | .prepareAlloc alignment maxSize =>
    match prepareAlloc sys w.spad alignment maxSize with
    | (.ok d, s) => { spad := s, live := w.ranges, prepared := some d.range }
    | (.error _, s) => { w with spad := s }
  | .publishAlloc actualSize =>
    { spad := (publishAlloc sys w.spad actualSize).2
      live := (w.prepared.map fun d => ⟨d.lo, d.lo + actualSize⟩).toList ++ w.live
      prepared := none }
  | .cancelAlloc => { w with spad := (cancelAlloc sys w.spad).2, prepared := none }
  | .trim endPtr =>
    match trim sys w.spad endPtr with
    | (.ok (), s) =>
      { spad := s
        live := w.live.map (Range.cut endPtr)
        prepared := w.prepared.filter (·.lo ≤ endPtr) }
    | (.error _, s) => { w with spad := s }
  | .reset => start (reset sys w.spad)

/-- The memory in use is at most all, and the live allocations are disjoint and in the memory. -/
structure Sound : Prop where
  used_le : memUsed sys w.spad ≤ memMax sys w.spad
  packed : Packed sys.start (sys.start + memMax sys w.spad) w.ranges

/-- What is in preparation does not reach beyond the place of the next allocation. -/
def Clear (alignment : Nat) : Prop :=
  ∀ d ∈ w.prepared, d.hi ≤ sys.start + sys.offset w.spad alignment

/-- The calls that do no harm. An allocation that is accepted must have its place beyond what is in
preparation, and no more must be published than there is room for. -/
def InOrder : Call → Prop
  | .allocate size alignment => Accepts sys w.spad size alignment → w.Clear sys alignment
  | .prepareAlloc alignment maxSize => Accepts sys w.spad maxSize alignment → w.Clear sys alignment
  | .publishAlloc actualSize => memUsed sys w.spad + actualSize ≤ memMax sys w.spad
  | _ => True

/-- The live allocations are below the watermark, what is in preparation begins there, and no frame
has saved a place beyond the memory. -/
structure Inv (frames : σ → List Nat) (max : Nat) : Prop where
  memMax : sys.memMax w.spad = max
  used_le : sys.memUsed w.spad ≤ max
  saved_le : ∀ saved ∈ frames w.spad, saved ≤ max
  packed : Packed sys.start (sys.start + sys.memUsed w.spad) w.live
  prepared : ∀ d ∈ w.prepared, d.lo = sys.start + sys.memUsed w.spad ∧ d.hi ≤ sys.start + max

section Steps

variable {sys : SpadSys σ} {frames : σ → List Nat} {w : World σ} {max : Nat}

namespace Inv

/-- All live allocations are below any bound that is above the watermark and what is in
preparation. -/
theorem packed_ranges (h : w.Inv sys frames max) {top : Nat}
    (hused : sys.start + sys.memUsed w.spad ≤ top) (hprepared : ∀ d ∈ w.prepared, d.hi ≤ top) :
  Packed sys.start top w.ranges
  := by
  rw [ranges]
  cases hcase : w.prepared with
  | none => apply h.packed.mono hused
  | some d =>
    have hlo := (h.prepared d hcase).1
    apply h.packed.cons (hlo ▸ Nat.le_add_right _ _) hlo.ge (hprepared d hcase) hused

theorem used_le_memMax (h : w.Inv sys frames max) :
  sys.memUsed w.spad ≤ sys.memMax w.spad
  := h.memMax ▸ h.used_le

theorem sound (h : w.Inv sys frames max) :
  w.Sound sys
  := by
  obtain rfl := h.memMax
  use h.used_le
  apply h.packed_ranges (Nat.add_le_add_left h.used_le _)
  exact fun d hd => (h.prepared d hd).2

/-- A call that keeps the watermark. -/
theorem of_leaves (h : w.Inv sys frames max) {s : σ} {saved : List Nat}
    (hleaves : sys.Leaves frames w.spad s (sys.memUsed w.spad) saved)
    (hsaved : ∀ place ∈ saved, place ≤ max) :
  Inv sys { w with spad := s } frames max
  := by
  obtain ⟨hmemMax, hmemUsed, hframes⟩ := hleaves
  constructor
  · apply hmemMax.trans h.memMax
  · rw [hmemUsed]
    apply h.used_le
  · rw [hframes]
    apply hsaved
  · rw [hmemUsed]
    apply h.packed
  · rw [hmemUsed]
    apply h.prepared

/-- What is in preparation may be forgotten. -/
theorem forget (h : w.Inv sys frames max) :
  Inv sys { w with prepared := none } frames max
  where
    memMax := h.memMax
    used_le := h.used_le
    saved_le := h.saved_le
    packed := h.packed
    prepared _ hd := absurd hd (Option.not_mem_none _)

variable (hdoc : sys.Documented frames) (h : w.Inv sys frames max)
include hdoc h

/-- All live allocations are below the next one that is accepted in order. -/
theorem packed_offset {size alignment : Nat} (haccepts : Accepts sys w.spad size alignment)
    (hclear : w.Clear sys alignment) :
  Packed sys.start (sys.start + sys.offset w.spad alignment) w.ranges
  := h.packed_ranges (Nat.add_le_add_left (haccepts.bounds hdoc h.used_le_memMax).1 _) hclear

theorem step_allocate {size alignment : Nat} (hc : w.InOrder sys (.allocate size alignment)) :
  (w.step sys (.allocate size alignment)).Inv sys frames max
  := by
  by_cases haccepts : Accepts sys w.spad size alignment
  · obtain ⟨s, heq, hmemMax, hmemUsed, hframes⟩ := allocate_of_accepts hdoc haccepts
    obtain ⟨-, hend⟩ := haccepts.bounds hdoc h.used_le_memMax
    have hpacked := h.packed_offset hdoc haccepts (hc haccepts)
    rw [step, heq]
    constructor
    · apply hmemMax.trans h.memMax
    · rw [hmemUsed, ← h.memMax]
      apply hend
    · rw [hframes]
      apply h.saved_le
    · rw [hmemUsed, ← Nat.add_assoc]
      apply hpacked.cons_top (Nat.le_add_right _ _) (Nat.le_add_right _ _)
    · exact fun d hd => absurd hd (Option.not_mem_none d)
  · obtain ⟨e, heq⟩ := bump_of_not_accepts haccepts (sys.alloc w.spad alignment size)
    rw [step, allocate, heq]
    apply h

theorem step_prepareAlloc {alignment maxSize : Nat}
    (hc : w.InOrder sys (.prepareAlloc alignment maxSize)) :
  (w.step sys (.prepareAlloc alignment maxSize)).Inv sys frames max
  := by
  by_cases haccepts : Accepts sys w.spad maxSize alignment
  · obtain ⟨s, heq, hmemMax, hmemUsed, hframes⟩ := prepareAlloc_of_accepts hdoc haccepts
    obtain ⟨-, hend⟩ := haccepts.bounds hdoc h.used_le_memMax
    have hpacked := h.packed_offset hdoc haccepts (hc haccepts)
    rw [h.memMax] at hend
    rw [step, heq]
    constructor
    · apply hmemMax.trans h.memMax
    · rw [hmemUsed]
      apply Nat.le_of_add_right_le hend
    · rw [hframes]
      apply h.saved_le
    · rw [hmemUsed]
      apply hpacked
    · rintro d ⟨⟩
      use hmemUsed.symm ▸ rfl
      change sys.start + sys.offset w.spad alignment + maxSize ≤ sys.start + max
      omega
  · obtain ⟨e, heq⟩ := bump_of_not_accepts haccepts (sys.prepare w.spad alignment maxSize)
    rw [step, prepareAlloc, heq]
    apply h

theorem step_publishAlloc {actualSize : Nat} (hc : w.InOrder sys (.publishAlloc actualSize)) :
  (w.step sys (.publishAlloc actualSize)).Inv sys frames max
  := by
  obtain ⟨hmemMax, hmemUsed, hframes⟩ := hdoc.publish w.spad actualSize
  change sys.memUsed w.spad + actualSize ≤ sys.memMax w.spad at hc
  rw [Nat.mod_eq_of_lt (Nat.lt_of_le_of_lt hc (hdoc.memMax_lt _))] at hmemUsed
  rw [step, publishAlloc]
  constructor
  · apply hmemMax.trans h.memMax
  · rw [hmemUsed, ← h.memMax]
    apply hc
  · rw [hframes]
    apply h.saved_le
  · rw [hmemUsed, ← Nat.add_assoc]
    cases hcase : w.prepared with
    | none => apply h.packed.mono (Nat.le_add_right _ _)
    | some d =>
      have hlo := (h.prepared d hcase).1
      change Packed _ _ (⟨d.lo, d.lo + actualSize⟩ :: w.live)
      rw [hlo]
      apply h.packed.cons_top (Nat.le_add_right _ _) (Nat.le_add_right _ _)
  · exact fun d hd => absurd hd (Option.not_mem_none d)

theorem step_trim (endPtr : Nat) :
  (w.step sys (.trim endPtr)).Inv sys frames max
  := by
  rw [step, trim]
  by_cases hframe : sys.inFrame w.spad
  case neg =>
    rw [if_pos hframe]
    apply h
  case pos =>
  rw [if_neg (not_not.mpr hframe)]
  by_cases hbad : endPtr < sys.frameLo w.spad ∨ sys.frameHi w.spad < endPtr
  case pos =>
    rw [if_pos hbad]
    apply h
  case neg =>
  rw [if_neg hbad]
  obtain ⟨hlo, hhi⟩ := not_or.mp hbad
  rw [Nat.not_lt] at hlo hhi
  have hstart : sys.start ≤ endPtr := by
    obtain ⟨saved, rest, hcons⟩ := List.exists_cons_of_ne_nil ((hdoc.inFrame _).mp hframe)
    have hsaved : saved ≤ max := h.saved_le saved (hcons ▸ List.mem_cons_self)
    rw [hdoc.frameLo hcons (h.memMax ▸ hsaved)] at hlo
    apply Nat.le_of_add_right_le hlo
  obtain ⟨hmemMax, hmemUsed, hframes⟩ := hdoc.trim hframe hlo hhi hstart
  rw [hdoc.frameHi h.used_le_memMax] at hhi
  have hend : sys.start + (endPtr - sys.start) = endPtr := Nat.add_sub_cancel' hstart
  constructor
  · apply hmemMax.trans h.memMax
  · rw [hmemUsed]
    have hle := h.used_le
    omega
  · rw [hframes]
    apply h.saved_le
  · rw [hmemUsed, hend]
    apply h.packed.cut
  · intro d hd
    obtain ⟨hmem, hle⟩ := Option.mem_filter_iff.mp hd
    obtain ⟨hlo', hhi'⟩ := h.prepared d hmem
    rw [decide_eq_true_eq] at hle
    rw [hmemUsed, hend]
    exact ⟨by omega, hhi'⟩

/-- A call in order keeps the invariant. -/
theorem step {c : Call} (hc : w.InOrder sys c) :
  (w.step sys c).Inv sys frames max
  := by
  cases c with
  | pushFrame =>
    rw [World.step, pushFrame]
    split
    case isTrue => apply h
    case isFalse hfree =>
      apply h.of_leaves (hdoc.push hfree)
      exact List.forall_mem_cons.mpr ⟨h.used_le, h.saved_le⟩
  | allocate size alignment => apply h.step_allocate hdoc hc
  | prepareAlloc alignment maxSize => apply h.step_prepareAlloc hdoc hc
  | publishAlloc actualSize => apply h.step_publishAlloc hdoc hc
  | cancelAlloc => apply (h.of_leaves (hdoc.cancel w.spad) h.saved_le).forget
  | trim endPtr => apply h.step_trim hdoc endPtr
  | reset =>
    obtain ⟨hmemMax, hmemUsed, hframes⟩ := hdoc.reset w.spad
    constructor
    · apply hmemMax.trans h.memMax
    · exact hmemUsed ▸ Nat.zero_le _
    · exact fun saved hsaved => absurd (hframes ▸ hsaved) List.not_mem_nil
    · apply Packed.nil
    · exact fun d hd => absurd hd (Option.not_mem_none d)

/-- An allocation that is accepted out of order overlaps with what is in preparation. -/
theorem overlap {size alignment : Nat} (haccepts : Accepts sys w.spad size alignment)
    (hclear : ¬ w.Clear sys alignment) :
  ∃ d, w.prepared = some d
    ∧ ∀ bot top, ¬ Packed bot top
      (⟨sys.start + sys.offset w.spad alignment, sys.start + sys.offset w.spad alignment + size⟩
        :: d :: w.live)
  := by
  rw [Clear] at hclear
  push Not at hclear
  obtain ⟨d, hd, hlt⟩ := hclear
  obtain ⟨hlo, -⟩ := h.prepared d hd
  have hused := (haccepts.bounds hdoc h.used_le_memMax).1
  use d, hd
  intro bot top
  apply not_packed_of_overlap (x := sys.start + sys.offset w.spad alignment)
  · exact ⟨Nat.le_refl _, Nat.lt_add_of_pos_right haccepts.1⟩
  · exact ⟨by omega, hlt⟩

/-- A call out of order does harm, when it does not take the watermark around. -/
theorem not_sound_step {c : Call} (hc : ¬ w.InOrder sys c)
    (hwrap : ∀ actualSize, c = .publishAlloc actualSize → max + actualSize < 2 ^ 64) :
  ¬ (w.step sys c).Sound sys
  := by
  intro hsound
  cases c with
  | allocate size alignment =>
    obtain ⟨haccepts, hclear⟩ := Classical.not_imp.mp hc
    obtain ⟨d, hd, hoverlap⟩ := h.overlap hdoc haccepts hclear
    obtain ⟨s, heq, -⟩ := allocate_of_accepts hdoc haccepts
    rw [World.step, heq, ranges, hd] at hsound
    apply hoverlap _ _ hsound.packed
  | prepareAlloc alignment maxSize =>
    obtain ⟨haccepts, hclear⟩ := Classical.not_imp.mp hc
    obtain ⟨d, hd, hoverlap⟩ := h.overlap hdoc haccepts hclear
    obtain ⟨s, heq, -⟩ := prepareAlloc_of_accepts hdoc haccepts
    rw [World.step, heq, ranges, hd] at hsound
    apply hoverlap _ _ hsound.packed
  | publishAlloc actualSize =>
    obtain ⟨hmemMax, hmemUsed, -⟩ := hdoc.publish w.spad actualSize
    have hlt := hwrap actualSize rfl
    have hle := h.used_le
    rw [Nat.mod_eq_of_lt (by omega)] at hmemUsed
    apply hc
    have hsound : sys.memUsed (sys.publish w.spad actualSize)
      ≤ sys.memMax (sys.publish w.spad actualSize) := hsound.used_le
    rw [hmemUsed, hmemMax] at hsound
    apply hsound
  | _ => apply hc trivial

end Inv

/-- A new spad is in order. -/
theorem inv_start (hdoc : sys.Documented frames) {shmem memMax : Nat} {s : σ}
    (hnew : new sys shmem memMax = .ok s) :
  (start s).Inv sys frames (sys.memMax s)
  := by
  obtain ⟨spad, hcreate, hjoin⟩ := new_eq_ok hnew
  have hcreated := hdoc.new hcreate
  have hused : sys.memUsed s = 0 := (hdoc.join hjoin).memUsed.trans hcreated.1
  have hframes : frames s = [] := (hdoc.join hjoin).frames.trans hcreated.2
  constructor
  · rfl
  · exact hused ▸ Nat.zero_le _
  · exact fun saved hsaved => absurd (hframes ▸ hsaved) List.not_mem_nil
  · apply Packed.nil
  · exact fun d hd => absurd hd (Option.not_mem_none d)

/-- While all calls are in order, the memory in use is at most all and the live allocations are
disjoint and in the memory; and when no call takes the watermark around, then only while all are. -/
theorem throughout_sound (hdoc : sys.Documented frames) {shmem memMax : Nat} {s : σ}
    (hnew : new sys shmem memMax = .ok s) (calls : List Call) :
  (Runs.Along (step sys) (InOrder sys) calls (start s) →
      Runs.Throughout (step sys) (Sound sys) calls (start s))
    ∧ ((∀ actualSize, .publishAlloc actualSize ∈ calls → sys.memMax s + actualSize < 2 ^ 64) →
      Runs.Throughout (step sys) (Sound sys) calls (start s) →
      Runs.Along (step sys) (InOrder sys) calls (start s))
  := by
  have hstart := inv_start hdoc hnew
  have hstep (w : World σ) (c : Call) (h : w.Inv sys frames (sys.memMax s)) (hc : w.InOrder sys c) :
    (w.step sys c).Inv sys frames (sys.memMax s) := h.step hdoc hc
  constructor
  · intro hcalls past hpast
    apply (hcalls.throughout hstep hstart past hpast).sound
  · intro hwrap hsound
    apply Runs.Along.of_throughout hsound hstep _ hstart
    intro w c hc h hnot
    apply h.not_sound_step hdoc hnot
    rintro actualSize rfl
    apply hwrap actualSize hc

end Steps

/-- An allocation, and a dynamic one that is published and trimmed. -/
theorem throughout_sound_trimmed :
  Runs.Throughout (step Pad.sys) (Sound Pad.sys)
    [.pushFrame, .allocate 100 16, .prepareAlloc 64 256, .publishAlloc 200, .trim 0x1080, .reset]
    (start .empty)
  := by
  have hnew : new Pad.sys 1 8192 = .ok .empty := rfl
  apply (throughout_sound Pad.sys_documented hnew _).1
  refine ⟨trivial, ?_, ?_, ?_, trivial, trivial, trivial⟩
  · rintro - d ⟨⟩
  · rintro - d ⟨⟩
  · exact (by decide : 128 + 200 ≤ 8192)

/-- More is published than there is. -/
theorem not_throughout_sound :
  ¬ Runs.Throughout (step Pad.sys) (Sound Pad.sys) [.publishAlloc 9000] (start .empty)
  := by
  intro h
  have hle : 9000 ≤ 8192 := (h [.publishAlloc 9000] List.prefix_rfl).used_le
  omega

end World

end FdSpad

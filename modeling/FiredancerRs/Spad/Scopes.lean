import FiredancerRs.Spad.Allocator
import Mathlib.Data.List.Infix

/-!
# Scopes of `fd_spad`

Blocks of code that push frames, allocate in them, and leave the scopes of their guards. The drop of
either guard does nothing, so a frame that a guard stands for is never popped: after a block there
is one more frame for each guard that was created in it (`length_exec`). Successive scopes end for
want of a frame or of space (`guard_restores_iff`). The macro `spad_scope` does pop its frame, and
restores what a block without guards has used (`spadScope_restores`).
-/

namespace FdSpad

variable {σ : Type}

/-- The guards. -/
inductive Guard where
  | spadFrame (frame : SpadFrame)
  | managedSpadFrame (frame : ManagedSpadFrame)

/-- The ways to create a guard. -/
inductive GuardKind where
  | spadFrame
  | managedSpadFrame

/-- Create a guard. -/
def GuardKind.create (sys : SpadSys σ) (s : σ) : GuardKind → Except SpadError Guard × σ
  | .spadFrame => (pushFrame sys s).map (Except.map .spadFrame) id
  | .managedSpadFrame => (ManagedSpadFrame.new sys s).map (Except.map .managedSpadFrame) id

/-- Drop a guard. -/
def Guard.drop (s : σ) : Guard → σ
  | .spadFrame frame => frame.drop s
  | .managedSpadFrame frame => frame.drop s

/-- A block of code, as its first statement and what comes after it. -/
inductive Block where
  | done
  | allocate (size alignment : Nat) (next : Block)
  | guarded (kind : GuardKind) (body next : Block)
  | spadScope (body next : Block)

/-- Run a block. A call that fails ends it, and drops the guards on the way. -/
def exec (sys : SpadSys σ) : Block → σ → Except SpadError Unit × σ
  | .done, s => (.ok (), s)
  | .allocate size alignment next, s =>
    match allocate sys s size alignment with
    | (.ok _, s) => exec sys next s
    | (.error e, s) => (.error e, s)
  | .guarded kind body next, s =>
    match kind.create sys s with
    | (.ok guard, s) =>
      match exec sys body s with
      | (.ok (), s) => exec sys next (guard.drop s)
      | (.error e, s) => (.error e, guard.drop s)
    | (.error e, s) => (.error e, s)
  | .spadScope body next, s =>
    match pushFrame sys s with
    | (.ok frame, s) =>
      match exec sys body (frame.drop s) with
      | (.ok (), s) => exec sys next (popFrame sys s).2
      -- the frame stays when the block is left by `?`
      | (.error e, s) => (.error e, s)
    | (.error e, s) => (.error e, s)

namespace Block

/-- The number of guards that a block creates. -/
def guards : Block → Nat
  | done => 0
  | allocate _ _ next => next.guards
  | guarded _ body next => body.guards + 1 + next.guards
  | spadScope body next => body.guards + next.guards

/-- The arguments of every allocation are good. -/
def Valid : Block → Prop
  | done => True
  | allocate size alignment next =>
    (0 < size ∧ GoodAlignment alignment) ∧ next.Valid
  | guarded _ body next => body.Valid ∧ next.Valid
  | spadScope body next => body.Valid ∧ next.Valid

/-- Scopes of guards, one after the other. -/
def ofScopes : List (GuardKind × Block) → Block
  | [] => done
  | (kind, body) :: scopes => guarded kind body (ofScopes scopes)

theorem length_le_guards (scopes : List (GuardKind × Block)) :
  scopes.length ≤ (ofScopes scopes).guards
  := by
  induction scopes with
  | nil => rfl
  | cons scope scopes ih =>
    rw [List.length_cons, ofScopes, guards]
    omega

end Block

/-- After the scope of a guard the frames and the memory in use are as before. -/
def Restores (sys : SpadSys σ) (kind : GuardKind) (body : Block) (s : σ) : Prop :=
  let after := (exec sys (.guarded kind body .done) s).2
  framesUsed sys after = framesUsed sys s ∧ memUsed sys after = memUsed sys s

/-- A block ends for want of a frame or of space. -/
def Exhausted (result : Except SpadError Unit) : Prop :=
  result = .error .tooManyFrames ∨ result = .error .insufficientSpace

section Scopes

variable {sys : SpadSys σ} {frames : σ → List Nat}

/-- A guard does not pop its frame. -/
theorem Guard.drop_eq (guard : Guard) (s : σ) :
  guard.drop s = s
  := by
  cases guard <;> rfl

/-- No guard is created when no frame is free. -/
theorem create_of_full {s : σ} (h : sys.frameFree s = 0) (kind : GuardKind) :
  kind.create sys s = (.error .tooManyFrames, s)
  := by
  have hpush : pushFrame sys s = (.error .tooManyFrames, s) := if_pos h
  cases kind with
  | spadFrame =>
    rw [GuardKind.create, hpush]
    rfl
  | managedSpadFrame =>
    rw [GuardKind.create, ManagedSpadFrame.new, hpush]
    rfl

/-- A guard that is created stands for one more frame. -/
theorem create_of_free {s : σ} (h : sys.frameFree s ≠ 0) (kind : GuardKind) :
  ∃ guard, kind.create sys s = (.ok guard, sys.push s)
  := by
  have hpush : pushFrame sys s = (.ok {}, sys.push s) := if_neg h
  cases kind with
  | spadFrame =>
    use .spadFrame {}
    rw [GuardKind.create, hpush]
    rfl
  | managedSpadFrame =>
    use .managedSpadFrame {}
    rw [GuardKind.create, ManagedSpadFrame.new, hpush]
    rfl

/-- The scope of a guard pushes a frame, and does not pop it. -/
theorem exec_guarded (kind : GuardKind) (body next : Block) (s : σ) :
  exec sys (.guarded kind body next) s
    = if sys.frameFree s = 0 then
        (.error .tooManyFrames, s)
      else
        match exec sys body (sys.push s) with
        | (.ok (), s) => exec sys next s
        | (.error e, s) => (.error e, s)
  := by
  rw [exec]
  split_ifs with h
  · rw [create_of_full h]
  · obtain ⟨guard, hguard⟩ := create_of_free h kind
    simp only [hguard, guard.drop_eq]

/-- The scope of the macro pushes a frame, and pops one when its block ends well. -/
theorem exec_spadScope (body next : Block) (s : σ) :
  exec sys (.spadScope body next) s
    = if sys.frameFree s = 0 then
        (.error .tooManyFrames, s)
      else
        match exec sys body (sys.push s) with
        | (.ok (), s) => exec sys next (popFrame sys s).2
        | (.error e, s) => (.error e, s)
  := by
  rw [exec]
  split_ifs with h
  · have hpush : pushFrame sys s = (.error .tooManyFrames, s) := if_pos h
    rw [hpush]
  · have hpush : pushFrame sys s = (.ok {}, sys.push s) := if_neg h
    rw [hpush]
    rfl

variable (hdoc : sys.Documented frames)
include hdoc

theorem frames_allocate (s : σ) (size alignment : Nat) :
  frames (allocate sys s size alignment).2 = frames s
  := by
  by_cases h : Accepts sys s size alignment
  · obtain ⟨s', heq, hleaves⟩ := allocate_of_accepts hdoc h
    rw [heq]
    apply hleaves.frames
  · obtain ⟨e, heq⟩ := bump_of_not_accepts h (sys.alloc s alignment size)
    rw [allocate, heq]
    rfl

/-- In a frame, `pop_frame` takes the innermost one away. -/
theorem popFrame_leaves {s : σ} {saved : Nat} {rest : List Nat} (h : frames s = saved :: rest) :
  sys.Leaves frames s (popFrame sys s).2 saved rest
  := by
  have hframe : sys.inFrame s := by
    rw [hdoc.inFrame, h]
    apply List.cons_ne_nil
  rw [popFrame, if_pos hframe]
  apply hdoc.pop h

/-- `pop_frame` takes one frame away of those above the frames that stay. -/
theorem suffix_popFrame {s : σ} {saved : Nat} {rest : List Nat} (h : saved :: rest <:+ frames s) :
  rest <:+ frames (popFrame sys s).2
  := by
  obtain ⟨more, hmore⟩ := h
  cases more with
  | nil =>
    rw [(popFrame_leaves hdoc hmore.symm).frames]
  | cons first more =>
    rw [(popFrame_leaves hdoc hmore.symm).frames]
    apply (List.suffix_cons _ _).trans (List.suffix_append _ _)

/-- A block keeps the frames that were there before it. -/
theorem suffix_exec (b : Block) (s : σ) :
  frames s <:+ frames (exec sys b s).2
  := by
  induction b generalizing s with
  | done => apply List.suffix_rfl
  | allocate size alignment next ih =>
    have hframes := frames_allocate hdoc s size alignment
    rw [exec]
    rcases hcase : allocate sys s size alignment with ⟨e | a, s'⟩
    all_goals rw [hcase] at hframes
    · rw [← hframes]
    · rw [← hframes]
      apply ih
  | guarded kind body next ihBody ihNext =>
    rw [exec_guarded]
    split
    case isTrue => apply List.suffix_rfl
    case isFalse hfree =>
      have hbody := ihBody (sys.push s)
      rw [(hdoc.push hfree).frames] at hbody
      have hsuffix := (List.suffix_cons _ _).trans hbody
      rcases hcase : exec sys body (sys.push s) with ⟨e | ⟨⟩, s'⟩
      all_goals rw [hcase] at hsuffix
      · apply hsuffix
      · apply hsuffix.trans (ihNext s')
  | spadScope body next ihBody ihNext =>
    rw [exec_spadScope]
    split
    case isTrue => apply List.suffix_rfl
    case isFalse hfree =>
      have hbody := ihBody (sys.push s)
      rw [(hdoc.push hfree).frames] at hbody
      rcases hcase : exec sys body (sys.push s) with ⟨e | ⟨⟩, s'⟩
      all_goals rw [hcase] at hbody
      · apply (List.suffix_cons _ _).trans hbody
      · apply (suffix_popFrame hdoc hbody).trans (ihNext _)

/-- A block in a new frame keeps that frame. -/
theorem suffix_exec_push {s : σ} (hfree : sys.frameFree s ≠ 0) (b : Block) :
  sys.memUsed s :: frames s <:+ frames (exec sys b (sys.push s)).2
  := by
  rw [← (hdoc.push hfree).frames]
  apply suffix_exec hdoc

/-- A block that ends well leaves a frame for each guard. -/
theorem length_exec (b : Block) (s : σ) (hok : (exec sys b s).1 = .ok ()) :
  (frames (exec sys b s).2).length = (frames s).length + b.guards
  := by
  induction b generalizing s with
  | done => rfl
  | allocate size alignment next ih =>
    have hframes := frames_allocate hdoc s size alignment
    rw [exec] at hok ⊢
    rcases hcase : allocate sys s size alignment with ⟨e | a, s'⟩
    all_goals rw [hcase] at hok hframes
    · cases hok
    · rw [← hframes]
      apply ih s' hok
  | guarded kind body next ihBody ihNext =>
    rw [exec_guarded] at hok ⊢
    split at hok
    case isTrue => cases hok
    case isFalse hfree =>
      have hbody := ihBody (sys.push s)
      rw [(hdoc.push hfree).frames, List.length_cons] at hbody
      rw [if_neg hfree]
      rcases hcase : exec sys body (sys.push s) with ⟨e | ⟨⟩, s'⟩
      all_goals rw [hcase] at hok hbody
      · cases hok
      · have hnext := ihNext s' hok
        rw [hbody rfl] at hnext
        apply hnext.trans
        rw [Block.guards]
        omega
  | spadScope body next ihBody ihNext =>
    rw [exec_spadScope] at hok ⊢
    split at hok
    case isTrue => cases hok
    case isFalse hfree =>
      have hbody := ihBody (sys.push s)
      rw [(hdoc.push hfree).frames, List.length_cons] at hbody
      rw [if_neg hfree]
      rcases hcase : exec sys body (sys.push s) with ⟨e | ⟨⟩, s'⟩
      all_goals rw [hcase] at hok hbody
      · cases hok
      · have hlength := hbody rfl
        have hnext := ihNext _ hok
        cases hframes : frames s' with
        | nil =>
          rw [hframes, List.length_nil] at hlength
          omega
        | cons saved rest =>
          rw [hframes, List.length_cons] at hlength
          rw [(popFrame_leaves hdoc hframes).frames] at hnext
          apply hnext.trans
          rw [Block.guards]
          omega

/-- In a frame, a block with good arguments ends well unless a frame or space is missing. -/
theorem exec_valid (b : Block) (s : σ) (hvalid : b.Valid) (hframe : frames s ≠ []) :
  (exec sys b s).1 = .ok () ∨ Exhausted (exec sys b s).1
  := by
  induction b generalizing s with
  | done =>
    left
    rfl
  | allocate size alignment next ih =>
    obtain ⟨⟨hsize, halign⟩, hnext⟩ := hvalid
    have hframes := frames_allocate hdoc s size alignment
    rw [exec]
    by_cases haccepts : Accepts sys s size alignment
    · obtain ⟨s', heq, hleaves⟩ := allocate_of_accepts hdoc haccepts
      rw [heq]
      apply ih s' hnext
      rw [hleaves.frames]
      apply hframe
    · rw [allocate, bump_of_no_room hsize halign ((hdoc.inFrame s).mpr hframe) haccepts]
      right; right
      rfl
  | guarded kind body next ihBody ihNext =>
    rw [exec_guarded]
    split
    case isTrue =>
      right; left
      rfl
    case isFalse hfree =>
      have hpush := (hdoc.push hfree).frames
      have hbody := ihBody (sys.push s) hvalid.1 (hpush ▸ List.cons_ne_nil _ _)
      have hsuffix := suffix_exec_push hdoc hfree body
      rcases hcase : exec sys body (sys.push s) with ⟨e | ⟨⟩, s'⟩
      all_goals rw [hcase] at hbody hsuffix
      · apply hbody
      · apply ihNext s' hvalid.2
        apply hsuffix.ne_nil (List.cons_ne_nil _ _)
  | spadScope body next ihBody ihNext =>
    rw [exec_spadScope]
    split
    case isTrue =>
      right; left
      rfl
    case isFalse hfree =>
      have hpush := (hdoc.push hfree).frames
      have hbody := ihBody (sys.push s) hvalid.1 (hpush ▸ List.cons_ne_nil _ _)
      have hsuffix := suffix_exec_push hdoc hfree body
      rcases hcase : exec sys body (sys.push s) with ⟨e | ⟨⟩, s'⟩
      all_goals rw [hcase] at hbody hsuffix
      · apply hbody
      · apply ihNext _ hvalid.2
        apply (suffix_popFrame hdoc hsuffix).ne_nil hframe

/-- The scope of a guard that is created ends with more frames than there were. -/
theorem framesUsed_guarded {s : σ} (hfree : sys.frameFree s ≠ 0) (kind : GuardKind)
    (body next : Block) :
  framesUsed sys s < framesUsed sys (exec sys (.guarded kind body next) s).2
  := by
  have hsuffix := suffix_exec_push hdoc hfree body
  rw [framesUsed, framesUsed, hdoc.frameUsed, hdoc.frameUsed, exec_guarded, if_neg hfree]
  rcases hcase : exec sys body (sys.push s) with ⟨e | ⟨⟩, s'⟩
  all_goals rw [hcase] at hsuffix
  · apply hsuffix.length_le
  · apply (hsuffix.trans (suffix_exec hdoc next s')).length_le

/-- Exactly when no frame is free, so that no guard is created, is everything as before. -/
theorem restores_iff (kind : GuardKind) (body : Block) (s : σ) :
  Restores sys kind body s ↔ sys.frameFree s = 0
  := by
  constructor
  · intro h
    by_contra hfree
    apply (framesUsed_guarded hdoc hfree kind body .done).ne' h.1
  · intro hfull
    rw [Restores, exec_guarded, if_pos hfull]
    exact ⟨rfl, rfl⟩

/-- Scopes with good arguments end well unless a frame or space is missing. -/
theorem exec_ofScopes {scopes : List (GuardKind × Block)}
    (hvalid : ∀ scope ∈ scopes, scope.2.Valid) (s : σ) :
  (exec sys (.ofScopes scopes) s).1 = .ok () ∨ Exhausted (exec sys (.ofScopes scopes) s).1
  := by
  induction scopes generalizing s with
  | nil =>
    left
    rfl
  | cons scope scopes ih =>
    obtain ⟨hbody, hscopes⟩ := List.forall_mem_cons.mp hvalid
    rw [Block.ofScopes, exec_guarded]
    split
    case isTrue =>
      right; left
      rfl
    case isFalse hfree =>
      have hpush := (hdoc.push hfree).frames
      have hresult := exec_valid hdoc scope.2 (sys.push s) hbody (hpush ▸ List.cons_ne_nil _ _)
      rcases hcase : exec sys scope.2 (sys.push s) with ⟨e | ⟨⟩, s'⟩
      all_goals rw [hcase] at hresult
      · apply hresult
      · apply ih hscopes

/-- After the scope of a guard that is created there is a frame more than before, so that nothing is
restored; and more scopes than frames are free, one after the other, end for want of a frame or of
space. -/
theorem guard_restores_iff (s : σ) :
  (∀ kind body, Restores sys kind body s ↔ sys.frameFree s = 0)
    ∧ ∀ scopes : List (GuardKind × Block), (∀ scope ∈ scopes, scope.2.Valid) →
      sys.frameFree s < scopes.length → Exhausted (exec sys (.ofScopes scopes) s).1
  := by
  constructor
  · exact fun kind body => restores_iff hdoc kind body s
  · intro scopes hvalid hlength
    apply (exec_ofScopes hdoc hvalid s).resolve_left
    intro hok
    have hframes := length_exec hdoc (.ofScopes scopes) s hok
    have hguards := Block.length_le_guards scopes
    rw [← hdoc.frameUsed, ← hdoc.frameUsed] at hframes
    have hbefore := hdoc.frameFree s
    have hafter := hdoc.frameFree (exec sys (.ofScopes scopes) s).2
    omega

/-- The macro pops its frame: a block without guards that ends well is restored. -/
theorem spadScope_restores {body : Block} {s : σ} (hguards : body.guards = 0)
    (hok : (exec sys (.spadScope body .done) s).1 = .ok ()) :
  let after := (exec sys (.spadScope body .done) s).2
  framesUsed sys after = framesUsed sys s ∧ memUsed sys after = memUsed sys s
  := by
  rw [exec_spadScope] at hok ⊢
  split at hok
  case isTrue => cases hok
  case isFalse hfree =>
    have hsuffix := suffix_exec_push hdoc hfree body
    have hlength := length_exec hdoc body (sys.push s)
    rw [if_neg hfree]
    rcases hcase : exec sys body (sys.push s) with ⟨e | ⟨⟩, s'⟩
    all_goals rw [hcase] at hok hsuffix hlength
    · cases hok
    · have hframes : sys.memUsed s :: frames s = frames s' := by
        apply hsuffix.eq_of_length
        rw [hlength rfl, (hdoc.push hfree).frames, hguards]
        rfl
      have hpop := popFrame_leaves hdoc hframes.symm
      constructor
      · change sys.frameUsed (popFrame sys s').2 = sys.frameUsed s
        rw [hdoc.frameUsed, hdoc.frameUsed, hpop.frames]
      · apply hpop.memUsed

end Scopes

/-- A spad of 128 frames does not last for 129 scopes. -/
theorem guard_restores_iff_replicate :
  Exhausted (exec Pad.sys
    (.ofScopes (List.replicate 129 (.managedSpadFrame, .allocate 16 16 .done))) .empty).1
  := by
  apply (guard_restores_iff Pad.sys_documented .empty).2
  · intro scope hscope
    obtain rfl := List.eq_of_mem_replicate hscope
    exact ⟨⟨by decide, fun _ => ⟨4, rfl⟩⟩, trivial⟩
  · rw [List.length_replicate]
    decide

/-- A frame is pushed, something is allocated, and the guard is dropped. -/
theorem not_guard_restores :
  ¬ Restores Pad.sys .spadFrame (.allocate 1024 64 .done) .empty
  := by
  rintro ⟨hframes, -⟩
  cases hframes

end FdSpad

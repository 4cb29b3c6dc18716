import FiredancerRs.Lib.Checked
import FiredancerRs.Lib.Tiling

/-!
# Partitions of a task range

`partition::partition_range` of `fd_tpool`. `none` is the panic of an operation on `usize` that
is out of range. The ranges of the workers are the intervals between consecutive values of a
monotone sequence (`partitionRange_eq`), and so they tile the task range.
-/

namespace FdTpool

/-- `partition::partition_range` -/
def partitionRange (taskStart taskEnd laneCount workerIdx workerCount : UInt64) :
    Option (UInt64 × UInt64) :=
  if workerIdx ≥ workerCount ∨ taskStart ≥ taskEnd ∨ laneCount = 0 then
    some (taskStart, taskStart)
  else do
    let taskCount ← Checked.sub taskEnd taskStart
    let blockCount ← Checked.div taskCount laneCount
    let blockRemainder ← Checked.mod taskCount laneCount
    let workerBlockMin ← Checked.div blockCount workerCount
    let workerExtraCount ← Checked.mod blockCount workerCount
    let extraBlocks := if workerIdx < workerExtraCount then 1 else 0
    let workerBlocks ← Checked.add workerBlockMin extraBlocks
    let minBlocks ← Checked.mul workerBlockMin workerIdx
    let startBlocks ← Checked.add minBlocks (min workerIdx workerExtraCount)
    let startTasks ← Checked.mul laneCount startBlocks
    let workerStart ← Checked.add taskStart startTasks
    let workerTasks ← Checked.mul laneCount workerBlocks
    let workerEnd ← Checked.add workerStart workerTasks
    let lastIdx ← Checked.sub workerCount 1
    if workerIdx = lastIdx then do
      let workerEnd ← Checked.add workerEnd blockRemainder
      some (workerStart, min workerEnd taskEnd)
    else
      some (workerStart, min workerEnd taskEnd)

/-! ### The bounds of the ranges -/

section Bounds

/-- The number of blocks before a worker, when `blocks` blocks are shared by `workers`. -/
def blocksBefore (blocks workers i : Nat) : Nat := blocks / workers * i + min i (blocks % workers)

/-- The bound between the range of a worker and the range of the one before it. -/
def bound (start stop lane workers i : Nat) : Nat :=
  if i < workers then start + lane * blocksBefore ((stop - start) / lane) workers i else stop

variable {blocks workers i : Nat}

theorem blocksBefore_succ (blocks workers i : Nat) :
  blocksBefore blocks workers (i + 1)
    = blocksBefore blocks workers i
      + (blocks / workers + if i < blocks % workers then 1 else 0)
  := by
  rw [blocksBefore, blocksBefore, Nat.mul_succ]
  split <;> omega

theorem blocksBefore_monotone (blocks workers : Nat) :
  Monotone (blocksBefore blocks workers)
  := by
  apply monotone_nat_of_le_succ
  intro i
  rw [blocksBefore_succ]
  apply Nat.le_add_right

theorem blocksBefore_workers (h : 0 < workers) :
  blocksBefore blocks workers workers = blocks
  := by
  rw [blocksBefore, Nat.min_eq_right (Nat.le_of_lt (Nat.mod_lt _ h)), Nat.mul_comm,
    Nat.div_add_mod]

theorem blocksBefore_le (h : i ≤ workers) (hpos : 0 < workers) :
  blocksBefore blocks workers i ≤ blocks
  := by
  have hle := blocksBefore_monotone blocks workers h
  rwa [blocksBefore_workers hpos] at hle

variable {start stop lane : Nat}

theorem bound_of_lt (h : i < workers) :
  bound start stop lane workers i
    = start + lane * blocksBefore ((stop - start) / lane) workers i
  := if_pos h

theorem bound_zero (h : 0 < workers) :
  bound start stop lane workers 0 = start
  := by
  rw [bound_of_lt h, blocksBefore]
  simp

theorem bound_workers (start stop lane workers : Nat) :
  bound start stop lane workers workers = stop
  := if_neg (Nat.lt_irrefl workers)

/-- The blocks before a worker are in the task range. -/
theorem mul_blocksBefore_le (hle : start ≤ stop) (h : i ≤ workers) (hpos : 0 < workers) :
  start + lane * blocksBefore ((stop - start) / lane) workers i ≤ stop
  := by
  have hbefore : blocksBefore ((stop - start) / lane) workers i ≤ (stop - start) / lane :=
    blocksBefore_le h hpos
  have hblocks := Nat.mul_le_mul_left lane hbefore
  have htasks := Nat.mul_div_le (stop - start) lane
  omega

theorem bound_monotone (hle : start ≤ stop) :
  Monotone (bound start stop lane workers)
  := by
  apply monotone_nat_of_le_succ
  intro i
  by_cases hi : i < workers
  · rw [bound_of_lt hi]
    by_cases hsucc : i + 1 < workers
    · have hblocks := blocksBefore_monotone ((stop - start) / lane) workers (Nat.le_succ i)
      rw [bound_of_lt hsucc]
      apply Nat.add_le_add_left (Nat.mul_le_mul_left lane hblocks)
    · rw [bound, if_neg hsucc]
      apply mul_blocksBefore_le hle (Nat.le_of_lt hi) (Nat.zero_lt_of_lt hi)
  · rw [bound, bound, if_neg hi, if_neg (by omega)]

/-- An empty task range has only one bound. -/
theorem bound_of_eq (start lane : Nat) (h : i ≤ workers) (hpos : 0 < workers) :
  bound start start lane workers i = start
  := by
  have hmono : Monotone (bound start start lane workers) := bound_monotone (Nat.le_refl start)
  apply Nat.le_antisymm
  · have hle := hmono h
    rwa [bound_workers] at hle
  · have hle := hmono (Nat.zero_le i)
    rwa [bound_zero hpos] at hle

/-- The whole blocks in the range of a worker. -/
theorem bound_sub_div (hle : start ≤ stop) (hlane : 0 < lane) (hi : i < workers) :
  (bound start stop lane workers (i + 1) - bound start stop lane workers i) / lane
    = (stop - start) / lane / workers + if i < (stop - start) / lane % workers then 1 else 0
  := by
  have hmul := congrArg (lane * ·) (blocksBefore_succ ((stop - start) / lane) workers i)
  simp only [Nat.mul_add lane (blocksBefore _ _ _)] at hmul
  by_cases hsucc : i + 1 < workers
  · rw [bound_of_lt hi, bound_of_lt hsucc, Nat.add_sub_add_left, hmul, Nat.add_sub_cancel_left,
      Nat.mul_div_cancel_left _ hlane]
  · -- the tasks after the last block are fewer than a block
    have hlast : i + 1 = workers := by omega
    have hsum := Nat.div_add_mod (stop - start) lane
    have hrest := Nat.mod_lt (stop - start) hlane
    rw [hlast, blocksBefore_workers (Nat.zero_lt_of_lt hi)] at hmul
    have hown : stop - (start + lane * blocksBefore ((stop - start) / lane) workers i)
        = lane * ((stop - start) / lane / workers
            + if i < (stop - start) / lane % workers then 1 else 0)
          + (stop - start) % lane := by
      omega
    rw [hlast, bound_workers, bound_of_lt hi, hown, Nat.mul_add_div hlane,
      Nat.div_eq_of_lt hrest, Nat.add_zero]

end Bounds

variable {taskStart taskEnd laneCount workerIdx workerCount : UInt64}

theorem partitionRange_idle (h : workerCount ≤ workerIdx) :
  partitionRange taskStart taskEnd laneCount workerIdx workerCount = some (taskStart, taskStart)
  := if_pos (.inl h)

theorem partitionRange_empty (h : taskEnd ≤ taskStart) :
  partitionRange taskStart taskEnd laneCount workerIdx workerCount = some (taskStart, taskStart)
  := if_pos (.inr (.inl h))

/-- The blocks a worker has besides those every worker has. -/
theorem toNat_extraBlocks (workerIdx workerExtraCount : UInt64) :
  (if workerIdx < workerExtraCount then (1 : UInt64) else 0).toNat
    = if workerIdx.toNat < workerExtraCount.toNat then 1 else 0
  := by
  simp only [UInt64.lt_iff_toNat_lt]
  split
  · rfl
  · rfl

/-- No operation is out of range, and the range of a worker is the interval between two
consecutive bounds. -/
theorem partitionRange_eq (hle : taskStart ≤ taskEnd) (hlane : 1 ≤ laneCount)
    (hi : workerIdx < workerCount) :
  ∃ range, partitionRange taskStart taskEnd laneCount workerIdx workerCount = some range
    ∧ range.1.toNat = bound taskStart.toNat taskEnd.toNat laneCount.toNat workerCount.toNat
        workerIdx.toNat
    ∧ range.2.toNat = bound taskStart.toNat taskEnd.toNat laneCount.toNat workerCount.toNat
        (workerIdx.toNat + 1)
  := by
  rw [UInt64.le_iff_toNat_le] at hle hlane
  have hi' := UInt64.lt_iff_toNat_lt.mp hi
  have hpos : 0 < workerCount.toNat := Nat.zero_lt_of_lt hi'
  by_cases hempty : taskEnd ≤ taskStart
  · have heq : taskEnd.toNat = taskStart.toNat :=
      Nat.le_antisymm (UInt64.le_iff_toNat_le.mp hempty) hle
    use (taskStart, taskStart), partitionRange_empty hempty
    rw [heq]
    constructor
    · rw [bound_of_eq _ _ (Nat.le_of_lt hi') hpos]
    · rw [bound_of_eq _ _ hi' hpos]
  have hsome : ¬ (workerIdx ≥ workerCount ∨ taskStart ≥ taskEnd ∨ laneCount = 0) := by
    rintro (hidle | hempty' | rfl)
    · exact absurd (UInt64.le_iff_toNat_le.mp hidle) (Nat.not_le.mpr hi')
    · apply hempty hempty'
    · cases hlane
  have hstop := taskEnd.toNat_lt
  obtain ⟨taskCount, htaskCount, htasks⟩ := Checked.sub_spec hle
  obtain ⟨blockCount, hblockCount, hblocks⟩ := Checked.div_spec (a := taskCount) hlane
  obtain ⟨blockRemainder, hblockRemainder, hremainder⟩ := Checked.mod_spec (a := taskCount) hlane
  obtain ⟨workerBlockMin, hworkerBlockMin, hmin⟩ := Checked.div_spec (a := blockCount) hpos
  obtain ⟨workerExtraCount, hworkerExtraCount, hextra⟩ := Checked.mod_spec (a := blockCount) hpos
  -- the blocks before the worker, its own and the ones before the next worker
  have hsucc := blocksBefore_succ blockCount.toNat workerCount.toNat workerIdx.toNat
  have hnext : blocksBefore blockCount.toNat workerCount.toNat (workerIdx.toNat + 1)
      ≤ blockCount.toNat := blocksBefore_le hi' hpos
  have hcount : blockCount.toNat ≤ taskEnd.toNat - taskStart.toNat := by
    rw [hblocks, htasks]
    apply Nat.div_le_self
  have hall : taskStart.toNat + laneCount.toNat
      * blocksBefore ((taskEnd.toNat - taskStart.toNat) / laneCount.toNat) workerCount.toNat
        (workerIdx.toNat + 1) ≤ taskEnd.toNat := mul_blocksBefore_le hle hi' hpos
  rw [← htasks, ← hblocks] at hall
  have hone := toNat_extraBlocks workerIdx workerExtraCount
  rw [hextra] at hone
  have hbefore : workerBlockMin.toNat * workerIdx.toNat
      + (min workerIdx workerExtraCount).toNat
        = blocksBefore blockCount.toNat workerCount.toNat workerIdx.toNat := by
    rw [Checked.toNat_min, hmin, hextra, blocksBefore]
  obtain ⟨workerBlocks, hworkerBlocks, hown⟩ :=
    Checked.add_spec (a := workerBlockMin)
      (b := if workerIdx < workerExtraCount then 1 else 0) (by rw [hone, hmin]; omega)
  rw [hone, hmin] at hown
  obtain ⟨minBlocks, hminBlocks, hminBlocks'⟩ :=
    Checked.mul_spec (a := workerBlockMin) (b := workerIdx) (by omega)
  obtain ⟨startBlocks, hstartBlocks, hstartBlocks'⟩ :=
    Checked.add_spec (a := minBlocks) (b := min workerIdx workerExtraCount)
      (by rw [hminBlocks']; omega)
  rw [hminBlocks', hbefore] at hstartBlocks'
  have hmul : laneCount.toNat * blocksBefore blockCount.toNat workerCount.toNat
      (workerIdx.toNat + 1)
        = laneCount.toNat * startBlocks.toNat + laneCount.toNat * workerBlocks.toNat := by
    rw [hsucc, ← hown, ← hstartBlocks', Nat.mul_add]
  rw [hmul] at hall
  obtain ⟨startTasks, hstartTasks, hstartTasks'⟩ :=
    Checked.mul_spec (a := laneCount) (b := startBlocks) (by omega)
  obtain ⟨workerStart, hworkerStart, hstart⟩ :=
    Checked.add_spec (a := taskStart) (b := startTasks) (by omega)
  obtain ⟨workerTasks, hworkerTasks, hworkerTasks'⟩ :=
    Checked.mul_spec (a := laneCount) (b := workerBlocks) (by omega)
  obtain ⟨workerEnd, hworkerEnd, hend⟩ :=
    Checked.add_spec (a := workerStart) (b := workerTasks) (by omega)
  obtain ⟨lastIdx, hlastIdx, hlast⟩ := Checked.sub_spec (a := workerCount) (b := 1) hpos
  rw [partitionRange, if_neg hsome, Checked.bind_of_eq_some htaskCount,
    Checked.bind_of_eq_some hblockCount, Checked.bind_of_eq_some hblockRemainder,
    Checked.bind_of_eq_some hworkerBlockMin, Checked.bind_of_eq_some hworkerExtraCount,
    Checked.bind_of_eq_some hworkerBlocks, Checked.bind_of_eq_some hminBlocks,
    Checked.bind_of_eq_some hstartBlocks, Checked.bind_of_eq_some hstartTasks,
    Checked.bind_of_eq_some hworkerStart, Checked.bind_of_eq_some hworkerTasks,
    Checked.bind_of_eq_some hworkerEnd, Checked.bind_of_eq_some hlastIdx]
  have hlow : workerStart.toNat = bound taskStart.toNat taskEnd.toNat laneCount.toNat
      workerCount.toNat workerIdx.toNat := by
    rw [bound_of_lt hi', ← htasks, ← hblocks, ← hstartBlocks', hstart, hstartTasks']
  by_cases hlastWorker : workerIdx = lastIdx
  · -- the tasks after the last block are those of the last worker
    have hsum := Nat.div_add_mod taskCount.toNat laneCount.toNat
    rw [← hblocks, ← hremainder] at hsum
    have hend' : workerIdx.toNat + 1 = workerCount.toNat := by
      rw [hlastWorker, hlast]
      apply Nat.sub_add_cancel hpos
    rw [hend', blocksBefore_workers hpos] at hmul
    obtain ⟨workerEnd', hworkerEnd', hstop'⟩ :=
      Checked.add_spec (a := workerEnd) (b := blockRemainder) (by omega)
    rw [if_pos hlastWorker, Checked.bind_of_eq_some hworkerEnd']
    refine ⟨_, rfl, hlow, ?_⟩
    rw [hend', bound_workers, Checked.toNat_min]
    omega
  · have hnotLast : workerIdx.toNat + 1 < workerCount.toNat := by
      rw [← UInt64.toNat_inj, hlast] at hlastWorker
      change ¬ workerIdx.toNat = workerCount.toNat - 1 at hlastWorker
      omega
    rw [if_neg hlastWorker]
    refine ⟨_, rfl, hlow, ?_⟩
    rw [bound_of_lt hnotLast, ← htasks, ← hblocks, hmul, Checked.toNat_min]
    omega

/-- There is one index below the number of workers that has a property when there is one number. -/
theorem existsUnique_toNat {p : Nat → Prop} (workerCount : UInt64)
    (hlt : ∀ k, p k → k < workerCount.toNat) :
  (∃! k, p k) ↔ ∃! i : UInt64, p i.toNat
  := by
  have hnat {k : Nat} (hk : p k) : (UInt64.ofNat k).toNat = k :=
    UInt64.toNat_ofNat_of_lt' (Nat.lt_trans (hlt k hk) workerCount.toNat_lt)
  constructor
  · rintro ⟨k, hk, hunique⟩
    use UInt64.ofNat k
    constructor
    · dsimp only
      rwa [hnat hk]
    · intro j hj
      rw [← UInt64.toNat_inj, hnat hk]
      apply hunique _ hj
  · rintro ⟨i, hi, hunique⟩
    use i.toNat, hi
    intro k hk
    have hj : UInt64.ofNat k = i := by
      apply hunique
      rwa [hnat hk]
    rw [← hj, hnat hk]

/-- The ranges of the workers tile the task range, in blocks of a lane. -/
structure Tiles (taskStart taskEnd laneCount workerCount : UInt64)
    (range : UInt64 → UInt64 × UInt64) : Prop where
  first : (range 0).1 = taskStart
  last : (range (workerCount - 1)).2 = taskEnd
  consecutive : ∀ i, i.toNat + 1 < workerCount.toNat → (range i).2 = (range (i + 1)).1
  ordered : ∀ i, (range i).1 ≤ (range i).2
  covers : ∀ t, (taskStart ≤ t ∧ t < taskEnd) ↔ ∃! i, (range i).1 ≤ t ∧ t < (range i).2
  aligned : ∀ i, (range i).1 < (range i).2 →
    laneCount.toNat ∣ (range i).1.toNat - taskStart.toNat
  balanced : ∀ i j, i < workerCount → j < workerCount →
    ((range i).2.toNat - (range i).1.toNat) / laneCount.toNat
      ≤ ((range j).2.toNat - (range j).1.toNat) / laneCount.toNat + 1
  idle : ∀ i, workerCount ≤ i → (range i).1 = (range i).2

/-- For at least one lane and one worker, no operation of `partition_range` is out of range, and
the ranges it returns tile the task range. -/
theorem partitionRange_tiles (hle : taskStart ≤ taskEnd) (hlane : 1 ≤ laneCount)
    (hworkers : 1 ≤ workerCount) :
  ∃ range, (∀ i, partitionRange taskStart taskEnd laneCount i workerCount = some (range i))
    ∧ Tiles taskStart taskEnd laneCount workerCount range
  := by
  have hsome (i : UInt64) : ∃ range,
      partitionRange taskStart taskEnd laneCount i workerCount = some range := by
    by_cases hi : i < workerCount
    · obtain ⟨range, hrange, -⟩ := partitionRange_eq hle hlane hi
      exact ⟨range, hrange⟩
    · exact ⟨_, partitionRange_idle (UInt64.not_lt.mp hi)⟩
  choose range hrange using hsome
  use range, hrange
  have hbound {i : UInt64} (hi : i < workerCount) :
      (range i).1.toNat = bound taskStart.toNat taskEnd.toNat laneCount.toNat workerCount.toNat
          i.toNat
        ∧ (range i).2.toNat = bound taskStart.toNat taskEnd.toNat laneCount.toNat
            workerCount.toNat (i.toNat + 1) := by
    obtain ⟨range', hrange', hbounds⟩ := partitionRange_eq hle hlane hi
    obtain rfl := Option.some.inj ((hrange i).symm.trans hrange')
    apply hbounds
  have hidle {i : UInt64} (hi : workerCount ≤ i) : range i = (taskStart, taskStart) :=
    Option.some.inj ((hrange i).symm.trans (partitionRange_idle hi))
  have hle' := UInt64.le_iff_toNat_le.mp hle
  have hlane' : 0 < laneCount.toNat := UInt64.le_iff_toNat_le.mp hlane
  have hpos : 0 < workerCount.toNat := UInt64.le_iff_toNat_le.mp hworkers
  have hmono : Monotone (bound taskStart.toNat taskEnd.toNat laneCount.toNat
      workerCount.toNat) := bound_monotone hle'
  have hone : (workerCount - 1).toNat = workerCount.toNat - 1 :=
    UInt64.toNat_sub_of_le _ _ hworkers
  constructor
  case first =>
    have hzero : (0 : UInt64) < workerCount := UInt64.lt_iff_toNat_lt.mpr hpos
    rw [← UInt64.toNat_inj, (hbound hzero).1]
    apply bound_zero hpos
  case last =>
    have hlast : workerCount - 1 < workerCount := by
      rw [UInt64.lt_iff_toNat_lt, hone]
      apply Nat.sub_lt hpos Nat.one_pos
    rw [← UInt64.toNat_inj, (hbound hlast).2, hone, Nat.sub_add_cancel hpos]
    apply bound_workers
  case consecutive =>
    intro i hi
    have hsucc : (i + 1).toNat = i.toNat + 1 := by
      have hlt := workerCount.toNat_lt
      rw [UInt64.toNat_add, UInt64.toNat_one]
      apply Nat.mod_eq_of_lt (by omega)
    have hlt : i < workerCount := UInt64.lt_iff_toNat_lt.mpr (Nat.lt_of_succ_lt hi)
    have hlt' : i + 1 < workerCount := by rwa [UInt64.lt_iff_toNat_lt, hsucc]
    rw [← UInt64.toNat_inj, (hbound hlt).2, (hbound hlt').1, hsucc]
  case ordered =>
    intro i
    by_cases hi : i < workerCount
    · rw [UInt64.le_iff_toNat_le, (hbound hi).1, (hbound hi).2]
      apply hmono (Nat.le_succ _)
    · rw [hidle (UInt64.not_lt.mp hi)]
      apply UInt64.le_refl
  case covers =>
    intro t
    have htile := Tiling.existsUnique_mem_Ico hmono workerCount.toNat t.toNat
    rw [bound_zero hpos, bound_workers] at htile
    have hmem (i : UInt64) : ((range i).1 ≤ t ∧ t < (range i).2)
        ↔ i.toNat < workerCount.toNat
          ∧ t.toNat ∈ Set.Ico
            (bound taskStart.toNat taskEnd.toNat laneCount.toNat workerCount.toNat i.toNat)
            (bound taskStart.toNat taskEnd.toNat laneCount.toNat workerCount.toNat
              (i.toNat + 1)) := by
      by_cases hi : i < workerCount
      · have hi' := UInt64.lt_iff_toNat_lt.mp hi
        rw [UInt64.le_iff_toNat_le, UInt64.lt_iff_toNat_lt, (hbound hi).1, (hbound hi).2]
        simp [hi']
      · have hi' : ¬ i.toNat < workerCount.toNat := fun hlt =>
          hi (UInt64.lt_iff_toNat_lt.mpr hlt)
        rw [hidle (UInt64.not_lt.mp hi)]
        simp only [hi', false_and, iff_false]
        rintro ⟨hle, hlt⟩
        apply UInt64.not_lt.mpr hle hlt
    rw [Set.mem_Ico] at htile
    rw [UInt64.le_iff_toNat_le, UInt64.lt_iff_toNat_lt, htile]
    simp only [hmem]
    apply existsUnique_toNat workerCount
    exact fun k hk => hk.1
  case aligned =>
    intro i hlt
    by_cases hi : i < workerCount
    · rw [(hbound hi).1, bound_of_lt (UInt64.lt_iff_toNat_lt.mp hi), Nat.add_sub_cancel_left]
      apply Nat.dvd_mul_right
    · rw [hidle (UInt64.not_lt.mp hi)] at hlt
      exact absurd hlt (UInt64.lt_irrefl _)
  case balanced =>
    intro i j hi hj
    rw [(hbound hi).1, (hbound hi).2, (hbound hj).1, (hbound hj).2,
      bound_sub_div hle' hlane' (UInt64.lt_iff_toNat_lt.mp hi),
      bound_sub_div hle' hlane' (UInt64.lt_iff_toNat_lt.mp hj)]
    split <;> omega
  case idle =>
    intro i hi
    rw [hidle hi]

theorem partitionRange_tiles_ten :
  ∃ range, (∀ i, partitionRange 3 13 4 i 3 = some (range i)) ∧ Tiles 3 13 4 3 range
  := partitionRange_tiles (by decide) (by decide) (by decide)

example : partitionRange 3 13 4 2 3 = some (11, 13) := by decide

end FdTpool

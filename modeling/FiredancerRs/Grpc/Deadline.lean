import FiredancerRs.Lib.Checked

/-!
# Deadlines

The function `duration_to_deadline_nanos` of `fd_grpc::utils`. A `Duration` has more nanoseconds
than a word with a sign holds, and the count is narrowed before it is added to the present time. The
deadline is the right one exactly when the count is not changed by that, or when what is left of it
still reaches the end of the range (`meetsDeadline_iff`).
-/

namespace FdGrpc

/-- `Duration` -/
structure Duration where
  secs : UInt64
  nanos : UInt32
  nanos_lt : nanos.toNat < 1000000000

namespace Duration

/-- The order of durations: by seconds, then by nanoseconds. -/
instance : LE Duration where
  le d d' := d.secs < d'.secs ∨ d.secs = d'.secs ∧ d.nanos ≤ d'.nanos

/-- `Duration::as_nanos` -/
def asNanos (d : Duration) : Nat := d.secs.toNat * 1000000000 + d.nanos.toNat

/-- `Duration::MAX` -/
def max : Duration := ⟨18446744073709551615, 999999999, by decide⟩

/-- The nanoseconds of a duration fit into the type `u128`. -/
theorem asNanos_lt (d : Duration) :
  d.asNanos < 2 ^ 128
  := by
  have hsecs := d.secs.toNat_lt
  have hnanos := d.nanos_lt
  rw [asNanos]
  omega

/-- A longer duration has more nanoseconds. -/
theorem asNanos_mono {d d' : Duration} (h : d ≤ d') :
  d.asNanos ≤ d'.asNanos
  := by
  have hnanos := d.nanos_lt
  rw [asNanos, asNanos]
  obtain hlt | ⟨heq, hle⟩ := h
  · rw [UInt64.lt_iff_toNat_lt] at hlt
    omega
  · rw [UInt32.le_iff_toNat_le] at hle
    rw [heq]
    omega

end Duration

/-- `duration_to_deadline_nanos` at the time that `current_time_nanos` returns -/
def durationToDeadlineNanos (now : Int64) (duration : Duration) : Int64 :=
  Checked.saturatingAdd now (Int64.ofNat duration.asNanos)

/-- The deadline of a duration is that many nanoseconds after the present time, as far as the type
goes; it is not in the past, and no shorter duration has a later one. -/
structure MeetsDeadline (now : Int64) (d : Duration) : Prop where
  exact : (durationToDeadlineNanos now d).toInt = min (now.toInt + d.asNanos) (2 ^ 63 - 1)
  future : now.toInt ≤ (durationToDeadlineNanos now d).toInt
  mono : ∀ d' ≤ d, (durationToDeadlineNanos now d').toInt ≤ (durationToDeadlineNanos now d).toInt

/-- The nanoseconds of a duration are a number with a sign, or leave one without a sign that
reaches the end of the range from the present time. -/
def Narrows (now : Int64) (d : Duration) : Prop :=
  d.asNanos < 2 ^ 63
    ∨ d.asNanos % 2 ^ 64 < 2 ^ 63 ∧ (2 ^ 63 - 1 : Int) ≤ now.toInt + (d.asNanos % 2 ^ 64 : Nat)

/-- What is left of the nanoseconds of a duration as a word with a sign. -/
theorem toInt_ofNat_asNanos (d : Duration) :
  (Int64.ofNat d.asNanos).toInt
    = if d.asNanos % 2 ^ 64 < 2 ^ 63 then ((d.asNanos % 2 ^ 64 : Nat) : Int)
      else (d.asNanos % 2 ^ 64 : Nat) - 2 ^ 64
  := by
  have hsize : Int64.size = 2 ^ 64 := rfl
  rw [Int64.toInt_ofNat', Int.bmod_def, hsize]
  split
  · rw [if_pos (by omega)]
    omega
  · rw [if_neg (by omega)]
    omega

theorem toInt_deadline (now : Int64) (d : Duration) :
  (durationToDeadlineNanos now d).toInt
    = max (-2 ^ 63) (min (now.toInt + (Int64.ofNat d.asNanos).toInt) (2 ^ 63 - 1))
  := Checked.toInt_saturatingAdd now (Int64.ofNat d.asNanos)

/-- A count of nanoseconds that is a number with a sign is not changed. -/
theorem toInt_deadline_of_lt {now : Int64} {d : Duration} (hnow : 0 ≤ now.toInt)
    (h : d.asNanos < 2 ^ 63) :
  (durationToDeadlineNanos now d).toInt = min (now.toInt + d.asNanos) (2 ^ 63 - 1)
  := by
  have hmod : d.asNanos % 2 ^ 64 = d.asNanos := Nat.mod_eq_of_lt (by omega)
  rw [toInt_deadline, toInt_ofNat_asNanos, hmod, if_pos h]
  omega

/-- No deadline is past the end of the range. -/
theorem toInt_deadline_le (now : Int64) (d : Duration) :
  (durationToDeadlineNanos now d).toInt ≤ 2 ^ 63 - 1
  := by
  rw [toInt_deadline]
  omega

theorem meetsDeadline_of_narrows {now : Int64} {d : Duration} (hnow : 0 ≤ now.toInt)
    (h : Narrows now d) :
  MeetsDeadline now d
  := by
  have hlt := now.toInt_lt
  obtain hsmall | ⟨hmod, hend⟩ := h
  · have hexact := toInt_deadline_of_lt hnow hsmall
    use hexact
    · omega
    · intro d' hle
      have hnanos := Duration.asNanos_mono hle
      have hexact' := toInt_deadline_of_lt hnow (Nat.lt_of_le_of_lt hnanos hsmall)
      omega
  · have hle : d.asNanos % 2 ^ 64 ≤ d.asNanos := Nat.mod_le d.asNanos (2 ^ 64)
    have hlast : (durationToDeadlineNanos now d).toInt = 2 ^ 63 - 1 := by
      rw [toInt_deadline, toInt_ofNat_asNanos, if_pos hmod]
      omega
    use by omega, by omega
    intro d' _
    rw [hlast]
    apply toInt_deadline_le

/-- The deadline of a duration is the right one exactly when its nanoseconds survive the
narrowing, or reach the end of the range after it. -/
theorem meetsDeadline_iff {now : Int64} (hnow : 0 ≤ now.toInt) (d : Duration) :
  MeetsDeadline now d ↔ Narrows now d
  := by
  constructor
  · intro h
    by_contra hnot
    obtain ⟨hlarge, hshort⟩ := not_or.mp hnot
    have hlt := now.toInt_lt
    have hexact := h.exact
    rw [toInt_deadline, toInt_ofNat_asNanos] at hexact
    split at hexact
    · next hmod =>
      have hend := not_and.mp hshort hmod
      omega
    · omega
  · apply meetsDeadline_of_narrows hnow

/-- A deadline of five seconds. -/
theorem meetsDeadline_iff_five :
  MeetsDeadline 1000000000 ⟨5, 0, by decide⟩
  := by
  apply (meetsDeadline_iff (by decide) _).mpr
  left
  decide

/-- The deadline of the longest duration is one nanosecond before the present time. -/
theorem deadline_max_past :
  ¬ ∀ now : Int64, 0 ≤ now.toInt → ∀ d, MeetsDeadline now d
  := by
  intro h
  have hfuture := (h 1000000000 (by decide) Duration.max).future
  revert hfuture
  decide

end FdGrpc

import FiredancerRs.Lib.Frames
import FiredancerRs.Lib.Layout
import Mathlib.Algebra.Ring.Nat

/-!
# Decompression

`decompress_all` and the stream that it reads from. The library is the parameter `ZstdSys`: its
state is a decoder, of which we know for how large a window it was made, what it has taken of the
current frame, and what it has given of the content.
-/

namespace FdZstd

/-- The errors of `Error` that a decompression returns. -/
inductive ZstdError where
  | invalidInput
  | insufficientBuffer
  | allocationFailed
  | protocolError
  | unexpectedEof
  | internalError (code : Nat)
deriving DecidableEq, Repr

/-- `fd_zstd_peek_t` -/
structure PeekAnswer where
  windowSz : Nat
  frameContentSz : Nat
  frameIsSkippable : Nat
deriving DecidableEq, Repr

/-- What `fd_zstd_dstream_read` does: how much of the input it consumes, what it writes, its result
and error code, and the decoder after it. -/
structure ReadAnswer (δ : Type) where
  consumed : Nat
  written : List UInt8
  result : Int
  errorCode : Nat
  next : δ

/-- The functions of the C library, on the state `δ` of a decoder, and the allocator. Null addresses
are zero. -/
structure ZstdSys (δ : Type) where
  peek : List UInt8 → Option PeekAnswer
  dstreamAlign : Nat
  dstreamFootprint : Nat → Nat
  alloc : Layout → Nat
  dstreamNew : Nat → Option δ
  dstreamReset : δ → δ
  dstreamRead : δ → List UInt8 → Nat → ReadAnswer δ
  window : δ → Nat
  taken : δ → List UInt8
  given : δ → List UInt8

/-- `FramePeek` -/
structure FramePeek where
  windowSize : Nat
  frameContentSize : Option Nat
  isSkippable : Bool
deriving DecidableEq, Repr

/-- `ReadResult`, with the bytes that are written. -/
structure ReadResult where
  bytesConsumed : Nat
  written : List UInt8
  frameComplete : Bool
deriving DecidableEq, Repr

/-- The size of the buffer of `decompress_all`. -/
def bufferSize : Nat := 65536

section Calls

variable {δ : Type} (sys : ZstdSys δ)

/-- `FramePeek::new` -/
def FramePeek.new (headerBytes : List UInt8) : Except ZstdError FramePeek :=
  if headerBytes = [] then
    .error .unexpectedEof
  else
    match sys.peek headerBytes with
    | none => .error .invalidInput
    | some peek =>
      .ok
        { windowSize := peek.windowSz
          frameContentSize :=
            if peek.frameContentSz = 2 ^ 64 - 1 then none else some peek.frameContentSz
          isSkippable := peek.frameIsSkippable ≠ 0 }

/-- `DecompressionStream::new` -/
def DecompressionStream.new (maxWindowSize : Nat) : Except ZstdError δ :=
  match Layout.fromSizeAlign (sys.dstreamFootprint maxWindowSize) sys.dstreamAlign with
  | none => .error .invalidInput
  | some layout =>
    if sys.alloc layout = 0 then
      .error .allocationFailed
    else
      match sys.dstreamNew maxWindowSize with
      | none => .error (.internalError 0)
      | some dstream => .ok dstream

/-- `DecompressionStream::read`, with the rest of the input. -/
def DecompressionStream.read (dstream : δ) (input : List UInt8) (room : Nat) :
    Except ZstdError ReadResult × δ × List UInt8 :=
  let answer := sys.dstreamRead dstream input room
  let result : Except ZstdError ReadResult :=
    if answer.result = 0 then
      .ok
        { bytesConsumed := answer.consumed
          written := answer.written
          frameComplete := false }
    else if answer.result = -1 then
      .ok
        { bytesConsumed := answer.consumed
          written := answer.written
          frameComplete := true }
    else if answer.result = 71 then
      .error .protocolError
    else
      .error (.internalError answer.errorCode)
  (result, answer.next, input.drop answer.consumed)

/-- The variables of the loop of `decompress_all`. -/
structure Loop (δ : Type) where
  dstream : δ
  input : List UInt8
  output : List UInt8

/-- How a turn of the loop ends when it does not fail. -/
inductive Turn (δ : Type) where
  | more (l : Loop δ)
  | done (output : List UInt8)

/-- One turn of the loop. -/
def turn (maxOutputSize : Nat) (l : Loop δ) : Except ZstdError (Turn δ) :=
  match DecompressionStream.read sys l.dstream l.input bufferSize with
  | (.error e, _, _) => .error e
  | (.ok result, dstream, input) =>
    if 0 < result.written.length ∧ maxOutputSize < l.output.length + result.written.length then
      .error .insufficientBuffer
    else if result.frameComplete ∧ input = [] then
      .ok (.done (l.output ++ result.written))
    else if result.bytesConsumed = 0 ∧ result.written.length = 0 then
      .error (.internalError 0)
    else
      .ok
        (.more
          { dstream := if result.frameComplete then sys.dstreamReset dstream else dstream
            input := input
            output := l.output ++ result.written })

theorem dstreamNew_of_new {maxWindowSize : Nat} {dstream : δ}
    (h : DecompressionStream.new sys maxWindowSize = .ok dstream) :
  sys.dstreamNew maxWindowSize = some dstream
  := by
  rw [DecompressionStream.new] at h
  split at h
  case h_1 => cases h
  case h_2 =>
    split at h
    case isTrue => cases h
    case isFalse =>
      split at h
      case h_1 => cases h
      case h_2 d hd =>
        cases h
        apply hd

/-- A read that succeeds has the result zero, or minus one at the end of a frame. -/
theorem read_ok {dstream dstream' : δ} {input input' : List UInt8} {room : Nat}
    {result : ReadResult}
    (h : DecompressionStream.read sys dstream input room = (.ok result, dstream', input')) :
  let answer := sys.dstreamRead dstream input room
  (answer.result = 0 ∧ result.frameComplete = false
      ∨ answer.result = -1 ∧ result.frameComplete = true)
    ∧ result.bytesConsumed = answer.consumed ∧ result.written = answer.written
    ∧ dstream' = answer.next ∧ input' = input.drop answer.consumed
  := by
  simp only [DecompressionStream.read, Prod.mk.injEq] at h
  obtain ⟨hresult, rfl, rfl⟩ := h
  split_ifs at hresult with hzero hend
  · cases hresult
    exact ⟨.inl ⟨hzero, rfl⟩, rfl, rfl, rfl, rfl⟩
  · cases hresult
    exact ⟨.inr ⟨hend, rfl⟩, rfl, rfl, rfl, rfl⟩

variable {sys} {maxOutputSize : Nat} {l l' : Loop δ}

/-- What a read has written is within the limit. -/
def WithinLimit (maxOutputSize : Nat) (output written : List UInt8) : Prop :=
  0 < written.length → output.length + written.length ≤ maxOutputSize

theorem withinLimit_iff {output written : List UInt8} :
  ¬(0 < written.length ∧ maxOutputSize < output.length + written.length)
    ↔ WithinLimit maxOutputSize output written
  := by
  rw [WithinLimit, not_and, not_lt]

/-- A turn that goes on has read input or written output, and resets the stream at the end of a
frame. -/
theorem turn_more (h : turn sys maxOutputSize l = .ok (.more l')) :
  let answer := sys.dstreamRead l.dstream l.input bufferSize
  WithinLimit maxOutputSize l.output answer.written
    ∧ ¬(answer.consumed = 0 ∧ answer.written.length = 0)
    ∧ l'.input = l.input.drop answer.consumed ∧ l'.output = l.output ++ answer.written
    ∧ (answer.result = 0 ∧ l'.dstream = answer.next
      ∨ answer.result = -1 ∧ l'.input ≠ [] ∧ l'.dstream = sys.dstreamReset answer.next)
  := by
  rw [turn] at h
  split at h
  case h_1 => cases h
  case h_2 result dstream input hread =>
    obtain ⟨hresult, hconsumed, hwritten, rfl, rfl⟩ := read_ok sys hread
    rw [hconsumed, hwritten] at h
    split_ifs at h with hlimit hdone hstall hcomplete
    · cases h
    · obtain rfl := Turn.more.inj (Except.ok.inj h)
      rcases hresult with ⟨-, hincomplete⟩ | ⟨hend, -⟩
      · rw [hincomplete] at hcomplete
        cases hcomplete
      · have hmore : l.input.drop (sys.dstreamRead l.dstream l.input bufferSize).consumed ≠ [] :=
          fun hnil => hdone ⟨hcomplete, hnil⟩
        exact ⟨withinLimit_iff.mp hlimit, hstall, rfl, rfl, .inr ⟨hend, hmore, rfl⟩⟩
    · obtain rfl := Turn.more.inj (Except.ok.inj h)
      rcases hresult with ⟨hzero, -⟩ | ⟨-, hcomplete'⟩
      · exact ⟨withinLimit_iff.mp hlimit, hstall, rfl, rfl, .inl ⟨hzero, rfl⟩⟩
      · exact absurd hcomplete' hcomplete

/-- The last turn reads the end of a frame and of the input. -/
theorem turn_done {output : List UInt8} (h : turn sys maxOutputSize l = .ok (.done output)) :
  let answer := sys.dstreamRead l.dstream l.input bufferSize
  WithinLimit maxOutputSize l.output answer.written ∧ answer.result = -1
    ∧ l.input.drop answer.consumed = [] ∧ output = l.output ++ answer.written
  := by
  rw [turn] at h
  split at h
  case h_1 => cases h
  case h_2 result dstream input hread =>
    obtain ⟨hresult, hconsumed, hwritten, rfl, rfl⟩ := read_ok sys hread
    rw [hconsumed, hwritten] at h
    split_ifs at h with hlimit hdone hstall hcomplete
    · obtain rfl := Turn.done.inj (Except.ok.inj h)
      rcases hresult with ⟨-, hincomplete⟩ | ⟨hend, -⟩
      · rw [hincomplete] at hdone
        cases hdone.1
      · exact ⟨withinLimit_iff.mp hlimit, hend, hdone.2, rfl⟩
    · cases h
    · cases h

theorem turn_of_zero (hresult : (sys.dstreamRead l.dstream l.input bufferSize).result = 0)
    (hlimit : WithinLimit maxOutputSize l.output
      (sys.dstreamRead l.dstream l.input bufferSize).written)
    (hprogress : ¬((sys.dstreamRead l.dstream l.input bufferSize).consumed = 0
      ∧ (sys.dstreamRead l.dstream l.input bufferSize).written.length = 0)) :
  turn sys maxOutputSize l =
    .ok
      (.more
        { dstream := (sys.dstreamRead l.dstream l.input bufferSize).next
          input := l.input.drop (sys.dstreamRead l.dstream l.input bufferSize).consumed
          output := l.output ++ (sys.dstreamRead l.dstream l.input bufferSize).written })
  := by
  simp only [turn, DecompressionStream.read, hresult, if_true]
  rw [if_neg (withinLimit_iff.mpr hlimit), if_neg (fun h => nomatch h.1), if_neg hprogress]
  rfl

theorem turn_of_end (hresult : (sys.dstreamRead l.dstream l.input bufferSize).result = -1)
    (hlimit : WithinLimit maxOutputSize l.output
      (sys.dstreamRead l.dstream l.input bufferSize).written)
    (hprogress : ¬((sys.dstreamRead l.dstream l.input bufferSize).consumed = 0
      ∧ (sys.dstreamRead l.dstream l.input bufferSize).written.length = 0))
    (hrest : l.input.drop (sys.dstreamRead l.dstream l.input bufferSize).consumed ≠ []) :
  turn sys maxOutputSize l =
    .ok
      (.more
        { dstream := sys.dstreamReset (sys.dstreamRead l.dstream l.input bufferSize).next
          input := l.input.drop (sys.dstreamRead l.dstream l.input bufferSize).consumed
          output := l.output ++ (sys.dstreamRead l.dstream l.input bufferSize).written })
  := by
  have hne : (-1 : Int) ≠ 0 := by decide
  simp only [turn, DecompressionStream.read, hresult, if_true, if_neg hne]
  rw [if_neg (withinLimit_iff.mpr hlimit), if_neg (fun h => hrest h.2), if_neg hprogress]

theorem turn_lt (hinput : l.input ≠ []) (h : turn sys maxOutputSize l = .ok (.more l')) :
  l'.input.length + (maxOutputSize - l'.output.length)
    < l.input.length + (maxOutputSize - l.output.length)
  := by
  have hpos := List.length_pos_iff.mpr hinput
  obtain ⟨hlimit, hprogress, hinput', houtput, -⟩ := turn_more h
  rw [WithinLimit] at hlimit
  rw [hinput', houtput, List.length_drop, List.length_append]
  omega

variable (sys)

/-- The loop: it ends when there is no input any more. -/
def loop (maxOutputSize : Nat) (l : Loop δ) : Except ZstdError (List UInt8) :=
  if _hinput : l.input = [] then
    .ok l.output
  else
    match _hturn : turn sys maxOutputSize l with
    | .error e => .error e
    | .ok (.done output) => .ok output
    | .ok (.more l') => loop maxOutputSize l'
termination_by l.input.length + (maxOutputSize - l.output.length)
decreasing_by exact turn_lt _hinput _hturn

/-- `decompress_all` -/
def decompressAll (compressedData : List UInt8) (maxOutputSize : Nat) :
    Except ZstdError (List UInt8) :=
  if compressedData.length < 4 then
    .error .unexpectedEof
  else
    let headerSize := min compressedData.length 18
    match FramePeek.new sys (compressedData.take headerSize) with
    | .error e => .error e
    | .ok peek =>
      match DecompressionStream.new sys peek.windowSize with
      | .error e => .error e
      | .ok dstream =>
        loop sys maxOutputSize { dstream := dstream, input := compressedData, output := [] }

end Calls

end FdZstd

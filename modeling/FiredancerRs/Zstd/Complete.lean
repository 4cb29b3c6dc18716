import FiredancerRs.Zstd.Decompress
import Mathlib.Logic.Relation

/-!
# Complete inputs

What `decompress_all` accepts. The loop ends when there is no input any more, also when the last
read has not reached the end of its frame: the input may be cut off inside the frame, or the decoder
may have content left for which the buffer had no room. Where no read ends so, an input that is
accepted is a concatenation of frames and the output is all of their content (`accepts_iff`).
-/

namespace FdZstd

variable {δ : Type}

/-- The streaming contract: `fmt` says which strings are frames, and `needs` how large a window each
one needs. A decoder takes what it consumes and gives what it writes. It reports the end of a frame
exactly when it has taken all of a frame that fits the window and has given all of its content, and
it takes nothing behind a frame. -/
structure ZstdSys.Documented (sys : ZstdSys δ) (fmt : FrameFormat UInt8 UInt8)
    (needs : List UInt8 → Nat) : Prop where
  dstreamNew : ∀ {w d}, sys.dstreamNew w = some d →
    sys.window d = w ∧ sys.taken d = [] ∧ sys.given d = []
  dstreamReset : ∀ d, sys.window (sys.dstreamReset d) = sys.window d
    ∧ sys.taken (sys.dstreamReset d) = [] ∧ sys.given (sys.dstreamReset d) = []
  window : ∀ d input room, sys.window (sys.dstreamRead d input room).next = sys.window d
  taken : ∀ d input room, (sys.dstreamRead d input room).result = 0
      ∨ (sys.dstreamRead d input room).result = -1 →
    sys.taken (sys.dstreamRead d input room).next
      = sys.taken d ++ input.take (sys.dstreamRead d input room).consumed
  given : ∀ d input room, (sys.dstreamRead d input room).result = 0
      ∨ (sys.dstreamRead d input room).result = -1 →
    sys.given (sys.dstreamRead d input room).next
      = sys.given d ++ (sys.dstreamRead d input room).written
  complete : ∀ d input room, (sys.dstreamRead d input room).result = -1 →
    fmt.content (sys.taken (sys.dstreamRead d input room).next)
        = some (sys.given (sys.dstreamRead d input room).next)
      ∧ needs (sys.taken (sys.dstreamRead d input room).next) ≤ sys.window d
  pending : ∀ d input room, (sys.dstreamRead d input room).result = 0 →
    fmt.content (sys.taken (sys.dstreamRead d input room).next)
      ≠ some (sys.given (sys.dstreamRead d input room).next)
  within : ∀ d input room, (sys.dstreamRead d input room).result = 0 →
    ∀ f, (fmt.content f).isSome = true → f <+: sys.taken (sys.dstreamRead d input room).next →
      f = sys.taken (sys.dstreamRead d input room).next

/-! ### Reads of the loop -/

/-- A read that leaves some input, and where the next one begins. -/
inductive Reads (sys : ZstdSys δ) (maxOutputSize : Nat) (l : Loop δ) : Loop δ → Prop where
  | inside {answer : ReadAnswer δ} (hanswer : answer = sys.dstreamRead l.dstream l.input bufferSize)
      (hresult : answer.result = 0)
      (hlimit : WithinLimit maxOutputSize l.output answer.written)
      (hprogress : ¬(answer.consumed = 0 ∧ answer.written.length = 0))
      (hrest : l.input.drop answer.consumed ≠ []) :
      Reads sys maxOutputSize l
        { dstream := answer.next
          input := l.input.drop answer.consumed
          output := l.output ++ answer.written }
  | frameEnd {answer : ReadAnswer δ}
      (hanswer : answer = sys.dstreamRead l.dstream l.input bufferSize)
      (hresult : answer.result = -1)
      (hlimit : WithinLimit maxOutputSize l.output answer.written)
      (hprogress : ¬(answer.consumed = 0 ∧ answer.written.length = 0))
      (hrest : l.input.drop answer.consumed ≠ []) :
      Reads sys maxOutputSize l
        { dstream := sys.dstreamReset answer.next
          input := l.input.drop answer.consumed
          output := l.output ++ answer.written }

/-- A read inside a frame takes all the input that is left. -/
def TakesLast (sys : ZstdSys δ) (maxOutputSize : Nat) (l : Loop δ) : Prop :=
  (sys.dstreamRead l.dstream l.input bufferSize).result = 0
    ∧ WithinLimit maxOutputSize l.output (sys.dstreamRead l.dstream l.input bufferSize).written
    ∧ l.input.drop (sys.dstreamRead l.dstream l.input bufferSize).consumed = []

/-- Some read takes all the input that is left, and does not reach the end of its frame. -/
def StopsShort (sys : ZstdSys δ) (maxOutputSize : Nat) (l : Loop δ) : Prop :=
  ∃ l', Relation.ReflTransGen (Reads sys maxOutputSize) l l' ∧ TakesLast sys maxOutputSize l'

variable {sys : ZstdSys δ} {fmt : FrameFormat UInt8 UInt8} {needs : List UInt8 → Nat}
  {maxOutputSize w : Nat} {data : List UInt8} {l l' : Loop δ}

theorem Reads.turn (h : Reads sys maxOutputSize l l') :
  FdZstd.turn sys maxOutputSize l = .ok (.more l')
  := by
  cases h with
  | inside hanswer hresult hlimit hprogress _ =>
    subst hanswer
    apply turn_of_zero hresult hlimit hprogress
  | frameEnd hanswer hresult hlimit hprogress hrest =>
    subst hanswer
    apply turn_of_end hresult hlimit hprogress hrest

theorem Reads.input_ne_nil (h : Reads sys maxOutputSize l l') :
  l'.input ≠ []
  := by
  cases h with
  | inside _ _ _ _ hrest | frameEnd _ _ _ _ hrest => exact hrest

theorem TakesLast.turn (h : TakesLast sys maxOutputSize l) (hinput : l.input ≠ []) :
  ∃ l', FdZstd.turn sys maxOutputSize l = .ok (.more l') ∧ l'.input = []
  := by
  obtain ⟨hresult, hlimit, hrest⟩ := h
  refine ⟨_, turn_of_zero hresult hlimit ?_, hrest⟩
  rintro ⟨hconsumed, -⟩
  rw [hconsumed, List.drop_zero] at hrest
  apply hinput hrest

/-- A turn that goes on is a read, or it takes the last of the input. -/
theorem reads_or_takesLast (h : FdZstd.turn sys maxOutputSize l = .ok (.more l')) :
  Reads sys maxOutputSize l l' ∧ l'.input ≠ [] ∨ TakesLast sys maxOutputSize l ∧ l'.input = []
  := by
  obtain ⟨hlimit, hprogress, hinput, houtput, hresult⟩ := turn_more h
  obtain ⟨dstream, input, output⟩ := l'
  simp only at hinput houtput hresult
  subst hinput houtput
  rcases hresult with ⟨hzero, rfl⟩ | ⟨hend, hrest, rfl⟩
  · by_cases hrest : l.input.drop (sys.dstreamRead l.dstream l.input bufferSize).consumed = []
    · exact .inr ⟨⟨hzero, hlimit, hrest⟩, hrest⟩
    · exact .inl ⟨.inside rfl hzero hlimit hprogress hrest, hrest⟩
  · exact .inl ⟨.frameEnd rfl hend hlimit hprogress hrest, hrest⟩

/-! ### The frames that have been read -/

/-- The frames that are complete, and what the decoder has taken and given of the next one, are the
input and the output so far. -/
structure Inv (sys : ZstdSys δ) (fmt : FrameFormat UInt8 UInt8) (needs : List UInt8 → Nat)
    (maxOutputSize w : Nat) (data : List UInt8) (l : Loop δ) : Prop where
  window : sys.window l.dstream = w
  parsed : ∃ done out, data = done ++ (sys.taken l.dstream ++ l.input)
    ∧ fmt.Concat (needs · ≤ w) done out ∧ l.output = out ++ sys.given l.dstream
  limit : l.output.length ≤ maxOutputSize

theorem length_append_le {output written : List UInt8} (h : output.length ≤ maxOutputSize)
    (hlimit : WithinLimit maxOutputSize output written) :
  (output ++ written).length ≤ maxOutputSize
  := by
  rw [List.length_append]
  rcases Nat.eq_zero_or_pos written.length with hzero | hpos
  · omega
  · apply hlimit hpos

/-- What a read inside a frame keeps. -/
theorem Inv.inside (hsys : sys.Documented fmt needs)
    (h : Inv sys fmt needs maxOutputSize w data l)
    (hresult : (sys.dstreamRead l.dstream l.input bufferSize).result = 0)
    (hlimit : WithinLimit maxOutputSize l.output
      (sys.dstreamRead l.dstream l.input bufferSize).written) :
  Inv sys fmt needs maxOutputSize w data
    { dstream := (sys.dstreamRead l.dstream l.input bufferSize).next
      input := l.input.drop (sys.dstreamRead l.dstream l.input bufferSize).consumed
      output := l.output ++ (sys.dstreamRead l.dstream l.input bufferSize).written }
  := by
  obtain ⟨done, out, hdata, hdone, hout⟩ := h.parsed
  constructor
  case window => exact (hsys.window _ _ _).trans h.window
  case parsed =>
    refine ⟨done, out, ?_, hdone, ?_⟩
    · rw [hdata, hsys.taken _ _ _ (.inl hresult), List.append_assoc, List.take_append_drop]
    · rw [hout, hsys.given _ _ _ (.inl hresult), List.append_assoc]
  case limit => exact length_append_le h.limit hlimit

/-- At the end of a frame there is one complete frame more. -/
theorem Inv.frameEnd (hsys : sys.Documented fmt needs)
    (h : Inv sys fmt needs maxOutputSize w data l)
    (hresult : (sys.dstreamRead l.dstream l.input bufferSize).result = -1) :
  ∃ done, data = done ++ l.input.drop (sys.dstreamRead l.dstream l.input bufferSize).consumed
    ∧ fmt.Concat (needs · ≤ w) done
      (l.output ++ (sys.dstreamRead l.dstream l.input bufferSize).written)
  := by
  obtain ⟨done, out, hdata, hdone, hout⟩ := h.parsed
  obtain ⟨hcontent, hneeds⟩ := hsys.complete _ _ _ hresult
  rw [h.window] at hneeds
  have hnext := hdone.snoc hcontent hneeds
  rw [hsys.taken _ _ _ (.inr hresult), hsys.given _ _ _ (.inr hresult), ← List.append_assoc out,
    ← hout] at hnext
  refine ⟨_, ?_, hnext⟩
  rw [hdata, List.append_assoc, List.append_assoc, List.take_append_drop]

theorem Inv.reads (hsys : sys.Documented fmt needs) (h : Inv sys fmt needs maxOutputSize w data l)
    (hreads : Reads sys maxOutputSize l l') :
  Inv sys fmt needs maxOutputSize w data l'
  := by
  cases hreads with
  | inside hanswer hresult hlimit _ _ =>
    subst hanswer
    apply h.inside hsys hresult hlimit
  | frameEnd hanswer hresult hlimit _ _ =>
    subst hanswer
    obtain ⟨done, hdata, hdone⟩ := h.frameEnd hsys hresult
    obtain ⟨hwindow, htaken, hgiven⟩ :=
      hsys.dstreamReset (sys.dstreamRead l.dstream l.input bufferSize).next
    constructor
    case window => rw [hwindow, hsys.window, h.window]
    case parsed =>
      refine ⟨done, _, ?_, hdone, ?_⟩
      · rw [htaken, hdata, List.nil_append]
      · rw [hgiven, List.append_nil]
    case limit => exact length_append_le h.limit hlimit

/-- When the input ends inside a frame, or before all of its content is given, it is no
concatenation of frames with this output. -/
theorem Inv.not_concat (hsys : sys.Documented fmt needs)
    (h : Inv sys fmt needs maxOutputSize w data l) (hinput : l.input ≠ [])
    (hlast : TakesLast sys maxOutputSize l) {ok : List UInt8 → Prop} :
  ¬fmt.Concat ok data (l.output ++ (sys.dstreamRead l.dstream l.input bufferSize).written)
  := by
  obtain ⟨hresult, hlimit, hrest⟩ := hlast
  obtain ⟨done, out, hdata, hdone, hout⟩ := (h.inside hsys hresult hlimit).parsed
  simp only [hrest, List.append_nil] at hdata hout
  intro hconcat
  rw [hdata, hout] at hconcat
  obtain ⟨out', hsame, hframes⟩ := hdone.of_append hconcat
  have hgiven := List.append_cancel_left hsame
  have hne : sys.taken (sys.dstreamRead l.dstream l.input bufferSize).next ≠ [] := by
    rw [hsys.taken _ _ _ (.inl hresult), List.take_of_length_le (List.drop_eq_nil_iff.mp hrest)]
    apply List.append_ne_nil_of_right_ne_nil _ hinput
  generalize htaken : sys.taken (sys.dstreamRead l.dstream l.input bufferSize).next = taken at *
  cases hframes with
  | nil => exact hne rfl
  | @cons f rest c outRest hf _ hrest =>
    have hsome : (fmt.content f).isSome = true := by rw [hf, Option.isSome_some]
    have hwhole := hsys.within l.dstream l.input bufferSize hresult f hsome
    rw [htaken] at hwhole
    have hnil : rest = [] := List.self_eq_append_right.mp (hwhole (List.prefix_append _ _))
    subst hnil
    rw [hrest.eq_nil, List.append_nil] at hgiven
    apply hsys.pending l.dstream l.input bufferSize hresult
    rw [htaken, List.append_nil, hf, hgiven]

/-! ### The loop -/

theorem loop_of_more (hinput : l.input ≠ [])
    (h : turn sys maxOutputSize l = .ok (.more l')) :
  loop sys maxOutputSize l = loop sys maxOutputSize l'
  := by
  rw [loop, dif_neg hinput]
  split
  case h_1 h' | h_2 h' =>
    rw [h] at h'
    cases h'
  case h_3 h' =>
    rw [h] at h'
    cases h'
    rfl

theorem loop_of_nil (hinput : l.input = []) :
  loop sys maxOutputSize l = .ok l.output
  := by
  rw [loop, dif_pos hinput]

/-- A loop that stops short returns what it has, which is not all of the content of frames. -/
theorem loop_of_stopsShort (hsys : sys.Documented fmt needs)
    (h : Inv sys fmt needs maxOutputSize w data l) (hinput : l.input ≠ [])
    (hshort : StopsShort sys maxOutputSize l) :
  ∃ out, loop sys maxOutputSize l = .ok out ∧ ∀ ok, ¬fmt.Concat ok data out
  := by
  obtain ⟨last, hreads, hlast⟩ := hshort
  induction hreads using Relation.ReflTransGen.head_induction_on with
  | refl =>
    obtain ⟨l', hturn, hnil⟩ := hlast.turn hinput
    use l'.output
    rw [loop_of_more hinput hturn, loop_of_nil hnil]
    obtain ⟨-, -, -, houtput, -⟩ := turn_more hturn
    rw [houtput]
    exact ⟨rfl, fun ok => h.not_concat hsys hinput hlast⟩
  | head hreads _ ih =>
    obtain ⟨out, hout⟩ := ih (h.reads hsys hreads) hreads.input_ne_nil
    use out
    rw [loop_of_more hinput hreads.turn]
    apply hout

/-- A loop that does not stop short returns all of the content of frames. -/
theorem concat_of_loop (hsys : sys.Documented fmt needs)
    (h : Inv sys fmt needs maxOutputSize w data l) (hinput : l.input ≠ [])
    (hshort : ¬StopsShort sys maxOutputSize l) {out : List UInt8}
    (hloop : loop sys maxOutputSize l = .ok out) :
  fmt.Concat (needs · ≤ w) data out ∧ out.length ≤ maxOutputSize
  := by
  fun_induction loop sys maxOutputSize l with
  | case1 l hnil => exact absurd hnil hinput
  | case2 l _ e hturn => cases hloop
  | case3 l _ output hturn =>
    cases hloop
    obtain ⟨hlimit, hresult, hrest, houtput⟩ := turn_done hturn
    obtain ⟨done, hdata, hdone⟩ := h.frameEnd hsys hresult
    rw [hrest, List.append_nil] at hdata
    rw [hdata, houtput]
    exact ⟨hdone, length_append_le h.limit hlimit⟩
  | case4 l _ l' hturn ih =>
    rcases reads_or_takesLast hturn with ⟨hreads, hrest⟩ | ⟨hlast, -⟩
    · apply ih (h.reads hsys hreads) hrest _ hloop
      rintro ⟨last, hlater, hlast⟩
      apply hshort ⟨last, .head hreads hlater, hlast⟩
    · exact absurd ⟨l, .refl, hlast⟩ hshort

/-! ### What is accepted -/

/-- `decompress_all` has opened a stream for the window of the first frame. -/
def Opened (sys : ZstdSys δ) (data : List UInt8) (w : Nat) (dstream : δ) : Prop :=
  4 ≤ data.length ∧ ∃ peek, FramePeek.new sys (data.take (min data.length 18)) = .ok peek
    ∧ peek.windowSize = w ∧ DecompressionStream.new sys w = .ok dstream

/-- Only complete frames within the window of the stream are accepted, with all of their content and
within the limit, and what is cut off inside a frame is an error. -/
structure AcceptsComplete (sys : ZstdSys δ) (fmt : FrameFormat UInt8 UInt8)
    (needs : List UInt8 → Nat) (data : List UInt8) (maxOutputSize : Nat) : Prop where
  complete : ∀ out, decompressAll sys data maxOutputSize = .ok out →
    ∃ w dstream, Opened sys data w dstream ∧ fmt.Concat (needs · ≤ w) data out
      ∧ out.length ≤ maxOutputSize
  truncated : ∀ ok, fmt.Truncated ok data →
    ∃ e, decompressAll sys data maxOutputSize = .error e

/-- No read takes the last of the input without reaching the end of its frame. -/
def ReadsToTheEnd (sys : ZstdSys δ) (data : List UInt8) (maxOutputSize : Nat) : Prop :=
  ∀ w dstream, Opened sys data w dstream →
    ¬StopsShort sys maxOutputSize { dstream := dstream, input := data, output := [] }

theorem decompressAll_of_opened {dstream : δ} (h : Opened sys data w dstream) :
  decompressAll sys data maxOutputSize
    = loop sys maxOutputSize { dstream := dstream, input := data, output := [] }
  := by
  obtain ⟨hlength, peek, hpeek, rfl, hnew⟩ := h
  simp only [decompressAll, if_neg (Nat.not_lt.mpr hlength), hpeek, hnew]

/-- What is returned is returned by the loop. -/
theorem opened_of_ok {out : List UInt8} (h : decompressAll sys data maxOutputSize = .ok out) :
  ∃ w dstream, Opened sys data w dstream
  := by
  simp only [decompressAll] at h
  split at h
  case isTrue => cases h
  case isFalse hlength =>
    split at h
    case h_1 => cases h
    case h_2 peek hpeek =>
      split at h
      case h_1 => cases h
      case h_2 dstream hnew =>
        exact ⟨peek.windowSize, dstream, Nat.le_of_not_lt hlength, peek, hpeek, rfl, hnew⟩

theorem Opened.input_ne_nil {dstream : δ} (h : Opened sys data w dstream) :
  data ≠ []
  := by
  rintro rfl
  exact absurd h.1 (by decide)

theorem Opened.inv (hsys : sys.Documented fmt needs) {dstream : δ}
    (h : Opened sys data w dstream) :
  Inv sys fmt needs maxOutputSize w data { dstream := dstream, input := data, output := [] }
  := by
  obtain ⟨-, peek, -, -, hnew⟩ := h
  obtain ⟨hwindow, htaken, hgiven⟩ := hsys.dstreamNew (dstreamNew_of_new sys hnew)
  constructor
  case window => exact hwindow
  case parsed =>
    refine ⟨[], [], ?_, .nil, ?_⟩
    · rw [htaken, List.nil_append, List.nil_append]
    · rw [hgiven, List.nil_append]
  case limit => exact Nat.zero_le _

/-- Exactly the complete inputs are accepted just when no read takes the last of the input without
reaching the end of its frame. -/
theorem accepts_iff (hsys : sys.Documented fmt needs) (data : List UInt8) (maxOutputSize : Nat) :
  AcceptsComplete sys fmt needs data maxOutputSize ↔ ReadsToTheEnd sys data maxOutputSize
  := by
  constructor
  · intro haccepts w dstream hopened hshort
    obtain ⟨out, hloop, hnot⟩ := loop_of_stopsShort hsys (hopened.inv hsys) hopened.input_ne_nil
      hshort
    rw [← decompressAll_of_opened hopened] at hloop
    obtain ⟨w', _, -, hconcat, -⟩ := haccepts.complete out hloop
    apply hnot _ hconcat
  · intro hreads
    have hcomplete : ∀ out, decompressAll sys data maxOutputSize = .ok out →
        ∃ w dstream, Opened sys data w dstream ∧ fmt.Concat (needs · ≤ w) data out
          ∧ out.length ≤ maxOutputSize := by
      intro out hout
      obtain ⟨w, dstream, hopened⟩ := opened_of_ok hout
      rw [decompressAll_of_opened hopened] at hout
      exact ⟨w, dstream, hopened, concat_of_loop hsys (hopened.inv hsys) hopened.input_ne_nil
        (hreads w dstream hopened) hout⟩
    refine ⟨hcomplete, fun ok htruncated => ?_⟩
    cases hout : decompressAll sys data maxOutputSize with
    | error e => exact ⟨e, rfl⟩
    | ok out =>
      obtain ⟨w, _, -, hconcat, -⟩ := hcomplete out hout
      exact absurd hconcat htruncated.not_concat

/-! ### One frame -/

/-- A frame with one raw block. -/
def hiFrame : List UInt8 :=
  [0x28, 0xB5, 0x2F, 0xFD, 0x20, 0x02, 0x11, 0x00, 0x00, 0x68, 0x69]

/-- The content of the frame. -/
def hi : List UInt8 := [0x68, 0x69]

/-- The format in which there is this frame only. -/
def hiFormat : FrameFormat UInt8 UInt8 where
  content f := if f = hiFrame then some hi else none
  content_nil := rfl
  prefixFree := by
    intro f g hf hg _
    simp only [Option.isSome_ite] at hf hg
    rw [hf, hg]

/-- A decoder of this frame. -/
structure HiDecoder where
  window : Nat
  taken : List UInt8
  given : List UInt8
deriving DecidableEq

/-- A read: content is written once the frame has been taken. -/
def HiDecoder.read (d : HiDecoder) (input : List UInt8) (room : Nat) : ReadAnswer HiDecoder :=
  let consumed := min input.length (hiFrame.length - d.taken.length)
  let taken := d.taken ++ input.take consumed
  let written := if taken = hiFrame then (hi.drop d.given.length).take room else []
  if taken <+: hiFrame ∧ 2 ≤ d.window then
    { consumed := consumed
      written := written
      result := if taken = hiFrame ∧ d.given ++ written = hi then -1 else 0
      errorCode := 0
      next := { d with taken := taken, given := d.given ++ written } }
  else
    { consumed := 0, written := [], result := 71, errorCode := 0, next := d }

/-- A library with this decoder. -/
def hiSys : ZstdSys HiDecoder where
  peek header :=
    if hiFrame.take 6 <+: header then
      some { windowSz := 2, frameContentSz := 2, frameIsSkippable := 0 }
    else
      none
  dstreamAlign := 8
  dstreamFootprint w := w + 1024
  alloc _ := 4096
  dstreamNew w := some { window := w, taken := [], given := [] }
  dstreamReset d := { d with taken := [], given := [] }
  dstreamRead := HiDecoder.read
  window := HiDecoder.window
  taken := HiDecoder.taken
  given := HiDecoder.given

/-- A read fails, or takes a part of the frame and reports whether this is all. -/
theorem HiDecoder.read_cases (d : HiDecoder) (input : List UInt8) (room : Nat) :
  (d.read input room).result = 71 ∧ (d.read input room).next = d
    ∨ (d.read input room).next =
        { window := d.window
          taken := d.taken ++ input.take (d.read input room).consumed
          given := d.given ++ (d.read input room).written }
      ∧ (d.read input room).next.taken <+: hiFrame ∧ 2 ≤ d.window
      ∧ (d.read input room).result =
        if (d.read input room).next.taken = hiFrame ∧ (d.read input room).next.given = hi then -1
        else 0
  := by
  unfold HiDecoder.read
  simp only
  split
  case isTrue hread => exact .inr ⟨rfl, hread.1, hread.2, rfl⟩
  case isFalse => exact .inl ⟨rfl, rfl⟩

theorem hiFormat_content {f : List UInt8} (h : (hiFormat.content f).isSome = true) :
  f = hiFrame
  := by
  simpa [hiFormat] using h

theorem hiSys_documented :
  hiSys.Documented hiFormat fun _ => 2
  := by
  constructor
  case dstreamNew =>
    rintro w d h
    cases h
    exact ⟨rfl, rfl, rfl⟩
  case dstreamReset => exact fun _ => ⟨rfl, rfl, rfl⟩
  case window =>
    intro d input room
    rcases d.read_cases input room with ⟨-, hnext⟩ | ⟨hnext, -⟩
    · apply congrArg HiDecoder.window hnext
    · apply (congrArg HiDecoder.window hnext).trans rfl
  case taken =>
    intro d input room hresult
    rcases d.read_cases input room with ⟨h, -⟩ | ⟨hnext, -⟩
    · rcases hresult with hresult | hresult <;> cases h.symm.trans hresult
    · apply congrArg HiDecoder.taken hnext
  case given =>
    intro d input room hresult
    rcases d.read_cases input room with ⟨h, -⟩ | ⟨hnext, -⟩
    · rcases hresult with hresult | hresult <;> cases h.symm.trans hresult
    · apply congrArg HiDecoder.given hnext
  case complete =>
    intro d input room hresult
    rcases d.read_cases input room with ⟨h, -⟩ | ⟨-, -, hwindow, h⟩
    · cases h.symm.trans hresult
    · have hend := h.symm.trans hresult
      split at hend
      case isTrue hall =>
        refine ⟨?_, hwindow⟩
        show hiFormat.content (d.read input room).next.taken = some (d.read input room).next.given
        rw [hall.1, hall.2]
        rfl
      case isFalse => cases hend
  case pending =>
    intro d input room hresult hcontent
    rcases d.read_cases input room with ⟨h, -⟩ | ⟨-, -, -, h⟩
    · cases h.symm.trans hresult
    · have hfull : hiFormat.content (d.read input room).next.taken
          = some (d.read input room).next.given := hcontent
      have htaken := hiFormat_content (Option.isSome_of_eq_some hfull)
      rw [htaken] at hfull
      rw [if_pos ⟨htaken, (Option.some.inj hfull).symm⟩] at h
      cases h.symm.trans hresult
  case within =>
    intro d input room hresult f hf hprefix
    obtain rfl := hiFormat_content hf
    rcases d.read_cases input room with ⟨h, -⟩ | ⟨-, htaken, -⟩
    · cases h.symm.trans hresult
    · apply hprefix.eq_of_length_le htaken.length_le

/-- The stream for this frame, or for a part of it that has the header. -/
theorem opened_hi {data : List UInt8} {dstream : HiDecoder} (h : Opened hiSys data w dstream) :
  dstream = { window := w, taken := [], given := [] }
  := by
  obtain ⟨-, peek, -, -, hnew⟩ := h
  apply (Option.some.inj (dstreamNew_of_new hiSys hnew)).symm

/-- After the first of two frames the stream is reset, and the second is read with the next turn. -/
theorem turn_hi :
  turn hiSys 10
      { dstream := { window := 2, taken := [], given := [] }
        input := hiFrame ++ hiFrame
        output := [] } =
    .ok
      (.more
        { dstream := { window := 2, taken := [], given := [] }
          input := hiFrame
          output := hi })
  := rfl

/-- Two frames are read, each at once. -/
theorem accepts_hi :
  AcceptsComplete hiSys hiFormat (fun _ => 2) (hiFrame ++ hiFrame) 10
  := by
  apply (accepts_iff hiSys_documented (hiFrame ++ hiFrame) 10).mpr
  rintro w dstream hopened ⟨last, hreads, hlast⟩
  have hdstream := opened_hi hopened
  obtain ⟨-, peek, hpeek, rfl, -⟩ := hopened
  cases hpeek
  subst hdstream
  rcases hreads.cases_head with rfl | ⟨l, hread, hreads⟩
  · cases hlast.1
  · obtain rfl := Turn.more.inj (Except.ok.inj (turn_hi.symm.trans hread.turn))
    rcases hreads.cases_head with rfl | ⟨l', hread', -⟩
    · cases hlast.1
    · have hturn := hread'.turn
      cases hturn

/-- What is cut off after nine bytes is accepted, as an empty output. -/
theorem not_accepts_hi :
  decompressAll hiSys (hiFrame.take 9) 10 = .ok []
    ∧ hiFormat.Truncated (fun _ => True) (hiFrame.take 9)
    ∧ ¬AcceptsComplete hiSys hiFormat (fun _ => 2) (hiFrame.take 9) 10
  := by
  have hnew : DecompressionStream.new hiSys 2 = .ok { window := 2, taken := [], given := [] } := by
    have hlayout : Layout.fromSizeAlign 1026 8 = some { size := 1026, align := 8 } :=
      if_pos ⟨⟨3, rfl⟩, by decide⟩
    simp [DecompressionStream.new, hiSys, hlayout]
  have hopened : Opened hiSys (hiFrame.take 9) 2 { window := 2, taken := [], given := [] } :=
    ⟨by decide, _, rfl, rfl, hnew⟩
  have hout : decompressAll hiSys (hiFrame.take 9) 10 = .ok [] := by
    have hturn : turn hiSys 10
        { dstream := { window := 2, taken := [], given := [] }
          input := hiFrame.take 9
          output := [] } =
        .ok
          (.more
            { dstream := { window := 2, taken := hiFrame.take 9, given := [] }
              input := []
              output := [] }) := rfl
    rw [decompressAll_of_opened hopened, loop_of_more (by decide) hturn, loop_of_nil rfl]
  have htruncated : hiFormat.Truncated (fun _ => True) (hiFrame.take 9) :=
    ⟨[], [], hiFrame.take 9, hiFrame.drop 9, .nil, rfl, by decide, by decide, rfl⟩
  refine ⟨hout, htruncated, fun h => ?_⟩
  obtain ⟨e, he⟩ := h.truncated _ htruncated
  rw [hout] at he
  cases he

end FdZstd

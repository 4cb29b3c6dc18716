import FiredancerRs.Lib.Runs
import FiredancerRs.Xdp.Transmit

/-!
# Frames in flight

The steps of `send_udp` one by one: it writes its frame, then checks the TX ring, then publishes the
descriptor. Between any two of them the kernel may consume the oldest descriptor of the ring. The
frame that is written next is none of those that are published and not consumed, since these are
the last frames that were published, at most as many as the ring has slots, and there are four
times as many frames (`frames_intact`).
-/

namespace FdXdp

open XdpConnection

/-- Where `send_udp` is: outside, with its frame of some length written, or past the check of the
TX ring. -/
inductive Phase where
  | idle
  | written (totalLen : Nat)
  | checked (totalLen : Nat)
deriving DecidableEq

/-- A step of `send_udp`, or of the kernel. -/
inductive Action where
  | write (dstIp : UInt32) (dstPort : UInt16) (dstMac : Vector UInt8 6) (payload : List UInt8)
  | check
  | publish
  | consume

/-- A connection and where `send_udp` is on it. -/
structure Sending where
  conn : XdpConnection
  phase : Phase

namespace Sending

/-- A new connection. -/
def start (conn : XdpConnection) : Sending where
  conn := conn
  phase := .idle

/-- The descriptors that are published and not consumed. -/
def inFlight (s : Sending) : List XdpDesc := s.conn.xsk.ringTx.contents

/-- The offset and the bytes that a step writes to the UMEM region. -/
def written (s : Sending) : Action → Option (Nat × List UInt8)
  | .write dstIp dstPort dstMac payload =>
    if s.phase = .idle ∧ l2l3l4HdrSz + payload.length ≤ s.conn.frameSz.toNat then
      some (s.conn.frameOffset.toNat, s.conn.frame dstIp dstPort dstMac payload)
    else
      none
  | _ => none

/-- The kernel consumes the oldest descriptor, if there is one. -/
def consume (s : Sending) : Sending :=
  match s.conn.xsk.ringTx.pop with
  | some (_, ringTx) =>
    { s with conn := { s.conn with xsk := { s.conn.xsk with ringTx := ringTx } } }
  | none => s

/-- The descriptor of the frame of a packet. -/
def desc (s : Sending) (totalLen : Nat) : XdpDesc where
  addr := s.conn.frameOffset
  len := .ofNat totalLen
  options := 0

/-- A step. One that is not next changes nothing. -/
def step (s : Sending) (a : Action) : Sending :=
  match a, s.phase with
  | .write dstIp dstPort dstMac payload, .idle =>
    let totalLen := l2l3l4HdrSz + payload.length
    if totalLen > s.conn.frameSz.toNat then
      s
    else
      { conn :=
          { s.conn with
            umem := s.conn.umem.write s.conn.frameOffset.toNat
              (s.conn.frame dstIp dstPort dstMac payload) }
        phase := .written totalLen }
  | .check, .written totalLen =>
    if s.conn.xsk.ringTx.Full then
      { s with phase := .idle }
    else
      { s with phase := .checked totalLen }
  | .publish, .checked totalLen =>
    -- the counter of the producer is still the one that the check has read
    { conn :=
        { s.conn with
          xsk := { s.conn.xsk with ringTx := s.conn.xsk.ringTx.push (s.desc totalLen) }
          txFrameIdx := (s.conn.txFrameIdx + 1) % s.conn.txFrameCnt }
      phase := .idle }
  | .consume, _ => s.consume
  | _, _ => s

variable {s : Sending} {conn : XdpConnection} {dstIp : UInt32} {dstPort : UInt16}
  {dstMac : Vector UInt8 6} {payload : List UInt8}

/-- Without the kernel in between, the steps are `send_udp`. -/
theorem steps_eq_sendUdp :
  Runs.run step [.write dstIp dstPort dstMac payload, .check, .publish] (start conn)
    = start (conn.sendUdp dstIp dstPort dstMac payload).2
  := by
  obtain ⟨hlarge, heq⟩ | ⟨hle, ⟨hfull, heq⟩ | ⟨hfree, heq⟩⟩ :=
    conn.sendUdp_cases dstIp dstPort dstMac payload
  · simp [Runs.run, step, start, heq, hlarge]
  · simp [Runs.run, step, start, heq, Nat.not_lt.mpr hle, hfull]
  · simp [Runs.run, step, start, heq, Nat.not_lt.mpr hle, hfree, desc, frameOffset]

/-- A step changes the region only where it writes. -/
theorem umem_step (a : Action) :
  (s.step a).conn.umem
    = match s.written a with
      | some (offset, bytes) => s.conn.umem.write offset bytes
      | none => s.conn.umem
  := by
  obtain ⟨conn, phase⟩ := s
  cases a with
  | write dstIp dstPort dstMac payload =>
    cases phase with
    | idle =>
      by_cases hle : l2l3l4HdrSz + payload.length ≤ conn.frameSz.toNat
      · simp [step, written, hle, Nat.not_lt.mpr hle]
      · simp [step, written, hle, Nat.not_le.mp hle]
    | written totalLen => rfl
    | checked totalLen => rfl
  | check =>
    cases phase with
    | written totalLen =>
      simp only [step]
      split <;> rfl
    | _ => rfl
  | publish => cases phase <;> rfl
  | consume =>
    change (Sending.consume ⟨conn, phase⟩).conn.umem = conn.umem
    rw [consume]
    split <;> rfl

/-! ### The frames of the ring -/

/-- What holds at any time on a connection whose rings have a given depth, when some frames have
been published: the ring holds the last of them. -/
structure Inv (depth published : Nat) (s : Sending) : Prop where
  pow2 : s.conn.xsk.ringTx.Pow2
  depthTx : s.conn.xsk.ringTx.depth.toNat = depth
  frameCnt : s.conn.txFrameCnt.toNat = depth * 4
  frameSz : s.conn.frameSz.toNat ≤ 2 ^ 16
  frameIdx : s.conn.txFrameIdx.toNat = published % (depth * 4)
  size_le : s.conn.xsk.ringTx.size ≤ min depth published
  free : ∀ totalLen, s.phase = .checked totalLen → ¬ s.conn.xsk.ringTx.Full
  addrs : s.inFlight.map (·.addr.toNat)
    = (List.range' (published - s.conn.xsk.ringTx.size) s.conn.xsk.ringTx.size).map
      fun i => i % (depth * 4) * s.conn.frameSz.toNat

variable {depth published : Nat}

namespace Inv

theorem depth_pos (h : s.Inv depth published) :
  0 < depth
  := by
  rw [← h.depthTx]
  apply h.pow2.pos

theorem depth_lt (h : s.Inv depth published) :
  depth < 2 ^ 32
  := by
  rw [← h.depthTx]
  apply UInt32.toNat_lt

/-- The index of the next frame is in range. -/
theorem frameIdx_lt (h : s.Inv depth published) :
  s.conn.txFrameIdx.toNat < depth * 4
  := by
  have hpos := h.depth_pos
  rw [h.frameIdx]
  apply Nat.mod_lt
  omega

/-- The offset of the next frame does not overflow. -/
theorem toNat_frameOffset (h : s.Inv depth published) :
  s.conn.frameOffset.toNat = published % (depth * 4) * s.conn.frameSz.toNat
  := by
  have hidx := h.frameIdx_lt
  have hdepth := h.depth_lt
  have hle : s.conn.txFrameIdx.toNat * s.conn.frameSz.toNat ≤ 2 ^ 34 * 2 ^ 16 := by
    apply Nat.mul_le_mul
    · omega
    · apply h.frameSz
  rw [frameOffset, UInt64.toNat_mul, ← h.frameIdx]
  apply Nat.mod_eq_of_lt
  omega

/-- A step that leaves the ring and the frames. -/
theorem of_phase (h : s.Inv depth published) (phase : Phase) (umem : Memory)
    (hfree : ∀ totalLen, phase = .checked totalLen → ¬ s.conn.xsk.ringTx.Full) :
  Inv depth published { conn := { s.conn with umem := umem }, phase := phase }
  where
  pow2 := h.pow2
  depthTx := h.depthTx
  frameCnt := h.frameCnt
  frameSz := h.frameSz
  frameIdx := h.frameIdx
  size_le := h.size_le
  free := hfree
  addrs := h.addrs

theorem publish (h : s.Inv depth published) {totalLen : Nat}
    (hfull : ¬ s.conn.xsk.ringTx.Full) :
  Inv depth (published + 1)
    { conn :=
        { s.conn with
          xsk := { s.conn.xsk with ringTx := s.conn.xsk.ringTx.push (s.desc totalLen) }
          txFrameIdx := (s.conn.txFrameIdx + 1) % s.conn.txFrameCnt }
      phase := .idle }
  := by
  have hsize := SharedRing.not_full_iff.mp hfull
  have hpush := @SharedRing.size_push _ _ (s.desc totalLen) hfull
  have hle := h.size_le
  have hidx := h.frameIdx_lt
  have hdepth := h.depth_lt
  rw [h.depthTx] at hsize
  constructor
  case pow2 => apply h.pow2
  case depthTx => apply h.depthTx
  case frameCnt => apply h.frameCnt
  case frameSz => apply h.frameSz
  case frameIdx =>
    have hadd : (s.conn.txFrameIdx + 1).toNat = published % (depth * 4) + 1 := by
      rw [UInt64.toNat_add, UInt64.toNat_one, ← h.frameIdx]
      apply Nat.mod_eq_of_lt
      omega
    rw [UInt64.toNat_mod, hadd, h.frameCnt, Nat.mod_add_mod]
  case size_le =>
    rw [hpush]
    omega
  case free =>
    intro totalLen hphase
    cases hphase
  case addrs =>
    have hfirst : published + 1 - (s.conn.xsk.ringTx.size + 1)
        = published - s.conn.xsk.ringTx.size := by omega
    have hlast : published - s.conn.xsk.ringTx.size + s.conn.xsk.ringTx.size = published := by
      omega
    have haddrs := h.addrs
    dsimp only [inFlight] at haddrs ⊢
    rw [SharedRing.contents_push h.pow2 hfull, hpush, List.map_append, haddrs, hfirst,
      List.range'_concat, Nat.one_mul, hlast, List.map_append, List.map_singleton,
      List.map_singleton, desc, h.toNat_frameOffset]

theorem consume (h : s.Inv depth published) :
  Inv depth published s.consume
  := by
  rw [Sending.consume]
  split
  case h_2 => apply h
  case h_1 desc ringTx hpop =>
    have hcontents := SharedRing.contents_of_pop hpop
    have hdepth := SharedRing.depth_of_pop hpop
    have hsize := congrArg List.length hcontents
    rw [SharedRing.length_contents, List.length_cons, SharedRing.length_contents] at hsize
    have hle := h.size_le
    constructor
    case pow2 =>
      rw [SharedRing.Pow2, hdepth]
      apply h.pow2
    case depthTx => rw [hdepth, h.depthTx]
    case frameCnt => apply h.frameCnt
    case frameSz => apply h.frameSz
    case frameIdx => apply h.frameIdx
    case size_le =>
      dsimp only
      omega
    case free =>
      intro totalLen _
      rw [SharedRing.not_full_iff, hdepth, h.depthTx]
      dsimp only
      omega
    case addrs =>
      have haddrs := h.addrs
      have hnext : published - (ringTx.size + 1) + 1 = published - ringTx.size := by omega
      rw [inFlight, hcontents, hsize, List.range'_succ, List.map_cons, List.map_cons, hnext]
        at haddrs
      apply (List.cons.inj haddrs).2

/-- One step. -/
theorem step (h : s.Inv depth published) (a : Action) :
  ∃ published', (s.step a).Inv depth published'
  := by
  obtain ⟨conn, phase⟩ := s
  cases a with
  | write dstIp dstPort dstMac payload =>
    cases phase with
    | idle =>
      use published
      simp only [Sending.step]
      split
      · apply h
      · apply h.of_phase
        intro totalLen hphase
        cases hphase
    | _ => exact ⟨published, h⟩
  | check =>
    cases phase with
    | written totalLen =>
      use published
      simp only [Sending.step]
      split
      · apply h.of_phase
        intro totalLen hphase
        cases hphase
      case isFalse hfree =>
        apply h.of_phase
        intro _ _
        apply hfree
    | _ => exact ⟨published, h⟩
  | publish =>
    cases phase with
    | checked totalLen => exact ⟨published + 1, h.publish (h.free totalLen rfl)⟩
    | _ => exact ⟨published, h⟩
  | consume => exact ⟨published, h.consume⟩

end Inv

/-! ### Runs -/

variable {sys : System} {config : XdpConfig}

/-- The invariant of a new connection, with rings of the depth of its configuration. -/
theorem inv_start (hsys : sys.Documented) (hnew : new sys config = .ok conn) :
  Inv (ringDepthOf config).toNat 0 (start conn)
  := by
  have hfresh := fresh_of_new hsys hnew
  constructor
  case pow2 => apply hfresh.pow2
  case depthTx => apply hfresh.depthTx
  case frameCnt => apply hfresh.frameCnt
  case frameSz => apply hfresh.frameSz
  case frameIdx =>
    rw [start, hfresh.frameIdx, Nat.zero_mod]
    rfl
  case size_le =>
    rw [start, hfresh.sizeTx]
    apply Nat.zero_le
  case free =>
    intro totalLen hphase
    cases hphase
  case addrs =>
    rw [inFlight, start, hfresh.contents, hfresh.sizeTx]
    rfl

theorem Inv.run (h : s.Inv depth published) (actions : List Action) :
  ∃ published', (Runs.run Sending.step actions s).Inv depth published'
  := by
  apply @Runs.run_keeps _ _ Sending.step actions s fun s => ∃ published, s.Inv depth published
  · rintro s a ⟨published, h⟩
    apply h.step a
  · use published

/-- Some bytes are apart from the frame of a descriptor. -/
def Apart (s : Sending) (desc : XdpDesc) (offset : Nat) (bytes : List UInt8) : Prop :=
  offset + bytes.length ≤ desc.addr.toNat
    ∨ desc.addr.toNat + s.conn.frameSz.toNat ≤ offset

/-- The frames in flight are left alone by a step, and all frames used are in range. -/
structure Intact (s : Sending) (a : Action) : Prop where
  next : s.conn.txFrameIdx < s.conn.txFrameCnt
  published : ∀ desc ∈ s.inFlight, ∃ i < s.conn.txFrameCnt.toNat,
    desc.addr.toNat = i * s.conn.frameSz.toNat
  apart : ∀ desc ∈ s.inFlight, ∀ offset bytes, s.written a = some (offset, bytes) →
    s.Apart desc offset bytes
  read_eq : ∀ desc ∈ s.inFlight,
    (s.step a).conn.umem.read desc.addr.toNat s.conn.frameSz.toNat
      = s.conn.umem.read desc.addr.toNat s.conn.frameSz.toNat

/-- A number that lies less than `cnt` below another is not the same modulo `cnt`. -/
theorem mod_ne_mod {i n cnt : Nat} (hlt : i < n) (hn : n < i + cnt) :
  n % cnt ≠ i % cnt
  := by
  intro heq
  have hdvd := (Nat.modEq_iff_dvd' (Nat.le_of_lt hlt)).mp heq.symm
  have hle := Nat.le_of_dvd (Nat.sub_pos_of_lt hlt) hdvd
  omega

/-- Two frames are apart. -/
theorem frames_apart {i j size len : Nat} (hne : i ≠ j) (hlen : len ≤ size) :
  i * size + len ≤ j * size ∨ j * size + size ≤ i * size
  := by
  rcases Nat.lt_or_gt_of_ne hne with hlt | hgt
  · left
    have hle := Nat.mul_le_mul_right size hlt
    rw [Nat.succ_mul] at hle
    omega
  · right
    have hle := Nat.mul_le_mul_right size hgt
    rwa [Nat.succ_mul] at hle

theorem Inv.exists_frame (h : s.Inv depth published) {desc : XdpDesc} (hdesc : desc ∈ s.inFlight) :
  ∃ i, i < published ∧ published < i + depth * 4
    ∧ desc.addr.toNat = i % (depth * 4) * s.conn.frameSz.toNat
  := by
  have hmem := List.mem_map_of_mem (f := fun desc : XdpDesc => desc.addr.toNat) hdesc
  rw [h.addrs] at hmem
  obtain ⟨i, hi, heq⟩ := List.mem_map.mp hmem
  obtain ⟨hge, hlt⟩ := List.mem_range'_1.mp hi
  have hle := h.size_le
  have hpos := h.depth_pos
  use i
  constructor
  · omega
  constructor
  · omega
  · apply heq.symm

theorem Inv.apart (h : s.Inv depth published) {a : Action} {desc : XdpDesc}
    (hdesc : desc ∈ s.inFlight) {offset : Nat} {bytes : List UInt8}
    (hwritten : s.written a = some (offset, bytes)) :
  s.Apart desc offset bytes
  := by
  obtain ⟨i, hlt, hn, haddr⟩ := h.exists_frame hdesc
  cases a with
  | write dstIp dstPort dstMac payload =>
    rw [written] at hwritten
    split at hwritten
    case isFalse => cases hwritten
    case isTrue hcond =>
      cases hwritten
      rw [Apart, haddr, h.toNat_frameOffset, length_frame]
      apply frames_apart (mod_ne_mod hlt hn) hcond.2
  | _ => cases hwritten

/-- No step of a run of calls of `send_udp`, interleaved in any way with the kernel, writes to the
frame of a descriptor that is published and not consumed. -/
theorem frames_intact (hsys : sys.Documented) (hnew : new sys config = .ok conn)
    (actions : List Action) (a : Action) :
  (Runs.run step actions (start conn)).Intact a
  := by
  obtain ⟨published, h⟩ := (inv_start hsys hnew).run actions
  generalize Runs.run step actions (start conn) = s at h
  generalize (ringDepthOf config).toNat = depth at h
  constructor
  case next =>
    rw [UInt64.lt_iff_toNat_lt, h.frameCnt]
    apply h.frameIdx_lt
  case published =>
    intro desc hdesc
    obtain ⟨i, -, -, haddr⟩ := h.exists_frame hdesc
    have hpos := h.depth_pos
    rw [h.frameCnt]
    use i % (depth * 4), Nat.mod_lt _ (by omega)
  case apart =>
    intro desc hdesc offset bytes hwritten
    apply h.apart hdesc hwritten
  case read_eq =>
    intro desc hdesc
    rw [umem_step]
    split
    case h_2 => rfl
    case h_1 offset bytes hwritten =>
      apply Memory.read_write_of_disjoint
      rcases h.apart hdesc hwritten with hbefore | hafter
      · right
        apply hbefore
      · left
        apply hafter

/-- A packet without a payload. -/
def writeEmpty : Action := .write 0 0 (Vector.replicate 6 0) []

/-- The ring of one slot is full when the second frame is written. -/
theorem frames_intact_oneSlot :
  (Runs.run step [writeEmpty, .check, .publish, writeEmpty, .check] (start World.oneSlotConn)).Intact
    writeEmpty
  := frames_intact World.oneInterface_documented World.new_oneSlot _ _

end Sending

end FdXdp

import FiredancerRs.Xdp.Connection
import Mathlib.Data.List.Perm.Basic
import Mathlib.Logic.Relation

/-!
# Transmission by AF_XDP

Runs of one `XdpConnection` against the kernel, with the calls of `send_udp` and the steps of
the kernel in any order. The kernel takes a descriptor from the TX ring when the completion
ring has a slot for it, transmits the frame and posts one completion. No call of the connection
advances the consumer of the completion ring, so the slots are used up: the connection stays
live exactly when it has accepted at most as many packets as the ring has slots
(`drained_iff`).
-/

namespace FdXdp

open XdpConnection

/-- A connection, the descriptors that the kernel has taken and not yet transmitted, the frames
accepted with `Ok` and the frames transmitted. -/
structure World where
  conn : XdpConnection
  inFlight : List XdpDesc
  accepted : List (List UInt8)
  transmitted : List (List UInt8)

namespace World

/-- A new connection. -/
def start (conn : XdpConnection) : World where
  conn := conn
  inFlight := []
  accepted := []
  transmitted := []

/-- A call of `send_udp`. -/
def send (w : World) (dstIp : UInt32) (dstPort : UInt16) (dstMac : Vector UInt8 6)
    (payload : List UInt8) : World :=
  match w.conn.sendUdp dstIp dstPort dstMac payload with
  | (.ok (), conn) =>
    { w with
      conn := conn
      accepted := w.accepted ++ [w.conn.frame dstIp dstPort dstMac payload] }
  | (.error _, conn) => { w with conn := conn }

/-- The kernel takes the oldest descriptor of the TX ring, if the completion ring has a slot
that neither a completion nor a descriptor in flight needs. -/
def take (w : World) : Option World :=
  if w.conn.xsk.ringCr.size + w.inFlight.length < w.conn.xsk.ringCr.depth.toNat then
    w.conn.xsk.ringTx.pop.map fun (desc, ringTx) =>
      { w with
        conn := { w.conn with xsk := { w.conn.xsk with ringTx := ringTx } }
        inFlight := w.inFlight ++ [desc] }
  else
    none

/-- The bytes of the frame of a descriptor. -/
def packet (w : World) (desc : XdpDesc) : List UInt8 :=
  w.conn.umem.read desc.addr.toNat desc.len.toNat

/-- The kernel transmits the frame of a descriptor in flight and posts its completion. -/
def complete (w : World) (i : Nat) : Option World :=
  w.inFlight[i]?.map fun desc =>
    { w with
      conn :=
        { w.conn with xsk := { w.conn.xsk with ringCr := w.conn.xsk.ringCr.push desc.addr } }
      inFlight := w.inFlight.eraseIdx i
      transmitted := w.transmitted ++ [w.packet desc] }

/-- A step of the kernel. -/
inductive KernelStep (w w' : World) : Prop where
  | take (h : w.take = some w')
  | complete (i : Nat) (h : w.complete i = some w')

/-- A step of the connection or of the kernel. -/
inductive Step (w : World) : World → Prop where
  | send (dstIp : UInt32) (dstPort : UInt16) (dstMac : Vector UInt8 6) (payload : List UInt8) :
    Step w (w.send dstIp dstPort dstMac payload)
  | kernel {w' : World} (h : KernelStep w w') : Step w w'

/-- No step of the kernel is enabled. -/
def Quiet (w : World) : Prop := ∀ w', ¬ KernelStep w w'

/-- The TX ring is empty, what was accepted has been transmitted, and the ring takes the next
packet. -/
structure Drained (w : World) : Prop where
  empty : w.conn.xsk.ringTx.prod = w.conn.xsk.ringTx.cons
  transmitted : w.transmitted.Perm w.accepted
  next : ∀ dstIp dstPort dstMac payload,
    (w.conn.sendUdp dstIp dstPort dstMac payload).1 ≠ .error .txFull

/-- The descriptors accepted and not yet transmitted. -/
def waiting (w : World) : List XdpDesc := w.inFlight ++ w.conn.xsk.ringTx.contents

/-- What holds in every reachable state of a connection with rings of a given depth. The frames
that are waiting lie below the frame that `send_udp` writes next. -/
structure Inv (depth : Nat) (w : World) : Prop where
  pow2 : w.conn.xsk.ringTx.Pow2
  depthTx : w.conn.xsk.ringTx.depth.toNat = depth
  depthCr : w.conn.xsk.ringCr.depth.toNat = depth
  frameCnt : w.conn.txFrameCnt.toNat = depth * 4
  frameSz : w.conn.frameSz.toNat ≤ 2 ^ 16
  sizeTx : w.conn.xsk.ringTx.size ≤ depth
  sizeCr : w.conn.xsk.ringCr.size = w.transmitted.length
  slots : w.transmitted.length + w.inFlight.length ≤ depth
  frameIdx : w.conn.txFrameIdx.toNat = w.accepted.length
  below : ∀ desc ∈ w.waiting,
    desc.addr.toNat + desc.len.toNat ≤ w.accepted.length * w.conn.frameSz.toNat
  packets : (w.transmitted ++ w.waiting.map w.packet).Perm w.accepted

namespace Inv

variable {depth : Nat} {w w' : World}

/-- Every packet accepted is transmitted, in flight or on the TX ring. -/
theorem length_accepted (h : w.Inv depth) :
  w.accepted.length
    = w.transmitted.length + w.inFlight.length + w.conn.xsk.ringTx.size
  := by
  rw [← h.packets.length_eq, waiting]
  simp [Nat.add_assoc]

/-- The offset of the next frame does not overflow. -/
theorem toNat_frameOffset (h : w.Inv depth) :
  w.conn.frameOffset.toNat = w.accepted.length * w.conn.frameSz.toNat
  := by
  have hlen := h.length_accepted
  have hslots := h.slots
  have hsize := h.sizeTx
  have hdepth := w.conn.xsk.ringTx.depth.toNat_lt
  rw [h.depthTx] at hdepth
  have hle : w.accepted.length * w.conn.frameSz.toNat ≤ 2 ^ 33 * 2 ^ 16 := by
    apply Nat.mul_le_mul
    · omega
    · apply h.frameSz
  rw [frameOffset, UInt64.toNat_mul, h.frameIdx]
  apply Nat.mod_eq_of_lt
  omega

/-- Writing the next frame leaves the frames that are waiting. -/
theorem packets_write (h : w.Inv depth) (bytes : List UInt8) :
  w.waiting.map
      (fun desc => (w.conn.umem.write w.conn.frameOffset.toNat bytes).read desc.addr.toNat
        desc.len.toNat)
    = w.waiting.map w.packet
  := by
  apply List.map_congr_left
  intro desc hdesc
  apply Memory.read_write_of_disjoint
  left
  rw [h.toNat_frameOffset]
  apply h.below desc hdesc

/-- A step that leaves everything but the memory of the free frames. -/
theorem of_write (h : w.Inv depth) (bytes : List UInt8) :
  Inv depth
    { w with
      conn := { w.conn with umem := w.conn.umem.write w.conn.frameOffset.toNat bytes } }
  where
  pow2 := h.pow2
  depthTx := h.depthTx
  depthCr := h.depthCr
  frameCnt := h.frameCnt
  frameSz := h.frameSz
  sizeTx := h.sizeTx
  sizeCr := h.sizeCr
  slots := h.slots
  frameIdx := h.frameIdx
  below := h.below
  packets := by
    have hpackets := h.packets
    rw [← h.packets_write bytes] at hpackets
    apply hpackets

/-- An accepted packet. -/
theorem of_push (h : w.Inv depth) {bytes : List UInt8}
    (hlen : bytes.length ≤ w.conn.frameSz.toNat) (hfull : ¬ w.conn.xsk.ringTx.Full) :
  Inv depth
    { w with
      conn :=
        { w.conn with
          umem := w.conn.umem.write w.conn.frameOffset.toNat bytes
          xsk :=
            { w.conn.xsk with
              ringTx := w.conn.xsk.ringTx.push
                { addr := w.conn.frameOffset, len := .ofNat bytes.length, options := 0 } }
          txFrameIdx := (w.conn.txFrameIdx + 1) % w.conn.txFrameCnt }
      accepted := w.accepted ++ [bytes] }
  := by
  have hsize := SharedRing.not_full_iff.mp hfull
  have haccepted := h.length_accepted
  have hslots := h.slots
  have hdepth := w.conn.xsk.ringTx.depth.toNat_lt
  have hframe := h.frameSz
  have htoNat : (UInt32.ofNat bytes.length).toNat = bytes.length := by
    rw [UInt32.toNat_ofNat']
    apply Nat.mod_eq_of_lt
    omega
  rw [h.depthTx] at hsize hdepth
  constructor
  case pow2 => apply h.pow2
  case depthTx => apply h.depthTx
  case depthCr => apply h.depthCr
  case frameCnt => apply h.frameCnt
  case frameSz => apply h.frameSz
  case sizeTx =>
    rw [SharedRing.size_push hfull]
    apply hsize
  case sizeCr => apply h.sizeCr
  case slots => apply h.slots
  case frameIdx =>
    rw [UInt64.toNat_mod, UInt64.toNat_add, UInt64.toNat_one, h.frameIdx, h.frameCnt,
      List.length_append, List.length_singleton, Nat.mod_eq_of_lt (a := _ + 1), Nat.mod_eq_of_lt]
      <;> omega
  case below =>
    intro desc hdesc
    rw [waiting, SharedRing.contents_push h.pow2 hfull, ← List.append_assoc, List.mem_append,
      List.mem_singleton] at hdesc
    rw [List.length_append, List.length_singleton, Nat.add_one_mul]
    rcases hdesc with hdesc | rfl
    · apply Nat.le_add_right_of_le (h.below desc hdesc)
    · rw [h.toNat_frameOffset, htoNat]
      apply Nat.add_le_add_left hlen
  case packets =>
    rw [waiting, SharedRing.contents_push h.pow2 hfull, ← List.append_assoc, List.map_append,
      ← List.append_assoc]
    apply List.Perm.append
    · have hpackets := h.packets
      rw [← h.packets_write bytes] at hpackets
      apply hpackets
    · rw [List.map_singleton, packet, htoNat, Memory.read_write]

theorem send (h : w.Inv depth) (dstIp : UInt32) (dstPort : UInt16) (dstMac : Vector UInt8 6)
    (payload : List UInt8) :
  Inv depth (w.send dstIp dstPort dstMac payload)
  := by
  rw [World.send]
  obtain ⟨-, heq⟩ | ⟨hlen, ⟨-, heq⟩ | ⟨hfull, heq⟩⟩ :=
    w.conn.sendUdp_cases dstIp dstPort dstMac payload
  · rw [heq]
    apply h
  · rw [heq]
    apply h.of_write
  · rw [heq]
    rw [← @length_frame w.conn dstIp dstPort dstMac] at hlen ⊢
    apply h.of_push hlen hfull

theorem take (h : w.Inv depth) (htake : w.take = some w') :
  Inv depth w'
  := by
  rw [World.take] at htake
  split at htake
  case isFalse => contradiction
  case isTrue hfree =>
    obtain ⟨⟨desc, ringTx⟩, hpop, rfl⟩ := Option.map_eq_some_iff.mp htake
    have hcontents := SharedRing.contents_of_pop hpop
    have hdepth := SharedRing.depth_of_pop hpop
    have hsize := congrArg List.length hcontents
    rw [SharedRing.length_contents, List.length_cons, SharedRing.length_contents] at hsize
    have hbound := h.sizeTx
    have hwaiting : w.inFlight ++ [desc] ++ ringTx.contents = w.waiting := by
      rw [waiting, hcontents, List.append_assoc, List.singleton_append]
    constructor
    case pow2 =>
      rw [SharedRing.Pow2, hdepth]
      apply h.pow2
    case depthTx => rw [hdepth, h.depthTx]
    case depthCr => apply h.depthCr
    case frameCnt => apply h.frameCnt
    case frameSz => apply h.frameSz
    case sizeTx =>
      rw [hsize] at hbound
      apply Nat.le_of_succ_le hbound
    case sizeCr => apply h.sizeCr
    case slots =>
      rw [h.sizeCr, h.depthCr] at hfree
      rw [List.length_append, List.length_singleton]
      apply hfree
    case frameIdx => apply h.frameIdx
    case below =>
      intro other hother
      rw [waiting, hwaiting] at hother
      apply h.below other hother
    case packets =>
      rw [waiting, hwaiting]
      apply h.packets

theorem complete (h : w.Inv depth) {i : Nat} (hcomplete : w.complete i = some w') :
  Inv depth w'
  := by
  obtain ⟨desc, hdesc, rfl⟩ := Option.map_eq_some_iff.mp hcomplete
  obtain ⟨hi, rfl⟩ := List.getElem?_eq_some_iff.mp hdesc
  have hslots := h.slots
  have herase := List.length_eraseIdx_of_lt hi
  have hperm : (w.inFlight[i] :: w.inFlight.eraseIdx i).Perm w.inFlight :=
    List.getElem_cons_eraseIdx_perm hi
  have hfull : ¬ w.conn.xsk.ringCr.Full := by
    rw [SharedRing.not_full_iff, h.sizeCr, h.depthCr]
    omega
  constructor
  case pow2 => apply h.pow2
  case depthTx => apply h.depthTx
  case depthCr => apply h.depthCr
  case frameCnt => apply h.frameCnt
  case frameSz => apply h.frameSz
  case sizeTx => apply h.sizeTx
  case sizeCr =>
    rw [SharedRing.size_push hfull, h.sizeCr, List.length_append, List.length_singleton]
  case slots =>
    rw [List.length_append, List.length_singleton, herase]
    omega
  case frameIdx => apply h.frameIdx
  case below =>
    intro other hother
    apply h.below other
    rw [waiting, List.mem_append] at hother ⊢
    apply hother.imp_left List.mem_of_mem_eraseIdx
  case packets =>
    have hmap := (hperm.append_right w.conn.xsk.ringTx.contents).map w.packet
    rw [List.append_assoc]
    apply (List.Perm.append_left w.transmitted hmap).trans h.packets

theorem step (h : w.Inv depth) (hstep : Step w w') :
  Inv depth w'
  := by
  cases hstep with
  | send dstIp dstPort dstMac payload => apply h.send
  | kernel hkernel =>
    cases hkernel with
    | take htake => apply h.take htake
    | complete i hcomplete => apply h.complete hcomplete

/-- The invariant holds at the end of a run when it holds at its start. -/
theorem run (h : w.Inv depth) (hrun : Relation.ReflTransGen Step w w') :
  Inv depth w'
  := by
  induction hrun with
  | refl => apply h
  | tail _ hstep ih => apply ih.step hstep

end Inv

variable {sys : System} {config : XdpConfig} {conn : XdpConnection} {w : World}

/-- The invariant of a new connection. -/
theorem inv_start (hsys : sys.Documented) (hnew : new sys config = .ok conn) :
  Inv (ringDepthOf config).toNat (start conn)
  := by
  have hfresh := fresh_of_new hsys hnew
  have hwaiting : (start conn).waiting = [] := by
    rw [waiting, start, hfresh.contents]
    rfl
  constructor
  case pow2 => apply hfresh.pow2
  case depthTx => apply hfresh.depthTx
  case depthCr => apply hfresh.depthCr
  case frameCnt => apply hfresh.frameCnt
  case frameSz => apply hfresh.frameSz
  case sizeTx =>
    rw [start, hfresh.sizeTx]
    apply Nat.zero_le
  case sizeCr => apply hfresh.sizeCr
  case slots => apply Nat.zero_le
  case frameIdx =>
    rw [start, hfresh.frameIdx]
    rfl
  case below =>
    intro desc hdesc
    rw [hwaiting] at hdesc
    contradiction
  case packets =>
    rw [hwaiting]
    rfl

/-- The TX ring takes the next packet when it is empty. -/
theorem Inv.next {depth : Nat} (h : w.Inv depth)
    (hempty : w.conn.xsk.ringTx.prod = w.conn.xsk.ringTx.cons) (dstIp : UInt32)
    (dstPort : UInt16) (dstMac : Vector UInt8 6) (payload : List UInt8) :
  (w.conn.sendUdp dstIp dstPort dstMac payload).1 ≠ .error .txFull
  := by
  have hfull : ¬ w.conn.xsk.ringTx.Full := by
    rw [SharedRing.not_full_iff, SharedRing.size_eq_zero.mpr hempty]
    apply h.pow2.pos
  obtain ⟨-, heq⟩ | ⟨-, ⟨hfull', -⟩ | ⟨-, heq⟩⟩ :=
    w.conn.sendUdp_cases dstIp dstPort dstMac payload
  · rw [heq]
    simp
  · contradiction
  · rw [heq]
    simp

/-- In a quiet state nothing is in flight. -/
theorem Quiet.inFlight (h : w.Quiet) :
  w.inFlight = []
  := by
  by_contra hne
  apply h _ (.complete 0 (Option.map_eq_some_iff.mpr ⟨w.inFlight.head hne, _, rfl⟩))
  rw [List.head_eq_getElem, List.getElem?_eq_getElem]

/-- In a quiet state with a free completion slot the TX ring is empty. -/
theorem Quiet.empty {depth : Nat} (h : w.Quiet) (hinv : w.Inv depth)
    (hfree : w.transmitted.length < depth) :
  w.conn.xsk.ringTx.size = 0
  := by
  rw [← SharedRing.pop_eq_none]
  cases htake : w.take with
  | some w' => exact absurd (.take htake) (h w')
  | none =>
    rw [World.take, if_pos] at htake
    · apply Option.map_eq_none_iff.mp htake
    · rw [h.inFlight, hinv.sizeCr, hinv.depthCr]
      apply hfree

/-- Transmission does not wedge exactly while no more packets have been accepted than the
completion ring has slots. -/
theorem drained_iff (hsys : sys.Documented) (hnew : new sys config = .ok conn)
    (hrun : Relation.ReflTransGen Step (start conn) w) (hquiet : w.Quiet) :
  w.Drained ↔ w.accepted.length ≤ (ringDepthOf config).toNat
  := by
  have hinv := (inv_start hsys hnew).run hrun
  have haccepted := hinv.length_accepted
  rw [hquiet.inFlight, List.length_nil, Nat.add_zero] at haccepted
  constructor
  · intro h
    rw [haccepted, SharedRing.size_eq_zero.mpr h.empty]
    apply Nat.le_of_add_right_le hinv.slots
  · intro hle
    have hempty : w.conn.xsk.ringTx.size = 0 := by
      by_contra hne
      apply hne (hquiet.empty hinv _)
      omega
    have hcontents := List.eq_nil_of_length_eq_zero (SharedRing.length_contents.trans hempty)
    have hpackets := hinv.packets
    rw [waiting, hquiet.inFlight, hcontents, List.nil_append, List.map_nil, List.append_nil]
      at hpackets
    constructor
    · apply SharedRing.size_eq_zero.mp hempty
    · apply hpackets
    · apply hinv.next (SharedRing.size_eq_zero.mp hempty)

/-! ### A wedged connection -/

section Wedged

/-- A system with one interface, on which a socket is set up with any depths that are powers of
two and frames of at most a page. -/
def oneInterface : System where
  ifNametoindex _ := 1
  fdXskInit params :=
    if (∃ k < 32, params.txDepth.toNat = 2 ^ k) ∧ (∃ k < 32, params.crDepth.toNat = 2 ^ k)
        ∧ params.frameSz.toNat ≤ 4096 then
      some
        { ringTx :=
            { prod := 0
              cons := 0
              depth := params.txDepth.toUInt32
              slots := fun _ => ⟨0, 0, 0⟩ }
          ringCr :=
            { prod := 0
              cons := 0
              depth := params.crDepth.toUInt32
              slots := fun _ => 0 } }
    else
      none
  fdXdpInstall _ _ _ _ _ := { xskMapFd := 3, progLinkFd := 4 }
  fdXskActivate xsk _ := some xsk

theorem oneInterface_documented :
  oneInterface.Documented
  := by
  constructor
  · intro params xsk h
    simp only [oneInterface] at h
    split at h
    case isFalse => contradiction
    case isTrue hparams =>
      obtain ⟨⟨k, hk, htx⟩, ⟨l, hl, hcr⟩, hframe⟩ := hparams
      injection h with h
      subst h
      have hktwo : 2 ^ k < 2 ^ 32 := Nat.pow_lt_pow_right (by decide) hk
      have hltwo : 2 ^ l < 2 ^ 32 := Nat.pow_lt_pow_right (by decide) hl
      rw [UInt64.toNat_toUInt32, UInt64.toNat_toUInt32, htx, hcr]
      use Nat.mod_eq_of_lt hktwo, rfl, Nat.mod_eq_of_lt hltwo, rfl, ⟨k, rfl⟩, ⟨l, rfl⟩
      omega
  · intro xsk mapFd xsk' h
    injection h with h
    rw [h]

/-- A configuration with rings of one slot. -/
def oneSlot : XdpConfig := { ringDepth := 1 }

/-- The connection that `new` makes from a configuration of one slot. -/
def oneSlotConn : XdpConnection where
  xsk :=
    { ringTx := { prod := 0, cons := 0, depth := 1, slots := fun _ => ⟨0, 0, 0⟩ }
      ringCr := { prod := 0, cons := 0, depth := 1, slots := fun _ => 0 } }
  xdpFds := { xskMapFd := 3, progLinkFd := 4 }
  umem := fun _ => 0
  frameSz := 2048
  srcIp := 0
  srcPort := 0
  srcMac := Vector.replicate 6 0
  txFrameIdx := 0
  txFrameCnt := 4

theorem new_oneSlot :
  new oneInterface oneSlot = .ok oneSlotConn
  := rfl

/-- A packet with an empty payload. -/
def sendEmpty (w : World) : World := w.send 0 0 (Vector.replicate 6 0) []

/-- The kernel has taken the first packet. -/
def firstTaken : World := (sendEmpty (start oneSlotConn)).take.get (by decide)

/-- The kernel has transmitted the first packet. -/
def firstSent : World := (firstTaken.complete 0).get (by decide)

theorem run_firstSent :
  Relation.ReflTransGen Step (start oneSlotConn) firstSent
  := by
  apply Relation.ReflTransGen.tail (b := firstTaken)
  · apply Relation.ReflTransGen.tail (b := sendEmpty (start oneSlotConn))
    · apply Relation.ReflTransGen.single (.send ..)
    · apply Step.kernel (.take (Option.some_get _).symm)
  · apply Step.kernel (.complete 0 (Option.some_get _).symm)

/-- No kernel step is enabled after the first packet. -/
theorem firstSent_quiet :
  firstSent.Quiet
  := by
  rintro w (⟨⟨⟩⟩ | ⟨i, hi⟩)
  cases i <;> cases hi

/-- With rings of one slot the second packet stays on the TX ring. -/
theorem oneSlot_wedged :
  ¬ ∀ conn w, new oneInterface oneSlot = .ok conn → Relation.ReflTransGen Step (start conn) w →
    w.Quiet → w.Drained
  := by
  intro h
  have hquiet : (sendEmpty firstSent).Quiet := by
    rintro w (⟨⟨⟩⟩ | ⟨i, hi⟩)
    cases i <;> cases hi
  have hdrained := h _ _ new_oneSlot (run_firstSent.tail (.send ..)) hquiet
  exact absurd hdrained.empty (by decide)

/-- With rings of one slot the first packet is transmitted. -/
theorem drained_iff_oneSlot :
  firstSent.Drained ↔ firstSent.accepted.length ≤ (ringDepthOf oneSlot).toNat
  := drained_iff oneInterface_documented new_oneSlot run_firstSent firstSent_quiet

end Wedged

end World

end FdXdp

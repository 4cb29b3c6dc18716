import FiredancerRs.Lib.Memory
import FiredancerRs.Lib.SharedRing
import FiredancerRs.Xdp.Packet

/-!
# `XdpConnection`

The AF_XDP socket of `fd_rpc::xdp`: its configuration, `new` and `send_udp`. What the
operating system and the C library return to `new` is the parameter `System`. The UMEM region
is a byte memory addressed from its start.
-/

namespace FdXdp

/-- `XdpError` -/
inductive XdpError where
  | initFailed
  | installFailed
  | activateFailed
  | txFull
  | frameTooLarge
deriving DecidableEq, Repr

/-- The message of an error. -/
def XdpError.fmt : XdpError → String
  | initFailed => "XSK initialization failed"
  | installFailed => "XDP program installation failed"
  | activateFailed => "XSK activation failed"
  | txFull => "TX ring full"
  | frameTooLarge => "packet exceeds frame size"

/-- `DEFAULT_FRAME_SZ` -/
def defaultFrameSz : UInt64 := 2048

/-- `DEFAULT_RING_DEPTH` -/
def defaultRingDepth : UInt64 := 1024

/-- `XdpConfig` -/
structure XdpConfig where
  ifName : Vector UInt8 16 := Vector.replicate 16 0
  ifQueue : UInt32 := 0
  srcIp : UInt32 := 0
  srcPort : UInt16 := 0
  srcMac : Vector UInt8 6 := Vector.replicate 6 0
  listenPorts : Vector UInt16 8 := Vector.replicate 8 0
  listenPortsCnt : UInt64 := 0
  frameSz : UInt64 := defaultFrameSz
  ringDepth : UInt64 := defaultRingDepth

/-- `fd_xsk_params_t`, without the address of the region. -/
structure XskParams where
  frDepth : UInt64
  rxDepth : UInt64
  txDepth : UInt64
  crDepth : UInt64
  frameSz : UInt64
  umemSz : UInt64
  ifIdx : UInt32
  ifQueueId : UInt32
  bindFlags : UInt32

/-- A transmit descriptor. -/
structure XdpDesc where
  addr : UInt64
  len : UInt32
  options : UInt32
deriving DecidableEq, Repr

/-- `fd_xsk_t`: the TX ring, and the completion ring that returns the addresses of frames. -/
structure Xsk where
  ringTx : SharedRing XdpDesc
  ringCr : SharedRing UInt64

/-- `fd_xdp_fds_t` -/
structure XdpFds where
  xskMapFd : Int32
  progLinkFd : Int32
deriving DecidableEq, Repr

/-- The functions that `new` calls. A null pointer is `none`. -/
structure System where
  ifNametoindex : Vector UInt8 16 → UInt32
  fdXskInit : XskParams → Option Xsk
  fdXdpInstall : UInt32 → UInt32 → UInt64 → Vector UInt16 8 → String → XdpFds
  fdXskActivate : Xsk → Int32 → Option Xsk

/-- What `new` relies on: a socket that `fd_xsk_init` sets up has empty rings of the requested
depths, which the kernel demands to be powers of two, and its frames are at most a page, of
at most 64 KiB. Activating a socket leaves its rings. -/
structure System.Documented (sys : System) : Prop where
  init : ∀ {params xsk}, sys.fdXskInit params = some xsk →
    xsk.ringTx.depth.toNat = params.txDepth.toNat ∧ xsk.ringTx.prod = xsk.ringTx.cons
      ∧ xsk.ringCr.depth.toNat = params.crDepth.toNat ∧ xsk.ringCr.prod = xsk.ringCr.cons
      ∧ (∃ k, params.txDepth.toNat = 2 ^ k) ∧ (∃ k, params.crDepth.toNat = 2 ^ k)
      ∧ params.frameSz.toNat ≤ 2 ^ 16
  activate : ∀ {xsk mapFd xsk'}, sys.fdXskActivate xsk mapFd = some xsk' → xsk' = xsk

/-- `XdpConnection` -/
structure XdpConnection where
  xsk : Xsk
  xdpFds : XdpFds
  umem : Memory
  frameSz : UInt64
  srcIp : UInt32
  srcPort : UInt16
  srcMac : Vector UInt8 6
  txFrameIdx : UInt64
  txFrameCnt : UInt64

namespace XdpConnection

/-- The frame size of a configuration. -/
def frameSzOf (config : XdpConfig) : UInt64 :=
  if config.frameSz > 0 then config.frameSz else defaultFrameSz

/-- The ring depth of a configuration. -/
def ringDepthOf (config : XdpConfig) : UInt64 :=
  if config.ringDepth > 0 then config.ringDepth else defaultRingDepth

/-- The parameters with which `new` calls `fd_xsk_init`. -/
def paramsOf (config : XdpConfig) (ifIdx : UInt32) : XskParams where
  frDepth := ringDepthOf config
  rxDepth := ringDepthOf config
  txDepth := ringDepthOf config
  crDepth := ringDepthOf config
  frameSz := frameSzOf config
  umemSz := ringDepthOf config * 4 * frameSzOf config
  ifIdx := ifIdx
  ifQueueId := config.ifQueue
  bindFlags := 0

/-- `XdpConnection::new`. The region is zeroed. -/
def new (sys : System) (config : XdpConfig) : Except XdpError XdpConnection :=
  let ifIdx := sys.ifNametoindex config.ifName
  if ifIdx = 0 then
    .error .initFailed
  else
    match sys.fdXskInit (paramsOf config ifIdx) with
    | none => .error .initFailed
    | some xsk =>
      let xdpFds :=
        sys.fdXdpInstall ifIdx config.srcIp config.listenPortsCnt config.listenPorts "skb"
      if xdpFds.xskMapFd < 0 then
        .error .installFailed
      else
        match sys.fdXskActivate xsk xdpFds.xskMapFd with
        | none => .error .activateFailed
        | some xsk =>
          .ok
            { xsk := xsk
              xdpFds := xdpFds
              umem := fun _ => 0
              frameSz := frameSzOf config
              srcIp := config.srcIp
              srcPort := config.srcPort
              srcMac := config.srcMac
              txFrameIdx := 0
              txFrameCnt := ringDepthOf config * 4 }

/-- The bytes that `send_udp` writes to its frame. -/
def frame (conn : XdpConnection) (dstIp : UInt32) (dstPort : UInt16) (dstMac : Vector UInt8 6)
    (payload : List UInt8) : List UInt8 :=
  buildEthHeader dstMac conn.srcMac
    ++ buildIp4Header conn.srcIp dstIp (.ofNat (ip4HdrSz + udpHdrSz + payload.length))
    ++ buildUdpHeader conn.srcPort dstPort (.ofNat (udpHdrSz + payload.length))
    ++ payload

/-- The offset of the frame that `send_udp` writes. -/
def frameOffset (conn : XdpConnection) : UInt64 := conn.txFrameIdx * conn.frameSz

/-- `XdpConnection::send_udp`. The frame is written before the TX ring is checked. Waking up
the kernel changes nothing here: what the kernel does is a step of its own. -/
def sendUdp (conn : XdpConnection) (dstIp : UInt32) (dstPort : UInt16)
    (dstMac : Vector UInt8 6) (payload : List UInt8) : Except XdpError Unit × XdpConnection :=
  let totalLen := l2l3l4HdrSz + payload.length
  if totalLen > conn.frameSz.toNat then
    (.error .frameTooLarge, conn)
  else
    let conn' :=
      { conn with
        umem := conn.umem.write conn.frameOffset.toNat
          (conn.frame dstIp dstPort dstMac payload) }
    if conn.xsk.ringTx.Full then
      (.error .txFull, conn')
    else
      let desc : XdpDesc := { addr := conn.frameOffset, len := .ofNat totalLen, options := 0 }
      (.ok (),
        { conn' with
          xsk := { conn.xsk with ringTx := conn.xsk.ringTx.push desc }
          txFrameIdx := (conn.txFrameIdx + 1) % conn.txFrameCnt })

variable {sys : System} {config : XdpConfig} {conn : XdpConnection} {dstIp : UInt32}
  {dstPort : UInt16} {dstMac : Vector UInt8 6} {payload : List UInt8}

@[simp]
theorem length_frame :
  (conn.frame dstIp dstPort dstMac payload).length = l2l3l4HdrSz + payload.length
  := by simp [frame, l2l3l4HdrSz, Nat.add_assoc]

/-- What a connection made by `new` is. -/
theorem new_cases (h : new sys config = .ok conn) :
  ∃ ifIdx xsk mapFd,
    sys.fdXskInit (paramsOf config ifIdx) = some xsk
      ∧ sys.fdXskActivate xsk mapFd = some conn.xsk
      ∧ conn.frameSz = frameSzOf config
      ∧ conn.txFrameIdx = 0
      ∧ conn.txFrameCnt = ringDepthOf config * 4
  := by
  simp only [new] at h
  split at h
  · contradiction
  · split at h
    · contradiction
    · split at h
      · contradiction
      · split at h
        · contradiction
        case _ hinit _ _ _ hactivate =>
          injection h with h
          subst h
          exact ⟨_, _, _, hinit, hactivate, rfl, rfl, rfl⟩

/-- A connection whose rings are empty and of one depth, with four times as many frames. -/
structure Fresh (depth : Nat) (conn : XdpConnection) : Prop where
  pow2 : conn.xsk.ringTx.Pow2
  depthTx : conn.xsk.ringTx.depth.toNat = depth
  depthCr : conn.xsk.ringCr.depth.toNat = depth
  sizeTx : conn.xsk.ringTx.size = 0
  sizeCr : conn.xsk.ringCr.size = 0
  frameCnt : conn.txFrameCnt.toNat = depth * 4
  frameSz : conn.frameSz.toNat ≤ 2 ^ 16
  frameIdx : conn.txFrameIdx = 0

/-- A connection made by `new` has rings of the depth of its configuration. -/
theorem fresh_of_new (hsys : sys.Documented) (h : new sys config = .ok conn) :
  Fresh (ringDepthOf config).toNat conn
  := by
  obtain ⟨ifIdx, xsk, mapFd, hinit, hactivate, hframeSz, hframeIdx, hframeCnt⟩ := new_cases h
  obtain ⟨hdepthTx, hemptyTx, hdepthCr, hemptyCr, hpow2, -, hpage⟩ := hsys.init hinit
  have hxsk := hsys.activate hactivate
  have hdepth := xsk.ringTx.depth.toNat_lt
  rw [hdepthTx] at hdepth
  constructor
  case pow2 =>
    rw [hxsk, SharedRing.Pow2, hdepthTx]
    apply hpow2
  case depthTx => rw [hxsk, hdepthTx, paramsOf]
  case depthCr => rw [hxsk, hdepthCr, paramsOf]
  case sizeTx => rw [hxsk, SharedRing.size_eq_zero, hemptyTx]
  case sizeCr => rw [hxsk, SharedRing.size_eq_zero, hemptyCr]
  case frameCnt =>
    rw [hframeCnt, UInt64.toNat_mul]
    apply Nat.mod_eq_of_lt
    simp only [paramsOf, UInt64.reduceToNat] at hdepth ⊢
    omega
  case frameSz =>
    rw [hframeSz]
    apply hpage
  case frameIdx => apply hframeIdx

/-- The contents of an empty ring. -/
theorem Fresh.contents {depth : Nat} (h : conn.Fresh depth) :
  conn.xsk.ringTx.contents = []
  := List.eq_nil_of_length_eq_zero (SharedRing.length_contents.trans h.sizeTx)

/-- What `send_udp` does: it rejects the packet, it finds the TX ring full after it has written
the frame, or it pushes the descriptor of the frame. -/
theorem sendUdp_cases (conn : XdpConnection) (dstIp : UInt32) (dstPort : UInt16)
    (dstMac : Vector UInt8 6) (payload : List UInt8) :
  (conn.frameSz.toNat < l2l3l4HdrSz + payload.length
      ∧ conn.sendUdp dstIp dstPort dstMac payload = (.error .frameTooLarge, conn))
    ∨ l2l3l4HdrSz + payload.length ≤ conn.frameSz.toNat
      ∧ ((conn.xsk.ringTx.Full
          ∧ conn.sendUdp dstIp dstPort dstMac payload
            = (.error .txFull,
              { conn with
                umem := conn.umem.write conn.frameOffset.toNat
                  (conn.frame dstIp dstPort dstMac payload) }))
        ∨ ¬ conn.xsk.ringTx.Full
          ∧ conn.sendUdp dstIp dstPort dstMac payload
            = (.ok (),
              { conn with
                umem := conn.umem.write conn.frameOffset.toNat
                  (conn.frame dstIp dstPort dstMac payload)
                xsk :=
                  { conn.xsk with
                    ringTx := conn.xsk.ringTx.push
                      { addr := conn.frameOffset
                        len := .ofNat (l2l3l4HdrSz + payload.length)
                        options := 0 } }
                txFrameIdx := (conn.txFrameIdx + 1) % conn.txFrameCnt }))
  := by
  unfold sendUdp
  by_cases hlen : l2l3l4HdrSz + payload.length > conn.frameSz.toNat
  · left
    simp only [hlen, if_true, and_true]
  · right
    use Nat.not_lt.mp hlen
    by_cases hfull : conn.xsk.ringTx.Full
    · left
      simp [hlen, hfull]
    · right
      simp [hlen, hfull]

end XdpConnection

end FdXdp

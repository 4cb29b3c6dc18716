import Mathlib.Tactic.Common

/-!
# Packets of `fd_rpc::xdp`

The Ethernet, IPv4 and UDP headers that `send_udp` writes before its payload. Each builder
fills its whole slice of the frame, so it is the list of the bytes that it writes.
-/

namespace FdXdp

/-- `u16::to_be_bytes` -/
def be16 (x : UInt16) : List UInt8 := [(x >>> 8).toUInt8, x.toUInt8]

/-- `u32::to_be_bytes` -/
def be32 (x : UInt32) : List UInt8 :=
  [(x >>> 24).toUInt8, (x >>> 16).toUInt8, (x >>> 8).toUInt8, x.toUInt8]

/-- `ETH_HDR_SZ` -/
def ethHdrSz : Nat := 14

/-- `IP4_HDR_SZ` -/
def ip4HdrSz : Nat := 20

/-- `UDP_HDR_SZ` -/
def udpHdrSz : Nat := 8

/-- `L2L3L4_HDR_SZ` -/
def l2l3l4HdrSz : Nat := ethHdrSz + ip4HdrSz + udpHdrSz

/-- `build_eth_header` -/
def buildEthHeader (dstMac srcMac : Vector UInt8 6) : List UInt8 :=
  dstMac.toList ++ srcMac.toList ++ be16 0x0800

/-- The fields of an IPv4 header with a given checksum. -/
def ip4Fields (srcIp dstIp : UInt32) (totalLen checksum : UInt16) : List UInt8 :=
  [0x45, 0] ++ be16 totalLen ++ [0, 0] ++ [0x40, 0x00] ++ [64] ++ [17] ++ be16 checksum
    ++ be32 srcIp ++ be32 dstIp

/-- The sum of the big-endian 16-bit words of a header. -/
def sumWords : List UInt8 → UInt32 → UInt32
  | hi :: lo :: rest, sum => sumWords rest (sum + (hi.toUInt32 <<< 8 ||| lo.toUInt32))
  | _, sum => sum

/-- One pass of the loop that folds the carries. -/
def foldOnce (checksum : UInt32) : UInt32 :=
  (checksum &&& (0xFFFF : UInt32)) + (checksum >>> 16)

theorem toNat_foldOnce (checksum : UInt32) :
  (foldOnce checksum).toNat = checksum.toNat % (0xFFFF + 1) + checksum.toNat / (0xFFFF + 1)
  := by
  have hsize := checksum.toNat_lt
  have hand : (checksum &&& 0xFFFF).toNat = checksum.toNat % 2 ^ 16 := by
    rw [UInt32.toNat_and]
    apply Nat.and_two_pow_sub_one_eq_mod _ 16
  have hshift : (checksum >>> 16).toNat = checksum.toNat / 2 ^ 16 := by
    rw [UInt32.toNat_shiftRight, Nat.shiftRight_eq_div_pow]
    rfl
  have hlt : checksum.toNat % 2 ^ 16 + checksum.toNat / 2 ^ 16 < 2 ^ 32 := by omega
  have hsum : (foldOnce checksum).toNat = checksum.toNat % 2 ^ 16 + checksum.toNat / 2 ^ 16 := by
    rw [foldOnce, UInt32.toNat_add, hand, hshift, Nat.mod_eq_of_lt hlt]
  apply hsum

/-- Folding brings a sum that does not fit 16 bits closer to doing so. -/
theorem fold_lt {checksum : UInt32} (h : checksum > 0xFFFF) :
  ((checksum &&& (0xFFFF : UInt32)) + (checksum >>> 16)).toNat < checksum.toNat
  := by
  have hlt : (0xFFFF : UInt32).toNat < checksum.toNat := UInt32.lt_iff_toNat_lt.mp h
  have hfold := toNat_foldOnce checksum
  rw [foldOnce] at hfold
  rw [hfold]
  simp only [UInt32.reduceToNat] at hlt
  omega

/-- The loop of `build_ip4_header` that folds the carries into 16 bits. -/
def foldChecksum (checksum : UInt32) : UInt32 :=
  if checksum > 0xFFFF then
    foldChecksum ((checksum &&& (0xFFFF : UInt32)) + (checksum >>> 16))
  else
    checksum
termination_by checksum.toNat
decreasing_by exact fold_lt ‹_›

/-- `build_ip4_header` -/
def buildIp4Header (srcIp dstIp : UInt32) (totalLen : UInt16) : List UInt8 :=
  let checksum := foldChecksum (sumWords (ip4Fields srcIp dstIp totalLen 0) 0)
  ip4Fields srcIp dstIp totalLen (~~~ checksum.toUInt16)

/-- `build_udp_header` -/
def buildUdpHeader (srcPort dstPort totalLen : UInt16) : List UInt8 :=
  be16 srcPort ++ be16 dstPort ++ be16 totalLen ++ [0, 0]

@[simp]
theorem length_be16 (x : UInt16) :
  (be16 x).length = 2
  := rfl

@[simp]
theorem length_be32 (x : UInt32) :
  (be32 x).length = 4
  := rfl

@[simp]
theorem length_buildEthHeader (dstMac srcMac : Vector UInt8 6) :
  (buildEthHeader dstMac srcMac).length = ethHdrSz
  := by simp [buildEthHeader, ethHdrSz]

@[simp]
theorem length_buildIp4Header (srcIp dstIp : UInt32) (totalLen : UInt16) :
  (buildIp4Header srcIp dstIp totalLen).length = ip4HdrSz
  := by simp [buildIp4Header, ip4Fields, ip4HdrSz]

@[simp]
theorem length_buildUdpHeader (srcPort dstPort totalLen : UInt16) :
  (buildUdpHeader srcPort dstPort totalLen).length = udpHdrSz
  := by simp [buildUdpHeader, udpHdrSz]

end FdXdp

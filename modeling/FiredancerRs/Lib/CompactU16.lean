import FiredancerRs.Lib.Decoder

/-!
# Compact-u16

The variable-length encoding of 16-bit numbers: seven bits to a byte, low bits first, with
the high bit of a byte set when another byte follows. `encode` is the minimal encoding, and
`decode` accepts only minimal encodings.
-/

open Decoder

namespace CompactU16

/-- The minimal encoding of `v`. -/
def encode (v : Nat) : List UInt8 :=
  if v < 0x80 then
    [UInt8.ofNat v]
  else if v < 0x4000 then
    [UInt8.ofNat (v % 0x80 + 0x80), UInt8.ofNat (v / 0x80)]
  else
    [UInt8.ofNat (v % 0x80 + 0x80), UInt8.ofNat (v / 0x80 % 0x80 + 0x80),
      UInt8.ofNat (v / 0x4000)]

/-- Read a minimal encoding. -/
def decode : Decoder UInt8 Nat := do
  let a ← Decoder.next
  if a.toNat < 0x80 then
    pure a.toNat
  else do
    let b ← Decoder.next
    if b.toNat = 0 then
      Decoder.fail
    else if b.toNat < 0x80 then
      pure (a.toNat % 0x80 + b.toNat * 0x80)
    else do
      let c ← Decoder.next
      if c.toNat = 0 ∨ 4 ≤ c.toNat then
        Decoder.fail
      else
        pure (a.toNat % 0x80 + b.toNat % 0x80 * 0x80 + c.toNat * 0x4000)

theorem length_encode_le (v : Nat) :
  (encode v).length ≤ 3
  := by
  unfold encode
  split
  · simp
  · split <;> simp

theorem length_encode_of_lt {v : Nat} (h : v < 0x80) :
  (encode v).length = 1
  := by
  rw [encode, if_pos h]
  rfl

theorem length_encode_pos (v : Nat) :
  0 < (encode v).length
  := by
  unfold encode
  split
  · simp
  · split <;> simp

theorem toNat_ofNat_of_lt {n : Nat} (h : n < 0x100) :
  (UInt8.ofNat n).toNat = n
  := by
  rw [UInt8.toNat_ofNat']
  apply Nat.mod_eq_of_lt h

/-- Decoding reads back what was encoded. -/
theorem decode_reads {v : Nat} (hv : v < 0x10000) :
  decode.Reads (encode v) v
  := by
  unfold encode decode
  split
  · next h =>
    apply Reads.bind_pure (Reads.next _)
    rw [toNat_ofNat_of_lt (by omega), if_pos h]
    apply Reads.pure
  · next h =>
    split
    · next h' =>
      apply Reads.bind (Reads.next _)
      rw [toNat_ofNat_of_lt (by omega), if_neg (by omega)]
      apply Reads.bind_pure (Reads.next _)
      rw [toNat_ofNat_of_lt (by omega), if_neg (by omega), if_pos (by omega)]
      have hv' : (v % 0x80 + 0x80) % 0x80 + v / 0x80 * 0x80 = v := by omega
      rw [hv']
      apply Reads.pure
    · next h' =>
      apply Reads.bind (Reads.next _)
      rw [toNat_ofNat_of_lt (by omega), if_neg (by omega)]
      apply Reads.bind (Reads.next _)
      rw [toNat_ofNat_of_lt (by omega), if_neg (by omega), if_neg (by omega)]
      apply Reads.bind_pure (Reads.next _)
      rw [toNat_ofNat_of_lt (by omega), if_neg (by omega)]
      have hv' : (v % 0x80 + 0x80) % 0x80 + (v / 0x80 % 0x80 + 0x80) % 0x80 * 0x80
          + v / 0x4000 * 0x4000 = v := by omega
      rw [hv']
      apply Reads.pure

end CompactU16

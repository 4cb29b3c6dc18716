import FiredancerRs.Lib.OnesComplement
import FiredancerRs.Xdp.Packet

/-!
# The checksum of the IPv4 header

A header is read as big-endian 16-bit words. The loop of `build_ip4_header` folds the sum of the
words into 16 bits, and does not change it modulo `0xFFFF` (`foldChecksum_modEq`). With the
complement of the result as its checksum, the words of the header add up to `0xFFFF` in
one's-complement arithmetic (`buildIp4Header_sum`).
-/

namespace FdXdp

/-- The big-endian 16-bit words of some bytes. -/
def words : List UInt8 → List Nat
  | hi :: lo :: rest => (hi.toNat * 256 + lo.toNat) :: words rest
  | _ => []

/-- The big-endian 16-bit number at an offset. -/
def wordAt (bytes : List UInt8) (offset : Nat) : Nat :=
  (bytes.getD offset 0).toNat * 256 + (bytes.getD (offset + 1) 0).toNat

/-- The big-endian 32-bit number at an offset. -/
def longAt (bytes : List UInt8) (offset : Nat) : Nat :=
  wordAt bytes offset * 65536 + wordAt bytes (offset + 2)

/-! ### Words -/

theorem toNat_word (hi lo : UInt8) :
  (hi.toUInt32 <<< 8 ||| lo.toUInt32).toNat = hi.toNat * 256 + lo.toNat
  := by
  have hhi := hi.toNat_lt
  have hlo := lo.toNat_lt
  have hshift : (hi.toUInt32 <<< 8).toNat = hi.toNat <<< 8 := by
    rw [UInt32.toNat_shiftLeft, UInt8.toNat_toUInt32]
    apply Nat.mod_eq_of_lt
    change hi.toNat <<< 8 < 2 ^ 32
    rw [Nat.shiftLeft_eq]
    omega
  rw [UInt32.toNat_or, hshift, UInt8.toNat_toUInt32, ← Nat.shiftLeft_add_eq_or_of_lt hlo,
    Nat.shiftLeft_eq]

theorem mem_words_lt : ∀ {bytes : List UInt8}, ∀ a ∈ words bytes, a ≤ 0xFFFF
  | [], _, ha => by cases ha
  | [_], _, ha => by cases ha
  | hi :: lo :: rest, a, ha => by
      rw [words, List.mem_cons] at ha
      rcases ha with rfl | ha
      · have hhi := hi.toNat_lt
        have hlo := lo.toNat_lt
        omega
      · apply mem_words_lt a ha

/-- The sum of the words, if it fits 32 bits. -/
theorem toNat_sumWords : ∀ {bytes : List UInt8} {sum : UInt32},
    sum.toNat + (words bytes).sum < 2 ^ 32 →
      (sumWords bytes sum).toNat = sum.toNat + (words bytes).sum
  | [], _, _ => rfl
  | [_], _, _ => rfl
  | hi :: lo :: rest, sum, h => by
      rw [words, List.sum_cons] at h ⊢
      have hadd : (sum + (hi.toUInt32 <<< 8 ||| lo.toUInt32)).toNat
          = sum.toNat + (hi.toNat * 256 + lo.toNat) := by
        rw [UInt32.toNat_add, toNat_word]
        apply Nat.mod_eq_of_lt
        apply Nat.lt_of_le_of_lt _ h
        apply Nat.add_le_add_left (Nat.le_add_right _ _)
      have hrest : (sum + (hi.toUInt32 <<< 8 ||| lo.toUInt32)).toNat + (words rest).sum
          < 2 ^ 32 := by
        rw [hadd, Nat.add_assoc]
        apply h
      rw [sumWords, toNat_sumWords hrest, hadd, Nat.add_assoc]

/-! ### Folding -/

/-- The loop ends after some passes with a sum that fits 16 bits. -/
theorem foldChecksum_passes (checksum : UInt32) :
  ∃ n, foldChecksum checksum = foldOnce^[n] checksum
    ∧ (∀ i < n, 0xFFFF < foldOnce^[i] checksum)
    ∧ foldChecksum checksum ≤ 0xFFFF
  := by
  induction checksum using foldChecksum.induct with
  | case1 checksum hlt ih =>
    obtain ⟨n, hn, hbefore, hle⟩ := ih
    rw [foldChecksum, if_pos hlt]
    use n + 1, hn
    constructor
    · intro i hi
      cases i with
      | zero => apply hlt
      | succ i => apply hbefore i (Nat.lt_of_succ_lt_succ hi)
    · apply hle
  | case2 checksum hle =>
    rw [foldChecksum, if_neg hle]
    use 0, rfl
    constructor
    · intro i hi
      cases hi
    · apply UInt32.not_lt.mp hle

/-- Folding changes the sum neither modulo `0xFFFF` nor to or from zero. -/
theorem foldChecksum_modEq (checksum : UInt32) :
  (foldChecksum checksum).toNat ≡ checksum.toNat [MOD 0xFFFF]
    ∧ ((foldChecksum checksum).toNat = 0 ↔ checksum.toNat = 0)
  := by
  induction checksum using foldChecksum.induct with
  | case1 checksum hlt ih =>
    rw [foldChecksum, if_pos hlt]
    obtain ⟨hmod, hzero⟩ := ih
    have hfold := toNat_foldOnce checksum
    rw [foldOnce] at hfold
    rw [hfold] at hmod hzero
    constructor
    · apply hmod.trans (OnesComplement.fold_modEq _)
    · apply hzero.trans (OnesComplement.fold_eq_zero_iff _)
  | case2 checksum hle =>
    rw [foldChecksum, if_neg hle]
    constructor <;> rfl

/-! ### The header -/

variable (srcIp dstIp : UInt32) (totalLen checksum : UInt16)

theorem word_be16 (x : UInt16) :
  (x >>> 8).toUInt8.toNat * 256 + x.toUInt8.toNat = x.toNat
  := by
  have hx := x.toNat_lt
  have hshift : (x >>> 8).toNat = x.toNat / 256 := by
    rw [UInt16.toNat_shiftRight, Nat.shiftRight_eq_div_pow]
    rfl
  rw [UInt16.toNat_toUInt8, UInt16.toNat_toUInt8, hshift]
  omega

theorem words_be32 (x : UInt32) :
  (x >>> 24).toUInt8.toNat * 256 + (x >>> 16).toUInt8.toNat = x.toNat / 65536
    ∧ (x >>> 8).toUInt8.toNat * 256 + x.toUInt8.toNat = x.toNat % 65536
  := by
  have hx := x.toNat_lt
  have hshift : ∀ k, k < 32 → (x >>> (UInt32.ofNat k)).toNat = x.toNat / 2 ^ k := by
    intro k hk
    have hmod : k % 2 ^ 32 % 32 = k := by omega
    rw [UInt32.toNat_shiftRight, Nat.shiftRight_eq_div_pow, UInt32.toNat_ofNat', hmod]
  have h24 : (x >>> 24).toNat = x.toNat / 2 ^ 24 := hshift 24 (by decide)
  have h16 : (x >>> 16).toNat = x.toNat / 2 ^ 16 := hshift 16 (by decide)
  have h8 : (x >>> 8).toNat = x.toNat / 2 ^ 8 := hshift 8 (by decide)
  rw [UInt32.toNat_toUInt8, UInt32.toNat_toUInt8, UInt32.toNat_toUInt8, UInt32.toNat_toUInt8, h24,
    h16, h8]
  omega

/-- The words of a header. -/
theorem words_ip4Fields :
  words (ip4Fields srcIp dstIp totalLen checksum)
    = [0x4500, totalLen.toNat, 0, 0x4000, 0x4011, checksum.toNat,
        srcIp.toNat / 65536, srcIp.toNat % 65536, dstIp.toNat / 65536, dstIp.toNat % 65536]
  := by
  obtain ⟨hsrcHi, hsrcLo⟩ := words_be32 srcIp
  obtain ⟨hdstHi, hdstLo⟩ := words_be32 dstIp
  rw [← hsrcHi, ← hsrcLo, ← hdstHi, ← hdstLo, ← word_be16 totalLen, ← word_be16 checksum]
  rfl

/-- The sum of the words of a header without its checksum. -/
def headerSum : Nat :=
  0x4500 + totalLen.toNat + 0x4000 + 0x4011 + srcIp.toNat / 65536 + srcIp.toNat % 65536
    + dstIp.toNat / 65536 + dstIp.toNat % 65536

theorem sum_words_ip4Fields :
  (words (ip4Fields srcIp dstIp totalLen checksum)).sum
    = headerSum srcIp dstIp totalLen + checksum.toNat
  := by
  rw [words_ip4Fields, headerSum]
  simp only [List.sum_cons, List.sum_nil]
  omega

/-- The sum that the loop folds does not overflow. -/
theorem toNat_sumWords_header :
  (sumWords (ip4Fields srcIp dstIp totalLen 0) 0).toNat
    = (words (ip4Fields srcIp dstIp totalLen 0)).sum
  := by
  have htotal := totalLen.toNat_lt
  have hsrc := srcIp.toNat_lt
  have hdst := dstIp.toNat_lt
  have hlt : headerSum srcIp dstIp totalLen < 2 ^ 32 := by
    rw [headerSum]
    omega
  rw [toNat_sumWords, UInt32.toNat_zero, Nat.zero_add]
  rw [sum_words_ip4Fields, UInt32.toNat_zero, Nat.zero_add]
  apply hlt

/-- The checksum of a header is what the sum of its other words lacks to a multiple of `0xFFFF`. -/
theorem exists_checksum :
  ∃ checksum : UInt16,
    buildIp4Header srcIp dstIp totalLen = ip4Fields srcIp dstIp totalLen checksum
      ∧ 0xFFFF ∣ headerSum srcIp dstIp totalLen + checksum.toNat
  := by
  obtain ⟨n, -, -, hle⟩ := foldChecksum_passes (sumWords (ip4Fields srcIp dstIp totalLen 0) 0)
  obtain ⟨hmod, -⟩ := foldChecksum_modEq (sumWords (ip4Fields srcIp dstIp totalLen 0) 0)
  rw [toNat_sumWords_header, sum_words_ip4Fields] at hmod
  rw [buildIp4Header]
  generalize foldChecksum (sumWords (ip4Fields srcIp dstIp totalLen 0) 0) = folded at hmod hle
  use ~~~ folded.toUInt16, rfl
  have hfits : folded.toNat ≤ 0xFFFF := UInt32.le_iff_toNat_le.mp hle
  have hcomplement : (~~~ folded.toUInt16).toNat = 0xFFFF - folded.toNat := by
    rw [UInt16.toNat_not, UInt32.toNat_toUInt16, Nat.mod_eq_of_lt (Nat.lt_succ_of_le hfits)]
    rfl
  have hadd : headerSum srcIp dstIp totalLen + (0xFFFF - folded.toNat)
      ≡ folded.toNat + (0xFFFF - folded.toNat) [MOD 0xFFFF] := hmod.symm.add_right _
  rw [Nat.add_sub_cancel' hfits] at hadd
  rw [hcomplement]
  apply (hadd.dvd_iff (dvd_refl _)).mpr (dvd_refl _)

/-- The words of a header, with its checksum, add up to `0xFFFF` in one's-complement arithmetic. -/
theorem sum_buildIp4Header :
  OnesComplement.sum 0xFFFF (words (buildIp4Header srcIp dstIp totalLen)) = 0xFFFF
  := by
  obtain ⟨checksum, heq, hdvd⟩ := exists_checksum srcIp dstIp totalLen
  rw [heq]
  have hmem : 0x4500 ∈ words (ip4Fields srcIp dstIp totalLen checksum) := by
    rw [words_ip4Fields]
    apply List.mem_cons_self
  rw [← sum_words_ip4Fields] at hdvd
  apply OnesComplement.sum_eq_of_dvd mem_words_lt hdvd hmem (by decide)

/-- What a receiver reads off the fields of a header. -/
structure ReadsBack (header : List UInt8) : Prop where
  length : header.length = ip4HdrSz
  totalLen : wordAt header 2 = totalLen.toNat
  srcIp : longAt header 12 = srcIp.toNat
  dstIp : longAt header 16 = dstIp.toNat

theorem readsBack_buildIp4Header :
  ReadsBack srcIp dstIp totalLen (buildIp4Header srcIp dstIp totalLen)
  := by
  obtain ⟨checksum, heq, -⟩ := exists_checksum srcIp dstIp totalLen
  obtain ⟨hsrcHi, hsrcLo⟩ := words_be32 srcIp
  obtain ⟨hdstHi, hdstLo⟩ := words_be32 dstIp
  constructor
  case length => apply length_buildIp4Header
  case totalLen =>
    rw [heq]
    apply word_be16
  case srcIp =>
    rw [heq]
    apply Eq.trans _ (Nat.div_add_mod' srcIp.toNat 65536)
    rw [← hsrcHi, ← hsrcLo]
    rfl
  case dstIp =>
    rw [heq]
    apply Eq.trans _ (Nat.div_add_mod' dstIp.toNat 65536)
    rw [← hdstHi, ← hdstLo]
    rfl

/-- The header that `build_ip4_header` writes: its ten words add up to `0xFFFF`, its fields read
back, and the sum, which does not overflow, is folded in finitely many passes to one that fits 16
bits. -/
theorem buildIp4Header_valid :
  let header := buildIp4Header srcIp dstIp totalLen
  let sum := sumWords (ip4Fields srcIp dstIp totalLen 0) 0
  (words header).length = 10
    ∧ OnesComplement.sum 0xFFFF (words header) = 0xFFFF
    ∧ ReadsBack srcIp dstIp totalLen header
    ∧ sum.toNat = (words (ip4Fields srcIp dstIp totalLen 0)).sum
    ∧ ∃ n, foldChecksum sum = foldOnce^[n] sum ∧ (∀ i < n, 0xFFFF < foldOnce^[i] sum)
      ∧ foldChecksum sum ≤ 0xFFFF
  := by
  intro header sum
  constructor
  · obtain ⟨checksum, heq, -⟩ := exists_checksum srcIp dstIp totalLen
    dsimp only [header]
    rw [heq, words_ip4Fields]
    rfl
  constructor
  · apply sum_buildIp4Header
  constructor
  · apply readsBack_buildIp4Header
  constructor
  · apply toNat_sumWords_header
  · apply foldChecksum_passes

end FdXdp

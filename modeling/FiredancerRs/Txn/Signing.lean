import FiredancerRs.Txn.InRange
import Mathlib.Data.List.Induction

/-!
# Signing

The buffer of a transaction that `build` returns has the count of the signatures, a place for each,
and the message one after another, at the offsets that the transaction records (`Signed`). To set a
signature changes its place and nothing else, so after any number of them each place holds the last
signature that was set there (`signed_of_build`).
-/

open FdEd25519 FixedArray

namespace FdTxn

variable {sys : Sys}

namespace ArrayTransaction

/-- `set_signature` -/
def setSignature (tx : ArrayTransaction sys) (index : Nat)
    (signature : Vector UInt8 sys.signatureSz) : Except Fault (ArrayTransaction sys) :=
  if index < tx.sigCount.toNat then do
    let place ← FixedArray.mul index sys.signatureSz
    let start ← FixedArray.add tx.sigOff place
    let stop ← FixedArray.add start sys.signatureSz
    let buf ← FixedArray.copy tx.buf start stop signature.toList
    pure { tx with buf := buf }
  else
    .error (.assertion "signature index out of bounds")

/-- `as_bytes` -/
def asBytes (tx : ArrayTransaction sys) : Except Fault Bytes := FixedArray.slice tx.buf 0 tx.len

/-- `message_bytes` -/
def messageBytes (tx : ArrayTransaction sys) : Except Fault Bytes :=
  FixedArray.slice tx.buf tx.messageOff tx.len

/-- `signature_count` -/
def signatureCount (tx : ArrayTransaction sys) : Nat := tx.sigCount.toNat

/-- Calls of `set_signature`, one after another. -/
def setSignatures (tx : ArrayTransaction sys) (calls : List (Nat × Vector UInt8 sys.signatureSz)) :
    Except Fault (ArrayTransaction sys) :=
  calls.foldlM (fun tx call => tx.setSignature call.1 call.2) tx

/-- The last signature that calls set at a place, and zeros when they set none there. -/
def lastSignature (calls : List (Nat × Vector UInt8 sys.signatureSz)) (index : Nat) : Bytes :=
  ((calls.reverse.find? fun call => call.1 = index).map fun call => call.2.toList).getD
    (List.replicate sys.signatureSz 0)

/-- The buffer has the count, the signatures and the message, at the offsets of the transaction. -/
structure Signed (tx : ArrayTransaction sys) (count : UInt8) (sigs : List Bytes)
    (message : Bytes) : Prop where
  buf : ∃ rest, tx.buf.toList
    = sys.cu16Enc count.toUInt16 ++ (sigs.flatten ++ (message ++ rest))
  sigCount : tx.sigCount = count
  length : sigs.length = count.toNat
  size : ∀ sig ∈ sigs, sig.length = sys.signatureSz
  sigOff : tx.sigOff = (sys.cu16Enc count.toUInt16).length
  messageOff : tx.messageOff = (sys.cu16Enc count.toUInt16).length + sigs.length * sys.signatureSz
  len : tx.len = tx.messageOff + message.length

variable {tx : ArrayTransaction sys} {count : UInt8} {sigs : List Bytes} {message : Bytes}

/-- Signatures of one size are as long as their number says. -/
theorem length_flatten_sigs {size : Nat} (h : ∀ sig ∈ sigs, sig.length = size) :
  sigs.flatten.length = sigs.length * size
  := by
  rw [List.length_flatten, List.map_congr_left h, List.map_const', List.sum_replicate_nat]

theorem Signed.len_le (h : Signed tx count sigs message) :
  tx.len ≤ sys.mtu
  := by
  obtain ⟨rest, hbuf⟩ := h.buf
  have hlen := congrArg List.length hbuf
  have hsize := length_flatten_sigs h.size
  have hoff := h.messageOff
  have hend := h.len
  rw [Vector.length_toList, List.length_append, List.length_append, List.length_append] at hlen
  omega

theorem Signed.messageBytes (h : Signed tx count sigs message) :
  tx.messageBytes = .ok message
  := by
  obtain ⟨rest, hbuf⟩ := h.buf
  have hend := h.len
  have hle := h.len_le
  have hhead : (sys.cu16Enc count.toUInt16 ++ sigs.flatten).length = tx.messageOff := by
    rw [List.length_append, length_flatten_sigs h.size, h.messageOff]
  rw [ArrayTransaction.messageBytes, slice_of_le _ (by omega) hle, hbuf, ← List.append_assoc,
    Buffer.slice, List.drop_left' hhead, List.take_left' (by omega)]

theorem Signed.asBytes (h : Signed tx count sigs message) :
  tx.asBytes = .ok (sys.cu16Enc count.toUInt16 ++ sigs.flatten ++ message)
  := by
  obtain ⟨rest, hbuf⟩ := h.buf
  have hlen : (sys.cu16Enc count.toUInt16 ++ sigs.flatten ++ message).length = tx.len := by
    rw [List.length_append, List.length_append, length_flatten_sigs h.size, h.len, h.messageOff]
  rw [ArrayTransaction.asBytes, slice_of_le _ (Nat.zero_le _) h.len_le, hbuf,
    Buffer.slice, List.drop_zero, Nat.sub_zero, ← List.append_assoc, ← List.append_assoc,
    List.take_left' hlen]

/-- To set a signature at a place changes this place. -/
theorem Signed.setSignature (h : Signed tx count sigs message) {index : Nat}
    (hindex : index < count.toNat) (signature : Vector UInt8 sys.signatureSz) :
  ∃ tx', tx.setSignature index signature = .ok tx'
    ∧ Signed tx' count (sigs.set index signature.toList) message
  := by
  obtain ⟨rest, hbuf⟩ := h.buf
  have hmtu := sys.mtu_lt
  have hle := h.len_le
  have hoff := h.sigOff
  have hmessage := h.messageOff
  have hend := h.len
  have hin : index < sigs.length := by rwa [h.length]
  have hplace : (index + 1) * sys.signatureSz ≤ sigs.length * sys.signatureSz :=
    Nat.mul_le_mul_right _ hin
  rw [Nat.succ_mul] at hplace
  have hlen : signature.toList.length = sys.signatureSz := Vector.length_toList
  have hstop : tx.sigOff + index * sys.signatureSz + signature.toList.length ≤ sys.mtu := by
    omega
  obtain ⟨buf, hcopy, hlist⟩ := copy_of_le tx.buf hstop
  rw [hlen] at hcopy
  rw [hbuf, hoff, Buffer.overwrite_flatten hlen h.size hin] at hlist
  use { tx with buf := buf }
  constructor
  · rw [ArrayTransaction.setSignature, h.sigCount, if_pos hindex, mul_of_lt (by omega),
      Except.ok_bind, add_of_lt (by omega), Except.ok_bind, add_of_lt (by omega), Except.ok_bind,
      hcopy]
    rfl
  · exact {
      buf := ⟨rest, hlist⟩
      sigCount := h.sigCount
      length := by rw [List.length_set, h.length]
      size := by
        intro sig hsig
        rcases List.mem_or_eq_of_mem_set hsig with hsig | rfl
        · apply h.size sig hsig
        · apply hlen
      sigOff := hoff
      messageOff := by rw [List.length_set, hmessage]
      len := hend }

/-- A call of `set_signature` more is the last one at its place. -/
theorem lastSignature_concat (calls : List (Nat × Vector UInt8 sys.signatureSz))
    (call : Nat × Vector UInt8 sys.signatureSz) (index : Nat) :
  lastSignature (calls ++ [call]) index
    = if call.1 = index then call.2.toList else lastSignature calls index
  := by
  rw [lastSignature, lastSignature, List.reverse_append, List.reverse_singleton,
    List.singleton_append, List.find?_cons]
  by_cases h : call.1 = index
  · simp [h]
  · simp [h]

theorem map_lastSignature_concat (n : Nat) (calls : List (Nat × Vector UInt8 sys.signatureSz))
    (call : Nat × Vector UInt8 sys.signatureSz) :
  (List.range n).map (lastSignature (calls ++ [call]))
    = ((List.range n).map (lastSignature calls)).set call.1 call.2.toList
  := by
  apply List.ext_getElem
  · simp only [List.length_set, List.length_map]
  · intro i hi hi'
    rw [List.getElem_set, List.getElem_map, List.getElem_map, List.getElem_range,
      lastSignature_concat]

/-- After calls of `set_signature` each place has the last signature that was set there. -/
theorem Signed.setSignatures
    (h : Signed tx count (List.replicate count.toNat (List.replicate sys.signatureSz 0)) message)
    (calls : List (Nat × Vector UInt8 sys.signatureSz)) :
  (∀ call ∈ calls, call.1 < count.toNat) →
    ∃ tx', tx.setSignatures calls = .ok tx'
      ∧ Signed tx' count ((List.range count.toNat).map (lastSignature calls)) message
  := by
  intro hcalls
  induction calls using List.reverseRecOn with
  | nil =>
    use tx, rfl
    have hblank : List.replicate count.toNat (List.replicate sys.signatureSz 0)
        = (List.range count.toNat).map (@lastSignature sys []) := by
      change _ = (List.range count.toNat).map fun _ => List.replicate sys.signatureSz 0
      rw [List.map_const', List.length_range]
    rwa [← hblank]
  | append_singleton calls call ih =>
    rw [List.forall_mem_append, List.forall_mem_singleton] at hcalls
    obtain ⟨tx₁, hrun, htx₁⟩ := ih hcalls.1
    obtain ⟨tx', hset, htx'⟩ := htx₁.setSignature hcalls.2 call.2
    use tx'
    constructor
    · rw [ArrayTransaction.setSignatures, List.foldlM_append]
      rw [ArrayTransaction.setSignatures] at hrun
      rw [hrun, Except.ok_bind, List.foldlM_cons, hset]
      rfl
    · rwa [map_lastSignature_concat]

end ArrayTransaction

namespace TransactionBuilder

/-- The offsets of a transaction that `build` returns. -/
theorem build_offsets {b : TransactionBuilder} {tx : UnsignedTransaction} (hb : Reachable sys b)
    (h : b.build sys = .ok tx) :
  ∃ message, tx.buf = sys.cu16Enc tx.sigCount.toUInt16
        ++ (List.replicate (tx.sigCount.toNat * sys.signatureSz) 0 ++ message)
    ∧ tx.sigOff = (sys.cu16Enc tx.sigCount.toUInt16).length
    ∧ tx.messageOff = tx.sigOff + tx.sigCount.toNat * sys.signatureSz
  := by
  rw [build] at h
  split at h
  · simp at h
  · simp at h
  · next feePayer blockhash hfp hbh =>
    split at h
    · simp at h
    · split at h
      · simp at h
      · next fpIdx hfind =>
        rw [serialize, Except.ite_error_eq_ok_iff] at h
        obtain ⟨-, h⟩ := h
        simp only [Except.bind_eq_ok_iff, writeSigs, writeSlice_eq_ok_iff,
          writeCu16_eq_ok_iff] at h
        obtain ⟨sigs, ⟨_, ⟨-, rfl⟩, -, rfl⟩, buf, hmsg, -, -, h⟩ := h
        rw [Except.pure_eq_ok_iff] at h
        subst h
        have hbuf := writeMessage_ok hb.fits hb.indexed.entries hmsg
        refine ⟨(b.wireOf sys (b.sorted fpIdx) blockhash).encodeMessage, ?_, rfl, ?_⟩
        · rw [hbuf, sys.cu16Enc_eq, List.nil_append, List.append_assoc]
        · simp [sys.cu16Enc_eq]

end TransactionBuilder

open ArrayTransaction

/-- The places of the signatures of a transaction that `build` returns are zero. -/
theorem signed_of_build (hsz : sys.signatureSz = 64) {s : ArrayBuilder sys} (h : Reached s)
    {tx : ArrayTransaction sys} (hbuild : s.build = .ok tx) :
  ∃ message, Signed tx tx.sigCount
    (List.replicate tx.sigCount.toNat (List.replicate sys.signatureSz 0)) message
  := by
  obtain ⟨b, hs, hb⟩ := h.represents
  have hsim := ArrayBuilder.build_simulates (by rw [hsz]; decide) hs hb.indexed
  rw [hbuild] at hsim
  obtain ⟨tx', htx', hholds⟩ := hsim.ok_right
  obtain ⟨message, hbuf, hsigOff, hmessageOff⟩ := TransactionBuilder.build_offsets hb htx'
  have hfilled := hholds.filled
  rw [← hholds.sigCount] at hbuf hsigOff hmessageOff
  use message
  constructor
  · use List.replicate (sys.mtu - tx.len) 0
    rw [hfilled.elements, hbuf, List.append_assoc, List.append_assoc,
      List.flatten_replicate_replicate]
  · rfl
  · apply List.length_replicate
  · intro sig hsig
    rw [List.eq_of_mem_replicate hsig, List.length_replicate]
  · rw [hholds.sigOff, hsigOff]
  · rw [hholds.messageOff, hmessageOff, hsigOff, List.length_replicate]
  · rw [hfilled.count_eq, hbuf, List.length_append, List.length_append, List.length_replicate,
      hholds.messageOff, hmessageOff, hsigOff, Nat.add_assoc]

/-- After signatures are set, the bytes of the transaction are the count of the signatures, at each
place the last signature set there, and the message as it was after `build`. -/
theorem setSignatures_of_build (hsz : sys.signatureSz = 64) {s : ArrayBuilder sys} (h : Reached s)
    {tx : ArrayTransaction sys} (hbuild : s.build = .ok tx)
    {calls : List (Nat × Vector UInt8 sys.signatureSz)}
    (hcalls : ∀ call ∈ calls, call.1 < tx.signatureCount) :
  ∃ tx' message, tx.setSignatures calls = .ok tx'
    ∧ tx.messageBytes = .ok message ∧ tx'.messageBytes = .ok message
    ∧ tx'.signatureCount = tx.signatureCount
    ∧ tx'.asBytes = .ok (CompactU16.encode tx.signatureCount
        ++ ((List.range tx.signatureCount).map (lastSignature calls)).flatten ++ message)
  := by
  obtain ⟨message, hsigned⟩ := signed_of_build hsz h hbuild
  obtain ⟨tx', hrun, htx'⟩ := hsigned.setSignatures calls hcalls
  refine ⟨tx', message, hrun, hsigned.messageBytes, htx'.messageBytes, ?_, ?_⟩
  · rw [signatureCount, htx'.sigCount, signatureCount]
  · rw [htx'.asBytes, sys.cu16Enc_eq, UInt8.toNat_toUInt16]
    rfl

theorem sampleBuilder_sigCount :
  (sampleBuilder.build .accepting).map UnsignedTransaction.sigCount = .ok 2
  := by
  change (sampleBuilder.serialize .accepting (sampleBuilder.sorted 0) _).map _ = _
  rw [sampleBuilder_sorted]
  decide +kernel

theorem setSignatures_sample :
  ∃ (s : ArrayBuilder .accepting) (tx tx' : ArrayTransaction .accepting) (message : Bytes),
    Reached s ∧ s.build = .ok tx
      ∧ tx.setSignatures [(1, .replicate 64 7), (0, .replicate 64 8), (1, .replicate 64 9)] = .ok tx'
      ∧ tx.messageBytes = .ok message ∧ tx'.messageBytes = .ok message
      ∧ tx'.asBytes = .ok ([2] ++ (.replicate 64 8 ++ .replicate 64 9) ++ message)
  := by
  obtain ⟨s, hreached, hs⟩ := sampleBuilder_built.reached (by
    simp [sampleCalls, Call.InMemory])
  have hsim := ArrayBuilder.build_simulates (by decide) hs sampleBuilder_built.reachable.indexed
  have hcount := sampleBuilder_sigCount
  cases hbuild : sampleBuilder.build .accepting with
  | error e =>
    rw [hbuild] at hcount
    cases hcount
  | ok tx₀ =>
    rw [hbuild] at hcount hsim
    obtain ⟨tx, htx, hholds⟩ := hsim.of_ok
    have hcount : tx.signatureCount = 2 := by
      rw [signatureCount, hholds.sigCount, Except.ok.inj hcount]
      rfl
    have hcalls : ∀ call ∈ ([(1, .replicate 64 7), (0, .replicate 64 8), (1, .replicate 64 9)] :
        List (Nat × Vector UInt8 64)), call.1 < tx.signatureCount := by
      rw [hcount]
      decide
    obtain ⟨tx', message, hrun, hmsg, hmsg', -, hbytes⟩ :=
      setSignatures_of_build rfl hreached htx hcalls
    rw [hcount] at hbytes
    exact ⟨s, tx, tx', message, hreached, htx, hrun, hmsg, hmsg', hbytes⟩

end FdTxn

import Mathlib.Data.List.Basic
import FiredancerRs.Ed25519.Pubkey

/-!
# Verification of signatures

`Pubkey::verify` and `batch_verify_single_message` of `fd_ed25519`. The C functions they call are
the fields of `VerifySys`, and the batch function is tied to the single one by
`VerifySys.verifyBatch_eq_success`: it succeeds when it accepts the size of the batch and as many
pairs as the size says verify. The size is one byte, so of a longer list only the first pairs are
verified (`batchVerify_sound_iff`).
-/

namespace FdEd25519

/-- The functions and the codes of `fd_ed25519_sys` that verification uses. -/
structure VerifySys where
  /-- `FD_ED25519_SUCCESS` -/
  success : Int
  /-- `FD_ED25519_ERR_SIG` -/
  errSig : Int
  /-- `FD_ED25519_ERR_PUBKEY` -/
  errPubkey : Int
  /-- `FD_ED25519_ERR_MSG` -/
  errMsg : Int
  /-- `fd_ed25519_verify`, of a message, a signature and a public key. -/
  verify : Bytes → Bytes → Bytes → Int
  /-- `fd_ed25519_verify_batch_single_msg`, of a message, the signatures, the public keys and the
  size of the batch. -/
  verifyBatchSingleMsg : Bytes → Bytes → Bytes → UInt8 → Int
  /-- The sizes of a batch that the function accepts. -/
  accepted : UInt8 → Bool
  verifyBatch_eq_success (message : Bytes) (pubkeys : List Pubkey) (signatures : List Signature)
    (size : UInt8) :
    size.toNat ≤ pubkeys.length → size.toNat ≤ signatures.length →
    (verifyBatchSingleMsg message (signatures.flatMap Signature.asBytes)
        (pubkeys.flatMap Pubkey.asBytes) size = success
      ↔ accepted size = true ∧ ∀ pair ∈ (pubkeys.zip signatures).take size.toNat,
          verify message pair.2.asBytes pair.1.asBytes = success)

variable (sys : VerifySys)

/-- `convert_ed25519_error` -/
def convertEd25519Error (code : Int) : Ed25519Error :=
  if code = sys.errSig then .invalidSignature "Invalid signature format"
  else if code = sys.errPubkey then .invalidPublicKey "Invalid public key format"
  else if code = sys.errMsg then .verificationFailed
  else .cryptoError "Unknown error occurred"

/-- How the two functions read the code that the C function returns. -/
def verified (result : Int) : Except Ed25519Error Bool :=
  if result = sys.success then .ok true
  else if result = sys.errMsg then .ok false
  else .error (convertEd25519Error sys result)

/-- `Pubkey::verify` -/
def Pubkey.verify (key : Pubkey) (message : Bytes) (signature : Signature) :
    Except Ed25519Error Bool :=
  verified sys (sys.verify message signature.asBytes key.asBytes)

/-- `batch_verify_single_message` -/
def batchVerifySingleMessage (message : Bytes) (pubkeys : List Pubkey)
    (signatures : List Signature) : Except Ed25519Error Bool :=
  if pubkeys.length ≠ signatures.length then
    .error (.invalidInput "Number of public keys must match number of signatures")
  else if pubkeys.isEmpty then
    .ok true
  else
    -- `pubkeys.len() as u8`
    let batchSize := UInt8.ofNat pubkeys.length
    let signatureBytes := signatures.flatMap Signature.asBytes
    let pubkeyBytes := pubkeys.flatMap Pubkey.asBytes
    verified sys (sys.verifyBatchSingleMsg message signatureBytes pubkeyBytes batchSize)

/-- The signature of the pair verifies for the message under the public key of the pair. -/
def Verifies (message : Bytes) (pair : Pubkey × Signature) : Prop :=
  pair.1.verify sys message pair.2 = .ok true

instance (message : Bytes) (pair : Pubkey × Signature) : Decidable (Verifies sys message pair) :=
  inferInstanceAs (Decidable (_ = _))

variable {sys}

theorem verified_eq_true_iff {result : Int} :
  verified sys result = .ok true ↔ result = sys.success
  := by
  rw [verified]
  split
  · next hsuccess => simp [hsuccess]
  · next hsuccess =>
    split
    · simp [hsuccess]
    · simp [hsuccess]

/-- The batch is valid when the list is empty, or when its length modulo 256 is an accepted size
and as many pairs verify. -/
theorem batchVerify_eq_true_iff {message : Bytes} {pubkeys : List Pubkey}
    {signatures : List Signature} (hlen : pubkeys.length = signatures.length) :
  batchVerifySingleMessage sys message pubkeys signatures = .ok true
    ↔ pubkeys = []
      ∨ (sys.accepted (UInt8.ofNat pubkeys.length) = true
        ∧ ∀ pair ∈ (pubkeys.zip signatures).take (pubkeys.length % 256),
            Verifies sys message pair)
  := by
  rw [batchVerifySingleMessage, if_neg (not_not.mpr hlen)]
  cases hpubkeys : pubkeys with
  | nil => simp
  | cons key rest =>
    rw [← hpubkeys]
    have hsize : (UInt8.ofNat pubkeys.length).toNat = pubkeys.length % 256 := by
      rw [UInt8.toNat_ofNat']
    have hle := Nat.mod_le pubkeys.length 256
    have hempty : pubkeys.isEmpty = false := by
      rw [hpubkeys]
      rfl
    have hbatch := sys.verifyBatch_eq_success message pubkeys signatures
      (UInt8.ofNat pubkeys.length) (by rwa [hsize]) (by rwa [hsize, ← hlen])
    rw [hempty, if_neg (by decide), verified_eq_true_iff, hbatch, hsize]
    simp only [Verifies, Pubkey.verify, verified_eq_true_iff, hpubkeys, reduceCtorEq, false_or]

/-- For equally long lists, the batch is valid only if every pair verifies, except when the list
has 256 pairs or more, its length modulo 256 is an accepted size, as many pairs verify, and one
of the others does not. -/
theorem batchVerify_sound_iff {message : Bytes} {pubkeys : List Pubkey}
    {signatures : List Signature} (hlen : pubkeys.length = signatures.length) :
  (batchVerifySingleMessage sys message pubkeys signatures = .ok true →
      ∀ pair ∈ pubkeys.zip signatures, Verifies sys message pair)
    ↔ ¬ (256 ≤ pubkeys.length
      ∧ sys.accepted (UInt8.ofNat pubkeys.length) = true
      ∧ (∀ pair ∈ (pubkeys.zip signatures).take (pubkeys.length % 256), Verifies sys message pair)
      ∧ ∃ pair ∈ (pubkeys.zip signatures).drop (pubkeys.length % 256), ¬ Verifies sys message pair)
  := by
  have hzip : (pubkeys.zip signatures).length = pubkeys.length := by
    rw [List.length_zip, ← hlen, Nat.min_self]
  rw [batchVerify_eq_true_iff hlen]
  constructor
  · rintro hsound ⟨-, haccepted, hfirst, pair, hpair, hnot⟩
    apply hnot (hsound (.inr ⟨haccepted, hfirst⟩) pair (List.mem_of_mem_drop hpair))
  · rintro hnone (rfl | ⟨haccepted, hfirst⟩) pair hpair
    · simp at hpair
    · rw [← List.take_append_drop (pubkeys.length % 256) (pubkeys.zip signatures)] at hpair
      rcases List.mem_append.mp hpair with hmem | hmem
      · apply hfirst pair hmem
      · by_contra hnot
        refine hnone ⟨?_, haccepted, hfirst, pair, hmem, hnot⟩
        have hdrop := List.length_pos_of_mem hmem
        rw [List.length_drop, hzip] at hdrop
        by_contra hlt
        rw [Nat.mod_eq_of_lt (Nat.not_le.mp hlt), Nat.sub_self] at hdrop
        apply Nat.lt_irrefl 0 hdrop

/-! ### A batch that is longer than its size says -/

/-- The signatures at the start of the bytes have a leading one. -/
def leadingOnes : Nat → Bytes → Bool
  | 0, _ => true
  | n + 1, signatures => signatures.head? = some 1 && leadingOnes n (signatures.drop 64)

theorem leadingOnes_flatMap (n : Nat) {pubkeys : List Pubkey} {signatures : List Signature}
    (hpubkeys : n ≤ pubkeys.length) (hsignatures : n ≤ signatures.length) :
  leadingOnes n (signatures.flatMap Signature.asBytes) = true
    ↔ ∀ pair ∈ (pubkeys.zip signatures).take n, pair.2.asBytes.head? = some 1
  := by
  induction n generalizing pubkeys signatures with
  | zero => simp [leadingOnes]
  | succ n ih =>
    obtain ⟨key, pubkeys, rfl⟩ := List.exists_cons_of_length_pos (Nat.zero_lt_of_lt hpubkeys)
    obtain ⟨signature, signatures, rfl⟩ :=
      List.exists_cons_of_length_pos (Nat.zero_lt_of_lt hsignatures)
    have hlength : signature.asBytes.length = 64 := Vector.length_toList
    have hhead : (signature.asBytes ++ signatures.flatMap Signature.asBytes).head?
        = signature.asBytes.head? := by
      apply List.head?_append_of_ne_nil
      intro hnil
      rw [hnil] at hlength
      cases hlength
    rw [List.flatMap_cons, leadingOnes, ← hlength, List.drop_left, hhead, List.zip_cons_cons,
      List.take_succ_cons, List.forall_mem_cons,
      ← ih (Nat.le_of_succ_le_succ hpubkeys) (Nat.le_of_succ_le_succ hsignatures)]
    simp

/-- Functions for which the signatures with a leading one verify, and a batch has at least one
and at most sixteen pairs. -/
def leadingOneSys : VerifySys where
  success := 0
  errSig := -1
  errPubkey := -2
  errMsg := -3
  verify _ signature _ := if signature.head? = some 1 then 0 else -3
  verifyBatchSingleMsg _ signatures _ size :=
    if (1 ≤ size ∧ size ≤ 16) ∧ leadingOnes size.toNat signatures then 0 else -3
  accepted size := 1 ≤ size ∧ size ≤ 16
  verifyBatch_eq_success message pubkeys signatures size hpubkeys hsignatures := by
    simp [leadingOnes_flatMap _ hpubkeys hsignatures, and_assoc]

/-- A signature with the leading byte. -/
def signatureWith (leading : UInt8) : Signature :=
  ⟨Vector.ofFn fun i => if i = 0 then leading else 0⟩

/-- 257 signatures, of which only the first has a leading one. -/
def forged : List Signature := signatureWith 1 :: List.replicate 256 (signatureWith 0)

/-- 257 public keys. -/
def forgedKeys : List Pubkey := List.replicate 257 ⟨Vector.replicate 32 0⟩

/-- Two signatures with a leading one. -/
def genuine : List Signature := List.replicate 2 (signatureWith 1)

theorem batchVerify_sound_iff_two :
  batchVerifySingleMessage leadingOneSys [] (forgedKeys.take 2) genuine = .ok true
    ∧ ∀ pair ∈ (forgedKeys.take 2).zip genuine, Verifies leadingOneSys [] pair
  := by
  have hvalid :
      batchVerifySingleMessage leadingOneSys [] (forgedKeys.take 2) genuine = .ok true := by
    decide
  have hshort : ¬ 256 ≤ (forgedKeys.take 2).length := by decide
  use hvalid
  apply (batchVerify_sound_iff (by decide)).mpr
  · rintro ⟨hlong, -⟩
    apply hshort hlong
  · apply hvalid

/-- A batch with 257 pairs is valid although only its first pair verifies. -/
theorem batchVerify_forged :
  forgedKeys.length = forged.length
    ∧ batchVerifySingleMessage leadingOneSys [] forgedKeys forged = .ok true
    ∧ ∃ pair ∈ forgedKeys.zip forged, ¬ Verifies leadingOneSys [] pair
  := by
  refine ⟨by decide +kernel, by decide +kernel, (⟨Vector.replicate 32 0⟩, signatureWith 0), ?_,
    by decide⟩
  have hget : (forgedKeys.zip forged)[1]? = some (⟨Vector.replicate 32 0⟩, signatureWith 0) := by
    rfl
  apply List.mem_of_getElem? hget

end FdEd25519

import FiredancerRs.Txn.Order
import FiredancerRs.Lib.Except

/-!
# The wire format

The Solana wire format of a transaction, as a decoder: a compact-u16 count of signatures and
the signatures, the version byte `0x80` of a versioned message, the header, the keys, the
blockhash, the instructions, and for version 0 an empty list of lookup tables.

`build_wire`: when `build` succeeds, its bytes decode to the message whose keys are those of
the account table in the order of the message and whose instructions are the compiled
entries of the builder.
-/

open FdEd25519 Decoder

namespace FdTxn

/-- An instruction of a message, with its accounts as positions in the keys. -/
structure CompiledInstruction where
  programIdx : UInt8
  accounts : Bytes
  data : Bytes
deriving DecidableEq, Repr

/-- A decoded transaction. -/
structure WireTransaction where
  signatures : List Bytes
  version : TransactionVersion
  header : Header
  keys : List Pubkey
  blockhash : Bytes32
  instructions : List CompiledInstruction
deriving DecidableEq, Repr

/-- The program id, the accounts and the data that an instruction of a message stands for. -/
def WireTransaction.resolve (tx : WireTransaction) (ix : CompiledInstruction) :
    Option (Pubkey × List Pubkey × Bytes) := do
  let program ← tx.keys[ix.programIdx.toNat]?
  let accounts ← ix.accounts.mapM fun i => tx.keys[i.toNat]?
  pure (program, accounts, ix.data)

/-- Read 32 bytes. -/
def decodeBytes32 : Decoder UInt8 Bytes32 := fun s =>
  if h : (s.take 32).length = 32 then some (⟨(s.take 32).toArray, h⟩, s.drop 32) else none

/-- Read a key. -/
def decodeKey : Decoder UInt8 Pubkey := do
  let bytes ← decodeBytes32
  pure ⟨bytes⟩

/-- Read an instruction. -/
def decodeInstruction : Decoder UInt8 CompiledInstruction := do
  let programIdx ← next
  let acctCnt ← CompactU16.decode
  let accounts ← take acctCnt
  let dataLen ← CompactU16.decode
  let data ← take dataLen
  pure ⟨programIdx, accounts, data⟩

/-- Read the list of address lookup tables of a version 0 message, which must be empty. -/
def decodeLookups : TransactionVersion → Decoder UInt8 Unit
  | .legacy => pure ()
  | .v0 => do
    let count ← CompactU16.decode
    if count = 0 then pure () else fail

/-- Read a message after its version byte. -/
def decodeBody (signatures : List Bytes) (version : TransactionVersion) :
    Decoder UInt8 WireTransaction := do
  let sigCount ← next
  let readonlySigned ← next
  let readonlyUnsigned ← next
  let keyCount ← CompactU16.decode
  let keys ← replicate decodeKey keyCount
  let blockhash ← decodeBytes32
  let instrCount ← CompactU16.decode
  let instructions ← replicate decodeInstruction instrCount
  decodeLookups version
  pure ⟨signatures, version, ⟨sigCount, readonlySigned, readonlyUnsigned⟩, keys, blockhash,
    instructions⟩

/-- Read a transaction with signatures of the given size. A first byte of the message below
`0x80` is the header of a legacy message, and `0x80` is the version byte of version 0. -/
def decodeTransaction (signatureSz : Nat) : Decoder UInt8 WireTransaction := do
  let sigCount ← CompactU16.decode
  let signatures ← replicate (take signatureSz) sigCount
  let first ← peek
  if first.toNat < 0x80 then
    decodeBody signatures .legacy
  else do
    let version ← next
    if version = 0x80 then decodeBody signatures .v0 else fail

/-! ### What the parts read -/

theorem decodeBytes32_reads (bytes : Bytes32) :
  decodeBytes32.Reads bytes.toList bytes
  := by
  intro rest
  have htake : (bytes.toList ++ rest).take 32 = bytes.toList := by
    rw [List.take_append_of_le_length (by simp), List.take_of_length_le (by simp)]
  have hdrop : (bytes.toList ++ rest).drop 32 = rest := by
    rw [List.drop_append_of_le_length (by simp), List.drop_of_length_le (by simp)]
    rfl
  unfold decodeBytes32
  simp only [htake, hdrop]
  rw [dif_pos (Vector.length_toList)]
  rfl

theorem decodeKey_reads (key : Pubkey) :
  decodeKey.Reads key.asBytes key
  := by
  apply Reads.bind_pure (decodeBytes32_reads key.bytes)
  apply Reads.pure

/-- The bytes of an instruction. -/
def CompiledInstruction.encode (ix : CompiledInstruction) : Bytes :=
  [ix.programIdx] ++ (CompactU16.encode ix.accounts.length ++ (ix.accounts
    ++ (CompactU16.encode ix.data.length ++ ix.data)))

theorem decodeInstruction_reads {ix : CompiledInstruction} (haccts : ix.accounts.length < 0x10000)
    (hdata : ix.data.length < 0x10000) :
  decodeInstruction.Reads ix.encode ix
  := by
  apply Reads.bind (Reads.next _)
  apply Reads.bind (CompactU16.decode_reads haccts)
  apply Reads.bind (Reads.take rfl)
  apply Reads.bind (CompactU16.decode_reads hdata)
  apply Reads.bind_pure (Reads.take rfl)
  apply Reads.pure

/-- The bytes of the list of lookup tables of a message without any. -/
def encodeLookups : TransactionVersion → Bytes
  | .legacy => []
  | .v0 => CompactU16.encode 0

theorem decodeLookups_reads (version : TransactionVersion) :
  (decodeLookups version).Reads (encodeLookups version) ()
  := by
  cases version with
  | legacy => apply Reads.pure
  | v0 =>
    apply Reads.bind_pure (CompactU16.decode_reads (by decide))
    rw [if_pos rfl]
    apply Reads.pure

/-- The bytes of a message after its version byte. -/
def WireTransaction.encodeBody (tx : WireTransaction) : Bytes :=
  [tx.header.sigCount] ++ ([tx.header.readonlySigned] ++ ([tx.header.readonlyUnsigned]
    ++ (CompactU16.encode tx.keys.length ++ (tx.keys.flatMap Pubkey.asBytes
    ++ (tx.blockhash.toList ++ (CompactU16.encode tx.instructions.length
    ++ (tx.instructions.flatMap CompiledInstruction.encode ++ encodeLookups tx.version)))))))

/-- The counts of a transaction fit a compact-u16. -/
structure WireTransaction.Encodable (tx : WireTransaction) : Prop where
  keys : tx.keys.length < 0x10000
  instructions : tx.instructions.length < 0x10000
  accounts : ∀ ix ∈ tx.instructions, ix.accounts.length < 0x10000
  data : ∀ ix ∈ tx.instructions, ix.data.length < 0x10000

theorem decodeBody_reads {tx : WireTransaction} (h : tx.Encodable) :
  (decodeBody tx.signatures tx.version).Reads tx.encodeBody tx
  := by
  apply Reads.bind (Reads.next _)
  apply Reads.bind (Reads.next _)
  apply Reads.bind (Reads.next _)
  apply Reads.bind (CompactU16.decode_reads h.keys)
  apply Reads.bind (Reads.replicate fun key _ => decodeKey_reads key)
  apply Reads.bind (decodeBytes32_reads _)
  apply Reads.bind (CompactU16.decode_reads h.instructions)
  apply Reads.bind (Reads.replicate fun ix hix =>
    decodeInstruction_reads (h.accounts ix hix) (h.data ix hix))
  apply Reads.bind_pure (decodeLookups_reads _)
  apply Reads.pure

/-- The bytes of a message. -/
def WireTransaction.encodeMessage (tx : WireTransaction) : Bytes :=
  match tx.version with
  | .legacy => tx.encodeBody
  | .v0 => [0x80] ++ tx.encodeBody

/-- The bytes of a transaction. -/
def WireTransaction.encode (tx : WireTransaction) : Bytes :=
  CompactU16.encode tx.signatures.length ++ (tx.signatures.flatten ++ tx.encodeMessage)

/-- A transaction with fewer than 128 signers decodes to itself. -/
theorem decodeTransaction_reads {tx : WireTransaction} {signatureSz : Nat} (h : tx.Encodable)
    (hsigs : ∀ sig ∈ tx.signatures, sig.length = signatureSz)
    (hcount : tx.signatures.length < 0x10000) (hheader : tx.header.sigCount.toNat < 0x80) :
  (decodeTransaction signatureSz).Reads tx.encode tx
  := by
  apply Reads.bind (CompactU16.decode_reads hcount)
  apply Reads.bind (s := tx.signatures.flatten)
  · have hreads : (replicate (take signatureSz) tx.signatures.length).Reads
        (tx.signatures.flatMap id) tx.signatures :=
      Reads.replicate fun sig hsig => Reads.take (hsigs sig hsig)
    rwa [List.flatMap_id] at hreads
  · have hbody := decodeBody_reads h
    unfold WireTransaction.encodeMessage
    cases hv : tx.version with
    | legacy =>
      rw [hv] at hbody
      apply Reads.peek_bind (t := tx.header.sigCount)
      rw [if_pos hheader]
      apply hbody
    | v0 =>
      rw [hv] at hbody
      apply Reads.peek_bind (t := 0x80)
      rw [if_neg (by decide)]
      apply Reads.bind (Reads.next _)
      rw [if_pos rfl]
      apply hbody

/-! ### What `build` writes -/

variable {sys : Sys}

theorem writeSlice_eq_ok_iff {buf buf' data : Bytes} :
  writeSlice sys buf data = .ok buf' ↔ buf.length + data.length ≤ sys.mtu ∧ buf ++ data = buf'
  := by
  rw [writeSlice, Except.ite_error_eq_ok_iff, Except.ok.injEq, Nat.not_lt]

theorem writeCu16_eq_ok_iff {buf buf' : Bytes} {val : UInt16} :
  writeCu16 sys buf val = .ok buf'
    ↔ buf.length + 3 ≤ sys.mtu ∧ buf ++ CompactU16.encode val.toNat = buf'
  := by
  rw [writeCu16, Except.ite_error_eq_ok_iff, Except.ok.injEq, sys.cu16Enc_eq, Nat.not_lt]

namespace TransactionBuilder

/-- The instruction of the message for an entry of the builder. -/
def compile (b : TransactionBuilder) (remap : Bytes) (entry : InstrEntry) :
    CompiledInstruction where
  programIdx := remap.getD entry.programIdx.toNat 0
  accounts := ((b.instrAcctBuf.drop entry.acctOff.toNat).take entry.acctCnt.toNat).map
    fun i => remap.getD i.toNat 0
  data := (b.instrDataBuf.drop entry.dataOff.toNat).take entry.dataLen.toNat

theorem length_accounts_compile {b : TransactionBuilder} {remap : Bytes} {entry : InstrEntry}
    (h : entry.acctOff.toNat + entry.acctCnt.toNat ≤ b.instrAcctBuf.length) :
  (b.compile remap entry).accounts.length = entry.acctCnt.toNat
  := by
  rw [compile, List.length_map, List.length_take, List.length_drop]
  omega

theorem length_data_compile {b : TransactionBuilder} {remap : Bytes} {entry : InstrEntry}
    (h : entry.dataOff.toNat + entry.dataLen.toNat ≤ b.instrDataBuf.length) :
  (b.compile remap entry).data.length = entry.dataLen.toNat
  := by
  rw [compile, List.length_take, List.length_drop]
  omega

/-- The loop of `build` for an entry appends the bytes of its instruction. -/
theorem writeInstr_ok {b : TransactionBuilder} {remap buf buf' : Bytes} {entry : InstrEntry}
    (hacct : entry.acctOff.toNat + entry.acctCnt.toNat ≤ b.instrAcctBuf.length)
    (hdata : entry.dataOff.toNat + entry.dataLen.toNat ≤ b.instrDataBuf.length)
    (h : b.writeInstr sys remap buf entry = .ok buf') :
  buf' = buf ++ (b.compile remap entry).encode
  := by
  simp only [writeInstr, Except.bind_eq_ok_iff, writeSlice_eq_ok_iff, writeCu16_eq_ok_iff] at h
  obtain ⟨_, ⟨-, rfl⟩, _, ⟨-, rfl⟩, _, ⟨-, rfl⟩, _, ⟨-, rfl⟩, -, rfl⟩ := h
  rw [CompiledInstruction.encode, length_accounts_compile hacct, length_data_compile hdata]
  simp [compile]

/-- The transaction `build` writes: the signatures are zeroed, the keys are those of the
account table in the order of the message, and the instructions are the compiled entries. -/
def wireOf (sys : Sys) (b : TransactionBuilder) (sorted : List Nat) (blockhash : Bytes32) :
    WireTransaction where
  signatures := List.replicate (b.headerOf sorted).sigCount.toNat
    (List.replicate sys.signatureSz 0)
  version := b.version
  header := b.headerOf sorted
  keys := keys (b.messageAccts sorted)
  blockhash := blockhash
  instructions := b.instrs.map (b.compile (remapOf sys sorted))

/-- The two byte segments of every entry lie in the buffers. -/
def EntriesFit (b : TransactionBuilder) : Prop :=
  ∀ entry ∈ b.instrs,
    entry.acctOff.toNat + entry.acctCnt.toNat ≤ b.instrAcctBuf.length
      ∧ entry.dataOff.toNat + entry.dataLen.toNat ≤ b.instrDataBuf.length

theorem writeMessage_ok {b : TransactionBuilder} {fpIdx : Nat} {blockhash : Bytes32}
    {buf buf' : Bytes} (hb : Fits sys b) (hentries : b.EntriesFit)
    (h : b.writeMessage sys (b.sorted fpIdx) (b.headerOf (b.sorted fpIdx)) blockhash buf
      = .ok buf') :
  buf' = buf ++ (b.wireOf sys (b.sorted fpIdx) blockhash).encodeMessage
  := by
  have haccts : (UInt16.ofNat b.accts.length).toNat
      = (keys (b.messageAccts (b.sorted fpIdx))).length := by
    rw [(b.keys_messageAccts_perm fpIdx).length_eq, length_keys, UInt16.toNat_ofNat']
    apply Nat.mod_eq_of_lt
    have := hb.accts
    have := sys.acctAddrMax_eq
    have := sys.sigMax_lt
    omega
  have hinstrs : (UInt16.ofNat b.instrs.length).toNat
      = (b.instrs.map (b.compile (remapOf sys (b.sorted fpIdx)))).length := by
    rw [List.length_map, UInt16.toNat_ofNat']
    apply Nat.mod_eq_of_lt
    have := hb.instrs
    have := sys.instrMax_lt
    omega
  simp only [writeMessage, Except.bind_eq_ok_iff, writeSlice_eq_ok_iff, writeCu16_eq_ok_iff] at h
  obtain ⟨buf₁, hversion, _, ⟨-, rfl⟩, _, ⟨-, rfl⟩, buf₂, hkeys, _, ⟨-, rfl⟩, _, ⟨-, rfl⟩,
    buf₃, hloop, hlookups⟩ := h
  have hkeys' := Except.foldlM_append (g := b.keyAt)
    (fun i _ t t' ht => (writeSlice_eq_ok_iff.mp ht).2.symm) hkeys
  rw [b.flatMap_keyAt isSome_of_mem_sorted] at hkeys'
  have hloop' := Except.foldlM_append
    (g := fun entry => (b.compile (remapOf sys (b.sorted fpIdx)) entry).encode)
    (fun entry hentry t t' ht =>
      writeInstr_ok (hentries entry hentry).1 (hentries entry hentry).2 ht) hloop
  rw [← List.flatMap_map] at hloop'
  rw [WireTransaction.encodeMessage]
  cases hv : b.version with
  | legacy =>
    simp only [writeVersion, writeLookups, hv, reduceCtorEq, if_false, Except.ok.injEq]
      at hversion hlookups
    subst hversion hlookups
    rw [hloop', hkeys']
    simp [wireOf, hv, WireTransaction.encodeBody, encodeLookups, haccts, hinstrs]
  | v0 =>
    simp only [writeVersion, writeLookups, hv, if_true, writeSlice_eq_ok_iff,
      writeCu16_eq_ok_iff] at hversion hlookups
    obtain ⟨-, rfl⟩ := hversion
    obtain ⟨-, rfl⟩ := hlookups
    rw [hloop', hkeys']
    simp [wireOf, hv, WireTransaction.encodeBody, encodeLookups, haccts, hinstrs]

/-- What it takes for `build` to succeed: it writes the transaction `wireOf` of the builder,
with the fee payer and the blockhash of the builder. -/
theorem build_ok {b : TransactionBuilder} {tx : UnsignedTransaction} (hb : Fits sys b)
    (hentries : b.EntriesFit) (h : b.build sys = .ok tx) :
  ∃ feePayer blockhash fpIdx,
    b.feePayer = some feePayer ∧ b.blockhash = some blockhash
      ∧ indexOf b.accts feePayer = some fpIdx
      ∧ (b.headerOf (b.sorted fpIdx)).sigCount.toNat ≤ sys.sigMax
      ∧ tx.asBytes = (b.wireOf sys (b.sorted fpIdx) blockhash).encode
  := by
  rw [build] at h
  split at h
  · simp at h
  · simp at h
  · next feePayer blockhash hfp hbh =>
    split at h
    · simp at h
    · split at h
      · simp at h
      · next fpIdx hfind =>
        rw [serialize, Except.ite_error_eq_ok_iff] at h
        obtain ⟨hsig, h⟩ := h
        simp only [Except.bind_eq_ok_iff, writeSigs, writeSlice_eq_ok_iff,
          writeCu16_eq_ok_iff] at h
        obtain ⟨sigs, ⟨_, ⟨-, rfl⟩, -, rfl⟩, buf, hmsg, -, -, h⟩ := h
        rw [Except.pure_eq_ok_iff] at h
        subst h
        refine ⟨feePayer, blockhash, fpIdx, hfp, hbh, hfind, by omega, ?_⟩
        change buf = _
        rw [writeMessage_ok hb hentries hmsg, WireTransaction.encode]
        simp [wireOf, List.flatten_replicate_replicate]

theorem encodable_wireOf {b : TransactionBuilder} {fpIdx : Nat} {blockhash : Bytes32}
    (hb : Fits sys b) (hentries : b.EntriesFit) :
  (b.wireOf sys (b.sorted fpIdx) blockhash).Encodable
  := by
  have hmtu := sys.mtu_lt
  constructor
  · rw [wireOf, (b.keys_messageAccts_perm fpIdx).length_eq, length_keys]
    have := hb.accts
    have := sys.acctAddrMax_eq
    have := sys.sigMax_lt
    omega
  · rw [wireOf, List.length_map]
    have := hb.instrs
    have := sys.instrMax_lt
    omega
  · intro ix hix
    obtain ⟨entry, hentry, rfl⟩ := List.mem_map.mp hix
    rw [length_accounts_compile (hentries entry hentry).1]
    apply UInt16.toNat_lt
  · intro ix hix
    obtain ⟨entry, hentry, rfl⟩ := List.mem_map.mp hix
    rw [length_data_compile (hentries entry hentry).2]
    apply UInt16.toNat_lt

/-- The bytes of the transaction `wireOf` decode to it, when its signers are within their
limit. -/
theorem decode_encode_wireOf {b : TransactionBuilder} {fpIdx : Nat} (hb : Fits sys b)
    (hentries : b.EntriesFit)
    (hsig : (b.headerOf (b.sorted fpIdx)).sigCount.toNat ≤ sys.sigMax) (blockhash : Bytes32) :
  decodeTransaction sys.signatureSz (b.wireOf sys (b.sorted fpIdx) blockhash).encode
    = some (b.wireOf sys (b.sorted fpIdx) blockhash, [])
  := by
  have hsigMax := sys.sigMax_lt
  have hreads : (decodeTransaction sys.signatureSz).Reads _
      (b.wireOf sys (b.sorted fpIdx) blockhash) := decodeTransaction_reads
    (encodable_wireOf hb hentries)
    (by
      intro sig hmem
      rw [List.eq_of_mem_replicate hmem, List.length_replicate])
    (by
      rw [wireOf, List.length_replicate]
      omega)
    (by
      change (b.headerOf (b.sorted fpIdx)).sigCount.toNat < 0x80
      omega)
  have hread := hreads []
  rwa [List.append_nil] at hread

/-- The bytes of a successful `build` decode to the transaction `wireOf` of the builder. -/
theorem build_wire {b : TransactionBuilder} {tx : UnsignedTransaction} (hb : Fits sys b)
    (hentries : b.EntriesFit) (h : b.build sys = .ok tx) :
  ∃ feePayer blockhash fpIdx,
    b.feePayer = some feePayer ∧ b.blockhash = some blockhash
      ∧ indexOf b.accts feePayer = some fpIdx
      ∧ decodeTransaction sys.signatureSz tx.asBytes
          = some (b.wireOf sys (b.sorted fpIdx) blockhash, [])
  := by
  obtain ⟨feePayer, blockhash, fpIdx, hfp, hbh, hidx, hsig, hbytes⟩ := build_ok hb hentries h
  refine ⟨feePayer, blockhash, fpIdx, hfp, hbh, hidx, ?_⟩
  rw [hbytes]
  apply decode_encode_wireOf hb hentries hsig

end TransactionBuilder

end FdTxn

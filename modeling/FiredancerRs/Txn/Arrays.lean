import FiredancerRs.Lib.FixedArray
import FiredancerRs.Txn.Builder

/-!
# The builder in its arrays

`TransactionBuilder` and `build` over the arrays of a fixed size and the counters that the code
keeps, with every access, sum and cast checked. The model over lists is what they hold.
-/

open FdEd25519 FixedArray

namespace FdTxn

variable {sys : Sys}

/-- `TransactionBuilder`, in its arrays. -/
structure ArrayBuilder (sys : Sys) where
  acctKeys : Vector Pubkey sys.acctAddrMax
  acctFlags : Vector UInt8 sys.acctAddrMax
  acctCount : Nat
  instrs : Vector InstrEntry sys.instrMax
  instrCount : Nat
  instrAcctBuf : Vector UInt8 sys.mtu
  instrAcctLen : Nat
  instrDataBuf : Vector UInt8 sys.mtu
  instrDataLen : Nat
  feePayer : Option Pubkey
  blockhash : Option Bytes32
  version : TransactionVersion

/-- `ZERO_KEY` -/
def zeroKey : Pubkey := ⟨Vector.replicate 32 0⟩

/-- `ZERO_INSTR` -/
def zeroInstr : InstrEntry := ⟨0, 0, 0, 0, 0⟩

namespace ArrayBuilder

/-- `TransactionBuilder::new` -/
def new : ArrayBuilder sys where
  acctKeys := Vector.replicate _ zeroKey
  acctFlags := Vector.replicate _ 0
  acctCount := 0
  instrs := Vector.replicate _ zeroInstr
  instrCount := 0
  instrAcctBuf := Vector.replicate _ 0
  instrAcctLen := 0
  instrDataBuf := Vector.replicate _ 0
  instrDataLen := 0
  feePayer := none
  blockhash := none
  version := .legacy

/-- The search of `find_account` in the rows from an index on, with the number of those left. -/
def findFrom (s : ArrayBuilder sys) (pubkey : Pubkey) : Nat → Nat → Except Fault (Option Nat)
  | 0, _ => pure none
  | left + 1, i => do
    let key ← FixedArray.get s.acctKeys i
    if key = pubkey then pure (some i) else s.findFrom pubkey left (i + 1)

/-- `find_account` -/
def findAccount (s : ArrayBuilder sys) (pubkey : Pubkey) : Except Fault (Option Nat) :=
  s.findFrom pubkey s.acctCount 0

/-- A new row at `acct_count`, with no flags. -/
def pushAccount (s : ArrayBuilder sys) (pubkey : Pubkey) : Except Fault (ArrayBuilder sys) := do
  let acctKeys ← FixedArray.set s.acctKeys s.acctCount pubkey
  let acctFlags ← FixedArray.set s.acctFlags s.acctCount 0
  let acctCount ← FixedArray.add s.acctCount 1
  pure { s with acctKeys := acctKeys, acctFlags := acctFlags, acctCount := acctCount }

/-- `self.acct_flags[idx] |= flag` -/
def orFlags (s : ArrayBuilder sys) (idx : Nat) (flag : UInt8) : Except Fault (ArrayBuilder sys) := do
  let flags ← FixedArray.get s.acctFlags idx
  let acctFlags ← FixedArray.set s.acctFlags idx (flags ||| flag)
  pure { s with acctFlags := acctFlags }

/-- `if cond { self.acct_flags[idx] |= flag; }` -/
def orFlagsIf (s : ArrayBuilder sys) (cond : Bool) (idx : Nat) (flag : UInt8) :
    Except Fault (ArrayBuilder sys) :=
  if cond then s.orFlags idx flag else pure s

/-- `find_or_insert` -/
def findOrInsert (s : ArrayBuilder sys) (pubkey : Pubkey) :
    Except Fault (Except BuildError Nat × ArrayBuilder sys) := do
  match ← s.findAccount pubkey with
  | some i => pure (.ok i, s)
  | none =>
    if s.acctCount ≥ sys.acctAddrMax then
      pure (.error .tooManyAccounts, s)
    else do
      let s' ← s.pushAccount pubkey
      pure (.ok s.acctCount, s')

/-- `version` -/
def setVersion (s : ArrayBuilder sys) (version : TransactionVersion) : ArrayBuilder sys :=
  { s with version := version }

/-- `recent_blockhash` -/
def recentBlockhash (s : ArrayBuilder sys) (hash : Bytes32) : ArrayBuilder sys :=
  { s with blockhash := some hash }

/-- `fee_payer` -/
def setFeePayer (s : ArrayBuilder sys) (pubkey : Pubkey) : Except Fault (ArrayBuilder sys) := do
  match ← s.findAccount pubkey with
  | some i => do
    let s ← s.orFlags i (ACCT_F_SIGNER ||| ACCT_F_WRITABLE)
    pure { s with feePayer := some pubkey }
  | none =>
    if s.acctCount < sys.acctAddrMax then do
      let s' ← s.pushAccount pubkey
      let s' ← s'.orFlags s.acctCount (ACCT_F_SIGNER ||| ACCT_F_WRITABLE)
      pure { s' with feePayer := some pubkey }
    else
      .error (.assertion "account table full")

/-- `add_signer` -/
def addSigner (s : ArrayBuilder sys) (pubkey : Pubkey) :
    Except Fault (Except BuildError Unit × ArrayBuilder sys) := do
  match ← s.findOrInsert pubkey with
  | (.error e, s) => pure (.error e, s)
  | (.ok idx, s) => do
    let s ← s.orFlags idx ACCT_F_SIGNER
    pure (.ok (), s)

/-- The loop of `add_instruction` over the accounts. -/
def addAccounts (s : ArrayBuilder sys) :
    List AccountMeta → Except Fault (Except BuildError Unit × ArrayBuilder sys)
  | [] => pure (.ok (), s)
  | m :: metas => do
    match ← s.findOrInsert m.pubkey with
    | (.error e, s) => pure (.error e, s)
    | (.ok idx, s) => do
      let s ← s.orFlagsIf m.isSigner idx ACCT_F_SIGNER
      let s ← s.orFlagsIf m.isWritable idx ACCT_F_WRITABLE
      if s.instrAcctLen ≥ sys.mtu then
        pure (.error .dataTooLarge, s)
      else do
        let idx ← toU8 idx
        let instrAcctBuf ← FixedArray.set s.instrAcctBuf s.instrAcctLen idx
        let instrAcctLen ← FixedArray.add s.instrAcctLen 1
        addAccounts { s with instrAcctBuf := instrAcctBuf, instrAcctLen := instrAcctLen } metas

/-- The end of `add_instruction`, once the accounts are stored. -/
def addEntry (s : ArrayBuilder sys) (ix : InstructionBuf) (progIdx acctOff : Nat) :
    Except Fault (Except BuildError Unit × ArrayBuilder sys) := do
  let dataOff := s.instrDataLen
  let stop ← FixedArray.add s.instrDataLen ix.data.length
  if stop > sys.mtu then
    pure (.error .dataTooLarge, s)
  else do
    let instrDataBuf ← FixedArray.copy s.instrDataBuf s.instrDataLen stop ix.data
    let programIdx ← toU8 progIdx
    let acctOff ← toU16 acctOff
    let acctCnt ← toU16 ix.accounts.length
    let dataOff ← toU16 dataOff
    let dataLen ← toU16 ix.data.length
    let instrs ← FixedArray.set s.instrs s.instrCount
      ⟨programIdx, acctOff, acctCnt, dataOff, dataLen⟩
    let instrCount ← FixedArray.add s.instrCount 1
    pure (.ok (), { s with
      instrDataBuf := instrDataBuf
      instrDataLen := stop
      instrs := instrs
      instrCount := instrCount })

/-- `add_instruction` -/
def addInstruction (s : ArrayBuilder sys) (ix : InstructionBuf) :
    Except Fault (Except BuildError Unit × ArrayBuilder sys) := do
  if s.instrCount ≥ sys.instrMax then
    pure (.error .tooManyInstructions, s)
  else do
    match ← s.findOrInsert ix.programId with
    | (.error e, s) => pure (.error e, s)
    | (.ok progIdx, s) => do
      let acctOff := s.instrAcctLen
      match ← s.addAccounts ix.accounts with
      | (.error e, s) => pure (.error e, s)
      | (.ok (), s) => s.addEntry ix progIdx acctOff

/-- A call on the builder. -/
def run (s : ArrayBuilder sys) : Call → Except Fault (Outcome × ArrayBuilder sys)
  | .version v => pure (.ok, s.setVersion v)
  | .feePayer pubkey => do
    let s ← s.setFeePayer pubkey
    pure (.ok, s)
  | .recentBlockhash hash => pure (.ok, s.recentBlockhash hash)
  | .addSigner pubkey => do
    let r ← s.addSigner pubkey
    pure (r.map .ofExcept id)
  | .addInstruction ix => do
    let r ← s.addInstruction ix
    pure (r.map .ofExcept id)

end ArrayBuilder

/-! ### Building -/

/-- `build` stops with an error, or it faults. -/
inductive Stop where
  | failed (e : BuildError)
  | fault (f : Fault)
deriving DecidableEq, Repr

/-- A computation that may fault, in `build`. -/
def checked {α : Type} (x : Except Fault α) : Except Stop α := x.mapError .fault

/-- The output buffer of `build` and its offset. -/
structure Output (sys : Sys) where
  buf : Vector UInt8 sys.mtu
  off : Nat

namespace Output

/-- The check `if stop > MTU` in front of a write. -/
def room (sys : Sys) (stop : Nat) : Except Stop Unit :=
  if stop > sys.mtu then .error (.failed .transactionTooLarge) else .ok ()

/-- `buf[off] = byte; off += 1` -/
def put (out : Output sys) (byte : UInt8) : Except Fault (Output sys) := do
  let buf ← FixedArray.set out.buf out.off byte
  let off ← FixedArray.add out.off 1
  pure ⟨buf, off⟩

/-- `buf[off..off + data.len()].copy_from_slice(data); off += data.len()` -/
def putSlice (out : Output sys) (data : Bytes) : Except Fault (Output sys) := do
  let stop ← FixedArray.add out.off data.length
  let buf ← FixedArray.copy out.buf out.off stop data
  pure ⟨buf, stop⟩

/-- `write_cu16`. The C function writes its bytes into `buf[*offset..]`. -/
def writeCu16 (out : Output sys) (val : UInt16) : Except Stop (Output sys) := do
  let stop ← checked (FixedArray.add out.off 3)
  room sys stop
  checked (out.putSlice (sys.cu16Enc val))

/-- A byte, after the check `if off >= MTU`. -/
def writeByte (out : Output sys) (byte : UInt8) : Except Stop (Output sys) :=
  if out.off ≥ sys.mtu then .error (.failed .transactionTooLarge) else checked (out.put byte)

/-- Bytes, after the check that they end within the MTU. -/
def writeSlice (out : Output sys) (data : Bytes) : Except Stop (Output sys) := do
  let stop ← checked (FixedArray.add out.off data.length)
  room sys stop
  checked (out.putSlice data)

/-- The header of the message. -/
def writeHeader (out : Output sys) (header : Header) : Except Stop (Output sys) := do
  let stop ← checked (FixedArray.add out.off 3)
  room sys stop
  let out ← checked (out.put header.sigCount)
  let out ← checked (out.put header.readonlySigned)
  checked (out.put header.readonlyUnsigned)

end Output

/-- `UnsignedTransaction`, in its array. -/
structure ArrayTransaction (sys : Sys) where
  buf : Vector UInt8 sys.mtu
  len : Nat
  sigCount : UInt8
  sigOff : Nat
  messageOff : Nat

namespace ArrayBuilder

/-- The comparison that `build` sorts with. -/
def acctCmp (s : ArrayBuilder sys) (fpIdx : Nat) (i j : Nat) : Ordering :=
  let flags (i : Nat) := (s.acctFlags.toList[i]?).getD 0
  (compare (if j = fpIdx then 1 else 0) (if i = fpIdx then 1 else 0)).then
    ((compare (acctSortKey (flags i)) (acctSortKey (flags j))).then (compare i j))

/-- The sorted indices. The comparison reads the flags of every index. -/
def sortIndices (s : ArrayBuilder sys) (fpIdx : Nat) : Except Fault (List Nat) := do
  let indices ← FixedArray.slice (Vector.ofFn fun i : Fin sys.acctAddrMax => i.val) 0 s.acctCount
  let _ ← indices.mapM fun i => FixedArray.get s.acctFlags i
  pure (indices.mergeSort fun i j => (s.acctCmp fpIdx i j).isLE)

/-- The table from old to new indices. -/
def remapOf (sys : Sys) (sorted : List Nat) : Except Fault (Vector UInt8 sys.acctAddrMax) :=
  sorted.zipIdx.foldlM
    (fun remap (oldIdx, newIdx) => do
      let newIdx ← toU8 newIdx
      FixedArray.set remap oldIdx newIdx)
    (Vector.replicate _ 0)

/-- The step of the counting loop for an account with the given flags. -/
def count (h : Header) (flags : UInt8) : Except Fault Header :=
  if isSignerFlag flags then do
    let sigCount ← incr h.sigCount
    let readonlySigned ← if isWritableFlag flags then pure h.readonlySigned else incr h.readonlySigned
    pure { h with sigCount := sigCount, readonlySigned := readonlySigned }
  else if isWritableFlag flags then
    pure h
  else do
    let readonlyUnsigned ← incr h.readonlyUnsigned
    pure { h with readonlyUnsigned := readonlyUnsigned }

/-- The counting loop. -/
def headerOf (s : ArrayBuilder sys) (sorted : List Nat) : Except Fault Header :=
  sorted.foldlM
    (fun h i => do
      let flags ← FixedArray.get s.acctFlags i
      count h flags)
    ⟨0, 0, 0⟩

/-- The loop over the accounts of an instruction, from a place in `instr_acct_buf` on, with the
number of those left. -/
def putAccounts (s : ArrayBuilder sys) (remap : Vector UInt8 sys.acctAddrMax) :
    Nat → Nat → Output sys → Except Fault (Output sys)
  | 0, _, out => pure out
  | left + 1, j, out => do
    let i ← FixedArray.get s.instrAcctBuf j
    let newIdx ← FixedArray.get remap i.toNat
    let out ← out.put newIdx
    s.putAccounts remap left (j + 1) out

/-- The program of an instruction, after the check `if off >= MTU`. -/
def writeProgram (remap : Vector UInt8 sys.acctAddrMax) (out : Output sys) (entry : InstrEntry) :
    Except Stop (Output sys) :=
  if out.off ≥ sys.mtu then
    .error (.failed .transactionTooLarge)
  else do
    let programIdx ← checked (FixedArray.get remap entry.programIdx.toNat)
    checked (out.put programIdx)

/-- The accounts of an instruction. -/
def writeAccounts (s : ArrayBuilder sys) (remap : Vector UInt8 sys.acctAddrMax)
    (out : Output sys) (entry : InstrEntry) : Except Stop (Output sys) := do
  let _acctEnd ← checked (FixedArray.add entry.acctOff.toNat entry.acctCnt.toNat)
  let stop ← checked (FixedArray.add out.off entry.acctCnt.toNat)
  Output.room sys stop
  checked (s.putAccounts remap entry.acctCnt.toNat entry.acctOff.toNat out)

/-- The data of an instruction. -/
def writeData (s : ArrayBuilder sys) (out : Output sys) (entry : InstrEntry) :
    Except Stop (Output sys) := do
  let dataEnd ← checked (FixedArray.add entry.dataOff.toNat entry.dataLen.toNat)
  let stop ← checked (FixedArray.add out.off entry.dataLen.toNat)
  Output.room sys stop
  let data ← checked (FixedArray.slice s.instrDataBuf entry.dataOff.toNat dataEnd)
  checked (out.putSlice data)

/-- The loop of `build` for one instruction. -/
def writeInstr (s : ArrayBuilder sys) (remap : Vector UInt8 sys.acctAddrMax) (out : Output sys)
    (i : Nat) : Except Stop (Output sys) := do
  let entry ← checked (FixedArray.get s.instrs i)
  let out ← writeProgram remap out entry
  let out ← out.writeCu16 entry.acctCnt
  let out ← s.writeAccounts remap out entry
  let out ← out.writeCu16 entry.dataLen
  s.writeData out entry

/-- The signatures of `build`: their count, and the place that is left for them. -/
def writeSigs (header : Header) : Except Stop (Nat × Output sys) := do
  let out ← Output.writeCu16 ⟨Vector.replicate _ 0, 0⟩ header.sigCount.toUInt16
  let size ← checked (FixedArray.mul header.sigCount.toNat sys.signatureSz)
  let sigsEnd ← checked (FixedArray.add out.off size)
  Output.room sys sigsEnd
  pure (out.off, { out with off := sigsEnd })

/-- The version byte of `build`. -/
def writeVersion (version : TransactionVersion) (out : Output sys) : Except Stop (Output sys) :=
  if version = .v0 then out.writeByte 0x80 else pure out

/-- The empty list of lookup tables at the end of `build`. -/
def writeLookups (version : TransactionVersion) (out : Output sys) : Except Stop (Output sys) :=
  if version = .v0 then out.writeCu16 0 else pure out

/-- The key of an account. -/
def writeKey (s : ArrayBuilder sys) (out : Output sys) (i : Nat) : Except Stop (Output sys) := do
  let stop ← checked (FixedArray.add out.off 32)
  Output.room sys stop
  let key ← checked (FixedArray.get s.acctKeys i)
  checked (out.putSlice key.asBytes)

/-- The message of `build`. -/
def writeMessage (s : ArrayBuilder sys) (sorted : List Nat) (remap : Vector UInt8 sys.acctAddrMax)
    (header : Header) (blockhash : Bytes32) (out : Output sys) : Except Stop (Output sys) := do
  let out ← writeVersion s.version out
  let out ← out.writeHeader header
  let acctCount ← checked (toU16 s.acctCount)
  let out ← out.writeCu16 acctCount
  let out ← sorted.foldlM s.writeKey out
  let out ← out.writeSlice blockhash.toList
  let instrCount ← checked (toU16 s.instrCount)
  let out ← out.writeCu16 instrCount
  let out ← (List.range s.instrCount).foldlM (s.writeInstr remap) out
  writeLookups s.version out

/-- `validate` -/
def validate (buf : Vector UInt8 sys.mtu) (len : Nat) : Except Stop Unit := do
  let bytes ← checked (FixedArray.slice buf 0 len)
  if sys.txnParseCore bytes = 0 then .error (.failed .validationFailed) else .ok ()

/-- `build`, once the order of the accounts is known. -/
def serialize (s : ArrayBuilder sys) (sorted : List Nat) (blockhash : Bytes32) :
    Except Stop (ArrayTransaction sys) := do
  let remap ← checked (remapOf sys sorted)
  let header ← checked (s.headerOf sorted)
  if header.sigCount = 0 ∨ header.sigCount.toNat > sys.sigMax then
    .error (.failed .tooManySigners)
  else do
    let (sigOff, sigs) ← writeSigs header
    let out ← s.writeMessage sorted remap header blockhash sigs
    validate out.buf out.off
    pure {
      buf := out.buf
      len := out.off
      sigCount := header.sigCount
      sigOff := sigOff
      messageOff := sigs.off }

/-- `build` -/
def build (s : ArrayBuilder sys) : Except Stop (ArrayTransaction sys) :=
  match s.feePayer, s.blockhash with
  | none, _ => .error (.failed .noFeePayer)
  | some _, none => .error (.failed .noBlockhash)
  | some feePayer, some blockhash =>
    if s.instrCount = 0 then
      .error (.failed .noInstructions)
    else do
      match ← checked (s.findAccount feePayer) with
      | none => .error (.failed .noFeePayer)
      | some fpIdx => do
        let sorted ← checked (s.sortIndices fpIdx)
        s.serialize sorted blockhash

end ArrayBuilder

end FdTxn

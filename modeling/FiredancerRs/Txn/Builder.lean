import FiredancerRs.Ed25519.Pubkey
import FiredancerRs.Lib.CompactU16
import Mathlib.Algebra.Ring.Nat

/-!
# The transaction builder

`TransactionBuilder` of `fd_txn`. A fixed array with its count is the list of the entries
below the count, and the output buffer of `build` is the list of the bytes below its
offset. The constants and C functions of `fd_txn_sys` are the fields of `Sys`.

A call on the builder runs on the builder it is given and returns the builder it leaves
behind, also when it returns an error.
-/

open FdEd25519

namespace FdTxn

/-- The constants and functions of `fd_txn_sys` that the builder uses. -/
structure Sys where
  /-- `FD_TXN_ACCT_ADDR_MAX` -/
  acctAddrMax : Nat
  /-- `FD_TXN_INSTR_MAX` -/
  instrMax : Nat
  /-- `FD_TXN_MTU` -/
  mtu : Nat
  /-- `FD_TXN_SIG_MAX` -/
  sigMax : Nat
  /-- `FD_TXN_SIGNATURE_SZ` -/
  signatureSz : Nat
  /-- `fd_cu16_enc`, as the bytes it writes. -/
  cu16Enc : UInt16 → Bytes
  /-- `fd_txn_parse_core`, as a function of the bytes it is given. -/
  txnParseCore : Bytes → Nat
  acctAddrMax_eq : acctAddrMax = sigMax + 1
  sigMax_pos : 0 < sigMax
  sigMax_lt : sigMax < 0x80
  instrMax_lt : instrMax < 0x10000
  mtu_lt : mtu < 0x10000
  mtu_lt_keys : mtu < acctAddrMax * 32
  cu16Enc_eq (val : UInt16) : cu16Enc val = CompactU16.encode val.toNat

/-- The values of the Firedancer headers, with a parser that accepts every buffer. -/
def Sys.accepting : Sys where
  acctAddrMax := 128
  instrMax := 64
  mtu := 1232
  sigMax := 127
  signatureSz := 64
  cu16Enc val := CompactU16.encode val.toNat
  txnParseCore buf := buf.length
  acctAddrMax_eq := rfl
  sigMax_pos := by decide
  sigMax_lt := by decide
  instrMax_lt := by decide
  mtu_lt := by decide
  mtu_lt_keys := by decide
  cu16Enc_eq _ := rfl

/-- `AccountMeta` -/
structure AccountMeta where
  pubkey : Pubkey
  isSigner : Bool
  isWritable : Bool
deriving DecidableEq, Repr

/-- `InstructionBuf` -/
structure InstructionBuf where
  programId : Pubkey
  accounts : List AccountMeta
  data : Bytes
deriving DecidableEq, Repr

/-- `BuildError` -/
inductive BuildError where
  | noFeePayer
  | noBlockhash
  | noInstructions
  | tooManyAccounts
  | tooManyInstructions
  | tooManySigners
  | dataTooLarge
  | transactionTooLarge
  | validationFailed
deriving DecidableEq, Repr

/-- `TransactionVersion` -/
inductive TransactionVersion where
  | legacy
  | v0
deriving DecidableEq, Repr

/-- `ACCT_F_SIGNER` -/
def ACCT_F_SIGNER : UInt8 := 0x01

/-- `ACCT_F_WRITABLE` -/
def ACCT_F_WRITABLE : UInt8 := 0x02

/-- A row of the account table: `acct_keys[i]` and `acct_flags[i]`. -/
structure Account where
  key : Pubkey
  flags : UInt8
deriving DecidableEq, Repr

/-- `flags & ACCT_F_SIGNER != 0` -/
def isSignerFlag (flags : UInt8) : Bool := flags &&& ACCT_F_SIGNER != 0

/-- `flags & ACCT_F_WRITABLE != 0` -/
def isWritableFlag (flags : UInt8) : Bool := flags &&& ACCT_F_WRITABLE != 0

/-- `InstrEntry` -/
structure InstrEntry where
  programIdx : UInt8
  acctOff : UInt16
  acctCnt : UInt16
  dataOff : UInt16
  dataLen : UInt16
deriving DecidableEq, Repr

/-- `TransactionBuilder`: `accts` are the first `acct_count` rows of the account table,
`instrs` the first `instr_count` entries, and the two buffers the bytes below
`instr_acct_len` and `instr_data_len`. -/
structure TransactionBuilder where
  accts : List Account
  instrs : List InstrEntry
  instrAcctBuf : Bytes
  instrDataBuf : Bytes
  feePayer : Option Pubkey
  blockhash : Option Bytes32
  version : TransactionVersion
deriving DecidableEq, Repr

namespace TransactionBuilder

/-- `TransactionBuilder::new` -/
def new : TransactionBuilder where
  accts := []
  instrs := []
  instrAcctBuf := []
  instrDataBuf := []
  feePayer := none
  blockhash := none
  version := .legacy

/-- `self.acct_flags[idx] |= flag` -/
def orFlags (b : TransactionBuilder) (idx : Nat) (flag : UInt8) : TransactionBuilder :=
  { b with accts := b.accts.modify idx fun acct => { acct with flags := acct.flags ||| flag } }

/-- Write a new row at `acct_count`, with no flags. -/
def pushAccount (b : TransactionBuilder) (pubkey : Pubkey) : TransactionBuilder :=
  { b with accts := b.accts ++ [⟨pubkey, 0⟩] }

/-- `TransactionBuilder::find_account` -/
def findAccount (b : TransactionBuilder) (pubkey : Pubkey) : Option Nat :=
  b.accts.findIdx? fun acct => acct.key = pubkey

variable (sys : Sys)

/-- `TransactionBuilder::find_or_insert` -/
def findOrInsert (b : TransactionBuilder) (pubkey : Pubkey) :
    Except BuildError Nat × TransactionBuilder :=
  match b.findAccount pubkey with
  | some i => (.ok i, b)
  | none =>
    if b.accts.length ≥ sys.acctAddrMax then
      (.error .tooManyAccounts, b)
    else
      (.ok b.accts.length, b.pushAccount pubkey)

/-- `TransactionBuilder::version` -/
def setVersion (b : TransactionBuilder) (version : TransactionVersion) : TransactionBuilder :=
  { b with version := version }

/-- `TransactionBuilder::recent_blockhash` -/
def recentBlockhash (b : TransactionBuilder) (hash : Bytes32) : TransactionBuilder :=
  { b with blockhash := some hash }

/-- `TransactionBuilder::fee_payer`, with `none` for its panic on a full account table. -/
def setFeePayer (b : TransactionBuilder) (pubkey : Pubkey) : Option TransactionBuilder :=
  match b.findAccount pubkey with
  | some i =>
    some { b.orFlags i (ACCT_F_SIGNER ||| ACCT_F_WRITABLE) with feePayer := some pubkey }
  | none =>
    if b.accts.length < sys.acctAddrMax then
      some { (b.pushAccount pubkey).orFlags b.accts.length (ACCT_F_SIGNER ||| ACCT_F_WRITABLE)
        with feePayer := some pubkey }
    else
      none

/-- `TransactionBuilder::add_signer` -/
def addSigner (b : TransactionBuilder) (pubkey : Pubkey) :
    Except BuildError Unit × TransactionBuilder :=
  match b.findOrInsert sys pubkey with
  | (.error e, b) => (.error e, b)
  | (.ok idx, b) => (.ok (), b.orFlags idx ACCT_F_SIGNER)

/-- The loop of `add_instruction` over the accounts. -/
def addAccounts (b : TransactionBuilder) :
    List AccountMeta → Except BuildError Unit × TransactionBuilder
  | [] => (.ok (), b)
  | m :: metas =>
    match b.findOrInsert sys m.pubkey with
    | (.error e, b) => (.error e, b)
    | (.ok idx, b) =>
      let b := if m.isSigner then b.orFlags idx ACCT_F_SIGNER else b
      let b := if m.isWritable then b.orFlags idx ACCT_F_WRITABLE else b
      if b.instrAcctBuf.length ≥ sys.mtu then
        (.error .dataTooLarge, b)
      else
        addAccounts { b with instrAcctBuf := b.instrAcctBuf ++ [UInt8.ofNat idx] } metas

/-- `TransactionBuilder::add_instruction` -/
def addInstruction (b : TransactionBuilder) (ix : InstructionBuf) :
    Except BuildError Unit × TransactionBuilder :=
  if b.instrs.length ≥ sys.instrMax then
    (.error .tooManyInstructions, b)
  else
    match b.findOrInsert sys ix.programId with
    | (.error e, b) => (.error e, b)
    | (.ok progIdx, b) =>
      let acctOff := b.instrAcctBuf.length
      match addAccounts sys b ix.accounts with
      | (.error e, b) => (.error e, b)
      | (.ok (), b) =>
        let dataOff := b.instrDataBuf.length
        if dataOff + ix.data.length > sys.mtu then
          (.error .dataTooLarge, b)
        else
          (.ok (), { b with
            instrDataBuf := b.instrDataBuf ++ ix.data
            instrs := b.instrs ++ [{
              programIdx := UInt8.ofNat progIdx
              acctOff := UInt16.ofNat acctOff
              acctCnt := UInt16.ofNat ix.accounts.length
              dataOff := UInt16.ofNat dataOff
              dataLen := UInt16.ofNat ix.data.length }] })

end TransactionBuilder

/-! ### Building -/

/-- `acct_sort_key` -/
def acctSortKey (flags : UInt8) : Nat :=
  match isSignerFlag flags, isWritableFlag flags with
  | true, true => 0
  | true, false => 1
  | false, true => 2
  | false, false => 3

/-- The three counts of the message header. -/
structure Header where
  sigCount : UInt8
  readonlySigned : UInt8
  readonlyUnsigned : UInt8
deriving DecidableEq, Repr

/-- The step of the counting loop of `build` for an account with the given flags. -/
def Header.count (h : Header) (flags : UInt8) : Header :=
  if isSignerFlag flags then
    { h with
      sigCount := h.sigCount + 1
      readonlySigned := if isWritableFlag flags then h.readonlySigned else h.readonlySigned + 1 }
  else if isWritableFlag flags then
    h
  else
    { h with readonlyUnsigned := h.readonlyUnsigned + 1 }

/-- `UnsignedTransaction`: `buf` are the first `len` bytes of its buffer. -/
structure UnsignedTransaction where
  buf : Bytes
  sigCount : UInt8
  sigOff : Nat
  messageOff : Nat
deriving DecidableEq, Repr

/-- `UnsignedTransaction::as_bytes` -/
def UnsignedTransaction.asBytes (tx : UnsignedTransaction) : Bytes := tx.buf

section Writing

variable (sys : Sys)

/-- `write_cu16` -/
def writeCu16 (buf : Bytes) (val : UInt16) : Except BuildError Bytes :=
  if buf.length + 3 > sys.mtu then .error .transactionTooLarge else .ok (buf ++ sys.cu16Enc val)

/-- Copy `data` to the offset of `buf`, after the check that it ends within the MTU. -/
def writeSlice (buf data : Bytes) : Except BuildError Bytes :=
  if buf.length + data.length > sys.mtu then .error .transactionTooLarge else .ok (buf ++ data)

end Writing

namespace TransactionBuilder

/-- `acct_flags[i]` -/
def flagsAt (b : TransactionBuilder) (i : Nat) : UInt8 :=
  ((b.accts.map Account.flags)[i]?).getD 0

/-- `acct_keys[i]`, as bytes. -/
def keyAt (b : TransactionBuilder) (i : Nat) : Bytes :=
  ((b.accts.map fun acct => acct.key.asBytes)[i]?).getD []

/-- The comparison `build` sorts the indices of the account table with. -/
def acctCmp (b : TransactionBuilder) (fpIdx : Nat) (i j : Nat) : Ordering :=
  (compare (if j = fpIdx then 1 else 0) (if i = fpIdx then 1 else 0)).then
    ((compare (acctSortKey (b.flagsAt i)) (acctSortKey (b.flagsAt j))).then (compare i j))

/-- The indices of the account table in the order of the message. -/
def sorted (b : TransactionBuilder) (fpIdx : Nat) : List Nat :=
  (List.range b.accts.length).mergeSort fun i j => (b.acctCmp fpIdx i j).isLE

/-- The table from old to new indices, filled along `sorted`. -/
def remapOf (sys : Sys) (sorted : List Nat) : Bytes :=
  sorted.zipIdx.foldl (fun remap p => remap.set p.1 (UInt8.ofNat p.2))
    (List.replicate sys.acctAddrMax 0)

/-- The counts of the header, taken along `sorted`. -/
def headerOf (b : TransactionBuilder) (sorted : List Nat) : Header :=
  sorted.foldl (fun h i => h.count (b.flagsAt i)) ⟨0, 0, 0⟩

variable (sys : Sys)

/-- The loop of `build` for one instruction. -/
def writeInstr (b : TransactionBuilder) (remap : Bytes) (buf : Bytes) (entry : InstrEntry) :
    Except BuildError Bytes := do
  let buf ← writeSlice sys buf [remap.getD entry.programIdx.toNat 0]
  let buf ← writeCu16 sys buf entry.acctCnt
  let accts := (b.instrAcctBuf.drop entry.acctOff.toNat).take entry.acctCnt.toNat
  let buf ← writeSlice sys buf (accts.map fun i => remap.getD i.toNat 0)
  let buf ← writeCu16 sys buf entry.dataLen
  writeSlice sys buf ((b.instrDataBuf.drop entry.dataOff.toNat).take entry.dataLen.toNat)

/-- The signatures of `build`: their count, then a zeroed signature for each. -/
def writeSigs (header : Header) : Except BuildError Bytes := do
  let buf ← writeCu16 sys [] header.sigCount.toUInt16
  writeSlice sys buf (List.replicate (header.sigCount.toNat * sys.signatureSz) 0)

/-- The version byte of `build`. -/
def writeVersion (version : TransactionVersion) (buf : Bytes) : Except BuildError Bytes :=
  if version = .v0 then writeSlice sys buf [0x80] else .ok buf

/-- The empty list of lookup tables at the end of `build`. -/
def writeLookups (version : TransactionVersion) (buf : Bytes) : Except BuildError Bytes :=
  if version = .v0 then writeCu16 sys buf 0 else .ok buf

/-- The message of `build`, written after the signatures in `buf`. -/
def writeMessage (b : TransactionBuilder) (sorted : List Nat) (header : Header)
    (blockhash : Bytes32) (buf : Bytes) : Except BuildError Bytes := do
  let buf ← writeVersion sys b.version buf
  let buf ← writeSlice sys buf
    [header.sigCount, header.readonlySigned, header.readonlyUnsigned]
  let buf ← writeCu16 sys buf (UInt16.ofNat b.accts.length)
  let buf ← sorted.foldlM (fun buf i => writeSlice sys buf (b.keyAt i)) buf
  let buf ← writeSlice sys buf blockhash.toList
  let buf ← writeCu16 sys buf (UInt16.ofNat b.instrs.length)
  let buf ← b.instrs.foldlM (b.writeInstr sys (remapOf sys sorted)) buf
  writeLookups sys b.version buf

/-- `validate` -/
def validate (buf : Bytes) : Except BuildError Unit :=
  if sys.txnParseCore buf = 0 then .error .validationFailed else .ok ()

/-- `build`, once the order of the accounts is known. -/
def serialize (b : TransactionBuilder) (sorted : List Nat) (blockhash : Bytes32) :
    Except BuildError UnsignedTransaction :=
  let header := b.headerOf sorted
  if header.sigCount = 0 ∨ header.sigCount.toNat > sys.sigMax then
    .error .tooManySigners
  else do
    let sigs ← writeSigs sys header
    let buf ← b.writeMessage sys sorted header blockhash sigs
    validate sys buf
    pure {
      buf := buf
      sigCount := header.sigCount
      sigOff := (sys.cu16Enc header.sigCount.toUInt16).length
      messageOff := sigs.length }

/-- `TransactionBuilder::build` -/
def build (b : TransactionBuilder) : Except BuildError UnsignedTransaction :=
  match b.feePayer, b.blockhash with
  | none, _ => .error .noFeePayer
  | some _, none => .error .noBlockhash
  | some feePayer, some blockhash =>
    if b.instrs.length = 0 then
      .error .noInstructions
    else
      match b.findAccount feePayer with
      | none => .error .noFeePayer
      | some fpIdx => b.serialize sys (b.sorted fpIdx) blockhash

end TransactionBuilder

/-! ### Runs -/

/-- A call on a builder other than `build`. -/
inductive Call where
  | version (version : TransactionVersion)
  | feePayer (pubkey : Pubkey)
  | recentBlockhash (hash : Bytes32)
  | addSigner (pubkey : Pubkey)
  | addInstruction (ix : InstructionBuf)
deriving DecidableEq, Repr

/-- How a call ends: normally, with an error, or with a panic. -/
inductive Outcome where
  | ok
  | err (e : BuildError)
  | panic
deriving DecidableEq, Repr

/-- The outcome of a call that returns a result. -/
def Outcome.ofExcept : Except BuildError Unit → Outcome
  | .ok () => .ok
  | .error e => .err e

/-- Run a call on a builder. -/
def Call.run (sys : Sys) (b : TransactionBuilder) : Call → Outcome × TransactionBuilder
  | .version v => (.ok, b.setVersion v)
  | .feePayer pubkey =>
    match b.setFeePayer sys pubkey with
    | none => (.panic, b)
    | some b => (.ok, b)
  | .recentBlockhash hash => (.ok, b.recentBlockhash hash)
  | .addSigner pubkey => ((b.addSigner sys pubkey).map .ofExcept id)
  | .addInstruction ix => ((b.addInstruction sys ix).map .ofExcept id)

end FdTxn

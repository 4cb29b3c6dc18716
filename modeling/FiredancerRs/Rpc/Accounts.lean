import FiredancerRs.Rpc.Error

/-!
# Account lists

The parsing of account objects and of lists of accounts in `fd_rpc::solana`. The decoders of
base58 and of base64 are parameters. `none` is a panic.
-/

open FdEd25519

namespace FdRpc

/-- The decoders that the client calls. -/
structure Decoders where
  /-- `fd_ed25519::base58::decode_32` -/
  base58Decode32 : Bytes → Option Bytes32
  /-- `fd_base64::decode` -/
  base64Decode : Bytes → Option Bytes

/-- `AccountInfo` -/
structure AccountInfo where
  lamports : UInt64
  owner : Bytes32
  data : Bytes
  executable : Bool
  rentEpoch : UInt64
deriving DecidableEq

/-- `item.and_then(|v| v.as_str())` -/
def itemStr : Option JsonScan → Option (Option Bytes)
  | none => some none
  | some v => v.asStr

section Parse

variable (decoders : Decoders)

/-- The bytes of the member `data` of an account. -/
def parseAccountData (data : JsonScan) : Option (Except RpcError Bytes) := do
  match ← data.arrayIter with
  | some iter => do
    let (item, iter) ← iter.next
    match ← itemStr item with
    | none => pure (.error (.badResponse "data[0] is not a string"))
    | some encoded => do
      let (item, _) ← iter.next
      let encoding ← itemStr item
      if encoding.getD (asBytes "base64") = asBytes "base58" then
        pure (.error (.badResponse "base58 data encoding not supported; request base64"))
      else
        match decoders.base64Decode encoded with
        | none => pure (.error (.badResponse "base64 decode failed"))
        | some bytes => pure (.ok bytes)
  | none => if data.isString then pure (.ok []) else pure (.ok [])

/-- `parse_account_info` -/
def parseAccountInfo (value : JsonScan) : Option (Except RpcError AccountInfo) := do
  match ← value.fieldAnd (asBytes "lamports") JsonScan.asF64 with
  | none => pure (.error (.badResponse "missing lamports"))
  | some lamports =>
    match ← value.fieldAnd (asBytes "owner") JsonScan.asStr with
    | none => pure (.error (.badResponse "missing owner"))
    | some ownerStr =>
      match decoders.base58Decode32 ownerStr with
      | none => pure (.error .base58DecodeFailed)
      | some owner => do
        let executable ← value.fieldAnd (asBytes "executable") JsonScan.asBool
        let rentEpoch ← value.fieldAnd (asBytes "rentEpoch") JsonScan.asF64
        match ← value.field (asBytes "data") with
        | none => pure (.error (.badResponse "missing data"))
        | some data =>
          match ← parseAccountData decoders data with
          | .error e => pure (.error e)
          | .ok bytes =>
            pure (.ok ⟨lamports.toU64, owner, bytes, executable.getD false,
              (rentEpoch.map Float64.toU64).getD 0⟩)

/-- The loop that pushes what it parses from each item, until an item is an error. -/
def parseItems {α : Type} (parse : JsonScan → Option (Except RpcError α)) :
    Nat → JsonArrayIter → Option (Except RpcError (List α))
  | 0, _ => none
  | fuel + 1, iter => do
    let (item, iter) ← iter.next
    match item with
    | none => pure (.ok [])
    | some item =>
      match ← parse item with
      | .error e => pure (.error e)
      | .ok a =>
        match ← parseItems parse fuel iter with
        | .error e => pure (.error e)
        | .ok as => pure (.ok (a :: as))

/-- An item of `parse_multiple_accounts_result`. -/
def parseAccountItem (item : JsonScan) : Option (Except RpcError (Option AccountInfo)) := do
  if ← item.isNull then
    pure (.ok none)
  else
    match ← parseAccountInfo decoders item with
    | .error e => pure (.error e)
    | .ok info => pure (.ok (some info))

/-- `parse_multiple_accounts_result` -/
def parseMultipleAccountsResult (result : JsonScan) :
    Option (Except RpcError (List (Option AccountInfo))) := do
  match ← result.field (asBytes "value") with
  | none => pure (.error (.badResponse "result.value missing"))
  | some values =>
    match ← values.arrayIter with
    | none => pure (.error (.badResponse "result.value is not an array"))
    | some iter => parseItems (parseAccountItem decoders) (values.data.length + 2) iter

/-- An item of `parse_program_accounts_result`. -/
def parseProgramItem (entry : JsonScan) : Option (Except RpcError (Bytes32 × AccountInfo)) := do
  match ← entry.fieldAnd (asBytes "pubkey") JsonScan.asStr with
  | none => pure (.error (.badResponse "missing pubkey in entry"))
  | some pubkeyStr =>
    match decoders.base58Decode32 pubkeyStr with
    | none => pure (.error .base58DecodeFailed)
    | some pubkey =>
      match ← entry.field (asBytes "account") with
      | none => pure (.error (.badResponse "missing account in entry"))
      | some account =>
        match ← parseAccountInfo decoders account with
        | .error e => pure (.error e)
        | .ok info => pure (.ok (pubkey, info))

/-- `parse_program_accounts_result` -/
def parseProgramAccountsResult (result : JsonScan) :
    Option (Except RpcError (List (Bytes32 × AccountInfo))) := do
  match ← result.arrayIter with
  | none => pure (.error (.badResponse "result is not an array"))
  | some iter => parseItems (parseProgramItem decoders) (result.data.length + 2) iter

end Parse

end FdRpc

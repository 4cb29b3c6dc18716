import FiredancerRs.Rpc.BufWriter

/-!
# JSON-RPC messages

Requests and responses of `fd_rpc::jsonrpc`. `none` is a panic.
-/

namespace FdRpc

/-- `JsonRpcError` -/
inductive JsonRpcError where
  | serializeTooLarge
  | parseFailed
  | missingField (name : String)
  | rpcError (code : Int) (message : Bytes)
deriving DecidableEq, Repr

/-- `scan.field(name).and_then(f)` -/
def JsonScan.fieldAnd {α : Type} (s : JsonScan) (name : Bytes)
    (f : JsonScan → Option (Option α)) : Option (Option α) := do
  match ← s.field name with
  | none => pure none
  | some v => f v

/-- The error that a response reports, if it has a member `error` that is an object. -/
def errorOf (scan : JsonScan) : Option (Option JsonRpcError) := do
  match ← scan.field (asBytes "error") with
  | none => pure none
  | some errorObj =>
    if errorObj.isObject then do
      let code ← errorObj.fieldAnd (asBytes "code") JsonScan.asI64
      let message ← errorObj.fieldAnd (asBytes "message") JsonScan.asStr
      pure (some (.rpcError (code.getD (-1)) (message.getD (asBytes "unknown error"))))
    else
      pure none

/-- The common body of `JsonRpcResponse::parse` and `parse_batch_item`. -/
def resultOf (scan : JsonScan) : Option (Except JsonRpcError JsonScan) := do
  match ← errorOf scan with
  | some e => pure (.error e)
  | none =>
    match ← scan.field (asBytes "result") with
    | none => pure (.error (.missingField "result"))
    | some result => pure (.ok result)

/-- `JsonRpcResponse::parse`, with a response as the scan at its result. -/
def parseResponse (body : Bytes) : Option (Except JsonRpcError JsonScan) := do
  let scan ← JsonScan.new body
  resultOf scan

/-- `JsonRpcResponse::result_string`, of a response as the scan at its result. -/
def resultString (result : JsonScan) : Option (Except JsonRpcError Bytes) := do
  match ← result.asStr with
  | none => pure (.error (.missingField "result (string)"))
  | some text => pure (.ok text)

/-- The texts that `serialize_request` writes around a method and its parameters. -/
def requestParts (id method params : Bytes) : List Bytes :=
  [asBytes "\x7b\"jsonrpc\":\"2.0\",\"id\":", id, asBytes ",\"method\":\"", method,
    asBytes "\",\"params\":", params, asBytes "\x7d"]

/-- `serialize_request`. It returns the number of bytes written, and the buffer. -/
def serializeRequest (buf method params : Bytes) (id : UInt64) :
    Option (Except JsonRpcError (Nat × Bytes)) := do
  let idText ← fmtU64 id (List.replicate 20 0)
  match (BufWriter.new buf).writeAll (requestParts idText method params) with
  | none => pure (.error .serializeTooLarge)
  | some w => pure (.ok (w.pos, w.buf))

end FdRpc

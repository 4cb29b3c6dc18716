import FiredancerRs.Rpc.JsonRpc

/-!
# Errors of the RPC client
-/

namespace FdRpc

/-- `IoError` -/
inductive IoError where
  | connectFailed (errno : Int)
  | alreadyConnected
  | notConnected
  | closed
  | ssl (code : Int)
  | os (errno : Int)
deriving DecidableEq, Repr

/-- `HttpError` -/
inductive HttpError where
  | requestTooLarge
  | responseMalformed
  | responseTooLarge
  | responseIncomplete
  | connectionClosed
  | badStatus (status : UInt16)
  | writeFailed
deriving DecidableEq, Repr

/-- `RpcError` -/
inductive RpcError where
  | io (e : IoError)
  | http (e : HttpError)
  | jsonRpc (e : JsonRpcError)
  | badResponse (message : String)
  | base58DecodeFailed
  | connectionNotReady
  | timeout
deriving DecidableEq, Repr

end FdRpc

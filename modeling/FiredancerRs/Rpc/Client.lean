import FiredancerRs.Http.Feed
import FiredancerRs.Rpc.Batch
import FiredancerRs.Rpc.WriteRequest

/-!
# The client

`SolanaRpcClient` of `fd_rpc::solana`: its connection, and the operations `call` and `batch` that
every request goes through. An operation takes the turns of its loops one after another, and on
finitely many turns it may be left waiting in one of them. A client carries along the connections
that `reconnect` was called on.
-/

open FdEd25519

namespace FdRpc

open Http

/-- `UrlParts`, where a host and a path are cut off at 255 bytes. -/
structure UrlParts where
  host : Bytes
  port : UInt16
  path : Bytes
  useTls : Bool
  length_host : host.length ≤ 255
  length_path : path.length ≤ 255

/-- `SolanaRpcClient`. No function reads the connections that are lost. -/
structure SolanaRpcClient where
  conn : Connection
  nextId : UInt64
  url : UrlParts
  addr : UInt32
  timeoutNs : Int64
  scratch : Bytes
  lost : List Connection

/-- `REQUEST_BUF_SZ` -/
def requestBufSz : Nat := 4096

/-- `DEFAULT_TIMEOUT_NS` -/
def defaultTimeoutNs : Int64 := 30000000000

/-- `MAX_RETRIES_429` -/
def maxRetries429 : Nat := 5

/-- The ways in which an operation ends without a result. -/
inductive Abort where
  | failed (e : RpcError)
  | panicked (p : Panic)
deriving DecidableEq

/-- An error of an HTTP function as one of the client. -/
def Abort.ofStop : Stop → Abort
  | .failed e => .failed (.http e)
  | .panicked p => .panicked p

/-- One pass of a loop: what its pump meets and the time after it. -/
abbrev Pass := Turn FdRpcIo.PumpAnswers

/-- What an operation is left with on a list of turns. -/
abbrev Exec (α : Type) := Turns.Ended Pass SolanaRpcClient (Except Abort α × SolanaRpcClient)

/-- What one attempt of `call` reads besides its turns: the times at which its loops begin, and what
a reconnect meets. -/
structure Readings where
  start : UInt64 := 0
  connect : FdRpcIo.ConnectAnswers := { socket := -1, connect := 0 }
  readyStart : UInt64 := 0
  restart : UInt64 := 0

/-- The system, and whether the build has overflow checks. -/
structure Build where
  platform : FdRpcIo.Platform
  overflowChecks : Bool

variable {δ : Type} (phr : Phr δ) (b : Build)

namespace SolanaRpcClient

/-! ### The connection -/

/-- `(utils::monotonic_ns() - start) as i64` -/
def elapsed (start now : UInt64) : Except Abort Int64 :=
  if now < start ∧ b.overflowChecks = true then
    .error (.panicked .overflow)
  else
    .ok (now - start).toInt64

/-- One turn of the loop of `wait_ready`. -/
def readyTurn (timeoutNs : Int64) (start : UInt64) (t : Pass) (conn : Connection) :
    Turns.Step Connection (Except Abort Unit × Connection) :=
  let (r, conn) := conn.pump t.pump
  if conn.isReady then
    .done (.ok (), conn)
  else if r.error || r.closed then
    .done (.error (.failed .connectionNotReady), conn)
  else
    match elapsed b start t.now with
    | .error e => .done (.error e, conn)
    | .ok ns => if timeoutNs ≤ ns then .done (.error (.failed .timeout), conn) else .more conn

/-- `wait_ready` -/
def waitReady (start : UInt64) (c : SolanaRpcClient) (turns : List Pass) : Exec Unit :=
  (Turns.run (readyTurn b c.timeoutNs start) turns c.conn).andThen
    (fun conn => { c with conn := conn })
    fun (result, conn) rest => .done (result, { c with conn := conn }) rest

/-- `core::str::from_utf8(&self.url.host[..self.url.host_len]).ok()` -/
def hostname (url : UrlParts) : Option (List Char) := decodeUtf8 url.host

/-- `SolanaRpcClient::connect`, from the parts of the URL and the address of the host on. It returns
the client. -/
def connect (a : FdRpcIo.ConnectAnswers) (start : UInt64) (url : UrlParts) (addr : UInt32)
    (turns : List Pass) : Exec Unit :=
  let (result, conn) :=
    Connection.new.connect b.platform a addr url.port url.useTls (hostname url)
  let c : SolanaRpcClient :=
    { conn := conn
      nextId := 1
      url := url
      addr := addr
      timeoutNs := defaultTimeoutNs
      scratch := newScratch
      lost := [] }
  match result with
  | .error e => .done (.error (.failed (.io e)), c) turns
  | .ok () => c.waitReady b start turns

/-- `set_timeout_ns` -/
def setTimeoutNs (ns : Int64) (c : SolanaRpcClient) : SolanaRpcClient := { c with timeoutNs := ns }

/-- `reconnect` -/
def reconnect (a : FdRpcIo.ConnectAnswers) (start : UInt64) (c : SolanaRpcClient)
    (turns : List Pass) : Exec Unit :=
  let c := { c with lost := c.lost ++ [c.conn] }
  match Connection.new.connect b.platform a c.addr c.url.port c.url.useTls (hostname c.url) with
  | (.error e, _) => .done (.error (.failed (.io e)), c) turns
  | (.ok (), conn) => waitReady b start { c with conn := conn } turns

/-! ### One exchange -/

/-- The path of the URL. -/
def urlPath (url : UrlParts) : Bytes := (fromUtf8 url.path).getD (asBytes "/")

/-- The host of the URL. -/
def urlHost (url : UrlParts) : Bytes := (fromUtf8 url.host).getD (asBytes "localhost")

/-- The end of `send_and_recv` and of `batch`: the request is written and its response is read. -/
def exchange (req : Bytes) (start : UInt64) (c : SolanaRpcClient) (turns : List Pass) :
    Exec (Nat × Nat) :=
  match writeRequest c.conn (asBytes "POST") (urlPath c.url) (urlHost c.url)
      (asBytes "application/json") req with
  | .error stop => .done (.error (.ofStop stop), c) turns
  | .ok conn =>
    let s : Settings :=
      { overflowChecks := b.overflowChecks, timeoutNs := c.timeoutNs, start := start }
    (readResponse phr Connection.port s { scratch := c.scratch, port := conn } turns).andThen
      (fun client => { c with scratch := client.scratch, conn := client.port })
      fun (result, client) rest =>
        let c := { c with scratch := client.scratch, conn := client.port }
        match result with
        | .error stop => .done (.error (.ofStop stop), c) rest
        | .ok (status, offset, len) =>
          if status ≠ 200 then
            .done (.error (.failed (.http (.badStatus status))), c) rest
          else
            .done (.ok (offset, len), c) rest

/-- `send_and_recv` -/
def sendAndRecv (method params : Bytes) (start : UInt64) (c : SolanaRpcClient)
    (turns : List Pass) : Exec (Nat × Nat) :=
  let id := c.nextId
  let c := { c with nextId := id + 1 }
  match serializeRequest (List.replicate requestBufSz 0) method params id with
  | none => .done (.error (.panicked .sliceIndex), c) turns
  | some (.error e) => .done (.error (.failed (.jsonRpc e)), c) turns
  | some (.ok (len, buf)) => exchange phr b (buf.take len) start c turns

/-- `&self.scratch[offset..offset + len]` -/
def responseBody (c : SolanaRpcClient) (offset len : Nat) : Except Abort Bytes :=
  match usizeAdd b.overflowChecks offset len with
  | .error stop => .error (.ofStop stop)
  | .ok stop =>
    if offset ≤ stop ∧ stop ≤ c.scratch.length then
      .ok (Buffer.slice c.scratch offset (stop - offset))
    else
      .error (.panicked .sliceIndex)

/-! ### Calls -/

/-- `send_and_recv`, and once more after a reconnect when the connection is closed. -/
def attempt (method params : Bytes) (x : Readings) (c : SolanaRpcClient) (turns : List Pass) :
    Exec (Nat × Nat) :=
  (sendAndRecv phr b method params x.start c turns).andThen id fun (result, c) rest =>
    if result = .error (.failed (.http .connectionClosed)) then
      (reconnect b x.connect x.readyStart c rest).andThen id fun (result, c) rest =>
        match result with
        | .error e => .done (.error e, c) rest
        | .ok () => sendAndRecv phr b method params x.restart c rest
    else
      .done (result, c) rest

/-- What `call` makes of the response in `scratch`. -/
def parseReply (c : SolanaRpcClient) (offset len : Nat) : Except Abort JsonScan :=
  match responseBody b c offset len with
  | .error e => .error e
  | .ok body =>
    match parseResponse body with
    | none => .error (.panicked .sliceIndex)
    | some (.error e) => .error (.failed (.jsonRpc e))
    | some (.ok scan) => .ok scan

/-- One pass of the loop of `call`. On the status 429 it goes on with the next one, if there is
one. -/
def callPass (method params : Bytes) (x : Readings)
    (next : Option (SolanaRpcClient → List Pass → Exec JsonScan)) (c : SolanaRpcClient)
    (turns : List Pass) : Exec JsonScan :=
  (attempt phr b method params x c turns).andThen id fun (result, c) rest =>
    match result with
    | .ok (offset, len) => .done (parseReply b c offset len, c) rest
    | .error e =>
      match next with
      | none => .done (.error e, c) rest
      | some next =>
        if e = .failed (.http (.badStatus 429)) then
          next c rest
        else
          .done (.error e, c) rest

/-- The passes of the loop of `call` from one on, with the number of those after it. -/
def callFrom (method params : Bytes) (x : Nat → Readings) :
    Nat → Nat → SolanaRpcClient → List Pass → Exec JsonScan
  | 0, i => callPass phr b method params (x i) none
  | left + 1, i => callPass phr b method params (x i) (some (callFrom method params x left (i + 1)))

/-- `call`, with its response as the scan at its result. -/
@[irreducible]
def call (method params : Bytes) (x : Nat → Readings) (c : SolanaRpcClient)
    (turns : List Pass) : Exec JsonScan :=
  callFrom phr b method params x maxRetries429 0 c turns

/-- `batch` -/
@[irreducible]
def batch (entries : List BatchEntry) (start : UInt64) (c : SolanaRpcClient)
    (turns : List Pass) : Exec BatchResults :=
  match serializeBatch c.nextId (List.replicate batchRequestBufSz 0) entries with
  | none => .done (.error (.panicked .sliceIndex), c) turns
  | some (.error e, nextId) => .done (.error (.failed e), { c with nextId := nextId }) turns
  | some (.ok (len, buf), nextId) =>
    (exchange phr b (buf.take len) start { c with nextId := nextId } turns).andThen id
      fun (result, c) rest =>
        match result with
        | .error e => .done (.error e, c) rest
        | .ok (offset, len) => .done ((responseBody b c offset len).map BatchResults.mk, c) rest

/-- The body of `batch`, as a function: its buffer is not to be evaluated. -/
theorem batch_def :
  batch phr b = fun entries start c turns =>
    match serializeBatch c.nextId (List.replicate batchRequestBufSz 0) entries with
    | none => .done (.error (.panicked .sliceIndex), c) turns
    | some (.error e, nextId) => .done (.error (.failed e), { c with nextId := nextId }) turns
    | some (.ok (len, buf), nextId) =>
      (exchange phr b (buf.take len) start { c with nextId := nextId } turns).andThen id
        fun (result, c) rest =>
          match result with
          | .error e => .done (.error e, c) rest
          | .ok (offset, len) => .done ((responseBody b c offset len).map BatchResults.mk, c) rest
  := by
  delta batch
  rfl

end SolanaRpcClient

/-! ### A call of one exchange -/

namespace SolanaRpcClient

variable {phr b} {c c' : SolanaRpcClient} {turns rest : List Pass} {method params : Bytes}

/-- A call whose request fits is one exchange. -/
theorem sendAndRecv_eq {start : UInt64}
    (hlen : (requestText c.nextId method params).length ≤ requestBufSz) :
  sendAndRecv phr b method params start c turns
    = exchange phr b (requestText c.nextId method params) start
      { c with nextId := c.nextId + 1 } turns
  := by
  obtain ⟨len, buf, hserialize⟩ := @serializeRequest_of_le
    (List.replicate requestBufSz 0) method params c.nextId (by rwa [List.length_replicate])
  rw [sendAndRecv, hserialize]
  simp only [(serializeRequest_ok hserialize).1]

/-- A call that waits in its first exchange. -/
theorem call_of_waiting {x : Nat → Readings}
    (h : sendAndRecv phr b method params (x 0).start c turns = .waiting c') :
  call phr b method params x c turns = .waiting c'
  := by
  unfold call
  simp [callFrom, maxRetries429, callPass, attempt, h, Turns.Ended.andThen]

/-- A call whose first exchange returns a body. -/
theorem call_of_ok {x : Nat → Readings} {offset len : Nat}
    (h : sendAndRecv phr b method params (x 0).start c turns = .done (.ok (offset, len), c') rest) :
  call phr b method params x c turns = .done (parseReply b c' offset len, c') rest
  := by
  unfold call
  simp [callFrom, maxRetries429, callPass, attempt, h, Turns.Ended.andThen]

/-- A call whose first exchange fails, neither closed nor with the status 429. -/
theorem call_of_error {x : Nat → Readings} {e : Abort}
    (h : sendAndRecv phr b method params (x 0).start c turns = .done (.error e, c') rest)
    (hclosed : e ≠ .failed (.http .connectionClosed))
    (hstatus : e ≠ .failed (.http (.badStatus 429))) :
  call phr b method params x c turns = .done (.error e, c') rest
  := by
  unfold call
  simp [callFrom, maxRetries429, callPass, attempt, h, Turns.Ended.andThen, hclosed, hstatus]

end SolanaRpcClient

end FdRpc

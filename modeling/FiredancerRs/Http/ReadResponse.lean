import FiredancerRs.Http.Phr
import FiredancerRs.Lib.Buffer
import FiredancerRs.Lib.Turns
import FiredancerRs.Rpc.Error

/-!
# Reading a response

`read_response`, `read_chunked_body` and `try_parse_headers` of `fd_rpc::http`. Each loop takes one
turn for each `Connection::pump`, with the reading of the clock in that turn, and on finitely many
turns it may be left waiting. The arithmetic is that of `usize`, with or without the overflow checks
of the compiler, and the connection is any port that can be pumped and popped.
-/

namespace FdRpc.Http

/-- `PumpResult` -/
structure PumpResult where
  connected : Bool := false
  rxData : Bool := false
  txDrain : Bool := false
  error : Bool := false
  closed : Bool := false
deriving DecidableEq

/-- A connection: `Connection::pump`, with what the pump meets, and the RX ring. -/
structure Port (ε σ : Type) where
  pump : ε → σ → PumpResult × σ
  rx : σ → List UInt8
  setRx : List UInt8 → σ → σ

/-- One pass of a loop: what the pump meets and the time after it. -/
structure Turn (ε : Type) where
  pump : ε
  now : UInt64

/-- The ways in which Rust code panics here. -/
inductive Panic where
  | overflow
  | sliceIndex
  | capacity
deriving DecidableEq

/-- The ways in which a call ends without a response. -/
inductive Stop where
  | failed (e : HttpError)
  | panicked (p : Panic)
deriving DecidableEq

/-- The overflow checks of the build, the argument `timeout_ns` and the time of the call. -/
structure Settings where
  overflowChecks : Bool
  timeoutNs : Int64
  start : UInt64

/-- The buffer `scratch` and the connection. -/
structure Client (σ : Type) where
  scratch : List UInt8
  port : σ

/-- `HeaderInfo` -/
structure HeaderInfo where
  headerLen : Nat
  status : UInt16
  contentLength : Option Nat
  isChunked : Bool
deriving DecidableEq

/-- `HeaderResult` -/
inductive HeaderResult where
  | complete (info : HeaderInfo)
  | incomplete
  | error
deriving DecidableEq

/-- What a call is left with: a status, a body offset and a body length. -/
abbrev Reply := UInt16 × Nat × Nat

/-! ### Arithmetic and vectors -/

/-- `a + b` on `usize`. -/
def usizeAdd (checks : Bool) (a b : Nat) : Except Stop Nat :=
  if a + b < 2 ^ 64 then
    .ok (a + b)
  else if checks then
    .error (.panicked .overflow)
  else
    .ok ((a + b) % 2 ^ 64)

/-- `a - b` on `usize`. -/
def usizeSub (checks : Bool) (a b : Nat) : Except Stop Nat :=
  if b ≤ a then
    .ok (a - b)
  else if checks then
    .error (.panicked .overflow)
  else
    .ok ((2 ^ 64 + a - b) % 2 ^ 64)

/-- `a * b` on `usize`. -/
def usizeMul (checks : Bool) (a b : Nat) : Except Stop Nat :=
  if a * b < 2 ^ 64 then
    .ok (a * b)
  else if checks then
    .error (.panicked .overflow)
  else
    .ok (a * b % 2 ^ 64)

/-- `isize::MAX`, the size that no vector exceeds. -/
def isizeMax : Nat := 0x7FFFFFFFFFFFFFFF

/-- `Vec::resize` with zeros. -/
def vecResize (buf : List UInt8) (n : Nat) : Except Stop (List UInt8) :=
  if n ≤ isizeMax then .ok (Buffer.resize buf n 0) else .error (.panicked .capacity)

/-- `timeout_ns >= 0 && (utils::monotonic_ns() - start) as i64 >= timeout_ns` -/
def timedOut (s : Settings) (now : UInt64) : Except Stop Bool :=
  if 0 ≤ s.timeoutNs then
    if now < s.start ∧ s.overflowChecks = true then
      .error (.panicked .overflow)
    else
      .ok (s.timeoutNs ≤ (now - s.start).toInt64)
  else
    .ok false

/-! ### The header block -/

/-- What one header of the array makes of `content_length` and `is_chunked`. -/
def readHeader (acc : Option Nat × Bool) (h : PhrHeader) : Option Nat × Bool :=
  match h.name with
  | none => acc
  | some name =>
    if eqIgnoreAsciiCase name contentLengthName then
      match decodeUtf8 h.value with
      | some s => (parseContentLength s, acc.2)
      | none => acc
    else if eqIgnoreAsciiCase name transferEncodingName then
      match decodeUtf8 h.value with
      | some s => (acc.1, isChunked s)
      | none => acc
    else
      acc

/-- The length of the array of headers. -/
abbrev maxHeaders : Nat := 32

section

variable {δ ε σ : Type} (phr : Phr δ) (P : Port ε σ) (s : Settings)

/-- `try_parse_headers` -/
def tryParseHeaders (buf : List UInt8) (filled lastLen : Nat) : HeaderResult :=
  let r := phr.parseResponse (buf.take filled) lastLen maxHeaders
  if r.rc = -2 then
    .incomplete
  else if r.rc < 0 then
    .error
  else
    let (contentLength, isChunked) := r.headers.foldl readHeader (none, false)
    .complete
      { headerLen := r.rc.toNat
        status := UInt16.ofInt r.status
        contentLength := contentLength
        isChunked := isChunked }

/-! ### Turns -/

/-- Goes on with a value, or is done when there is none. -/
def check {α β st : Type} (client : Client σ) (x : Except Stop α)
    (k : α → Turns.Step st (Except Stop β × Client σ)) :
    Turns.Step st (Except Stop β × Client σ) :=
  match x with
  | .error stop => .done (.error stop, client)
  | .ok a => k a

/-- `conn.pump()`, and the return when the connection is closed or in error. -/
def pumpTurn {β st : Type} (t : Turn ε) (client : Client σ)
    (k : Client σ → Turns.Step st (Except Stop β × Client σ)) :
    Turns.Step st (Except Stop β × Client σ) :=
  let (r, port) := P.pump t.pump client.port
  let client := { client with port := port }
  if r.closed || r.error then
    .done (.error (.failed .connectionClosed), client)
  else
    k client

/-- The check of the timeout in a turn without bytes. -/
def idleTurn {β st : Type} (t : Turn ε) (client : Client σ) (again : st) :
    Turns.Step st (Except Stop β × Client σ) :=
  check client (timedOut s t.now) fun expired =>
    if expired then .done (.error (.failed .responseIncomplete), client) else .more again

/-- `Connection::rx_pop` into `scratch[start..]` -/
def Client.rxPop (client : Client σ) (start : Nat) : Except Stop (Nat × Client σ) :=
  if client.scratch.length < start then
    .error (.panicked .sliceIndex)
  else
    let bytes := (P.rx client.port).take (client.scratch.length - start)
    .ok (bytes.length,
      { scratch := Buffer.overwrite client.scratch start bytes
        port := P.setRx ((P.rx client.port).drop bytes.length) client.port })

/-- The state of a loop that fills `scratch`. -/
structure Filling (σ : Type) where
  client : Client σ
  filled : Nat

/-- One turn of the loop for the header block. -/
def headerTurn (t : Turn ε) (st : Filling σ) :
    Turns.Step (Filling σ) (Except Stop (HeaderInfo × Nat) × Client σ) :=
  pumpTurn P t st.client fun client =>
  check client (client.rxPop P st.filled) fun (n, client) =>
  if 0 < n then
    check client (usizeAdd s.overflowChecks st.filled n) fun filled =>
    match tryParseHeaders phr client.scratch filled st.filled with
    | .complete info => .done (.ok (info, filled), client)
    | .error => .done (.error (.failed .responseMalformed), client)
    | .incomplete =>
      if client.scratch.length ≤ filled then
        .done (.error (.failed .responseTooLarge), client)
      else
        .more { client := client, filled := filled }
  else
    idleTurn s t client { client := client, filled := st.filled }

/-- One turn of the loop for a body of known length. -/
def bodyTurn (total : Nat) (t : Turn ε) (st : Filling σ) :
    Turns.Step (Filling σ) (Except Stop Unit × Client σ) :=
  pumpTurn P t st.client fun client =>
  check client (client.rxPop P st.filled) fun (n, client) =>
  if 0 < n then
    check client (usizeAdd s.overflowChecks st.filled n) fun filled =>
    if filled < total then
      .more { client := client, filled := filled }
    else
      .done (.ok (), client)
  else
    idleTurn s t client { client := client, filled := st.filled }

/-- The state of the loop for a chunked body. -/
structure Chunking (δ σ : Type) where
  client : Client σ
  decoder : δ
  decodedTotal : Nat

/-- `MIN_HEADROOM` -/
def minHeadroom : Nat := 4096

/-- One turn of the loop for a chunked body. -/
def chunkTurn (info : HeaderInfo) (t : Turn ε) (st : Chunking δ σ) :
    Turns.Step (Chunking δ σ) (Except Stop Reply × Client σ) :=
  pumpTurn P t st.client fun client =>
  check client (usizeAdd s.overflowChecks info.headerLen st.decodedTotal) fun writeAt =>
  check client (usizeSub s.overflowChecks client.scratch.length writeAt) fun headroom =>
  check client
    (if headroom < minHeadroom then
      (usizeMul s.overflowChecks client.scratch.length 2).bind (vecResize client.scratch)
    else
      .ok client.scratch) fun scratch =>
  check { client with scratch := scratch }
    (Client.rxPop P { client with scratch := scratch } writeAt) fun (n, client) =>
  if 0 < n then
    let r := phr.decodeChunked st.decoder (Buffer.slice client.scratch writeAt n)
    let client := { client with scratch := Buffer.overwrite client.scratch writeAt r.buf }
    check client (usizeAdd s.overflowChecks st.decodedTotal r.bufsz) fun decodedTotal =>
    if 0 ≤ r.ret then
      .done (.ok (info.status, info.headerLen, decodedTotal), client)
    else if r.ret = -1 then
      .done (.error (.failed .responseMalformed), client)
    else
      .more { client := client, decoder := r.decoder, decodedTotal := decodedTotal }
  else
    idleTurn s t client { st with client := client }

/-! ### The function -/

/-- What a call is left with on a list of turns. -/
abbrev Reading (ε σ : Type) := Turns.Ended (Turn ε) (Client σ) (Except Stop Reply × Client σ)

/-- Goes on with a value, or ends the call when there is none. -/
def attempt {α : Type} (client : Client σ) (turns : List (Turn ε)) (x : Except Stop α)
    (k : α → Reading ε σ) : Reading ε σ :=
  match x with
  | .error stop => .done (.error stop, client) turns
  | .ok a => k a

/-- The branch of `read_response` for a header `Content-Length`. -/
def readSizedBody (info : HeaderInfo) (cl filled : Nat) (client : Client σ)
    (turns : List (Turn ε)) : Reading ε σ :=
  attempt client turns (usizeAdd s.overflowChecks info.headerLen cl) fun total =>
  attempt client turns
    (if client.scratch.length < total then vecResize client.scratch total
    else .ok client.scratch) fun scratch =>
  let client := { client with scratch := scratch }
  if filled < total then
    (Turns.run (bodyTurn P s total) turns { client := client, filled := filled }).andThen
      Filling.client fun (result, client) rest =>
        .done (result.map fun _ => (info.status, info.headerLen, cl), client) rest
  else
    .done (.ok (info.status, info.headerLen, cl), client) turns

/-- The loop of `read_chunked_body`. -/
def readChunks (info : HeaderInfo) (st : Chunking δ σ) (turns : List (Turn ε)) : Reading ε σ :=
  (Turns.run (chunkTurn phr P s info) turns st).andThen Chunking.client fun r rest => .done r rest

/-- `read_chunked_body` -/
def readChunkedBody (filled : Nat) (info : HeaderInfo) (client : Client σ)
    (turns : List (Turn ε)) : Reading ε σ :=
  attempt client turns (usizeSub s.overflowChecks filled info.headerLen) fun initialRaw =>
  if 0 < initialRaw then
    let r := phr.decodeChunked (phr.zeroed true)
      (Buffer.slice client.scratch info.headerLen initialRaw)
    let client := { client with scratch := Buffer.overwrite client.scratch info.headerLen r.buf }
    if 0 ≤ r.ret then
      .done (.ok (info.status, info.headerLen, r.bufsz), client) turns
    else if r.ret = -1 then
      .done (.error (.failed .responseMalformed), client) turns
    else
      readChunks phr P s info
        { client := client, decoder := r.decoder, decodedTotal := r.bufsz } turns
  else
    readChunks phr P s info
      { client := client, decoder := phr.zeroed true, decodedTotal := 0 } turns

/-- `read_response` after its loop for the header block. -/
def readBody (info : HeaderInfo) (filled : Nat) (client : Client σ) (turns : List (Turn ε)) :
    Reading ε σ :=
  match info.contentLength with
  | some cl => readSizedBody P s info cl filled client turns
  | none =>
    if info.isChunked then
      readChunkedBody phr P s filled info client turns
    else
      attempt client turns (usizeSub s.overflowChecks filled info.headerLen) fun len =>
        .done (.ok (info.status, info.headerLen, len), client) turns

/-- `read_response` -/
def readResponse (client : Client σ) (turns : List (Turn ε)) : Reading ε σ :=
  (Turns.run (headerTurn phr P s) turns { client := client, filled := 0 }).andThen
    Filling.client fun (result, client) rest =>
      attempt client rest result fun (info, filled) => readBody phr P s info filled client rest

end

end FdRpc.Http

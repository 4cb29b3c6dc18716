import Mathlib.Tactic.Common

/-!
# `fd_rpc_io`

The connection handle of `fd_rpc_io.c`, with OpenSSL. Each function takes what the operating
system and OpenSSL answer to the calls that it makes, and gives its return value, the handle
that it leaves and the calls that it makes on sockets and TLS objects (`Outcome`). TLS objects
are named by their addresses. The ring buffers are those of any `RbufSys`, and where none is given
they are the queues `Rbuf`.
-/

namespace FdRpcIo

/-- The functions of `fd_h2_rbuf` that are called, on rings of some type. Their code is not part of
the repository. -/
class RbufSys (ρ : Type) where
  init : Nat → ρ
  usedSz : ρ → Nat
  freeSz : ρ → Nat
  push : ρ → List UInt8 → ρ
  popCopy : ρ → Nat → List UInt8 × ρ
  /-- `fd_h2_rbuf_recvmsg` and `fd_h2_rbuf_ssl_read`, when the given bytes are there to be received,
  with the number of those that are. -/
  receive : ρ → List UInt8 → ρ × Nat
  /-- `fd_h2_rbuf_sendmsg` and `fd_h2_rbuf_ssl_write`, when at most a number of bytes can be sent,
  with the number of those that are. -/
  send : ρ → Nat → ρ × Nat

/-- A queue of bytes that has room for a number of them. -/
structure Rbuf where
  bytes : List UInt8
  bufsz : Nat
deriving DecidableEq, Repr

namespace Rbuf

/-- An empty queue. -/
def init (bufsz : Nat) : Rbuf := { bytes := [], bufsz := bufsz }

/-- The number of bytes in the queue. -/
def usedSz (rbuf : Rbuf) : Nat := rbuf.bytes.length

/-- The number of bytes that the queue has room for. -/
def freeSz (rbuf : Rbuf) : Nat := rbuf.bufsz - rbuf.usedSz

/-- Bytes come to the end of the queue. -/
def push (rbuf : Rbuf) (bytes : List UInt8) : Rbuf := { rbuf with bytes := rbuf.bytes ++ bytes }

/-- Bytes leave the front of the queue. -/
def pop (rbuf : Rbuf) (n : Nat) : Rbuf := { rbuf with bytes := rbuf.bytes.drop n }

/-- As many bytes as there is room for come to the end of the queue. -/
def receive (rbuf : Rbuf) (bytes : List UInt8) : Rbuf := rbuf.push (bytes.take rbuf.freeSz)

/-- The functions of `fd_h2_rbuf` on queues. -/
instance sys : RbufSys Rbuf where
  init := init
  usedSz := usedSz
  freeSz := freeSz
  push := push
  popCopy rbuf n := (rbuf.bytes.take n, rbuf.pop n)
  receive rbuf bytes := (rbuf.receive bytes, min bytes.length rbuf.freeSz)
  send rbuf n := (rbuf.pop n, min n rbuf.usedSz)

@[simp]
theorem sys_usedSz (rbuf : Rbuf) :
  RbufSys.usedSz rbuf = rbuf.usedSz
  := rfl

@[simp]
theorem sys_freeSz (rbuf : Rbuf) :
  RbufSys.freeSz rbuf = rbuf.freeSz
  := rfl

@[simp]
theorem sys_popCopy (rbuf : Rbuf) (n : Nat) :
  RbufSys.popCopy rbuf n = (rbuf.bytes.take n, rbuf.pop n)
  := rfl

@[simp]
theorem sys_receive (rbuf : Rbuf) (bytes : List UInt8) :
  RbufSys.receive rbuf bytes = (rbuf.receive bytes, min bytes.length rbuf.freeSz)
  := rfl

@[simp]
theorem sys_send (rbuf : Rbuf) (n : Nat) :
  RbufSys.send rbuf n = (rbuf.pop n, min n rbuf.usedSz)
  := rfl

end Rbuf

/-- `FD_RPC_IO_STATE_*` -/
inductive State where
  | disconnected
  | connecting
  | tlsHandshake
  | ready
  | error
deriving DecidableEq, Repr

/-- `FD_RPC_IO_PUMP_CONNECTED` -/
def pumpConnected : UInt32 := (1 : UInt32) <<< 0

/-- `FD_RPC_IO_PUMP_RX_DATA` -/
def pumpRxData : UInt32 := (1 : UInt32) <<< 1

/-- `FD_RPC_IO_PUMP_TX_DRAIN` -/
def pumpTxDrain : UInt32 := (1 : UInt32) <<< 2

/-- `FD_RPC_IO_PUMP_ERROR` -/
def pumpError : UInt32 := (1 : UInt32) <<< 3

/-- `FD_RPC_IO_PUMP_CLOSED` -/
def pumpClosed : UInt32 := (1 : UInt32) <<< 4

/-- `SSL_ERROR_WANT_READ` -/
def sslErrorWantRead : Int := 2

/-- `SSL_ERROR_WANT_WRITE` -/
def sslErrorWantWrite : Int := 3

/-- `EPIPE` -/
def epipe : Int := 32

/-- The systems that `fd_rpc_io_socket_nb` is written for. -/
inductive Platform where
  | linux
  | apple
deriving DecidableEq, Repr

/-- `EINPROGRESS` -/
def Platform.einprogress : Platform → Int
  | linux => 115
  | apple => 36

/-- `fd_rpc_io_t` -/
structure Io (ρ : Type := Rbuf) where
  sockFd : Int
  state : State
  err : Int
  sslCtx : Option Nat
  ssl : Option Nat
  sslHsDone : Bool
  rbufRx : ρ
  rbufTx : ρ
deriving DecidableEq, Repr

/-- The calls on sockets and TLS objects. A call that makes an object is one that succeeded. -/
inductive OsCall where
  | socket (fd : Int)
  | connect (fd : Int) (addr : UInt32) (port : UInt16)
  | close (fd : Int)
  | sslCtxNew (ctx : Nat)
  | sslCtxFree (ctx : Nat)
  | sslNew (ssl : Nat)
  | sslSetHost (ssl : Nat) (hostname : String)
  | sslDoHandshake (ssl : Nat) (res : Int)
  | sslShutdown (ssl : Nat)
  | sslFree (ssl : Nat)
  | sslRead (ssl : Nat)
  | sslWrite (ssl : Nat)
  | recvmsg (fd : Int)
  | sendmsg (fd : Int)
deriving DecidableEq, Repr

/-- The return value of a function, the handle that it leaves and the calls that it makes. -/
structure Outcome (α : Type) (ρ : Type := Rbuf) where
  ret : α
  io : Io ρ
  calls : List OsCall

/-- What `socket`, `fcntl`, `connect`, `SSL_CTX_new` and `SSL_new` answer. A null pointer is
`none`. -/
structure ConnectAnswers where
  socket : Int
  getFlags : Int := 0
  setFlags : Int := 0
  socketErrno : Int := 0
  connect : Int
  connectErrno : Int := 0
  sslCtx : Option Nat := none
  ssl : Option Nat := none

/-- What `poll`, `getsockopt`, `SSL_do_handshake` and the transfers answer. -/
structure PumpAnswers where
  nfds : Int := 0
  pollErr : Bool := false
  pollOut : Bool := false
  soErr : Int := 0
  handshake : Int := 0
  handshakeErr : Int := 0
  received : List UInt8 := []
  rxErr : Int := 0
  sent : Nat := 0
  txErr : Int := 0

variable {ρ : Type} [RbufSys ρ]

/-- `fd_rpc_io_new` -/
def new (rxBufsz txBufsz : Nat) : Io ρ where
  sockFd := -1
  state := .disconnected
  err := 0
  sslCtx := none
  ssl := none
  sslHsDone := false
  rbufRx := RbufSys.init rxBufsz
  rbufTx := RbufSys.init txBufsz

/-- `fd_rpc_io_socket_nb` -/
def socketNb (platform : Platform) (a : ConnectAnswers) : Int × List OsCall :=
  match platform with
  | .apple =>
    if a.socket < 0 then
      (a.socket, [])
    else if a.getFlags < 0 ∨ a.setFlags < 0 then
      (-1, [.socket a.socket, .close a.socket])
    else
      (a.socket, [.socket a.socket])
  | .linux =>
    if a.socket < 0 then
      (a.socket, [])
    else
      (a.socket, [.socket a.socket])

/-- The part of `fd_rpc_io_connect` that sets up TLS on a socket that has been connected. -/
def connectTls (a : ConnectAnswers) (fd : Int) (hostname : Option String) (io : Io ρ)
    (calls : List OsCall) : Outcome Int ρ :=
  match a.sslCtx with
  | none =>
    { ret := -1
      io := { io with sslCtx := none, sockFd := -1, state := .error }
      calls := calls ++ [.close fd] }
  | some ctx =>
    match a.ssl with
    | none =>
      { ret := -1
        io := { io with ssl := none, sslCtx := none, sockFd := -1, state := .error }
        calls := calls ++ [.sslCtxNew ctx, .sslCtxFree ctx, .close fd] }
    | some ssl =>
      { ret := 0
        io :=
          { io with
            sslCtx := some ctx
            ssl := some ssl
            sslHsDone := false
            state := if a.connect = 0 then .tlsHandshake else .connecting }
        calls := calls ++ [.sslCtxNew ctx, .sslNew ssl]
          ++ (hostname.map (OsCall.sslSetHost ssl)).toList }

/-- `fd_rpc_io_connect` -/
def connect (platform : Platform) (a : ConnectAnswers) (addr : UInt32) (port : UInt16)
    (useTls : Bool) (hostname : Option String) (io : Io ρ) : Outcome Int ρ :=
  if io.state ≠ .disconnected then
    { ret := -1, io := io, calls := [] }
  else
    let (fd, calls) := socketNb platform a
    if fd < 0 then
      { ret := -1, io := { io with err := a.socketErrno, state := .error }, calls := calls }
    else
      let calls := calls ++ [.connect fd addr port]
      if a.connect < 0 ∧ a.connectErrno ≠ platform.einprogress then
        { ret := -1
          io := { io with err := a.connectErrno, state := .error }
          calls := calls ++ [.close fd] }
      else
        let io := { io with sockFd := fd }
        if useTls then
          connectTls a fd hostname io calls
        else
          { ret := 0
            io := { io with state := if a.connect = 0 then .ready else .connecting }
            calls := calls }

/-- `fd_rpc_io_pump_connecting` -/
def pumpConnecting (a : PumpAnswers) (io : Io ρ) : Outcome UInt32 ρ :=
  if a.nfds ≤ 0 then
    { ret := 0, io := io, calls := [] }
  else if a.pollErr then
    { ret := pumpError, io := { io with err := a.soErr, state := .error }, calls := [] }
  else if a.pollOut then
    if io.ssl.isSome then
      { ret := pumpConnected, io := { io with state := .tlsHandshake }, calls := [] }
    else
      { ret := pumpConnected, io := { io with state := .ready }, calls := [] }
  else
    { ret := 0, io := io, calls := [] }

/-- `fd_rpc_io_pump_tls` -/
def pumpTls (a : PumpAnswers) (io : Io ρ) : Outcome UInt32 ρ :=
  if io.sslHsDone then
    { ret := 0, io := io, calls := [] }
  else
    let calls := (io.ssl.map fun ssl => OsCall.sslDoHandshake ssl a.handshake).toList
    if a.handshake ≤ 0 then
      if a.handshakeErr = sslErrorWantRead ∨ a.handshakeErr = sslErrorWantWrite then
        { ret := 0, io := io, calls := calls }
      else
        { ret := pumpError
          io := { io with err := a.handshakeErr, state := .error }
          calls := calls }
    else
      { ret := pumpConnected
        io := { io with sslHsDone := true, state := .ready }
        calls := calls }

/-- The transfers of `fd_rpc_io_pump_ready` on a TLS object. -/
def pumpReadyTls (a : PumpAnswers) (ssl : Nat) (io : Io ρ) : Outcome UInt32 ρ :=
  let readSz := (RbufSys.receive io.rbufRx a.received).2
  let io := { io with rbufRx := (RbufSys.receive io.rbufRx a.received).1 }
  if a.rxErr ≠ 0 ∧ a.rxErr ≠ sslErrorWantRead then
    { ret := pumpError ||| pumpClosed
      io := { io with err := a.rxErr, state := .error }
      calls := [.sslRead ssl] }
  else
    let writeSz := (RbufSys.send io.rbufTx a.sent).2
    { ret := (if readSz ≠ 0 then pumpRxData else 0) ||| (if writeSz ≠ 0 then pumpTxDrain else 0)
      io := { io with rbufTx := (RbufSys.send io.rbufTx a.sent).1 }
      calls := [.sslRead ssl, .sslWrite ssl] }

/-- The transfers of `fd_rpc_io_pump_ready` on a plain socket. -/
def pumpReadyPlain (a : PumpAnswers) (io : Io ρ) : Outcome UInt32 ρ :=
  let io := { io with rbufRx := (RbufSys.receive io.rbufRx a.received).1 }
  let calls := [.recvmsg io.sockFd]
  if a.rxErr ≠ 0 then
    if a.rxErr = epipe then
      { ret := pumpClosed, io := { io with state := .error }, calls := calls }
    else
      { ret := pumpError, io := { io with err := a.rxErr, state := .error }, calls := calls }
  else
    let rxFlag := if RbufSys.usedSz io.rbufRx ≠ 0 then pumpRxData else 0
    let io := { io with rbufTx := (RbufSys.send io.rbufTx a.sent).1 }
    let calls := calls ++ [.sendmsg io.sockFd]
    if a.txErr ≠ 0 then
      { ret := pumpError, io := { io with err := a.txErr, state := .error }, calls := calls }
    else
      { ret := rxFlag ||| (if RbufSys.freeSz io.rbufTx ≠ 0 then pumpTxDrain else 0)
        io := io
        calls := calls }

/-- `fd_rpc_io_pump_ready` -/
def pumpReady (a : PumpAnswers) (io : Io ρ) : Outcome UInt32 ρ :=
  match io.ssl with
  | some ssl => pumpReadyTls a ssl io
  | none => pumpReadyPlain a io

/-- `fd_rpc_io_pump` -/
def pump (a : PumpAnswers) (io : Io ρ) : Outcome UInt32 ρ :=
  match io.state with
  | .connecting => pumpConnecting a io
  | .ready => pumpReady a io
  | .tlsHandshake => pumpTls a io
  | _ => { ret := 0, io := io, calls := [] }

/-- `fd_rpc_io_close` -/
def close (io : Io ρ) : Outcome Unit ρ :=
  { ret := ()
    io :=
      { io with
        ssl := none
        sslCtx := none
        sockFd := if 0 ≤ io.sockFd then -1 else io.sockFd
        state := .disconnected }
    calls :=
      (match io.ssl with
        | some ssl => [.sslShutdown ssl, .sslFree ssl]
        | none => [])
      ++ (io.sslCtx.map OsCall.sslCtxFree).toList
      ++ (if 0 ≤ io.sockFd then [.close io.sockFd] else []) }

end FdRpcIo

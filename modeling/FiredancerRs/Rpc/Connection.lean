import FiredancerRs.Http.Port
import FiredancerRs.Io.Ring
import FiredancerRs.Io.Run

/-!
# Connections

`Connection` of `fd_rpc::io`, over the handle of `fd_rpc_io`, and the port that it is for
`read_response`. The rings of the handle are queues, which all documented rings behave as
(`FdRpcIo.uses_map`). A connection carries along what has happened on it. A pump reports a failure
exactly when it leaves the handle in the error state (`failed_pump`).
-/

open FdEd25519

namespace FdRpc

open Http

/-- `PumpResult::from_flags` -/
def Http.PumpResult.fromFlags (flags : UInt32) : PumpResult where
  connected := flags &&& FdRpcIo.pumpConnected != 0
  rxData := flags &&& FdRpcIo.pumpRxData != 0
  txDrain := flags &&& FdRpcIo.pumpTxDrain != 0
  error := flags &&& FdRpcIo.pumpError != 0
  closed := flags &&& FdRpcIo.pumpClosed != 0

/-- What happens on a connection: a request is pushed into the TX ring, or a pump gives its result
and brings bytes into the RX ring. -/
inductive Event where
  | pushed (request : Bytes)
  | pumped (result : PumpResult) (received : Bytes)

/-- `Connection`. No function reads what has happened. -/
structure Connection where
  io : FdRpcIo.Io
  events : List Event

/-- `DEFAULT_BUF_SZ` -/
def defaultBufSz : Nat := 65536

namespace Connection

/-- `Connection::with_buf_sz` -/
def withBufSz (rxBufsz txBufsz : Nat) : Connection where
  io := FdRpcIo.new rxBufsz txBufsz
  events := []

/-- `Connection::new` -/
def new : Connection := withBufSz defaultBufSz defaultBufSz

/-- `Connection::connect`. A host name with a zero byte is not a `CString`. -/
def connect (platform : FdRpcIo.Platform) (a : FdRpcIo.ConnectAnswers) (addr : UInt32)
    (port : UInt16) (useTls : Bool) (hostname : Option (List Char)) (conn : Connection) :
    Except IoError Unit × Connection :=
  if hostname.any (·.contains '\x00') then
    (.error (.connectFailed 0), conn)
  else
    let outcome :=
      FdRpcIo.connect platform a addr port useTls (hostname.map String.ofList) conn.io
    let conn := { conn with io := outcome.io }
    if outcome.ret < 0 then (.error (.connectFailed outcome.io.err), conn) else (.ok (), conn)

/-- `Connection::pump` -/
def pump (a : FdRpcIo.PumpAnswers) (conn : Connection) : PumpResult × Connection :=
  let outcome := FdRpcIo.pump a conn.io
  let r := PumpResult.fromFlags outcome.ret
  let received := outcome.io.rbufRx.bytes.drop conn.io.rbufRx.usedSz
  (r, { io := outcome.io, events := conn.events ++ [.pumped r received] })

/-- `Connection::is_ready` -/
def isReady (conn : Connection) : Bool := conn.io.state = .ready

/-- `Connection::tx_push`, of the parts of one request. -/
def txPush (request : Bytes) (conn : Connection) : Connection where
  io := { conn.io with rbufTx := conn.io.rbufTx.push request }
  events := conn.events ++ [.pushed request]

/-- The connection as `read_response` uses it. -/
def port : Port FdRpcIo.PumpAnswers Connection where
  pump := pump
  rx conn := conn.io.rbufRx.bytes
  setRx bytes conn :=
    { conn with io := { conn.io with rbufRx := { conn.io.rbufRx with bytes := bytes } } }

/-- What a connection does to its handle are uses of it, and what `read_response` pops of the port
is what `rx_pop` copies. -/
theorem exec_use (a : FdRpcIo.PumpAnswers) (request : Bytes) (len : Nat) (conn : Connection) :
  ((FdRpcIo.Use.pump a).exec conn.io).1 = (conn.pump a).2.io
    ∧ ((FdRpcIo.Use.txPush request).exec conn.io).1 = (conn.txPush request).io
    ∧ (FdRpcIo.Use.rxPop len).exec conn.io = ((port.setRx ((port.rx conn).drop len) conn).io,
      .popped ((port.rx conn).take len))
  := by
  refine ⟨rfl, rfl, ?_⟩
  rw [FdRpcIo.Use.exec, FdRpcIo.rxPop_queue]
  rfl

/-! ### Connecting -/

/-- Nothing has happened on a connection that is set up, and its rings are empty. -/
structure Fresh (conn : Connection) : Prop where
  state : conn.io.state ≠ .error
  events : conn.events = []
  rx : conn.io.rbufRx = .init defaultBufSz
  tx : conn.io.rbufTx = .init defaultBufSz

theorem fresh_of_connect {platform : FdRpcIo.Platform} {a : FdRpcIo.ConnectAnswers}
    {addr : UInt32} {port : UInt16} {useTls : Bool} {hostname : Option (List Char)}
    {conn : Connection} (h : new.connect platform a addr port useTls hostname = (.ok (), conn)) :
  conn.Fresh
  := by
  rw [connect] at h
  split at h
  · cases h
  · have hend := FdRpcIo.connect_end platform a addr port useTls (hostname.map String.ofList) new.io
    generalize FdRpcIo.connect platform a addr port useTls (hostname.map String.ofList) new.io
      = outcome at h hend
    cases hend with
    | tls hstate hfd htls ctx ssl =>
      obtain ⟨-, rfl⟩ := Prod.mk.inj h
      exact { state := by dsimp only; split <;> simp, events := rfl, rx := rfl, tx := rfl }
    | plain hstate hfd htls =>
      obtain ⟨-, rfl⟩ := Prod.mk.inj h
      exact { state := by dsimp only; split <;> simp, events := rfl, rx := rfl, tx := rfl }
    | _ => cases h

/-! ### Pumps -/

variable {a : FdRpcIo.PumpAnswers} {conn : Connection}

/-- The flags of a pump that moved bytes report no failure. -/
theorem failed_movedFlags (rx tx : Bool) :
  (PumpResult.fromFlags (FdRpcIo.movedFlags rx tx)).failed = false
  := by
  cases rx <;> cases tx <;> rfl

/-- The flag of a pump that finished connecting reports no failure. -/
theorem failed_pumpConnected :
  (PumpResult.fromFlags FdRpcIo.pumpConnected).failed = false
  := by decide

/-- A pump reports a failure when it leaves the handle in the error state, except that it reports
nothing when it finds it there. -/
theorem failed_pump (h : conn.io.state ≠ .error) :
  (conn.pump a).1.failed = true ↔ (conn.pump a).2.io.state = .error
  := by
  have hend := FdRpcIo.pump_end a conn.io
  rw [pump]
  generalize FdRpcIo.pump a conn.io = outcome at hend
  cases hend with
  | idle | handshakeWaits => simpa [PumpResult.fromFlags, PumpResult.failed] using h
  | connected => cases conn.io.ssl <;> simp [failed_pumpConnected]
  | handshakeDone => simp [failed_pumpConnected]
  | tlsMoved hready ssl hssl rx tx => simpa [failed_movedFlags] using h
  | plainMoved hready hssl rx tx => simpa [failed_movedFlags] using h
  | connectFailed | handshakeFailed | tlsFailed | plainClosed | plainRxFailed | plainTxFailed =>
    simp only [iff_true]
    decide

end Connection

end FdRpc

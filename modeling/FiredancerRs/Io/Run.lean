import FiredancerRs.Io.FdRpcIo
import Mathlib.Logic.Relation

/-!
# Runs of `fd_rpc_io`

Sequences of calls of `fd_rpc_io_new`, `fd_rpc_io_connect`, `fd_rpc_io_pump` and
`fd_rpc_io_close` on one handle, with any answers of the operating system and of OpenSSL. A run
begins with `fd_rpc_io_new`, since there is no handle before it.
-/

namespace FdRpcIo

/-- A call on the handle. -/
inductive Call where
  | new (rxBufsz txBufsz : Nat)
  | connect (a : ConnectAnswers) (addr : UInt32) (port : UInt16) (useTls : Bool)
    (hostname : Option String)
  | pump (a : PumpAnswers)
  | close

/-- The handle, the calls made so far, and whether the last connect that succeeded was one with
`use_tls`. -/
structure World (ρ : Type := Rbuf) where
  io : Io ρ
  calls : List OsCall
  lastTls : Bool

variable {ρ : Type} [RbufSys ρ] (platform : Platform)

/-- The handle that a call leaves and the calls that it makes. -/
def Call.exec (call : Call) (io : Io ρ) : Io ρ × List OsCall :=
  match call with
  | .new rxBufsz txBufsz => (FdRpcIo.new rxBufsz txBufsz, [])
  | .connect a addr port useTls hostname =>
    let outcome := FdRpcIo.connect platform a addr port useTls hostname io
    (outcome.io, outcome.calls)
  | .pump a => ((FdRpcIo.pump a io).io, (FdRpcIo.pump a io).calls)
  | .close => ((FdRpcIo.close io).io, (FdRpcIo.close io).calls)

/-- Whether the last successful connect is one with `use_tls`, after a call. -/
def Call.lastTls (call : Call) (w : World ρ) : Bool :=
  match call with
  | .connect a addr port useTls hostname =>
    if (FdRpcIo.connect platform a addr port useTls hostname w.io).ret = 0 then
      useTls
    else
      w.lastTls
  | _ => w.lastTls

namespace World

/-- The effect of a call. -/
def step (w : World ρ) (call : Call) : World ρ where
  io := (call.exec platform w.io).1
  calls := w.calls ++ (call.exec platform w.io).2
  lastTls := call.lastTls platform w

/-- A new handle. -/
def start (rxBufsz txBufsz : Nat) : World ρ where
  io := new rxBufsz txBufsz
  calls := []
  lastTls := false

/-- Some call leads from one state to the next. -/
def Step (w w' : World ρ) : Prop := ∃ call, w' = w.step platform call

/-- The state is reached by some run. -/
def Reachable (w : World ρ) : Prop :=
  ∃ rxBufsz txBufsz, Relation.ReflTransGen (Step platform) (start rxBufsz txBufsz) w

variable {platform}

/-- What holds of new handles and is kept by every call holds of every reachable state. -/
theorem Reachable.invariant {w : World ρ} (h : Reachable platform w) {p : World ρ → Prop}
    (hstart : ∀ rxBufsz txBufsz, p (start rxBufsz txBufsz))
    (hstep : ∀ w call, p w → p (w.step platform call)) :
  p w
  := by
  obtain ⟨rxBufsz, txBufsz, hrun⟩ := h
  induction hrun with
  | refl => apply hstart
  | tail _ hw ih =>
    obtain ⟨call, rfl⟩ := hw
    apply hstep _ call ih

end World

/-! ### What a call can do -/

variable {platform} {io : Io ρ}

/-- The ways in which `fd_rpc_io_socket_nb` ends. -/
theorem socketNb_cases (platform : Platform) (a : ConnectAnswers) :
  (∃ fd < 0, socketNb platform a = (fd, []))
    ∨ socketNb platform a = (-1, [.socket a.socket, .close a.socket])
    ∨ 0 ≤ a.socket ∧ socketNb platform a = (a.socket, [.socket a.socket])
  := by
  by_cases hneg : a.socket < 0
  · left
    use a.socket, hneg
    cases platform <;> simp [socketNb, hneg]
  · have hnonneg := Int.not_lt.mp hneg
    right
    cases platform with
    | linux =>
      right
      simp [socketNb, hneg, hnonneg]
    | apple =>
      by_cases hflags : a.getFlags < 0 ∨ a.setFlags < 0
      · left
        simp [socketNb, hneg, hflags]
      · right
        simp [socketNb, hneg, hnonneg, hflags]

/-- The ways in which `fd_rpc_io_connect` ends. -/
inductive ConnectEnd (io : Io ρ) (a : ConnectAnswers) (addr : UInt32) (port : UInt16)
    (useTls : Bool) (hostname : Option String) : Outcome Int ρ → Prop where
  | refused (h : io.state ≠ .disconnected) : ConnectEnd io a addr port useTls hostname
      { ret := -1, io := io, calls := [] }
  | noSocket (h : io.state = .disconnected) (err : Int) : ConnectEnd io a addr port useTls hostname
      { ret := -1, io := { io with err := err, state := .error }, calls := [] }
  | noFlags (h : io.state = .disconnected) (err : Int) : ConnectEnd io a addr port useTls hostname
      { ret := -1
        io := { io with err := err, state := .error }
        calls := [.socket a.socket, .close a.socket] }
  | failed (h : io.state = .disconnected) (err : Int) : ConnectEnd io a addr port useTls hostname
      { ret := -1
        io := { io with err := err, state := .error }
        calls := [.socket a.socket, .connect a.socket addr port, .close a.socket] }
  | noCtx (h : io.state = .disconnected) : ConnectEnd io a addr port useTls hostname
      { ret := -1
        io := { io with sslCtx := none, sockFd := -1, state := .error }
        calls := [.socket a.socket, .connect a.socket addr port, .close a.socket] }
  | noSsl (h : io.state = .disconnected) (ctx : Nat) : ConnectEnd io a addr port useTls hostname
      { ret := -1
        io := { io with ssl := none, sslCtx := none, sockFd := -1, state := .error }
        calls := [.socket a.socket, .connect a.socket addr port, .sslCtxNew ctx, .sslCtxFree ctx,
          .close a.socket] }
  | tls (h : io.state = .disconnected) (hfd : 0 ≤ a.socket) (htls : useTls = true)
      (ctx ssl : Nat) : ConnectEnd io a addr port useTls hostname
      { ret := 0
        io :=
          { io with
            sockFd := a.socket
            sslCtx := some ctx
            ssl := some ssl
            sslHsDone := false
            state := if a.connect = 0 then .tlsHandshake else .connecting }
        calls := [.socket a.socket, .connect a.socket addr port, .sslCtxNew ctx, .sslNew ssl]
          ++ (hostname.map (OsCall.sslSetHost ssl)).toList }
  | plain (h : io.state = .disconnected) (hfd : 0 ≤ a.socket) (htls : useTls = false) :
      ConnectEnd io a addr port useTls hostname
      { ret := 0
        io :=
          { io with
            sockFd := a.socket
            state := if a.connect = 0 then .ready else .connecting }
        calls := [.socket a.socket, .connect a.socket addr port] }

omit [RbufSys ρ] in
/-- `fd_rpc_io_connect` ends in one of its ways. -/
theorem connect_end (platform : Platform) (a : ConnectAnswers) (addr : UInt32) (port : UInt16)
    (useTls : Bool) (hostname : Option String) (io : Io ρ) :
  ConnectEnd io a addr port useTls hostname (connect platform a addr port useTls hostname io)
  := by
  rw [connect]
  split
  case isTrue h => apply ConnectEnd.refused h
  case isFalse h =>
    have hstate := not_not.mp h
    obtain ⟨fd, hneg, heq⟩ | heq | ⟨hfd, heq⟩ := socketNb_cases platform a
    · simp only [heq, hneg, if_true]
      apply ConnectEnd.noSocket hstate
    · simp only [heq, Int.reduceNeg, Int.reduceLT, if_true]
      apply ConnectEnd.noFlags hstate
    · simp only [heq, Int.not_lt.mpr hfd, if_false]
      split
      · apply ConnectEnd.failed hstate
      · cases useTls with
        | false => apply ConnectEnd.plain hstate hfd rfl
        | true =>
          rw [if_pos rfl, connectTls]
          split
          · apply ConnectEnd.noCtx hstate
          · split
            · apply ConnectEnd.noSsl hstate
            · apply ConnectEnd.tls hstate hfd rfl

/-- The flags of a pump that moved bytes. -/
def movedFlags (rx tx : Bool) : UInt32 :=
  (if rx then pumpRxData else 0) ||| (if tx then pumpTxDrain else 0)

/-- The ways in which `fd_rpc_io_pump` ends. -/
inductive PumpEnd (io : Io ρ) (a : PumpAnswers) : Outcome UInt32 ρ → Prop where
  | idle (h : io.state ≠ .ready) : PumpEnd io a { ret := 0, io := io, calls := [] }
  | connectFailed (h : io.state = .connecting) : PumpEnd io a
      { ret := pumpError, io := { io with err := a.soErr, state := .error }, calls := [] }
  | connected (h : io.state = .connecting) : PumpEnd io a
      { ret := pumpConnected
        io := { io with state := if io.ssl.isSome then .tlsHandshake else .ready }
        calls := [] }
  | handshakeWaits (h : io.state = .tlsHandshake) : PumpEnd io a
      { ret := 0
        io := io
        calls := (io.ssl.map fun ssl => OsCall.sslDoHandshake ssl a.handshake).toList }
  | handshakeFailed (h : io.state = .tlsHandshake) : PumpEnd io a
      { ret := pumpError
        io := { io with err := a.handshakeErr, state := .error }
        calls := (io.ssl.map fun ssl => OsCall.sslDoHandshake ssl a.handshake).toList }
  | handshakeDone (h : io.state = .tlsHandshake) (hres : 0 < a.handshake) : PumpEnd io a
      { ret := pumpConnected
        io := { io with sslHsDone := true, state := .ready }
        calls := (io.ssl.map fun ssl => OsCall.sslDoHandshake ssl a.handshake).toList }
  | tlsFailed (h : io.state = .ready) (ssl : Nat) (hssl : io.ssl = some ssl) : PumpEnd io a
      { ret := pumpError ||| pumpClosed
        io :=
          { io with
            rbufRx := (RbufSys.receive io.rbufRx a.received).1
            err := a.rxErr
            state := .error }
        calls := [.sslRead ssl] }
  | tlsMoved (h : io.state = .ready) (ssl : Nat) (hssl : io.ssl = some ssl) (rx tx : Bool) :
      PumpEnd io a
      { ret := movedFlags rx tx
        io :=
          { io with
            rbufRx := (RbufSys.receive io.rbufRx a.received).1
            rbufTx := (RbufSys.send io.rbufTx a.sent).1 }
        calls := [.sslRead ssl, .sslWrite ssl] }
  | plainClosed (h : io.state = .ready) (hssl : io.ssl = none) : PumpEnd io a
      { ret := pumpClosed
        io := { io with rbufRx := (RbufSys.receive io.rbufRx a.received).1, state := .error }
        calls := [.recvmsg io.sockFd] }
  | plainRxFailed (h : io.state = .ready) (hssl : io.ssl = none) : PumpEnd io a
      { ret := pumpError
        io :=
          { io with
            rbufRx := (RbufSys.receive io.rbufRx a.received).1
            err := a.rxErr
            state := .error }
        calls := [.recvmsg io.sockFd] }
  | plainTxFailed (h : io.state = .ready) (hssl : io.ssl = none) : PumpEnd io a
      { ret := pumpError
        io :=
          { io with
            rbufRx := (RbufSys.receive io.rbufRx a.received).1
            rbufTx := (RbufSys.send io.rbufTx a.sent).1
            err := a.txErr
            state := .error }
        calls := [.recvmsg io.sockFd, .sendmsg io.sockFd] }
  | plainMoved (h : io.state = .ready) (hssl : io.ssl = none) (rx tx : Bool) : PumpEnd io a
      { ret := movedFlags rx tx
        io :=
          { io with
            rbufRx := (RbufSys.receive io.rbufRx a.received).1
            rbufTx := (RbufSys.send io.rbufTx a.sent).1 }
        calls := [.recvmsg io.sockFd, .sendmsg io.sockFd] }

theorem pumpConnecting_end {a : PumpAnswers} (h : io.state = .connecting) :
  PumpEnd io a (pumpConnecting a io)
  := by
  have hidle : io.state ≠ .ready := by simp [h]
  rw [pumpConnecting]
  split
  · apply PumpEnd.idle hidle
  split
  · apply PumpEnd.connectFailed h
  split
  · have hconnected := PumpEnd.connected (a := a) h
    split
    case isTrue hssl => rwa [if_pos hssl] at hconnected
    case isFalse hssl => rwa [if_neg hssl] at hconnected
  · apply PumpEnd.idle hidle

theorem pumpTls_end {a : PumpAnswers} (h : io.state = .tlsHandshake) :
  PumpEnd io a (pumpTls a io)
  := by
  rw [pumpTls]
  split
  · apply PumpEnd.idle
    simp [h]
  simp only
  split
  · split
    · apply PumpEnd.handshakeWaits h
    · apply PumpEnd.handshakeFailed h
  case isFalse hres => apply PumpEnd.handshakeDone h (Int.not_le.mp hres)

theorem pumpReady_end {a : PumpAnswers} (h : io.state = .ready) :
  PumpEnd io a (pumpReady a io)
  := by
  rw [pumpReady]
  split
  case h_1 ssl hssl =>
    rw [pumpReadyTls]
    simp only
    split
    · apply PumpEnd.tlsFailed h ssl hssl
    · have hmoved := PumpEnd.tlsMoved (a := a) h ssl hssl
        (decide ((RbufSys.receive io.rbufRx a.received).2 ≠ 0))
        (decide ((RbufSys.send io.rbufTx a.sent).2 ≠ 0))
      simpa only [movedFlags, decide_eq_true_eq] using hmoved
  case h_2 hssl =>
    rw [pumpReadyPlain]
    simp only
    split
    · split
      · apply PumpEnd.plainClosed h hssl
      · apply PumpEnd.plainRxFailed h hssl
    · split
      · apply PumpEnd.plainTxFailed h hssl
      · have hmoved := PumpEnd.plainMoved (a := a) h hssl
          (decide (RbufSys.usedSz (RbufSys.receive io.rbufRx a.received).1 ≠ 0))
          (decide (RbufSys.freeSz (RbufSys.send io.rbufTx a.sent).1 ≠ 0))
        simp only [movedFlags, decide_eq_true_eq] at hmoved
        apply hmoved

/-- `fd_rpc_io_pump` ends in one of its ways. -/
theorem pump_end (a : PumpAnswers) (io : Io ρ) :
  PumpEnd io a (pump a io)
  := by
  rw [pump]
  split
  case h_1 h => apply pumpConnecting_end h
  case h_2 h => apply pumpReady_end h
  case h_3 h => apply pumpTls_end h
  case h_4 => apply PumpEnd.idle ‹_›

end FdRpcIo

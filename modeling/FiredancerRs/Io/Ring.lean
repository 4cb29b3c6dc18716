import FiredancerRs.Io.FdRpcIo
import FiredancerRs.Lib.Runs

/-!
# The rings of a handle

What is documented of `fd_h2_rbuf` is that a ring behaves as the queue of the bytes that it holds
(`Documented`). A `Connection` uses its handle by the calls of `fd_rpc_io`, by pushes into the TX
ring and by copies out of the RX ring. With documented rings it sees what it sees with the queues
that they hold, and these stay what the rings hold (`uses_map`).
-/

namespace FdRpcIo

variable {ρ ρ' : Type}

/-- The handle with what its rings are taken to. -/
def Io.map (held : ρ → ρ') (io : Io ρ) : Io ρ' :=
  { io with rbufRx := held io.rbufRx, rbufTx := held io.rbufTx }

/-- The outcome with what its rings are taken to. -/
def Outcome.map {α : Type} (held : ρ → ρ') (outcome : Outcome α ρ) : Outcome α ρ' :=
  { outcome with io := outcome.io.map held }

variable [RbufSys ρ]

/-- What is documented of rings, by the queues of bytes that they hold. Bytes are pushed when there
is room for them, and copied when they are there. -/
structure Documented (held : ρ → Rbuf) : Prop where
  init : ∀ bufsz, held (RbufSys.init bufsz) = .init bufsz
  usedSz : ∀ rbuf, RbufSys.usedSz rbuf = (held rbuf).usedSz
  freeSz : ∀ rbuf, RbufSys.freeSz rbuf = (held rbuf).freeSz
  push : ∀ rbuf bytes, bytes.length ≤ (held rbuf).freeSz →
    held (RbufSys.push rbuf bytes) = (held rbuf).push bytes
  popCopy : ∀ rbuf n, n ≤ (held rbuf).usedSz →
    (RbufSys.popCopy rbuf n).1 = (held rbuf).bytes.take n
      ∧ held (RbufSys.popCopy rbuf n).2 = (held rbuf).pop n
  receive : ∀ rbuf bytes, held (RbufSys.receive rbuf bytes).1 = (held rbuf).receive bytes
    ∧ (RbufSys.receive rbuf bytes).2 = min bytes.length (held rbuf).freeSz
  send : ∀ rbuf n, held (RbufSys.send rbuf n).1 = (held rbuf).pop n
    ∧ (RbufSys.send rbuf n).2 = min n (held rbuf).usedSz

/-- Queues are documented rings. -/
example :
  Documented (id : Rbuf → Rbuf)
  where
  init _ := rfl
  usedSz _ := rfl
  freeSz _ := rfl
  push _ _ _ := rfl
  popCopy _ _ _ := ⟨rfl, rfl⟩
  receive _ _ := ⟨rfl, rfl⟩
  send _ _ := ⟨rfl, rfl⟩

/-! ### Uses of a handle -/

/-- What a `Connection` does with its handle: the calls of `fd_rpc_io`, `tx_push` and `rx_pop`. -/
inductive Use where
  | new (rxBufsz txBufsz : Nat)
  | connect (platform : Platform) (a : ConnectAnswers) (addr : UInt32) (port : UInt16)
    (useTls : Bool) (hostname : Option String)
  | pump (a : PumpAnswers)
  | close
  | txPush (data : List UInt8)
  | rxPop (len : Nat)

/-- What is seen of a use: the calls that are made and the value that is returned, or the bytes that
are copied. -/
inductive Seen where
  | done (calls : List OsCall)
  | connected (ret : Int) (calls : List OsCall)
  | pumped (flags : UInt32) (calls : List OsCall)
  | popped (bytes : List UInt8)

/-- `Connection::tx_push` -/
def Io.txPush (data : List UInt8) (io : Io ρ) : Io ρ :=
  { io with rbufTx := RbufSys.push io.rbufTx data }

/-- `Connection::rx_pop` into a buffer of a length. -/
def Io.rxPop (len : Nat) (io : Io ρ) : List UInt8 × Io ρ :=
  let avail := RbufSys.usedSz io.rbufRx
  let n := min avail len
  if n > 0 then
    let (bytes, rbufRx) := RbufSys.popCopy io.rbufRx n
    (bytes, { io with rbufRx := rbufRx })
  else
    ([], io)

/-- The handle after a use, with what is seen of it. -/
def Use.exec (io : Io ρ) : Use → Io ρ × Seen
  | .new rxBufsz txBufsz => (FdRpcIo.new rxBufsz txBufsz, .done [])
  | .connect platform a addr port useTls hostname =>
    let outcome := FdRpcIo.connect platform a addr port useTls hostname io
    (outcome.io, .connected outcome.ret outcome.calls)
  | .pump a => ((FdRpcIo.pump a io).io, .pumped (FdRpcIo.pump a io).ret (FdRpcIo.pump a io).calls)
  | .close => ((FdRpcIo.close io).io, .done (FdRpcIo.close io).calls)
  | .txPush data => (io.txPush data, .done [])
  | .rxPop len => ((io.rxPop len).2, .popped (io.rxPop len).1)

/-- Bytes are pushed when `fd_h2_rbuf_free_sz` tells that there is room for them. -/
def Use.Fits (io : Io ρ) : Use → Prop
  | .txPush data => data.length ≤ RbufSys.freeSz io.rbufTx
  | _ => True

/-- The handle after a use, with what is seen of it and of the uses before. -/
def Use.step (p : Io ρ × List Seen) (use : Use) : Io ρ × List Seen :=
  ((use.exec p.1).1, p.2 ++ [(use.exec p.1).2])

/-! ### Documented rings -/

section Map

variable {held : ρ → Rbuf}

omit [RbufSys ρ] in
theorem connectTls_map (held : ρ → ρ') (a : ConnectAnswers) (fd : Int) (hostname : Option String)
    (io : Io ρ) (calls : List OsCall) :
  connectTls a fd hostname (io.map held) calls = (connectTls a fd hostname io calls).map held
  := by
  rw [connectTls, connectTls]
  split
  · rfl
  · split <;> rfl

omit [RbufSys ρ] in
/-- Connecting leaves the rings. -/
theorem connect_map (held : ρ → ρ') (platform : Platform) (a : ConnectAnswers) (addr : UInt32)
    (port : UInt16) (useTls : Bool) (hostname : Option String) (io : Io ρ) :
  connect platform a addr port useTls hostname (io.map held)
    = (connect platform a addr port useTls hostname io).map held
  := by
  rw [connect, connect]
  change (if io.state ≠ .disconnected then _ else _) = _
  split
  · rfl
  · dsimp only
    split
    · rfl
    · split
      · rfl
      · split
        · apply connectTls_map held a _ hostname { io with sockFd := _ }
        · rfl

variable (hdoc : Documented held) (a : PumpAnswers) (io : Io ρ)

omit [RbufSys ρ] in
theorem pumpConnecting_map (held : ρ → ρ') :
  pumpConnecting a (io.map held) = (pumpConnecting a io).map held
  := by
  rw [pumpConnecting, pumpConnecting]
  split
  · rfl
  split
  · rfl
  split
  · change (if io.ssl.isSome then _ else _) = _
    split <;> rfl
  · rfl

omit [RbufSys ρ] in
theorem pumpTls_map (held : ρ → ρ') :
  pumpTls a (io.map held) = (pumpTls a io).map held
  := by
  rw [pumpTls, pumpTls]
  change (if io.sslHsDone then _ else _) = _
  split
  · rfl
  · dsimp only
    split
    · split <;> rfl
    · rfl

include hdoc

theorem pumpReadyTls_map (ssl : Nat) :
  pumpReadyTls a ssl (io.map held) = (pumpReadyTls a ssl io).map held
  := by
  obtain ⟨hrx, hread⟩ := hdoc.receive io.rbufRx a.received
  obtain ⟨htx, hwrite⟩ := hdoc.send io.rbufTx a.sent
  rw [pumpReadyTls, pumpReadyTls]
  dsimp only
  split
  · simp only [Outcome.map, Io.map, Rbuf.sys_receive, hrx]
  · simp only [Outcome.map, Io.map, Rbuf.sys_receive, Rbuf.sys_send, hrx, hread, htx, hwrite]
    congr

theorem pumpReadyPlain_map :
  pumpReadyPlain a (io.map held) = (pumpReadyPlain a io).map held
  := by
  obtain ⟨hrx, -⟩ := hdoc.receive io.rbufRx a.received
  obtain ⟨htx, -⟩ := hdoc.send io.rbufTx a.sent
  have hused := hdoc.usedSz (RbufSys.receive io.rbufRx a.received).1
  have hfree := hdoc.freeSz (RbufSys.send io.rbufTx a.sent).1
  rw [hrx] at hused
  rw [htx] at hfree
  rw [pumpReadyPlain, pumpReadyPlain]
  dsimp only
  split
  · split <;> simp only [Outcome.map, Io.map, Rbuf.sys_receive, hrx]
  · split
    · simp only [Outcome.map, Io.map, Rbuf.sys_receive, Rbuf.sys_send, hrx, htx]
    · simp only [Outcome.map, Io.map, Rbuf.sys_receive, Rbuf.sys_send, Rbuf.sys_usedSz,
        Rbuf.sys_freeSz, hrx, htx, hused, hfree]
      congr

/-- A pump does to documented rings what it does to the queues that they hold. -/
theorem pump_map :
  pump a (io.map held) = (pump a io).map held
  := by
  have hstate : (io.map held).state = io.state := rfl
  have hssl : (io.map held).ssl = io.ssl := rfl
  rw [pump, pump, hstate]
  cases io.state with
  | connecting => apply pumpConnecting_map
  | tlsHandshake => apply pumpTls_map
  | ready =>
    dsimp only
    rw [pumpReady, pumpReady, hssl]
    cases io.ssl with
    | some ssl => apply pumpReadyTls_map hdoc
    | none => apply pumpReadyPlain_map hdoc
  | disconnected | error => rfl

omit hdoc [RbufSys ρ] in
theorem close_map (held : ρ → ρ') :
  close (io.map held) = (close io).map held
  := rfl

/-- Bytes that are copied are the first ones that the ring holds. -/
theorem rxPop_map (len : Nat) :
  (io.map held).rxPop len = ((io.rxPop len).1, (io.rxPop len).2.map held)
  := by
  have hused : RbufSys.usedSz (io.map held).rbufRx = RbufSys.usedSz io.rbufRx :=
    (hdoc.usedSz io.rbufRx).symm
  rw [Io.rxPop, Io.rxPop, hused]
  dsimp only
  split
  · have hle : min (RbufSys.usedSz io.rbufRx) len ≤ (held io.rbufRx).usedSz := by
      rw [← hdoc.usedSz]
      apply Nat.min_le_left
    obtain ⟨hbytes, hrx⟩ := hdoc.popCopy io.rbufRx _ hle
    simp only [Io.map, hbytes, hrx, Rbuf.sys_popCopy]
  · rfl

omit hdoc [RbufSys ρ] in
/-- The bytes that are copied out of a queue leave it. -/
theorem rxPop_queue (len : Nat) (io : Io) :
  io.rxPop len = (io.rbufRx.bytes.take len, { io with rbufRx := io.rbufRx.pop len })
  := by
  have hmin : min (RbufSys.usedSz io.rbufRx) len = min len io.rbufRx.bytes.length :=
    Nat.min_comm ..
  rw [Io.rxPop, Rbuf.pop, List.take_eq_take_min, List.drop_eq_drop_min, hmin]
  dsimp only
  split
  · rfl
  · next hnot =>
    rw [Nat.eq_zero_of_not_pos hnot]
    rfl

/-- A use of the handle. -/
theorem exec_map {use : Use} (hfits : use.Fits io) :
  use.exec (io.map held) = ((use.exec io).1.map held, (use.exec io).2)
  := by
  cases use with
  | new rxBufsz txBufsz =>
    simp only [Use.exec, new, Io.map, hdoc.init]
    rfl
  | connect platform a addr port useTls hostname =>
    simp only [Use.exec, connect_map held, Outcome.map]
  | pump a => simp only [Use.exec, pump_map hdoc, Outcome.map]
  | close => simp only [Use.exec, close_map io held, Outcome.map]
  | txPush data =>
    have hroom : data.length ≤ (held io.rbufTx).freeSz := by
      rw [← hdoc.freeSz]
      apply hfits
    simp only [Use.exec, Io.txPush, Io.map, hdoc.push _ _ hroom]
    rfl
  | rxPop len => simp only [Use.exec, rxPop_map hdoc]

/-- With documented rings a `Connection` sees in every run what it sees with the queues that they
hold, and these stay what the rings hold. -/
theorem uses_map {uses : List Use} {seen : List Seen}
    (hfits : Runs.Along Use.step (fun p use => use.Fits p.1) uses (io, seen)) :
  Runs.run Use.step uses (io.map held, seen)
    = ((Runs.run Use.step uses (io, seen)).1.map held, (Runs.run Use.step uses (io, seen)).2)
  := by
  apply hfits.run_map (f := fun p => (p.1.map held, p.2))
  rintro ⟨io, seen⟩ use hfits
  simp only [Use.step, exec_map hdoc io hfits]

end Map

end FdRpcIo

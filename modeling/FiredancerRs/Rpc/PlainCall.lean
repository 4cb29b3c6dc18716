import FiredancerRs.Http.MessageBody
import FiredancerRs.Rpc.History

/-!
# Calls on a plain connection

What a call of a client of the plain URL does with its first pump: with the whole answer, on a
connection whose rings are empty, it returns at once, and with nothing it fails when it does not
wait, whatever part of its request has been sent.
-/

open FdEd25519

namespace FdRpc

open Http

namespace SolanaRpcClient

variable {δ : Type} {phr : Phr δ} {b : Build} {c : SolanaRpcClient} {turns rest : List Pass}
variable {method params : Bytes}

/-- A plain connection whose rings are empty. -/
structure Idle (conn : Connection) : Prop where
  state : conn.io.state = .ready
  ssl : conn.io.ssl = none
  rx : conn.io.rbufRx = .init defaultBufSz
  tx : conn.io.rbufTx = .init defaultBufSz

theorem idle_plainClient :
  Idle plainClient.conn
  where
  state := rfl
  ssl := rfl
  rx := rfl
  tx := rfl

/-- A turn in which the request is sent and some bytes are received. -/
def sendingTurn (bytes : Bytes) : Pass where
  pump := { received := bytes, sent := requestBufSz }
  now := 0

/-- A turn in which some bytes of the request are sent, and none received. -/
def partTurn (n : Nat) : Pass where
  pump := { sent := n }
  now := 0

/-- One request on such a connection. -/
theorem Idle.pump {conn : Connection} {request bytes : Bytes} (h : Idle conn)
    (hrequest : request.length ≤ requestBufSz) (hfit : bytes.length ≤ defaultBufSz) :
  ∃ r conn', (conn.txPush request).pump (sendingTurn bytes).pump = (r, conn') ∧ r.failed = false
    ∧ Connection.port.rx conn' = bytes ∧ Idle (Connection.port.setRx [] conn')
    ∧ conn'.events = conn.events ++ [.pushed request, .pumped r bytes]
  := by
  obtain ⟨⟨sockFd, state, err, sslCtx, ssl, sslHsDone, rbufRx, rbufTx⟩, events⟩ := conn
  obtain ⟨rfl, rfl, rfl, rfl⟩ := h
  have htake : bytes.take defaultBufSz = bytes := List.take_of_length_le hfit
  have hdrop : request.drop requestBufSz = [] := List.drop_of_length_le hrequest
  generalize hconn : (Connection.txPush request
    { io := ⟨sockFd, .ready, err, sslCtx, none, sslHsDone, .init defaultBufSz, .init defaultBufSz⟩,
      events := events }) = conn
  have hpump : (conn.pump (sendingTurn bytes).pump).2 =
      { io := ⟨sockFd, .ready, err, sslCtx, none, sslHsDone, { bytes := bytes, bufsz := defaultBufSz },
          .init defaultBufSz⟩,
        events := events ++ [.pushed request, .pumped (conn.pump (sendingTurn bytes).pump).1 bytes] } := by
    rw [← hconn]
    simp [Connection.pump, FdRpcIo.pump, FdRpcIo.pumpReady, FdRpcIo.pumpReadyPlain, sendingTurn,
      Connection.txPush, FdRpcIo.Rbuf.receive, FdRpcIo.Rbuf.push, FdRpcIo.Rbuf.pop,
      FdRpcIo.Rbuf.freeSz, FdRpcIo.Rbuf.usedSz, FdRpcIo.Rbuf.init, htake, hdrop]
  have hready : conn.io.state = .ready := by rw [← hconn]; rfl
  have hfailed : (conn.pump (sendingTurn bytes).pump).1.failed = false := by
    rw [Bool.eq_false_iff]
    intro hfailed
    have hstate := (Connection.failed_pump (by simp [hready])).mp hfailed
    rw [hpump] at hstate
    cases hstate
  use (conn.pump (sendingTurn bytes).pump).1, (conn.pump (sendingTurn bytes).pump).2, rfl, hfailed
  rw [hpump]
  exact ⟨rfl, { state := rfl, ssl := rfl, rx := rfl, tx := rfl }, rfl⟩

variable {start : UInt64} {m : Message phr}

/-- A request to the plain URL is pushed, and waits for its answer. -/
theorem exchange_plain {req : Bytes} (hurl : c.url = plainUrl) (hidle : Idle c.conn)
    (hreq : req.length ≤ batchRequestBufSz) :
  exchange phr b req start c [] = .waiting { c with conn := c.conn.txPush (plainRequest req) }
  := by
  have hbody : req.length < 10 ^ 20 := by
    rw [batchRequestBufSz] at hreq
    omega
  have hfree : 512 + req.length ≤ c.conn.io.rbufTx.freeSz := by
    rw [hidle.tx]
    change 512 + req.length ≤ 65536
    rw [batchRequestBufSz] at hreq
    omega
  simp only [exchange, hurl, writeRequest_plain hbody hfree]
  rfl

theorem Idle.free {conn : Connection} (h : Idle conn) :
  1024 ≤ conn.io.rbufTx.freeSz
  := by
  rw [h.tx]
  decide

/-- A request to the plain URL is written, and its response is read. -/
theorem sendAndRecv_plain (hurl : c.url = plainUrl) (hfree : 1024 ≤ c.conn.io.rbufTx.freeSz)
    (hlen : (requestText c.nextId method params).length ≤ 512) :
  (plainRequest (requestText c.nextId method params)).length ≤ requestBufSz
    ∧ ∀ {result client},
      readResponse phr Connection.port
        { overflowChecks := b.overflowChecks, timeoutNs := c.timeoutNs, start := start }
        { scratch := c.scratch
          port := c.conn.txPush (plainRequest (requestText c.nextId method params)) } turns
        = .done (result, client) rest →
      sendAndRecv phr b method params start c turns =
        let c' := { c with
          nextId := c.nextId + 1, scratch := client.scratch, conn := client.port }
        match result with
        | .error stop => .done (.error (.ofStop stop), c') rest
        | .ok (status, offset, len) =>
          if status ≠ 200 then
            .done (.error (.failed (.http (.badStatus status))), c') rest
          else
            .done (.ok (offset, len), c') rest
  := by
  have hbody : (requestText c.nextId method params).length < 10 ^ 20 := by omega
  have hsize := length_plainRequest hbody
  have hroom : 512 + (requestText c.nextId method params).length ≤ c.conn.io.rbufTx.freeSz := by
    omega
  constructor
  · rw [requestBufSz]
    omega
  · intro result client hread
    rw [sendAndRecv_eq (by rw [requestBufSz]; omega), exchange]
    simp only [hurl, writeRequest_plain hbody hroom, hread]
    rfl

/-- The client after a request that has been pumped once, and has got nothing. -/
def unanswered (c : SolanaRpcClient) (request : Bytes) (t : Pass) : SolanaRpcClient :=
  { c with
    nextId := c.nextId + 1
    conn := Connection.port.setRx [] ((c.conn.txPush request).pump t.pump).2 }

/-- A call that does not wait, when the first pump brings nothing. -/
theorem sendAndRecv_unanswered {t : Pass} (hurl : c.url = plainUrl)
    (hfree : 1024 ≤ c.conn.io.rbufTx.freeSz)
    (hlen : (requestText c.nextId method params).length ≤ 512) (htime : c.timeoutNs = 0)
    (hnow : t.now = 0)
    (hfailed : ((c.conn.txPush (plainRequest (requestText c.nextId method params))).pump
      t.pump).1.failed = false)
    (hrx : Connection.port.rx ((c.conn.txPush (plainRequest
      (requestText c.nextId method params))).pump t.pump).2 = []) :
  sendAndRecv phr b method params 0 c (t :: turns)
    = .done (.error (.failed (.http .responseIncomplete)),
      unanswered c (plainRequest (requestText c.nextId method params)) t) turns
  := by
  obtain ⟨-, hsend⟩ :=
    @sendAndRecv_plain _ phr b c (t :: turns) turns method params 0 hurl hfree hlen
  have htimed : timedOut { overflowChecks := b.overflowChecks, timeoutNs := c.timeoutNs, start := 0 }
      t.now = .ok true := by
    rw [htime, hnow]
    cases b.overflowChecks <;> rfl
  apply hsend (readResponse_late rfl hfailed hrx htimed)

/-- A call whose answer does not come in time, when it has none. -/
theorem sendAndRecv_late (hurl : c.url = plainUrl) (hidle : Idle c.conn)
    (hlen : (requestText c.nextId method params).length ≤ 512) (htime : c.timeoutNs = 0) :
  ∃ r conn', Idle conn'
    ∧ conn'.events = c.conn.events
      ++ [.pushed (plainRequest (requestText c.nextId method params)), .pumped r []]
    ∧ sendAndRecv phr b method params 0 c [sendingTurn []]
      = .done (.error (.failed (.http .responseIncomplete)),
        { c with nextId := c.nextId + 1, conn := conn' }) []
  := by
  obtain ⟨hsize, -⟩ :=
    @sendAndRecv_plain _ phr b c [] [] method params 0 hurl hidle.free hlen
  obtain ⟨r, conn', hpump, hfailed, hrx, hidle', hevents⟩ :=
    @Idle.pump c.conn _ [] hidle hsize (Nat.zero_le _)
  use r, Connection.port.setRx [] conn', hidle', hevents
  have hlate := @sendAndRecv_unanswered _ phr b c [] method params (sendingTurn []) hurl hidle.free
    hlen htime rfl (by rw [hpump]; exact hfailed) (by rw [hpump]; exact hrx)
  rw [hlate, unanswered, hpump]

/-- A call whose answer comes at once. -/
theorem sendAndRecv_answered (hurl : c.url = plainUrl) (hidle : Idle c.conn)
    (hlen : (requestText c.nextId method params).length ≤ 512)
    (hroom : m.block.headers.length ≤ maxHeaders)
    (hcl : m.block.info.contentLength = some m.raw.length) (hstatus : m.block.info.status = 200)
    (hfit : m.bytes.length ≤ defaultBufSz) (hscratch : c.scratch.length = newScratch.length) :
  ∃ r conn', Idle conn'
    ∧ conn'.events = c.conn.events
      ++ [.pushed (plainRequest (requestText c.nextId method params)), .pumped r m.bytes]
    ∧ sendAndRecv phr b method params 0 c [sendingTurn m.bytes]
      = .done (.ok (m.block.info.headerLen, m.raw.length),
        { c with
          nextId := c.nextId + 1
          scratch := Buffer.overwrite c.scratch 0 m.bytes
          conn := conn' }) []
  := by
  obtain ⟨hsize, hsend⟩ :=
    @sendAndRecv_plain _ phr b c [sendingTurn m.bytes] [] method params 0 hurl hidle.free hlen
  obtain ⟨r, conn', hpump, hfailed, hrx, hidle', hevents⟩ := hidle.pump hsize hfit
  use r, Connection.port.setRx [] conn', hidle', hevents
  rw [hsend (readResponse_whole hpump hfailed hrx hroom hcl
    (by rw [hscratch, length_newScratch]; exact hfit) (hscratch.trans_le length_newScratch_le)),
    hstatus]
  rfl

end SolanaRpcClient

end FdRpc

import FiredancerRs.Http.MessageBody
import FiredancerRs.Rpc.Connection

/-!
# The server of a connection

A server answers the requests on a connection in order, each with one message, and what it sends
arrives in any pieces (`Serves`). A connection is settled when the answers to all of its requests
have been received and taken from the RX ring.
-/

open FdEd25519

namespace FdRpc

open Http

/-! ### What has happened -/

/-- The request that is pushed. -/
def Event.request : Event → Option Bytes
  | .pushed request => some request
  | .pumped _ _ => none

/-- The bytes that are received. -/
def Event.received : Event → Bytes
  | .pushed _ => []
  | .pumped _ bytes => bytes

/-- The requests that were pushed. -/
def requestsIn (events : List Event) : List Bytes := events.filterMap Event.request

/-- The bytes that were received. -/
def receivedIn (events : List Event) : Bytes := events.flatMap Event.received

variable {events later : List Event} {r : PumpResult} {request bytes : Bytes}

@[simp]
theorem requestsIn_nil :
  requestsIn [] = []
  := rfl

@[simp]
theorem receivedIn_nil :
  receivedIn [] = []
  := rfl

@[simp]
theorem requestsIn_append :
  requestsIn (events ++ later) = requestsIn events ++ requestsIn later
  := List.filterMap_append

@[simp]
theorem receivedIn_append :
  receivedIn (events ++ later) = receivedIn events ++ receivedIn later
  := List.flatMap_append

@[simp]
theorem requestsIn_pushed :
  requestsIn (.pushed request :: later) = request :: requestsIn later
  := rfl

@[simp]
theorem requestsIn_pumped :
  requestsIn (.pumped r bytes :: later) = requestsIn later
  := rfl

@[simp]
theorem receivedIn_pushed :
  receivedIn (.pushed request :: later) = receivedIn later
  := rfl

@[simp]
theorem receivedIn_pumped :
  receivedIn (.pumped r bytes :: later) = bytes ++ receivedIn later
  := rfl

/-! ### What the server sends -/

variable {δ : Type} {phr : Phr δ}

/-- The answers of a server on one connection, to each request with its place among them. -/
abbrev Answers (phr : Phr δ) := Nat → Bytes → Message phr

/-- The bytes of the answers to some requests. -/
def answersTo (answers : Answers phr) (requests : List Bytes) : Bytes :=
  (requests.mapIdx fun i request => (answers i request).bytes).flatten

/-- What has been received at any time is a first part of the answers to the requests until then. -/
def Serves (answers : Answers phr) (events : List Event) : Prop :=
  ∀ past, past <+: events → receivedIn past <+: answersTo answers (requestsIn past)

variable {answers : Answers phr}

theorem answersTo_append {requests : List Bytes} :
  answersTo answers (requests ++ [request])
    = answersTo answers requests ++ (answers requests.length request).bytes
  := by
  rw [answersTo, List.mapIdx_append, List.flatten_append]
  simp [answersTo]

theorem Serves.of_isPrefix (h : Serves answers later) (hevents : events <+: later) :
  Serves answers events
  := fun past hpast => h past (hpast.trans hevents)

/-- Nothing has been received before there was a request. -/
theorem Serves.nil :
  Serves answers []
  := by
  intro past hpast
  rw [List.prefix_nil.mp hpast]
  apply List.nil_prefix

/-- What is pushed need not be answered yet. -/
theorem Serves.push (h : Serves answers events) :
  Serves answers (events ++ [.pushed request])
  := by
  intro past hpast
  rcases List.prefix_concat_iff.mp hpast with rfl | hpast
  · rw [receivedIn_append, receivedIn_pushed, receivedIn_nil, List.append_nil, requestsIn_append,
      requestsIn_pushed, requestsIn_nil, answersTo_append]
    apply (h events List.prefix_rfl).trans (List.prefix_append _ _)
  · apply h past hpast

/-- What is received goes on with the answers. -/
theorem Serves.pump (h : Serves answers events)
    (hbytes : receivedIn events ++ bytes <+: answersTo answers (requestsIn events)) :
  Serves answers (events ++ [.pumped r bytes])
  := by
  intro past hpast
  rcases List.prefix_concat_iff.mp hpast with rfl | hpast
  · rwa [receivedIn_append, receivedIn_pumped, receivedIn_nil, List.append_nil, requestsIn_append,
      requestsIn_pumped, requestsIn_nil, List.append_nil]
  · apply h past hpast

namespace Connection

/-- The answers to all requests have been received and taken from the RX ring. -/
structure Settled (answers : Answers phr) (conn : Connection) : Prop where
  received_eq : receivedIn conn.events = answersTo answers (requestsIn conn.events)
  rx : conn.io.rbufRx.bytes = []

/-- The bytes that a connection has received. -/
def received (conn : Connection) : Bytes := receivedIn conn.events

variable {conn : Connection} {a : FdRpcIo.PumpAnswers}

/-- A pump appends to the RX ring. -/
theorem pump_rx (io : FdRpcIo.Io) :
  io.rbufRx.bytes <+: (FdRpcIo.pump a io).io.rbufRx.bytes
  := by
  have hend := FdRpcIo.pump_end a io
  generalize FdRpcIo.pump a io = outcome at hend
  cases hend with
  | idle | connectFailed | connected | handshakeWaits | handshakeFailed | handshakeDone =>
    apply List.prefix_rfl
  | tlsFailed | tlsMoved | plainClosed | plainRxFailed | plainTxFailed | plainMoved =>
    apply List.prefix_append _ _

theorem events_pump :
  ∃ bytes, (conn.pump a).2.events = conn.events ++ [.pumped (conn.pump a).1 bytes]
    ∧ (conn.pump a).2.io.rbufRx.bytes = conn.io.rbufRx.bytes ++ bytes
  := ⟨_, rfl, (List.prefix_iff_eq_append.mp (pump_rx conn.io)).symm⟩

/-- The port of a connection appends to its ring what it receives. -/
theorem receives_port :
  port.Receives received
  where
  pump a conn := by
    obtain ⟨bytes, hevents, hrx⟩ := @events_pump conn a
    use bytes, hrx
    change receivedIn (conn.pump a).2.events = _
    rw [hevents, receivedIn_append, receivedIn_pumped]
    apply congrArg _ (List.append_nil _)
  rx_setRx _ _ := rfl
  received_setRx _ _ := rfl

/-! ### Pumps without requests -/

/-- Since then the connection was only pumped. -/
def PumpedSince (start conn : Connection) : Prop :=
  ∃ pumps, conn.events = start.events ++ pumps ∧ requestsIn pumps = []

theorem PumpedSince.refl :
  PumpedSince conn conn
  := ⟨[], (List.append_nil _).symm, rfl⟩

theorem PumpedSince.pump {start : Connection} (h : PumpedSince start conn) :
  PumpedSince start (conn.pump a).2
  := by
  obtain ⟨pumps, hevents, hrequests⟩ := h
  obtain ⟨bytes, hpump, -⟩ := @events_pump conn a
  use pumps ++ [.pumped (conn.pump a).1 bytes]
  constructor
  · rw [hpump, hevents, List.append_assoc]
  · rw [requestsIn_append, hrequests, requestsIn_pumped]
    rfl

theorem keeps_pumpedSince {start : Connection} :
  port.Keeps (PumpedSince start) (PumpedSince start)
  where
  setRx _ _ h := h
  pump _ _ h _ := h.pump
  pump_failed _ _ h _ := h.pump

/-- No request was pushed, and all that was received lies in the RX ring. -/
structure Unasked (conn : Connection) : Prop where
  requests : requestsIn conn.events = []
  rx : conn.io.rbufRx.bytes = conn.received

theorem Fresh.unasked (h : conn.Fresh) :
  conn.Unasked
  where
  requests := by
    rw [h.events]
    rfl
  rx := by
    rw [received, h.events, h.rx]
    rfl

theorem Unasked.pump (h : conn.Unasked) :
  (conn.pump a).2.Unasked
  := by
  obtain ⟨bytes, hevents, hrx⟩ := @events_pump conn a
  constructor
  · rw [hevents, requestsIn_append, h.requests]
    rfl
  · rw [hrx, h.rx, received, received, hevents, receivedIn_append, receivedIn_pumped]
    apply congrArg _ (List.append_nil _).symm

/-- Without requests there is nothing to receive. -/
theorem Unasked.settled (h : conn.Unasked) (hserves : Serves answers conn.events) :
  conn.Settled answers
  := by
  have hreceived := hserves conn.events List.prefix_rfl
  rw [h.requests] at hreceived
  have hnil : receivedIn conn.events = [] := List.prefix_nil.mp hreceived
  constructor
  · rw [hnil, h.requests]
    rfl
  · rw [h.rx, received, hnil]

/-! ### One answer -/

theorem PumpedSince.requests {start : Connection} (h : PumpedSince start conn) :
  requestsIn conn.events = requestsIn start.events
  := by
  obtain ⟨pumps, hevents, hrequests⟩ := h
  rw [hevents, requestsIn_append, hrequests, List.append_nil]

theorem PumpedSince.isPrefix {start : Connection} (h : PumpedSince start conn) :
  start.events <+: conn.events
  := by
  obtain ⟨pumps, hevents, -⟩ := h
  exact ⟨pumps, hevents.symm⟩

theorem requestsIn_txPush :
  requestsIn (conn.txPush request).events = requestsIn conn.events ++ [request]
  := by
  rw [txPush, requestsIn_append]
  rfl

theorem received_txPush :
  (conn.txPush request).received = conn.received
  := by
  rw [received, txPush, receivedIn_append]
  apply List.append_nil _

/-- What is taken while one request is answered on a connection that was settled is a part of the
answer. With the whole answer the connection is settled again. -/
theorem Settled.answered {conn' : Connection} {taken : Bytes} (h : conn.Settled answers)
    (hpumped : PumpedSince (conn.txPush request) conn')
    (htaken : Taken port received (conn.txPush request) taken conn')
    (hserves : Serves answers conn'.events) :
  let m := answers (requestsIn conn.events).length request
  taken <+: m.bytes ∧ (taken = m.bytes → conn'.Settled answers)
  := by
  intro m
  have hanswers : answersTo answers (requestsIn conn'.events) = conn.received ++ m.bytes := by
    rw [hpumped.requests, requestsIn_txPush, answersTo_append, ← h.received_eq]
    rfl
  have hreceived : conn'.received <+: (conn.txPush request).received ++ m.bytes := by
    rw [received_txPush, ← hanswers]
    apply hserves conn'.events List.prefix_rfl
  have hrx : port.rx (conn.txPush request) = [] := h.rx
  constructor
  · have hpart := (htaken.isPrefix hrx).trans hreceived
    rwa [List.prefix_append_right_inj] at hpart
  · rintro rfl
    obtain ⟨hall, hempty⟩ := htaken.all hrx hreceived
    constructor
    · rw [hanswers, ← @received_txPush request conn, ← hall]
      rfl
    · apply hempty

end Connection

end FdRpc

import Mathlib.Data.List.Infix
import Mathlib.Tactic.Common

/-!
# Accepting QUIC connections

`QuicServer::accept`. The library calls `conn_new_cb`, which pushes a new connection on a list, and
`_send_via_aio_be`, which transmits, any number of times while a datagram is processed. An `accept`
takes the list away and returns its first connection, so the others are lost. It holds the lock of
the socket all the while, and `_send_via_aio_be` asks for the same lock, so an `accept` that
transmits never returns. A run loses no connection just when no `accept` finds two, and none that is
stuck has found one (`delivers_iff`).
-/

namespace FdQuic

/-- The address of a connection. -/
abbrev Conn := Nat

/-- `Role` -/
inductive Role where
  | client
  | server
deriving DecidableEq, Repr

/-- `NetworkBackend` -/
inductive NetworkBackend where
  | xdp
  | udp
  | stub
deriving DecidableEq, Repr

/-- The errors of `QuicError` that a server returns. -/
inductive QuicError where
  | io
  | invalidState (message : String)
  | internal (message : String)
deriving DecidableEq, Repr

/-- `ActiveQuic`, with the list of new connections. It is there for a server, and then it is the
context of the callbacks too. -/
structure ActiveQuic where
  connectionTracker : Option (List Conn)
deriving DecidableEq, Repr

/-- `QuicServer` -/
structure QuicServer where
  networkContext : Option NetworkBackend
  activeQuic : Option ActiveQuic
deriving DecidableEq, Repr

namespace ActiveQuic

/-- `QuicHandle::init`, when the library succeeds. -/
def init (role : Role) : ActiveQuic where
  connectionTracker := if role = .server then some [] else none

/-- `conn_new_cb`. Nothing happens without a context. -/
def connNewCb (active : ActiveQuic) (conn : Conn) : ActiveQuic where
  connectionTracker := active.connectionTracker.map (· ++ [conn])

/-- `get_new_connections` -/
def getNewConnections (active : ActiveQuic) : List Conn × ActiveQuic :=
  match active.connectionTracker with
  | some connections => (connections, { active with connectionTracker := some [] })
  | none => ([], active)

end ActiveQuic

/-- A packet: whether it has bytes, and whether `socket.send` sends them. -/
structure Packet where
  hasBytes : Bool
  sent : Bool
deriving DecidableEq, Repr

/-- `_send_via_aio_be`, on a batch that is null or not, with the count that it returns. It does not
return when it asks for the lock of the socket and its own thread holds it. -/
def sendViaAioBe (backend : NetworkBackend) (held poisoned : Bool) :
    Option (List Packet) → Option Int32
  | none => some 0
  | some batch =>
    match backend with
    | .xdp => some (.ofNat batch.length)
    | .udp =>
      if held then none
      else if poisoned then some 0
      else some (.ofNat (batch.countP fun pkt => pkt.hasBytes && pkt.sent))
    | .stub => some (.ofNat batch.length)

/-- A callback that the library makes. -/
inductive Callback where
  | connNew (conn : Conn)
  | transmit (batch : Option (List Packet))
deriving DecidableEq, Repr

/-- What `recv_from` returns. -/
inductive Recv where
  | datagram
  | wouldBlock
  | failed
deriving DecidableEq, Repr

/-- What an `accept` meets: whether the lock of the socket is poisoned, what `recv_from` returns,
and the callbacks that the library makes in `process_packet` and in `service`. -/
structure AcceptAnswers where
  poisoned : Bool := false
  recv : Recv
  processed : List Callback := []
  serviced : List Callback := []

/-- `process_packet` and `service`, by the callbacks that the library makes, and whether they
return. They do not when a callback does not. -/
def ActiveQuic.callbacks (backend : NetworkBackend) (held poisoned : Bool) :
    List Callback → ActiveQuic → ActiveQuic × Bool
  | [], active => (active, true)
  | .connNew conn :: calls, active =>
    callbacks backend held poisoned calls (active.connNewCb conn)
  | .transmit batch :: calls, active =>
    if (sendViaAioBe backend held poisoned batch).isSome then
      callbacks backend held poisoned calls active
    else
      (active, false)

/-- What `accept` does with a datagram, with the new connections if it comes to them. It holds the
lock of the socket meanwhile. -/
def ActiveQuic.receive (processed serviced : List Callback) (active : ActiveQuic) :
    Option (List Conn) × ActiveQuic :=
  let (active, returns) := active.callbacks .udp true false processed
  if !returns then
    (none, active)
  else
    let (active, returns) := active.callbacks .udp true false serviced
    if !returns then
      (none, active)
    else
      let (newConnections, active) := active.getNewConnections
      (some newConnections, active)

namespace QuicServer

/-- `accept`, with the connection that it returns, if it returns. -/
def accept (a : AcceptAnswers) (server : QuicServer) :
    Option (Except QuicError (Option Conn)) × QuicServer :=
  match server.networkContext with
  | none => (some (.error (.invalidState "Server not bound")), server)
  | some backend =>
    match server.activeQuic with
    | none => (some (.error (.invalidState "Server not initialized")), server)
    | some active =>
      match backend with
      | .udp =>
        if a.poisoned then
          (some (.error (.internal "Failed to lock socket")), server)
        else
          match a.recv with
          | .datagram =>
            let (newConnections, active) := active.receive a.processed a.serviced
            (newConnections.map fun conns => .ok conns.head?,
              { server with activeQuic := some active })
          | .wouldBlock => (some (.ok none), server)
          | .failed => (some (.error .io), server)
      | .xdp =>
        let (active, returns) := active.callbacks .xdp false false a.serviced
        (if returns then some (.ok none) else none, { server with activeQuic := some active })
      | .stub => (some (.ok none), server)

/-- A server that is bound to a UDP socket. -/
def boundUdp : QuicServer where
  networkContext := some .udp
  activeQuic := some (.init .server)

end QuicServer

/-! ### Runs -/

/-- A callback that asks for the lock of the socket. -/
def Callback.blocks : Callback → Bool
  | .connNew _ => false
  | .transmit batch => (sendViaAioBe .udp true false batch).isNone

/-- The connections that are pushed by callbacks, up to one that does not return. -/
def pushedBy : List Callback → List Conn
  | [] => []
  | .connNew conn :: calls => conn :: pushedBy calls
  | .transmit batch :: calls => if (Callback.transmit batch).blocks then [] else pushedBy calls

namespace AcceptAnswers

/-- The callbacks of an `accept` of a server with a UDP socket. -/
def calls (a : AcceptAnswers) : List Callback :=
  if a.poisoned then
    []
  else
    match a.recv with
    | .datagram => a.processed ++ a.serviced
    | _ => []

/-- The connections that are pushed in an `accept`. -/
def pushed (a : AcceptAnswers) : List Conn := pushedBy a.calls

/-- A callback of an `accept` asks for the lock that it holds, and neither of them returns. -/
def stuck (a : AcceptAnswers) : Bool := a.calls.any Callback.blocks

end AcceptAnswers

/-- The calls of a run that are made: there are none after one that is stuck. -/
def made : List AcceptAnswers → List AcceptAnswers
  | [] => []
  | a :: run => a :: if a.stuck then [] else made run

/-- The connections that are pushed in a run. -/
def pushed (run : List AcceptAnswers) : List Conn := (made run).flatMap AcceptAnswers.pushed

/-- The connections that a run of `accept` returns, in their order. There are none after a call that
does not return. -/
def returned (server : QuicServer) : List AcceptAnswers → List Conn
  | [] => []
  | a :: run =>
    let (result, server) := server.accept a
    match result with
    | none => []
    | some (.ok conn) => conn.toList ++ returned server run
    | some (.error _) => returned server run

/-- After enough further calls, whatever they meet, each connection that was pushed in the run has
been returned once, in the order in which they came. -/
def Delivers (server : QuicServer) (run : List AcceptAnswers) : Prop :=
  ∃ n, ∀ more : List AcceptAnswers, n ≤ more.length →
    pushed run <+: returned server (run ++ more)

/-! ### What an `accept` returns -/

variable {a : AcceptAnswers} {run more : List AcceptAnswers} {active : ActiveQuic}

theorem callbacks_append (xs ys : List Callback) (active : ActiveQuic) :
  active.callbacks .udp true false (xs ++ ys)
    = if (active.callbacks .udp true false xs).2 then
        (active.callbacks .udp true false xs).1.callbacks .udp true false ys
      else active.callbacks .udp true false xs
  := by
  induction xs generalizing active with
  | nil => rfl
  | cons call xs ih =>
    cases call with
    | connNew conn => apply ih
    | transmit batch =>
      simp only [List.cons_append, ActiveQuic.callbacks]
      split
      · apply ih
      · rfl

/-- Under the lock of the socket the callbacks push connections up to the first that blocks. -/
theorem callbacks_udp (calls : List Callback) (active : ActiveQuic) :
  (active.callbacks .udp true false calls).1.connectionTracker
      = active.connectionTracker.map (· ++ pushedBy calls)
    ∧ (active.callbacks .udp true false calls).2 = !calls.any Callback.blocks
  := by
  induction calls generalizing active with
  | nil => simp [ActiveQuic.callbacks, pushedBy]
  | cons call calls ih =>
    cases call with
    | connNew conn =>
      obtain ⟨htracker, hreturns⟩ := ih (active.connNewCb conn)
      rw [ActiveQuic.callbacks, htracker, hreturns]
      simp [ActiveQuic.connNewCb, pushedBy, Callback.blocks, Function.comp_def]
    | transmit batch =>
      cases batch with
      | none =>
        simpa [ActiveQuic.callbacks, sendViaAioBe, pushedBy, Callback.blocks] using ih active
      | some batch => simp [ActiveQuic.callbacks, sendViaAioBe, pushedBy, Callback.blocks]

/-- A datagram brings the connections that the callbacks push, and none of them stays, unless a
callback blocks. -/
theorem receive_server (processed serviced : List Callback) :
  (ActiveQuic.init .server).receive processed serviced
    = if (processed ++ serviced).any Callback.blocks then
        (none, ((ActiveQuic.init .server).callbacks .udp true false (processed ++ serviced)).1)
      else (some (pushedBy (processed ++ serviced)), .init .server)
  := by
  obtain ⟨htracker, hreturns⟩ := callbacks_udp (processed ++ serviced) (.init .server)
  rw [ActiveQuic.receive, ← Bool.not_not (List.any _ _), ← hreturns]
  rw [callbacks_append] at htracker hreturns ⊢
  generalize (ActiveQuic.init .server).callbacks .udp true false processed = first at *
  obtain ⟨active, returns⟩ := first
  cases returns with
  | false => rfl
  | true =>
    simp only [if_true] at htracker ⊢
    generalize active.callbacks .udp true false serviced = second at *
    obtain ⟨active, returns⟩ := second
    cases returns with
    | false => rfl
    | true =>
      simp only at htracker
      simp [ActiveQuic.getNewConnections, htracker, ActiveQuic.init]

/-- An `accept` returns the first connection that is pushed in it, and keeps none, unless it is
stuck. -/
theorem accept_boundUdp (a : AcceptAnswers) :
  if a.stuck then
    (QuicServer.boundUdp.accept a).1 = none
  else
    ∃ result, QuicServer.boundUdp.accept a = (some result, QuicServer.boundUdp)
      ∧ a.pushed.head? = (match result with | .ok conn => conn | .error _ => none)
  := by
  rw [QuicServer.accept, QuicServer.boundUdp, AcceptAnswers.stuck, AcceptAnswers.pushed,
    AcceptAnswers.calls]
  simp only
  cases a.poisoned with
  | true => exact ⟨_, rfl, rfl⟩
  | false =>
    cases a.recv with
    | wouldBlock => exact ⟨_, rfl, rfl⟩
    | failed => exact ⟨_, rfl, rfl⟩
    | datagram =>
      simp only [receive_server, Bool.false_eq_true, if_false]
      cases (a.processed ++ a.serviced).any Callback.blocks with
      | true => rfl
      | false => exact ⟨_, rfl, rfl⟩

theorem returned_of_stuck (h : a.stuck) :
  returned .boundUdp (a :: run) = []
  := by
  have haccept := accept_boundUdp a
  rw [if_pos h] at haccept
  simp only [returned, haccept]

theorem returned_cons (h : a.stuck = false) :
  returned .boundUdp (a :: run) = a.pushed.head?.toList ++ returned .boundUdp run
  := by
  have haccept := accept_boundUdp a
  rw [if_neg (by rw [h]; decide)] at haccept
  obtain ⟨result, haccept, hhead⟩ := haccept
  rw [returned, haccept, hhead]
  cases result <;> rfl

theorem made_of_stuck (h : a.stuck) :
  made (a :: run) = [a]
  := by rw [made, if_pos h]

theorem made_cons (h : a.stuck = false) :
  made (a :: run) = a :: made run
  := by rw [made, if_neg (by rw [h]; decide)]

/-- A run returns what its calls return and then what further calls return, which are made only when
none of the run is stuck. -/
theorem returned_append :
  returned .boundUdp (run ++ more)
    = returned .boundUdp run ++ if run.any AcceptAnswers.stuck then [] else returned .boundUdp more
  := by
  induction run with
  | nil => rfl
  | cons a run ih =>
    rw [List.cons_append, List.any_cons]
    cases h : a.stuck with
    | true => rw [returned_of_stuck h, returned_of_stuck h]; rfl
    | false => rw [returned_cons h, returned_cons h, ih, List.append_assoc, Bool.false_or]

/-- Calls that find no datagram return no connection. -/
theorem returned_wouldBlock (n : Nat) :
  returned .boundUdp (List.replicate n { recv := .wouldBlock }) = []
  := by
  induction n with
  | zero => rfl
  | succ n ih => rw [List.replicate_succ, returned_cons rfl, ih]; rfl

/-! ### Lost connections -/

theorem length_head?_le {α : Type} (l : List α) :
  l.head?.toList.length ≤ l.length
  := by cases l <;> simp

theorem length_returned_le :
  (returned .boundUdp run).length ≤ (pushed run).length
  := by
  induction run with
  | nil => exact le_rfl
  | cons a run ih =>
    cases h : a.stuck with
    | true =>
      rw [returned_of_stuck h]
      apply Nat.zero_le
    | false =>
      have hhead := length_head?_le a.pushed
      rw [returned_cons h, pushed, made_cons h, List.flatMap_cons, List.length_append,
        List.length_append]
      apply Nat.add_le_add hhead ih

/-- No connection of an `accept` is lost: it finds at most one, and none when it is stuck. -/
def AcceptAnswers.Keeps (a : AcceptAnswers) : Prop :=
  a.pushed.length ≤ 1 ∧ (a.stuck → a.pushed = [])

/-- When each `accept` loses no connection, those that are pushed are returned. -/
theorem returned_eq (h : ∀ a ∈ made run, a.Keeps) :
  returned .boundUdp run = pushed run
  := by
  induction run with
  | nil => rfl
  | cons a run ih =>
    cases hstuck : a.stuck with
    | true =>
      rw [made_of_stuck hstuck, List.forall_mem_singleton] at h
      rw [returned_of_stuck hstuck, pushed, made_of_stuck hstuck, List.flatMap_singleton,
        h.2 hstuck]
    | false =>
      rw [made_cons hstuck, List.forall_mem_cons] at h
      have hone : a.pushed.head?.toList = a.pushed := by
        match hpushed : a.pushed, h.1.1 with
        | [], _ => rfl
        | [conn], _ => rfl
        | _ :: _ :: _, hle => simp at hle
      rw [returned_cons hstuck, hone, ih h.2, pushed, pushed, made_cons hstuck, List.flatMap_cons]

/-- When as many are returned as are pushed, no `accept` has lost one. -/
theorem length_pushed_le (h : (pushed run).length ≤ (returned .boundUdp run).length) :
  ∀ a ∈ made run, a.Keeps
  := by
  induction run with
  | nil => simp [made]
  | cons a run ih =>
    cases hstuck : a.stuck with
    | true =>
      rw [returned_of_stuck hstuck, pushed, made_of_stuck hstuck, List.flatMap_singleton] at h
      have hnil : a.pushed = [] := List.length_eq_zero_iff.mp (Nat.le_zero.mp h)
      rw [made_of_stuck hstuck, List.forall_mem_singleton]
      exact ⟨by simp [hnil], fun _ => hnil⟩
    | false =>
      have hhead := length_head?_le a.pushed
      have hle := @length_returned_le run
      have hone : a.pushed.head?.toList.length ≤ 1 := by cases a.pushed <;> simp
      rw [returned_cons hstuck, pushed, made_cons hstuck, List.flatMap_cons, List.length_append,
        List.length_append] at h
      rw [pushed] at hle ih
      rw [made_cons hstuck, List.forall_mem_cons]
      constructor
      · refine ⟨by omega, ?_⟩
        simp [hstuck]
      · apply ih
        omega

/-- A run of `accept` loses no connection just when each call that is made finds at most one, and
none when it is stuck. -/
theorem delivers_iff (run : List AcceptAnswers) :
  Delivers .boundUdp run ↔ ∀ a ∈ made run, a.Keeps
  := by
  constructor
  · rintro ⟨n, hprefix⟩
    have hidle := hprefix (List.replicate n { recv := .wouldBlock }) (by simp)
    rw [returned_append, returned_wouldBlock, ite_self, List.append_nil] at hidle
    apply length_pushed_le hidle.length_le
  · intro h
    use 0
    intro more _
    rw [returned_append, returned_eq h]
    apply List.prefix_append _ _

/-- Of two connections in one datagram the second is lost, and the connection of a datagram that is
answered is never returned, because the answer asks for the lock that `accept` holds. -/
theorem not_delivers :
  returned .boundUdp [{ recv := .datagram, processed := [.connNew 16, .connNew 32] }] = [16]
    ∧ ¬Delivers .boundUdp [{ recv := .datagram, processed := [.connNew 16, .connNew 32] }]
    ∧ ¬Delivers .boundUdp
      [⟨false, .datagram, [.connNew 16], [.transmit (some [⟨true, true⟩])]⟩]
  := by
  use rfl
  constructor
  · rintro ⟨n, hprefix⟩
    have hidle := hprefix (List.replicate n { recv := .wouldBlock }) (by simp)
    rw [returned_append, returned_wouldBlock] at hidle
    exact absurd hidle.length_le (by decide)
  · rintro ⟨n, hprefix⟩
    have hidle := hprefix (List.replicate n { recv := .wouldBlock }) (by simp)
    rw [returned_append, returned_wouldBlock] at hidle
    exact absurd hidle.length_le (by decide)

end FdQuic

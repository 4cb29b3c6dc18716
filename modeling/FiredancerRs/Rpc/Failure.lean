import FiredancerRs.Rpc.History
import Mathlib.Logic.Relation

/-!
# Failures of the connection

A pump that finds the handle in the error state reports nothing, so a failure is reported once. In
a history whose operations all begin on a connection that has not failed, the failure is not lost
(`failure_observed`).
-/

open FdEd25519

namespace FdRpc

open Http

/-! ### The connection -/

/-- The results of the pumps so far. -/
def Event.report : Event → Option PumpResult
  | .pushed _ => none
  | .pumped r _ => some r

namespace Connection

/-- The results of the pumps so far. -/
def reports (conn : Connection) : List PumpResult := conn.events.filterMap Event.report

/-- After a pump that reported a failure every pump reports one. -/
def Sticky (conn : Connection) : Prop :=
  conn.reports.Pairwise fun r r' => r.failed = true → r'.failed = true

/-- The handle is not in the error state, and no pump has reported a failure. -/
structure Alive (conn : Connection) : Prop where
  state : conn.io.state ≠ .error
  reports : ∀ r ∈ conn.reports, r.failed = false

/-- The handle is in the error state, and the last pump was the first that reported a failure. -/
structure Dead (conn : Connection) : Prop where
  state : conn.io.state = .error
  reports : ∃ before r, conn.reports = before ++ [r] ∧ r.failed = true
    ∧ ∀ r ∈ before, r.failed = false

variable {conn : Connection} {a : FdRpcIo.PumpAnswers}

theorem reports_pump :
  (conn.pump a).2.reports = conn.reports ++ [(conn.pump a).1]
  := by
  simp [pump, reports, Event.report]

theorem pairwise_of_none {reports : List PumpResult} (h : ∀ r ∈ reports, r.failed = false) :
  reports.Pairwise fun r r' => r.failed = true → r'.failed = true
  := by
  apply List.pairwise_of_forall_mem_list
  intro r hr r' _ hfailed
  rw [h r hr] at hfailed
  cases hfailed

theorem Alive.sticky (h : conn.Alive) :
  conn.Sticky
  := pairwise_of_none h.reports

theorem Dead.sticky (h : conn.Dead) :
  conn.Sticky
  := by
  obtain ⟨before, r, hreports, hfailed, hbefore⟩ := h.reports
  rw [Sticky, hreports, List.pairwise_append]
  use pairwise_of_none hbefore, List.pairwise_singleton _ _
  intro r' _ r'' hr'' _
  rw [List.mem_singleton.mp hr'']
  exact hfailed

theorem Alive.pump (h : conn.Alive) (hok : (conn.pump a).1.failed = false) :
  (conn.pump a).2.Alive
  where
  state hstate := Bool.false_ne_true (hok.symm.trans ((failed_pump h.state).mpr hstate))
  reports := by
    intro r hr
    rw [reports_pump, List.mem_append, List.mem_singleton] at hr
    rcases hr with hr | rfl
    · exact h.reports r hr
    · exact hok

theorem Alive.pump_failed (h : conn.Alive) (hfailed : (conn.pump a).1.failed = true) :
  (conn.pump a).2.Dead
  where
  state := (failed_pump h.state).mp hfailed
  reports := ⟨conn.reports, _, reports_pump, hfailed, h.reports⟩

/-- A pump keeps a connection alive or leaves it dead. -/
theorem keeps_port :
  port.Keeps Alive Dead
  where
  setRx _ _ h := { state := h.state, reports := h.reports }
  pump _ _ h := h.pump
  pump_failed _ _ h := h.pump_failed

theorem Fresh.alive (h : conn.Fresh) :
  conn.Alive
  where
  state := h.state
  reports := by
    rw [reports, h.events]
    simp

theorem reports_txPush {request : Bytes} :
  (conn.txPush request).reports = conn.reports
  := by
  simp [txPush, reports, Event.report]

theorem Alive.txPush (h : conn.Alive) (request : Bytes) :
  (conn.txPush request).Alive
  where
  state := h.state
  reports := by
    rw [reports_txPush]
    exact h.reports

end Connection

/-! ### Operations of the client -/

namespace SolanaRpcClient

variable {δ : Type} {phr : Phr δ} {b : Build} {c c' : SolanaRpcClient} {turns : List Pass}
variable {α : Type}

/-- The error that says that the connection is closed. -/
def closed : Except Abort α := .error (.failed (.http .connectionClosed))

/-- What one exchange leaves: it ends with the connection closed when its connection is dead. -/
structure Once (c : SolanaRpcClient) (r : Except Abort α) (c' : SolanaRpcClient) : Prop where
  lost : c'.lost = c.lost
  conn : r ≠ closed ∧ c'.conn.Alive ∨ r = closed ∧ c'.conn.Dead

/-- The connections that were lost in between were dead. -/
def LostDead (c c' : SolanaRpcClient) : Prop :=
  ∃ dead, c'.lost = c.lost ++ dead ∧ ∀ conn ∈ dead, conn.Dead

/-- An operation waits on a connection that is alive. -/
structure Waiting (c c' : SolanaRpcClient) : Prop where
  lost : LostDead c c'
  conn : c'.conn.Alive

/-- The result says that the connection failed, or the operation has reconnected since and says why
this did not help. -/
def Tells (c : SolanaRpcClient) (r : Except Abort α) (c' : SolanaRpcClient) : Prop :=
  r = closed ∨ c.lost ≠ c'.lost
    ∧ (r = .error (.failed .connectionNotReady) ∨ ∃ e, r = .error (.failed (.io e)))

/-- What an operation leaves: its connection is alive, or the result tells that it is dead. -/
structure Left (c : SolanaRpcClient) (r : Except Abort α) (c' : SolanaRpcClient) : Prop where
  lost : LostDead c c'
  conn : c'.conn.Alive ∨ c'.conn.Dead ∧ Tells c r c'

theorem LostDead.of_eq (h : c'.lost = c.lost) :
  LostDead c c'
  := ⟨[], by rw [h, List.append_nil], by simp⟩

theorem LostDead.trans {c₁ c₂ : SolanaRpcClient} (h : LostDead c c₁) (h' : LostDead c₁ c₂) :
  LostDead c c₂
  := by
  obtain ⟨dead, hlost, hdead⟩ := h
  obtain ⟨dead', hlost', hdead'⟩ := h'
  use dead ++ dead'
  constructor
  · rw [hlost', hlost, List.append_assoc]
  · intro conn hconn
    exact (List.mem_append.mp hconn).elim (hdead conn) (hdead' conn)

/-- Nothing is lost in the whole when something is lost in its second part. -/
theorem LostDead.ne {c₁ c₂ : SolanaRpcClient} (h : LostDead c c₁) (h' : LostDead c₁ c₂)
    (hne : c₁.lost ≠ c₂.lost) :
  c.lost ≠ c₂.lost
  := by
  obtain ⟨dead, hlost, -⟩ := h
  obtain ⟨dead', hlost', -⟩ := h'
  intro heq
  apply hne
  rw [hlost', hlost, List.append_assoc, List.self_eq_append_right] at heq
  obtain ⟨-, rfl⟩ := List.append_eq_nil_iff.mp heq
  rw [hlost', List.append_nil]

/-- An operation that goes on from where another has left its connection alive. -/
theorem Left.after {c₁ : SolanaRpcClient} {r : Except Abort α} (h : Left c₁ r c')
    (hlost : LostDead c c₁) :
  Left c r c'
  where
  lost := hlost.trans h.lost
  conn := by
    rcases h.conn with halive | ⟨hdead, hclosed | ⟨hne, hwhy⟩⟩
    · exact .inl halive
    · exact .inr ⟨hdead, .inl hclosed⟩
    · exact .inr ⟨hdead, .inr ⟨hlost.ne h.lost hne, hwhy⟩⟩

/-- An error leaves the same, whatever there would be without it. -/
theorem Left.error {β : Type} {e : Abort} (h : Left c (.error e : Except Abort α) c') :
  Left c (.error e : Except Abort β) c'
  where
  lost := h.lost
  conn := by simpa [Tells, closed] using h.conn

/-- With a connection that is alive any result will do. -/
theorem Left.of_ok {β : Type} {v : α} {r : Except Abort β} (h : Left c (.ok v) c') :
  Left c r c'
  where
  lost := h.lost
  conn := by
    left
    apply h.conn.resolve_right
    simp [Tells, closed]

theorem Waiting.after {c₁ : SolanaRpcClient} (h : Waiting c₁ c') (hlost : LostDead c c₁) :
  Waiting c c'
  where
  lost := hlost.trans h.lost
  conn := h.conn

theorem Once.left {r : Except Abort α} (h : Once c r c') :
  Left c r c'
  where
  lost := .of_eq h.lost
  conn := h.conn.imp And.right fun ⟨hclosed, hdead⟩ => ⟨hdead, .inl hclosed⟩

theorem ofStop_eq_closed {stop : Stop} :
  (.error (.ofStop stop) : Except Abort α) = closed ↔ stop = .failed .connectionClosed
  := by
  cases stop with
  | failed e => simp [closed, Abort.ofStop]
  | panicked p => simp [closed, Abort.ofStop]

/-- One exchange on a connection that is alive. -/
theorem exchange_once {req : Bytes} {start : UInt64} (h : c.conn.Alive) :
  (exchange phr b req start c turns).Holds (Waiting c) fun r _ => Once c r.1 r.2
  := by
  rw [exchange]
  obtain ⟨stop, hstop, hwrite⟩ | ⟨request, hwrite⟩ := writeRequest_cases c.conn (asBytes "POST")
    (urlPath c.url) (urlHost c.url) (asBytes "application/json") req
  · have hne : stop ≠ .failed .connectionClosed := by rcases hstop with rfl | rfl <;> simp
    rw [hwrite]
    exact { lost := rfl, conn := .inl ⟨mt ofStop_eq_closed.mp hne, h⟩ }
  · rw [hwrite]
    apply (readResponse_keeps Connection.keeps_port (h.txPush request)).andThen
    · intro client hclient
      exact { lost := .of_eq rfl, conn := hclient }
    · rintro ⟨result, client⟩ rest hends
      cases result with
      | error stop =>
        constructor
        · rfl
        · rcases hends.cases with ⟨hne, halive⟩ | ⟨hclosed, hdead⟩
          · left
            exact ⟨fun heq => hne (congrArg Except.error (ofStop_eq_closed.mp heq)), halive⟩
          · right
            exact ⟨ofStop_eq_closed.mpr (Except.error.inj hclosed), hdead⟩
      | ok reply =>
        obtain ⟨status, offset, len⟩ := reply
        have halive : client.port.Alive := hends
        simp only
        split
        · exact { lost := rfl, conn := .inl ⟨by simp [closed], halive⟩ }
        · exact { lost := rfl, conn := .inl ⟨by simp [closed], halive⟩ }

theorem sendAndRecv_once {method params : Bytes} {start : UInt64} (h : c.conn.Alive) :
  (sendAndRecv phr b method params start c turns).Holds (Waiting c) fun r _ => Once c r.1 r.2
  := by
  rw [sendAndRecv]
  split
  · exact { lost := rfl, conn := .inl ⟨by simp [closed], h⟩ }
  · exact { lost := rfl, conn := .inl ⟨by simp [closed], h⟩ }
  · have honce := @exchange_once _ phr b { c with nextId := c.nextId + 1 } turns
    apply (honce h).mono
    · intro c' hc'
      exact { lost := hc'.lost, conn := hc'.conn }
    · intro r rest hr
      exact { lost := hr.lost, conn := hr.conn }

/-- One turn of the loop of `wait_ready`. -/
theorem readyTurn_keeps {timeoutNs : Int64} {start : UInt64} {t : Pass} {conn : Connection}
    (h : conn.Alive) :
  (readyTurn b timeoutNs start t conn).Holds Connection.Alive fun r =>
    r.2.Alive ∨ r.2.Dead ∧ r.1 = .error (.failed .connectionNotReady)
  := by
  rw [readyTurn]
  cases hfailed : (conn.pump t.pump).1.failed with
  | true =>
    have hdead := h.pump_failed hfailed
    have hready : (conn.pump t.pump).2.isReady = false := by simp [Connection.isReady, hdead.state]
    rw [PumpResult.failed, Bool.or_comm] at hfailed
    simp only [hready, hfailed, if_true]
    exact .inr ⟨hdead, rfl⟩
  | false =>
    have halive := h.pump hfailed
    rw [PumpResult.failed, Bool.or_comm] at hfailed
    simp only [hfailed, Bool.false_eq_true, if_false]
    split
    · exact .inl halive
    · split
      · exact .inl halive
      · split
        · exact .inl halive
        · apply halive

/-- `wait_ready` on a connection that is alive. -/
theorem waitReady_left {start : UInt64} (h : c.conn.Alive) :
  (waitReady b start c turns).Holds (Waiting c) fun r _ => r.2.lost = c.lost
    ∧ (r.2.conn.Alive ∨ r.2.conn.Dead ∧ r.1 = .error (.failed .connectionNotReady))
  := by
  have hloop : (Turns.run (readyTurn b c.timeoutNs start) turns c.conn).Holds Connection.Alive
      fun r _ => r.2.Alive ∨ r.2.Dead ∧ r.1 = .error (.failed .connectionNotReady) :=
    Turns.run_keeps (fun _ _ => readyTurn_keeps) h
  apply hloop.andThen
  · intro conn hconn
    exact { lost := .of_eq rfl, conn := hconn }
  · intro r rest hr
    exact ⟨rfl, hr⟩

/-- A reconnect for a connection that is dead. -/
theorem reconnect_left {a : FdRpcIo.ConnectAnswers} {start : UInt64} (h : c.conn.Dead) :
  (reconnect b a start c turns).Holds (Waiting c) fun r _ => Left c r.1 r.2
    ∧ c.lost ≠ r.2.lost ∧ (r.1 = .ok () → r.2.conn.Alive)
  := by
  have hne : c.lost ≠ c.lost ++ [c.conn] := by simp
  have hlost {c' : SolanaRpcClient} (hc' : c'.lost = c.lost ++ [c.conn]) : LostDead c c' :=
    ⟨[c.conn], hc', by simpa using h⟩
  rw [reconnect]
  simp only
  split
  case h_1 e conn hconnect =>
    constructor
    · exact { lost := hlost rfl, conn := .inr ⟨h, .inr ⟨hne, .inr ⟨e, rfl⟩⟩⟩ }
    · exact ⟨hne, by simp⟩
  case h_2 conn hconnect =>
    have halive : conn.Alive := (Connection.fresh_of_connect hconnect).alive
    apply (@waitReady_left b { c with lost := c.lost ++ [c.conn], conn := conn } turns _ halive).mono
    · intro c' hc'
      apply hc'.after (hlost rfl)
    · rintro ⟨result, c'⟩ rest ⟨hsame, hconn⟩
      constructor
      · constructor
        · apply hlost hsame
        · rcases hconn with halive | ⟨hdead, hresult⟩
          · exact .inl halive
          · exact .inr ⟨hdead, .inr ⟨by rw [hsame]; exact hne, .inl hresult⟩⟩
      · constructor
        · rw [hsame]
          apply hne
        · intro hok
          rcases hconn with halive | ⟨-, hresult⟩
          · apply halive
          · rw [hresult] at hok
            cases hok

/-- An attempt of `call`. -/
theorem attempt_left {method params : Bytes} {x : Readings} (h : c.conn.Alive) :
  (attempt phr b method params x c turns).Holds (Waiting c) fun r _ => Left c r.1 r.2
  := by
  apply (sendAndRecv_once h).andThen
  · intro c' hc'
    apply hc'
  · rintro ⟨result, c₁⟩ rest honce
    simp only
    split
    case isFalse hopen => exact honce.left
    case isTrue hclosed =>
      have hdead : c₁.conn.Dead := (honce.conn.resolve_left fun h => h.1 hclosed).2
      have hlost : LostDead c c₁ := .of_eq honce.lost
      apply (reconnect_left hdead).andThen
      · intro c' hc'
        apply hc'.after hlost
      · rintro ⟨result, c₂⟩ rest ⟨hleft, -, hok⟩
        cases result with
        | error e => exact (hleft.after hlost).error
        | ok u =>
          apply (sendAndRecv_once (hok rfl)).mono
          · intro c' hc'
            apply hc'.after (hlost.trans hleft.lost)
          · intro r rest hr
            apply hr.left.after (hlost.trans hleft.lost)

/-- The passes of the loop of `call`, the last of which is the one with no other after it. -/
theorem callPass_left {method params : Bytes} {x : Readings}
    {next : Option (SolanaRpcClient → List Pass → Exec JsonScan)}
    (hnext : ∀ again ∈ next, ∀ c turns, c.conn.Alive →
      (again c turns).Holds (Waiting c) fun r _ => Left c r.1 r.2) (h : c.conn.Alive) :
  (callPass phr b method params x next c turns).Holds (Waiting c) fun r _ => Left c r.1 r.2
  := by
  apply (attempt_left h).andThen
  · intro c' hc'
    apply hc'
  · rintro ⟨result, c₁⟩ rest hleft
    cases result with
    | ok reply => exact hleft.of_ok
    | error e =>
      cases next with
      | none => exact hleft.error
      | some again =>
        simp only
        split
        case isFalse => exact hleft.error
        case isTrue h429 =>
          have halive : c₁.conn.Alive := by
            apply hleft.conn.resolve_right
            simp [Tells, closed, h429]
          apply (hnext again rfl c₁ rest halive).mono
          · intro c' hc'
            apply hc'.after hleft.lost
          · intro r _ hr
            apply hr.after hleft.lost

theorem callFrom_left {method params : Bytes} {x : Nat → Readings} (left : Nat) :
  ∀ (i : Nat) (c : SolanaRpcClient) (turns : List Pass), c.conn.Alive →
    (callFrom phr b method params x left i c turns).Holds (Waiting c) fun r _ => Left c r.1 r.2
  := by
  induction left with
  | zero =>
    intro i c turns h
    apply callPass_left _ h
    simp
  | succ left ih =>
    intro i c turns h
    apply callPass_left _ h
    rintro again ⟨⟩
    apply ih (i + 1)

theorem call_left {method params : Bytes} {x : Nat → Readings} (h : c.conn.Alive) :
  (call phr b method params x c turns).Holds (Waiting c) fun r _ => Left c r.1 r.2
  := by
  unfold call
  exact callFrom_left maxRetries429 0 c turns h

theorem batch_left {entries : List BatchEntry} {start : UInt64} (h : c.conn.Alive) :
  (batch phr b entries start c turns).Holds (Waiting c) fun r _ => Left c r.1 r.2
  := by
  rw [batch_def]
  beta_reduce
  split
  · exact { lost := .of_eq rfl, conn := .inl h }
  · exact { lost := .of_eq rfl, conn := .inl h }
  case h_3 len buf nextId hserialize =>
    have hsent : LostDead c { c with nextId := nextId } := .of_eq rfl
    apply (@exchange_once _ phr b { c with nextId := nextId } turns _ start h).andThen
    · intro c' hc'
      apply hc'.after hsent
    · rintro ⟨result, c'⟩ rest honce
      have hleft := honce.left.after hsent
      cases result with
      | ok reply => exact hleft.of_ok
      | error e => exact hleft.error

/-! ### Histories -/

/-- Every connection of the client, the ones it lost included, has reported failures to the end. -/
def Sticky (c : SolanaRpcClient) : Prop := c.conn.Sticky ∧ ∀ conn ∈ c.lost, conn.Sticky

/-- An operation that begins on a connection that is not in the error state leads from one client to
the next. -/
def LiveStep (phr : Phr δ) (b : Build) (c c' : SolanaRpcClient) : Prop :=
  c.conn.io.state ≠ .error ∧ ∃ op turns result rest,
    Op.exec phr b op c turns = .done (result, c') rest

/-- The connections of a client in such a history. -/
structure History (c : SolanaRpcClient) : Prop where
  conn : c.conn.Alive ∨ c.conn.Dead
  lost : ∀ conn ∈ c.lost, conn.Dead

theorem History.sticky (h : History c) :
  c.Sticky
  := ⟨h.conn.elim Connection.Alive.sticky Connection.Dead.sticky,
    fun conn hconn => (h.lost conn hconn).sticky⟩

theorem History.alive (h : History c) (hlive : c.conn.io.state ≠ .error) :
  c.conn.Alive
  := h.conn.resolve_right fun hdead => hlive hdead.state

theorem History.of_lostDead (h : History c) (hlost : LostDead c c')
    (hconn : c'.conn.Alive ∨ c'.conn.Dead) :
  History c'
  where
  conn := hconn
  lost := by
    obtain ⟨dead, heq, hdead⟩ := hlost
    rw [heq]
    intro conn hconn
    apply (List.mem_append.mp hconn).elim (h.lost conn) (hdead conn)

theorem status_left {e : Exec α} (h : e.Holds (Waiting c) fun r _ => Left c r.1 r.2) :
  (Exec.status e).Holds (Waiting c) fun r _ => Left c r.1 r.2
  := by
  apply h.andThen
  · intro c' hc'
    apply hc'
  · rintro ⟨result, c'⟩ rest hleft
    cases result with
    | ok v => exact Left.of_ok hleft
    | error e => exact Left.error hleft

/-- An operation on a connection that is alive. -/
theorem exec_left {op : Op} (h : c.conn.Alive) :
  (op.exec phr b c turns).Holds (Waiting c) fun r _ => Left c r.1 r.2
  := by
  cases op with
  | call method params x => exact status_left (call_left h)
  | batch entries start => exact status_left (batch_left h)
  | setTimeoutNs ns => exact { lost := .of_eq rfl, conn := .inl h }

theorem history_of_waitReady {start : UInt64} {rest : List Pass} (h : c.conn.Alive)
    (hlost : c.lost = []) (hready : waitReady b start c turns = .done (.ok (), c') rest) :
  History c'
  := by
  have hleft := @waitReady_left b c turns start h
  rw [hready] at hleft
  obtain ⟨hsame, hconn⟩ := hleft
  constructor
  · apply hconn.imp_right And.left
  · rw [hsame, hlost]
    simp

theorem history_connected (h : Connected b c) :
  History c
  := by
  obtain ⟨c₀, start, turns, rest, hfresh, -, hlost, hdone⟩ := h.waitReady
  apply history_of_waitReady hfresh.alive hlost hdone

/-- Every client in a history whose operations all begin on connections that are not in the error
state. -/
theorem history_of_reached {c₀ : SolanaRpcClient} (hconnected : Connected b c₀)
    (h : Relation.ReflTransGen (LiveStep phr b) c₀ c) :
  History c
  := by
  induction h with
  | refl => exact history_connected hconnected
  | tail _ hstep ih =>
    obtain ⟨hlive, op, turns, result, rest, hexec⟩ := hstep
    have hleft := @exec_left _ phr b _ turns op (ih.alive hlive)
    rw [hexec] at hleft
    apply ih.of_lostDead hleft.lost (hleft.conn.imp_right And.left)

/-- What is seen of a failure when an operation ends. -/
structure Observed (c : SolanaRpcClient) (r : Except Abort Unit) (c' : SolanaRpcClient) : Prop where
  sticky : c'.Sticky
  tells : c'.conn.io.state = .error →
    r = .error (.failed (.http .connectionClosed)) ∨ c.lost ≠ c'.lost
  in_time : r = .error (.failed (.http .responseIncomplete)) → c'.conn.io.state ≠ .error

/-- In a history whose operations all begin on connections that are not in the error state, each
connection reports its failure to the end. An operation whose connection fails reconnects or returns
that it is closed, and none waits or times out on a handle in the error state. -/
theorem failure_observed {c₀ : SolanaRpcClient} (hconnected : Connected b c₀)
    (h : Relation.ReflTransGen (LiveStep phr b) c₀ c) (hlive : c.conn.io.state ≠ .error) (op : Op)
    (turns : List Pass) :
  (op.exec phr b c turns).Holds
    (fun c' => c'.Sticky ∧ c'.conn.io.state ≠ .error)
    fun r _ => Observed c r.1 r.2
  := by
  have hhistory := history_of_reached hconnected h
  apply (exec_left (hhistory.alive hlive)).mono
  · intro c' hc'
    exact ⟨(hhistory.of_lostDead hc'.lost (.inl hc'.conn)).sticky, hc'.conn.state⟩
  · rintro ⟨result, c'⟩ rest hleft
    constructor
    · apply (hhistory.of_lostDead hleft.lost (hleft.conn.imp_right And.left)).sticky
    · intro herror
      rcases hleft.conn with halive | ⟨-, hclosed | ⟨hne, -⟩⟩
      · exact absurd herror halive.state
      · exact .inl hclosed
      · exact .inr hne
    · intro hincomplete
      rcases hleft.conn with halive | ⟨-, htells⟩
      · apply halive.state
      · simp only at hincomplete htells
        rw [hincomplete] at htells
        simp [Tells, closed] at htells

/-! ### A connection in the error state -/

/-- A pump that finds the handle in the error state reports nothing. -/
theorem pump_of_error {conn : Connection} {a : FdRpcIo.PumpAnswers}
    (h : conn.io.state = .error) :
  conn.pump a = ({}, { conn with events := conn.events ++ [.pumped {} []] })
  := by
  have hpump : FdRpcIo.pump a conn.io = { ret := 0, io := conn.io, calls := [] } := by
    rw [FdRpcIo.pump, h]
  rw [Connection.pump, hpump]
  simp only [FdRpcIo.Rbuf.usedSz, List.drop_length]
  rfl

/-- The handle is in the error state, its RX ring is empty, and some pumps have reported nothing
since. -/
structure Unseen (before : Connection) (n : Nat) (conn : Connection) : Prop where
  state : conn.io.state = .error
  rx : conn.io.rbufRx.bytes = []
  reports : conn.reports = before.reports ++ List.replicate n ({} : PumpResult)

/-- The loop for the header block has found nothing, and has pumped once for each turn. -/
structure Idling (before : Connection) (total : Nat) (turns : List Pass)
    (st : Filling Connection) : Prop where
  filled : st.filled = 0
  unseen : ∃ n, n + turns.length = total ∧ Unseen before n st.client.port

variable {before : Connection} {s : Settings} {total : Nat}

theorem headerTurn_idling (htime : s.timeoutNs < 0) {t : Pass} {ts : List Pass}
    {st : Filling Connection} (h : Idling before total (t :: ts) st) :
  (headerTurn phr Connection.port s t st).Holds (Idling before total ts) fun _ => False
  := by
  obtain ⟨⟨scratch, conn⟩, filled⟩ := st
  obtain ⟨hfilled, n, hn, hstate, hrx, hreports⟩ := h
  simp only at hfilled hstate hrx hreports
  have hquiet : timedOut s t.now = .ok false := if_neg (Int64.not_le.mpr htime)
  simp only [headerTurn, pumpTurn, Connection.port, pump_of_error hstate, Client.rxPop, hfilled, hrx,
    idleTurn, hquiet, check_ok, Nat.not_lt_zero, if_false, List.take_nil, List.length_nil,
    Bool.or_self, Bool.false_eq_true, Turns.Step.holds_more]
  constructor
  · rfl
  · use n + 1, by rw [← hn, List.length_cons]; omega
    constructor
    · apply hstate
    · rfl
    · change Connection.reports { conn with events := conn.events ++ [.pumped {} []] } = _
      have hreported := @Connection.reports_pump conn t.pump
      rw [pump_of_error hstate] at hreported
      rw [hreported, hreports, List.replicate_succ', List.append_assoc]

/-- Without a timeout the call waits on such a handle, whatever it meets. -/
theorem readResponse_unseen (htime : s.timeoutNs < 0) {client : Client Connection}
    (h : Unseen before 0 client.port) :
  (readResponse phr Connection.port s client turns).Holds
    (fun client => Unseen before turns.length client.port) fun _ _ => False
  := by
  have hstart : Idling before turns.length turns { client := client, filled := 0 } :=
    ⟨rfl, 0, Nat.zero_add _, h⟩
  have hloop : (Turns.run (headerTurn phr Connection.port s) turns
      { client := client, filled := 0 }).Holds (Idling before turns.length []) fun _ _ => False :=
    Turns.run_holds (fun _ _ _ => headerTurn_idling htime) hstart
  apply hloop.andThen
  · rintro st ⟨-, n, hn, hunseen⟩
    rw [List.length_nil, Nat.add_zero] at hn
    rw [← hn]
    apply hunseen
  · intro r rest hr
    apply hr.elim

/-- A loop that is never done, followed by anything. -/
theorem holds_of_waiting {β : Type} {e : Exec α} {w : SolanaRpcClient → Prop}
    (he : e.Holds w fun _ _ => False)
    {next : Except Abort α × SolanaRpcClient → List Pass → Exec β} :
  (e.andThen id next).Holds w fun _ _ => False
  := he.andThen (fun _ h => h) fun _ _ h => h.elim

/-- Without a timeout `call` waits on such a handle, whatever it meets. -/
theorem call_unseen {method params request : Bytes} {x : Nat → Readings}
    (hstate : c.conn.io.state = .error) (hrx : c.conn.io.rbufRx.bytes = [])
    (htime : c.timeoutNs < 0)
    (hlen : (requestText c.nextId method params).length ≤ requestBufSz)
    (hwrite : writeRequest c.conn (asBytes "POST") (urlPath c.url) (urlHost c.url)
      (asBytes "application/json") (requestText c.nextId method params)
        = .ok (c.conn.txPush request)) :
  (call phr b method params x c turns).Holds
    (fun c' => Unseen c.conn turns.length c'.conn ∧ c'.lost = c.lost) fun _ _ => False
  := by
  have hunseen : Unseen c.conn 0 (c.conn.txPush request) :=
    { state := hstate
      rx := hrx
      reports := by rw [Connection.reports_txPush, List.replicate_zero, List.append_nil] }
  have hexchange : (sendAndRecv phr b method params (x 0).start c turns).Holds
      (fun c' => Unseen c.conn turns.length c'.conn ∧ c'.lost = c.lost) fun _ _ => False := by
    rw [sendAndRecv_eq hlen, exchange]
    simp only [hwrite]
    have hread := @readResponse_unseen _ phr turns c.conn
      { overflowChecks := b.overflowChecks, timeoutNs := c.timeoutNs, start := (x 0).start } htime
      { scratch := c.scratch, port := c.conn.txPush request } hunseen
    apply hread.andThen
    · intro client hclient
      exact ⟨hclient, rfl⟩
    · intro r rest hr
      apply hr.elim
  unfold call
  apply holds_of_waiting (holds_of_waiting hexchange)

/-! ### A failure that is not seen again -/

/-- A call that waits as long as it takes. -/
def patientClient : SolanaRpcClient := plainClient.setTimeoutNs (-1)

/-- A turn in which the peer has closed the connection. -/
def closedTurn : Pass where
  pump := { rxErr := FdRpcIo.epipe }
  now := 0

/-- The client after a batch whose request was pushed and whose connection was then found closed. -/
def closedClient (request : Bytes) : SolanaRpcClient :=
  { patientClient with conn := ((patientClient.conn.txPush request).pump closedTurn.pump).2 }

/-- An exchange whose first pump reports a failure. -/
theorem exchange_closed {req request : Bytes} {start : UInt64} {t : Pass}
    (hwrite : writeRequest c.conn (asBytes "POST") (urlPath c.url) (urlHost c.url)
      (asBytes "application/json") req = .ok (c.conn.txPush request))
    (hfailed : ((c.conn.txPush request).pump t.pump).1.failed = true) :
  exchange phr b req start c (t :: turns)
    = .done (closed, { c with conn := ((c.conn.txPush request).pump t.pump).2 }) turns
  := by
  rw [PumpResult.failed] at hfailed
  simp only [exchange, hwrite, readResponse, Turns.run, headerTurn, pumpTurn, Connection.port, hfailed,
    if_true]
  rfl

theorem batch_closed :
  batch phr checkedBuild [] 0 patientClient [closedTurn]
    = .done (closed, closedClient (plainRequest (asBytes "[]"))) []
  := by
  have hroom : 2 ≤ (List.replicate batchRequestBufSz (0 : UInt8)).length := by
    rw [List.length_replicate]
    decide
  obtain ⟨len, buf, hserialize, hsent⟩ := serializeBatch_nil patientClient.nextId hroom
  have hwrite := @writeRequest_plain (asBytes "[]") patientClient.conn (by decide) (by decide)
  have hexchange := @exchange_closed _ phr checkedBuild patientClient [] _ _ 0 closedTurn hwrite rfl
  rw [batch_def]
  beta_reduce
  rw [hserialize]
  simp only [hsent]
  rw [hexchange]
  rfl

/-- The next call waits as long as it is given turns. -/
theorem call_closedClient {x : Nat → Readings} (hturns : turns ≠ []) :
  (call phr checkedBuild (asBytes "getHealth") (asBytes "[]") x
    (closedClient (plainRequest (asBytes "[]"))) turns).Holds
    (fun c' => c'.conn.io.state = .error ∧ c'.lost = [] ∧ ¬c'.Sticky) fun _ _ => False
  := by
  have hmethod : (asBytes "getHealth").length = 9 := by decide
  have hparams : (asBytes "[]").length = 2 := by decide
  have htext := length_requestText 1 (asBytes "getHealth") (asBytes "[]")
  have hrequest := @length_plainRequest (asBytes "[]") (by decide)
  have hfree : (closedClient (plainRequest (asBytes "[]"))).conn.io.rbufTx.freeSz
      = 65536 - (plainRequest (asBytes "[]")).length := rfl
  have hlen : (requestText 1 (asBytes "getHealth") (asBytes "[]")).length ≤ requestBufSz := by
    rw [requestBufSz]
    omega
  have hwrite := @writeRequest_plain (requestText 1 (asBytes "getHealth") (asBytes "[]"))
    (closedClient (plainRequest (asBytes "[]"))).conn (by omega) (by omega)
  have hwaits := @call_unseen _ phr checkedBuild (closedClient (plainRequest (asBytes "[]"))) turns
    (asBytes "getHealth") (asBytes "[]") _ x rfl rfl (by decide) hlen hwrite
  apply hwaits.mono
  · rintro c' ⟨hunseen, hlost⟩
    refine ⟨hunseen.state, hlost, ?_⟩
    rintro ⟨hsticky, -⟩
    -- the batch reported the failure, and the first turn of the call reported nothing
    rw [Connection.Sticky, hunseen.reports, List.pairwise_append] at hsticky
    have hmem : ({} : PumpResult) ∈ List.replicate turns.length ({} : PumpResult) :=
      List.mem_replicate.mpr ⟨fun hnil => hturns (List.length_eq_zero_iff.mp hnil), rfl⟩
    have hlast : ({ closed := true } : PumpResult)
        ∈ (closedClient (plainRequest (asBytes "[]"))).conn.reports := by
      rw [closedClient, Connection.reports_pump, List.mem_append]
      right
      apply List.mem_singleton.mpr rfl
    apply Bool.false_ne_true (hsticky.2.2 _ hlast _ hmem rfl)
  · intro _ _ h
    apply h

/-- A connection that has failed is not seen to have failed again: after a batch that returned that
it is closed, the next call waits on a handle in the error state, as long as it is given turns. -/
theorem not_failure_observed :
  Connected checkedBuild plainClient
    ∧ (Op.setTimeoutNs (-1)).exec (Phr.ofBlock [0] 200 []) checkedBuild plainClient []
      = .done (.ok (), patientClient) []
    ∧ patientClient.conn.io.state ≠ .error
    ∧ (Op.batch [] 0).exec (Phr.ofBlock [0] 200 []) checkedBuild patientClient [closedTurn]
      = .done (.error (.failed (.http .connectionClosed)),
        closedClient (plainRequest (asBytes "[]"))) []
    ∧ (closedClient (plainRequest (asBytes "[]"))).conn.io.state = .error
    ∧ ∀ (x : Nat → Readings) (turns : List Pass), turns ≠ [] →
      ((Op.call (asBytes "getHealth") (asBytes "[]") x).exec (Phr.ofBlock [0] 200 []) checkedBuild
        (closedClient (plainRequest (asBytes "[]"))) turns).Holds
        (fun c' => c'.conn.io.state = .error ∧ c'.lost = [] ∧ ¬c'.Sticky) fun _ _ => False
  := by
  refine ⟨connected_plainClient, rfl, by decide, ?_, rfl, ?_⟩
  · rw [Op.exec, batch_closed]
    rfl
  · intro x turns hturns
    apply holds_of_waiting (call_closedClient hturns)

theorem failure_observed_plainClient :
  ((Op.batch [] 0).exec (Phr.ofBlock [0] 200 []) checkedBuild plainClient [closedTurn]).Holds
    (fun c' => c'.Sticky ∧ c'.conn.io.state ≠ .error)
    fun r _ => Observed plainClient r.1 r.2
  := failure_observed connected_plainClient .refl (by decide) (.batch [] 0) [closedTurn]

end SolanaRpcClient

end FdRpc

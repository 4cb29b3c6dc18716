import FiredancerRs.Rpc.PlainCall
import FiredancerRs.Rpc.Server
import Mathlib.Logic.Relation

/-!
# Requests and responses

A response is taken for the answer to the request before it, and no identifier is compared. When a
call begins with nothing outstanding on its connection, or reconnects, the response that it parses
is the server's answer to its own request (`call_matched`). A call whose time was over leaves its
answer to the next one.
-/

open FdEd25519

namespace FdRpc

open Http

variable {δ : Type} {phr : Phr δ} {b : Build}

/-- A server, by its answers on each connection of a client. The connections are counted by those
that were lost before. -/
abbrev Server (phr : Phr δ) := Nat → Answers phr

namespace SolanaRpcClient

variable {server : Server phr} {c c' : SolanaRpcClient} {turns : List Pass}

/-- The server has answered the requests on the connection of the client, so far as it has. -/
def Served (server : Server phr) (c : SolanaRpcClient) : Prop :=
  Serves (server c.lost.length) c.conn.events

/-- Nothing is outstanding on the connection of the client. -/
def Settled (server : Server phr) (c : SolanaRpcClient) : Prop :=
  c.conn.Settled (server c.lost.length)

/-- The text of a request with a body. -/
def postText (url : UrlParts) (body : Bytes) : Bytes :=
  httpRequest (asBytes "POST") (urlPath url) (urlHost url) (asBytes "application/json") body

/-- The answer to a request on the connection of the client before it is pushed. -/
def answer (server : Server phr) (c : SolanaRpcClient) (request : Bytes) : Message phr :=
  server c.lost.length (requestsIn c.conn.events).length request

/-! ### One exchange -/

/-- The body that a reply selects is sliced from `scratch`. -/
theorem responseBody_selects {status status' : UInt16} {start offset len : Nat} {body : Bytes}
    (hselects : Selects status start body
      (.ok (status', offset, len), { scratch := c.scratch, port := [] }))
    (hscratch : c.scratch.length ≤ isizeMax) :
  responseBody b c offset len = .ok body
  := by
  obtain ⟨hresult, hrange, hslice⟩ := hselects
  cases hresult
  have hadd : usizeAdd b.overflowChecks start body.length = .ok (start + body.length) :=
    usizeAdd_eq (lt_of_le_of_lt (hrange.trans hscratch) isizeMax_lt)
  rw [responseBody, hadd]
  simp only [Nat.le_add_right, hrange, and_self, if_true, Nat.add_sub_cancel_left]
  rw [hslice]

/-- What an exchange leaves. When it returns a body, or finds a bad status, it has taken the answer
to its request if nothing was outstanding before. -/
structure Exchanged (server : Server phr) (b : Build) (c : SolanaRpcClient) (req : Bytes)
    (r : Except Abort (Nat × Nat)) (c' : SolanaRpcClient) : Prop where
  lost : c'.lost = c.lost
  url : c'.url = c.url
  nextId : c'.nextId = c.nextId
  length_le : c'.scratch.length ≤ isizeMax
  events : c.conn.events <+: c'.conn.events
  ok : ∀ offset len, r = .ok (offset, len) →
    Connection.PumpedSince (c.conn.txPush (postText c.url req)) c'.conn
      ∧ (c.Settled server → c'.Served server → c'.Settled server
        ∧ responseBody b c' offset len = .ok (c.answer server (postText c.url req)).body)
  badStatus : ∀ status, r = .error (.failed (.http (.badStatus status))) →
    c.Settled server → c'.Served server → c'.Settled server

theorem exchanged_error {req scratch : Bytes} {conn : Connection} {stop : Stop}
    (hlength : scratch.length ≤ isizeMax) (hevents : c.conn.events <+: conn.events)
    (hstop : ∀ status, stop ≠ .failed (.badStatus status)) :
  Exchanged server b c req (.error (.ofStop stop)) { c with scratch := scratch, conn := conn }
  where
  lost := rfl
  url := rfl
  nextId := rfl
  length_le := hlength
  events := hevents
  ok := by simp
  badStatus status h := by
    cases stop with
    | panicked p => simp [Abort.ofStop] at h
    | failed e =>
      simp only [Abort.ofStop, Except.error.injEq, Abort.failed.injEq, RpcError.http.injEq] at h
      exact absurd (congrArg Stop.failed h) (hstop status)

/-- One exchange. -/
theorem exchange_exchanged {req : Bytes} {start : UInt64} (hreq : req.length < 10 ^ 20)
    (hscratch : c.scratch.length ≤ isizeMax) :
  (exchange phr b req start c turns).Holds (fun _ => True)
    fun r _ => Exchanged server b c req r.1 r.2
  := by
  rw [exchange]
  obtain ⟨stop, hstop, hwrite⟩ | ⟨request, hwrite⟩ := writeRequest_cases c.conn (asBytes "POST")
    (urlPath c.url) (urlHost c.url) (asBytes "application/json") req
  · rw [hwrite]
    apply exchanged_error hscratch List.prefix_rfl
    rcases hstop with rfl | rfl <;> simp
  · have hpush : c.conn.txPush request = c.conn.txPush (postText c.url req) :=
      writeRequest_ok hreq hwrite
    rw [hwrite, hpush]
    generalize hm : c.answer server (postText c.url req) = m
    have hread := fun s => (@readResponse_takes _ _ _ phr Connection.port _ s turns
      Connection.receives_port
      { scratch := c.scratch, port := c.conn.txPush (postText c.url req) } hscratch m).and
      (readResponse_keeps Connection.keeps_pumpedSince Connection.PumpedSince.refl)
    apply (hread _).andThen_done
    rintro ⟨result, client⟩ rest ⟨⟨hlength, hok, herror⟩, hends⟩
    have hpumped : Connection.PumpedSince (c.conn.txPush (postText c.url req)) client.port :=
      hends.cases.elim And.right And.right
    have hevents : c.conn.events <+: client.port.events :=
      (List.prefix_append _ _).trans hpumped.isPrefix
    cases result with
    | error stop => exact exchanged_error hlength hevents (herror stop rfl)
    | ok reply =>
      obtain ⟨status, offset, len⟩ := reply
      obtain ⟨taken, htaken, hreply⟩ := hok _ rfl
      have hdone (hsettled : c.Settled server)
          (hserved : Serves (server c.lost.length) client.port.events) :
          client.port.Settled (server c.lost.length)
            ∧ Selects m.block.info.status m.block.info.headerLen m.body
              (.ok (status, offset, len), { scratch := client.scratch, port := [] }) := by
        obtain ⟨hpart, hall⟩ : taken <+: m.bytes
            ∧ (taken = m.bytes → client.port.Settled (server c.lost.length)) := by
          rw [← hm]
          exact Connection.Settled.answered hsettled hpumped htaken hserved
        obtain ⟨hwhole, hselects⟩ := hreply hpart
        exact ⟨hall hwhole, hselects⟩
      simp only
      split
      · constructor
        case ok => simp
        case badStatus => exact fun _ _ hsettled hserved => (hdone hsettled hserved).1
        case length_le => exact hlength
        case events => exact hevents
        all_goals rfl
      · constructor
        case ok =>
          rintro _ _ ⟨⟩
          use hpumped
          intro hsettled hserved
          obtain ⟨hagain, hselects⟩ := hdone hsettled hserved
          use hagain
          rw [hm]
          exact responseBody_selects (c := { c with scratch := client.scratch, conn := client.port })
            hselects hlength
        case badStatus => simp
        case length_le => exact hlength
        case events => exact hevents
        all_goals rfl

/-! ### Calls -/

/-- The message is the server's answer to the last request on the connection. The request was pushed
in a call that began with `c`, with the last identifier. -/
def AnswersCall (server : Server phr) (method params : Bytes) (c c' : SolanaRpcClient)
    (m : Message phr) : Prop :=
  ∃ (id : UInt64) (before : Connection), c'.nextId = id + 1
    ∧ Connection.PumpedSince
      (before.txPush (postText c'.url (requestText id method params))) c'.conn
    ∧ (c'.lost = c.lost → c.conn.events <+: before.events)
    ∧ m = server c'.lost.length (requestsIn before.events).length
      (postText c'.url (requestText id method params))

/-- A call that began with `c` goes on with `c'`. -/
structure Onward (server : Server phr) (c c' : SolanaRpcClient) : Prop where
  length_le : c'.scratch.length ≤ isizeMax
  lost : c.lost <+: c'.lost
  events : c'.lost = c.lost → c.conn.events <+: c'.conn.events
  settled : c.Settled server ∨ c'.lost ≠ c.lost → c'.Served server → c'.Settled server

/-- What is left when a call that began with `c` has sent its request. -/
structure Sent (server : Server phr) (b : Build) (method params : Bytes) (c : SolanaRpcClient)
    (r : Except Abort (Nat × Nat)) (c' : SolanaRpcClient) : Prop where
  length_le : c'.scratch.length ≤ isizeMax
  lost : c.lost <+: c'.lost
  ok : ∀ offset len, r = .ok (offset, len) → ∃ m, AnswersCall server method params c c' m
    ∧ (c.Settled server ∨ c'.lost ≠ c.lost → c'.Served server → c'.Settled server
      ∧ responseBody b c' offset len = .ok m.body)
  badStatus : ∀ status, r = .error (.failed (.http (.badStatus status))) → Onward server c c'

variable {c₁ : SolanaRpcClient} {method params : Bytes}

theorem Onward.refl (h : c.scratch.length ≤ isizeMax) :
  Onward server c c
  where
  length_le := h
  lost := List.prefix_rfl
  events _ := List.prefix_rfl
  settled hwhen _ := hwhen.resolve_right fun hne => hne rfl

/-- An error other than a bad status. -/
theorem sent_error {e : Abort} (hlength : c'.scratch.length ≤ isizeMax) (hlost : c.lost <+: c'.lost)
    (he : ∀ status, e ≠ .failed (.http (.badStatus status))) :
  Sent server b method params c (.error e) c'
  where
  length_le := hlength
  lost := hlost
  ok := by simp
  badStatus := by
    rintro status ⟨⟩
    exact absurd rfl (he status)

/-- The request of a call is sent and its response is read. -/
theorem sendAndRecv_sent {start : UInt64} (h : Onward server c c₁) :
  (sendAndRecv phr b method params start c₁ turns).Holds (fun _ => True)
    fun r _ => Sent server b method params c r.1 r.2
  := by
  rw [sendAndRecv]
  split
  · exact sent_error h.length_le h.lost (by simp)
  · exact sent_error h.length_le h.lost (by simp)
  case h_3 len buf hserialize =>
    obtain ⟨htext, hfits⟩ := serializeRequest_ok hserialize
    have hreq : (requestText c₁.nextId method params).length < 10 ^ 20 := by
      rw [List.length_replicate, requestBufSz] at hfits
      omega
    rw [htext]
    apply (@exchange_exchanged _ phr b server { c₁ with nextId := c₁.nextId + 1 } turns _ start hreq
      h.length_le).mono_done
    rintro ⟨result, c'⟩ rest ⟨hlost, hurl, hnextId, hlength, hevents, hok, hstatus⟩
    simp only at hlost hurl hnextId hlength hevents hok hstatus ⊢
    -- on the same connection nothing is outstanding before the exchange
    have hsettled (hwhen : c.Settled server ∨ c'.lost ≠ c.lost) (hserved : c'.Served server) :
        c₁.Settled server := by
      apply h.settled (hlost ▸ hwhen)
      rw [Served, hlost] at hserved
      apply hserved.of_isPrefix hevents
    constructor
    · apply hlength
    · apply hlost ▸ h.lost
    · intro offset len hresult
      obtain ⟨hpumped, hanswered⟩ := hok offset len hresult
      use c₁.answer server (postText c₁.url (requestText c₁.nextId method params))
      constructor
      · use c₁.nextId, c₁.conn, hnextId
        rw [hurl, hlost]
        exact ⟨hpumped, fun hsame => h.events hsame, rfl⟩
      · intro hwhen hserved
        apply hanswered (hsettled hwhen hserved) hserved
    · intro status hresult
      constructor
      · apply hlength
      · apply hlost ▸ h.lost
      · intro hsame
        apply (h.events (hlost ▸ hsame)).trans hevents
      · intro hwhen hserved
        apply hstatus status hresult (hsettled hwhen hserved) hserved

/-- One turn of the loop of `wait_ready` on a connection without requests. -/
theorem readyTurn_unasked {timeoutNs : Int64} {start : UInt64} {t : Pass} {conn : Connection}
    (h : conn.Unasked) :
  (readyTurn b timeoutNs start t conn).Holds Connection.Unasked fun r =>
    r.2.Unasked ∧ ∀ e, r.1 = .error e → ∀ status, e ≠ .failed (.http (.badStatus status))
  := by
  have hpumped := @Connection.Unasked.pump conn t.pump h
  rw [readyTurn]
  simp only
  split
  · exact ⟨hpumped, by simp⟩
  · split
    · exact ⟨hpumped, by simp⟩
    · split
      case h_1 e hclock =>
        rw [elapsed] at hclock
        split at hclock <;> cases hclock
        exact ⟨hpumped, by simp⟩
      case h_2 =>
        split
        · exact ⟨hpumped, by simp⟩
        · apply hpumped

/-- `wait_ready` on a connection without requests. -/
theorem waitReady_unasked {start : UInt64} (h : c.conn.Unasked) :
  (waitReady b start c turns).Holds (fun _ => True) fun r _ =>
    r.2.scratch = c.scratch ∧ r.2.lost = c.lost ∧ r.2.conn.Unasked
      ∧ ∀ e, r.1 = .error e → ∀ status, e ≠ .failed (.http (.badStatus status))
  := by
  have hloop : (Turns.run (readyTurn b c.timeoutNs start) turns c.conn).Holds Connection.Unasked
      fun r _ => r.2.Unasked
        ∧ ∀ e, r.1 = .error e → ∀ status, e ≠ .failed (.http (.badStatus status)) :=
    Turns.run_keeps (fun _ _ => readyTurn_unasked) h
  apply hloop.andThen_done
  intro r rest hr
  exact ⟨rfl, rfl, hr⟩

/-- A call goes on with a connection that is new. -/
theorem reconnect_onward {a : FdRpcIo.ConnectAnswers} {start : UInt64}
    (hlength : c₁.scratch.length ≤ isizeMax) (hlost : c.lost <+: c₁.lost) :
  (reconnect b a start c₁ turns).Holds (fun _ => True) fun r _ =>
    r.2.scratch.length ≤ isizeMax ∧ c.lost <+: r.2.lost
      ∧ (r.1 = .ok () → Onward server c r.2)
      ∧ ∀ e, r.1 = .error e → ∀ status, e ≠ .failed (.http (.badStatus status))
  := by
  have hmore : c.lost <+: c₁.lost ++ [c₁.conn] := hlost.trans (List.prefix_append _ _)
  rw [reconnect]
  simp only
  split
  · exact ⟨hlength, hmore, by simp, by simp⟩
  case h_2 conn hconnect =>
    have hunasked : conn.Unasked := (Connection.fresh_of_connect hconnect).unasked
    apply (@waitReady_unasked b { c₁ with lost := c₁.lost ++ [c₁.conn], conn := conn } turns start
      hunasked).mono_done
    rintro ⟨result, c'⟩ rest ⟨hscratch, hsame, hunasked, herror⟩
    simp only at hscratch hsame hunasked herror
    rw [← hscratch] at hlength
    rw [← hsame] at hmore
    use hlength, hmore
    constructor
    · intro _
      constructor
      · apply hlength
      · apply hmore
      · intro hlost'
        have hlen := hlost.length_le
        have hlen' := congrArg List.length (hsame.symm.trans hlost')
        simp only [List.length_append, List.length_singleton] at hlen'
        omega
      · exact fun _ hserved => hunasked.settled hserved
    · apply herror

/-- An attempt of `call`. -/
theorem attempt_sent {x : Readings} (h : Onward server c c₁) :
  (attempt phr b method params x c₁ turns).Holds (fun _ => True)
    fun r _ => Sent server b method params c r.1 r.2
  := by
  apply (sendAndRecv_sent h).andThen_done
  rintro ⟨result, c₂⟩ rest hsent
  simp only
  split
  case isFalse => exact hsent
  case isTrue =>
    apply (@reconnect_onward _ phr b server c rest c₂ _ _ hsent.length_le hsent.lost).andThen
    · intro _ _
      trivial
    · rintro ⟨result, c₃⟩ rest ⟨hlength, hlost, hok, herror⟩
      cases result with
      | error e => exact sent_error hlength hlost (herror e rfl)
      | ok u => exact sendAndRecv_sent (hok rfl)

/-- The scan is at the result in the server's answer to the request that the call pushed last. -/
def Matched (server : Server phr) (method params : Bytes) (c c' : SolanaRpcClient)
    (scan : JsonScan) : Prop :=
  ∃ m, AnswersCall server method params c c' m ∧ parseResponse m.body = some (.ok scan)

/-- What a call leaves. What it returns is matched when nothing was outstanding as it began, or it
has reconnected since. -/
structure Called (server : Server phr) (method params : Bytes) (c : SolanaRpcClient)
    (r : Except Abort JsonScan) (c' : SolanaRpcClient) : Prop where
  length_le : c'.scratch.length ≤ isizeMax
  ok : ∀ scan, r = .ok scan → c.Settled server ∨ c'.lost ≠ c.lost → c'.Served server →
    c'.Settled server ∧ Matched server method params c c' scan

/-- What is parsed is a response in the body. -/
theorem parseReply_eq {offset len : Nat} {body : Bytes} (h : responseBody b c offset len = .ok body)
    (scan : JsonScan) :
  parseReply b c offset len = .ok scan ↔ parseResponse body = some (.ok scan)
  := by
  rw [parseReply, h]
  simp only
  generalize parseResponse body = parsed
  obtain _ | _ | scan := parsed <;> simp

/-- One pass of the loop of `call`. -/
theorem callPass_called {x : Readings}
    {next : Option (SolanaRpcClient → List Pass → Exec JsonScan)}
    (hnext : ∀ again ∈ next, ∀ c₁ turns, Onward server c c₁ →
      (again c₁ turns).Holds (fun _ => True) fun r _ => Called server method params c r.1 r.2)
    (h : Onward server c c₁) :
  (callPass phr b method params x next c₁ turns).Holds (fun _ => True)
    fun r _ => Called server method params c r.1 r.2
  := by
  apply (attempt_sent h).andThen_done
  rintro ⟨result, c₂⟩ rest hsent
  have herror (e : Abort) : Called server method params c (.error e) c₂ :=
    { length_le := hsent.length_le, ok := by simp }
  cases result with
  | ok reply =>
    obtain ⟨offset, len⟩ := reply
    obtain ⟨m, hanswers, hanswered⟩ := hsent.ok offset len rfl
    constructor
    · apply hsent.length_le
    · intro scan hscan hwhen hserved
      obtain ⟨hsettled, hbody⟩ := hanswered hwhen hserved
      exact ⟨hsettled, m, hanswers, (parseReply_eq hbody scan).mp hscan⟩
  | error e =>
    cases next with
    | none => exact herror e
    | some again =>
      simp only
      split
      case isFalse => exact herror e
      case isTrue h429 =>
        apply hnext again rfl c₂ rest (hsent.badStatus 429 (congrArg Except.error h429))

theorem callFrom_called {x : Nat → Readings} (left : Nat) :
  ∀ (i : Nat) (c₁ : SolanaRpcClient) (turns : List Pass), Onward server c c₁ →
    (callFrom phr b method params x left i c₁ turns).Holds (fun _ => True)
      fun r _ => Called server method params c r.1 r.2
  := by
  induction left with
  | zero =>
    intro i c₁ turns h
    apply callPass_called _ h
    simp
  | succ left ih =>
    intro i c₁ turns h
    apply callPass_called _ h
    rintro again ⟨⟩
    apply ih (i + 1)

theorem call_called {x : Nat → Readings} (server : Server phr) (h : c.scratch.length ≤ isizeMax) :
  (call phr b method params x c turns).Holds (fun _ => True)
    fun r _ => Called server method params c r.1 r.2
  := by
  unfold call
  apply callFrom_called maxRetries429 0 c turns (.refl h)

/-! ### Histories -/

/-- An operation leads from one client to the next. -/
def Step (phr : Phr δ) (b : Build) (c c' : SolanaRpcClient) : Prop :=
  ∃ op turns result rest, Op.exec phr b op c turns = .done (result, c') rest

/-- No operation makes `scratch` longer than a vector. -/
theorem kept_length_le (server : Server phr) :
  Kept phr b (fun _ => True) fun c => c.scratch.length ≤ isizeMax
  where
  nextId _ _ := id
  setTimeoutNs _ _ := id
  exchange _ start c turns hreq h := by
    apply (@exchange_exchanged _ phr b server c turns _ start hreq h).mono_done
    exact fun _ _ hexchanged => hexchanged.length_le
  reconnect a start c turns h := by
    apply (@reconnect_onward _ phr b server c turns c a start h List.prefix_rfl).mono_done
    exact fun _ _ honward => honward.1

/-- A client that has connected has made no request. -/
theorem connected_unasked (h : Connected b c) :
  c.scratch.length ≤ isizeMax ∧ c.conn.Unasked
  := by
  obtain ⟨c₀, start, turns, rest, hfresh, hscratch₀, -, hdone⟩ := h.waitReady
  have hready := @waitReady_unasked b c₀ turns start hfresh.unasked
  rw [hdone] at hready
  obtain ⟨hscratch, -, hunasked, -⟩ := hready
  rw [hscratch, hscratch₀]
  use length_newScratch_le

/-- Nothing is outstanding when a client has connected. -/
theorem connected_settled (h : Connected b c) (hserved : c.Served server) :
  c.Settled server
  := (connected_unasked h).2.settled hserved

theorem length_le_reached {c₀ : SolanaRpcClient} (server : Server phr)
    (hconnected : Connected b c₀) (h : Relation.ReflTransGen (Step phr b) c₀ c) :
  c.scratch.length ≤ isizeMax
  := by
  induction h with
  | refl => exact (connected_unasked hconnected).1
  | tail _ hstep ih =>
    obtain ⟨op, turns, result, rest, hexec⟩ := hstep
    have hlength : (op.exec phr b _ turns).Holds (fun _ => True)
        fun r _ => r.2.scratch.length ≤ isizeMax := (kept_length_le server).exec op ih
    rw [hexec] at hlength
    apply hlength

/-- In any history, when nothing is outstanding on the connection as a call begins, or the call
reconnects, the response that it parses is the server's answer to the request that it pushed last,
and nothing is outstanding when it returns. -/
theorem call_matched (server : Server phr) {c₀ : SolanaRpcClient} (hconnected : Connected b c₀)
    (h : Relation.ReflTransGen (Step phr b) c₀ c) (method params : Bytes) (x : Nat → Readings)
    (turns : List Pass) :
  (call phr b method params x c turns).Holds (fun _ => True) fun r _ =>
    ∀ scan, r.1 = .ok scan → c.Settled server ∨ r.2.lost ≠ c.lost → r.2.Served server →
      r.2.Settled server ∧ Matched server method params c r.2 scan
  := by
  apply (call_called server (length_le_reached server hconnected h)).mono_done
  intro r rest hr
  apply hr.ok

/-! ### A late answer -/

/-- A body with an identifier, which is filled up with blanks to the same length. -/
def replyBody (id : Nat) : Bytes :=
  asBytes "\x7b\"jsonrpc\":\"2.0\",\"id\":"
    ++ (List.replicate 20 0x20 ++ Decimal.render id).drop (Decimal.render id).length
    ++ asBytes ",\"result\":\"ok\"\x7d"

theorem length_replyBody (id : Nat) :
  (replyBody id).length = 57
  := by
  simp only [replyBody, List.length_append, List.length_drop, List.length_replicate]
  have h1 : (asBytes "\x7b\"jsonrpc\":\"2.0\",\"id\":").length = 22 := by decide
  have h2 : (asBytes ",\"result\":\"ok\"\x7d").length = 15 := by decide
  omega

/-- The header block of the answers. -/
def replyHeader : Bytes := ascii "HTTP/1.1 200 OK\r\nContent-Length: 57\r\n\r\n"

theorem length_replyHeader :
  replyHeader.length = 39
  := length_ascii _

/-- A parser for that block. -/
def replyPhr : Phr Unit := Phr.ofBlock replyHeader 200 [header "Content-Length" "57"]

/-- The answer to the request with an identifier. -/
def reply (id : Nat) : Message replyPhr where
  block := HeaderBlock.ofBlock ascii_ne_nil
  raw := replyBody id
  body := replyBody id
  framing := by
    apply @Framing.of_digits _ _ _ (ascii "57")
    case hbody =>
      rw [length_replyBody]
      decide
    all_goals decide
  length_lt := by
    change replyHeader.length + _ < _
    rw [length_replyHeader, length_replyBody]
    decide

/-- A server that answers the requests of a client that only makes calls, each with its
identifier. -/
def replies : Server replyPhr := fun _ i _ => reply (i + 1)

/-- The identifiers of two requests. -/
def firstIds : List Nat := [1, 2]

theorem parse_reply :
  ∀ id ∈ firstIds, parseResponse (replyBody id) = some (.ok { data := replyBody id, pos := 52 })
  := by decide

/-- The answers to them are different. -/
theorem parse_reply_ne :
  parseResponse (replyBody 2) ≠ some (.ok { data := replyBody 1, pos := 52 })
  := by
  have hne : replyBody 2 ≠ replyBody 1 := by decide
  rw [parse_reply 2 (by decide)]
  intro heq
  injection heq with heq
  injection heq with heq
  injection heq with heq
  apply hne heq

theorem length_healthText (id : UInt64) :
  (requestText id (asBytes "getHealth") (asBytes "[]")).length ≤ 512
  := by
  have hmethod : (asBytes "getHealth").length = 9 := by decide
  have hparams : (asBytes "[]").length = 2 := by decide
  have htext := length_requestText id (asBytes "getHealth") (asBytes "[]")
  omega

theorem contentLength_reply (id : Nat) :
  (reply id).block.info.contentLength = some (reply id).raw.length
  := by
  change (readHeaders [header "Content-Length" "57"]).1 = some (replyBody id).length
  rw [length_replyBody]
  apply @contentLength_of_digits _ (ascii "57") <;> decide

theorem length_reply (id : Nat) :
  (reply id).bytes.length ≤ defaultBufSz
  := by
  change (replyHeader ++ replyBody id).length ≤ defaultBufSz
  rw [List.length_append, length_replyHeader, length_replyBody]
  decide

/-- The answer that is in `scratch` is the reply. -/
theorem parseReply_reply {id : Nat} {scratch : Bytes} (hid : id ∈ firstIds)
    (hlen : scratch.length = newScratch.length)
    (hscratch : c.scratch = Buffer.overwrite scratch 0 (reply id).bytes) :
  parseReply b c (reply id).block.info.headerLen (reply id).raw.length
    = .ok { data := replyBody id, pos := 52 }
  := by
  have hfit : 0 + (reply id).bytes.length ≤ scratch.length := by
    rw [Nat.zero_add, hlen, length_newScratch]
    apply length_reply id
  have hsame : c.scratch.length = scratch.length := by
    rw [hscratch, Buffer.length_overwrite hfit]
  have htake := @Buffer.take_overwrite _ scratch (reply id).bytes 0 (Nat.zero_le _)
  rw [Nat.zero_add, ← hscratch] at htake
  rw [Nat.zero_add, ← hsame] at hfit
  apply (parseReply_eq _ _).mpr (parse_reply id hid)
  have hselects : Selects (reply id).block.info.status (reply id).block.info.headerLen (reply id).raw
      (.ok ((reply id).block.info.status, (reply id).block.info.headerLen, (reply id).raw.length),
        { scratch := c.scratch, port := [] }) :=
    selects_of_take hfit htake
  apply responseBody_selects hselects
  rw [hsame, hlen]
  apply length_newScratch_le

/-- The request for the health of the node. -/
def healthRequest (id : UInt64) : Bytes :=
  plainRequest (requestText id (asBytes "getHealth") (asBytes "[]"))

/-- The call for the health of the node. -/
def getHealth (c : SolanaRpcClient) (turns : List Pass) : Exec JsonScan :=
  call replyPhr checkedBuild (asBytes "getHealth") (asBytes "[]") (fun _ => {}) c turns

/-- A call that takes the answer with an identifier. -/
theorem getHealth_reply {id : Nat} (hid : id ∈ firstIds) (hurl : c.url = plainUrl)
    (hidle : Idle c.conn) (hscratch : c.scratch.length = newScratch.length) :
  ∃ r conn scratch, Idle conn ∧ scratch.length = newScratch.length
    ∧ conn.events = c.conn.events ++ [.pushed (healthRequest c.nextId), .pumped r (reply id).bytes]
    ∧ getHealth c [sendingTurn (reply id).bytes]
      = .done (.ok { data := replyBody id, pos := 52 },
        { c with nextId := c.nextId + 1, conn := conn, scratch := scratch }) []
  := by
  obtain ⟨r, conn, hidle', hevents, hsend⟩ :=
    @sendAndRecv_answered _ replyPhr checkedBuild c _ _ (reply id) hurl hidle (length_healthText _)
      (Nat.le_of_ble_eq_true rfl) (contentLength_reply id) rfl (length_reply id) hscratch
  have hparse := @parseReply_reply checkedBuild
    { c with
      nextId := c.nextId + 1
      conn := conn
      scratch := Buffer.overwrite c.scratch 0 (reply id).bytes } id c.scratch hid hscratch rfl
  have hfit : 0 + (reply id).bytes.length ≤ c.scratch.length := by
    rw [Nat.zero_add, hscratch, length_newScratch]
    apply length_reply id
  refine ⟨r, conn, Buffer.overwrite c.scratch 0 (reply id).bytes, hidle', ?_, hevents, ?_⟩
  · rw [Buffer.length_overwrite hfit, hscratch]
  · rw [getHealth, ← hparse]
    exact call_of_ok hsend

/-- A connection that has connected, pushed the first request and received the answer to it. -/
theorem serves_replies {conn : Connection} {r : PumpResult} {id : UInt64}
    (hevents : conn.events = plainClient.conn.events
      ++ [.pushed (healthRequest id), .pumped r (reply 1).bytes]) :
  Serves (replies 0) conn.events
  := by
  have hready : Serves (replies 0) plainClient.conn.events := Serves.nil.pump List.nil_prefix
  have hlast : conn.events = (plainClient.conn.events ++ [.pushed (healthRequest id)])
      ++ [.pumped r (reply 1).bytes] := by
    rw [hevents, List.append_assoc]
    rfl
  rw [hlast]
  apply hready.push.pump
  exact List.prefix_rfl

/-- A second call, after a first one was answered, takes the answer to its own request. -/
theorem call_matched_plainClient :
  ∃ c₁ c₂ scan₁ scan₂, getHealth plainClient [sendingTurn (reply 1).bytes] = .done (.ok scan₁, c₁) []
    ∧ getHealth c₁ [sendingTurn (reply 2).bytes] = .done (.ok scan₂, c₂) []
    ∧ c₂.Settled replies ∧ Matched replies (asBytes "getHealth") (asBytes "[]") c₁ c₂ scan₂
  := by
  obtain ⟨r₁, conn₁, scratch₁, hidle, hscratch, hevents₁, hfirst⟩ :=
    @getHealth_reply plainClient 1 (by decide) rfl idle_plainClient rfl
  obtain ⟨r₂, conn₂, scratch₂, -, -, hevents₂, hsecond⟩ :=
    @getHealth_reply { plainClient with nextId := 2, conn := conn₁, scratch := scratch₁ } 2
      (by decide) rfl hidle hscratch
  have hserved₁ : Serves (replies 0) conn₁.events := serves_replies hevents₁
  have hserved₂ : Serves (replies 0) conn₂.events := by
    have hlast : conn₂.events = (conn₁.events ++ [.pushed (healthRequest 2)])
        ++ [.pumped r₂ (reply 2).bytes] := by
      rw [hevents₂, List.append_assoc]
      rfl
    rw [hlast]
    apply hserved₁.push.pump
    rw [hevents₁]
    exact List.prefix_rfl
  have hsettled : plainClient.Settled replies :=
    connected_settled connected_plainClient (Serves.nil.pump List.nil_prefix)
  have hmatched₁ := call_matched replies connected_plainClient .refl (asBytes "getHealth")
    (asBytes "[]") (fun _ => {}) [sendingTurn (reply 1).bytes]
  rw [show call _ _ _ _ _ _ _ = _ from hfirst] at hmatched₁
  obtain ⟨hsettled₁, -⟩ := hmatched₁ _ rfl (.inl hsettled) hserved₁
  have hstep : Step replyPhr checkedBuild plainClient
      { plainClient with nextId := 2, conn := conn₁, scratch := scratch₁ } := by
    use .call (asBytes "getHealth") (asBytes "[]") fun _ => {}, [sendingTurn (reply 1).bytes],
      .ok (), []
    rw [Op.exec, show call _ _ _ _ _ _ _ = _ from hfirst]
    rfl
  have hmatched₂ := call_matched replies connected_plainClient (.single hstep)
    (asBytes "getHealth") (asBytes "[]") (fun _ => {}) [sendingTurn (reply 2).bytes]
  rw [show call _ _ _ _ _ _ _ = _ from hsecond] at hmatched₂
  exact ⟨_, _, _, _, hfirst, hsecond, hmatched₂ _ rfl (.inl hsettled₁) hserved₂⟩

/-- A client whose calls do not wait. -/
def hastyClient : SolanaRpcClient := plainClient.setTimeoutNs 0

/-- The first call does not wait for its answer. -/
theorem getHealth_late :
  ∃ r conn, Idle conn
    ∧ conn.events = hastyClient.conn.events ++ [.pushed (healthRequest 1), .pumped r []]
    ∧ getHealth hastyClient [sendingTurn []]
      = .done (.error (.failed (.http .responseIncomplete)),
        { hastyClient with nextId := 2, conn := conn }) []
  := by
  obtain ⟨r, conn, hidle, hevents, hsend⟩ :=
    @sendAndRecv_late _ replyPhr checkedBuild hastyClient _ _ rfl idle_plainClient
      (length_healthText _) rfl
  use r, conn, hidle, hevents
  exact call_of_error hsend (by simp) (by simp)

/-- A call whose time is over leaves its answer to the next call: that returns the response with the
identifier 1, and its own request has the identifier 2. -/
theorem not_call_matched :
  Connected checkedBuild plainClient
    ∧ (Op.setTimeoutNs 0).exec replyPhr checkedBuild plainClient [] = .done (.ok (), hastyClient) []
    ∧ ∃ c₁ c₂ scan,
      getHealth hastyClient [sendingTurn []]
        = .done (.error (.failed (.http .responseIncomplete)), c₁) []
      ∧ getHealth c₁ [sendingTurn (reply 1).bytes] = .done (.ok scan, c₂) []
      ∧ c₂.Served replies
      ∧ parseResponse (reply 1).body = some (.ok scan) ∧ c₂.nextId = 3
      ∧ ¬Matched replies (asBytes "getHealth") (asBytes "[]") c₁ c₂ scan
  := by
  obtain ⟨r₁, conn₁, hidle, hevents₁, hlate⟩ := getHealth_late
  obtain ⟨r₂, conn₂, scratch, -, -, hevents₂, hreply⟩ :=
    @getHealth_reply { hastyClient with nextId := 2, conn := conn₁ } 1 (by decide) rfl hidle rfl
  simp only [hevents₁] at hevents₂
  have hrequests : requestsIn conn₂.events = [healthRequest 1, healthRequest 2] := by
    rw [hevents₂]
    rfl
  have hserves : Serves (replies 0) conn₂.events := by
    have hready : Serves (replies 0) hastyClient.conn.events := Serves.nil.pump List.nil_prefix
    have hevents : conn₂.events = (((hastyClient.conn.events ++ [.pushed (healthRequest 1)])
        ++ [.pumped r₁ []]) ++ [.pushed (healthRequest 2)]) ++ [.pumped r₂ (reply 1).bytes] := by
      rw [hevents₂]
      simp only [List.append_assoc, List.singleton_append]
    rw [hevents]
    apply (hready.push.pump List.nil_prefix).push.pump
    apply List.prefix_append _ _
  refine ⟨connected_plainClient, rfl, _, _, _, hlate, hreply, hserves, parse_reply 1 (by decide),
    rfl, ?_⟩
  rintro ⟨m, ⟨id, before, -, hpumped, -, rfl⟩, hparse⟩
  have hbefore := hpumped.requests
  rw [Connection.requestsIn_txPush, hrequests] at hbefore
  have hlen := congrArg List.length hbefore
  rw [List.length_append] at hlen
  obtain hone : (requestsIn before.events).length = 1 := by simpa using hlen.symm
  rw [hone] at hparse
  apply parse_reply_ne hparse

end SolanaRpcClient

end FdRpc

import FiredancerRs.Rpc.Client

/-!
# Histories of a client

The operations of a client, of which every method is one followed by the parsing of its result. A
history begins with a client that has connected. What the exchanges and the reconnects of a client
keep, every operation keeps (`Kept.exec`).
-/

open FdEd25519

namespace FdRpc

open Http

/-- An operation, with what it reads besides its turns. -/
inductive Op where
  | call (method params : Bytes) (x : Nat → Readings)
  | batch (entries : List BatchEntry) (start : UInt64)
  | setTimeoutNs (ns : Int64)

/-- What an operation is left with, but for its value. -/
def Exec.status {α : Type} (e : Exec α) : Exec Unit :=
  e.andThen id fun (result, c) rest => .done (result.map fun _ => (), c) rest

/-- The client that an operation is left with. -/
def Exec.client {α : Type} : Exec α → SolanaRpcClient
  | .waiting c => c
  | .done (_, c) _ => c

/-- The operation has ended. -/
def Exec.isDone {α : Type} : Exec α → Bool
  | .waiting _ => false
  | .done _ _ => true

/-- What holds of the client, however the operation ends. -/
theorem Exec.holds_client {α : Type} {e : Exec α} {p : SolanaRpcClient → Prop}
    (h : e.Holds p fun r _ => p r.2) :
  p e.client
  := by
  cases e with
  | waiting c => exact h
  | done r rest => exact h

theorem Exec.eq_done {α : Type} {e : Exec α} (h : e.isDone = true) :
  ∃ result rest, e = .done (result, e.client) rest
  := by
  cases e with
  | waiting c => cases h
  | done r rest => exact ⟨r.1, rest, rfl⟩

variable {δ : Type} (phr : Phr δ) (b : Build)

/-- The operation on a list of turns. -/
def Op.exec (op : Op) (c : SolanaRpcClient) (turns : List Pass) : Exec Unit :=
  match op with
  | .call method params x => Exec.status (c.call phr b method params x turns)
  | .batch entries start => Exec.status (c.batch phr b entries start turns)
  | .setTimeoutNs ns => .done (.ok (), c.setTimeoutNs ns) turns

/-- A client that has connected. -/
def Connected (c : SolanaRpcClient) : Prop :=
  ∃ a start url addr turns rest,
    SolanaRpcClient.connect b a start url addr turns = .done (.ok (), c) rest

variable {b} {c : SolanaRpcClient}

/-- A client that has connected has waited on a connection that was new. -/
theorem Connected.waitReady (h : Connected b c) :
  ∃ (c₀ : SolanaRpcClient) (start : UInt64) (turns rest : List Pass),
    c₀.conn.Fresh ∧ c₀.scratch = newScratch ∧ c₀.lost = []
      ∧ c₀.waitReady b start turns = .done (.ok (), c) rest
  := by
  obtain ⟨a, start, url, addr, turns, rest, hconnect⟩ := h
  rw [SolanaRpcClient.connect] at hconnect
  simp only at hconnect
  split at hconnect
  · cases hconnect
  case h_2 hok =>
    have hfresh := Connection.fresh_of_connect (Prod.ext hok rfl)
    exact ⟨_, start, turns, rest, hfresh, rfl, rfl, hconnect⟩

/-! ### What operations keep -/

/-- What the parts of an operation keep of a client, and what holds of it while they wait. -/
structure Kept (phr : Phr δ) (b : Build) (wait inv : SolanaRpcClient → Prop) : Prop where
  nextId : ∀ c id, inv c → inv { c with nextId := id }
  setTimeoutNs : ∀ c ns, inv c → inv (c.setTimeoutNs ns)
  exchange : ∀ req start c turns, req.length < 10 ^ 20 → inv c →
    (SolanaRpcClient.exchange phr b req start c turns).Holds wait fun r _ => inv r.2
  reconnect : ∀ a start c turns, inv c →
    (SolanaRpcClient.reconnect b a start c turns).Holds wait fun r _ => inv r.2

namespace Kept

variable {phr} {wait inv : SolanaRpcClient → Prop} {turns : List Pass} {method params : Bytes}

theorem sendAndRecv (h : Kept phr b wait inv) {start : UInt64} (hc : inv c) :
  (c.sendAndRecv phr b method params start turns).Holds wait fun r _ => inv r.2
  := by
  rcases Nat.lt_or_ge requestBufSz (requestText c.nextId method params).length with hlt | hle
  · rw [SolanaRpcClient.sendAndRecv, serializeRequest_of_lt (by rwa [List.length_replicate])]
    apply h.nextId c _ hc
  · have hreq : (requestText c.nextId method params).length < 10 ^ 20 := by
      rw [requestBufSz] at hle
      omega
    rw [SolanaRpcClient.sendAndRecv_eq hle]
    apply h.exchange _ _ _ _ hreq (h.nextId c _ hc)

theorem attempt (h : Kept phr b wait inv) {x : Readings} (hc : inv c) :
  (c.attempt phr b method params x turns).Holds wait fun r _ => inv r.2
  := by
  apply (h.sendAndRecv hc).andThen
  · exact fun _ => id
  · rintro ⟨result, c₁⟩ rest hc₁
    simp only
    split
    · apply (h.reconnect x.connect x.readyStart c₁ rest hc₁).andThen
      · exact fun _ => id
      · rintro ⟨result, c₂⟩ rest hc₂
        cases result with
        | error e => exact hc₂
        | ok u => exact h.sendAndRecv hc₂
    · apply hc₁

theorem callPass (h : Kept phr b wait inv) {x : Readings}
    {next : Option (SolanaRpcClient → List Pass → Exec JsonScan)}
    (hnext : ∀ again ∈ next, ∀ c turns, inv c → (again c turns).Holds wait fun r _ => inv r.2)
    (hc : inv c) :
  (c.callPass phr b method params x next turns).Holds wait fun r _ => inv r.2
  := by
  apply (h.attempt hc).andThen
  · exact fun _ => id
  · rintro ⟨result, c₁⟩ rest hc₁
    cases result with
    | ok reply => exact hc₁
    | error e =>
      cases next with
      | none => exact hc₁
      | some again =>
        simp only
        split
        · apply hnext again rfl c₁ rest hc₁
        · apply hc₁

theorem callFrom (h : Kept phr b wait inv) {x : Nat → Readings} (left : Nat) :
  ∀ (i : Nat) (c : SolanaRpcClient) (turns : List Pass), inv c →
    (c.callFrom phr b method params x left i turns).Holds wait fun r _ => inv r.2
  := by
  induction left with
  | zero =>
    intro i c turns hc
    apply h.callPass _ hc
    simp
  | succ left ih =>
    intro i c turns hc
    apply h.callPass _ hc
    rintro again ⟨⟩
    apply ih (i + 1)

theorem batch (h : Kept phr b wait inv) {entries : List BatchEntry} {start : UInt64} (hc : inv c) :
  (c.batch phr b entries start turns).Holds wait fun r _ => inv r.2
  := by
  rw [SolanaRpcClient.batch_def]
  beta_reduce
  split
  · apply hc
  · apply h.nextId c _ hc
  case h_3 len buf nextId hserialize =>
    obtain ⟨-, hsize, -⟩ := serializeBatch_ok hserialize
    have hreq : (buf.take len).length < 10 ^ 20 := by
      rw [List.length_replicate, batchRequestBufSz] at hsize
      rw [List.length_take]
      omega
    apply (h.exchange _ start _ turns hreq (h.nextId c nextId hc)).andThen
    · exact fun _ => id
    · rintro ⟨result, c₁⟩ rest hc₁
      cases result with
      | ok reply => exact hc₁
      | error e => exact hc₁

theorem status {α : Type} {e : Exec α} (he : e.Holds wait fun r _ => inv r.2) :
  (Exec.status e).Holds wait fun r _ => inv r.2
  := by
  apply he.andThen
  · exact fun _ => id
  · exact fun _ _ => id

/-- What the parts of an operation keep of a client, the operation keeps. -/
theorem exec (h : Kept phr b wait inv) (op : Op) (hc : inv c) :
  (op.exec phr b c turns).Holds wait fun r _ => inv r.2
  := by
  cases op with
  | call method params x =>
    apply status
    unfold SolanaRpcClient.call
    apply h.callFrom maxRetries429 0 c turns hc
  | batch entries start =>
    apply status
    apply h.batch hc
  | setTimeoutNs ns => exact h.setTimeoutNs c ns hc

end Kept

/-! ### A client -/

/-- A URL without TLS. -/
def plainUrl : UrlParts where
  host := asBytes "host"
  port := 80
  path := asBytes "/"
  useTls := false
  length_host := by decide
  length_path := by decide

/-- Linux, with overflow checks. -/
def checkedBuild : Build where
  platform := .linux
  overflowChecks := true

/-- A client for that URL whose connection is there at once. -/
def plainClient : SolanaRpcClient where
  conn :=
    { io := { FdRpcIo.new defaultBufSz defaultBufSz with sockFd := 3, state := .ready }
      events := [.pumped { txDrain := true } []] }
  nextId := 1
  url := plainUrl
  addr := 0
  timeoutNs := defaultTimeoutNs
  scratch := newScratch
  lost := []

/-- A connection that is there at once. -/
def plainConnection : Connection where
  io := { FdRpcIo.new defaultBufSz defaultBufSz with sockFd := 3, state := .ready }
  events := []

/-- Connecting to that host at once, whatever the path. -/
theorem connect_plain {url : UrlParts} (hhost : SolanaRpcClient.hostname url = some ['h', 'o', 's', 't'])
    (htls : url.useTls = false) :
  SolanaRpcClient.connect checkedBuild { socket := 3, connect := 0 } 0 url 0
      [{ pump := {}, now := 0 }]
    = .done (.ok (), { plainClient with url := url }) []
  := by
  have hconnect (port : UInt16) :
      Connection.new.connect checkedBuild.platform { socket := 3, connect := 0 } 0 port false
        (some ['h', 'o', 's', 't']) = (.ok (), plainConnection) := by
    rw [Connection.connect, if_neg (by decide)]
    rfl
  have hpump : plainConnection.pump {} = ({ txDrain := true }, plainClient.conn) := rfl
  rw [SolanaRpcClient.connect, hhost, htls, hconnect]
  simp only [SolanaRpcClient.waitReady, Turns.run, SolanaRpcClient.readyTurn, hpump]
  rfl

theorem connected_plainClient :
  Connected checkedBuild plainClient
  := by
  use { socket := 3, connect := 0 }, 0, plainUrl, 0, [{ pump := {}, now := 0 }], []
  have hhost : SolanaRpcClient.hostname plainUrl = some ['h', 'o', 's', 't'] :=
    decodeUtf8_ascii (List.forall_iff_forall_mem.mp (by decide))
  apply connect_plain hhost rfl

/-- The host or the path of a URL, as it is sent. -/
theorem length_getD_fromUtf8 (bytes default : Bytes) :
  ((fromUtf8 bytes).getD default).length ≤ max bytes.length default.length
  := by
  rw [fromUtf8]
  split
  · apply Nat.le_max_left _ _
  · apply Nat.le_max_right _ _

/-- The text of a request to that URL. -/
def plainRequest (body : Bytes) : Bytes :=
  httpRequest (asBytes "POST") (SolanaRpcClient.urlPath plainUrl)
    (SolanaRpcClient.urlHost plainUrl) (asBytes "application/json") body

variable {body : Bytes}

theorem length_plainHeader (hbody : body.length < 10 ^ 20) :
  (requestHeaderParts (asBytes "POST") (SolanaRpcClient.urlPath plainUrl)
    (SolanaRpcClient.urlHost plainUrl) (asBytes "application/json")
    (Decimal.render body.length)).flatten.length ≤ 512
  := by
  have hpath : (SolanaRpcClient.urlPath plainUrl).length ≤ 1 := length_getD_fromUtf8 _ _
  have hhost : (SolanaRpcClient.urlHost plainUrl).length ≤ 9 := length_getD_fromUtf8 _ _
  have hlen := Decimal.length_render_le hbody (by decide)
  have hmethod : (asBytes "POST").length = 4 := by decide
  have hblank : (asBytes " ").length = 1 := by decide
  have hversion : (asBytes " HTTP/1.1\r\nHost: ").length = 17 := by decide
  have htype : (asBytes "\r\nContent-Type: ").length = 16 := by decide
  have hjson : (asBytes "application/json").length = 16 := by decide
  have hlength : (asBytes "\r\nContent-Length: ").length = 18 := by decide
  have hend : (asBytes "\r\nConnection: keep-alive\r\n\r\n").length = 28 := by decide
  simp only [requestHeaderParts, List.flatten_cons, List.flatten_nil, List.length_append,
    List.length_nil]
  omega

theorem length_plainRequest (hbody : body.length < 10 ^ 20) :
  (plainRequest body).length ≤ 512 + body.length
  := by
  rw [plainRequest, httpRequest, List.length_append]
  apply Nat.add_le_add_right (length_plainHeader hbody) _

/-- A request to that URL is written when there is room for it and for the longest header. -/
theorem writeRequest_plain {conn : Connection} (hbody : body.length < 10 ^ 20)
    (hfree : 512 + body.length ≤ conn.io.rbufTx.freeSz) :
  writeRequest conn (asBytes "POST") (SolanaRpcClient.urlPath plainUrl)
    (SolanaRpcClient.urlHost plainUrl) (asBytes "application/json") body
      = .ok (conn.txPush (plainRequest body))
  := writeRequest_of_le hbody (length_plainHeader hbody) hfree

end FdRpc

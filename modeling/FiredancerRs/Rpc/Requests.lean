import FiredancerRs.Rpc.Matching

/-!
# The requests of a call

All that a call sends is its own request, however often it tries again, and a call that sends
nothing returns an error that says so (`call_asked`).
-/

open FdEd25519

namespace FdRpc

open Http

namespace Connection

variable {p : Bytes → Prop} {conn conn₁ conn₂ : Connection} {request : Bytes}

/-- The requests on a connection are those that were there, and more of a kind. -/
def Continues (p : Bytes → Prop) (conn conn' : Connection) : Prop :=
  ∃ sent, requestsIn conn'.events = requestsIn conn.events ++ sent ∧ ∀ request ∈ sent, p request

/-- A connection is one that was there, with more requests of a kind, or a new one with such
requests only. -/
def Adds (p : Bytes → Prop) (conn conn' : Connection) : Prop :=
  Continues p conn conn' ∨ ∀ request ∈ requestsIn conn'.events, p request

theorem Continues.refl :
  Continues p conn conn
  := ⟨[], (List.append_nil _).symm, List.forall_mem_nil _⟩

theorem Continues.trans (h : Continues p conn conn₁) (h' : Continues p conn₁ conn₂) :
  Continues p conn conn₂
  := by
  obtain ⟨sent, hsent, hp⟩ := h
  obtain ⟨sent', hsent', hp'⟩ := h'
  use sent ++ sent'
  constructor
  · rw [hsent', hsent, List.append_assoc]
  · apply List.forall_mem_append.mpr ⟨hp, hp'⟩

theorem PumpedSince.continues (h : PumpedSince conn conn₁) :
  Continues p conn conn₁
  := ⟨[], by rw [h.requests, List.append_nil], List.forall_mem_nil _⟩

theorem continues_txPush (h : p request) :
  Continues p conn (conn.txPush request)
  := ⟨[request], requestsIn_txPush, List.forall_mem_singleton.mpr h⟩

theorem Adds.continues (h : Adds p conn conn₁) (h' : Continues p conn₁ conn₂) :
  Adds p conn conn₂
  := by
  rcases h with h | h
  · exact .inl (h.trans h')
  · right
    obtain ⟨sent, hsent, hp⟩ := h'
    rw [hsent]
    apply List.forall_mem_append.mpr ⟨h, hp⟩

theorem Adds.imp {q : Bytes → Prop} (h : Adds p conn conn₁) (hpq : ∀ request, p request → q request) :
  Adds q conn conn₁
  := by
  rcases h with ⟨sent, hsent, hp⟩ | h
  · exact .inl ⟨sent, hsent, fun request hrequest => hpq request (hp request hrequest)⟩
  · exact .inr fun request hrequest => hpq request (h request hrequest)

/-- All requests are of the kind when there were none. -/
theorem Adds.of_nil (h : Adds p conn conn₁) (hnil : requestsIn conn.events = [])
    (hrequest : request ∈ requestsIn conn₁.events) :
  p request
  := by
  rcases h with ⟨sent, hsent, hp⟩ | h
  · rw [hsent, hnil, List.nil_append] at hrequest
    apply hp request hrequest
  · apply h request hrequest

end Connection

open Connection

variable {δ : Type} {phr : Phr δ} {b : Build}

namespace SolanaRpcClient

variable {c c₁ c₂ : SolanaRpcClient} {turns : List Pass} {method params : Bytes} {p : Bytes → Prop}

/-- The requests on the connections of a client. -/
def requests (c : SolanaRpcClient) : List Bytes :=
  (c.lost ++ [c.conn]).flatMap fun conn => requestsIn conn.events

/-- The connections of a client since it was another: the one that it had, and those after it. -/
def connectionsSince (c c' : SolanaRpcClient) : List Connection :=
  c'.lost.drop c.lost.length ++ [c'.conn]

/-- All that a client has sent since it was another is of a kind. -/
structure SentSince (p : Bytes → Prop) (c c' : SolanaRpcClient) : Prop where
  url : c'.url = c.url
  lost : c.lost.length ≤ c'.lost.length
  adds : ∀ conn ∈ connectionsSince c c', Adds p c.conn conn

/-- A client goes on with its connection. -/
structure Keeps (p : Bytes → Prop) (c c' : SolanaRpcClient) : Prop where
  url : c'.url = c.url
  lost : c'.lost = c.lost
  conn : Continues p c.conn c'.conn

theorem SentSince.refl :
  SentSince p c c
  := by
  refine ⟨rfl, Nat.le_refl _, ?_⟩
  rw [connectionsSince, List.drop_length, List.nil_append]
  exact List.forall_mem_singleton.mpr (.inl .refl)

theorem SentSince.keeps (h : SentSince p c c₁) (h' : Keeps p c₁ c₂) :
  SentSince p c c₂
  := by
  obtain ⟨hurl, hlost, hadds⟩ := h
  obtain ⟨hdrop, hconn⟩ := List.forall_mem_append.mp hadds
  refine ⟨h'.url.trans hurl, by rwa [h'.lost], ?_⟩
  rw [connectionsSince, h'.lost, List.forall_mem_append, List.forall_mem_singleton]
  exact ⟨hdrop, (List.forall_mem_singleton.mp hconn).continues h'.conn⟩

theorem Keeps.length_le (h : Keeps p c c₁) :
  c.requests.length ≤ c₁.requests.length
  := by
  obtain ⟨sent, hsent, -⟩ := h.conn
  simp only [requests, h.lost, List.flatMap_append, List.flatMap_singleton, hsent,
    List.length_append]
  omega

/-- A client whose connection was lost goes on with that connection or with a new one. -/
theorem SentSince.lose (h : SentSince p c c₁) (hurl : c₂.url = c₁.url) 
    (hlost : c₂.lost = c₁.lost ++ [c₁.conn])
    (hconn : c₂.conn = c₁.conn ∨ requestsIn c₂.conn.events = []) :
  SentSince p c c₂ ∧ c₁.requests.length ≤ c₂.requests.length
  := by
  obtain ⟨hsame, hlength, hadds⟩ := h
  have hlast : Adds p c.conn c₁.conn := hadds _ (List.mem_append_right _ List.mem_cons_self)
  constructor
  · constructor
    · apply hurl.trans hsame
    · rw [hlost, List.length_append]
      omega
    · rw [connectionsSince, hlost, List.drop_append_of_le_length hlength, List.forall_mem_append,
        List.forall_mem_singleton]
      use hadds
      rcases hconn with hconn | hconn
      · rwa [hconn]
      · right
        rw [hconn]
        exact List.forall_mem_nil _
  · simp only [requests, hlost, List.flatMap_append, List.length_append]
    omega

/-! ### One exchange -/

/-- The errors with which a call ends before its request is written. -/
def Refused {α : Type} (r : Except Abort α) : Prop :=
  r = .error (.failed (.jsonRpc .serializeTooLarge)) ∨ r = .error (.failed (.http .requestTooLarge))

/-- A call that has come to `c₁` sends more until `c₂`. -/
def Asks (p : Bytes → Prop) (c c₁ c₂ : SolanaRpcClient) : Prop :=
  SentSince p c c₂ ∧ c₁.requests.length < c₂.requests.length

/-- A call that has come to `c₁` ends at `c₂`: it has sent more, or it was refused. -/
def Asked {α : Type} (p : Bytes → Prop) (c c₁ : SolanaRpcClient) (r : Except Abort α)
    (c₂ : SolanaRpcClient) : Prop :=
  Asks p c c₁ c₂ ∨ SentSince p c c₂ ∧ Refused r ∧ c₂.requests = c₁.requests

theorem Asks.imp {q : Bytes → Prop} (h : Asks p c c₁ c₂) (hpq : ∀ request, p request → q request) :
  Asks q c c₁ c₂
  := by
  obtain ⟨⟨hurl, hlost, hadds⟩, hlt⟩ := h
  refine ⟨⟨hurl, hlost, ?_⟩, hlt⟩
  intro conn hconn
  apply (hadds conn hconn).imp hpq

theorem Asked.sentSince {α : Type} {r : Except Abort α} (h : Asked p c c₁ r c₂) :
  SentSince p c c₂
  := h.elim And.left And.left

theorem Asked.asks {α : Type} {r : Except Abort α} (h : Asked p c c₁ r c₂) (hr : ¬Refused r) :
  Asks p c c₁ c₂
  := h.resolve_right fun hrefused => hr hrefused.2.1

theorem Asked.length_le {α : Type} {r : Except Abort α} (h : Asked p c c₁ r c₂) :
  c₁.requests.length ≤ c₂.requests.length
  := by
  rcases h with h | ⟨-, -, h⟩
  · exact h.2.le
  · rw [h]

/-- A request is pushed, and the connection is pumped. -/
theorem asks_of_pumped {request : Bytes} (h : SentSince p c c₁) (hp : p request)
    (hurl : c₂.url = c₁.url) (hlost : c₂.lost = c₁.lost)
    (hconn : PumpedSince (c₁.conn.txPush request) c₂.conn) :
  Asks p c c₁ c₂
  := by
  have hkeeps : Keeps p c₁ c₂ :=
    { url := hurl, lost := hlost, conn := (continues_txPush hp).trans hconn.continues }
  use h.keeps hkeeps
  simp only [requests, hlost, List.flatMap_append, List.flatMap_singleton, hconn.requests,
    requestsIn_txPush, List.length_append, List.length_singleton]
  omega

/-- An exchange sends its request, unless it is refused. -/
theorem exchange_asked {req : Bytes} {start : UInt64} (h : SentSince p c c₁)
    (hreq : req.length < 10 ^ 20) (hp : p (postText c₁.url req)) :
  (exchange phr b req start c₁ turns).Holds (Asks p c c₁) fun r _ => Asked p c c₁ r.1 r.2
  := by
  rw [exchange]
  cases hwrite : writeRequest c₁.conn (asBytes "POST") (urlPath c₁.url) (urlHost c₁.url)
      (asBytes "application/json") req with
  | error stop =>
    right
    obtain rfl := writeRequest_error hreq hwrite
    exact ⟨h, .inr rfl, rfl⟩
  | ok conn =>
    obtain rfl : conn = c₁.conn.txPush (postText c₁.url req) := writeRequest_ok hreq hwrite
    apply (readResponse_keeps Connection.keeps_pumpedSince Connection.PumpedSince.refl).andThen
    · intro client hclient
      exact asks_of_pumped h hp rfl rfl hclient
    · rintro ⟨result, client⟩ rest hends
      have hpumped : Connection.PumpedSince (c₁.conn.txPush (postText c₁.url req)) client.port :=
        hends.cases.elim And.right And.right
      have hasks := @asks_of_pumped c c₁ { c₁ with scratch := client.scratch, conn := client.port }
        p _ h hp rfl rfl hpumped
      cases result with
      | error stop => exact .inl hasks
      | ok reply =>
        simp only
        split
        · exact .inl hasks
        · exact .inl hasks

/-! ### Calls -/

/-- The text of a request of a call of the method with the parameters, on a connection to the
URL. -/
def CallText (url : UrlParts) (method params request : Bytes) : Prop :=
  ∃ id, request = postText url (requestText id method params)

theorem sendAndRecv_asked {start : UInt64} (h : SentSince (CallText c.url method params) c c₁) :
  (sendAndRecv phr b method params start c₁ turns).Holds (Asks (CallText c.url method params) c c₁)
    fun r _ => Asked (CallText c.url method params) c c₁ r.1 r.2
  := by
  have hnext : SentSince (CallText c.url method params) c { c₁ with nextId := c₁.nextId + 1 } :=
    h.keeps { url := rfl, lost := rfl, conn := .refl }
  rcases Nat.lt_or_ge requestBufSz (requestText c₁.nextId method params).length with hlt | hle
  · rw [sendAndRecv, serializeRequest_of_lt (by rwa [List.length_replicate])]
    exact .inr ⟨hnext, .inl rfl, rfl⟩
  · rw [sendAndRecv_eq hle]
    have hreq : (requestText c₁.nextId method params).length < 10 ^ 20 := by
      rw [requestBufSz] at hle
      omega
    apply exchange_asked hnext hreq ⟨c₁.nextId, by rw [h.url]⟩

/-- The loop of `wait_ready` only pumps the connection. -/
theorem waitReady_pumped {start : UInt64} :
  (waitReady b start c turns).Holds
    (fun c' => c'.url = c.url ∧ c'.lost = c.lost ∧ PumpedSince c.conn c'.conn)
    fun r _ => r.2.url = c.url ∧ r.2.lost = c.lost ∧ PumpedSince c.conn r.2.conn
  := by
  have hturn (t : Pass) (conn : Connection) (h : PumpedSince c.conn conn) :
      (readyTurn b c.timeoutNs start t conn).Holds (PumpedSince c.conn) fun r =>
        PumpedSince c.conn r.2 := by
    have hpumped := h.pump (a := t.pump)
    rw [readyTurn]
    simp only
    split
    · apply hpumped
    · split
      · apply hpumped
      · split
        · exact hpumped
        · split <;> exact hpumped
  apply (Turns.run_keeps hturn Connection.PumpedSince.refl).andThen
  · intro conn hconn
    exact ⟨rfl, rfl, hconn⟩
  · intro r rest hr
    exact ⟨rfl, rfl, hr⟩

/-- A reconnect sends nothing. -/
theorem reconnect_sentSince {a : FdRpcIo.ConnectAnswers} {start : UInt64} (h : SentSince p c c₁) :
  (reconnect b a start c₁ turns).Holds
    (fun c' => SentSince p c c' ∧ c₁.requests.length ≤ c'.requests.length)
    fun r _ => SentSince p c r.2 ∧ c₁.requests.length ≤ r.2.requests.length
  := by
  rw [reconnect]
  simp only
  split
  · exact h.lose rfl rfl (.inl rfl)
  case h_2 conn hconnect =>
    have hfresh := Connection.fresh_of_connect hconnect
    have hlose (c' : SolanaRpcClient) (hc : c'.url = c₁.url ∧ c'.lost = c₁.lost ++ [c₁.conn]
        ∧ PumpedSince conn c'.conn) :
        SentSince p c c' ∧ c₁.requests.length ≤ c'.requests.length := by
      obtain ⟨hurl, hlost, hpumped⟩ := hc
      apply h.lose hurl hlost
      right
      rw [hpumped.requests, hfresh.events]
      rfl
    apply waitReady_pumped.mono
    · apply hlose
    · intro r _
      apply hlose r.2

/-- An attempt of `call`. -/
theorem attempt_asked {x : Readings} (h : SentSince (CallText c.url method params) c c₁) :
  (attempt phr b method params x c₁ turns).Holds (Asks (CallText c.url method params) c c₁)
    fun r _ => Asked (CallText c.url method params) c c₁ r.1 r.2
  := by
  apply (sendAndRecv_asked h).andThen
  · exact fun _ => id
  rintro ⟨result, c₂⟩ rest hasked
  simp only
  split
  case isFalse => exact hasked
  case isTrue hclosed =>
    obtain ⟨hsince, hlt⟩ := hasked.asks (by rw [hclosed]; simp [Refused])
    apply (reconnect_sentSince hsince).andThen
    · intro c₃ h₃
      exact ⟨h₃.1, hlt.trans_le h₃.2⟩
    · rintro ⟨result, c₃⟩ rest ⟨hsince₃, hle⟩
      cases result with
      | error e => exact .inl ⟨hsince₃, hlt.trans_le hle⟩
      | ok u =>
        apply (sendAndRecv_asked hsince₃).mono
        · intro c₄ h₄
          exact ⟨h₄.1, (hlt.trans_le hle).trans h₄.2⟩
        · intro r _ hr
          exact .inl ⟨hr.sentSince, (hlt.trans_le hle).trans_le hr.length_le⟩

/-- One pass of the loop of `call`. -/
theorem callPass_asked {x : Readings}
    {next : Option (SolanaRpcClient → List Pass → Exec JsonScan)}
    (hnext : ∀ again ∈ next, ∀ c₁ turns, SentSince (CallText c.url method params) c c₁ →
      (again c₁ turns).Holds (Asks (CallText c.url method params) c c₁)
        fun r _ => Asked (CallText c.url method params) c c₁ r.1 r.2)
    (h : SentSince (CallText c.url method params) c c₁) :
  (callPass phr b method params x next c₁ turns).Holds (Asks (CallText c.url method params) c c₁)
    fun r _ => Asked (CallText c.url method params) c c₁ r.1 r.2
  := by
  apply (attempt_asked h).andThen
  · exact fun _ => id
  rintro ⟨result, c₂⟩ rest hasked
  have herror (e : Abort) (he : Asked (CallText c.url method params) c c₁
      (.error e : Except Abort (Nat × Nat)) c₂) :
      Asked (CallText c.url method params) c c₁ (.error e : Except Abort JsonScan) c₂ := by
    rcases he with hasks | ⟨hsince, hrefused, hsame⟩
    · exact .inl hasks
    · exact .inr ⟨hsince, by simpa [Refused] using hrefused, hsame⟩
  cases result with
  | ok reply => exact .inl (hasked.asks (by simp [Refused]))
  | error e =>
    cases next with
    | none => exact herror e hasked
    | some again =>
      simp only
      split
      case isFalse => exact herror e hasked
      case isTrue h429 =>
        obtain ⟨hsince, hlt⟩ := hasked.asks (by rw [h429]; simp [Refused])
        apply (hnext again rfl c₂ rest hsince).mono
        · intro c₃ h₃
          exact ⟨h₃.1, hlt.trans h₃.2⟩
        · intro r _ hr
          exact .inl ⟨hr.sentSince, hlt.trans_le hr.length_le⟩

theorem callFrom_asked {x : Nat → Readings} (left : Nat) :
  ∀ (i : Nat) (c₁ : SolanaRpcClient) (turns : List Pass),
    SentSince (CallText c.url method params) c c₁ →
      (callFrom phr b method params x left i c₁ turns).Holds
        (Asks (CallText c.url method params) c c₁)
        fun r _ => Asked (CallText c.url method params) c c₁ r.1 r.2
  := by
  induction left with
  | zero =>
    intro i c₁ turns h
    apply callPass_asked _ h
    simp
  | succ left ih =>
    intro i c₁ turns h
    apply callPass_asked _ h
    rintro again ⟨⟩
    apply ih (i + 1)

/-- A call sends its own request only, at least once unless it is refused. -/
theorem call_asked {x : Nat → Readings} :
  (call phr b method params x c turns).Holds (Asks (CallText c.url method params) c c)
    fun r _ => Asked (CallText c.url method params) c c r.1 r.2
  := by
  unfold call
  apply callFrom_asked maxRetries429 0 c turns .refl

end SolanaRpcClient

end FdRpc

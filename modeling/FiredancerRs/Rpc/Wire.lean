import FiredancerRs.Lib.Stream
import FiredancerRs.Rpc.AllOrNothing
import FiredancerRs.Rpc.Ids

/-!
# Requests on the wire

The bytes of a connection as a server reads them, one request after another (`readRequest`). What a
client pushes leaves the TX ring in order, whatever the pumps move at a time and whichever of its
operations end before their request has gone out. So a server reads the requests of a client as they
were made, in the order of their ids, and never anything else: of the bytes that have come, those
requests that have come whole (`requests_framed`). The ids are those that are sent as long as the
history takes fewer than `2 ^ 64`.
-/

open FdEd25519

namespace FdRpc

open Http

/-! ### The server -/

namespace Http

/-- A request as a server reads it. -/
structure HttpRequest where
  requestLine : Bytes
  headers : List Bytes
  body : Bytes
deriving DecidableEq

/-- The length of the body, in the line of a header that says it. -/
def bodyLength (line : Bytes) : Option Nat :=
  let digits := line.drop (asBytes "Content-Length: ").length
  if (asBytes "Content-Length: ").isPrefixOf line ∧ digits ≠ [] ∧ digits.all Ascii.isDigit then
    some (Decimal.value digits)
  else
    none

/-- What follows a header block. Without a length there is no body. -/
def readPosted (requestLine : Bytes) (headers : List Bytes) : Decoder UInt8 HttpRequest := do
  let body ← Decoder.take ((headers.findSome? bodyLength).getD 0)
  pure { requestLine := requestLine, headers := headers, body := body }

/-- What follows the lines of a header block. -/
def readAfterHeader : List Bytes → Decoder UInt8 HttpRequest
  | [] => Decoder.fail
  | requestLine :: headers => readPosted requestLine headers

/-- The next request: a header block, and a body as long as one of its lines says. -/
def readRequest : Decoder UInt8 HttpRequest := do
  let lines ← (Lines.readBlock : Decoder UInt8 (List Bytes))
  readAfterHeader lines

/-- The requests in some bytes, and the bytes that are left. -/
def readRequests (bytes : Bytes) : List HttpRequest × Bytes :=
  Decoder.readAll readRequest bytes.length bytes

theorem readRequest_stable :
  readRequest.Stable
  := by
  apply Decoder.Stable.bind
  · intro bytes lines after more h
    apply Lines.readFrom_append_more more h
  · intro lines
    cases lines with
    | nil => exact Decoder.Stable.fail
    | cons requestLine headers =>
      apply Decoder.Stable.bind (Decoder.Stable.take _)
      intro body
      apply Decoder.Stable.pure

/-- The numeral of the length is read as the length. -/
theorem bodyLength_render (n : Nat) :
  bodyLength (asBytes "Content-Length: " ++ Decimal.render n) = some n
  := by
  have hstarts : (asBytes "Content-Length: ").isPrefixOf
      (asBytes "Content-Length: " ++ Decimal.render n) = true :=
    List.isPrefixOf_iff_prefix.mpr (List.prefix_append _ _)
  have hdigits : (Decimal.render n).all Ascii.isDigit = true :=
    List.all_eq_true.mpr fun _ => Decimal.isDigit_of_mem_render
  rw [bodyLength, List.drop_left, if_pos ⟨hstarts, Decimal.render_ne_nil n, hdigits⟩,
    Decimal.value_render]

/-- A line that begins in another way does not say the length. -/
theorem bodyLength_append {name value : Bytes} (hlen : name.length ≤ 16)
    (hname : ¬name <+: asBytes "Content-Length: ") :
  bodyLength (name ++ value) = none
  := by
  apply if_neg
  rintro ⟨hstarts, -⟩
  apply hname
  apply List.prefix_of_prefix_length_le (List.prefix_append name value)
    (List.isPrefixOf_iff_prefix.mp hstarts)
  apply hlen.trans
  decide

end Http

namespace SolanaRpcClient

variable {url : UrlParts} {body : Bytes}

/-- The request of a body, as a server reads it. -/
def posted (url : UrlParts) (body : Bytes) : HttpRequest where
  requestLine := asBytes "POST" ++ asBytes " " ++ urlPath url ++ asBytes " HTTP/1.1"
  headers := [asBytes "Host: " ++ urlHost url,
    asBytes "Content-Type: " ++ asBytes "application/json",
    asBytes "Content-Length: " ++ Decimal.render body.length, asBytes "Connection: keep-alive"]
  body := body

/-- There is no carriage return in what a URL brings into its requests. -/
def Plain (url : UrlParts) : Prop :=
  Ascii.carriageReturn ∉ urlPath url ∧ Ascii.carriageReturn ∉ urlHost url

/-- The text of a request is read as the request, whatever follows. -/
theorem readRequest_postText (h : Plain url) :
  readRequest.Reads (postText url body) (posted url body)
  := by
  have htexts : ∀ text ∈ [asBytes "POST", urlPath url, urlHost url, asBytes "application/json"],
      Ascii.carriageReturn ∉ text := by
    simp only [List.forall_mem_cons]
    exact ⟨by decide, h.1, h.2, by decide, List.forall_mem_nil _⟩
  rw [postText, httpRequest, flatten_requestHeaderParts]
  apply Decoder.Reads.bind
  · intro rest
    apply Lines.readBlock_block (requestLines_readable htexts)
  · have hlength : (posted url body).headers.findSome? bodyLength = some body.length := by
      have hhost : bodyLength (asBytes "Host: " ++ urlHost url) = none :=
        bodyLength_append (by decide) (by decide)
      have htype : bodyLength (asBytes "Content-Type: " ++ asBytes "application/json") = none :=
        bodyLength_append (by decide) (by decide)
      simp only [posted, List.findSome?_cons, hhost, htype, bodyLength_render]
    have hbody : (readPosted (posted url body).requestLine (posted url body).headers).Reads body
        (posted url body) := by
      rw [readPosted, hlength]
      apply Decoder.Reads.bind_pure (Decoder.Reads.take rfl)
      apply Decoder.Reads.pure
    exact hbody

/-- A server that has got a part of the requests has read those that have come whole, and has the
beginning of the next. -/
theorem readRequests_part {bodies : List Bytes} {part : Bytes} (h : Plain url)
    (hpart : part <+: (bodies.map (postText url)).flatten) :
  ∃ k ≤ bodies.length, (readRequests part).1 = (bodies.take k).map (posted url)
    ∧ ((bodies.take k).map (postText url)).flatten ++ (readRequests part).2 = part
    ∧ ∀ j ≤ bodies.length, ((bodies.take j).map (postText url)).flatten <+: part → j ≤ k
  := by
  have hreads : List.Forall₂ readRequest.Reads (bodies.map (postText url))
      (bodies.map (posted url)) := by
    rw [List.forall₂_map_left_iff, List.forall₂_map_right_iff]
    apply List.forall₂_same.mpr
    intro body _
    apply readRequest_postText h
  obtain ⟨k, hk, hread⟩ := Decoder.readAll_whole readRequest_stable hreads rfl hpart
    (Nat.le_refl part.length)
  simp only [List.length_map, ← List.map_take] at hk hread
  exact ⟨k, hk, hread⟩

end SolanaRpcClient

/-! ### What leaves the TX ring -/

namespace Connection

variable {conn : Connection}

/-- The bytes have left the TX ring: what is left there follows them in the requests that were
pushed. -/
def Sent (conn : Connection) (sent : Bytes) : Prop :=
  sent ++ conn.io.rbufTx.bytes = (requestsIn conn.events).flatten

/-- Some of the bytes of the requests have left the TX ring, and the others are there. -/
def InOrder (conn : Connection) : Prop := ∃ sent, conn.Sent sent

/-- A pump takes bytes from the front of the TX ring. -/
theorem pump_tx (a : FdRpcIo.PumpAnswers) (io : FdRpcIo.Io) :
  (FdRpcIo.pump a io).io.rbufTx.bytes <:+ io.rbufTx.bytes
  := by
  have hend := FdRpcIo.pump_end a io
  generalize FdRpcIo.pump a io = outcome at hend
  cases hend with
  | tlsMoved | plainTxFailed | plainMoved => apply List.drop_suffix
  | _ => apply List.suffix_rfl

theorem InOrder.pump (h : conn.InOrder) (a : FdRpcIo.PumpAnswers) :
  (conn.pump a).2.InOrder
  := by
  obtain ⟨sent, hsent⟩ := h
  obtain ⟨popped, hpopped⟩ := pump_tx a conn.io
  obtain ⟨bytes, hevents, -⟩ := @events_pump conn a
  use sent ++ popped
  rw [Sent, hevents, requestsIn_append, requestsIn_pumped, requestsIn_nil, List.append_nil, ← hsent,
    ← hpopped, List.append_assoc]
  rfl

theorem InOrder.txPush (h : conn.InOrder) (request : Bytes) :
  (conn.txPush request).InOrder
  := by
  obtain ⟨sent, hsent⟩ := h
  use sent
  rw [Sent, requestsIn_txPush, List.flatten_append, List.flatten_singleton, ← hsent,
    List.append_assoc]
  rfl

theorem Fresh.inOrder (h : conn.Fresh) :
  conn.InOrder
  := by
  use []
  rw [Sent, h.events, h.tx]
  rfl

theorem keeps_inOrder :
  port.Keeps InOrder InOrder
  where
  setRx _ _ h := h
  pump a _ h _ := h.pump a
  pump_failed a _ h _ := h.pump a

end Connection

namespace SolanaRpcClient

variable {δ : Type} {phr : Phr δ} {b : Build} {c : SolanaRpcClient} {turns : List Pass}
variable {url : UrlParts}

/-- The requests have left the TX rings in order, on every connection of a client for the URL. -/
structure Carries (url : UrlParts) (c : SolanaRpcClient) : Prop where
  url : c.url = url
  lost : ∀ conn ∈ c.lost, conn.InOrder
  conn : c.conn.InOrder

theorem exchange_carries {req : Bytes} {start : UInt64} (h : Carries url c) :
  (exchange phr b req start c turns).Holds (Carries url) fun r _ => Carries url r.2
  := by
  rw [exchange]
  obtain ⟨stop, -, hwrite⟩ | ⟨request, hwrite⟩ := writeRequest_cases c.conn (asBytes "POST")
    (urlPath c.url) (urlHost c.url) (asBytes "application/json") req
  · rw [hwrite]
    exact h
  · rw [hwrite]
    apply (readResponse_keeps Connection.keeps_inOrder (h.conn.txPush request)).andThen
    · intro client hclient
      exact { url := h.url, lost := h.lost, conn := hclient }
    · rintro ⟨result, client⟩ rest hends
      have hclient : client.port.InOrder := hends.cases.elim And.right And.right
      cases result with
      | error stop => exact { url := h.url, lost := h.lost, conn := hclient }
      | ok reply =>
        simp only
        split
        · exact { url := h.url, lost := h.lost, conn := hclient }
        · exact { url := h.url, lost := h.lost, conn := hclient }

theorem waitReady_carries {start : UInt64} (h : Carries url c) :
  (waitReady b start c turns).Holds (Carries url) fun r _ => Carries url r.2
  := by
  have hturn (t : Pass) (conn : Connection) (hconn : conn.InOrder) :
      (readyTurn b c.timeoutNs start t conn).Holds Connection.InOrder fun r => r.2.InOrder := by
    have hpumped := hconn.pump t.pump
    rw [readyTurn]
    simp only
    split
    · apply hpumped
    · split
      · apply hpumped
      · split
        · exact hpumped
        · split <;> exact hpumped
  apply (Turns.run_keeps hturn h.conn).andThen
  · intro conn hconn
    exact { url := h.url, lost := h.lost, conn := hconn }
  · intro r rest hconn
    exact { url := h.url, lost := h.lost, conn := hconn }

theorem reconnect_carries {a : FdRpcIo.ConnectAnswers} {start : UInt64} (h : Carries url c) :
  (reconnect b a start c turns).Holds (Carries url) fun r _ => Carries url r.2
  := by
  have hlost : ∀ conn ∈ c.lost ++ [c.conn], conn.InOrder := by
    rw [List.forall_mem_append, List.forall_mem_singleton]
    exact ⟨h.lost, h.conn⟩
  rw [reconnect]
  simp only
  split
  · exact { url := h.url, lost := hlost, conn := h.conn }
  case h_2 conn hconnect =>
    apply waitReady_carries
    exact { url := h.url, lost := hlost, conn := (Connection.fresh_of_connect hconnect).inOrder }

theorem kept_carries :
  Kept phr b (Carries url) (Carries url)
  where
  nextId _ _ h := { h with }
  setTimeoutNs _ _ h := { h with }
  exchange _ _ _ _ _ h := exchange_carries h
  reconnect _ _ _ _ h := reconnect_carries h

/-- A client that has connected has sent nothing but what it pushed. -/
theorem connected_carries (h : Connected b c) :
  Carries c.url c
  := by
  obtain ⟨c₀, start, turns, rest, hfresh, -, hlost, hwait⟩ := h.waitReady
  have hcarries : Carries c₀.url c₀ := by
    constructor
    · rfl
    · rw [hlost]
      exact List.forall_mem_nil _
    · exact hfresh.inOrder
  have hready := @waitReady_carries b c₀ turns c₀.url start hcarries
  rw [hwait] at hready
  rwa [← hready.url] at hready

theorem reached_carries {c₀ : SolanaRpcClient} (hconnected : Connected b c₀)
    (h : Relation.ReflTransGen (Step phr b) c₀ c) :
  Carries c₀.url c
  := by
  induction h with
  | refl => apply connected_carries hconnected
  | tail _ hstep ih =>
    obtain ⟨op, turns, result, rest, hexec⟩ := hstep
    have hnext := @Kept.exec _ phr b _ _ _ turns kept_carries op ih
    rwa [hexec] at hnext

/-! ### What the server reads -/

/-- A server reads the requests that were made on the connection, of which the ids increase and are
not above `n`. Of the bytes that have come it has read those requests that have come whole, and has
the beginning of the next. -/
def Framed (url : UrlParts) (n : Nat) (conn : Connection) : Prop :=
  ∃ (ids : List Nat) (bodies : List Bytes) (sent : Bytes), conn.Sent sent
    ∧ requestsIn conn.events = bodies.map (postText url)
    ∧ Numbers url ids (bodies.map (postText url)) ∧ ids.Pairwise (· < ·) ∧ (∀ id ∈ ids, id ≤ n)
    ∧ ∀ part, part <+: sent →
      ∃ k ≤ bodies.length, (readRequests part).1 = (bodies.take k).map (posted url)
        ∧ ((bodies.take k).map (postText url)).flatten ++ (readRequests part).2 = part
        ∧ ∀ j ≤ bodies.length, ((bodies.take j).map (postText url)).flatten <+: part → j ≤ k

/-- Requests with ids are the texts of bodies. -/
theorem Numbers.bodies {ids : List Nat} {requests : List Bytes} (h : Numbers url ids requests) :
  ∃ bodies : List Bytes, requests = bodies.map (postText url)
  := by
  induction h with
  | nil => exact ⟨[], rfl⟩
  | call id method params _ ih =>
    obtain ⟨bodies, rfl⟩ := ih
    use bodies ++ [requestText (UInt64.ofNat id) method params]
    rw [List.map_append, List.map_singleton]
  | batch id entries _ ih =>
    obtain ⟨bodies, rfl⟩ := ih
    use bodies ++ [asBytes "[" ++ (entriesText (UInt64.ofNat id) 0 entries ++ asBytes "]")]
    rw [List.map_append, List.map_singleton]

theorem framed_of_numbers {conn : Connection} {ids : List Nat} {n : Nat} (hplain : Plain url)
    (hnumbers : Numbers url ids (requestsIn conn.events)) (hincreasing : ids.Pairwise (· < ·))
    (hbound : ∀ id ∈ ids, id ≤ n) (horder : conn.InOrder) :
  Framed url n conn
  := by
  obtain ⟨bodies, hbodies⟩ := hnumbers.bodies
  obtain ⟨sent, hsent⟩ := horder
  rw [hbodies] at hnumbers
  refine ⟨ids, bodies, sent, hsent, hbodies, hnumbers, hincreasing, hbound, ?_⟩
  intro part hpart
  apply readRequests_part hplain
  rw [← hbodies, ← hsent]
  apply hpart.trans (List.prefix_append _ _)

/-- What is on the right has something on the left. -/
theorem exists_mem_left {α β : Type} {r : α → β → Prop} {l : List α} {l' : List β}
    (h : List.Forall₂ r l l') :
  ∀ y ∈ l', ∃ x ∈ l, r x y
  := by
  induction h with
  | nil => exact List.forall_mem_nil _
  | cons hr _ ih =>
    rw [List.forall_mem_cons]
    use ⟨_, List.mem_cons_self, hr⟩
    intro y hy
    obtain ⟨x, hx, hxy⟩ := ih y hy
    exact ⟨x, List.mem_cons_of_mem _ hx, hxy⟩

/-- A server reads the requests of a client that has counted its ids. -/
theorem framed_of_counted {n : Nat} (hplain : Plain url) (hcarries : Carries url c)
    (h : CountedTo (n + 1) c) :
  ∀ conn ∈ c.lost ++ [c.conn], Framed url n conn
  := by
  obtain ⟨m, hle, -, lostIds, ids, hnumbering⟩ := h
  obtain ⟨rfl, hlost, hconn⟩ := hcarries
  have horder : ∀ conn ∈ c.lost ++ [c.conn], conn.InOrder := by
    rw [List.forall_mem_append, List.forall_mem_singleton]
    exact ⟨hlost, hconn⟩
  have hall : List.Forall₂ (fun ids conn => Numbers c.url ids (requestsIn conn.events))
      (lostIds ++ [ids]) (c.lost ++ [c.conn]) :=
    List.rel_append hnumbering.lost (.cons hnumbering.conn .nil)
  intro conn hmem
  obtain ⟨l, hl, hnumbers⟩ := exists_mem_left hall conn hmem
  apply framed_of_numbers hplain hnumbers (hnumbering.increasing l hl) _ (horder conn hmem)
  intro id hid
  apply Nat.le_of_lt_succ ((hnumbering.bound l hl id hid).trans_le hle)

/-- In any history, a server reads on each connection the requests of the client, in the order of
their ids and never anything else, whichever operations ended before their request had gone out. -/
theorem requests_framed {c₀ : SolanaRpcClient} {taken : Nat} (hconnected : Connected b c₀)
    (hplain : Plain c₀.url) (h : TakesIds phr b c₀ taken c) (op : Op) (turns : List Pass) :
  (op.exec phr b c turns).Holds
    (fun c' => ∀ conn ∈ c'.lost ++ [c'.conn], Framed c₀.url (taken + op.mostIds) conn)
    fun r _ => ∀ conn ∈ r.2.lost ++ [r.2.conn], Framed c₀.url (taken + op.mostIds) conn
  := by
  have hcarries : (op.exec phr b c turns).Holds (Carries c₀.url) fun r _ => Carries c₀.url r.2 :=
    kept_carries.exec op (reached_carries hconnected h.reflTransGen)
  apply ((h.exec_counted hconnected op turns).and hcarries).mono
  · rintro c' ⟨hcounted, hc'⟩
    apply framed_of_counted hplain hc' hcounted
  · rintro r _ ⟨hcounted, hr⟩
    apply framed_of_counted hplain hr hcounted

/-- The client after two calls: 220 bytes have been sent, the first request and a part of the
second. -/
def partClient : SolanaRpcClient := cut cutClient 200

set_option maxRecDepth 10000 in
theorem takesIds_partClient :
  TakesIds replyPhr checkedBuild plainClient 24 partClient
  := by
  apply takesIds_cutClient.tail healthCall
  apply healthCall_cut rfl rfl <;> decide

set_option maxRecDepth 20000 in
/-- The third call loses the connection. The server has read the first of the requests that were
pushed, and has 56 bytes of the second. -/
theorem requests_framed_partClient :
  let e := healthCall.exec replyPhr checkedBuild partClient [closedTurn, partTurn 0]
  (e.client.lost.map (fun conn => (requestsIn conn.events).length) = [3]
    ∧ e.client.lost.map (fun conn =>
      let pushed := (requestsIn conn.events).flatten
      let read := readRequests (pushed.take (pushed.length - conn.io.rbufTx.bytes.length))
      (read.1.length, read.2.length)) = [(1, 56)])
    ∧ ∀ conn ∈ e.client.lost ++ [e.client.conn], Framed plainUrl 36 conn
  := by
  have hframed := requests_framed connected_plainClient ⟨by decide, by decide⟩ takesIds_partClient
    healthCall [closedTurn, partTurn 0]
  use by with_unfolding_all decide
  apply @Exec.holds_client _ _
    (fun c => ∀ conn ∈ c.lost ++ [c.conn], Framed plainUrl 36 conn) hframed

end SolanaRpcClient

end FdRpc

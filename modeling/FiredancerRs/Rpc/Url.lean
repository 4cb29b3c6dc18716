import FiredancerRs.Rpc.RequestText
import FiredancerRs.Rpc.Requests

/-!
# The URL of a client

`SolanaRpcClient::connect` from the URL on. `fd_url_parse_cstr` is not part of the repository and
`resolve_host` asks the resolver of the system for an address: they are parameters, and the parts of
a URL are those that the first one gives. A
client sends all its requests to the URL that it was given exactly when the tail and the host of the
URL have at most 255 bytes and its port, if it has one, is below `2 ^ 16` (`sendsTo_iff`).
-/

open FdEd25519

namespace FdRpc

open Http SolanaRpcClient

/-- `fd_url_t` -/
structure FdUrl where
  scheme : Bytes
  host : Bytes
  port : Bytes
  tail : Bytes

/-- `str::parse::<u16>` -/
def parseU16 (text : List Char) : Option UInt16 :=
  let digits := skipPlus text
  if digits = [] ∨ digits.all Char.isDigit = false then
    none
  else if Http.digitsValue digits < 2 ^ 16 then
    some (.ofNat (Http.digitsValue digits))
  else
    none

namespace FdUrl

variable (u : FdUrl)

/-- `scheme.len() >= 5 && scheme[..5].eq_ignore_ascii_case(b"https")` -/
def useTls : Bool := 5 ≤ u.scheme.length && eqIgnoreAsciiCase (u.scheme.take 5) (asBytes "https")

/-- `if use_tls { 443 } else { 80 }` -/
def defaultPort : UInt16 := if u.useTls then 443 else 80

/-- The port that a client connects to. -/
def clientPort : UInt16 :=
  if 0 < u.port.length then
    match decodeUtf8 u.port with
    | some s => (parseU16 s).getD u.defaultPort
    | none => 0
  else
    u.defaultPort

/-- The path of a URL, which is `/` when its tail is empty. -/
def path : Bytes := if 0 < u.tail.length then u.tail else asBytes "/"

/-- The parts of a URL, cut off at 255 bytes. -/
def urlParts : UrlParts where
  host := u.host.take 255
  port := u.clientPort
  path := if 0 < u.tail.length then u.tail.take 255 else asBytes "/"
  useTls := u.useTls
  length_host := by
    rw [List.length_take]
    apply Nat.min_le_left
  length_path := by
    split
    · rw [List.length_take]
      apply Nat.min_le_left
    · decide

end FdUrl

/-- `SolanaRpcClient::connect` -/
def SolanaRpcClient.connectUrl (b : Build) (parse : Bytes → Option FdUrl)
    (resolveHost : Bytes → Option UInt32) (a : FdRpcIo.ConnectAnswers) (start : UInt64)
    (urlStr : Bytes) (turns : List Pass) :
    Turns.Ended Pass SolanaRpcClient (Except Abort SolanaRpcClient) :=
  match parse urlStr with
  | none => .done (.error (.failed (.badResponse "invalid URL"))) turns
  | some u =>
    match resolveHost ((fromUtf8 u.urlParts.host).getD []) with
    | none => .done (.error (.failed (.badResponse "DNS resolution failed"))) turns
    | some addr =>
      (connect b a start u.urlParts addr turns).andThen id fun (result, c) rest =>
        .done (result.map fun _ => c) rest

/-! ### Requests to a URL -/

/-- A port is a decimal number. -/
def PortNumber (port : Bytes) (n : Nat) : Prop :=
  ∃ text, decodeUtf8 port = some text ∧ skipPlus text ≠ [] ∧ (skipPlus text).all Char.isDigit = true
    ∧ Http.digitsValue (skipPlus text) = n

/-- The parts that a client holds are the path, the host and the port of a URL. -/
structure FdUrl.Held (u : FdUrl) (url : UrlParts) : Prop where
  path : urlPath url = u.path
  host : urlHost url = u.host
  port : if u.port = [] then url.port = u.defaultPort else PortNumber u.port url.port.toNat

/-- A client holds the URL, and all its requests name the path and the host of it. -/
structure FdUrl.Addressed (u : FdUrl) (c : SolanaRpcClient) : Prop where
  held : u.Held c.url
  requests : ∀ request ∈ c.requests, ∃ body, request
    = httpRequest (asBytes "POST") u.path u.host (asBytes "application/json") body

/-- In every history from a client on, all requests go to the URL. -/
def SendsTo {δ : Type} (phr : Phr δ) (b : Build) (u : FdUrl) (c₀ : SolanaRpcClient) : Prop :=
  ∀ c, Relation.ReflTransGen (Step phr b) c₀ c → ∀ (op : Op) (turns : List Pass),
    (op.exec phr b c turns).Holds u.Addressed fun r _ => u.Addressed r.2

/-- The tail and the host of a URL are strings of at most 255 bytes, and its port is that of a
socket. -/
structure FdUrl.Fits (u : FdUrl) : Prop where
  tail : u.tail.length ≤ 255 ∧ fromUtf8 u.tail = some u.tail
  host : u.host.length ≤ 255 ∧ fromUtf8 u.host = some u.host
  port : u.port ≠ [] → ∃ n < 2 ^ 16, PortNumber u.port n

/-! ### The parts of a URL -/

variable {u : FdUrl} {url : UrlParts}

theorem fromUtf8_eq_some {bytes text : Bytes} (h : fromUtf8 bytes = some text) :
  text = bytes
  := by
  rw [fromUtf8] at h
  split at h
  · apply (Option.some.inj h).symm
  · cases h

/-- A text that is cut off at 255 bytes, or is another one when it is no string, is left as it is
exactly when it is a string of at most 255 bytes. -/
theorem getD_take_eq {bytes default : Bytes} (hdefault : fromUtf8 default = some default)
    (hlength : default.length ≤ 255) :
  (fromUtf8 (bytes.take 255)).getD default = bytes
    ↔ bytes.length ≤ 255 ∧ fromUtf8 bytes = some bytes
  := by
  constructor
  · intro h
    have hle : bytes.length ≤ 255 := by
      have hsent := length_getD_fromUtf8 (bytes.take 255) default
      rw [h, List.length_take] at hsent
      omega
    use hle
    rw [List.take_of_length_le hle] at h
    cases htext : fromUtf8 bytes with
    | none =>
      rw [htext, Option.getD_none] at h
      rw [h, htext] at hdefault
      cases hdefault
    | some text => rw [fromUtf8_eq_some htext]
  · rintro ⟨hle, htext⟩
    rw [List.take_of_length_le hle, htext, Option.getD_some]

theorem urlHost_urlParts :
  urlHost u.urlParts = u.host
    ↔ u.host.length ≤ 255 ∧ fromUtf8 u.host = some u.host
  := getD_take_eq (fromUtf8_asBytes "localhost") (by decide)

theorem urlPath_urlParts :
  urlPath u.urlParts = u.path
    ↔ u.tail.length ≤ 255 ∧ fromUtf8 u.tail = some u.tail
  := by
  by_cases htail : 0 < u.tail.length
  · have hpath : urlPath u.urlParts
        = (fromUtf8 (u.tail.take 255)).getD (asBytes "/") := by
      rw [urlPath, FdUrl.urlParts]
      simp only [if_pos htail]
    rw [hpath, FdUrl.path, if_pos htail]
    apply getD_take_eq (fromUtf8_asBytes "/") (by decide)
  · have hpath : urlPath u.urlParts = asBytes "/" := by
      rw [urlPath, FdUrl.urlParts]
      simp only [if_neg htail, fromUtf8_asBytes, Option.getD_some]
    obtain hnil : u.tail = [] := List.eq_nil_of_length_eq_zero (Nat.eq_zero_of_not_pos htail)
    rw [hpath, FdUrl.path, if_neg htail, hnil]
    simp only [true_iff]
    exact ⟨Nat.zero_le _, fromUtf8_asBytes ""⟩

theorem parseU16_eq {text : List Char} {port : UInt16} :
  parseU16 text = some port
    ↔ skipPlus text ≠ [] ∧ (skipPlus text).all Char.isDigit = true
      ∧ Http.digitsValue (skipPlus text) = port.toNat
  := by
  simp only [parseU16]
  split
  case isTrue h =>
    constructor
    · rintro ⟨⟩
    · rintro ⟨hne, hdigits, -⟩
      rw [hdigits] at h
      exact absurd (h.resolve_right Bool.noConfusion) hne
  case isFalse h =>
    obtain ⟨hne, hdigits⟩ := not_or.mp h
    rw [Bool.not_eq_false] at hdigits
    split
    case isTrue hlt =>
      rw [Option.some.injEq, ← UInt16.toNat_inj, UInt16.toNat_ofNat_of_lt' hlt]
      constructor
      · intro heq
        exact ⟨hne, hdigits, heq⟩
      · rintro ⟨-, -, heq⟩
        apply heq
    case isFalse hle =>
      constructor
      · rintro ⟨⟩
      · rintro ⟨-, -, heq⟩
        rw [heq] at hle
        exact absurd port.toNat_lt hle

/-- The number of a port that is read. -/
theorem portNumber_iff {port : Bytes} {text : List Char} (h : decodeUtf8 port = some text) {n : Nat}
    (hn : n < 2 ^ 16) :
  PortNumber port n ↔ parseU16 text = some (.ofNat n)
  := by
  rw [parseU16_eq, UInt16.toNat_ofNat_of_lt' hn, PortNumber]
  constructor
  · rintro ⟨text', htext, hport⟩
    obtain rfl : text = text' := Option.some.inj (h.symm.trans htext)
    apply hport
  · intro hport
    exact ⟨text, h, hport⟩

theorem port_urlParts :
  (if u.port = [] then u.urlParts.port = u.defaultPort
      else PortNumber u.port u.urlParts.port.toNat)
    ↔ (u.port ≠ [] → ∃ n < 2 ^ 16, PortNumber u.port n)
  := by
  by_cases hport : u.port = []
  · have hlength : ¬0 < u.port.length := by simp [hport]
    simp only [hport, if_true, ne_eq, not_true_eq_false, false_implies, iff_true]
    rw [FdUrl.urlParts, FdUrl.clientPort, if_neg hlength]
  · have hlength : 0 < u.port.length := List.length_pos_of_ne_nil hport
    simp only [hport, if_false, ne_eq, not_false_eq_true, true_implies]
    constructor
    · intro h
      exact ⟨_, u.urlParts.port.toNat_lt, h⟩
    · rintro ⟨n, hn, hnumber⟩
      obtain ⟨text, htext, -⟩ := id hnumber
      have hclient : u.urlParts.port = .ofNat n := by
        rw [FdUrl.urlParts, FdUrl.clientPort, if_pos hlength]
        simp only [htext, (portNumber_iff htext hn).mp hnumber, Option.getD_some]
      rw [hclient, UInt16.toNat_ofNat_of_lt' hn]
      apply hnumber

/-- A client holds its URL when it fits, and only then. -/
theorem held_urlParts :
  u.Held u.urlParts ↔ u.Fits
  := by
  constructor
  · rintro ⟨hpath, hhost, hport⟩
    exact ⟨urlPath_urlParts.mp hpath, urlHost_urlParts.mp hhost, port_urlParts.mp hport⟩
  · rintro ⟨htail, hhost, hport⟩
    exact ⟨urlPath_urlParts.mpr htail, urlHost_urlParts.mpr hhost, port_urlParts.mpr hport⟩

/-! ### The requests of a client -/

section

variable {δ : Type} {phr : Phr δ} {b : Build} {c c' : SolanaRpcClient}

/-- The requests of a client with a URL are posted to it. -/
structure Posts (url : UrlParts) (c : SolanaRpcClient) : Prop where
  same : c.url = url
  requests : ∀ request ∈ c.requests, ∃ body, request = postText url body

theorem mem_requests {request : Bytes} :
  request ∈ c.requests
    ↔ (∃ conn ∈ c.lost, request ∈ requestsIn conn.events) ∨ request ∈ requestsIn c.conn.events
  := by
  simp only [requests, List.mem_flatMap, List.mem_append, List.mem_singleton, or_and_right,
    exists_or, exists_eq_left]

/-- A client that has sent nothing since, or one more request to the URL. -/
theorem Posts.of_requests (h : Posts url c) (hurl : c'.url = c.url)
    (hrequests : ∀ request ∈ c'.requests, request ∈ c.requests ∨ ∃ body,
      request = postText url body) :
  Posts url c'
  where
  same := hurl.trans h.same
  requests := by
    intro request hrequest
    rcases hrequests request hrequest with hold | hnew
    · apply h.requests request hold
    · apply hnew

/-- A connection on which one request is pushed. -/
theorem Posts.push (h : Posts url c) {body scratch : Bytes} {conn : Connection}
    (hconn : Connection.PumpedSince (c.conn.txPush (postText c.url body)) conn) :
  Posts url { c with scratch := scratch, conn := conn }
  := by
  apply h.of_requests
  · rfl
  · intro request hrequest
    rw [mem_requests] at hrequest
    rw [mem_requests]
    rcases hrequest with hlost | hsent
    · exact .inl (.inl hlost)
    · rw [hconn.requests, Connection.requestsIn_txPush, List.mem_append, List.mem_singleton,
        h.same] at hsent
      rcases hsent with hold | hnew
      · exact .inl (.inr hold)
      · exact .inr ⟨body, hnew⟩

/-- A connection that is lost, with the same one or a new one in its place. -/
theorem Posts.lose (h : Posts url c) (hurl : c'.url = c.url) (hlost : c'.lost = c.lost ++ [c.conn])
    (hconn : c'.conn = c.conn ∨ requestsIn c'.conn.events = []) :
  Posts url c'
  := by
  apply h.of_requests hurl
  intro request hrequest
  left
  rw [mem_requests, hlost] at hrequest
  rw [mem_requests]
  rcases hrequest with ⟨conn, hmem, hsent⟩ | hsent
  · rw [List.mem_append, List.mem_singleton] at hmem
    rcases hmem with hmem | rfl
    · exact .inl ⟨conn, hmem, hsent⟩
    · exact .inr hsent
  · rcases hconn with hsame | hnone
    · rw [hsame] at hsent
      exact .inr hsent
    · rw [hnone] at hsent
      cases hsent

theorem exchange_posts {req : Bytes} {start : UInt64} {turns : List Pass}
    (hreq : req.length < 10 ^ 20) (h : Posts url c) :
  (exchange phr b req start c turns).Holds (Posts url) fun r _ => Posts url r.2
  := by
  rw [exchange]
  cases hwrite : writeRequest c.conn (asBytes "POST") (urlPath c.url) (urlHost c.url)
      (asBytes "application/json") req with
  | error stop => exact h
  | ok conn =>
    obtain rfl : conn = c.conn.txPush (postText c.url req) := writeRequest_ok hreq hwrite
    apply (readResponse_keeps Connection.keeps_pumpedSince Connection.PumpedSince.refl).andThen
    · intro client hclient
      apply h.push hclient
    · rintro ⟨result, client⟩ rest hends
      have hposts : Posts url { c with scratch := client.scratch, conn := client.port } :=
        h.push (hends.cases.elim And.right And.right)
      cases result with
      | error stop => exact hposts
      | ok reply =>
        simp only
        split
        · apply hposts
        · exact hposts

theorem reconnect_posts {a : FdRpcIo.ConnectAnswers} {start : UInt64} {turns : List Pass}
    (h : Posts url c) :
  (reconnect b a start c turns).Holds (Posts url) fun r _ => Posts url r.2
  := by
  rw [reconnect]
  simp only
  split
  · exact h.lose rfl rfl (.inl rfl)
  case h_2 conn hconnect =>
    have hfresh := Connection.fresh_of_connect hconnect
    have hlose (c' : SolanaRpcClient) (hc : c'.url = c.url ∧ c'.lost = c.lost ++ [c.conn]
        ∧ Connection.PumpedSince conn c'.conn) :
        Posts url c' := by
      obtain ⟨hurl, hlost, hpumped⟩ := hc
      apply h.lose hurl hlost
      right
      rw [hpumped.requests, hfresh.events]
      rfl
    apply waitReady_pumped.mono
    · apply hlose
    · intro r _
      apply hlose r.2

/-- What an operation posts goes to the URL of its client. -/
theorem kept_posts :
  Kept phr b (Posts url) (Posts url)
  where
  nextId _ _ h := { same := h.same, requests := h.requests }
  setTimeoutNs _ _ h := { same := h.same, requests := h.requests }
  exchange _ _ _ _ := exchange_posts
  reconnect _ _ _ _ := reconnect_posts

theorem pumped_of_waitReady {c₀ : SolanaRpcClient} {start : UInt64} {turns rest : List Pass}
    (h : waitReady b start c₀ turns = .done (.ok (), c) rest) :
  c.url = c₀.url ∧ c.lost = c₀.lost ∧ Connection.PumpedSince c₀.conn c.conn
  := by
  have hready := @waitReady_pumped b c₀ turns start
  rw [h] at hready
  apply hready

/-- A client that has connected has sent nothing, and holds the parts of its URL. -/
theorem posts_of_connect {a : FdRpcIo.ConnectAnswers} {start : UInt64} {addr : UInt32}
    {turns rest : List Pass} (h : connect b a start url addr turns = .done (.ok (), c) rest) :
  Posts url c
  := by
  rw [connect] at h
  simp only at h
  split at h
  · cases h
  case h_2 hok =>
    have hfresh := Connection.fresh_of_connect (Prod.ext hok rfl)
    obtain ⟨hurl, hlost, hpumped⟩ := pumped_of_waitReady h
    use hurl
    intro request hrequest
    simp only [requests, hlost, List.nil_append, List.flatMap_singleton, hpumped.requests,
      hfresh.events] at hrequest
    cases hrequest

variable {parse : Bytes → Option FdUrl} {resolveHost : Bytes → Option UInt32}
variable {a : FdRpcIo.ConnectAnswers} {start : UInt64} {urlStr : Bytes} {turns rest : List Pass}

theorem posts_of_connectUrl (hu : parse urlStr = some u)
    (h : connectUrl b parse resolveHost a start urlStr turns = .done (.ok c) rest) :
  Posts u.urlParts c
  := by
  rw [connectUrl, hu] at h
  simp only at h
  split at h
  · cases h
  · next addr _ =>
    cases hconnect : connect b a start u.urlParts addr turns with
    | waiting c' =>
      rw [hconnect] at h
      cases h
    | done r rest' =>
      obtain ⟨result, c'⟩ := r
      rw [hconnect] at h
      cases result with
      | error e => cases h
      | ok v =>
        cases h
        apply posts_of_connect hconnect

/-- A client that posts its requests to the parts of a URL that fits sends them to the URL. -/
theorem FdUrl.Fits.addressed (h : u.Fits) (hposts : Posts u.urlParts c) :
  u.Addressed c
  := by
  have hheld := held_urlParts.mpr h
  constructor
  · rw [hposts.same]
    apply hheld
  · intro request hrequest
    obtain ⟨body, hbody⟩ := hposts.requests request hrequest
    use body
    rw [hbody, postText, hheld.path, hheld.host]

/-- A client that was accepted with a URL sends all its requests to the URL exactly when the URL
fits. -/
theorem sendsTo_iff (hu : parse urlStr = some u)
    (hconnect : connectUrl b parse resolveHost a start urlStr turns = .done (.ok c) rest) :
  SendsTo phr b u c ↔ u.Fits
  := by
  have hposts := posts_of_connectUrl hu hconnect
  constructor
  · intro h
    have haddressed := h c .refl (.setTimeoutNs c.timeoutNs) []
    rw [← held_urlParts, ← hposts.same]
    apply haddressed.held
  · intro hfits c' hreached op turns
    have hposts' : Posts u.urlParts c' := by
      induction hreached with
      | refl => exact hposts
      | tail _ hstep ih =>
        obtain ⟨op, turns, result, rest, hexec⟩ := hstep
        have hkept : (op.exec phr b _ turns).Holds (Posts u.urlParts) fun r _ =>
            Posts u.urlParts r.2 :=
          kept_posts.exec op ih
        rw [hexec] at hkept
        apply hkept
    apply (kept_posts.exec op hposts').mono
    · intro c'' h
      apply hfits.addressed h
    · intro r _ h
      apply hfits.addressed h

end

/-! ### A URL and its client -/

/-- A URL on a host, without a port. -/
def hostUrl (tail : Bytes) : FdUrl where
  scheme := asBytes "http://"
  host := asBytes "host"
  port := []
  tail := tail

/-- The text of that URL. -/
def hostUrlText (tail : Bytes) : Bytes := asBytes "http://host" ++ tail

/-- The parser, on that URL. -/
def parseHostUrl (tail urlStr : Bytes) : Option FdUrl :=
  if urlStr = hostUrlText tail then some (hostUrl tail) else none

/-- A client for that URL whose connection is there at once. -/
def hostClient (tail : Bytes) : SolanaRpcClient := { plainClient with url := (hostUrl tail).urlParts }

/-- Connecting to that URL. -/
def connectHost (tail : Bytes) :
    Turns.Ended Pass SolanaRpcClient (Except Abort SolanaRpcClient) :=
  connectUrl checkedBuild (parseHostUrl tail) (fun _ => some 0) { socket := 3, connect := 0 } 0
    (hostUrlText tail) [{ pump := {}, now := 0 }]

theorem parseHostUrl_eq (tail : Bytes) :
  parseHostUrl tail (hostUrlText tail) = some (hostUrl tail)
  := if_pos rfl

theorem connectHost_eq (tail : Bytes) :
  connectHost tail = .done (.ok (hostClient tail)) []
  := by
  have hhost : hostname (hostUrl tail).urlParts = some ['h', 'o', 's', 't'] :=
    @decodeUtf8_ascii (asBytes "host") (List.forall_iff_forall_mem.mp (by decide))
  have htls : (hostUrl tail).urlParts.useTls = false :=
    show (5 ≤ (asBytes "http://").length
      && eqIgnoreAsciiCase ((asBytes "http://").take 5) (asBytes "https")) = false by decide
  rw [connectHost, connectUrl, parseHostUrl_eq]
  simp only
  rw [connect_plain hhost htls]
  rfl

theorem fits_hostUrl :
  (hostUrl (asBytes "/")).Fits
  where
  tail := ⟨by decide, fromUtf8_asBytes "/"⟩
  host := ⟨by decide, fromUtf8_asBytes "host"⟩
  port h := absurd rfl h

/-- All requests of a client for the path `/` go there. -/
theorem sendsTo_hostClient :
  SendsTo (Phr.ofBlock [0] 200 []) checkedBuild (hostUrl (asBytes "/")) (hostClient (asBytes "/"))
  := (sendsTo_iff (parseHostUrl_eq _) (connectHost_eq _)).mpr fits_hostUrl

/-- A path of 256 bytes. -/
def longTail : Bytes := asBytes "/" ++ List.replicate 255 0x61

/-- A URL with that path is accepted, and the path is cut off. -/
theorem not_sendsTo :
  connectHost longTail = .done (.ok (hostClient longTail)) []
    ∧ ¬SendsTo (Phr.ofBlock [0] 200 []) checkedBuild (hostUrl longTail) (hostClient longTail)
  := by
  use connectHost_eq longTail
  intro h
  have haddressed := h _ .refl (.setTimeoutNs 0) []
  have hle : longTail.length ≤ 255 := (urlPath_urlParts.mp haddressed.held.path).1
  rw [longTail, List.length_append, List.length_replicate] at hle
  exact absurd hle (by decide)

end FdRpc

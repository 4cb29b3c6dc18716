import FiredancerRs.Rpc.Failure
import FiredancerRs.Rpc.Requests

/-!
# The ids of requests

A client counts the ids of its requests up from 1. In any history the ids on each of its connections
increase from request to request, those on a connection are below those on the connections after it,
and none is above the number of ids that the history takes at most (`ids_numbered`): so they are the
ids that are sent, as long as that number is below `2 ^ 64`. A call takes at most twelve ids, two for
each pass of its loop, however often it tries again, and each request that it sends has one of them
(`call_retries`).
-/

open FdEd25519

namespace FdRpc

open Http

variable {δ : Type} {phr : Phr δ} {b : Build}

/-- The ids that an operation takes at most: two for each pass of a call, and one for each entry of a
batch. -/
def Op.mostIds : Op → Nat
  | .call _ _ _ => 12
  | .batch entries _ => entries.length
  | .setTimeoutNs _ => 0

namespace SolanaRpcClient

variable {c c' : SolanaRpcClient} {turns : List Pass} {method params : Bytes}

/-! ### One exchange and one reconnect -/

/-- The client has pushed the request, and nothing else. -/
structure Pushed (req : Bytes) (c c' : SolanaRpcClient) : Prop where
  url : c'.url = c.url
  lost : c'.lost = c.lost
  nextId : c'.nextId = c.nextId
  requests : requestsIn c'.conn.events = requestsIn c.conn.events ++ [postText c.url req]

theorem pushed_of_pumped {req scratch : Bytes} {conn : Connection}
    (h : Connection.PumpedSince (c.conn.txPush (postText c.url req)) conn) :
  Pushed req c { c with scratch := scratch, conn := conn }
  where
  url := rfl
  lost := rfl
  nextId := rfl
  requests := by rw [h.requests, Connection.requestsIn_txPush]

/-- An exchange pushes its request, or it leaves the client as it was. -/
theorem exchange_pushed {req : Bytes} {start : UInt64} (hreq : req.length < 10 ^ 20) :
  (exchange phr b req start c turns).Holds (Pushed req c) fun r _ => Pushed req c r.2 ∨ r.2 = c
  := by
  rw [exchange]
  cases hwrite : writeRequest c.conn (asBytes "POST") (urlPath c.url) (urlHost c.url)
      (asBytes "application/json") req with
  | error stop => exact .inr rfl
  | ok conn =>
    obtain rfl : conn = c.conn.txPush (postText c.url req) := writeRequest_ok hreq hwrite
    apply (readResponse_keeps Connection.keeps_pumpedSince Connection.PumpedSince.refl).andThen
    · intro client hclient
      apply pushed_of_pumped hclient
    · rintro ⟨result, client⟩ rest hends
      have hpushed : Pushed req c { c with scratch := client.scratch, conn := client.port } :=
        pushed_of_pumped (hends.cases.elim And.right And.right)
      cases result with
      | error stop => exact .inl hpushed
      | ok reply =>
        simp only
        split
        · exact .inl hpushed
        · exact .inl hpushed

/-- The client has lost its connection, and goes on with it or with one without requests. -/
structure Lost (c c' : SolanaRpcClient) : Prop where
  url : c'.url = c.url
  lost : c'.lost = c.lost ++ [c.conn]
  nextId : c'.nextId = c.nextId
  conn : c'.conn = c.conn ∨ requestsIn c'.conn.events = []

theorem waitReady_nextId {start : UInt64} :
  (waitReady b start c turns).Holds (fun c' => c'.nextId = c.nextId)
    fun r _ => r.2.nextId = c.nextId
  := by
  rw [waitReady]
  cases Turns.run (readyTurn b c.timeoutNs start) turns c.conn with
  | waiting conn => rfl
  | done r rest => rfl

/-- What `wait_ready` leaves of a client when it is done. -/
theorem kept_of_waitReady {start : UInt64} {r : Except Abort Unit × SolanaRpcClient}
    {rest : List Pass} (h : waitReady b start c turns = .done r rest) :
  (r.2.url = c.url ∧ r.2.lost = c.lost ∧ Connection.PumpedSince c.conn r.2.conn)
    ∧ r.2.nextId = c.nextId
  := by
  have hready := (@waitReady_pumped b c turns start).and waitReady_nextId
  rw [h] at hready
  exact hready

theorem reconnect_lost {a : FdRpcIo.ConnectAnswers} {start : UInt64} :
  (reconnect b a start c turns).Holds (Lost c) fun r _ => Lost c r.2
  := by
  rw [reconnect]
  simp only
  split
  · exact { url := rfl, lost := rfl, nextId := rfl, conn := .inl rfl }
  case h_2 conn hconnect =>
    have hfresh := Connection.fresh_of_connect hconnect
    have hlost (c' : SolanaRpcClient) (hc : (c'.url = c.url ∧ c'.lost = c.lost ++ [c.conn]
        ∧ Connection.PumpedSince conn c'.conn) ∧ c'.nextId = c.nextId) : Lost c c' := by
      obtain ⟨⟨hurl, hlost, hpumped⟩, hnextId⟩ := hc
      refine ⟨hurl, hlost, hnextId, .inr ?_⟩
      rw [hpumped.requests, hfresh.events]
      rfl
    apply (waitReady_pumped.and waitReady_nextId).mono
    · apply hlost
    · intro r _
      apply hlost r.2

/-! ### What is counted -/

/-- What holds of a client with the number of the ids that it has taken, and goes on to hold with
the next number when it takes an id. -/
structure Counts (phr : Phr δ) (b : Build) (method params : Bytes)
    (inv : Nat → SolanaRpcClient → Prop) : Prop where
  refused : ∀ n c, inv n c → inv (n + 1) { c with nextId := c.nextId + 1 }
  pushed : ∀ n c c', inv n c →
    Pushed (requestText c.nextId method params) { c with nextId := c.nextId + 1 } c' →
      inv (n + 1) c'
  lost : ∀ n c c', inv n c → Lost c c' → inv n c'

/-- The number has gone up to one that is not above `m`. -/
def Within (inv : Nat → SolanaRpcClient → Prop) (n m : Nat) (c : SolanaRpcClient) : Prop :=
  ∃ k, n < k ∧ k ≤ m ∧ inv k c

namespace Counts

variable {inv : Nat → SolanaRpcClient → Prop} {n : Nat}

theorem sendAndRecv (h : Counts phr b method params inv) {start : UInt64} (hc : inv n c) :
  (sendAndRecv phr b method params start c turns).Holds (inv (n + 1)) fun r _ => inv (n + 1) r.2
  := by
  rcases Nat.lt_or_ge requestBufSz (requestText c.nextId method params).length with hlt | hle
  · rw [SolanaRpcClient.sendAndRecv, serializeRequest_of_lt (by rwa [List.length_replicate])]
    apply h.refused n c hc
  · have hreq : (requestText c.nextId method params).length < 10 ^ 20 := by
      rw [requestBufSz] at hle
      omega
    rw [sendAndRecv_eq hle]
    apply (exchange_pushed hreq).mono
    · intro c' hpushed
      apply h.pushed n c c' hc hpushed
    · intro r _ hr
      rcases hr with hpushed | hsame
      · apply h.pushed n c r.2 hc hpushed
      · rw [hsame]
        apply h.refused n c hc

/-- An attempt takes one id or two. -/
theorem attempt (h : Counts phr b method params inv) {x : Readings} (hc : inv n c) :
  (attempt phr b method params x c turns).Holds (Within inv n (n + 2))
    fun r _ => Within inv n (n + 2) r.2
  := by
  have hone {c' : SolanaRpcClient} (hc' : inv (n + 1) c') : Within inv n (n + 2) c' :=
    ⟨n + 1, Nat.lt_succ_self n, Nat.le_succ _, hc'⟩
  have htwo {c' : SolanaRpcClient} (hc' : inv (n + 2) c') : Within inv n (n + 2) c' :=
    ⟨n + 2, by omega, Nat.le_refl _, hc'⟩
  apply (h.sendAndRecv hc).andThen
  · exact fun _ => hone
  rintro ⟨result, c₁⟩ rest hc₁
  simp only
  split
  case isFalse => exact hone hc₁
  case isTrue =>
    apply (@reconnect_lost b c₁ rest x.connect x.readyStart).andThen
    · intro c' hlost
      apply hone (h.lost _ _ _ hc₁ hlost)
    · rintro ⟨result, c₂⟩ rest hlost
      have hc₂ := h.lost _ _ _ hc₁ hlost
      cases result with
      | error e => exact hone hc₂
      | ok u =>
        apply (h.sendAndRecv hc₂).mono
        · exact fun _ => htwo
        · exact fun _ _ => htwo

/-- A pass takes one id or two, and those of the passes after it. -/
theorem callPass (h : Counts phr b method params inv) {x : Readings} {m : Nat}
    {next : Option (SolanaRpcClient → List Pass → Exec JsonScan)}
    (hnext : ∀ again ∈ next, ∀ n c turns, inv n c →
      (again c turns).Holds (Within inv n (n + m)) fun r _ => Within inv n (n + m) r.2)
    (hc : inv n c) :
  (callPass phr b method params x next c turns).Holds (Within inv n (n + (m + 2)))
    fun r _ => Within inv n (n + (m + 2)) r.2
  := by
  have hpass {c' : SolanaRpcClient} (hc' : Within inv n (n + 2) c') :
      Within inv n (n + (m + 2)) c' := by
    obtain ⟨k, hlt, hle, hk⟩ := hc'
    exact ⟨k, hlt, by omega, hk⟩
  apply (h.attempt hc).andThen
  · exact fun _ => hpass
  rintro ⟨result, c₁⟩ rest hc₁
  cases result with
  | ok reply => exact hpass hc₁
  | error e =>
    cases next with
    | none => exact hpass hc₁
    | some again =>
      simp only
      split
      case isFalse => exact hpass hc₁
      case isTrue =>
        obtain ⟨k, hlt, hle, hk⟩ := hc₁
        have hmore {c' : SolanaRpcClient} (hc' : Within inv k (k + m) c') :
            Within inv n (n + (m + 2)) c' := by
          obtain ⟨k', hlt', hle', hk'⟩ := hc'
          exact ⟨k', by omega, by omega, hk'⟩
        apply (hnext again rfl k c₁ rest hk).mono
        · exact fun _ => hmore
        · exact fun _ _ => hmore

theorem callFrom (h : Counts phr b method params inv) {x : Nat → Readings} (left : Nat) :
  ∀ (i n : Nat) (c : SolanaRpcClient) (turns : List Pass), inv n c →
    (callFrom phr b method params x left i c turns).Holds (Within inv n (n + 2 * (left + 1)))
      fun r _ => Within inv n (n + 2 * (left + 1)) r.2
  := by
  induction left with
  | zero =>
    intro i n c turns hc
    apply @callPass _ phr b c turns method params inv n h (x i) 0 none _ hc
    simp
  | succ left ih =>
    intro i n c turns hc
    apply h.callPass _ hc
    rintro again ⟨⟩
    apply ih (i + 1)

/-- A call takes an id, and at most two for each pass. -/
theorem call (h : Counts phr b method params inv) {x : Nat → Readings} (hc : inv n c) :
  (call phr b method params x c turns).Holds (Within inv n (n + 12))
    fun r _ => Within inv n (n + 12) r.2
  := by
  unfold SolanaRpcClient.call
  apply h.callFrom maxRetries429 0 n c turns hc

end Counts

/-! ### The retries of a call -/

/-- The text of a request of a call with one of the first ids from an id on. -/
def RetryText (url : UrlParts) (id : UInt64) (method params : Bytes) (n : Nat) (request : Bytes) :
    Prop :=
  ∃ i < n, request = postText url (requestText (entryId id i) method params)

theorem entryId_succ (id : UInt64) (n : Nat) :
  entryId id n + 1 = entryId id (n + 1)
  := by
  rw [entryId, entryId, UInt64.ofNat_add, UInt64.add_assoc]
  rfl

theorem SentSince.imp {p q : Bytes → Prop} {c₁ : SolanaRpcClient} (h : SentSince p c c₁)
    (hpq : ∀ request, p request → q request) :
  SentSince q c c₁
  where
  url := h.url
  lost := h.lost
  adds conn hconn := (h.adds conn hconn).imp hpq

/-- One id more may be in use. -/
theorem SentSince.retry_succ {url : UrlParts} {id : UInt64} {n : Nat} {c₁ : SolanaRpcClient}
    (h : SentSince (RetryText url id method params n) c c₁) :
  SentSince (RetryText url id method params (n + 1)) c c₁
  := by
  apply h.imp
  rintro request ⟨i, hi, hrequest⟩
  exact ⟨i, Nat.lt_succ_of_lt hi, hrequest⟩

theorem counts_retries (c₀ : SolanaRpcClient) :
  Counts phr b method params fun n c => c.nextId = entryId c₀.nextId n
    ∧ SentSince (RetryText c₀.url c₀.nextId method params n) c₀ c
  where
  refused n c := by
    rintro ⟨hid, hsince⟩
    constructor
    · rw [← entryId_succ, ← hid]
    · have hkeeps : Keeps (RetryText c₀.url c₀.nextId method params (n + 1)) c
          { c with nextId := c.nextId + 1 } := { url := rfl, lost := rfl, conn := .refl }
      apply hsince.retry_succ.keeps hkeeps
  pushed n c c' := by
    rintro ⟨hid, hsince⟩ hpushed
    constructor
    · rw [hpushed.nextId, ← entryId_succ, ← hid]
    · have htext : RetryText c₀.url c₀.nextId method params (n + 1)
          (postText c.url (requestText c.nextId method params)) :=
        ⟨n, Nat.lt_succ_self n, by rw [hid, hsince.url]⟩
      apply hsince.retry_succ.keeps
      exact {
        url := hpushed.url
        lost := hpushed.lost
        conn := ⟨_, hpushed.requests, List.forall_mem_singleton.mpr htext⟩ }
  lost n c c' := by
    rintro ⟨hid, hsince⟩ hlost
    use hlost.nextId.trans hid
    apply (hsince.lose hlost.url hlost.lost hlost.conn).1

/-- A call takes between one and twelve ids, and each request that it sends is its own, with one of
these ids. -/
theorem call_retries (c : SolanaRpcClient) (method params : Bytes) (x : Nat → Readings)
    (turns : List Pass) :
  (call phr b method params x c turns).Holds
    (fun c' => ∃ n, 0 < n ∧ n ≤ 12 ∧ c'.nextId = entryId c.nextId n
      ∧ SentSince (RetryText c.url c.nextId method params n) c c')
    fun r _ => ∃ n, 0 < n ∧ n ≤ 12 ∧ r.2.nextId = entryId c.nextId n
      ∧ SentSince (RetryText c.url c.nextId method params n) c r.2
  := by
  have hzero : c.nextId = entryId c.nextId 0 := by simp [entryId]
  apply (counts_retries c).call ⟨hzero, SentSince.refl⟩

/-! ### Numbered connections -/

/-- The requests have the ids, from the first request to the last. The requests of a batch have ids
one after another. -/
inductive Numbers (url : UrlParts) : List Nat → List Bytes → Prop
  | nil : Numbers url [] []
  | call {ids : List Nat} {requests : List Bytes} (id : Nat) (method params : Bytes) :
      Numbers url ids requests →
        Numbers url (ids ++ [id])
          (requests ++ [postText url (requestText (UInt64.ofNat id) method params)])
  | batch {ids : List Nat} {requests : List Bytes} (id : Nat) (entries : List BatchEntry) :
      Numbers url ids requests →
        Numbers url (ids ++ List.range' id entries.length)
          (requests ++ [postText url
            (asBytes "[" ++ (entriesText (UInt64.ofNat id) 0 entries ++ asBytes "]"))])

/-- The ids on a connection go on from those on one before it, or lie above them. -/
def Above (ids ids' : List Nat) : Prop := ids <+: ids' ∨ ∀ id ∈ ids, ∀ id' ∈ ids', id < id'

/-- The ids on the connections of a client, which are below `n`: those on the connections that were
lost, and those on the last. -/
structure Numbering (n : Nat) (c : SolanaRpcClient) (lostIds : List (List Nat))
    (ids : List Nat) : Prop where
  lost : List.Forall₂ (fun ids conn => Numbers c.url ids (requestsIn conn.events)) lostIds c.lost
  conn : Numbers c.url ids (requestsIn c.conn.events)
  increasing : ∀ l ∈ lostIds ++ [ids], l.Pairwise (· < ·)
  above : (lostIds ++ [ids]).Pairwise Above
  bound : ∀ l ∈ lostIds ++ [ids], ∀ id ∈ l, id < n

/-- The ids on the connections of the client are below `n`. -/
def Numbered (n : Nat) (c : SolanaRpcClient) : Prop := ∃ lostIds ids, Numbering n c lostIds ids

variable {n : Nat} {lostIds : List (List Nat)} {ids : List Nat}

theorem Numbering.mono {m : Nat} (h : Numbering n c lostIds ids) (hle : n ≤ m) :
  Numbering m c lostIds ids
  := { h with bound := fun l hl id hid => Nat.lt_of_lt_of_le (h.bound l hl id hid) hle }

theorem Above.append {more : List Nat} (h : Above ids more) {new : List Nat}
    (hnew : ∀ id ∈ ids, ∀ id' ∈ new, id < id') :
  Above ids (more ++ new)
  := by
  rcases h with hstarts | hbelow
  · exact .inl (hstarts.trans (List.prefix_append _ _))
  · right
    intro id hid
    rw [List.forall_mem_append]
    exact ⟨hbelow id hid, hnew id hid⟩

/-- A request with new ids one after another is pushed. -/
theorem Numbering.push {k : Nat} (h : Numbering n c lostIds ids) (hurl : c'.url = c.url)
    (hlost : c'.lost = c.lost)
    (hconn : Numbers c.url (ids ++ List.range' n k) (requestsIn c'.conn.events)) :
  Numbering (n + k) c' lostIds (ids ++ List.range' n k)
  := by
  obtain ⟨hlostIncreasing, hincreasing⟩ := List.forall_mem_append.mp h.increasing
  obtain ⟨hlostBound, hbound⟩ := List.forall_mem_append.mp h.bound
  obtain ⟨hlostAbove, -, habove⟩ := List.pairwise_append.mp h.above
  rw [List.forall_mem_singleton] at hincreasing hbound
  have hnew (l : List Nat) (hl : ∀ id ∈ l, id < n) :
      ∀ id ∈ l, ∀ id' ∈ List.range' n k, id < id' := by
    intro id hid id' hid'
    apply Nat.lt_of_lt_of_le (hl id hid) (List.mem_range'_1.mp hid').1
  constructor
  case lost => rw [hurl, hlost]; exact h.lost
  case conn => rwa [hurl]
  case increasing =>
    rw [List.forall_mem_append, List.forall_mem_singleton]
    use hlostIncreasing
    apply List.pairwise_append.mpr ⟨hincreasing, List.pairwise_lt_range', hnew ids hbound⟩
  case above =>
    apply List.pairwise_append.mpr
    refine ⟨hlostAbove, List.pairwise_singleton _ _, ?_⟩
    intro l hl l' hl'
    obtain rfl := List.mem_singleton.mp hl'
    apply (habove l hl ids List.mem_cons_self).append (hnew l (hlostBound l hl))
  case bound =>
    rw [List.forall_mem_append, List.forall_mem_singleton, List.forall_mem_append]
    refine ⟨?_, ?_, ?_⟩
    · intro l hl id hid
      apply Nat.lt_add_right k (hlostBound l hl id hid)
    · intro id hid
      apply Nat.lt_add_right k (hbound id hid)
    · intro id hid
      apply (List.mem_range'_1.mp hid).2

/-- A connection is lost. -/
theorem Numbering.lose (h : Numbering n c lostIds ids) (hlost : Lost c c') :
  ∃ ids', Numbering n c' (lostIds ++ [ids]) ids'
  := by
  have hnext (ids' : List Nat) (hconn : Numbers c'.url ids' (requestsIn c'.conn.events))
      (hincreasing : ids'.Pairwise (· < ·)) (habove : ∀ l ∈ lostIds ++ [ids], Above l ids')
      (hbound : ∀ id ∈ ids', id < n) : Numbering n c' (lostIds ++ [ids]) ids' := by
    constructor
    case lost =>
      rw [hlost.url, hlost.lost]
      apply List.rel_append h.lost (.cons h.conn .nil)
    case conn => exact hconn
    case increasing =>
      rw [List.forall_mem_append, List.forall_mem_singleton]
      exact ⟨h.increasing, hincreasing⟩
    case above =>
      apply List.pairwise_append.mpr
      refine ⟨h.above, List.pairwise_singleton _ _, ?_⟩
      intro l hl l' hl'
      obtain rfl := List.mem_singleton.mp hl'
      apply habove l hl
    case bound =>
      rw [List.forall_mem_append, List.forall_mem_singleton]
      exact ⟨h.bound, hbound⟩
  rcases hlost.conn with hsame | hnone
  · use ids
    apply hnext
    · rw [hlost.url, hsame]
      exact h.conn
    · apply h.increasing ids (List.mem_append_right _ List.mem_cons_self)
    · rw [List.forall_mem_append, List.forall_mem_singleton]
      constructor
      · intro l hl
        apply (List.pairwise_append.mp h.above).2.2 l hl ids List.mem_cons_self
      · exact .inl List.prefix_rfl
    · apply h.bound ids (List.mem_append_right _ List.mem_cons_self)
  · use []
    apply hnext
    · rw [hnone]
      exact .nil
    · exact .nil
    · exact fun l _ => .inr fun _ _ => List.forall_mem_nil _
    · exact List.forall_mem_nil _

theorem Numbered.setNextId (h : Numbered n c) (id : UInt64) :
  Numbered n { c with nextId := id }
  := by
  obtain ⟨lostIds, ids, hnumbering⟩ := h
  exact ⟨lostIds, ids, { hnumbering with }⟩

theorem Numbered.mono {m : Nat} (h : Numbered n c) (hle : n ≤ m) :
  Numbered m c
  := by
  obtain ⟨lostIds, ids, hnumbering⟩ := h
  exact ⟨lostIds, ids, hnumbering.mono hle⟩

/-- The next id is the number. -/
def Counted (n : Nat) (c : SolanaRpcClient) : Prop := c.nextId = UInt64.ofNat n ∧ Numbered n c

theorem counts_counted :
  Counts phr b method params Counted
  where
  refused n c := by
    rintro ⟨hid, hnumbered⟩
    constructor
    · rw [hid, UInt64.ofNat_add]
      rfl
    · apply (hnumbered.mono (Nat.le_succ n)).setNextId
  pushed n c c' := by
    rintro ⟨hid, lostIds, ids, hnumbering⟩ hpushed
    constructor
    · rw [hpushed.nextId, hid, UInt64.ofNat_add]
      rfl
    · use lostIds, ids ++ List.range' n 1
      apply hnumbering.push hpushed.url hpushed.lost
      rw [hpushed.requests, hid]
      apply Numbers.call n method params hnumbering.conn
  lost n c c' := by
    rintro ⟨hid, lostIds, ids, hnumbering⟩ hlost
    constructor
    · rw [hlost.nextId, hid]
    · obtain ⟨ids', hnext⟩ := hnumbering.lose hlost
      exact ⟨_, ids', hnext⟩

/-! ### Histories -/

theorem serializeEntries_nextId :
  ∀ {entries : List BatchEntry} {w : BufWriter} {i : Nat} {id nextId : UInt64}
    {r : Option BufWriter}, serializeEntries w i id entries = some (r, nextId) →
      ∃ k ≤ entries.length, nextId = entryId id k ∧ (r.isSome = true → k = entries.length)
  | [], w, i, id, nextId, r, h => by
      obtain ⟨rfl, rfl⟩ : some w = r ∧ id = nextId := by simpa [serializeEntries] using h
      exact ⟨0, Nat.le_refl 0, by simp [entryId], fun _ => rfl⟩
  | entry :: entries, w, i, id, nextId, r, h => by
      rw [serializeEntries] at h
      split at h
      · obtain ⟨rfl, rfl⟩ : none = r ∧ id = nextId := by simpa using h
        exact ⟨0, Nat.zero_le _, by simp [entryId], by simp⟩
      next w₁ _ =>
      rw [fmtU64_eq _ List.length_replicate, Option.bind_eq_bind, Option.bind_some] at h
      split at h
      · obtain ⟨rfl, rfl⟩ : none = r ∧ id + 1 = nextId := by simpa using h
        exact ⟨1, Nat.le_add_left 1 _, by simp [entryId], by simp⟩
      · obtain ⟨k, hle, rfl, hsome⟩ := serializeEntries_nextId h
        refine ⟨k + 1, Nat.succ_le_succ hle, ?_, fun hr => by rw [hsome hr]; rfl⟩
        rw [entryId, entryId, UInt64.ofNat_add, UInt64.add_comm (UInt64.ofNat k), UInt64.add_assoc]
        rfl

/-- The ids that a batch takes. It takes one for each entry when it is serialized. -/
theorem serializeBatch_nextId {id nextId : UInt64} {buf : Bytes} {entries : List BatchEntry}
    {r : Except RpcError (Nat × Bytes)} (h : serializeBatch id buf entries = some (r, nextId)) :
  ∃ k ≤ entries.length, nextId = entryId id k ∧ (r.isOk = true → k = entries.length)
  := by
  rw [serializeBatch] at h
  split at h
  · obtain ⟨rfl, rfl⟩ : _ = r ∧ id = nextId := by simpa using h
    exact ⟨0, Nat.zero_le _, by simp [entryId], by simp [Except.isOk, Except.toBool]⟩
  next w₁ _ =>
  obtain ⟨⟨w₂, nextId₂⟩, hentries, h⟩ := Option.bind_eq_some_iff.mp h
  obtain ⟨k, hle, rfl, hsome⟩ := serializeEntries_nextId hentries
  cases w₂ with
  | none =>
    obtain ⟨rfl, rfl⟩ : _ = r ∧ entryId id k = nextId := by simpa using h
    exact ⟨k, hle, rfl, by simp [Except.isOk, Except.toBool]⟩
  | some w₂ =>
    obtain rfl := hsome rfl
    refine ⟨entries.length, hle, ?_, fun _ => rfl⟩
    dsimp only at h
    split at h
    · apply (congrArg Prod.snd (Option.some.inj h)).symm
    · apply (congrArg Prod.snd (Option.some.inj h)).symm

/-- The number is not above `m`. -/
def CountedTo (m : Nat) (c : SolanaRpcClient) : Prop := ∃ n ≤ m, Counted n c

theorem CountedTo.mono {m m' : Nat} (h : CountedTo m c) (hle : m ≤ m') :
  CountedTo m' c
  := by
  obtain ⟨n, hn, hcounted⟩ := h
  exact ⟨n, hn.trans hle, hcounted⟩

theorem entryId_ofNat (n k : Nat) :
  entryId (UInt64.ofNat n) k = UInt64.ofNat (n + k)
  := by
  rw [entryId, UInt64.ofNat_add]

theorem batch_counted {entries : List BatchEntry} {start : UInt64} (h : Counted n c) :
  (batch phr b entries start c turns).Holds (CountedTo (n + entries.length))
    fun r _ => CountedTo (n + entries.length) r.2
  := by
  obtain ⟨hid, hnumbered⟩ := h
  rw [batch_def]
  beta_reduce
  split
  · exact ⟨n, Nat.le_add_right _ _, hid, hnumbered⟩
  case h_2 e nextId hserialize =>
    obtain ⟨k, hle, rfl, -⟩ := serializeBatch_nextId hserialize
    refine ⟨n + k, Nat.add_le_add_left hle n, ?_,
      (hnumbered.mono (Nat.le_add_right n k)).setNextId _⟩
    rw [hid, entryId_ofNat]
  case h_3 len buf nextId hserialize =>
    obtain ⟨k, -, rfl, hk⟩ := serializeBatch_nextId hserialize
    obtain rfl := hk rfl
    obtain ⟨hwritten, hsize, -⟩ := serializeBatch_ok hserialize
    have hreq : (buf.take len).length < 10 ^ 20 := by
      rw [List.length_replicate, batchRequestBufSz] at hsize
      rw [List.length_take]
      omega
    have hcounted (c' : SolanaRpcClient) (hpushed : Pushed (buf.take len)
        { c with nextId := entryId c.nextId entries.length } c') :
        CountedTo (n + entries.length) c' := by
      obtain ⟨lostIds, ids, hnumbering⟩ := hnumbered
      refine ⟨n + entries.length, Nat.le_refl _, ?_, lostIds, _,
        hnumbering.push hpushed.url hpushed.lost ?_⟩
      · rw [hpushed.nextId, hid, entryId_ofNat]
      · rw [hpushed.requests, hwritten, hid]
        apply Numbers.batch n entries hnumbering.conn
    have hsame : CountedTo (n + entries.length)
        { c with nextId := entryId c.nextId entries.length } := by
      refine ⟨n + entries.length, Nat.le_refl _, ?_,
        (hnumbered.mono (Nat.le_add_right _ _)).setNextId _⟩
      rw [hid, entryId_ofNat]
    apply (exchange_pushed hreq).andThen
    · apply hcounted
    · rintro ⟨result, c₁⟩ rest hr
      have hc₁ : CountedTo (n + entries.length) c₁ := by
        rcases hr with hpushed | rfl
        · apply hcounted c₁ hpushed
        · apply hsame
      cases result with
      | ok reply => exact hc₁
      | error e => exact hc₁

/-- An operation takes no more ids than it takes at most. -/
theorem exec_counted (op : Op) (h : Counted n c) :
  (op.exec phr b c turns).Holds (CountedTo (n + op.mostIds))
    fun r _ => CountedTo (n + op.mostIds) r.2
  := by
  cases op with
  | call method params x =>
    apply Kept.status
    apply (counts_counted.call h).mono
    · rintro c' ⟨k, -, hle, hk⟩
      exact ⟨k, hle, hk⟩
    · rintro r _ ⟨k, -, hle, hk⟩
      exact ⟨k, hle, hk⟩
  | batch entries start =>
    apply Kept.status
    apply batch_counted h
  | setTimeoutNs ns =>
    obtain ⟨hid, lostIds, ids, hnumbering⟩ := h
    exact ⟨n, Nat.le_refl n, hid, lostIds, ids, { hnumbering with }⟩

/-- A client that has connected has taken no id, and begins with 1. -/
theorem connected_counted (h : Connected b c) :
  Counted 1 c
  := by
  obtain ⟨a, start, url, addr, turns, rest, hconnect⟩ := h
  rw [connect] at hconnect
  simp only at hconnect
  split at hconnect
  · cases hconnect
  case h_2 hok =>
    have hfresh := Connection.fresh_of_connect (Prod.ext hok rfl)
    obtain ⟨⟨-, hlost, hpumped⟩, hid⟩ := kept_of_waitReady hconnect
    use hid, [], []
    constructor
    · rw [hlost]
      exact .nil
    · rw [hpumped.requests, hfresh.events]
      exact .nil
    · exact List.forall_mem_singleton.mpr .nil
    · exact List.pairwise_singleton _ _
    · exact List.forall_mem_singleton.mpr (List.forall_mem_nil _)

/-- A history from one client to another, with the number of ids that its operations take at most. -/
inductive TakesIds (phr : Phr δ) (b : Build) (c₀ : SolanaRpcClient) : Nat → SolanaRpcClient → Prop
  | refl : TakesIds phr b c₀ 0 c₀
  | tail {taken : Nat} {c c' : SolanaRpcClient} {turns rest : List Pass} {result : Except Abort Unit}
      (op : Op) : TakesIds phr b c₀ taken c → op.exec phr b c turns = .done (result, c') rest →
        TakesIds phr b c₀ (taken + op.mostIds) c'

variable {c₀ : SolanaRpcClient} {taken : Nat}

/-- A history leads to a client that is reached. -/
theorem TakesIds.reflTransGen (h : TakesIds phr b c₀ taken c) :
  Relation.ReflTransGen (Step phr b) c₀ c
  := by
  induction h with
  | refl => rfl
  | tail op _ hexec ih => exact ih.tail ⟨op, _, _, _, hexec⟩

/-- A history goes on with an operation that has ended. -/
theorem TakesIds.exec (h : TakesIds phr b c₀ taken c) (op : Op)
    (hdone : (op.exec phr b c turns).isDone = true) :
  TakesIds phr b c₀ (taken + op.mostIds) (op.exec phr b c turns).client
  := by
  obtain ⟨result, rest, hexec⟩ := Exec.eq_done hdone
  exact h.tail op hexec

/-- The client of a history has counted its ids. -/
theorem TakesIds.counted (h : TakesIds phr b c₀ taken c) (hconnected : Connected b c₀) :
  CountedTo (taken + 1) c
  := by
  induction h with
  | refl => exact ⟨1, Nat.le_refl 1, connected_counted hconnected⟩
  | @tail taken c c' turns rest result op _ hexec ih =>
    obtain ⟨n, hle, hn⟩ := ih
    have hnext := @exec_counted _ phr b c turns n op hn
    rw [hexec] at hnext
    apply CountedTo.mono hnext
    omega

/-- An operation after a history counts its ids on. -/
theorem TakesIds.exec_counted (h : TakesIds phr b c₀ taken c) (hconnected : Connected b c₀) (op : Op)
    (turns : List Pass) :
  (op.exec phr b c turns).Holds (CountedTo (taken + op.mostIds + 1))
    fun r _ => CountedTo (taken + op.mostIds + 1) r.2
  := by
  obtain ⟨n, hle, hn⟩ := h.counted hconnected
  have hmost : n + op.mostIds ≤ taken + op.mostIds + 1 := by omega
  apply (SolanaRpcClient.exec_counted op hn).mono
  · exact fun _ hc' => hc'.mono hmost
  · exact fun _ _ hr => hr.mono hmost

/-- In any history the ids on each connection of a client increase, those on a connection are below
those on the connections after it, and all are at most as many as its operations take at most. -/
theorem ids_numbered (hconnected : Connected b c₀) (h : TakesIds phr b c₀ taken c) (op : Op)
    (turns : List Pass) :
  (op.exec phr b c turns).Holds (fun c' => ∃ n ≤ taken + op.mostIds + 1, Counted n c')
    fun r _ => ∃ n ≤ taken + op.mostIds + 1, Counted n r.2
  := h.exec_counted hconnected op turns

/-! ### Requests that are cut off -/

/-- A call for the health of the node, which can connect again. -/
def healthCall : Op :=
  .call (asBytes "getHealth") (asBytes "[]") fun _ => { connect := { socket := 4, connect := 0 } }

/-- The client after a call that has not waited, when some bytes of what it has to send were sent. -/
def cut (c : SolanaRpcClient) (n : Nat) : SolanaRpcClient :=
  unanswered c (healthRequest c.nextId) (partTurn n)

theorem healthCall_cut {n : Nat} (hurl : c.url = plainUrl) (htime : c.timeoutNs = 0)
    (hfree : 1024 ≤ c.conn.io.rbufTx.freeSz)
    (hfailed : ((c.conn.txPush (healthRequest c.nextId)).pump (partTurn n).pump).1.failed = false)
    (hrx : ((c.conn.txPush (healthRequest c.nextId)).pump (partTurn n).pump).2.io.rbufRx.bytes
      = []) :
  healthCall.exec replyPhr b c [partTurn n]
    = .done (.error (.failed (.http .responseIncomplete)), cut c n) []
  := by
  have hcall : call replyPhr b (asBytes "getHealth") (asBytes "[]")
      (fun _ => { connect := { socket := 4, connect := 0 } }) c [partTurn n]
      = .done (.error (.failed (.http .responseIncomplete)), cut c n) [] := by
    apply call_of_error _ (by simp) (by simp)
    apply sendAndRecv_unanswered hurl hfree (length_healthText _) htime rfl hfailed hrx
  rw [healthCall, Op.exec, hcall]
  rfl

/-- The client after a call that has sent 20 bytes of its request. -/
def cutClient : SolanaRpcClient := cut hastyClient 20

set_option maxRecDepth 10000 in
theorem takesIds_cutClient :
  TakesIds replyPhr checkedBuild plainClient 12 cutClient
  := by
  have hhasty : TakesIds replyPhr checkedBuild plainClient 0 hastyClient :=
    @TakesIds.exec _ replyPhr checkedBuild plainClient [] plainClient 0 .refl (.setTimeoutNs 0) rfl
  apply hhasty.tail healthCall
  apply healthCall_cut rfl rfl <;> decide

set_option maxRecDepth 20000 in
/-- The next call loses the connection, connects again, and pushes its request once more. -/
theorem ids_numbered_cutClient :
  let e := healthCall.exec replyPhr checkedBuild cutClient [closedTurn, partTurn 0]
  (e.client.nextId = 4 ∧ e.client.lost.map (fun conn => (requestsIn conn.events).length) = [2]
    ∧ (requestsIn e.client.conn.events).length = 1) ∧ ∃ n ≤ 25, Counted n e.client
  := by
  have hids := ids_numbered connected_plainClient takesIds_cutClient healthCall
    [closedTurn, partTurn 0]
  use by with_unfolding_all decide
  apply @Exec.holds_client _ _ (fun c => ∃ n ≤ 25, Counted n c) hids

end SolanaRpcClient

end FdRpc

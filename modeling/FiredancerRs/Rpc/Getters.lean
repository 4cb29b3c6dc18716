import FiredancerRs.Rpc.BatchResults
import FiredancerRs.Rpc.Failure
import FiredancerRs.Rpc.SendTransaction

/-!
# The methods that get a result

The methods of `SolanaRpcClient` that call, and parse what the call returns. Their parameters are
never cut short, so each request asks for what the method was called for (`Getter.run_asks`). In any
history of a client that has nothing outstanding, what a method returns is read from the answer to
its own request (`Getter.run_answered`).
-/

open FdEd25519 Json

namespace FdRpc

open Http BatchRequest SolanaRpcClient

/-- A method that gets a result: its call, and the kind of its result. -/
structure Getter where
  method : Bytes
  params : Bytes
  kind : Kind

namespace Getter

/-- The bytes that were written into a buffer. -/
def written (r : Nat × Bytes) : Bytes := r.2.take r.1

section Methods

variable (e : Encoders)

/-- A method with a commitment, whose buffer has 128 bytes. -/
def ofCommitment (method : Bytes) (kind : Kind) (commitment : Commitment) : Getter where
  method := method
  params := written (fmtCommitmentParams (List.replicate 128 0) commitment)
  kind := kind

/-- A method with a key and a commitment, whose buffer has 256 bytes. -/
def ofPubkey (method : Bytes) (kind : Kind) (pubkey : Bytes32) (commitment : Commitment) :
    Getter where
  method := method
  params := written
    (fmtPubkeyCommitmentParams (List.replicate 256 0) (e.base58Encode32 pubkey) commitment)
  kind := kind

/-- A method for accounts, whose buffer has 256 bytes. -/
def ofAccount (method : Bytes) (kind : Kind) (pubkey : Pubkey) (commitment : Commitment) :
    Getter where
  method := method
  params := written
    (fmtAccountInfoParams (List.replicate 256 0) (e.base58Encode32 pubkey.bytes) commitment)
  kind := kind

/-- A method without parameters. -/
def bare (method : Bytes) (kind : Kind) : Getter where
  method := method
  params := asBytes "[]"
  kind := kind

/-- `SolanaRpcClient::get_latest_blockhash` -/
def getLatestBlockhash : Commitment → Getter :=
  ofCommitment (asBytes "getLatestBlockhash") .blockhash

/-- `SolanaRpcClient::get_balance` -/
def getBalance : Bytes32 → Commitment → Getter := ofPubkey e (asBytes "getBalance") .balance

/-- `SolanaRpcClient::get_transaction_count` -/
def getTransactionCount : Commitment → Getter := ofCommitment (asBytes "getTransactionCount") .u64

/-- `SolanaRpcClient::get_slot` -/
def getSlot : Commitment → Getter := ofCommitment (asBytes "getSlot") .u64

/-- `SolanaRpcClient::get_block_height` -/
def getBlockHeight : Commitment → Getter := ofCommitment (asBytes "getBlockHeight") .u64

/-- `SolanaRpcClient::get_health` -/
def getHealth : Getter := bare (asBytes "getHealth") .health

/-- `SolanaRpcClient::get_version` -/
def getVersion : Getter := bare (asBytes "getVersion") .version

/-- `SolanaRpcClient::get_account_info` -/
def getAccountInfo : Pubkey → Commitment → Getter :=
  ofAccount e (asBytes "getAccountInfo") .accountInfo

/-- `SolanaRpcClient::get_multiple_accounts` -/
def getMultipleAccounts (pubkeys : List Pubkey) (commitment : Commitment) : Getter :=
  let pubkeysB58 := pubkeys.map fun p => e.base58Encode32 p.bytes
  { method := asBytes "getMultipleAccounts"
    params := written (fmtMultipleAccountsParams
      (List.replicate (128 + pubkeysB58.length * 64) 0) pubkeysB58 commitment)
    kind := .multipleAccounts }

/-- `SolanaRpcClient::get_program_accounts` -/
def getProgramAccounts : Pubkey → Commitment → Getter :=
  ofAccount e (asBytes "getProgramAccounts") .programAccounts

/-- `SolanaRpcClient::get_token_account_balance` -/
def getTokenAccountBalance (pubkey : Pubkey) : Commitment → Getter :=
  ofPubkey e (asBytes "getTokenAccountBalance") .tokenBalance pubkey.bytes

end Methods

/-- What the parser of a result has returned. -/
def gotten {α : Type} : Option (Except RpcError α) → Except Abort α
  | none => .error (.panicked .sliceIndex)
  | some (.error e) => .error (.failed e)
  | some (.ok a) => .ok a

/-- The body of a method: a call, and the parser of its result. -/
def run {δ : Type} (phr : Phr δ) (b : Build) (decoders : Decoders) (g : Getter)
    (x : Nat → Readings) (c : SolanaRpcClient) (turns : List Pass) : Exec g.kind.Result :=
  (call phr b g.method g.params x c turns).andThen id fun (result, c) rest =>
    match result with
    | .error e => .done (.error e, c) rest
    | .ok scan => .done (gotten (g.kind.parse decoders scan), c) rest

/-! ### Parameters -/

/-- The method is called for these parameters. -/
inductive IsFor (e : Encoders) : Getter → Data → Prop
  | getLatestBlockhash (commitment : Commitment) :
      IsFor e (getLatestBlockhash commitment) (commitmentData commitment)
  | getBalance (pubkey : Bytes32) (commitment : Commitment) :
      IsFor e (getBalance e pubkey commitment)
        (pubkeyCommitmentData (e.base58Encode32 pubkey) commitment)
  | getTransactionCount (commitment : Commitment) :
      IsFor e (getTransactionCount commitment) (commitmentData commitment)
  | getSlot (commitment : Commitment) : IsFor e (getSlot commitment) (commitmentData commitment)
  | getBlockHeight (commitment : Commitment) :
      IsFor e (getBlockHeight commitment) (commitmentData commitment)
  | getHealth : IsFor e getHealth (.array [])
  | getVersion : IsFor e getVersion (.array [])
  | getAccountInfo (pubkey : Pubkey) (commitment : Commitment) :
      IsFor e (getAccountInfo e pubkey commitment)
        (accountInfoData (e.base58Encode32 pubkey.bytes) commitment)
  | getMultipleAccounts (pubkeys : List Pubkey) (commitment : Commitment) :
      IsFor e (getMultipleAccounts e pubkeys commitment)
        (multipleAccountsData (pubkeys.map fun p => e.base58Encode32 p.bytes) commitment)
  | getProgramAccounts (programId : Pubkey) (commitment : Commitment) :
      IsFor e (getProgramAccounts e programId commitment)
        (accountInfoData (e.base58Encode32 programId.bytes) commitment)
  | getTokenAccountBalance (pubkey : Pubkey) (commitment : Commitment) :
      IsFor e (getTokenAccountBalance e pubkey commitment)
        (pubkeyCommitmentData (e.base58Encode32 pubkey.bytes) commitment)

variable {e : Encoders}

/-- What is written into a buffer with room for the text stands for the data. -/
theorem standsFor_written {n : Nat} {parts : List Bytes} {d : Data}
    (htext : parts.flatten = d.render) (hplain : d.Plain) (hle : d.render.length ≤ n) :
  StandsFor (written (fmtWrites (List.replicate n 0) parts)) d
  := by
  apply (fmtWrites_complete_iff htext hplain).mpr
  rw [List.length_replicate]
  apply hle

theorem standsFor_ofCommitment (method : Bytes) (kind : Kind) (commitment : Commitment) :
  StandsFor (ofCommitment method kind commitment).params (commitmentData commitment)
  := by
  have htake : (ofCommitment method kind commitment).params = (commitmentData commitment).render := by
    have hlen : (commitmentData commitment).render.length ≤ 128 := by
      cases commitment <;> decide
    change written (fmtCommitmentParams (List.replicate 128 0) commitment) = _
    rw [commitmentParams_text, List.length_replicate, Nat.min_eq_left hlen, List.take_length,
      written, List.take_left]
  rw [htake]
  apply standsFor_text (plain_commitmentData commitment)

theorem standsFor_ofPubkey (he : e.Base58) (method : Bytes) (kind : Kind) (pubkey : Bytes32)
    (commitment : Commitment) :
  StandsFor (ofPubkey e method kind pubkey commitment).params
    (pubkeyCommitmentData (e.base58Encode32 pubkey) commitment)
  := by
  apply standsFor_written (pubkeyCommitment_text _ commitment)
  · apply plain_pubkeyCommitmentData (he.plain pubkey)
  · apply length_pubkeyCommitmentData_le (he.length_le pubkey)

theorem standsFor_ofAccount (he : e.Base58) (method : Bytes) (kind : Kind) (pubkey : Pubkey)
    (commitment : Commitment) :
  StandsFor (ofAccount e method kind pubkey commitment).params
    (accountInfoData (e.base58Encode32 pubkey.bytes) commitment)
  := by
  apply standsFor_written (accountInfo_text _ commitment)
  · apply plain_accountInfoData (he.plain pubkey.bytes)
  · apply length_accountInfoData_le (he.length_le pubkey.bytes)

theorem standsFor_bare (method : Bytes) (kind : Kind) :
  StandsFor (bare method kind).params (.array [])
  := standsFor_text .array_nil

/-- A key takes at most 47 bytes, with its quotes and a comma. -/
theorem length_keyWrites_le :
  ∀ (i : Nat) {pubkeys : List Bytes}, (∀ pubkey ∈ pubkeys, pubkey.length ≤ 44) →
    (keyWrites i pubkeys).flatten.length ≤ pubkeys.length * 47
  | _, [], _ => Nat.zero_le _
  | i, pubkey :: pubkeys, h => by
      obtain ⟨hpubkey, hrest⟩ := List.forall_mem_cons.mp h
      have ih := length_keyWrites_le (i + 1) hrest
      have hquote : (asBytes "\"").length = 1 := by decide
      have hcomma : (if i > 0 then [asBytes ","] else []).flatten.length ≤ 1 := by
        split <;> decide
      simp only [keyWrites, List.flatten_append, List.flatten_cons, List.flatten_nil,
        List.length_append, List.length_cons, List.length_nil]
      omega

/-- The buffer of `get_multiple_accounts` has room for its keys, however many they are. -/
theorem standsFor_multipleAccounts (he : e.Base58) (pubkeys : List Pubkey)
    (commitment : Commitment) :
  StandsFor (getMultipleAccounts e pubkeys commitment).params
    (multipleAccountsData (pubkeys.map fun p => e.base58Encode32 p.bytes) commitment)
  := by
  have hkeys : ∀ text ∈ pubkeys.map fun p => e.base58Encode32 p.bytes,
      text.length ≤ 44 ∧ text.all isPlain = true := by
    intro text htext
    obtain ⟨pubkey, -, rfl⟩ := List.mem_map.mp htext
    exact ⟨he.length_le pubkey.bytes, he.plain pubkey.bytes⟩
  apply standsFor_written (multipleAccounts_text _ commitment)
  · apply plain_multipleAccountsData fun text htext => (hkeys text htext).2
  · have hwrites := length_keyWrites_le 0 fun text htext => (hkeys text htext).1
    have hcommitment : commitment.asStr.length ≤ 9 := by cases commitment <;> decide
    have hopen : (asBytes "[[").length = 2 := by decide
    have hmiddle : (asBytes "],\x7b\"encoding\":\"base64\",\"commitment\":\"").length = 37 := by
      decide
    have hclose : (asBytes "\"\x7d]").length = 3 := by decide
    rw [← multipleAccounts_text]
    simp only [List.flatten_append, List.flatten_cons, List.flatten_nil, List.length_append,
      List.length_nil]
    omega

/-- The parameters of every method stand for what it is called for. -/
theorem IsFor.standsFor (he : e.Base58) {g : Getter} {d : Data} (h : IsFor e g d) :
  StandsFor g.params d
  := by
  cases h with
  | getLatestBlockhash commitment => apply standsFor_ofCommitment
  | getBalance pubkey commitment => apply standsFor_ofPubkey he
  | getTransactionCount commitment => apply standsFor_ofCommitment
  | getSlot commitment => apply standsFor_ofCommitment
  | getBlockHeight commitment => apply standsFor_ofCommitment
  | getHealth => apply standsFor_bare
  | getVersion => apply standsFor_bare
  | getAccountInfo pubkey commitment => apply standsFor_ofAccount he
  | getMultipleAccounts pubkeys commitment => apply standsFor_multipleAccounts he
  | getProgramAccounts programId commitment => apply standsFor_ofAccount he
  | getTokenAccountBalance pubkey commitment => apply standsFor_ofPubkey he

/-! ### Requests and answers -/

variable {δ : Type} {phr : Phr δ} {b : Build} {decoders : Decoders} {g : Getter} {d : Data}
variable {x : Nat → Readings} {c c' : SolanaRpcClient} {turns : List Pass}

/-- The request calls the method, with JSON that stands for the data as its parameters. -/
def Requests (url : UrlParts) (method : Bytes) (d : Data) (request : Bytes) : Prop :=
  ∃ id params, request = postText url (requestText id method params) ∧ StandsFor params d

/-- Whatever the client meets, a method fails without having sent a request, or each request that it
sends has all of the parameters that the method is called for. -/
theorem run_asks (he : e.Base58) (h : IsFor e g d) (phr : Phr δ) (b : Build) (decoders : Decoders)
    (x : Nat → Readings) (c : SolanaRpcClient) (turns : List Pass) :
  (run phr b decoders g x c turns).Holds (fun c' => Asks (Requests c.url g.method d) c c c')
    fun r _ => (∃ err, r.1 = .error (.failed err) ∧ r.2.requests = c.requests)
      ∨ Asks (Requests c.url g.method d) c c r.2
  := by
  have hrequests : ∀ request, CallText c.url g.method g.params request →
      Requests c.url g.method d request := by
    rintro _ ⟨id, rfl⟩
    exact ⟨id, g.params, rfl, h.standsFor he⟩
  apply call_asked.andThen
  · intro c' hasks
    apply hasks.imp hrequests
  · rintro ⟨result, c'⟩ rest hasked
    rcases hasked with hasks | ⟨-, hrefused, hsame⟩
    · cases result with
      | error err => exact .inr (hasks.imp hrequests)
      | ok scan => exact .inr (hasks.imp hrequests)
    · rcases hrefused with rfl | rfl
      · exact .inl ⟨_, rfl, hsame⟩
      · exact .inl ⟨_, rfl, hsame⟩

/-- The keys of a hundred accounts are asked for in full, also on the second connection, when the
first was closed after 200 bytes. -/
theorem run_asks_zeroPubkey :
  (run (Phr.ofBlock [0] 200 []) checkedBuild noDecoders
      (getMultipleAccounts zeroEncoders (List.replicate 100 zeroPubkey) .finalized)
      (fun _ => { connect := { socket := 4, connect := 0 } }) plainClient
      [partTurn 200, closedTurn, partTurn 0, partTurn 100]).Holds
    (fun c' => Asks (Requests plainUrl (asBytes "getMultipleAccounts")
      (multipleAccountsData (List.map (fun p => zeroEncoders.base58Encode32 p.bytes)
        (List.replicate 100 zeroPubkey)) .finalized)) plainClient plainClient c')
    fun r _ => (∃ err, r.1 = .error (.failed err) ∧ r.2.requests = plainClient.requests)
      ∨ Asks (Requests plainUrl (asBytes "getMultipleAccounts")
        (multipleAccountsData (List.map (fun p => zeroEncoders.base58Encode32 p.bytes)
          (List.replicate 100 zeroPubkey)) .finalized)) plainClient plainClient r.2
  := run_asks zeroEncoders_base58 (.getMultipleAccounts _ _) _ _ _ _ plainClient _

/-- The value is read from the answer to the last request of the call: from its result, when the
answer is a document. -/
def ReadFromOwn (server : Server phr) (decoders : Decoders) (g : Getter) (c c' : SolanaRpcClient)
    (value : g.kind.Result) : Prop :=
  ∃ m, AnswersCall server g.method g.params c c' m
    ∧ ∀ reply : Text, m.body = reply.render → g.kind.readFrom decoders reply.value = .ok value

/-- The parser of a response agrees with the reader of its tree. -/
theorem gotten_text {reply : Text} {scan : JsonScan} {kind : Kind}
    (h : parseResponse reply.render = some (.ok scan)) {value : kind.Result}
    (hvalue : gotten (kind.parse decoders scan) = .ok value) :
  kind.readFrom decoders reply.value = .ok value
  := by
  have hfacing := @Kind.parseFrom_facing decoders _ kind _ _ (after_text reply)
  rw [parseResponse, JsonScan.new_text, Option.bind_eq_bind, Option.bind_some] at h
  rw [Kind.parseFrom, h, Option.bind_eq_bind, Option.bind_some] at hfacing
  dsimp only at hfacing
  rw [hfacing] at hvalue
  cases hread : kind.readFrom decoders reply.value with
  | error err =>
    rw [hread] at hvalue
    cases hvalue
  | ok value' =>
    rw [hread, gotten] at hvalue
    exact congrArg Except.ok (Except.ok.inj hvalue)

/-- In any history of a client, a value that a method returns is read from the answer to its own
request, which has all of its parameters, if nothing was outstanding before or the client has
connected again. Then nothing is outstanding. -/
theorem run_answered (he : e.Base58) (h : IsFor e g d) (decoders : Decoders) (server : Server phr)
    {c₀ : SolanaRpcClient} (hconnected : Connected b c₀)
    (hreached : Relation.ReflTransGen (Step phr b) c₀ c) (x : Nat → Readings) (turns : List Pass) :
  StandsFor g.params d
    ∧ (run phr b decoders g x c turns).Holds (fun _ => True) fun r _ =>
      ∀ value, r.1 = .ok value → c.Settled server ∨ r.2.lost ≠ c.lost → r.2.Served server →
        r.2.Settled server ∧ ReadFromOwn server decoders g c r.2 value
  := by
  use h.standsFor he
  have hcalled := @call_called _ phr b c turns g.method g.params x server
    (length_le_reached server hconnected hreached)
  apply hcalled.andThen
  · intro c' _
    trivial
  · rintro ⟨result, c'⟩ rest hcalled
    cases result with
    | error err =>
      intro value hvalue
      cases hvalue
    | ok scan =>
      intro value hvalue hwhen hserved
      obtain ⟨hsettled, m, hanswers, hparse⟩ := hcalled.ok scan rfl hwhen hserved
      refine ⟨hsettled, m, hanswers, ?_⟩
      intro reply hreply
      rw [hreply] at hparse
      apply gotten_text hparse hvalue

theorem run_answered_getHealth :
  ∃ c, run replyPhr checkedBuild noDecoders getHealth (fun _ => {}) plainClient
      [sendingTurn (reply 1).bytes] = .done (.ok (), c) []
    ∧ c.Settled replies ∧ ReadFromOwn replies noDecoders getHealth plainClient c ()
  := by
  obtain ⟨r, conn, scratch, -, -, hevents, hcall⟩ :=
    @getHealth_reply plainClient 1 (by decide) rfl idle_plainClient rfl
  have hrun : run replyPhr checkedBuild noDecoders getHealth (fun _ => {}) plainClient
      [sendingTurn (reply 1).bytes]
      = .done (.ok (), { plainClient with nextId := 2, conn := conn, scratch := scratch }) [] := by
    have hgotten : gotten (Kind.health.parse noDecoders { data := replyBody 1, pos := 52 })
        = .ok () := by
      decide
    change (SolanaRpcClient.getHealth plainClient [sendingTurn (reply 1).bytes]).andThen id _ = _
    rw [hcall]
    change Turns.Ended.done (gotten (Kind.health.parse noDecoders _), _) _ = _
    rw [hgotten]
    rfl
  have hanswered := (run_answered zeroEncoders_base58 .getHealth noDecoders replies
    connected_plainClient .refl (fun _ => {}) [sendingTurn (reply 1).bytes]).2
  have hserved : Serves (replies 0) conn.events := serves_replies hevents
  have hsettled : plainClient.Settled replies :=
    connected_settled connected_plainClient (Serves.nil.pump List.nil_prefix)
  rw [hrun] at hanswered
  exact ⟨_, hrun, hanswered () rfl (.inl hsettled) hserved⟩

end Getter

end FdRpc

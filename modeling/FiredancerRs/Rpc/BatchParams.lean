import FiredancerRs.Rpc.Params
import FiredancerRs.Rpc.PlainCall

/-!
# The parameters of batch entries

The constructors of `BatchEntry`. An entry has room for 256 bytes of parameters, and what does not
fit is left out, so a batch may ask for something else than its entries were made for
(`completeOrRejected_iff`).
-/

open FdEd25519 Json

namespace FdRpc

/-- The encoders that the client calls. -/
structure Encoders where
  /-- `fd_ed25519::base58::encode_32` -/
  base58Encode32 : Bytes32 → Bytes
  /-- `fd_base64::encode` -/
  base64Encode : Bytes → Bytes

/-- The characters of base58. -/
def base58Alphabet : Bytes :=
  asBytes "123456789ABCDEFGHJKLMNPQRSTUVWXYZabcdefghijkmnopqrstuvwxyz"

/-- The encoding of 32 bytes as base58 takes at most 44 characters, all of the alphabet. -/
structure Encoders.Base58 (e : Encoders) : Prop where
  length_le (key : Bytes32) : (e.base58Encode32 key).length ≤ 44
  alphabet (key : Bytes32) : ∀ c ∈ e.base58Encode32 key, c ∈ base58Alphabet

theorem Encoders.Base58.plain {e : Encoders} (he : e.Base58) (key : Bytes32) :
  (e.base58Encode32 key).all isPlain = true
  := by
  have hplain : ∀ c ∈ base58Alphabet, isPlain c = true :=
    List.forall_iff_forall_mem.mp (by decide)
  apply List.all_eq_true.mpr
  intro c hc
  apply hplain c (he.alphabet key c hc)

/-! ### Constructors -/

namespace BatchEntry

/-- An entry whose parameters a function has formatted into a buffer of 256 bytes. -/
def formatted (method : Bytes) (r : Nat × Bytes) (h : r.2.length = 256 ∧ r.1 ≤ 256) :
    BatchEntry where
  method := method
  params := r.2
  paramsLen := r.1
  length_params := h.1
  paramsLen_le := h.2

theorem fmtWrites_fits (parts : List Bytes) :
  (fmtWrites (List.replicate 256 0) parts).2.length = 256
    ∧ (fmtWrites (List.replicate 256 0) parts).1 ≤ 256
  := by
  have hspec := (fmtWrites_spec (List.replicate 256 0) parts).2
  rwa [List.length_replicate] at hspec

theorem fmtCommitmentParams_fits (commitment : Commitment) :
  (fmtCommitmentParams (List.replicate 256 0) commitment).2.length = 256
    ∧ (fmtCommitmentParams (List.replicate 256 0) commitment).1 ≤ 256
  := by
  rw [commitmentParams_text]
  simp only [List.length_append, List.length_take, List.length_drop, List.length_replicate]
  omega

/-- The constructors whose only parameter is a commitment. -/
def ofCommitment (method : Bytes) (commitment : Commitment) : BatchEntry :=
  formatted method (fmtCommitmentParams (List.replicate 256 0) commitment)
    (fmtCommitmentParams_fits commitment)

/-- The constructors whose parameters are a key and a commitment. -/
def ofPubkey (e : Encoders) (method : Bytes) (pubkey : Bytes32) (commitment : Commitment) :
    BatchEntry :=
  formatted method
    (fmtPubkeyCommitmentParams (List.replicate 256 0) (e.base58Encode32 pubkey) commitment)
    (fmtWrites_fits _)

/-- The constructors whose parameters are a key and the options of a request for accounts. -/
def ofAccount (e : Encoders) (method : Bytes) (pubkey : Pubkey) (commitment : Commitment) :
    BatchEntry :=
  formatted method
    (fmtAccountInfoParams (List.replicate 256 0) (e.base58Encode32 pubkey.bytes) commitment)
    (fmtWrites_fits _)

/-- The constructors without parameters. -/
def bare (method : Bytes) : BatchEntry :=
  formatted method (2, List.replicate 256 0) ⟨List.length_replicate, by decide⟩

/-- `BatchEntry::get_slot` -/
def getSlot : Commitment → BatchEntry := ofCommitment (asBytes "getSlot")

/-- `BatchEntry::get_block_height` -/
def getBlockHeight : Commitment → BatchEntry := ofCommitment (asBytes "getBlockHeight")

/-- `BatchEntry::get_latest_blockhash` -/
def getLatestBlockhash : Commitment → BatchEntry := ofCommitment (asBytes "getLatestBlockhash")

/-- `BatchEntry::get_transaction_count` -/
def getTransactionCount : Commitment → BatchEntry := ofCommitment (asBytes "getTransactionCount")

/-- `BatchEntry::get_balance` -/
def getBalance (e : Encoders) : Bytes32 → Commitment → BatchEntry :=
  ofPubkey e (asBytes "getBalance")

/-- `BatchEntry::get_health` -/
def getHealth : BatchEntry := bare (asBytes "getHealth")

/-- `BatchEntry::get_version` -/
def getVersion : BatchEntry := bare (asBytes "getVersion")

/-- `BatchEntry::get_account_info` -/
def getAccountInfo (e : Encoders) : Pubkey → Commitment → BatchEntry :=
  ofAccount e (asBytes "getAccountInfo")

/-- `BatchEntry::get_multiple_accounts` -/
def getMultipleAccounts (e : Encoders) (pubkeys : List Pubkey) (commitment : Commitment) :
    BatchEntry :=
  formatted (asBytes "getMultipleAccounts")
    (fmtMultipleAccountsParams (List.replicate 256 0)
      (pubkeys.map fun p => e.base58Encode32 p.bytes) commitment)
    (fmtWrites_fits _)

/-- `BatchEntry::get_program_accounts` -/
def getProgramAccounts (e : Encoders) : Pubkey → Commitment → BatchEntry :=
  ofAccount e (asBytes "getProgramAccounts")

/-- `BatchEntry::get_token_account_balance` -/
def getTokenAccountBalance (e : Encoders) (pubkey : Pubkey) : Commitment → BatchEntry :=
  ofPubkey e (asBytes "getTokenAccountBalance") pubkey.bytes

end BatchEntry

/-- A call of a constructor of `BatchEntry`. -/
inductive BatchRequest where
  | raw (method params : Bytes)
  | getSlot (commitment : Commitment)
  | getBlockHeight (commitment : Commitment)
  | getLatestBlockhash (commitment : Commitment)
  | getTransactionCount (commitment : Commitment)
  | getBalance (pubkey : Bytes32) (commitment : Commitment)
  | getHealth
  | getVersion
  | getAccountInfo (pubkey : Pubkey) (commitment : Commitment)
  | getMultipleAccounts (pubkeys : List Pubkey) (commitment : Commitment)
  | getProgramAccounts (programId : Pubkey) (commitment : Commitment)
  | getTokenAccountBalance (pubkey : Pubkey) (commitment : Commitment)
deriving DecidableEq

namespace BatchRequest

variable (e : Encoders)

/-- The entry that the constructor makes. -/
def entry : BatchRequest → BatchEntry
  | .raw method params => .raw method params
  | .getSlot commitment => .getSlot commitment
  | .getBlockHeight commitment => .getBlockHeight commitment
  | .getLatestBlockhash commitment => .getLatestBlockhash commitment
  | .getTransactionCount commitment => .getTransactionCount commitment
  | .getBalance pubkey commitment => .getBalance e pubkey commitment
  | .getHealth => .getHealth
  | .getVersion => .getVersion
  | .getAccountInfo pubkey commitment => .getAccountInfo e pubkey commitment
  | .getMultipleAccounts pubkeys commitment => .getMultipleAccounts e pubkeys commitment
  | .getProgramAccounts programId commitment => .getProgramAccounts e programId commitment
  | .getTokenAccountBalance pubkey commitment => .getTokenAccountBalance e pubkey commitment

/-- The text is JSON that stands for the data. -/
def StandsFor (text : Bytes) (d : Data) : Prop := ∃ v : Value, text = v.render ∧ v.Denotes d

/-- The text holds the parameters that the entry is made for: those that are given, or JSON that
stands for them. -/
def Completes : BatchRequest → Bytes → Prop
  | .raw _ params, text => text = params
  | .getSlot commitment, text => StandsFor text (commitmentData commitment)
  | .getBlockHeight commitment, text => StandsFor text (commitmentData commitment)
  | .getLatestBlockhash commitment, text => StandsFor text (commitmentData commitment)
  | .getTransactionCount commitment, text => StandsFor text (commitmentData commitment)
  | .getBalance pubkey commitment, text =>
    StandsFor text (pubkeyCommitmentData (e.base58Encode32 pubkey) commitment)
  | .getHealth, text => StandsFor text (.array [])
  | .getVersion, text => StandsFor text (.array [])
  | .getAccountInfo pubkey commitment, text =>
    StandsFor text (accountInfoData (e.base58Encode32 pubkey.bytes) commitment)
  | .getMultipleAccounts pubkeys commitment, text =>
    StandsFor text
      (multipleAccountsData (pubkeys.map fun p => e.base58Encode32 p.bytes) commitment)
  | .getProgramAccounts programId commitment, text =>
    StandsFor text (accountInfoData (e.base58Encode32 programId.bytes) commitment)
  | .getTokenAccountBalance pubkey commitment, text =>
    StandsFor text (pubkeyCommitmentData (e.base58Encode32 pubkey.bytes) commitment)

/-- The parameters fit into the entry, and raw ones are not given for a method whose parameters
are replaced. -/
def Whole : BatchRequest → Prop
  | .raw method params =>
    if method = asBytes "getHealth" ∨ method = asBytes "getVersion" then params = asBytes "[]"
    else params.length ≤ 256
  | .getMultipleAccounts pubkeys commitment =>
    (multipleAccountsData (pubkeys.map fun p => e.base58Encode32 p.bytes) commitment).render.length
      ≤ 256
  | _ => True

instance (request : BatchRequest) : Decidable (request.Whole e) :=
  match request with
  | .raw method params =>
    inferInstanceAs (Decidable (if method = asBytes "getHealth" ∨ method = asBytes "getVersion"
      then params = asBytes "[]" else params.length ≤ 256))
  | .getMultipleAccounts _ _ => inferInstanceAs (Decidable (_ ≤ 256))
  | .getSlot _ => .isTrue trivial
  | .getBlockHeight _ => .isTrue trivial
  | .getLatestBlockhash _ => .isTrue trivial
  | .getTransactionCount _ => .isTrue trivial
  | .getBalance _ _ => .isTrue trivial
  | .getHealth => .isTrue trivial
  | .getVersion => .isTrue trivial
  | .getAccountInfo _ _ => .isTrue trivial
  | .getProgramAccounts _ _ => .isTrue trivial
  | .getTokenAccountBalance _ _ => .isTrue trivial

/-! ### When the parameters are complete -/

variable {e}

theorem paramsText_of_ne {entry : BatchEntry}
    (hhealth : entry.method ≠ asBytes "getHealth") (hversion : entry.method ≠ asBytes "getVersion") :
  entry.paramsText = entry.params.take entry.paramsLen
  := if_neg (not_or.mpr ⟨hhealth, hversion⟩)

theorem standsFor_text {d : Data} (h : d.Plain) :
  StandsFor d.render d
  := by
  obtain ⟨v, hrender, hdenotes⟩ := Data.exists_value h
  exact ⟨v, hrender.symm, hdenotes⟩

/-- What a constructor formats stands for its data exactly when the text of it fits. -/
theorem standsFor_formatted_iff {parts : List Bytes} {d : Data} {method : Bytes}
    (htext : parts.flatten = d.render) (hplain : d.Plain)
    (hhealth : method ≠ asBytes "getHealth") (hversion : method ≠ asBytes "getVersion") :
  StandsFor (BatchEntry.formatted method (fmtWrites (List.replicate 256 0) parts)
      (BatchEntry.fmtWrites_fits parts)).paramsText d
    ↔ d.render.length ≤ 256
  := by
  have hiff := @fmtWrites_complete_iff (List.replicate 256 0) parts d htext hplain
  rw [List.length_replicate] at hiff
  rw [← hiff, paramsText_of_ne hhealth hversion]
  rfl

theorem standsFor_ofCommitment {method : Bytes} (hhealth : method ≠ asBytes "getHealth")
    (hversion : method ≠ asBytes "getVersion") (commitment : Commitment) :
  StandsFor (BatchEntry.ofCommitment method commitment).paramsText (commitmentData commitment)
  := by
  have htake : (BatchEntry.ofCommitment method commitment).params.take
      (BatchEntry.ofCommitment method commitment).paramsLen
        = (commitmentData commitment).render := by
    have hlen : (commitmentData commitment).render.length ≤ 256 := by
      cases commitment <;> decide
    change (fmtCommitmentParams (List.replicate 256 0) commitment).2.take
      (fmtCommitmentParams (List.replicate 256 0) commitment).1 = _
    rw [commitmentParams_text, List.length_replicate, Nat.min_eq_left hlen, List.take_length,
      List.take_left]
  rw [paramsText_of_ne hhealth hversion, htake]
  apply standsFor_text (plain_commitmentData commitment)

theorem length_pubkeyCommitmentData_le {pubkey : Bytes} (h : pubkey.length ≤ 44)
    (commitment : Commitment) :
  (pubkeyCommitmentData pubkey commitment).render.length ≤ 256
  := by
  have hcommitment : commitment.asStr.length ≤ 9 := by cases commitment <;> decide
  have hopen : (asBytes "[\"").length = 2 := by decide
  have hmiddle : (asBytes "\",\x7b\"commitment\":\"").length = 17 := by decide
  have hclose : (asBytes "\"\x7d]").length = 3 := by decide
  rw [← pubkeyCommitment_text]
  simp only [List.flatten_cons, List.flatten_nil, List.length_append, List.length_nil]
  omega

theorem length_accountInfoData_le {pubkey : Bytes} (h : pubkey.length ≤ 44)
    (commitment : Commitment) :
  (accountInfoData pubkey commitment).render.length ≤ 256
  := by
  have hcommitment : commitment.asStr.length ≤ 9 := by cases commitment <;> decide
  have hopen : (asBytes "[\"").length = 2 := by decide
  have hmiddle : (asBytes "\",\x7b\"encoding\":\"base64\",\"commitment\":\"").length = 37 := by
    decide
  have hclose : (asBytes "\"\x7d]").length = 3 := by decide
  rw [← accountInfo_text]
  simp only [List.flatten_cons, List.flatten_nil, List.length_append, List.length_nil]
  omega

theorem standsFor_ofPubkey (he : e.Base58) {method : Bytes} (hhealth : method ≠ asBytes "getHealth")
    (hversion : method ≠ asBytes "getVersion") (pubkey : Bytes32) (commitment : Commitment) :
  StandsFor (BatchEntry.ofPubkey e method pubkey commitment).paramsText
    (pubkeyCommitmentData (e.base58Encode32 pubkey) commitment)
  := by
  apply (standsFor_formatted_iff (pubkeyCommitment_text _ commitment)
    (plain_pubkeyCommitmentData (he.plain pubkey) commitment) hhealth hversion).mpr
  apply length_pubkeyCommitmentData_le (he.length_le pubkey)

theorem standsFor_ofAccount (he : e.Base58) {method : Bytes}
    (hhealth : method ≠ asBytes "getHealth") (hversion : method ≠ asBytes "getVersion")
    (pubkey : Pubkey) (commitment : Commitment) :
  StandsFor (BatchEntry.ofAccount e method pubkey commitment).paramsText
    (accountInfoData (e.base58Encode32 pubkey.bytes) commitment)
  := by
  apply (standsFor_formatted_iff (accountInfo_text _ commitment)
    (plain_accountInfoData (he.plain pubkey.bytes) commitment) hhealth hversion).mpr
  apply length_accountInfoData_le (he.length_le pubkey.bytes)

theorem standsFor_bare (method : Bytes)
    (h : method = asBytes "getHealth" ∨ method = asBytes "getVersion") :
  StandsFor (BatchEntry.bare method).paramsText (.array [])
  := by
  have htext : (BatchEntry.bare method).paramsText = (Data.array []).render := if_pos h
  rw [htext]
  apply standsFor_text .array_nil

theorem paramsText_raw (method params : Bytes) :
  (BatchEntry.raw method params).paramsText
    = if method = asBytes "getHealth" ∨ method = asBytes "getVersion" then asBytes "[]"
      else params.take 256
  := by
  have htake : (BatchEntry.raw method params).params.take (BatchEntry.raw method params).paramsLen
      = params.take 256 := by
    change (params.take 256 ++ _).take (min params.length 256) = _
    rw [List.take_append_of_le_length (by rw [List.length_take]; omega), List.take_take]
    rcases Nat.le_total params.length 256 with hle | hle
    · rw [Nat.min_eq_left hle, Nat.min_eq_left hle, List.take_of_length_le (Nat.le_refl _),
        List.take_of_length_le hle]
    · rw [Nat.min_eq_right hle, Nat.min_self]
  rw [BatchEntry.paramsText, htake]
  rfl

/-- The parameters that are written for an entry are complete exactly when they fit and are not
replaced. -/
theorem completes_iff (he : e.Base58) (request : BatchRequest) :
  request.Completes e (request.entry e).paramsText ↔ request.Whole e
  := by
  cases request with
  | raw method params =>
    change (BatchEntry.raw method params).paramsText = params ↔ _
    rw [paramsText_raw, Whole]
    split
    · apply eq_comm
    · rw [List.take_eq_self_iff]
  | getMultipleAccounts pubkeys commitment =>
    apply standsFor_formatted_iff (multipleAccounts_text _ commitment) _ (by decide) (by decide)
    apply plain_multipleAccountsData
    intro text htext
    obtain ⟨pubkey, -, rfl⟩ := List.mem_map.mp htext
    apply he.plain
  | getSlot commitment =>
    apply iff_true_intro (standsFor_ofCommitment (by decide) (by decide) commitment)
  | getBlockHeight commitment =>
    apply iff_true_intro (standsFor_ofCommitment (by decide) (by decide) commitment)
  | getLatestBlockhash commitment =>
    apply iff_true_intro (standsFor_ofCommitment (by decide) (by decide) commitment)
  | getTransactionCount commitment =>
    apply iff_true_intro (standsFor_ofCommitment (by decide) (by decide) commitment)
  | getBalance pubkey commitment =>
    apply iff_true_intro (standsFor_ofPubkey he (by decide) (by decide) pubkey commitment)
  | getHealth => exact iff_true_intro (standsFor_bare _ (.inl rfl))
  | getVersion => exact iff_true_intro (standsFor_bare _ (.inr rfl))
  | getAccountInfo pubkey commitment =>
    apply iff_true_intro (standsFor_ofAccount he (by decide) (by decide) pubkey commitment)
  | getProgramAccounts programId commitment =>
    apply iff_true_intro (standsFor_ofAccount he (by decide) (by decide) programId commitment)
  | getTokenAccountBalance pubkey commitment =>
    apply iff_true_intro (standsFor_ofPubkey he (by decide) (by decide) pubkey.bytes commitment)

end BatchRequest

open Http BatchRequest SolanaRpcClient

/-! ### Batches -/

/-- The entries of a batch of requests. -/
def batchEntries (e : Encoders) (requests : List BatchRequest) : List BatchEntry :=
  requests.map (BatchRequest.entry e)

/-- Whatever the client meets, a batch whose first id is the given one returns an error, or the
parameters that are written for each entry are complete. -/
def CompleteOrRejected (e : Encoders) (id : UInt64) (requests : List BatchRequest) : Prop :=
  ∀ {δ : Type} (phr : Phr δ) (b : Build) (start : UInt64) (c : SolanaRpcClient) (turns : List Pass),
    c.nextId = id →
    (∃ err c' rest,
      batch phr b (batchEntries e requests) start c turns
        = .done (.error (.failed err), c') rest)
    ∨ ∀ request ∈ requests, request.Completes e (request.entry e).paramsText

/-- A batch that does not fit is rejected before anything is sent. -/
theorem batch_tooLarge {δ : Type} {phr : Phr δ} {b : Build} {start : UInt64} {c : SolanaRpcClient}
    {turns : List Pass} {entries : List BatchEntry}
    (h : batchRequestBufSz < batchLength c.nextId entries) :
  ∃ nextId, batch phr b entries start c turns
    = .done (.error (.failed (.jsonRpc .serializeTooLarge)), { c with nextId := nextId }) turns
  := by
  obtain ⟨nextId, hserialize⟩ := @serializeBatch_error c.nextId
    (List.replicate batchRequestBufSz 0) entries (by rwa [List.length_replicate])
  use nextId
  rw [batch_def]
  beta_reduce
  rw [hserialize]

/-- A batch that fits is pushed on an idle connection to the plain URL, and waits for its answer. -/
theorem batch_plain {δ : Type} {phr : Phr δ} {b : Build} {start : UInt64} {c : SolanaRpcClient}
    {entries : List BatchEntry} (hurl : c.url = plainUrl) (hidle : Idle c.conn)
    (h : batchLength c.nextId entries ≤ batchRequestBufSz) :
  ∃ c', batch phr b entries start c [] = .waiting c'
    ∧ c'.conn.events = c.conn.events ++ [.pushed (plainRequest
        (asBytes "[" ++ (entriesText c.nextId 0 entries ++ asBytes "]")))]
  := by
  obtain ⟨len, buf, nextId, hserialize⟩ := @serializeBatch_of_le c.nextId
    (List.replicate batchRequestBufSz 0) entries (by rwa [List.length_replicate])
  obtain ⟨hwritten, hlen, hle⟩ := serializeBatch_ok hserialize
  have hreq : (buf.take len).length ≤ batchRequestBufSz := by
    rw [List.length_take_of_le hle]
    rw [hlen, List.length_replicate] at hle
    apply hle
  have hexchange := @exchange_plain _ phr b { c with nextId := nextId } start _ hurl hidle hreq
  rw [hwritten] at hexchange
  refine ⟨{ c with
    nextId := nextId
    conn := c.conn.txPush (plainRequest
      (asBytes "[" ++ (entriesText c.nextId 0 entries ++ asBytes "]"))) }, ?_, rfl⟩
  rw [batch_def]
  beta_reduce
  rw [hserialize]
  simp only [hwritten, hexchange, Turns.Ended.andThen]
  rfl

/-- The parameters of a batch are complete or rejected exactly when the batch does not fit into
its buffer of 8192 bytes, or each of its entries has the parameters that it was made for. -/
theorem completeOrRejected_iff {e : Encoders} (he : e.Base58) (id : UInt64)
    (requests : List BatchRequest) :
  CompleteOrRejected e id requests
    ↔ batchRequestBufSz < batchLength id (batchEntries e requests)
      ∨ ∀ request ∈ requests, request.Whole e
  := by
  simp only [CompleteOrRejected, completes_iff he]
  constructor
  · intro h
    by_cases hfit : batchRequestBufSz < batchLength id (batchEntries e requests)
    · exact .inl hfit
    · right
      obtain ⟨c', hwaits, -⟩ := @batch_plain _ (Phr.ofBlock [0] 200 []) checkedBuild 0
        { plainClient with nextId := id } _ rfl idle_plainClient (Nat.not_lt.mp hfit)
      rcases h (Phr.ofBlock [0] 200 []) checkedBuild 0 { plainClient with nextId := id } [] rfl
        with ⟨err, c'', rest, hdone⟩ | hwhole
      · rw [hwaits] at hdone
        cases hdone
      · apply hwhole
  · rintro (hlarge | hwhole) δ phr b start c turns rfl
    · obtain ⟨nextId, hdone⟩ := @batch_tooLarge _ phr b start c turns _ hlarge
      exact .inl ⟨_, _, _, hdone⟩
    · exact .inr hwhole

/-- An encoder that is right about the key whose bytes are all zero. -/
def zeroEncoders : Encoders where
  base58Encode32 _ := List.replicate 32 0x31
  base64Encode _ := []

theorem zeroEncoders_base58 :
  zeroEncoders.Base58
  where
  length_le _ := by
    rw [zeroEncoders, List.length_replicate]
    decide
  alphabet _ c hc := by
    rw [List.eq_of_mem_replicate hc]
    decide

/-- The key whose bytes are all zero. -/
def zeroPubkey : Pubkey := ⟨Vector.replicate 32 0⟩

/-- A batch with one entry, for as many accounts. -/
def zeroAccounts (n : Nat) : List BatchRequest :=
  [.getMultipleAccounts (List.replicate n zeroPubkey) .finalized]

theorem completeOrRejected_iff_zeroAccounts :
  CompleteOrRejected zeroEncoders 1 (zeroAccounts 5)
  := by
  apply (completeOrRejected_iff zeroEncoders_base58 1 (zeroAccounts 5)).mpr
  right
  intro request hrequest
  obtain rfl := List.mem_singleton.mp hrequest
  decide +kernel

/-- With seven keys the text in front of the commitment does not fit, and it is left out. -/
theorem not_completeOrRejected :
  ¬CompleteOrRejected zeroEncoders 1 (zeroAccounts 7)
  := by
  intro h
  have hfit : batchLength 1 (batchEntries zeroEncoders (zeroAccounts 7)) ≤ batchRequestBufSz := by
    apply (batchLength_le 1 _).trans
    decide
  obtain ⟨c', hwaits, -⟩ := @batch_plain _ (Phr.ofBlock [0] 200 []) checkedBuild 0 plainClient _
    rfl idle_plainClient hfit
  rcases h (Phr.ofBlock [0] 200 []) checkedBuild 0 plainClient [] rfl
    with ⟨err, c'', rest, hdone⟩ | hcomplete
  · rw [hwaits] at hdone
    cases hdone
  · have hwhole := (completes_iff zeroEncoders_base58 _).mp (hcomplete _ List.mem_cons_self)
    revert hwhole
    decide +kernel

end FdRpc

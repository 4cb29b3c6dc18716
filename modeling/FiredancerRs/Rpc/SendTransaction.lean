import FiredancerRs.Lib.Base64
import FiredancerRs.Rpc.BatchParams
import FiredancerRs.Rpc.Read
import FiredancerRs.Rpc.Requests

/-!
# Sending a transaction

`send_transaction` formats its parameters into 2048 bytes, and what does not fit is left out. So it
sends the whole transaction exactly when the text of the parameters fits (`carriesWhole_iff`).
-/

open FdEd25519 Json

namespace FdRpc

open Http BatchRequest

variable {δ : Type} (phr : Phr δ) (b : Build) (e : Encoders)
variable (base58Decode64 : Bytes → Option (Vector UInt8 64))

namespace SolanaRpcClient

/-- The signature in the response to `sendTransaction`. -/
def sentSignature (result : JsonScan) : Except Abort Signature :=
  match resultString result with
  | none => .error (.panicked .sliceIndex)
  | some (.error err) => .error (.failed (.jsonRpc err))
  | some (.ok sigStr) =>
    match base58Decode64 sigStr with
    | none => .error (.failed .base58DecodeFailed)
    | some sig => .ok ⟨sig⟩

/-- `send_transaction` -/
@[irreducible]
def sendTransaction (txBytes : Bytes) (opts : SendTransactionOpts) (x : Nat → Readings)
    (c : SolanaRpcClient) (turns : List Pass) : Exec Signature :=
  match fromUtf8 (e.base64Encode txBytes) with
  | none => .done (.error (.failed (.badResponse "base64 encode produced invalid utf8")), c) turns
  | some encodedStr =>
    match fmtSendTxParams (List.replicate 2048 0) encodedStr opts with
    | none => .done (.error (.panicked .sliceIndex), c) turns
    | some (paramsLen, params) =>
      (call phr b (asBytes "sendTransaction") (params.take paramsLen) x c turns).andThen id
        fun (result, c) rest =>
          match result with
          | .error err => .done (.error err, c) rest
          | .ok scan => .done (sentSignature base58Decode64 scan, c) rest

end SolanaRpcClient

open SolanaRpcClient

variable {phr b e base58Decode64}
variable {c : SolanaRpcClient} {turns : List Pass} {x : Nat → Readings}

/-- The request sends the whole transaction, with the options. -/
def Carries (url : UrlParts) (txBytes : Bytes) (opts : SendTransactionOpts) (request : Bytes) :
    Prop :=
  ∃ id params, request = postText url (requestText id (asBytes "sendTransaction") params)
    ∧ StandsFor params (sendTxData (Base64.encode txBytes) opts)

/-- Whatever the client meets, it returns an error without having sent a request, or it sends the
whole transaction, with each request that it sends. -/
def CarriesWhole (e : Encoders) (txBytes : Bytes) (opts : SendTransactionOpts) : Prop :=
  ∀ (δ : Type) (phr : Phr δ) (b : Build) (base58Decode64 : Bytes → Option (Vector UInt8 64))
    (x : Nat → Readings) (c : SolanaRpcClient) (turns : List Pass),
    (sendTransaction phr b e base58Decode64 txBytes opts x c turns).Holds
      (fun c' => Asks (Carries c.url txBytes opts) c c c')
      fun r _ => (∃ err, r.1 = .error (.failed err) ∧ r.2.requests = c.requests)
        ∨ Asks (Carries c.url txBytes opts) c c r.2

/-- The parameters that are sent. -/
def sentParams (txBytes : Bytes) (opts : SendTransactionOpts) : Bytes :=
  let written := fmtWrites (List.replicate 2048 0) (sendTxWrites (Base64.encode txBytes) opts
    (opts.maxRetries.map fun n => Decimal.render n.toNat))
  written.2.take written.1

theorem plain_encode (bytes : Bytes) :
  (Base64.encode bytes).all isPlain = true
  := by
  have hplain : ∀ c ∈ Base64.alphabet, isPlain c = true :=
    List.forall_iff_forall_mem.mp (by decide)
  apply List.all_eq_true.mpr
  intro c hc
  rcases Base64.isChar_of_mem_encode hc with hmem | rfl
  · apply hplain c hmem
  · decide

theorem length_sentParams_le (txBytes : Bytes) (opts : SendTransactionOpts) :
  (sentParams txBytes opts).length ≤ 2048
  := by
  obtain ⟨-, -, hle⟩ := fmtWrites_spec (List.replicate 2048 0) (sendTxWrites
    (Base64.encode txBytes) opts (opts.maxRetries.map fun n => Decimal.render n.toNat))
  rw [List.length_replicate] at hle
  apply (List.length_take_le _ _).trans hle

/-- The parameters that are sent stand for the transaction exactly when the text of them fits. -/
theorem standsFor_sentParams_iff (txBytes : Bytes) (opts : SendTransactionOpts) :
  StandsFor (sentParams txBytes opts) (sendTxData (Base64.encode txBytes) opts)
    ↔ (sendTxData (Base64.encode txBytes) opts).render.length ≤ 2048
  := by
  have hiff := @fmtWrites_complete_iff (List.replicate 2048 0) _ _
    (sendTx_text (Base64.encode txBytes) opts) (plain_sendTxData (plain_encode txBytes) opts)
  rwa [List.length_replicate] at hiff

/-- `send_transaction` is a call with these parameters. -/
theorem sendTransaction_eq (he : e.base64Encode = Base64.encode) (txBytes : Bytes)
    (opts : SendTransactionOpts) :
  sendTransaction phr b e base58Decode64 txBytes opts x c turns
    = (call phr b (asBytes "sendTransaction") (sentParams txBytes opts) x c turns).andThen id
      fun (result, c) rest =>
        match result with
        | .error err => .done (.error err, c) rest
        | .ok scan => .done (sentSignature base58Decode64 scan, c) rest
  := by
  have hutf8 : fromUtf8 (Base64.encode txBytes) = some (Base64.encode txBytes) := by
    apply JsonScan.fromUtf8_ascii
    intro c hc
    have hplain := List.all_eq_true.mp (plain_encode txBytes) c hc
    simp only [isPlain, Bool.and_eq_true, decide_eq_true_iff] at hplain
    apply hplain.2
  unfold sendTransaction
  rw [he, hutf8]
  simp only [fmtSendTxParams_eq]
  rfl

/-- Each request of the call sends the whole transaction when the parameters stand for it. -/
theorem carries_of_callText {url : UrlParts} {txBytes : Bytes} {opts : SendTransactionOpts}
    (h : StandsFor (sentParams txBytes opts) (sendTxData (Base64.encode txBytes) opts))
    (request : Bytes)
    (hrequest : CallText url (asBytes "sendTransaction") (sentParams txBytes opts) request) :
  Carries url txBytes opts request
  := by
  obtain ⟨id, rfl⟩ := hrequest
  exact ⟨id, sentParams txBytes opts, rfl, h⟩

/-- What a call sends is whole when the parameters stand for the transaction. -/
theorem sendTransaction_whole (he : e.base64Encode = Base64.encode) {txBytes : Bytes}
    {opts : SendTransactionOpts}
    (h : StandsFor (sentParams txBytes opts) (sendTxData (Base64.encode txBytes) opts)) :
  CarriesWhole e txBytes opts
  := by
  intro δ phr b base58Decode64 x c turns
  rw [sendTransaction_eq he]
  have hcarries := @carries_of_callText c.url txBytes opts h
  apply call_asked.andThen
  · intro c' hasks
    apply hasks.imp hcarries
  · rintro ⟨result, c'⟩ rest hasked
    rcases hasked with hasks | ⟨-, hrefused, hsame⟩
    · cases result with
      | error err => exact .inr (hasks.imp hcarries)
      | ok scan => exact .inr (hasks.imp hcarries)
    · rcases hrefused with rfl | rfl
      · exact .inl ⟨_, rfl, hsame⟩
      · exact .inl ⟨_, rfl, hsame⟩

/-- On an idle connection to the plain URL the request is pushed, and waits for its answer. -/
theorem sendTransaction_plain (he : e.base64Encode = Base64.encode) (txBytes : Bytes)
    (opts : SendTransactionOpts) (hurl : c.url = plainUrl) (hidle : Idle c.conn) :
  ∃ nextId, sendTransaction phr b e base58Decode64 txBytes opts x c []
    = .waiting { c with
        nextId := nextId
        conn := c.conn.txPush (plainRequest
          (requestText c.nextId (asBytes "sendTransaction") (sentParams txBytes opts))) }
  := by
  use c.nextId + 1
  have hparams := length_sentParams_le txBytes opts
  have hmethod : (asBytes "sendTransaction").length = 15 := by decide
  have hlen := length_requestText c.nextId (asBytes "sendTransaction") (sentParams txBytes opts)
  have hexchange := @exchange_plain _ phr b { c with nextId := c.nextId + 1 } (x 0).start
    (requestText c.nextId (asBytes "sendTransaction") (sentParams txBytes opts)) hurl hidle
    (by rw [batchRequestBufSz]; omega)
  rw [← sendAndRecv_eq (by rw [requestBufSz]; omega)] at hexchange
  rw [sendTransaction_eq he, call_of_waiting hexchange]
  rfl

/-- A request that sends the whole transaction has room for it. -/
theorem Carries.length_le {txBytes : Bytes} {opts : SendTransactionOpts} {params : Bytes}
    (h : Carries plainUrl txBytes opts
      (plainRequest (requestText 1 (asBytes "sendTransaction") params))) :
  (sendTxData (Base64.encode txBytes) opts).render.length ≤ params.length
  := by
  obtain ⟨id, params', hrequest, v, rfl, hdenotes⟩ := h
  have hlen := length_body_eq hrequest
  have hid : (Decimal.render (1 : UInt64).toNat).length = 1 := by decide
  have hid' := List.length_pos_of_ne_nil (Decimal.render_ne_nil id.toNat)
  simp only [requestText, requestParts, List.flatten_cons, List.flatten_nil, List.length_append,
    List.length_nil, hid] at hlen
  apply hdenotes.length_le.trans
  omega

/-- A transaction that is sent as a whole has room in the buffer. -/
theorem length_le_of_carriesWhole (he : e.base64Encode = Base64.encode) {txBytes : Bytes}
    {opts : SendTransactionOpts} (h : CarriesWhole e txBytes opts) :
  (sendTxData (Base64.encode txBytes) opts).render.length ≤ 2048
  := by
  have hrun := h Unit (Phr.ofBlock [0] 200 []) checkedBuild (fun _ => none) (fun _ => {}) plainClient []
  obtain ⟨nextId, hwaits⟩ := @sendTransaction_plain _ (Phr.ofBlock [0] 200 []) checkedBuild e
    (fun _ => none) plainClient (fun _ => {}) he txBytes opts rfl idle_plainClient
  rw [hwaits] at hrun
  obtain ⟨⟨-, -, hadds⟩, -⟩ := hrun
  have hconn := hadds _ (List.mem_append_right _ List.mem_cons_self)
  have hcarries : Carries plainUrl txBytes opts
      (plainRequest (requestText 1 (asBytes "sendTransaction") (sentParams txBytes opts))) := by
    apply hconn.of_nil rfl
    rw [Connection.requestsIn_txPush]
    apply List.mem_append_right _ List.mem_cons_self
  apply hcarries.length_le.trans (length_sentParams_le txBytes opts)

/-- A transaction is sent as a whole exactly when the text of the parameters with it takes at most
2048 bytes. -/
theorem carriesWhole_iff (he : e.base64Encode = Base64.encode) (txBytes : Bytes)
    (opts : SendTransactionOpts) :
  CarriesWhole e txBytes opts
    ↔ (sendTxData (Base64.encode txBytes) opts).render.length ≤ 2048
  := by
  constructor
  · apply length_le_of_carriesWhole he
  · intro hfit
    apply sendTransaction_whole he ((standsFor_sentParams_iff txBytes opts).mpr hfit)

/-- An encoder of base64. -/
def base64Encoders : Encoders where
  base58Encode32 _ := List.replicate 32 0x31
  base64Encode := Base64.encode

theorem base64Encode_eq :
  base64Encoders.base64Encode = Base64.encode
  := rfl

/-- `SendTransactionOpts::default` -/
def defaultOpts : SendTransactionOpts where
  skipPreflight := false
  preflightCommitment := .finalized
  maxRetries := none

/-- A transaction of zeros. -/
def zeroTx (n : Nat) : Bytes := List.replicate n 0

theorem length_sendTxData (text : Bytes) :
  (sendTxData text defaultOpts).render.length = text.length + 60
  := by
  have hopen : (asBytes "[\"").length = 2 := by decide
  have hencoding : (asBytes "\",\x7b\"encoding\":\"base64\"").length = 22 := by decide
  have hcommitment : (asBytes ",\"preflightCommitment\":\"").length = 24 := by decide
  have hfinalized : (asBytes "finalized").length = 9 := by decide
  have hquote : (asBytes "\"").length = 1 := by decide
  have hclose : (asBytes "\x7d]").length = 2 := by decide
  rw [← sendTx_text]
  simp only [defaultOpts, sendTxWrites, Commitment.asStr, Option.map_none, Bool.false_eq_true,
    if_false, List.nil_append, List.append_nil, List.flatten_append, List.flatten_cons,
    List.flatten_nil, List.length_append]
  omega

/-- A transaction of the size of a packet. -/
theorem carriesWhole_iff_zeroTx :
  CarriesWhole base64Encoders (zeroTx 1232) defaultOpts
  := by
  apply (carriesWhole_iff base64Encode_eq (zeroTx 1232) defaultOpts).mpr
  rw [length_sendTxData, Base64.length_encode, zeroTx, List.length_replicate]
  decide

/-- The encoding of 1600 bytes is left out. -/
theorem not_carriesWhole :
  ¬CarriesWhole base64Encoders (zeroTx 1600) defaultOpts
  := by
  intro h
  have hfit := length_le_of_carriesWhole base64Encode_eq h
  rw [length_sendTxData, Base64.length_encode, zeroTx, List.length_replicate] at hfit
  revert hfit
  decide

end FdRpc

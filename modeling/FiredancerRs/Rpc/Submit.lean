import FiredancerRs.Rpc.SendTransaction
import FiredancerRs.Txn.Request

/-!
# Submitting a transaction

A transaction that is built fits a packet, so the text of the parameters with it fits the buffer of
`send_transaction`. Whatever the client then meets, each request that it sends is one from which a
server reads the transaction that was asked for, with its signatures (`submitted`).
-/

open FdEd25519 FdTxn Json

namespace FdRpc

open Http BatchRequest SolanaRpcClient

variable {e : Encoders} {url : UrlParts} {opts : SendTransactionOpts} {wire : WireTransaction}

/-- A server that decodes the base64 text of the request reads the transaction, with the options. -/
def Submits (url : UrlParts) (opts : SendTransactionOpts) (wire : WireTransaction)
    (request : Bytes) : Prop :=
  ∃ id params text bytes,
    request = postText url (requestText id (asBytes "sendTransaction") params)
      ∧ StandsFor params (sendTxData text opts) ∧ Base64.decode text = some bytes
      ∧ decodeTransaction 64 bytes = some (wire, [])

/-- Whatever the client meets, it returns an error without having sent a request, or each request
that it sends submits the transaction. -/
def SubmitsWhole (e : Encoders) (txBytes : Bytes) (opts : SendTransactionOpts)
    (wire : WireTransaction) : Prop :=
  ∀ (δ : Type) (phr : Phr δ) (b : Build) (base58Decode64 : Bytes → Option (Vector UInt8 64))
    (x : Nat → Readings) (c : SolanaRpcClient) (turns : List Pass),
    (sendTransaction phr b e base58Decode64 txBytes opts x c turns).Holds
      (fun c' => Asks (Submits c.url opts wire) c c c')
      fun r _ => (∃ err, r.1 = .error (.failed err) ∧ r.2.requests = c.requests)
        ∨ Asks (Submits c.url opts wire) c c r.2

theorem Commitment.length_asStr (commitment : Commitment) :
  commitment.asStr.length = 9
  := by
  cases commitment <;> decide

/-- The text of the options is short. -/
theorem length_render_sendTxData_le (text : Bytes) (opts : SendTransactionOpts) :
  (sendTxData text opts).render.length ≤ text.length + 105
  := by
  have hopen : (asBytes "[\"").length = 2 := by decide
  have hencoding : (asBytes "\",\x7b\"encoding\":\"base64\"").length = 22 := by decide
  have hpreflight : (asBytes ",\"skipPreflight\":true").length = 21 := by decide
  have hcommitment : (asBytes ",\"preflightCommitment\":\"").length = 24 := by decide
  have hquote : (asBytes "\"").length = 1 := by decide
  have hretries : (asBytes ",\"maxRetries\":").length = 14 := by decide
  have hclose : (asBytes "\x7d]").length = 2 := by decide
  have hasStr := opts.preflightCommitment.length_asStr
  have hskip : (if opts.skipPreflight then
      [asBytes ",\"skipPreflight\":true"] else []).flatten.length ≤ 21 := by
    cases opts.skipPreflight with
    | false => exact Nat.zero_le _
    | true => exact Nat.le_of_eq hpreflight
  rw [← sendTx_text]
  cases opts.maxRetries with
  | none =>
    simp only [sendTxWrites, Option.map_none, List.nil_append, List.flatten_append, List.flatten_cons,
      List.flatten_nil, List.append_nil, List.length_append]
    omega
  | some retries =>
    have hlt := retries.toNat_lt
    have hdigits : (Decimal.render retries.toNat).length ≤ 10 :=
      Decimal.length_render_le (by omega) (by decide)
    simp only [sendTxWrites, Option.map_some, List.flatten_append, List.flatten_cons,
      List.flatten_nil, List.append_nil, List.length_append]
    omega

/-- What carries the bytes of a transaction submits it. -/
theorem Carries.submits {txBytes request : Bytes} (h : Carries url txBytes opts request)
    (hwire : decodeTransaction 64 txBytes = some (wire, [])) :
  Submits url opts wire request
  := by
  obtain ⟨id, params, hrequest, hparams⟩ := h
  exact ⟨id, params, _, txBytes, hrequest, hparams, Base64.decode_encode txBytes, hwire⟩

/-- Bytes that fit a packet are sent as a whole. -/
theorem submitsWhole_of_length (he : e.base64Encode = Base64.encode) {txBytes : Bytes}
    (opts : SendTransactionOpts) (hlen : txBytes.length ≤ 1232)
    (hwire : decodeTransaction 64 txBytes = some (wire, [])) :
  SubmitsWhole e txBytes opts wire
  := by
  have hroom : (sendTxData (Base64.encode txBytes) opts).render.length ≤ 2048 := by
    have hle := length_render_sendTxData_le (Base64.encode txBytes) opts
    rw [Base64.length_encode] at hle
    omega
  have hwhole := sendTransaction_whole he ((standsFor_sentParams_iff txBytes opts).mpr hroom)
  intro δ phr b base58Decode64 x c turns
  apply (hwhole δ phr b base58Decode64 x c turns).mono
  · intro c' hasks
    apply hasks.imp
    intro request hcarries
    apply hcarries.submits hwire
  · intro r _ hended
    rcases hended with hrefused | hasks
    · exact .inl hrefused
    · right
      apply hasks.imp
      intro request hcarries
      apply hcarries.submits hwire

/-- A transaction that was asked for, built and signed is submitted, with the signatures, by each
request that the client sends, with any options. -/
theorem submitted {sys : FdTxn.Sys} (hsz : sys.signatureSz = 64) (hmtu : sys.mtu = 1232)
    (he : e.base64Encode = Base64.encode) {req : Request} {s : ArrayBuilder sys}
    (h : ReachedFor req s) {tx : ArrayTransaction sys} (hbuild : s.build = .ok tx)
    {sets : List (Nat × Vector UInt8 sys.signatureSz)}
    (hsets : ∀ set ∈ sets, set.1 < tx.signatureCount) (opts : SendTransactionOpts) :
  ∃ tx' bytes wire, tx.setSignatures sets = .ok tx' ∧ tx'.asBytes = .ok bytes
    ∧ wire.Answers req
    ∧ wire.signatures
      = (List.range tx.signatureCount).map (ArrayTransaction.lastSignature sets)
    ∧ SubmitsWhole e bytes opts wire
  := by
  obtain ⟨tx', wire, hrun, hbytes, hlen, hwire, hanswers, -, hsigs⟩ := h.signed hsz hbuild hsets
  have hdecode := hwire.decode
  rw [hsz] at hdecode
  rw [hmtu] at hlen
  exact ⟨tx', _, wire, hrun, hbytes, hanswers, hsigs, submitsWhole_of_length he opts hlen hdecode⟩

theorem submitted_sample :
  ∃ (bytes : Bytes) (wire : WireTransaction),
    wire.Answers sampleRequest ∧ wire.signatures = [.replicate 64 8, .replicate 64 9]
      ∧ SubmitsWhole base64Encoders bytes defaultOpts wire
  := by
  obtain ⟨s, tx, hreached, htx, hcount⟩ := sampleRequest_built
  have hsets : ∀ set ∈ ([(1, .replicate 64 7), (0, .replicate 64 8), (1, .replicate 64 9)] :
      List (Nat × Vector UInt8 64)), set.1 < tx.signatureCount := by
    rw [hcount]
    decide
  obtain ⟨tx', bytes, wire, -, -, hanswers, hsigs, hwhole⟩ :=
    submitted rfl rfl base64Encode_eq hreached htx hsets defaultOpts
  rw [hcount] at hsigs
  exact ⟨bytes, wire, hanswers, hsigs, hwhole⟩

end FdRpc

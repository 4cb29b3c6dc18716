import FiredancerRs.Lib.JsonData
import FiredancerRs.Rpc.BufWriter

/-!
# Parameters of requests

The functions of `fd_rpc::solana` that format the parameters of a request. They ignore whether
their writes fit, so what they write is the text of the parameters exactly when the buffer has
room for all of it (`fmtWrites_complete_iff`). The encoders of base58 and of base64 are parameters.
-/

open FdEd25519 Json

namespace FdRpc

/-- `Commitment` -/
inductive Commitment where
  | processed
  | confirmed
  | finalized
deriving DecidableEq, Repr

/-- `Commitment::as_str` -/
def Commitment.asStr : Commitment → Bytes
  | .processed => asBytes "processed"
  | .confirmed => asBytes "confirmed"
  | .finalized => asBytes "finalized"

/-- `SendTransactionOpts` -/
structure SendTransactionOpts where
  skipPreflight : Bool
  preflightCommitment : Commitment
  maxRetries : Option UInt32
deriving DecidableEq, Repr

/-- A function that formats parameters returns how many bytes it has written, and the buffer. -/
def fmtWrites (buf : Bytes) (parts : List Bytes) : Nat × Bytes :=
  let w := (BufWriter.new buf).writeEach parts
  (w.pos, w.buf)

/-- `fmt_commitment_params` -/
def fmtCommitmentParams (buf : Bytes) (commitment : Commitment) : Nat × Bytes :=
  let s := match commitment with
    | .processed => asBytes "[\x7b\"commitment\":\"processed\"\x7d]"
    | .confirmed => asBytes "[\x7b\"commitment\":\"confirmed\"\x7d]"
    | .finalized => asBytes "[\x7b\"commitment\":\"finalized\"\x7d]"
  let len := min s.length buf.length
  (len, s.take len ++ buf.drop len)

/-- `fmt_pubkey_commitment_params` -/
def fmtPubkeyCommitmentParams (buf pubkey : Bytes) (commitment : Commitment) : Nat × Bytes :=
  fmtWrites buf
    [asBytes "[\"", pubkey, asBytes "\",\x7b\"commitment\":\"", commitment.asStr,
      asBytes "\"\x7d]"]

/-- `fmt_account_info_params` -/
def fmtAccountInfoParams (buf pubkey : Bytes) (commitment : Commitment) : Nat × Bytes :=
  fmtWrites buf
    [asBytes "[\"", pubkey, asBytes "\",\x7b\"encoding\":\"base64\",\"commitment\":\"",
      commitment.asStr, asBytes "\"\x7d]"]

/-- The writes of the loop of `fmt_multiple_accounts_params`, from the key at index `i` on. -/
def keyWrites : Nat → List Bytes → List Bytes
  | _, [] => []
  | i, pk :: pubkeys =>
    (if i > 0 then [asBytes ","] else [])
      ++ ([asBytes "\"", pk, asBytes "\""] ++ keyWrites (i + 1) pubkeys)

/-- `fmt_multiple_accounts_params` -/
def fmtMultipleAccountsParams (buf : Bytes) (pubkeys : List Bytes) (commitment : Commitment) :
    Nat × Bytes :=
  fmtWrites buf
    ([asBytes "[["] ++ (keyWrites 0 pubkeys
      ++ [asBytes "],\x7b\"encoding\":\"base64\",\"commitment\":\"", commitment.asStr,
        asBytes "\"\x7d]"]))

/-- The writes of `fmt_send_tx_params`. -/
def sendTxWrites (encodedTx : Bytes) (opts : SendTransactionOpts) (retries : Option Bytes) :
    List Bytes :=
  [asBytes "[\"", encodedTx, asBytes "\",\x7b\"encoding\":\"base64\""]
    ++ ((if opts.skipPreflight then [asBytes ",\"skipPreflight\":true"] else [])
    ++ ([asBytes ",\"preflightCommitment\":\"", opts.preflightCommitment.asStr, asBytes "\""]
    ++ ((match retries with
      | none => []
      | some retries => [asBytes ",\"maxRetries\":", retries])
    ++ [asBytes "\x7d]"])))

/-- `fmt_send_tx_params` -/
def fmtSendTxParams (buf encodedTx : Bytes) (opts : SendTransactionOpts) :
    Option (Nat × Bytes) := do
  match opts.maxRetries with
  | none => pure (fmtWrites buf (sendTxWrites encodedTx opts none))
  | some retries => do
    let text ← fmtU32 retries (List.replicate 20 0)
    pure (fmtWrites buf (sendTxWrites encodedTx opts (some text)))

/-! ### What is written -/

variable {buf : Bytes} {parts : List Bytes}

theorem fmtWrites_spec (buf : Bytes) (parts : List Bytes) :
  (fmtWrites buf parts).2.take (fmtWrites buf parts).1
      = (Writer.kept buf.length 0 parts).flatten
    ∧ (fmtWrites buf parts).2.length = buf.length ∧ (fmtWrites buf parts).1 ≤ buf.length
  := by
  obtain ⟨hwritten, hlen, hrange⟩ := BufWriter.writeEach_spec parts (BufWriter.inRange_new buf)
  refine ⟨hwritten, hlen, ?_⟩
  apply hrange.trans (Nat.le_of_eq hlen)

/-- What is written stands for the data exactly when the buffer has room for the text of it. -/
theorem fmtWrites_complete_iff {d : Data} (htext : parts.flatten = d.render) (hplain : d.Plain) :
  (∃ v : Value, (fmtWrites buf parts).2.take (fmtWrites buf parts).1 = v.render ∧ v.Denotes d)
    ↔ d.render.length ≤ buf.length
  := by
  obtain ⟨hwritten, -, -⟩ := fmtWrites_spec buf parts
  rw [hwritten]
  constructor
  · rintro ⟨v, hv, hdenotes⟩
    have hle := Writer.length_kept_le parts (Nat.zero_le buf.length)
    rw [Nat.zero_add, hv] at hle
    apply hdenotes.length_le.trans hle
  · intro hfit
    obtain ⟨v, hv, hdenotes⟩ := Data.exists_value hplain
    use v
    rw [Writer.kept_eq_self (by rwa [htext, Nat.zero_add]), htext]
    exact ⟨hv.symm, hdenotes⟩

/-! ### The data of parameters -/

/-- The parameters with only a commitment. -/
def commitmentData (commitment : Commitment) : Data :=
  .array [.object [(asBytes "commitment", .string commitment.asStr)]]

/-- The parameters with a key and a commitment. -/
def pubkeyCommitmentData (pubkey : Bytes) (commitment : Commitment) : Data :=
  .array [.string pubkey, .object [(asBytes "commitment", .string commitment.asStr)]]

/-- The options of a request for accounts. -/
def accountOptions (commitment : Commitment) : Data :=
  .object [(asBytes "encoding", .string (asBytes "base64")),
    (asBytes "commitment", .string commitment.asStr)]

/-- The parameters with a key and the options of a request for accounts. -/
def accountInfoData (pubkey : Bytes) (commitment : Commitment) : Data :=
  .array [.string pubkey, accountOptions commitment]

/-- The parameters with a list of keys and the options of a request for accounts. -/
def multipleAccountsData (pubkeys : List Bytes) (commitment : Commitment) : Data :=
  .array [.array (pubkeys.map .string), accountOptions commitment]

/-- The options of `sendTransaction` that are sent. -/
def sendTxOptions (opts : SendTransactionOpts) : List (Bytes × Data) :=
  [(asBytes "encoding", .string (asBytes "base64"))]
    ++ ((if opts.skipPreflight then [(asBytes "skipPreflight", .bool true)] else [])
    ++ ([(asBytes "preflightCommitment", .string opts.preflightCommitment.asStr)]
    ++ match opts.maxRetries with
      | none => []
      | some retries => [(asBytes "maxRetries", .number retries.toNat)]))

/-- The parameters of `sendTransaction`. -/
def sendTxData (encodedTx : Bytes) (opts : SendTransactionOpts) : Data :=
  .array [.string encodedTx, .object (sendTxOptions opts)]

theorem Commitment.isPlain_asStr (commitment : Commitment) :
  commitment.asStr.all isPlain = true
  := by
  cases commitment <;> decide

theorem commitmentParams_text (commitment : Commitment) :
  fmtCommitmentParams buf commitment
    = (min (commitmentData commitment).render.length buf.length,
      (commitmentData commitment).render.take
          (min (commitmentData commitment).render.length buf.length)
        ++ buf.drop (min (commitmentData commitment).render.length buf.length))
  := by
  cases commitment <;> rfl

theorem plain_accountOptions (commitment : Commitment) :
  (accountOptions commitment).Plain
  := by
  apply Data.Plain.object_cons (by decide) (.string (by decide))
  apply Data.Plain.object_cons (by decide) (.string commitment.isPlain_asStr)
  exact .object_nil

theorem plain_commitmentOptions (commitment : Commitment) :
  (Data.object [(asBytes "commitment", .string commitment.asStr)]).Plain
  := by
  apply Data.Plain.object_cons (by decide) (.string commitment.isPlain_asStr)
  exact .object_nil

theorem plain_commitmentData (commitment : Commitment) :
  (commitmentData commitment).Plain
  := .array_cons (plain_commitmentOptions commitment) .array_nil

section Texts

variable {pubkey : Bytes}

theorem pubkeyCommitment_text (pubkey : Bytes) (commitment : Commitment) :
  [asBytes "[\"", pubkey, asBytes "\",\x7b\"commitment\":\"", commitment.asStr,
      asBytes "\"\x7d]"].flatten
    = (pubkeyCommitmentData pubkey commitment).render
  := by
  simp only [pubkeyCommitmentData, Data.render, renderItems, renderMembers, quoted,
    List.cons_append, List.append_assoc, List.nil_append, List.flatten_cons, List.flatten_nil,
    List.append_nil]
  cases commitment <;> rfl

theorem plain_pubkeyCommitmentData (h : pubkey.all isPlain = true) (commitment : Commitment) :
  (pubkeyCommitmentData pubkey commitment).Plain
  := by
  apply Data.Plain.array_cons (.string h)
  exact .array_cons (plain_commitmentOptions commitment) .array_nil

theorem accountInfo_text (pubkey : Bytes) (commitment : Commitment) :
  [asBytes "[\"", pubkey, asBytes "\",\x7b\"encoding\":\"base64\",\"commitment\":\"",
      commitment.asStr, asBytes "\"\x7d]"].flatten
    = (accountInfoData pubkey commitment).render
  := by
  simp only [accountInfoData, accountOptions, Data.render, renderItems, renderMembers, quoted,
    List.cons_append, List.append_assoc, List.nil_append, List.flatten_cons, List.flatten_nil,
    List.append_nil]
  cases commitment <;> rfl

theorem plain_accountInfoData (h : pubkey.all isPlain = true) (commitment : Commitment) :
  (accountInfoData pubkey commitment).Plain
  := by
  apply Data.Plain.array_cons (.string h)
  exact .array_cons (plain_accountOptions commitment) .array_nil

/-- The writes of the loop over the keys are the text of the list of the keys. -/
theorem flatten_keyWrites_succ :
  ∀ (i : Nat) (pubkey : Bytes) (pubkeys : List Bytes),
    quoted pubkey ++ (keyWrites (i + 1) pubkeys).flatten
      = renderItems ((pubkey :: pubkeys).map .string)
  | i, pubkey, [] => by simp [keyWrites, renderItems, Data.render]
  | i, pubkey, next :: pubkeys => by
      have ih := flatten_keyWrites_succ (i + 1) next pubkeys
      simp only [List.map_cons] at ih
      simp only [keyWrites, List.map_cons, renderItems, Data.render, ← ih]
      simp only [gt_iff_lt, Nat.zero_lt_succ, if_true, List.flatten_cons, List.append_assoc, quoted,
        List.cons_append, List.nil_append]
      rfl

theorem flatten_keyWrites (pubkeys : List Bytes) :
  (keyWrites 0 pubkeys).flatten = renderItems (pubkeys.map .string)
  := by
  cases pubkeys with
  | nil => rfl
  | cons pubkey pubkeys =>
    rw [← flatten_keyWrites_succ 0]
    simp only [keyWrites, gt_iff_lt, Nat.lt_irrefl, if_false, List.flatten_cons, quoted,
      List.cons_append, List.append_assoc, List.nil_append]
    rfl

theorem multipleAccounts_text (pubkeys : List Bytes) (commitment : Commitment) :
  ([asBytes "[["] ++ (keyWrites 0 pubkeys
      ++ [asBytes "],\x7b\"encoding\":\"base64\",\"commitment\":\"", commitment.asStr,
        asBytes "\"\x7d]"])).flatten
    = (multipleAccountsData pubkeys commitment).render
  := by
  rw [List.flatten_append, List.flatten_append, flatten_keyWrites]
  simp only [multipleAccountsData, accountOptions, Data.render, renderItems, renderMembers, quoted,
    List.cons_append, List.append_assoc, List.nil_append, List.flatten_cons, List.flatten_nil,
    List.append_nil]
  cases commitment <;> rfl

theorem plain_multipleAccountsData {pubkeys : List Bytes}
    (h : ∀ pubkey ∈ pubkeys, pubkey.all isPlain = true) (commitment : Commitment) :
  (multipleAccountsData pubkeys commitment).Plain
  := by
  have hkeys : (Data.array (pubkeys.map .string)).Plain := by
    apply Data.Plain.array
    intro d hd
    obtain ⟨pubkey, hmem, rfl⟩ := List.mem_map.mp hd
    exact .string (h pubkey hmem)
  apply Data.Plain.array_cons hkeys
  exact .array_cons (plain_accountOptions commitment) .array_nil

theorem plain_sendTxData {encodedTx : Bytes} (h : encodedTx.all isPlain = true)
    (opts : SendTransactionOpts) :
  (sendTxData encodedTx opts).Plain
  := by
  have hretries : (Data.object (match opts.maxRetries with
      | none => []
      | some retries => [(asBytes "maxRetries", .number retries.toNat)])).Plain := by
    cases opts.maxRetries with
    | none => exact .object_nil
    | some retries => exact .object_cons (by decide) (.number _) .object_nil
  have hcommitment : (Data.object ([(asBytes "preflightCommitment",
      .string opts.preflightCommitment.asStr)] ++ match opts.maxRetries with
      | none => []
      | some retries => [(asBytes "maxRetries", .number retries.toNat)])).Plain :=
    .object_cons (by decide) (.string opts.preflightCommitment.isPlain_asStr) hretries
  apply Data.Plain.array_cons (.string h)
  apply Data.Plain.array_cons _ .array_nil
  apply Data.Plain.object_cons (by decide) (.string (by decide))
  cases opts.skipPreflight with
  | false => exact hcommitment
  | true => exact .object_cons (by decide) (.bool true) hcommitment

theorem sendTx_text (encodedTx : Bytes) (opts : SendTransactionOpts) :
  (sendTxWrites encodedTx opts (opts.maxRetries.map fun n => Decimal.render n.toNat)).flatten
    = (sendTxData encodedTx opts).render
  := by
  obtain ⟨skipPreflight, commitment, maxRetries⟩ := opts
  cases maxRetries with
  | none =>
    simp only [sendTxWrites, sendTxData, sendTxOptions, Data.render, renderItems, quoted,
      Option.map_none, List.cons_append, List.append_assoc, List.nil_append, List.flatten_cons,
      List.append_nil]
    cases skipPreflight <;> cases commitment <;> rfl
  | some retries =>
    simp only [sendTxWrites, sendTxData, sendTxOptions, Data.render, renderItems, quoted,
      Option.map_some, List.cons_append, List.append_assoc, List.nil_append, List.flatten_cons]
    cases skipPreflight <;> cases commitment <;> rfl

theorem fmtSendTxParams_eq (buf encodedTx : Bytes) (opts : SendTransactionOpts) :
  fmtSendTxParams buf encodedTx opts
    = some (fmtWrites buf (sendTxWrites encodedTx opts
        (opts.maxRetries.map fun n => Decimal.render n.toNat)))
  := by
  rw [fmtSendTxParams]
  cases opts.maxRetries with
  | none => rfl
  | some retries =>
    have hlt := retries.toNat_lt
    have htext : fmtU32 retries (List.replicate 20 0) = some (Decimal.render retries.toNat) :=
      fmtDecimal_eq (by omega) List.length_replicate
    dsimp only
    rw [htext]
    rfl

end Texts

end FdRpc

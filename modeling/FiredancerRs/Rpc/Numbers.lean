import FiredancerRs.Lib.Except
import FiredancerRs.Lib.JsonData
import FiredancerRs.Rpc.ReadAccount

/-!
# Numbers of 64 bits

The parsers of `fd_rpc::solana` that return a number of 64 bits. Each number of a response goes
through a double, so the number that is returned is not always the one that the response carries
(`returned_numeral_iff`).
-/

open Json FdEd25519

namespace FdRpc

open JsonScan

/-- `Blockhash` -/
structure Blockhash where
  hash : Bytes32
  lastValidBlockHeight : UInt64
deriving DecidableEq

/-- `parse_blockhash_result` -/
def parseBlockhashResult (decoders : Decoders) (result : JsonScan) :
    Option (Except RpcError Blockhash) := do
  match ← result.field (asBytes "value") with
  | none => pure (.error (.badResponse "result.value missing"))
  | some value =>
    match ← value.fieldAnd (asBytes "blockhash") JsonScan.asStr with
    | none => pure (.error (.badResponse "missing blockhash"))
    | some blockhashStr =>
      match ← value.fieldAnd (asBytes "lastValidBlockHeight") JsonScan.asF64 with
      | none => pure (.error (.badResponse "missing lastValidBlockHeight"))
      | some lastValid =>
        match decoders.base58Decode32 blockhashStr with
        | none => pure (.error .base58DecodeFailed)
        | some hash => pure (.ok ⟨hash, lastValid.toU64⟩)

/-- `parse_u64_result` -/
def parseU64Result (result : JsonScan) : Option (Except RpcError UInt64) := do
  match ← result.asF64 with
  | none => pure (.error (.badResponse "expected number"))
  | some n => pure (.ok n.toU64)

/-- `parse_balance_result` -/
def parseBalanceResult (result : JsonScan) : Option (Except RpcError UInt64) := do
  if result.isObject then
    match ← result.fieldAnd (asBytes "value") JsonScan.asF64 with
    | none => pure (.error (.badResponse "missing value"))
    | some n => pure (.ok n.toU64)
  else
    parseU64Result result

/-! ### On trees -/

section Read

variable (decoders : Decoders)

/-- `parse_blockhash_result` on trees. -/
def readBlockhash (result : Value) : Except RpcError Blockhash :=
  match result.lookup (asBytes "value") with
  | none => .error (.badResponse "result.value missing")
  | some value =>
    match (value.lookup (asBytes "blockhash")).bind readStr with
    | none => .error (.badResponse "missing blockhash")
    | some blockhashStr =>
      match (value.lookup (asBytes "lastValidBlockHeight")).bind readF64 with
      | none => .error (.badResponse "missing lastValidBlockHeight")
      | some lastValid =>
        match decoders.base58Decode32 blockhashStr with
        | none => .error .base58DecodeFailed
        | some hash => .ok ⟨hash, lastValid.toU64⟩

/-- `parse_u64_result` on trees. -/
def readU64 (result : Value) : Except RpcError UInt64 :=
  match readF64 result with
  | none => .error (.badResponse "expected number")
  | some n => .ok n.toU64

/-- `parse_balance_result` on trees. -/
def readBalance (result : Value) : Except RpcError UInt64 :=
  if isObjectValue result then
    match (result.lookup (asBytes "value")).bind readF64 with
    | none => .error (.badResponse "missing value")
    | some n => .ok n.toU64
  else
    readU64 result

end Read

variable {decoders : Decoders} {data : Bytes}

theorem parseBlockhashResult_facing {v : Value} {t : Bytes} (h : v.render ++ t <:+ data) :
  parseBlockhashResult decoders (facing data (v.render ++ t)) = some (readBlockhash decoders v)
  := by
  rw [parseBlockhashResult, readBlockhash]
  rcases field_lookup h (asBytes "value") with ⟨hnone, hfield⟩ | ⟨m, hsome, hm, hfield⟩
  · rw [hnone, hfield]
    rfl
  · rw [hsome, hfield, Option.bind_eq_bind, Option.bind_some, atMember]
    have hstr := fieldAnd_value hm (fun _ hm _ => asStr_facing hm) (asBytes "blockhash")
    have hf64 := fieldAnd_value hm (fun _ => asF64_facing) (asBytes "lastValidBlockHeight")
    dsimp only
    rw [hstr, hf64]
    cases (m.value.lookup (asBytes "blockhash")).bind readStr with
    | none => rfl
    | some blockhashStr =>
      cases (m.value.lookup (asBytes "lastValidBlockHeight")).bind readF64 with
      | none => rfl
      | some lastValid =>
        dsimp only [Option.bind_eq_bind, Option.bind_some]
        cases decoders.base58Decode32 blockhashStr <;> rfl

theorem parseU64Result_facing {v : Value} {t : Bytes} (h : v.render ++ t <:+ data)
    (ht : Delimited t) :
  parseU64Result (facing data (v.render ++ t)) = some (readU64 v)
  := by
  rw [parseU64Result, readU64, asF64_facing h ht]
  cases readF64 v <;> rfl

theorem parseBalanceResult_facing {v : Value} {t : Bytes} (h : v.render ++ t <:+ data)
    (ht : Delimited t) :
  parseBalanceResult (facing data (v.render ++ t)) = some (readBalance v)
  := by
  have hvalue := fieldAnd_value h (fun _ => asF64_facing) (asBytes "value")
  rw [parseBalanceResult, readBalance, isObject_facing h, hvalue]
  split
  · cases (v.lookup (asBytes "value")).bind readF64 <;> rfl
  · apply parseU64Result_facing h ht

/-- A blockhash is read exactly when the member `value` has a blockhash that is decoded and a
number as its height. -/
theorem readBlockhash_ok_iff {v : Value} {blockhash : Blockhash} :
  readBlockhash decoders v = .ok blockhash
    ↔ ∃ value blockhashStr lastValid,
        v.lookup (asBytes "value") = some value
          ∧ (value.lookup (asBytes "blockhash")).bind readStr = some blockhashStr
          ∧ (value.lookup (asBytes "lastValidBlockHeight")).bind readF64 = some lastValid
          ∧ decoders.base58Decode32 blockhashStr = some blockhash.hash
          ∧ blockhash.lastValidBlockHeight = lastValid.toU64
  := by
  obtain ⟨hash, height⟩ := blockhash
  rw [readBlockhash]
  cases v.lookup (asBytes "value") with
  | none => simp
  | some value =>
    cases hstr : (value.lookup (asBytes "blockhash")).bind readStr with
    | none => simp [hstr]
    | some text =>
      cases hf64 : (value.lookup (asBytes "lastValidBlockHeight")).bind readF64 with
      | none => simp [hstr, hf64]
      | some double =>
        cases hdecode : decoders.base58Decode32 text with
        | none => simp [hstr, hf64, hdecode]
        | some decoded =>
          simp only [hstr, hf64, hdecode, Except.ok.injEq, Blockhash.mk.injEq]
          constructor
          · rintro ⟨rfl, rfl⟩
            exact ⟨value, text, double, rfl, hstr, hf64, hdecode, rfl⟩
          · rintro ⟨value', text', double', hv, hs, hf, hd, rfl⟩
            obtain rfl := Option.some.inj hv
            obtain rfl := Option.some.inj (hstr.symm.trans hs)
            obtain rfl := Option.some.inj (hf64.symm.trans hf)
            obtain rfl := Option.some.inj (hdecode.symm.trans hd)
            exact ⟨rfl, rfl⟩

/-! ### Numerals -/

theorem isAsciiDigit_of_mem_render {n : Nat} {c : UInt8} (h : c ∈ Decimal.render n) :
  isAsciiDigit c = true
  := Decimal.isDigit_of_mem_render h

/-- A text that starts with a digit has no sign. -/
theorem parseSign_cons {c : UInt8} (h : isAsciiDigit c = true) (l : Bytes) :
  parseSign (c :: l) = (false, c :: l)
  := by
  have hminus : c ≠ Ascii.minus := by
    rintro rfl
    cases h
  have hplus : c ≠ Ascii.plus := by
    rintro rfl
    cases h
  rw [parseSign, if_neg hminus, if_neg hplus]

/-- Digits alone are parsed as the double nearest to their number. -/
theorem parseF64_digits {digits : Bytes} (hne : digits ≠ [])
    (h : ∀ c ∈ digits, isAsciiDigit c = true) :
  parseF64 digits = some (Float64.ofDecimal false (digitsValue digits) 0)
  := by
  have hsign : parseSign digits = (false, digits) := by
    cases digits with
    | nil => exact absurd rfl hne
    | cons c l => apply parseSign_cons (h c List.mem_cons_self)
  have htake := List.takeWhile_eq_self_iff.mpr h
  have hdrop := List.dropWhile_eq_nil_iff.mpr h
  rw [parseF64, hsign]
  simp only [htake, hdrop]
  rw [if_neg fun hnil => hne hnil.1]
  change some (Float64.ofDecimal false (digitsValue (digits ++ [])) (0 - 0)) = _
  rw [List.append_nil]
  rfl

/-- A number that is written as a numeral is read as the double nearest to it. -/
theorem readF64_numeral {num : Number} {n : Nat} (h : num.render = Decimal.render n) :
  readF64 (.number num) = some (Float64.ofDecimal false n 0)
  := by
  have hascii : fromUtf8 (Decimal.render n) = some (Decimal.render n) := by
    apply fromUtf8_ascii
    intro c hc
    have hdigit := isAsciiDigit_of_mem_render hc
    rw [isAsciiDigit, Bool.and_eq_true, decide_eq_true_iff, decide_eq_true_iff] at hdigit
    apply UInt8.lt_of_le_of_lt hdigit.2 (by decide)
  have hvalue : digitsValue (Decimal.render n) = n := Decimal.value_render n
  rw [readF64, h, hascii, Option.bind_some,
    parseF64_digits (Decimal.render_ne_nil n) fun c => isAsciiDigit_of_mem_render, hvalue]

/-! ### The numbers of a response -/

/-- A number of 64 bits in a response. The result of a call is a slot, a block height or a
transaction count. -/
inductive NumberField where
  | result
  | balance
  | lastValidBlockHeight
  | lamports
  | rentEpoch
deriving DecidableEq, Repr

namespace NumberField

/-- The value that carries the number, in the value that is parsed. -/
def valueOf : NumberField → Value → Option Value
  | .result, v => some v
  | .balance, v => if isObjectValue v then v.lookup (asBytes "value") else some v
  | .lastValidBlockHeight, v =>
      (v.lookup (asBytes "value")).bind fun value => value.lookup (asBytes "lastValidBlockHeight")
  | .lamports, v => v.lookup (asBytes "lamports")
  | .rentEpoch, v => v.lookup (asBytes "rentEpoch")

section Returned

variable (decoders : Decoders)

/-- The number that the parser of the value returns. -/
def returned (field : NumberField) (result : JsonScan) : Option (Except RpcError UInt64) :=
  match field with
  | .result => parseU64Result result
  | .balance => parseBalanceResult result
  | .lastValidBlockHeight =>
      (parseBlockhashResult decoders result).map (Except.map Blockhash.lastValidBlockHeight)
  | .lamports => (parseAccountInfo decoders result).map (Except.map AccountInfo.lamports)
  | .rentEpoch => (parseAccountInfo decoders result).map (Except.map AccountInfo.rentEpoch)

/-- The number that is read from the value, on trees. -/
def read (field : NumberField) (v : Value) : Except RpcError UInt64 :=
  match field with
  | .result => readU64 v
  | .balance => readBalance v
  | .lastValidBlockHeight => (readBlockhash decoders v).map Blockhash.lastValidBlockHeight
  | .lamports => (readAccountInfo decoders v).map AccountInfo.lamports
  | .rentEpoch => (readAccountInfo decoders v).map AccountInfo.rentEpoch

/-- An account has an owner and data that its parser reads. -/
def OwnerAndDataRead (v : Value) : Prop :=
  ∃ ownerStr owner d bytes,
    (v.lookup (asBytes "owner")).bind readStr = some ownerStr
      ∧ decoders.base58Decode32 ownerStr = some owner
      ∧ v.lookup (asBytes "data") = some d
      ∧ readAccountData decoders d = .ok bytes

/-- What the parser needs besides the number is there. -/
def OthersRead (field : NumberField) (v : Value) : Prop :=
  match field with
  | .result => True
  | .balance => True
  | .lastValidBlockHeight =>
      ∃ value blockhashStr hash,
        v.lookup (asBytes "value") = some value
          ∧ (value.lookup (asBytes "blockhash")).bind readStr = some blockhashStr
          ∧ decoders.base58Decode32 blockhashStr = some hash
  | .lamports => OwnerAndDataRead decoders v
  | .rentEpoch =>
      (∃ lamports, (v.lookup (asBytes "lamports")).bind readF64 = some lamports)
        ∧ OwnerAndDataRead decoders v

end Returned

theorem returned_facing {field : NumberField} {v : Value} {t : Bytes}
    (h : v.render ++ t <:+ data) (ht : Delimited t) :
  field.returned decoders (facing data (v.render ++ t)) = some (field.read decoders v)
  := by
  cases field with
  | result => apply parseU64Result_facing h ht
  | balance => apply parseBalanceResult_facing h ht
  | lastValidBlockHeight => rw [returned, parseBlockhashResult_facing h, Option.map_some, read]
  | lamports => rw [returned, parseAccountInfo_facing h, Option.map_some, read]
  | rentEpoch => rw [returned, parseAccountInfo_facing h, Option.map_some, read]

/-- What is read is the double of the number, truncated, when the parser finds what else it
needs. -/
theorem read_ok_iff {field : NumberField} {v : Value} {num : Number} {double : Float64}
    {m : UInt64} (hv : field.valueOf v = some (.number num))
    (hdouble : readF64 (.number num) = some double) :
  field.read decoders v = .ok m ↔ field.OthersRead decoders v ∧ m = double.toU64
  := by
  have hread : (field.valueOf v).bind readF64 = some double := by rw [hv, Option.bind_some, hdouble]
  cases field with
  | result =>
    rw [valueOf, Option.bind_some] at hread
    rw [read, readU64, hread, OthersRead, true_and, Except.ok.injEq, eq_comm]
  | balance =>
    rw [valueOf] at hread
    rw [read, readBalance, OthersRead, true_and]
    split at hread
    · next hobject => rw [if_pos hobject, hread, Except.ok.injEq, eq_comm]
    · next hobject =>
      rw [Option.bind_some] at hread
      rw [if_neg hobject, readU64, hread, Except.ok.injEq, eq_comm]
  | lastValidBlockHeight =>
    rw [read, Except.map_eq_ok_iff, OthersRead]
    constructor
    · rintro ⟨blockhash, hok, rfl⟩
      obtain ⟨value, text, height, hvalue, htext, hheight, hhash, hm⟩ :=
        readBlockhash_ok_iff.mp hok
      rw [valueOf, hvalue, Option.bind_some, hheight] at hread
      rw [hm, Option.some.inj hread]
      exact ⟨⟨value, text, blockhash.hash, hvalue, htext, hhash⟩, rfl⟩
    · rintro ⟨⟨value, text, hash, hvalue, htext, hhash⟩, rfl⟩
      rw [valueOf, hvalue, Option.bind_some] at hread
      exact ⟨⟨hash, double.toU64⟩,
        readBlockhash_ok_iff.mpr ⟨value, text, double, hvalue, htext, hread, hhash, rfl⟩, rfl⟩
  | lamports =>
    rw [read, Except.map_eq_ok_iff, OthersRead]
    rw [valueOf] at hread
    constructor
    · rintro ⟨info, hok, rfl⟩
      obtain ⟨lamports, text, d, hlamports, htext, howner, hd, hbytes, hm, -⟩ :=
        readAccountInfo_ok_iff.mp hok
      rw [hlamports] at hread
      rw [hm, Option.some.inj hread]
      exact ⟨⟨text, info.owner, d, info.data, htext, howner, hd, hbytes⟩, rfl⟩
    · rintro ⟨⟨text, owner, d, bytes, htext, howner, hd, hbytes⟩, rfl⟩
      exact ⟨⟨double.toU64, owner, bytes, _, _⟩,
        readAccountInfo_ok_iff.mpr
          ⟨double, text, d, hread, htext, howner, hd, hbytes, rfl, rfl, rfl⟩, rfl⟩
  | rentEpoch =>
    rw [read, Except.map_eq_ok_iff, OthersRead]
    rw [valueOf] at hread
    constructor
    · rintro ⟨info, hok, rfl⟩
      obtain ⟨lamports, text, d, hlamports, htext, howner, hd, hbytes, -, -, hm⟩ :=
        readAccountInfo_ok_iff.mp hok
      rw [hread] at hm
      exact ⟨⟨⟨lamports, hlamports⟩, text, info.owner, d, info.data, htext, howner, hd, hbytes⟩,
        hm⟩
    · rintro ⟨⟨⟨lamports, hlamports⟩, text, owner, d, bytes, htext, howner, hd, hbytes⟩, rfl⟩
      refine ⟨⟨lamports.toU64, owner, bytes, _, double.toU64⟩,
        readAccountInfo_ok_iff.mpr
          ⟨lamports, text, d, hlamports, htext, howner, hd, hbytes, rfl, rfl, ?_⟩, rfl⟩
      rw [hread]
      rfl

/-- The number that is returned for a numeral of 64 bits is the number exactly when its bits
below the highest 53 are zero, or it is the greatest one. -/
theorem returned_numeral_iff {field : NumberField} {v : Value} {t : Bytes} {num : Number}
    {n : UInt64} (h : v.render ++ t <:+ data) (ht : Delimited t)
    (hv : field.valueOf v = some (.number num)) (hnum : num.render = Decimal.render n.toNat) :
  ∃ answer, field.returned decoders (facing data (v.render ++ t)) = some answer
    ∧ ((∃ m, answer = .ok m) ↔ field.OthersRead decoders v)
    ∧ ∀ m, answer = .ok m → (m = n ↔ 2 ^ (n.toNat.log2 - 52) ∣ n.toNat ∨ n.toNat = 2 ^ 64 - 1)
  := by
  have hread : ∀ m, field.read decoders v = .ok m
      ↔ field.OthersRead decoders v ∧ m = (Float64.ofDecimal false n.toNat 0).toU64 :=
    fun m => read_ok_iff hv (readF64_numeral hnum)
  refine ⟨field.read decoders v, returned_facing h ht, ?_, ?_⟩
  · simp only [hread, exists_and_left, exists_eq, and_true]
  · intro m hm
    rw [((hread m).mp hm).2, ← Float64.toU64_ofDecimal_eq_iff n.toNat_lt, UInt64.toNat_inj]

/-- `{"value":9007199254740994}` -/
def balanceSample : Value :=
  .object (.last (.ofAscii (asBytes "value")) .empty (.number (.ofNat 9007199254740994)) .empty)

theorem returned_numeral_balance :
  NumberField.balance.returned ⟨fun _ => none, fun _ => none⟩ ⟨balanceSample.render, 0⟩
    = some (.ok 9007199254740994)
  := by
  have hsuffix : balanceSample.render ++ [] <:+ balanceSample.render := by
    rw [List.append_nil]
  obtain ⟨answer, hanswer, hok, heq⟩ :=
    @returned_numeral_iff ⟨fun _ => none, fun _ => none⟩ balanceSample.render .balance
      balanceSample [] (.ofNat 9007199254740994) 9007199254740994 hsuffix .nil rfl
      (Number.render_ofNat 9007199254740994)
  obtain ⟨m, rfl⟩ := hok.mpr trivial
  rw [List.append_nil, facing_self] at hanswer
  rw [hanswer, (heq m rfl).mpr (by decide)]

theorem not_returned_numeral :
  ¬ ∀ n : UInt64, parseU64Result ⟨Decimal.render n.toNat, 0⟩ = some (.ok n)
  := by
  intro h
  have hrender : Decimal.render (9007199254740993 : UInt64).toNat = asBytes "9007199254740993" := by
    decide
  have hparse := h 9007199254740993
  rw [hrender] at hparse
  revert hparse
  decide

end NumberField

end FdRpc

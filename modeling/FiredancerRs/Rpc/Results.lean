import FiredancerRs.Rpc.Numbers
import FiredancerRs.Rpc.ShortList

/-!
# The results of all methods

The other parsers of results in `fd_rpc::solana`. In front of any value, the parser of each kind of
result returns what its counterpart on syntax trees reads from the value (`Kind.parse_facing`).
-/

open Json FdEd25519

namespace FdRpc

open JsonScan
open JsonArrayIter (atElement)

/-! ### Parsers -/

/-- The first bytes of a text in an array of 64, with their number. -/
def toArray64 (text : Bytes) : Bytes × Nat :=
  (text.take 63 ++ List.replicate (64 - min text.length 63) 0, min text.length 63)

/-- `Version` -/
structure Version where
  solanaCore : Bytes
  solanaCoreLen : Nat
  featureSet : UInt64
deriving DecidableEq

/-- `TokenBalance` -/
structure TokenBalance where
  amount : UInt64
  decimals : UInt8
  uiAmountString : Bytes
  uiAmountStringLen : Nat
deriving DecidableEq

/-- `str::parse::<u64>` -/
def parseU64 (text : Bytes) : Option UInt64 :=
  let digits := if text.head? = some Ascii.plus then text.tail else text
  if digits = [] ∨ digits.all isAsciiDigit = false then
    none
  else if digitsValue digits < 2 ^ 64 then
    some (UInt64.ofNat (digitsValue digits))
  else
    none

/-- The 8-bit integer of a double: truncated, and the nearest in range. -/
def toU8 (n : Float64) : UInt8 := UInt8.ofNat (min n.toU64.toNat 255)

/-- `parse_health_result` -/
def parseHealthResult (result : JsonScan) : Option (Except RpcError Unit) := do
  match ← result.asStr with
  | none => pure (.error (.badResponse "expected string"))
  | some _ => pure (.ok ())

/-- `parse_version_result` -/
def parseVersionResult (result : JsonScan) : Option (Except RpcError Version) := do
  if result.isObject then do
    let coreStr ← result.fieldAnd (asBytes "solana-core") JsonScan.asStr
    let featureSet ← result.fieldAnd (asBytes "feature-set") JsonScan.asF64
    let (solanaCore, solanaCoreLen) := toArray64 (coreStr.getD (asBytes "unknown"))
    pure (.ok ⟨solanaCore, solanaCoreLen, (featureSet.map Float64.toU64).getD 0⟩)
  else
    pure (.error (.badResponse "result is not an object"))

/-- `parse_token_balance_result` -/
def parseTokenBalanceResult (result : JsonScan) : Option (Except RpcError TokenBalance) := do
  match ← result.field (asBytes "value") with
  | none => pure (.error (.badResponse "result.value missing"))
  | some value =>
    match ← value.fieldAnd (asBytes "amount") JsonScan.asStr with
    | none => pure (.error (.badResponse "missing amount"))
    | some amountStr =>
      match parseU64 amountStr with
      | none => pure (.error (.badResponse "amount is not a u64"))
      | some amount =>
        match ← value.fieldAnd (asBytes "decimals") JsonScan.asF64 with
        | none => pure (.error (.badResponse "missing decimals"))
        | some decimals => do
          let uiStr ← value.fieldAnd (asBytes "uiAmountString") JsonScan.asStr
          let (uiAmountString, uiAmountStringLen) := toArray64 (uiStr.getD (asBytes "0"))
          pure (.ok ⟨amount, toU8 decimals, uiAmountString, uiAmountStringLen⟩)

section Decoders

variable (decoders : Decoders)

/-- `parse_account_info_result` -/
def parseAccountInfoResult (result : JsonScan) :
    Option (Except RpcError (Option AccountInfo)) := do
  match ← result.field (asBytes "value") with
  | none => pure (.error (.badResponse "result.value missing"))
  | some value => parseAccountItem decoders value

end Decoders

/-! ### On trees -/

/-- `parse_health_result` on trees. -/
def readHealth (result : Value) : Except RpcError Unit :=
  match readStr result with
  | none => .error (.badResponse "expected string")
  | some _ => .ok ()

/-- `parse_version_result` on trees. -/
def readVersion (result : Value) : Except RpcError Version :=
  if isObjectValue result then
    let coreStr := ((result.lookup (asBytes "solana-core")).bind readStr).getD (asBytes "unknown")
    let featureSet := (result.lookup (asBytes "feature-set")).bind readF64
    .ok ⟨(toArray64 coreStr).1, (toArray64 coreStr).2, (featureSet.map Float64.toU64).getD 0⟩
  else
    .error (.badResponse "result is not an object")

/-- `parse_token_balance_result` on trees. -/
def readTokenBalance (result : Value) : Except RpcError TokenBalance :=
  match result.lookup (asBytes "value") with
  | none => .error (.badResponse "result.value missing")
  | some value =>
    match (value.lookup (asBytes "amount")).bind readStr with
    | none => .error (.badResponse "missing amount")
    | some amountStr =>
      match parseU64 amountStr with
      | none => .error (.badResponse "amount is not a u64")
      | some amount =>
        match (value.lookup (asBytes "decimals")).bind readF64 with
        | none => .error (.badResponse "missing decimals")
        | some decimals =>
          let uiStr := ((value.lookup (asBytes "uiAmountString")).bind readStr).getD (asBytes "0")
          .ok ⟨amount, toU8 decimals, (toArray64 uiStr).1, (toArray64 uiStr).2⟩

section Read

variable (decoders : Decoders)

/-- `parse_account_info_result` on trees. -/
def readAccountInfoResult (result : Value) : Except RpcError (Option AccountInfo) :=
  match result.lookup (asBytes "value") with
  | none => .error (.badResponse "result.value missing")
  | some value => readAccountItem decoders value

/-- `parse_multiple_accounts_result` on trees. -/
def readMultipleAccounts (result : Value) : Except RpcError (List (Option AccountInfo)) :=
  match result.lookup (asBytes "value") with
  | none => .error (.badResponse "result.value missing")
  | some values =>
    match values.items with
    | none => .error (.badResponse "result.value is not an array")
    | some items => items.mapM (readAccountItem decoders)

/-- `parse_program_accounts_result` on trees. -/
def readProgramAccounts (result : Value) : Except RpcError (List (Bytes32 × AccountInfo)) :=
  match result.items with
  | none => .error (.badResponse "result is not an array")
  | some items => items.mapM (readProgramItem decoders)

end Read

/-! ### Agreement -/

variable {decoders : Decoders} {data : Bytes}

theorem parseHealthResult_facing {v : Value} {t : Bytes} (h : v.render ++ t <:+ data) :
  parseHealthResult (facing data (v.render ++ t)) = some (readHealth v)
  := by
  rw [parseHealthResult, readHealth, asStr_facing h]
  cases readStr v <;> rfl

theorem parseVersionResult_facing {v : Value} {t : Bytes} (h : v.render ++ t <:+ data) :
  parseVersionResult (facing data (v.render ++ t)) = some (readVersion v)
  := by
  have hcore := fieldAnd_value h (fun _ hm _ => asStr_facing hm) (asBytes "solana-core")
  have hfeature := fieldAnd_value h (fun _ => asF64_facing) (asBytes "feature-set")
  rw [parseVersionResult, readVersion, isObject_facing h, hcore, hfeature]
  split <;> rfl

theorem parseTokenBalanceResult_facing {v : Value} {t : Bytes} (h : v.render ++ t <:+ data) :
  parseTokenBalanceResult (facing data (v.render ++ t)) = some (readTokenBalance v)
  := by
  rw [parseTokenBalanceResult, readTokenBalance]
  rcases field_lookup h (asBytes "value") with ⟨hnone, hfield⟩ | ⟨m, hsome, hm, hfield⟩
  · rw [hnone, hfield]
    rfl
  · rw [hsome, hfield, Option.bind_eq_bind, Option.bind_some, atMember]
    have hamount := fieldAnd_value hm (fun _ hm _ => asStr_facing hm) (asBytes "amount")
    have hdecimals := fieldAnd_value hm (fun _ => asF64_facing) (asBytes "decimals")
    have hui := fieldAnd_value hm (fun _ hm _ => asStr_facing hm) (asBytes "uiAmountString")
    dsimp only
    rw [hamount, hdecimals, hui]
    cases (m.value.lookup (asBytes "amount")).bind readStr with
    | none => rfl
    | some amountStr =>
      dsimp only [Option.bind_eq_bind, Option.bind_some]
      cases parseU64 amountStr with
      | none => rfl
      | some amount =>
        cases (m.value.lookup (asBytes "decimals")).bind readF64 <;> rfl

theorem parseAccountInfoResult_facing {v : Value} {t : Bytes} (h : v.render ++ t <:+ data) :
  parseAccountInfoResult decoders (facing data (v.render ++ t))
    = some (readAccountInfoResult decoders v)
  := by
  rw [parseAccountInfoResult, readAccountInfoResult]
  rcases field_lookup h (asBytes "value") with ⟨hnone, hfield⟩ | ⟨m, hsome, hm, hfield⟩
  · rw [hnone, hfield]
    rfl
  · rw [hsome, hfield, Option.bind_eq_bind, Option.bind_some, atMember]
    apply parseAccountItem_facing hm

/-- The loop over the items reads each of them, up to the first that is no account. -/
theorem parseItems_elements {α : Type} {parse : JsonScan → Option (Except RpcError α)}
    {read : Value → Except RpcError α} :
  ∀ {n : Nat} {it : JsonArrayIter} {elements : List (Value × Bytes)},
    it.toList n = some (elements.map (atElement data)) →
    (∀ w ∈ elements, parse (atElement data w) = some (read w.1)) →
      parseItems parse n it = some ((elements.map Prod.fst).mapM read)
  | 0, _, _, h, _ => by cases h
  | n + 1, it, elements, h, hparse => by
      obtain ⟨⟨item, it'⟩, hnext, h⟩ := Option.bind_eq_some_iff.mp h
      rw [parseItems, hnext]
      cases item with
      | none =>
        obtain rfl : elements = [] := List.map_eq_nil_iff.mp (Option.some.inj h).symm
        rfl
      | some item =>
        obtain ⟨items', hitems, h⟩ := Option.bind_eq_some_iff.mp h
        obtain ⟨w, rest, rfl, rfl, rfl⟩ := List.map_eq_cons_iff.mp (Option.some.inj h).symm
        obtain ⟨hw, hrest⟩ := List.forall_mem_cons.mp hparse
        have ih := parseItems_elements hitems hrest
        change (parse (atElement data w) >>= _) = _
        rw [hw, List.map_cons, List.mapM_cons]
        cases read w.1 with
        | error e => rfl
        | ok a =>
          change (parseItems parse n it' >>= _) = _
          rw [ih]
          cases (rest.map Prod.fst).mapM read <;> rfl

/-- Each element of an array is read, or the value is no array. -/
theorem parseItems_facing {α : Type} {parse : JsonScan → Option (Except RpcError α)}
    {read : Value → Except RpcError α} {v : Value} {t : Bytes} (h : v.render ++ t <:+ data)
    (hparse : ∀ v t, v.render ++ t <:+ data → parse (facing data (v.render ++ t)) = some (read v)) :
  (v.items = none ∧ (facing data (v.render ++ t)).arrayIter = some none)
    ∨ ∃ items it, v.items = some items ∧ (facing data (v.render ++ t)).arrayIter = some (some it)
      ∧ parseItems parse (data.length + 2) it = some (items.mapM read)
  := by
  have hitems := v.map_elements t
  cases hv : v.elements t with
  | none =>
    rw [hv] at hitems
    exact .inl ⟨hitems.symm, arrayIter_eq_none h hitems.symm⟩
  | some elements =>
    rw [hv] at hitems
    obtain ⟨it, hiter, htoList⟩ := arrayIter_elements h (v.stops_render t).dropWhile hv
    refine .inr ⟨_, it, hitems.symm, hiter, ?_⟩
    -- the items are as many as the fuel is enough for
    obtain ⟨found, hfound, hit⟩ := (facing data (v.render ++ t)).arrayIter_spec
    obtain ⟨hdata, hrange⟩ := hit it (Option.some.inj (hfound.symm.trans hiter))
    have hfuel : (it.toList (data.length + 2)).isSome := by
      apply JsonArrayIter.toList_isSome hrange
      rw [hdata]
      change (if it.done then 0 else data.length - it.pos + 1) < _
      split <;> omega
    have hlist := it.toList_monotone.eq_of_isSome (htoList _ (Nat.lt_succ_self _)) hfuel
    apply parseItems_elements hlist
    intro w hw
    apply hparse
    apply (Value.elements_suffix hv hw).trans h

theorem parseMultipleAccountsResult_facing {v : Value} {t : Bytes} (h : v.render ++ t <:+ data) :
  parseMultipleAccountsResult decoders (facing data (v.render ++ t))
    = some (readMultipleAccounts decoders v)
  := by
  rw [parseMultipleAccountsResult, readMultipleAccounts]
  rcases field_lookup h (asBytes "value") with ⟨hnone, hfield⟩ | ⟨m, hsome, hm, hfield⟩
  · rw [hnone, hfield]
    rfl
  · rw [hsome, hfield, Option.bind_eq_bind, Option.bind_some, atMember]
    rcases parseItems_facing hm fun _ _ => @parseAccountItem_facing decoders _ _ _ with
      ⟨hitems, hiter⟩ | ⟨items, it, hitems, hiter, hparse⟩
    · dsimp only
      rw [hitems, hiter]
      rfl
    · dsimp only
      rw [hitems, hiter]
      apply hparse

theorem parseProgramAccountsResult_facing {v : Value} {t : Bytes} (h : v.render ++ t <:+ data) :
  parseProgramAccountsResult decoders (facing data (v.render ++ t))
    = some (readProgramAccounts decoders v)
  := by
  rw [parseProgramAccountsResult, readProgramAccounts]
  rcases parseItems_facing h fun _ _ => @parseProgramItem_facing decoders _ _ _ with
    ⟨hitems, hiter⟩ | ⟨items, it, hitems, hiter, hparse⟩
  · rw [hitems, hiter]
    rfl
  · rw [hitems, hiter]
    apply hparse

/-! ### Kinds of results -/

/-- The kinds of results that the methods of the client return. -/
inductive Kind where
  | blockhash
  | u64
  | balance
  | health
  | version
  | accountInfo
  | multipleAccounts
  | programAccounts
  | tokenBalance

namespace Kind

/-- The results of a kind. -/
abbrev Result : Kind → Type
  | blockhash => Blockhash
  | u64 => UInt64
  | balance => UInt64
  | health => Unit
  | version => Version
  | accountInfo => Option AccountInfo
  | multipleAccounts => List (Option AccountInfo)
  | programAccounts => List (Bytes32 × AccountInfo)
  | tokenBalance => TokenBalance

section Parse

variable (decoders : Decoders)

/-- The parser of the results of a kind. -/
def parse : (kind : Kind) → JsonScan → Option (Except RpcError kind.Result)
  | blockhash => parseBlockhashResult decoders
  | u64 => parseU64Result
  | balance => parseBalanceResult
  | health => parseHealthResult
  | version => parseVersionResult
  | accountInfo => parseAccountInfoResult decoders
  | multipleAccounts => parseMultipleAccountsResult decoders
  | programAccounts => parseProgramAccountsResult decoders
  | tokenBalance => parseTokenBalanceResult

/-- The parser of the results of a kind on trees. -/
def read : (kind : Kind) → Value → Except RpcError kind.Result
  | blockhash => readBlockhash decoders
  | u64 => readU64
  | balance => readBalance
  | health => readHealth
  | version => readVersion
  | accountInfo => readAccountInfoResult decoders
  | multipleAccounts => readMultipleAccounts decoders
  | programAccounts => readProgramAccounts decoders
  | tokenBalance => readTokenBalance

end Parse

/-- A result of any kind is read by the counterpart of its parser on trees. -/
theorem parse_facing {kind : Kind} {v : Value} {t : Bytes} (h : v.render ++ t <:+ data)
    (ht : Delimited t) :
  kind.parse decoders (facing data (v.render ++ t)) = some (kind.read decoders v)
  := by
  cases kind with
  | blockhash => apply parseBlockhashResult_facing h
  | u64 => apply parseU64Result_facing h ht
  | balance => apply parseBalanceResult_facing h ht
  | health => apply parseHealthResult_facing h
  | version => apply parseVersionResult_facing h
  | accountInfo => apply parseAccountInfoResult_facing h
  | multipleAccounts => apply parseMultipleAccountsResult_facing h
  | programAccounts => apply parseProgramAccountsResult_facing h
  | tokenBalance => apply parseTokenBalanceResult_facing h

end Kind

/-! ### Responses -/

/-- The error that a value reports, if it has a member `error` that is an object. -/
def readReported (response : Value) : Option JsonRpcError :=
  match response.lookup (asBytes "error") with
  | none => none
  | some error => if isObjectValue error then some (readError error) else none

/-- `JsonRpcResponse::parse` and `parse_batch_item` on trees. -/
def readOutcome (response : Value) : Except JsonRpcError Value :=
  match readReported response with
  | some e => .error e
  | none =>
    match response.lookup (asBytes "result") with
    | none => .error (.missingField "result")
    | some result => .ok result

/-- The result of a kind that a response has, on trees. -/
def Kind.readFrom (decoders : Decoders) (kind : Kind) (response : Value) :
    Except RpcError kind.Result :=
  match readOutcome response with
  | .error e => .error (.jsonRpc e)
  | .ok result => kind.read decoders result

theorem errorOf_facing {v : Value} {t : Bytes} (h : v.render ++ t <:+ data) :
  errorOf (facing data (v.render ++ t)) = some (readReported v)
  := by
  rw [errorOf, readReported]
  rcases field_lookup h (asBytes "error") with ⟨hnone, hfield⟩ | ⟨m, hsome, hm, hfield⟩
  · rw [hnone, hfield]
    rfl
  · rw [hsome, hfield]
    change (if (atMember data m).isObject = true then _ else _) = _
    rw [error_of_member hm, atMember, isObject_facing hm]
    dsimp only
    split <;> rfl

/-- In front of any value, the scan of its result is in front of the result that is read from it,
or both find the same error. -/
theorem resultOf_facing {v : Value} {t : Bytes} (h : v.render ++ t <:+ data) :
  (∃ e, readOutcome v = .error e ∧ resultOf (facing data (v.render ++ t)) = some (.error e))
    ∨ ∃ m : Member, readOutcome v = .ok m.value ∧ m.value.render ++ m.after <:+ data
      ∧ Delimited m.after
      ∧ resultOf (facing data (v.render ++ t)) = some (.ok (atMember data m))
  := by
  rw [readOutcome, resultOf, errorOf_facing h]
  cases readReported v with
  | some e => exact .inl ⟨e, rfl, rfl⟩
  | none =>
    rw [Option.bind_eq_bind, Option.bind_some, field_value h, ← v.map_find? t]
    cases hfind : ((v.members t).getD []).find? fun m => m.name.raw = asBytes "result" with
    | none => exact .inl ⟨_, rfl, rfl⟩
    | some m =>
      obtain ⟨hsuffix, hdelimited⟩ := Value.find?_member hfind
      exact .inr ⟨m, rfl, hsuffix.trans h, hdelimited, rfl⟩

/-- The result of a kind that the scan of a response finds. -/
def Kind.parseFrom (decoders : Decoders) (kind : Kind) (response : JsonScan) :
    Option (Except RpcError kind.Result) := do
  match ← resultOf response with
  | .error e => pure (.error (.jsonRpc e))
  | .ok result => kind.parse decoders result

/-- From any value, the scan finds what is read from the tree. -/
theorem Kind.parseFrom_facing {kind : Kind} {v : Value} {t : Bytes} (h : v.render ++ t <:+ data) :
  kind.parseFrom decoders (facing data (v.render ++ t)) = some (kind.readFrom decoders v)
  := by
  rw [Kind.parseFrom, Kind.readFrom]
  rcases resultOf_facing h with ⟨e, hread, hresult⟩ | ⟨m, hread, hm, hdelimited, hresult⟩
  · rw [hread, hresult]
    rfl
  · rw [hread, hresult]
    apply Kind.parse_facing hm hdelimited

end FdRpc

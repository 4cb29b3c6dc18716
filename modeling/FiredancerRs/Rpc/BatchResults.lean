import FiredancerRs.Rpc.BatchOrder
import FiredancerRs.Rpc.Matching
import FiredancerRs.Rpc.Results

/-!
# The results of a batch

The accessors of `BatchResults`. On every byte string they return, and `iter` yields what `get`
returns for one index after another (`iter_get`, `getResult_returns`). On a JSON document `get_…`
reads the result of its kind from the element with its index (`getResult_read`), so in any history
of a client that has nothing outstanding it reads it from the answer to the batch
(`batch_answered`). The native stack that nested values take is not modelled.
-/

open Json FdEd25519

namespace FdRpc

open JsonScan
open JsonArrayIter (atElement)

/-! ### Accessors -/

namespace BatchResults

/-- What `parse_batch_item` returns for the items that the iterator yields. -/
def collect : Nat → JsonArrayIter → Option (List (Except JsonRpcError JsonScan))
  | 0, _ => none
  | fuel + 1, it => do
    let (item, it) ← it.next
    match item with
    | none => pure []
    | some item => do
      let result ← parseBatchItem item
      let results ← collect fuel it
      pure (result :: results)

/-- `BatchResults::iter`, with all that it yields. -/
def iter (results : BatchResults) : Option (List (Except JsonRpcError JsonScan)) := do
  let scan ← JsonScan.new results.data
  match ← scan.arrayIter with
  | none => pure []
  | some it => collect (results.data.length + 2) it

/-- `BatchResults::result_at` -/
def resultAt (results : BatchResults) (index : Nat) : Option (Except RpcError JsonScan) := do
  match ← results.get index with
  | .error e => pure (.error (.jsonRpc e))
  | .ok result => pure (.ok result)

section Getters

variable (decoders : Decoders)

/-- The common body of the methods that get a result of a kind. -/
def getResult (kind : Kind) (results : BatchResults) (index : Nat) :
    Option (Except RpcError kind.Result) := do
  match ← results.resultAt index with
  | .error e => pure (.error e)
  | .ok result => kind.parse decoders result

/-- `BatchResults::get_blockhash` -/
def getBlockhash : BatchResults → Nat → Option (Except RpcError Blockhash) :=
  getResult decoders .blockhash

/-- `BatchResults::get_u64` -/
def getU64 : BatchResults → Nat → Option (Except RpcError UInt64) := getResult decoders .u64

/-- `BatchResults::get_balance` -/
def getBalance : BatchResults → Nat → Option (Except RpcError UInt64) :=
  getResult decoders .balance

/-- `BatchResults::get_health` -/
def getHealth : BatchResults → Nat → Option (Except RpcError Unit) := getResult decoders .health

/-- `BatchResults::get_version` -/
def getVersion : BatchResults → Nat → Option (Except RpcError Version) :=
  getResult decoders .version

/-- `BatchResults::get_account_info` -/
def getAccountInfo : BatchResults → Nat → Option (Except RpcError (Option AccountInfo)) :=
  getResult decoders .accountInfo

/-- `BatchResults::get_multiple_accounts` -/
def getMultipleAccounts :
    BatchResults → Nat → Option (Except RpcError (List (Option AccountInfo))) :=
  getResult decoders .multipleAccounts

/-- `BatchResults::get_program_accounts` -/
def getProgramAccounts :
    BatchResults → Nat → Option (Except RpcError (List (Bytes32 × AccountInfo))) :=
  getResult decoders .programAccounts

/-- `BatchResults::get_token_balance` -/
def getTokenBalance : BatchResults → Nat → Option (Except RpcError TokenBalance) :=
  getResult decoders .tokenBalance

end Getters

end BatchResults

/-! ### On all bytes -/

variable {decoders : Decoders} {data : Bytes} {s : JsonScan}

theorem isSome_bind {α β : Type} {r : Option α} {f : α → Option β} (h : r.isSome)
    (hf : ∀ a, r = some a → (f a).isSome) :
  (r >>= f).isSome
  := by
  obtain ⟨a, rfl⟩ := Option.isSome_iff_exists.mp h
  apply hf a rfl

/-- The scan of a member that is found is in range. -/
theorem inRange_of_field {s' : JsonScan} {name : Bytes} (h : s.field name = some (some s')) :
  s'.InRange
  := (of_lands (field_lands s name) h).2

theorem isSome_field (s : JsonScan) (name : Bytes) :
  (s.field name).isSome
  := isSome_of_lands (field_lands s name)

theorem fieldAnd_isSome {α : Type} {f : JsonScan → Option (Option α)}
    (hf : ∀ s' : JsonScan, s'.InRange → (f s').isSome) (s : JsonScan) (name : Bytes) :
  (s.fieldAnd name f).isSome
  := by
  apply isSome_bind (isSome_field s name)
  rintro (_ | s') hs'
  · rfl
  · apply hf s' (inRange_of_field hs')

theorem errorOf_isSome (s : JsonScan) :
  (errorOf s).isSome
  := by
  apply isSome_bind (isSome_field s _)
  rintro (_ | error) herror
  · rfl
  · change Option.isSome (ite (error.isObject = true) _ _) = true
    split
    · apply isSome_bind (fieldAnd_isSome (fun _ => asI64_isSome) error _)
      intro code _
      apply isSome_bind (fieldAnd_isSome (fun s' _ => s'.asStr_isSome) error _)
      intro message _
      rfl
    · rfl

/-- A response is told from an error on any bytes, and its result is in range. -/
theorem resultOf_returns (s : JsonScan) :
  ∃ r, resultOf s = some r ∧ ∀ s', r = .ok s' → s'.InRange
  := by
  obtain ⟨error, herror⟩ := Option.isSome_iff_exists.mp (errorOf_isSome s)
  rw [resultOf, herror]
  cases error with
  | some e => exact ⟨_, rfl, fun _ h => by cases h⟩
  | none =>
    obtain ⟨result, hresult⟩ := Option.isSome_iff_exists.mp (isSome_field s (asBytes "result"))
    rw [Option.bind_eq_bind, Option.bind_some, hresult]
    cases result with
    | none => exact ⟨_, rfl, fun _ h => by cases h⟩
    | some s' =>
      refine ⟨_, rfl, ?_⟩
      rintro _ ⟨⟩
      apply inRange_of_field hresult

/-! ### The parsers return -/

theorem parseBlockhashResult_isSome (s : JsonScan) :
  (parseBlockhashResult decoders s).isSome
  := by
  apply isSome_bind (isSome_field s _)
  rintro (_ | value) _
  · rfl
  apply isSome_bind (fieldAnd_isSome (fun s' _ => s'.asStr_isSome) value _)
  rintro (_ | blockhashStr) _
  · rfl
  apply isSome_bind (fieldAnd_isSome (fun _ => asF64_isSome) value _)
  rintro (_ | lastValid) _
  · rfl
  dsimp only
  cases decoders.base58Decode32 blockhashStr <;> rfl

theorem parseU64Result_isSome (h : s.InRange) :
  (parseU64Result s).isSome
  := by
  apply isSome_bind (asF64_isSome h)
  rintro (_ | n) _ <;> rfl

theorem parseBalanceResult_isSome (h : s.InRange) :
  (parseBalanceResult s).isSome
  := by
  rw [parseBalanceResult]
  split
  · apply isSome_bind (fieldAnd_isSome (fun _ => asF64_isSome) s _)
    rintro (_ | n) _ <;> rfl
  · apply parseU64Result_isSome h

theorem parseHealthResult_isSome (s : JsonScan) :
  (parseHealthResult s).isSome
  := by
  apply isSome_bind s.asStr_isSome
  rintro (_ | text) _ <;> rfl

theorem parseVersionResult_isSome (s : JsonScan) :
  (parseVersionResult s).isSome
  := by
  rw [parseVersionResult]
  split
  · apply isSome_bind (fieldAnd_isSome (fun s' _ => s'.asStr_isSome) s _)
    intro coreStr _
    apply isSome_bind (fieldAnd_isSome (fun _ => asF64_isSome) s _)
    intro featureSet _
    rfl
  · rfl

theorem parseTokenBalanceResult_isSome (s : JsonScan) :
  (parseTokenBalanceResult s).isSome
  := by
  apply isSome_bind (isSome_field s _)
  rintro (_ | value) _
  · rfl
  apply isSome_bind (fieldAnd_isSome (fun s' _ => s'.asStr_isSome) value _)
  rintro (_ | amountStr) _
  · rfl
  dsimp only
  cases parseU64 amountStr with
  | none => rfl
  | some amount =>
    apply isSome_bind (fieldAnd_isSome (fun _ => asF64_isSome) value _)
    rintro (_ | decimals) _
    · rfl
    apply isSome_bind (fieldAnd_isSome (fun s' _ => s'.asStr_isSome) value _)
    intro uiStr _
    rfl

/-- A step of an iterator in range returns, and what is left of it is in range. -/
theorem isSome_next_bind {α : Type} {it : JsonArrayIter}
    {f : Option JsonScan × JsonArrayIter → Option α} (h : it.InRange)
    (hf : ∀ item it', it'.InRange → (∀ s, item = some s → s.InRange) → (f (item, it')).isSome) :
  (it.next >>= f).isSome
  := by
  obtain ⟨item, it', hnext, -, hrange, hitem⟩ := JsonArrayIter.next_spec h
  rw [hnext]
  apply hf item it' hrange
  rintro s rfl
  apply hitem.2.2.1

theorem itemStr_isSome (item : Option JsonScan) :
  (itemStr item).isSome
  := by
  cases item with
  | none => rfl
  | some s => apply s.asStr_isSome

theorem isSome_arrayIter_bind {α : Type} {f : Option JsonArrayIter → Option α} (s : JsonScan)
    (hnone : (f none).isSome)
    (hf : ∀ it : JsonArrayIter, it.data = s.data → it.InRange → (f (some it)).isSome) :
  (s.arrayIter >>= f).isSome
  := by
  obtain ⟨found, hfound, hit⟩ := s.arrayIter_spec
  rw [hfound]
  cases found with
  | none => apply hnone
  | some it =>
    obtain ⟨hdata, hrange⟩ := hit it rfl
    apply hf it hdata hrange

theorem parseAccountData_isSome (s : JsonScan) :
  (parseAccountData decoders s).isSome
  := by
  apply isSome_arrayIter_bind
  · change Option.isSome (ite (s.isString = true) _ _) = true
    split <;> rfl
  · intro it _ hrange
    apply isSome_next_bind hrange
    intro item it' hrange' _
    apply isSome_bind (itemStr_isSome item)
    rintro (_ | encoded) _
    · rfl
    apply isSome_next_bind hrange'
    intro item' _ _ _
    apply isSome_bind (itemStr_isSome item')
    intro encoding _
    split
    · rfl
    · cases decoders.base64Decode encoded <;> rfl

theorem parseAccountInfo_isSome (s : JsonScan) :
  (parseAccountInfo decoders s).isSome
  := by
  apply isSome_bind (fieldAnd_isSome (fun _ => asF64_isSome) s _)
  rintro (_ | lamports) _
  · rfl
  apply isSome_bind (fieldAnd_isSome (fun s' _ => s'.asStr_isSome) s _)
  rintro (_ | ownerStr) _
  · rfl
  dsimp only
  cases decoders.base58Decode32 ownerStr with
  | none => rfl
  | some owner =>
    apply isSome_bind (fieldAnd_isSome (fun _ => asBool_isSome) s _)
    intro executable _
    apply isSome_bind (fieldAnd_isSome (fun _ => asF64_isSome) s _)
    intro rentEpoch _
    apply isSome_bind (isSome_field s _)
    rintro (_ | data) _
    · rfl
    apply isSome_bind (parseAccountData_isSome data)
    rintro (e | bytes) _ <;> rfl

theorem parseAccountItem_isSome (h : s.InRange) :
  (parseAccountItem decoders s).isSome
  := by
  apply isSome_bind (isNull_isSome h)
  intro isNull _
  cases isNull with
  | true => rfl
  | false =>
    apply isSome_bind (parseAccountInfo_isSome s)
    rintro (e | info) _ <;> rfl

theorem parseProgramItem_isSome (s : JsonScan) :
  (parseProgramItem decoders s).isSome
  := by
  apply isSome_bind (fieldAnd_isSome (fun s' _ => s'.asStr_isSome) s _)
  rintro (_ | pubkeyStr) _
  · rfl
  dsimp only
  cases decoders.base58Decode32 pubkeyStr with
  | none => rfl
  | some pubkey =>
    apply isSome_bind (isSome_field s _)
    rintro (_ | account) _
    · rfl
    apply isSome_bind (parseAccountInfo_isSome account)
    rintro (e | info) _ <;> rfl

/-- The loop over the items returns with the fuel with which the iterator comes to its end. -/
theorem parseItems_isSome {α : Type} {parse : JsonScan → Option (Except RpcError α)}
    (hparse : ∀ s : JsonScan, s.InRange → (parse s).isSome) :
  ∀ {n : Nat} {it : JsonArrayIter}, it.InRange → (it.toList n).isSome → (parseItems parse n it).isSome
  | 0, _, _, h => by cases h
  | n + 1, it, hrange, h => by
      obtain ⟨item, it', hnext, -, hrange', hitem⟩ := JsonArrayIter.next_spec hrange
      rw [JsonArrayIter.toList, hnext] at h
      rw [parseItems, hnext]
      cases item with
      | none => rfl
      | some s =>
        have hrest : (it'.toList n).isSome := by
          cases hrest : it'.toList n with
          | some items => rfl
          | none =>
            change (it'.toList n >>= fun items => some (s :: items)).isSome at h
            rw [hrest] at h
            cases h
        apply isSome_bind (hparse s hitem.2.2.1)
        rintro (e | a) _
        · rfl
        apply isSome_bind (parseItems_isSome hparse hrange' hrest)
        rintro (e | as) _ <;> rfl

/-- An iterator over the bytes comes to its end with this fuel. -/
theorem isSome_toList {it : JsonArrayIter} (hdata : it.data = data) (h : it.InRange) :
  (it.toList (data.length + 2)).isSome
  := by
  apply JsonArrayIter.toList_isSome h
  rw [hdata]
  split <;> omega

theorem parseMultipleAccountsResult_isSome (s : JsonScan) :
  (parseMultipleAccountsResult decoders s).isSome
  := by
  apply isSome_bind (isSome_field s _)
  rintro (_ | values) _
  · rfl
  apply isSome_arrayIter_bind
  · rfl
  · intro it hdata hrange
    apply parseItems_isSome (fun _ => parseAccountItem_isSome) hrange (isSome_toList hdata hrange)

theorem parseProgramAccountsResult_isSome (s : JsonScan) :
  (parseProgramAccountsResult decoders s).isSome
  := by
  apply isSome_arrayIter_bind
  · rfl
  · intro it hdata hrange
    apply parseItems_isSome (fun s _ => parseProgramItem_isSome s) hrange
      (isSome_toList hdata hrange)

theorem parseAccountInfoResult_isSome (s : JsonScan) :
  (parseAccountInfoResult decoders s).isSome
  := by
  apply isSome_bind (isSome_field s _)
  rintro (_ | value) hvalue
  · rfl
  apply parseAccountItem_isSome (inRange_of_field hvalue)

theorem Kind.parse_isSome (kind : Kind) (h : s.InRange) :
  (kind.parse decoders s).isSome
  := by
  cases kind with
  | blockhash => apply parseBlockhashResult_isSome
  | u64 => apply parseU64Result_isSome h
  | balance => apply parseBalanceResult_isSome h
  | health => apply parseHealthResult_isSome
  | version => apply parseVersionResult_isSome
  | accountInfo => apply parseAccountInfoResult_isSome
  | multipleAccounts => apply parseMultipleAccountsResult_isSome
  | programAccounts => apply parseProgramAccountsResult_isSome
  | tokenBalance => apply parseTokenBalanceResult_isSome

namespace BatchResults

/-- What is collected from an iterator is what is parsed from its items. -/
theorem collect_toList :
  ∀ {n : Nat} {it : JsonArrayIter} {scans : List JsonScan}, it.toList n = some scans →
    ∃ items, collect n it = some items
      ∧ List.Forall₂ (fun scan item => parseBatchItem scan = some item) scans items
  | 0, _, _, h => by cases h
  | n + 1, it, scans, h => by
      obtain ⟨⟨item, it'⟩, hnext, h⟩ := Option.bind_eq_some_iff.mp h
      rw [collect, hnext]
      cases item with
      | none =>
        obtain rfl : [] = scans := Option.some.inj h
        exact ⟨[], rfl, .nil⟩
      | some scan =>
        obtain ⟨rest, hrest, h⟩ := Option.bind_eq_some_iff.mp h
        obtain rfl : scan :: rest = scans := Option.some.inj h
        obtain ⟨result, hresult, -⟩ := resultOf_returns scan
        obtain ⟨items, hitems, hforall⟩ := collect_toList hrest
        use result :: items
        constructor
        · change (parseBatchItem scan >>= _) = _
          rw [parseBatchItem, hresult]
          change (collect n it' >>= _) = _
          rw [hitems]
          rfl
        · exact .cons hresult hforall

theorem get_of_index {results : BatchResults} {s : JsonScan} {scan : Option JsonScan} {i : Nat}
    (hnew : JsonScan.new results.data = some s) (hindex : s.index i = some scan) :
  results.get i
    = scan.elim (some (.error (.missingField "batch index"))) parseBatchItem
  := by
  rw [BatchResults.get, hnew, Option.bind_eq_bind, Option.bind_some, hindex]
  cases scan <;> rfl

/-- On every byte string `iter` comes to its end, and has yielded what `get` returns for the
indices in order, up to the first that it does not have. -/
theorem iter_get (results : BatchResults) :
  ∃ items, results.iter = some items
    ∧ ∀ i, results.get i = some (items[i]?.getD (.error (.missingField "batch index")))
  := by
  obtain ⟨s, hnew, hdata, hrange⟩ := new_spec results.data
  obtain ⟨found, hfound, hit⟩ := s.arrayIter_spec
  rw [iter, hnew, Option.bind_eq_bind, Option.bind_some, hfound]
  cases found with
  | none =>
    use [], rfl
    intro i
    have hindex : s.index i = some none := by
      rw [JsonScan.index, hfound]
      rfl
    rw [get_of_index hnew hindex]
    rfl
  | some it =>
    obtain ⟨hdata', hrange'⟩ := hit it rfl
    obtain ⟨scans, hscans⟩ :=
      Option.isSome_iff_exists.mp (isSome_toList (hdata'.trans hdata) hrange')
    obtain ⟨items, hitems, hforall⟩ := collect_toList hscans
    use items, hitems
    intro i
    have hindex : s.index i = some scans[i]? := by
      rw [JsonScan.index, hfound]
      apply JsonArrayIter.nth_of_toList i hscans
    rw [get_of_index hnew hindex]
    rcases Nat.lt_or_ge i scans.length with hlt | hge
    · have hlt' : i < items.length := hforall.length_eq ▸ hlt
      rw [List.getElem?_eq_getElem hlt, List.getElem?_eq_getElem hlt']
      apply hforall.get
    · have hge' : items.length ≤ i := hforall.length_eq ▸ hge
      rw [List.getElem?_eq_none hge, List.getElem?_eq_none hge']
      rfl

/-- The result of a kind at an index is the one of the scan there. -/
theorem getResult_of_index {kind : Kind} {results : BatchResults} {s : JsonScan}
    {scan : Option JsonScan} {i : Nat} (hnew : JsonScan.new results.data = some s)
    (hindex : s.index i = some scan) :
  getResult decoders kind results i
    = scan.elim (some (.error (.jsonRpc (.missingField "batch index"))))
      (kind.parseFrom decoders)
  := by
  rw [getResult, resultAt, get_of_index hnew hindex]
  cases scan with
  | none => rfl
  | some item =>
    obtain ⟨r, hr, -⟩ := resultOf_returns item
    change ((parseBatchItem item >>= _) >>= _) = Kind.parseFrom decoders kind item
    rw [parseBatchItem, Kind.parseFrom, hr]
    cases r <;> rfl

end BatchResults

theorem Kind.parseFrom_isSome (kind : Kind) (s : JsonScan) :
  (kind.parseFrom decoders s).isSome
  := by
  obtain ⟨r, hr, hrange⟩ := resultOf_returns s
  rw [Kind.parseFrom, hr]
  cases r with
  | error e => rfl
  | ok result => apply kind.parse_isSome (hrange result rfl)

/-- Whatever a server answers, the client parses it without a panic, as a response with a result of
any kind and as a batch of them, where the native stack is enough for its nesting. -/
theorem parsers_return (decoders : Decoders) (data : Bytes) (kind : Kind) :
  (∃ r, parseResponse data = some r
      ∧ ∀ result, r = .ok result → (kind.parse decoders result).isSome)
    ∧ ∀ i, (BatchResults.getResult decoders kind ⟨data⟩ i).isSome
  := by
  obtain ⟨s, hnew, -⟩ := new_spec data
  constructor
  · obtain ⟨r, hr, hrange⟩ := resultOf_returns s
    use r
    rw [parseResponse, hnew]
    use hr
    intro result hresult
    apply kind.parse_isSome (hrange result hresult)
  · intro i
    obtain ⟨scan, hindex⟩ := Option.isSome_iff_exists.mp (isSome_of_lands (index_lands s i))
    rw [BatchResults.getResult_of_index hnew hindex]
    cases scan with
    | none => rfl
    | some item => apply kind.parseFrom_isSome

/-! ### On documents -/

/-- The result of a kind that the element with an index of a reply has. -/
def Kind.readAt (decoders : Decoders) (kind : Kind) (reply : Value) (i : Nat) :
    Except RpcError kind.Result :=
  match (reply.items.getD [])[i]? with
  | none => .error (.jsonRpc (.missingField "batch index"))
  | some response => kind.readFrom decoders response

/-- On a document the result with an index is read from its element. -/
theorem getResult_text (reply : Text) (kind : Kind) (i : Nat) :
  BatchResults.getResult decoders kind ⟨reply.render⟩ i
    = some (kind.readAt decoders reply.value i)
  := by
  have hnew : JsonScan.new reply.render = _ := new_text reply
  have hitems := reply.value.map_elements reply.after.bytes
  rw [Kind.readAt]
  cases hv : reply.value.elements reply.after.bytes with
  | none =>
    rw [hv] at hitems
    have hindex : (facing reply.render (reply.value.render ++ reply.after.bytes)).index i
        = some none := by
      rw [JsonScan.index, arrayIter_eq_none (after_text reply) hitems.symm]
      rfl
    rw [@BatchResults.getResult_of_index decoders kind ⟨reply.render⟩ _ _ i hnew hindex, ← hitems]
    rfl
  | some elements =>
    rw [hv] at hitems
    have hindex := index_elements (after_text reply)
      (reply.value.stops_render reply.after.bytes).dropWhile hv i
    rw [@BatchResults.getResult_of_index decoders kind ⟨reply.render⟩ _ _ i hnew hindex, ← hitems,
      Option.map_some, Option.getD_some, List.getElem?_map]
    cases hi : elements[i]? with
    | none => rfl
    | some w =>
      have hsuffix := (Value.elements_suffix hv (List.mem_of_getElem? hi)).trans (after_text reply)
      apply Kind.parseFrom_facing hsuffix

example :
    BatchResults.getU64 noDecoders ⟨swapped.render⟩ 0 = some (.ok 7)
      ∧ BatchResults.getU64 noDecoders ⟨swapped.render⟩ 2
        = some (.error (.jsonRpc (.missingField "batch index"))) := by
  decide

/-! ### In a history -/

namespace SolanaRpcClient

variable {δ : Type} {phr : Http.Phr δ} {b : Build} {c : SolanaRpcClient}

/-- The request of a batch. -/
def batchText (c : SolanaRpcClient) (entries : List BatchEntry) : Bytes :=
  postText c.url (asBytes "[" ++ (entriesText c.nextId 0 entries ++ asBytes "]"))

/-- In any history of a client, the results of a batch that is sent when nothing is outstanding are
read from the elements of the answer to it, and then nothing is outstanding again. -/
theorem batch_answered (decoders : Decoders) (server : Server phr) {c₀ : SolanaRpcClient}
    (hconnected : Connected b c₀) (h : Relation.ReflTransGen (Step phr b) c₀ c)
    (entries : List BatchEntry) (start : UInt64) (turns : List Pass) :
  (batch phr b entries start c turns).Holds (fun _ => True) fun r _ =>
    ∀ results, r.1 = .ok results → c.Settled server → r.2.Served server →
      r.2.Settled server
        ∧ ∀ reply : Text, (c.answer server (c.batchText entries)).body = reply.render →
          ∀ (kind : Kind) (i : Nat),
            results.getResult decoders kind i = some (kind.readAt decoders reply.value i)
  := by
  have hscratch := length_le_reached server hconnected h
  rw [batch_def]
  beta_reduce
  split
  · intro results hresults
    cases hresults
  · intro results hresults
    cases hresults
  next len buf nextId hserialize =>
    obtain ⟨hwritten, hsize, -⟩ := serializeBatch_ok hserialize
    have hreq : (buf.take len).length < 10 ^ 20 := by
      rw [List.length_replicate, batchRequestBufSz] at hsize
      rw [List.length_take]
      omega
    have hexchange := @exchange_exchanged _ phr b server { c with nextId := nextId } turns
      (buf.take len) start hreq hscratch
    apply hexchange.andThen
    · intro c' _
      trivial
    · rintro ⟨result, c'⟩ rest hexchanged
      cases result with
      | error e =>
        intro results hresults
        cases hresults
      | ok reply =>
        obtain ⟨offset, len'⟩ := reply
        intro results hresults hsettled hserved
        obtain ⟨hsettled', hbody⟩ := (hexchanged.ok offset len' rfl).2 hsettled hserved
        use hsettled'
        intro text htext kind i
        have hdata : results = ⟨text.render⟩ := by
          change (responseBody b c' offset len').map BatchResults.mk = .ok results at hresults
          rw [hbody, hwritten] at hresults
          rw [← htext]
          exact (Except.ok.inj hresults).symm
        rw [hdata]
        apply getResult_text

theorem batch_answered_plainClient :
  (batch replyPhr checkedBuild swappedEntries 0 plainClient [sendingTurn (reply 1).bytes]).Holds
    (fun _ => True) fun r _ =>
      ∀ results, r.1 = .ok results → plainClient.Settled replies → r.2.Served replies →
        r.2.Settled replies
          ∧ ∀ text : Text,
            (plainClient.answer replies (plainClient.batchText swappedEntries)).body = text.render →
              ∀ (kind : Kind) (i : Nat), results.getResult noDecoders kind i
                = some (kind.readAt noDecoders text.value i)
  := batch_answered noDecoders replies connected_plainClient .refl swappedEntries 0 _

end SolanaRpcClient

end FdRpc

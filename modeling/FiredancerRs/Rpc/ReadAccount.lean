import FiredancerRs.Rpc.Accounts
import FiredancerRs.Rpc.Response

/-!
# What is read from an account object

In front of an account object, `parse_account_info` returns what its counterpart on syntax
trees reads from it, and so do the parsers of the items of account lists: what they return does
not depend on the text after the object.
-/

open Json FdEd25519

namespace FdRpc

open JsonScan
open JsonArrayIter (atElement)

section Read

variable (decoders : Decoders)

/-- The bytes of the member `data` of an account, on trees. -/
def readAccountData (data : Value) : Except RpcError Bytes :=
  match data.items with
  | some items =>
    match items[0]?.bind readStr with
    | none => .error (.badResponse "data[0] is not a string")
    | some encoded =>
      if (items[1]?.bind readStr).getD (asBytes "base64") = asBytes "base58" then
        .error (.badResponse "base58 data encoding not supported; request base64")
      else
        match decoders.base64Decode encoded with
        | none => .error (.badResponse "base64 decode failed")
        | some bytes => .ok bytes
  | none => .ok []

/-- `parse_account_info` on trees. -/
def readAccountInfo (value : Value) : Except RpcError AccountInfo :=
  match (value.lookup (asBytes "lamports")).bind readF64 with
  | none => .error (.badResponse "missing lamports")
  | some lamports =>
    match (value.lookup (asBytes "owner")).bind readStr with
    | none => .error (.badResponse "missing owner")
    | some ownerStr =>
      match decoders.base58Decode32 ownerStr with
      | none => .error .base58DecodeFailed
      | some owner =>
        match value.lookup (asBytes "data") with
        | none => .error (.badResponse "missing data")
        | some data =>
          match readAccountData decoders data with
          | .error e => .error e
          | .ok bytes =>
            .ok ⟨lamports.toU64, owner, bytes,
              ((value.lookup (asBytes "executable")).bind readBool).getD false,
              (((value.lookup (asBytes "rentEpoch")).bind readF64).map Float64.toU64).getD 0⟩

/-- An item of a list of accounts, on trees. -/
def readAccountItem (item : Value) : Except RpcError (Option AccountInfo) :=
  if isNullValue item then
    .ok none
  else
    match readAccountInfo decoders item with
    | .error e => .error e
    | .ok info => .ok (some info)

/-- An item of a list of the accounts of a program, on trees. -/
def readProgramItem (entry : Value) : Except RpcError (Bytes32 × AccountInfo) :=
  match (entry.lookup (asBytes "pubkey")).bind readStr with
  | none => .error (.badResponse "missing pubkey in entry")
  | some pubkeyStr =>
    match decoders.base58Decode32 pubkeyStr with
    | none => .error .base58DecodeFailed
    | some pubkey =>
      match entry.lookup (asBytes "account") with
      | none => .error (.badResponse "missing account in entry")
      | some account =>
        match readAccountInfo decoders account with
        | .error e => .error e
        | .ok info => .ok (pubkey, info)

end Read

variable {decoders : Decoders} {data : Bytes}

/-! ### Arrays -/

theorem arrayIter_eq_none {v : Value} {t : Bytes} (h : v.render ++ t <:+ data)
    (hv : v.items = none) :
  (facing data (v.render ++ t)).arrayIter = some none
  := by
  have hpeek : (facing data (v.render ++ t)).peek ≠ some Ascii.openBracket := by
    rw [peek_value h]
    cases v with
    | number n => apply head_number_ne n Ascii.openBracket (by decide)
    | emptyArray space => cases hv
    | array elements => cases hv
    | bool b => cases b <;> decide
    | null => decide
    | string s =>
      change some Ascii.quote ≠ some Ascii.openBracket
      decide
    | emptyObject space =>
      change some Ascii.openBrace ≠ some Ascii.openBracket
      decide
    | object members =>
      change some Ascii.openBrace ≠ some Ascii.openBracket
      decide
  rw [arrayIter, skipWs_value h]
  apply if_pos hpeek

/-- What `next` returns, from what the iterator yields. -/
theorem next_of_toList {n : Nat} {it : JsonArrayIter} {items : List JsonScan}
    (h : it.toList (n + 1) = some items) :
  ∃ it', it.next = some (items[0]?, it') ∧ (items ≠ [] → it'.toList n = some items.tail)
  := by
  obtain ⟨⟨item, it'⟩, hnext, h⟩ := Option.bind_eq_some_iff.mp h
  cases item with
  | none =>
    obtain rfl : [] = items := Option.some.inj h
    exact ⟨it', hnext, fun hne => absurd rfl hne⟩
  | some item =>
    obtain ⟨items', hitems, h⟩ := Option.bind_eq_some_iff.mp h
    obtain rfl : item :: items' = items := Option.some.inj h
    exact ⟨it', hnext, fun _ => hitems⟩

/-- The strings of the elements of an array. -/
theorem itemStr_getElem {v : Value} {t : Bytes} {elements : List (Value × Bytes)}
    (h : v.render ++ t <:+ data) (hv : v.elements t = some elements) (i : Nat) :
  itemStr (elements.map (atElement data))[i]?
    = some ((elements.map Prod.fst)[i]?.bind readStr)
  := by
  rw [List.getElem?_map, List.getElem?_map]
  cases hi : elements[i]? with
  | none => rfl
  | some w =>
    have hsuffix := (Value.elements_suffix hv (List.mem_of_getElem? hi)).trans h
    apply asStr_facing hsuffix

/-! ### Accounts -/

/-- The member `data` of an account is read by its counterpart on trees. -/
theorem parseAccountData_facing {v : Value} {t : Bytes} (h : v.render ++ t <:+ data) :
  parseAccountData decoders (facing data (v.render ++ t)) = some (readAccountData decoders v)
  := by
  rw [parseAccountData, readAccountData]
  have hitems := v.map_elements t
  cases hv : v.elements t with
  | none =>
    rw [hv] at hitems
    rw [arrayIter_eq_none h hitems.symm, ← hitems]
    change (if (facing data (v.render ++ t)).isString = true then some (Except.ok [])
      else some (Except.ok [])) = _
    split <;> rfl
  | some elements =>
    rw [hv] at hitems
    obtain ⟨it, hiter, htoList⟩ := arrayIter_elements h (v.stops_render t).dropWhile hv
    obtain ⟨it₁, hnext, htail⟩ := next_of_toList (htoList (elements.length + 2) (by omega))
    have hfirst := itemStr_getElem h hv 0
    have hsecond := itemStr_getElem h hv 1
    rw [hiter, ← hitems]
    change (it.next >>= _) = _
    rw [hnext]
    change (itemStr (elements.map (atElement data))[0]? >>= _) = _
    rw [hfirst]
    dsimp only [Option.map_some]
    cases hencoded : (elements.map Prod.fst)[0]?.bind readStr with
    | none => rfl
    | some encoded =>
      have hne : elements.map (atElement data) ≠ [] := by
        intro hnil
        rw [List.map_eq_nil_iff] at hnil
        rw [hnil] at hencoded
        cases hencoded
      obtain ⟨it₂, hnext₂, -⟩ := next_of_toList (htail hne)
      rw [List.getElem?_tail] at hnext₂
      change (it₁.next >>= _) = _
      rw [hnext₂]
      change (itemStr (elements.map (atElement data))[1]? >>= _) = _
      rw [hsecond]
      change (if _ then _ else _) = _
      dsimp only
      split
      · rfl
      · cases decoders.base64Decode encoded <;> rfl

/-- The value of a member that is looked up, or none. -/
theorem field_lookup {v : Value} {t : Bytes} (h : v.render ++ t <:+ data) (name : Bytes) :
  (v.lookup name = none ∧ (facing data (v.render ++ t)).field name = some none)
    ∨ ∃ m : Member, v.lookup name = some m.value ∧ m.value.render ++ m.after <:+ data
      ∧ (facing data (v.render ++ t)).field name = some (some (atMember data m))
  := by
  rw [field_value h, ← v.map_find? t]
  cases hfind : ((v.members t).getD []).find? fun m => m.name.raw = name with
  | none => exact .inl ⟨rfl, rfl⟩
  | some m =>
    have hsuffix := (Value.find?_member hfind).1
    exact .inr ⟨m, rfl, hsuffix.trans h, rfl⟩

/-- An account object is read by its counterpart on trees. -/
theorem parseAccountInfo_facing {v : Value} {t : Bytes} (h : v.render ++ t <:+ data) :
  parseAccountInfo decoders (facing data (v.render ++ t)) = some (readAccountInfo decoders v)
  := by
  have hlamports := fieldAnd_value h (fun _ => asF64_facing) (asBytes "lamports")
  have howner := fieldAnd_value h (fun _ hm _ => asStr_facing hm) (asBytes "owner")
  have hexecutable := fieldAnd_value h (fun _ hm _ => asBool_facing hm) (asBytes "executable")
  have hrentEpoch := fieldAnd_value h (fun _ => asF64_facing) (asBytes "rentEpoch")
  rw [parseAccountInfo, readAccountInfo, hlamports, howner, hexecutable, hrentEpoch]
  cases (v.lookup (asBytes "lamports")).bind readF64 with
  | none => rfl
  | some lamports =>
    cases (v.lookup (asBytes "owner")).bind readStr with
    | none => rfl
    | some ownerStr =>
      dsimp only [Option.bind_eq_bind, Option.bind_some]
      cases decoders.base58Decode32 ownerStr with
      | none => rfl
      | some owner =>
        dsimp only
        rcases field_lookup h (asBytes "data") with ⟨hnone, hfield⟩ | ⟨m, hsome, hm, hfield⟩
        · rw [hnone, hfield]
          rfl
        · rw [hsome, hfield, Option.bind_some]
          dsimp only
          rw [atMember, parseAccountData_facing hm]
          cases readAccountData decoders m.value <;> rfl

/-- An account is read exactly when it has a number of lamports, an owner that is decoded, and a
member `data` from which bytes are read. -/
theorem readAccountInfo_ok_iff {v : Value} {info : AccountInfo} :
  readAccountInfo decoders v = .ok info
    ↔ ∃ lamports ownerStr d,
        (v.lookup (asBytes "lamports")).bind readF64 = some lamports
          ∧ (v.lookup (asBytes "owner")).bind readStr = some ownerStr
          ∧ decoders.base58Decode32 ownerStr = some info.owner
          ∧ v.lookup (asBytes "data") = some d
          ∧ readAccountData decoders d = .ok info.data
          ∧ info.lamports = lamports.toU64
          ∧ info.executable = ((v.lookup (asBytes "executable")).bind readBool).getD false
          ∧ info.rentEpoch
              = (((v.lookup (asBytes "rentEpoch")).bind readF64).map Float64.toU64).getD 0
  := by
  obtain ⟨lamports, owner, bytes, executable, rentEpoch⟩ := info
  rw [readAccountInfo]
  cases (v.lookup (asBytes "lamports")).bind readF64 with
  | none => simp
  | some l =>
    cases (v.lookup (asBytes "owner")).bind readStr with
    | none => simp
    | some ownerStr =>
      cases hdecode : decoders.base58Decode32 ownerStr with
      | none => simp [hdecode]
      | some o =>
        cases v.lookup (asBytes "data") with
        | none => simp [hdecode]
        | some d =>
          cases hbytes : readAccountData decoders d with
          | error e => simp [hdecode, hbytes]
          | ok b =>
            simp only [hdecode, hbytes, Except.ok.injEq, AccountInfo.mk.injEq]
            constructor
            · rintro ⟨rfl, rfl, rfl, rfl, rfl⟩
              exact ⟨l, ownerStr, d, rfl, rfl, hdecode, rfl, hbytes, rfl, rfl, rfl⟩
            · rintro ⟨lamports', ownerStr', d', hl, ho, howner, hd, hb, rfl, rfl, rfl⟩
              obtain rfl := Option.some.inj hl
              obtain rfl := Option.some.inj ho
              obtain rfl := Option.some.inj (hdecode.symm.trans howner)
              obtain rfl := Option.some.inj hd
              obtain rfl := Except.ok.inj (hbytes.symm.trans hb)
              exact ⟨rfl, rfl, rfl, rfl, rfl⟩

/-- An item of a list of accounts is read by its counterpart on trees. -/
theorem parseAccountItem_facing {v : Value} {t : Bytes} (h : v.render ++ t <:+ data) :
  parseAccountItem decoders (facing data (v.render ++ t)) = some (readAccountItem decoders v)
  := by
  rw [parseAccountItem, readAccountItem, isNull_facing h, parseAccountInfo_facing h]
  cases isNullValue v with
  | true => rfl
  | false => cases readAccountInfo decoders v <;> rfl

/-- An item of a list of the accounts of a program is read by its counterpart on trees. -/
theorem parseProgramItem_facing {v : Value} {t : Bytes} (h : v.render ++ t <:+ data) :
  parseProgramItem decoders (facing data (v.render ++ t)) = some (readProgramItem decoders v)
  := by
  have hpubkey := fieldAnd_value h (fun _ hm _ => asStr_facing hm) (asBytes "pubkey")
  rw [parseProgramItem, readProgramItem, hpubkey]
  cases (v.lookup (asBytes "pubkey")).bind readStr with
  | none => rfl
  | some pubkeyStr =>
    dsimp only [Option.bind_eq_bind, Option.bind_some]
    cases decoders.base58Decode32 pubkeyStr with
    | none => rfl
    | some pubkey =>
      dsimp only
      rcases field_lookup h (asBytes "account") with ⟨hnone, hfield⟩ | ⟨m, hsome, hm, hfield⟩
      · rw [hnone, hfield]
        rfl
      · rw [hsome, hfield, Option.bind_some]
        dsimp only
        rw [atMember, parseAccountInfo_facing hm]
        cases readAccountInfo decoders m.value <;> rfl

end FdRpc

import FiredancerRs.Txn.Arrays
import FiredancerRs.Txn.Entries

/-!
# What the arrays of a builder hold

The arrays of a builder hold the lists of the model over lists (`Represents`). A call on the arrays
that the model can run does not fault, and the arrays it leaves hold the lists that the model leaves
(`ArrayBuilder.run_represents`).
-/

open FdEd25519 FixedArray

namespace FdTxn

variable {sys : Sys}

/-- The arrays hold the lists, up to their counts. -/
structure Represents (s : ArrayBuilder sys) (b : TransactionBuilder) : Prop where
  keys : Holds s.acctKeys s.acctCount (keys b.accts)
  flags : Holds s.acctFlags s.acctCount (b.accts.map Account.flags)
  instrs : Holds s.instrs s.instrCount b.instrs
  acctBuf : Holds s.instrAcctBuf s.instrAcctLen b.instrAcctBuf
  dataBuf : Holds s.instrDataBuf s.instrDataLen b.instrDataBuf
  feePayer : s.feePayer = b.feePayer
  blockhash : s.blockhash = b.blockhash
  version : s.version = b.version

/-- A computation on the arrays does not fault, has the given result and leaves arrays that hold
the given lists. -/
def Agrees {ρ : Type} (x : Except Fault (ρ × ArrayBuilder sys)) (y : ρ × TransactionBuilder) :
    Prop :=
  ∃ s, x = .ok (y.1, s) ∧ Represents s y.2

/-- The data of an instruction is a slice in memory, so its length is below 2⁶³. -/
def Call.InMemory : Call → Prop
  | .addInstruction ix => ix.data.length < 2 ^ 63
  | _ => True

namespace ArrayBuilder

variable {s : ArrayBuilder sys} {b : TransactionBuilder} {key : Pubkey} {idx : Nat}

theorem represents_new :
  Represents (.new : ArrayBuilder sys) .new
  where
  keys := ⟨rfl, List.nil_prefix⟩
  flags := ⟨rfl, List.nil_prefix⟩
  instrs := ⟨rfl, List.nil_prefix⟩
  acctBuf := ⟨rfl, List.nil_prefix⟩
  dataBuf := ⟨rfl, List.nil_prefix⟩
  feePayer := rfl
  blockhash := rfl
  version := rfl

/-! ### Rows -/

theorem acctCount_eq (h : Represents s b) :
  s.acctCount = b.accts.length
  := by
  rw [h.keys.count_eq, length_keys]

theorem length_accts_le (h : Represents s b) :
  b.accts.length ≤ sys.acctAddrMax
  := by
  rw [← length_keys]
  apply h.keys.length_le

/-- The search in the rows from a place on finds what is found in the list of them. -/
theorem findFrom_eq {count : Nat} {ks : List Pubkey} (hkeys : Holds s.acctKeys count ks) :
  ∀ {left i : Nat}, i + left = ks.length →
    s.findFrom key left i
      = .ok (((ks.drop i).findIdx? fun k => k = key).map fun j => j + i)
  | 0, i, hi => by
      rw [List.drop_of_length_le (by omega)]
      rfl
  | left + 1, i, hi => by
      have hlt : i < ks.length := by omega
      rw [findFrom, hkeys.get (List.getElem?_eq_getElem hlt), Except.ok_bind,
        List.drop_eq_getElem_cons hlt, List.findIdx?_cons]
      by_cases hkey : ks[i] = key
      · rw [if_pos hkey, if_pos (by rwa [decide_eq_true_eq]), Option.map_some, Nat.zero_add]
        rfl
      · rw [if_neg hkey, if_neg (by rwa [decide_eq_true_eq]), findFrom_eq hkeys (by omega),
          Option.map_map]
        congr 2
        funext j
        apply (Nat.add_right_comm j 1 i).symm

theorem findAccount_eq (h : Represents s b) (key : Pubkey) :
  s.findAccount key = .ok (b.findAccount key)
  := by
  rw [findAccount, findFrom_eq h.keys (by rw [Nat.zero_add, h.keys.count_eq]), List.drop_zero]
  congr 1
  rw [TransactionBuilder.findAccount, keys, List.findIdx?_map]
  simp only [Nat.add_zero, Option.map_id']
  rfl

/-- A row is added to a table that has room for it. -/
theorem pushAccount_represents (h : Represents s b) (key : Pubkey)
    (hroom : b.accts.length < sys.acctAddrMax) :
  ∃ s', s.pushAccount key = .ok s' ∧ Represents s' (b.pushAccount key)
  := by
  have hcount := acctCount_eq h
  have := sys.acctAddrMax_eq
  have := sys.sigMax_lt
  obtain ⟨acctKeys, hsetKey, hkeys⟩ := h.keys.push key (by omega)
  obtain ⟨acctFlags, hsetFlags, hflags⟩ := h.flags.push 0 (by omega)
  have hadd : FixedArray.add s.acctCount 1 = .ok (s.acctCount + 1) := add_of_lt (by omega)
  use { s with acctKeys := acctKeys, acctFlags := acctFlags, acctCount := s.acctCount + 1 }
  constructor
  · rw [pushAccount, hsetKey, Except.ok_bind, hsetFlags, Except.ok_bind, hadd]
    rfl
  · exact { h with
      keys := by simpa [keys, TransactionBuilder.pushAccount] using hkeys
      flags := by simpa [TransactionBuilder.pushAccount] using hflags }

theorem keys_orFlags (b : TransactionBuilder) (idx : Nat) (flag : UInt8) :
  keys (b.orFlags idx flag).accts = keys b.accts
  := by
  apply List.ext_getElem?
  intro j
  simp only [keys, TransactionBuilder.orFlags, List.getElem?_map, List.getElem?_modify]
  cases b.accts[j]? with
  | none => rfl
  | some acct => by_cases hj : idx = j <;> simp [hj]

theorem flags_orFlags (b : TransactionBuilder) {flag : UInt8}
    (h : idx < (b.accts.map Account.flags).length) :
  (b.orFlags idx flag).accts.map Account.flags
    = (b.accts.map Account.flags).set idx ((b.accts.map Account.flags)[idx] ||| flag)
  := by
  have hidx : idx < b.accts.length := by rwa [List.length_map] at h
  apply List.ext_getElem?
  intro j
  simp only [TransactionBuilder.orFlags, List.getElem?_map, List.getElem?_modify,
    List.getElem?_set, List.length_map]
  by_cases hj : idx = j
  · subst hj
    simp [hidx]
  · simp [hj]

/-- Flags are raised in a row of the table. -/
theorem orFlags_represents (h : Represents s b) (hidx : idx < b.accts.length) (flag : UInt8) :
  ∃ s', s.orFlags idx flag = .ok s' ∧ Represents s' (b.orFlags idx flag)
  := by
  have hlt : idx < (b.accts.map Account.flags).length := by rwa [List.length_map]
  obtain ⟨acctFlags, hset, hflags⟩ :=
    h.flags.set ((b.accts.map Account.flags)[idx] ||| flag) hlt
  use { s with acctFlags := acctFlags }
  constructor
  · rw [orFlags, h.flags.get (List.getElem?_eq_getElem hlt), Except.ok_bind, hset]
    rfl
  · exact { h with
      keys := by rw [keys_orFlags]; exact h.keys
      flags := by rw [flags_orFlags b hlt]; exact hflags }

theorem orFlagsIf_represents (h : Represents s b) (hidx : idx < b.accts.length) (cond : Bool)
    (flag : UInt8) :
  ∃ s', s.orFlagsIf cond idx flag = .ok s'
    ∧ Represents s' (if cond then b.orFlags idx flag else b)
  := by
  cases cond with
  | true => exact orFlags_represents h hidx flag
  | false => exact ⟨s, rfl, h⟩

/-- A position of the table is stored in a byte without loss. -/
theorem toU8_position (hidx : idx < b.accts.length) (hbound : b.accts.length ≤ sys.acctAddrMax) :
  toU8 idx = .ok (UInt8.ofNat idx)
  := by
  have := sys.acctAddrMax_eq
  have := sys.sigMax_lt
  apply toU8_of_lt
  omega

/-- A number up to the MTU is stored in two bytes without loss. -/
theorem toU16_of_le_mtu (sys : Sys) {n : Nat} (h : n ≤ sys.mtu) :
  toU16 n = .ok (UInt16.ofNat n)
  := by
  have := sys.mtu_lt
  apply toU16_of_lt
  omega

/-! ### Calls -/

theorem findOrInsert_agrees (h : Represents s b) (key : Pubkey) :
  Agrees (s.findOrInsert key) (b.findOrInsert sys key)
  := by
  have hcount := acctCount_eq h
  rw [findOrInsert, findAccount_eq h, Except.ok_bind, TransactionBuilder.findOrInsert]
  cases b.findAccount key with
  | some i => exact ⟨s, rfl, h⟩
  | none =>
    dsimp only
    rw [hcount]
    by_cases hfull : b.accts.length ≥ sys.acctAddrMax
    · rw [if_pos hfull, if_pos hfull]
      exact ⟨s, rfl, h⟩
    · rw [if_neg hfull, if_neg hfull]
      obtain ⟨s', hpush, hs'⟩ := pushAccount_represents h key (Nat.lt_of_not_le hfull)
      rw [hpush]
      exact ⟨s', rfl, hs'⟩

/-- The row that is found or inserted is a row of the table. -/
theorem findOrInsert_lt {b' : TransactionBuilder} (h : b.findOrInsert sys key = (.ok idx, b')) :
  idx < b'.accts.length
  := by
  obtain ⟨rfl, hidx, -⟩ := TransactionBuilder.findOrInsert_ok h
  exact indexOf_lt hidx

/-- `fee_payer` does not fault, or it fails its assertion for a key that is not in a full table. -/
theorem setFeePayer_cases (h : Represents s b) (key : Pubkey) :
  (∃ s' b', b.setFeePayer sys key = some b' ∧ s.setFeePayer key = .ok s' ∧ Represents s' b')
    ∨ b.findAccount key = none ∧ sys.acctAddrMax ≤ b.accts.length
      ∧ s.setFeePayer key = .error (.assertion "account table full")
  := by
  have hcount := acctCount_eq h
  rw [setFeePayer, findAccount_eq h, Except.ok_bind, TransactionBuilder.setFeePayer]
  cases hfind : b.findAccount key with
  | some i =>
    left
    obtain ⟨s', hor, hs'⟩ := orFlags_represents h (indexOf_lt hfind)
      (ACCT_F_SIGNER ||| ACCT_F_WRITABLE)
    dsimp only
    rw [hor]
    exact ⟨_, _, rfl, rfl, { hs' with feePayer := rfl }⟩
  | none =>
    dsimp only
    rw [hcount]
    by_cases hroom : b.accts.length < sys.acctAddrMax
    · left
      rw [if_pos hroom, if_pos hroom]
      obtain ⟨s₁, hpush, hs₁⟩ := pushAccount_represents h key hroom
      have hlast : b.accts.length < (b.pushAccount key).accts.length := by
        simp [TransactionBuilder.pushAccount]
      obtain ⟨s', hor, hs'⟩ := orFlags_represents hs₁ hlast (ACCT_F_SIGNER ||| ACCT_F_WRITABLE)
      rw [hpush, Except.ok_bind, hor]
      exact ⟨_, _, rfl, rfl, { hs' with feePayer := rfl }⟩
    · right
      rw [if_neg hroom]
      exact ⟨rfl, Nat.le_of_not_lt hroom, rfl⟩

theorem addSigner_agrees (h : Represents s b) (key : Pubkey) :
  Agrees (s.addSigner key) (b.addSigner sys key)
  := by
  obtain ⟨s₁, hfind, hs₁⟩ := findOrInsert_agrees h key
  rw [addSigner, hfind, Except.ok_bind, TransactionBuilder.addSigner]
  cases hb : b.findOrInsert sys key with
  | mk r b₁ =>
    rw [hb] at hs₁
    cases r with
    | error e => exact ⟨s₁, rfl, hs₁⟩
    | ok idx =>
      obtain ⟨s', hor, hs'⟩ := orFlags_represents hs₁ (findOrInsert_lt hb) ACCT_F_SIGNER
      dsimp only
      rw [hor]
      exact ⟨s', rfl, hs'⟩

/-- A position is added to the account buffer. -/
theorem pushIndex_represents (h : Represents s b) (hidx : idx < b.accts.length)
    (hroom : s.instrAcctLen < sys.mtu) :
  ∃ instrAcctBuf,
    toU8 idx = .ok (UInt8.ofNat idx)
      ∧ FixedArray.set s.instrAcctBuf s.instrAcctLen (UInt8.ofNat idx) = .ok instrAcctBuf
      ∧ FixedArray.add s.instrAcctLen 1 = .ok (s.instrAcctLen + 1)
      ∧ Represents { s with instrAcctBuf := instrAcctBuf, instrAcctLen := s.instrAcctLen + 1 }
        { b with instrAcctBuf := b.instrAcctBuf ++ [UInt8.ofNat idx] }
  := by
  obtain ⟨instrAcctBuf, hset, hbuf⟩ := h.acctBuf.push (UInt8.ofNat idx) hroom
  have := sys.mtu_lt
  use instrAcctBuf, toU8_position hidx (length_accts_le h), hset, add_of_lt (by omega)
  exact { h with acctBuf := hbuf }

theorem addAccounts_agrees :
  ∀ (metas : List AccountMeta) {s : ArrayBuilder sys} {b : TransactionBuilder},
    Represents s b → Agrees (s.addAccounts metas) (b.addAccounts sys metas)
  | [], s, _, h => ⟨s, rfl, h⟩
  | m :: metas, s, b, h => by
      obtain ⟨s₁, hfind, hs₁⟩ := findOrInsert_agrees h m.pubkey
      rw [addAccounts, hfind, Except.ok_bind, TransactionBuilder.addAccounts]
      cases hb : b.findOrInsert sys m.pubkey with
      | mk r b₁ =>
        rw [hb] at hs₁
        cases r with
        | error e => exact ⟨s₁, rfl, hs₁⟩
        | ok idx =>
          have hlt := findOrInsert_lt hb
          obtain ⟨s₂, hsigner, hs₂⟩ := orFlagsIf_represents hs₁ hlt m.isSigner ACCT_F_SIGNER
          have hlt₂ : idx < (if m.isSigner then b₁.orFlags idx ACCT_F_SIGNER
              else b₁).accts.length := by
            split
            · simpa [TransactionBuilder.orFlags] using hlt
            · apply hlt
          obtain ⟨s₃, hwritable, hs₃⟩ :=
            orFlagsIf_represents hs₂ hlt₂ m.isWritable ACCT_F_WRITABLE
          obtain ⟨rfl, hidx, -⟩ := TransactionBuilder.findOrInsert_ok hb
          have hraised := TransactionBuilder.orFlags_meta hidx
          dsimp only at hraised hs₃ ⊢
          rw [hraised] at hs₃ ⊢
          rw [hsigner, Except.ok_bind, hwritable, Except.ok_bind]
          dsimp only
          rw [← hs₃.acctBuf.count_eq]
          by_cases hfull : s₃.instrAcctLen ≥ sys.mtu
          · rw [if_pos hfull, if_pos hfull]
            exact ⟨s₃, rfl, hs₃⟩
          · rw [if_neg hfull, if_neg hfull]
            rw [indexOf_touch_congr m.pubkey 0 (metaFlags m)] at hidx
            obtain ⟨acctBuf, hcast, hset, hadd, hs₄⟩ :=
              pushIndex_represents hs₃ (indexOf_lt hidx) (Nat.lt_of_not_le hfull)
            rw [hcast, Except.ok_bind, hset, Except.ok_bind, hadd, Except.ok_bind]
            apply addAccounts_agrees metas hs₄

/-- An entry is added to arrays that have room for it, with its data. -/
theorem addEntry_represents (h : Represents s b) {ix : InstructionBuf} {progIdx acctOff : Nat}
    (hmem : ix.data.length < 2 ^ 63) (hroom : b.instrs.length < sys.instrMax)
    (hidx : progIdx < b.accts.length) (hacctOff : acctOff ≤ sys.mtu)
    (haccts : ix.accounts.length ≤ sys.mtu) :
  Agrees (s.addEntry ix progIdx acctOff)
    (if b.instrDataBuf.length + ix.data.length > sys.mtu then (.error .dataTooLarge, b)
    else (.ok (), { b with
      instrDataBuf := b.instrDataBuf ++ ix.data
      instrs := b.instrs ++ [{
        programIdx := UInt8.ofNat progIdx
        acctOff := UInt16.ofNat acctOff
        acctCnt := UInt16.ofNat ix.accounts.length
        dataOff := UInt16.ofNat b.instrDataBuf.length
        dataLen := UInt16.ofNat ix.data.length }] }))
  := by
  have hmtu := sys.mtu_lt
  have hinstrs := sys.instrMax_lt
  have hdata := h.dataBuf.length_le
  rw [addEntry, h.dataBuf.count_eq, add_of_lt (by omega), Except.ok_bind]
  by_cases hlarge : b.instrDataBuf.length + ix.data.length > sys.mtu
  · rw [if_pos hlarge, if_pos hlarge]
    exact ⟨s, rfl, h⟩
  · rw [if_neg hlarge, if_neg hlarge]
    have hdataBuf := h.dataBuf
    rw [hdataBuf.count_eq] at hdataBuf
    obtain ⟨dataBuf, hcopy, hholds⟩ := hdataBuf.append ix.data (by omega)
    have hcount := h.instrs.count_eq
    obtain ⟨instrs, hset, hentries⟩ := h.instrs.push ⟨UInt8.ofNat progIdx, UInt16.ofNat acctOff,
      UInt16.ofNat ix.accounts.length, UInt16.ofNat b.instrDataBuf.length,
      UInt16.ofNat ix.data.length⟩ (by omega)
    rw [hcopy, Except.ok_bind, toU8_position hidx (length_accts_le h), Except.ok_bind,
      toU16_of_le_mtu sys hacctOff, Except.ok_bind, toU16_of_le_mtu sys haccts, Except.ok_bind,
      toU16_of_le_mtu sys hdata, Except.ok_bind, toU16_of_le_mtu sys (by omega), Except.ok_bind, hset,
      Except.ok_bind, add_of_lt (by omega), Except.ok_bind]
    exact ⟨_, rfl, { h with dataBuf := hholds, instrs := hentries }⟩

theorem addInstruction_agrees (h : Represents s b) {ix : InstructionBuf}
    (hmem : ix.data.length < 2 ^ 63) :
  Agrees (s.addInstruction ix) (b.addInstruction sys ix)
  := by
  rw [addInstruction, TransactionBuilder.addInstruction, h.instrs.count_eq]
  by_cases hfull : b.instrs.length ≥ sys.instrMax
  · rw [if_pos hfull, if_pos hfull]
    exact ⟨s, rfl, h⟩
  · rw [if_neg hfull, if_neg hfull]
    obtain ⟨s₁, hfind, hs₁⟩ := findOrInsert_agrees h ix.programId
    rw [hfind, Except.ok_bind]
    cases hb : b.findOrInsert sys ix.programId with
    | mk r b₁ =>
      rw [hb] at hs₁
      cases r with
      | error e => exact ⟨s₁, rfl, hs₁⟩
      | ok progIdx =>
        have hidx := findOrInsert_lt hb
        obtain ⟨rfl, -⟩ := TransactionBuilder.findOrInsert_ok hb
        obtain ⟨s₂, hloop, hs₂⟩ := addAccounts_agrees ix.accounts hs₁
        dsimp only at hs₁ hs₂ hidx ⊢
        rw [hloop, Except.ok_bind]
        cases hb₂ : TransactionBuilder.addAccounts sys
            { b with accts := touch ix.programId 0 b.accts } ix.accounts with
        | mk r b₂ =>
          rw [hb₂] at hs₂
          cases r with
          | error e => exact ⟨s₂, rfl, hs₂⟩
          | ok u =>
            obtain ⟨idxs, rfl, hmap, -, hend⟩ := TransactionBuilder.addAccounts_ok
              (b := { b with accts := touch ix.programId 0 b.accts }) (length_accts_le hs₁)
              h.acctBuf.length_le hb₂
            have hcount : idxs.length = ix.accounts.length := by
              simpa using congrArg List.length hmap
            dsimp only at hend
            rw [List.length_append] at hend
            have hprogram : progIdx
                < (grant ix.accounts (touch ix.programId 0 b.accts)).length :=
              Nat.lt_of_lt_of_le hidx (length_le_length_grant ix.accounts _)
            rw [hs₁.acctBuf.count_eq]
            apply addEntry_represents hs₂ hmem (Nat.lt_of_not_le hfull) hprogram
              h.acctBuf.length_le (by omega)

end ArrayBuilder

open ArrayBuilder

theorem Agrees.outcome {x : Except Fault (Except BuildError Unit × ArrayBuilder sys)}
    {y : Except BuildError Unit × TransactionBuilder} (h : Agrees x y) :
  Agrees (x >>= fun r => pure (r.map .ofExcept id)) (y.map Outcome.ofExcept id)
  := by
  obtain ⟨s, rfl, hs⟩ := h
  exact ⟨s, rfl, hs⟩

/-- A call does not fault and ends as the model does, or it is a `fee_payer` for a key that is not
in a full table, and fails its assertion. -/
theorem ArrayBuilder.run_cases {s : ArrayBuilder sys} {b : TransactionBuilder}
    (h : Represents s b) {c : Call} (hmem : c.InMemory) :
  Agrees (s.run c) (c.run sys b)
    ∨ ∃ key, c = .feePayer key ∧ b.findAccount key = none ∧ sys.acctAddrMax ≤ b.accts.length
      ∧ s.run c = .error (.assertion "account table full")
  := by
  cases c with
  | version v => exact .inl ⟨_, rfl, { h with version := rfl }⟩
  | recentBlockhash hash => exact .inl ⟨_, rfl, { h with blockhash := rfl }⟩
  | feePayer key =>
    rw [run, Call.run]
    rcases setFeePayer_cases h key with ⟨s', b', hb, hset, hs'⟩ | ⟨hfind, hfull, hset⟩
    · left
      rw [hb, hset]
      exact ⟨s', rfl, hs'⟩
    · right
      rw [hset]
      exact ⟨key, rfl, hfind, hfull, rfl⟩
  | addSigner key => exact .inl (addSigner_agrees h key).outcome
  | addInstruction ix => exact .inl (addInstruction_agrees h hmem).outcome

end FdTxn

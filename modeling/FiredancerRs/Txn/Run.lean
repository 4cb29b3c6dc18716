import FiredancerRs.Txn.Table
import Mathlib.Data.List.Forall2

/-!
# Runs of the builder

What one call does to a builder, and what holds of every builder reached from
`TransactionBuilder::new` by calls that all succeed (`Built`): its table is the table of
the requests of the calls (`Built.accts_eq`), and its instruction entries locate the
program id, the accounts and the data of the added instructions in the table and in the
two byte buffers (`Built.entries`).
-/

open FdEd25519

namespace FdTxn

variable {sys : Sys}

theorem indexOf_congr {accts accts' : List Account} (h : keys accts = keys accts')
    (key : Pubkey) :
  indexOf accts key = indexOf accts' key
  := by
  have hidx (accts : List Account) :
      indexOf accts key = (keys accts).findIdx? fun k => decide (k = key) := by
    rw [keys, List.findIdx?_map]
    rfl
  rw [hidx, hidx, h]

theorem indexOf_touch_congr (key : Pubkey) (flags flags' : UInt8) (accts : List Account) :
  indexOf (touch key flags accts) key = indexOf (touch key flags' accts) key
  := by
  apply indexOf_congr
  rw [keys_touch, keys_touch]

/-- A touched key that was not in the table is in the row after the last. -/
theorem indexOf_touch_of_not_mem {accts : List Account} {key : Pubkey} (h : key ∉ keys accts)
    (flags : UInt8) :
  indexOf (touch key flags accts) key = some accts.length
  := by
  have hnone : accts.findIdx? (fun acct => decide (acct.key = key)) = none :=
    indexOf_eq_none_iff.mpr h
  simp [← append_eq_touch h, indexOf, List.findIdx?_append, hnone]

namespace TransactionBuilder

/-! ### Finding and inserting a key -/

/-- What `find_or_insert` does when it succeeds. -/
theorem findOrInsert_ok {b b' : TransactionBuilder} {key : Pubkey} {idx : Nat}
    (h : b.findOrInsert sys key = (.ok idx, b')) :
  b' = { b with accts := touch key 0 b.accts }
    ∧ indexOf (touch key 0 b.accts) key = some idx
    ∧ (key ∈ keys b.accts ∨ b.accts.length < sys.acctAddrMax)
  := by
  have hfind : b.findAccount key = indexOf b.accts key := rfl
  rw [findOrInsert, hfind] at h
  split at h
  · next i hi =>
    obtain ⟨rfl, rfl⟩ : i = idx ∧ b = b' := by simpa using h
    have hmem := indexOf_isSome_iff.mp ⟨i, hi⟩
    rw [touch_zero hmem]
    exact ⟨rfl, hi, .inl hmem⟩
  · next hnone =>
    split at h
    · simp at h
    · next hroom =>
      obtain ⟨rfl, rfl⟩ : b.accts.length = idx ∧ b.pushAccount key = b' := by simpa using h
      have hnot := indexOf_eq_none_iff.mp hnone
      use by rw [pushAccount, append_eq_touch hnot]
      use indexOf_touch_of_not_mem hnot 0
      right
      omega

/-- What it takes for `find_or_insert` to fail: it leaves the builder as it was. -/
theorem findOrInsert_error {b b' : TransactionBuilder} {key : Pubkey} {e : BuildError}
    (h : b.findOrInsert sys key = (.error e, b')) :
  b' = b ∧ e = .tooManyAccounts ∧ key ∉ keys b.accts ∧ sys.acctAddrMax ≤ b.accts.length
  := by
  have hfind : b.findAccount key = indexOf b.accts key := rfl
  rw [findOrInsert, hfind] at h
  split at h
  · simp at h
  · next hnone =>
    split at h
    · next hfull =>
      obtain ⟨rfl, rfl⟩ : BuildError.tooManyAccounts = e ∧ b = b' := by simpa using h
      exact ⟨rfl, rfl, indexOf_eq_none_iff.mp hnone, hfull⟩
    · simp at h

/-- Raising flags at the position of a touched key touches it with these flags too. -/
theorem orFlags_touch {b : TransactionBuilder} {key : Pubkey} {flags : UInt8} {idx : Nat}
    (hidx : indexOf (touch key flags b.accts) key = some idx) (flags' : UInt8) :
  { b with accts := touch key flags b.accts }.orFlags idx flags'
    = { b with accts := touch key (flags ||| flags') b.accts }
  := by
  rw [orFlags, modify_eq_touch hidx, touch_touch]

/-- The two conditional updates of an account's row, after `find_or_insert`. -/
theorem orFlags_meta {b : TransactionBuilder} {m : AccountMeta} {idx : Nat}
    (hidx : indexOf (touch m.pubkey 0 b.accts) m.pubkey = some idx) :
  (let b := { b with accts := touch m.pubkey 0 b.accts }
   let b := if m.isSigner then b.orFlags idx ACCT_F_SIGNER else b
   if m.isWritable then b.orFlags idx ACCT_F_WRITABLE else b)
    = { b with accts := touch m.pubkey (metaFlags m) b.accts }
  := by
  have hsigner : indexOf (touch m.pubkey (0 ||| ACCT_F_SIGNER) b.accts) m.pubkey = some idx := by
    rw [← hidx]
    apply indexOf_touch_congr
  cases hs : m.isSigner
  · cases hw : m.isWritable
    · simp [metaFlags, hs, hw]
    · simp [metaFlags, hs, hw, orFlags_touch hidx]
  · cases hw : m.isWritable
    · simp [metaFlags, hs, hw, orFlags_touch hidx]
    · have hboth := orFlags_touch hsigner ACCT_F_WRITABLE
      simpa [metaFlags, hs, hw, orFlags_touch hidx] using hboth

/-- `fee_payer` touches the key as a writable signer. -/
theorem setFeePayer_ok {b b' : TransactionBuilder} {key : Pubkey}
    (h : b.setFeePayer sys key = some b') :
  b' = { b with
      accts := touch key (ACCT_F_SIGNER ||| ACCT_F_WRITABLE) b.accts
      feePayer := some key }
    ∧ (key ∈ keys b.accts ∨ b.accts.length < sys.acctAddrMax)
  := by
  have hfind : b.findAccount key = indexOf b.accts key := rfl
  rw [setFeePayer, hfind] at h
  split at h
  · next i hi =>
    simp only [Option.some.injEq] at h
    subst h
    simp [orFlags, modify_eq_touch hi, indexOf_isSome_iff.mp ⟨i, hi⟩]
  · next hnone =>
    split at h
    · next hroom =>
      simp only [Option.some.injEq] at h
      subst h
      have hnot := indexOf_eq_none_iff.mp hnone
      rw [pushAccount, append_eq_touch hnot, orFlags_touch (indexOf_touch_of_not_mem hnot 0),
        UInt8.zero_or]
      exact ⟨rfl, .inr hroom⟩
    · simp at h

/-- `add_signer` touches the key as a signer. -/
theorem addSigner_ok {b b' : TransactionBuilder} {key : Pubkey}
    (h : b.addSigner sys key = (.ok (), b')) :
  b' = { b with accts := touch key ACCT_F_SIGNER b.accts }
    ∧ (key ∈ keys b.accts ∨ b.accts.length < sys.acctAddrMax)
  := by
  rw [addSigner] at h
  split at h
  · simp at h
  · next idx b₁ hfind =>
    obtain ⟨rfl, hidx, hroom⟩ := findOrInsert_ok hfind
    simp only [Prod.mk.injEq, true_and] at h
    subst h
    rw [orFlags_touch hidx, UInt8.zero_or]
    exact ⟨rfl, hroom⟩

/-! ### Adding an instruction -/

/-- What the loop of `add_instruction` does when it succeeds: it grants the requests of the
accounts and appends to the account buffer the positions of their keys. -/
theorem addAccounts_ok :
  ∀ {metas : List AccountMeta} {b b' : TransactionBuilder},
    b.accts.length ≤ sys.acctAddrMax → b.instrAcctBuf.length ≤ sys.mtu →
      addAccounts sys b metas = (.ok (), b') →
        ∃ idxs : Bytes,
          b' = { b with
            accts := grant metas b.accts
            instrAcctBuf := b.instrAcctBuf ++ idxs }
          ∧ idxs.map (fun i => (keys (grant metas b.accts))[i.toNat]?)
              = metas.map (fun m => some m.pubkey)
          ∧ (grant metas b.accts).length ≤ sys.acctAddrMax
          ∧ (b.instrAcctBuf ++ idxs).length ≤ sys.mtu
  | [], b, b', haccts, hbuf, h => by
      simp only [addAccounts, Prod.mk.injEq, true_and] at h
      subst h
      use []
      simp [haccts, hbuf]
  | m :: metas, b, b', haccts, hbuf, h => by
      rw [addAccounts] at h
      split at h
      · simp at h
      · next idx b₁ hfind =>
        obtain ⟨rfl, hidx, hroom⟩ := findOrInsert_ok hfind
        have hraised := orFlags_meta hidx
        dsimp only at hraised h
        rw [hraised] at h
        split at h
        · simp at h
        · next hbuf' =>
          have hidx' : indexOf (touch m.pubkey (metaFlags m) b.accts) m.pubkey = some idx := by
            rw [← hidx]
            apply indexOf_touch_congr
          have hlen : (touch m.pubkey (metaFlags m) b.accts).length ≤ sys.acctAddrMax := by
            apply length_touch_le_of_room haccts hroom
          have hbuf'' : (b.instrAcctBuf ++ [UInt8.ofNat idx]).length ≤ sys.mtu := by
            rw [List.length_append, List.length_singleton]
            dsimp only at hbuf'
            omega
          obtain ⟨idxs, rfl, hmap, hgrant, hend⟩ := addAccounts_ok hlen hbuf'' h
          use UInt8.ofNat idx :: idxs
          have hsmall : (UInt8.ofNat idx).toNat = idx := by
            have := indexOf_lt hidx'
            have := sys.acctAddrMax_eq
            have := sys.sigMax_lt
            apply CompactU16.toNat_ofNat_of_lt
            omega
          have hkey : (keys (grant metas (touch m.pubkey (metaFlags m) b.accts)))[idx]?
              = some m.pubkey := by
            apply getElem?_mono (keys_prefix_grant metas _)
            apply getElem?_keys_of_indexOf hidx'
          simp only [grant_cons, List.append_assoc, List.singleton_append, List.map_cons, hsmall,
            hkey, hmap, hgrant, true_and]
          simpa using hend

/-- The entry locates the instruction in the keys of a table and in the two buffers: the
program id and the accounts by their positions, and the data as a segment. -/
structure Locates (keys : List Pubkey) (acctBuf dataBuf : Bytes) (entry : InstrEntry)
    (ix : InstructionBuf) : Prop where
  program : keys[entry.programIdx.toNat]? = some ix.programId
  accounts : ((acctBuf.drop entry.acctOff.toNat).take entry.acctCnt.toNat).map
      (fun i => keys[i.toNat]?) = ix.accounts.map fun m => some m.pubkey
  acct_end : entry.acctOff.toNat + entry.acctCnt.toNat ≤ acctBuf.length
  data : (dataBuf.drop entry.dataOff.toNat).take entry.dataLen.toNat = ix.data
  data_end : entry.dataOff.toNat + entry.dataLen.toNat ≤ dataBuf.length

/-- A segment of a prefix is a segment of the list. -/
theorem segment_mono {l l' : Bytes} (h : l <+: l') {off cnt : Nat}
    (hend : off + cnt ≤ l.length) :
  (l'.drop off).take cnt = (l.drop off).take cnt
  := by
  obtain ⟨t, rfl⟩ := h
  rw [List.drop_append_of_le_length (by omega), List.take_append_of_le_length]
  rw [List.length_drop]
  omega

/-- An entry keeps locating its instruction when the table and the buffers grow. -/
theorem Locates.mono {ks ks' : List Pubkey} {acctBuf acctBuf' dataBuf dataBuf' : Bytes}
    {entry : InstrEntry} {ix : InstructionBuf} (h : Locates ks acctBuf dataBuf entry ix)
    (hks : ks <+: ks') (hacct : acctBuf <+: acctBuf') (hdata : dataBuf <+: dataBuf') :
  Locates ks' acctBuf' dataBuf' entry ix
  where
  program := getElem?_mono hks h.program
  accounts := by
    rw [segment_mono hacct h.acct_end, ← h.accounts]
    apply List.map_congr_left
    intro i hi
    have hmem := List.mem_map_of_mem (f := fun i : UInt8 => ks[i.toNat]?) hi
    rw [h.accounts] at hmem
    obtain ⟨m, -, hm⟩ := List.mem_map.mp hmem
    rw [← hm]
    apply getElem?_mono hks hm.symm
  acct_end := Nat.le_trans h.acct_end hacct.length_le
  data := by rw [segment_mono hdata h.data_end, h.data]
  data_end := Nat.le_trans h.data_end hdata.length_le

/-- The bounds the builder keeps, and the distinctness of its keys. -/
structure Fits (sys : Sys) (b : TransactionBuilder) : Prop where
  nodup : (keys b.accts).Nodup
  accts : b.accts.length ≤ sys.acctAddrMax
  instrs : b.instrs.length ≤ sys.instrMax
  acctBuf : b.instrAcctBuf.length ≤ sys.mtu
  dataBuf : b.instrDataBuf.length ≤ sys.mtu
  feePayer : ∀ key, b.feePayer = some key → key ∈ keys b.accts

/-- The requests of an added instruction: its program id with no role, and its accounts. -/
def instrRequests (ix : InstructionBuf) : List AccountMeta :=
  ⟨ix.programId, false, false⟩ :: ix.accounts

theorem grant_instrRequests (ix : InstructionBuf) (accts : List Account) :
  grant (instrRequests ix) accts = grant ix.accounts (touch ix.programId 0 accts)
  := by
  have h : metaFlags ⟨ix.programId, false, false⟩ = 0 := by simp [metaFlags]
  rw [instrRequests, grant_cons, h]

theorem toNat_ofNat_of_le_mtu (sys : Sys) {n : Nat} (h : n ≤ sys.mtu) :
  (UInt16.ofNat n).toNat = n
  := by
  rw [UInt16.toNat_ofNat']
  apply Nat.mod_eq_of_lt
  have := sys.mtu_lt
  omega

/-- What `add_instruction` does when it succeeds: it grants the requests of the instruction,
extends the two buffers, and appends an entry that locates the instruction. -/
theorem addInstruction_ok {b b' : TransactionBuilder} {ix : InstructionBuf} (hb : Fits sys b)
    (h : b.addInstruction sys ix = (.ok (), b')) :
  ∃ entry idxs,
    b' = { b with
      accts := grant (instrRequests ix) b.accts
      instrAcctBuf := b.instrAcctBuf ++ idxs
      instrDataBuf := b.instrDataBuf ++ ix.data
      instrs := b.instrs ++ [entry] }
    ∧ Locates (keys b'.accts) b'.instrAcctBuf b'.instrDataBuf entry ix
    ∧ idxs.length = ix.accounts.length
    ∧ b.instrs.length < sys.instrMax
    ∧ b'.accts.length ≤ sys.acctAddrMax
    ∧ b'.instrAcctBuf.length ≤ sys.mtu
    ∧ b'.instrDataBuf.length ≤ sys.mtu
  := by
  rw [addInstruction] at h
  split at h
  · simp at h
  · next hroom =>
    split at h
    · simp at h
    · next progIdx b₁ hfind =>
      obtain ⟨rfl, hidx, hkeyroom⟩ := findOrInsert_ok hfind
      split at h
      · simp at h
      · next b₂ hloop =>
        have hlen : (touch ix.programId 0 b.accts).length ≤ sys.acctAddrMax :=
          length_touch_le_of_room hb.accts hkeyroom
        obtain ⟨idxs, rfl, hmap, hgrant, hend⟩ :=
          addAccounts_ok (b := { b with accts := touch ix.programId 0 b.accts })
            hlen hb.acctBuf hloop
        dsimp only at h hmap hgrant hend
        split at h
        · simp at h
        · next hdata =>
          simp only [Prod.mk.injEq, true_and] at h
          subst h
          have hcount : idxs.length = ix.accounts.length := by
            simpa using congrArg List.length hmap
          have hacctlen : b.instrAcctBuf.length + idxs.length ≤ sys.mtu := by
            simpa using hend
          have hprog : (UInt8.ofNat progIdx).toNat = progIdx := by
            have := indexOf_lt hidx
            have := sys.acctAddrMax_eq
            have := sys.sigMax_lt
            apply CompactU16.toNat_ofNat_of_lt
            omega
          have hoff := toNat_ofNat_of_le_mtu sys hb.acctBuf
          have hcnt := toNat_ofNat_of_le_mtu sys (n := ix.accounts.length) (by omega)
          have hdoff := toNat_ofNat_of_le_mtu sys hb.dataBuf
          have hdlen := toNat_ofNat_of_le_mtu sys (n := ix.data.length) (by omega)
          have hdataend : (b.instrDataBuf ++ ix.data).length ≤ sys.mtu := by
            rw [List.length_append]
            omega
          rw [grant_instrRequests]
          refine ⟨_, idxs, rfl, ?_, hcount, by omega, hgrant, hend, hdataend⟩
          constructor
          · dsimp only
            rw [hprog]
            apply getElem?_mono (keys_prefix_grant ix.accounts _)
            apply getElem?_keys_of_indexOf hidx
          · dsimp only
            rw [hoff, hcnt, List.drop_left, List.take_of_length_le (Nat.le_of_eq hcount)]
            apply hmap
          · dsimp only
            rw [hoff, hcnt, List.length_append]
            omega
          · dsimp only
            rw [hdoff, hdlen, List.drop_left, List.take_length]
          · dsimp only
            apply Nat.le_of_eq
            rw [hdoff, hdlen, List.length_append]

end TransactionBuilder

open TransactionBuilder

/-! ### Calls and runs -/

/-- The requests a call makes: the keys it refers to, with the roles it asks for them. -/
def Call.requests : Call → List AccountMeta
  | .version _ => []
  | .feePayer key => [⟨key, true, true⟩]
  | .recentBlockhash _ => []
  | .addSigner key => [⟨key, true, false⟩]
  | .addInstruction ix => instrRequests ix

/-- The instruction a call adds. -/
def Call.instruction : Call → Option InstructionBuf
  | .addInstruction ix => some ix
  | _ => none

/-- The builder is reached from `TransactionBuilder::new` by the calls, which all succeed. -/
inductive Built (sys : Sys) : List Call → TransactionBuilder → Prop
  | new : Built sys [] .new
  | call {calls : List Call} {b b' : TransactionBuilder} {c : Call} :
      Built sys calls b → c.run sys b = (.ok, b') → Built sys (calls ++ [c]) b'

/-- Run calls on a builder as long as they succeed. -/
def Call.runAll (sys : Sys) : List Call → TransactionBuilder → Option TransactionBuilder
  | [], b => some b
  | c :: calls, b =>
    match c.run sys b with
    | (.ok, b) => runAll sys calls b
    | _ => none

theorem Built.runAll :
  ∀ (calls' : List Call) {calls : List Call} {b b' : TransactionBuilder},
    Built sys calls b → Call.runAll sys calls' b = some b' → Built sys (calls ++ calls') b'
  | [], _, _, _, hb, h => by
      obtain rfl : _ = _ := by simpa [Call.runAll] using h
      rwa [List.append_nil]
  | c :: calls', calls, _, _, hb, h => by
      rw [Call.runAll] at h
      split at h
      · next b₁ hrun =>
        rw [← List.singleton_append, ← List.append_assoc]
        apply (hb.call hrun).runAll calls' h
      · simp at h

/-- What a builder is, in terms of the successful calls that made it. -/
structure Summary (sys : Sys) (calls : List Call) (b : TransactionBuilder) : Prop where
  fits : Fits sys b
  accts : b.accts = grant (calls.flatMap Call.requests) []
  entries : List.Forall₂ (Locates (keys b.accts) b.instrAcctBuf b.instrDataBuf) b.instrs
      (calls.filterMap Call.instruction)
  feePayer : ∀ key, b.feePayer = some key → Call.feePayer key ∈ calls

theorem Outcome.ofExcept_eq_ok {r : Except BuildError Unit} :
  Outcome.ofExcept r = .ok ↔ r = .ok ()
  := by
  cases r <;> simp [Outcome.ofExcept]

/-- A call that ends well returned no error. -/
theorem Outcome.map_eq_ok {r : Except BuildError Unit × TransactionBuilder}
    {b : TransactionBuilder} :
  r.map Outcome.ofExcept id = (Outcome.ok, b) ↔ r = (.ok (), b)
  := by
  simp only [Prod.ext_iff, Prod.map, Outcome.ofExcept_eq_ok, id_eq]

/-- A successful call that adds no instruction only grants its requests, and changes the fee
payer to a key it grants them to. -/
theorem Call.run_ok_of_no_instruction {c : Call} {b b' : TransactionBuilder}
    (hc : c.instruction = none) (h : c.run sys b = (.ok, b')) (hb : Fits sys b) :
  b'.accts = grant c.requests b.accts
    ∧ b'.instrs = b.instrs
    ∧ b'.instrAcctBuf = b.instrAcctBuf
    ∧ b'.instrDataBuf = b.instrDataBuf
    ∧ b'.accts.length ≤ sys.acctAddrMax
    ∧ (b'.feePayer = b.feePayer ∨ ∃ key, c = .feePayer key ∧ b'.feePayer = some key)
  := by
  cases c with
  | version v =>
    obtain rfl : b.setVersion v = b' := by simpa [Call.run] using h
    exact ⟨rfl, rfl, rfl, rfl, hb.accts, .inl rfl⟩
  | recentBlockhash hash =>
    obtain rfl : b.recentBlockhash hash = b' := by simpa [Call.run] using h
    exact ⟨rfl, rfl, rfl, rfl, hb.accts, .inl rfl⟩
  | feePayer key =>
    rw [Call.run] at h
    split at h
    · simp at h
    · next b₁ hset =>
      obtain rfl : b₁ = b' := by simpa using h
      obtain ⟨rfl, hroom⟩ := setFeePayer_ok hset
      exact ⟨rfl, rfl, rfl, rfl, length_touch_le_of_room hb.accts hroom, .inr ⟨key, rfl, rfl⟩⟩
  | addSigner key =>
    obtain ⟨rfl, hroom⟩ := addSigner_ok (Outcome.map_eq_ok.mp h)
    refine ⟨?_, rfl, rfl, rfl, length_touch_le_of_room hb.accts hroom, .inl rfl⟩
    simp [Call.requests, metaFlags]
  | addInstruction ix => simp [Call.instruction] at hc

/-- A successful call that adds an instruction is a successful `add_instruction`. -/
theorem Call.run_ok_of_instruction {c : Call} {b b' : TransactionBuilder} {ix : InstructionBuf}
    (hc : c.instruction = some ix) (h : c.run sys b = (.ok, b')) :
  c = .addInstruction ix ∧ b.addInstruction sys ix = (.ok (), b')
  := by
  obtain rfl : c = .addInstruction ix := by
    cases c <;> simp_all [Call.instruction]
  exact ⟨rfl, Outcome.map_eq_ok.mp h⟩

/-- A successful call keeps the bounds of the builder. -/
theorem Call.fits_of_run_ok {c : Call} {b b' : TransactionBuilder} (hb : Fits sys b)
    (h : c.run sys b = (.ok, b')) :
  Fits sys b'
  := by
  cases hc : c.instruction with
  | none =>
    obtain ⟨haccts, hinstrs, hacct, hdata, hlen, hfp⟩ := Call.run_ok_of_no_instruction hc h hb
    constructor
    · rw [haccts]
      apply nodup_keys_grant hb.nodup
    · apply hlen
    · rw [hinstrs]
      apply hb.instrs
    · rw [hacct]
      apply hb.acctBuf
    · rw [hdata]
      apply hb.dataBuf
    · intro key hkey
      rw [haccts, mem_keys_grant]
      rcases hfp with hsame | ⟨key', rfl, hkey'⟩
      · left
        apply hb.feePayer key (hsame ▸ hkey)
      · right
        obtain rfl : key' = key := by simpa [hkey'] using hkey
        simp [Call.requests]
  | some ix =>
    obtain ⟨-, hadd⟩ := Call.run_ok_of_instruction hc h
    obtain ⟨entry, idxs, rfl, -, -, hroom, hlen, hacct, hdata⟩ := addInstruction_ok hb hadd
    constructor
    · apply nodup_keys_grant hb.nodup
    · apply hlen
    · rw [List.length_append, List.length_singleton]
      apply hroom
    · apply hacct
    · apply hdata
    · intro key hkey
      apply mem_keys_grant.mpr
      left
      apply hb.feePayer key hkey

theorem Fits.new :
  Fits sys .new
  where
  nodup := List.nodup_nil
  accts := Nat.zero_le _
  instrs := Nat.zero_le _
  acctBuf := Nat.zero_le _
  dataBuf := Nat.zero_le _
  feePayer key hkey := by simp [TransactionBuilder.new] at hkey

/-- Every builder reached by successful calls is what its calls say. -/
theorem Built.summary {calls : List Call} {b : TransactionBuilder} (h : Built sys calls b) :
  Summary sys calls b
  := by
  induction h with
  | new =>
    constructor
    · apply Fits.new
    · rfl
    · apply List.Forall₂.nil
    · simp [TransactionBuilder.new]
  | @call calls b b' c _ hrun ih =>
    have hb := ih.fits
    have hb' := c.fits_of_run_ok hb hrun
    cases hc : c.instruction with
    | none =>
      obtain ⟨haccts, hinstrs, hacct, hdata, -, hfp⟩ := Call.run_ok_of_no_instruction hc hrun hb
      constructor
      · apply hb'
      · rw [haccts, ih.accts, List.flatMap_append, grant_append]
        simp
      · rw [hinstrs, hacct, hdata, List.filterMap_append]
        have hnil : [c].filterMap Call.instruction = [] := by simp [hc]
        rw [hnil, List.append_nil]
        apply ih.entries.imp
        intro entry ix hloc
        apply hloc.mono _ (List.prefix_refl _) (List.prefix_refl _)
        rw [haccts]
        apply keys_prefix_grant
      · intro key hkey
        rcases hfp with hsame | ⟨key', rfl, hkey'⟩
        · apply List.mem_append_left
          apply ih.feePayer key (hsame ▸ hkey)
        · obtain rfl : key' = key := by simpa [hkey'] using hkey
          simp
    | some ix =>
      obtain ⟨rfl, hadd⟩ := Call.run_ok_of_instruction hc hrun
      obtain ⟨entry, idxs, rfl, hloc, -⟩ := addInstruction_ok hb hadd
      constructor
      · apply hb'
      · change grant (instrRequests ix) b.accts = _
        rw [ih.accts, List.flatMap_append, grant_append]
        simp [Call.requests]
      · rw [List.filterMap_append]
        apply List.rel_append
        · apply ih.entries.imp
          intro entry' ix' hloc'
          apply hloc'.mono (keys_prefix_grant _ _) (List.prefix_append _ _)
            (List.prefix_append _ _)
        · apply List.Forall₂.cons hloc List.Forall₂.nil
      · intro key hkey
        apply List.mem_append_left
        apply ih.feePayer key hkey

/-! ### The table in terms of the requests -/

namespace Summary

variable {calls : List Call} {b : TransactionBuilder}

/-- The keys of a builder are those that the calls request. -/
theorem mem_keys_iff (h : Summary sys calls b) (key : Pubkey) :
  key ∈ keys b.accts ↔ ∃ m ∈ calls.flatMap Call.requests, m.pubkey = key
  := by
  rw [h.accts, mem_keys_grant]
  simp [keys]

/-- A key of a builder signs when one of the requests of the calls asks it to. -/
theorem isSignerFlag_flagsOf (h : Summary sys calls b) (key : Pubkey) :
  isSignerFlag (flagsOf b.accts key)
    = (calls.flatMap Call.requests).any fun m => decide (m.pubkey = key) && m.isSigner
  := by
  rw [h.accts, isSignerFlag_flagsOf_grant, flagsOf, isSignerFlag_zero, Bool.false_or]

/-- A key of a builder is writable when one of the requests of the calls asks it to be. -/
theorem isWritableFlag_flagsOf (h : Summary sys calls b) (key : Pubkey) :
  isWritableFlag (flagsOf b.accts key)
    = (calls.flatMap Call.requests).any fun m => decide (m.pubkey = key) && m.isWritable
  := by
  rw [h.accts, isWritableFlag_flagsOf_grant, flagsOf, isWritableFlag_zero, Bool.false_or]

end Summary

/-- What calls keep of a builder, however they end: its entries are those of the instructions that
were added, and its fee payer is a writable signer. -/
structure Kept (sys : Sys) (added : List InstructionBuf) (b : TransactionBuilder) : Prop where
  fits : Fits sys b
  entries : List.Forall₂ (Locates (keys b.accts) b.instrAcctBuf b.instrDataBuf) b.instrs added
  payer : ∀ key, b.feePayer = some key → IsWritableSigner b.accts key

theorem Summary.kept {calls : List Call} {b : TransactionBuilder} (h : Summary sys calls b) :
  Kept sys (calls.filterMap Call.instruction) b
  where
  fits := h.fits
  entries := h.entries
  payer key hkey := by
    have hrequest : ⟨key, true, true⟩ ∈ calls.flatMap Call.requests := by
      apply List.mem_flatMap.mpr
      use .feePayer key, h.feePayer key hkey
      simp [Call.requests]
    rw [h.accts]
    apply isWritableSigner_grant_of_mem hrequest

end FdTxn

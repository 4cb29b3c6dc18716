import FiredancerRs.Txn.Run

/-!
# Reachable builders

A builder may be used again after a call that returned an error. What such a call leaves
behind is described by `addInstruction_error`; every builder that calls can reach, failed
calls included, keeps its bounds (`Reachable.fits`).
-/

open FdEd25519

namespace FdTxn

variable {sys : Sys}

namespace TransactionBuilder

/-! ### When calls succeed and fail -/

theorem findOrInsert_of_mem (sys : Sys) {b : TransactionBuilder} {key : Pubkey}
    (h : key ∈ keys b.accts) :
  ∃ idx, indexOf b.accts key = some idx ∧ b.findOrInsert sys key = (.ok idx, b)
  := by
  obtain ⟨idx, hidx⟩ := indexOf_isSome_iff.mpr h
  have hfind : b.findAccount key = some idx := hidx
  use idx, hidx
  rw [findOrInsert, hfind]

theorem findOrInsert_of_full {b : TransactionBuilder} {key : Pubkey} (h : key ∉ keys b.accts)
    (hfull : sys.acctAddrMax ≤ b.accts.length) :
  b.findOrInsert sys key = (.error .tooManyAccounts, b)
  := by
  have hfind : b.findAccount key = none := indexOf_eq_none_iff.mpr h
  rw [findOrInsert, hfind]
  simp only [ge_iff_le, hfull, if_true]

/-- A key that is in the table, or for which the table has room, is found or inserted. -/
theorem findOrInsert_of_room {b : TransactionBuilder} {key : Pubkey}
    (h : key ∈ keys b.accts ∨ b.accts.length < sys.acctAddrMax) :
  ∃ idx b', b.findOrInsert sys key = (.ok idx, b')
  := by
  cases hfind : b.findOrInsert sys key with
  | mk r b' =>
    cases r with
    | ok idx => use idx, b'
    | error e =>
      obtain ⟨-, -, hnot, hfull⟩ := findOrInsert_error hfind
      rcases h with hmem | hroom
      · exact absurd hmem hnot
      · omega

/-- `add_signer` succeeds when the table has room for the key. -/
theorem addSigner_of_room {b : TransactionBuilder} {key : Pubkey}
    (h : key ∈ keys b.accts ∨ b.accts.length < sys.acctAddrMax) :
  b.addSigner sys key = (.ok (), { b with accts := touch key ACCT_F_SIGNER b.accts })
  := by
  obtain ⟨idx, b', hfind⟩ := findOrInsert_of_room h
  have hok : b.addSigner sys key = (.ok (), b'.orFlags idx ACCT_F_SIGNER) := by
    rw [addSigner, hfind]
  obtain ⟨hb', -⟩ := addSigner_ok hok
  rw [hok, hb']

/-- When `add_signer` fails, the table is full, and it leaves the builder as it was. -/
theorem addSigner_error {b b' : TransactionBuilder} {key : Pubkey} {e : BuildError}
    (h : b.addSigner sys key = (.error e, b')) :
  b' = b ∧ sys.acctAddrMax ≤ b.accts.length
  := by
  rw [addSigner] at h
  split at h
  · next hfind =>
    obtain ⟨rfl, -, -, hfull⟩ := findOrInsert_error hfind
    exact ⟨(congrArg Prod.snd h).symm, hfull⟩
  · simp at h

/-- `fee_payer` does not panic when the table has room for the key. -/
theorem setFeePayer_of_room {b : TransactionBuilder} {key : Pubkey}
    (h : key ∈ keys b.accts ∨ b.accts.length < sys.acctAddrMax) :
  b.setFeePayer sys key = some { b with
    accts := touch key (ACCT_F_SIGNER ||| ACCT_F_WRITABLE) b.accts
    feePayer := some key }
  := by
  obtain ⟨b', hok⟩ : ∃ b', b.setFeePayer sys key = some b' := by
    rw [setFeePayer]
    split
    · exact ⟨_, rfl⟩
    · next hnone =>
      have hlt := h.resolve_left (indexOf_eq_none_iff.mp hnone)
      rw [if_pos hlt]
      exact ⟨_, rfl⟩
  rw [hok, (setFeePayer_ok hok).1]

/-- The loop of `add_instruction` succeeds when the table and the account buffer have room. -/
theorem addAccounts_of_room :
  ∀ (metas : List AccountMeta) {b : TransactionBuilder},
    (grant metas b.accts).length ≤ sys.acctAddrMax →
      b.instrAcctBuf.length + metas.length ≤ sys.mtu →
        ∃ b', addAccounts sys b metas = (.ok (), b') ∧ b'.instrDataBuf = b.instrDataBuf
  | [], b, _, _ => ⟨b, rfl, rfl⟩
  | m :: metas, b, hgrant, hlen => by
      rw [List.length_cons] at hlen
      rw [grant_cons] at hgrant
      have htouch : (touch m.pubkey (metaFlags m) b.accts).length ≤ sys.acctAddrMax :=
        Nat.le_trans (length_le_length_grant metas _) hgrant
      obtain ⟨idx, b₁, hfind⟩ := findOrInsert_of_room (room_of_length_touch_le htouch)
      obtain ⟨rfl, hidx, -⟩ := findOrInsert_ok hfind
      have hraised := orFlags_meta hidx
      have hroom : ¬ b.instrAcctBuf.length ≥ sys.mtu := by omega
      rw [addAccounts, hfind]
      dsimp only at hraised ⊢
      rw [hraised]
      dsimp only
      rw [if_neg hroom]
      obtain ⟨b', hloop, hdata⟩ := addAccounts_of_room metas
        (b := { b with
          accts := touch m.pubkey (metaFlags m) b.accts
          instrAcctBuf := b.instrAcctBuf ++ [UInt8.ofNat idx] })
        hgrant (by
          rw [List.length_append, List.length_singleton]
          omega)
      exact ⟨b', hloop, hdata⟩

/-- `add_instruction` succeeds when there is room for its keys, for an entry, for the accounts
and for the data. -/
theorem addInstruction_of_room {b : TransactionBuilder} {ix : InstructionBuf}
    (hroom : b.instrs.length < sys.instrMax)
    (hgrant : (grant (instrRequests ix) b.accts).length ≤ sys.acctAddrMax)
    (hacct : b.instrAcctBuf.length + ix.accounts.length ≤ sys.mtu)
    (hdata : b.instrDataBuf.length + ix.data.length ≤ sys.mtu) :
  ∃ b', b.addInstruction sys ix = (.ok (), b')
  := by
  rw [grant_instrRequests] at hgrant
  have htouch : (touch ix.programId 0 b.accts).length ≤ sys.acctAddrMax :=
    Nat.le_trans (length_le_length_grant ix.accounts _) hgrant
  obtain ⟨idx, b₁, hfind⟩ := findOrInsert_of_room (room_of_length_touch_le htouch)
  obtain ⟨rfl, -, -⟩ := findOrInsert_ok hfind
  obtain ⟨b', hloop, hbuf⟩ := addAccounts_of_room ix.accounts
    (b := { b with accts := touch ix.programId 0 b.accts }) hgrant hacct
  rw [addInstruction, if_neg (by omega), hfind]
  dsimp only
  rw [hloop]
  dsimp only
  rw [hbuf, if_neg (by
    dsimp only
    omega)]
  exact ⟨_, rfl⟩

/-- An instruction whose data does not fit is rejected after its keys were taken in. -/
theorem addInstruction_tooLarge {b b₁ b₂ : TransactionBuilder} {ix : InstructionBuf} {progIdx : Nat}
    (hroom : b.instrs.length < sys.instrMax)
    (hfind : b.findOrInsert sys ix.programId = (.ok progIdx, b₁))
    (haccounts : addAccounts sys b₁ ix.accounts = (.ok (), b₂))
    (hdata : sys.mtu < b₂.instrDataBuf.length + ix.data.length) :
  b.addInstruction sys ix = (.error .dataTooLarge, b₂)
  := by
  rw [addInstruction, if_neg (Nat.not_le.mpr hroom), hfind]
  dsimp only
  rw [haccounts]
  apply if_pos hdata

/-- `add_instruction` succeeds on keys of the table when there is room for an entry, for the
accounts and for the data. -/
theorem addInstruction_of_mem {b : TransactionBuilder} {ix : InstructionBuf} (hb : Fits sys b)
    (hroom : b.instrs.length < sys.instrMax) (hprogram : ix.programId ∈ keys b.accts)
    (haccounts : ∀ m ∈ ix.accounts, m.pubkey ∈ keys b.accts)
    (hacct : b.instrAcctBuf.length + ix.accounts.length ≤ sys.mtu)
    (hdata : b.instrDataBuf.length + ix.data.length ≤ sys.mtu) :
  ∃ b', b.addInstruction sys ix = (.ok (), b')
  := by
  apply addInstruction_of_room hroom _ hacct hdata
  rw [← length_keys, keys_grant_of_mem, length_keys]
  · apply hb.accts
  · intro m hm
    rcases List.mem_cons.mp hm with rfl | hm
    · apply hprogram
    · apply haccounts m hm

/-! ### What a failed call leaves behind -/

/-- Grant requests and append positions to the account buffer. -/
def grow (b : TransactionBuilder) (requests : List AccountMeta) (idxs : Bytes) :
    TransactionBuilder :=
  { b with
    accts := grant requests b.accts
    instrAcctBuf := b.instrAcctBuf ++ idxs }

@[simp]
theorem grow_nil (b : TransactionBuilder) :
  b.grow [] [] = b
  := by
  simp [grow]

theorem grow_grow (b : TransactionBuilder) (requests requests' : List AccountMeta)
    (idxs idxs' : Bytes) :
  (b.grow requests idxs).grow requests' idxs' = b.grow (requests ++ requests') (idxs ++ idxs')
  := by
  simp [grow, grant_append]

/-- To find or insert the program id of an instruction is to grant a request with no role. -/
theorem grow_program (b : TransactionBuilder) (key : Pubkey) :
  b.grow [⟨key, false, false⟩] [] = { b with accts := touch key 0 b.accts }
  := by
  have h : metaFlags ⟨key, false, false⟩ = 0 := by simp [metaFlags]
  simp [grow, h]

/-- The bounds are kept when the table and the account buffer grow within them. -/
theorem Fits.grow {b : TransactionBuilder} (hb : Fits sys b) {requests : List AccountMeta}
    {idxs : Bytes} (haccts : (b.grow requests idxs).accts.length ≤ sys.acctAddrMax)
    (hbuf : (b.grow requests idxs).instrAcctBuf.length ≤ sys.mtu) :
  Fits sys (b.grow requests idxs)
  where
  nodup := nodup_keys_grant hb.nodup
  accts := haccts
  instrs := hb.instrs
  acctBuf := hbuf
  dataBuf := hb.dataBuf
  feePayer key hkey := mem_keys_grant.mpr (.inl (hb.feePayer key hkey))

/-- The entries stay what they are when the table and the account buffer grow. -/
theorem entries_grow {b : TransactionBuilder} {added : List InstructionBuf}
    (h : List.Forall₂ (Locates (keys b.accts) b.instrAcctBuf b.instrDataBuf) b.instrs added)
    (requests : List AccountMeta) (idxs : Bytes) :
  List.Forall₂ (Locates (keys (b.grow requests idxs).accts) (b.grow requests idxs).instrAcctBuf
    b.instrDataBuf) b.instrs added
  := by
  apply h.imp
  intro entry ix hloc
  apply hloc.mono (keys_prefix_grant requests b.accts) (List.prefix_append _ _) List.prefix_rfl

/-- How the loop of `add_instruction` fails: at the account `m`, after the accounts `done` got
the positions `idxs`. -/
inductive Stops (sys : Sys) (b : TransactionBuilder) (done : List AccountMeta) (m : AccountMeta)
    (idxs : Bytes) : TransactionBuilder → Prop
  | tableFull :
      m.pubkey ∉ keys (b.grow done idxs).accts →
      sys.acctAddrMax ≤ (b.grow done idxs).accts.length →
      Stops sys b done m idxs (b.grow done idxs)
  | bufferFull :
      sys.mtu ≤ (b.grow done idxs).instrAcctBuf.length →
      Stops sys b done m idxs (b.grow (done ++ [m]) idxs)

/-- The requests granted before the loop count as accounts done. -/
theorem Stops.of_grow {b b' : TransactionBuilder} {requests done : List AccountMeta}
    {m : AccountMeta} {idxs idxs' : Bytes} (h : Stops sys (b.grow requests idxs) done m idxs' b') :
  Stops sys b (requests ++ done) m (idxs ++ idxs') b'
  := by
  cases h with
  | tableFull hnot hfull =>
    rw [grow_grow] at hnot hfull ⊢
    apply Stops.tableFull hnot hfull
  | bufferFull hbuf =>
    rw [grow_grow] at hbuf ⊢
    rw [← List.append_assoc]
    apply Stops.bufferFull hbuf

theorem addAccounts_error :
  ∀ {metas : List AccountMeta} {b b' : TransactionBuilder} {e : BuildError},
    Fits sys b → addAccounts sys b metas = (.error e, b') →
      Fits sys b' ∧ ∃ done m rest idxs,
        metas = done ++ m :: rest ∧ idxs.length = done.length ∧ Stops sys b done m idxs b'
  | [], _, _, _, _, h => by simp [addAccounts] at h
  | m :: metas, b, b', e, hb, h => by
      rw [addAccounts] at h
      split at h
      · next e' b₁ hfind =>
        obtain ⟨rfl, -, hnot, hfull⟩ := findOrInsert_error hfind
        obtain ⟨-, rfl⟩ : e' = e ∧ b₁ = b' := by simpa using h
        have hstop : Stops sys b₁ [] m [] (b₁.grow [] []) := by
          apply Stops.tableFull
          · rwa [grow_nil]
          · rwa [grow_nil]
        rw [grow_nil] at hstop
        exact ⟨hb, [], m, metas, [], rfl, rfl, hstop⟩
      · next idx b₁ hfind =>
        obtain ⟨rfl, hidx, hroom⟩ := findOrInsert_ok hfind
        have hraised := orFlags_meta hidx
        dsimp only at hraised h
        rw [hraised] at h
        have hlen : (touch m.pubkey (metaFlags m) b.accts).length ≤ sys.acctAddrMax :=
          length_touch_le_of_room hb.accts hroom
        split at h
        · next hbuf =>
          obtain ⟨-, rfl⟩ : _ ∧ b.grow [m] [] = b' := by simpa [grow] using h
          have hfits : Fits sys (b.grow [m] []) := by
            apply hb.grow
            · apply hlen
            · simpa [grow] using hb.acctBuf
          have hstop : Stops sys b [] m [] (b.grow ([] ++ [m]) []) := by
            apply Stops.bufferFull
            rwa [grow_nil]
          exact ⟨hfits, [], m, metas, [], rfl, rfl, hstop⟩
        · next hbuf =>
          have hfits : Fits sys (b.grow [m] [UInt8.ofNat idx]) := by
            apply hb.grow
            · apply hlen
            · rw [grow, List.length_append, List.length_singleton]
              dsimp only at hbuf
              omega
          obtain ⟨hfits', done, m', rest, idxs, rfl, hcount, hstop⟩ := addAccounts_error hfits h
          refine ⟨hfits', m :: done, m', rest, UInt8.ofNat idx :: idxs, rfl, ?_, hstop.of_grow⟩
          rw [List.length_cons, List.length_cons, hcount]

/-- What an `add_instruction` that fails leaves behind. Either it failed before it changed
anything, or it granted its program id and some of its accounts, and put their positions in
the account buffer. -/
inductive Leftover (sys : Sys) (b : TransactionBuilder) (ix : InstructionBuf) :
    TransactionBuilder → Prop
  | nothing :
      (sys.instrMax ≤ b.instrs.length
        ∨ (ix.programId ∉ keys b.accts ∧ sys.acctAddrMax ≤ b.accts.length)) →
      Leftover sys b ix b
  | stopped {done : List AccountMeta} {m : AccountMeta} {rest : List AccountMeta} {idxs : Bytes}
      {b' : TransactionBuilder} :
      b.instrs.length < sys.instrMax → ix.accounts = done ++ m :: rest →
      idxs.length = done.length →
      Stops sys b (⟨ix.programId, false, false⟩ :: done) m idxs b' →
      Leftover sys b ix b'
  | dataTooLarge {idxs : Bytes} :
      b.instrs.length < sys.instrMax → idxs.length = ix.accounts.length →
      Leftover sys b ix (b.grow (instrRequests ix) idxs)

/-- A failed `add_instruction` leaves a `Leftover`, within the bounds of the builder. -/
theorem addInstruction_error {b b' : TransactionBuilder} {ix : InstructionBuf} {e : BuildError}
    (hb : Fits sys b) (h : b.addInstruction sys ix = (.error e, b')) :
  Leftover sys b ix b' ∧ Fits sys b'
  := by
  rw [addInstruction] at h
  split at h
  · next hfull =>
    obtain ⟨-, rfl⟩ : _ ∧ b = b' := by simpa using h
    exact ⟨.nothing (.inl hfull), hb⟩
  · next hslot =>
    have hslot : b.instrs.length < sys.instrMax := by omega
    split at h
    · next hfind =>
      obtain ⟨rfl, -, hnot, hfull⟩ := findOrInsert_error hfind
      obtain ⟨-, rfl⟩ : _ ∧ _ = b' := by simpa using h
      exact ⟨.nothing (.inr ⟨hnot, hfull⟩), hb⟩
    · next progIdx b₁ hfind =>
      obtain ⟨rfl, -, hroom⟩ := findOrInsert_ok hfind
      have hlen : (touch ix.programId 0 b.accts).length ≤ sys.acctAddrMax :=
        length_touch_le_of_room hb.accts hroom
      rw [← grow_program] at h
      have hfits : Fits sys (b.grow [⟨ix.programId, false, false⟩] []) := by
        apply hb.grow
        · rwa [grow_program]
        · simpa [grow] using hb.acctBuf
      split at h
      · next hloop =>
        obtain ⟨-, rfl⟩ : _ ∧ _ = b' := by simpa using h
        obtain ⟨hfits', done, m, rest, idxs, hsplit, hcount, hstop⟩ :=
          addAccounts_error hfits hloop
        exact ⟨.stopped hslot hsplit hcount hstop.of_grow, hfits'⟩
      · next b₂ hloop =>
        obtain ⟨idxs, hb₂, hmap, hgrant, hend⟩ := addAccounts_ok hfits.accts hfits.acctBuf hloop
        obtain rfl : b₂ = b.grow (instrRequests ix) idxs := by
          rw [hb₂]
          apply grow_grow
        dsimp only at h
        split at h
        · obtain ⟨-, rfl⟩ : _ ∧ _ = b' := by simpa using h
          have hcount : idxs.length = ix.accounts.length := by
            simpa using congrArg List.length hmap
          have hgrown : Fits sys ((b.grow [⟨ix.programId, false, false⟩] []).grow ix.accounts idxs) :=
            hfits.grow hgrant hend
          rw [grow_grow] at hgrown
          exact ⟨.dataTooLarge hslot hcount, hgrown⟩
        · simp at h

end TransactionBuilder

open TransactionBuilder

/-! ### Reachable builders -/

/-- The builder is reached from `TransactionBuilder::new` by calls, however they end. -/
inductive Reachable (sys : Sys) : TransactionBuilder → Prop
  | new : Reachable sys .new
  | call {b : TransactionBuilder} (c : Call) : Reachable sys b → Reachable sys (c.run sys b).2

/-- Every call keeps the bounds of the builder, however it ends. -/
theorem Call.run_fits {b : TransactionBuilder} (hb : Fits sys b) (c : Call) :
  Fits sys (c.run sys b).2
  := by
  cases hrun : c.run sys b with
  | mk outcome b' =>
    cases outcome with
    | ok => apply c.fits_of_run_ok hb hrun
    | err e =>
      cases c with
      | version v => simp [Call.run] at hrun
      | recentBlockhash hash => simp [Call.run] at hrun
      | feePayer key =>
        rw [Call.run] at hrun
        split at hrun
        · simp at hrun
        · simp at hrun
      | addSigner key =>
        cases hadd : b.addSigner sys key with
        | mk r b₁ =>
          rw [Call.run, hadd] at hrun
          obtain rfl : b₁ = b' := congrArg Prod.snd hrun
          cases r with
          | ok _ => simp [Outcome.ofExcept] at hrun
          | error e' =>
            obtain ⟨rfl, -⟩ := addSigner_error hadd
            apply hb
      | addInstruction ix =>
        cases hadd : b.addInstruction sys ix with
        | mk r b₁ =>
          rw [Call.run, hadd] at hrun
          obtain rfl : b₁ = b' := congrArg Prod.snd hrun
          cases r with
          | ok _ => simp [Outcome.ofExcept] at hrun
          | error e' => apply (addInstruction_error hb hadd).2
    | panic =>
      cases c with
      | version v => simp [Call.run] at hrun
      | recentBlockhash hash => simp [Call.run] at hrun
      | feePayer key =>
        rw [Call.run] at hrun
        split at hrun
        · obtain rfl : b = b' := congrArg Prod.snd hrun
          apply hb
        · simp at hrun
      | addSigner key =>
        have houtcome : Outcome.ofExcept (b.addSigner sys key).1 = .panic := congrArg Prod.fst hrun
        cases hr : (b.addSigner sys key).1 <;> simp [hr, Outcome.ofExcept] at houtcome
      | addInstruction ix =>
        have houtcome : Outcome.ofExcept (b.addInstruction sys ix).1 = .panic :=
          congrArg Prod.fst hrun
        cases hr : (b.addInstruction sys ix).1 <;> simp [hr, Outcome.ofExcept] at houtcome

theorem Reachable.fits {b : TransactionBuilder} (h : Reachable sys b) :
  Fits sys b
  := by
  induction h with
  | new => apply Fits.new
  | call c _ ih => apply c.run_fits ih

theorem Built.reachable {calls : List Call} {b : TransactionBuilder} (h : Built sys calls b) :
  Reachable sys b
  := by
  induction h with
  | new => apply Reachable.new
  | @call calls b b' c _ hrun ih =>
    have hnext := Reachable.call c ih
    rwa [hrun] at hnext

end FdTxn

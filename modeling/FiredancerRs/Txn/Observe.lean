import FiredancerRs.Txn.Outcome
import FiredancerRs.Txn.Reachable
import Mathlib.Data.Finset.Card

/-!
# What later calls observe

Two builders are observationally equal when every later sequence of calls, `build` included,
returns the same results on both (`ObsEq`). Observationally equal builders agree on the size
of the account table (`ObsEq.accts_le`), on the room in the account buffer
(`ObsEq.instrAcctBuf_le`) and on the signers (`ObsEq.isSigner`).
-/

open FdEd25519

namespace FdTxn

variable {sys : Sys}

open TransactionBuilder

/-! ### The errors of `build` -/

namespace TransactionBuilder

/-- Writes that do not fit are no other error. -/
theorem run_ne_tooManySigners (ws : List (Writer.Write UInt8)) (buf : Bytes) :
  Writer.run sys.mtu BuildError.transactionTooLarge ws buf ≠ .error .tooManySigners
  := by
  rw [Writer.run_eq]
  split
  · exact nofun
  · exact nofun

/-- A builder that is otherwise complete fails with `TooManySigners` exactly when it has no
signer or more than `FD_TXN_SIG_MAX`. -/
theorem build_eq_tooManySigners_iff {b : TransactionBuilder} (hb : Fits sys b)
    {feePayer : Pubkey} (hfp : b.feePayer = some feePayer) {blockhash : Bytes32}
    (hbh : b.blockhash = some blockhash) (hinstrs : b.instrs ≠ []) :
  b.build sys = .error .tooManySigners
    ↔ classCount b.accts 1 = 0 ∨ sys.sigMax < classCount b.accts 1
  := by
  obtain ⟨fpIdx, hidx⟩ := indexOf_isSome_iff.mpr (hb.feePayer feePayer hfp)
  have hfind : b.findAccount feePayer = some fpIdx := hidx
  have hlen : ¬ b.instrs.length = 0 := by
    rwa [List.length_eq_zero_iff]
  have hsig := toNat_sigCount_headerOf hb fpIdx
  have hzero : (b.headerOf (b.sorted fpIdx)).sigCount = 0
      ↔ (b.headerOf (b.sorted fpIdx)).sigCount.toNat = 0 := UInt8.toNat_inj.symm
  rw [build, hfp, hbh]
  dsimp only
  rw [if_neg hlen, hfind]
  dsimp only
  rw [serialize, ← hsig, ← hzero]
  by_cases hmany : (b.headerOf (b.sorted fpIdx)).sigCount = 0
      ∨ sys.sigMax < (b.headerOf (b.sorted fpIdx)).sigCount.toNat
  · simp [hmany]
  · rw [if_neg hmany]
    simp only [hmany, iff_false]
    intro herror
    rcases Except.bind_eq_error_iff.mp herror with hsigs | ⟨sigs, -, herror⟩
    · rw [writeSigs_eq_run] at hsigs
      apply run_ne_tooManySigners _ _ hsigs
    rcases Except.bind_eq_error_iff.mp herror with hmsg | ⟨buf, -, herror⟩
    · rw [writeMessage_eq_run] at hmsg
      apply run_ne_tooManySigners _ _ hmsg
    rcases Except.bind_eq_error_iff.mp herror with hval | ⟨_, -, herror⟩
    · rw [validate] at hval
      split at hval <;> simp at hval
    · simp [pure, Except.pure] at herror

end TransactionBuilder

/-! ### Observations -/

/-- A call on a builder, `build` included. -/
inductive Op where
  | call (c : Call)
  | build
deriving DecidableEq, Repr

/-- What a call returns. -/
inductive Reply where
  | outcome (outcome : Outcome)
  | built (r : Except BuildError UnsignedTransaction)

/-- The results of a sequence of calls on a builder. -/
def observe (sys : Sys) (b : TransactionBuilder) : List Op → List Reply
  | [] => []
  | .call c :: ops => .outcome (c.run sys b).1 :: observe sys (c.run sys b).2 ops
  | .build :: ops => .built (b.build sys) :: observe sys b ops

/-- Every later sequence of calls returns the same results on both builders. -/
def ObsEq (sys : Sys) (b b' : TransactionBuilder) : Prop :=
  ∀ ops, observe sys b ops = observe sys b' ops

variable {b b' : TransactionBuilder}

theorem ObsEq.build (h : ObsEq sys b b') :
  b.build sys = b'.build sys
  := by
  have hreply := (List.cons.inj (h [.build])).1
  apply Reply.built.inj hreply

theorem ObsEq.run (h : ObsEq sys b b') (c : Call) :
  (c.run sys b).1 = (c.run sys b').1 ∧ ObsEq sys (c.run sys b).2 (c.run sys b').2
  := by
  constructor
  · have hreply := (List.cons.inj (h [.call c])).1
    apply Reply.outcome.inj hreply
  · intro ops
    apply (List.cons.inj (h (.call c :: ops))).2

/-- Calls that all succeed on a builder all succeed on an observationally equal one. -/
theorem ObsEq.runAll :
  ∀ {calls : List Call} {b b' b₁ : TransactionBuilder},
    ObsEq sys b b' → Call.runAll sys calls b = some b₁ →
      ∃ b₁', Call.runAll sys calls b' = some b₁' ∧ ObsEq sys b₁ b₁'
  | [], _, b', _, h, hrun => by
      obtain rfl := Option.some.inj hrun
      use b', rfl
  | c :: calls, b, b', b₁, h, hrun => by
      obtain ⟨houtcome, hnext⟩ := h.run c
      rw [Call.runAll] at hrun ⊢
      split at hrun
      · next b₂ hok =>
        rw [hok] at houtcome hnext
        obtain ⟨b₁', hrun', heq⟩ := ObsEq.runAll hnext hrun
        use b₁'
        cases hok' : c.run sys b' with
        | mk outcome b₂' =>
          rw [hok'] at houtcome hrun'
          obtain rfl : Outcome.ok = outcome := houtcome
          exact ⟨hrun', heq⟩
      · simp at hrun

theorem Call.runAll_cons {c : Call} {calls : List Call} {b b' : TransactionBuilder}
    (h : c.run sys b = (.ok, b')) :
  Call.runAll sys (c :: calls) b = Call.runAll sys calls b'
  := by
  rw [Call.runAll, h]

theorem Call.runAll_append :
  ∀ {calls calls' : List Call} {b b₁ : TransactionBuilder},
    Call.runAll sys calls b = some b₁ →
      Call.runAll sys (calls ++ calls') b = Call.runAll sys calls' b₁
  | [], _, _, _, h => by
      obtain rfl := Option.some.inj h
      rfl
  | c :: calls, calls', b, b₁, h => by
      rw [Call.runAll] at h
      rw [List.cons_append, Call.runAll]
      split at h
      · next b₂ hok => apply Call.runAll_append h
      · simp at h

theorem Call.fits_of_runAll :
  ∀ {calls : List Call} {b b₁ : TransactionBuilder},
    Fits sys b → Call.runAll sys calls b = some b₁ → Fits sys b₁
  | [], _, _, hb, h => by
      obtain rfl := Option.some.inj h
      apply hb
  | c :: calls, b, b₁, hb, h => by
      rw [Call.runAll] at h
      split at h
      · next b₂ hok => apply Call.fits_of_runAll (c.fits_of_run_ok hb hok) h
      · simp at h

/-! ### Adding signers -/

/-- The request of `add_signer`. -/
def signerRequest (key : Pubkey) : AccountMeta := ⟨key, true, false⟩

theorem map_pubkey_signerRequest (ks : List Pubkey) :
  (ks.map signerRequest).map AccountMeta.pubkey = ks
  := by
  rw [List.map_map]
  apply List.map_id

theorem grow_signer (b : TransactionBuilder) (key : Pubkey) :
  b.grow [signerRequest key] [] = { b with accts := touch key ACCT_F_SIGNER b.accts }
  := by
  simp [grow, signerRequest, metaFlags]

theorem grow_signers (b : TransactionBuilder) (key : Pubkey) (ks : List Pubkey) :
  (b.grow [signerRequest key] []).grow (ks.map signerRequest) []
    = b.grow ((key :: ks).map signerRequest) []
  := by
  rw [grow_grow]
  rfl

/-- Signers that are added are granted their requests. -/
theorem eq_grow_of_runAll_addSigner :
  ∀ {ks : List Pubkey} {b b₁ : TransactionBuilder},
    Call.runAll sys (ks.map .addSigner) b = some b₁ → b₁ = b.grow (ks.map signerRequest) []
  | [], b, b₁, h => by
      obtain rfl := Option.some.inj h
      simp
  | key :: ks, b, b₁, h => by
      rw [List.map_cons, Call.runAll] at h
      split at h
      · next b₂ hok =>
        obtain ⟨rfl, -⟩ := addSigner_ok (Outcome.map_eq_ok.mp hok)
        rw [eq_grow_of_runAll_addSigner h, ← grow_signer, grow_signers]
      · simp at h

/-- Signers can be added as long as the table holds them. -/
theorem runAll_addSigner :
  ∀ {ks : List Pubkey} {b : TransactionBuilder},
    (b.grow (ks.map signerRequest) []).accts.length ≤ sys.acctAddrMax →
      Call.runAll sys (ks.map .addSigner) b = some (b.grow (ks.map signerRequest) [])
  | [], b, _ => by simp [Call.runAll]
  | key :: ks, b, hlen => by
      rw [← grow_signers] at hlen ⊢
      have hle := length_le_length_grant (ks.map signerRequest)
        (b.grow [signerRequest key] []).accts
      have hroom : key ∈ keys b.accts ∨ b.accts.length < sys.acctAddrMax := by
        apply room_of_length_touch_le
        rw [grow_signer] at hle
        apply Nat.le_trans hle
        rw [← grow_signer]
        apply hlen
      rw [List.map_cons, Call.runAll, Call.run, addSigner_of_room hroom, ← grow_signer]
      apply runAll_addSigner hlen

/-- There are fresh keys for a table of at most 128 rows. -/
theorem exists_fresh_keys (ks : List Pubkey) {n : Nat} (h : n + ks.length ≤ 256) :
  ∃ fresh : List Pubkey, fresh.Nodup ∧ fresh.length = n ∧ ∀ key ∈ fresh, key ∉ ks
  := by
  let pool := (Finset.range 256).image fun i => keyOf (UInt8.ofNat i)
  have hpool : pool.card = 256 := by
    rw [Finset.card_image_of_injOn, Finset.card_range]
    intro i hi j hj hij
    have hbyte : UInt8.ofNat i = UInt8.ofNat j := by
      have hhead := congrArg (fun key : Pubkey => key.bytes[0]) hij
      simpa [keyOf] using hhead
    have hi' := CompactU16.toNat_ofNat_of_lt (Finset.mem_range.mp hi)
    have hj' := CompactU16.toNat_ofNat_of_lt (Finset.mem_range.mp hj)
    rw [← hi', hbyte, hj']
  have hcard := Finset.le_card_sdiff ks.toFinset pool
  have hle := ks.toFinset_card_le
  obtain ⟨fresh, hsub, hfresh⟩ :=
    Finset.exists_subset_card_eq (s := pool \ ks.toFinset) (n := n) (by omega)
  use fresh.toList, fresh.nodup_toList
  constructor
  · rw [Finset.length_toList, hfresh]
  · intro key hkey
    have hmem := hsub (Finset.mem_toList.mp hkey)
    simpa using (Finset.mem_sdiff.mp hmem).2

/-- An account table that another extends is observed to have room for as many keys. -/
theorem ObsEq.accts_le (h : ObsEq sys b b') (hb : Fits sys b) (hb' : Fits sys b')
    (hkeys : keys b.accts <+: keys b'.accts) :
  b'.accts.length ≤ b.accts.length
  := by
  have hmax := sys.acctAddrMax_eq
  have hsig := sys.sigMax_lt
  have hroom := hb.accts
  have hroom' := hb'.accts
  obtain ⟨fresh, hnodup, hlen, hfresh⟩ :=
    exists_fresh_keys (keys b'.accts) (n := sys.acctAddrMax - b.accts.length) (by
      rw [length_keys]
      omega)
  have hcount {accts : List Account} (hnot : ∀ key ∈ fresh, key ∉ keys accts) :
      (grant (fresh.map signerRequest) accts).length = accts.length + fresh.length := by
    rw [← length_keys, keys_grant_of_not_mem, List.length_append, length_keys,
      map_pubkey_signerRequest]
    · rwa [map_pubkey_signerRequest]
    · intro m hm
      obtain ⟨key, hkey, rfl⟩ := List.mem_map.mp hm
      apply hnot key hkey
  have hfill : (b.grow (fresh.map signerRequest) []).accts.length ≤ sys.acctAddrMax := by
    rw [grow, hcount]
    · omega
    · intro key hkey hmem
      apply hfresh key hkey (hkeys.subset hmem)
  obtain ⟨b₁', hrun', -⟩ := h.runAll (runAll_addSigner hfill)
  have hfits := (Call.fits_of_runAll hb' hrun').accts
  rw [eq_grow_of_runAll_addSigner hrun', grow, hcount hfresh] at hfits
  omega

/-- The account buffers are observed to have the same room, once an instruction can be added
whose program id is in the table. -/
theorem ObsEq.instrAcctBuf_le (h : ObsEq sys b b') (hb : Fits sys b) (hb' : Fits sys b')
    (hslot : b.instrs.length < sys.instrMax) {key : Pubkey} (hkey : key ∈ keys b.accts) :
  b'.instrAcctBuf.length ≤ b.instrAcctBuf.length
  := by
  have hbuf := hb.acctBuf
  have hbuf' := hb'.acctBuf
  have hdata := hb.dataBuf
  let ix : InstructionBuf :=
    ⟨key, List.replicate (sys.mtu - b.instrAcctBuf.length) ⟨key, false, false⟩, []⟩
  have haccounts : ∀ m ∈ ix.accounts, m.pubkey ∈ keys b.accts := by
    intro m hm
    rw [List.eq_of_mem_replicate hm]
    apply hkey
  have hlen : ix.accounts.length = sys.mtu - b.instrAcctBuf.length := List.length_replicate
  obtain ⟨b₁, hadd⟩ : ∃ b₁, b.addInstruction sys ix = (.ok (), b₁) := by
    apply addInstruction_of_mem hb hslot hkey haccounts
    · omega
    · simpa [ix] using hdata
  have hok : ((Call.addInstruction ix).run sys b').1 = .ok := by
    rw [← (h.run (.addInstruction ix)).1, Call.run, hadd]
    rfl
  have hadd' : b'.addInstruction sys ix = (.ok (), (b'.addInstruction sys ix).2) := by
    apply Prod.ext
    · apply Outcome.ofExcept_eq_ok.mp hok
    · rfl
  obtain ⟨entry, idxs, hb₁', -, hcount, -, -, hend, -⟩ := addInstruction_ok hb' hadd'
  rw [hb₁', List.length_append, hcount] at hend
  omega

/-! ### The signers -/

/-- The calls that let `f` pay the fee and add an empty instruction of a program, so that
`build` counts the signers. -/
def finishCalls (f program : Pubkey) : List Call :=
  [.feePayer f, .recentBlockhash (Vector.replicate 32 0), .addInstruction ⟨program, [], []⟩]

theorem runAll_finishCalls {f program : Pubkey} (hb : Fits sys b)
    (hslot : b.instrs.length < sys.instrMax) (hf : f ∈ keys b.accts)
    (hprogram : program ∈ keys b.accts) :
  ∃ b₁, Call.runAll sys (finishCalls f program) b = some b₁
    ∧ b₁.accts = grant [⟨f, true, true⟩] b.accts
    ∧ b₁.feePayer = some f
    ∧ b₁.blockhash = some (Vector.replicate 32 0)
    ∧ b₁.instrs ≠ []
  := by
  let b₂ : TransactionBuilder :=
    { b with accts := grant [⟨f, true, true⟩] b.accts, feePayer := some f }
  let b₃ := b₂.recentBlockhash (Vector.replicate 32 0)
  have hpayer : (Call.feePayer f).run sys b = (.ok, b₂) := by
    rw [Call.run, setFeePayer_of_room (.inl hf)]
    rfl
  have hhash : (Call.recentBlockhash (Vector.replicate 32 0)).run sys b₂ = (.ok, b₃) := rfl
  have hfits : Fits sys b₃ := Call.fits_of_run_ok (Call.fits_of_run_ok hb hpayer) hhash
  have hprogram' : program ∈ keys b₃.accts := mem_keys_grant.mpr (.inl hprogram)
  obtain ⟨b₁, hadd⟩ : ∃ b₁, b₃.addInstruction sys ⟨program, [], []⟩ = (.ok (), b₁) :=
    addInstruction_of_mem hfits hslot hprogram' (by simp) hfits.acctBuf hfits.dataBuf
  obtain ⟨entry, idxs, hb₁, -⟩ := addInstruction_ok hfits hadd
  use b₁
  constructor
  · have hinstr : (Call.addInstruction ⟨program, [], []⟩).run sys b₃ = (.ok, b₁) := by
      rw [Call.run, hadd]
      rfl
    rw [finishCalls, Call.runAll_cons hpayer, Call.runAll_cons hhash, Call.runAll_cons hinstr]
    rfl
  have hsame : grant (instrRequests ⟨program, [], []⟩) b₃.accts = b₃.accts := by
    rw [grant_instrRequests, touch_zero hprogram']
    rfl
  rw [hb₁, hsame]
  exact ⟨rfl, rfl, rfl, by simp⟩

/-- The rows of a table are all signers exactly when it has as many signers as rows. -/
theorem classCount_one_eq_length_iff {accts : List Account} (hnodup : (keys accts).Nodup) :
  classCount accts 1 = accts.length
    ↔ ∀ key ∈ keys accts, isSignerFlag (flagsOf accts key) = true
  := by
  rw [classCount, List.countP_eq_length]
  simp only [keys, List.forall_mem_map, decide_eq_true_iff, acctSortKey_le_one_iff]
  apply forall₂_congr
  intro acct hacct
  rw [flagsOf_of_mem hacct hnodup]

/-- When the signers `ks` fill the table and are all its keys but one, `build` finds too many
signers exactly when that one is a signer too. -/
theorem build_finishCalls_iff {ks : List Pubkey} {f program key : Pubkey} (hb : Fits sys b)
    (hslot : b.instrs.length < sys.instrMax) (hprogram : program ∈ keys b.accts) (hf : f ∈ ks)
    (hfull : (grant (ks.map signerRequest) b.accts).length = sys.acctAddrMax)
    (hkey : key ∈ keys b.accts) (hnot : key ∉ ks)
    (hothers : ∀ key' ∈ keys (grant (ks.map signerRequest) b.accts), key' = key ∨ key' ∈ ks) :
  ∃ b₁, Call.runAll sys (ks.map .addSigner ++ finishCalls f program) b = some b₁
    ∧ (b₁.build sys = .error .tooManySigners ↔ isSignerFlag (flagsOf b.accts key) = true)
  := by
  have hsigners := runAll_addSigner (Nat.le_of_eq hfull)
  have hf' : f ∈ keys (b.grow (ks.map signerRequest) []).accts := by
    apply mem_keys_grant.mpr
    right
    use signerRequest f, List.mem_map_of_mem hf
    rfl
  obtain ⟨b₁, hfinish, haccts, hfp, hbh, hinstrs⟩ :=
    runAll_finishCalls (Call.fits_of_runAll hb hsigners) hslot hf'
      (mem_keys_grant.mpr (.inl hprogram))
  have hrun : Call.runAll sys (ks.map .addSigner ++ finishCalls f program) b = some b₁ := by
    rw [Call.runAll_append hsigners, hfinish]
  have hfits := Call.fits_of_runAll hb hrun
  have hkeys : keys b₁.accts = keys (grant (ks.map signerRequest) b.accts) := by
    rw [haccts, keys_grant_of_mem]
    · rfl
    · intro m hm
      rw [List.mem_singleton.mp hm]
      apply hf'
  have hlen : b₁.accts.length = sys.sigMax + 1 := by
    rw [← length_keys, hkeys, length_keys, hfull, sys.acctAddrMax_eq]
  -- a key signs in the end when it did before or is one of the added signers
  have hflags (key' : Pubkey) : isSignerFlag (flagsOf b₁.accts key')
      = (isSignerFlag (flagsOf b.accts key') || decide (key' ∈ ks)) := by
    rw [haccts, isSignerFlag_flagsOf_grant, grow, isSignerFlag_flagsOf_grant]
    simp only [signerRequest, List.any_map, List.any_cons, List.any_nil, Bool.and_true,
      Bool.or_false, Function.comp_def, Bool.or_assoc]
    congr 1
    apply Bool.eq_iff_iff.mpr
    simp only [Bool.or_eq_true, List.any_eq_true, decide_eq_true_iff]
    constructor
    · rintro (⟨key'', hmem, heq⟩ | rfl)
      · obtain rfl := of_decide_eq_true heq
        apply hmem
      · apply hf
    · intro hmem
      left
      use key', hmem
      apply decide_eq_true rfl
  have hpos : classCount b₁.accts 1 ≠ 0 := by
    intro hzero
    have hall := List.countP_eq_zero.mp hzero
    obtain ⟨acct, hacct, hacctkey⟩ := List.mem_map.mp (hkeys ▸ hf' : f ∈ keys b₁.accts)
    apply hall acct hacct
    rw [decide_eq_true_iff, acctSortKey_le_one_iff, ← flagsOf_of_mem hacct hfits.nodup, hacctkey,
      hflags]
    simp [hf]
  have hle : classCount b₁.accts 1 ≤ b₁.accts.length := List.countP_le_length
  have hcount : sys.sigMax < classCount b₁.accts 1 ↔ classCount b₁.accts 1 = b₁.accts.length := by
    omega
  use b₁, hrun
  rw [build_eq_tooManySigners_iff hfits hfp hbh hinstrs, or_iff_right hpos, hcount,
    classCount_one_eq_length_iff hfits.nodup, hkeys]
  constructor
  · intro hall
    have hsigner := hall key (mem_keys_grant.mpr (.inl hkey))
    rw [hflags] at hsigner
    simpa [hnot] using hsigner
  · intro hsigner key' hkey'
    rw [hflags, Bool.or_eq_true, decide_eq_true_iff]
    apply (hothers key' hkey').imp_left
    rintro rfl
    apply hsigner

/-- The keys of a table but one, followed by fresh keys. -/
theorem keys_grant_others (accts : List Account) (key : Pubkey) {fresh : List Pubkey}
    (hnodup : fresh.Nodup) (hfresh : ∀ key' ∈ fresh, key' ∉ keys accts) :
  keys (grant (((keys accts).filter (· ≠ key) ++ fresh).map signerRequest) accts)
    = keys accts ++ fresh
  := by
  have hold : keys (grant (((keys accts).filter (· ≠ key)).map signerRequest) accts)
      = keys accts := by
    apply keys_grant_of_mem
    intro m hm
    obtain ⟨key', hkey', rfl⟩ := List.mem_map.mp hm
    apply (List.mem_filter.mp hkey').1
  rw [List.map_append, grant_append, keys_grant_of_not_mem, hold, map_pubkey_signerRequest]
  · rwa [map_pubkey_signerRequest]
  · intro m hm
    obtain ⟨key', hkey', rfl⟩ := List.mem_map.mp hm
    rw [hold]
    apply hfresh key' hkey'

/-- The signers of tables with the same keys are observed. -/
theorem ObsEq.isSigner (h : ObsEq sys b b') (hb : Fits sys b) (hb' : Fits sys b')
    (hslot : b.instrs.length < sys.instrMax) (hslot' : b'.instrs.length < sys.instrMax)
    (hkeys : keys b'.accts = keys b.accts) {key program : Pubkey} (hkey : key ∈ keys b.accts)
    (hprogram : program ∈ keys b.accts) :
  isSignerFlag (flagsOf b'.accts key) = isSignerFlag (flagsOf b.accts key)
  := by
  have hmax := sys.acctAddrMax_eq
  have hpos := sys.sigMax_pos
  have hsig := sys.sigMax_lt
  have hroom := hb.accts
  obtain ⟨fresh, hnodup, hlen, hfresh⟩ :=
    exists_fresh_keys (keys b.accts) (n := sys.acctAddrMax - b.accts.length) (by
      rw [length_keys]
      omega)
  let ks := (keys b.accts).filter (· ≠ key) ++ fresh
  have hcount : (keys b.accts ++ fresh).length = sys.acctAddrMax := by
    rw [List.length_append, length_keys]
    omega
  have hgrown : keys (grant (ks.map signerRequest) b.accts) = keys b.accts ++ fresh :=
    keys_grant_others b.accts key hnodup hfresh
  have hgrown' : keys (grant (ks.map signerRequest) b'.accts) = keys b.accts ++ fresh := by
    rw [← hkeys] at hfresh
    have hothers := keys_grant_others b'.accts key hnodup hfresh
    rwa [hkeys] at hothers
  have hnot : key ∉ ks := by
    rw [List.mem_append, not_or]
    constructor
    · simp
    · intro hmem
      apply hfresh key hmem hkey
  have hothers : ∀ key' ∈ keys b.accts ++ fresh, key' = key ∨ key' ∈ ks := by
    intro key' hkey'
    by_cases heq : key' = key
    · apply Or.inl heq
    · right
      apply List.mem_append.mpr
      apply (List.mem_append.mp hkey').imp_left
      intro hmem
      apply List.mem_filter.mpr
      simp [hmem, heq]
  obtain ⟨f, hf⟩ : ∃ f, f ∈ ks := by
    apply List.exists_mem_of_ne_nil
    intro hnil
    have hall : ∀ key' ∈ keys b.accts ++ fresh, key' = key := by
      intro key' hkey'
      have hor := hothers key' hkey'
      simpa [hnil] using hor
    have hone := List.eq_replicate_of_mem hall
    have hnodup' : (keys b.accts ++ fresh).Nodup := by
      rw [← hgrown]
      apply nodup_keys_grant hb.nodup
    rw [hone, List.nodup_replicate] at hnodup'
    omega
  obtain ⟨b₁, hrun, hiff⟩ := build_finishCalls_iff hb hslot hprogram hf
    (by rw [← length_keys, hgrown, hcount]) hkey hnot (by rwa [hgrown])
  obtain ⟨b₁', hrun', hiff'⟩ := build_finishCalls_iff hb' hslot' (hkeys ▸ hprogram) hf
    (by rw [← length_keys, hgrown', hcount]) (hkeys ▸ hkey) hnot (by rwa [hgrown'])
  obtain ⟨b₂, hrun₂, heq⟩ := h.runAll hrun
  obtain rfl : b₁' = b₂ := Option.some.inj (hrun'.symm.trans hrun₂)
  apply Bool.eq_iff_iff.mpr
  rw [← hiff', ← heq.build, hiff]

end FdTxn

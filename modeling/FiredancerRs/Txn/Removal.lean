import FiredancerRs.Txn.Outcome
import FiredancerRs.Txn.Returned
import Mathlib.Data.List.Perm.Subperm

/-!
# Leaving calls out

When calls on a builder all return, they return without those that make a certain key the fee
payer (`Returned.withoutFeePayer`), and the two builders they make are compared here (`Follows`).
As long as the account table does not get full, the builders differ in the row of that key only
(`Mirrors`), and not even there when the other calls make the key a writable signer. Once it is
full (`Overflows`), calls may fail on the one builder and not on the other.
-/

open FdEd25519 Writer

namespace FdTxn

variable {sys : Sys}

open TransactionBuilder

/-- The calls without those of `fee_payer` with the key. -/
def withoutFeePayer (key : Pubkey) (calls : List Call) : List Call :=
  calls.filter (· ≠ .feePayer key)

/-! ### Tables with the same roles -/

/-- The tables have the same keys, with the same roles. -/
structure SameRoles (accts accts' : List Account) : Prop where
  mem : ∀ key, key ∈ keys accts ↔ key ∈ keys accts'
  signer : ∀ key, isSignerFlag (flagsOf accts key) = isSignerFlag (flagsOf accts' key)
  writable : ∀ key, isWritableFlag (flagsOf accts key) = isWritableFlag (flagsOf accts' key)

namespace SameRoles

variable {accts accts' accts'' : List Account}

theorem refl (accts : List Account) :
  SameRoles accts accts
  := ⟨fun _ => Iff.rfl, fun _ => rfl, fun _ => rfl⟩

theorem trans (h : SameRoles accts accts') (h' : SameRoles accts' accts'') :
  SameRoles accts accts''
  where
  mem key := (h.mem key).trans (h'.mem key)
  signer key := (h.signer key).trans (h'.signer key)
  writable key := (h.writable key).trans (h'.writable key)

theorem grant (h : SameRoles accts accts') (requests : List AccountMeta) :
  SameRoles (grant requests accts) (grant requests accts')
  where
  mem key := by rw [mem_keys_grant, mem_keys_grant, h.mem]
  signer key := by rw [isSignerFlag_flagsOf_grant, isSignerFlag_flagsOf_grant, h.signer]
  writable key := by rw [isWritableFlag_flagsOf_grant, isWritableFlag_flagsOf_grant, h.writable]

/-- The order in which requests are granted does not matter. -/
theorem grant_comm (requests requests' : List AccountMeta) (accts : List Account) :
  SameRoles (FdTxn.grant requests (FdTxn.grant requests' accts))
    (FdTxn.grant requests' (FdTxn.grant requests accts))
  where
  mem key := by simp only [mem_keys_grant, or_right_comm]
  signer key := by simp only [isSignerFlag_flagsOf_grant, Bool.or_right_comm]
  writable key := by simp only [isWritableFlag_flagsOf_grant, Bool.or_right_comm]

/-- To ask a writable signer to be one changes nothing. -/
theorem grant_writableSigner {key : Pubkey} (h : IsWritableSigner accts key)
    {requests : List AccountMeta} (hrequests : ∀ m ∈ requests, m = ⟨key, true, true⟩) :
  SameRoles (FdTxn.grant requests accts) accts
  := by
  constructor
  case mem =>
    intro key'
    rw [mem_keys_grant, or_iff_left_iff_imp]
    rintro ⟨m, hm, rfl⟩
    rw [hrequests m hm]
    apply h.mem_keys
  case signer =>
    intro key'
    rw [isSignerFlag_flagsOf_grant, Bool.or_eq_left_iff_imp, List.any_eq_true]
    rintro ⟨m, hm, hsigner⟩
    obtain rfl := hrequests m hm
    obtain rfl : key = key' := by simpa using hsigner
    apply h.1
  case writable =>
    intro key'
    rw [isWritableFlag_flagsOf_grant, Bool.or_eq_left_iff_imp, List.any_eq_true]
    rintro ⟨m, hm, hwritable⟩
    obtain rfl := hrequests m hm
    obtain rfl : key = key' := by simpa using hwritable
    apply h.2

theorem acctSortKey_eq (h : SameRoles accts accts') (key : Pubkey) :
  acctSortKey (flagsOf accts key) = acctSortKey (flagsOf accts' key)
  := by
  rw [acctSortKey, acctSortKey, h.signer, h.writable]

theorem keys_perm (h : SameRoles accts accts') (hnodup : (keys accts).Nodup)
    (hnodup' : (keys accts').Nodup) :
  (keys accts).Perm (keys accts')
  := (List.perm_ext_iff_of_nodup hnodup hnodup').mpr h.mem

theorem length_eq (h : SameRoles accts accts') (hnodup : (keys accts).Nodup)
    (hnodup' : (keys accts').Nodup) :
  accts.length = accts'.length
  := by
  have hlen := (h.keys_perm hnodup hnodup').length_eq
  rwa [length_keys, length_keys] at hlen

/-- A class of a table has as many rows as keys. -/
theorem countP_keys (hnodup : (keys accts).Nodup) (c : Nat) :
  (keys accts).countP (fun key => acctSortKey (flagsOf accts key) ≤ c) = classCount accts c
  := by
  rw [keys, List.countP_map, classCount]
  apply List.countP_congr
  intro acct hacct
  simp only [Function.comp_apply, flagsOf_of_mem hacct hnodup]

theorem classCount_eq (h : SameRoles accts accts') (hnodup : (keys accts).Nodup)
    (hnodup' : (keys accts').Nodup) (c : Nat) :
  classCount accts c = classCount accts' c
  := by
  rw [← countP_keys hnodup, ← countP_keys hnodup', (h.keys_perm hnodup hnodup').countP_eq]
  apply List.countP_congr
  intro key _
  rw [h.acctSortKey_eq]

end SameRoles

/-! ### Builders that follow one another -/

/-- The builders have had the same done to them, but for requests of the first for `key` as a
writable signer. -/
structure Mirrors (key : Pubkey) (b b' : TransactionBuilder) : Prop where
  roles : ∃ extra : List AccountMeta, (∀ m ∈ extra, m = ⟨key, true, true⟩)
    ∧ SameRoles b.accts (grant extra b'.accts)
  entries : ∃ added,
    List.Forall₂ (Locates (keys b.accts) b.instrAcctBuf b.instrDataBuf) b.instrs added
      ∧ List.Forall₂ (Locates (keys b'.accts) b'.instrAcctBuf b'.instrDataBuf) b'.instrs added
  acctBuf : b.instrAcctBuf.length = b'.instrAcctBuf.length
  dataBuf : b.instrDataBuf.length = b'.instrDataBuf.length

/-- The table of the first builder is full, and the second has all its keys but maybe `key`. -/
structure Overflows (sys : Sys) (key : Pubkey) (b b' : TransactionBuilder) : Prop where
  full : sys.acctAddrMax ≤ b.accts.length
  subset : keys b.accts ⊆ key :: keys b'.accts

/-- The second builder follows the first through the same calls, but for those that make `key` the
fee payer. -/
structure Follows (sys : Sys) (key : Pubkey) (b b' : TransactionBuilder) : Prop where
  tables : Mirrors key b b' ∨ Overflows sys key b b'
  feePayer : b.feePayer ≠ some key → b'.feePayer = b.feePayer
  blockhash : b'.blockhash = b.blockhash
  version : b'.version = b.version

section Tables

variable {key : Pubkey} {b b' b₁ b₁' : TransactionBuilder} {c : Call}

/-- A full table has the keys of the tables whose keys are among its own. -/
theorem keys_subset_of_full {accts accts' : List Account} {n : Nat} (hnodup' : (keys accts').Nodup)
    (hsub : keys accts' ⊆ keys accts) (hlen : accts.length ≤ n) (hfull : n ≤ accts'.length) :
  keys accts ⊆ keys accts'
  := by
  apply (List.Nodup.subperm hnodup' hsub).perm_of_length_le _ |>.symm.subset
  rw [length_keys, length_keys]
  omega

theorem keys_grant_mono {accts accts' : List Account} {requests requests' : List AccountMeta}
    (hkeys : keys accts ⊆ key :: keys accts') (hrequests : requests ⊆ requests') :
  keys (grant requests accts) ⊆ key :: keys (grant requests' accts')
  := by
  intro key' hmem
  rw [List.mem_cons, mem_keys_grant]
  rcases mem_keys_grant.mp hmem with hmem | ⟨m, hm, rfl⟩
  · rcases List.mem_cons.mp (hkeys hmem) with rfl | hmem
    · exact .inl rfl
    · exact .inr (.inl hmem)
  · exact .inr (.inr ⟨m, hrequests hm, rfl⟩)

theorem Mirrors.keys_subset (h : Mirrors key b b') :
  keys b.accts ⊆ key :: keys b'.accts
  := by
  obtain ⟨extra, hextra, hroles⟩ := h.roles
  intro key' hmem
  rw [hroles.mem, mem_keys_grant] at hmem
  rcases hmem with hmem | ⟨m, hm, rfl⟩
  · apply List.mem_cons_of_mem _ hmem
  · rw [hextra m hm]
    apply List.mem_cons_self

theorem Mirrors.keys_subset' (h : Mirrors key b b') :
  keys b'.accts ⊆ keys b.accts
  := by
  obtain ⟨extra, -, hroles⟩ := h.roles
  intro key' hmem
  rw [hroles.mem, mem_keys_grant]
  apply Or.inl hmem

theorem Mirrors.length_instrs (h : Mirrors key b b') :
  b.instrs.length = b'.instrs.length
  := by
  obtain ⟨added, hentries, hentries'⟩ := h.entries
  rw [hentries.length_eq, hentries'.length_eq]

theorem Mirrors.heard_eq (h : Mirrors key b b') (c : Call) :
  c.heard sys b = c.heard sys b'
  := by
  cases c <;> simp only [Call.heard, h.length_instrs, h.acctBuf]

theorem Mirrors.positions_eq (h : Mirrors key b b') (c : Call) :
  c.positions sys b = c.positions sys b'
  := by
  cases c <;> simp only [Call.positions, h.length_instrs, h.acctBuf]

theorem Mirrors.hasRoom_iff (h : Mirrors key b b') (ix : InstructionBuf) :
  b.HasRoom sys ix ↔ b'.HasRoom sys ix
  := by
  rw [HasRoom, HasRoom, h.length_instrs, h.acctBuf, h.dataBuf]

theorem Mirrors.taken_eq (h : Mirrors key b b') (c : Call) :
  c.taken sys b = c.taken sys b'
  := by
  cases c <;> simp only [Call.taken, h.hasRoom_iff]

/-- A call that grants all it is heard to ask on both builders keeps them alike. -/
theorem Mirrors.call (h : Mirrors key b b') (he : c.Effect sys b b₁) (he' : c.Effect sys b' b₁') :
  Mirrors key b₁ b₁'
  := by
  have hheard := @Mirrors.heard_eq sys key b b' h c
  have hpositions := @Mirrors.positions_eq sys key b b' h c
  have htaken := @Mirrors.taken_eq sys key b b' h c
  constructor
  case roles =>
    obtain ⟨extra, hextra, hroles⟩ := h.roles
    use extra, hextra
    rw [he.accts, he'.accts, hheard]
    apply (hroles.grant _).trans
    apply SameRoles.grant_comm
  case entries =>
    obtain ⟨added, hentries, hentries'⟩ := h.entries
    have hadded := he.entries hentries
    rw [htaken] at hadded
    exact ⟨_, hadded, he'.entries hentries'⟩
  case acctBuf => rw [he.acctBuf, he'.acctBuf, h.acctBuf, hpositions]
  case dataBuf => rw [he.dataBuf, he'.dataBuf, h.dataBuf, htaken]

/-- A call that is stopped on one of the builders fills the table of the first. -/
theorem Mirrors.overflows (h : Mirrors key b b') (hb₁ : Fits sys b₁) (hb₁' : Fits sys b₁')
    (he : c.Effect sys b b₁ ∨ c.Stopped sys b b₁)
    (he' : c.Effect sys b' b₁' ∨ c.Stopped sys b' b₁')
    (hfull : sys.acctAddrMax ≤ b₁.accts.length ∨ sys.acctAddrMax ≤ b₁'.accts.length) :
  Overflows sys key b₁ b₁'
  := by
  obtain ⟨done, hdone, haccts, hwhole⟩ := Call.grants he
  obtain ⟨done', hdone', haccts', hwhole'⟩ := Call.grants he'
  rw [← h.heard_eq] at hdone' hwhole'
  -- how far the call gets on the second builder, when it gets less far
  have hless (hsub : done' ⊆ done) : keys b₁'.accts ⊆ keys b₁.accts := by
    intro key' hmem
    rw [haccts', mem_keys_grant] at hmem
    rw [haccts, mem_keys_grant]
    apply hmem.imp (fun hmem => h.keys_subset' hmem)
    rintro ⟨m, hm, rfl⟩
    exact ⟨m, hsub hm, rfl⟩
  have hmore (hsub : done ⊆ done') : keys b₁.accts ⊆ key :: keys b₁'.accts := by
    rw [haccts, haccts']
    apply keys_grant_mono h.keys_subset hsub
  have hleast (hsub : done' ⊆ done) (hfull' : sys.acctAddrMax ≤ b₁'.accts.length) :
      Overflows sys key b₁ b₁' := by
    constructor
    · have hle := (List.Nodup.subperm hb₁'.nodup (hless hsub)).length_le
      rw [length_keys, length_keys] at hle
      omega
    · apply List.subset_cons_of_subset
      apply keys_subset_of_full hb₁'.nodup (hless hsub) hb₁.accts hfull'
  rcases hwhole' with rfl | hfull'
  · rcases hfull with hfull | hfull'
    · exact ⟨hfull, hmore hdone.subset⟩
    · rcases hwhole with rfl | hfull
      · apply hleast (List.Subset.refl _) hfull'
      · exact ⟨hfull, hmore hdone.subset⟩
  · rcases List.prefix_or_prefix_of_prefix hdone hdone' with hsub | hsub
    · rcases hwhole with rfl | hfull
      · apply hleast hdone'.subset hfull'
      · exact ⟨hfull, hmore hsub.subset⟩
    · apply hleast hsub.subset hfull'

/-- A full table stays as it is. -/
theorem Overflows.grow (h : Overflows sys key b b') (hb₁ : Fits sys b₁)
    (hkeys : keys b.accts <+: keys b₁.accts) (hkeys' : keys b'.accts ⊆ keys b₁'.accts) :
  Overflows sys key b₁ b₁'
  := by
  have hlen := hkeys.length_le
  rw [length_keys, length_keys] at hlen
  have hfull := h.full
  have hle := hb₁.accts
  have heq : keys b.accts = keys b₁.accts := by
    apply hkeys.eq_of_length
    rw [length_keys, length_keys]
    omega
  constructor
  · omega
  · rw [← heq]
    apply List.Subset.trans h.subset
    apply List.cons_subset_cons _ hkeys'

theorem Call.keys_prefix (h : c.Effect sys b b₁ ∨ c.Stopped sys b b₁) :
  keys b.accts <+: keys b₁.accts
  := by
  obtain ⟨done, -, haccts, -⟩ := Call.grants h
  rw [haccts]
  apply keys_prefix_grant

end Tables

section Follow

variable {key : Pubkey} {b b' b₁ b₁' : TransactionBuilder} {c : Call}

theorem Outcome.ofExcept_ne_panic (r : Except BuildError Unit) :
  Outcome.ofExcept r ≠ .panic
  := by
  cases r <;> nofun

/-- `fee_payer` returns exactly when the key has a row, or room for one. -/
theorem Call.feePayer_returns_iff {b : TransactionBuilder} {key : Pubkey} :
  ((Call.feePayer key).run sys b).1 ≠ .panic
    ↔ key ∈ keys b.accts ∨ b.accts.length < sys.acctAddrMax
  := by
  constructor
  · intro hreturns
    rw [Call.run] at hreturns
    split at hreturns
    · apply absurd rfl hreturns
    · next b₁ hset => apply (setFeePayer_ok hset).2
  · intro hroom
    rw [Call.run, setFeePayer_of_room hroom]
    rintro ⟨⟩

/-- A call that returns on a builder returns on one that follows it. -/
theorem Follows.returns (h : Follows sys key b b') (hb' : Fits sys b') (hc : c ≠ .feePayer key)
    (hreturns : (c.run sys b).1 ≠ .panic) :
  (c.run sys b').1 ≠ .panic
  := by
  cases c with
  | version v => nofun
  | recentBlockhash hash => nofun
  | addSigner key' => apply Outcome.ofExcept_ne_panic
  | addInstruction ix => apply Outcome.ofExcept_ne_panic
  | feePayer key' =>
    have hne : key' ≠ key := by
      rintro rfl
      apply hc rfl
    rw [Call.feePayer_returns_iff] at hreturns ⊢
    have hmem (hkeys : keys b.accts ⊆ key :: keys b'.accts) (hkey : key' ∈ keys b.accts) :
        key' ∈ keys b'.accts := (List.mem_cons.mp (hkeys hkey)).resolve_left hne
    rcases h.tables with hmirrors | hover
    · apply hreturns.imp (hmem hmirrors.keys_subset)
      intro hroom
      have hle := (List.Nodup.subperm hb'.nodup hmirrors.keys_subset').length_le
      rw [length_keys, length_keys] at hle
      omega
    · left
      apply hmem hover.subset
      apply hreturns.resolve_right (Nat.not_lt.mpr hover.full)

theorem Call.blockhash_eq (h : c.Effect sys b b₁ ∨ c.Stopped sys b b₁) :
  b₁.blockhash = c.hash.or b.blockhash
  := by
  rcases h with heffect | hstopped
  · apply heffect.blockhash
  · obtain ⟨done, idxs, -, rfl⟩ := hstopped.grown
    rw [hstopped.hash]
    rfl

theorem Call.version_eq (h : c.Effect sys b b₁ ∨ c.Stopped sys b b₁) :
  b₁.version = c.newVersion.getD b.version
  := by
  rcases h with heffect | hstopped
  · apply heffect.version
  · obtain ⟨done, idxs, -, rfl⟩ := hstopped.grown
    rw [hstopped.newVersion]
    rfl

/-- The same call keeps a builder following another. -/
theorem Follows.call (h : Follows sys key b b') (hb₁ : Fits sys b₁) (hb₁' : Fits sys b₁')
    (he : c.Effect sys b b₁ ∨ c.Stopped sys b b₁)
    (he' : c.Effect sys b' b₁' ∨ c.Stopped sys b' b₁') :
  Follows sys key b₁ b₁'
  := by
  constructor
  case tables =>
    rcases h.tables with hmirrors | hover
    · by_cases hfull : sys.acctAddrMax ≤ b₁.accts.length ∨ sys.acctAddrMax ≤ b₁'.accts.length
      · right
        apply hmirrors.overflows hb₁ hb₁' he he' hfull
      · left
        have heffect := he.resolve_right fun hstopped => hfull (.inl hstopped.full)
        have heffect' := he'.resolve_right fun hstopped => hfull (.inr hstopped.full)
        apply hmirrors.call heffect heffect'
    · right
      apply hover.grow hb₁ (Call.keys_prefix he) (Call.keys_prefix he').subset
  case feePayer =>
    rw [Call.feePayer_eq he, Call.feePayer_eq he']
    cases c.payer with
    | none => apply h.feePayer
    | some key' => exact fun _ => rfl
  case blockhash => rw [Call.blockhash_eq he, Call.blockhash_eq he', h.blockhash]
  case version => rw [Call.version_eq he, Call.version_eq he', h.version]

/-- Leaving out a call that makes `key` the fee payer keeps a builder following another. -/
theorem Follows.skip (h : Follows sys key b b') (hb₁ : Fits sys b₁)
    (he : (Call.feePayer key).Effect sys b b₁) :
  Follows sys key b₁ b'
  := by
  constructor
  case tables =>
    rcases h.tables with hmirrors | hover
    · left
      obtain ⟨extra, hextra, hroles⟩ := hmirrors.roles
      obtain ⟨added, hentries, hentries'⟩ := hmirrors.entries
      constructor
      · refine ⟨extra ++ [⟨key, true, true⟩], ?_, ?_⟩
        · intro m hm
          rcases List.mem_append.mp hm with hm | hm
          · apply hextra m hm
          · apply List.mem_singleton.mp hm
        · rw [he.accts, grant_append]
          apply hroles.grant
      · have hadded : List.Forall₂ _ b₁.instrs (added ++ []) := he.entries hentries
        rw [List.append_nil] at hadded
        exact ⟨added, hadded, hentries'⟩
      · rw [he.acctBuf, hmirrors.acctBuf]
        rfl
      · rw [he.dataBuf, hmirrors.dataBuf]
        rfl
    · right
      apply hover.grow hb₁ (Call.keys_prefix (.inl he)) (List.Subset.refl _)
  case feePayer =>
    intro hne
    apply absurd he.feePayer hne
  case blockhash =>
    rw [he.blockhash, h.blockhash]
    rfl
  case version =>
    rw [he.version, h.version]
    rfl

end Follow

/-- When calls return, they return without those that make `key` the fee payer. -/
theorem Returned.withoutFeePayer {calls : List Call} {b : TransactionBuilder}
    (hb : Returned sys calls b) (key : Pubkey) :
  ∃ b', Returned sys (withoutFeePayer key calls) b' ∧ Follows sys key b b'
  := by
  induction hb with
  | new =>
    refine ⟨.new, .new, .inl ⟨⟨[], List.forall_mem_nil _, .refl _⟩, ⟨[], .nil, .nil⟩, rfl, rfl⟩, ?_,
      rfl, rfl⟩
    exact fun _ => rfl
  | @call calls b b₁ c outcome hb hrun hreturns ih =>
    obtain ⟨b', hb', hfollows⟩ := ih
    have hb₁ := (hb.call hrun hreturns).fits
    have he := Call.effect_or_stopped hb.fits hrun hreturns
    rw [FdTxn.withoutFeePayer, List.filter_append, ← FdTxn.withoutFeePayer]
    by_cases hc : c = .feePayer key
    · subst hc
      use b'
      constructor
      · rwa [List.filter_cons_of_neg (by simp), List.filter_nil, List.append_nil]
      · apply hfollows.skip hb₁ (he.resolve_right fun hstopped => by cases hstopped.payer)
    · have hreturns' : (c.run sys b').1 ≠ .panic := by
        apply hfollows.returns hb'.fits hc
        rwa [hrun]
      rw [List.filter_cons_of_pos (by simpa using hc), List.filter_nil]
      have hnext := hb'.call rfl hreturns'
      use (c.run sys b').2, hnext
      apply hfollows.call hb₁ hnext.fits he (Call.effect_or_stopped hb'.fits rfl hreturns')

/-! ### Builders with the same roles -/

theorem toNat_inj_header {header header' : Header}
    (hsig : header.sigCount.toNat = header'.sigCount.toNat)
    (hro : header.readonlySigned.toNat = header'.readonlySigned.toNat)
    (hunsigned : header.readonlyUnsigned.toNat = header'.readonlyUnsigned.toNat) :
  header = header'
  := by
  cases header
  cases header'
  simp only [Header.mk.injEq]
  exact ⟨UInt8.toNat_inj.mp hsig, UInt8.toNat_inj.mp hro, UInt8.toNat_inj.mp hunsigned⟩

section Mirror

variable {key : Pubkey} {b b' : TransactionBuilder}

/-- The tables have the same roles when the key is a writable signer without the calls left out. -/
theorem Mirrors.sameRoles (h : Mirrors key b b') (hkey : IsWritableSigner b'.accts key) :
  SameRoles b.accts b'.accts
  := by
  obtain ⟨extra, hextra, hroles⟩ := h.roles
  apply hroles.trans (SameRoles.grant_writableSigner hkey hextra)

/-- Before the table is full, a builder that follows another mirrors it. -/
theorem Follows.mirrors (h : Follows sys key b b') (hroom : b.accts.length < sys.acctAddrMax) :
  Mirrors key b b'
  := h.tables.resolve_right fun hover => absurd hover.full (Nat.not_le.mpr hroom)

/-- The table of a message that fits is not full. -/
theorem length_lt_of_fitsMtu (h : b.FitsMtu sys) :
  b.accts.length < sys.acctAddrMax
  := by
  have hkeys := h.length_le
  have hmtu := sys.mtu_lt_keys
  omega

/-- The headers of builders with the same roles are the same. -/
theorem headerOf_eq_of_sameRoles (hb : Fits sys b) (hb' : Fits sys b')
    (h : SameRoles b.accts b'.accts) (i j : Nat) :
  b.headerOf (b.sorted i) = b'.headerOf (b'.sorted j)
  := by
  obtain ⟨hsig, hro, hunsigned⟩ := headerOf_counts hb i
  obtain ⟨hsig', hro', hunsigned'⟩ := headerOf_counts hb' j
  have hcount (c : Nat) : classCount (b.messageAccts (b.sorted i)) c
      = classCount (b'.messageAccts (b'.sorted j)) c := by
    have hperm : classCount (b.messageAccts (b.sorted i)) c = classCount b.accts c :=
      (b.messageAccts_perm i).countP_eq _
    have hperm' : classCount (b'.messageAccts (b'.sorted j)) c = classCount b'.accts c :=
      (b'.messageAccts_perm j).countP_eq _
    rw [hperm, hperm', h.classCount_eq hb.nodup hb'.nodup]
  have hlen : (b.messageAccts (b.sorted i)).length = (b'.messageAccts (b'.sorted j)).length := by
    rw [(b.messageAccts_perm i).length_eq, (b'.messageAccts_perm j).length_eq,
      h.length_eq hb.nodup hb'.nodup]
  rw [hcount] at hsig
  rw [hcount, hcount] at hro
  rw [hcount, hlen] at hunsigned
  apply toNat_inj_header
  · omega
  · omega
  · omega

/-- The lengths of the instructions of a builder are those of the added instructions. -/
theorem instrLengths_eq {added : List InstructionBuf}
    (h : List.Forall₂ (Locates (keys b.accts) b.instrAcctBuf b.instrDataBuf) b.instrs added) :
  b.instrLengths = added.map fun ix => (ix.accounts.length, ix.data.length)
  := by
  rw [instrLengths, ← List.forall₂_eq_eq_eq, List.forall₂_map_left_iff,
    List.forall₂_map_right_iff]
  apply h.imp
  intro entry ix hloc
  have hacct := congrArg List.length hloc.accounts
  have hdata := congrArg List.length hloc.data
  have hend := hloc.acct_end
  have hend' := hloc.data_end
  rw [List.length_map, List.length_map, List.length_take, List.length_drop] at hacct
  rw [List.length_take, List.length_drop] at hdata
  apply Prod.ext
  · dsimp only
    omega
  · dsimp only
    omega

theorem Mirrors.sizes_eq (h : Mirrors key b b') (hversion : b'.version = b.version)
    (hb : Fits sys b) (hb' : Fits sys b') (hroles : SameRoles b.accts b'.accts) :
  b.sizes sys = b'.sizes sys
  := by
  obtain ⟨added, hentries, hentries'⟩ := h.entries
  rw [sizes, sizes, hversion, instrLengths_eq hentries, instrLengths_eq hentries',
    hroles.classCount_eq hb.nodup hb'.nodup, hroles.length_eq hb.nodup hb'.nodup]

end Mirror

end FdTxn

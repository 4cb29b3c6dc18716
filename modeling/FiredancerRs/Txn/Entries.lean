import FiredancerRs.Txn.Reachable
import FiredancerRs.Txn.Wire

/-!
# The entries of a reachable builder

The positions that a builder stores are rows of its account table, and its entries cut the two
buffers into segments that lie in them one after another. Calls keep this however they end
(`Reachable.indexed`): what a call that fails leaves behind lies after all segments.
-/

open FdEd25519

namespace FdTxn

variable {sys : Sys}

namespace TransactionBuilder

/-- The segments of an entry lie before those of another. -/
def InstrEntry.Before (e e' : InstrEntry) : Prop :=
  e.acctOff.toNat + e.acctCnt.toNat ≤ e'.acctOff.toNat
    ∧ e.dataOff.toNat + e.dataLen.toNat ≤ e'.dataOff.toNat

/-- Every position that is stored is a row of the table, and the entries have segments of the
buffers one after another. -/
structure Indexed (b : TransactionBuilder) : Prop where
  programs : ∀ entry ∈ b.instrs, entry.programIdx.toNat < b.accts.length
  accounts : ∀ i ∈ b.instrAcctBuf, i.toNat < b.accts.length
  entries : b.EntriesFit
  apart : b.instrs.Pairwise InstrEntry.Before

/-- A builder grows by rows, and by positions of its rows. -/
structure Grows (b b' : TransactionBuilder) : Prop where
  accts : b.accts.length ≤ b'.accts.length
  acctBuf : ∃ idxs, b'.instrAcctBuf = b.instrAcctBuf ++ idxs
    ∧ ∀ i ∈ idxs, i.toNat < b'.accts.length
  dataBuf : b'.instrDataBuf = b.instrDataBuf
  instrs : b'.instrs = b.instrs

variable {b b' b'' : TransactionBuilder}

theorem indexed_new :
  Indexed .new
  where
  programs := List.forall_mem_nil _
  accounts := List.forall_mem_nil _
  entries := List.forall_mem_nil _
  apart := .nil

theorem Grows.trans (h : Grows b b') (h' : Grows b' b'') :
  Grows b b''
  := by
  obtain ⟨idxs, hbuf, hidxs⟩ := h.acctBuf
  obtain ⟨idxs', hbuf', hidxs'⟩ := h'.acctBuf
  constructor
  · apply Nat.le_trans h.accts h'.accts
  · use idxs ++ idxs'
    constructor
    · rw [hbuf', hbuf, List.append_assoc]
    · rw [List.forall_mem_append]
      exact ⟨fun i hi => Nat.lt_of_lt_of_le (hidxs i hi) h'.accts, hidxs'⟩
  · rw [h'.dataBuf, h.dataBuf]
  · rw [h'.instrs, h.instrs]

/-- Rows are added, and no positions. -/
theorem grows_of_accts {accts : List Account} (h : b.accts.length ≤ accts.length) :
  Grows b { b with accts := accts }
  where
  accts := h
  acctBuf := ⟨[], (List.append_nil _).symm, List.forall_mem_nil _⟩
  dataBuf := rfl
  instrs := rfl

theorem length_le_length_touch (key : Pubkey) (flags : UInt8) (accts : List Account) :
  accts.length ≤ (touch key flags accts).length
  := by
  have hprefix := (keys_prefix_touch key flags accts).length_le
  rwa [length_keys, length_keys] at hprefix

/-- The entries keep their segments when a builder grows. -/
theorem Grows.indexed (h : Grows b b') (hb : Indexed b) :
  Indexed b'
  := by
  obtain ⟨idxs, hbuf, hidxs⟩ := h.acctBuf
  constructor
  · intro entry hentry
    rw [h.instrs] at hentry
    apply Nat.lt_of_lt_of_le (hb.programs entry hentry) h.accts
  · rw [hbuf, List.forall_mem_append]
    exact ⟨fun i hi => Nat.lt_of_lt_of_le (hb.accounts i hi) h.accts, hidxs⟩
  · intro entry hentry
    rw [h.instrs] at hentry
    obtain ⟨hacct, hdata⟩ := hb.entries entry hentry
    rw [hbuf, h.dataBuf, List.length_append]
    exact ⟨Nat.le_trans hacct (Nat.le_add_right _ _), hdata⟩
  · rw [h.instrs]
    apply hb.apart

/-- A position of the table fits one byte. -/
theorem toNat_ofNat_of_lt_accts {accts : List Account} {idx : Nat} (h : idx < accts.length)
    (hbound : accts.length ≤ sys.acctAddrMax) :
  (UInt8.ofNat idx).toNat = idx
  := by
  have := sys.acctAddrMax_eq
  have := sys.sigMax_lt
  apply CompactU16.toNat_ofNat_of_lt
  omega

/-- The loop of `add_instruction` only adds rows and positions of rows, however it ends. -/
theorem addAccounts_grows :
  ∀ (metas : List AccountMeta) {b : TransactionBuilder}, b.accts.length ≤ sys.acctAddrMax →
    Grows b (addAccounts sys b metas).2
  | [], b, _ => grows_of_accts (Nat.le_refl _)
  | m :: metas, b, hb => by
      rw [addAccounts]
      split
      · next e b₁ hfind =>
        obtain ⟨rfl, -⟩ := findOrInsert_error hfind
        apply grows_of_accts (Nat.le_refl _)
      · next idx b₁ hfind =>
        obtain ⟨rfl, hidx, hroom⟩ := findOrInsert_ok hfind
        have hraised := orFlags_meta hidx
        dsimp only at hraised ⊢
        rw [hraised]
        have hrow : Grows b { b with accts := touch m.pubkey (metaFlags m) b.accts } :=
          grows_of_accts (length_le_length_touch m.pubkey (metaFlags m) b.accts)
        have hbound : (touch m.pubkey (metaFlags m) b.accts).length ≤ sys.acctAddrMax :=
          length_touch_le_of_room hb hroom
        split
        · apply hrow
        · have hlt : idx < (touch m.pubkey (metaFlags m) b.accts).length := by
            rw [indexOf_touch_congr m.pubkey 0 (metaFlags m)] at hidx
            apply indexOf_lt hidx
          have hpush : Grows { b with accts := touch m.pubkey (metaFlags m) b.accts }
              { b with
                accts := touch m.pubkey (metaFlags m) b.accts
                instrAcctBuf := b.instrAcctBuf ++ [UInt8.ofNat idx] } := by
            refine ⟨Nat.le_refl _, ⟨[UInt8.ofNat idx], rfl, ?_⟩, rfl, rfl⟩
            rw [List.forall_mem_singleton, toNat_ofNat_of_lt_accts hlt hbound]
            apply hlt
          apply (hrow.trans hpush).trans (addAccounts_grows metas hbound)

/-- An entry is added for a program of the table, with all that was added to the two buffers. -/
theorem Indexed.push {entry : InstrEntry} (hgrows : Grows b b') (hb : Indexed b)
    (hprogram : entry.programIdx.toNat < b'.accts.length)
    (hacctOff : entry.acctOff.toNat = b.instrAcctBuf.length)
    (hacct : entry.acctOff.toNat + entry.acctCnt.toNat = b'.instrAcctBuf.length)
    (hdataOff : entry.dataOff.toNat = b.instrDataBuf.length) {data : Bytes}
    (hdata : entry.dataLen.toNat = data.length) :
  Indexed { b' with instrDataBuf := b'.instrDataBuf ++ data, instrs := b'.instrs ++ [entry] }
  := by
  have hb' := hgrows.indexed hb
  have hdataLen : b'.instrDataBuf.length = b.instrDataBuf.length := by rw [hgrows.dataBuf]
  constructor
  · dsimp only
    rw [List.forall_mem_append, List.forall_mem_singleton]
    exact ⟨hb'.programs, hprogram⟩
  · apply hb'.accounts
  · rw [EntriesFit, List.forall_mem_append, List.forall_mem_singleton]
    constructor
    · intro old hold
      obtain ⟨hold₁, hold₂⟩ := hb'.entries old hold
      rw [List.length_append]
      exact ⟨hold₁, Nat.le_trans hold₂ (Nat.le_add_right _ _)⟩
    · rw [List.length_append, hdataOff, hdata, hdataLen]
      exact ⟨Nat.le_of_eq hacct, Nat.le_refl _⟩
  · apply List.pairwise_append.mpr
    refine ⟨hb'.apart, List.pairwise_singleton _ _, ?_⟩
    intro old hold new hnew
    obtain rfl := List.mem_singleton.mp hnew
    rw [hgrows.instrs] at hold
    obtain ⟨hold₁, hold₂⟩ := hb.entries old hold
    rw [InstrEntry.Before, hacctOff, hdataOff]
    exact ⟨hold₁, hold₂⟩

/-- `add_instruction` keeps the entries, however it ends. -/
theorem addInstruction_indexed (hb : Fits sys b) (h : Indexed b) (ix : InstructionBuf) :
  Indexed (b.addInstruction sys ix).2
  := by
  rw [addInstruction]
  split
  · apply h
  · split
    · next e b₁ hfind =>
      obtain ⟨rfl, -⟩ := findOrInsert_error hfind
      apply h
    · next progIdx b₁ hfind =>
      obtain ⟨rfl, hidx, hroom⟩ := findOrInsert_ok hfind
      have hbound : (touch ix.programId 0 b.accts).length ≤ sys.acctAddrMax :=
        length_touch_le_of_room hb.accts hroom
      have hprogram : Grows b { b with accts := touch ix.programId 0 b.accts } :=
        grows_of_accts (length_le_length_touch ix.programId 0 b.accts)
      have hgrows := hprogram.trans
        (@addAccounts_grows sys ix.accounts { b with accts := touch ix.programId 0 b.accts } hbound)
      dsimp only
      split
      · next e b₂ hloop =>
        rw [hloop] at hgrows
        apply hgrows.indexed h
      · next b₂ hloop =>
        rw [hloop] at hgrows
        obtain ⟨idxs, rfl, hmap, hbound₂, hend⟩ := addAccounts_ok
          (b := { b with accts := touch ix.programId 0 b.accts }) hbound hb.acctBuf hloop
        have hcount : idxs.length = ix.accounts.length := by
          simpa using congrArg List.length hmap
        dsimp only at hend hbound₂ hgrows ⊢
        rw [List.length_append] at hend
        split
        · apply hgrows.indexed h
        · next hdata =>
          have hidx' := indexOf_lt hidx
          have hacctOff := toNat_ofNat_of_le_mtu sys hb.acctBuf
          apply h.push hgrows
          · dsimp only
            rw [toNat_ofNat_of_lt_accts hidx' hbound]
            apply Nat.lt_of_lt_of_le hidx'
            have hprefix := (keys_prefix_grant ix.accounts
              (touch ix.programId 0 b.accts)).length_le
            rwa [length_keys, length_keys] at hprefix
          · apply hacctOff
          · dsimp only
            rw [hacctOff, toNat_ofNat_of_le_mtu sys (by omega), List.length_append, hcount]
          · apply toNat_ofNat_of_le_mtu sys hb.dataBuf
          · apply toNat_ofNat_of_le_mtu sys (by omega)

/-- `add_signer` keeps the entries, however it ends. -/
theorem addSigner_indexed (h : Indexed b) (key : Pubkey) :
  Indexed (b.addSigner sys key).2
  := by
  cases hadd : b.addSigner sys key with
  | mk r b' =>
    cases r with
    | ok u =>
      obtain ⟨rfl, -⟩ := addSigner_ok hadd
      apply (grows_of_accts (length_le_length_touch key ACCT_F_SIGNER b.accts)).indexed h
    | error e =>
      obtain ⟨rfl, -⟩ := addSigner_error hadd
      apply h

/-- The entries do not depend on the fee payer, the blockhash and the version. -/
theorem Indexed.congr (h : Indexed b) (haccts : b'.accts.length = b.accts.length)
    (hbuf : b'.instrAcctBuf = b.instrAcctBuf) (hdata : b'.instrDataBuf = b.instrDataBuf)
    (hinstrs : b'.instrs = b.instrs) :
  Indexed b'
  := by
  apply Grows.indexed _ h
  exact { accts := Nat.le_of_eq haccts.symm
          acctBuf := ⟨[], by rw [hbuf, List.append_nil], List.forall_mem_nil _⟩
          dataBuf := hdata
          instrs := hinstrs }

end TransactionBuilder

open TransactionBuilder

/-- Every call keeps the entries, however it ends. -/
theorem Call.run_indexed {b : TransactionBuilder} (hb : Fits sys b) (h : Indexed b) (c : Call) :
  Indexed (c.run sys b).2
  := by
  cases c with
  | version v => exact h.congr rfl rfl rfl rfl
  | recentBlockhash hash => exact h.congr rfl rfl rfl rfl
  | addSigner key => exact addSigner_indexed h key
  | addInstruction ix => exact addInstruction_indexed hb h ix
  | feePayer key =>
    rw [Call.run]
    split
    · apply h
    · next b' hset =>
      obtain ⟨rfl, -⟩ := setFeePayer_ok hset
      have hgrows := grows_of_accts (b := b)
        (length_le_length_touch key (ACCT_F_SIGNER ||| ACCT_F_WRITABLE) b.accts)
      exact (hgrows.indexed h).congr rfl rfl rfl rfl

theorem Reachable.indexed {b : TransactionBuilder} (h : Reachable sys b) :
  Indexed b
  := by
  induction h with
  | new => exact indexed_new
  | call c hb ih => exact c.run_indexed hb.fits ih

end FdTxn

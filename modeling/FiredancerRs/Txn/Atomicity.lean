import FiredancerRs.Txn.Limit
import FiredancerRs.Txn.Observe

/-!
# What a failed `add_instruction` changes

`add_signer` leaves the builder as it was when it fails. `add_instruction` does so only when
it is rejected before it changes the account table, the flags or the account buffer
(`Intact`): then later calls cannot tell that the call was made. In every other case but one
they can (`addInstruction_obsEq`). The case that is left is a call that only marks an account
as writable, which later calls observe only through the bytes of a successful `build`
(`MarksWritable`).
-/

open FdEd25519

namespace FdTxn

variable {sys : Sys}

/-! ### Raising flags that are set -/

theorem or_signer {flags : UInt8} (h : isSignerFlag flags = true) :
  flags ||| ACCT_F_SIGNER = flags
  := by
  have hall : ∀ bits : BitVec 8, (bits &&& 1#8 != 0#8) = true → bits ||| 1#8 = bits := by decide
  apply UInt8.toBitVec_inj.mp
  apply hall
  simpa [isSignerFlag, ACCT_F_SIGNER, ← UInt8.toBitVec_inj] using h

theorem or_writable {flags : UInt8} (h : isWritableFlag flags = true) :
  flags ||| ACCT_F_WRITABLE = flags
  := by
  have hall : ∀ bits : BitVec 8, (bits &&& 2#8 != 0#8) = true → bits ||| 2#8 = bits := by decide
  apply UInt8.toBitVec_inj.mp
  apply hall
  simpa [isWritableFlag, ACCT_F_WRITABLE, ← UInt8.toBitVec_inj] using h

/-- Touching a key of the table with flags it has changes nothing. -/
theorem touch_eq_self {key : Pubkey} {flags : UInt8} :
  ∀ {accts : List Account}, key ∈ keys accts → flagsOf accts key ||| flags = flagsOf accts key →
    touch key flags accts = accts
  | acct :: accts, hmem, h => by
      by_cases hkey : acct.key = key
      · rw [flagsOf, if_pos hkey] at h
        rw [touch, if_pos hkey, h]
      · rw [flagsOf, if_neg hkey] at h
        have hmem' : key ∈ keys accts := by simpa [keys, Ne.symm hkey] using hmem
        rw [touch, if_neg hkey, touch_eq_self hmem' h]

namespace TransactionBuilder

/-! ### Calls that change nothing -/

/-- The roles an account of an instruction asks for are those its key already has. -/
def HasRoles (b : TransactionBuilder) (m : AccountMeta) : Prop :=
  (m.isSigner = true → isSignerFlag (flagsOf b.accts m.pubkey) = true)
    ∧ (m.isWritable = true → isWritableFlag (flagsOf b.accts m.pubkey) = true)

/-- Nothing changes when `add_instruction` fails before it has found or inserted its program
id, or at an unchanged account table: because there are no accounts, because the first is not
in the full table, or because the account buffer is full and the first account is in the table
with the roles it asks for. -/
def Intact (sys : Sys) (b : TransactionBuilder) (ix : InstructionBuf) : Prop :=
  sys.instrMax ≤ b.instrs.length
    ∨ (ix.programId ∉ keys b.accts ∧ sys.acctAddrMax ≤ b.accts.length)
    ∨ (ix.programId ∈ keys b.accts
      ∧ ∀ m ∈ ix.accounts.head?,
          (m.pubkey ∉ keys b.accts ∧ sys.acctAddrMax ≤ b.accts.length)
            ∨ (m.pubkey ∈ keys b.accts ∧ sys.mtu ≤ b.instrAcctBuf.length ∧ b.HasRoles m))

/-- All that changes is that the first account becomes writable: the account buffer is full,
and the program id and the first account are in the table. -/
def MarksWritable (sys : Sys) (b : TransactionBuilder) (ix : InstructionBuf) : Prop :=
  ix.programId ∈ keys b.accts
    ∧ ∃ m ∈ ix.accounts.head?,
        m.pubkey ∈ keys b.accts ∧ sys.mtu ≤ b.instrAcctBuf.length
          ∧ (m.isSigner = true → isSignerFlag (flagsOf b.accts m.pubkey) = true)
          ∧ m.isWritable = true ∧ isWritableFlag (flagsOf b.accts m.pubkey) = false

/-- Touching a key that has the flags changes nothing. -/
theorem touch_of_hasRoles {b : TransactionBuilder} {m : AccountMeta}
    (hkey : m.pubkey ∈ keys b.accts) (h : b.HasRoles m) :
  touch m.pubkey (metaFlags m) b.accts = b.accts
  := by
  apply touch_eq_self hkey
  rw [metaFlags, ← UInt8.or_assoc]
  have hsigner : (flagsOf b.accts m.pubkey ||| if m.isSigner = true then ACCT_F_SIGNER else 0)
      = flagsOf b.accts m.pubkey := by
    split
    · next hs => apply or_signer (h.1 hs)
    · apply UInt8.or_zero
  rw [hsigner]
  split
  · next hw => apply or_writable (h.2 hw)
  · apply UInt8.or_zero

/-- An intact call that fails leaves the builder as it was. -/
theorem Intact.addInstruction_eq {b b' : TransactionBuilder} {ix : InstructionBuf}
    {e : BuildError} (hintact : Intact sys b ix) (h : b.addInstruction sys ix = (.error e, b')) :
  b' = b
  := by
  rw [addInstruction] at h
  split at h
  · apply (congrArg Prod.snd h).symm
  · next hslot =>
    rcases hintact with hfull | ⟨hnot, hfull⟩ | ⟨hprogram, haccounts⟩
    · omega
    · rw [findOrInsert_of_full hnot hfull] at h
      apply (congrArg Prod.snd h).symm
    · obtain ⟨progIdx, -, hfind⟩ := findOrInsert_of_mem sys hprogram
      rw [hfind] at h
      dsimp only at h
      cases hix : ix.accounts with
      | nil =>
        rw [hix] at h
        simp only [addAccounts] at h
        split at h
        · apply (congrArg Prod.snd h).symm
        · simp at h
      | cons m rest =>
        rw [hix] at h haccounts
        rw [addAccounts] at h
        rcases haccounts m rfl with ⟨hnot, hfull⟩ | ⟨hkey, hbuf, hroles⟩
        · rw [findOrInsert_of_full hnot hfull] at h
          apply (congrArg Prod.snd h).symm
        · obtain ⟨idx, hidx, hfind'⟩ := findOrInsert_of_mem sys hkey
          have hidx' : indexOf (touch m.pubkey 0 b.accts) m.pubkey = some idx := by
            rw [touch_zero hkey, hidx]
          have hraised := orFlags_meta hidx'
          rw [touch_zero hkey, touch_of_hasRoles hkey hroles] at hraised
          rw [hfind'] at h
          dsimp only at h hraised
          rw [hraised, if_pos hbuf] at h
          apply (congrArg Prod.snd h).symm

/-! ### Calls that later calls observe -/

section Observed

variable {b b' : TransactionBuilder} {ix : InstructionBuf}

/-- When later calls do not observe that requests were granted and positions were put in the
account buffer, the keys are those of before, and there are no such positions. -/
theorem eq_of_obsEq_grow {requests : List AccountMeta} {idxs : Bytes} {program : Pubkey}
    (hb : Fits sys b) (hslot : b.instrs.length < sys.instrMax)
    (hb' : Fits sys (b.grow (⟨program, false, false⟩ :: requests) idxs))
    (heq : ObsEq sys b (b.grow (⟨program, false, false⟩ :: requests) idxs)) :
  keys (b.grow (⟨program, false, false⟩ :: requests) idxs).accts = keys b.accts
    ∧ program ∈ keys b.accts
    ∧ idxs = []
  := by
  have hsub := keys_prefix_grant (⟨program, false, false⟩ :: requests) b.accts
  have hkeys : keys (b.grow (⟨program, false, false⟩ :: requests) idxs).accts = keys b.accts := by
    symm
    apply hsub.eq_of_length_le
    rw [length_keys, length_keys]
    apply heq.accts_le hb hb' hsub
  have hprogram : program ∈ keys b.accts := by
    rw [← hkeys]
    apply mem_keys_grant.mpr
    right
    use ⟨program, false, false⟩, List.mem_cons_self
  have hbuf := heq.instrAcctBuf_le hb hb' hslot hprogram
  rw [grow, List.length_append] at hbuf
  use hkeys, hprogram
  apply List.length_eq_zero_iff.mp
  omega

/-- What later calls do not observe is intact, or only marks an account as writable. -/
theorem Leftover.intact_of_obsEq (hb : Fits sys b) (hb' : Fits sys b')
    (h : Leftover sys b ix b') (heq : ObsEq sys b b') :
  Intact sys b ix ∨ MarksWritable sys b ix
  := by
  cases h with
  | nothing hfull =>
    left
    rcases hfull with hfull | hfull
    · apply Or.inl hfull
    · apply Or.inr (Or.inl hfull)
  | @stopped done m rest idxs _ hslot hsplit hcount hstop =>
    cases hstop with
    | tableFull hnot hfull =>
      obtain ⟨hkeys, hprogram, rfl⟩ := eq_of_obsEq_grow hb hslot hb' heq
      obtain rfl : done = [] := List.length_eq_zero_iff.mp hcount.symm
      rw [hkeys] at hnot
      rw [← length_keys, hkeys, length_keys] at hfull
      left
      right
      right
      use hprogram
      rw [hsplit]
      rintro m' ⟨⟩
      apply Or.inl ⟨hnot, hfull⟩
    | bufferFull hbuf =>
      obtain ⟨hkeys, hprogram, rfl⟩ := eq_of_obsEq_grow hb hslot hb' heq
      obtain rfl : done = [] := List.length_eq_zero_iff.mp hcount.symm
      have hkey : m.pubkey ∈ keys b.accts := by
        rw [← hkeys]
        apply mem_keys_grant.mpr
        right
        use m
        simp
      have hbuf' : sys.mtu ≤ b.instrAcctBuf.length := by simpa [grow] using hbuf
      have hsigner := heq.isSigner hb hb' hslot hslot hkeys hkey hprogram
      rw [grow, isSignerFlag_flagsOf_grant] at hsigner
      have hrole : m.isSigner = true → isSignerFlag (flagsOf b.accts m.pubkey) = true := by
        intro hs
        simpa [hs] using hsigner
      cases hw : m.isWritable && !isWritableFlag (flagsOf b.accts m.pubkey) with
      | true =>
        rw [Bool.and_eq_true, Bool.not_eq_true'] at hw
        right
        use hprogram, m
        rw [hsplit]
        exact ⟨rfl, hkey, hbuf', hrole, hw⟩
      | false =>
        have hrole' : m.isWritable = true → isWritableFlag (flagsOf b.accts m.pubkey) = true := by
          intro hm
          simpa [hm] using hw
        left
        right
        right
        use hprogram
        rw [hsplit]
        rintro m' ⟨⟩
        exact .inr ⟨hkey, hbuf', hrole, hrole'⟩
  | dataTooLarge hslot hcount =>
    obtain ⟨hkeys, hprogram, rfl⟩ := eq_of_obsEq_grow hb hslot hb' heq
    left
    right
    right
    use hprogram
    rw [List.length_eq_zero_iff.mp hcount.symm]
    rintro m ⟨⟩

end Observed

end TransactionBuilder

open TransactionBuilder

/-- On every reachable builder, an `add_instruction` that fails is not observed by any later
sequence of calls when it is intact; and when it is not observed, it is intact or only marks an
account as writable. -/
theorem addInstruction_obsEq {b b' : TransactionBuilder} {ix : InstructionBuf} {e : BuildError}
    (hb : Reachable sys b) (h : b.addInstruction sys ix = (.error e, b')) :
  (Intact sys b ix → ObsEq sys b b')
    ∧ (ObsEq sys b b' → Intact sys b ix ∨ MarksWritable sys b ix)
  := by
  obtain ⟨hleft, hfits⟩ := addInstruction_error hb.fits h
  constructor
  · intro hintact ops
    rw [hintact.addInstruction_eq h]
  · intro heq
    apply hleft.intact_of_obsEq hb.fits hfits heq

/-- An instruction of a new program with one byte more data than fits. -/
def oversized : InstructionBuf := ⟨keyOf 7, [], List.replicate 1233 0⟩

/-- The sample builder after it rejected the oversized instruction: the program id stays in the
account table. -/
def oversizedBuilder : TransactionBuilder :=
  { sampleBuilder with accts := sampleBuilder.accts ++ [⟨keyOf 7, 0⟩] }

theorem addInstruction_oversized :
  sampleBuilder.addInstruction .accepting oversized = (.error .dataTooLarge, oversizedBuilder)
  := by
  have hfind : sampleBuilder.findOrInsert .accepting oversized.programId
      = (.ok 4, oversizedBuilder) := rfl
  apply addInstruction_tooLarge (by decide) hfind rfl
  rw [oversized, List.length_replicate]
  decide

/-- Later calls observe the rejected instruction. -/
theorem addInstruction_obsEq_oversized :
  ¬ ObsEq .accepting sampleBuilder oversizedBuilder
  := by
  intro heq
  rcases (addInstruction_obsEq sampleBuilder_built.reachable addInstruction_oversized).2 heq with
    (hfull | ⟨-, hfull⟩ | ⟨hprogram, -⟩) | ⟨hprogram, -⟩
  · revert hfull
    decide
  · revert hfull
    decide
  · revert hprogram
    decide
  · revert hprogram
    decide

/-- An instruction of a new program whose data does not fit is rejected, but a later `build`
returns other bytes than it would have: the program id has become an account. -/
theorem addInstruction_oversized_build :
  Reachable .accepting sampleBuilder
    ∧ sampleBuilder.addInstruction .accepting oversized = (.error .dataTooLarge, oversizedBuilder)
    ∧ (sampleBuilder.build .accepting).map (fun tx => tx.asBytes.length) = .ok 301
    ∧ (oversizedBuilder.build .accepting).map (fun tx => tx.asBytes.length) = .ok 333
  := by
  have hsample := sampleBuilder_built.reachable
  have hoversized : Reachable .accepting oversizedBuilder := by
    have hadded := hsample.call (.addInstruction oversized)
    rwa [Call.run, addInstruction_oversized] at hadded
  refine ⟨hsample, addInstruction_oversized, ?_, ?_⟩
  · apply length_build hsample rfl rfl (by decide) (by decide) (by decide) (by decide)
    intro bytes hlen
    change bytes.length ≠ 0
    rw [hlen]
    decide
  · apply length_build hoversized rfl rfl (by decide) (by decide) (by decide) (by decide)
    intro bytes hlen
    change bytes.length ≠ 0
    rw [hlen]
    decide

end FdTxn

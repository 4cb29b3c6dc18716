import FiredancerRs.Txn.Privileges

/-!
# The same result up to the order of the keys

Two transactions are the same up to the order of the keys inside a privilege class when they
agree on everything but the positions of the keys: the header gives each key the same roles, the
fee payer comes first, and the instructions stand for the same ones (`SameUpToOrder`). `build`
gives the same result when it gives the same error or such transactions (`SameResult`).
-/

open FdEd25519

namespace FdTxn

variable {sys : Sys}

/-- The keys of a transaction with the given privileges. -/
def WireTransaction.privilegeClass (tx : WireTransaction) (signer writable : Bool) :
    List Pubkey :=
  (tx.keys.zipIdx.filter fun q => tx.header.isSigner q.2 == signer
    && tx.header.isWritable tx.keys.length q.2 == writable).map Prod.fst

/-- The transactions are the same up to the order of the keys inside a privilege class. -/
structure WireTransaction.SameUpToOrder (tx tx' : WireTransaction) : Prop where
  signatures : tx.signatures = tx'.signatures
  version : tx.version = tx'.version
  header : tx.header = tx'.header
  blockhash : tx.blockhash = tx'.blockhash
  feePayer : tx.keys[0]? = tx'.keys[0]?
  classes : ∀ signer writable,
    (tx.privilegeClass signer writable).Perm (tx'.privilegeClass signer writable)
  instructions : tx.instructions.map tx.resolve = tx'.instructions.map tx'.resolve

/-- The built transactions are the same up to the order of the keys inside a privilege class. -/
structure SameTransaction (sys : Sys) (tx tx' : UnsignedTransaction) : Prop where
  sigCount : tx.sigCount = tx'.sigCount
  sigOff : tx.sigOff = tx'.sigOff
  messageOff : tx.messageOff = tx'.messageOff
  wire : ∃ wire wire',
    decodeTransaction sys.signatureSz tx.asBytes = some (wire, [])
      ∧ decodeTransaction sys.signatureSz tx'.asBytes = some (wire', [])
      ∧ wire.SameUpToOrder wire'

/-- `build` gives the same result: the same error, or the same transaction up to order. -/
inductive SameResult (sys : Sys) :
    Except BuildError UnsignedTransaction → Except BuildError UnsignedTransaction → Prop
  | error (e : BuildError) : SameResult sys (.error e) (.error e)
  | ok {tx tx' : UnsignedTransaction} :
      SameTransaction sys tx tx' → SameResult sys (.ok tx) (.ok tx')

section SameResult

variable {e e' : BuildError} {tx tx' : UnsignedTransaction}

@[simp]
theorem sameResult_error_error :
  SameResult sys (.error e) (.error e') ↔ e = e'
  := by
  constructor
  · rintro ⟨⟩
    rfl
  · rintro rfl
    apply SameResult.error

@[simp]
theorem sameResult_ok_ok :
  SameResult sys (.ok tx) (.ok tx') ↔ SameTransaction sys tx tx'
  := by
  constructor
  · rintro ⟨⟩
    assumption
  · apply SameResult.ok

@[simp]
theorem not_sameResult_error_ok :
  ¬ SameResult sys (.error e) (.ok tx)
  := nofun

@[simp]
theorem not_sameResult_ok_error :
  ¬ SameResult sys (.ok tx) (.error e)
  := nofun

end SameResult

theorem SameResult.sigCount_eq {r r' : Except BuildError UnsignedTransaction}
    (h : SameResult sys r r') :
  r.map (fun tx => tx.sigCount) = r'.map fun tx => tx.sigCount
  := by
  cases h with
  | error e => rfl
  | ok hsame => apply congrArg Except.ok hsame.sigCount

theorem WireTransaction.mem_privilegeClass {tx : WireTransaction} {signer writable : Bool}
    {key : Pubkey} :
  key ∈ tx.privilegeClass signer writable
    ↔ ∃ p, tx.keys[p]? = some key ∧ tx.header.isSigner p = signer
        ∧ tx.header.isWritable tx.keys.length p = writable
  := by
  simp only [privilegeClass, List.mem_map, List.mem_filter, Prod.exists,
    List.mem_zipIdx_iff_getElem?, Bool.and_eq_true, beq_iff_eq]
  constructor
  · rintro ⟨_, p, ⟨hp, hroles⟩, rfl⟩
    exact ⟨p, hp, hroles⟩
  · rintro ⟨p, hp, hroles⟩
    exact ⟨key, p, ⟨hp, hroles⟩, rfl⟩

theorem WireTransaction.nodup_privilegeClass {tx : WireTransaction} (h : tx.keys.Nodup)
    (signer writable : Bool) :
  (tx.privilegeClass signer writable).Nodup
  := by
  have hsub : (tx.privilegeClass signer writable).Sublist (tx.keys.zipIdx.map Prod.fst) :=
    List.filter_sublist.map Prod.fst
  rw [List.zipIdx_map_fst] at hsub
  apply hsub.nodup h

/-! ### The classes of the message -/

open TransactionBuilder

/-- The keys of a privilege class of the message are those of the table with these roles. -/
theorem mem_privilegeClass_wireOf {added : List InstructionBuf} {b : TransactionBuilder}
    {feePayer : Pubkey} {fpIdx : Nat} (h : Kept sys added b)
    (hfp : b.feePayer = some feePayer) (hidx : indexOf b.accts feePayer = some fpIdx)
    {blockhash : Bytes32} {signer writable : Bool} {key : Pubkey} :
  key ∈ (b.wireOf sys (b.sorted fpIdx) blockhash).privilegeClass signer writable
    ↔ key ∈ keys b.accts ∧ isSignerFlag (flagsOf b.accts key) = signer
        ∧ isWritableFlag (flagsOf b.accts key) = writable
  := by
  have hclass := acctSortKey_feePayer h hfp hidx
  have hperm := b.messageAccts_perm fpIdx
  -- what the header says of the row of the message at a position
  have hrow {p : Nat} {acct : Account}
      (hp : (b.messageAccts (b.sorted fpIdx))[p]? = some acct) :
      (b.headerOf (b.sorted fpIdx)).isSigner p = isSignerFlag (flagsOf b.accts acct.key)
        ∧ (b.headerOf (b.sorted fpIdx)).isWritable (keys (b.messageAccts (b.sorted fpIdx))).length p
          = isWritableFlag (flagsOf b.accts acct.key) := by
    rw [flagsOf_of_mem (hperm.mem_iff.mp (List.mem_of_getElem? hp)) h.fits.nodup, length_keys]
    exact ⟨isSigner_headerOf h.fits hclass hp, isWritable_headerOf h.fits hclass hp⟩
  rw [WireTransaction.mem_privilegeClass]
  simp only [wireOf]
  constructor
  · rintro ⟨p, hp, rfl, rfl⟩
    rw [keys, List.getElem?_map, Option.map_eq_some_iff] at hp
    obtain ⟨acct, hp, rfl⟩ := hp
    obtain ⟨hsigner, hwritable⟩ := hrow hp
    use List.mem_map_of_mem (hperm.mem_iff.mp (List.mem_of_getElem? hp))
    exact ⟨hsigner.symm, hwritable.symm⟩
  · rintro ⟨hmem, rfl, rfl⟩
    obtain ⟨acct, hacct, rfl⟩ := List.mem_map.mp hmem
    obtain ⟨p, hp⟩ := List.getElem?_of_mem (hperm.mem_iff.mpr hacct)
    use p
    rw [keys, List.getElem?_map, hp]
    exact ⟨rfl, hrow hp⟩

end FdTxn

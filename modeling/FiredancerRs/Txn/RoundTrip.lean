import FiredancerRs.Txn.Wire

/-!
# The round trip of a built transaction

The bytes of a successful `build` decode to a transaction with the version and the blockhash
of the builder, whose instructions stand for the added instructions, in order.
-/

open FdEd25519

namespace FdTxn

variable {sys : Sys}

/-- A list whose entries are all sent to values is sent to the list of the values. -/
theorem mapM_eq_some_of_map {α β : Type} {f : α → Option β} :
  ∀ {l : List α} {l' : List β}, l.map f = l'.map some → l.mapM f = some l'
  | [], [], _ => rfl
  | a :: l, b :: l', h => by
      obtain ⟨hhead, htail⟩ := List.cons.inj h
      rw [List.mapM_cons, hhead, mapM_eq_some_of_map htail]
      rfl

namespace TransactionBuilder

/-- The key at position `i` of the account table is in the message at position `remap[i]`. -/
theorem getElem?_keys_wireOf {b : TransactionBuilder} {fpIdx : Nat} {blockhash : Bytes32}
    (hb : Fits sys b) {i : Nat} {key : Pubkey} (h : (keys b.accts)[i]? = some key) :
  (b.wireOf sys (b.sorted fpIdx) blockhash).keys[
      ((remapOf sys (b.sorted fpIdx)).getD i 0).toNat]? = some key
  := by
  obtain ⟨hi, -⟩ := List.getElem?_eq_some_iff.mp h
  rw [length_keys] at hi
  rw [← h, wireOf, keys, keys, List.getElem?_map, List.getElem?_map,
    getElem?_messageAccts_remap fpIdx hb.accts hi]

/-- The compiled entry of an instruction stands for the instruction. -/
theorem resolve_compile {b : TransactionBuilder} {fpIdx : Nat} {blockhash : Bytes32}
    (hb : Fits sys b) {entry : InstrEntry} {ix : InstructionBuf}
    (h : Locates (keys b.accts) b.instrAcctBuf b.instrDataBuf entry ix) :
  (b.wireOf sys (b.sorted fpIdx) blockhash).resolve
      (b.compile (remapOf sys (b.sorted fpIdx)) entry)
    = some (ix.programId, ix.accounts.map AccountMeta.pubkey, ix.data)
  := by
  have hprogram : (b.wireOf sys (b.sorted fpIdx) blockhash).keys[
      ((remapOf sys (b.sorted fpIdx)).getD entry.programIdx.toNat 0).toNat]?
        = some ix.programId := getElem?_keys_wireOf hb h.program
  have haccounts : (b.compile (remapOf sys (b.sorted fpIdx)) entry).accounts.mapM
      (fun i => (b.wireOf sys (b.sorted fpIdx) blockhash).keys[i.toNat]?)
        = some (ix.accounts.map AccountMeta.pubkey) := by
    apply mapM_eq_some_of_map
    rw [List.map_map]
    apply Eq.trans _ h.accounts
    rw [compile, List.map_map]
    apply List.map_congr_left
    intro i hi
    have hmem := List.mem_map_of_mem (f := fun i : UInt8 => (keys b.accts)[i.toNat]?) hi
    rw [h.accounts] at hmem
    obtain ⟨m, -, hm⟩ := List.mem_map.mp hmem
    rw [← hm]
    apply getElem?_keys_wireOf hb hm.symm
  rw [WireTransaction.resolve, haccounts]
  change ((b.wireOf sys (b.sorted fpIdx) blockhash).keys[_]?.bind _) = _
  rw [compile, hprogram, Option.bind_some, h.data]
  rfl

/-- The instructions of the message stand for the added instructions. -/
theorem map_resolve_wireOf {added : List InstructionBuf} {b : TransactionBuilder}
    (h : Kept sys added b) (fpIdx : Nat) (blockhash : Bytes32) :
  (b.wireOf sys (b.sorted fpIdx) blockhash).instructions.map
      (b.wireOf sys (b.sorted fpIdx) blockhash).resolve
    = added.map fun ix => some (ix.programId, ix.accounts.map AccountMeta.pubkey, ix.data)
  := by
  rw [wireOf, List.map_map, ← List.forall₂_eq_eq_eq, List.forall₂_map_left_iff,
    List.forall₂_map_right_iff]
  apply h.entries.imp
  intro entry ix hloc
  apply resolve_compile h.fits hloc

end TransactionBuilder

open TransactionBuilder

theorem Kept.entriesFit {added : List InstructionBuf} {b : TransactionBuilder}
    (h : Kept sys added b) :
  b.EntriesFit
  := by
  intro entry hentry
  obtain ⟨i, hi, rfl⟩ := List.getElem_of_mem hentry
  have hlen := h.entries.length_eq
  have hloc := (List.forall₂_iff_get.mp h.entries).2 i hi (hlen ▸ hi)
  exact ⟨hloc.acct_end, hloc.data_end⟩

/-- Whenever `build` succeeds on a builder reached by successful calls, its bytes decode, to
the last one, to a transaction with the builder's version and blockhash, whose instructions
stand for the added instructions: the program id, the accounts in order, and the data. -/
theorem build_roundTrip {calls : List Call} {b : TransactionBuilder} {tx : UnsignedTransaction}
    (hb : Built sys calls b) (h : b.build sys = .ok tx) :
  ∃ wire,
    decodeTransaction sys.signatureSz tx.asBytes = some (wire, [])
      ∧ wire.version = b.version
      ∧ b.blockhash = some wire.blockhash
      ∧ wire.instructions.map wire.resolve
          = (calls.filterMap Call.instruction).map fun ix =>
              some (ix.programId, ix.accounts.map AccountMeta.pubkey, ix.data)
  := by
  have hsummary := hb.summary
  obtain ⟨feePayer, blockhash, fpIdx, -, hbh, -, hdecode⟩ :=
    build_wire hsummary.fits hsummary.kept.entriesFit h
  refine ⟨_, hdecode, rfl, hbh, ?_⟩
  apply map_resolve_wireOf hsummary.kept

/-- The key whose bytes are all `n`. -/
def keyOf (n : UInt8) : Pubkey := ⟨Vector.replicate 32 n⟩

/-- A fee payer, a blockhash, and an instruction whose second account signs. -/
def sampleCalls : List Call :=
  [.feePayer (keyOf 1), .recentBlockhash (Vector.replicate 32 9),
   .addInstruction ⟨keyOf 2, [⟨keyOf 3, false, false⟩, ⟨keyOf 4, true, true⟩], [0xAA, 0xBB]⟩]

/-- The builder the sample calls make. -/
def sampleBuilder : TransactionBuilder where
  accts := [⟨keyOf 1, 3⟩, ⟨keyOf 2, 0⟩, ⟨keyOf 3, 0⟩, ⟨keyOf 4, 3⟩]
  instrs := [⟨1, 0, 2, 0, 2⟩]
  instrAcctBuf := [2, 3]
  instrDataBuf := [0xAA, 0xBB]
  feePayer := some (keyOf 1)
  blockhash := some (Vector.replicate 32 9)
  version := .legacy

theorem sampleBuilder_built :
  Built .accepting sampleCalls sampleBuilder
  := Built.new.runAll sampleCalls rfl

/-- The second signer moves in front of the program id. -/
theorem sampleBuilder_sorted :
  sampleBuilder.sorted 0 = [0, 3, 1, 2]
  := by
  apply sorted_eq_of_perm
  · decide
  · decide

theorem sampleBuilder_build :
  ∃ tx, sampleBuilder.build .accepting = .ok tx
  := by
  change ∃ tx, sampleBuilder.serialize .accepting (sampleBuilder.sorted 0) _ = .ok tx
  rw [sampleBuilder_sorted]
  apply Except.isOk_iff_exists.mp
  decide +kernel

theorem build_roundTrip_sample :
  ∃ tx wire, sampleBuilder.build .accepting = .ok tx
    ∧ decodeTransaction 64 tx.asBytes = some (wire, [])
    ∧ wire.instructions.map wire.resolve = [some (keyOf 2, [keyOf 3, keyOf 4], [0xAA, 0xBB])]
  := by
  obtain ⟨tx, htx⟩ := sampleBuilder_build
  obtain ⟨wire, hdecode, -, -, hinstrs⟩ := build_roundTrip sampleBuilder_built htx
  exact ⟨tx, wire, htx, hdecode, hinstrs⟩

end FdTxn

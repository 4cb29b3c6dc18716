import FiredancerRs.Txn.Entries
import FiredancerRs.Txn.Outcome

/-!
# The size limit

`build` refuses a transaction that does not fit its writes, and before it writes a compact-u16 it
asks for the three bytes of the longest one. So a transaction is refused that ends too close to the
limit after its last compact-u16 (`exactLimit_iff`).
-/

open FdEd25519 Writer

namespace FdTxn

variable {sys : Sys}

namespace TransactionBuilder

/-- The transaction that `build` writes. -/
def wire (sys : Sys) (b : TransactionBuilder) : Option WireTransaction := do
  let feePayer ← b.feePayer
  let blockhash ← b.blockhash
  let fpIdx ← b.findAccount feePayer
  pure (b.wireOf sys (b.sorted fpIdx) blockhash)

/-- The length of the transaction on the wire. -/
def wireLength (sys : Sys) (b : TransactionBuilder) : Nat :=
  ((b.wire sys).map fun tx => tx.encode.length).getD 0

/-- The number of signers in the account table. -/
def signerCount (b : TransactionBuilder) : Nat :=
  b.accts.countP fun acct => isSignerFlag acct.flags

/-- The number of bytes after the last compact-u16 of the transaction: the data of its last
instruction, unless there is a list of lookup tables after it. -/
def lastData (b : TransactionBuilder) : Nat :=
  match b.version with
  | .legacy => (b.instrs.getLast?.map fun entry => entry.dataLen.toNat).getD 0
  | .v0 => 0

/-- `build` finds a transaction too large exactly when it is longer than the limit on the wire, and
what it returns is not. -/
def ExactLimit (sys : Sys) (b : TransactionBuilder) : Prop :=
  (b.build sys = .error .transactionTooLarge ↔ sys.mtu < b.wireLength sys)
    ∧ ∀ tx, b.build sys = .ok tx → tx.asBytes.length ≤ sys.mtu

variable {b : TransactionBuilder}

theorem classCount_one (b : TransactionBuilder) :
  classCount b.accts 1 = b.signerCount
  := by
  apply List.countP_congr
  intro acct _
  rw [decide_eq_true_iff, acctSortKey_le_one_iff]

/-- The bytes of an instruction are those of its sizes. -/
theorem length_encode_compile {entry : InstrEntry} (remap : Bytes)
    (h : entry.acctOff.toNat + entry.acctCnt.toNat ≤ b.instrAcctBuf.length
      ∧ entry.dataOff.toNat + entry.dataLen.toNat ≤ b.instrDataBuf.length) :
  (b.compile remap entry).encode.length
    = total (instrSizes entry.acctCnt.toNat entry.dataLen.toNat)
  := by
  have haccts : (b.compile remap entry).accounts.length = entry.acctCnt.toNat :=
    length_accounts_compile h.1
  have hdata : (b.compile remap entry).data.length = entry.dataLen.toNat := length_data_compile h.2
  rw [CompiledInstruction.encode, haccts, hdata]
  simp only [List.length_append, List.length_singleton, haccts, hdata, instrSizes, total_cons,
    total_nil, sliceSize, cu16Size]
  omega

theorem length_flatMap_compile (hentries : b.EntriesFit) (remap : Bytes) :
  ((b.instrs.map (b.compile remap)).flatMap CompiledInstruction.encode).length
    = total (b.instrLengths.flatMap fun instr => instrSizes instr.1 instr.2)
  := by
  rw [instrLengths]
  rw [EntriesFit] at hentries
  generalize b.instrs = entries at hentries
  induction entries with
  | nil => rfl
  | cons entry entries ih =>
    obtain ⟨hentry, hentries⟩ := List.forall_mem_cons.mp hentries
    simp only [List.map_cons, List.flatMap_cons, List.length_append, total_append,
      length_encode_compile remap hentry, ih hentries]

/-- The length on the wire is that of the writes. -/
theorem length_encode_wireOf (hb : Fits sys b) (hentries : b.EntriesFit) (fpIdx : Nat)
    (blockhash : Bytes32) :
  (b.wireOf sys (b.sorted fpIdx) blockhash).encode.length = total (b.sizes sys)
  := by
  have hsig := toNat_sigCount_headerOf hb fpIdx
  have hkeys : (keys (b.messageAccts (b.sorted fpIdx))).length = b.accts.length := by
    rw [(b.keys_messageAccts_perm fpIdx).length_eq, length_keys]
  have hbytes : ((keys (b.messageAccts (b.sorted fpIdx))).flatMap Pubkey.asBytes).length
      = b.accts.length * 32 := by
    rw [List.length_flatMap, List.map_congr_left (g := fun _ => 32)
      (fun key _ => key.length_asBytes), List.map_const', List.sum_replicate_nat, hkeys]
  have hinstrs := length_flatMap_compile hentries (remapOf sys (b.sorted fpIdx))
  have hcount : b.instrLengths.length = b.instrs.length := List.length_map _
  have hrows : total (List.replicate b.accts.length (sliceSize 32)) = b.accts.length * 32 := by
    simp [total, sliceSize]
  rw [sizes, sizesOf, WireTransaction.encode, WireTransaction.encodeMessage]
  simp only [total_append, total_cons, total_nil, hrows, hcount, ← hinstrs, wireOf]
  cases hv : b.version with
  | legacy =>
    simp only [hsig, List.length_replicate, List.flatten_replicate_replicate,
      WireTransaction.encodeBody, hkeys, List.length_map, encodeLookups, List.append_nil,
      List.cons_append, List.nil_append, List.length_append, List.length_cons, hbytes,
      Vector.length_toList, List.length_flatMap, List.map_map, cu16Size, sliceSize, Nat.add_zero,
      reduceCtorEq, if_false, total_nil, Nat.zero_add]
    omega
  | v0 =>
    simp only [hsig, List.length_replicate, List.flatten_replicate_replicate,
      WireTransaction.encodeBody, hkeys, List.length_map, encodeLookups, List.cons_append,
      List.nil_append, List.length_append, List.length_cons, hbytes, Vector.length_toList,
      List.length_flatMap, List.map_map, cu16Size, sliceSize, Nat.add_zero, if_true, total_cons,
      total_nil]
    omega

/-! ### Which transactions fit -/

/-- No write asks for more than three bytes beyond what it takes. -/
theorem room_le_of_mem_sizesOf {version : TransactionVersion} {signers accts : Nat}
    {instrs : List (Nat × Nat)} :
  ∀ size ∈ sizesOf sys version signers accts instrs, size.1 ≤ size.2 + 3
  := by
  have hcu16 (n : Nat) : (cu16Size n).1 ≤ (cu16Size n).2 + 3 := Nat.le_add_left _ _
  have hslice (n : Nat) : (sliceSize n).1 ≤ (sliceSize n).2 + 3 := Nat.le_add_right _ _
  have hinstr (instr : Nat × Nat) : ∀ size ∈ instrSizes instr.1 instr.2, size.1 ≤ size.2 + 3 := by
    simp only [instrSizes, List.forall_mem_cons]
    exact ⟨hslice _, hcu16 _, hslice _, hcu16 _, hslice _, List.forall_mem_nil _⟩
  have hinstrs : ∀ size ∈ instrs.flatMap fun instr => instrSizes instr.1 instr.2,
      size.1 ≤ size.2 + 3 := by
    intro size hsize
    obtain ⟨instr, -, hsize⟩ := List.mem_flatMap.mp hsize
    exact hinstr instr size hsize
  have hrows : ∀ size ∈ List.replicate accts (sliceSize 32), size.1 ≤ size.2 + 3 := by
    intro size hsize
    rw [List.eq_of_mem_replicate hsize]
    exact hslice 32
  simp only [sizesOf, List.forall_mem_append]
  refine ⟨?_, ?_, ?_, ?_, hrows, ?_, ?_, hinstrs, ?_⟩
  · exact List.forall_mem_cons.mpr ⟨hcu16 _, List.forall_mem_singleton.mpr (hslice _)⟩
  · split
    · exact List.forall_mem_singleton.mpr (hslice 1)
    · exact List.forall_mem_nil _
  · exact List.forall_mem_singleton.mpr (hslice 3)
  · exact List.forall_mem_singleton.mpr (hcu16 accts)
  · exact List.forall_mem_singleton.mpr (hslice 32)
  · exact List.forall_mem_singleton.mpr (hcu16 _)
  · split
    · exact List.forall_mem_singleton.mpr (hcu16 0)
    · exact List.forall_mem_nil _

/-- The last writes, from their compact-u16 on, decide whether all fit. -/
theorem fitsMtu_iff_tail {init tail : List (Nat × Nat)} {n : Nat}
    (h : b.sizes sys = init ++ cu16Size n :: tail) :
  b.FitsMtu sys ↔ Writer.Fits sys.mtu (total init) (cu16Size n :: tail)
  := by
  have hspare : ∀ size ∈ init, size.1 ≤ size.2 + 3 := by
    intro size hsize
    apply room_le_of_mem_sizesOf size
    change size ∈ b.sizes sys
    rw [h]
    apply List.mem_append_left _ hsize
  have htail : ∀ off, Writer.Fits sys.mtu off (cu16Size n :: tail) → off + 3 ≤ sys.mtu :=
    fun _ => And.left
  have hiff := fits_append_iff htail 0 hspare
  rw [FitsMtu, h, hiff, Nat.zero_add]

/-- The last writes of a legacy transaction are those of the data of its last instruction. -/
theorem suffix_sizesOf_legacy {signers accts acctCnt dataLen : Nat} {instrs : List (Nat × Nat)} :
  [cu16Size dataLen, sliceSize dataLen]
    <:+ sizesOf sys .legacy signers accts (instrs ++ [(acctCnt, dataLen)])
  := by
  rw [sizesOf, if_neg (by decide), if_neg (by decide), List.append_nil, List.flatMap_append]
  iterate 8 apply List.suffix_append_of_suffix
  exact ⟨[sliceSize 1, cu16Size acctCnt, sliceSize acctCnt], rfl⟩

/-- The last write of a transaction of version 0 is that of the number of its lookup tables. -/
theorem suffix_sizesOf_v0 {signers accts : Nat} {instrs : List (Nat × Nat)} :
  [cu16Size 0] <:+ sizesOf sys .v0 signers accts instrs
  := by
  rw [sizesOf, if_pos rfl, if_pos rfl]
  iterate 8 apply List.suffix_append_of_suffix
  apply List.suffix_rfl

/-- A transaction fits when it is within the limit on the wire, and by two bytes more than it has
after its last compact-u16. -/
theorem fitsMtu_iff (hinstrs : b.instrs ≠ []) :
  b.FitsMtu sys
    ↔ total (b.sizes sys) ≤ sys.mtu ∧ total (b.sizes sys) + 2 ≤ sys.mtu + b.lastData
  := by
  cases hv : b.version with
  | legacy =>
    obtain ⟨entries, entry, hentries⟩ := (List.eq_nil_or_concat b.instrs).resolve_left hinstrs
    rw [List.concat_eq_append] at hentries
    have hlast : b.lastData = entry.dataLen.toNat := by
      simp [lastData, hv, hentries]
    have hlengths : b.instrLengths = (entries.map fun entry =>
        (entry.acctCnt.toNat, entry.dataLen.toNat))
          ++ [(entry.acctCnt.toNat, entry.dataLen.toNat)] := by
      rw [instrLengths, hentries, List.map_append]
      rfl
    have hsuffix := @suffix_sizesOf_legacy sys (classCount b.accts 1) b.accts.length
      entry.acctCnt.toNat entry.dataLen.toNat (entries.map fun entry =>
        (entry.acctCnt.toNat, entry.dataLen.toNat))
    rw [← hlengths, ← hv] at hsuffix
    obtain ⟨init, hsizes⟩ := hsuffix
    have hlen := CompactU16.length_encode_pos entry.dataLen.toNat
    rw [fitsMtu_iff_tail hsizes.symm, sizes, ← hsizes, hlast]
    simp only [Writer.Fits, total_append, total_cons, total_nil, cu16Size, sliceSize, and_true]
    by_cases hshort : entry.dataLen.toNat < 0x80
    · rw [CompactU16.length_encode_of_lt hshort]
      omega
    · omega
  | v0 =>
    have hlast : b.lastData = 0 := by
      simp [lastData, hv]
    have hsuffix := @suffix_sizesOf_v0 sys (classCount b.accts 1) b.accts.length b.instrLengths
    rw [← hv] at hsuffix
    obtain ⟨init, hsizes⟩ := hsuffix
    rw [fitsMtu_iff_tail hsizes.symm, sizes, ← hsizes, hlast]
    simp only [Writer.Fits, total_append, total_cons, total_nil, cu16Size, and_true,
      CompactU16.length_encode_of_lt (show 0 < 0x80 by decide)]
    omega

/-! ### The limit -/

section Limit

variable (h : Reachable sys b) {feePayer : Pubkey} {blockhash : Bytes32}
  (hfp : b.feePayer = some feePayer) (hbh : b.blockhash = some blockhash) (hinstrs : b.instrs ≠ [])
  (hpos : 1 ≤ b.signerCount) (hsigs : b.signerCount ≤ sys.sigMax)

include h hfp hbh hinstrs hpos hsigs

/-- A builder with a fee payer, a blockhash, an instruction and as many signers as are allowed
writes a transaction that fits, and the parser decides. -/
theorem build_eq_of_signers :
  ∃ fpIdx, b.findAccount feePayer = some fpIdx ∧ b.build sys
    = if b.FitsMtu sys then
        if sys.txnParseCore (b.wireOf sys (b.sorted fpIdx) blockhash).encode = 0 then
          .error .validationFailed
        else
          .ok (b.transaction sys (b.sorted fpIdx) blockhash)
      else
        .error .transactionTooLarge
  := by
  obtain ⟨fpIdx, hidx⟩ := indexOf_isSome_iff.mpr (h.fits.feePayer feePayer hfp)
  have hfind : b.findAccount feePayer = some fpIdx := hidx
  have hbuild : b.build sys = b.serialize sys (b.sorted fpIdx) blockhash := by
    have hlen : ¬b.instrs.length = 0 := by rwa [List.length_eq_zero_iff]
    rw [build, hfp, hbh]
    dsimp only
    rw [if_neg hlen, hfind]
  have hcount := b.classCount_one
  use fpIdx, hfind
  rw [hbuild, serialize_eq h.fits h.indexed.entries (by omega), if_neg (by omega)]

/-- What `build` returns for such a builder. -/
theorem build_limit :
  b.wireLength sys = total (b.sizes sys)
    ∧ (b.build sys = .error .transactionTooLarge ↔ ¬b.FitsMtu sys)
    ∧ ∀ tx, b.build sys = .ok tx → b.FitsMtu sys ∧ tx.asBytes.length = total (b.sizes sys)
  := by
  obtain ⟨fpIdx, hfind, hbuild⟩ := build_eq_of_signers h hfp hbh hinstrs hpos hsigs
  have hlength := length_encode_wireOf h.fits h.indexed.entries fpIdx blockhash
  rw [hbuild]
  constructor
  · rw [wireLength, wire, hfp, hbh]
    simp [hfind, hlength]
  · by_cases hfits : b.FitsMtu sys
    · rw [if_pos hfits]
      split
      · simp [hfits]
      · constructor
        · simp [hfits]
        · rintro tx ⟨⟩
          exact ⟨hfits, hlength⟩
    · simp [hfits]

/-- The length of what fits, if the parser accepts what has this length. -/
theorem length_build (hfits : b.FitsMtu sys)
    (haccepts : ∀ bytes : Bytes, bytes.length = total (b.sizes sys) → sys.txnParseCore bytes ≠ 0) :
  (b.build sys).map (fun tx => tx.asBytes.length) = .ok (total (b.sizes sys))
  := by
  obtain ⟨fpIdx, -, hbuild⟩ := build_eq_of_signers h hfp hbh hinstrs hpos hsigs
  have hlength := length_encode_wireOf h.fits h.indexed.entries fpIdx blockhash
  rw [hbuild, if_pos hfits, if_neg (haccepts _ hlength), ← hlength]
  rfl

end Limit

/-- The limit is exact when the transaction is longer than it, or shorter by two bytes more than
there are after the last compact-u16 of the transaction. -/
theorem exactLimit_iff (h : Reachable sys b) (hfp : b.feePayer.isSome) (hbh : b.blockhash.isSome)
    (hinstrs : b.instrs ≠ []) (hpos : 1 ≤ b.signerCount) (hsigs : b.signerCount ≤ sys.sigMax) :
  b.ExactLimit sys
    ↔ sys.mtu < b.wireLength sys ∨ b.wireLength sys + 2 ≤ sys.mtu + b.lastData
  := by
  obtain ⟨feePayer, hfp⟩ := Option.isSome_iff_exists.mp hfp
  obtain ⟨blockhash, hbh⟩ := Option.isSome_iff_exists.mp hbh
  obtain ⟨hlength, htooLarge, hok⟩ := build_limit h hfp hbh hinstrs hpos hsigs
  have hfits := @fitsMtu_iff sys b hinstrs
  rw [ExactLimit, htooLarge, hfits, hlength]
  constructor
  · rintro ⟨hiff, -⟩
    omega
  · intro hcond
    constructor
    · omega
    · intro tx htx
      obtain ⟨hwithin, hbytes⟩ := hok tx htx
      rw [hbytes]
      apply (hfits.mp hwithin).1

end TransactionBuilder

open TransactionBuilder

/-! ### Transactions at the limit -/

/-- Calls for version 0, a fee payer and a blockhash. -/
def payerCalls : List Call :=
  [.version .v0, .feePayer (keyOf 1), .recentBlockhash (Vector.replicate 32 9)]

/-- The builder that these calls make. -/
def payerBuilder : TransactionBuilder where
  accts := [⟨keyOf 1, 3⟩]
  instrs := []
  instrAcctBuf := []
  instrDataBuf := []
  feePayer := some (keyOf 1)
  blockhash := some (Vector.replicate 32 9)
  version := .v0

/-- The builder with one instruction, with as many bytes of data. -/
def dataBuilder (n : Nat) : TransactionBuilder :=
  { payerBuilder with
    accts := [⟨keyOf 1, 3⟩, ⟨keyOf 2, 0⟩]
    instrs := [⟨1, 0, 0, 0, UInt16.ofNat n⟩]
    instrDataBuf := List.replicate n 0 }

theorem dataBuilder_reachable {n : Nat} (h : n ≤ 1232) :
  Reachable .accepting (dataBuilder n)
  := by
  have hlen : (List.replicate n (0 : UInt8)).length = n := List.length_replicate
  have hadd : addInstruction .accepting payerBuilder ⟨keyOf 2, [], List.replicate n 0⟩
      = (.ok (), dataBuilder n) := by
    change (if 0 + (List.replicate n (0 : UInt8)).length > 1232 then _ else _) = _
    rw [if_neg (by omega), hlen]
    rfl
  have hrun : Call.run .accepting payerBuilder (.addInstruction ⟨keyOf 2, [], List.replicate n 0⟩)
      = (.ok, dataBuilder n) := by
    rw [Call.run, hadd]
    rfl
  apply ((Built.new.runAll payerCalls rfl).call hrun).reachable

theorem length_dataBuilder {n : Nat} (h : n ≤ 1232) :
  (dataBuilder n).wireLength .accepting = total ((dataBuilder n).sizes .accepting)
  := (build_limit (dataBuilder_reachable h) rfl rfl (List.cons_ne_nil _ _) (Nat.le_refl 1)
    (show 1 ≤ 127 by decide)).1

theorem exactLimit_iff_data :
  (dataBuilder 1058).ExactLimit .accepting
  := by
  have hreachable := dataBuilder_reachable (n := 1058) (by decide)
  apply (exactLimit_iff hreachable rfl rfl (by decide) (by decide) (by decide)).mpr
  right
  rw [length_dataBuilder (by decide)]
  decide

/-- A transaction of 1231 bytes is refused. -/
theorem not_exactLimit :
  Reachable .accepting (dataBuilder 1059)
    ∧ ¬(dataBuilder 1059).ExactLimit .accepting
  := by
  have hreachable := dataBuilder_reachable (n := 1059) (by decide)
  use hreachable
  rintro ⟨hiff, -⟩
  obtain ⟨-, htooLarge, -⟩ := build_limit hreachable rfl rfl (by decide) (by decide) (by decide)
  have hlong := hiff.mp (htooLarge.mpr (by decide))
  rw [length_dataBuilder (by decide)] at hlong
  revert hlong
  decide

end FdTxn

import FiredancerRs.Lib.Writer
import FiredancerRs.Txn.Privileges

/-!
# What `build` returns

`build` on a builder that is otherwise complete, in closed form (`build_eq`): it fails when
there are too many signers, when a write does not fit (`FitsMtu`), or when the parser rejects
the transaction, and it returns `transaction` otherwise. Whether the writes fit depends only
on the version, on the numbers of signers and accounts, and on the sizes of the instructions.
-/

open FdEd25519 Writer

namespace FdTxn

variable {sys : Sys}

/-! ### Related lists -/

theorem exists_mem_of_forall₂ {α β : Type} {r : α → β → Prop} {l : List α} {l' : List β}
    (h : List.Forall₂ r l l') :
  ∀ a ∈ l, ∃ b ∈ l', r a b
  := by
  induction h with
  | nil => simp
  | @cons a b l l' hab _ ih =>
    intro a' ha'
    rcases List.mem_cons.mp ha' with rfl | ha'
    · exact ⟨b, List.mem_cons_self, hab⟩
    · obtain ⟨b', hb', hr⟩ := ih a' ha'
      exact ⟨b', List.mem_cons_of_mem b hb', hr⟩

/-- Related lists agree on whether they have an element that satisfies related predicates. -/
theorem exists_mem_iff_of_forall₂ {α β : Type} {r : α → β → Prop} {p : α → Prop} {q : β → Prop}
    (hpq : ∀ a b, r a b → (p a ↔ q b)) {l : List α} {l' : List β} (h : List.Forall₂ r l l') :
  (∃ a ∈ l, p a) ↔ ∃ b ∈ l', q b
  := by
  induction h with
  | nil => simp
  | cons hab _ ih => simp only [List.exists_mem_cons_iff, hpq _ _ hab, ih]

/-! ### The writes of `build` -/

/-- `write_cu16`, as a write. -/
def cu16Write (sys : Sys) (val : UInt16) : Write UInt8 where
  room := 3
  data := sys.cu16Enc val
  length_le := by
    rw [sys.cu16Enc_eq]
    apply CompactU16.length_encode_le

theorem writeCu16_eq_run (buf : Bytes) (val : UInt16) :
  writeCu16 sys buf val = run sys.mtu .transactionTooLarge [cu16Write sys val] buf
  := by
  rw [run_singleton]
  rfl

theorem writeSlice_eq_run (buf data : Bytes) :
  writeSlice sys buf data = run sys.mtu .transactionTooLarge [.slice data] buf
  := by
  rw [run_singleton]
  rfl

namespace TransactionBuilder

variable (sys : Sys)

/-- The writes of `build` for one instruction. -/
def instrWrites (b : TransactionBuilder) (remap : Bytes) (entry : InstrEntry) :
    List (Write UInt8) :=
  [.slice [remap.getD entry.programIdx.toNat 0], cu16Write sys entry.acctCnt,
   .slice (((b.instrAcctBuf.drop entry.acctOff.toNat).take entry.acctCnt.toNat).map
     fun i => remap.getD i.toNat 0),
   cu16Write sys entry.dataLen,
   .slice ((b.instrDataBuf.drop entry.dataOff.toNat).take entry.dataLen.toNat)]

/-- The writes of `build` for the signatures. -/
def sigWrites (header : Header) : List (Write UInt8) :=
  [cu16Write sys header.sigCount.toUInt16,
   .slice (List.replicate (header.sigCount.toNat * sys.signatureSz) 0)]

/-- The writes of `build` for the version byte. -/
def versionWrites (version : TransactionVersion) : List (Write UInt8) :=
  if version = .v0 then [.slice [0x80]] else []

/-- The writes of `build` for the empty list of lookup tables. -/
def lookupWrites (version : TransactionVersion) : List (Write UInt8) :=
  if version = .v0 then [cu16Write sys 0] else []

/-- The writes of `build` for the message. -/
def messageWrites (b : TransactionBuilder) (sorted : List Nat) (header : Header)
    (blockhash : Bytes32) : List (Write UInt8) :=
  versionWrites b.version
    ++ ([.slice [header.sigCount, header.readonlySigned, header.readonlyUnsigned]]
    ++ ([cu16Write sys (UInt16.ofNat b.accts.length)]
    ++ (sorted.flatMap (fun i => [.slice (b.keyAt i)])
    ++ ([.slice blockhash.toList]
    ++ ([cu16Write sys (UInt16.ofNat b.instrs.length)]
    ++ (b.instrs.flatMap (b.instrWrites sys (remapOf sys sorted))
    ++ lookupWrites sys b.version))))))

variable {sys}

theorem writeSigs_eq_run (header : Header) :
  writeSigs sys header = run sys.mtu .transactionTooLarge (sigWrites sys header) []
  := by
  rw [sigWrites, ← List.singleton_append, run_append]
  rfl

theorem writeInstr_eq_run (b : TransactionBuilder) (remap : Bytes) :
  b.writeInstr sys remap
    = fun buf entry => run sys.mtu .transactionTooLarge (b.instrWrites sys remap entry) buf
  := by
  funext buf entry
  simp only [writeInstr, instrWrites, writeCu16_eq_run, writeSlice_eq_run, ← run_append,
    List.singleton_append]

theorem writeVersion_eq_run (version : TransactionVersion) (buf : Bytes) :
  writeVersion sys version buf
    = run sys.mtu .transactionTooLarge (versionWrites version) buf
  := by
  cases version <;> rfl

theorem writeLookups_eq_run (version : TransactionVersion) (buf : Bytes) :
  writeLookups sys version buf
    = run sys.mtu .transactionTooLarge (lookupWrites sys version) buf
  := by
  cases version <;> rfl

theorem writeMessage_eq_run (b : TransactionBuilder) (sorted : List Nat) (header : Header)
    (blockhash : Bytes32) (buf : Bytes) :
  b.writeMessage sys sorted header blockhash buf
    = run sys.mtu .transactionTooLarge (b.messageWrites sys sorted header blockhash) buf
  := by
  simp only [writeMessage, messageWrites, writeVersion_eq_run, writeCu16_eq_run,
    writeSlice_eq_run, writeLookups_eq_run, writeInstr_eq_run, foldlM_run, run_append]

/-! ### The sizes of the writes -/

/-- The size of the write of a compact-u16. -/
def cu16Size (n : Nat) : Nat × Nat := (3, (CompactU16.encode n).length)

/-- The size of a slice. -/
def sliceSize (n : Nat) : Nat × Nat := (n, n)

/-- The sizes of the writes for an instruction with so many accounts and bytes of data. -/
def instrSizes (accounts data : Nat) : List (Nat × Nat) :=
  [sliceSize 1, cu16Size accounts, sliceSize accounts, cu16Size data, sliceSize data]

/-- The sizes of the writes for a transaction with so many signers and accounts, and with
instructions with so many accounts and bytes of data. -/
def sizesOf (sys : Sys) (version : TransactionVersion) (signers accts : Nat)
    (instrs : List (Nat × Nat)) : List (Nat × Nat) :=
  [cu16Size signers, sliceSize (signers * sys.signatureSz)]
    ++ ((if version = .v0 then [sliceSize 1] else [])
    ++ ([sliceSize 3]
    ++ ([cu16Size accts]
    ++ (List.replicate accts (sliceSize 32)
    ++ ([sliceSize 32]
    ++ ([cu16Size instrs.length]
    ++ (instrs.flatMap (fun instr => instrSizes instr.1 instr.2)
    ++ if version = .v0 then [cu16Size 0] else [])))))))

/-- The numbers of accounts and of bytes of data of the instructions of a builder. -/
def instrLengths (b : TransactionBuilder) : List (Nat × Nat) :=
  b.instrs.map fun entry => (entry.acctCnt.toNat, entry.dataLen.toNat)

/-- The sizes of the writes of `build`. -/
def sizes (sys : Sys) (b : TransactionBuilder) : List (Nat × Nat) :=
  sizesOf sys b.version (classCount b.accts 1) b.accts.length b.instrLengths

/-- The writes of `build` fit the MTU. -/
def FitsMtu (sys : Sys) (b : TransactionBuilder) : Prop := Writer.Fits sys.mtu 0 (b.sizes sys)

instance (sys : Sys) (b : TransactionBuilder) : Decidable (b.FitsMtu sys) :=
  inferInstanceAs (Decidable (Writer.Fits _ _ _))

/-- The keys of a message that fits are within the limit. -/
theorem FitsMtu.length_le {b : TransactionBuilder} (h : b.FitsMtu sys) :
  b.accts.length * 32 ≤ sys.mtu
  := by
  let ws : List (Write UInt8) := List.replicate b.accts.length (.slice (List.replicate 32 0))
  have hsizes : ws.map Write.size = List.replicate b.accts.length (sliceSize 32) :=
    List.map_replicate
  have hsub : (ws.map Write.size).Sublist (b.sizes sys) := by
    rw [hsizes, sizes, sizesOf]
    iterate 4 apply List.sublist_append_of_sublist_right
    apply List.sublist_append_left
  have hle := Writer.Fits.length_le (Nat.zero_le sys.mtu) (h.sublist hsub)
  have hdata : (ws.flatMap Write.data).length = b.accts.length * 32 := by
    simp [ws, Write.slice]
  omega

theorem size_cu16Write (val : UInt16) :
  (cu16Write sys val).size = cu16Size val.toNat
  := by
  change (3, (sys.cu16Enc val).length) = _
  rw [sys.cu16Enc_eq]
  rfl

theorem size_slice (data : Bytes) :
  (Write.slice data).size = sliceSize data.length
  := rfl

theorem map_size_instrWrites {b : TransactionBuilder} {entry : InstrEntry}
    (hacct : entry.acctOff.toNat + entry.acctCnt.toNat ≤ b.instrAcctBuf.length)
    (hdata : entry.dataOff.toNat + entry.dataLen.toNat ≤ b.instrDataBuf.length) (remap : Bytes) :
  (b.instrWrites sys remap entry).map Write.size
    = instrSizes entry.acctCnt.toNat entry.dataLen.toNat
  := by
  have haccts : (b.compile remap entry).accounts.length = entry.acctCnt.toNat :=
    length_accounts_compile hacct
  have hlen : (b.compile remap entry).data.length = entry.dataLen.toNat :=
    length_data_compile hdata
  rw [compile] at haccts hlen
  dsimp only at haccts hlen
  simp only [instrWrites, List.map_cons, List.map_nil, size_cu16Write, size_slice, haccts, hlen,
    instrSizes, List.length_singleton]

/-- The number of signers, as the header counts them. -/
theorem toNat_sigCount_headerOf {b : TransactionBuilder} (hb : Fits sys b) (fpIdx : Nat) :
  (b.headerOf (b.sorted fpIdx)).sigCount.toNat = classCount b.accts 1
  := by
  obtain ⟨hsig, -, -⟩ := headerOf_counts hb fpIdx
  rw [hsig]
  apply (b.messageAccts_perm fpIdx).countP_eq

theorem map_size_writes {b : TransactionBuilder} (hb : Fits sys b) (hentries : b.EntriesFit)
    (fpIdx : Nat) (blockhash : Bytes32) :
  (sigWrites sys (b.headerOf (b.sorted fpIdx))
      ++ b.messageWrites sys (b.sorted fpIdx) (b.headerOf (b.sorted fpIdx)) blockhash).map
        Write.size
    = b.sizes sys
  := by
  have hsig := toNat_sigCount_headerOf hb fpIdx
  have hversion : (versionWrites b.version).map Write.size
      = if b.version = .v0 then [sliceSize 1] else [] := by
    cases b.version <;> rfl
  have hlookups : (lookupWrites sys b.version).map Write.size
      = if b.version = .v0 then [cu16Size 0] else [] := by
    rw [lookupWrites]
    split
    · rw [List.map_singleton, size_cu16Write]
      rfl
    · rfl
  have haccts : (UInt16.ofNat b.accts.length).toNat = b.accts.length := by
    rw [UInt16.toNat_ofNat']
    apply Nat.mod_eq_of_lt
    have := hb.accts
    have := sys.acctAddrMax_eq
    have := sys.sigMax_lt
    omega
  have hinstrs : (UInt16.ofNat b.instrs.length).toNat = b.instrs.length := by
    rw [UInt16.toNat_ofNat']
    apply Nat.mod_eq_of_lt
    have := hb.instrs
    have := sys.instrMax_lt
    omega
  have hcount : b.instrLengths.length = b.instrs.length := List.length_map _
  have hkeys : ((b.sorted fpIdx).flatMap fun i => [Write.slice (b.keyAt i)]).map Write.size
      = List.replicate b.accts.length (sliceSize 32) := by
    have hlen : (b.sorted fpIdx).length = b.accts.length := by
      simpa using (b.sorted_perm fpIdx).length_eq
    have hsize : ∀ i ∈ b.sorted fpIdx,
        [Write.slice (b.keyAt i)].map Write.size = [sliceSize 32] := by
      intro i hi
      have hrow := List.getElem?_eq_getElem (mem_sorted.mp hi)
      rw [List.map_singleton, size_slice, keyAt_of_getElem? hrow]
      simp [Pubkey.asBytes]
    rw [List.map_flatMap, List.flatMap_congr hsize, ← hlen, ← List.map_const',
      List.map_eq_flatMap]
  have hloop : (b.instrs.flatMap (b.instrWrites sys (remapOf sys (b.sorted fpIdx)))).map
        Write.size
      = b.instrLengths.flatMap fun instr => instrSizes instr.1 instr.2 := by
    rw [List.map_flatMap, instrLengths, List.flatMap_map]
    apply List.flatMap_congr
    intro entry hentry
    apply map_size_instrWrites (hentries entry hentry).1 (hentries entry hentry).2
  simp only [sigWrites, messageWrites, List.map_append, List.map_cons, List.map_nil, hversion,
    hlookups, hkeys, hloop, size_cu16Write, size_slice, haccts, hinstrs, UInt8.toNat_toUInt16,
    hsig, List.length_replicate, Vector.length_toList, sizes, sizesOf, hcount,
    List.length_cons, List.length_nil]

/-! ### The closed form -/

/-- The transaction `build` returns when it succeeds. -/
def transaction (sys : Sys) (b : TransactionBuilder) (sorted : List Nat) (blockhash : Bytes32) :
    UnsignedTransaction where
  buf := (b.wireOf sys sorted blockhash).encode
  sigCount := (b.headerOf sorted).sigCount
  sigOff := (sys.cu16Enc (b.headerOf sorted).sigCount.toUInt16).length
  messageOff := (sys.cu16Enc (b.headerOf sorted).sigCount.toUInt16).length
    + (b.headerOf sorted).sigCount.toNat * sys.signatureSz

theorem writeSigs_ok {header : Header} {sigs : Bytes} (h : writeSigs sys header = .ok sigs) :
  sigs = CompactU16.encode header.sigCount.toUInt16.toNat
    ++ List.replicate (header.sigCount.toNat * sys.signatureSz) 0
  := by
  simp only [writeSigs, Except.bind_eq_ok_iff, writeSlice_eq_ok_iff, writeCu16_eq_ok_iff] at h
  obtain ⟨_, ⟨-, rfl⟩, -, rfl⟩ := h
  rfl

/-- The signatures and the message are written exactly when they fit. -/
theorem writes_eq {b : TransactionBuilder} (hb : Fits sys b) (hentries : b.EntriesFit)
    (fpIdx : Nat) (blockhash : Bytes32) :
  (writeSigs sys (b.headerOf (b.sorted fpIdx)) >>= fun sigs =>
      b.writeMessage sys (b.sorted fpIdx) (b.headerOf (b.sorted fpIdx)) blockhash sigs)
    = if b.FitsMtu sys then
        .ok ((sigWrites sys (b.headerOf (b.sorted fpIdx)) ++ b.messageWrites sys (b.sorted fpIdx)
          (b.headerOf (b.sorted fpIdx)) blockhash).flatMap Write.data)
      else
        .error .transactionTooLarge
  := by
  let ws := sigWrites sys (b.headerOf (b.sorted fpIdx))
    ++ b.messageWrites sys (b.sorted fpIdx) (b.headerOf (b.sorted fpIdx)) blockhash
  have hrun : run sys.mtu BuildError.transactionTooLarge ws [] = _ := run_eq ws []
  have hfitsMtu : Writer.Fits sys.mtu 0 (b.sizes sys) ↔ b.FitsMtu sys := Iff.rfl
  rw [map_size_writes hb hentries, run_append, ← writeSigs_eq_run] at hrun
  simp only [← writeMessage_eq_run, List.length_nil, hfitsMtu, List.nil_append] at hrun
  apply hrun

/-- What is written is the transaction `wireOf`. -/
theorem flatMap_data_writes {b : TransactionBuilder} (hb : Fits sys b) (hentries : b.EntriesFit)
    (hfits : b.FitsMtu sys) (fpIdx : Nat) (blockhash : Bytes32) :
  (sigWrites sys (b.headerOf (b.sorted fpIdx)) ++ b.messageWrites sys (b.sorted fpIdx)
      (b.headerOf (b.sorted fpIdx)) blockhash).flatMap Write.data
    = (b.wireOf sys (b.sorted fpIdx) blockhash).encode
  := by
  have hwrites := writes_eq hb hentries fpIdx blockhash
  rw [if_pos hfits] at hwrites
  obtain ⟨sigs, hsigs, hmsg⟩ := Except.bind_eq_ok_iff.mp hwrites
  rw [writeMessage_ok hb hentries hmsg, writeSigs_ok hsigs, WireTransaction.encode]
  simp [wireOf, List.flatten_replicate_replicate]

theorem length_encode_wireOf_le {b : TransactionBuilder} (hb : Fits sys b)
    (hentries : b.EntriesFit) (hfits : b.FitsMtu sys) (fpIdx : Nat) (blockhash : Bytes32) :
  (b.wireOf sys (b.sorted fpIdx) blockhash).encode.length ≤ sys.mtu
  := by
  have hle : 0 + ((sigWrites sys (b.headerOf (b.sorted fpIdx)) ++ b.messageWrites sys
      (b.sorted fpIdx) (b.headerOf (b.sorted fpIdx)) blockhash).flatMap Write.data).length
        ≤ sys.mtu := by
    apply Writer.Fits.length_le (Nat.zero_le _)
    rw [map_size_writes hb hentries]
    apply hfits
  rwa [flatMap_data_writes hb hentries hfits, Nat.zero_add] at hle

theorem serialize_eq {b : TransactionBuilder} (hb : Fits sys b) (hentries : b.EntriesFit)
    (hpos : classCount b.accts 1 ≠ 0) (fpIdx : Nat) (blockhash : Bytes32) :
  b.serialize sys (b.sorted fpIdx) blockhash
    = if sys.sigMax < classCount b.accts 1 then .error .tooManySigners
      else if b.FitsMtu sys then
        if sys.txnParseCore (b.wireOf sys (b.sorted fpIdx) blockhash).encode = 0 then
          .error .validationFailed
        else
          .ok (b.transaction sys (b.sorted fpIdx) blockhash)
      else
        .error .transactionTooLarge
  := by
  have hsig := toNat_sigCount_headerOf hb fpIdx
  have hzero : (b.headerOf (b.sorted fpIdx)).sigCount ≠ 0 := by
    intro hzero
    rw [hzero] at hsig
    apply hpos hsig.symm
  have hmany : ((b.headerOf (b.sorted fpIdx)).sigCount = 0
      ∨ (b.headerOf (b.sorted fpIdx)).sigCount.toNat > sys.sigMax)
        ↔ sys.sigMax < classCount b.accts 1 := by
    rw [or_iff_right hzero, hsig]
  have hwrites := writes_eq hb hentries fpIdx blockhash
  rw [serialize]
  simp only [hmany]
  congr 1
  by_cases hfits : b.FitsMtu sys
  · rw [if_pos hfits, flatMap_data_writes hb hentries hfits] at hwrites
    rw [if_pos hfits]
    obtain ⟨sigs, hsigs, hmsg⟩ := Except.bind_eq_ok_iff.mp hwrites
    have hlen : sigs.length = (sys.cu16Enc (b.headerOf (b.sorted fpIdx)).sigCount.toUInt16).length
        + (b.headerOf (b.sorted fpIdx)).sigCount.toNat * sys.signatureSz := by
      rw [writeSigs_ok hsigs, List.length_append, List.length_replicate, sys.cu16Enc_eq]
    rw [hsigs]
    change (b.writeMessage sys _ _ blockhash sigs >>= _) = _
    rw [hmsg]
    change (validate sys _ >>= _) = _
    rw [validate]
    split
    · rfl
    · rw [hlen]
      rfl
  · rw [if_neg hfits] at hwrites ⊢
    rcases Except.bind_eq_error_iff.mp hwrites with hsigs | ⟨sigs, hsigs, hmsg⟩
    · rw [hsigs]
      rfl
    · rw [hsigs]
      change (b.writeMessage sys _ _ blockhash sigs >>= _) = _
      rw [hmsg]
      rfl

end TransactionBuilder

/-! ### What the parser accepts -/

/-- What the parser checks of a transaction, but for the position of the programs: the counts
are within their limits, the first account is a writable signer, the privilege classes are
accounts, every index is that of an account, and the bytes fit the MTU. -/
structure WireTransaction.WellFormed (sys : Sys) (tx : WireTransaction) : Prop where
  encodable : tx.Encodable
  signatures : tx.signatures.length = tx.header.sigCount.toNat
  signature : ∀ sig ∈ tx.signatures, sig.length = sys.signatureSz
  sigCount : tx.header.sigCount.toNat ≤ sys.sigMax
  payer : tx.header.readonlySigned.toNat < tx.header.sigCount.toNat
  classes : tx.header.sigCount.toNat + tx.header.readonlyUnsigned.toNat ≤ tx.keys.length
  keys : tx.keys.length ≤ sys.acctAddrMax
  instructions : tx.instructions.length ≤ sys.instrMax
  indices : ∀ ix ∈ tx.instructions, (tx.resolve ix).isSome
  bytes : tx.encode.length ≤ sys.mtu

/-- `fd_txn_parse_core` rejects a well-formed transaction exactly when the fee payer is the
program of an instruction. -/
def Sys.ParsesWellFormed (sys : Sys) : Prop :=
  ∀ tx : WireTransaction, tx.WellFormed sys →
    (sys.txnParseCore tx.encode = 0 ↔ ∃ ix ∈ tx.instructions, ix.programIdx = 0)

namespace TransactionBuilder

section Finished

variable {added : List InstructionBuf} {b : TransactionBuilder} {feePayer : Pubkey} {fpIdx : Nat}

/-- The fee payer is a signer. -/
theorem classCount_ne_zero (h : Kept sys added b) (hfp : b.feePayer = some feePayer)
    (hidx : indexOf b.accts feePayer = some fpIdx) (c : Nat) :
  classCount b.accts c ≠ 0
  := by
  intro hzero
  have hlt := indexOf_lt hidx
  have hclass := acctSortKey_feePayer h hfp hidx
  rw [flagsAt_of_getElem? (List.getElem?_eq_getElem hlt)] at hclass
  apply List.countP_eq_zero.mp hzero b.accts[fpIdx] (List.getElem_mem hlt)
  simp [hclass]

/-- The first key of the message is the fee payer. -/
theorem getElem?_keys_wireOf_zero (hidx : indexOf b.accts feePayer = some fpIdx)
    (blockhash : Bytes32) :
  (b.wireOf sys (b.sorted fpIdx) blockhash).keys[0]? = some feePayer
  := by
  rw [wireOf, keys, List.getElem?_map, messageAccts_head (indexOf_lt hidx), ← List.getElem?_map]
  apply getElem?_keys_of_indexOf hidx

theorem nodup_keys_wireOf (hb : Fits sys b) (fpIdx : Nat) (blockhash : Bytes32) :
  (b.wireOf sys (b.sorted fpIdx) blockhash).keys.Nodup
  := (b.keys_messageAccts_perm fpIdx).nodup_iff.mpr hb.nodup

theorem wellFormed_wireOf (h : Kept sys added b) (hfp : b.feePayer = some feePayer)
    (hidx : indexOf b.accts feePayer = some fpIdx)
    (hsigs : classCount b.accts 1 ≤ sys.sigMax) (hfits : b.FitsMtu sys) (blockhash : Bytes32) :
  (b.wireOf sys (b.sorted fpIdx) blockhash).WellFormed sys
  := by
  have hentries := h.entriesFit
  have hsig := toNat_sigCount_headerOf h.fits fpIdx
  have hperm := b.messageAccts_perm fpIdx
  obtain ⟨-, hro, hunsigned⟩ := headerOf_counts h.fits fpIdx
  have hcount (c : Nat) :
      classCount (b.messageAccts (b.sorted fpIdx)) c = classCount b.accts c :=
    hperm.countP_eq _
  have hkeys : (b.wireOf sys (b.sorted fpIdx) blockhash).keys.length = b.accts.length := by
    rw [wireOf, length_keys, hperm.length_eq]
  rw [hcount, hcount] at hro
  rw [hcount, hperm.length_eq] at hunsigned
  have hpayer := classCount_ne_zero h hfp hidx 0
  constructor
  case encodable => apply encodable_wireOf h.fits hentries
  case signatures => apply List.length_replicate
  case signature =>
    intro sig hmem
    rw [List.eq_of_mem_replicate hmem, List.length_replicate]
  case sigCount =>
    change (b.headerOf (b.sorted fpIdx)).sigCount.toNat ≤ _
    rwa [hsig]
  case payer =>
    change (b.headerOf (b.sorted fpIdx)).readonlySigned.toNat
      < (b.headerOf (b.sorted fpIdx)).sigCount.toNat
    omega
  case classes =>
    have hmono : classCount b.accts 1 ≤ classCount b.accts 2 := by
      apply List.countP_mono_left
      intro acct _ hacct
      simp only [decide_eq_true_eq] at hacct ⊢
      omega
    rw [hkeys]
    change (b.headerOf (b.sorted fpIdx)).sigCount.toNat
      + (b.headerOf (b.sorted fpIdx)).readonlyUnsigned.toNat ≤ _
    omega
  case keys =>
    rw [hkeys]
    apply h.fits.accts
  case instructions =>
    rw [wireOf, List.length_map]
    apply h.fits.instrs
  case indices =>
    intro ix hix
    obtain ⟨entry, hentry, rfl⟩ := List.mem_map.mp hix
    obtain ⟨added, -, hloc⟩ := exists_mem_of_forall₂ h.entries entry hentry
    rw [resolve_compile h.fits hloc]
    rfl
  case bytes => apply length_encode_wireOf_le h.fits hentries hfits

/-- An instruction of the message has the fee payer as its program exactly when its program
index is zero. -/
theorem programIdx_eq_zero_iff (hb : Fits sys b) (hidx : indexOf b.accts feePayer = some fpIdx)
    {entry : InstrEntry} {ix : InstructionBuf}
    (hloc : Locates (keys b.accts) b.instrAcctBuf b.instrDataBuf entry ix) :
  (b.compile (remapOf sys (b.sorted fpIdx)) entry).programIdx = 0 ↔ feePayer = ix.programId
  := by
  let blockhash : Bytes32 := Vector.replicate 32 0
  have hprogram : (b.wireOf sys (b.sorted fpIdx) blockhash).keys[
      ((remapOf sys (b.sorted fpIdx)).getD entry.programIdx.toNat 0).toNat]?
        = some ix.programId := getElem?_keys_wireOf hb hloc.program
  have hhead : (b.wireOf sys (b.sorted fpIdx) blockhash).keys[0]? = some feePayer :=
    getElem?_keys_wireOf_zero hidx blockhash
  constructor
  · intro hzero
    rw [compile] at hzero
    dsimp only at hzero
    rw [hzero] at hprogram
    apply Option.some.inj (hhead.symm.trans hprogram)
  · rintro rfl
    obtain ⟨hlt, -⟩ := List.getElem?_eq_some_iff.mp hprogram
    apply UInt8.toNat_inj.mp
    apply (List.getElem?_inj hlt (nodup_keys_wireOf hb fpIdx blockhash)).mp
    rw [hprogram]
    apply hhead.symm

end Finished

end TransactionBuilder

open TransactionBuilder

/-- An instruction of the builder has the fee payer as its program. -/
def InvokesFeePayer (b : TransactionBuilder) : Prop :=
  ∃ entry ∈ b.instrs, ∃ key ∈ b.feePayer, (keys b.accts)[entry.programIdx.toNat]? = some key

instance (b : TransactionBuilder) : Decidable (InvokesFeePayer b) :=
  inferInstanceAs (Decidable (∃ entry ∈ _, ∃ key ∈ _, _))

/-- The program of an instruction is the one it was added with. -/
theorem Kept.invokesFeePayer_iff {added : List InstructionBuf} {b : TransactionBuilder}
    (h : Kept sys added b) :
  InvokesFeePayer b ↔ ∃ ix ∈ added, b.feePayer = some ix.programId
  := by
  apply exists_mem_iff_of_forall₂ _ h.entries
  intro entry ix hloc
  rw [hloc.program]
  constructor
  · rintro ⟨key, hkey, heq⟩
    rw [heq]
    apply hkey
  · intro hfp
    exact ⟨ix.programId, hfp, rfl⟩

theorem build_of_noBlockhash {b : TransactionBuilder} {feePayer : Pubkey}
    (hfp : b.feePayer = some feePayer) (hbh : b.blockhash = none) :
  b.build sys = .error .noBlockhash
  := by
  rw [build, hfp, hbh]

/-- `build` on a builder with a fee payer and a blockhash. -/
theorem build_eq (hparse : sys.ParsesWellFormed) {added : List InstructionBuf}
    {b : TransactionBuilder} (h : Kept sys added b) {feePayer : Pubkey} {blockhash : Bytes32}
    {fpIdx : Nat} (hfp : b.feePayer = some feePayer) (hbh : b.blockhash = some blockhash)
    (hidx : indexOf b.accts feePayer = some fpIdx) :
  b.build sys
    = if b.instrs = [] then .error .noInstructions
      else if sys.sigMax < classCount b.accts 1 then .error .tooManySigners
      else if b.FitsMtu sys then
        if InvokesFeePayer b then
          .error .validationFailed
        else
          .ok (b.transaction sys (b.sorted fpIdx) blockhash)
      else
        .error .transactionTooLarge
  := by
  have hfind : b.findAccount feePayer = some fpIdx := hidx
  rw [build, hfp, hbh]
  dsimp only
  simp only [List.length_eq_zero_iff]
  congr 1
  rw [hfind]
  dsimp only
  rw [serialize_eq h.fits h.entriesFit (classCount_ne_zero h hfp hidx 1)]
  by_cases hsigs : sys.sigMax < classCount b.accts 1
  · rw [if_pos hsigs, if_pos hsigs]
  by_cases hfits : b.FitsMtu sys
  · have hrejects : sys.txnParseCore (b.wireOf sys (b.sorted fpIdx) blockhash).encode = 0
        ↔ InvokesFeePayer b := by
      rw [hparse _ (wellFormed_wireOf h hfp hidx (Nat.not_lt.mp hsigs) hfits blockhash), wireOf,
        h.invokesFeePayer_iff]
      simp only [List.mem_map, exists_exists_and_eq_and]
      apply exists_mem_iff_of_forall₂ _ h.entries
      intro entry ix hloc
      rw [programIdx_eq_zero_iff h.fits hidx hloc, hfp, Option.some.injEq]
    simp only [hrejects]
  · rw [if_neg hfits, if_neg hfits]

end FdTxn

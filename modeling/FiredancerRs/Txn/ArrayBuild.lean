import FiredancerRs.Lib.Simulation
import FiredancerRs.Txn.Represents

/-!
# Building from the arrays

`build` on arrays that hold the lists of a builder ends as `build` on the lists does
(`ArrayBuilder.build_simulates`): it returns an array that is filled with the bytes of the
transaction, or it fails with the same error. So it never faults.
-/

open FdEd25519 FixedArray Except

namespace FdTxn

variable {sys : Sys}

/-- The output holds the bytes, and zeros after them. -/
def Output.Holds (out : Output sys) (buf : Bytes) : Prop := Filled 0 out.buf out.off buf

/-- The arrays of a transaction hold its bytes, with the same offsets. -/
structure ArrayTransaction.Holds (tx : ArrayTransaction sys) (tx' : UnsignedTransaction) :
    Prop where
  filled : Filled 0 tx.buf tx.len tx'.buf
  sigCount : tx.sigCount = tx'.sigCount
  sigOff : tx.sigOff = tx'.sigOff
  messageOff : tx.messageOff = tx'.messageOff

theorem checked_ok_bind {α β : Type} (a : α) (f : α → Except Stop β) :
  (checked (.ok a) >>= f) = f a
  := rfl

namespace Output

variable {out : Output sys} {buf data : Bytes} {stop : Nat}

theorem room_bind {β : Type} (f : Unit → Except Stop β) :
  (room sys stop >>= f)
    = if stop > sys.mtu then .error (.failed .transactionTooLarge) else f ()
  := by
  rw [room]
  split
  · rfl
  · rfl

theorem put_of_room (h : out.Holds buf) (byte : UInt8) (hroom : buf.length < sys.mtu) :
  ∃ out', out.put byte = .ok out' ∧ out'.Holds (buf ++ [byte])
  := by
  have hcount := h.count_eq
  have hmtu := sys.mtu_lt
  obtain ⟨v, hset, hv⟩ := h.push byte (by omega)
  use ⟨v, out.off + 1⟩
  constructor
  · rw [put, hset, Except.ok_bind, add_of_lt (by omega)]
    rfl
  · apply hv

theorem putSlice_of_room (h : out.Holds buf) (data : Bytes)
    (hroom : buf.length + data.length ≤ sys.mtu) :
  ∃ out', out.putSlice data = .ok out' ∧ out'.Holds (buf ++ data)
  := by
  have hcount := h.count_eq
  have hmtu := sys.mtu_lt
  obtain ⟨v, hcopy, hv⟩ := h.append data (by omega)
  use ⟨v, out.off + data.length⟩
  constructor
  · rw [putSlice, add_of_lt (by omega), Except.ok_bind, hcopy]
    rfl
  · apply hv

/-- Slices in memory are written as the model writes them. -/
theorem writeSlice_simulates (h : out.Holds buf) (hmem : data.length < 2 ^ 63) :
  Simulates .failed Holds (out.writeSlice data) (FdTxn.writeSlice sys buf data)
  := by
  have hcount := h.count_eq
  have hmtu := sys.mtu_lt
  have hle := h.le
  rw [writeSlice, add_of_lt (by omega), checked_ok_bind, room_bind, FdTxn.writeSlice]
  apply Simulates.ite_error
  · rw [hcount]
  · intro hroom
    obtain ⟨out', hput, hout'⟩ := putSlice_of_room h data (by omega)
    rw [hput]
    exact .ok hout'

theorem writeCu16_simulates (h : out.Holds buf) (val : UInt16) :
  Simulates .failed Holds (out.writeCu16 val) (FdTxn.writeCu16 sys buf val)
  := by
  have hcount := h.count_eq
  have hmtu := sys.mtu_lt
  have hle := h.le
  have hlen := CompactU16.length_encode_le val.toNat
  rw [← sys.cu16Enc_eq] at hlen
  rw [writeCu16, add_of_lt (by omega), checked_ok_bind, room_bind, FdTxn.writeCu16]
  apply Simulates.ite_error
  · rw [hcount]
  · intro hroom
    obtain ⟨out', hput, hout'⟩ := putSlice_of_room h (sys.cu16Enc val) (by omega)
    rw [hput]
    exact .ok hout'

theorem writeByte_simulates (h : out.Holds buf) (byte : UInt8) :
  Simulates .failed Holds (out.writeByte byte) (FdTxn.writeSlice sys buf [byte])
  := by
  have hcount := h.count_eq
  rw [writeByte, FdTxn.writeSlice, List.length_singleton]
  apply Simulates.ite_error
  · omega
  · intro hroom
    obtain ⟨out', hput, hout'⟩ := put_of_room h byte (by omega)
    rw [hput]
    exact .ok hout'

theorem writeHeader_simulates (h : out.Holds buf) (header : Header) :
  Simulates .failed Holds (out.writeHeader header)
    (FdTxn.writeSlice sys buf [header.sigCount, header.readonlySigned, header.readonlyUnsigned])
  := by
  have hcount := h.count_eq
  have hmtu := sys.mtu_lt
  have hle := h.le
  rw [writeHeader, add_of_lt (by omega), checked_ok_bind, room_bind, FdTxn.writeSlice]
  apply Simulates.ite_error
  · rw [hcount]
    exact Iff.rfl
  · intro hroom
    obtain ⟨out₁, hput₁, hout₁⟩ := put_of_room h header.sigCount (by omega)
    obtain ⟨out₂, hput₂, hout₂⟩ := put_of_room hout₁ header.readonlySigned (by
      rw [List.length_append, List.length_singleton]
      omega)
    obtain ⟨out₃, hput₃, hout₃⟩ := put_of_room hout₂ header.readonlyUnsigned (by
      rw [List.length_append, List.length_append, List.length_singleton, List.length_singleton]
      omega)
    rw [hput₁, checked_ok_bind, hput₂, checked_ok_bind, hput₃]
    rw [List.append_assoc, List.append_assoc] at hout₃
    exact .ok hout₃

end Output

namespace ArrayBuilder

variable {s : ArrayBuilder sys} {b : TransactionBuilder}

/-! ### The order of the accounts -/

theorem acctCmp_eq (h : Represents s b) (fpIdx : Nat) {i j : Nat} (hi : i < b.accts.length)
    (hj : j < b.accts.length) :
  s.acctCmp fpIdx i j = b.acctCmp fpIdx i j
  := by
  have hflags : ∀ k < b.accts.length, (s.acctFlags.toList[k]?).getD 0 = b.flagsAt k := by
    intro k hk
    obtain ⟨rest, hrest⟩ := h.flags.elements
    rw [← hrest, List.getElem?_append_left (by rwa [List.length_map]), TransactionBuilder.flagsAt]
  rw [acctCmp, TransactionBuilder.acctCmp]
  dsimp only
  rw [hflags i hi, hflags j hj]

theorem sortIndices_eq (h : Represents s b) (fpIdx : Nat) :
  s.sortIndices fpIdx = .ok (b.sorted fpIdx)
  := by
  have hcount := acctCount_eq h
  rw [sortIndices, hcount, slice_ofFn (length_accts_le h), Except.ok_bind]
  have hrows : ∀ i ∈ List.range b.accts.length, i < (b.accts.map Account.flags).length := by
    intro i hi
    rwa [List.length_map, ← List.mem_range]
  obtain ⟨flags, hflags⟩ := h.flags.mapM_get hrows
  have hsort := List.map_mergeSort (f := id) (l := List.range b.accts.length)
    (r := fun i j => (s.acctCmp fpIdx i j).isLE) (s := fun i j => (b.acctCmp fpIdx i j).isLE) (by
      intro i hi j hj
      rw [acctCmp_eq h fpIdx (List.mem_range.mp hi) (List.mem_range.mp hj)]
      rfl)
  rw [List.map_id, List.map_id] at hsort
  rw [hflags, Except.ok_bind, hsort]
  rfl

/-- The table from old to new indices is filled as the model fills it. -/
theorem remapOf_eq {sorted : List Nat} (hlen : sorted.length ≤ sys.acctAddrMax)
    (hlt : ∀ i ∈ sorted, i < sys.acctAddrMax) :
  ∃ remap, remapOf sys sorted = .ok remap
    ∧ remap.toList = TransactionBuilder.remapOf sys sorted
  := by
  have hmax := sys.acctAddrMax_eq
  have hsig := sys.sigMax_lt
  obtain ⟨remap, hok, hlist⟩ := @foldlM_set sys.acctAddrMax sorted.zipIdx (Vector.replicate _ 0) (by
    rintro ⟨oldIdx, newIdx⟩ hp
    have hnew := List.snd_lt_of_mem_zipIdx hp
    use hlt oldIdx (List.fst_mem_of_mem_zipIdx hp)
    dsimp only at hnew ⊢
    omega)
  use remap, hok
  rw [hlist, Vector.toList_replicate]
  rfl

/-- The counts of the header can be incremented as many times. -/
structure Room (header : Header) (left : Nat) : Prop where
  sigCount : header.sigCount.toNat + left < 2 ^ 8
  readonlySigned : header.readonlySigned.toNat + left < 2 ^ 8
  readonlyUnsigned : header.readonlyUnsigned.toNat + left < 2 ^ 8

theorem incr_eq {a : UInt8} {left : Nat} (h : a.toNat + (left + 1) < 2 ^ 8) :
  incr a = .ok (a + 1) ∧ (a + 1).toNat + left < 2 ^ 8
  := by
  use incr_of_lt (by omega)
  rw [UInt8.toNat_add, UInt8.toNat_one]
  omega

/-- An account is counted as the model counts it. -/
theorem count_eq {header : Header} {left : Nat} (h : Room header (left + 1)) (flags : UInt8) :
  count header flags = .ok (header.count flags) ∧ Room (header.count flags) left
  := by
  obtain ⟨hsig, hsigRoom⟩ := incr_eq h.sigCount
  obtain ⟨hsigned, hsignedRoom⟩ := incr_eq h.readonlySigned
  obtain ⟨hunsigned, hunsignedRoom⟩ := incr_eq h.readonlyUnsigned
  have hroom : Room header left :=
    ⟨by have := h.sigCount; omega, by have := h.readonlySigned; omega,
      by have := h.readonlyUnsigned; omega⟩
  rw [count, Header.count, hsig, hunsigned, Except.ok_bind, Except.ok_bind]
  by_cases hsigner : isSignerFlag flags
  · rw [if_pos hsigner, if_pos hsigner]
    by_cases hwritable : isWritableFlag flags
    · simp only [hwritable, if_true]
      exact ⟨rfl, { hroom with sigCount := hsigRoom }⟩
    · simp only [hwritable, if_false, Bool.false_eq_true, hsigned, Except.ok_bind]
      exact ⟨rfl, { hroom with sigCount := hsigRoom, readonlySigned := hsignedRoom }⟩
  · rw [if_neg hsigner, if_neg hsigner]
    by_cases hwritable : isWritableFlag flags
    · rw [if_pos hwritable, if_pos hwritable]
      exact ⟨rfl, hroom⟩
    · rw [if_neg hwritable, if_neg hwritable]
      exact ⟨rfl, { hroom with readonlyUnsigned := hunsignedRoom }⟩

theorem foldlM_count (h : Represents s b) :
  ∀ {sorted : List Nat} {header : Header}, Room header sorted.length →
    (∀ i ∈ sorted, i < b.accts.length) →
      sorted.foldlM
          (fun h i => do
            let flags ← FixedArray.get s.acctFlags i
            count h flags)
          header
        = .ok (sorted.foldl (fun h i => h.count (b.flagsAt i)) header)
  | [], _, _, _ => rfl
  | i :: sorted, header, hroom, hlt => by
      obtain ⟨hi, hlt⟩ := List.forall_mem_cons.mp hlt
      have hflags : FixedArray.get s.acctFlags i = .ok (b.flagsAt i) := by
        have hi' : i < (b.accts.map Account.flags).length := by rwa [List.length_map]
        rw [h.flags.get (List.getElem?_eq_getElem hi'), TransactionBuilder.flagsAt,
          List.getElem?_eq_getElem hi']
        rfl
      obtain ⟨hcount, hroom⟩ := count_eq hroom (b.flagsAt i)
      rw [List.foldlM_cons, hflags, Except.ok_bind, hcount, Except.ok_bind, List.foldl_cons]
      apply foldlM_count h hroom hlt

theorem headerOf_eq (h : Represents s b) (fpIdx : Nat) :
  s.headerOf (b.sorted fpIdx) = .ok (b.headerOf (b.sorted fpIdx))
  := by
  have hlen := (b.sorted_perm fpIdx).length_eq
  have hle := length_accts_le h
  have hmax := sys.acctAddrMax_eq
  have hsig := sys.sigMax_lt
  rw [List.length_range] at hlen
  have hroom : Room ⟨0, 0, 0⟩ (b.sorted fpIdx).length := by
    constructor <;> (rw [UInt8.toNat_zero]; omega)
  apply foldlM_count h hroom fun i hi => TransactionBuilder.mem_sorted.mp hi

/-! ### Writing -/

variable {remap : Vector UInt8 sys.acctAddrMax} {out : Output sys} {buf : Bytes}

theorem get_remap {i : Nat} (hi : i < sys.acctAddrMax) :
  FixedArray.get remap i = .ok (remap.toList.getD i 0)
  := by
  have hlt : i < remap.toList.length := by rwa [Vector.length_toList]
  rw [get_eq (List.getElem?_eq_getElem hlt), List.getD_eq_getElem?_getD,
    List.getElem?_eq_getElem hlt]
  rfl

/-- A program that is a row of the table is written as the model writes it. -/
theorem writeProgram_simulates (h : out.Holds buf) {entry : InstrEntry}
    (hprogram : entry.programIdx.toNat < sys.acctAddrMax) :
  Simulates .failed Output.Holds (writeProgram remap out entry)
    (FdTxn.writeSlice sys buf [remap.toList.getD entry.programIdx.toNat 0])
  := by
  rw [writeProgram, get_remap hprogram]
  apply Output.writeByte_simulates h _

/-- The loop over the accounts of an instruction writes their new positions, where there is room
for them. -/
theorem putAccounts_of_room (h : Represents s b) (remap : Vector UInt8 sys.acctAddrMax) :
  ∀ {accts : Bytes} {j : Nat} {out : Output sys} {buf : Bytes},
    accts <+: b.instrAcctBuf.drop j → (∀ i ∈ accts, i.toNat < sys.acctAddrMax) →
      out.Holds buf → buf.length + accts.length ≤ sys.mtu →
        ∃ out', s.putAccounts remap accts.length j out = .ok out'
          ∧ out'.Holds (buf ++ accts.map fun i => remap.toList.getD i.toNat 0)
  | [], _, out, _, _, _, hout, _ => ⟨out, rfl, by rwa [List.map_nil, List.append_nil]⟩
  | i :: accts, j, out, buf, hpositions, hlt, hout, hroom => by
      rw [List.length_cons] at hroom
      obtain ⟨rest, hrest⟩ := hpositions
      obtain ⟨hi, hlt⟩ := List.forall_mem_cons.mp hlt
      have hget : b.instrAcctBuf[j]? = some i := by
        rw [← Nat.add_zero j, ← List.getElem?_drop, ← hrest]
        rfl
      have hnext : accts <+: b.instrAcctBuf.drop (j + 1) := by
        rw [← List.drop_drop, ← hrest]
        apply List.prefix_append _ _
      obtain ⟨out₁, hput, hout₁⟩ :=
        Output.put_of_room hout (remap.toList.getD i.toNat 0) (by omega)
      obtain ⟨out', hloop, hout'⟩ := putAccounts_of_room h remap hnext hlt hout₁ (by
        rw [List.length_append, List.length_singleton]
        omega)
      use out'
      rw [List.length_cons, putAccounts, h.acctBuf.get hget, Except.ok_bind, get_remap hi,
        Except.ok_bind, hput, Except.ok_bind, hloop]
      rw [List.append_assoc] at hout'
      exact ⟨rfl, hout'⟩

theorem writeAccounts_simulates (h : Represents s b) (hb : TransactionBuilder.Indexed b)
    (hout : out.Holds buf) {entry : InstrEntry} (hentry : entry ∈ b.instrs) :
  Simulates .failed Output.Holds (s.writeAccounts remap out entry)
    (FdTxn.writeSlice sys buf
      (((b.instrAcctBuf.drop entry.acctOff.toNat).take entry.acctCnt.toNat).map
        fun i => remap.toList.getD i.toNat 0))
  := by
  have hcount := hout.count_eq
  have hle := hout.le
  have hmtu := sys.mtu_lt
  have hmax := length_accts_le h
  have hoff := entry.acctOff.toNat_lt
  have hcnt := entry.acctCnt.toNat_lt
  have hend := (hb.entries entry hentry).1
  generalize haccts : (b.instrAcctBuf.drop entry.acctOff.toNat).take entry.acctCnt.toNat = accts
  have hlen : accts.length = entry.acctCnt.toNat := by
    rw [← haccts, List.length_take, List.length_drop]
    omega
  have hpositions : accts <+: b.instrAcctBuf.drop entry.acctOff.toNat := by
    rw [← haccts]
    apply List.take_prefix _ _
  rw [writeAccounts, add_of_lt (by omega), checked_ok_bind, add_of_lt (by omega), checked_ok_bind,
    Output.room_bind, FdTxn.writeSlice, List.length_map, hlen]
  apply Simulates.ite_error
  · rw [hcount]
  · intro hroom
    have hrows : ∀ i ∈ accts, i.toNat < sys.acctAddrMax := by
      intro i hi
      have hrow := hb.accounts i (List.mem_of_mem_drop (hpositions.subset hi))
      omega
    obtain ⟨out', hput, hout'⟩ := putAccounts_of_room h remap hpositions hrows hout (by omega)
    rw [← hlen, hput]
    exact .ok hout'

theorem writeData_simulates (h : Represents s b) (hb : TransactionBuilder.Indexed b)
    (hout : out.Holds buf) {entry : InstrEntry} (hentry : entry ∈ b.instrs) :
  Simulates .failed Output.Holds (s.writeData out entry)
    (FdTxn.writeSlice sys buf
      ((b.instrDataBuf.drop entry.dataOff.toNat).take entry.dataLen.toNat))
  := by
  have hoff := entry.dataOff.toNat_lt
  have hcnt := entry.dataLen.toNat_lt
  have hend := (hb.entries entry hentry).2
  have hslice : FixedArray.slice s.instrDataBuf entry.dataOff.toNat
      (entry.dataOff.toNat + entry.dataLen.toNat)
        = .ok ((b.instrDataBuf.drop entry.dataOff.toNat).take entry.dataLen.toNat) := by
    rw [h.dataBuf.slice (Nat.le_add_right _ _) (by rwa [h.dataBuf.count_eq]), Buffer.slice,
      Nat.add_sub_cancel_left]
  generalize hdata : (b.instrDataBuf.drop entry.dataOff.toNat).take entry.dataLen.toNat = data
    at hslice
  have hlen : data.length = entry.dataLen.toNat := by
    rw [← hdata, List.length_take, List.length_drop]
    omega
  have hwrite : s.writeData out entry = out.writeSlice data := by
    rw [writeData, add_of_lt (by omega), checked_ok_bind, hslice, Output.writeSlice, hlen]
    rfl
  rw [hwrite]
  apply Output.writeSlice_simulates hout (by omega)

/-- An entry is written as the model writes it. -/
theorem writeInstr_simulates (h : Represents s b) (hb : TransactionBuilder.Indexed b)
    {i : Nat} {entry : InstrEntry} (hentry : b.instrs[i]? = some entry) (hout : out.Holds buf) :
  Simulates .failed Output.Holds (s.writeInstr remap out i)
    (b.writeInstr sys remap.toList buf entry)
  := by
  have hmem := List.mem_of_getElem? hentry
  have hprogram := hb.programs entry hmem
  rw [writeInstr, h.instrs.get hentry, checked_ok_bind, TransactionBuilder.writeInstr]
  apply (writeProgram_simulates hout (Nat.lt_of_lt_of_le hprogram (length_accts_le h))).bind
  intro out buf hout
  apply (Output.writeCu16_simulates hout _).bind
  intro out buf hout
  apply (writeAccounts_simulates h hb hout hmem).bind
  intro out buf hout
  apply (Output.writeCu16_simulates hout _).bind
  intro out buf hout
  apply writeData_simulates h hb hout hmem

/-- A key of the table is written as the model writes it. -/
theorem writeKey_simulates (h : Represents s b) {i : Nat} (hi : i < b.accts.length)
    (hout : out.Holds buf) :
  Simulates .failed Output.Holds (s.writeKey out i) (FdTxn.writeSlice sys buf (b.keyAt i))
  := by
  have hi' : i < (keys b.accts).length := by rwa [length_keys]
  have hkey : b.keyAt i = (keys b.accts)[i].asBytes := by
    simp [TransactionBuilder.keyAt, keys, hi]
  have hlen := (keys b.accts)[i].length_asBytes
  rw [writeKey, h.keys.get (List.getElem?_eq_getElem hi'), hkey, ← hlen]
  apply Output.writeSlice_simulates hout (by omega)

theorem writeVersion_simulates (hout : out.Holds buf) (version : TransactionVersion) :
  Simulates .failed Output.Holds (writeVersion version out)
    (TransactionBuilder.writeVersion sys version buf)
  := by
  cases version with
  | legacy => exact .ok hout
  | v0 => exact Output.writeByte_simulates hout 0x80

theorem writeLookups_simulates (hout : out.Holds buf) (version : TransactionVersion) :
  Simulates .failed Output.Holds (writeLookups version out)
    (TransactionBuilder.writeLookups sys version buf)
  := by
  cases version with
  | legacy => exact .ok hout
  | v0 => exact Output.writeCu16_simulates hout 0

/-- The message is written as the model writes it. -/
theorem writeMessage_simulates (h : Represents s b) (hb : TransactionBuilder.Indexed b)
    {sorted : List Nat} (hsorted : ∀ i ∈ sorted, i < b.accts.length)
    (hremap : remap.toList = TransactionBuilder.remapOf sys sorted) (header : Header)
    (blockhash : Bytes32) (hout : out.Holds buf) :
  Simulates .failed Output.Holds (s.writeMessage sorted remap header blockhash out)
    (b.writeMessage sys sorted header blockhash buf)
  := by
  have haccts := length_accts_le h
  have hmax := sys.acctAddrMax_eq
  have hsig := sys.sigMax_lt
  have hinstrs := h.instrs.length_le
  have hinstrMax := sys.instrMax_lt
  rw [writeMessage, TransactionBuilder.writeMessage, h.version, acctCount_eq h,
    h.instrs.count_eq]
  apply (writeVersion_simulates hout _).bind
  intro out buf hout
  apply (Output.writeHeader_simulates hout _).bind
  intro out buf hout
  rw [toU16_of_lt (show b.accts.length < 2 ^ 16 by omega), checked_ok_bind]
  apply (Output.writeCu16_simulates hout _).bind
  intro out buf hout
  have hkeys : ∀ i ∈ sorted, ∀ (out : Output sys) buf, out.Holds buf →
      Simulates .failed Output.Holds (s.writeKey out i) (FdTxn.writeSlice sys buf (b.keyAt i)) :=
    fun i hi out buf hout => writeKey_simulates h (hsorted i hi) hout
  apply (Simulates.foldlM hkeys hout).bind
  intro out buf hout
  apply (Output.writeSlice_simulates hout (by rw [Vector.length_toList]; omega)).bind
  intro out buf hout
  rw [toU16_of_lt (show b.instrs.length < 2 ^ 16 by omega), checked_ok_bind]
  apply (Output.writeCu16_simulates hout _).bind
  intro out buf hout
  have hentries : ∀ i entry, b.instrs[i]? = some entry → ∀ (out : Output sys) buf, out.Holds buf →
      Simulates .failed Output.Holds (s.writeInstr remap out i)
        (b.writeInstr sys remap.toList buf entry) :=
    fun i entry hentry out buf hout => writeInstr_simulates h hb hentry hout
  rw [← hremap]
  apply (Simulates.foldlM_range hentries hout).bind
  intro out buf hout
  apply writeLookups_simulates hout _

/-! ### The transaction -/

/-- The count of the signatures is written, and their place is left. -/
theorem writeSigs_simulates (hsz : sys.signatureSz < 2 ^ 32) (header : Header) :
  Simulates .failed
    (fun sigs buf => sigs.1 = (sys.cu16Enc header.sigCount.toUInt16).length
      ∧ Output.Holds sigs.2 buf)
    (@writeSigs sys header) (TransactionBuilder.writeSigs sys header)
  := by
  have hmtu := sys.mtu_lt
  have hempty : (⟨Vector.replicate _ 0, 0⟩ : Output sys).Holds [] := filled_replicate
  have hcount := (Output.writeCu16_simulates hempty header.sigCount.toUInt16).and_right
    (P := fun buf => buf = sys.cu16Enc header.sigCount.toUInt16) (by
      intro buf hbuf
      rw [sys.cu16Enc_eq, ← (writeCu16_eq_ok_iff.mp hbuf).2, List.nil_append])
  rw [writeSigs, TransactionBuilder.writeSigs]
  apply hcount.bind
  rintro out buf ⟨hout, hbuf⟩
  have hlen := hout.count_eq
  have hle := hout.le
  have hn := header.sigCount.toNat_lt
  have hsize : header.sigCount.toNat * sys.signatureSz < 2 ^ 8 * 2 ^ 32 :=
    Nat.mul_lt_mul'' hn hsz
  rw [mul_of_lt (by omega), checked_ok_bind, add_of_lt (by omega), checked_ok_bind,
    Output.room_bind, writeSlice, List.length_replicate]
  apply Simulates.ite_error
  · rw [hlen]
  · intro hroom
    refine .ok ⟨?_, Filled.skip hout (by omega)⟩
    rw [hlen, hbuf]

theorem validate_simulates (hout : out.Holds buf) :
  Simulates .failed Eq (validate out.buf out.off) (TransactionBuilder.validate sys buf)
  := by
  have hlen := hout.count_eq
  have hslice : FixedArray.slice out.buf 0 out.off = .ok buf := by
    rw [hout.holds.slice (Nat.zero_le _) (Nat.le_refl _), Buffer.slice, List.drop_zero, hlen,
      Nat.sub_zero, List.take_length]
  rw [validate, hslice, checked_ok_bind, TransactionBuilder.validate]
  apply Simulates.ite_error Iff.rfl fun _ => .ok rfl

/-- The transaction is written as the model writes it. -/
theorem serialize_simulates (hsz : sys.signatureSz < 2 ^ 32) (h : Represents s b)
    (hb : TransactionBuilder.Indexed b) (fpIdx : Nat) (blockhash : Bytes32) :
  Simulates .failed ArrayTransaction.Holds (s.serialize (b.sorted fpIdx) blockhash)
    (b.serialize sys (b.sorted fpIdx) blockhash)
  := by
  have hsorted : ∀ i ∈ b.sorted fpIdx, i < b.accts.length :=
    fun i hi => TransactionBuilder.mem_sorted.mp hi
  have hlen : (b.sorted fpIdx).length ≤ sys.acctAddrMax := by
    rw [(b.sorted_perm fpIdx).length_eq, List.length_range]
    apply length_accts_le h
  obtain ⟨remap, hok, hremap⟩ := remapOf_eq hlen fun i hi =>
    Nat.lt_of_lt_of_le (hsorted i hi) (length_accts_le h)
  rw [serialize, hok, checked_ok_bind, headerOf_eq h, checked_ok_bind,
    TransactionBuilder.serialize]
  generalize b.headerOf (b.sorted fpIdx) = header
  apply Simulates.ite_error Iff.rfl
  intro _
  apply (writeSigs_simulates hsz header).bind
  rintro ⟨sigOff, sigs⟩ buf ⟨hsigOff, hsigs⟩
  apply (writeMessage_simulates h hb hsorted hremap header blockhash hsigs).bind
  intro out buf' hout
  apply (validate_simulates hout).bind
  intro _ _ _
  exact .ok { filled := hout, sigCount := rfl, sigOff := hsigOff, messageOff := hsigs.count_eq }

/-- `build` on the arrays ends as `build` on the lists that they hold. -/
theorem build_simulates (hsz : sys.signatureSz < 2 ^ 32) (h : Represents s b)
    (hb : TransactionBuilder.Indexed b) :
  Simulates .failed ArrayTransaction.Holds s.build (b.build sys)
  := by
  rw [build, TransactionBuilder.build, h.feePayer, h.blockhash, h.instrs.count_eq]
  cases b.feePayer with
  | none => exact .error _
  | some feePayer =>
    cases b.blockhash with
    | none => exact .error _
    | some blockhash =>
      apply Simulates.ite_error Iff.rfl
      intro _
      rw [findAccount_eq h, checked_ok_bind]
      cases b.findAccount feePayer with
      | none => exact .error _
      | some fpIdx =>
        dsimp only
        rw [sortIndices_eq h, checked_ok_bind]
        apply serialize_simulates hsz h hb fpIdx blockhash

end ArrayBuilder

end FdTxn

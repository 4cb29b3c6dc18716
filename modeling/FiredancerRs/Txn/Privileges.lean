import FiredancerRs.Txn.RoundTrip

/-!
# The privileges of a built transaction

The header of a message assigns the signer and writable privileges by position. The rows of
the message are sorted by privilege class and the header counts the classes, so a position
has the privileges of its row (`isSigner_headerOf`, `isWritable_headerOf`), which are those
that the calls on the builder requested for its key.
-/

open FdEd25519

namespace FdTxn

variable {sys : Sys}

/-! ### What a header says of a position -/

/-- The position is one of a signer. -/
def Header.isSigner (header : Header) (p : Nat) : Bool :=
  decide (p < header.sigCount.toNat)

/-- The position, among `n` keys, is one of a writable account. -/
def Header.isWritable (header : Header) (n p : Nat) : Bool :=
  decide (p < header.sigCount.toNat - header.readonlySigned.toNat)
    || decide (header.sigCount.toNat ≤ p ∧ p < n - header.readonlyUnsigned.toNat)

/-! ### The classes -/

theorem acctSortKey_le_zero_iff {flags : UInt8} :
  acctSortKey flags ≤ 0 ↔ isSignerFlag flags = true ∧ isWritableFlag flags = true
  := by
  unfold acctSortKey
  cases isSignerFlag flags <;> cases isWritableFlag flags <;> simp

theorem acctSortKey_le_one_iff {flags : UInt8} :
  acctSortKey flags ≤ 1 ↔ isSignerFlag flags = true
  := by
  unfold acctSortKey
  cases isSignerFlag flags <;> cases isWritableFlag flags <;> simp

theorem acctSortKey_le_two_iff {flags : UInt8} :
  acctSortKey flags ≤ 2 ↔ isSignerFlag flags = true ∨ isWritableFlag flags = true
  := by
  unfold acctSortKey
  cases isSignerFlag flags <;> cases isWritableFlag flags <;> simp

/-- The number of rows of class at most `c`. -/
def classCount (accts : List Account) (c : Nat) : Nat :=
  accts.countP fun acct => acctSortKey acct.flags ≤ c

/-- A counter below 256 is incremented without overflow. -/
theorem toNat_add_one {n : UInt8} (h : n.toNat + 1 < 256) :
  (n + 1).toNat = n.toNat + 1
  := by
  rw [UInt8.toNat_add]
  apply Nat.mod_eq_of_lt h

theorem classCount_cons (acct : Account) (accts : List Account) (c : Nat) :
  classCount (acct :: accts) c = classCount accts c + if acctSortKey acct.flags ≤ c then 1 else 0
  := by
  simp only [classCount, List.countP_cons, decide_eq_true_eq]

/-- A step of the counting loop adds the row to the counts of its class. -/
theorem toNat_count {header : Header} {flags : UInt8} (hsig : header.sigCount.toNat + 1 < 256)
    (hro : header.readonlySigned.toNat + 1 < 256)
    (hunsigned : header.readonlyUnsigned.toNat + 1 < 256) :
  (header.count flags).sigCount.toNat
      = header.sigCount.toNat + (if acctSortKey flags ≤ 1 then 1 else 0)
    ∧ (header.count flags).readonlySigned.toNat + (if acctSortKey flags ≤ 0 then 1 else 0)
      = header.readonlySigned.toNat + (if acctSortKey flags ≤ 1 then 1 else 0)
    ∧ (header.count flags).readonlyUnsigned.toNat + (if acctSortKey flags ≤ 2 then 1 else 0)
      = header.readonlyUnsigned.toNat + 1
  := by
  have hsig' := toNat_add_one hsig
  have hro' := toNat_add_one hro
  have hunsigned' := toNat_add_one hunsigned
  simp only [acctSortKey_le_zero_iff, acctSortKey_le_one_iff, acctSortKey_le_two_iff, Header.count]
  cases isSignerFlag flags <;> cases isWritableFlag flags <;> simp [hsig', hro', hunsigned']

/-- The counting loop adds to each count the number of rows it counts. -/
theorem count_foldl :
  ∀ (accts : List Account) (header : Header),
    header.sigCount.toNat + accts.length < 256 →
    header.readonlySigned.toNat + accts.length < 256 →
    header.readonlyUnsigned.toNat + accts.length < 256 →
      (accts.foldl (fun h acct => h.count acct.flags) header).sigCount.toNat
          = header.sigCount.toNat + classCount accts 1
        ∧ (accts.foldl (fun h acct => h.count acct.flags) header).readonlySigned.toNat
            + classCount accts 0 = header.readonlySigned.toNat + classCount accts 1
        ∧ (accts.foldl (fun h acct => h.count acct.flags) header).readonlyUnsigned.toNat
            + classCount accts 2 = header.readonlyUnsigned.toNat + accts.length
  | [], header, _, _, _ => by simp [classCount]
  | acct :: accts, header, h₁, h₂, h₃ => by
      rw [List.length_cons] at h₁ h₂ h₃
      obtain ⟨hsig, hro, hunsigned⟩ := @toNat_count header acct.flags (by omega) (by omega)
        (by omega)
      have hle : (if acctSortKey acct.flags ≤ 1 then 1 else 0) ≤ 1 := by split <;> omega
      have ih := count_foldl accts (header.count acct.flags)
      rw [List.foldl_cons, List.length_cons, classCount_cons, classCount_cons, classCount_cons]
      obtain ⟨ih₁, ih₂, ih₃⟩ := ih (by omega) (by omega) (by omega)
      omega

/-! ### The privileges of a position -/

namespace TransactionBuilder

/-- The fee payer of a builder is in the first class. -/
theorem acctSortKey_feePayer {added : List InstructionBuf} {b : TransactionBuilder} {key : Pubkey}
    {fpIdx : Nat} (h : Kept sys added b) (hkey : b.feePayer = some key)
    (hidx : indexOf b.accts key = some fpIdx) :
  acctSortKey (b.flagsAt fpIdx) = 0
  := by
  have hlt := indexOf_lt hidx
  have hrow := getElem?_keys_of_indexOf hidx
  simp only [keys, List.getElem?_map, List.getElem?_eq_getElem hlt, Option.map_some,
    Option.some.injEq] at hrow
  rw [flagsAt_of_getElem? (List.getElem?_eq_getElem hlt), ← flagsOf_getElem hlt h.fits.nodup,
    hrow]
  apply Nat.le_zero.mp
  apply acctSortKey_le_zero_iff.mpr
  apply h.payer key hkey

/-- The header of a message counts the classes of its rows. -/
theorem headerOf_counts {b : TransactionBuilder} (hb : Fits sys b) (fpIdx : Nat) :
  ((b.headerOf (b.sorted fpIdx)).sigCount.toNat
      = classCount (b.messageAccts (b.sorted fpIdx)) 1)
    ∧ (b.headerOf (b.sorted fpIdx)).readonlySigned.toNat
        + classCount (b.messageAccts (b.sorted fpIdx)) 0
      = classCount (b.messageAccts (b.sorted fpIdx)) 1
    ∧ (b.headerOf (b.sorted fpIdx)).readonlyUnsigned.toNat
        + classCount (b.messageAccts (b.sorted fpIdx)) 2
      = (b.messageAccts (b.sorted fpIdx)).length
  := by
  have hlen : (b.messageAccts (b.sorted fpIdx)).length < 256 := by
    rw [(b.messageAccts_perm fpIdx).length_eq]
    have := hb.accts
    have := sys.acctAddrMax_eq
    have := sys.sigMax_lt
    omega
  have hzero : (0 : UInt8).toNat = 0 := rfl
  have hcount := count_foldl (b.messageAccts (b.sorted fpIdx)) ⟨0, 0, 0⟩
  simp only [hzero, Nat.zero_add] at hcount
  rw [headerOf, headerOf_eq b ⟨0, 0, 0⟩ isSome_of_mem_sorted]
  apply hcount hlen hlen hlen

section Rows

variable {b : TransactionBuilder} {fpIdx p : Nat} {acct : Account}

/-- A row of the message signs exactly when the header says so of its position. -/
theorem isSigner_headerOf (hb : Fits sys b) (hfp : acctSortKey (b.flagsAt fpIdx) = 0)
    (hp : (b.messageAccts (b.sorted fpIdx))[p]? = some acct) :
  (b.headerOf (b.sorted fpIdx)).isSigner p = isSignerFlag acct.flags
  := by
  obtain ⟨hlt, rfl⟩ := List.getElem?_eq_some_iff.mp hp
  obtain ⟨hsig, -, -⟩ := headerOf_counts hb fpIdx
  have hrank := Sorted.getElem_rank_le_iff (c := 1) hlt (messageAccts_pairwise hfp)
  apply Bool.eq_iff_iff.mpr
  rw [← acctSortKey_le_one_iff, hrank, Header.isSigner, decide_eq_true_iff, hsig, classCount]

/-- A row of the message is writable exactly when the header says so of its position. -/
theorem isWritable_headerOf (hb : Fits sys b) (hfp : acctSortKey (b.flagsAt fpIdx) = 0)
    (hp : (b.messageAccts (b.sorted fpIdx))[p]? = some acct) :
  (b.headerOf (b.sorted fpIdx)).isWritable (b.messageAccts (b.sorted fpIdx)).length p
    = isWritableFlag acct.flags
  := by
  obtain ⟨hlt, rfl⟩ := List.getElem?_eq_some_iff.mp hp
  obtain ⟨hsig, hro, hunsigned⟩ := headerOf_counts hb fpIdx
  have hpair := messageAccts_pairwise (b := b) hfp
  have hzero := Sorted.getElem_rank_le_iff (c := 0) hlt hpair
  have hone := Sorted.getElem_rank_le_iff (c := 1) hlt hpair
  have htwo := Sorted.getElem_rank_le_iff (c := 2) hlt hpair
  rw [← classCount] at hzero hone htwo
  rw [acctSortKey_le_zero_iff] at hzero
  rw [acctSortKey_le_one_iff] at hone
  rw [acctSortKey_le_two_iff] at htwo
  apply Bool.eq_iff_iff.mpr
  rw [Header.isWritable, Bool.or_eq_true, decide_eq_true_iff, decide_eq_true_iff]
  have hws : (b.headerOf (b.sorted fpIdx)).sigCount.toNat
      - (b.headerOf (b.sorted fpIdx)).readonlySigned.toNat
        = classCount (b.messageAccts (b.sorted fpIdx)) 0 := by
    omega
  have hwu : (b.messageAccts (b.sorted fpIdx)).length
      - (b.headerOf (b.sorted fpIdx)).readonlyUnsigned.toNat
        = classCount (b.messageAccts (b.sorted fpIdx)) 2 := by
    omega
  rw [hws, hwu, hsig, ← hzero, ← htwo, ← Nat.not_lt, ← hone]
  cases isSignerFlag (b.messageAccts (b.sorted fpIdx))[p].flags <;> simp

end Rows

end TransactionBuilder

open TransactionBuilder

/-- The keys of a built transaction are the keys the calls refer to, each once, with the fee
payer first, and the header gives each the privileges that the calls requested for it. -/
theorem build_privileges {calls : List Call} {b : TransactionBuilder} {tx : UnsignedTransaction}
    (hb : Built sys calls b) (h : b.build sys = .ok tx) :
  ∃ wire,
    decodeTransaction sys.signatureSz tx.asBytes = some (wire, [])
      ∧ wire.keys.Nodup
      ∧ (∀ key, key ∈ wire.keys ↔ ∃ m ∈ calls.flatMap Call.requests, m.pubkey = key)
      ∧ (∃ feePayer, b.feePayer = some feePayer ∧ .feePayer feePayer ∈ calls
          ∧ wire.keys[0]? = some feePayer)
      ∧ ∀ p key, wire.keys[p]? = some key →
          wire.header.isSigner p
              = (calls.flatMap Call.requests).any (fun m => decide (m.pubkey = key) && m.isSigner)
            ∧ wire.header.isWritable wire.keys.length p
              = (calls.flatMap Call.requests).any (fun m => decide (m.pubkey = key) && m.isWritable)
  := by
  have hsummary := hb.summary
  have hfits := hsummary.fits
  obtain ⟨feePayer, blockhash, fpIdx, hfp, -, hidx, hdecode⟩ :=
    build_wire hfits hsummary.kept.entriesFit h
  have hclass := acctSortKey_feePayer hsummary.kept hfp hidx
  have hperm := b.keys_messageAccts_perm fpIdx
  refine ⟨_, hdecode, ?nodup, ?mem, ⟨feePayer, hfp, hsummary.feePayer _ hfp, ?head⟩, ?flags⟩
  case nodup => apply hperm.nodup_iff.mpr hfits.nodup
  case mem =>
    intro key
    rw [← hsummary.mem_keys_iff]
    apply hperm.mem_iff
  case head =>
    rw [wireOf, keys, List.getElem?_map, messageAccts_head (indexOf_lt hidx),
      ← List.getElem?_map]
    apply getElem?_keys_of_indexOf hidx
  case flags =>
    intro p key hkey
    simp only [wireOf, keys, List.getElem?_map, Option.map_eq_some_iff] at hkey
    obtain ⟨acct, hacct, rfl⟩ := hkey
    -- the row's own flags are those granted to its key
    have hflags : flagsOf b.accts acct.key = acct.flags := by
      have hmem := (b.messageAccts_perm fpIdx).mem_iff.mp (List.mem_of_getElem? hacct)
      apply flagsOf_of_mem hmem hfits.nodup
    constructor
    · rw [wireOf, isSigner_headerOf hfits hclass hacct, ← hflags, hsummary.isSignerFlag_flagsOf]
    · rw [wireOf, length_keys, isWritable_headerOf hfits hclass hacct, ← hflags,
        hsummary.isWritableFlag_flagsOf]

theorem build_privileges_sample :
  ∃ tx wire, sampleBuilder.build .accepting = .ok tx
    ∧ decodeTransaction 64 tx.asBytes = some (wire, [])
    ∧ wire.keys[0]? = some (keyOf 1)
  := by
  obtain ⟨tx, htx⟩ := sampleBuilder_build
  obtain ⟨wire, hdecode, -, -, ⟨feePayer, hfp, -, hhead⟩, -⟩ :=
    build_privileges sampleBuilder_built htx
  obtain rfl : keyOf 1 = feePayer := Option.some.inj hfp
  exact ⟨tx, wire, htx, hdecode, hhead⟩

end FdTxn

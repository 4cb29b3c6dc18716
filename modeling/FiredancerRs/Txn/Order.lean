import FiredancerRs.Txn.Run
import FiredancerRs.Lib.Sorted

/-!
# The order of the accounts in the message

`messageAccts` are the rows of the account table in the order `build` writes them. They are
the rows of the table, rearranged (`messageAccts_perm`), by privilege class
(`messageAccts_pairwise`), with the fee payer first (`messageAccts_head`). The table `remap`
takes the position of a row in the account table to its position in the message
(`getElem?_messageAccts_remap`).
-/

open FdEd25519

namespace FdTxn

variable {sys : Sys}

namespace TransactionBuilder

/-- The rows of the account table in the order of the message. -/
def messageAccts (b : TransactionBuilder) (sorted : List Nat) : List Account :=
  sorted.filterMap fun i => b.accts[i]?

/-- What it means for `acctCmp` not to place `j` before `i`. -/
theorem isLE_acctCmp {b : TransactionBuilder} {fpIdx i j : Nat} :
  (b.acctCmp fpIdx i j).isLE = true
    ↔ (i = fpIdx ∧ j ≠ fpIdx)
      ∨ ((i = fpIdx ↔ j = fpIdx)
        ∧ (acctSortKey (b.flagsAt i) < acctSortKey (b.flagsAt j)
          ∨ (acctSortKey (b.flagsAt i) = acctSortKey (b.flagsAt j) ∧ i ≤ j)))
  := by
  rw [acctCmp, Sorted.isLE_then_compare, Sorted.isLE_then_compare, Sorted.isLE_compare]
  by_cases hi : i = fpIdx <;> by_cases hj : j = fpIdx <;> simp [hi, hj]

theorem sorted_perm (b : TransactionBuilder) (fpIdx : Nat) :
  (b.sorted fpIdx).Perm (List.range b.accts.length)
  := List.mergeSort_perm _ _

theorem mem_sorted {b : TransactionBuilder} {fpIdx i : Nat} :
  i ∈ b.sorted fpIdx ↔ i < b.accts.length
  := by
  rw [(b.sorted_perm fpIdx).mem_iff, List.mem_range]

theorem sorted_nodup (b : TransactionBuilder) (fpIdx : Nat) :
  (b.sorted fpIdx).Nodup
  := (b.sorted_perm fpIdx).nodup_iff.mpr List.nodup_range

theorem sorted_pairwise (b : TransactionBuilder) (fpIdx : Nat) :
  (b.sorted fpIdx).Pairwise fun i j => (b.acctCmp fpIdx i j).isLE = true
  := by
  apply List.pairwise_mergeSort
  · intro i j k hij hjk
    rw [isLE_acctCmp] at hij hjk ⊢
    omega
  · intro i j
    rw [Bool.or_eq_true, isLE_acctCmp, isLE_acctCmp]
    omega

/-- The order is the only one that `acctCmp` allows. -/
theorem sorted_eq_of_perm {b : TransactionBuilder} {fpIdx : Nat} {l : List Nat}
    (hperm : l.Perm (List.range b.accts.length))
    (hpair : l.Pairwise fun i j => (b.acctCmp fpIdx i j).isLE = true) :
  b.sorted fpIdx = l
  := by
  apply ((b.sorted_perm fpIdx).trans hperm.symm).eq_of_pairwise _ (b.sorted_pairwise fpIdx) hpair
  intro i j _ _ hij hji
  rw [isLE_acctCmp] at hij hji
  omega

/-! ### The rows of the message -/

theorem isSome_of_mem_sorted {b : TransactionBuilder} {fpIdx : Nat} :
  ∀ i ∈ b.sorted fpIdx, (b.accts[i]?).isSome
  := by
  intro i hi
  rw [List.getElem?_eq_getElem (mem_sorted.mp hi)]
  rfl

theorem getElem?_messageAccts (b : TransactionBuilder) (fpIdx p : Nat) :
  (b.messageAccts (b.sorted fpIdx))[p]? = (b.sorted fpIdx)[p]?.bind fun i => b.accts[i]?
  := Sorted.getElem?_filterMap_of_isSome isSome_of_mem_sorted p

theorem messageAccts_perm (b : TransactionBuilder) (fpIdx : Nat) :
  (b.messageAccts (b.sorted fpIdx)).Perm b.accts
  := by
  have h := (b.sorted_perm fpIdx).filterMap fun i => b.accts[i]?
  rwa [Sorted.filterMap_range_getElem?] at h

theorem keys_messageAccts_perm (b : TransactionBuilder) (fpIdx : Nat) :
  (keys (b.messageAccts (b.sorted fpIdx))).Perm (keys b.accts)
  := (b.messageAccts_perm fpIdx).map _

theorem flagsAt_of_getElem? {b : TransactionBuilder} {i : Nat} {acct : Account}
    (h : b.accts[i]? = some acct) :
  b.flagsAt i = acct.flags
  := by
  simp [flagsAt, h]

theorem keyAt_of_getElem? {b : TransactionBuilder} {i : Nat} {acct : Account}
    (h : b.accts[i]? = some acct) :
  b.keyAt i = acct.key.asBytes
  := by
  simp [keyAt, h]

/-- The key bytes `build` writes are those of the rows of the message. -/
theorem flatMap_keyAt (b : TransactionBuilder) {sorted : List Nat} :
  (∀ i ∈ sorted, (b.accts[i]?).isSome) →
    sorted.flatMap b.keyAt = (keys (b.messageAccts sorted)).flatMap Pubkey.asBytes
  := by
  intro h
  induction sorted with
  | nil => rfl
  | cons i sorted ih =>
    obtain ⟨acct, hacct⟩ := Option.isSome_iff_exists.mp (h i List.mem_cons_self)
    have ih' := ih fun j hj => h j (List.mem_cons_of_mem i hj)
    simp only [keys, messageAccts, List.filterMap_cons, hacct, List.map_cons,
      List.flatMap_cons, keyAt_of_getElem? hacct] at ih' ⊢
    rw [ih']

/-- The header counts the flags of the rows of the message. -/
theorem headerOf_eq (b : TransactionBuilder) {sorted : List Nat} (header : Header) :
  (∀ i ∈ sorted, (b.accts[i]?).isSome) →
    sorted.foldl (fun h i => h.count (b.flagsAt i)) header
      = (b.messageAccts sorted).foldl (fun h acct => h.count acct.flags) header
  := by
  intro h
  induction sorted generalizing header with
  | nil => rfl
  | cons i sorted ih =>
    obtain ⟨acct, hacct⟩ := Option.isSome_iff_exists.mp (h i List.mem_cons_self)
    have ih' := fun header => ih header fun j hj => h j (List.mem_cons_of_mem i hj)
    simp only [messageAccts, List.filterMap_cons, hacct, List.foldl_cons,
      flagsAt_of_getElem? hacct] at ih' ⊢
    rw [ih']

/-- The rows of the message are ordered by privilege class, when the fee payer is in the
first class. -/
theorem messageAccts_pairwise {b : TransactionBuilder} {fpIdx : Nat}
    (hfp : acctSortKey (b.flagsAt fpIdx) = 0) :
  (b.messageAccts (b.sorted fpIdx)).Pairwise
    fun acct acct' => acctSortKey acct.flags ≤ acctSortKey acct'.flags
  := by
  apply List.pairwise_filterMap.mpr
  apply (b.sorted_pairwise fpIdx).imp
  intro i j hij acct hacct acct' hacct'
  rw [← flagsAt_of_getElem? hacct, ← flagsAt_of_getElem? hacct']
  rcases isLE_acctCmp.mp hij with ⟨rfl, -⟩ | ⟨-, hlt | ⟨heq, -⟩⟩
  · rw [hfp]
    apply Nat.zero_le
  · apply Nat.le_of_lt hlt
  · apply Nat.le_of_eq heq

/-- The row of the fee payer comes first. -/
theorem messageAccts_head {b : TransactionBuilder} {fpIdx : Nat} (h : fpIdx < b.accts.length) :
  (b.messageAccts (b.sorted fpIdx))[0]? = b.accts[fpIdx]?
  := by
  rw [getElem?_messageAccts]
  have hmem : fpIdx ∈ b.sorted fpIdx := mem_sorted.mpr h
  have hpair := b.sorted_pairwise fpIdx
  cases hs : b.sorted fpIdx with
  | nil => simp [hs] at hmem
  | cons i l =>
    rw [hs] at hmem hpair
    obtain ⟨hhead, -⟩ := List.pairwise_cons.mp hpair
    rcases List.mem_cons.mp hmem with rfl | hmem
    · rfl
    · have hle := isLE_acctCmp.mp (hhead fpIdx hmem)
      obtain rfl : i = fpIdx := by omega
      rfl

/-! ### The remapping -/

/-- The row of the account table at position `i` is in the message at position `remap[i]`. -/
theorem getElem?_messageAccts_remap {b : TransactionBuilder} (fpIdx : Nat) {i : Nat}
    (hb : b.accts.length ≤ sys.acctAddrMax) (hi : i < b.accts.length) :
  (b.messageAccts (b.sorted fpIdx))[((remapOf sys (b.sorted fpIdx)).getD i 0).toNat]?
    = b.accts[i]?
  := by
  have hmem : i ∈ b.sorted fpIdx := mem_sorted.mpr hi
  obtain ⟨p, hp, hpi⟩ := List.getElem_of_mem hmem
  have hlen : (b.sorted fpIdx).length = b.accts.length := by
    simpa using (b.sorted_perm fpIdx).length_eq
  have hremap : (remapOf sys (b.sorted fpIdx))[i]? = some (UInt8.ofNat p) := by
    rw [remapOf]
    have hfold : ∀ (ps : List (Nat × Nat)) (t : Bytes),
        ps.foldl (fun remap q => remap.set q.1 (UInt8.ofNat q.2)) t
          = (ps.map fun q => (q.1, UInt8.ofNat q.2)).foldl (fun t q => t.set q.1 q.2) t := by
      intro ps t
      rw [List.foldl_map]
    rw [hfold]
    apply Sorted.getElem?_foldl_set (p := (i, UInt8.ofNat p))
    · rw [List.map_map]
      have hfst : (Prod.fst ∘ fun q : Nat × Nat => (q.1, UInt8.ofNat q.2)) = Prod.fst := rfl
      rw [hfst, List.zipIdx_map_fst]
      apply b.sorted_nodup
    · intro q hq
      obtain ⟨⟨j, k⟩, hjk, rfl⟩ := List.mem_map.mp hq
      have hj := mem_sorted.mp (List.fst_mem_of_mem_zipIdx hjk)
      rw [List.length_replicate]
      omega
    · apply List.mem_map.mpr
      use (i, p)
      rw [List.mk_mem_zipIdx_iff_getElem?]
      simp [List.getElem?_eq_getElem hp, hpi]
  rw [List.getD_eq_getElem?_getD, hremap, Option.getD_some, CompactU16.toNat_ofNat_of_lt,
    getElem?_messageAccts, List.getElem?_eq_getElem hp, hpi, Option.bind_some]
  have := sys.acctAddrMax_eq
  have := sys.sigMax_lt
  omega

end TransactionBuilder

end FdTxn

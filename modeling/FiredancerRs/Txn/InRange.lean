import FiredancerRs.Txn.ArrayBuild
import FiredancerRs.Txn.RoundTrip

/-!
# Builders in range

However calls end, the entries of a builder lie in the used parts of its arrays, no call faults but
by the assertion of `fee_payer`, and `build` does not fault (`Reached.neverOutOfRange`). Each
builder that is reached holds the lists of a builder that the model reaches (`Reached.represents`).
-/

open FdEd25519 FixedArray

namespace FdTxn

variable {sys : Sys}

/-- The builder is reached from `TransactionBuilder::new` by calls, however they end. A call that
panics leaves the builder as it was. -/
inductive Reached : ArrayBuilder sys → Prop
  | new : Reached .new
  | call {s s' : ArrayBuilder sys} {c : Call} {outcome : Outcome} :
      Reached s → c.InMemory → s.run c = .ok (outcome, s') → Reached s'

namespace ArrayBuilder

variable {s : ArrayBuilder sys}

/-- The entry lies in the used parts of the arrays. -/
structure EntryInRange (s : ArrayBuilder sys) (entry : InstrEntry) : Prop where
  program : entry.programIdx.toNat < s.acctCount
  accts : entry.acctOff.toNat + entry.acctCnt.toNat ≤ s.instrAcctLen
  data : entry.dataOff.toNat + entry.dataLen.toNat ≤ s.instrDataLen

/-- The counts are within the arrays, the entries and the positions that are stored lie in the used
parts, and successive entries do not overlap. -/
structure InRange (s : ArrayBuilder sys) : Prop where
  acctCount : s.acctCount ≤ sys.acctAddrMax
  instrCount : s.instrCount ≤ sys.instrMax
  instrAcctLen : s.instrAcctLen ≤ sys.mtu
  instrDataLen : s.instrDataLen ≤ sys.mtu
  entries : ∀ i < s.instrCount, ∃ entry, s.instrs[i]? = some entry ∧ s.EntryInRange entry
  apart : ∀ i j entry entry', i < j → j < s.instrCount → s.instrs[i]? = some entry →
    s.instrs[j]? = some entry' → TransactionBuilder.InstrEntry.Before entry entry'
  accounts : ∀ j < s.instrAcctLen, ∃ i, s.instrAcctBuf[j]? = some i ∧ i.toNat < s.acctCount

end ArrayBuilder

open ArrayBuilder

/-- The arrays that are reached hold the lists of a builder that the model reaches. -/
theorem Reached.represents {s : ArrayBuilder sys} (h : Reached s) :
  ∃ b, Represents s b ∧ Reachable sys b
  := by
  induction h with
  | new => exact ⟨.new, represents_new, .new⟩
  | @call s s' c outcome _ hmem hrun ih =>
    obtain ⟨b, hs, hb⟩ := ih
    rcases run_cases hs hmem with ⟨s₁, hok, hs₁⟩ | ⟨key, -, -, -, hpanic⟩
    · rw [hok, Except.ok.injEq, Prod.mk.injEq] at hrun
      obtain ⟨-, rfl⟩ := hrun
      exact ⟨_, hs₁, hb.call c⟩
    · rw [hpanic] at hrun
      cases hrun

/-- A builder that calls on the model make is held by arrays that they reach. -/
theorem Built.reached {calls : List Call} {b : TransactionBuilder} (h : Built sys calls b) :
  (∀ c ∈ calls, c.InMemory) → ∃ s : ArrayBuilder sys, Reached s ∧ Represents s b
  := by
  intro hmem
  induction h with
  | new => exact ⟨.new, .new, represents_new⟩
  | @call calls b b' c _ hrun ih =>
    rw [List.forall_mem_append, List.forall_mem_singleton] at hmem
    obtain ⟨s, hs, hb⟩ := ih hmem.1
    rcases run_cases hb hmem.2 with ⟨s', hok, hs'⟩ | ⟨key, rfl, hfind, hfull, -⟩
    · rw [hrun] at hok hs'
      exact ⟨s', .call hs hmem.2 hok, hs'⟩
    · rw [Call.run, TransactionBuilder.setFeePayer, hfind] at hrun
      simp [Nat.not_lt.mpr hfull] at hrun

/-- The arrays that hold lists with entries in them have entries in range. -/
theorem inRange_of_represents {s : ArrayBuilder sys} {b : TransactionBuilder}
    (h : Represents s b) (hb : TransactionBuilder.Indexed b) :
  s.InRange
  := by
  have hcount := acctCount_eq h
  constructor
  · rw [hcount]
    apply length_accts_le h
  · rw [h.instrs.count_eq]
    apply h.instrs.length_le
  · rw [h.acctBuf.count_eq]
    apply h.acctBuf.length_le
  · rw [h.dataBuf.count_eq]
    apply h.dataBuf.length_le
  · intro i hi
    rw [h.instrs.getElem? hi]
    rw [h.instrs.count_eq] at hi
    use b.instrs[i], List.getElem?_eq_getElem hi
    have hmem := List.getElem_mem hi
    constructor
    · rw [hcount]
      apply hb.programs _ hmem
    · rw [h.acctBuf.count_eq]
      apply (hb.entries _ hmem).1
    · rw [h.dataBuf.count_eq]
      apply (hb.entries _ hmem).2
  · intro i j entry entry' hij hj hentry hentry'
    rw [h.instrs.getElem? (Nat.lt_trans hij hj)] at hentry
    rw [h.instrs.getElem? hj] at hentry'
    obtain ⟨hi', rfl⟩ := List.getElem?_eq_some_iff.mp hentry
    obtain ⟨hj', rfl⟩ := List.getElem?_eq_some_iff.mp hentry'
    apply List.pairwise_iff_getElem.mp hb.apart i j hi' hj' hij
  · intro j hj
    rw [h.acctBuf.getElem? hj, hcount]
    rw [h.acctBuf.count_eq] at hj
    exact ⟨_, List.getElem?_eq_getElem hj, hb.accounts _ (List.getElem_mem hj)⟩

/-- The entries of a builder that is reached are in range, a call on it faults only by the assertion
that the account table is not full, and to build its transaction does not fault. -/
theorem Reached.neverOutOfRange (hsz : sys.signatureSz = 64) {s : ArrayBuilder sys} (h : Reached s) :
  s.InRange
    ∧ (∀ c : Call, c.InMemory → ∀ f, s.run c = .error f →
        ∃ key, c = .feePayer key ∧ s.acctCount = sys.acctAddrMax
          ∧ f = .assertion "account table full")
    ∧ ∀ f, s.build ≠ .error (.fault f)
  := by
  obtain ⟨b, hs, hb⟩ := h.represents
  refine ⟨inRange_of_represents hs hb.indexed, ?_, ?_⟩
  · intro c hmem f hf
    rcases run_cases hs hmem with ⟨s', hok, -⟩ | ⟨key, rfl, -, hfull, hpanic⟩
    · rw [hok] at hf
      cases hf
    · rw [hpanic] at hf
      have hle := length_accts_le hs
      exact ⟨key, rfl, by rw [acctCount_eq hs]; omega, (Except.error.inj hf).symm⟩
  · intro f
    apply (build_simulates (by rw [hsz]; decide) hs hb.indexed).ne_error
    intro e he
    cases he

theorem neverOutOfRange_sample :
  ∃ s : ArrayBuilder .accepting, s.instrCount = 1 ∧ s.InRange
    ∧ (∀ c : Call, c.InMemory → ∀ f, s.run c = .error f →
        ∃ key, c = .feePayer key ∧ s.acctCount = 128 ∧ f = .assertion "account table full")
    ∧ ∀ f, s.build ≠ .error (.fault f)
  := by
  obtain ⟨s, hreached, hs⟩ := sampleBuilder_built.reached (by
    simp [sampleCalls, Call.InMemory])
  exact ⟨s, hs.instrs.count_eq, Reached.neverOutOfRange rfl hreached⟩

end FdTxn

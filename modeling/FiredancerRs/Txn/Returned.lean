import FiredancerRs.Txn.Reachable
import FiredancerRs.Txn.RoundTrip

/-!
# Calls that return

What a call does to a builder when it returns, with a value or with an error. Either the account
table is full after it, and the call has granted the first of the requests it makes
(`Call.Stopped`), or it has granted them all, and what else it does depends only on the lengths of
the lists of the builder (`Call.Effect`).
-/

open FdEd25519

namespace FdTxn

variable {sys : Sys}

open TransactionBuilder

/-! ### What a call is heard to ask -/

/-- The fee payer a call sets. -/
def Call.payer : Call → Option Pubkey
  | .feePayer key => some key
  | _ => none

/-- The blockhash a call sets. -/
def Call.hash : Call → Option Bytes32
  | .recentBlockhash hash => some hash
  | _ => none

/-- The version a call sets. -/
def Call.newVersion : Call → Option TransactionVersion
  | .version v => some v
  | _ => none

section Heard

variable (sys : Sys) (b : TransactionBuilder)

/-- There is room for an instruction, but for its keys. -/
def TransactionBuilder.HasRoom (ix : InstructionBuf) : Prop :=
  b.instrs.length < sys.instrMax
    ∧ b.instrAcctBuf.length + ix.accounts.length ≤ sys.mtu
    ∧ b.instrDataBuf.length + ix.data.length ≤ sys.mtu

instance (ix : InstructionBuf) : Decidable (b.HasRoom sys ix) :=
  inferInstanceAs (Decidable (_ ∧ _ ∧ _))

/-- The requests that a call grants when the account table does not get full. The account for
which there is no room in the account buffer is granted too. -/
def Call.heard : Call → List AccountMeta
  | .addInstruction ix =>
    if b.instrs.length < sys.instrMax then
      ⟨ix.programId, false, false⟩ :: ix.accounts.take (sys.mtu - b.instrAcctBuf.length + 1)
    else
      []
  | c => c.requests

/-- The number of positions that a call puts in the account buffer when the account table does not
get full. -/
def Call.positions : Call → Nat
  | .addInstruction ix =>
    if b.instrs.length < sys.instrMax then
      min ix.accounts.length (sys.mtu - b.instrAcctBuf.length)
    else
      0
  | _ => 0

/-- The instruction that a call adds when the account table does not get full. -/
def Call.taken : Call → Option InstructionBuf
  | .addInstruction ix => if b.HasRoom sys ix then some ix else none
  | _ => none

end Heard

/-- What a call does to a builder when it grants all that it is heard to ask. -/
structure Call.Effect (sys : Sys) (c : Call) (b b' : TransactionBuilder) : Prop where
  accts : b'.accts = grant (c.heard sys b) b.accts
  acctBuf : b'.instrAcctBuf.length = b.instrAcctBuf.length + c.positions sys b
  dataBuf : b'.instrDataBuf.length
    = b.instrDataBuf.length + ((c.taken sys b).map fun ix => ix.data.length).getD 0
  entries : ∀ {added : List InstructionBuf},
    List.Forall₂ (Locates (keys b.accts) b.instrAcctBuf b.instrDataBuf) b.instrs added →
      List.Forall₂ (Locates (keys b'.accts) b'.instrAcctBuf b'.instrDataBuf) b'.instrs
        (added ++ (c.taken sys b).toList)
  feePayer : b'.feePayer = c.payer.or b.feePayer
  blockhash : b'.blockhash = c.hash.or b.blockhash
  version : b'.version = c.newVersion.getD b.version

/-- What a call does to a builder when it is stopped by a full account table. -/
structure Call.Stopped (sys : Sys) (c : Call) (b b' : TransactionBuilder) : Prop where
  grown : ∃ done idxs, done <+: c.heard sys b ∧ b' = b.grow done idxs
  full : sys.acctAddrMax ≤ b'.accts.length
  payer : c.payer = none
  hash : c.hash = none
  newVersion : c.newVersion = none

section Heard

variable {b : TransactionBuilder} {ix : InstructionBuf}

theorem Call.heard_of_full (h : sys.instrMax ≤ b.instrs.length) :
  (Call.addInstruction ix).heard sys b = [] ∧ (Call.addInstruction ix).positions sys b = 0
  := by
  have hnot : ¬ b.instrs.length < sys.instrMax := Nat.not_lt.mpr h
  simp [Call.heard, Call.positions, hnot]

/-- An instruction whose accounts all get a position is heard as a whole. -/
theorem Call.heard_of_length_le (hslot : b.instrs.length < sys.instrMax)
    (hacct : b.instrAcctBuf.length + ix.accounts.length ≤ sys.mtu) :
  (Call.addInstruction ix).heard sys b = instrRequests ix
    ∧ (Call.addInstruction ix).positions sys b = ix.accounts.length
  := by
  rw [Call.heard, Call.positions, if_pos hslot, if_pos hslot, List.take_of_length_le (by omega),
    Nat.min_eq_left (by omega)]
  exact ⟨rfl, rfl⟩

end Heard

/-! ### Instructions -/

/-- What a refused instruction leaves when the account table does not get full. -/
theorem Call.effect_of_refused {b : TransactionBuilder} {ix : InstructionBuf} {idxs : Bytes}
    (hroom : ¬ b.HasRoom sys ix)
    (hidxs : idxs.length = (Call.addInstruction ix).positions sys b) :
  (Call.addInstruction ix).Effect sys b (b.grow ((Call.addInstruction ix).heard sys b) idxs)
  where
  accts := rfl
  acctBuf := by rw [← hidxs, grow, List.length_append]
  dataBuf := by simp [Call.taken, hroom, grow]
  entries h := by
    rw [Call.taken, if_neg hroom, Option.toList_none, List.append_nil]
    apply entries_grow h
  feePayer := rfl
  blockhash := rfl
  version := rfl

/-- What the loop of `add_instruction` leaves when it is stopped. -/
theorem Stops.effect_or_stopped {b b' : TransactionBuilder} {ix : InstructionBuf}
    {done rest : List AccountMeta} {m : AccountMeta} {idxs : Bytes} (hb' : Fits sys b')
    (hslot : b.instrs.length < sys.instrMax) (haccounts : ix.accounts = done ++ m :: rest)
    (hidxs : idxs.length = done.length)
    (h : Stops sys b (⟨ix.programId, false, false⟩ :: done) m idxs b') :
  (Call.addInstruction ix).Effect sys b b' ∨ (Call.addInstruction ix).Stopped sys b b'
  := by
  have hend := hb'.acctBuf
  cases h with
  | tableFull _ hfull =>
    rw [grow, List.length_append] at hend
    right
    refine ⟨⟨_, _, ?_, rfl⟩, hfull, rfl, rfl, rfl⟩
    rw [Call.heard, if_pos hslot, List.cons_prefix_cons]
    use rfl
    rw [haccounts, List.take_append, List.take_of_length_le (by omega)]
    apply List.prefix_append
  | bufferFull hbuf =>
    rw [grow, List.length_append] at hbuf hend
    left
    have hdone : sys.mtu - b.instrAcctBuf.length = done.length := by omega
    have hlength : ix.accounts.length = done.length + (rest.length + 1) := by
      rw [haccounts, List.length_append, List.length_cons]
    have hheard : (Call.addInstruction ix).heard sys b
        = ⟨ix.programId, false, false⟩ :: done ++ [m] := by
      rw [Call.heard, if_pos hslot, hdone, haccounts, List.take_append,
        List.take_of_length_le (by omega), Nat.add_sub_cancel_left]
      rfl
    rw [← hheard]
    apply Call.effect_of_refused
    · rintro ⟨-, hacct, -⟩
      omega
    · rw [Call.positions, if_pos hslot]
      omega

/-- What an `add_instruction` that returns does. -/
theorem Call.addInstruction_effect {b b' : TransactionBuilder} {ix : InstructionBuf}
    {r : Except BuildError Unit} (hb : Fits sys b) (h : b.addInstruction sys ix = (r, b')) :
  (Call.addInstruction ix).Effect sys b b' ∨ (Call.addInstruction ix).Stopped sys b b'
  := by
  cases r with
  | ok _ =>
    left
    obtain ⟨entry, idxs, rfl, hloc, hidxs, hslot, -, hacct, hdata⟩ := addInstruction_ok hb h
    rw [List.length_append] at hacct hdata
    have hroom : b.HasRoom sys ix := ⟨hslot, by omega, hdata⟩
    obtain ⟨hheard, hpositions⟩ := @Call.heard_of_length_le sys b ix hslot (by omega)
    constructor
    · rw [hheard]
    · rw [hpositions, List.length_append, hidxs]
    · simp [Call.taken, hroom]
    · intro added hentries
      rw [Call.taken, if_pos hroom]
      apply List.rel_append _ (.cons hloc .nil)
      apply hentries.imp
      intro entry' ix' hloc'
      apply hloc'.mono (keys_prefix_grant _ b.accts) (List.prefix_append _ _)
        (List.prefix_append _ _)
    · rfl
    · rfl
    · rfl
  | error e =>
    obtain ⟨hleft, hb'⟩ := addInstruction_error hb h
    cases hleft with
    | nothing hwhy =>
      rcases hwhy with hfull | ⟨-, hfull⟩
      · left
        obtain ⟨hheard, hpositions⟩ := @Call.heard_of_full sys b ix hfull
        have heffect := @Call.effect_of_refused sys b ix []
          (fun hroom => absurd hroom.1 (Nat.not_lt.mpr hfull)) hpositions.symm
        rwa [hheard, grow_nil] at heffect
      · right
        refine ⟨⟨[], [], List.nil_prefix, ?_⟩, hfull, rfl, rfl, rfl⟩
        rw [grow_nil]
    | stopped hslot haccounts hidxs hstop =>
      apply Stops.effect_or_stopped hb' hslot haccounts hidxs hstop
    | @dataTooLarge idxs hslot hidxs =>
      left
      have hacct : b.instrAcctBuf.length + ix.accounts.length ≤ sys.mtu := by
        rw [← hidxs, ← List.length_append]
        apply hb'.acctBuf
      obtain ⟨hheard, hpositions⟩ := @Call.heard_of_length_le sys b ix hslot hacct
      rw [← hheard]
      apply Call.effect_of_refused _ (hidxs.trans hpositions.symm)
      -- with room it would have succeeded
      rintro ⟨-, -, hdata⟩
      obtain ⟨b₁, hok⟩ := addInstruction_of_room hslot hb'.accts hacct hdata
      rw [hok] at h
      cases h

/-! ### All calls -/

/-- A call that adds no instruction grants its requests. -/
theorem Call.effect_of_accts {c : Call} {b b' : TransactionBuilder}
    (hc : c.instruction = none)
    (h : b' = { b with
      accts := grant c.requests b.accts
      feePayer := c.payer.or b.feePayer
      blockhash := c.hash.or b.blockhash
      version := c.newVersion.getD b.version }) :
  c.Effect sys b b'
  := by
  have hheard : c.heard sys b = c.requests := by
    cases c with
    | addInstruction ix => simp [Call.instruction] at hc
    | _ => rfl
  have hpositions : c.positions sys b = 0 := by
    cases c with
    | addInstruction ix => simp [Call.instruction] at hc
    | _ => rfl
  have htaken : c.taken sys b = none := by
    cases c with
    | addInstruction ix => simp [Call.instruction] at hc
    | _ => rfl
  subst h
  constructor
  · rw [hheard]
  · rw [hpositions, Nat.add_zero]
  · rw [htaken]
    rfl
  · intro added hentries
    rw [htaken, Option.toList_none, List.append_nil]
    apply hentries.imp
    intro entry ix hloc
    apply hloc.mono (keys_prefix_grant _ b.accts) List.prefix_rfl List.prefix_rfl
  · rfl
  · rfl
  · rfl

/-- What a call that returns does. -/
theorem Call.effect_or_stopped {c : Call} {b b' : TransactionBuilder} {outcome : Outcome}
    (hb : Fits sys b) (h : c.run sys b = (outcome, b')) (hreturns : outcome ≠ .panic) :
  c.Effect sys b b' ∨ c.Stopped sys b b'
  := by
  cases c with
  | version v =>
    left
    obtain rfl : b.setVersion v = b' := congrArg Prod.snd h
    apply Call.effect_of_accts rfl rfl
  | recentBlockhash hash =>
    left
    obtain rfl : b.recentBlockhash hash = b' := congrArg Prod.snd h
    apply Call.effect_of_accts rfl rfl
  | feePayer key =>
    left
    rw [Call.run] at h
    split at h
    · obtain rfl : Outcome.panic = outcome := congrArg Prod.fst h
      apply absurd rfl hreturns
    · next b₁ hset =>
      obtain rfl : b₁ = b' := congrArg Prod.snd h
      obtain ⟨rfl, -⟩ := setFeePayer_ok hset
      apply Call.effect_of_accts rfl rfl
  | addSigner key =>
    cases hadd : b.addSigner sys key with
    | mk r b₁ =>
      rw [Call.run, hadd] at h
      obtain rfl : b₁ = b' := congrArg Prod.snd h
      cases r with
      | ok _ =>
        left
        obtain ⟨rfl, -⟩ := addSigner_ok hadd
        apply Call.effect_of_accts rfl
        simp [Call.requests, metaFlags, Call.payer, Call.hash, Call.newVersion]
      | error e =>
        right
        obtain ⟨rfl, hfull⟩ := addSigner_error hadd
        refine ⟨⟨[], [], List.nil_prefix, ?_⟩, hfull, rfl, rfl, rfl⟩
        rw [grow_nil]
  | addInstruction ix =>
    cases hadd : b.addInstruction sys ix with
    | mk r b₁ =>
      rw [Call.run, hadd] at h
      obtain rfl : b₁ = b' := congrArg Prod.snd h
      apply Call.addInstruction_effect hb hadd

/-! ### Runs -/

/-- The builder is reached from `TransactionBuilder::new` by calls that return, with a value or with
an error. -/
inductive Returned (sys : Sys) : List Call → TransactionBuilder → Prop
  | new : Returned sys [] .new
  | call {calls : List Call} {b b' : TransactionBuilder} {c : Call} {outcome : Outcome} :
      Returned sys calls b → c.run sys b = (outcome, b') → outcome ≠ .panic →
        Returned sys (calls ++ [c]) b'

/-- Run calls one after the other, for as long as they return. -/
def Call.runEach (sys : Sys) : List Call → TransactionBuilder → Option TransactionBuilder
  | [], b => some b
  | c :: calls, b =>
    if (c.run sys b).1 = .panic then none else runEach sys calls (c.run sys b).2

theorem Returned.runEach :
  ∀ (calls' : List Call) {calls : List Call} {b b' : TransactionBuilder},
    Returned sys calls b → Call.runEach sys calls' b = some b' → Returned sys (calls ++ calls') b'
  | [], _, _, _, hb, h => by
      obtain rfl := Option.some.inj h
      rwa [List.append_nil]
  | c :: calls', calls, _, _, hb, h => by
      rw [Call.runEach] at h
      split at h
      · cases h
      · next hreturns =>
        rw [← List.singleton_append, ← List.append_assoc]
        apply (hb.call rfl hreturns).runEach calls' h

/-- The builder is the one that each call leaves behind to the next. -/
theorem Returned.eq_foldl {calls : List Call} {b : TransactionBuilder} (h : Returned sys calls b) :
  b = calls.foldl (fun b c => (c.run sys b).2) .new
  := by
  induction h with
  | new => rfl
  | @call calls b b' c outcome _ hrun _ ih => rw [List.foldl_append, ← ih, List.foldl_cons, hrun,
      List.foldl_nil]

theorem Built.returned {calls : List Call} {b : TransactionBuilder} (h : Built sys calls b) :
  Returned sys calls b
  := by
  induction h with
  | new => apply Returned.new
  | call _ hrun ih => apply Returned.call ih hrun nofun

theorem Returned.fits {calls : List Call} {b : TransactionBuilder} (h : Returned sys calls b) :
  Fits sys b
  := by
  induction h with
  | new => apply Fits.new
  | @call calls b b' c outcome _ hrun _ ih =>
    have hfits := c.run_fits ih
    rwa [hrun] at hfits

section Effects

variable {c : Call} {b b' : TransactionBuilder}

theorem Call.eq_of_payer {key : Pubkey} (h : c.payer = some key) :
  c = .feePayer key
  := by
  cases c <;> simp_all [Call.payer]

/-- A call grants the first of the requests it is heard to make. -/
theorem Call.grants (h : c.Effect sys b b' ∨ c.Stopped sys b b') :
  ∃ done, done <+: c.heard sys b ∧ b'.accts = grant done b.accts
    ∧ (done = c.heard sys b ∨ sys.acctAddrMax ≤ b'.accts.length)
  := by
  rcases h with heffect | hstopped
  · exact ⟨_, List.prefix_rfl, heffect.accts, .inl rfl⟩
  · obtain ⟨done, idxs, hfirst, rfl⟩ := hstopped.grown
    exact ⟨done, hfirst, rfl, .inr hstopped.full⟩

theorem Call.feePayer_eq (h : c.Effect sys b b' ∨ c.Stopped sys b b') :
  b'.feePayer = c.payer.or b.feePayer
  := by
  rcases h with heffect | hstopped
  · apply heffect.feePayer
  · obtain ⟨done, idxs, -, rfl⟩ := hstopped.grown
    rw [hstopped.payer]
    rfl

/-- The fee payer a call sets is a writable signer after it. -/
theorem Call.isWritableSigner_of_payer (h : c.Effect sys b b' ∨ c.Stopped sys b b') {key : Pubkey}
    (hkey : c.payer = some key) :
  IsWritableSigner b'.accts key
  := by
  rcases h with heffect | hstopped
  · obtain rfl := Call.eq_of_payer hkey
    rw [heffect.accts]
    apply isWritableSigner_grant_of_mem List.mem_cons_self
  · rw [hstopped.payer] at hkey
    cases hkey

theorem Call.isWritableSigner (h : c.Effect sys b b' ∨ c.Stopped sys b b') {key : Pubkey}
    (hkey : IsWritableSigner b.accts key) :
  IsWritableSigner b'.accts key
  := by
  obtain ⟨done, -, haccts, -⟩ := Call.grants h
  rw [haccts]
  apply hkey.grant

/-- What a builder keeps it keeps when a call returns. -/
theorem Call.kept {added : List InstructionBuf} (hb : Kept sys added b) (hb' : Fits sys b')
    (h : c.Effect sys b b' ∨ c.Stopped sys b b') :
  ∃ added', Kept sys added' b'
  := by
  have hpayer : ∀ key, b'.feePayer = some key → IsWritableSigner b'.accts key := by
    intro key hkey
    rw [Call.feePayer_eq h] at hkey
    cases hc : c.payer with
    | none =>
      rw [hc, Option.none_or] at hkey
      apply Call.isWritableSigner h (hb.payer key hkey)
    | some key' =>
      rw [hc, Option.some_or] at hkey
      apply Call.isWritableSigner_of_payer h (hc.trans hkey)
  rcases h with heffect | hstopped
  · exact ⟨_, hb', heffect.entries hb.entries, hpayer⟩
  · obtain ⟨done, idxs, -, rfl⟩ := hstopped.grown
    exact ⟨added, hb', entries_grow hb.entries done idxs, hpayer⟩

end Effects

theorem Returned.kept {calls : List Call} {b : TransactionBuilder} (h : Returned sys calls b) :
  ∃ added, Kept sys added b
  := by
  induction h with
  | new => exact ⟨[], Fits.new, .nil, fun key hkey => by simp [TransactionBuilder.new] at hkey⟩
  | @call calls b b' c outcome hb hrun hreturns ih =>
    obtain ⟨added, hkept⟩ := ih
    apply Call.kept hkept (hb.call hrun hreturns).fits
    apply Call.effect_or_stopped hb.fits hrun hreturns

/-- A key that was ever the fee payer is a writable signer of the table. -/
theorem Returned.isWritableSigner {calls : List Call} {b : TransactionBuilder} {key : Pubkey}
    (h : Returned sys calls b) (hkey : .feePayer key ∈ calls) :
  IsWritableSigner b.accts key
  := by
  induction h with
  | new => simp at hkey
  | @call calls b b' c outcome hb hrun hreturns ih =>
    have heffect := Call.effect_or_stopped hb.fits hrun hreturns
    rcases List.mem_append.mp hkey with hkey | hkey
    · apply Call.isWritableSigner heffect (ih hkey)
    · obtain rfl : .feePayer key = c := List.mem_singleton.mp hkey
      apply Call.isWritableSigner_of_payer heffect rfl

/-- A builder on which `fee_payer` was called has a fee payer, which is a key that a call set. -/
theorem Returned.exists_feePayer {calls : List Call} {b : TransactionBuilder} {key : Pubkey}
    (h : Returned sys calls b) (hkey : .feePayer key ∈ calls) :
  ∃ feePayer, b.feePayer = some feePayer
  := by
  induction h with
  | new => simp at hkey
  | @call calls b b' c outcome hb hrun hreturns ih =>
    rw [Call.feePayer_eq (Call.effect_or_stopped hb.fits hrun hreturns)]
    rcases List.mem_append.mp hkey with hkey | hkey
    · obtain ⟨feePayer, hfp⟩ := ih hkey
      rw [hfp]
      cases c.payer with
      | none => exact ⟨feePayer, rfl⟩
      | some key' => exact ⟨key', rfl⟩
    · obtain rfl : .feePayer key = c := List.mem_singleton.mp hkey
      exact ⟨key, rfl⟩

/-- The fee payer of a builder is one that a call set. -/
theorem Returned.mem_of_feePayer {calls : List Call} {b : TransactionBuilder} {key : Pubkey}
    (h : Returned sys calls b) (hfp : b.feePayer = some key) :
  .feePayer key ∈ calls
  := by
  induction h with
  | new => simp [TransactionBuilder.new] at hfp
  | @call calls b b' c outcome hb hrun hreturns ih =>
    rw [Call.feePayer_eq (Call.effect_or_stopped hb.fits hrun hreturns)] at hfp
    cases hc : c.payer with
    | none =>
      rw [hc, Option.none_or] at hfp
      apply List.mem_append_left _ (ih hfp)
    | some key' =>
      rw [hc, Option.some_or] at hfp
      obtain rfl := Call.eq_of_payer (hc.trans hfp)
      apply List.mem_append_right _ (List.mem_singleton_self _)

end FdTxn

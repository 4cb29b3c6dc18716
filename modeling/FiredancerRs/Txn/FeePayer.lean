import FiredancerRs.Txn.Removal
import FiredancerRs.Txn.SameResult

/-!
# Replacing the fee payer

`fee_payer` overwrites the fee payer of a builder, but it also puts the key in the account
table as a writable signer, and nothing takes it out again (`feePayer_mem_build`). When a later
call replaces the fee payer, `build` does what it would have done without the replaced calls, up
to the order of the keys inside a privilege class, exactly when the other calls make the key a
writable signer anyway, or `build` fails with the same error either way (`sameResult_iff`).
-/

open FdEd25519

namespace FdTxn

variable {sys : Sys}

open TransactionBuilder

/-! ### The transactions that are left -/

/-- A writable signer of the table is one of the message. -/
theorem mem_privilegeClass_iff {added : List InstructionBuf} {b : TransactionBuilder}
    {feePayer : Pubkey} {fpIdx : Nat} (h : Kept sys added b) (hfp : b.feePayer = some feePayer)
    (hidx : indexOf b.accts feePayer = some fpIdx) (blockhash : Bytes32) (key : Pubkey) :
  key ∈ (b.wireOf sys (b.sorted fpIdx) blockhash).privilegeClass true true
    ↔ IsWritableSigner b.accts key
  := by
  rw [mem_privilegeClass_wireOf h hfp hidx]
  constructor
  · apply And.right
  · intro hkey
    exact ⟨hkey.mem_keys, hkey⟩

/-- Replaced or not, a key that was ever the fee payer is in the key list of every transaction
that `build` returns, as a required signer. -/
theorem feePayer_mem_build {calls : List Call} {b : TransactionBuilder} {key : Pubkey}
    {tx : UnsignedTransaction} (hb : Returned sys calls b) (hkey : .feePayer key ∈ calls)
    (h : b.build sys = .ok tx) :
  ∃ wire, decodeTransaction sys.signatureSz tx.asBytes = some (wire, [])
    ∧ key ∈ wire.privilegeClass true true
  := by
  obtain ⟨added, hkept⟩ := hb.kept
  obtain ⟨feePayer, blockhash, fpIdx, hfp, -, hidx, hdecode⟩ :=
    build_wire hkept.fits hkept.entriesFit h
  refine ⟨_, hdecode, ?_⟩
  rw [mem_privilegeClass_iff hkept hfp hidx]
  apply hb.isWritableSigner hkey

/-- The calls with `key` as the fee payer are replaced: the builder `b` is reached by the calls,
and `b'` by those that are left without them. -/
structure Replaced (sys : Sys) (key : Pubkey) (calls : List Call) (b b' : TransactionBuilder) :
    Prop where
  mem : .feePayer key ∈ calls
  returned : Returned sys calls b
  returned' : Returned sys (withoutFeePayer key calls) b'
  follows : Follows sys key b b'

namespace Replaced

variable {calls : List Call} {key feePayer feePayer' : Pubkey} {b b' : TransactionBuilder}
  {fpIdx fpIdx' : Nat}

/-- The key is not the fee payer when its calls are left out. -/
theorem feePayer_ne (h : Replaced sys key calls b b') (hfp' : b'.feePayer = some feePayer') :
  feePayer' ≠ key
  := by
  rintro rfl
  have hmem := h.returned'.mem_of_feePayer hfp'
  simp [withoutFeePayer] at hmem

/-- The builders keep the same instructions. -/
theorem kept (h : Replaced sys key calls b b') (hmirrors : Mirrors key b b') :
  ∃ added, Kept sys added b ∧ Kept sys added b'
  := by
  obtain ⟨added, hentries, hentries'⟩ := hmirrors.entries
  obtain ⟨_, hkept⟩ := h.returned.kept
  obtain ⟨_, hkept'⟩ := h.returned'.kept
  exact ⟨added, ⟨hkept.fits, hentries, hkept.payer⟩, ⟨hkept'.fits, hentries', hkept'.payer⟩⟩

section Mirror

variable (h : Replaced sys key calls b b') (hmirrors : Mirrors key b b')

include h hmirrors

/-- The messages are the same up to order, when the key is a writable signer without the calls left
out. -/
theorem sameUpToOrder (hkey : IsWritableSigner b'.accts key) (hfp : b.feePayer = some feePayer)
    (hidx : indexOf b.accts feePayer = some fpIdx) (hfp' : b'.feePayer = some feePayer)
    (hidx' : indexOf b'.accts feePayer = some fpIdx') (blockhash : Bytes32) :
  (b.wireOf sys (b.sorted fpIdx) blockhash).SameUpToOrder
    (b'.wireOf sys (b'.sorted fpIdx') blockhash)
  := by
  obtain ⟨added, hkept, hkept'⟩ := h.kept hmirrors
  have hroles := hmirrors.sameRoles hkey
  have hheader := headerOf_eq_of_sameRoles hkept.fits hkept'.fits hroles fpIdx fpIdx'
  constructor
  case signatures => simp only [wireOf, hheader]
  case version => simp only [wireOf, h.follows.version]
  case header => simp only [wireOf, hheader]
  case blockhash => rfl
  case feePayer => rw [getElem?_keys_wireOf_zero hidx, getElem?_keys_wireOf_zero hidx']
  case classes =>
    intro signer writable
    apply (List.perm_ext_iff_of_nodup _ _).mpr
    · intro key'
      rw [mem_privilegeClass_wireOf hkept hfp hidx, mem_privilegeClass_wireOf hkept' hfp' hidx',
        hroles.mem, hroles.signer, hroles.writable]
    · apply WireTransaction.nodup_privilegeClass (nodup_keys_wireOf hkept.fits fpIdx blockhash)
    · apply WireTransaction.nodup_privilegeClass (nodup_keys_wireOf hkept'.fits fpIdx' blockhash)
  case instructions => rw [map_resolve_wireOf hkept, map_resolve_wireOf hkept']

/-- The transactions are the same exactly when the key is a writable signer without the calls left
out, and it is not the fee payer in the end. -/
theorem sameTransaction_iff (hfp : b.feePayer = some feePayer)
    (hidx : indexOf b.accts feePayer = some fpIdx) (hfp' : b'.feePayer = some feePayer')
    (hidx' : indexOf b'.accts feePayer' = some fpIdx') (hsigs : classCount b.accts 1 ≤ sys.sigMax)
    (hsigs' : classCount b'.accts 1 ≤ sys.sigMax) (blockhash : Bytes32) :
  SameTransaction sys (b.transaction sys (b.sorted fpIdx) blockhash)
      (b'.transaction sys (b'.sorted fpIdx') blockhash)
    ↔ IsWritableSigner b'.accts key ∧ b.feePayer ≠ some key
  := by
  obtain ⟨added, hkept, hkept'⟩ := h.kept hmirrors
  have hdecode := decode_encode_wireOf hkept.fits hkept.entriesFit
    (Nat.le_trans (Nat.le_of_eq (toNat_sigCount_headerOf hkept.fits fpIdx)) hsigs) blockhash
  have hdecode' := decode_encode_wireOf hkept'.fits hkept'.entriesFit
    (Nat.le_trans (Nat.le_of_eq (toNat_sigCount_headerOf hkept'.fits fpIdx')) hsigs') blockhash
  constructor
  · rintro ⟨-, -, -, wire, wire', hwire, hwire', hsame⟩
    obtain rfl : _ = wire := congrArg Prod.fst (Option.some.inj (hdecode.symm.trans hwire))
    obtain rfl : _ = wire' := congrArg Prod.fst (Option.some.inj (hdecode'.symm.trans hwire'))
    constructor
    · rw [← mem_privilegeClass_iff hkept' hfp' hidx' blockhash]
      apply (hsame.classes true true).mem_iff.mp
      rw [mem_privilegeClass_iff hkept hfp hidx]
      apply h.returned.isWritableSigner h.mem
    · have hhead := hsame.feePayer
      rw [getElem?_keys_wireOf_zero hidx, getElem?_keys_wireOf_zero hidx', ← hfp] at hhead
      rw [hhead]
      intro heq
      apply h.feePayer_ne hfp' (Option.some.inj heq)
  · rintro ⟨hkey, hne⟩
    obtain rfl : feePayer' = feePayer := by
      have heq := h.follows.feePayer hne
      rw [hfp, hfp'] at heq
      apply Option.some.inj heq
    have hheader := headerOf_eq_of_sameRoles hkept.fits hkept'.fits (hmirrors.sameRoles hkey) fpIdx
      fpIdx'
    constructor
    case sigCount => simp only [transaction, hheader]
    case sigOff => simp only [transaction, hheader]
    case messageOff => simp only [transaction, hheader]
    case wire =>
      refine ⟨_, _, hdecode, hdecode', ?_⟩
      apply h.sameUpToOrder hmirrors hkey hfp hidx hfp' hidx'

end Mirror

end Replaced

/-! ### Replacing the fee payer -/

/-- The builder has an instruction, and no more signers than are allowed. -/
structure Signable (sys : Sys) (b : TransactionBuilder) : Prop where
  instrs : b.instrs ≠ []
  signers : classCount b.accts 1 ≤ sys.sigMax

/-- `build` gives on the builder `b`, on which `key` was made the fee payer, what it gives on the
builder `b'`, on which it was not. Either the table of `b` is not full, the key is a writable signer
of `b'` anyway, and it is not the fee payer in the end; or `build` fails for the same reason on
both. -/
inductive Unaffected (sys : Sys) (key : Pubkey) (b b' : TransactionBuilder) : Prop
  | requested :
      b.accts.length < sys.acctAddrMax →
      IsWritableSigner b'.accts key →
      b.feePayer ≠ some key →
      Unaffected sys key b b'
  | noBlockhash :
      b.blockhash = none →
      Unaffected sys key b b'
  | noInstructions :
      b.instrs = [] →
      b'.instrs = [] →
      Unaffected sys key b b'
  | tooManySigners :
      b.instrs ≠ [] →
      b'.instrs ≠ [] →
      sys.sigMax < classCount b.accts 1 →
      sys.sigMax < classCount b'.accts 1 →
      Unaffected sys key b b'
  | tooLarge :
      Signable sys b →
      Signable sys b' →
      ¬ b.FitsMtu sys →
      ¬ b'.FitsMtu sys →
      Unaffected sys key b b'
  | rejected :
      Signable sys b →
      Signable sys b' →
      b.FitsMtu sys →
      b'.FitsMtu sys →
      InvokesFeePayer b →
      InvokesFeePayer b' →
      Unaffected sys key b b'

namespace Replaced

variable {calls : List Call} {key feePayer feePayer' : Pubkey} {b b' : TransactionBuilder}

/-- The same programs are invoked, so the fee payers are invoked alike when they are the same. -/
theorem invokesFeePayer_iff (h : Replaced sys key calls b b') (hmirrors : Mirrors key b b')
    (hne : b.feePayer ≠ some key) :
  InvokesFeePayer b ↔ InvokesFeePayer b'
  := by
  obtain ⟨added, hkept, hkept'⟩ := h.kept hmirrors
  rw [hkept.invokesFeePayer_iff, hkept'.invokesFeePayer_iff, h.follows.feePayer hne]

/-- What is left of the cases on a builder with a blockhash. -/
theorem unaffected_iff {blockhash : Bytes32} (hbh : b.blockhash = some blockhash) :
  Unaffected sys key b b'
    ↔ (b.accts.length < sys.acctAddrMax ∧ IsWritableSigner b'.accts key ∧ b.feePayer ≠ some key)
      ∨ (b.instrs = [] ∧ b'.instrs = [])
      ∨ (b.instrs ≠ [] ∧ b'.instrs ≠ []
        ∧ ((sys.sigMax < classCount b.accts 1 ∧ sys.sigMax < classCount b'.accts 1)
          ∨ (classCount b.accts 1 ≤ sys.sigMax ∧ classCount b'.accts 1 ≤ sys.sigMax
            ∧ ((¬ b.FitsMtu sys ∧ ¬ b'.FitsMtu sys)
              ∨ (b.FitsMtu sys ∧ b'.FitsMtu sys ∧ InvokesFeePayer b ∧ InvokesFeePayer b')))))
  := by
  constructor
  · rintro (⟨hroom, hkey, hne⟩ | hnone | ⟨hnil, hnil'⟩ | ⟨hinstrs, hinstrs', hmany, hmany'⟩
      | ⟨⟨hinstrs, hle⟩, ⟨hinstrs', hle'⟩, hfits, hfits'⟩
      | ⟨⟨hinstrs, hle⟩, ⟨hinstrs', hle'⟩, hfits, hfits', hinvokes, hinvokes'⟩)
    · exact .inl ⟨hroom, hkey, hne⟩
    · simp [hbh] at hnone
    · exact .inr (.inl ⟨hnil, hnil'⟩)
    · exact .inr (.inr ⟨hinstrs, hinstrs', .inl ⟨hmany, hmany'⟩⟩)
    · exact .inr (.inr ⟨hinstrs, hinstrs', .inr ⟨hle, hle', .inl ⟨hfits, hfits'⟩⟩⟩)
    · exact .inr (.inr ⟨hinstrs, hinstrs',
        .inr ⟨hle, hle', .inr ⟨hfits, hfits', hinvokes, hinvokes'⟩⟩⟩)
  · rintro (⟨hroom, hkey, hne⟩ | ⟨hnil, hnil'⟩ | ⟨hinstrs, hinstrs', ⟨hmany, hmany'⟩
      | ⟨hle, hle', ⟨hfits, hfits'⟩ | ⟨hfits, hfits', hinvokes, hinvokes'⟩⟩⟩)
    · apply Unaffected.requested hroom hkey hne
    · apply Unaffected.noInstructions hnil hnil'
    · apply Unaffected.tooManySigners hinstrs hinstrs' hmany hmany'
    · apply Unaffected.tooLarge ⟨hinstrs, hle⟩ ⟨hinstrs', hle'⟩ hfits hfits'
    · apply Unaffected.rejected ⟨hinstrs, hle⟩ ⟨hinstrs', hle'⟩ hfits hfits' hinvokes hinvokes'

section Finished

variable {blockhash : Bytes32} (h : Replaced sys key calls b b') (hparse : sys.ParsesWellFormed)
  (hfp : b.feePayer = some feePayer) (hfp' : b'.feePayer = some feePayer')
  (hbh : b.blockhash = some blockhash)

include h hparse hfp hfp' hbh

/-- When the key is a writable signer anyway, the two computations take the same branches. -/
theorem sameResult_of_requested (hroom : b.accts.length < sys.acctAddrMax)
    (hkey : IsWritableSigner b'.accts key) (hne : b.feePayer ≠ some key) :
  SameResult sys (b.build sys) (b'.build sys)
  := by
  obtain ⟨_, hkept⟩ := h.returned.kept
  obtain ⟨_, hkept'⟩ := h.returned'.kept
  obtain ⟨fpIdx, hidx⟩ := indexOf_isSome_iff.mpr (hkept.fits.feePayer feePayer hfp)
  obtain ⟨fpIdx', hidx'⟩ := indexOf_isSome_iff.mpr (hkept'.fits.feePayer feePayer' hfp')
  have hmirrors := h.follows.mirrors hroom
  have hroles := hmirrors.sameRoles hkey
  have hinstrs : b.instrs = [] ↔ b'.instrs = [] := by
    rw [← List.length_eq_zero_iff, hmirrors.length_instrs, List.length_eq_zero_iff]
  have hcount := hroles.classCount_eq hkept.fits.nodup hkept'.fits.nodup 1
  have hfitsMtu : b.FitsMtu sys ↔ b'.FitsMtu sys := by
    rw [FitsMtu, FitsMtu, hmirrors.sizes_eq h.follows.version hkept.fits hkept'.fits hroles]
  rw [build_eq hparse hkept hfp hbh hidx,
    build_eq hparse hkept' hfp' (h.follows.blockhash.trans hbh) hidx']
  simp only [hinstrs, hcount, hfitsMtu, h.invokesFeePayer_iff hmirrors hne]
  split_ifs with hnil hmany hfits hinvokes
  · apply SameResult.error
  · apply SameResult.error
  · apply SameResult.error
  · apply SameResult.ok
    have hle := Nat.not_lt.mp hmany
    apply (h.sameTransaction_iff hmirrors hfp hidx hfp' hidx' (hcount ▸ hle) hle blockhash).mpr
    exact ⟨hkey, hne⟩
  · apply SameResult.error

/-- When it is not, the results are the same only when they are the same error. -/
theorem sameResult_iff_of_not_requested
    (hrequested : ¬ (b.accts.length < sys.acctAddrMax ∧ IsWritableSigner b'.accts key
      ∧ b.feePayer ≠ some key)) :
  SameResult sys (b.build sys) (b'.build sys) ↔ Unaffected sys key b b'
  := by
  obtain ⟨_, hkept⟩ := h.returned.kept
  obtain ⟨_, hkept'⟩ := h.returned'.kept
  obtain ⟨fpIdx, hidx⟩ := indexOf_isSome_iff.mpr (hkept.fits.feePayer feePayer hfp)
  obtain ⟨fpIdx', hidx'⟩ := indexOf_isSome_iff.mpr (hkept'.fits.feePayer feePayer' hfp')
  rw [unaffected_iff hbh, or_iff_right hrequested, build_eq hparse hkept hfp hbh hidx,
    build_eq hparse hkept' hfp' (h.follows.blockhash.trans hbh) hidx']
  by_cases hnil : b.instrs = []
  · by_cases hnil' : b'.instrs = []
    · simp [hnil, hnil']
    · simp only [hnil, hnil', if_true, if_false, and_false, false_and, or_self, iff_false,
        not_true, ne_eq]
      split_ifs <;> simp
  by_cases hnil' : b'.instrs = []
  · simp only [hnil, hnil', if_true, if_false, and_false, false_and, or_self, iff_false,
      not_true, ne_eq]
    split_ifs <;> simp
  by_cases hmany : sys.sigMax < classCount b.accts 1
  · by_cases hmany' : sys.sigMax < classCount b'.accts 1
    · simp [hnil, hnil', hmany, hmany']
    · simp only [hnil, hnil', hmany, hmany', Nat.not_le.mpr hmany, if_true, if_false, and_false,
        false_and, or_self, iff_false]
      split_ifs <;> simp
  have hle := Nat.not_lt.mp hmany
  by_cases hmany' : sys.sigMax < classCount b'.accts 1
  · simp only [hnil, hnil', hmany, hmany', Nat.not_le.mpr hmany', if_true, if_false, and_false,
      false_and, or_self, iff_false]
    split_ifs <;> simp
  have hle' := Nat.not_lt.mp hmany'
  by_cases hfits : b.FitsMtu sys
  · by_cases hfits' : b'.FitsMtu sys
    · -- the table is not full, so the transactions differ
      have hroom := length_lt_of_fitsMtu hfits
      have hnot : ¬ SameTransaction sys (b.transaction sys (b.sorted fpIdx) blockhash)
          (b'.transaction sys (b'.sorted fpIdx') blockhash) := by
        rw [h.sameTransaction_iff (h.follows.mirrors hroom) hfp hidx hfp' hidx' hle hle']
        intro hkey
        apply hrequested ⟨hroom, hkey⟩
      simp only [hnil, hnil', hmany, hmany', hle, hle', hfits, hfits', if_true, if_false]
      split_ifs with hinvokes hinvokes' hinvokes'
      · simp [hinvokes, hinvokes', hnil, hnil']
      · simp [hinvokes']
      · simp [hinvokes]
      · simp [hinvokes, hnot]
    · simp only [hnil, hnil', hmany, hmany', hfits, hfits', if_true, if_false]
      split_ifs <;> simp
  by_cases hfits' : b'.FitsMtu sys
  · simp only [hnil, hnil', hmany, hmany', hfits, hfits', if_true, if_false]
    split_ifs <;> simp
  · simp [hnil, hnil', hmany, hmany', hle, hle', hfits, hfits']

/-- On builders with a fee payer and a blockhash, `build` gives the same result exactly when it is
unaffected. -/
theorem sameResult_iff_of_blockhash :
  SameResult sys (b.build sys) (b'.build sys) ↔ Unaffected sys key b b'
  := by
  by_cases hrequested : b.accts.length < sys.acctAddrMax ∧ IsWritableSigner b'.accts key
      ∧ b.feePayer ≠ some key
  · obtain ⟨hroom, hkey, hne⟩ := hrequested
    apply iff_of_true
    · apply h.sameResult_of_requested hparse hfp hfp' hbh hroom hkey hne
    · apply Unaffected.requested hroom hkey hne
  · apply h.sameResult_iff_of_not_requested hparse hfp hfp' hbh hrequested

end Finished

end Replaced

/-- After calls that all return, with a value or with an error, of which one makes `replaced` the
fee payer and a later one another key, `build` gives the same result as without the calls of
`fee_payer` with `replaced`, up to the order of the keys inside a privilege class, exactly when it
is `Unaffected`. -/
theorem sameResult_iff (hparse : sys.ParsesWellFormed) {calls : List Call}
    {replaced feePayer : Pubkey} (hne : replaced ≠ feePayer)
    (hcalls : [.feePayer replaced, .feePayer feePayer].Sublist calls) {b : TransactionBuilder}
    (hb : Returned sys calls b) :
  ∃ b', Returned sys (withoutFeePayer replaced calls) b'
    ∧ (SameResult sys (b.build sys) (b'.build sys) ↔ Unaffected sys replaced b b')
  := by
  obtain ⟨b', hb', hfollows⟩ := hb.withoutFeePayer replaced
  have hmem' : .feePayer feePayer ∈ withoutFeePayer replaced calls := by
    apply List.mem_filter.mpr
    use hcalls.subset (by simp)
    simpa using Ne.symm hne
  have h : Replaced sys replaced calls b b' := by
    constructor
    case mem => apply hcalls.subset List.mem_cons_self
    case returned => apply hb
    case returned' => apply hb'
    case follows => apply hfollows
  obtain ⟨key, hfp⟩ := hb.exists_feePayer h.mem
  obtain ⟨key', hfp'⟩ := hb'.exists_feePayer hmem'
  use b', hb'
  cases hbh : b.blockhash with
  | none =>
    rw [build_of_noBlockhash hfp hbh,
      build_of_noBlockhash hfp' (hfollows.blockhash.trans hbh)]
    exact ⟨fun _ => .noBlockhash hbh, fun _ => .error _⟩
  | some blockhash => apply h.sameResult_iff_of_blockhash hparse hfp hfp' hbh

/-! ### Two runs -/

/-- The values of the Firedancer headers, with a parser that decodes a transaction and rejects
one that invokes its fee payer. -/
def Sys.parsing : Sys :=
  { Sys.accepting with
    txnParseCore := fun buf =>
      match decodeTransaction 64 buf with
      | some (tx, []) => if tx.instructions.any fun ix => ix.programIdx == 0 then 0 else 1
      | _ => 0 }

theorem Sys.parsing_parsesWellFormed :
  Sys.parsing.ParsesWellFormed
  := by
  intro tx htx
  have hsig : tx.header.sigCount.toNat ≤ 127 := htx.sigCount
  have hreads : (decodeTransaction 64).Reads tx.encode tx := by
    apply decodeTransaction_reads htx.encodable htx.signature
    · rw [htx.signatures]
      omega
    · omega
  have hdecode := hreads []
  rw [List.append_nil] at hdecode
  simp only [Sys.parsing, hdecode]
  split
  · next hany => simpa using hany
  · next hnone => simpa using hnone

/-- Two fee payers, an instruction that asks the first to be a writable signer and is refused for its
data, and one that is added. -/
def requestedCalls : List Call :=
  [.feePayer (keyOf 1), .feePayer (keyOf 2), .recentBlockhash (Vector.replicate 32 9),
   .addInstruction ⟨keyOf 3, [⟨keyOf 1, true, true⟩], List.replicate 1233 0⟩,
   .addInstruction ⟨keyOf 3, [], []⟩]

/-- The builder the requested calls make. -/
def requestedBuilder : TransactionBuilder where
  accts := [⟨keyOf 1, 3⟩, ⟨keyOf 2, 3⟩, ⟨keyOf 3, 0⟩]
  instrs := [⟨2, 1, 0, 0, 0⟩]
  instrAcctBuf := [0]
  instrDataBuf := []
  feePayer := some (keyOf 2)
  blockhash := some (Vector.replicate 32 9)
  version := .legacy

/-- The instruction that is refused. -/
def refusedInstruction : InstructionBuf :=
  ⟨keyOf 3, [⟨keyOf 1, true, true⟩], List.replicate 1233 0⟩

/-- The refused instruction leaves its keys behind for the one that is added. -/
theorem Returned.refused {calls : List Call} {b b₁ b₂ b' : TransactionBuilder} {progIdx : Nat}
    (h : Returned .parsing calls b) (hroom : b.instrs.length < 64)
    (hfind : b.findOrInsert .parsing (keyOf 3) = (.ok progIdx, b₁))
    (haccounts : addAccounts .parsing b₁ refusedInstruction.accounts = (.ok (), b₂))
    (hadded : Call.runEach .parsing [.addInstruction ⟨keyOf 3, [], []⟩] b₂ = some b') :
  Returned .parsing
    (calls ++ [.addInstruction refusedInstruction] ++ [.addInstruction ⟨keyOf 3, [], []⟩]) b'
  := by
  have hdata : Sys.parsing.mtu < b₂.instrDataBuf.length + refusedInstruction.data.length := by
    rw [refusedInstruction, List.length_replicate]
    apply Nat.lt_of_lt_of_le (show 1232 < 1233 by decide) (Nat.le_add_left _ _)
  have hrun : Call.run .parsing b (.addInstruction refusedInstruction) = (.err .dataTooLarge, b₂) :=
    congrArg (Prod.map Outcome.ofExcept id) (addInstruction_tooLarge hroom hfind haccounts hdata)
  apply (h.call hrun (by decide)).runEach _ hadded

theorem requestedBuilder_returned :
  Returned .parsing requestedCalls requestedBuilder
  := by
  have hpayers : Returned .parsing (requestedCalls.take 3)
      { requestedBuilder with
        accts := [⟨keyOf 1, 3⟩, ⟨keyOf 2, 3⟩], instrs := [], instrAcctBuf := [] } :=
    Returned.new.runEach _ rfl
  apply hpayers.refused (by decide) rfl rfl rfl

theorem requestedBuilder_build :
  ∃ tx, requestedBuilder.build .parsing = .ok tx
  := by
  obtain ⟨added, hkept⟩ := requestedBuilder_returned.kept
  rw [build_eq Sys.parsing_parsesWellFormed hkept rfl rfl (show _ = some 1 by decide),
    if_neg (by decide), if_neg (by decide), if_pos (by decide), if_neg (by decide)]
  exact ⟨_, rfl⟩

/-- The refused instruction has made the replaced fee payer a writable signer: `build` succeeds,
with the same result as if it had never been the fee payer. -/
theorem sameResult_iff_requested :
  ∃ tx b', requestedBuilder.build .parsing = .ok tx
    ∧ Returned .parsing (withoutFeePayer (keyOf 1) requestedCalls) b'
    ∧ SameResult .parsing (requestedBuilder.build .parsing) (b'.build .parsing)
  := by
  obtain ⟨tx, htx⟩ := requestedBuilder_build
  have hne : keyOf 1 ≠ keyOf 2 := by decide
  obtain ⟨b', hb', hiff⟩ := sameResult_iff Sys.parsing_parsesWellFormed hne (by decide)
    requestedBuilder_returned
  have hpayer : Returned .parsing ((withoutFeePayer (keyOf 1) requestedCalls).take 2)
      { requestedBuilder with accts := [⟨keyOf 2, 3⟩], instrs := [], instrAcctBuf := [] } :=
    Returned.new.runEach _ rfl
  have hreturned := hpayer.refused (by decide) rfl rfl rfl
  obtain rfl := hb'.eq_foldl.trans hreturned.eq_foldl.symm
  exact ⟨tx, _, htx, hb', hiff.mpr (.requested (by decide) (by decide) (by decide))⟩

/-- Two fee payers, the first of which nothing else refers to. -/
def replacedCalls : List Call :=
  [.feePayer (keyOf 1), .feePayer (keyOf 2), .recentBlockhash (Vector.replicate 32 9),
   .addInstruction ⟨keyOf 3, [], []⟩]

/-- The builder the replaced calls make. -/
def replacedBuilder : TransactionBuilder where
  accts := [⟨keyOf 1, 3⟩, ⟨keyOf 2, 3⟩, ⟨keyOf 3, 0⟩]
  instrs := [⟨2, 0, 0, 0, 0⟩]
  instrAcctBuf := []
  instrDataBuf := []
  feePayer := some (keyOf 2)
  blockhash := some (Vector.replicate 32 9)
  version := .legacy

/-- The builder they make without the first fee payer. -/
def remainingBuilder : TransactionBuilder :=
  { replacedBuilder with
    accts := [⟨keyOf 2, 3⟩, ⟨keyOf 3, 0⟩]
    instrs := [⟨1, 0, 0, 0, 0⟩] }

/-- The first fee payer is replaced and nothing else refers to it, but it is a required signer of
the transaction: two signatures are required, and one without the replaced call. -/
theorem not_sameResult :
  Returned .parsing replacedCalls replacedBuilder
    ∧ Returned .parsing (withoutFeePayer (keyOf 1) replacedCalls) remainingBuilder
    ∧ (replacedBuilder.build .parsing).map (fun tx => tx.sigCount) = .ok 2
    ∧ (remainingBuilder.build .parsing).map (fun tx => tx.sigCount) = .ok 1
    ∧ ¬ SameResult .parsing (replacedBuilder.build .parsing) (remainingBuilder.build .parsing)
  := by
  have hsorted : replacedBuilder.sorted 1 = [1, 0, 2] := by
    apply sorted_eq_of_perm
    · decide
    · decide
  have hsorted' : remainingBuilder.sorted 0 = [0, 1] := by
    apply sorted_eq_of_perm
    · decide
    · decide
  have hreturned : Returned .parsing replacedCalls replacedBuilder :=
    Returned.new.runEach replacedCalls rfl
  have hreturned' : Returned .parsing (withoutFeePayer (keyOf 1) replacedCalls) remainingBuilder :=
    Returned.new.runEach _ rfl
  obtain ⟨added, hkept⟩ := hreturned.kept
  obtain ⟨added', hkept'⟩ := hreturned'.kept
  have htwo : (replacedBuilder.build .parsing).map (fun tx => tx.sigCount) = .ok 2 := by
    rw [build_eq Sys.parsing_parsesWellFormed hkept rfl rfl (show _ = some 1 by decide),
      if_neg (by decide), if_neg (by decide), if_pos (by decide), if_neg (by decide), hsorted]
    rfl
  have hone : (remainingBuilder.build .parsing).map (fun tx => tx.sigCount) = .ok 1 := by
    rw [build_eq Sys.parsing_parsesWellFormed hkept' rfl rfl (show _ = some 0 by decide),
      if_neg (by decide), if_neg (by decide), if_pos (by decide), if_neg (by decide), hsorted']
    rfl
  refine ⟨hreturned, hreturned', htwo, hone, ?_⟩
  intro hsame
  have heq := hsame.sigCount_eq
  rw [htwo, hone] at heq
  simp at heq

end FdTxn

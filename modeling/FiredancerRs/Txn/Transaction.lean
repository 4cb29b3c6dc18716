import FiredancerRs.Ed25519.Pubkey

/-!
# Parsed transactions

`Transaction` of `fd_txn`. The C parser is a parameter: `Parser.Sound` is what it promises of the
indices in the transactions that it accepts. The accounts of an instruction may be accounts of the
lookup tables, and the accessors look every index up in the static accounts, so they return exactly
for the instructions without accounts of the lookup tables (`accessorsReturn_iff`).
-/

open FdEd25519

namespace FdTxn

/-- `fd_txn_instr_t` -/
structure TxnInstr where
  programId : UInt8
  acctCnt : Nat
  acctOff : Nat
deriving DecidableEq, Repr

/-- `fd_txn_t` -/
structure Txn where
  acctAddrCnt : Nat
  acctAddrOff : Nat
  addrTableAdtlCnt : Nat
  instrs : List TxnInstr
deriving DecidableEq, Repr

/-- The constants and functions of `fd_txn_sys` that a transaction is parsed with. -/
structure Parser where
  /-- `FD_TXN_MTU` -/
  mtu : Nat
  /-- `fd_txn_parse_core`, with the transaction it fills in, and `none` when it returns zero. -/
  txnParseCore : Bytes → Option Txn

/-- `ParseError` -/
inductive ParseError where
  | tooShort
  | tooLong
  | invalidStructure
  | invalidSignatures
  | invalidAccounts
  | invalidInstructions
  | unsupportedVersion
  | invalidCompactU16
  | bufferTooSmall
deriving DecidableEq, Repr

/-- `Transaction` -/
structure Transaction where
  data : Bytes
  txn : Txn
deriving DecidableEq, Repr

namespace Transaction

/-- `Transaction::parse` -/
def parse (parser : Parser) (data : Bytes) : Except ParseError Transaction :=
  if data.isEmpty then
    .error .tooShort
  else if data.length > parser.mtu then
    .error .tooLong
  else
    match parser.txnParseCore data with
    | none => .error .invalidStructure
    | some txn => .ok ⟨data, txn⟩

/-- `account_count` -/
def accountCount (tx : Transaction) : Nat := tx.txn.acctAddrCnt

/-- `total_account_count` -/
def totalAccountCount (tx : Transaction) : Nat := tx.txn.acctAddrCnt + tx.txn.addrTableAdtlCnt

/-- `instruction_count` -/
def instructionCount (tx : Transaction) : Nat := tx.txn.instrs.length

/-- `accounts`: the 32 bytes of each static account, from `acct_addr_off` on. -/
def accounts (tx : Transaction) : List Pubkey :=
  (List.range tx.accountCount).map fun i =>
    ⟨Vector.ofFn fun j : Fin 32 => tx.data.getD (tx.txn.acctAddrOff + 32 * i + j) 0⟩

/-- `instruction` -/
def instruction (tx : Transaction) (index : Nat) : Option TxnInstr :=
  if index ≥ tx.instructionCount then none else tx.txn.instrs[index]?

/-- `Instruction::program_id_address` -/
def programIdAddress (tx : Transaction) (instr : TxnInstr) : Option Pubkey :=
  tx.accounts[instr.programId.toNat]?

/-- `Instruction::account_indices` -/
def accountIndices (tx : Transaction) (instr : TxnInstr) : Bytes :=
  (tx.data.drop instr.acctOff).take instr.acctCnt

/-- `Instruction::account_addresses` -/
def accountAddresses (tx : Transaction) (instr : TxnInstr) : Option (List Pubkey) :=
  (tx.accountIndices instr).mapM fun idx => tx.accounts[idx.toNat]?

/-- The accessors of every instruction return: a key for its program, and one for each of its
account indices. -/
def AccessorsReturn (tx : Transaction) : Prop :=
  ∀ index instr, tx.instruction index = some instr →
    (tx.programIdAddress instr).isSome
      ∧ ∃ keys, tx.accountAddresses instr = some keys
        ∧ keys.length = (tx.accountIndices instr).length

/-- The instruction has an account of the lookup tables. -/
def UsesLookup (tx : Transaction) (instr : TxnInstr) : Prop :=
  ∃ idx ∈ tx.accountIndices instr,
    tx.accountCount ≤ idx.toNat ∧ idx.toNat < tx.totalAccountCount

end Transaction

open Transaction

/-- The parser accepts program ids among the static accounts, and accounts of instructions among
these and those of the lookup tables. -/
structure Parser.Sound (parser : Parser) : Prop where
  programs : ∀ data txn, parser.txnParseCore data = some txn →
    ∀ instr ∈ txn.instrs, instr.programId.toNat < txn.acctAddrCnt
  accounts : ∀ data txn, parser.txnParseCore data = some txn →
    ∀ instr ∈ txn.instrs, ∀ idx ∈ accountIndices ⟨data, txn⟩ instr,
      idx.toNat < txn.acctAddrCnt + txn.addrTableAdtlCnt

variable {parser : Parser} {data : Bytes} {tx : Transaction} {instr : TxnInstr}

@[simp]
theorem length_accounts (tx : Transaction) :
  tx.accounts.length = tx.accountCount
  := by
  rw [accounts, List.length_map, List.length_range]

theorem mem_of_instruction {index : Nat} (h : tx.instruction index = some instr) :
  instr ∈ tx.txn.instrs
  := by
  rw [instruction] at h
  split at h
  · cases h
  · apply List.mem_of_getElem? h

/-- Looking up a list of positions succeeds, with a value for each, when all are positions. -/
theorem mapM_getElem?_isSome_iff {α : Type} {xs : List α} :
  ∀ {idxs : Bytes},
    (∃ ys, idxs.mapM (fun idx => xs[idx.toNat]?) = some ys ∧ ys.length = idxs.length)
      ↔ ∀ idx ∈ idxs, idx.toNat < xs.length
  | [] => by simp
  | idx :: idxs => by
      rw [List.forall_mem_cons, ← mapM_getElem?_isSome_iff, List.mapM_cons]
      constructor
      · rintro ⟨ys, hys, hlen⟩
        cases hget : xs[idx.toNat]? with
        | none => simp [hget] at hys
        | some y =>
          cases hrest : idxs.mapM fun idx => xs[idx.toNat]? with
          | none => simp [hget, hrest] at hys
          | some rest =>
            obtain rfl : y :: rest = ys := by simpa [hget, hrest] using hys
            exact ⟨(List.getElem?_eq_some_iff.mp hget).1, rest, rfl, Nat.succ.inj hlen⟩
      · rintro ⟨hidx, rest, hrest, hlen⟩
        rw [hrest, List.getElem?_eq_getElem hidx]
        exact ⟨_, rfl, congrArg Nat.succ hlen⟩

/-- What is parsed is accepted by the C parser. -/
theorem parse_ok (h : Transaction.parse parser data = .ok tx) :
  tx.data = data ∧ parser.txnParseCore data = some tx.txn
  := by
  rw [Transaction.parse] at h
  split at h
  · cases h
  · split at h
    · cases h
    · split at h
      · cases h
      · next txn htxn =>
        obtain rfl : Transaction.mk data txn = tx := Except.ok.inj h
        exact ⟨rfl, htxn⟩

/-- The accessors of an accepted transaction return exactly when no instruction has an account of
the lookup tables. -/
theorem accessorsReturn_iff (hsound : parser.Sound)
    (h : Transaction.parse parser data = .ok tx) :
  tx.AccessorsReturn ↔ ∀ index instr, tx.instruction index = some instr → ¬tx.UsesLookup instr
  := by
  obtain ⟨rfl, hcore⟩ := parse_ok h
  constructor
  · intro hreturn index instr hinstr
    obtain ⟨-, hkeys⟩ := hreturn index instr hinstr
    have hstatic := mapM_getElem?_isSome_iff.mp hkeys
    rintro ⟨idx, hidx, hle, -⟩
    have hlt := hstatic idx hidx
    rw [length_accounts] at hlt
    omega
  · intro hno index instr hinstr
    have hmem := mem_of_instruction hinstr
    constructor
    · have hprogram := hsound.programs _ _ hcore instr hmem
      rw [programIdAddress, List.getElem?_eq_getElem (by rwa [length_accounts])]
      rfl
    · apply mapM_getElem?_isSome_iff.mpr
      intro idx hidx
      have htotal := hsound.accounts _ _ hcore instr hmem idx hidx
      rw [length_accounts]
      by_contra hlt
      apply hno index instr hinstr ⟨idx, hidx, Nat.le_of_not_lt hlt, htotal⟩

/-! ### A transaction with a lookup table -/

/-- A transaction of version 0 with two static accounts and one account of a lookup table, which is
the account of its instruction. -/
def lookupData : Bytes :=
  [1] ++ List.replicate 64 7 ++ [0x80] ++ [1, 0, 1] ++ [2] ++ List.replicate 32 1
    ++ List.replicate 32 2 ++ List.replicate 32 9 ++ [1] ++ [1, 1, 2, 0]
    ++ [1] ++ List.replicate 32 5 ++ [1, 0, 0]

/-- What the C parser reads in it. -/
def lookupTxn : Txn where
  acctAddrCnt := 2
  acctAddrOff := 70
  addrTableAdtlCnt := 1
  instrs := [⟨1, 1, 169⟩]

/-- A parser that accepts this transaction only. -/
def lookupParser : Parser where
  mtu := 1232
  txnParseCore data := if data = lookupData then some lookupTxn else none

theorem lookupParser_eq_some {txn : Txn} (h : lookupParser.txnParseCore data = some txn) :
  data = lookupData ∧ txn = lookupTxn
  := by
  change (if data = lookupData then some lookupTxn else none) = some txn at h
  split at h
  · next hdata => exact ⟨hdata, (Option.some.inj h).symm⟩
  · cases h

theorem lookupParser_sound :
  lookupParser.Sound
  where
  programs data txn h := by
    obtain ⟨rfl, rfl⟩ := lookupParser_eq_some h
    decide +kernel
  accounts data txn h := by
    obtain ⟨rfl, rfl⟩ := lookupParser_eq_some h
    decide +kernel

theorem parse_lookup :
  Transaction.parse lookupParser lookupData = .ok ⟨lookupData, lookupTxn⟩
  := by
  have hcore : lookupParser.txnParseCore lookupData = some lookupTxn := by
    rw [lookupParser]
    dsimp only
    rw [if_pos rfl]
  have hlen : ¬lookupData.length > lookupParser.mtu := by decide +kernel
  rw [Transaction.parse, if_neg (by decide), if_neg hlen, hcore]

theorem accessorsReturn_iff_lookup :
  Transaction.AccessorsReturn ⟨lookupData, lookupTxn⟩
    ↔ ∀ index instr, Transaction.instruction ⟨lookupData, lookupTxn⟩ index = some instr →
      ¬Transaction.UsesLookup ⟨lookupData, lookupTxn⟩ instr
  := accessorsReturn_iff lookupParser_sound parse_lookup

/-- `account_addresses` panics on an accepted transaction. -/
theorem not_accessorsReturn :
  lookupParser.Sound ∧ Transaction.parse lookupParser lookupData = .ok ⟨lookupData, lookupTxn⟩
    ∧ ¬Transaction.AccessorsReturn ⟨lookupData, lookupTxn⟩
  := by
  use lookupParser_sound, parse_lookup
  intro hreturn
  obtain ⟨-, keys, hkeys, -⟩ := hreturn 0 ⟨1, 1, 169⟩ rfl
  have hpanic : accountAddresses ⟨lookupData, lookupTxn⟩ ⟨1, 1, 169⟩ = none := by decide
  rw [hpanic] at hkeys
  cases hkeys

end FdTxn

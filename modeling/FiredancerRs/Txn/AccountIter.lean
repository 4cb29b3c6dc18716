import FiredancerRs.Txn.Transaction
import Mathlib.Data.List.TakeWhile

/-!
# Iterating over a category of accounts

`AccountIter` of `fd_txn`, over an iterator of the C library that is a parameter. The iterator of
the C library visits the accounts of a category in order, those of the lookup tables last, and
`AccountIter` ends at the first of these. So it yields the static accounts of the category
(`yields_static`), and they are all of its accounts exactly when none is of a lookup table
(`agreesWithCount_iff`).
-/

open FdEd25519

namespace FdTxn

variable {Iter : Type}

/-- The functions of `fd_txn_sys` on the accounts of a category. -/
structure Categories (Iter : Type) where
  /-- `fd_txn_acct_iter_init` -/
  acctIterInit : Txn → Int32 → Iter
  /-- `fd_txn_acct_iter_end` -/
  acctIterEnd : Iter
  /-- `fd_txn_acct_iter_next` -/
  acctIterNext : Iter → Iter
  /-- `fd_txn_acct_iter_idx` -/
  acctIterIdx : Iter → Nat
  /-- `fd_txn_account_cnt` -/
  accountCnt : Txn → Int32 → Nat
  /-- Whether an account is in a category. -/
  inCategory : Txn → Int32 → Nat → Bool

/-- The accounts in a category, static ones and those of the lookup tables. -/
def Categories.members (cats : Categories Iter) (txn : Txn) (category : Int32) : List Nat :=
  (List.range (txn.acctAddrCnt + txn.addrTableAdtlCnt)).filter (cats.inCategory txn category)

/-- The iterator of the C library visits indices up to its end. -/
inductive Categories.Visits (cats : Categories Iter) : Iter → List Nat → Prop
  | done : cats.Visits cats.acctIterEnd []
  | more {it : Iter} {is : List Nat} :
      it ≠ cats.acctIterEnd → cats.Visits (cats.acctIterNext it) is →
        cats.Visits it (cats.acctIterIdx it :: is)

/-- For a transaction that the parser accepts, the iterator visits the accounts in a category, and
the count is their number. -/
structure Categories.Sound (cats : Categories Iter) (parser : Parser) : Prop where
  visits : ∀ data txn category, parser.txnParseCore data = some txn →
    cats.Visits (cats.acctIterInit txn category) (cats.members txn category)
  counts : ∀ data txn category, parser.txnParseCore data = some txn →
    cats.accountCnt txn category = (cats.members txn category).length

/-- `AccountIter` -/
structure AccountIter (Iter : Type) where
  current : Iter
  accounts : List Pubkey

section Iteration

variable [DecidableEq Iter] (cats : Categories Iter)

/-- `AccountIter::next` -/
def AccountIter.next (it : AccountIter Iter) : Option ((Nat × Pubkey) × AccountIter Iter) :=
  if it.current = cats.acctIterEnd then
    none
  else
    let idx := cats.acctIterIdx it.current
    match it.accounts[idx]? with
    | none => none
    | some addr => some ((idx, addr), { it with current := cats.acctIterNext it.current })

/-- The items up to the first `None`. -/
inductive AccountIter.Yields : AccountIter Iter → List (Nat × Pubkey) → Prop
  | done {it : AccountIter Iter} : it.next cats = none → Yields it []
  | more {it it' : AccountIter Iter} {item : Nat × Pubkey} {items : List (Nat × Pubkey)} :
      it.next cats = some (item, it') → Yields it' items → Yields it (item :: items)

/-- `account_count_by_category` -/
def Transaction.accountCountByCategory (tx : Transaction) (category : Int32) : Nat :=
  cats.accountCnt tx.txn category

/-- `accounts_by_category` -/
def Transaction.accountsByCategory (tx : Transaction) (category : Int32) : AccountIter Iter where
  current := cats.acctIterInit tx.txn category
  accounts := tx.accounts

/-- The iterator yields as many items as the count, and their indices are those of the accounts in
the category, in order. -/
def Transaction.AgreesWithCount (tx : Transaction) (category : Int32) : Prop :=
  ∃ items, AccountIter.Yields cats (tx.accountsByCategory cats category) items
    ∧ items.length = tx.accountCountByCategory cats category
    ∧ items.map Prod.fst = cats.members tx.txn category

end Iteration

variable [DecidableEq Iter] {cats : Categories Iter} {parser : Parser} {data : Bytes}
  {tx : Transaction} {category : Int32}

/-- An iterator yields one list of items. -/
theorem AccountIter.Yields.unique {it : AccountIter Iter} {items items' : List (Nat × Pubkey)}
    (h : Yields cats it items) (h' : Yields cats it items') :
  items = items'
  := by
  induction h generalizing items' with
  | done hnone =>
    cases h' with
    | done _ => rfl
    | more hsome _ =>
      rw [hnone] at hsome
      cases hsome
  | more hsome _ ih =>
    cases h' with
    | done hnone =>
      rw [hnone] at hsome
      cases hsome
    | more hsome' hrest =>
      rw [hsome] at hsome'
      cases hsome'
      rw [ih hrest]

/-- What is yielded are the indices that are visited, up to the first that is not one of the keys,
each with its key. -/
theorem Categories.Visits.yields {it : Iter} {is : List Nat} (h : cats.Visits it is)
    (keys : List Pubkey) :
  ∃ items, AccountIter.Yields cats ⟨it, keys⟩ items
    ∧ items.map Prod.fst = is.takeWhile (fun i => i < keys.length)
    ∧ ∀ item ∈ items, keys[item.1]? = some item.2
  := by
  induction h with
  | done =>
    refine ⟨[], .done ?_, rfl, List.forall_mem_nil _⟩
    rw [AccountIter.next, if_pos rfl]
  | @more it is hne _ ih =>
    by_cases hlt : cats.acctIterIdx it < keys.length
    · obtain ⟨items, hyields, hfst, hkeys⟩ := ih
      have hget := List.getElem?_eq_getElem hlt
      refine ⟨(cats.acctIterIdx it, keys[cats.acctIterIdx it]) :: items, .more ?_ hyields, ?_, ?_⟩
      · rw [AccountIter.next, if_neg hne]
        dsimp only
        rw [hget]
      · rw [List.map_cons, hfst, List.takeWhile_cons_of_pos (by rwa [decide_eq_true_iff])]
      · rw [List.forall_mem_cons]
        exact ⟨hget, hkeys⟩
    · refine ⟨[], .done ?_, ?_, List.forall_mem_nil _⟩
      · rw [AccountIter.next, if_neg hne]
        dsimp only
        rw [List.getElem?_eq_none (Nat.le_of_not_lt hlt)]
      · rw [List.takeWhile_cons_of_neg (by rwa [decide_eq_true_iff])]
        rfl

/-- Among positions in order, those below a number come first. -/
theorem takeWhile_filter_range (p : Nat → Bool) (n m : Nat) :
  ((List.range (n + m)).filter p).takeWhile (fun i => i < n) = (List.range n).filter p
  := by
  rw [List.range_add, List.filter_append, List.takeWhile_append_of_pos]
  · have hrest : (((List.range m).map fun i => n + i).filter p).takeWhile (fun i => i < n) = [] := by
      rw [List.takeWhile_eq_nil_iff]
      intro hpos
      have hmem := (List.mem_filter.mp (List.getElem_mem hpos)).1
      obtain ⟨i, -, hi⟩ := List.mem_map.mp hmem
      rw [List.get_eq_getElem, ← hi, decide_eq_true_iff]
      apply Nat.not_lt.mpr (Nat.le_add_right n i)
    rw [hrest, List.append_nil]
  · intro i hi
    rw [decide_eq_true_iff]
    apply List.mem_range.mp (List.mem_filter.mp hi).1

/-- `accounts_by_category` yields the static accounts in the category, with their keys. -/
theorem yields_static (hcats : cats.Sound parser) (h : Transaction.parse parser data = .ok tx)
    (category : Int32) :
  ∃ items, AccountIter.Yields cats (tx.accountsByCategory cats category) items
    ∧ items.map Prod.fst
      = (List.range tx.accountCount).filter (cats.inCategory tx.txn category)
    ∧ ∀ item ∈ items, tx.accounts[item.1]? = some item.2
  := by
  obtain ⟨-, hcore⟩ := parse_ok h
  obtain ⟨items, hyields, hfst, hkeys⟩ :=
    (hcats.visits data tx.txn category hcore).yields tx.accounts
  refine ⟨items, hyields, ?_, hkeys⟩
  rw [hfst, length_accounts, Categories.members]
  apply takeWhile_filter_range _ _ _

/-- The iterator agrees with the count exactly when no account in the category is of a lookup
table. -/
theorem agreesWithCount_iff (hcats : cats.Sound parser)
    (h : Transaction.parse parser data = .ok tx) (category : Int32) :
  tx.AgreesWithCount cats category
    ↔ ∀ i ∈ cats.members tx.txn category, i < tx.accountCount
  := by
  obtain ⟨items, hyields, hfst, -⟩ := yields_static hcats h category
  have hcount := hcats.counts data tx.txn category (parse_ok h).2
  constructor
  · rintro ⟨items', hyields', -, hmembers⟩ i hi
    obtain rfl := hyields.unique hyields'
    rw [← hmembers, hfst] at hi
    apply List.mem_range.mp (List.mem_filter.mp hi).1
  · intro hstatic
    have hall : (cats.members tx.txn category).takeWhile (fun i => i < tx.accountCount)
        = cats.members tx.txn category := by
      rw [List.takeWhile_eq_self_iff]
      intro i hi
      rw [decide_eq_true_iff]
      apply hstatic i hi
    have hmembers : items.map Prod.fst = cats.members tx.txn category := by
      rw [hfst, ← hall, Categories.members]
      apply (takeWhile_filter_range _ _ _).symm
    refine ⟨items, hyields, ?_, hmembers⟩
    rw [Transaction.accountCountByCategory, hcount, ← hmembers, List.length_map]

/-! ### A category with an account of a lookup table -/

/-- The classes of the accounts of `lookupTxn`: a writable signer, a static account that is neither,
and a writable account of a lookup table. -/
def lookupClasses : List Int32 := [0x01, 0x08, 0x10]

/-- The accounts in a category of `lookupTxn`, with the indices that are left as the iterator. -/
def lookupCategories : Categories (List Nat) :=
  let inCategory (category : Int32) (i : Nat) := category &&& lookupClasses.getD i 0 != 0
  let members (category : Int32) := (List.range 3).filter (inCategory category)
  { acctIterInit := fun _ => members
    acctIterEnd := []
    acctIterNext := List.tail
    acctIterIdx := fun it => it.headD 0
    accountCnt := fun _ category => (members category).length
    inCategory := fun _ => inCategory }

theorem lookupCategories_visits :
  ∀ is : List Nat, lookupCategories.Visits is is
  | [] => .done
  | _ :: is => .more (List.cons_ne_nil _ _) (lookupCategories_visits is)

theorem lookupCategories_sound :
  lookupCategories.Sound lookupParser
  where
  visits data txn category h := by
    obtain ⟨rfl, rfl⟩ := lookupParser_eq_some h
    apply lookupCategories_visits _
  counts data txn category h := by
    obtain ⟨rfl, rfl⟩ := lookupParser_eq_some h
    rfl

theorem agreesWithCount_iff_signers :
  Transaction.AgreesWithCount lookupCategories ⟨lookupData, lookupTxn⟩ 0x01
  := by
  apply (agreesWithCount_iff lookupCategories_sound parse_lookup 0x01).mpr
  decide

/-- Over all accounts, the iterator leaves out the account of the lookup table. -/
theorem not_agreesWithCount :
  lookupCategories.Sound lookupParser
    ∧ Transaction.parse lookupParser lookupData = .ok ⟨lookupData, lookupTxn⟩
    ∧ ¬Transaction.AgreesWithCount lookupCategories ⟨lookupData, lookupTxn⟩ 0x3F
  := by
  use lookupCategories_sound, parse_lookup
  rintro ⟨items, hyields, -, hmembers⟩
  obtain ⟨items', hyields', hfst, -⟩ := yields_static lookupCategories_sound parse_lookup 0x3F
  obtain rfl := hyields.unique hyields'
  rw [hfst] at hmembers
  revert hmembers
  decide

end FdTxn

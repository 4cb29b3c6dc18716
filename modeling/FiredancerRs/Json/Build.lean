import FiredancerRs.Json.Convert

/-!
# How conversions end

The steps of `json_value_to_cjson` that may fail, in order, and for each whether a container is
abandoned when it does (`checks`). A conversion ends as its checks do, with the tree of the value or
with the blocks of the containers that it has abandoned (`jsonValueToCjson_ends`).
-/

namespace FdJson

/-! ### Checks -/

/-- A step that may fail, and whether a container is abandoned when it does: a call of cJSON, or the
conversion of a text. -/
inductive Check where
  | call (abandons : Bool)
  | text (s : String) (abandons : Bool)

/-- A step of the conversion of an item, for the container that the item is for. -/
def Check.inside : Check → Check
  | .call _ => .call true
  | .text s _ => .text s true

mutual

/-- The steps of the conversion of a value that may fail. -/
def JsonValue.checks : JsonValue → List Check
  | .null => [.call false]
  | .bool _ => [.call false]
  | .number _ => [.call false]
  | .string s => [.text s false, .call false]
  | .array items => .call false :: checksOfItems items
  | .object members => .call false :: checksOfMembers members

/-- The steps of the loop over items. -/
def checksOfItems : List JsonValue → List Check
  | [] => []
  | v :: items => v.checks.map .inside ++ .call false :: checksOfItems items

/-- The steps of the loop over members. -/
def checksOfMembers : List (String × JsonValue) → List Check
  | [] => []
  | (key, v) :: members =>
    .text key true :: (v.checks.map .inside ++ .call false :: checksOfMembers members)

end

/-- The number of calls after some checks, and what the first one that fails abandons. -/
def runChecks (gets : Pattern) : Nat → List Check → Nat × Option Bool
  | n, [] => (n, none)
  | n, .call abandons :: checks =>
    if gets n then runChecks gets (n + 1) checks else (n + 1, some abandons)
  | n, .text s abandons :: checks =>
    if NulIn s then (n, some abandons) else runChecks gets n checks

variable {gets : Pattern}

theorem runChecks_append {xs ys : List Check} {n : Nat} :
  runChecks gets n (xs ++ ys) =
    match runChecks gets n xs with
    | (n', none) => runChecks gets n' ys
    | (n', some abandons) => (n', some abandons)
  := by
  induction xs generalizing n with
  | nil => rfl
  | cons check xs ih =>
    cases check with
    | call abandons =>
      rw [List.cons_append, runChecks, runChecks]
      split
      · apply ih
      · rfl
    | text s abandons =>
      rw [List.cons_append, runChecks, runChecks]
      split
      · rfl
      · apply ih

theorem runChecks_inside {xs : List Check} {n : Nat} :
  runChecks gets n (xs.map .inside)
    = ((runChecks gets n xs).1, (runChecks gets n xs).2.map fun _ => true)
  := by
  induction xs generalizing n with
  | nil => rfl
  | cons check xs ih =>
    cases check with
    | call abandons =>
      rw [List.map_cons, Check.inside, runChecks, runChecks]
      split
      · apply ih
      · rfl
    | text s abandons =>
      rw [List.map_cons, Check.inside, runChecks, runChecks]
      split
      · rfl
      · apply ih

/-! ### Blocks -/

variable {σ Ptr : Type} {L : CJson σ Ptr} {V : View σ Ptr} {s s' s'' : σ}
variable {N M K : Multiset Nat} {touched : Ptr → Prop} {p q : Ptr} {t : Tree}

/-- From one memory to another, some blocks that are held become others. -/
def View.Balance (V : View σ Ptr) (s s' : σ) (N M : Multiset Nat) : Prop :=
  ∃ entries, V.log s' = V.log s ++ entries
    ∧ ∀ held, Ledger.settle (held + N) entries = some (held + M)

theorem View.Balance.trans (h : V.Balance s s' N M) (h' : V.Balance s' s'' M K) :
  V.Balance s s'' N K
  := by
  obtain ⟨entries, hlog, hsettle⟩ := h
  obtain ⟨entries', hlog', hsettle'⟩ := h'
  use entries ++ entries'
  constructor
  · rw [hlog', hlog, List.append_assoc]
  · intro held
    rw [Ledger.settle_append, hsettle, Option.bind_some, hsettle']

/-- Something is held when more is. -/
theorem add_ne_zero_left (h : N ≠ 0) :
  N + M ≠ 0
  := by
  intro hzero
  apply h
  apply Multiset.le_zero.mp
  rw [← hzero]
  apply Multiset.le_add_right

/-- What else is held. -/
theorem View.Balance.add (h : V.Balance s s' N M) (K : Multiset Nat) :
  V.Balance s s' (K + N) (K + M)
  := by
  obtain ⟨entries, hlog, hsettle⟩ := h
  use entries, hlog
  intro held
  rw [← Multiset.add_assoc, ← Multiset.add_assoc]
  apply hsettle (held + K)

theorem View.balance_of_log_eq (h : V.log s' = V.log s) :
  V.Balance s s' N N
  := ⟨[], by rw [h, List.append_nil], fun _ => rfl⟩

theorem View.balance_acquire {n : Nat} (h : V.log s' = V.log s ++ [.acquire n]) :
  V.Balance s s' 0 {n}
  := by
  use [.acquire n], h
  intro held
  rw [Multiset.add_zero, Ledger.settle_acquire, Ledger.settle_nil, Multiset.add_comm,
    Multiset.singleton_add]

theorem View.balance_release {n : Nat} (h : V.log s' = V.log s ++ [.release n]) :
  V.Balance s s' {n} 0
  := by
  use [.release n], h
  intro held
  rw [Multiset.add_zero]
  apply Ledger.settle_releases [n]

theorem View.Deleted.balance (h : V.Deleted s s' p N) :
  V.Balance s s' N 0
  := by
  obtain ⟨l, rfl, hlog⟩ := h.blocks
  use l.map .release, hlog
  intro held
  rw [Multiset.add_zero]
  apply Ledger.settle_releases l

theorem View.Frame.trans {touched' : Ptr → Prop} (h : V.Frame s s' touched)
    (h' : V.Frame s' s'' touched') :
  V.Frame s s'' fun r => touched r ∨ touched' r
  := by
  intro r t N hr hroot
  rw [not_or] at hr
  apply h' r t N hr.2 (h r t N hr.1 hroot)

theorem View.Frame.mono {touched' : Ptr → Prop} (h : V.Frame s s' touched)
    (himp : ∀ r, (∃ t N, V.Root s r t N) → touched r → touched' r) :
  V.Frame s s' touched'
  := by
  intro r t N hr hroot
  apply h r t N (fun htouched => hr (himp r ⟨t, N, hroot⟩ htouched)) hroot

/-! ### Ends of conversions -/

/-- How a conversion that holds some blocks ends: with a tree at a pointer, or with the blocks that
it has abandoned. -/
inductive Ends (V : View σ Ptr) (m : Memory σ) (N : Multiset Nat) (touched owner : Ptr → Prop)
    (t : Tree) : Except JsonError Ptr × Memory σ → Nat × Option Bool → Prop
  | ok {m' : Memory σ} {p : Ptr} {M : Multiset Nat} :
      owner p → V.Root m'.heap p t M → M ≠ 0 → V.Balance m.heap m'.heap N M →
      V.Frame m.heap m'.heap touched → Ends V m N touched owner t (.ok p, m') (m'.calls, none)
  | error {m' : Memory σ} {e : JsonError} {abandons : Bool} {lost : Multiset Nat} :
      (lost = 0 ↔ abandons = false) → V.Balance m.heap m'.heap N lost →
      V.Frame m.heap m'.heap touched →
      Ends V m N touched owner t (.error e, m') (m'.calls, some abandons)

/-- No tree is owned at a pointer. -/
def View.Unowned (V : View σ Ptr) (s : σ) (p : Ptr) : Prop := ∀ t N, ¬V.Root s p t N

/-- The conversion of a value holds nothing, changes no tree and ends with a new one. -/
abbrev ValueEnds (V : View σ Ptr) (m : Memory σ) (t : Tree) :
    Except JsonError Ptr × Memory σ → Nat × Option Bool → Prop :=
  Ends V m 0 (fun _ => False) (V.Unowned m.heap) t

/-- A loop over the items of a container changes that tree. -/
abbrev LoopEnds (V : View σ Ptr) (m : Memory σ) (N : Multiset Nat) (p : Ptr) (t : Tree) :
    Except JsonError Ptr × Memory σ → Nat × Option Bool → Prop :=
  Ends V m N (· = p) (· = p) t

variable {m m₁ m₂ : Memory σ} {r : Except JsonError Ptr × Memory σ} {f : Nat × Option Bool}

/-- A conversion that fails and changes nothing. -/
theorem ends_unchanged {e : JsonError} {calls : Nat} (h : V.Unchanged m.heap s') :
  ValueEnds V m t (.error e, { heap := s', calls := calls }) (calls, some false)
  := by
  apply @Ends.error _ _ V m 0 _ _ t { heap := s', calls := calls } e false 0
  · simp
  · apply View.balance_of_log_eq h.log
  · apply h.frame

/-- An item that is created, or not. -/
theorem created_ends (k : Kind) (hL : Documented L V) :
  ValueEnds V m k.tree (created (m.request gets (L.create k)))
    (runChecks gets m.calls [.call false])
  := by
  rw [Memory.request, runChecks]
  cases gets m.calls with
  | true =>
    obtain ⟨p, s', hcreate, ⟨n, hroot, hlog⟩, hfresh, hframe⟩ := hL.create k m.heap
    rw [hcreate]
    apply @Ends.ok _ _ V m 0 _ _ k.tree { heap := s', calls := m.calls + 1 } p {n}
    · apply hfresh
    · apply hroot
    · apply Multiset.singleton_ne_zero
    · apply View.balance_acquire hlog
    · apply hframe.mono
      rintro _ ⟨t, N, hold⟩ rfl
      apply hfresh t N hold
  | false =>
    obtain ⟨s', hcreate, hsame⟩ := hL.create_fails k m.heap
    rw [hcreate]
    apply ends_unchanged hsame

/-! ### Containers -/

/-- A container of some blocks, and a new tree for it that has been made since. -/
structure Offered (V : View σ Ptr) (s s' : σ) (p : Ptr) (c : Tree) (N : Multiset Nat) (q : Ptr)
    (t : Tree) (M : Multiset Nat) : Prop where
  container : V.Root s p c N
  fresh : V.Unowned s q
  root : V.Root s' q t M
  balance : V.Balance s s' 0 M
  frame : V.Frame s s' fun _ => False

variable {c c' c'' : Tree}

theorem Offered.ne (h : Offered V s s' p c N q t M) :
  p ≠ q
  := by
  rintro rfl
  apply h.fresh c N h.container

theorem Offered.container_after (h : Offered V s s' p c N q t M) :
  V.Root s' p c N
  := h.frame p c N id h.container

theorem Offered.balance_container (h : Offered V s s' p c N q t M) :
  V.Balance s s' N (N + M)
  := by
  have hadd := h.balance.add N
  rwa [Multiset.add_zero] at hadd

/-- The tree becomes part of the container. -/
theorem Offered.attached (h : Offered V s s' p c N q t M)
    (hattached : V.Attached s' s'' p q c' (N + M)) :
  V.Balance s s'' N (N + M) ∧ V.Frame s s'' (· = p)
  := by
  constructor
  · apply h.balance_container.trans (View.balance_of_log_eq hattached.log)
  · apply (h.frame.trans hattached.frame).mono
    rintro r ⟨t, K, hroot⟩ (hfalse | rfl | rfl)
    · apply hfalse.elim
    · rfl
    · apply (h.fresh t K hroot).elim

/-- The tree and the container are deleted. -/
theorem Offered.deleted (hL : Documented L V) (h : Offered V s s' p c N q t M)
    (hsame : V.Unchanged s' s'') :
  V.Balance s (L.delete p (L.delete q s'')) N 0
    ∧ V.Frame s (L.delete p (L.delete q s'')) (· = p)
  := by
  have hitem := hL.delete s'' q t M (hsame.frame q t M id h.root)
  have hcontainer : V.Root (L.delete q s'') p c N :=
    hitem.frame p c N h.ne (hsame.frame p c N id h.container_after)
  have hdelete := hL.delete _ p c N hcontainer
  have hgiven := hitem.balance.add N
  rw [Multiset.add_zero] at hgiven
  constructor
  · apply ((h.balance_container.trans (View.balance_of_log_eq hsame.log)).trans hgiven).trans
      hdelete.balance
  · apply (((h.frame.trans hsame.frame).trans hitem.frame).trans hdelete.frame).mono
    rintro r ⟨t, K, hroot⟩ (((hfalse | hfalse) | rfl) | rfl)
    · apply hfalse.elim
    · apply hfalse.elim
    · apply (h.fresh t K hroot).elim
    · rfl

/-- A container is abandoned, with what has been abandoned inside. -/
theorem loop_abandons {e : JsonError} {lost : Multiset Nat} (hN : N ≠ 0)
    (hbalance : V.Balance m.heap m₁.heap 0 lost)
    (hframe : V.Frame m.heap m₁.heap fun _ => False) :
  LoopEnds V m N p c (.error e, m₁) (m₁.calls, some true)
  := by
  have hadd := hbalance.add N
  rw [Multiset.add_zero] at hadd
  refine .error ?_ hadd (hframe.mono fun _ _ => False.elim)
  simp [add_ne_zero_left hN]

/-- The rest of a loop. -/
theorem loop_rest (hbalance : V.Balance m.heap m₁.heap N M)
    (hframe : V.Frame m.heap m₁.heap (· = p)) (h : LoopEnds V m₁ M p c r f) :
  LoopEnds V m N p c r f
  := by
  have hboth {s : σ} (hrest : V.Frame m₁.heap s (· = p)) : V.Frame m.heap s (· = p) :=
    (hframe.trans hrest).mono fun _ _ => or_self_iff.mp
  cases h with
  | ok howner hroot hne hbal hrest =>
    exact .ok howner hroot hne (hbalance.trans hbal) (hboth hrest)
  | error hlost hbal hrest => exact .error hlost (hbalance.trans hbal) (hboth hrest)

/-- A loop over the items of a container that has just been created. -/
theorem ends_of_loop {k : Kind} (hcreated : V.Created m.heap m₁.heap k p)
    (h : ∀ N, N ≠ 0 → V.Root m₁.heap p k.tree N → LoopEnds V m₁ N p c r f) :
  ValueEnds V m c r f
  := by
  obtain ⟨⟨n, hroot, hlog⟩, hfresh, hframe⟩ := hcreated
  have hboth {s : σ} (hrest : V.Frame m₁.heap s (· = p)) :
      V.Frame m.heap s fun _ => False := by
    apply (hframe.trans hrest).mono
    rintro r ⟨t, N, hold⟩ (rfl | rfl) <;> exact hfresh t N hold
  cases h {n} (Multiset.singleton_ne_zero n) hroot with
  | ok howner hafter hne hbal hrest =>
    obtain rfl := howner
    exact .ok hfresh hafter hne ((View.balance_acquire hlog).trans hbal) (hboth hrest)
  | error hlost hbal hrest =>
    exact .error hlost ((View.balance_acquire hlog).trans hbal) (hboth hrest)

/-- A container that is created, or not, before a loop over its items. -/
theorem container_ends (hL : Documented L V) {k : Kind} {checks : List Check}
    {loop : Ptr → Memory σ → Except JsonError Ptr × Memory σ}
    (h : ∀ m₁ p N, N ≠ 0 → V.Root m₁.heap p k.tree N →
      LoopEnds V m₁ N p c (loop p m₁) (runChecks gets m₁.calls checks)) :
  ValueEnds V m c
    (match m.request gets (L.create k) with
      | (none, m) => (.error .memoryError, m)
      | (some p, m) => loop p m)
    (runChecks gets m.calls (.call false :: checks))
  := by
  rw [Memory.request, runChecks]
  cases gets m.calls with
  | true =>
    obtain ⟨p, s', hcreate, hcreated⟩ := hL.create k m.heap
    rw [hcreate]
    apply ends_of_loop hcreated (h { heap := s', calls := m.calls + 1 } p)
  | false =>
    obtain ⟨s', hcreate, hsame⟩ := hL.create_fails k m.heap
    rw [hcreate]
    apply ends_unchanged hsame

/-- A tree that is offered becomes part of the container, or both are deleted. -/
theorem attach_ends (hL : Documented L V) {checks : List Check}
    {attach : Bool → σ → Bool × σ} {loop : Memory σ → Except JsonError Ptr × Memory σ} (hN : N ≠ 0)
    (hoffered : Offered V m.heap m₁.heap p c N q t M)
    (hattach : ∃ s', attach true m₁.heap = (true, s') ∧ V.Attached m₁.heap s' p q c' (N + M))
    (hfails : ∃ s', attach false m₁.heap = (false, s') ∧ V.Unchanged m₁.heap s')
    (h : ∀ m₂ K, K ≠ 0 → V.Root m₂.heap p c' K →
      LoopEnds V m₂ K p c'' (loop m₂) (runChecks gets m₂.calls checks)) :
  LoopEnds V m N p c''
    (match m₁.request gets attach with
      | (false, m) => (.error .memoryError, (m.delete L q).delete L p)
      | (true, m) => loop m)
    (runChecks gets m₁.calls (.call false :: checks))
  := by
  rw [Memory.request, runChecks]
  cases gets m₁.calls with
  | true =>
    obtain ⟨s', hworks, hattached⟩ := hattach
    obtain ⟨hbalance, hkept⟩ := hoffered.attached hattached
    rw [hworks]
    have hrest := h { heap := s', calls := m₁.calls + 1 } (N + M) (add_ne_zero_left hN)
      hattached.root
    apply loop_rest hbalance hkept hrest
  | false =>
    obtain ⟨s', hfails, hsame⟩ := hfails
    obtain ⟨hbalance, hkept⟩ := hoffered.deleted hL hsame
    rw [hfails]
    apply @Ends.error _ _ V m N _ _ c''
      { heap := L.delete p (L.delete q s'), calls := m₁.calls + 1 } .memoryError false 0
    · simp
    · apply hbalance
    · apply hkept

/-! ### The conversion -/

mutual

/-- A conversion ends as its checks do. -/
theorem jsonValueToCjson_ends (hL : Documented L V) :
  ∀ (v : JsonValue) (m : Memory σ),
    ValueEnds V m v.tree (jsonValueToCjson L gets v m) (runChecks gets m.calls v.checks)
  | .null, m => by
      rw [jsonValueToCjson]
      apply created_ends .null hL
  | .bool b, m => by
      rw [jsonValueToCjson]
      apply created_ends (.bool b) hL
  | .number bits, m => by
      rw [jsonValueToCjson]
      apply created_ends (.number bits) hL
  | .string s, m => by
      rw [jsonValueToCjson, JsonValue.checks, runChecks]
      by_cases hnul : NulIn s
      · rw [CString.new, dif_pos hnul, if_pos hnul]
        apply ends_unchanged ⟨rfl, fun _ _ _ _ => id⟩
      · rw [CString.new, dif_neg hnul, if_neg hnul]
        apply created_ends (.string ⟨Utf8.bytes s, hnul⟩) hL
  | .array items, m => by
      rw [jsonValueToCjson, JsonValue.checks]
      apply @container_ends _ _ _ _ _ _ _ hL .array _ _ fun m₁ p N hN hroot =>
        addItems_ends hL items m₁ p [] N hN hroot
  | .object members, m => by
      rw [jsonValueToCjson, JsonValue.checks]
      apply @container_ends _ _ _ _ _ _ _ hL .object _ _ fun m₁ p N hN hroot =>
        addMembers_ends hL members m₁ p [] N hN hroot

/-- The loop over the items of an array ends as its checks do. -/
theorem addItems_ends (hL : Documented L V) :
  ∀ (items : List JsonValue) (m : Memory σ) (p : Ptr) (ts : List Tree) (N : Multiset Nat), N ≠ 0 →
    V.Root m.heap p (.array ts) N →
    LoopEnds V m N p (.array (ts ++ treesOfItems items)) (addItems L gets p items m)
      (runChecks gets m.calls (checksOfItems items))
  | [], m, p, ts, N, hN, hroot => by
      rw [treesOfItems, List.append_nil, addItems, checksOfItems, runChecks]
      exact .ok rfl hroot hN (View.balance_of_log_eq rfl) fun _ _ _ _ => id
  | v :: items, m, p, ts, N, hN, hroot => by
      have hchild := jsonValueToCjson_ends hL v m
      rw [addItems, checksOfItems, runChecks_append, runChecks_inside]
      generalize jsonValueToCjson L gets v m = r at hchild ⊢
      generalize runChecks gets m.calls v.checks = f at hchild ⊢
      cases hchild with
      | error hlost hbal hframe => exact loop_abandons hN hbal hframe
      | @ok m₁ q M hfresh hitem hne hbal hframe =>
        have hoffered : Offered V m.heap m₁.heap p (.array ts) N q v.tree M :=
          { container := hroot, fresh := hfresh, root := hitem, balance := hbal, frame := hframe }
        rw [treesOfItems, List.append_cons]
        apply attach_ends hL hN hoffered
        · apply hL.addItemToArray m₁.heap p ts N q v.tree M hoffered.ne hoffered.container_after
            hitem
        · apply hL.addItemToArray_fails m₁.heap p q
        · intro m₂ K hK hafter
          apply addItems_ends hL items m₂ p (ts ++ [v.tree]) K hK hafter

/-- The loop over the members of an object ends as its checks do. -/
theorem addMembers_ends (hL : Documented L V) :
  ∀ (members : List (String × JsonValue)) (m : Memory σ) (p : Ptr)
    (ts : List (List UInt8 × Tree)) (N : Multiset Nat), N ≠ 0 → V.Root m.heap p (.object ts) N →
    LoopEnds V m N p (.object (ts ++ treesOfMembers members)) (addMembers L gets p members m)
      (runChecks gets m.calls (checksOfMembers members))
  | [], m, p, ts, N, hN, hroot => by
      rw [treesOfMembers, List.append_nil, addMembers, checksOfMembers, runChecks]
      exact .ok rfl hroot hN (View.balance_of_log_eq rfl) fun _ _ _ _ => id
  | (key, v) :: members, m, p, ts, N, hN, hroot => by
      rw [addMembers, checksOfMembers, runChecks]
      by_cases hnul : NulIn key
      · rw [CString.new, dif_pos hnul, if_pos hnul]
        apply loop_abandons hN (View.balance_of_log_eq rfl) fun _ _ _ _ => id
      · rw [CString.new, dif_neg hnul, if_neg hnul]
        have hchild := jsonValueToCjson_ends hL v m
        rw [runChecks_append, runChecks_inside]
        dsimp only
        generalize jsonValueToCjson L gets v m = r at hchild ⊢
        generalize runChecks gets m.calls v.checks = f at hchild ⊢
        cases hchild with
        | error hlost hbal hframe => exact loop_abandons hN hbal hframe
        | @ok m₁ q M hfresh hitem hne hbal hframe =>
          have hoffered : Offered V m.heap m₁.heap p (.object ts) N q v.tree M :=
            { container := hroot, fresh := hfresh, root := hitem, balance := hbal,
              frame := hframe }
          rw [treesOfMembers, List.append_cons]
          apply attach_ends hL hN hoffered
          · apply hL.addItemToObject m₁.heap p ts N _ q v.tree M hoffered.ne
              hoffered.container_after hitem
          · apply hL.addItemToObject_fails m₁.heap p _ q
          · intro m₂ K hK hafter
            apply addMembers_ends hL members m₂ p (ts ++ [(Utf8.bytes key, v.tree)]) K hK hafter

end

end FdJson

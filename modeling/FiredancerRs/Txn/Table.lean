import FiredancerRs.Txn.Builder

/-!
# The account table

Every call on the builder changes the account table by touching keys: `touch key flags`
raises `flags` on the row of `key`, and appends the row when there is none. A table is
determined by the requests it was touched with: its keys are the requested keys, each
once, and the flags of a key are the union of the flags requested for it.
-/

open FdEd25519

namespace FdTxn

/-! ### Flags -/

theorem and_or_ne_zero (a b c : UInt8) :
  ((a ||| b) &&& c != 0) = ((a &&& c != 0) || (b &&& c != 0))
  := by
  have h : (a ||| b) &&& c = (a &&& c) ||| (b &&& c) := by
    apply UInt8.toNat_inj.mp
    simp only [UInt8.toNat_and, UInt8.toNat_or, Nat.and_or_distrib_right]
  rw [h]
  apply Bool.eq_iff_iff.mpr
  simp only [bne_iff_ne, Bool.or_eq_true, ne_eq, UInt8.or_eq_zero_iff]
  tauto

@[simp]
theorem isSignerFlag_or (a b : UInt8) :
  isSignerFlag (a ||| b) = (isSignerFlag a || isSignerFlag b)
  := and_or_ne_zero a b _

@[simp]
theorem isWritableFlag_or (a b : UInt8) :
  isWritableFlag (a ||| b) = (isWritableFlag a || isWritableFlag b)
  := and_or_ne_zero a b _

@[simp]
theorem isSignerFlag_zero :
  isSignerFlag 0 = false
  := rfl

@[simp]
theorem isWritableFlag_zero :
  isWritableFlag 0 = false
  := rfl

/-- The flags an account of an instruction asks for. -/
def metaFlags (m : AccountMeta) : UInt8 :=
  (if m.isSigner then ACCT_F_SIGNER else 0) ||| (if m.isWritable then ACCT_F_WRITABLE else 0)

@[simp]
theorem isSignerFlag_metaFlags (m : AccountMeta) :
  isSignerFlag (metaFlags m) = m.isSigner
  := by
  rw [metaFlags, isSignerFlag_or]
  cases m.isSigner <;> cases m.isWritable <;> decide

@[simp]
theorem isWritableFlag_metaFlags (m : AccountMeta) :
  isWritableFlag (metaFlags m) = m.isWritable
  := by
  rw [metaFlags, isWritableFlag_or]
  cases m.isSigner <;> cases m.isWritable <;> decide

/-! ### Touching a key -/

/-- The keys of a table. -/
def keys (accts : List Account) : List Pubkey := accts.map Account.key

/-- Raise `flags` on the row of `key`, appending the row when there is none. -/
def touch (key : Pubkey) (flags : UInt8) : List Account → List Account
  | [] => [⟨key, flags⟩]
  | acct :: accts =>
    if acct.key = key then
      { acct with flags := acct.flags ||| flags } :: accts
    else
      acct :: touch key flags accts

/-- The flags of a key, none when it is not in the table. -/
def flagsOf (accts : List Account) (key : Pubkey) : UInt8 :=
  match accts with
  | [] => 0
  | acct :: accts => if acct.key = key then acct.flags else flagsOf accts key

/-- The key is a writable signer of the table. -/
def IsWritableSigner (accts : List Account) (key : Pubkey) : Prop :=
  isSignerFlag (flagsOf accts key) = true ∧ isWritableFlag (flagsOf accts key) = true

instance (accts : List Account) (key : Pubkey) : Decidable (IsWritableSigner accts key) :=
  inferInstanceAs (Decidable (_ ∧ _))

/-- The position of a key in a table. -/
def indexOf (accts : List Account) (key : Pubkey) : Option Nat :=
  accts.findIdx? fun acct => acct.key = key

@[simp]
theorem length_keys (accts : List Account) :
  (keys accts).length = accts.length
  := List.length_map _

theorem indexOf_eq_none_iff {accts : List Account} {key : Pubkey} :
  indexOf accts key = none ↔ key ∉ keys accts
  := by
  simp [indexOf, List.findIdx?_eq_none_iff, keys]

theorem indexOf_isSome_iff {accts : List Account} {key : Pubkey} :
  (∃ i, indexOf accts key = some i) ↔ key ∈ keys accts
  := by
  rw [← Option.isSome_iff_exists, Option.isSome_iff_ne_none, ne_eq, indexOf_eq_none_iff,
    not_not]

/-- The row at the position of a key has that key. -/
theorem getElem?_keys_of_indexOf {accts : List Account} {key : Pubkey} {i : Nat}
    (h : indexOf accts key = some i) :
  (keys accts)[i]? = some key
  := by
  obtain ⟨hi, hkey, -⟩ := List.findIdx?_eq_some_iff_getElem.mp h
  simp only [keys, List.getElem?_map, List.getElem?_eq_getElem hi, Option.map_some]
  simpa using hkey

theorem indexOf_lt {accts : List Account} {key : Pubkey} {i : Nat}
    (h : indexOf accts key = some i) :
  i < accts.length
  := by
  obtain ⟨hi, -⟩ := List.findIdx?_eq_some_iff_getElem.mp h
  apply hi

/-- Raising flags at the position of a key touches the key. -/
theorem modify_eq_touch {key : Pubkey} {flags : UInt8} :
  ∀ {accts : List Account} {i : Nat}, indexOf accts key = some i →
    (accts.modify i fun acct => { acct with flags := acct.flags ||| flags })
      = touch key flags accts
  | [], _, h => by simp [indexOf] at h
  | acct :: accts, i, h => by
      rw [indexOf, List.findIdx?_cons] at h
      by_cases hkey : acct.key = key
      · simp only [hkey, decide_true, if_true, Option.some.injEq] at h
        subst h
        simp [touch, hkey]
      · simp only [hkey, decide_false, Bool.false_eq_true, if_false,
          Option.map_eq_some_iff] at h
        obtain ⟨j, hj, rfl⟩ := h
        simp only [List.modify_succ_cons, touch, hkey, if_false]
        rw [modify_eq_touch hj]

/-- A key that is not in the table is appended when touched. -/
theorem append_eq_touch {key : Pubkey} {flags : UInt8} :
  ∀ {accts : List Account}, key ∉ keys accts → accts ++ [⟨key, flags⟩] = touch key flags accts
  | [], _ => rfl
  | acct :: accts, h => by
      simp only [keys, List.map_cons, List.mem_cons, not_or] at h
      rw [touch, if_neg (Ne.symm h.1), List.cons_append, append_eq_touch h.2]

theorem touch_touch (key : Pubkey) (flags flags' : UInt8) :
  ∀ accts : List Account,
    touch key flags' (touch key flags accts) = touch key (flags ||| flags') accts
  | [] => by simp [touch]
  | acct :: accts => by
      by_cases hkey : acct.key = key
      · simp [touch, hkey, UInt8.or_assoc]
      · simp [touch, hkey, touch_touch key flags flags' accts]

/-- Touching a key of the table with no flags changes nothing. -/
theorem touch_zero {key : Pubkey} :
  ∀ {accts : List Account}, key ∈ keys accts → touch key 0 accts = accts
  | acct :: accts, h => by
      by_cases hkey : acct.key = key
      · rw [touch, if_pos hkey, UInt8.or_zero]
      · rw [touch, if_neg hkey, touch_zero]
        simpa [keys, Ne.symm hkey] using h

theorem keys_touch (key : Pubkey) (flags : UInt8) :
  ∀ accts : List Account,
    keys (touch key flags accts)
      = if key ∈ keys accts then keys accts else keys accts ++ [key]
  | [] => rfl
  | acct :: accts => by
      by_cases hkey : acct.key = key
      · simp [touch, hkey, keys]
      · have ih := keys_touch key flags accts
        rw [touch, if_neg hkey]
        simp only [keys, List.map_cons, List.mem_cons, Ne.symm hkey, false_or] at ih ⊢
        rw [ih]
        by_cases hmem : key ∈ accts.map Account.key
        · simp only [hmem, if_true]
        · simp only [hmem, if_false, List.cons_append]

theorem mem_keys_touch {key key' : Pubkey} {flags : UInt8} {accts : List Account} :
  key' ∈ keys (touch key flags accts) ↔ key' = key ∨ key' ∈ keys accts
  := by
  rw [keys_touch]
  split
  · next h =>
    constructor
    · apply Or.inr
    · rintro (rfl | h')
      · apply h
      · apply h'
  · simp [or_comm]

theorem nodup_keys_touch {key : Pubkey} {flags : UInt8} {accts : List Account}
    (h : (keys accts).Nodup) :
  (keys (touch key flags accts)).Nodup
  := by
  rw [keys_touch]
  split
  · apply h
  · next hkey =>
    apply List.nodup_append.mpr
    use h, List.pairwise_singleton _ key
    rintro a ha b hb rfl
    simp only [List.mem_singleton] at hb
    apply hkey (hb ▸ ha)

/-- Touching keeps the positions of the keys that are there. -/
theorem keys_prefix_touch (key : Pubkey) (flags : UInt8) (accts : List Account) :
  keys accts <+: keys (touch key flags accts)
  := by
  rw [keys_touch]
  split
  · apply List.prefix_refl
  · apply List.prefix_append

/-- Touching a key of a table, or any key when the table is not full, does not overfill it. -/
theorem length_touch_le_of_room {key : Pubkey} {flags : UInt8} {accts : List Account} {n : Nat}
    (hle : accts.length ≤ n) (hroom : key ∈ keys accts ∨ accts.length < n) :
  (touch key flags accts).length ≤ n
  := by
  rw [← length_keys, keys_touch]
  split
  · rwa [length_keys]
  · next hkey =>
    have hlt : accts.length < n := hroom.resolve_left hkey
    simpa [Nat.succ_le_iff] using hlt

theorem room_of_length_touch_le {key : Pubkey} {flags : UInt8} {accts : List Account} {n : Nat}
    (h : (touch key flags accts).length ≤ n) :
  key ∈ keys accts ∨ accts.length < n
  := by
  rw [← length_keys, keys_touch] at h
  split at h
  · next hkey => apply Or.inl hkey
  · right
    rw [List.length_append, length_keys, List.length_singleton] at h
    omega

/-- Touching raises flags on the touched key and on no other. -/
theorem flagsOf_touch (key key' : Pubkey) (flags : UInt8) :
  ∀ accts : List Account,
    flagsOf (touch key flags accts) key'
      = if key = key' then flagsOf accts key' ||| flags else flagsOf accts key'
  | [] => by
      by_cases h : key = key' <;> simp [touch, flagsOf, h]
  | acct :: accts => by
      have ih := flagsOf_touch key key' flags accts
      by_cases hkey : acct.key = key
      · by_cases h : key = key' <;> simp [touch, flagsOf, hkey, h]
      · rw [touch, if_neg hkey, flagsOf, flagsOf, ih]
        by_cases hkey' : acct.key = key'
        · have hne : key ≠ key' := by
            rintro rfl
            apply hkey hkey'
          simp [hkey', hne]
        · simp [hkey']

/-- The flags in the row of a key are the flags of the key. -/
theorem flagsOf_getElem :
  ∀ {accts : List Account} {i : Nat} (hi : i < accts.length), (keys accts).Nodup →
    flagsOf accts accts[i].key = accts[i].flags
  | acct :: accts, 0, _, _ => by simp [flagsOf]
  | acct :: accts, i + 1, hi, h => by
      have hi' : i < accts.length := by simpa using hi
      obtain ⟨hnot, hnodup⟩ := List.nodup_cons.mp h
      have hne : acct.key ≠ accts[i].key := by
        intro heq
        apply hnot
        rw [heq]
        apply List.mem_map_of_mem (List.getElem_mem hi')
      rw [List.getElem_cons_succ, flagsOf, if_neg hne]
      apply flagsOf_getElem hi' hnodup

theorem flagsOf_of_mem {accts : List Account} {acct : Account} (h : acct ∈ accts)
    (hnodup : (keys accts).Nodup) :
  flagsOf accts acct.key = acct.flags
  := by
  obtain ⟨i, hi, rfl⟩ := List.getElem_of_mem h
  apply flagsOf_getElem hi hnodup

/-- A list holds at each position what a prefix of it holds there. -/
theorem getElem?_mono {α : Type} {l l' : List α} (h : l <+: l') {i : Nat} {a : α}
    (hi : l[i]? = some a) :
  l'[i]? = some a
  := by
  obtain ⟨t, rfl⟩ := h
  obtain ⟨hlt, -⟩ := List.getElem?_eq_some_iff.mp hi
  rw [List.getElem?_append_left hlt, hi]

/-! ### Granting requests -/

/-- Touch the keys of a list of requests, each with the flags requested. -/
def grant (requests : List AccountMeta) (accts : List Account) : List Account :=
  requests.foldl (fun accts m => touch m.pubkey (metaFlags m) accts) accts

@[simp]
theorem grant_nil (accts : List Account) :
  grant [] accts = accts
  := by
  rw [grant, List.foldl_nil]

@[simp]
theorem grant_cons (m : AccountMeta) (requests : List AccountMeta) (accts : List Account) :
  grant (m :: requests) accts = grant requests (touch m.pubkey (metaFlags m) accts)
  := rfl

theorem grant_append (requests requests' : List AccountMeta) (accts : List Account) :
  grant (requests ++ requests') accts = grant requests' (grant requests accts)
  := List.foldl_append

/-- The keys after granting requests are those before and the requested ones. -/
theorem mem_keys_grant {key : Pubkey} :
  ∀ {requests : List AccountMeta} {accts : List Account},
    key ∈ keys (grant requests accts) ↔ key ∈ keys accts ∨ ∃ m ∈ requests, m.pubkey = key
  | [], _ => by simp
  | m :: requests, accts => by
      rw [grant_cons, mem_keys_grant, mem_keys_touch]
      simp only [List.mem_cons, exists_eq_or_imp, eq_comm (a := key)]
      tauto

/-- Granting requests for keys of the table adds no key. -/
theorem keys_grant_of_mem :
  ∀ {requests : List AccountMeta} {accts : List Account},
    (∀ m ∈ requests, m.pubkey ∈ keys accts) → keys (grant requests accts) = keys accts
  | [], _, _ => rfl
  | m :: requests, accts, h => by
      have htouch : keys (touch m.pubkey (metaFlags m) accts) = keys accts := by
        rw [keys_touch, if_pos (h m List.mem_cons_self)]
      rw [grant_cons, keys_grant_of_mem, htouch]
      intro m' hm'
      rw [htouch]
      apply h m' (List.mem_cons_of_mem m hm')

/-- Granting requests for distinct keys that are not in the table appends these keys. -/
theorem keys_grant_of_not_mem :
  ∀ {requests : List AccountMeta} {accts : List Account},
    (requests.map AccountMeta.pubkey).Nodup → (∀ m ∈ requests, m.pubkey ∉ keys accts) →
      keys (grant requests accts) = keys accts ++ requests.map AccountMeta.pubkey
  | [], _, _, _ => by simp
  | m :: requests, accts, hnodup, h => by
      obtain ⟨hnot, hnodup'⟩ := List.nodup_cons.mp hnodup
      have htouch : keys (touch m.pubkey (metaFlags m) accts) = keys accts ++ [m.pubkey] := by
        rw [keys_touch, if_neg (h m List.mem_cons_self)]
      rw [grant_cons, keys_grant_of_not_mem hnodup', htouch]
      · simp
      · intro m' hm'
        rw [htouch, List.mem_append, List.mem_singleton, not_or]
        use h m' (List.mem_cons_of_mem m hm')
        rintro heq
        apply hnot
        rw [← heq]
        apply List.mem_map_of_mem hm'

theorem nodup_keys_grant :
  ∀ {requests : List AccountMeta} {accts : List Account}, (keys accts).Nodup →
    (keys (grant requests accts)).Nodup
  | [], _, h => h
  | m :: requests, _, h => by
      rw [grant_cons]
      apply nodup_keys_grant (nodup_keys_touch h)

theorem keys_prefix_grant :
  ∀ (requests : List AccountMeta) (accts : List Account),
    keys accts <+: keys (grant requests accts)
  | [], _ => List.prefix_refl _
  | m :: requests, accts =>
      (keys_prefix_touch m.pubkey (metaFlags m) accts).trans (keys_prefix_grant requests _)

theorem length_le_length_grant (requests : List AccountMeta) (accts : List Account) :
  accts.length ≤ (grant requests accts).length
  := by
  have h := (keys_prefix_grant requests accts).length_le
  rwa [length_keys, length_keys] at h

/-- A key signs after granting requests when it did before or a request for it asks it to. -/
theorem isSignerFlag_flagsOf_grant {key : Pubkey} :
  ∀ {requests : List AccountMeta} {accts : List Account},
    isSignerFlag (flagsOf (grant requests accts) key)
      = (isSignerFlag (flagsOf accts key)
          || requests.any fun m => decide (m.pubkey = key) && m.isSigner)
  | [], _ => by simp
  | m :: requests, accts => by
      rw [grant_cons, isSignerFlag_flagsOf_grant, flagsOf_touch]
      by_cases h : m.pubkey = key <;> simp [h, Bool.or_assoc]

/-- A key is writable after granting requests when it was before or a request for it asks it
to be. -/
theorem isWritableFlag_flagsOf_grant {key : Pubkey} :
  ∀ {requests : List AccountMeta} {accts : List Account},
    isWritableFlag (flagsOf (grant requests accts) key)
      = (isWritableFlag (flagsOf accts key)
          || requests.any fun m => decide (m.pubkey = key) && m.isWritable)
  | [], _ => by simp
  | m :: requests, accts => by
      rw [grant_cons, isWritableFlag_flagsOf_grant, flagsOf_touch]
      by_cases h : m.pubkey = key <;> simp [h, Bool.or_assoc]

/-- Granting requests takes no role from a key. -/
theorem IsWritableSigner.grant {accts : List Account} {key : Pubkey}
    (h : IsWritableSigner accts key) (requests : List AccountMeta) :
  IsWritableSigner (grant requests accts) key
  := by
  rw [IsWritableSigner, isSignerFlag_flagsOf_grant, isWritableFlag_flagsOf_grant, h.1, h.2]
  exact ⟨rfl, rfl⟩

/-- A key that a request asks to be a writable signer is one. -/
theorem isWritableSigner_grant_of_mem {requests : List AccountMeta} {key : Pubkey}
    (h : ⟨key, true, true⟩ ∈ requests) (accts : List Account) :
  IsWritableSigner (grant requests accts) key
  := by
  have hany (p : AccountMeta → Bool) (hp : p ⟨key, true, true⟩ = true) : requests.any p = true :=
    List.any_eq_true.mpr ⟨_, h, hp⟩
  rw [IsWritableSigner, isSignerFlag_flagsOf_grant, isWritableFlag_flagsOf_grant,
    hany _ (by simp), hany _ (by simp), Bool.or_true, Bool.or_true]
  exact ⟨rfl, rfl⟩

/-- A writable signer is in the table. -/
theorem IsWritableSigner.mem_keys {key : Pubkey} :
  ∀ {accts : List Account}, IsWritableSigner accts key → key ∈ keys accts
  | [], h => by simp [IsWritableSigner, flagsOf, isSignerFlag_zero] at h
  | acct :: accts, h => by
      by_cases hkey : acct.key = key
      · rw [← hkey]
        apply List.mem_cons_self
      · rw [IsWritableSigner, flagsOf, if_neg hkey] at h
        apply List.mem_cons_of_mem
        apply IsWritableSigner.mem_keys h

end FdTxn

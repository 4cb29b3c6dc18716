import Mathlib.Order.Bounds.Basic
import FiredancerRs.Ed25519.Pda

/-!
# The bump of a program derived address

The loop of `find_program_address` returns the greatest bump whose hash does not decode to a
point, and its counter does not underflow (`findProgramAddress_greatest`). The check of
`create_program_address` also accepts a hash that decodes to a point with another encoding: the
two agree on the greatest bump exactly when each bump with such a hash is below a bump whose
hash does not decode (`findProgramAddress_canonical_iff`).
-/

namespace FdEd25519

variable (sys : Sys) (seeds : List Bytes) (programId : Pubkey)

/-- The hash of the seeds followed by a bump. -/
def bumpHash (bump : UInt8) : Bytes32 := addressHash sys (seeds ++ [[bump]]) programId

/-- The bumps whose hash does not decode to a point. -/
def undecodable : Set UInt8 :=
  {bump | 1 ≤ bump ∧ sys.pointFrombytes (bumpHash sys seeds programId bump) = none}

/-- The bumps for which `create_program_address` of the seeds followed by the bump succeeds. -/
def creatable : Set UInt8 :=
  {bump | 1 ≤ bump ∧ ∃ address, createProgramAddress sys (seeds ++ [[bump]]) programId = .ok address}

/-- The bytes decode to a point that has another encoding. -/
def NonCanonical (bytes : Bytes32) : Prop :=
  ∃ point, sys.pointFrombytes bytes = some point ∧ sys.pointTobytes point ≠ bytes

variable {sys seeds programId}

theorem bytesAreCurvePoint_eq_false_iff {bytes : Bytes32} :
  bytesAreCurvePoint sys bytes = false
    ↔ sys.pointFrombytes bytes = none ∨ NonCanonical sys bytes
  := by
  rw [bytesAreCurvePoint, NonCanonical]
  cases sys.pointFrombytes bytes with
  | none => simp
  | some point => simp

/-- The loop with as many iterations left as the bump says returns the greatest bump that is
left whose hash does not decode, or an error when there is none; its counter does not
underflow. -/
theorem findLoop_greatest (iters : Nat) {bump : UInt8} (h : bump.toNat = iters) :
  (∃ b, findLoop sys (seeds.foldl Sha256.append Sha256.init) programId iters bump
        = some (.ok (⟨bumpHash sys seeds programId b⟩, b))
      ∧ IsGreatest {b ∈ undecodable sys seeds programId | b ≤ bump} b)
    ∨ (findLoop sys (seeds.foldl Sha256.append Sha256.init) programId iters bump
        = some (.error .derivationFailed)
      ∧ ∀ b ∈ undecodable sys seeds programId, ¬ b ≤ bump)
  := by
  induction iters generalizing bump with
  | zero =>
    right
    use rfl
    rintro b ⟨hpos, -⟩ hle
    rw [UInt8.le_iff_toNat_le] at hpos hle
    rw [h] at hle
    exact absurd (Nat.le_trans hpos hle) (by decide)
  | succ iters ih =>
    have hhash : ((((seeds.foldl Sha256.append Sha256.init).append [bump]).append
        programId.asBytes).append PDA_MARKER).fini sys = bumpHash sys seeds programId bump := by
      simp [Sha256.foldl_append, Sha256.fini, bumpHash, addressHash, Sha256.append]
    have hpos : 1 ≤ bump := by
      rw [UInt8.le_iff_toNat_le, h]
      apply Nat.le_add_left
    rw [findLoop]
    simp only [hhash, sys.pointIsOnCurve_eq_zero]
    by_cases hnone : sys.pointFrombytes (bumpHash sys seeds programId bump) = none
    · left
      use bump
      constructor
      · rw [if_pos hnone]
      · constructor
        · exact ⟨⟨hpos, hnone⟩, UInt8.le_refl bump⟩
        · rintro b ⟨-, hle⟩
          apply hle
    · have hzero : bump ≠ 0 := by
        rintro rfl
        cases h
      have hpred : (bump - 1).toNat = iters := by
        rw [UInt8.toNat_sub_of_le _ _ hpos, h]
        rfl
      -- a bump that is left and is not this one is left for the next iteration
      have hleft {b : UInt8} (hb : b ∈ undecodable sys seeds programId) :
          b ≤ bump ↔ b ≤ bump - 1 := by
        have hne : b ≠ bump := by
          rintro rfl
          apply hnone hb.2
        rw [ne_eq, ← UInt8.toNat_inj, h] at hne
        rw [UInt8.le_iff_toNat_le, UInt8.le_iff_toNat_le, hpred, h]
        omega
      rw [if_neg hnone, if_neg hzero]
      rcases ih hpred with ⟨b, hfind, ⟨hb, hle⟩, hgreatest⟩ | ⟨hfind, hempty⟩
      · left
        refine ⟨b, hfind, ⟨hb, (hleft hb).mpr hle⟩, ?_⟩
        rintro b' ⟨hb', hle'⟩
        apply hgreatest ⟨hb', (hleft hb').mp hle'⟩
      · right
        use hfind
        intro b hb hle
        apply hempty b hb ((hleft hb).mp hle)

/-- For admissible seeds, `find_program_address` returns the greatest bump whose hash does not
decode, with this hash as the address, or an error when there is no such bump. -/
theorem findProgramAddress_greatest (hseeds : checkSeeds seeds = true) :
  (∃ bump, findProgramAddress sys seeds programId
        = some (.ok (⟨bumpHash sys seeds programId bump⟩, bump))
      ∧ IsGreatest (undecodable sys seeds programId) bump)
    ∨ (findProgramAddress sys seeds programId = some (.error .derivationFailed)
      ∧ undecodable sys seeds programId = ∅)
  := by
  have htop (b : UInt8) : b ≤ 255 := by
    rw [UInt8.le_iff_toNat_le]
    apply Nat.le_of_lt_succ b.toNat_lt
  have hall : {b ∈ undecodable sys seeds programId | b ≤ 255}
      = undecodable sys seeds programId := by
    ext b
    simp [htop b]
  have hloop := @findLoop_greatest sys seeds programId 255 255 rfl
  rw [findProgramAddress, if_pos hseeds]
  rw [hall] at hloop
  rcases hloop with hfound | ⟨hfind, hempty⟩
  · exact .inl hfound
  · right
    use hfind
    rw [Set.eq_empty_iff_forall_notMem]
    intro b hb
    apply hempty b hb (htop b)

/-! ### The greatest bump that `create_program_address` accepts -/

theorem createProgramAddress_bump_iff (hseeds : checkSeeds seeds = true)
    (hroom : seeds.length < MAX_SEEDS) {bump : UInt8} {address : Pubkey} :
  createProgramAddress sys (seeds ++ [[bump]]) programId = .ok address
    ↔ bytesAreCurvePoint sys (bumpHash sys seeds programId bump) = false
      ∧ ⟨bumpHash sys seeds programId bump⟩ = address
  := by
  rw [createProgramAddress_eq, if_pos ((checkSeeds_append_bump hseeds bump).mpr hroom)]
  change (if bytesAreCurvePoint sys (bumpHash sys seeds programId bump) then _ else _) = _ ↔ _
  cases bytesAreCurvePoint sys (bumpHash sys seeds programId bump) with
  | true => simp
  | false =>
    simp only [Bool.false_eq_true, if_false, Except.ok.injEq, true_and]
    rfl

/-- `create_program_address` accepts the bumps whose hash does not decode, and those whose hash
is another encoding of a point. -/
theorem mem_creatable_iff (hseeds : checkSeeds seeds = true) (hroom : seeds.length < MAX_SEEDS)
    {bump : UInt8} :
  bump ∈ creatable sys seeds programId
    ↔ bump ∈ undecodable sys seeds programId
      ∨ (1 ≤ bump ∧ NonCanonical sys (bumpHash sys seeds programId bump))
  := by
  have hcreate : (∃ address, createProgramAddress sys (seeds ++ [[bump]]) programId = .ok address)
      ↔ bytesAreCurvePoint sys (bumpHash sys seeds programId bump) = false := by
    simp only [createProgramAddress_bump_iff hseeds hroom, exists_and_left, exists_eq', and_true]
  rw [creatable, Set.mem_ofPred_eq, hcreate, bytesAreCurvePoint_eq_false_iff, and_or_left]
  rfl

variable (sys seeds programId)

/-- `find_program_address` returns the greatest bump that `create_program_address` accepts,
together with its address, and an error when there is no such bump. -/
def FindsGreatest : Prop :=
  (∃ address bump, findProgramAddress sys seeds programId = some (.ok (address, bump))
      ∧ IsGreatest (creatable sys seeds programId) bump
      ∧ createProgramAddress sys (seeds ++ [[bump]]) programId = .ok address)
    ∨ ∃ e, findProgramAddress sys seeds programId = some (.error e)
      ∧ creatable sys seeds programId = ∅

variable {sys seeds programId}

/-- For fewer than `MAX_SEEDS` admissible seeds, `find_program_address` does not underflow, and
it finds the greatest bump that `create_program_address` accepts exactly when each bump whose
hash is a non-canonical encoding of a point is below one whose hash does not decode. -/
theorem findProgramAddress_canonical_iff (hroom : seeds.length < MAX_SEEDS)
    (hlen : ∀ seed ∈ seeds, seed.length ≤ MAX_SEED_LEN) :
  (findProgramAddress sys seeds programId).isSome
    ∧ (FindsGreatest sys seeds programId
      ↔ ∀ bump, 1 ≤ bump → NonCanonical sys (bumpHash sys seeds programId bump) →
          ∃ above, bump < above
            ∧ sys.pointFrombytes (bumpHash sys seeds programId above) = none)
  := by
  have hseeds : checkSeeds seeds = true := checkSeeds_iff.mpr ⟨Nat.le_of_lt hroom, hlen⟩
  have hcreatable (bump : UInt8) : bump ∈ creatable sys seeds programId ↔ _ :=
    mem_creatable_iff hseeds hroom
  have habove {bump above : UInt8} (hlt : bump < above)
      (hnone : sys.pointFrombytes (bumpHash sys seeds programId above) = none) :
      above ∈ undecodable sys seeds programId := by
    use ?_, hnone
    rw [UInt8.lt_iff_toNat_lt] at hlt
    rw [UInt8.le_iff_toNat_le]
    apply Nat.lt_of_le_of_lt (Nat.zero_le _) hlt
  have hgreatest := @findProgramAddress_greatest sys seeds programId hseeds
  constructor
  · rcases hgreatest with ⟨bump, hfind, -⟩ | ⟨hfind, -⟩
    · rw [hfind]
      rfl
    · rw [hfind]
      rfl
  constructor
  · intro hfinds bump hpos hnon
    have hmem := (hcreatable bump).mpr (.inr ⟨hpos, hnon⟩)
    rcases hfinds with ⟨address, top, hfind, htop, -⟩ | ⟨e, -, hempty⟩
    · rcases hgreatest with ⟨top', hfind', htop'⟩ | ⟨hfind', -⟩
      · obtain rfl : top = top' := by
          rw [hfind] at hfind'
          simp only [Option.some.injEq, Except.ok.injEq, Prod.mk.injEq] at hfind'
          apply hfind'.2
        have hne : bump ≠ top := by
          rintro rfl
          obtain ⟨point, hpoint, -⟩ := hnon
          rw [htop'.1.2] at hpoint
          cases hpoint
        use top
        constructor
        · apply UInt8.lt_of_le_of_ne (htop.2 hmem) hne
        · apply htop'.1.2
      · rw [hfind] at hfind'
        cases hfind'
    · rw [hempty] at hmem
      apply hmem.elim
  · intro hcanonical
    rcases hgreatest with ⟨top, hfind, htop⟩ | ⟨hfind, hempty⟩
    · left
      refine ⟨_, top, hfind, ⟨(hcreatable top).mpr (.inl htop.1), ?_⟩, ?_⟩
      · intro bump hbump
        rcases (hcreatable bump).mp hbump with hnone | ⟨hpos, hnon⟩
        · apply htop.2 hnone
        · obtain ⟨above, hlt, hnone⟩ := hcanonical bump hpos hnon
          apply UInt8.le_trans (UInt8.le_of_lt hlt) (htop.2 (habove hlt hnone))
      · rw [createProgramAddress_bump_iff hseeds hroom, bytesAreCurvePoint_eq_false_iff]
        exact ⟨.inl htop.1.2, rfl⟩
    · right
      refine ⟨_, hfind, ?_⟩
      rw [Set.eq_empty_iff_forall_notMem] at hempty ⊢
      intro bump hbump
      rcases (hcreatable bump).mp hbump with hnone | ⟨hpos, hnon⟩
      · apply hempty bump hnone
      · obtain ⟨above, hlt, hnone⟩ := hcanonical bump hpos hnon
        apply hempty above (habove hlt hnone)

/-- Functions for which the hash of a text that starts with the byte 255 is another encoding of
the only point, and every other hash is zero and does not decode. -/
def twoEncodingsSys : Sys where
  Point := Unit
  sha256 data := Vector.replicate 32 (if data.head? = some 255 then 1 else 0)
  pointFrombytes h := if h[0] = 0 then none else some ()
  pointTobytes _ := Vector.replicate 32 2
  pointIsOnCurve h := if h[0] = 0 then 0 else 1
  pointIsOnCurve_eq_zero h := by
    by_cases hzero : h[0] = 0
    · simp [hzero]
    · simp [hzero]

theorem findProgramAddress_canonical_iff_two :
  FindsGreatest offCurveSys [[1], [2, 3]] zeroKey
  := by
  apply (findProgramAddress_canonical_iff (by decide) (by decide)).2.mpr
  rintro bump - ⟨point, hpoint, -⟩
  cases hpoint

/-- Without seeds, the bump 255 is skipped by `find_program_address`, which returns 254, and is
accepted by `create_program_address`. -/
theorem findProgramAddress_nonCanonical :
  findProgramAddress twoEncodingsSys [] zeroKey = some (.ok (zeroKey, 254))
    ∧ createProgramAddress twoEncodingsSys ([] ++ [[255]]) zeroKey
        = .ok ⟨Vector.replicate 32 1⟩
    ∧ ¬ FindsGreatest twoEncodingsSys [] zeroKey
  := by
  have hfind : findProgramAddress twoEncodingsSys [] zeroKey = some (.ok (zeroKey, 254)) := by
    decide
  have hcreate : createProgramAddress twoEncodingsSys ([] ++ [[255]]) zeroKey
      = .ok ⟨Vector.replicate 32 1⟩ := by
    decide
  refine ⟨hfind, hcreate, ?_⟩
  rintro (⟨address, bump, hfind', ⟨-, hgreatest⟩, -⟩ | ⟨e, hfind', -⟩)
  · rw [hfind] at hfind'
    obtain ⟨-, rfl⟩ : zeroKey = address ∧ 254 = bump := by simpa using hfind'
    have hle : (255 : UInt8) ≤ 254 := hgreatest ⟨by decide, _, hcreate⟩
    exact absurd hle (by decide)
  · rw [hfind] at hfind'
    cases hfind'

end FdEd25519

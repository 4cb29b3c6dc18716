import FiredancerRs.Ed25519.Pubkey

/-!
# Program derived addresses

`Pubkey::find_program_address` and `Pubkey::create_program_address` of `fd_ed25519`. The
C functions they call are the fields of `Sys`: the hash is any function of the bytes
appended to the context, and the curve test is tied to the point decoder by
`Sys.pointIsOnCurve_eq_zero`.

`find_program_address` appends the bump to its context and checks the number of seeds
without it; `create_program_address` counts the bump among its seeds.
-/

namespace FdEd25519

/-- The functions of `fd_ed25519_sys` that derivation calls. -/
structure Sys where
  /-- `fd_ed25519_point_t` -/
  Point : Type
  /-- `fd_sha256_fini`, as a function of the appended bytes. -/
  sha256 : Bytes → Bytes32
  /-- `fd_ed25519_point_frombytes`, with `none` for a null result. -/
  pointFrombytes : Bytes32 → Option Point
  /-- `fd_ed25519_point_tobytes` -/
  pointTobytes : Point → Bytes32
  /-- `fd_ed25519_point_is_on_curve` -/
  pointIsOnCurve : Bytes32 → Int
  pointIsOnCurve_eq_zero (h : Bytes32) : pointIsOnCurve h = 0 ↔ pointFrombytes h = none

/-- `MAX_SEED_LEN` -/
def MAX_SEED_LEN : Nat := 32

/-- `MAX_SEEDS` -/
def MAX_SEEDS : Nat := 16

/-- `PDA_MARKER`, the bytes of `ProgramDerivedAddress`. -/
def PDA_MARKER : Bytes :=
  [0x50, 0x72, 0x6f, 0x67, 0x72, 0x61, 0x6d, 0x44, 0x65, 0x72, 0x69, 0x76, 0x65, 0x64,
   0x41, 0x64, 0x64, 0x72, 0x65, 0x73, 0x73]

/-- `fd_sha256_t`: the bytes appended since `fd_sha256_init`. -/
structure Sha256 where
  appended : Bytes
deriving DecidableEq, Repr

/-- `fd_sha256_init` -/
def Sha256.init : Sha256 := ⟨[]⟩

/-- `fd_sha256_append` -/
def Sha256.append (sha : Sha256) (data : Bytes) : Sha256 := ⟨sha.appended ++ data⟩

@[simp]
theorem Sha256.appended_init :
  Sha256.init.appended = []
  := rfl

@[simp]
theorem Sha256.appended_append (sha : Sha256) (data : Bytes) :
  (sha.append data).appended = sha.appended ++ data
  := rfl

/-- Appending seeds one after the other appends their concatenation. -/
theorem Sha256.foldl_append (sha : Sha256) (seeds : List Bytes) :
  seeds.foldl Sha256.append sha = ⟨sha.appended ++ seeds.flatten⟩
  := by
  induction seeds generalizing sha with
  | nil => simp
  | cons seed seeds ih => simp [ih, Sha256.append]

variable (sys : Sys)

/-- `fd_sha256_fini` -/
def Sha256.fini (sha : Sha256) : Bytes32 := sys.sha256 sha.appended

/-- `bytes_are_curve_point` -/
def bytesAreCurvePoint (bytes : Bytes32) : Bool :=
  match sys.pointFrombytes bytes with
  | none => false
  | some point => decide (sys.pointTobytes point = bytes)

/-- The checks on the seeds shared by the two functions: at most `MAX_SEEDS` seeds of
at most `MAX_SEED_LEN` bytes. -/
def checkSeeds (seeds : List Bytes) : Bool :=
  decide (seeds.length ≤ MAX_SEEDS) && seeds.all fun seed => decide (seed.length ≤ MAX_SEED_LEN)

/-- The loop of `find_program_address` with `iters` iterations left. The outer `none` is
the overflow panic of `bump -= 1`. -/
def findLoop (baseSha : Sha256) (programId : Pubkey) :
    Nat → UInt8 → Option (Except Ed25519Error (Pubkey × UInt8))
  | 0, _ => some (.error .derivationFailed)
  | iters + 1, bump =>
    let sha := baseSha.append [bump]
    let sha := sha.append programId.asBytes
    let sha := sha.append PDA_MARKER
    let hash := sha.fini sys
    if sys.pointIsOnCurve hash = 0 then
      some (.ok (⟨hash⟩, bump))
    else if bump = 0 then
      none
    else
      findLoop baseSha programId iters (bump - 1)

/-- `Pubkey::find_program_address` -/
def findProgramAddress (seeds : List Bytes) (programId : Pubkey) :
    Option (Except Ed25519Error (Pubkey × UInt8)) :=
  if checkSeeds seeds then
    findLoop sys (seeds.foldl Sha256.append Sha256.init) programId 255 255
  else
    some (.error .maxSeedLengthExceeded)

/-- `Pubkey::create_program_address` -/
def createProgramAddress (seeds : List Bytes) (programId : Pubkey) :
    Except Ed25519Error Pubkey :=
  if checkSeeds seeds then
    let sha := seeds.foldl Sha256.append Sha256.init
    let sha := sha.append programId.asBytes
    let sha := sha.append PDA_MARKER
    let hash := sha.fini sys
    if bytesAreCurvePoint sys hash then
      .error (.invalidInput "Provided seeds are invalid")
    else
      .ok ⟨hash⟩
  else
    .error .maxSeedLengthExceeded

/-! ### The address of a list of seeds -/

/-- The hash both functions take of the concatenated seeds. -/
def addressHash (seeds : List Bytes) (programId : Pubkey) : Bytes32 :=
  sys.sha256 (seeds.flatten ++ programId.asBytes ++ PDA_MARKER)

variable {sys}

theorem checkSeeds_iff {seeds : List Bytes} :
  checkSeeds seeds = true
    ↔ seeds.length ≤ MAX_SEEDS ∧ ∀ seed ∈ seeds, seed.length ≤ MAX_SEED_LEN
  := by
  simp [checkSeeds]

/-- A point the decoder rejects is not a curve point. -/
theorem bytesAreCurvePoint_of_frombytes_none {h : Bytes32} (hnone : sys.pointFrombytes h = none) :
  bytesAreCurvePoint sys h = false
  := by
  simp [bytesAreCurvePoint, hnone]

/-- What `create_program_address` returns, in terms of the hash of its seeds. -/
theorem createProgramAddress_eq (seeds : List Bytes) (programId : Pubkey) :
  createProgramAddress sys seeds programId
    = if checkSeeds seeds then
        if bytesAreCurvePoint sys (addressHash sys seeds programId) then
          .error (.invalidInput "Provided seeds are invalid")
        else .ok ⟨addressHash sys seeds programId⟩
      else .error .maxSeedLengthExceeded
  := by
  simp [createProgramAddress, addressHash, Sha256.foldl_append, Sha256.fini, Sha256.append]

/-- The address the loop returns is the hash of the seeds followed by the bump it returns,
and the decoder rejects it. -/
theorem findLoop_ok {seeds : List Bytes} {programId : Pubkey} :
  ∀ {iters : Nat} {bump : UInt8} {address : Pubkey} {found : UInt8},
    findLoop sys (seeds.foldl Sha256.append Sha256.init) programId iters bump
        = some (.ok (address, found)) →
      address = ⟨addressHash sys (seeds ++ [[found]]) programId⟩
        ∧ sys.pointFrombytes address.bytes = none
  | iters + 1, bump, address, found, h => by
      have hhash : ((((seeds.foldl Sha256.append Sha256.init).append [bump]).append
          programId.asBytes).append PDA_MARKER).fini sys
            = addressHash sys (seeds ++ [[bump]]) programId := by
        simp [Sha256.foldl_append, Sha256.fini, addressHash, Sha256.append]
      simp only [findLoop, hhash] at h
      split at h
      · next hzero =>
        obtain ⟨rfl, rfl⟩ : _ ∧ _ := by simpa using h
        use rfl
        apply (sys.pointIsOnCurve_eq_zero _).mp hzero
      · split at h
        · cases h
        · apply findLoop_ok h

/-- What a successful `find_program_address` says about its seeds and its result. -/
theorem findProgramAddress_ok {seeds : List Bytes} {programId address : Pubkey} {bump : UInt8}
    (h : findProgramAddress sys seeds programId = some (.ok (address, bump))) :
  checkSeeds seeds = true
    ∧ address = ⟨addressHash sys (seeds ++ [[bump]]) programId⟩
    ∧ sys.pointFrombytes address.bytes = none
  := by
  rw [findProgramAddress] at h
  split at h
  · next hcheck => exact ⟨hcheck, findLoop_ok h⟩
  · simp at h

/-- Appending a one-byte seed keeps the seeds admissible exactly when there is room for one
more seed. -/
theorem checkSeeds_append_bump {seeds : List Bytes} (h : checkSeeds seeds = true)
    (bump : UInt8) :
  checkSeeds (seeds ++ [[bump]]) = true ↔ seeds.length < MAX_SEEDS
  := by
  obtain ⟨-, hlen⟩ := checkSeeds_iff.mp h
  rw [checkSeeds_iff]
  constructor
  · rintro ⟨hcount, -⟩
    simpa [Nat.succ_le_iff] using hcount
  · intro hcount
    constructor
    · simpa [Nat.succ_le_iff] using hcount
    · intro seed hseed
      rcases List.mem_append.mp hseed with hmem | hmem
      · apply hlen seed hmem
      · simp only [List.mem_singleton] at hmem
        simp [hmem, MAX_SEED_LEN]

/-! ### Agreement of the two functions -/

/-- When `find_program_address` returns an address and a bump, `create_program_address` of the
seeds followed by the bump returns that address exactly when there are fewer than `MAX_SEEDS`
seeds. -/
theorem createProgramAddress_find_iff
    {seeds : List Bytes} {programId address : Pubkey} {bump : UInt8}
    (h : findProgramAddress sys seeds programId = some (.ok (address, bump))) :
  createProgramAddress sys (seeds ++ [[bump]]) programId = .ok address
    ↔ seeds.length < MAX_SEEDS
  := by
  obtain ⟨hcheck, haddress, hnone⟩ := findProgramAddress_ok h
  rw [← checkSeeds_append_bump hcheck bump, createProgramAddress_eq]
  rw [haddress] at hnone ⊢
  rw [bytesAreCurvePoint_of_frombytes_none hnone]
  split
  · next hroom => simp [hroom]
  · next hroom => simp [hroom]

/-- Functions for which every hash is zero and no hash decodes to a point. -/
def offCurveSys : Sys where
  Point := Unit
  sha256 _ := Vector.replicate 32 0
  pointFrombytes _ := none
  pointTobytes _ := Vector.replicate 32 0
  pointIsOnCurve _ := 0
  pointIsOnCurve_eq_zero _ := by simp

/-- The zero key. -/
def zeroKey : Pubkey := ⟨Vector.replicate 32 0⟩

/-- Two seeds leave room for the bump. -/
theorem createProgramAddress_find_two :
  createProgramAddress offCurveSys ([[1], [2, 3]] ++ [[255]]) zeroKey = .ok zeroKey
  := by
  have hfind : findProgramAddress offCurveSys [[1], [2, 3]] zeroKey = some (.ok (zeroKey, 255)) := by
    decide
  apply (createProgramAddress_find_iff hfind).mpr
  decide

/-- With sixteen empty seeds `find_program_address` returns an address and the bump 255, but
`create_program_address` rejects the seventeen seeds. -/
theorem createProgramAddress_find_sixteen :
  findProgramAddress offCurveSys (List.replicate 16 []) zeroKey = some (.ok (zeroKey, 255))
    ∧ createProgramAddress offCurveSys (List.replicate 16 [] ++ [[255]]) zeroKey
        = .error .maxSeedLengthExceeded
  := by
  constructor <;> decide

end FdEd25519

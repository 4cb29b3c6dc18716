import FiredancerRs.Lib.Ledger
import Mathlib.Logic.Function.Basic

/-!
# Shared clocks

`ClockShmem` and `ClockJoin` of `fd_clock`: how a clock is made in a segment of shared memory or in
memory of the caller, how an observer attaches to it, and what dropping a handle undoes. The names
of segments, the descriptors and the mappings are those of the operating system, and `fd_clock_new`
and `fd_clock_delete` decide which places hold a clock.
-/

namespace FdClock

/-- The errors of `ClockError` that handles report. -/
inductive ClockError where
  | invalidParams (msg : String)
  | initFailed
  | joinFailed
  | shmemOpen (errno : Int)
  | shmemTruncate (errno : Int)
  | shmemMmap (errno : Int)
deriving DecidableEq

/-- A descriptor, with the segment that it stands for. -/
structure Fd where
  num : Int
  segment : Nat
deriving DecidableEq

/-- Where a clock may lie: in memory of the caller, or in a segment. -/
inductive Place where
  | memory (addr : Nat)
  | segment (segment : Nat)
deriving DecidableEq

/-- A call that succeeds, of the operating system, the allocator or the library. -/
inductive Call where
  | shmOpen (fd : Fd)
  | close (fd : Fd)
  | shmUnlink (name : List UInt8)
  | mmap (addr len : Nat)
  | munmap (addr len : Nat)
  | clockNew (addr : Nat)
  | clockDelete (addr : Nat)
  | alloc (addr : Nat)
  | dealloc (addr : Nat)
  | clockJoin (lmem shclock : Nat)
  | clockLeave (lmem shclock : Nat)

/-- The segments that names are bound to, how many segments there have been, the segments that are
mapped at addresses, the places that hold a clock, and the calls so far. -/
structure System where
  names : List UInt8 → Option Nat
  made : Nat
  maps : Nat → Option Nat
  clocks : Place → Bool
  calls : List Call

/-- `ShmemBacking` -/
inductive ShmemBacking where
  | ownedPtr
  | borrowedPtr
  | ownedPosixShm (fd : Fd) (mapPtr mapLen : Nat) (name : List UInt8)
  | borrowedPosixShm (fd : Fd) (mapPtr mapLen : Nat)
deriving DecidableEq

/-- `ClockShmem`, with the place that its pointer leads to. -/
structure ClockShmem where
  shclock : Nat
  backing : ShmemBacking
  place : Place
deriving DecidableEq

/-- `ClockJoin`, with the address of the clock that the local memory refers to. -/
structure ClockJoin where
  lmem : Nat
  shclock : Nat
deriving DecidableEq

/-- `fd_clock_new` at a place. -/
def System.clockNew (s : System) (place : Place) (addr : Nat) : System :=
  { s with
    clocks := Function.update s.clocks place true
    calls := s.calls ++ [.clockNew addr] }

/-- `fd_clock_delete` at a place. -/
def System.clockDelete (s : System) (place : Place) (addr : Nat) : System :=
  { s with
    clocks := Function.update s.clocks place false
    calls := s.calls ++ [.clockDelete addr] }

/-- `shm_unlink` -/
def System.shmUnlink (s : System) (name : List UInt8) : System :=
  { s with
    names := Function.update s.names name none
    calls := s.calls ++ [.shmUnlink name] }

/-- Calls that change nothing but what is held. -/
def System.log (s : System) (calls : List Call) : System := { s with calls := s.calls ++ calls }

/-- `mmap` of a segment at an address. -/
def System.mmap (s : System) (addr len segment : Nat) : System :=
  { s with
    maps := Function.update s.maps addr (some segment)
    calls := s.calls ++ [.mmap addr len] }

/-- `munmap` -/
def System.munmap (s : System) (addr len : Nat) : System :=
  { s with
    maps := Function.update s.maps addr none
    calls := s.calls ++ [.munmap addr len] }

/-- Where a pointer leads: to the segment that is mapped there, or to memory of the caller. -/
def System.placeAt (s : System) (addr : Nat) : Place :=
  match s.maps addr with
  | some segment => .segment segment
  | none => .memory addr

/-- `ENOENT` -/
def enoent : Int := 2

/-- `shm_open`, with `O_CREAT` or without it. -/
def System.shmOpen (s : System) (name : List UInt8) (create : Bool) (answer : Except Int Int) :
    Except Int Fd × System :=
  match answer with
  | .error errno => (.error errno, s)
  | .ok num =>
    match s.names name with
    | some segment =>
      let fd : Fd := { num := num, segment := segment }
      (.ok fd, s.log [.shmOpen fd])
    | none =>
      if create then
        let fd : Fd := { num := num, segment := s.made }
        let names := Function.update s.names name (some s.made)
        (.ok fd, { s with names := names, made := s.made + 1 }.log [.shmOpen fd])
      else
        (.error enoent, s)

/-- What the operating system answers: to `shm_open` a descriptor or an error, to `ftruncate` an
error if there is one, and to `mmap` an address or an error. -/
structure MapAnswers where
  shmOpen : Except Int Int
  ftruncate : Option Int
  mmap : Except Int Nat

/-- `validate_shm_name` -/
def validateShmName (name : List UInt8) : Except ClockError (List UInt8) :=
  if name.isEmpty || 255 ≤ name.length then
    .error (.invalidParams "shm name too long or empty")
  else
    .ok (name ++ List.replicate (256 - name.length) 0)

/-- The text that a buffer is read as, up to the first zero. -/
def cString (buf : List UInt8) : List UInt8 := buf.takeWhile (· ≠ 0)

/-- `posix_shm_mmap` -/
def posixShmMmap (name : List UInt8) (create : Bool) (len : Nat) (a : MapAnswers) (s : System) :
    Except ClockError (Fd × Nat) × System :=
  match s.shmOpen name create a.shmOpen with
  | (.error errno, s) => (.error (.shmemOpen errno), s)
  | (.ok fd, s) =>
    match if create then a.ftruncate else none with
    | some errno => (.error (.shmemTruncate errno), s.log [.close fd])
    | none =>
      match a.mmap with
      | .error errno => (.error (.shmemMmap errno), s.log [.close fd])
      | .ok mapPtr => (.ok (fd, mapPtr), s.mmap mapPtr len fd.segment)

namespace ClockShmem

variable (footprint : Nat)

/-- `ClockShmem::init`. The library accepts the configuration or not, and refuses a null pointer. -/
def init (name : List UInt8) (a : MapAnswers) (accepted : Bool) (s : System) :
    Except ClockError ClockShmem × System :=
  match validateShmName name with
  | .error e => (.error e, s)
  | .ok nameBuf =>
    match posixShmMmap (cString nameBuf) true footprint a s with
    | (.error e, s) => (.error e, s)
    | (.ok (fd, mapPtr), s) =>
      if accepted && mapPtr != 0 then
        let backing := ShmemBacking.ownedPosixShm fd mapPtr footprint nameBuf
        let place := Place.segment fd.segment
        (.ok { shclock := mapPtr, backing := backing, place := place }, s.clockNew place mapPtr)
      else
        (.error .initFailed,
          ((s.munmap mapPtr footprint).log [.close fd]).shmUnlink (cString nameBuf))

/-- `ClockShmem::open` -/
def openShm (name : List UInt8) (a : MapAnswers) (s : System) :
    Except ClockError ClockShmem × System :=
  match validateShmName name with
  | .error e => (.error e, s)
  | .ok nameBuf =>
    match posixShmMmap (cString nameBuf) false footprint a s with
    | (.error e, s) => (.error e, s)
    | (.ok (fd, mapPtr), s) =>
      if mapPtr = 0 then
        (.error .initFailed, (s.munmap mapPtr footprint).log [.close fd])
      else
        let backing := ShmemBacking.borrowedPosixShm fd mapPtr footprint
        (.ok { shclock := mapPtr, backing := backing, place := .segment fd.segment }, s)

/-- `ClockShmem::init_from_ptr` -/
def initFromPtr (shmem : Nat) (accepted : Bool) (s : System) :
    Except ClockError ClockShmem × System :=
  if accepted && shmem != 0 then
    let place := s.placeAt shmem
    (.ok { shclock := shmem, backing := .ownedPtr, place := place }, s.clockNew place shmem)
  else
    (.error .initFailed, s)

/-- `ClockShmem::from_ptr` -/
def fromPtr (shclock : Nat) (s : System) : Except ClockError ClockShmem :=
  if shclock = 0 then
    .error (.invalidParams "null pointer")
  else
    .ok { shclock := shclock, backing := .borrowedPtr, place := s.placeAt shclock }

/-- `ClockShmem::drop` -/
def drop (h : ClockShmem) (s : System) : System :=
  match h.backing with
  | .ownedPtr => s.clockDelete h.place h.shclock
  | .borrowedPtr => s
  | .ownedPosixShm fd mapPtr mapLen name =>
    (((s.clockDelete h.place h.shclock).munmap mapPtr mapLen).log [.close fd]).shmUnlink
      (cString name)
  | .borrowedPosixShm fd mapPtr mapLen => (s.munmap mapPtr mapLen).log [.close fd]

/-- `ClockShmem::join` and `ClockJoin::new`. The allocator gives memory or not, and the library
joins a clock when there is one and it accepts the clock function. -/
def join (h : ClockShmem) (alloc : Option Nat) (accepted : Bool) (s : System) :
    Except ClockError ClockJoin × System :=
  match alloc with
  | none => (.error .joinFailed, s)
  | some lmem =>
    if accepted && s.clocks h.place then
      (.ok { lmem := lmem, shclock := h.shclock }, s.log [.alloc lmem, .clockJoin lmem h.shclock])
    else
      (.error .joinFailed, s.log [.alloc lmem, .dealloc lmem])

end ClockShmem

/-- `ClockJoin::drop` -/
def ClockJoin.drop (join : ClockJoin) (s : System) : System :=
  s.log [.clockLeave join.lmem join.shclock, .dealloc join.lmem]

/-! ### What the constructors do -/

variable {s s' : System} {name buf : List UInt8} {a : MapAnswers} {fd : Fd} {footprint : Nat}

/-- The zeros after a name do not belong to it. -/
theorem cString_validateShmName (h : validateShmName name = .ok buf) :
  cString buf = cString name
  := by
  rw [validateShmName] at h
  split at h
  · cases h
  · obtain rfl := Except.ok.inj h
    rw [cString, cString, List.takeWhile_append]
    split
    · next hlen =>
      have hzeros : (List.replicate (256 - name.length) (0 : UInt8)).takeWhile (· ≠ 0) = [] := by
        simp
      rw [hzeros, List.append_nil]
      apply ((List.takeWhile_prefix _).eq_of_length hlen).symm
    · rfl

/-- A name was bound to the segment of the descriptor, or the segment is new and now bound to it. -/
inductive Opened (s : System) (name : List UInt8) (create : Bool) (fd : Fd) : System → Prop where
  | bound (h : s.names name = some fd.segment) : Opened s name create fd (s.log [.shmOpen fd])
  | new (h : s.names name = none) (hcreate : create = true) (hfd : fd.segment = s.made) :
      Opened s name create fd
        ({ s with names := Function.update s.names name (some fd.segment), made := s.made + 1 }.log
          [.shmOpen fd])

/-- The error leaves a segment behind. -/
def ClockError.leaves : ClockError → Bool
  | .shmemTruncate _ | .shmemMmap _ => true
  | _ => false

/-- The ways in which `posix_shm_mmap` ends. -/
inductive MapEnd (s : System) (name : List UInt8) (create : Bool) (len : Nat) :
    Except ClockError (Fd × Nat) × System → Prop where
  | unopened (errno : Int) : MapEnd s name create len (.error (.shmemOpen errno), s)
  | unmapped {fd : Fd} {s' : System} (h : Opened s name create fd s') (e : ClockError)
      (he : e.leaves = true) : MapEnd s name create len (.error e, s'.log [.close fd])
  | mapped {fd : Fd} {s' : System} (h : Opened s name create fd s') (mapPtr : Nat) :
      MapEnd s name create len (.ok (fd, mapPtr), s'.mmap mapPtr len fd.segment)

theorem shmOpen_cases (s : System) (name : List UInt8) (create : Bool) (answer : Except Int Int) :
  (∃ errno, s.shmOpen name create answer = (.error errno, s))
    ∨ ∃ fd s', s.shmOpen name create answer = (.ok fd, s') ∧ Opened s name create fd s'
  := by
  cases answer with
  | error errno => exact .inl ⟨errno, rfl⟩
  | ok num =>
    rw [System.shmOpen]
    cases hname : s.names name with
    | some segment =>
      right
      exact ⟨_, _, rfl, .bound hname⟩
    | none =>
      cases create with
      | false => exact .inl ⟨enoent, rfl⟩
      | true =>
        right
        exact ⟨⟨num, s.made⟩, _, rfl, .new hname rfl rfl⟩

/-- `posix_shm_mmap` ends in one of its ways. -/
theorem posixShmMmap_end (s : System) (name : List UInt8) (create : Bool) (len : Nat)
    (a : MapAnswers) :
  MapEnd s name create len (posixShmMmap name create len a s)
  := by
  rw [posixShmMmap]
  rcases shmOpen_cases s name create a.shmOpen with ⟨errno, hopen⟩ | ⟨fd, s', hopen, h⟩
  · rw [hopen]
    apply MapEnd.unopened
  · rw [hopen]
    simp only
    split
    · apply MapEnd.unmapped h _ rfl
    · split
      · apply MapEnd.unmapped h _ rfl
      · apply MapEnd.mapped h

/-- The ways in which `ClockShmem::init` ends. -/
inductive InitEnd (footprint : Nat) (name : List UInt8) (s : System) :
    Except ClockError ClockShmem × System → Prop where
  | unopened (e : ClockError) (he : e.leaves = false) : InitEnd footprint name s (.error e, s)
  | unmapped {fd : Fd} {s' : System} (h : Opened s (cString name) true fd s') (e : ClockError)
      (he : e.leaves = true) : InitEnd footprint name s (.error e, s'.log [.close fd])
  | refused {fd : Fd} {s' : System} (h : Opened s (cString name) true fd s') (mapPtr : Nat) :
      InitEnd footprint name s (.error .initFailed,
        (((s'.mmap mapPtr footprint fd.segment).munmap mapPtr footprint).log [.close fd]).shmUnlink
          (cString name))
  | made {fd : Fd} {s' : System} (h : Opened s (cString name) true fd s') (mapPtr : Nat)
      {buf : List UInt8} (hbuf : cString buf = cString name) : InitEnd footprint name s
        (.ok ⟨mapPtr, .ownedPosixShm fd mapPtr footprint buf, .segment fd.segment⟩,
          (s'.mmap mapPtr footprint fd.segment).clockNew (.segment fd.segment) mapPtr)

/-- `ClockShmem::init` ends in one of its ways. -/
theorem init_end (footprint : Nat) (name : List UInt8) (a : MapAnswers) (accepted : Bool)
    (s : System) :
  InitEnd footprint name s (ClockShmem.init footprint name a accepted s)
  := by
  rw [ClockShmem.init]
  cases hname : validateShmName name with
  | error e =>
    have he : e.leaves = false := by
      rw [validateShmName] at hname
      split at hname
      · obtain rfl := Except.error.inj hname
        rfl
      · cases hname
    apply InitEnd.unopened e he
  | ok buf =>
    have hbuf := cString_validateShmName hname
    simp only
    rw [hbuf]
    have hend := posixShmMmap_end s (cString name) true footprint a
    generalize posixShmMmap (cString name) true footprint a s = mapped at hend ⊢
    cases hend with
    | unopened errno => apply InitEnd.unopened _ rfl
    | unmapped h e he => apply InitEnd.unmapped h e he
    | mapped h mapPtr =>
      simp only
      split
      · apply InitEnd.made h mapPtr hbuf
      · apply InitEnd.refused h

/-- The ways in which `ClockShmem::open` ends. -/
inductive OpenEnd (footprint : Nat) (name : List UInt8) (s : System) :
    Except ClockError ClockShmem × System → Prop where
  | unopened (e : ClockError) : OpenEnd footprint name s (.error e, s)
  | unmapped (fd : Fd) (e : ClockError) :
      OpenEnd footprint name s (.error e, s.log [.shmOpen fd, .close fd])
  | null (fd : Fd) (h : s.names (cString name) = some fd.segment) (mapPtr : Nat) :
      OpenEnd footprint name s (.error .initFailed,
        (((s.log [.shmOpen fd]).mmap mapPtr footprint fd.segment).munmap mapPtr footprint).log
          [.close fd])
  | attached (fd : Fd) (h : s.names (cString name) = some fd.segment) (mapPtr : Nat) :
      OpenEnd footprint name s
        (.ok ⟨mapPtr, .borrowedPosixShm fd mapPtr footprint, .segment fd.segment⟩,
          (s.log [.shmOpen fd]).mmap mapPtr footprint fd.segment)

@[simp]
theorem System.log_log (calls calls' : List Call) :
  (s.log calls).log calls' = s.log (calls ++ calls')
  := by simp [System.log]

/-- `ClockShmem::open` ends in one of its ways. -/
theorem openShm_end (footprint : Nat) (name : List UInt8) (a : MapAnswers) (s : System) :
  OpenEnd footprint name s (ClockShmem.openShm footprint name a s)
  := by
  rw [ClockShmem.openShm]
  cases hname : validateShmName name with
  | error e => apply OpenEnd.unopened
  | ok buf =>
    simp only
    rw [cString_validateShmName hname]
    have hend := posixShmMmap_end s (cString name) false footprint a
    generalize posixShmMmap (cString name) false footprint a s = mapped at hend ⊢
    cases hend with
    | unopened errno => apply OpenEnd.unopened
    | unmapped h e he =>
      cases h with
      | bound h =>
        rw [System.log_log]
        apply OpenEnd.unmapped
      | new h hcreate hfd => cases hcreate
    | mapped h mapPtr =>
      cases h with
      | bound h =>
        simp only
        split
        · apply OpenEnd.null _ h
        · apply OpenEnd.attached _ h
      | new h hcreate hfd => cases hcreate

end FdClock

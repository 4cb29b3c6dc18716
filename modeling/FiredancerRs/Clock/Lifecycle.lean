import FiredancerRs.Clock.Shmem
import FiredancerRs.Lib.Runs
import Mathlib.Data.List.Perm.Basic
import Mathlib.Data.Multiset.Basic

/-!
# The life of shared clocks

Runs of the calls on any number of handles. Whatever the operating system and the library answer,
each descriptor, mapping, local memory and join that a run has acquired and not released belongs to
one of the handles and joins that are left, nothing of them is released twice, and a join is left
only as long as the handle it was made from (`World.run_settled`). Clocks are not accounted for:
two owners of one name share a segment, and both delete what is there. Where no owner takes a name
or a place that a living owner has (`World.Careful`), each owner has a clock of its own under its
name, and an observer finds it there (`World.run_sound`).
-/

namespace FdClock

open Ledger

/-- What a handle or a join holds. -/
inductive Resource where
  | fd (fd : Fd)
  | map (addr len : Nat)
  | lmem (addr : Nat)
  | join (lmem shclock : Nat)
deriving DecidableEq

/-- What a call acquires or releases. Clocks are made and deleted in memory that is held already. -/
def Call.entry : Call → Option (Entry Resource)
  | .shmOpen fd => some (.acquire (.fd fd))
  | .close fd => some (.release (.fd fd))
  | .shmUnlink _ | .clockNew _ | .clockDelete _ => none
  | .mmap addr len => some (.acquire (.map addr len))
  | .munmap addr len => some (.release (.map addr len))
  | .alloc addr => some (.acquire (.lmem addr))
  | .dealloc addr => some (.release (.lmem addr))
  | .clockJoin lmem shclock => some (.acquire (.join lmem shclock))
  | .clockLeave lmem shclock => some (.release (.join lmem shclock))

/-- The entries of some calls. -/
def ledger (calls : List Call) : List (Entry Resource) := calls.filterMap Call.entry

namespace ClockShmem

/-- What a handle holds, in the order in which it is released. -/
def held (h : ClockShmem) : List Resource :=
  match h.backing with
  | .ownedPtr | .borrowedPtr => []
  | .ownedPosixShm fd mapPtr mapLen _ | .borrowedPosixShm fd mapPtr mapLen =>
    [.map mapPtr mapLen, .fd fd]

/-- The place of the clock that an owner has made. -/
def ownedPlace (h : ClockShmem) : Option Place :=
  match h.backing with
  | .ownedPtr | .ownedPosixShm .. => some h.place
  | .borrowedPtr | .borrowedPosixShm .. => none

/-- The name of the segment that an owner has made its clock in. -/
def ownedName (h : ClockShmem) : Option (List UInt8) :=
  match h.backing with
  | .ownedPosixShm _ _ _ name => some (cString name)
  | _ => none

end ClockShmem

/-- What a join holds, in the order in which it is released. -/
def ClockJoin.held (join : ClockJoin) : List Resource :=
  [.join join.lmem join.shclock, .lmem join.lmem]

/-- The handles that are left, each with its number, the joins that are left, each with the number
of its handle, and the names that `init` has left bound without an owner. -/
structure World where
  system : System
  handles : List (Nat × ClockShmem)
  joins : List (Nat × ClockJoin)
  nextId : Nat
  left : List (List UInt8)

/-- A call. The arguments `i` and `j` say which handle or join is meant. -/
inductive Op where
  | init (name : List UInt8) (a : MapAnswers) (accepted : Bool)
  | openShm (name : List UInt8) (a : MapAnswers)
  | initFromPtr (shmem : Nat) (accepted : Bool)
  | fromPtr (shclock : Nat)
  | join (i : Nat) (alloc : Option Nat) (accepted : Bool)
  | leave (j : Nat)
  | drop (i : Nat)

/-- The name that a failed `init` leaves bound. -/
def leftBy (name : List UInt8) (r : Except ClockError ClockShmem) : List (List UInt8) :=
  match r with
  | .error e => if e.leaves then [cString name] else []
  | .ok _ => []

namespace World

variable (footprint : Nat) (w : World)

/-- No name is bound, and there are no handles. -/
def start : World where
  system := {
    names := fun _ => none
    made := 0
    maps := fun _ => none
    clocks := fun _ => false
    calls := [] }
  handles := []
  joins := []
  nextId := 0
  left := []

/-- Hold a new handle, if there is one. -/
def hold (r : Except ClockError ClockShmem × System) : World :=
  match r with
  | (.ok h, s) =>
    { w with system := s, handles := (w.nextId, h) :: w.handles, nextId := w.nextId + 1 }
  | (.error _, s) => { w with system := s }

/-- The effect of a call. A call on a handle or a join that there is not has none, and a handle that
is borrowed by a join is not dropped. -/
def step : Op → World
  | .init name a accepted =>
    let r := ClockShmem.init footprint name a accepted w.system
    { w.hold r with left := leftBy name r.1 ++ w.left }
  | .openShm name a => w.hold (ClockShmem.openShm footprint name a w.system)
  | .initFromPtr shmem accepted => w.hold (ClockShmem.initFromPtr shmem accepted w.system)
  | .fromPtr shclock => w.hold (ClockShmem.fromPtr shclock w.system, w.system)
  | .join i alloc accepted =>
    match w.handles[i]? with
    | none => w
    | some (id, h) =>
      match h.join alloc accepted w.system with
      | (.ok join, s) => { w with system := s, joins := (id, join) :: w.joins }
      | (.error _, s) => { w with system := s }
  | .leave j =>
    match w.joins[j]? with
    | none => w
    | some (_, join) => { w with system := join.drop w.system, joins := w.joins.eraseIdx j }
  | .drop i =>
    match w.handles[i]? with
    | none => w
    | some (id, h) =>
      if w.joins.any (·.1 == id) then
        w
      else
        { w with system := h.drop w.system, handles := w.handles.eraseIdx i }

/-- The effect of a run of calls. -/
abbrev run : List Op → World → World := Runs.run (step footprint)

/-- Every call of a run meets a condition in the state in which it is made. -/
abbrev Along : (World → Op → Prop) → List Op → World → Prop := Runs.Along (step footprint)

/-! ### What is held -/

/-- What the handles and the joins hold. -/
def held : Multiset Resource :=
  (w.joins.flatMap (·.2.held) : Multiset Resource) + (w.handles.flatMap (·.2.held) : List Resource)

/-- What was acquired and not released is held, and each join has its handle, which holds the
memory that the join refers to if it has mapped it. -/
structure Settled : Prop where
  ledger : settle 0 (ledger w.system.calls) = some w.held
  borrowed : ∀ id join, (id, join) ∈ w.joins → ∃ h, (id, h) ∈ w.handles ∧ h.shclock = join.shclock

end World

/-- What a result holds. -/
def heldBy (r : Except ClockError ClockShmem) : List Resource :=
  match r with
  | .ok h => h.held
  | .error _ => []

/-- What a result of `join` holds. -/
def joinHeldBy (r : Except ClockError ClockJoin) : List Resource :=
  match r with
  | .ok join => join.held
  | .error _ => []

/-- The calls since then have acquired what the result holds, and nothing that they have not
released. -/
def Acquires (s s' : System) (l : List Resource) : Prop :=
  ∃ calls, s'.calls = s.calls ++ calls
    ∧ ∀ held, settle held (ledger calls) = some (held + (l : Multiset Resource))

variable {s s' : System} {name : List UInt8} {create : Bool} {fd : Fd} {footprint : Nat}

theorem Opened.calls (h : Opened s name create fd s') :
  s'.calls = s.calls ++ [.shmOpen fd]
  := by cases h <;> rfl

theorem Acquires.nil :
  Acquires s s []
  := by
  use [], (List.append_nil _).symm
  intro held
  exact congrArg some (Multiset.add_zero held).symm

theorem add_singleton {held : Multiset Resource} {a : Resource} :
  held + {a} = a ::ₘ held
  := by rw [Multiset.add_comm, Multiset.singleton_add]

theorem init_acquires (name : List UInt8) (a : MapAnswers) (accepted : Bool) :
  let r := ClockShmem.init footprint name a accepted s
  Acquires s r.2 (heldBy r.1)
  := by
  have hend := init_end footprint name a accepted s
  generalize ClockShmem.init footprint name a accepted s = r at hend
  cases hend with
  | unopened e he => exact Acquires.nil
  | @unmapped fd s' h e he =>
    use [.shmOpen fd, .close fd]
    constructor
    · simp [System.log, h.calls]
    · intro held
      simp [ledger, Call.entry, heldBy]
  | @refused fd s' h mapPtr =>
    use [.shmOpen fd, .mmap mapPtr footprint, .munmap mapPtr footprint, .close fd,
      .shmUnlink (cString name)]
    constructor
    · simp [System.log, System.mmap, System.munmap, System.shmUnlink, h.calls]
    · intro held
      simp [ledger, List.filterMap_cons, Call.entry, heldBy]
  | @made fd s' h mapPtr buf hbuf =>
    use [.shmOpen fd, .mmap mapPtr footprint, .clockNew mapPtr]
    constructor
    · simp [System.mmap, System.clockNew, h.calls]
    · intro held
      simp [ledger, List.filterMap_cons, Call.entry, heldBy, ClockShmem.held, ← Multiset.cons_coe,
        Multiset.add_cons, add_singleton]

theorem openShm_acquires (name : List UInt8) (a : MapAnswers) :
  let r := ClockShmem.openShm footprint name a s
  Acquires s r.2 (heldBy r.1)
  := by
  have hend := openShm_end footprint name a s
  generalize ClockShmem.openShm footprint name a s = r at hend
  cases hend with
  | unopened e => exact Acquires.nil
  | unmapped fd e =>
    use [.shmOpen fd, .close fd], rfl
    intro held
    simp [ledger, Call.entry, heldBy]
  | null fd h mapPtr =>
    use [.shmOpen fd, .mmap mapPtr footprint, .munmap mapPtr footprint, .close fd]
    constructor
    · simp [System.log, System.mmap, System.munmap]
    · intro held
      simp [ledger, Call.entry, heldBy]
  | attached fd h mapPtr =>
    use [.shmOpen fd, .mmap mapPtr footprint], by simp [System.log, System.mmap]
    intro held
    simp [ledger, Call.entry, heldBy, ClockShmem.held, ← Multiset.cons_coe, Multiset.add_cons,
      add_singleton]

theorem initFromPtr_acquires (shmem : Nat) (accepted : Bool) :
  let r := ClockShmem.initFromPtr shmem accepted s
  Acquires s r.2 (heldBy r.1)
  := by
  rw [ClockShmem.initFromPtr]
  split
  · use [.clockNew shmem], rfl
    intro held
    simp [ledger, List.filterMap_cons, Call.entry, heldBy, ClockShmem.held]
  · exact Acquires.nil

theorem fromPtr_acquires (shclock : Nat) :
  Acquires s s (heldBy (ClockShmem.fromPtr shclock s))
  := by
  rw [ClockShmem.fromPtr]
  split <;> exact Acquires.nil

theorem join_acquires (h : ClockShmem) (alloc : Option Nat) (accepted : Bool) :
  let r := h.join alloc accepted s
  Acquires s r.2 (joinHeldBy r.1)
  := by
  cases alloc with
  | none => exact Acquires.nil
  | some lmem =>
    simp only [ClockShmem.join]
    split
    · use [.alloc lmem, .clockJoin lmem h.shclock], rfl
      intro held
      simp [ledger, Call.entry, joinHeldBy, ClockJoin.held, ← Multiset.cons_coe, Multiset.add_cons,
        add_singleton]
    · use [.alloc lmem, .dealloc lmem], rfl
      intro held
      simp [ledger, Call.entry, joinHeldBy]

/-- A join refers to the clock of its handle. -/
theorem join_shclock {h : ClockShmem} {alloc : Option Nat} {accepted : Bool} {join : ClockJoin}
    (hjoin : (h.join alloc accepted s).1 = .ok join) :
  h.shclock = join.shclock
  := by
  cases alloc with
  | none => cases hjoin
  | some lmem =>
    simp only [ClockShmem.join] at hjoin
    split at hjoin
    · obtain rfl := Except.ok.inj hjoin
      rfl
    · cases hjoin

/-- Dropping a handle releases what it holds, in order. -/
theorem drop_releases (h : ClockShmem) :
  ∃ calls, (h.drop s).calls = s.calls ++ calls ∧ ledger calls = h.held.map .release
  := by
  obtain ⟨shclock, backing, place⟩ := h
  cases backing with
  | ownedPtr => exact ⟨[.clockDelete shclock], rfl, rfl⟩
  | borrowedPtr => exact ⟨[], (List.append_nil _).symm, rfl⟩
  | ownedPosixShm fd mapPtr mapLen name =>
    use [.clockDelete shclock, .munmap mapPtr mapLen, .close fd, .shmUnlink (cString name)]
    constructor
    · simp [ClockShmem.drop, System.clockDelete, System.munmap, System.log, System.shmUnlink]
    · rfl
  | borrowedPosixShm fd mapPtr mapLen =>
    use [.munmap mapPtr mapLen, .close fd]
    constructor
    · simp [ClockShmem.drop, System.munmap, System.log]
    · rfl

namespace World

variable {w : World} {calls : List Call}

/-- One of the pairs is taken out. -/
theorem flatMap_eraseIdx {α : Type} {l : List (Nat × α)} {i id : Nat} {a : α}
    (f : α → List Resource) (hi : l[i]? = some (id, a)) :
  (l.flatMap (f ·.2) : Multiset Resource)
    = ((l.eraseIdx i).flatMap (f ·.2) : List Resource) + (f a : Multiset Resource)
  := by
  obtain ⟨hlt, hget⟩ := List.getElem?_eq_some_iff.mp hi
  have hperm := (List.getElem_cons_eraseIdx_perm hlt).flatMap_right (f ·.2)
  rw [hget] at hperm
  rw [← Multiset.coe_eq_coe.mpr hperm, List.flatMap_cons, ← Multiset.coe_add,
    Multiset.add_comm]

theorem Settled.acquire (h : w.Settled) {l : List Resource} (hs : Acquires w.system s l) :
  settle 0 (FdClock.ledger s.calls) = some (w.held + (l : Multiset Resource))
  := by
  obtain ⟨calls, hcalls, hsettle⟩ := hs
  have hledger := h.ledger
  rw [FdClock.ledger] at hledger
  rw [hcalls, FdClock.ledger, List.filterMap_append, settle_append, hledger]
  apply hsettle

theorem Settled.release (h : w.Settled) {rest : Multiset Resource} {l : List Resource}
    (hheld : w.held = rest + (l : Multiset Resource)) (hcalls : s.calls = w.system.calls ++ calls)
    (hledger : FdClock.ledger calls = l.map .release) :
  settle 0 (FdClock.ledger s.calls) = some rest
  := by
  have hbefore := h.ledger
  rw [FdClock.ledger] at hbefore hledger
  rw [hcalls, FdClock.ledger, List.filterMap_append, settle_append, hbefore, hheld, hledger]
  apply settle_releases

/-- A constructor. -/
theorem Settled.hold (h : w.Settled) {r : Except ClockError ClockShmem × System}
    (hr : Acquires w.system r.2 (heldBy r.1)) :
  (w.hold r).Settled
  := by
  have hledger := h.acquire hr
  obtain ⟨result, s⟩ := r
  cases result with
  | error e =>
    constructor
    case ledger => exact hledger.trans (congrArg some (Multiset.add_zero _))
    case borrowed => exact h.borrowed
  | ok handle =>
    constructor
    case ledger =>
      rw [World.hold]
      refine hledger.trans (congrArg some ?_)
      rw [held, held, List.flatMap_cons, ← Multiset.coe_add, heldBy,
        Multiset.add_comm (handle.held : Multiset Resource), Multiset.add_assoc]
    case borrowed =>
      intro id join hjoin
      obtain ⟨handle, hmem, hclock⟩ := h.borrowed id join hjoin
      exact ⟨handle, List.mem_cons_of_mem _ hmem, hclock⟩

theorem Settled.join (h : w.Settled) (i : Nat) (alloc : Option Nat) (accepted : Bool) :
  (w.step footprint (.join i alloc accepted)).Settled
  := by
  rw [step]
  cases hi : w.handles[i]? with
  | none => exact h
  | some pair =>
    obtain ⟨id, handle⟩ := pair
    have hledger := h.acquire (join_acquires (s := w.system) handle alloc accepted)
    have hclock := @join_shclock w.system handle alloc accepted
    simp only
    generalize handle.join alloc accepted w.system = r at hledger hclock ⊢
    obtain ⟨result, s⟩ := r
    cases result with
    | error e =>
      constructor
      case ledger => exact hledger.trans (congrArg some (Multiset.add_zero _))
      case borrowed => exact h.borrowed
    | ok join =>
      constructor
      case ledger =>
        refine hledger.trans (congrArg some ?_)
        rw [held, held, List.flatMap_cons, ← Multiset.coe_add, joinHeldBy,
          Multiset.add_comm (join.held : Multiset Resource), Multiset.add_assoc,
          Multiset.add_assoc, Multiset.add_comm (join.held : Multiset Resource)]
      case borrowed =>
        intro id' join' hjoin
        rcases List.mem_cons.mp hjoin with hnew | hold
        · obtain ⟨rfl, rfl⟩ := Prod.mk.inj hnew
          exact ⟨handle, List.mem_of_getElem? hi, hclock rfl⟩
        · apply h.borrowed id' join' hold

theorem Settled.leave (h : w.Settled) (j : Nat) :
  (w.step footprint (.leave j)).Settled
  := by
  rw [step]
  cases hj : w.joins[j]? with
  | none => exact h
  | some pair =>
    obtain ⟨id, join⟩ := pair
    constructor
    case ledger =>
      have hcalls : ((w.step footprint (.leave j)).system).calls = w.system.calls
          ++ [.clockLeave join.lmem join.shclock, .dealloc join.lmem] := by
        rw [step, hj]
        rfl
      rw [step, hj] at hcalls
      apply h.release (l := join.held) _ hcalls rfl
      rw [held, flatMap_eraseIdx ClockJoin.held hj, held, Multiset.add_assoc,
        Multiset.add_comm (join.held : Multiset Resource), ← Multiset.add_assoc]
    case borrowed =>
      intro id join hjoin
      apply h.borrowed id join (List.mem_of_mem_eraseIdx hjoin)

theorem Settled.drop (h : w.Settled) (i : Nat) :
  (w.step footprint (.drop i)).Settled
  := by
  rw [step]
  cases hi : w.handles[i]? with
  | none => exact h
  | some pair =>
    obtain ⟨id, handle⟩ := pair
    simp only
    split
    case isTrue => exact h
    case isFalse hborrowed =>
      constructor
      case ledger =>
        obtain ⟨calls, hcalls, hledger⟩ := drop_releases (s := w.system) handle
        apply h.release _ hcalls hledger
        rw [held, flatMap_eraseIdx ClockShmem.held hi, held, Multiset.add_assoc]
      case borrowed =>
        intro id' join hjoin
        obtain ⟨handle', hmem, hclock⟩ := h.borrowed id' join hjoin
        obtain ⟨hlt, hget⟩ := List.getElem?_eq_some_iff.mp hi
        have hperm := List.getElem_cons_eraseIdx_perm hlt
        use handle'
        constructor
        · rcases List.mem_cons.mp (hperm.mem_iff.mpr hmem) with hsame | hrest
          · rw [hget] at hsame
            obtain rfl := (Prod.mk.inj hsame).1
            exfalso
            apply hborrowed
            apply List.any_eq_true.mpr ⟨(id', join), hjoin, beq_self_eq_true id'⟩
          · exact hrest
        · exact hclock

theorem Settled.step (h : w.Settled) (op : Op) :
  (w.step footprint op).Settled
  := by
  cases op with
  | init name a accepted =>
    have hhold := h.hold (@init_acquires _ footprint name a accepted)
    exact { ledger := hhold.ledger, borrowed := hhold.borrowed }
  | openShm name a => exact h.hold (openShm_acquires name a)
  | initFromPtr shmem accepted => exact h.hold (initFromPtr_acquires shmem accepted)
  | fromPtr shclock => exact h.hold (fromPtr_acquires shclock)
  | join i alloc accepted => exact h.join i alloc accepted
  | leave j => exact h.leave j
  | drop i => exact h.drop i

/-- Whatever is answered, the descriptors, mappings, local memories and joins that a run has acquired
and not released are held by the handles and the joins that are left, none is released twice, and no
handle is dropped before its joins. -/
theorem run_settled (footprint : Nat) (ops : List Op) :
  (run footprint ops start).Settled
  := by
  have hstart : start.Settled := { ledger := rfl, borrowed := by simp [start] }
  have hstep (w : World) (op : Op) (h : w.Settled) : (w.step footprint op).Settled := h.step op
  exact Runs.run_keeps hstep hstart

/-! ### Owners and observers -/

/-- No owner takes a name or a place that a living owner has. -/
def Careful (w : World) : Op → Prop
  | .init name _ _ => ∀ x ∈ w.handles, x.2.ownedName ≠ some (cString name)
    ∧ ∀ segment ∈ w.system.names (cString name), x.2.ownedPlace ≠ some (.segment segment)
  | .initFromPtr shmem _ => ∀ x ∈ w.handles, x.2.ownedPlace ≠ some (w.system.placeAt shmem)
  | .openShm .. | .fromPtr .. | .join .. | .leave .. | .drop .. => True

/-- The places of the clocks that the living owners have made. -/
def places (w : World) : List Place := w.handles.filterMap (·.2.ownedPlace)

/-- Each owner has a clock of its own, in the segment that its name is bound to if it has one. An
observer that attaches by name finds a clock, unless an `init` has left the name bound without an
owner. -/
structure Sound (footprint : Nat) (w : World) : Prop where
  clock : ∀ place ∈ w.places, w.system.clocks place = true
  apart : w.places.Nodup
  bound : ∀ x ∈ w.handles, ∀ name, x.2.ownedName = some name →
    ∃ segment, w.system.names name = some segment ∧ x.2.place = .segment segment
  attached : ∀ name a h s, ClockShmem.openShm footprint name a w.system = (.ok h, s) →
    cString name ∈ w.left ∨ s.clocks h.place = true

/-- Each owner is under its name, and each name that is bound has an owner or was left without
one. No segment has two names. -/
structure Named (s : System) (handles : List (Nat × ClockShmem)) (left : List (List UInt8)) :
    Prop where
  bound : ∀ x ∈ handles, ∀ name, x.2.ownedName = some name →
    ∃ segment, s.names name = some segment ∧ x.2.place = .segment segment
  owned : ∀ name segment, s.names name = some segment →
    name ∈ left ∨ ∃ x ∈ handles, x.2.ownedName = some name
  made : ∀ name segment, s.names name = some segment → segment < s.made
  injective : ∀ name name' segment, s.names name = some segment →
    s.names name' = some segment → name = name'

/-- The segments of the places and of the mappings have been made. -/
structure Made (s : System) (places : List Place) : Prop where
  places : ∀ segment, .segment segment ∈ places → segment < s.made
  maps : ∀ addr, ∀ segment ∈ s.maps addr, segment < s.made

/-- What holds after every run of careful calls. -/
structure Inv (w : World) : Prop where
  named : Named w.system w.handles w.left
  clock : ∀ place ∈ w.places, w.system.clocks place = true
  apart : w.places.Nodup
  made : Made w.system w.places

/-- What the names are bound to, and what the places hold, is the same. -/
structure Unchanged (s s' : System) : Prop where
  names : s'.names = s.names
  made : s'.made = s.made
  clocks : s'.clocks = s.clocks

theorem unchanged_log :
  Unchanged s (s.log calls)
  := { names := rfl, made := rfl, clocks := rfl }

variable {places places' : List Place} {addr len segment : Nat}

theorem Made.mmap (h : Made s places) (hlt : segment < s.made) :
  Made (s.mmap addr len segment) places
  where
  places := h.places
  maps addr' segment' hmem := by
    change segment' ∈ Function.update s.maps addr (some segment) addr' at hmem
    rcases eq_or_ne addr' addr with rfl | hne
    · rw [Function.update_self] at hmem
      obtain rfl := Option.some.inj hmem
      exact hlt
    · rw [Function.update_of_ne hne] at hmem
      apply h.maps addr' segment' hmem

theorem Made.munmap (h : Made s places) :
  Made (s.munmap addr len) places
  where
  places := h.places
  maps addr' segment' hmem := by
    change segment' ∈ Function.update s.maps addr none addr' at hmem
    rcases eq_or_ne addr' addr with rfl | hne
    · rw [Function.update_self] at hmem
      cases hmem
    · rw [Function.update_of_ne hne] at hmem
      apply h.maps addr' segment' hmem

/-- More segments are made. -/
theorem Made.mono (h : Made s places) (hmade : s.made ≤ s'.made) (hmaps : s'.maps = s.maps) :
  Made s' places
  where
  places segment hmem := Nat.lt_of_lt_of_le (h.places segment hmem) hmade
  maps addr segment hmem := by
    rw [hmaps] at hmem
    apply Nat.lt_of_lt_of_le (h.maps addr segment hmem) hmade

/-- The place of another owner has been made. -/
theorem Made.cons {place : Place} (h : Made s places)
    (hlt : ∀ segment, place = .segment segment → segment < s.made) :
  Made s (place :: places)
  where
  places segment hmem := by
    rcases List.mem_cons.mp hmem with hplace | hold
    · apply hlt segment hplace.symm
    · apply h.places segment hold
  maps := h.maps

theorem Made.of_subset (h : Made s places) (hsub : places' ⊆ places) :
  Made s places'
  where
  places segment hmem := h.places segment (hsub hmem)
  maps := h.maps

variable {handles handles' : List (Nat × ClockShmem)} {left left' : List (List UInt8)}

theorem Named.of_names (h : Named s handles left) (hnames : s'.names = s.names)
    (hmade : s'.made = s.made) :
  Named s' handles left
  := by
  constructor
  case bound => rw [hnames]; exact h.bound
  case owned => rw [hnames]; exact h.owned
  case made => rw [hnames, hmade]; exact h.made
  case injective => rw [hnames]; exact h.injective

/-- A handle that owns no name comes or goes. -/
theorem Named.congr (h : Named s handles left)
    (hiff : ∀ x, x.2.ownedName ≠ none → (x ∈ handles' ↔ x ∈ handles)) :
  Named s handles' left
  := by
  have hof {x : Nat × ClockShmem} {name : List UInt8} (hname : x.2.ownedName = some name) :
      x ∈ handles' ↔ x ∈ handles := by
    apply hiff
    rw [hname]
    apply Option.some_ne_none
  constructor
  case bound =>
    intro x hx name hname
    apply h.bound x ((hof hname).mp hx) name hname
  case owned =>
    intro name segment hbound
    apply (h.owned name segment hbound).imp_right
    rintro ⟨x, hx, hname⟩
    exact ⟨x, (hof hname).mpr hx, hname⟩
  case made => exact h.made
  case injective => exact h.injective

theorem Named.cons {id : Nat} {handle : ClockShmem} (h : Named s handles left)
    (hname : handle.ownedName = none) :
  Named s ((id, handle) :: handles) left
  := by
  apply h.congr
  intro x hx
  have hne : x ≠ (id, handle) := by
    rintro rfl
    exact hx hname
  rw [List.mem_cons, or_iff_right hne]

/-- One name is bound to something else, or to nothing. Its owners come or go, and no others. -/
theorem Named.rename {value : Option Nat} (h : Named s handles left)
    (hnames : s'.names = Function.update s.names name value) (hmade : s.made ≤ s'.made)
    (hfresh : ∀ segment, value = some segment →
      segment < s'.made ∧ ∀ name', s.names name' = some segment → name' = name)
    (hvalue : ∀ segment, value = some segment →
      name ∈ left' ∨ ∃ x ∈ handles', x.2.ownedName = some name)
    (hbound : ∀ x ∈ handles', ∀ n, x.2.ownedName = some n → n ≠ name ∧ x ∈ handles
      ∨ n = name ∧ ∃ segment, value = some segment ∧ x.2.place = .segment segment)
    (hkept : ∀ x ∈ handles, x.2.ownedName ≠ some name → x ∈ handles') (hleft : left ⊆ left') :
  Named s' handles' left'
  := by
  have hat : s'.names name = value := by rw [hnames, Function.update_self]
  have hother (n : List UInt8) (hne : n ≠ name) : s'.names n = s.names n := by
    rw [hnames, Function.update_of_ne hne]
  constructor
  case bound =>
    intro x hx n hn
    rcases hbound x hx n hn with ⟨hne, hold⟩ | ⟨rfl, segment, hsegment, hplace⟩
    · rw [hother n hne]
      apply h.bound x hold n hn
    · exact ⟨segment, hat.trans hsegment, hplace⟩
  case owned =>
    intro n segment hn
    rcases eq_or_ne n name with rfl | hne
    · apply hvalue segment (hat.symm.trans hn)
    · rw [hother n hne] at hn
      rcases h.owned n segment hn with hmem | ⟨x, hx, hname⟩
      · exact .inl (hleft hmem)
      · right
        use x, hkept x hx
          (fun hsame => hne (Option.some.inj (hname.symm.trans hsame)))
  case made =>
    intro n segment hn
    rcases eq_or_ne n name with rfl | hne
    · apply (hfresh segment (hat.symm.trans hn)).1
    · rw [hother n hne] at hn
      apply Nat.lt_of_lt_of_le (h.made n segment hn) hmade
  case injective =>
    intro n n' segment hn hn'
    rcases eq_or_ne n name with rfl | hne
    · rcases eq_or_ne n' n with rfl | hne'
      · rfl
      · rw [hother n' hne'] at hn'
        apply ((hfresh segment (hat.symm.trans hn)).2 n' hn').symm
    · rw [hother n hne] at hn
      rcases eq_or_ne n' name with rfl | hne'
      · apply (hfresh segment (hat.symm.trans hn')).2 n hn
      · rw [hother n' hne'] at hn'
        apply h.injective n n' segment hn hn'

/-- What opening a name does to a system whose segments have one name each. -/
structure Fresh (s : System) (name : List UInt8) (fd : Fd) (s' : System) : Prop where
  names : s'.names = Function.update s.names name (some fd.segment)
  made : s.made ≤ s'.made
  fresh : fd.segment < s'.made ∧ ∀ name', s.names name' = some fd.segment → name' = name
  clocks : s'.clocks = s.clocks
  maps : s'.maps = s.maps

theorem Named.opened (h : Named s handles left) (hopen : Opened s name create fd s') :
  Fresh s name fd s'
  := by
  cases hopen with
  | bound hname =>
    constructor
    case names =>
      rw [← hname, Function.update_eq_self]
      rfl
    case made => exact Nat.le_refl s.made
    case fresh =>
      use h.made name fd.segment hname
      intro name' hname'
      apply h.injective name' name fd.segment hname' hname
    case clocks => rfl
    case maps => rfl
  | new hname hcreate hfd =>
    constructor
    case names => rfl
    case made => exact Nat.le_succ s.made
    case fresh =>
      rw [hfd]
      use Nat.lt_succ_self s.made
      intro name' hname'
      exact absurd (h.made name' s.made hname') (Nat.lt_irrefl s.made)
    case clocks => rfl
    case maps => rfl

theorem ownedPlace_of_name {x : ClockShmem} (hx : x.ownedName = some name) :
  x.ownedPlace = some x.place
  := by
  obtain ⟨shclock, backing, place⟩ := x
  cases backing with
  | ownedPosixShm fd mapPtr mapLen name => rfl
  | ownedPtr => cases hx
  | borrowedPtr => cases hx
  | borrowedPosixShm fd mapPtr mapLen => cases hx

theorem mem_places {place : Place} :
  place ∈ w.places ↔ ∃ x ∈ w.handles, x.2.ownedPlace = some place
  := List.mem_filterMap

/-- No owner has its clock in the segment of a name when none has it where the name is bound. -/
theorem Inv.segment_notMem (h : w.Inv) (hopen : Opened w.system name create fd s)
    (hcareful : ∀ x ∈ w.handles, ∀ segment ∈ w.system.names name,
      x.2.ownedPlace ≠ some (.segment segment)) :
  .segment fd.segment ∉ w.places
  := by
  intro hmem
  cases hopen with
  | bound hname =>
    obtain ⟨x, hx, hplace⟩ := mem_places.mp hmem
    exact hcareful x hx fd.segment hname hplace
  | new hname hcreate hfd =>
    have hlt := h.made.places fd.segment hmem
    rw [hfd] at hlt
    exact Nat.lt_irrefl _ hlt

/-- The places that hold a clock, after one is made in another place. -/
theorem clock_new {clocks : Place → Bool} {place : Place} {places : List Place}
    (hnew : place ∉ places) (h : ∀ place ∈ places, clocks place = true) :
  ∀ p ∈ place :: places, Function.update clocks place true p = true
  := by
  rw [List.forall_mem_cons]
  use Function.update_self place true clocks
  intro p hp
  rw [Function.update_of_ne (ne_of_mem_of_not_mem hp hnew)]
  apply h p hp

/-- What a failed `init` leaves bound. -/
theorem leftBy_error {e : ClockError} {leaves : Bool} (he : e.leaves = leaves) :
  leftBy name (.error e) = if leaves then [cString name] else []
  := by rw [leftBy, he]

/-- A careful `init`. -/
theorem Inv.init (h : w.Inv) (a : MapAnswers) (accepted : Bool)
    (hcareful : w.Careful (.init name a accepted)) :
  (w.step footprint (.init name a accepted)).Inv
  := by
  have hkeep (x : Nat × ClockShmem) (hx : x ∈ w.handles) (n : List UInt8)
      (hn : x.2.ownedName = some n) : n ≠ cString name := by
    rintro rfl
    apply (hcareful x hx).1 hn
  have hclocks {fd : Fd} {s' : System} (hfresh : Fresh w.system (cString name) fd s') :
      ∀ place ∈ w.places, s'.clocks place = true := by
    rw [hfresh.clocks]
    exact h.clock
  rw [step]
  have hend := init_end footprint name a accepted w.system
  generalize ClockShmem.init footprint name a accepted w.system = r at hend ⊢
  cases hend with
  | unopened e he =>
    simp only
    rw [leftBy_error he]
    exact { named := h.named, clock := h.clock, apart := h.apart, made := h.made }
  | @unmapped fd s' hopen e he =>
    have hfresh := h.named.opened hopen
    have hclock := hclocks hfresh
    have hmade := h.made.mono hfresh.made hfresh.maps
    have hnamed : Named s' w.handles (cString name :: w.left) := by
      apply h.named.rename hfresh.names hfresh.made
      · rintro _ ⟨⟩
        exact hfresh.fresh
      · intro segment _
        exact .inl List.mem_cons_self
      · intro x hx n hn
        exact .inl ⟨hkeep x hx n hn, hx⟩
      · exact fun x hx _ => hx
      · apply List.subset_cons_self
    simp only
    rw [leftBy_error he]
    exact {
      named := hnamed.of_names rfl rfl
      clock := hclock
      apart := h.apart
      made := { hmade with } }
  | @refused fd s' hopen mapPtr =>
    have hfresh := h.named.opened hopen
    have hclock := hclocks hfresh
    have hmapped := @Made.mmap _ _ mapPtr footprint _ (h.made.mono hfresh.made hfresh.maps)
      hfresh.fresh.1
    have hmade := @Made.munmap _ _ mapPtr footprint hmapped
    have hnames : (s'.shmUnlink (cString name)).names
        = Function.update w.system.names (cString name) none := by
      rw [System.shmUnlink, hfresh.names, Function.update_idem]
    have hnamed : Named (s'.shmUnlink (cString name)) w.handles w.left := by
      apply h.named.rename hnames hfresh.made
      · rintro _ ⟨⟩
      · rintro _ ⟨⟩
      · intro x hx n hn
        exact .inl ⟨hkeep x hx n hn, hx⟩
      · exact fun x hx _ => hx
      · exact List.Subset.refl _
    exact {
      named := hnamed.of_names rfl rfl
      clock := hclock
      apart := h.apart
      made := { hmade with } }
  | @made fd s' hopen mapPtr buf hbuf =>
    have hfresh := h.named.opened hopen
    have hclock := hclocks hfresh
    have hnew := h.segment_notMem hopen fun x hx => (hcareful x hx).2
    have hmade := @Made.mmap _ _ mapPtr footprint _ (h.made.mono hfresh.made hfresh.maps)
      hfresh.fresh.1
    let handle : ClockShmem :=
      { shclock := mapPtr
        backing := .ownedPosixShm fd mapPtr footprint buf
        place := .segment fd.segment }
    have hnamed : Named s' ((w.nextId, handle) :: w.handles) w.left := by
      apply h.named.rename hfresh.names hfresh.made
      · rintro _ ⟨⟩
        exact hfresh.fresh
      · intro segment _
        right
        exact ⟨_, List.mem_cons_self, congrArg some hbuf⟩
      · intro x hx n hn
        rcases List.mem_cons.mp hx with rfl | hold
        · right
          use (Option.some.inj hn).symm.trans hbuf, fd.segment
        · exact .inl ⟨hkeep x hold n hn, hold⟩
      · exact fun x hx _ => List.mem_cons_of_mem _ hx
      · exact List.Subset.refl _
    constructor
    case named => exact { hnamed with }
    case clock => exact clock_new hnew hclock
    case apart => exact List.nodup_cons.mpr ⟨hnew, h.apart⟩
    case made =>
      have hplaces : Made (s'.mmap mapPtr footprint fd.segment)
          (.segment fd.segment :: w.places) := by
        apply hmade.cons
        rintro _ ⟨⟩
        exact hfresh.fresh.1
      exact { hplaces with }

/-- A constructor that makes no clock. -/
theorem Inv.observe (h : w.Inv) {r : Except ClockError ClockShmem × System}
    (hs : Unchanged w.system r.2) (hmade : Made r.2 w.places)
    (hr : ∀ handle, r.1 = .ok handle → handle.ownedPlace = none ∧ handle.ownedName = none) :
  (w.hold r).Inv
  := by
  obtain ⟨result, s⟩ := r
  have hclock : ∀ place ∈ w.places, s.clocks place = true := by
    rw [hs.clocks]
    exact h.clock
  have hnamed := h.named.of_names hs.names hs.made
  cases result with
  | error e => exact { named := hnamed, clock := hclock, apart := h.apart, made := hmade }
  | ok handle =>
    obtain ⟨hplace, hname⟩ := hr handle rfl
    have hplaces : (w.hold (.ok handle, s)).places = w.places := List.filterMap_cons_none hplace
    constructor
    case named => exact hnamed.cons hname
    case clock => rw [hplaces]; exact hclock
    case apart => rw [hplaces]; exact h.apart
    case made => rw [hplaces]; exact hmade

theorem Inv.openShm (h : w.Inv) (name : List UInt8) (a : MapAnswers) :
  (w.step footprint (.openShm name a)).Inv
  := by
  have hend := openShm_end footprint name a w.system
  rw [step]
  generalize ClockShmem.openShm footprint name a w.system = r at hend ⊢
  have hmapped {fd : Fd} (hname : w.system.names (cString name) = some fd.segment) (mapPtr : Nat) :
      Made (w.system.mmap mapPtr footprint fd.segment) w.places :=
    h.made.mmap (h.named.made _ _ hname)
  cases hend with
  | unopened e =>
    exact h.observe { names := rfl, made := rfl, clocks := rfl } h.made (by rintro _ ⟨⟩)
  | unmapped fd e => exact h.observe unchanged_log { h.made with } (by rintro _ ⟨⟩)
  | null fd hname mapPtr =>
    apply h.observe { names := rfl, made := rfl, clocks := rfl } _ (by rintro _ ⟨⟩)
    exact { @Made.munmap _ _ mapPtr footprint (hmapped hname mapPtr) with }
  | attached fd hname mapPtr =>
    apply h.observe { names := rfl, made := rfl, clocks := rfl } { hmapped hname mapPtr with }
    rintro _ ⟨⟩
    exact ⟨rfl, rfl⟩

theorem Inv.fromPtr (h : w.Inv) (shclock : Nat) :
  (w.step footprint (.fromPtr shclock)).Inv
  := by
  apply h.observe { names := rfl, made := rfl, clocks := rfl } h.made
  intro handle hok
  rw [ClockShmem.fromPtr] at hok
  split at hok
  · cases hok
  · obtain rfl := Except.ok.inj hok
    exact ⟨rfl, rfl⟩

/-- A pointer leads to a segment only when that is mapped. -/
theorem Made.placeAt (h : Made s places) (hplace : s.placeAt addr = .segment segment) :
  segment < s.made
  := by
  rw [System.placeAt] at hplace
  split at hplace
  next segment' hmaps =>
    obtain rfl := Place.segment.inj hplace
    apply h.maps addr segment' hmaps
  next => cases hplace

/-- A careful `init_from_ptr`. -/
theorem Inv.initFromPtr (h : w.Inv) {shmem : Nat} (accepted : Bool)
    (hcareful : w.Careful (.initFromPtr shmem accepted)) :
  (w.step footprint (.initFromPtr shmem accepted)).Inv
  := by
  have hnew : w.system.placeAt shmem ∉ w.places := by
    intro hmem
    obtain ⟨x, hx, hplace⟩ := mem_places.mp hmem
    exact hcareful x hx hplace
  have hmade : Made w.system (w.system.placeAt shmem :: w.places) :=
    h.made.cons fun segment => h.made.placeAt
  rw [step, ClockShmem.initFromPtr]
  split
  · constructor
    case named => exact { @Named.cons _ _ _ w.nextId _ h.named rfl with }
    case clock => exact clock_new hnew h.clock
    case apart => exact List.nodup_cons.mpr ⟨hnew, h.apart⟩
    case made => exact { hmade with }
  · exact { named := h.named, clock := h.clock, apart := h.apart, made := h.made }

theorem Inv.join (h : w.Inv) (i : Nat) (alloc : Option Nat) (accepted : Bool) :
  (w.step footprint (.join i alloc accepted)).Inv
  := by
  rw [step]
  cases w.handles[i]? with
  | none => exact h
  | some pair =>
    obtain ⟨id, handle⟩ := pair
    obtain ⟨hs, hmaps⟩ : Unchanged w.system (handle.join alloc accepted w.system).2
        ∧ (handle.join alloc accepted w.system).2.maps = w.system.maps := by
      cases alloc with
      | none => exact ⟨{ names := rfl, made := rfl, clocks := rfl }, rfl⟩
      | some lmem =>
        simp only [ClockShmem.join]
        split <;> exact ⟨unchanged_log, rfl⟩
    have hnamed := h.named.of_names hs.names hs.made
    have hclock : ∀ place ∈ w.places,
        (handle.join alloc accepted w.system).2.clocks place = true := by
      rw [hs.clocks]
      exact h.clock
    have hmade := h.made.mono hs.made.ge hmaps
    simp only
    generalize handle.join alloc accepted w.system = r at hnamed hclock hmade ⊢
    obtain ⟨result, s⟩ := r
    cases result with
    | error e => exact { named := hnamed, clock := hclock, apart := h.apart, made := hmade }
    | ok join => exact { named := hnamed, clock := hclock, apart := h.apart, made := hmade }

theorem Inv.leave (h : w.Inv) (j : Nat) :
  (w.step footprint (.leave j)).Inv
  := by
  rw [step]
  cases w.joins[j]? with
  | none => exact h
  | some pair =>
    exact {
      named := h.named.of_names rfl rfl
      clock := h.clock
      apart := h.apart
      made := { h.made with } }

/-- The places that hold a clock, after the one in another place is deleted. -/
theorem clock_delete {clocks : Place → Bool} {place : Place} {places : List Place}
    (hdropped : place ∉ places) (h : ∀ place ∈ places, clocks place = true) :
  ∀ p ∈ places, Function.update clocks place false p = true
  := by
  intro p hp
  rw [Function.update_of_ne (ne_of_mem_of_not_mem hp hdropped)]
  apply h p hp

/-- The others have not the name of an owner. -/
theorem Inv.ownedName_ne (h : w.Inv) {x y : Nat × ClockShmem} (hx : x ∈ w.handles)
    (hy : y ∈ w.handles) (hname : x.2.ownedName = some name)
    (hplace : y.2.ownedPlace ≠ some x.2.place) :
  y.2.ownedName ≠ some name
  := by
  intro hsame
  obtain ⟨segment, hbound, hsegment⟩ := h.named.bound x hx name hname
  obtain ⟨segment', hbound', hsegment'⟩ := h.named.bound y hy name hsame
  obtain rfl := Option.some.inj (hbound.symm.trans hbound')
  apply hplace
  rw [ownedPlace_of_name hsame, hsegment, hsegment']

theorem Inv.drop (h : w.Inv) (i : Nat) :
  (w.step footprint (.drop i)).Inv
  := by
  rw [step]
  cases hi : w.handles[i]? with
  | none => exact h
  | some pair =>
    obtain ⟨id, handle⟩ := pair
    obtain ⟨hlt, hget⟩ := List.getElem?_eq_some_iff.mp hi
    have hperm := List.getElem_cons_eraseIdx_perm hlt
    rw [hget] at hperm
    generalize w.handles.eraseIdx i = rest at hperm ⊢
    have hmem (x : Nat × ClockShmem) : x ∈ w.handles ↔ x = (id, handle) ∨ x ∈ rest := by
      rw [← hperm.mem_iff, List.mem_cons]
    have hplaces := hperm.filterMap (·.2.ownedPlace)
    have hclock : ∀ place ∈ rest.filterMap (·.2.ownedPlace), w.system.clocks place = true := by
      intro place hplace
      apply h.clock place (hplaces.mem_iff.mp _)
      apply ((List.sublist_cons_self _ rest).filterMap _).subset hplace
    have hapart := hplaces.nodup_iff.mpr h.apart
    have hmade : Made w.system (rest.filterMap (·.2.ownedPlace)) := by
      apply h.made.of_subset
      intro place hplace
      apply hplaces.mem_iff.mp
      apply ((List.sublist_cons_self _ rest).filterMap _).subset hplace
    have hnamed (hname : handle.ownedName = none) : Named w.system rest w.left := by
      apply h.named.congr
      intro x hx
      have hne : x ≠ (id, handle) := by
        rintro rfl
        exact hx hname
      rw [hmem, or_iff_right hne]
    simp only
    split
    case isTrue => exact h
    case isFalse =>
      obtain ⟨shclock, backing, place⟩ := handle
      cases backing with
      | borrowedPtr =>
        exact { named := hnamed rfl, clock := hclock, apart := hapart, made := hmade }
      | borrowedPosixShm fd mapPtr mapLen =>
        exact {
          named := (hnamed rfl).of_names rfl rfl
          clock := hclock
          apart := hapart
          made := { @Made.munmap _ _ mapPtr mapLen hmade with } }
      | ownedPtr =>
        obtain ⟨hnotMem, hrest⟩ := List.nodup_cons.mp hapart
        exact {
          named := (hnamed rfl).of_names rfl rfl
          clock := clock_delete hnotMem hclock
          apart := hrest
          made := { hmade with } }
      | ownedPosixShm fd mapPtr mapLen name =>
        obtain ⟨hnotMem, hrest⟩ := List.nodup_cons.mp hapart
        let backing := ShmemBacking.ownedPosixShm fd mapPtr mapLen name
        have hnames : (ClockShmem.drop ⟨shclock, backing, place⟩ w.system).names
            = Function.update w.system.names (cString name) none := rfl
        constructor
        case named =>
          apply h.named.rename hnames (Nat.le_refl w.system.made)
          · rintro _ ⟨⟩
          · rintro _ ⟨⟩
          · intro x hx n hn
            left
            have hx' := (hmem x).mpr (.inr hx)
            refine ⟨?_, hx'⟩
            rintro rfl
            apply h.ownedName_ne ((hmem _).mpr (.inl rfl)) hx' rfl _ hn
            intro hplace
            apply hnotMem
            apply List.mem_filterMap.mpr ⟨x, hx, hplace⟩
          · intro x hx hne
            apply ((hmem x).mp hx).resolve_left
            rintro rfl
            exact hne rfl
          · exact List.Subset.refl _
        case clock => exact clock_delete hnotMem hclock
        case apart => exact hrest
        case made => exact { @Made.munmap _ _ mapPtr mapLen hmade with }

theorem Inv.step (h : w.Inv) {op : Op} (hcareful : w.Careful op) :
  (w.step footprint op).Inv
  := by
  cases op with
  | init name a accepted => exact h.init a accepted hcareful
  | openShm name a => exact h.openShm name a
  | initFromPtr shmem accepted => exact h.initFromPtr accepted hcareful
  | fromPtr shclock => exact h.fromPtr shclock
  | join i alloc accepted => exact h.join i alloc accepted
  | leave j => exact h.leave j
  | drop i => exact h.drop i

theorem Inv.sound (h : w.Inv) :
  w.Sound footprint
  where
  clock := h.clock
  apart := h.apart
  bound := h.named.bound
  attached name a handle s hopen := by
    have hend := openShm_end footprint name a w.system
    rw [hopen] at hend
    cases hend with
    | attached fd hname mapPtr =>
      apply (h.named.owned _ _ hname).imp_right
      rintro ⟨x, hx, hsame⟩
      obtain ⟨segment, hbound, hplace⟩ := h.named.bound x hx _ hsame
      obtain rfl := Option.some.inj (hname.symm.trans hbound)
      apply h.clock
      rw [mem_places]
      use x, hx
      rw [ownedPlace_of_name hsame, hplace]

/-- After every run of careful calls each owner has a clock of its own under its name, and an
observer that attaches by name finds a clock, unless an `init` has left the name without an
owner. -/
theorem run_sound {footprint : Nat} {ops : List Op} (h : Along footprint Careful ops start) :
  (run footprint ops start).Sound footprint
  := by
  have hstart : start.Inv := by
    constructor
    case named => constructor <;> simp [start]
    case clock => exact List.forall_mem_nil _
    case apart => exact List.nodup_nil
    case made => constructor <;> simp [start, places]
  have hstep (w : World) (op : Op) (h : w.Inv) (hcareful : w.Careful op) :
      (w.step footprint op).Inv := h.step hcareful
  exact (h.keeps hstep hstart).sound

/-- The system maps whatever it is asked to. -/
def mapped (mapPtr : Nat) : MapAnswers where
  shmOpen := .ok 3
  ftruncate := none
  mmap := .ok mapPtr

/-- An owner, an observer through its pointer and one by its name, both with joins, and an `init` on
another name that leaves it bound. -/
theorem run_sound_observed :
  let w := run 640 [.init [47, 97] (mapped 4096) true, .fromPtr 4096, .join 0 (some 32) true,
    .openShm [47, 97] (mapped 8192), .join 0 (some 64) true, .drop 0,
    .init [47, 98] { mapped 0 with ftruncate := some 28 } true, .leave 0, .drop 0] start
  (w.joins.map (·.2.shclock) = [4096] ∧ w.handles.length = 2) ∧ w.Sound 640
  := by
  use by decide
  apply run_sound
  refine ⟨List.forall_mem_nil _, trivial, trivial, trivial, trivial, trivial, ?_, trivial, trivial,
    trivial⟩
  exact List.forall_mem_cons.mpr ⟨by decide,
    List.forall_mem_cons.mpr ⟨by decide, List.forall_mem_singleton.mpr (by decide)⟩⟩

/-- A refused `init` takes the name of an owner from it. -/
example : (run 640 [.init [47, 97] (mapped 4096) true, .init [47, 97] (mapped 8192) false]
    start).system.names [47, 97] = none := by decide

end World

end FdClock

import Mathlib.Data.List.Basic
import Mathlib.Logic.Function.Basic
import Mathlib.Logic.Relation

/-!
# Readers-writer locks

Threads that run operations, each of which acquires and releases locks in a fixed order. Asking for
a lock, getting it and giving it back are separate steps, and any thread may take the next one.
Threads that each wait for a lock that the next one holds are in a cycle. There is none where every
thread asks for locks in the order of some rank (`not_cycle_of_rank`), and the rank may change from
state to state as long as operations that need different ones are kept apart (`Apart.step`).
-/

namespace RwLock

/-- How a lock is held. -/
inductive Mode where
  | read
  | write
deriving DecidableEq, Repr

/-- What an operation does with a lock. -/
inductive Act (L : Type) where
  | acquire (lock : L) (mode : Mode)
  | release (lock : L)
deriving DecidableEq, Repr

/-- A thread between operations, or in one of them before the act at `pc`, for which it may be
waiting. -/
inductive Thread (ο : Type) where
  | idle
  | running (op : ο) (pc : Nat) (waiting : Bool)
deriving DecidableEq, Repr

/-- A step of a thread. -/
inductive Event (τ ο : Type) where
  | start (t : τ) (op : ο)
  | request (t : τ)
  | grant (t : τ)
  | release (t : τ)
  | finish (t : τ)

variable {L ο τ : Type}

section

variable [DecidableEq L]

/-- The locks that are held after some acts, from those held before. -/
def heldFrom (held : List (L × Mode)) : List (Act L) → List (L × Mode)
  | [] => held
  | .acquire lock mode :: acts => heldFrom ((lock, mode) :: held) acts
  | .release lock :: acts => heldFrom (held.filter fun h => h.1 ≠ lock) acts

variable (acts : ο → List (Act L))

/-- The locks that a thread holds. -/
def Thread.held : Thread ο → List (L × Mode)
  | .idle => []
  | .running op pc _ => heldFrom [] ((acts op).take pc)

/-- A thread holds a lock. -/
def Thread.Holds (th : Thread ο) (lock : L) : Prop := ∃ mode, (lock, mode) ∈ th.held acts

/-- A thread waits for a lock. -/
def Thread.Wants (th : Thread ο) (lock : L) : Prop :=
  ∃ op pc mode, th = .running op pc true ∧ (acts op)[pc]? = some (.acquire lock mode)

/-- A lock can be acquired: nobody holds it, or it is held and asked for by readers. -/
def Free (σ : τ → Thread ο) (lock : L) (mode : Mode) : Prop :=
  ∀ t mode', (lock, mode') ∈ (σ t).held acts → mode = .read ∧ mode' = .read

variable [DecidableEq τ]

/-- One step. A thread that has asked for a lock gets it at some time at which it can be acquired. A
lock that serves waiting writers before new readers takes fewer of these steps. -/
inductive Step (σ : τ → Thread ο) : Event τ ο → (τ → Thread ο) → Prop where
  | start {t : τ} (op : ο) (h : σ t = .idle) :
    Step σ (.start t op) (Function.update σ t (.running op 0 false))
  | request {t : τ} {op : ο} {pc : Nat} {lock : L} {mode : Mode}
      (h : σ t = .running op pc false) (hact : (acts op)[pc]? = some (.acquire lock mode)) :
    Step σ (.request t) (Function.update σ t (.running op pc true))
  | grant {t : τ} {op : ο} {pc : Nat} {lock : L} {mode : Mode}
      (h : σ t = .running op pc true) (hact : (acts op)[pc]? = some (.acquire lock mode))
      (hfree : Free acts σ lock mode) :
    Step σ (.grant t) (Function.update σ t (.running op (pc + 1) false))
  | release {t : τ} {op : ο} {pc : Nat} {lock : L}
      (h : σ t = .running op pc false) (hact : (acts op)[pc]? = some (.release lock)) :
    Step σ (.release t) (Function.update σ t (.running op (pc + 1) false))
  | finish {t : τ} {op : ο} {pc : Nat}
      (h : σ t = .running op pc false) (hact : (acts op)[pc]? = none) :
    Step σ (.finish t) (Function.update σ t .idle)

/-- All threads are idle. -/
def allIdle : τ → Thread ο := fun _ => .idle

end

section

variable {acts : ο → List (Act L)} {σ σ' : τ → Thread ο} {kind kind' : ο → Prop}

/-- What a thread waits for is determined by where it is. -/
theorem Thread.Wants.unique {th : Thread ο} {lock lock' : L} (h : th.Wants acts lock)
    (h' : th.Wants acts lock') :
  lock = lock'
  := by
  obtain ⟨op, pc, mode, rfl, hact⟩ := h
  obtain ⟨op', pc', mode', hth, hact'⟩ := h'
  cases hth
  rw [hact] at hact'
  cases hact'
  rfl

/-- Some thread is in an operation of a kind. -/
def Running (kind : ο → Prop) (σ : τ → Thread ο) : Prop :=
  ∃ t op pc waiting, σ t = .running op pc waiting ∧ kind op

/-- Operations of two kinds are not in progress at the same time. -/
def Apart (kind kind' : ο → Prop) (σ : τ → Thread ο) : Prop :=
  ¬(Running kind σ ∧ Running kind' σ)

/-- An operation of one of two kinds starts only when none of the other is in progress. -/
def KeepsApart (kind kind' : ο → Prop) (σ : τ → Thread ο) : Event τ ο → Prop
  | .start _ op => (kind op → ¬Running kind' σ) ∧ (kind' op → ¬Running kind σ)
  | _ => True

theorem apart_allIdle :
  Apart kind kind' (allIdle : τ → Thread ο)
  := by
  rintro ⟨⟨t, op, pc, waiting, hidle, -⟩, -⟩
  cases hidle

variable [DecidableEq L]

/-! ### Cycles -/

/-- A thread waits for a lock that another holds, in whatever modes: a reader may have to wait for
readers too, when a writer waits between them. -/
def WaitsOn (acts : ο → List (Act L)) (σ : τ → Thread ο) (t u : τ) : Prop :=
  ∃ lock, (σ t).Wants acts lock ∧ (σ u).Holds acts lock

/-- There are threads that each wait for a lock that the next one holds, and the last for one that
the first one holds. -/
def Cycle (acts : ο → List (Act L)) (σ : τ → Thread ο) : Prop :=
  ∃ t, Relation.TransGen (WaitsOn acts σ) t t

/-- An operation asks for a lock while it holds another. -/
def Nests (acts : ο → List (Act L)) (op : ο) (outer inner : L) : Prop :=
  ∃ pc mode mode', (acts op)[pc]? = some (.acquire inner mode)
    ∧ (outer, mode') ∈ heldFrom [] ((acts op).take pc)

/-- A thread that holds a lock and waits for another is in an operation that nests them. -/
theorem Nests.of_holds {th : Thread ο} {outer inner : L} (hholds : th.Holds acts outer)
    (hwants : th.Wants acts inner) :
  ∃ op pc, th = .running op pc true ∧ Nests acts op outer inner
  := by
  obtain ⟨op, pc, mode, rfl, hact⟩ := hwants
  obtain ⟨mode', hheld⟩ := hholds
  exact ⟨op, pc, rfl, pc, mode, mode', hact, hheld⟩

/-! ### Operations with one or two locks -/

/-- An operation that holds one lock. -/
def single (lock : L) (mode : Mode) : List (Act L) := [.acquire lock mode, .release lock]

/-- An operation that holds a lock, and for a part of the time another. -/
def nested (outer : L) (mode : Mode) (inner : L) (mode' : Mode) : List (Act L) :=
  [.acquire outer mode, .acquire inner mode', .release inner, .release outer]

theorem not_nests_single {op : ο} {lock outer inner : L} {mode : Mode}
    (h : acts op = single lock mode) :
  ¬Nests acts op outer inner
  := by
  rintro ⟨pc, mode, mode', hact, hheld⟩
  rw [h, single] at hact hheld
  rcases pc with _ | _ | pc
  · cases hheld
  · cases hact
  · cases hact

theorem nests_nested {op : ο} {lock lock' outer inner : L} {mode mode' : Mode}
    (h : acts op = nested lock mode lock' mode') (hnests : Nests acts op outer inner) :
  outer = lock ∧ inner = lock'
  := by
  obtain ⟨pc, mode, mode', hact, hheld⟩ := hnests
  rw [h, nested] at hact hheld
  rcases pc with _ | _ | _ | _ | pc
  · cases hheld
  · cases hact
    obtain ⟨rfl, -⟩ : outer = lock ∧ mode' = _ := by simpa [heldFrom] using hheld
    exact ⟨rfl, rfl⟩
  · cases hact
  · cases hact
  · cases hact

/-! ### Ranks -/

/-- Along threads that each wait for the next one the rank of the lock that they wait for
increases. -/
theorem rank_lt_of_transGen {rank : L → Nat}
    (hrank : ∀ t outer inner, (σ t).Holds acts outer → (σ t).Wants acts inner →
      rank outer < rank inner)
    {t u : τ} (h : Relation.TransGen (WaitsOn acts σ) t u) {last : L}
    (hlast : (σ u).Wants acts last) :
  ∃ first, (σ t).Wants acts first ∧ rank first < rank last
  := by
  induction h generalizing last with
  | single hwaits =>
    obtain ⟨lock, hwants, hholds⟩ := hwaits
    exact ⟨lock, hwants, hrank _ _ _ hholds hlast⟩
  | tail _ hwaits ih =>
    obtain ⟨lock, hwants, hholds⟩ := hwaits
    obtain ⟨first, hfirst, hlt⟩ := ih hwants
    exact ⟨first, hfirst, Nat.lt_trans hlt (hrank _ _ _ hholds hlast)⟩

theorem exists_wants_of_transGen {t u : τ} (h : Relation.TransGen (WaitsOn acts σ) t u) :
  ∃ lock, (σ t).Wants acts lock
  := by
  obtain ⟨_, ⟨lock, hwants, -⟩, -⟩ := Relation.TransGen.head'_iff.mp h
  exact ⟨lock, hwants⟩

/-- Threads that ask for locks in the order of a rank are in no cycle. -/
theorem not_cycle_of_rank (rank : L → Nat)
    (hrank : ∀ t outer inner, (σ t).Holds acts outer → (σ t).Wants acts inner →
      rank outer < rank inner) :
  ¬Cycle acts σ
  := by
  rintro ⟨t, hcycle⟩
  obtain ⟨last, hlast⟩ := exists_wants_of_transGen hcycle
  obtain ⟨first, hfirst, hlt⟩ := rank_lt_of_transGen hrank hcycle hlast
  rw [hfirst.unique hlast] at hlt
  apply Nat.lt_irrefl _ hlt

/-! ### Operations that are kept apart -/

variable [DecidableEq τ] {e : Event τ ο}

/-- A thread does not get a lock that is held against it. -/
theorem Step.blocked (h : Step acts σ e σ') {t u : τ} {op : ο} {pc : Nat} {lock : L}
    {mode mode' : Mode} (hwaits : σ t = .running op pc true)
    (hact : (acts op)[pc]? = some (.acquire lock mode))
    (hheld : (lock, mode') ∈ (σ u).held acts) (hagainst : ¬(mode = .read ∧ mode' = .read)) :
  σ' t = σ t
  := by
  have hother {t' : τ} {th : Thread ο} (ht : t ≠ t') : Function.update σ t' th t = σ t :=
    Function.update_of_ne ht _ _
  cases h with
  | start op' h =>
    apply hother
    rintro rfl
    rw [hwaits] at h
    cases h
  | request h hact' =>
    apply hother
    rintro rfl
    rw [hwaits] at h
    cases h
  | grant h hact' hfree =>
    apply hother
    rintro rfl
    rw [hwaits] at h
    cases h
    rw [hact] at hact'
    cases hact'
    apply hagainst (hfree u mode' hheld)
  | release h hact' =>
    apply hother
    rintro rfl
    rw [hwaits] at h
    cases h
  | finish h hact' =>
    apply hother
    rintro rfl
    rw [hwaits] at h
    cases h

/-- The operations of a state are those of the state before and the one that starts. -/
theorem Step.running (h : Step acts σ e σ') (hrunning : Running kind σ') :
  Running kind σ ∨ ∃ t op, e = .start t op ∧ kind op
  := by
  obtain ⟨u, op, pc, waiting, hu, hkind⟩ := hrunning
  -- A thread whose operation goes on was in it before.
  have hsame {t : τ} {op' : ο} {pc' pc'' : Nat} {waiting' waiting'' : Bool}
      (ht : σ t = .running op' pc' waiting')
      (hu : Function.update σ t (.running op' pc'' waiting'') u = .running op pc waiting) :
      Running kind σ := by
    rw [Function.update_apply] at hu
    split at hu
    · cases hu
      exact ⟨t, op, pc', waiting', ht, hkind⟩
    · exact ⟨u, op, pc, waiting, hu, hkind⟩
  cases h with
  | start op' h =>
    rw [Function.update_apply] at hu
    split at hu
    · cases hu
      right
      exact ⟨_, op, rfl, hkind⟩
    · left
      exact ⟨u, op, pc, waiting, hu, hkind⟩
  | request h hact => exact .inl (hsame h hu)
  | grant h hact hfree => exact .inl (hsame h hu)
  | release h hact => exact .inl (hsame h hu)
  | finish h hact =>
    rw [Function.update_apply] at hu
    split at hu
    · cases hu
    · left
      exact ⟨u, op, pc, waiting, hu, hkind⟩

/-- Operations stay apart. -/
theorem Apart.step (hdisjoint : ∀ op, kind op → ¬kind' op) (h : Apart kind kind' σ)
    (hkeeps : KeepsApart kind kind' σ e) (hstep : Step acts σ e σ') :
  Apart kind kind' σ'
  := by
  rintro ⟨hrunning, hrunning'⟩
  obtain hbefore | ⟨t, op, rfl, hkind⟩ := hstep.running hrunning
  · obtain hbefore' | ⟨t, op, rfl, hkind'⟩ := hstep.running hrunning'
    · apply h ⟨hbefore, hbefore'⟩
    · apply hkeeps.2 hkind' hbefore
  · obtain hbefore' | ⟨t', op', heq, hkind'⟩ := hstep.running hrunning'
    · apply hkeeps.1 hkind hbefore'
    · cases heq
      apply hdisjoint op hkind hkind'

end

end RwLock

import FiredancerRs.Lib.RwLock

/-!
# The locks of the span tracker

`SpanTracker` guards its two tables by a lock each. `on_enter` takes the lock of the spans while it
holds the one of the stacks, `on_close` and `stats` the other way round, so an `on_enter` and an
`on_close` can wait for each other for ever (`not_deadlockFree`). Without these at the same time no
threads are in a cycle (`deadlockFree`).
-/

open RwLock

namespace FdTracing

/-- The two locks. -/
inductive LockId where
  | spans
  | threadStacks
deriving DecidableEq, Repr

/-- The methods of `SpanTracker`. -/
inductive Operation where
  | onNewSpan
  | onEnter
  | onExit
  | onClose
  | onRecord
  | currentContext
  | currentStack
  | getSpan
  | currentDepth
  | inSpan
  | stats
deriving DecidableEq, Repr

namespace Operation

/-- What a method does with the locks. Guards are dropped in the opposite order of their
declarations. -/
def acts : Operation → List (Act LockId)
  | onNewSpan => single .spans .write
  | onEnter => nested .threadStacks .write .spans .read
  | onExit => single .threadStacks .write
  | onClose => nested .spans .write .threadStacks .write
  | onRecord => single .spans .write
  | currentContext => single .threadStacks .read
  | currentStack => single .threadStacks .read
  | getSpan => single .spans .read
  | currentDepth => single .threadStacks .read
  | inSpan => single .threadStacks .read
  | stats => nested .spans .read .threadStacks .read

/-- The act acquires a lock. -/
def acquires : Act LockId → Bool
  | .acquire _ _ => true
  | .release _ => false

/-- No method acquires a lock after it has released one, so each is one step on the tables. -/
theorem twoPhase (op : Operation) :
  ((acts op).dropWhile acquires).all fun act => !acquires act
  := by cases op <;> rfl

/-- A method that takes the lock of the spans while it holds the one of the stacks. -/
def Enters (op : Operation) : Prop := op = .onEnter

/-- A method that takes the lock of the stacks while it holds the one of the spans. -/
def ClosesOrCounts (op : Operation) : Prop := op = .onClose ∨ op = .stats

theorem nests_cases {op : Operation} {outer inner : LockId} (h : Nests acts op outer inner) :
  op.Enters ∧ outer = .threadStacks ∧ inner = .spans
    ∨ op.ClosesOrCounts ∧ outer = .spans ∧ inner = .threadStacks
  := by
  cases op with
  | onEnter => exact .inl ⟨rfl, nests_nested rfl h⟩
  | onClose => exact .inr ⟨.inl rfl, nests_nested rfl h⟩
  | stats => exact .inr ⟨.inr rfl, nests_nested rfl h⟩
  | _ => exact absurd h (not_nests_single rfl)

end Operation

open Operation

variable {τ : Type} {σ : τ → Thread Operation}

/-- Where the methods that nest the two locks are kept apart, no threads are in a cycle. -/
theorem not_cycle_of_apart (h : Apart Enters ClosesOrCounts σ) :
  ¬Cycle acts σ
  := by
  -- The locks are ranked by the method that nests them now.
  by_cases henters : Running Enters σ
  · apply not_cycle_of_rank fun lock => if lock = .threadStacks then 0 else 1
    intro t outer inner hholds hwants
    obtain ⟨op, pc, ht, hnests⟩ := Nests.of_holds hholds hwants
    obtain ⟨-, rfl, rfl⟩ | ⟨hcloses, -, -⟩ := nests_cases hnests
    · decide
    · exact absurd ⟨henters, t, op, pc, true, ht, hcloses⟩ h
  · apply not_cycle_of_rank fun lock => if lock = .threadStacks then 1 else 0
    intro t outer inner hholds hwants
    obtain ⟨op, pc, ht, hnests⟩ := Nests.of_holds hholds hwants
    obtain ⟨henter, -, -⟩ | ⟨-, rfl, rfl⟩ := nests_cases hnests
    · exact absurd ⟨t, op, pc, true, ht, henter⟩ henters
    · decide

variable [DecidableEq τ]

/-- One step of a thread that starts an `on_enter` only while no `on_close` and no `stats` is in
progress, and the other way round. -/
def ApartStep (σ σ' : τ → Thread Operation) : Prop :=
  ∃ e, KeepsApart Enters ClosesOrCounts σ e ∧ Step acts σ e σ'

theorem apart_of_reached (h : Relation.ReflTransGen ApartStep allIdle σ) :
  Apart Enters ClosesOrCounts σ
  := by
  induction h with
  | refl => exact apart_allIdle
  | tail _ hstep ih =>
    obtain ⟨e, hkeeps, hstep⟩ := hstep
    refine ih.step ?_ hkeeps hstep
    rintro op rfl (hop | hop) <;> cases hop

/-- When no `on_enter` is in progress at the same time as an `on_close` or a `stats`, no state that
any threads reach has a cycle of threads that each wait for a lock that the next one holds. -/
theorem deadlockFree (h : Relation.ReflTransGen ApartStep allIdle σ) :
  ¬Cycle acts σ
  := not_cycle_of_apart (apart_of_reached h)

/-! ### A deadlock -/

/-- One step of any thread. -/
def AnyStep (σ σ' : τ → Thread Operation) : Prop := ∃ e, Step acts σ e σ'

/-- The first thread and the second, with all others idle. -/
def two (first second : Thread Operation) : Nat → Thread Operation :=
  Function.update (Function.update allIdle 0 first) 1 second

variable {first first' second second' : Thread Operation}

theorem update_two_zero :
  Function.update (two first second) 0 first' = two first' second
  := by rw [two, Function.update_comm Nat.one_ne_zero, Function.update_idem, two]

theorem update_two_one :
  Function.update (two first second) 1 second' = two first second'
  := Function.update_idem ..

/-- What is held is held by one of the two threads. -/
theorem held_two {t : Nat} {lock : LockId × Mode} (h : lock ∈ (two first second t).held acts) :
  lock ∈ first.held acts ∨ lock ∈ second.held acts
  := by
  rw [two, Function.update_apply, Function.update_apply] at h
  split at h
  · exact .inr h
  · split at h
    · exact .inl h
    · cases h

theorem two_idle :
  two .idle .idle = allIdle
  := by
  rw [two, Function.update_eq_self_iff.mpr, Function.update_eq_self_iff.mpr] <;> rfl

theorem step_first {e : Event Nat Operation}
    (h : Step acts (two first second) e (Function.update (two first second) 0 first')) :
  Step acts (two first second) e (two first' second)
  := by rwa [update_two_zero] at h

theorem step_second {e : Event Nat Operation}
    (h : Step acts (two first second) e (Function.update (two first second) 1 second')) :
  Step acts (two first second) e (two first second')
  := by rwa [update_two_one] at h

/-- An `on_enter` starts and gets the lock of the stacks. -/
theorem onEnter_steps :
  Step acts (two .idle .idle) (.start 0 .onEnter) (two (.running .onEnter 0 false) .idle)
    ∧ Step acts (two (.running .onEnter 0 false) .idle) (.request 0)
      (two (.running .onEnter 0 true) .idle)
    ∧ Step acts (two (.running .onEnter 0 true) .idle) (.grant 0)
      (two (.running .onEnter 1 false) .idle)
  := by
  use step_first (.start onEnter rfl), step_first (.request rfl rfl)
  refine step_first (.grant rfl rfl ?_)
  intro t mode hheld
  rcases held_two hheld with h | h <;> cases h

/-- While it has that lock, another method starts and gets the lock of the spans to write. -/
theorem second_steps {op : Operation} (hact : (acts op)[0]? = some (.acquire .spans .write)) :
  Step acts (two (.running .onEnter 1 false) .idle) (.start 1 op)
      (two (.running .onEnter 1 false) (.running op 0 false))
    ∧ Step acts (two (.running .onEnter 1 false) (.running op 0 false)) (.request 1)
      (two (.running .onEnter 1 false) (.running op 0 true))
    ∧ Step acts (two (.running .onEnter 1 false) (.running op 0 true)) (.grant 1)
      (two (.running .onEnter 1 false) (.running op 1 false))
  := by
  use step_second (.start op rfl), step_second (.request rfl hact)
  refine step_second (.grant rfl hact ?_)
  intro t mode hheld
  rcases held_two hheld with h | h
  · -- the first thread holds the lock of the stacks only
    obtain ⟨hlock, -⟩ := Prod.mk.inj (List.mem_singleton.mp h)
    cases hlock
  · cases h

/-- Two threads that hold one lock each and wait for the other one. -/
def stuck : Nat → Thread Operation := two (.running .onEnter 1 true) (.running .onClose 1 true)

theorem stuck_reached :
  Relation.ReflTransGen AnyStep allIdle stuck
  := by
  obtain ⟨hstart, hask, hget⟩ := onEnter_steps
  obtain ⟨hstart', hask', hget'⟩ := @second_steps .onClose rfl
  have hwait : Step acts (two (.running .onEnter 1 false) (.running .onClose 1 false)) (.request 0)
      (two (.running .onEnter 1 true) (.running .onClose 1 false)) :=
    step_first (.request rfl rfl)
  have hwait' : Step acts (two (.running .onEnter 1 true) (.running .onClose 1 false)) (.request 1)
      stuck :=
    step_second (.request rfl rfl)
  rw [← two_idle]
  exact .tail (.tail (.tail (.tail (.tail (.tail (.tail (.single ⟨_, hstart⟩) ⟨_, hask⟩)
    ⟨_, hget⟩) ⟨_, hstart'⟩) ⟨_, hask'⟩) ⟨_, hget'⟩) ⟨_, hwait⟩) ⟨_, hwait'⟩

theorem stuck_forever {σ : Nat → Thread Operation} (h : Relation.ReflTransGen AnyStep stuck σ) :
  σ 0 = stuck 0 ∧ σ 1 = stuck 1
  := by
  induction h with
  | refl => exact ⟨rfl, rfl⟩
  | @tail σ σ' _ hstep ih =>
    obtain ⟨e, hstep⟩ := hstep
    obtain ⟨hfirst, hsecond⟩ := ih
    have hspans : (LockId.spans, Mode.write) ∈ (σ 1).held acts := by
      rw [hsecond]
      decide
    have hstacks : (LockId.threadStacks, Mode.write) ∈ (σ 0).held acts := by
      rw [hfirst]
      decide
    constructor
    · rw [← hfirst]
      apply hstep.blocked hfirst rfl hspans (by decide)
    · rw [← hsecond]
      apply hstep.blocked hsecond rfl hstacks (by decide)

theorem cycle_stuck {σ : Nat → Thread Operation} (h : σ 0 = stuck 0 ∧ σ 1 = stuck 1) :
  Cycle acts σ
  := by
  have hfirst : WaitsOn acts σ 0 1 := by
    refine ⟨.spans, ⟨.onEnter, 1, .read, h.1, rfl⟩, .write, ?_⟩
    rw [h.2]
    decide
  have hsecond : WaitsOn acts σ 1 0 := by
    refine ⟨.threadStacks, ⟨.onClose, 1, .write, h.2, rfl⟩, .write, ?_⟩
    rw [h.1]
    decide
  exact ⟨0, .tail (.single hfirst) hsecond⟩

/-- An `on_enter` and an `on_close` of two threads can come to wait for each other, and then they do
so for ever. -/
theorem not_deadlockFree :
  ∃ σ : Nat → Thread Operation, Relation.ReflTransGen AnyStep allIdle σ
    ∧ ∀ σ', Relation.ReflTransGen AnyStep σ σ' → Cycle acts σ'
  := by
  use stuck, stuck_reached
  intro σ' h
  apply cycle_stuck (stuck_forever h)

/-- An `on_enter` that holds the lock of the stacks and waits for the one of the spans, which an
`on_new_span` holds. -/
theorem deadlockFree_onEnter :
  WaitsOn acts (two (.running .onEnter 1 true) (.running .onNewSpan 1 false)) 0 1
    ∧ ¬Cycle acts (two (.running .onEnter 1 true) (.running .onNewSpan 1 false))
  := by
  obtain ⟨hstart, hask, hget⟩ := onEnter_steps
  obtain ⟨hstart', hask', hget'⟩ := @second_steps .onNewSpan rfl
  have hwait : Step acts (two (.running .onEnter 1 false) (.running .onNewSpan 1 false))
      (.request 0) (two (.running .onEnter 1 true) (.running .onNewSpan 1 false)) :=
    step_first (.request rfl rfl)
  constructor
  · exact ⟨.spans, ⟨.onEnter, 1, .read, rfl, rfl⟩, .write, List.mem_singleton.mpr rfl⟩
  · apply deadlockFree
    rw [← two_idle]
    refine .tail (.tail (.tail (.tail (.tail (.tail (.single
      ⟨.start 0 .onEnter, ⟨?_, ?_⟩, hstart⟩) ⟨.request 0, trivial, hask⟩)
      ⟨.grant 0, trivial, hget⟩) ⟨.start 1 .onNewSpan, ⟨?_, ?_⟩, hstart'⟩)
      ⟨.request 1, trivial, hask'⟩) ⟨.grant 1, trivial, hget'⟩) ⟨.request 0, trivial, hwait⟩
    · rintro - ⟨t, op, pc, waiting, hrunning, -⟩
      rw [two_idle] at hrunning
      cases hrunning
    · rintro (h | h) <;> cases h
    · rintro ⟨⟩
    · rintro (h | h) <;> cases h

end FdTracing

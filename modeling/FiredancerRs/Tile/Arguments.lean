import FiredancerRs.Lib.Runs
import FiredancerRs.Tile.Tile

/-!
# The arguments of a task

`execute_task` step by step, next to the task that it starts. The strings of the arguments and the
array of their addresses are locals of `execute_task`, which frees them when it returns; the task
has the address of the array only, and reads it whenever it likes. A task that reads nothing after
`execute_task` has begun to drop its locals finds everything allocated (`arguments_live`), and after
`execute_task` has returned each read fails (`faults_returned`).
-/

namespace FdTile.Arguments

/-- What is in an allocated block: the bytes of a string, or the addresses in an array, with null as
the last one. -/
inductive Block where
  | string (bytes : List UInt8)
  | array (pointers : List (Option Nat))
deriving DecidableEq, Repr

/-- How far `execute_task` is: it has still to make the strings of some arguments, to make the
array, to dispatch the task, to return what it has from the dispatch, or to free what its locals
own. -/
inductive Stage where
  | checks
  | strings (rest : List (List UInt8)) (cStrings : List Nat)
  | array (cStrings : List Nat)
  | dispatch (cStrings : List Nat) (cArgs : Nat)
  | dispatched (result : Except TileError Nat) (cStrings : List Nat) (cArgs : Nat)
  | drops (result : Except TileError Nat) (blocks : List Nat)
  | returned (result : Except TileError Nat)

/-- The task: the arguments it was started with, the addresses that it has read from the array, and
whether it is done. -/
structure Task where
  argc : Nat
  argv : Nat
  known : List Nat
  done : Bool
deriving DecidableEq, Repr

/-- The call and the task, the memory that they share, and the addresses that the task has read when
they were not allocated. -/
structure State where
  stage : Stage
  task : Option Task
  heap : Nat → Option Block
  faults : List Nat

/-- One step of `execute_task`, with the address that an allocation or `fd_tile_exec_new` returns; a
read of an entry of the array or of a string by the task; or the end of the task. -/
inductive Event where
  | dispatcher (answer : Nat)
  | readArgv (i : Nat)
  | readString (pointer : Nat)
  | finish

section Steps

variable (info : TileInfo) (tileIdx : Nat) (args : List (List UInt8))

/-- The call begins. -/
def start : State where
  stage := .checks
  task := none
  heap _ := none
  faults := []

/-- One step of `execute_task`. Locals are dropped in the reverse order of their declaration, so the
strings come before the array. -/
def dispatcher (answer : Nat) (σ : State) : State :=
  match σ.stage with
  | .checks =>
    match info.check tileIdx with
    | .error e => { σ with stage := .returned (.error e) }
    | .ok () => { σ with stage := .strings (taskName :: args) [] }
  | .strings [] cStrings => { σ with stage := .array cStrings }
  | .strings (arg :: rest) cStrings =>
    match cString arg with
    | .error e => { σ with stage := .drops (.error e) cStrings }
    | .ok bytes =>
      { σ with
        stage := .strings rest (cStrings ++ [answer])
        heap := Function.update σ.heap answer (some (.string bytes)) }
  | .array cStrings =>
    { σ with
      stage := .dispatch cStrings answer
      heap := Function.update σ.heap answer (some (.array (cStrings.map some ++ [none]))) }
  | .dispatch cStrings cArgs =>
    if answer = 0 then
      { σ with stage := .dispatched (.error .dispatchFailed) cStrings cArgs }
    else
      { σ with
        stage := .dispatched (.ok answer) cStrings cArgs
        task := some { argc := cStrings.length, argv := cArgs, known := [], done := false } }
  | .dispatched result cStrings cArgs => { σ with stage := .drops result (cStrings ++ [cArgs]) }
  | .drops result (block :: blocks) =>
    { σ with
      stage := .drops result blocks
      heap := Function.update σ.heap block none }
  | .drops result [] => { σ with stage := .returned result }
  | .returned _ => σ

/-- The task reads an entry of the array. An entry that is an address is known from then on. -/
def readArgv (i : Nat) (task : Task) (σ : State) : State :=
  match σ.heap task.argv with
  | some (.array pointers) =>
    let known := (pointers.getD i none).toList ++ task.known
    { σ with task := some { task with known := known } }
  | _ => { σ with faults := task.argv :: σ.faults }

/-- The task reads a string whose address it knows. -/
def readString (pointer : Nat) (σ : State) : State :=
  match σ.heap pointer with
  | some (.string _) => σ
  | _ => { σ with faults := pointer :: σ.faults }

/-- The effect of an event. Entries behind null, addresses that the task does not know, and anything
when it is done are not read. -/
def step (σ : State) : Event → State
  | .dispatcher answer => dispatcher info tileIdx args answer σ
  | .readArgv i =>
    match σ.task with
    | some task => if task.done = false ∧ i ≤ task.argc then readArgv i task σ else σ
    | none => σ
  | .readString pointer =>
    match σ.task with
    | some task => if task.done = false ∧ pointer ∈ task.known then readString pointer σ else σ
    | none => σ
  | .finish => { σ with task := σ.task.map fun task => { task with done := true } }

/-- The effect of a run. -/
abbrev run : List Event → State → State := Runs.run (step info tileIdx args)

/-- Every event of a run meets a condition in the state in which it is made. -/
abbrev Along : (State → Event → Prop) → List Event → State → Prop :=
  Runs.Along (step info tileIdx args)

end Steps

variable {info : TileInfo} {tileIdx : Nat} {args : List (List UInt8)} {σ : State}

/-- The events of the task leave `execute_task` where it is, and the heap as it is. -/
theorem step_of_not_dispatcher {event : Event} (h : ∀ answer, event ≠ .dispatcher answer) :
  (step info tileIdx args σ event).stage = σ.stage ∧ (step info tileIdx args σ event).heap = σ.heap
  := by
  cases event with
  | dispatcher answer => exact absurd rfl (h answer)
  | readArgv i =>
    simp only [step, readArgv]
    repeat' split
    all_goals exact ⟨rfl, rfl⟩
  | readString pointer =>
    simp only [step, readString]
    repeat' split
    all_goals exact ⟨rfl, rfl⟩
  | finish => exact ⟨rfl, rfl⟩

/-! ### What `execute_task` returns -/

/-- What the dispatch has to give when the preparation fails or is done. -/
def Follows (prepared : Except TileError Unit) (result : Except TileError Nat) : Prop :=
  match prepared with
  | .error e => result = .error e
  | .ok () => result = .error .dispatchFailed ∨ ∃ handle ≠ 0, result = .ok handle

/-- Where `execute_task` is says how the preparation goes on, or what follows from it. -/
def Agrees (prepared : Except TileError Unit) (σ : State) : Prop :=
  match σ.stage with
  | .checks => True
  | .strings rest _ => prepared = (rest.mapM cString).map fun _ => ()
  | .array _ | .dispatch _ _ => prepared = .ok ()
  | .dispatched result _ _ | .drops result _ | .returned result => Follows prepared result

theorem mapM_cString_cons {arg : List UInt8} {rest : List (List UInt8)} :
  ((arg :: rest).mapM cString).map (fun _ => ()) =
    match cString arg with
    | .error e => .error e
    | .ok _ => (rest.mapM cString).map fun _ => ()
  := by
  rw [List.mapM_cons]
  cases cString arg with
  | error e => rfl
  | ok bytes => cases rest.mapM cString <;> rfl

theorem Agrees.dispatcher {answer : Nat}
    (h : Agrees ((prepare info tileIdx args).map fun _ => ()) σ) :
  Agrees ((prepare info tileIdx args).map fun _ => ())
    (Arguments.dispatcher info tileIdx args answer σ)
  := by
  obtain ⟨stage, task, heap, faults⟩ := σ
  cases stage with
  | checks =>
    simp only [Arguments.dispatcher, prepare]
    cases info.check tileIdx <;> rfl
  | strings rest cStrings =>
    cases rest with
    | nil => exact h
    | cons arg rest =>
      simp only [Agrees, mapM_cString_cons] at h
      simp only [Arguments.dispatcher]
      cases hstring : cString arg with
      | error e =>
        rw [h, hstring]
        rfl
      | ok bytes =>
        rw [h, hstring]
        rfl
  | array cStrings => exact h
  | dispatch cStrings cArgs =>
    have hok : (prepare info tileIdx args).map (fun _ => ()) = .ok () := h
    simp only [Arguments.dispatcher, hok]
    split
    case isTrue => exact Or.inl rfl
    case isFalse hanswer => exact Or.inr ⟨answer, hanswer, rfl⟩
  | dispatched result cStrings cArgs => exact h
  | drops result blocks => cases blocks <;> exact h
  | returned result => exact h

/-- The task does not move `execute_task`. -/
theorem Agrees.step (h : Agrees ((prepare info tileIdx args).map fun _ => ()) σ) (event : Event) :
  Agrees ((prepare info tileIdx args).map fun _ => ()) (Arguments.step info tileIdx args σ event)
  := by
  by_cases hevent : ∃ answer, event = .dispatcher answer
  · obtain ⟨answer, rfl⟩ := hevent
    apply h.dispatcher
  · obtain ⟨hstage, -⟩ := step_of_not_dispatcher fun answer heq => hevent ⟨answer, heq⟩
    rwa [Agrees, hstage]

/-- Step by step, whatever the task does, `execute_task` returns the error of the preparation, and
otherwise a handle or that the dispatch has failed. -/
theorem follows_returned {events : List Event} {result : Except TileError Nat}
    (hreturned : (run info tileIdx args events start).stage = .returned result) :
  Follows ((prepare info tileIdx args).map fun _ => ()) result
  := by
  have hagrees : Agrees ((prepare info tileIdx args).map fun _ => ())
      (run info tileIdx args events start) :=
    Runs.run_keeps (fun _ event h => h.step event) trivial
  rw [Agrees, hreturned] at hagrees
  apply hagrees

/-! ### Reads before the locals are dropped -/

/-- The next step of `execute_task` asks for memory. -/
def Stage.allocates : Stage → Bool
  | .strings (_ :: _) _ | .array _ => true
  | _ => false

/-- `execute_task` has begun to drop its locals. -/
def Stage.dropping : Stage → Bool
  | .drops _ _ | .returned _ => true
  | _ => false

/-- Memory that is allocated was not in use. -/
def Answered (σ : State) : Event → Prop
  | .dispatcher answer => σ.stage.allocates = true → σ.heap answer = none
  | _ => True

/-- The task reads only while `execute_task` has not begun to drop its locals. -/
def ReadsEarly (σ : State) : Event → Prop
  | .readArgv _ | .readString _ => σ.stage.dropping = false
  | _ => True

/-- The strings are allocated. -/
def Strings (heap : Nat → Option Block) (cStrings : List Nat) : Prop :=
  ∀ p ∈ cStrings, ∃ bytes, heap p = some (.string bytes)

/-- The array of the strings is allocated. -/
def ArrayOf (heap : Nat → Option Block) (cStrings : List Nat) (cArgs : Nat) : Prop :=
  heap cArgs = some (.array (cStrings.map some ++ [none]))

/-- What holds of the memory and the task until the locals are dropped. -/
def Allocated (heap : Nat → Option Block) (task : Option Task) : Stage → Prop
  | .checks => task = none
  | .strings _ cStrings | .array cStrings => task = none ∧ Strings heap cStrings
  | .dispatch cStrings cArgs => task = none ∧ Strings heap cStrings ∧ ArrayOf heap cStrings cArgs
  | .dispatched _ cStrings cArgs =>
    Strings heap cStrings ∧ ArrayOf heap cStrings cArgs
      ∧ ∀ t ∈ task, t.argv = cArgs ∧ t.known ⊆ cStrings
  | .drops _ _ | .returned _ => True

/-- What holds after every run in which the task reads early. -/
structure Inv (σ : State) : Prop where
  faults : σ.faults = []
  allocated : Allocated σ.heap σ.task σ.stage

theorem Strings.update {heap : Nat → Option Block} {cStrings : List Nat} (h : Strings heap cStrings)
    {answer : Nat} (hfresh : heap answer = none) (block : Block) :
  Strings (Function.update heap answer (some block)) cStrings
  := by
  intro p hp
  obtain ⟨bytes, hbytes⟩ := h p hp
  use bytes
  rw [Function.update_of_ne _, hbytes]
  rintro rfl
  rw [hfresh] at hbytes
  cases hbytes

theorem Strings.append {heap : Nat → Option Block} {cStrings : List Nat} (h : Strings heap cStrings)
    {answer : Nat} (hfresh : heap answer = none) (bytes : List UInt8) :
  Strings (Function.update heap answer (some (.string bytes))) (cStrings ++ [answer])
  := by
  intro p hp
  rcases List.mem_append.mp hp with hp | hp
  · apply h.update hfresh _ p hp
  · use bytes
    rw [List.mem_singleton.mp hp, Function.update_self]

/-- What one step of `execute_task` keeps. -/
theorem Inv.dispatcher (h : Inv σ) {answer : Nat}
    (hanswered : σ.stage.allocates = true → σ.heap answer = none) :
  Inv (Arguments.dispatcher info tileIdx args answer σ)
  := by
  obtain ⟨stage, task, heap, faults⟩ := σ
  obtain ⟨hfaults, hallocated⟩ := h
  cases stage with
  | checks =>
    simp only [Arguments.dispatcher]
    split
    · exact ⟨hfaults, trivial⟩
    · exact ⟨hfaults, hallocated, fun p hp => nomatch hp⟩
  | strings rest cStrings =>
    obtain ⟨htask, hstrings⟩ := hallocated
    cases rest with
    | nil => exact ⟨hfaults, htask, hstrings⟩
    | cons arg rest =>
      simp only [Arguments.dispatcher]
      split
      · exact ⟨hfaults, trivial⟩
      · exact ⟨hfaults, htask, hstrings.append (hanswered rfl) _⟩
  | array cStrings =>
    obtain ⟨htask, hstrings⟩ := hallocated
    exact ⟨hfaults, htask, hstrings.update (hanswered rfl) _, Function.update_self ..⟩
  | dispatch cStrings cArgs =>
    obtain ⟨htask, hstrings, harray⟩ := hallocated
    simp only [Arguments.dispatcher]
    split
    · refine ⟨hfaults, hstrings, harray, ?_⟩
      rintro t rfl
      cases htask
    · refine ⟨hfaults, hstrings, harray, ?_⟩
      intro t ht
      rw [← Option.some.inj ht]
      exact ⟨rfl, List.nil_subset _⟩
  | dispatched result cStrings cArgs => exact ⟨hfaults, trivial⟩
  | drops result blocks => cases blocks <;> exact ⟨hfaults, trivial⟩
  | returned result => exact ⟨hfaults, trivial⟩

/-- A task is running only when it has been dispatched. -/
theorem Allocated.dispatched {heap : Nat → Option Block} {task : Task} {stage : Stage}
    (h : Allocated heap (some task) stage) (hearly : stage.dropping = false) :
  ∃ result cStrings, stage = .dispatched result cStrings task.argv
    ∧ Strings heap cStrings ∧ ArrayOf heap cStrings task.argv ∧ task.known ⊆ cStrings
  := by
  cases stage with
  | checks => cases h
  | strings | array | dispatch => cases h.1
  | dispatched result cStrings cArgs =>
    obtain ⟨hstrings, harray, htask⟩ := h
    obtain ⟨rfl, hknown⟩ := htask task rfl
    exact ⟨result, cStrings, rfl, hstrings, harray, hknown⟩
  | drops | returned => cases hearly

/-- What the task reads from the array is the address of a string or null. -/
theorem getD_subset {cStrings known : List Nat} (hknown : known ⊆ cStrings) (i : Nat) :
  ((cStrings.map some ++ [none]).getD i none).toList ++ known ⊆ cStrings
  := by
  refine List.append_subset.mpr ⟨?_, hknown⟩
  intro p hp
  rw [Option.mem_toList, List.getD_eq_getElem?_getD] at hp
  cases hget : (cStrings.map some ++ [none])[i]? with
  | none =>
    rw [hget] at hp
    cases hp
  | some entry =>
    rw [hget] at hp
    have hmem := List.mem_of_getElem? hget
    rw [Option.getD_some] at hp
    subst hp
    simpa using hmem

theorem Inv.readArgv {task : Task} (h : Inv σ) (htask : σ.task = some task)
    (hearly : σ.stage.dropping = false) (i : Nat) :
  Inv (Arguments.readArgv i task σ)
  := by
  obtain ⟨stage, task', heap, faults⟩ := σ
  subst htask
  obtain ⟨hfaults, hallocated⟩ := h
  obtain ⟨result, cStrings, rfl, hstrings, harray, hknown⟩ := hallocated.dispatched hearly
  rw [Arguments.readArgv, harray]
  refine ⟨hfaults, hstrings, harray, ?_⟩
  intro t ht
  rw [← Option.some.inj ht]
  exact ⟨rfl, getD_subset hknown i⟩

theorem Inv.readString {task : Task} (h : Inv σ) (htask : σ.task = some task)
    (hearly : σ.stage.dropping = false) {pointer : Nat} (hpointer : pointer ∈ task.known) :
  Inv (Arguments.readString pointer σ)
  := by
  have hallocated := h.allocated
  rw [htask] at hallocated
  obtain ⟨_, cStrings, -, hstrings, -, hknown⟩ := hallocated.dispatched hearly
  obtain ⟨bytes, hbytes⟩ := hstrings pointer (hknown hpointer)
  rw [Arguments.readString, hbytes]
  apply h

/-- The end of the task changes nothing of this. -/
theorem Allocated.finish {heap : Nat → Option Block} {task : Option Task} {stage : Stage}
    (h : Allocated heap task stage) :
  Allocated heap (task.map fun task => { task with done := true }) stage
  := by
  cases stage with
  | checks =>
    obtain rfl : task = none := h
    rfl
  | strings rest cStrings | array cStrings =>
    obtain ⟨rfl, hstrings⟩ := h
    exact ⟨rfl, hstrings⟩
  | dispatch cStrings cArgs =>
    obtain ⟨rfl, hmemory⟩ := h
    exact ⟨rfl, hmemory⟩
  | dispatched result cStrings cArgs =>
    obtain ⟨hstrings, harray, htask⟩ := h
    refine ⟨hstrings, harray, ?_⟩
    intro t ht
    obtain ⟨t', ht', rfl⟩ := Option.map_eq_some_iff.mp ht
    apply htask t' ht'
  | drops | returned => trivial

/-- What one event keeps. -/
theorem Inv.step (h : Inv σ) {event : Event} (hanswered : Answered σ event)
    (hearly : ReadsEarly σ event) :
  Inv (Arguments.step info tileIdx args σ event)
  := by
  cases event with
  | dispatcher answer => exact h.dispatcher hanswered
  | readArgv i =>
    simp only [Arguments.step]
    split
    case h_1 task htask =>
      split
      · apply h.readArgv htask hearly i
      · apply h
    case h_2 => exact h
  | readString pointer =>
    simp only [Arguments.step]
    split
    case h_1 task htask =>
      split
      case isTrue hread => exact h.readString htask hearly hread.2
      case isFalse => exact h
    case h_2 => exact h
  | finish => exact ⟨h.faults, h.allocated.finish⟩

/-- A task that reads nothing after `execute_task` has begun to drop its locals reads only what is
allocated. -/
theorem arguments_live {events : List Event}
    (hanswered : Along info tileIdx args Answered events start)
    (hearly : Along info tileIdx args ReadsEarly events start) :
  (run info tileIdx args events start).faults = []
  := by
  have hstart : Inv start := ⟨rfl, rfl⟩
  have hinv := (hanswered.and hearly).keeps
    (fun σ event h hevent => h.step hevent.1 hevent.2) hstart
  apply hinv.faults

/-! ### Reads after `execute_task` has returned -/

/-- What the locals of `execute_task` own. -/
def Stage.locals : Stage → List Nat
  | .checks | .returned _ => []
  | .strings _ cStrings | .array cStrings => cStrings
  | .dispatch cStrings cArgs | .dispatched _ cStrings cArgs => cStrings ++ [cArgs]
  | .drops _ blocks => blocks

/-- Nothing is allocated but some blocks. -/
def OnlyBlocks (heap : Nat → Option Block) (blocks : List Nat) : Prop :=
  ∀ p, heap p ≠ none → p ∈ blocks

theorem OnlyBlocks.allocate {heap : Nat → Option Block} {blocks : List Nat}
    (h : OnlyBlocks heap blocks)
    (answer : Nat) (block : Block) :
  OnlyBlocks (Function.update heap answer (some block)) (blocks ++ [answer])
  := by
  intro p hp
  rw [List.mem_append, List.mem_singleton]
  by_cases heq : p = answer
  · exact .inr heq
  · rw [Function.update_of_ne heq] at hp
    exact .inl (h p hp)

theorem OnlyBlocks.free {heap : Nat → Option Block} {block : Nat} {blocks : List Nat}
    (h : OnlyBlocks heap (block :: blocks)) :
  OnlyBlocks (Function.update heap block none) blocks
  := by
  intro p hp
  by_cases heq : p = block
  · rw [heq, Function.update_self] at hp
    exact absurd rfl hp
  · rw [Function.update_of_ne heq] at hp
    apply List.mem_of_ne_of_mem heq (h p hp)

/-- Nothing is allocated but what the locals own. -/
def Owned (σ : State) : Prop := OnlyBlocks σ.heap σ.stage.locals

theorem Owned.dispatcher {answer : Nat} (h : Owned σ) :
  Owned (Arguments.dispatcher info tileIdx args answer σ)
  := by
  obtain ⟨stage, task, heap, faults⟩ := σ
  cases stage with
  | checks =>
    simp only [Arguments.dispatcher]
    split <;> exact h
  | strings rest cStrings =>
    cases rest with
    | nil => exact h
    | cons arg rest =>
      simp only [Arguments.dispatcher]
      split
      · apply h
      · apply OnlyBlocks.allocate h _ _
  | array cStrings => exact OnlyBlocks.allocate h _ _
  | dispatch cStrings cArgs =>
    simp only [Arguments.dispatcher]
    split <;> exact h
  | dispatched result cStrings cArgs => exact h
  | drops result blocks =>
    cases blocks with
    | nil => exact h
    | cons block blocks => exact OnlyBlocks.free h
  | returned result => exact h

theorem Owned.step (h : Owned σ) (event : Event) :
  Owned (Arguments.step info tileIdx args σ event)
  := by
  by_cases hevent : ∃ answer, event = .dispatcher answer
  · obtain ⟨answer, rfl⟩ := hevent
    apply h.dispatcher
  · obtain ⟨hstage, hheap⟩ := step_of_not_dispatcher fun answer heq => hevent ⟨answer, heq⟩
    rwa [Owned, hstage, hheap]

theorem owned_run {events : List Event} :
  Owned (run info tileIdx args events start)
  := Runs.run_keeps (fun _ event h => h.step event) fun _ hp => absurd rfl hp

/-- When `execute_task` has returned, whatever the task reads is freed. -/
theorem faults_returned {events : List Event} {result : Except TileError Nat} {task : Task}
    (hreturned : (run info tileIdx args events start).stage = .returned result)
    (htask : (run info tileIdx args events start).task = some task) (hdone : task.done = false) :
  (∀ i ≤ task.argc,
      (step info tileIdx args (run info tileIdx args events start) (.readArgv i)).faults ≠ [])
    ∧ ∀ p ∈ task.known,
      (step info tileIdx args (run info tileIdx args events start) (.readString p)).faults ≠ []
  := by
  have howned := @owned_run info tileIdx args events
  rw [Owned, hreturned] at howned
  have hfree : ∀ p, (run info tileIdx args events start).heap p = none := by
    intro p
    by_contra hp
    apply List.not_mem_nil (howned p hp)
  constructor
  · intro i hi
    simp [step, htask, hdone, hi, readArgv, hfree]
  · intro p hp
    simp [step, htask, hdone, hp, readString, hfree]

/-! ### A task that reads late -/

/-- The steps of an `execute_task` with one argument, with an address for each of the two strings,
for the array and for the handle. -/
def returning : List Event :=
  [.dispatcher 0, .dispatcher 16, .dispatcher 32, .dispatcher 0, .dispatcher 48, .dispatcher 4096,
    .dispatcher 0, .dispatcher 0, .dispatcher 0, .dispatcher 0, .dispatcher 0]

/-- The task is started with its arguments, `execute_task` returns, and the first read of the task
is of memory that is freed. -/
theorem not_arguments_live :
  (run ⟨0, 4⟩ 1 [[120]] returning start).stage = .returned (.ok 4096)
    ∧ (run ⟨0, 4⟩ 1 [[120]] (returning ++ [.readArgv 0]) start).faults = [48]
  := ⟨rfl, rfl⟩

theorem arguments_live_early :
  (run ⟨0, 4⟩ 1 [[120]] (returning.take 6 ++ [.readArgv 1, .readString 32, .finish]
    ++ returning.drop 6) start).faults = []
  := by
  apply arguments_live
  · refine ⟨nofun, fun _ => rfl, fun _ => rfl, nofun, fun _ => rfl, nofun, trivial, trivial, trivial,
      nofun, nofun, nofun, nofun, nofun, trivial⟩
  · exact ⟨trivial, trivial, trivial, trivial, trivial, trivial, rfl, rfl, trivial, trivial, trivial,
      trivial, trivial, trivial, trivial⟩

end FdTile.Arguments

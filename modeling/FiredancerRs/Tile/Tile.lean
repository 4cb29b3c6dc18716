import Mathlib.Logic.Function.Basic

/-!
# Tiles

The dispatch of a task to a tile, and the handle of its execution. The library runs a task on a tile
that is idle; the tile is busy with it until the execution is deleted, and a delete waits until the
task is done. A handle that is dropped or waited for deletes its execution, and `try_result` forgets
the handle of a task that is not done.
-/

namespace FdTile

/-- The errors of `TileError` that are returned. -/
inductive TileError where
  | invalidTileIndex (idx : Nat)
  | dispatchFailed
  | invalidArguments
  | cannotDispatchToSelf
  | cannotDispatchToTileZero
  | failedOnWait
deriving DecidableEq, Repr

/-- `TaskResult` -/
inductive TaskResult where
  | success (returnCode : Int)
  | error (e : TileError)
deriving DecidableEq, Repr

/-- `TileInfo`, of the tile that dispatches. -/
structure TileInfo where
  idx : Nat
  count : Nat
deriving DecidableEq, Repr

/-- How a task ended: its return code, and whether the tile failed. -/
structure Outcome where
  returnCode : Int
  failed : Bool
deriving DecidableEq, Repr

/-- What a tile does. An execution has an identity, and an outcome when its task is done. -/
inductive TileState where
  | idle
  | busy (id : Nat) (outcome : Option Outcome)
deriving DecidableEq, Repr

/-- The tiles, the executions that have been deleted, and the next identity. -/
structure Tiles where
  state : Nat → TileState
  deleted : List Nat
  nextId : Nat

/-- `TaskExecution`: the tile, and the identity of the execution. -/
structure TaskExecution where
  tileIdx : Nat
  id : Nat
deriving DecidableEq, Repr

namespace Tiles

/-- All tiles are idle. -/
def idle : Tiles where
  state _ := .idle
  deleted := []
  nextId := 0

/-- `fd_tile_exec_new`. It returns null when the tile is not idle. -/
def execNew (tileIdx : Nat) (tiles : Tiles) : Option TaskExecution × Tiles :=
  match tiles.state tileIdx with
  | .busy _ _ => (none, tiles)
  | .idle =>
    (some { tileIdx := tileIdx, id := tiles.nextId },
      { tiles with
        state := Function.update tiles.state tileIdx (.busy tiles.nextId none)
        nextId := tiles.nextId + 1 })

/-- The task of a tile is done. -/
def finish (tileIdx : Nat) (outcome : Outcome) (tiles : Tiles) : Tiles :=
  match tiles.state tileIdx with
  | .busy id none =>
    { tiles with state := Function.update tiles.state tileIdx (.busy id (some outcome)) }
  | _ => tiles

/-- `fd_tile_exec_done` -/
def execDone (e : TaskExecution) (tiles : Tiles) : Bool :=
  match tiles.state e.tileIdx with
  | .busy _ none => false
  | _ => true

/-- `fd_tile_exec_delete`. There is nothing yet while it waits for the task. -/
def execDelete (e : TaskExecution) (tiles : Tiles) : Option (Outcome × Tiles) :=
  match tiles.state e.tileIdx with
  | .busy _ none => none
  | .busy id (some outcome) =>
    some (outcome,
      { tiles with
        state := Function.update tiles.state e.tileIdx .idle
        deleted := id :: tiles.deleted })
  | .idle => some ({ returnCode := 0, failed := false }, tiles)

end Tiles

namespace TaskExecution

/-- `TaskExecution::new`: null is no handle. -/
def new (handle : Option TaskExecution) : Except TileError TaskExecution :=
  match handle with
  | some e => .ok e
  | none => .error .dispatchFailed

/-- `is_done` -/
def isDone (e : TaskExecution) (tiles : Tiles) : Bool := tiles.execDone e

/-- `wait` -/
def wait (e : TaskExecution) (tiles : Tiles) : Option (TaskResult × Tiles) :=
  (tiles.execDelete e).map fun (outcome, tiles) =>
    (if outcome.failed then .error .failedOnWait else .success outcome.returnCode, tiles)

/-- `try_result`. The handle of a task that is not done is forgotten. -/
def tryResult (e : TaskExecution) (tiles : Tiles) : Option (Option TaskResult × Tiles) :=
  if e.isDone tiles then
    (e.wait tiles).map fun (result, tiles) => (some result, tiles)
  else
    some (none, tiles)

/-- `TaskExecution::drop` -/
def drop (e : TaskExecution) (tiles : Tiles) : Option Tiles := (tiles.execDelete e).map (·.2)

end TaskExecution

/-! ### Dispatch -/

/-- The checks of `execute_task`. -/
def TileInfo.check (info : TileInfo) (tileIdx : Nat) : Except TileError Unit :=
  if info.count ≤ tileIdx then
    .error (.invalidTileIndex tileIdx)
  else if tileIdx = info.idx then
    .error .cannotDispatchToSelf
  else if tileIdx = 0 then
    .error .cannotDispatchToTileZero
  else
    .ok ()

/-- `CString::new`: the bytes of a string, with a zero behind and none among them. -/
def cString (bytes : List UInt8) : Except TileError (List UInt8) :=
  if 0 ∈ bytes then .error .invalidArguments else .ok (bytes ++ [0])

/-- The bytes of `"task"`, the first argument of a task. -/
def taskName : List UInt8 := [116, 97, 115, 107]

/-- `execute_task` up to the dispatch, with the strings of the arguments. -/
def prepare (info : TileInfo) (tileIdx : Nat) (args : List (List UInt8)) :
    Except TileError (List (List UInt8)) :=
  match info.check tileIdx with
  | .error e => .error e
  | .ok () => (taskName :: args).mapM cString

/-- `execute_task` -/
def executeTask (info : TileInfo) (tileIdx : Nat) (args : List (List UInt8)) (tiles : Tiles) :
    Except TileError TaskExecution × Tiles :=
  match prepare info tileIdx args with
  | .error e => (.error e, tiles)
  | .ok _ =>
    let (handle, tiles) := tiles.execNew tileIdx
    (TaskExecution.new handle, tiles)

/-! ### What the tiles are busy with -/

/-- A tile is busy with an execution. -/
def Runs (state : Nat → TileState) (tileIdx id : Nat) : Prop :=
  ∃ outcome, state tileIdx = .busy id outcome

section Runs

variable {state : Nat → TileState} {tileIdx tileIdx' id : Nat} {outcome : Option Outcome}

theorem runs_update_idle :
  Runs (Function.update state tileIdx .idle) tileIdx' id ↔ tileIdx' ≠ tileIdx ∧ Runs state tileIdx' id
  := by
  rw [Runs, Function.update_apply]
  split
  case isTrue heq => simp [heq]
  case isFalse hne => simp [hne, Runs]

theorem runs_update_busy {id' : Nat} :
  Runs (Function.update state tileIdx (.busy id' outcome)) tileIdx' id
    ↔ tileIdx' = tileIdx ∧ id' = id ∨ tileIdx' ≠ tileIdx ∧ Runs state tileIdx' id
  := by
  rw [Runs, Function.update_apply]
  split
  case isTrue heq => simp [heq]
  case isFalse hne => simp [hne, Runs]

end Runs

namespace Tiles

variable {tiles tiles' : Tiles} {tileIdx tileIdx' id : Nat} {e : TaskExecution}
  {outcome : Outcome}

theorem execNew_of_idle (h : tiles.state tileIdx = .idle) :
  tiles.execNew tileIdx =
    (some { tileIdx := tileIdx, id := tiles.nextId },
      { tiles with
        state := Function.update tiles.state tileIdx (.busy tiles.nextId none)
        nextId := tiles.nextId + 1 })
  := by
  simp only [execNew, h]

theorem execNew_of_runs (h : Runs tiles.state tileIdx id) :
  tiles.execNew tileIdx = (none, tiles)
  := by
  obtain ⟨outcome, h⟩ := h
  simp only [execNew, h]

theorem runs_finish :
  Runs (tiles.finish tileIdx outcome).state tileIdx' id ↔ Runs tiles.state tileIdx' id
  := by
  rw [finish]
  split
  case h_1 id' hstate =>
    rw [runs_update_busy]
    by_cases heq : tileIdx' = tileIdx
    · simp [heq, Runs, hstate]
    · simp [heq]
  case h_2 => exact Iff.rfl

theorem deleted_finish :
  (tiles.finish tileIdx outcome).deleted = tiles.deleted
  := by
  rw [finish]
  split <;> rfl

theorem nextId_finish :
  (tiles.finish tileIdx outcome).nextId = tiles.nextId
  := by
  rw [finish]
  split <;> rfl

/-- A delete that returns has freed the tile. -/
theorem execDelete_of_runs (h : Runs tiles.state e.tileIdx e.id)
    (hdelete : tiles.execDelete e = some (outcome, tiles')) :
  tiles' =
    { tiles with
      state := Function.update tiles.state e.tileIdx .idle
      deleted := e.id :: tiles.deleted }
  := by
  obtain ⟨outcome', h⟩ := h
  cases outcome' with
  | none => simp [execDelete, h] at hdelete
  | some outcome' =>
    simp only [execDelete, h, Option.some.injEq, Prod.mk.injEq] at hdelete
    apply hdelete.2.symm

end Tiles

end FdTile

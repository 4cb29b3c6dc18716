import FiredancerRs.Lib.Runs
import FiredancerRs.Tile.Tile
import Mathlib.Data.List.Nodup
import Mathlib.Data.List.Perm.Basic

/-!
# Handles of executions

Runs of the calls on tiles and executions, with the tasks done at any time. A handle is live until
it is dropped, waited for, or given to `try_result`. Its execution should be deleted once, when the
handle is consumed, and then the tile takes a task again (`World.Sound`). A `try_result` on a task
that is not done forgets the handle, and nobody can free the tile any more. In a run without one,
every state is sound (`World.released`).
-/

namespace FdTile

/-- The tiles, the handles that are live, and those that were consumed. -/
structure World where
  tiles : Tiles
  live : List TaskExecution
  consumed : List TaskExecution

/-- A call, or the end of the task of a tile. The argument `i` says which live handle is meant. -/
inductive Event where
  | executeTask (info : TileInfo) (tileIdx : Nat) (args : List (List UInt8))
  | isDone (i : Nat)
  | tryResult (i : Nat)
  | wait (i : Nat)
  | drop (i : Nat)
  | finish (tileIdx : Nat) (outcome : Outcome)

namespace World

variable (w : World)

/-- All tiles are idle. -/
def start : World where
  tiles := .idle
  live := []
  consumed := []

/-- Consume a handle. -/
def consume (i : Nat) (e : TaskExecution) (tiles : Tiles) : World where
  tiles := tiles
  live := w.live.eraseIdx i
  consumed := e :: w.consumed

/-- The effect of an event. There is none of a call on a handle that there is not, nor of one that
waits for its task. -/
def step : Event → World
  | .executeTask info tileIdx args =>
    match FdTile.executeTask info tileIdx args w.tiles with
    | (.ok e, tiles) => { w with tiles := tiles, live := e :: w.live }
    | (.error _, tiles) => { w with tiles := tiles }
  | .isDone _ => w
  | .tryResult i =>
    match w.live[i]? with
    | none => w
    | some e =>
      match e.tryResult w.tiles with
      | none => w
      | some (_, tiles) => w.consume i e tiles
  | .wait i =>
    match w.live[i]? with
    | none => w
    | some e =>
      match e.wait w.tiles with
      | none => w
      | some (_, tiles) => w.consume i e tiles
  | .drop i =>
    match w.live[i]? with
    | none => w
    | some e =>
      match e.drop w.tiles with
      | none => w
      | some tiles => w.consume i e tiles
  | .finish tileIdx outcome => { w with tiles := w.tiles.finish tileIdx outcome }

/-- The effect of a run. -/
abbrev run : List Event → World → World := Runs.run step

/-- Every event of a run meets a condition in the state in which it is made. -/
abbrev Along : (World → Event → Prop) → List Event → World → Prop := Runs.Along step

/-- `try_result` is called only on a task that is done. -/
def Polled : Event → Prop
  | .tryResult i => ∀ e, w.live[i]? = some e → e.isDone w.tiles = true
  | _ => True

/-- No execution of a live handle has been deleted, each one whose handle was consumed has been
deleted once, and a tile that runs no task and has no live handle takes a task. -/
structure Sound : Prop where
  unreleased : ∀ e ∈ w.live, w.tiles.deleted.count e.id = 0
  releasedOnce : ∀ e ∈ w.consumed, w.tiles.deleted.count e.id = 1
  dispatches : ∀ tileIdx, (∀ id, w.tiles.state tileIdx ≠ .busy id none) →
    (∀ e ∈ w.live, e.tileIdx ≠ tileIdx) →
    ∀ info args strings, prepare info tileIdx args = .ok strings →
      ∃ e, (FdTile.executeTask info tileIdx args w.tiles).1 = .ok e

/-! ### The invariant -/

/-- What holds after every run that polls only what is done: the tiles that are busy are those of
the live handles. -/
structure Inv : Prop where
  held : ∀ e ∈ w.live, Runs w.tiles.state e.tileIdx e.id
  covered : ∀ tileIdx id, Runs w.tiles.state tileIdx id → { tileIdx := tileIdx, id := id } ∈ w.live
  nodup : (w.live.map (·.id)).Nodup
  fresh : ∀ e ∈ w.live, e.id < w.tiles.nextId
  freshDeleted : ∀ id ∈ w.tiles.deleted, id < w.tiles.nextId
  notDeleted : ∀ e ∈ w.live, e.id ∉ w.tiles.deleted
  releasedOnce : ∀ e ∈ w.consumed, w.tiles.deleted.count e.id = 1

variable {w} {e : TaskExecution} {tileIdx : Nat}

theorem Inv.start :
  start.Inv
  := by
  constructor <;> simp [World.start, Tiles.idle, Runs]

theorem Inv.sound (h : w.Inv) :
  w.Sound
  := by
  constructor
  case unreleased => exact fun e he => List.count_eq_zero_of_not_mem (h.notDeleted e he)
  case releasedOnce => exact h.releasedOnce
  case dispatches =>
    intro tileIdx hdone hnone info args strings hprepare
    have hidle : w.tiles.state tileIdx = .idle := by
      cases hstate : w.tiles.state tileIdx with
      | idle => rfl
      | busy id outcome => exact absurd rfl (hnone _ (h.covered tileIdx id ⟨outcome, hstate⟩))
    rw [executeTask, hprepare, Tiles.execNew_of_idle hidle]
    exact ⟨_, rfl⟩

/-- A task is dispatched to a tile that is idle. -/
theorem Inv.dispatch (h : w.Inv) (hidle : w.tiles.state tileIdx = .idle) :
  Inv
    { w with
      tiles := (w.tiles.execNew tileIdx).2
      live := { tileIdx := tileIdx, id := w.tiles.nextId } :: w.live }
  := by
  have hfree : ∀ e ∈ w.live, e.tileIdx ≠ tileIdx := by
    rintro e he rfl
    obtain ⟨outcome, hbusy⟩ := h.held e he
    rw [hidle] at hbusy
    cases hbusy
  rw [Tiles.execNew_of_idle hidle]
  constructor
  case held =>
    refine List.forall_mem_cons.mpr ⟨?_, ?_⟩
    · apply runs_update_busy.mpr (.inl ⟨rfl, rfl⟩)
    · exact fun e he => runs_update_busy.mpr (.inr ⟨hfree e he, h.held e he⟩)
  case covered =>
    intro tileIdx' id hruns
    rcases runs_update_busy.mp hruns with ⟨rfl, rfl⟩ | ⟨-, hruns⟩
    · apply List.mem_cons_self
    · apply List.mem_cons_of_mem _ (h.covered tileIdx' id hruns)
  case nodup =>
    refine List.nodup_cons.mpr ⟨?_, h.nodup⟩
    intro hmem
    obtain ⟨e, he, hid⟩ := List.mem_map.mp hmem
    apply Nat.ne_of_lt (h.fresh e he) hid
  case fresh =>
    refine List.forall_mem_cons.mpr ⟨?_, ?_⟩
    · apply Nat.lt_succ_self w.tiles.nextId
    · exact fun e he => Nat.lt_succ_of_lt (h.fresh e he)
  case freshDeleted => exact fun id hid => Nat.lt_succ_of_lt (h.freshDeleted id hid)
  case notDeleted =>
    refine List.forall_mem_cons.mpr ⟨?_, h.notDeleted⟩
    exact fun hmem => Nat.lt_irrefl _ (h.freshDeleted _ hmem)
  case releasedOnce => exact h.releasedOnce

/-- The task of a tile is done. -/
theorem Inv.finish (h : w.Inv) (outcome : Outcome) :
  Inv { w with tiles := w.tiles.finish tileIdx outcome }
  := by
  constructor
  case held => exact fun e he => Tiles.runs_finish.mpr (h.held e he)
  case covered => exact fun tileIdx' id hruns => h.covered tileIdx' id (Tiles.runs_finish.mp hruns)
  case nodup => exact h.nodup
  case fresh =>
    intro e he
    rw [Tiles.nextId_finish]
    apply h.fresh e he
  case freshDeleted =>
    rw [Tiles.nextId_finish, Tiles.deleted_finish]
    apply h.freshDeleted
  case notDeleted =>
    intro e he
    rw [Tiles.deleted_finish]
    apply h.notDeleted e he
  case releasedOnce =>
    intro e he
    rw [Tiles.deleted_finish]
    apply h.releasedOnce e he

/-- The execution of a handle is deleted. -/
theorem Inv.consume (h : w.Inv) {i : Nat} (hi : w.live[i]? = some e) {outcome : Outcome}
    {tiles : Tiles} (hdelete : w.tiles.execDelete e = some (outcome, tiles)) :
  (w.consume i e tiles).Inv
  := by
  have he := List.mem_of_getElem? hi
  have hsub := List.eraseIdx_sublist w.live i
  obtain ⟨hlt, hget⟩ := List.getElem?_eq_some_iff.mp hi
  have hperm : (e :: w.live.eraseIdx i).Perm w.live := by
    rw [← hget]
    apply List.getElem_cons_eraseIdx_perm hlt
  have hid := (List.nodup_cons.mp ((hperm.map (·.id)).nodup_iff.mpr h.nodup)).1
  have hother : ∀ e' ∈ w.live.eraseIdx i, e'.id ≠ e.id :=
    fun e' he' heq => hid (List.mem_map.mpr ⟨e', he', heq⟩)
  have htiles := Tiles.execDelete_of_runs (h.held e he) hdelete
  subst htiles
  constructor
  case held =>
    intro e' he'
    refine runs_update_idle.mpr ⟨?_, h.held e' (hsub.subset he')⟩
    intro htile
    obtain ⟨o, ho⟩ := h.held e he
    obtain ⟨o', ho'⟩ := h.held e' (hsub.subset he')
    rw [htile, ho] at ho'
    apply hother e' he' (TileState.busy.inj ho').1.symm
  case covered =>
    intro tileIdx' id hruns
    obtain ⟨hne, hruns⟩ := runs_update_idle.mp hruns
    have hmem := hperm.mem_iff.mpr (h.covered tileIdx' id hruns)
    rcases List.mem_cons.mp hmem with rfl | hmem
    · exact absurd rfl hne
    · apply hmem
  case nodup => exact h.nodup.sublist (hsub.map _)
  case fresh => exact fun e' he' => h.fresh e' (hsub.subset he')
  case freshDeleted => exact List.forall_mem_cons.mpr ⟨h.fresh e he, h.freshDeleted⟩
  case notDeleted =>
    intro e' he' hmem
    rcases List.mem_cons.mp hmem with heq | hmem
    · apply hother e' he' heq
    · exact h.notDeleted e' (hsub.subset he') hmem
  case releasedOnce =>
    have hnew := List.count_eq_zero_of_not_mem (h.notDeleted e he)
    have hone : (e.id :: w.tiles.deleted).count e.id = 1 := by rw [List.count_cons_self, hnew]
    have hothers : ∀ e' ∈ w.consumed, (e.id :: w.tiles.deleted).count e'.id = 1 := by
      intro e' he'
      have hold := h.releasedOnce e' he'
      have hne : e.id ≠ e'.id := by
        intro heq
        rw [← heq, hnew] at hold
        cases hold
      rw [List.count_cons_of_ne hne, hold]
    exact List.forall_mem_cons.mpr ⟨hone, hothers⟩

theorem Inv.wait (h : w.Inv) (i : Nat) :
  (w.step (.wait i)).Inv
  := by
  rw [step]
  cases hi : w.live[i]? with
  | none => exact h
  | some e =>
    simp only [TaskExecution.wait]
    cases hdelete : w.tiles.execDelete e with
    | none => exact h
    | some result => exact h.consume hi hdelete

theorem Inv.drop (h : w.Inv) (i : Nat) :
  (w.step (.drop i)).Inv
  := by
  rw [step]
  cases hi : w.live[i]? with
  | none => exact h
  | some e =>
    simp only [TaskExecution.drop]
    cases hdelete : w.tiles.execDelete e with
    | none => exact h
    | some result => exact h.consume hi hdelete

/-- A `try_result` on a task that is done is a `wait`. -/
theorem step_tryResult {i : Nat} (hpolled : w.Polled (.tryResult i)) :
  w.step (.tryResult i) = w.step (.wait i)
  := by
  rw [step, step]
  cases hi : w.live[i]? with
  | none => rfl
  | some e =>
    simp only [TaskExecution.tryResult, hpolled e hi, if_true]
    cases e.wait w.tiles <;> rfl

theorem Inv.executeTask (h : w.Inv) (info : TileInfo) (args : List (List UInt8)) :
  (w.step (.executeTask info tileIdx args)).Inv
  := by
  rw [step, FdTile.executeTask]
  cases hprepare : prepare info tileIdx args with
  | error e => exact h
  | ok strings =>
    cases hstate : w.tiles.state tileIdx with
    | idle =>
      have hdispatch := h.dispatch hstate
      rw [Tiles.execNew_of_idle hstate] at *
      apply hdispatch
    | busy id outcome =>
      rw [Tiles.execNew_of_runs ⟨outcome, hstate⟩]
      apply h

/-- What one event keeps. -/
theorem Inv.step (h : w.Inv) {event : Event} (hpolled : w.Polled event) :
  (w.step event).Inv
  := by
  cases event with
  | executeTask info tileIdx args => exact h.executeTask info args
  | isDone i => exact h
  | tryResult i =>
    rw [step_tryResult hpolled]
    apply h.wait i
  | wait i => exact h.wait i
  | drop i => exact h.drop i
  | finish tileIdx outcome => exact h.finish outcome

/-- Every run that polls only tasks that are done is sound. -/
theorem released {events : List Event} (hpolled : Along Polled events start) :
  (run events start).Sound
  := by
  have hinv := hpolled.keeps (fun w event h hevent => Inv.step h hevent) Inv.start
  apply hinv.sound

theorem released_tryResult :
  (run [.executeTask ⟨0, 4⟩ 1 [[120]], .finish 1 ⟨0, false⟩, .isDone 0, .tryResult 0] start).Sound
  := by
  apply released
  refine ⟨trivial, trivial, trivial, ?_, trivial⟩
  intro e he
  rw [← Option.some.inj he]
  rfl

/-- A task that is polled too early: its handle is gone, and when it is done the tile takes no task
any more. -/
theorem not_released :
  (run [.executeTask ⟨0, 4⟩ 1 [], .tryResult 0, .finish 1 ⟨0, false⟩] start).live = []
    ∧ (FdTile.executeTask ⟨0, 4⟩ 1 []
      (run [.executeTask ⟨0, 4⟩ 1 [], .tryResult 0, .finish 1 ⟨0, false⟩] start).tiles).1
      = .error .dispatchFailed
    ∧ ¬(run [.executeTask ⟨0, 4⟩ 1 [], .tryResult 0, .finish 1 ⟨0, false⟩] start).Sound
  := by
  refine ⟨rfl, rfl, fun h => ?_⟩
  have hcount := h.releasedOnce { tileIdx := 1, id := 0 } List.mem_cons_self
  cases hcount

end World

end FdTile

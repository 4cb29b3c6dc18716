import Mathlib.Tactic.Common

/-!
# Loops that take turns

A loop whose body meets something new at each turn, and then goes on in another state or is done
with a result. On finitely many turns the loop is either still waiting or done, with the turns
that it has not taken left over (`run`). What every turn keeps holds when the loop ends
(`run_holds`). A loop may be a part of a larger one, which goes on from its result (`run_into`).
-/

namespace Turns

variable {τ σ ρ σ' ρ' : Type}

/-- What one turn leads to. -/
inductive Step (σ ρ : Type) where
  | more (st : σ)
  | done (r : ρ)

/-- What a list of turns leads to. -/
inductive Ended (τ σ ρ : Type) where
  | waiting (st : σ)
  | done (r : ρ) (rest : List τ)

/-- The loop on a list of turns. -/
def run (body : τ → σ → Step σ ρ) : List τ → σ → Ended τ σ ρ
  | [], st => .waiting st
  | t :: ts, st =>
    match body t st with
    | .more st' => run body ts st'
    | .done r => .done r ts

namespace Step

/-- A property of what one turn leads to. -/
def Holds (more : σ → Prop) (done : ρ → Prop) : Step σ ρ → Prop
  | .more st => more st
  | .done r => done r

@[simp]
theorem holds_more {more : σ → Prop} {done : ρ → Prop} {st : σ} :
  (Step.more st).Holds more done ↔ more st
  := Iff.rfl

@[simp]
theorem holds_done {more : σ → Prop} {done : ρ → Prop} {r : ρ} :
  (Step.done r).Holds more done ↔ done r
  := Iff.rfl

/-- A step of a loop as a step of a larger one, which goes on from its result. -/
def into (x : Step σ ρ) (more : σ → σ') (next : ρ → Step σ' ρ') : Step σ' ρ' :=
  match x with
  | .more st => .more (more st)
  | .done r => next r

end Step

namespace Ended

/-- A property of what a list of turns leads to. -/
def Holds (waiting : σ → Prop) (done : ρ → List τ → Prop) : Ended τ σ ρ → Prop
  | .waiting st => waiting st
  | .done r rest => done r rest

/-- The loop, followed by what is done with its result on the turns that are left. -/
def andThen (e : Ended τ σ ρ) (idle : σ → σ') (next : ρ → List τ → Ended τ σ' ρ') :
    Ended τ σ' ρ' :=
  match e with
  | .waiting st => .waiting (idle st)
  | .done r rest => next r rest

theorem andThen_andThen {σ'' ρ'' : Type} {e : Ended τ σ ρ} {idle : σ → σ'}
    {next : ρ → List τ → Ended τ σ' ρ'} {idle' : σ' → σ''}
    {next' : ρ' → List τ → Ended τ σ'' ρ''} :
  (e.andThen idle next).andThen idle' next'
    = e.andThen (fun st => idle' (idle st)) fun r rest => (next r rest).andThen idle' next'
  := by
  cases e with
  | waiting st => rfl
  | done r rest => rfl

@[simp]
theorem holds_waiting {waiting : σ → Prop} {done : ρ → List τ → Prop} {st : σ} :
  (Ended.waiting st : Ended τ σ ρ).Holds waiting done ↔ waiting st
  := Iff.rfl

@[simp]
theorem holds_done {waiting : σ → Prop} {done : ρ → List τ → Prop} {r : ρ} {rest : List τ} :
  (Ended.done r rest : Ended τ σ ρ).Holds waiting done ↔ done r rest
  := Iff.rfl

/-- A property of a loop and what follows it, from one of each. -/
theorem Holds.andThen {e : Ended τ σ ρ} {w : σ → Prop} {d : ρ → List τ → Prop}
    (he : e.Holds w d) {idle : σ → σ'} {next : ρ → List τ → Ended τ σ' ρ'} {w' : σ' → Prop}
    {d' : ρ' → List τ → Prop} (hidle : ∀ st, w st → w' (idle st))
    (hnext : ∀ r rest, d r rest → (next r rest).Holds w' d') :
  (e.andThen idle next).Holds w' d'
  := by
  cases e with
  | waiting st => apply hidle st he
  | done r rest => apply hnext r rest he

/-- A property of what a loop leads to follows from a stronger one. -/
theorem Holds.mono {e : Ended τ σ ρ} {w w' : σ → Prop} {d d' : ρ → List τ → Prop}
    (he : e.Holds w d) (hw : ∀ st, w st → w' st) (hd : ∀ r rest, d r rest → d' r rest) :
  e.Holds w' d'
  := by
  cases e with
  | waiting st => apply hw st he
  | done r rest => apply hd r rest he

/-- What a loop and what follows it are done with, if they are. -/
theorem Holds.andThen_done {e : Ended τ σ ρ} {w : σ → Prop} {d : ρ → List τ → Prop}
    (he : e.Holds w d) {idle : σ → σ'} {next : ρ → List τ → Ended τ σ' ρ'}
    {d' : ρ' → List τ → Prop} (hnext : ∀ r rest, d r rest → (next r rest).Holds (fun _ => True) d') :
  (e.andThen idle next).Holds (fun _ => True) d'
  := he.andThen (fun _ _ => trivial) hnext

/-- What a loop is done with, if it is, has a property that follows from a stronger one. -/
theorem Holds.mono_done {e : Ended τ σ ρ} {w : σ → Prop} {d d' : ρ → List τ → Prop}
    (he : e.Holds w d) (hd : ∀ r rest, d r rest → d' r rest) :
  e.Holds (fun _ => True) d'
  := he.mono (fun _ _ => trivial) hd

/-- Two properties of what a loop leads to. -/
theorem Holds.and {e : Ended τ σ ρ} {w w' : σ → Prop} {d d' : ρ → List τ → Prop}
    (he : e.Holds w d) (he' : e.Holds w' d') :
  e.Holds (fun st => w st ∧ w' st) fun r rest => d r rest ∧ d' r rest
  := by
  cases e with
  | waiting st => exact ⟨he, he'⟩
  | done r rest => exact ⟨he, he'⟩

end Ended

variable {body : τ → σ → Step σ ρ}

/-- What holds of the state and of the turns to come, and is kept by each turn, holds when the
turns are over; what the last turn makes of it holds of the result. -/
theorem run_holds {inv : List τ → σ → Prop} {d : ρ → List τ → Prop}
    (hbody : ∀ t ts st, inv (t :: ts) st → (body t st).Holds (inv ts) (fun r => d r ts)) :
  ∀ {ts : List τ} {st : σ}, inv ts st → (run body ts st).Holds (inv []) d
  := by
  intro ts
  induction ts with
  | nil =>
    intro st h
    apply h
  | cons t ts ih =>
    intro st h
    have hstep := hbody t ts st h
    cases hturn : body t st with
    | more st' =>
      rw [hturn] at hstep
      simp only [run, hturn]
      apply ih hstep
    | done r =>
      rw [hturn] at hstep
      simp only [run, hturn]
      apply hstep

/-- What every turn keeps of the state holds when the turns are over. -/
theorem run_keeps {p : σ → Prop} {d : ρ → Prop}
    (hbody : ∀ t st, p st → (body t st).Holds p d) {ts : List τ} {st : σ} (h : p st) :
  (run body ts st).Holds p fun r _ => d r
  := @run_holds _ _ _ body (fun _ => p) (fun r _ => d r) (fun t _ => hbody t) ts st h

/-- The loop, after a step. -/
def resume (body : τ → σ → Step σ ρ) (x : Step σ ρ) (ts : List τ) : Ended τ σ ρ :=
  match x with
  | .more st => run body ts st
  | .done r => .done r ts

theorem run_cons {t : τ} {ts : List τ} {st : σ} :
  run body (t :: ts) st = resume body (body t st) ts
  := rfl

/-- A loop whose turns are those of a smaller one until that is done. -/
theorem run_into {larger : τ → σ' → Step σ' ρ'} {into : σ → σ'} {next : ρ → Step σ' ρ'}
    (h : ∀ t st, larger t (into st) = (body t st).into into next) {ts : List τ} {st : σ} :
  run larger ts (into st)
    = (run body ts st).andThen into fun r rest => resume larger (next r) rest
  := by
  induction ts generalizing st with
  | nil => rfl
  | cons t ts ih =>
    rw [run_cons, run_cons, h]
    cases body t st with
    | more st' => exact ih
    | done r => rfl

/-- A list of turns, followed by another. -/
theorem run_append {ts us : List τ} {st : σ} :
  run body (ts ++ us) st =
    match run body ts st with
    | .waiting st' => run body us st'
    | .done r rest => .done r (rest ++ us)
  := by
  induction ts generalizing st with
  | nil => rfl
  | cons t ts ih =>
    rw [List.cons_append, run, run]
    cases body t st with
    | more st' => exact ih
    | done r => rfl

end Turns

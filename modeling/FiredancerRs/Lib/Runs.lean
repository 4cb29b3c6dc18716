import Mathlib.Tactic.Common

/-!
# Runs of a deterministic system

A run makes one event after the other. What holds at first, and is kept by each event that meets a
condition, holds after every run whose events all meet it (`Along.keeps`). When the other events do
not keep it, it holds throughout a run exactly when all events of the run meet the condition
(`throughout_iff`). The events of a run are answered as a specification answers them exactly when
all meet the condition under which one event is (`answers_iff`).
-/

namespace Runs

variable {σ ε : Type} (step : σ → ε → σ)

/-- The state after a run. -/
def run (events : List ε) (s : σ) : σ := events.foldl step s

/-- Every event of a run meets a condition in the state in which it is made. -/
def Along (cond : σ → ε → Prop) : List ε → σ → Prop
  | [], _ => True
  | e :: events, s => cond s e ∧ Along cond events (step s e)

instance Along.decidable (cond : σ → ε → Prop) [∀ s e, Decidable (cond s e)] :
    (events : List ε) → (s : σ) → Decidable (Along step cond events s)
  | [], _ => isTrue trivial
  | e :: events, s =>
    have := Along.decidable cond events (step s e)
    inferInstanceAs (Decidable (cond s e ∧ Along step cond events (step s e)))

variable {step} {cond cond' : σ → ε → Prop} {events events' : List ε} {s : σ}

theorem run_append :
  run step (events ++ events') s = run step events' (run step events s)
  := List.foldl_append ..

theorem Along.and (h : Along step cond events s) (h' : Along step cond' events s) :
  Along step (fun s e => cond s e ∧ cond' s e) events s
  := by
  induction events generalizing s with
  | nil => trivial
  | cons e events ih => exact ⟨⟨h.1, h'.1⟩, ih h.2 h'.2⟩

/-- Two conditions that are the same where an invariant holds, which either keeps. -/
theorem along_congr {inv : σ → Prop} (hiff : ∀ s e, inv s → (cond s e ↔ cond' s e))
    (hstep : ∀ s e, inv s → cond s e → inv (step s e)) (hs : inv s) :
  Along step cond events s ↔ Along step cond' events s
  := by
  induction events generalizing s with
  | nil => rfl
  | cons e events ih =>
    rw [Along, Along, ← hiff s e hs]
    apply and_congr_right
    intro hcond
    apply ih (hstep s e hs hcond)

/-- A condition on the events alone. -/
theorem along_const {cond : ε → Prop} :
  Along step (fun _ e => cond e) events s ↔ ∀ e ∈ events, cond e
  := by
  induction events generalizing s with
  | nil => simp [Along]
  | cons e events ih => rw [Along, ih, List.forall_mem_cons]

/-- What every event keeps. -/
theorem run_keeps {inv : σ → Prop} (hstep : ∀ s e, inv s → inv (step s e)) (hs : inv s) :
  inv (run step events s)
  := by
  induction events generalizing s with
  | nil => exact hs
  | cons e events ih => exact ih (hstep s e hs)

/-- What every event keeps that meets the condition. -/
theorem Along.keeps {inv : σ → Prop} (h : Along step cond events s)
    (hstep : ∀ s e, inv s → cond s e → inv (step s e)) (hs : inv s) :
  inv (run step events s)
  := by
  induction events generalizing s with
  | nil => exact hs
  | cons e events ih => exact ih h.2 (hstep s e hs h.1)

/-- What the events of a run meet where an invariant holds that they keep. -/
theorem Along.imp {inv : σ → Prop} (h : Along step cond events s)
    (himp : ∀ s e, inv s → cond s e → cond' s e)
    (hstep : ∀ s e, inv s → cond s e → inv (step s e)) (hs : inv s) :
  Along step cond' events s
  := by
  induction events generalizing s with
  | nil => trivial
  | cons e events ih => exact ⟨himp s e hs h.1, ih h.2 (hstep s e hs h.1)⟩

/-- What takes the states of one system to those of another, and each event that meets the condition
to the same event, does so for a run. -/
theorem Along.run_map {σ' : Type} {step' : σ' → ε → σ'} {f : σ → σ'}
    (h : Along step cond events s) (hstep : ∀ s e, cond s e → step' (f s) e = f (step s e)) :
  run step' events (f s) = f (run step events s)
  := by
  induction events generalizing s with
  | nil => rfl
  | cons e events ih =>
    change run step' events (step' (f s) e) = f (run step events (step s e))
    rw [hstep s e h.1, ih h.2]

/-- An invariant holds after every first part of a run. -/
def Throughout (step : σ → ε → σ) (inv : σ → Prop) (events : List ε) (s : σ) : Prop :=
  ∀ past, past <+: events → inv (run step past s)

theorem throughout_nil {inv : σ → Prop} :
  Throughout step inv [] s ↔ inv s
  := by
  constructor
  · intro h
    apply h [] List.prefix_rfl
  · intro hs past hpast
    obtain rfl := List.prefix_nil.mp hpast
    apply hs

theorem throughout_cons {inv : σ → Prop} {e : ε} :
  Throughout step inv (e :: events) s ↔ inv s ∧ Throughout step inv events (step s e)
  := by
  constructor
  · intro h
    constructor
    · apply h [] List.nil_prefix
    · intro past hpast
      apply h (e :: past) (List.cons_prefix_cons.mpr ⟨rfl, hpast⟩)
  · rintro ⟨hs, hrest⟩ past hpast
    cases past with
    | nil => apply hs
    | cons e' past =>
      obtain ⟨rfl, htail⟩ := List.cons_prefix_cons.mp hpast
      apply hrest past htail

/-- What every event keeps that meets the condition holds throughout. -/
theorem Along.throughout {inv : σ → Prop} (h : Along step cond events s)
    (hstep : ∀ s e, inv s → cond s e → inv (step s e)) (hs : inv s) :
  Throughout step inv events s
  := by
  induction events generalizing s with
  | nil =>
    rw [throughout_nil]
    apply hs
  | cons e events ih =>
    rw [throughout_cons]
    apply And.intro hs (ih h.2 (hstep s e hs h.1))

/-- The events of a run meet the condition when what holds throughout is broken by those that do
not. -/
theorem Along.of_throughout {inv goal : σ → Prop} (h : Throughout step goal events s)
    (hstep : ∀ s e, inv s → cond s e → inv (step s e))
    (hbreak : ∀ s, ∀ e ∈ events, inv s → ¬ cond s e → ¬ goal (step s e)) (hs : inv s) :
  Along step cond events s
  := by
  induction events generalizing s with
  | nil => trivial
  | cons e events ih =>
    obtain ⟨-, hrest⟩ := throughout_cons.mp h
    have hcond : cond s e := by
      by_contra hnot
      apply hbreak s e List.mem_cons_self hs hnot (hrest [] List.nil_prefix)
    use hcond
    apply ih hrest _ (hstep s e hs hcond)
    exact fun s e he => hbreak s e (List.mem_cons_of_mem _ he)

/-- What exactly the events keep that meet the condition. -/
theorem throughout_iff {inv : σ → Prop} (hstep : ∀ s e, inv s → (inv (step s e) ↔ cond s e))
    (hs : inv s) :
  Throughout step inv events s ↔ Along step cond events s
  := by
  induction events generalizing s with
  | nil =>
    rw [throughout_nil]
    apply iff_of_true hs trivial
  | cons e events ih =>
    rw [throughout_cons, Along, ← hstep s e hs]
    constructor
    · rintro ⟨-, hrest⟩
      have hnext := hrest [] List.nil_prefix
      apply And.intro hnext ((ih hnext).mp hrest)
    · rintro ⟨hnext, hrest⟩
      apply And.intro hs ((ih hnext).mpr hrest)

/-! ### A system and its specification -/

section Specification

variable {α ρ : Type} (call : σ → ε → Option (σ × ρ)) (spec : α → ε → α × ρ)

/-- The states of a system and of its specification after an event. A system that does not answer
stays as it is. -/
def both (p : σ × α) (e : ε) : σ × α :=
  (((call p.1 e).map Prod.fst).getD p.1, (spec p.2 e).1)

/-- The system answers an event as its specification does. -/
def Answers (p : σ × α) (e : ε) : Prop := ∃ s, call p.1 e = some (s, (spec p.2 e).2)

variable {call spec}

/-- The events of a run are answered as by the specification exactly when all of them meet the
condition under which one is, if the answers keep a relation between the states. -/
theorem answers_iff {rel : σ × α → Prop} {cond : σ × α → ε → Prop} {p : σ × α}
    (hiff : ∀ p e, rel p → (Answers call spec p e ↔ cond p e))
    (hkeeps : ∀ p e s, rel p → call p.1 e = some (s, (spec p.2 e).2) → rel (s, (spec p.2 e).1))
    (hp : rel p) :
  Along (both call spec) (Answers call spec) events p ↔ Along (both call spec) cond events p
  := by
  apply along_congr hiff _ hp
  rintro p e hp ⟨s, hs⟩
  have hnext : both call spec p e = (s, (spec p.2 e).1) := by
    rw [both, hs, Option.map_some, Option.getD_some]
  rw [hnext]
  apply hkeeps p e s hp hs

/-- The same, where an event that meets the condition is answered, and keeps the relation. -/
theorem answers_iff_of_step {rel : σ × α → Prop} {cond : σ × α → ε → Prop} {p : σ × α}
    (hstep : ∀ p e, rel p → cond p e →
      ∃ s, call p.1 e = some (s, (spec p.2 e).2) ∧ rel (s, (spec p.2 e).1))
    (hnot : ∀ p e, rel p → ¬ cond p e → ¬ Answers call spec p e) (hp : rel p) :
  Along (both call spec) (Answers call spec) events p ↔ Along (both call spec) cond events p
  := by
  have hiff (p : σ × α) (e : ε) (hp : rel p) : Answers call spec p e ↔ cond p e := by
    constructor
    · intro h
      by_contra hcond
      apply hnot p e hp hcond h
    · intro hcond
      obtain ⟨s, hs, -⟩ := hstep p e hp hcond
      exact ⟨s, hs⟩
  apply answers_iff hiff _ hp
  intro p e s hp hs
  obtain ⟨s', hs', hrel⟩ := hstep p e hp ((hiff p e hp).mp ⟨s, hs⟩)
  rw [hs] at hs'
  obtain ⟨rfl, -⟩ := Prod.mk.inj (Option.some.inj hs')
  apply hrel

end Specification

end Runs

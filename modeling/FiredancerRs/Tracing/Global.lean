import FiredancerRs.Lib.Runs

/-!
# The global subscriber

`init_global_subscriber` sets `GLOBAL_SUBSCRIBER` and then the default dispatcher of the process,
which the `tracing` crate keeps: that is the parameter `TracingSys`. Each can be set once, and other
code may have set the dispatcher. Then the call fails, with `GLOBAL_SUBSCRIBER` set all the same, and
`try_init_global_subscriber` succeeds from then on, with the dispatcher of the other code
(`not_atomic`). The calls are atomic in every history in which none of them finds the dispatcher set
and `GLOBAL_SUBSCRIBER` not (`atomic_iff`).
-/

namespace FdTracing

/-- `TracingError` -/
inductive TracingError where
  | alreadyInitialized
  | initializationFailed (msg : String)
  | invalidConfiguration (msg : String)
deriving DecidableEq

variable {γ S D : Type}

/-- `Dispatch`, by its subscriber: one of this crate, or what other code dispatches to. -/
inductive Dispatch (S D : Type) where
  | new (subscriber : S)
  | other (d : D)
deriving DecidableEq

/-- What the `tracing` crate keeps in the state `γ`, from that of a process that has just started:
the default dispatcher, and `set_global_default`. -/
structure TracingSys (γ S D : Type) where
  start : γ
  globalDefault : γ → Option (Dispatch S D)
  setGlobalDefault : γ → Dispatch S D → Except String Unit × γ

/-- What is documented of the crate: the default dispatcher can be set once. -/
structure TracingSys.Documented (sys : TracingSys γ S D) : Prop where
  start : sys.globalDefault sys.start = none
  sets : ∀ t dispatch, sys.globalDefault t = none → ∃ t',
    sys.setGlobalDefault t dispatch = (.ok (), t') ∧ sys.globalDefault t' = some dispatch
  once : ∀ t dispatch dispatch', sys.globalDefault t = some dispatch' → ∃ e t',
    sys.setGlobalDefault t dispatch = (.error e, t') ∧ sys.globalDefault t' = some dispatch'

/-- `GLOBAL_SUBSCRIBER`, and what the `tracing` crate keeps. -/
structure Globals (γ S : Type) where
  globalSubscriber : Option S
  tracing : γ
deriving DecidableEq

namespace Globals

variable (sys : TracingSys γ S D) (g : Globals γ S)

/-- The globals of a process that has just started. -/
def start : Globals γ S := { globalSubscriber := none, tracing := sys.start }

/-- The default dispatcher of the process. -/
def globalDefault : Option (Dispatch S D) := sys.globalDefault g.tracing

/-- `set_global_default`, as other code calls it. -/
def setOther (d : D) : Globals γ S :=
  { g with tracing := (sys.setGlobalDefault g.tracing (.other d)).2 }

/-- `init_global_subscriber`. Between its two steps other code may set the default dispatcher. -/
def initGlobalSubscriber (subscriber : S) (others : List D) :
    Except TracingError Unit × Globals γ S :=
  match g.globalSubscriber with
  | some _ => (.error .alreadyInitialized, g)
  | none =>
    let g := others.foldl (setOther sys) { g with globalSubscriber := some subscriber }
    match sys.setGlobalDefault g.tracing (.new subscriber) with
    | (.error e, t) => (.error (.initializationFailed e), { g with tracing := t })
    | (.ok (), t) => (.ok (), { g with tracing := t })

/-- `try_init_global_subscriber` -/
def tryInitGlobalSubscriber (subscriber : S) (others : List D) :
    Except TracingError Unit × Globals γ S :=
  match g.initGlobalSubscriber sys subscriber others with
  | (.ok (), g) => (.ok (), g)
  | (.error .alreadyInitialized, g) => (.ok (), g)
  | (.error e, g) => (.error e, g)

/-! ### Histories -/

/-- A call of this crate, or a call of `set_global_default` by other code. -/
inductive Call (S D : Type) where
  | init (subscriber : S) (others : List D)
  | tryInit (subscriber : S) (others : List D)
  | setGlobalDefault (d : D)

/-- The globals after a call. -/
def after : Call S D → Globals γ S
  | .init subscriber others => (g.initGlobalSubscriber sys subscriber others).2
  | .tryInit subscriber others => (g.tryInitGlobalSubscriber sys subscriber others).2
  | .setGlobalDefault d => g.setOther sys d

/-- The default dispatcher is that of the global subscriber. -/
def Installed : Prop :=
  ∃ subscriber, g.globalDefault sys = some (.new subscriber)
    ∧ g.globalSubscriber = some subscriber

/-- When a call succeeds, the global subscriber is installed, and when `init_global_subscriber`
fails, also in a call of `try_init_global_subscriber`, it is what it was before. -/
def Atomic : Call S D → Prop
  | .init subscriber others =>
    ((g.initGlobalSubscriber sys subscriber others).1 = .ok () →
      (g.initGlobalSubscriber sys subscriber others).2.Installed sys)
      ∧ ∀ e, (g.initGlobalSubscriber sys subscriber others).1 = .error e →
        (g.initGlobalSubscriber sys subscriber others).2.globalSubscriber = g.globalSubscriber
  | .tryInit subscriber others =>
    ((g.tryInitGlobalSubscriber sys subscriber others).1 = .ok () →
      (g.tryInitGlobalSubscriber sys subscriber others).2.Installed sys)
      ∧ ∀ e, (g.initGlobalSubscriber sys subscriber others).1 = .error e →
        (g.initGlobalSubscriber sys subscriber others).2.globalSubscriber = g.globalSubscriber
  | .setGlobalDefault _ => True

/-- No call of this crate finds the default dispatcher set and the global subscriber not: a call
that sets the latter is made before other code sets the former. -/
def Unforestalled : Call S D → Prop
  | .init _ others | .tryInit _ others =>
    g.globalSubscriber = none → g.globalDefault sys = none ∧ others = []
  | .setGlobalDefault _ => True

/-- A global subscriber is the one that the process dispatches to. -/
def Consistent : Prop :=
  ∀ subscriber, g.globalSubscriber = some subscriber →
    g.globalDefault sys = some (.new subscriber)

variable {sys g} {s : S} {others : List D}

theorem start_consistent :
  (start sys).Consistent sys
  := by
  intro s hs
  cases hs

/-! ### A call -/

theorem foldl_setOther_globalSubscriber :
  (others.foldl (setOther sys) g).globalSubscriber = g.globalSubscriber
  := by
  induction others generalizing g with
  | nil => rfl
  | cons d others ih => exact ih

section Calls

variable (hsys : sys.Documented)
include hsys

theorem setOther_of_globalDefault {dispatch : Dispatch S D} (d : D)
    (hdefault : g.globalDefault sys = some dispatch) :
  (g.setOther sys d).globalDefault sys = some dispatch
  := by
  obtain ⟨e, t, hset, hkept⟩ := hsys.once g.tracing (.other d) dispatch hdefault
  rw [setOther, globalDefault, hset]
  exact hkept

theorem foldl_setOther_of_globalDefault {dispatch : Dispatch S D}
    (hdefault : g.globalDefault sys = some dispatch) :
  (others.foldl (setOther sys) g).globalDefault sys = some dispatch
  := by
  induction others generalizing g with
  | nil => exact hdefault
  | cons d others ih => exact ih (setOther_of_globalDefault hsys d hdefault)

theorem Consistent.setOther {d : D} (hg : g.Consistent sys) :
  (g.setOther sys d).Consistent sys
  := by
  intro s hs
  exact setOther_of_globalDefault hsys d (hg s hs)

/-- Other code finds the dispatcher set, or sets it. -/
theorem exists_foldl_setOther (hset : ¬ (g.globalDefault sys = none ∧ others = [])) :
  ∃ dispatch, (others.foldl (Globals.setOther sys) g).globalDefault sys = some dispatch
  := by
  cases hdefault : g.globalDefault sys with
  | some dispatch => exact ⟨dispatch, foldl_setOther_of_globalDefault hsys hdefault⟩
  | none =>
    cases others with
    | nil => exact absurd ⟨hdefault, rfl⟩ hset
    | cons d others =>
      obtain ⟨t, hsets, hother⟩ := hsys.sets g.tracing (.other d) hdefault
      use .other d
      rw [List.foldl_cons]
      apply foldl_setOther_of_globalDefault hsys
      rw [Globals.setOther, globalDefault, hsets]
      exact hother

/-- A call of `init_global_subscriber` is not the first, or it installs its subscriber, or it finds
the dispatcher set when it comes to set it. -/
theorem init_cases (g : Globals γ S) (s : S) (others : List D) :
  (∃ s', g.globalSubscriber = some s'
      ∧ g.initGlobalSubscriber sys s others = (.error .alreadyInitialized, g))
    ∨ (g.globalSubscriber = none ∧ (g.globalDefault sys = none ∧ others = [])
      ∧ ∃ g', g.initGlobalSubscriber sys s others = (.ok (), g')
        ∧ g'.globalSubscriber = some s ∧ g'.globalDefault sys = some (.new s))
    ∨ (g.globalSubscriber = none ∧ ¬ (g.globalDefault sys = none ∧ others = [])
      ∧ ∃ msg g', g.initGlobalSubscriber sys s others = (.error (.initializationFailed msg), g')
        ∧ g'.globalSubscriber = some s)
  := by
  cases hs : g.globalSubscriber with
  | some s' =>
    left
    use s', rfl
    simp only [initGlobalSubscriber, hs]
  | none =>
    right
    by_cases hset : g.globalDefault sys = none ∧ others = []
    · left
      obtain ⟨hdefault, rfl⟩ := hset
      obtain ⟨t, hsets, hnew⟩ := hsys.sets g.tracing (.new s) hdefault
      use rfl, ⟨hdefault, rfl⟩, { globalSubscriber := some s, tracing := t }
      simp only [initGlobalSubscriber, hs, List.foldl_nil, hsets]
      exact ⟨trivial, trivial, hnew⟩
    · right
      obtain ⟨dispatch, hothers⟩ := exists_foldl_setOther hsys
        (g := { g with globalSubscriber := some s }) hset
      obtain ⟨e, t, hfails, -⟩ := hsys.once _ (.new s) dispatch hothers
      use rfl, hset
      simp only [initGlobalSubscriber, hs, hfails]
      exact ⟨e, _, rfl, foldl_setOther_globalSubscriber⟩

/-- `try_init_global_subscriber` leaves the globals as `init_global_subscriber` does. -/
theorem tryInit_snd :
  (g.tryInitGlobalSubscriber sys s others).2 = (g.initGlobalSubscriber sys s others).2
  := by
  obtain ⟨s', -, hinit⟩ | ⟨-, -, g', hinit, -⟩ | ⟨-, -, msg, g', hinit, -⟩ :=
    init_cases hsys g s others
  all_goals simp only [tryInitGlobalSubscriber, hinit]

/-! ### A history -/

theorem init_keeps (hg : g.Consistent sys) (hfree : Unforestalled sys g (.init s others)) :
  (g.initGlobalSubscriber sys s others).2.Consistent sys
  := by
  obtain ⟨s', -, hinit⟩ | ⟨-, -, g', hinit, hs, hdefault⟩ | ⟨hs, hset, -⟩ :=
    init_cases hsys g s others
  · rw [hinit]
    exact hg
  · rw [hinit]
    intro s' hs'
    obtain rfl := Option.some.inj (hs.symm.trans hs')
    exact hdefault
  · exact absurd (hfree hs) hset

theorem after_keeps {call : Call S D} (hg : g.Consistent sys)
    (hfree : Unforestalled sys g call) :
  (g.after sys call).Consistent sys
  := by
  cases call with
  | init s others => exact init_keeps hsys hg hfree
  | tryInit s others =>
    rw [after, tryInit_snd hsys]
    exact init_keeps hsys hg hfree
  | setGlobalDefault d => exact hg.setOther hsys

/-- A call that fails leaves the global subscriber as it was exactly when it is not forestalled. -/
theorem kept_iff :
  (∀ e, (g.initGlobalSubscriber sys s others).1 = .error e →
    (g.initGlobalSubscriber sys s others).2.globalSubscriber = g.globalSubscriber)
    ↔ (g.globalSubscriber = none → g.globalDefault sys = none ∧ others = [])
  := by
  obtain ⟨s', hs, hinit⟩ | ⟨-, hfree, g', hinit, -⟩ | ⟨hs, hset, msg, g', hinit, hg'⟩ :=
    init_cases hsys g s others
  · simp [hinit, hs]
  · rw [hinit]
    apply iff_of_true _ (fun _ => hfree)
    rintro e ⟨⟩
  · apply iff_of_false
    · intro hkept
      have hkept := hkept _ (congrArg Prod.fst hinit)
      rw [hinit, hg', hs] at hkept
      cases hkept
    · intro hfree
      exact hset (hfree hs)

theorem init_installed (hok : (g.initGlobalSubscriber sys s others).1 = .ok ()) :
  (g.initGlobalSubscriber sys s others).2.Installed sys
  := by
  obtain ⟨s', -, hinit⟩ | ⟨-, -, g', hinit, hs, hdefault⟩ | ⟨-, -, msg, g', hinit, -⟩ :=
    init_cases hsys g s others
  · rw [hinit] at hok
    cases hok
  · rw [hinit]
    exact ⟨s, hdefault, hs⟩
  · rw [hinit] at hok
    cases hok

/-- A call of `try_init_global_subscriber` that is not the first finds the subscriber installed. -/
theorem tryInit_installed (hg : g.Consistent sys)
    (hok : (g.tryInitGlobalSubscriber sys s others).1 = .ok ()) :
  (g.tryInitGlobalSubscriber sys s others).2.Installed sys
  := by
  rw [tryInit_snd hsys]
  obtain ⟨s', hs, hinit⟩ | ⟨-, -, g', hinit, hs, hdefault⟩ | ⟨-, -, msg, g', hinit, -⟩ :=
    init_cases hsys g s others
  · rw [hinit]
    exact ⟨s', hg s' hs, hs⟩
  · rw [hinit]
    exact ⟨s, hdefault, hs⟩
  · simp only [tryInitGlobalSubscriber, hinit] at hok
    cases hok

theorem atomic_iff_unforestalled (hg : g.Consistent sys) (call : Call S D) :
  Atomic sys g call ↔ Unforestalled sys g call
  := by
  cases call with
  | init s others => exact (and_iff_right (init_installed hsys)).trans (kept_iff hsys)
  | tryInit s others => exact (and_iff_right (tryInit_installed hsys hg)).trans (kept_iff hsys)
  | setGlobalDefault d => rfl

end Calls

/-- The calls of a history are atomic exactly when none of them is forestalled. -/
theorem atomic_iff (hsys : sys.Documented) (events : List (Call S D)) :
  Runs.Along (after sys) (Atomic sys) events (start sys)
    ↔ Runs.Along (after sys) (Unforestalled sys) events (start sys)
  := by
  have hiff (g : Globals γ S) (call : Call S D) (hg : g.Consistent sys) :
      Atomic sys g call ↔ Unforestalled sys g call := atomic_iff_unforestalled hsys hg call
  have hkeeps (g : Globals γ S) (call : Call S D) (hg : g.Consistent sys)
      (hatomic : Atomic sys g call) : (g.after sys call).Consistent sys :=
    after_keeps hsys hg ((hiff g call hg).mp hatomic)
  exact Runs.along_congr hiff hkeeps start_consistent

/-! ### A dispatcher -/

/-- A dispatcher that is kept as it is. -/
def optionSys : TracingSys (Option (Dispatch Nat Nat)) Nat Nat where
  start := none
  globalDefault := id
  setGlobalDefault t dispatch :=
    match t with
    | none => (.ok (), some dispatch)
    | some _ => (.error "a global default trace dispatcher has already been set", t)

theorem optionSys_documented :
  optionSys.Documented
  where
  start := rfl
  sets t dispatch h := by
    obtain rfl : t = none := h
    exact ⟨_, rfl, rfl⟩
  once t dispatch dispatch' h := by
    obtain rfl : t = some dispatch' := h
    exact ⟨_, _, rfl, rfl⟩

/-- Other code sets the dispatcher, `init_global_subscriber` fails, and then
`try_init_global_subscriber` succeeds. -/
theorem not_atomic :
  ¬ Runs.Along (after optionSys) (Atomic optionSys)
    [.setGlobalDefault 0, .init 1 [], .tryInit 2 []] (start optionSys)
  := by
  rintro ⟨-, -, ⟨hinstalled, -⟩, -⟩
  obtain ⟨s, hs, -⟩ := hinstalled rfl
  cases hs

/-- Other code that comes after this crate does not forestall its calls. -/
theorem atomic_iff_optionSys :
  Runs.Along (after optionSys) (Unforestalled optionSys)
      [.tryInit 1 [], .setGlobalDefault 0, .init 2 [3], .tryInit 2 []] (start optionSys)
    ∧ Runs.Along (after optionSys) (Atomic optionSys)
      [.tryInit 1 [], .setGlobalDefault 0, .init 2 [3], .tryInit 2 []] (start optionSys)
  := by
  have hfree : Runs.Along (after optionSys) (Unforestalled optionSys)
      [.tryInit 1 [], .setGlobalDefault 0, .init 2 [3], .tryInit 2 []] (start optionSys) := by
    refine ⟨fun _ => ⟨rfl, rfl⟩, trivial, ?_, ?_, trivial⟩
    · rintro ⟨⟩
    · rintro ⟨⟩
  exact ⟨hfree, (atomic_iff optionSys_documented _).mpr hfree⟩

end Globals

end FdTracing

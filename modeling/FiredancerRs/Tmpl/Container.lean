import FiredancerRs.Lib.Except
import FiredancerRs.Lib.Layout

/-!
# Containers in shared memory

What the containers of a template have in common: the C functions that lay out and join a container
are the parameter `TmplSys`, on the contents `μ` of the memory.
-/

namespace FdTmpl

/-- `TmplError` -/
inductive TmplError where
  | allocationFailed
  | invalidInput (msg : String)
  | containerFull
  | keyNotFound
  | containerEmpty
  | operationFailed (msg : String)
  | invalidAlignment
deriving DecidableEq, Repr

/-- The functions of a template that work on the memory of a container, and the allocator. `join`
gives an address, which is zero if it is null. -/
structure TmplSys (μ : Type) where
  footprint : Nat
  align : Nat
  alloc : Layout → Option μ
  new : μ → μ
  join : μ → Nat
  leave : μ → μ
  delete : μ → μ

/-- A container: the address that the C functions are given, and the contents of its memory. -/
structure Container (μ : Type) where
  handle : Nat
  mem : μ

/-- `FdMap::new`, `FdSet::new` and those of the other containers, which differ in the template. -/
def Container.new {μ : Type} (sys : TmplSys μ) : Except TmplError (Container μ) :=
  if sys.footprint = 0 ∨ sys.align = 0 ∨ ¬ sys.align.isPowerOfTwo then
    .error .invalidAlignment
  else
    match Layout.fromSizeAlign sys.footprint sys.align with
    | none => .error .invalidAlignment
    | some layout =>
      match sys.alloc layout with
      | none => .error .allocationFailed
      | some mem =>
        let shmem := sys.new mem
        let handle := sys.join shmem
        if handle = 0 then .error .allocationFailed
        else .ok { handle := handle, mem := shmem }

variable {μ : Type} {sys : TmplSys μ}

/-- A new container is one that the template has laid out and joined. -/
theorem Container.new_eq_ok {c : Container μ} (h : Container.new sys = .ok c) :
  sys.footprint ≠ 0 ∧ ∃ mem, c.mem = sys.new mem ∧ c.handle = sys.join (sys.new mem)
    ∧ c.handle ≠ 0
  := by
  unfold Container.new at h
  by_cases hbad : sys.footprint = 0 ∨ sys.align = 0 ∨ ¬ sys.align.isPowerOfTwo
  · rw [if_pos hbad] at h
    cases h
  · rw [if_neg hbad] at h
    constructor
    · intro hzero
      apply hbad (.inl hzero)
    · cases hlayout : Layout.fromSizeAlign sys.footprint sys.align with
      | none =>
        rw [hlayout] at h
        cases h
      | some layout =>
        cases halloc : sys.alloc layout with
        | none =>
          simp only [hlayout, halloc] at h
          cases h
        | some mem =>
          simp only [hlayout, halloc] at h
          by_cases hjoin : sys.join (sys.new mem) = 0
          · rw [if_pos hjoin] at h
            cases h
          · rw [if_neg hjoin] at h
            cases h
            exact ⟨mem, rfl, rfl, hjoin⟩

/-- A container is not said to be full by a call whose function returns the container. -/
theorem bind_ne_full {γ : Type} {handle : Nat} {called : Option (μ × Nat)}
    {k : μ × Nat → Option (γ × Except TmplError Unit)} {c : γ}
    (hreturns : ∀ mem result, called = some (mem, result) → result = handle)
    (hk : ∀ mem, ∃ c', k (mem, handle) = some (c', .ok ())) :
  called.bind k ≠ some (c, .error .containerFull)
  := by
  intro h
  obtain ⟨⟨mem, result⟩, hcalled, hfull⟩ := Option.bind_eq_some_iff.mp h
  obtain rfl := hreturns mem result hcalled
  obtain ⟨c', hok⟩ := hk mem
  rw [hok] at hfull
  cases Option.some.inj hfull

end FdTmpl

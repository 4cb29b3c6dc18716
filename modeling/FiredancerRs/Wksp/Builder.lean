import FiredancerRs.Lib.Runs
import FiredancerRs.Lib.Utf8
import FiredancerRs.Wksp.Workspace
import Mathlib.Data.List.Induction

/-!
# Building a workspace

`WorkspaceBuilder` and the calls of the C library that its two build functions make. An anonymous
workspace is built through `Workspace::new_anonymous`, which compares the lengths of the arrays of
sub-regions; `build_named` gives the arrays to the library as they are. The two treat the arrays
alike exactly when they were not set to different lengths (`arraysChecked_iff`).
-/

namespace FdWksp

/-- The errors of `WorkspaceError` that building a workspace returns. -/
inductive BuildError where
  | invalidInput (msg : String)
  | systemFailure (msg : String)
  | memoryCorruption (msg : String)
  | creationFailed
  | joinFailed
  | operationFailed
deriving DecidableEq, Repr

/-- `convert_error` -/
def convertError (code : Int32) (_ : code ≠ 0) : BuildError :=
  if code = -1 then .invalidInput "Invalid parameters"
  else if code = -2 then .systemFailure "System limitation"
  else if code = -3 then .memoryCorruption "Corruption detected"
  else .operationFailed

/-- A workspace that has been built. -/
structure Built where
  handle : Workspace
  isAnonymous : Bool
deriving DecidableEq, Repr

/-- What the library is given for a new workspace. -/
structure NewArgs where
  name : String
  pageSz : UInt64
  subCnt : Nat
  subPageCnt : List UInt64
  subCpuIdx : List UInt64
  seed : UInt32
  optPartMax : UInt64
deriving DecidableEq, Repr

/-- The library reads an element of each array for each sub-region, and the arrays have no
others. -/
def NewArgs.Matching (args : NewArgs) : Prop :=
  args.subCnt = args.subPageCnt.length ∧ args.subCnt = args.subCpuIdx.length

/-- A call of the library. -/
inductive LibraryCall where
  | newAnon (args : NewArgs)
  | newNamed (args : NewArgs) (mode : UInt64)
  | attach (name : String)
deriving DecidableEq, Repr

/-- The arrays of a call that has some match. -/
def LibraryCall.Matching : LibraryCall → Prop
  | .newAnon args => args.Matching
  | .newNamed args _ => args.Matching
  | .attach _ => True

/-- The functions of the library that build a workspace. -/
structure WkspSys where
  newAnon : NewArgs → Option Workspace
  newNamed : NewArgs → UInt64 → Int32
  attach : String → Option Workspace

/-- What a function returns, and the calls of the library that it has made. -/
abbrev Outcome := Except BuildError Built × List LibraryCall

section Build

variable (sys : WkspSys)

/-- `Workspace::attach` -/
def attach (name : String) : Outcome :=
  if 0 ∈ Utf8.bytes name then
    (.error (.invalidInput "Invalid name"), [])
  else
    match sys.attach name with
    | none => (.error .joinFailed, [.attach name])
    | some handle => (.ok { handle := handle, isAnonymous := false }, [.attach name])

/-- `Workspace::new_anonymous` -/
def newAnonymous (name : String) (pageSz : UInt64) (subCnt : Nat)
    (subPageCnt subCpuIdx : List UInt64) (seed : UInt32) (optPartMax : UInt64) : Outcome :=
  if subPageCnt.length ≠ subCnt ∨ subCpuIdx.length ≠ subCnt then
    (.error (.invalidInput "Mismatched array lengths"), [])
  else if 0 ∈ Utf8.bytes name then
    (.error (.invalidInput "Invalid name"), [])
  else
    let args : NewArgs := { name, pageSz, subCnt, subPageCnt, subCpuIdx, seed, optPartMax }
    match sys.newAnon args with
    | none => (.error .creationFailed, [.newAnon args])
    | some handle => (.ok { handle := handle, isAnonymous := true }, [.newAnon args])

theorem matching_of_mem_attach {name : String} {call : LibraryCall}
    (h : call ∈ (attach sys name).2) :
  call.Matching
  := by
  unfold attach at h
  split at h
  · cases h
  · split at h
    · rw [List.mem_singleton.mp h]
      trivial
    · rw [List.mem_singleton.mp h]
      trivial

end Build

/-- `WorkspaceBuilder` -/
structure WorkspaceBuilder where
  name : Option String
  pageSize : UInt64
  pageCounts : List UInt64
  cpuIndices : List UInt64
  seed : UInt32
  optPartMax : UInt64
deriving DecidableEq, Repr

/-- A call that sets something of a builder. -/
inductive Setter where
  | name (name : String)
  | pageSize (size : UInt64)
  | pageCount (count : UInt64)
  | multiNuma (pageCounts cpuIndices : List UInt64)
  | cpuIndex (cpuIdx : UInt64)
  | seed (seed : UInt32)
  | partMax (partMax : UInt64)
deriving DecidableEq, Repr

/-- The call replaces the arrays. -/
def Setter.replaces : Setter → Bool
  | .pageCount _ => true
  | .multiNuma _ _ => true
  | _ => false

namespace WorkspaceBuilder

/-- `WorkspaceBuilder::new` -/
def new : WorkspaceBuilder where
  name := none
  pageSize := 4096
  pageCounts := [64]
  cpuIndices := [0]
  seed := 0
  optPartMax := 0

/-- `name`, `page_size`, `page_count`, `multi_numa`, `cpu_index`, `seed` and `part_max` -/
def set (b : WorkspaceBuilder) : Setter → WorkspaceBuilder
  | .name name => { b with name := some name }
  | .pageSize size => { b with pageSize := size }
  | .pageCount count => { b with pageCounts := [count], cpuIndices := [0] }
  | .multiNuma pageCounts cpuIndices =>
    { b with pageCounts := pageCounts, cpuIndices := cpuIndices }
  | .cpuIndex cpuIdx =>
    if b.cpuIndices.length = 1 then { b with cpuIndices := b.cpuIndices.set 0 cpuIdx } else b
  | .seed seed => { b with seed := seed }
  | .partMax partMax => { b with optPartMax := partMax }

/-- `build_anonymous` -/
def buildAnonymous (sys : WkspSys) (b : WorkspaceBuilder) : Outcome :=
  newAnonymous sys (b.name.getD "anonymous") b.pageSize b.pageCounts.length b.pageCounts b.cpuIndices
    b.seed b.optPartMax

/-- What `build_named` gives to the library. -/
def namedArgs (b : WorkspaceBuilder) (name : String) : NewArgs where
  name := name
  pageSz := b.pageSize
  subCnt := b.pageCounts.length
  subPageCnt := b.pageCounts
  subCpuIdx := b.cpuIndices
  seed := b.seed
  optPartMax := b.optPartMax

/-- `build_named` -/
def buildNamed (sys : WkspSys) (b : WorkspaceBuilder) : Outcome :=
  match b.name with
  | none => (.error (.invalidInput "Name required for named workspace"), [])
  | some name =>
    if 0 ∈ Utf8.bytes name then
      (.error (.invalidInput "Invalid name"), [])
    else
      let args := b.namedArgs name
      let result := sys.newNamed args 0o666
      if h : result ≠ 0 then
        (.error (convertError result h), [.newNamed args 0o666])
      else
        let (built, calls) := attach sys name
        (built, .newNamed args 0o666 :: calls)

/-- The arrays of a builder have one length. -/
def Balanced (b : WorkspaceBuilder) : Prop := b.pageCounts.length = b.cpuIndices.length

/-- Both ways of building give the library arrays that match, and both refuse arrays that differ in
length before the library is called. -/
structure ArraysChecked (sys : WkspSys) (b : WorkspaceBuilder) : Prop where
  anonymous : ∀ call ∈ (b.buildAnonymous sys).2, call.Matching
  named : ∀ call ∈ (b.buildNamed sys).2, call.Matching
  refused : ¬ b.Balanced →
    b.buildAnonymous sys = (.error (.invalidInput "Mismatched array lengths"), [])
      ∧ b.buildNamed sys = (.error (.invalidInput "Mismatched array lengths"), [])

section Checked

variable {sys : WkspSys} {b : WorkspaceBuilder}

/-- Arrays that differ in length are refused for an anonymous workspace. -/
theorem buildAnonymous_of_not_balanced (h : ¬ b.Balanced) :
  b.buildAnonymous sys = (.error (.invalidInput "Mismatched array lengths"), [])
  := if_pos (.inr (Ne.symm h))

/-- What `build_anonymous` gives to the library has been compared. -/
theorem matching_of_mem_buildAnonymous {call : LibraryCall} (h : call ∈ (b.buildAnonymous sys).2) :
  call.Matching
  := by
  by_cases hb : b.Balanced
  · rw [buildAnonymous, newAnonymous, if_neg (by simpa using hb.symm)] at h
    split at h
    · cases h
    · dsimp only at h
      split at h
      · rw [List.mem_singleton.mp h]
        exact ⟨rfl, hb⟩
      · rw [List.mem_singleton.mp h]
        exact ⟨rfl, hb⟩
  · rw [buildAnonymous_of_not_balanced hb] at h
    cases h

/-- `build_named` gives the arrays to the library as they are. -/
theorem matching_of_mem_buildNamed {call : LibraryCall} (hb : b.Balanced)
    (h : call ∈ (b.buildNamed sys).2) :
  call.Matching
  := by
  unfold buildNamed at h
  split at h
  · cases h
  · next name _ =>
    split at h
    · cases h
    · dsimp only at h
      split at h
      · rw [List.mem_singleton.mp h]
        exact ⟨rfl, hb⟩
      · obtain rfl | hattach := List.mem_cons.mp h
        · exact ⟨rfl, hb⟩
        · apply matching_of_mem_attach sys hattach

/-- `build_named` does not compare the arrays. -/
theorem buildNamed_ne :
  b.buildNamed sys ≠ (.error (.invalidInput "Mismatched array lengths"), [])
  := by
  unfold buildNamed
  split
  · decide
  · split
    · decide
    · dsimp only
      split
      · exact fun h => List.cons_ne_nil _ _ (Prod.mk.inj h).2
      · exact fun h => List.cons_ne_nil _ _ (Prod.mk.inj h).2

/-- The arrays are checked by both exactly when there is nothing to refuse. -/
theorem arraysChecked_iff_balanced :
  b.ArraysChecked sys ↔ b.Balanced
  := by
  constructor
  · intro h
    by_contra hb
    apply buildNamed_ne (h.refused hb).2
  · intro hb
    exact ⟨fun _ => matching_of_mem_buildAnonymous, fun _ => matching_of_mem_buildNamed hb,
      fun hnot => absurd hb hnot⟩

end Checked

/-! ### The calls that set a builder up -/

/-- The builder that some calls have set up. -/
def build (setters : List Setter) : WorkspaceBuilder := Runs.run set setters new

/-- The last call that replaces the arrays. -/
def lastReplacing (setters : List Setter) : Option Setter :=
  (setters.filter Setter.replaces).getLast?

/-- The arrays that were set last have one length. -/
def SetAlike (setters : List Setter) : Prop :=
  ∀ pageCounts cpuIndices, lastReplacing setters = some (.multiNuma pageCounts cpuIndices) →
    pageCounts.length = cpuIndices.length

/-- A call that does not replace the arrays keeps their lengths. -/
theorem balanced_set {b : WorkspaceBuilder} {setter : Setter} (h : setter.replaces = false) :
  (b.set setter).Balanced ↔ b.Balanced
  := by
  cases setter with
  | cpuIndex cpuIdx =>
    rw [set]
    split
    · rw [Balanced, Balanced, List.length_set]
    · rfl
  | pageCount count => cases h
  | multiNuma pageCounts cpuIndices => cases h
  | _ => rfl

theorem lastReplacing_concat (setters : List Setter) (setter : Setter) :
  lastReplacing (setters ++ [setter])
    = if setter.replaces then some setter else lastReplacing setters
  := by
  rw [lastReplacing, List.filter_append, List.filter_singleton, Bool.cond_eq_ite]
  split
  · apply List.getLast?_concat
  · rw [List.append_nil, lastReplacing]

/-- The arrays of a builder have one length exactly when those that were set last have. -/
theorem balanced_build (setters : List Setter) :
  (build setters).Balanced ↔ SetAlike setters
  := by
  induction setters using List.reverseRecOn with
  | nil =>
    apply iff_of_true rfl
    intro pageCounts cpuIndices h
    cases h
  | append_singleton setters setter ih =>
    have hbuild : build (setters ++ [setter]) = (build setters).set setter := Runs.run_append
    rw [hbuild, SetAlike, lastReplacing_concat]
    cases hreplaces : setter.replaces with
    | false => rw [balanced_set hreplaces, ih, if_neg Bool.false_ne_true, SetAlike]
    | true =>
      rw [if_pos rfl]
      cases setter with
      | pageCount count =>
        apply iff_of_true rfl
        intro pageCounts cpuIndices h
        cases Option.some.inj h
      | multiNuma pageCounts cpuIndices =>
        constructor
        · intro h pageCounts' cpuIndices' heq
          obtain ⟨rfl, rfl⟩ := Setter.multiNuma.inj (Option.some.inj heq)
          exact h
        · intro h
          apply h pageCounts cpuIndices rfl
      | _ => cases hreplaces

/-- A builder's arrays are checked by both ways of building exactly when those that were set last
have one length. -/
theorem arraysChecked_iff (sys : WkspSys) (setters : List Setter) :
  (build setters).ArraysChecked sys ↔ SetAlike setters
  := arraysChecked_iff_balanced.trans (balanced_build setters)

/-- A library that refuses everything. -/
def refusing : WkspSys where
  newAnon _ := none
  newNamed _ _ := -1
  attach _ := none

/-- Two counts of pages and one processor are given to the library by `build_named`. -/
theorem not_arraysChecked :
  ¬ ∀ (sys : WkspSys) (setters : List Setter), (build setters).ArraysChecked sys
  := by
  intro h
  have hnamed := (h refusing [.name "wksp", .multiNuma [64, 64] [0]]).named
    (.newNamed ((build [.name "wksp", .multiNuma [64, 64] [0]]).namedArgs "wksp") 0o666)
  have hlengths : 2 = 2 ∧ 2 = 1 := hnamed (by decide)
  omega

end WorkspaceBuilder

end FdWksp

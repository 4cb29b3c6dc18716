import Mathlib.Algebra.Ring.Nat

/-!
# Writers with a limit

A writer appends data to a buffer one write after another. A write asks for room before it
appends, at least as much as it appends, and the writer stops with an error at the first
write for which the limit leaves no room. Whether it stops depends only on the sizes of the
writes (`run_eq`), and fewer writes fit where the others do (`Fits.sublist`). Writes that ask for little
more than they take fit when those after them do (`fits_append_iff`).

A writer that goes on after a write for which there is no room leaves the data of this write out
(`kept`). It ends within the limit, and it leaves nothing out when all of the data fits.
-/

namespace Writer

/-- A write: the room it asks for, and the data it appends. -/
structure Write (α : Type) where
  room : Nat
  data : List α
  length_le : data.length ≤ room

variable {α β ε : Type}

/-- A write that asks for no more room than it takes. -/
def Write.slice (data : List α) : Write α := ⟨data.length, data, Nat.le_refl _⟩

/-- The room a write asks for, and the length of what it appends. -/
def Write.size (w : Write α) : Nat × Nat := (w.room, w.data.length)

/-- Run writes on a buffer. -/
def run (limit : Nat) (e : ε) : List (Write α) → List α → Except ε (List α)
  | [], buf => .ok buf
  | w :: ws, buf =>
    if buf.length + w.room > limit then .error e else run limit e ws (buf ++ w.data)

/-- Writes of the given sizes fit below the limit, from an offset on. -/
def Fits (limit : Nat) : Nat → List (Nat × Nat) → Prop
  | _, [] => True
  | off, (room, len) :: sizes => off + room ≤ limit ∧ Fits limit (off + len) sizes

instance Fits.decidable (limit : Nat) :
    ∀ (off : Nat) (sizes : List (Nat × Nat)), Decidable (Fits limit off sizes)
  | _, [] => .isTrue trivial
  | off, (_, len) :: sizes =>
    have := Fits.decidable limit (off + len) sizes
    inferInstanceAs (Decidable (_ ∧ _))

variable {limit off off' : Nat} {e : ε}

/-- Writes that fit append their data, and others stop with the error. -/
theorem run_eq :
  ∀ (ws : List (Write α)) (buf : List α),
    run limit e ws buf
      = if Fits limit buf.length (ws.map Write.size) then .ok (buf ++ ws.flatMap Write.data)
        else .error e
  | [], buf => by simp [run, Fits]
  | w :: ws, buf => by
      have hfits : Fits limit buf.length ((w :: ws).map Write.size)
          ↔ buf.length + w.room ≤ limit
            ∧ Fits limit (buf.length + w.data.length) (ws.map Write.size) := Iff.rfl
      rw [run]
      by_cases h : buf.length + w.room ≤ limit
      · rw [if_neg (Nat.not_lt.mpr h), run_eq ws]
        simp only [hfits, h, true_and, List.length_append, List.append_assoc, List.flatMap_cons]
      · rw [if_pos (Nat.not_le.mp h), if_neg fun hfits => h hfits.1]

theorem run_singleton (w : Write α) (buf : List α) :
  run limit e [w] buf
    = if buf.length + w.room > limit then .error e else .ok (buf ++ w.data)
  := by
  rw [run, run]

/-- Writes one after the other run one after the other. -/
theorem run_append :
  ∀ (ws ws' : List (Write α)) (buf : List α),
    run limit e (ws ++ ws') buf = run limit e ws buf >>= fun buf => run limit e ws' buf
  | [], _, _ => rfl
  | w :: ws, ws', buf => by
      rw [List.cons_append, run, run]
      split
      · rfl
      · apply run_append ws ws'

/-- A fold of writers is one writer. -/
theorem foldlM_run (f : β → List (Write α)) :
  ∀ (bs : List β) (buf : List α),
    bs.foldlM (fun buf b => run limit e (f b) buf) buf = run limit e (bs.flatMap f) buf
  | [], _ => rfl
  | b :: bs, buf => by
      simp only [List.foldlM_cons, List.flatMap_cons, run_append, foldlM_run f bs]

/-- Writes that fit keep fitting at an earlier offset. -/
theorem Fits.of_le :
  ∀ {sizes : List (Nat × Nat)} {off off' : Nat},
    off' ≤ off → Fits limit off sizes → Fits limit off' sizes
  | [], _, _, _, _ => trivial
  | (_, _) :: _, _, _, hoff, h => by
      constructor
      · have := h.1
        omega
      · apply Fits.of_le _ h.2
        omega

/-- Some of the writes that fit still fit without the others. -/
theorem Fits.sublist {sizes sizes' : List (Nat × Nat)} (hsub : sizes'.Sublist sizes) :
  ∀ {off : Nat}, Fits limit off sizes → Fits limit off sizes'
  := by
  induction hsub with
  | slnil => exact fun h => h
  | cons size _ ih =>
    intro off h
    apply ih
    apply Fits.of_le (Nat.le_add_right off size.2) h.2
  | cons_cons size _ ih =>
    intro off h
    exact ⟨h.1, ih h.2⟩

/-- What writes that fit append ends within the limit. -/
theorem Fits.length_le :
  ∀ {ws : List (Write α)} {off : Nat}, off ≤ limit →
    Fits limit off (ws.map Write.size) → off + (ws.flatMap Write.data).length ≤ limit
  | [], _, hoff, _ => hoff
  | w :: ws, off, _, h => by
      have hdata := w.length_le
      have hnext : off + w.data.length ≤ limit := by
        have hroom : off + w.room ≤ limit := h.1
        omega
      have hrest := Fits.length_le hnext h.2
      rw [List.flatMap_cons, List.length_append]
      omega

/-- The length of what writes of the given sizes append. -/
def total (sizes : List (Nat × Nat)) : Nat := (sizes.map Prod.snd).sum

@[simp]
theorem total_nil :
  total [] = 0
  := rfl

@[simp]
theorem total_cons (size : Nat × Nat) (sizes : List (Nat × Nat)) :
  total (size :: sizes) = size.2 + total sizes
  := by
  simp [total]

@[simp]
theorem total_append (sizes sizes' : List (Nat × Nat)) :
  total (sizes ++ sizes') = total sizes + total sizes'
  := by
  simp [total]

/-- Writes in front of others that ask for enough room fit whenever these do, as long as none of
them asks for more beyond what it takes. -/
theorem fits_append_iff {tail : List (Nat × Nat)} {spare : Nat}
    (htail : ∀ off, Fits limit off tail → off + spare ≤ limit) :
  ∀ {sizes : List (Nat × Nat)} (off : Nat), (∀ size ∈ sizes, size.1 ≤ size.2 + spare) →
    (Fits limit off (sizes ++ tail) ↔ Fits limit (off + total sizes) tail)
  | [], off, _ => Iff.rfl
  | (room, len) :: sizes, off, hspare => by
      obtain ⟨hroom, hspare⟩ := List.forall_mem_cons.mp hspare
      have ih := fits_append_iff htail (off + len) hspare
      rw [total_cons, ← Nat.add_assoc, ← ih]
      constructor
      · apply And.right
      · intro h
        have hend := htail _ (ih.mp h)
        dsimp only at hroom
        exact ⟨by omega, h⟩

/-! ### Writers that go on -/

/-- The data that is written when each write is left out for which there is no room. -/
def kept (limit : Nat) : Nat → List (List α) → List (List α)
  | _, [] => []
  | off, data :: rest =>
    if off + data.length > limit then kept limit off rest
    else data :: kept limit (off + data.length) rest

/-- What is written ends within the limit. -/
theorem length_kept_le :
  ∀ {off : Nat} (parts : List (List α)), off ≤ limit →
    off + (kept limit off parts).flatten.length ≤ limit
  | _, [], hoff => hoff
  | off, data :: rest, hoff => by
      rw [kept]
      split
      · apply length_kept_le rest hoff
      · next hfit =>
        have ih := length_kept_le rest (Nat.not_lt.mp hfit)
        rw [List.flatten_cons, List.length_append]
        omega

/-- Nothing is left out when all of the data fits. -/
theorem kept_eq_self :
  ∀ {off : Nat} {parts : List (List α)}, off + parts.flatten.length ≤ limit →
    kept limit off parts = parts
  | _, [], _ => rfl
  | off, data :: rest, h => by
      rw [List.flatten_cons, List.length_append] at h
      rw [kept, if_neg (by omega), kept_eq_self (by omega)]

end Writer

import Mathlib.Data.List.Infix
import Mathlib.Tactic.Common

/-!
# Concatenated frames

A format of frames says which strings are frames, and what the content of each is. When no frame is
a proper prefix of another, a string is a concatenation of frames in one way only
(`Concat.of_append`), and what is cut off inside a frame is no concatenation of frames
(`Truncated.not_concat`).
-/

/-- The frames among the strings over `α`, with their contents. -/
structure FrameFormat (α β : Type) where
  content : List α → Option (List β)
  content_nil : content [] = none
  prefixFree : ∀ {f g : List α}, (content f).isSome = true → (content g).isSome = true → f <+: g →
    f = g

namespace FrameFormat

variable {α β : Type} (fmt : FrameFormat α β) (ok ok' : List α → Prop)

/-- A concatenation of frames that satisfy a condition, and the concatenation of their contents. -/
inductive Concat : List α → List β → Prop where
  | nil : Concat [] []
  | cons {f data : List α} {c out : List β} (hf : fmt.content f = some c) (hok : ok f)
      (h : Concat data out) : Concat (f ++ data) (c ++ out)

/-- Some frames, and a part of another frame that is neither empty nor all of it. -/
def Truncated (data : List α) : Prop :=
  ∃ done out part rest, Concat fmt ok done out ∧ data = done ++ part ∧ part ≠ [] ∧ rest ≠ []
    ∧ (fmt.content (part ++ rest)).isSome = true

variable {fmt ok ok'} {f data done : List α} {c out outDone : List β}

theorem Concat.append {data' : List α} {out' : List β} (h : Concat fmt ok data out)
    (h' : Concat fmt ok data' out') :
  Concat fmt ok (data ++ data') (out ++ out')
  := by
  induction h with
  | nil => exact h'
  | cons hf hok _ ih =>
    rw [List.append_assoc, List.append_assoc]
    apply ih.cons hf hok

/-- One frame more. -/
theorem Concat.snoc (h : Concat fmt ok data out) (hf : fmt.content f = some c) (hok : ok f) :
  Concat fmt ok (data ++ f) (out ++ c)
  := by
  have hlast := Concat.nil.cons hf hok
  rw [List.append_nil, List.append_nil] at hlast
  apply h.append hlast

theorem ne_nil_of_content (hf : fmt.content f = some c) :
  f ≠ []
  := by
  rintro rfl
  rw [fmt.content_nil] at hf
  cases hf

theorem Concat.eq_nil (h : Concat fmt ok [] out) :
  out = []
  := by
  generalize hnil : ([] : List α) = data at h
  cases h with
  | nil => rfl
  | cons hf _ _ => exact absurd (List.append_eq_nil_iff.mp hnil.symm).1 (ne_nil_of_content hf)

/-- A frame in front is the first frame. -/
theorem Concat.of_frame_append (h : Concat fmt ok (f ++ data) out) (hf : fmt.content f = some c) :
  ∃ out', out = c ++ out' ∧ Concat fmt ok data out'
  := by
  generalize hwhole : f ++ data = whole at h
  cases h with
  | nil => exact absurd (List.append_eq_nil_iff.mp hwhole).1 (ne_nil_of_content hf)
  | @cons g rest c' out' hg _ hrest =>
    have hsome : (fmt.content f).isSome = true := by rw [hf, Option.isSome_some]
    have hsome' : (fmt.content g).isSome = true := by rw [hg, Option.isSome_some]
    have hprefix : f <+: g ++ rest := by
      rw [← hwhole]
      apply List.prefix_append _ _
    have hfg : f = g := by
      rcases List.prefix_or_prefix_of_prefix hprefix (List.prefix_append _ _) with h | h
      · apply fmt.prefixFree hsome hsome' h
      · apply (fmt.prefixFree hsome' hsome h).symm
    subst hfg
    rw [hf] at hg
    cases hg
    rw [List.append_cancel_left hwhole]
    exact ⟨out', rfl, hrest⟩

/-- Frames in front are the first frames. -/
theorem Concat.of_append (hdone : Concat fmt ok done outDone)
    (h : Concat fmt ok' (done ++ data) out) :
  ∃ out', out = outDone ++ out' ∧ Concat fmt ok' data out'
  := by
  induction hdone generalizing out with
  | nil => exact ⟨out, rfl, h⟩
  | cons hf _ _ ih =>
    rw [List.append_assoc] at h
    obtain ⟨outRest, rfl, hrest⟩ := h.of_frame_append hf
    obtain ⟨out', rfl, hdata⟩ := ih hrest
    exact ⟨out', (List.append_assoc ..).symm, hdata⟩

/-- What begins with a part of a frame begins with no frame. -/
theorem Truncated.not_concat (h : Truncated fmt ok data) :
  ¬Concat fmt ok' data out
  := by
  obtain ⟨done, outDone, part, rest, hdone, rfl, hpart, hrest, hframe⟩ := h
  intro hconcat
  obtain ⟨out', -, hconcat⟩ := hdone.of_append hconcat
  cases hconcat with
  | nil => exact hpart rfl
  | @cons g data c _ hg _ _ =>
    have hsome : (fmt.content g).isSome = true := by rw [hg, Option.isSome_some]
    have hprefix : g <+: g ++ data ++ rest := by
      rw [List.append_assoc]
      apply List.prefix_append _ _
    have hwhole := fmt.prefixFree hsome hframe hprefix
    rw [List.append_assoc, List.self_eq_append_right, List.append_eq_nil_iff] at hwhole
    apply hrest hwhole.2

end FrameFormat

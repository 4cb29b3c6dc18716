import FiredancerRs.Lib.Decoder
import Mathlib.Data.List.Forall2

/-!
# Streams of messages

`readAll` reads messages from a stream as long as a decoder reads one. A decoder is stable when what
it reads does not change with more tokens (`Decoder.Stable`). Of a stream of messages that comes in
parts it then has always read those messages that have come whole, and no others
(`readAll_whole`).
-/

namespace Decoder

variable {τ α β : Type} {d : Decoder τ α}

/-- What the decoder reads stays the same when more tokens follow. -/
def Stable (d : Decoder τ α) : Prop :=
  ∀ s a rest more, d s = some (a, rest) → d (s ++ more) = some (a, rest ++ more)

theorem Stable.pure (a : α) :
  Stable (pure a : Decoder τ α)
  := by
  rintro s b rest more ⟨⟩
  rfl

theorem Stable.fail :
  Stable (fail : Decoder τ α)
  := by
  rintro s a rest more ⟨⟩

theorem Stable.take (n : Nat) :
  Stable (take n : Decoder τ (List τ))
  := by
  intro s a rest more h
  rw [Decoder.take] at h
  split at h
  case isFalse => cases h
  case isTrue hle =>
    obtain ⟨rfl, rfl⟩ := Prod.mk.inj (Option.some.inj h)
    have hmore : n ≤ (s ++ more).length := by
      rw [List.length_append]
      apply Nat.le_add_right_of_le hle
    rw [Decoder.take, if_pos hmore, List.take_append_of_le_length hle,
      List.drop_append_of_le_length hle]

theorem Stable.bind {f : α → Decoder τ β} (hd : d.Stable) (hf : ∀ a, (f a).Stable) :
  (d >>= f).Stable
  := by
  intro s b rest more h
  simp only [Bind.bind] at h ⊢
  cases hs : d s with
  | none =>
    rw [hs] at h
    cases h
  | some result =>
    obtain ⟨a, s'⟩ := result
    rw [hs] at h
    rw [hd s a s' more hs]
    apply hf a s' b rest more h

/-- The messages at the front of a stream, at most so many, and what is left unread. -/
def readAll (d : Decoder τ α) : Nat → List τ → List α × List τ
  | 0, s => ([], s)
  | n + 1, s =>
    match d s with
    | none => ([], s)
    | some (a, rest) =>
      let (as, rest) := readAll d n rest
      (a :: as, rest)

variable {texts : List (List τ)} {messages : List α} {s rest : List τ} {n : Nat}

theorem readAll_some {a : α} (h : d s = some (a, rest)) :
  d.readAll (n + 1) s = (a :: (d.readAll n rest).1, (d.readAll n rest).2)
  := by rw [readAll, h]

theorem readAll_none (h : d s = none) :
  d.readAll n s = ([], s)
  := by
  cases n with
  | zero => rfl
  | succ n => rw [readAll, h]

/-- A text that is read has tokens, when nothing is read without them. -/
theorem Reads.ne_nil {text : List τ} {a : α} (h : d.Reads text a) (hnil : d [] = none) :
  text ≠ []
  := by
  rintro rfl
  have hread := h []
  rw [List.append_nil, hnil] at hread
  cases hread

/-- There are no more texts than tokens. -/
theorem length_le_length_flatten (h : List.Forall₂ d.Reads texts messages) (hnil : d [] = none) :
  messages.length ≤ texts.flatten.length
  := by
  induction h with
  | nil => apply Nat.zero_le
  | cons hread _ ih =>
    have hpos := List.length_pos_of_ne_nil (hread.ne_nil hnil)
    rw [List.flatten_cons, List.length_append, List.length_cons, Nat.add_comm]
    apply Nat.add_le_add hpos ih

/-- Messages that have come whole are read, and then what follows them. -/
theorem readAll_append (h : List.Forall₂ d.Reads texts messages) :
  d.readAll (messages.length + n) (texts.flatten ++ rest)
    = (messages ++ (d.readAll n rest).1, (d.readAll n rest).2)
  := by
  induction h with
  | nil => simp
  | cons hread _ ih =>
    rw [List.flatten_cons, List.append_assoc, List.length_cons, Nat.add_right_comm,
      readAll_some (hread _), ih]
    rfl

/-- Messages that have come whole are read. -/
theorem prefix_readAll (h : List.Forall₂ d.Reads texts messages) (hnil : d [] = none)
    (hs : texts.flatten <+: s) (hle : s.length ≤ n) :
  messages <+: (d.readAll n s).1
  := by
  obtain ⟨rest, rfl⟩ := hs
  have hfuel : n = messages.length + (n - messages.length) := by
    have hlen := length_le_length_flatten h hnil
    rw [List.length_append] at hle
    omega
  rw [hfuel, readAll_append h]
  apply List.prefix_append

/-- Of a part of a stream of messages the first messages are read, and the rest of the part is left
unread. -/
theorem readAll_part (hstable : d.Stable) (h : List.Forall₂ d.Reads texts messages)
    (hnil : d [] = none) (hs : s <+: texts.flatten) :
  ∃ k ≤ messages.length, (d.readAll n s).1 = messages.take k
    ∧ (texts.take k).flatten ++ (d.readAll n s).2 = s
  := by
  induction h generalizing s n with
  | nil =>
    obtain rfl := List.prefix_nil.mp hs
    use 0, Nat.le_refl 0
    rw [readAll_none hnil]
    exact ⟨rfl, rfl⟩
  | cons hread _ ih =>
    cases hd : d s with
    | none =>
      use 0, Nat.zero_le _
      rw [readAll_none hd]
      exact ⟨rfl, rfl⟩
    | some result =>
      cases n with
      | zero => exact ⟨0, Nat.zero_le _, rfl, rfl⟩
      | succ n =>
        obtain ⟨a, rest⟩ := result
        obtain ⟨more, hmore⟩ := hs
        -- what is read of the part is read of the whole, which begins with the message
        have hwhole := hstable s a rest more hd
        rw [hmore, List.flatten_cons, hread] at hwhole
        obtain ⟨rfl, hrest⟩ := Prod.mk.inj (Option.some.inj hwhole)
        obtain ⟨k, hk, hread', hleft⟩ := @ih rest n ⟨more, hrest.symm⟩
        use k + 1, Nat.succ_le_succ hk
        rw [readAll_some hd, hread']
        use rfl
        rw [List.take_succ_cons, List.flatten_cons, List.append_assoc, hleft]
        rw [List.flatten_cons, hrest, ← List.append_assoc] at hmore
        apply (List.append_cancel_right hmore).symm

/-- Of a part of a stream of messages exactly those are read that have come whole. -/
theorem readAll_whole (hstable : d.Stable) (h : List.Forall₂ d.Reads texts messages)
    (hnil : d [] = none) (hs : s <+: texts.flatten) (hle : s.length ≤ n) :
  ∃ k ≤ messages.length, (d.readAll n s).1 = messages.take k
    ∧ (texts.take k).flatten ++ (d.readAll n s).2 = s
    ∧ ∀ j ≤ messages.length, (texts.take j).flatten <+: s → j ≤ k
  := by
  obtain ⟨k, hk, hread, hrest⟩ := @readAll_part _ _ d _ _ s n hstable h hnil hs
  refine ⟨k, hk, hread, hrest, ?_⟩
  intro j hj hwhole
  have hstarts := prefix_readAll (List.forall₂_take j h) hnil hwhole hle
  have hlen := hstarts.length_le
  rwa [hread, List.length_take_of_le hj, List.length_take_of_le hk] at hlen

end Decoder

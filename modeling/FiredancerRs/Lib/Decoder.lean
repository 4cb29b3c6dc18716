import Mathlib.Tactic.Common

/-!
# Decoders

A `Decoder τ α` reads an `α` from the front of a list of tokens and returns what is left.
`Decoder.Reads d s a` says that `d` reads exactly `s` as `a`, whatever follows it; the
rules `Reads.pure`, `Reads.bind`, `Reads.take` and `Reads.replicate` compose such facts
along the structure of a decoder, so that a round trip is proved part by part.
-/

/-- A decoder of `α` from a list of tokens, returning the unread tokens. -/
def Decoder (τ α : Type) : Type := List τ → Option (α × List τ)

namespace Decoder

variable {τ α β : Type}

instance : Monad (Decoder τ) where
  pure a := fun s => some (a, s)
  bind d f := fun s =>
    match d s with
    | none => none
    | some (a, s) => f a s

/-- The decoder that fails. -/
def fail : Decoder τ α := fun _ => none

/-- The next `n` tokens. -/
def take (n : Nat) : Decoder τ (List τ) := fun s =>
  if n ≤ s.length then some (s.take n, s.drop n) else none

/-- The next token. -/
def next : Decoder τ τ := fun s =>
  match s with
  | [] => none
  | t :: s => some (t, s)

/-- The next token, left unread. -/
def peek : Decoder τ τ := fun s =>
  match s with
  | [] => none
  | t :: s => some (t, t :: s)

/-- Read `n` times. -/
def replicate (d : Decoder τ α) : Nat → Decoder τ (List α)
  | 0 => pure []
  | n + 1 => do
    let a ← d
    let as ← replicate d n
    pure (a :: as)

/-- `d` reads exactly the tokens `s`, as `a`, in front of any other tokens. -/
def Reads (d : Decoder τ α) (s : List τ) (a : α) : Prop :=
  ∀ rest, d (s ++ rest) = some (a, rest)

theorem Reads.pure (a : α) :
  Reads (pure a : Decoder τ α) [] a
  := fun _ => rfl

theorem Reads.bind
    {d : Decoder τ α} {f : α → Decoder τ β} {s s' : List τ} {a : α} {b : β}
    (hd : d.Reads s a) (hf : (f a).Reads s' b) :
  (d >>= f).Reads (s ++ s') b
  := by
  intro rest
  change (match d (s ++ s' ++ rest) with | none => none | some (a, s) => f a s) = _
  rw [List.append_assoc, hd]
  apply hf

/-- A decoder that reads `s` and then returns reads `s`. -/
theorem Reads.bind_pure
    {d : Decoder τ α} {f : α → Decoder τ β} {s : List τ} {a : α} {b : β}
    (hd : d.Reads s a) (hf : (f a).Reads [] b) :
  (d >>= f).Reads s b
  := by
  have h := hd.bind hf
  rwa [List.append_nil] at h

theorem Reads.take {s : List τ} {n : Nat} (h : s.length = n) :
  (take n).Reads s s
  := by
  intro rest
  subst h
  simp [Decoder.take]

theorem Reads.next (t : τ) :
  next.Reads [t] t
  := fun _ => rfl

/-- Peeking and then reading `s` reads `s`, when `s` begins with the token peeked at. -/
theorem Reads.peek_bind {f : τ → Decoder τ α} {t : τ} {s : List τ} {a : α}
    (hf : (f t).Reads (t :: s) a) :
  (peek >>= f).Reads (t :: s) a
  := fun rest => hf rest

theorem Reads.replicate {d : Decoder τ α} {encode : α → List τ} :
  ∀ {as : List α}, (∀ a ∈ as, d.Reads (encode a) a) →
    (d.replicate as.length).Reads (as.flatMap encode) as
  | [], _ => Reads.pure []
  | a :: as, h => by
      apply Reads.bind (h a (List.mem_cons_self ..))
      apply Reads.bind_pure
      · apply Reads.replicate
        intro b hb
        apply h b (List.mem_cons_of_mem a hb)
      · apply Reads.pure

end Decoder

import FiredancerRs.Http.Framed
import FiredancerRs.Http.Port

/-!
# Messages

Framed responses, and what `read_response` takes from a port whose pumps append what they receive to
its ring. While what it has taken is a part of one message, the loop for the header block ends with
what the block of the message says (`headerLoop_takes`).
-/

namespace FdRpc.Http

variable {δ ε σ : Type} {phr : Phr δ} {P : Port ε σ} {received : σ → List UInt8}

/-- A framed response, of fewer bytes than a word counts. -/
structure Message (phr : Phr δ) where
  block : HeaderBlock phr
  raw : List UInt8
  body : List UInt8
  framing : Framing phr block.headers raw body
  length_lt : block.bytes.length + raw.length < 2 ^ 64

/-- The bytes of a message. -/
def Message.bytes (m : Message phr) : List UInt8 := m.block.bytes ++ m.raw

/-- A port whose pumps append to its ring what they receive. -/
structure Port.Receives (P : Port ε σ) (received : σ → List UInt8) : Prop where
  pump : ∀ e port, ∃ bytes, P.rx (P.pump e port).2 = P.rx port ++ bytes
    ∧ received (P.pump e port).2 = received port ++ bytes
  rx_setRx : ∀ bytes port, P.rx (P.setRx bytes port) = bytes
  received_setRx : ∀ bytes port, received (P.setRx bytes port) = received port

/-- Some bytes have been taken from the ring since a port: they are the first of those that lay in
the ring and were received since. -/
def Taken (P : Port ε σ) (received : σ → List UInt8) (start : σ) (taken : List UInt8)
    (port : σ) : Prop :=
  ∃ more, received port = received start ++ more ∧ P.rx start ++ more = taken ++ P.rx port

/-! ### Parts of a turn -/

section

variable {start : σ} {taken : List UInt8} {port : σ} {α β st : Type}

theorem Taken.refl :
  Taken P received start [] start
  := ⟨[], (List.append_nil _).symm, List.append_nil _⟩

theorem Taken.pump (hP : P.Receives received) (h : Taken P received start taken port) (e : ε) :
  Taken P received start taken (P.pump e port).2
  := by
  obtain ⟨more, hreceived, hring⟩ := h
  obtain ⟨bytes, hrx, hmore⟩ := hP.pump e port
  use more ++ bytes
  constructor
  · rw [hmore, hreceived, List.append_assoc]
  · rw [hrx, ← List.append_assoc, hring, List.append_assoc]

theorem Taken.pop (hP : P.Receives received) (h : Taken P received start taken port)
    {popped rest : List UInt8} (hring : P.rx port = popped ++ rest) :
  Taken P received start (taken ++ popped) (P.setRx rest port)
  := by
  obtain ⟨more, hreceived, htaken⟩ := h
  use more
  constructor
  · rw [hP.received_setRx, hreceived]
  · rw [hP.rx_setRx, htaken, hring, List.append_assoc]

/-- From an empty ring, all that was received has been taken when the bytes that were taken are
all that could be received. -/
theorem Taken.all (h : Taken P received start taken port) (hstart : P.rx start = [])
    (hreceived : received port <+: received start ++ taken) :
  received port = received start ++ taken ∧ P.rx port = []
  := by
  obtain ⟨more, hmore, hring⟩ := h
  rw [hstart, List.nil_append] at hring
  subst hring
  rw [hmore, List.prefix_append_right_inj] at hreceived
  obtain ⟨rest, hrest⟩ := hreceived
  rw [List.append_assoc, List.append_right_eq_self] at hrest
  obtain ⟨hnil, -⟩ := List.append_eq_nil_iff.mp hrest
  rw [hmore, hnil, List.append_nil]
  exact ⟨rfl, rfl⟩

/-- From an empty ring, what was taken comes first in what was received. -/
theorem Taken.isPrefix (h : Taken P received start taken port) (hstart : P.rx start = []) :
  received start ++ taken <+: received port
  := by
  obtain ⟨more, hmore, hring⟩ := h
  rw [hstart, List.nil_append] at hring
  rw [hmore, hring, List.prefix_append_right_inj]
  apply List.prefix_append _ _

/-- A call ends with `scratch` no longer than a vector. What it returns has to do with the bytes it
has taken, and that a status is bad is not one of its errors. -/
structure Yields (P : Port ε σ) (received : σ → List UInt8) (start : σ)
    (result : α → List UInt8 → List UInt8 → Prop) (r : Except Stop α × Client σ) : Prop where
  length_le : r.2.scratch.length ≤ isizeMax
  ok : ∀ a, r.1 = .ok a → ∃ taken, Taken P received start taken r.2.port
    ∧ result a taken r.2.scratch
  error : ∀ stop, r.1 = .error stop → ∀ status, stop ≠ .failed (.badStatus status)

variable {result : α → List UInt8 → List UInt8 → Prop} {client : Client σ} {stop : Stop}

theorem yields_error (h : client.scratch.length ≤ isizeMax)
    (hstop : ∀ status, stop ≠ .failed (.badStatus status)) :
  Yields P received start result (.error stop, client)
  where
  length_le := h
  ok := by simp
  error := by
    rintro _ ⟨⟩
    apply hstop

theorem yields_panic (h : client.scratch.length ≤ isizeMax) {x : Except Stop β}
    (hx : OnlyPanics x) (hstop : x = .error stop) :
  Yields P received start result (.error stop, client)
  := by
  apply yields_error h
  rintro status rfl
  exact hx _ hstop

theorem yields_ok {a : α} (h : client.scratch.length ≤ isizeMax)
    (htaken : Taken P received start taken client.port) (hresult : result a taken client.scratch) :
  Yields P received start result (.ok a, client)
  where
  length_le := h
  ok := by
    rintro _ ⟨⟩
    exact ⟨taken, htaken, hresult⟩
  error := by simp

variable {more : st → Prop}

theorem yields_check {x : Except Stop β} (hx : OnlyPanics x)
    (h : client.scratch.length ≤ isizeMax)
    {k : β → Turns.Step st (Except Stop α × Client σ)}
    (hk : ∀ b, x = .ok b → (k b).Holds more (Yields P received start result)) :
  (check client x k).Holds more (Yields P received start result)
  := by
  cases x with
  | error stop => exact yields_panic h hx rfl
  | ok b => exact hk b rfl

theorem yields_pumpTurn (hP : P.Receives received) {t : Turn ε}
    (h : client.scratch.length ≤ isizeMax) (htaken : Taken P received start taken client.port)
    {k : Client σ → Turns.Step st (Except Stop α × Client σ)}
    (hk : ∀ port, Taken P received start taken port →
      (k { client with port := port }).Holds more (Yields P received start result)) :
  (pumpTurn P t client k).Holds more (Yields P received start result)
  := by
  rw [pumpTurn]
  simp only
  split
  · exact yields_error h (by simp)
  · exact hk _ (htaken.pump hP t.pump)

theorem yields_idleTurn {s : Settings} {t : Turn ε} (h : client.scratch.length ≤ isizeMax)
    {again : st} (hagain : more again) :
  (idleTurn s t client again : Turns.Step st (Except Stop α × Client σ)).Holds more
    (Yields P received start result)
  := by
  apply yields_check (onlyPanics_timedOut _) h
  intro expired _
  split
  · apply yields_error h (by simp)
  · apply hagain

/-- Popping bytes into `scratch`. -/
theorem yields_rxPop (hP : P.Receives received) {pos : Nat}
    (h : client.scratch.length ≤ isizeMax) (htaken : Taken P received start taken client.port)
    {k : Nat × Client σ → Turns.Step st (Except Stop α × Client σ)}
    (hk : ∀ popped port, Taken P received start (taken ++ popped) port →
      pos + popped.length ≤ client.scratch.length →
      (k (popped.length,
        { scratch := Buffer.overwrite client.scratch pos popped, port := port })).Holds more
        (Yields P received start result)) :
  (check client (client.rxPop P pos) k).Holds more (Yields P received start result)
  := by
  rw [Client.rxPop]
  by_cases hlt : client.scratch.length < pos
  · rw [if_pos hlt]
    apply yields_error h (by simp)
  · rw [if_neg hlt]
    apply hk
    · apply htaken.pop hP
      apply (List.prefix_iff_eq_append.mp (List.take_prefix _ _)).symm
    · rw [List.length_take]
      omega

end

/-! ### The header block -/

variable {s : Settings} {t : Turn ε} {turns : List (Turn ε)} {start : σ} {m : Message phr}

/-- What the loop for the header block ends with: if a part of the message was taken, its header
block is there and has been parsed. -/
def HeaderOf (m : Message phr) (found : HeaderInfo × Nat) (taken scratch : List UInt8) : Prop :=
  found.2 ≤ scratch.length ∧ scratch.take found.2 = taken
    ∧ (taken <+: m.bytes → found.1 = m.block.info ∧ m.block.bytes.length ≤ found.2)

/-- What has been taken is in `scratch`, and is shorter than the header block if it is a part of the
message. -/
structure HeaderTaken (P : Port ε σ) (received : σ → List UInt8) (start : σ) (m : Message phr)
    (st : Filling σ) : Prop where
  length_le : st.client.scratch.length ≤ isizeMax
  filled_le : st.filled ≤ st.client.scratch.length
  taken : Taken P received start (st.client.scratch.take st.filled) st.client.port
  filled_lt : st.client.scratch.take st.filled <+: m.bytes → st.filled < m.block.bytes.length

/-- One turn of the loop. -/
theorem headerTurn_takes (hP : P.Receives received) {st : Filling σ}
    (h : HeaderTaken P received start m st) :
  (headerTurn phr P s t st).Holds (HeaderTaken P received start m)
    (Yields P received start (HeaderOf m))
  := by
  obtain ⟨⟨scratch, port⟩, filled⟩ := st
  obtain ⟨hlength, hfilled, htaken, hlt⟩ := h
  simp only at hlength hfilled htaken hlt
  apply yields_pumpTurn hP hlength htaken
  intro port htaken
  apply yields_rxPop hP hlength htaken
  intro popped port htaken hroom
  have hsize := Buffer.length_overwrite hroom
  have hscratch := hsize.trans_le hlength
  have htake := @Buffer.take_overwrite _ scratch popped _ hfilled
  rw [← htake] at htaken
  simp only at hroom hsize hscratch htake htaken ⊢
  by_cases hpos : 0 < popped.length
  · have hadd : usizeAdd s.overflowChecks filled popped.length = .ok (filled + popped.length) :=
      usizeAdd_eq (lt_of_le_of_lt (hroom.trans hlength) isizeMax_lt)
    have hlen : ((Buffer.overwrite scratch filled popped).take (filled + popped.length)).length
        = filled + popped.length := List.length_take_of_le (hsize.symm ▸ hroom)
    -- what was taken before is a part of the message if all that is taken now is one
    have hparse := fun hpart => @tryParseHeaders_cases _ phr m.block
      (Buffer.overwrite scratch filled popped) (filled + popped.length) filled m.raw hpart
      (hlt ((htake ▸ List.prefix_append _ _).trans hpart)) (by omega)
    rw [hlen] at hparse
    simp only [hpos, if_true, hadd, check_ok]
    split
    case h_1 info hinfo =>
      apply yields_ok hscratch htaken
      use hsize.symm ▸ hroom, rfl
      intro hpart
      rcases hparse hpart with herror | ⟨hthere, hcomplete⟩ | ⟨-, hincomplete⟩
      · rw [hinfo] at herror
        cases herror
      · rw [hinfo] at hcomplete
        exact ⟨HeaderResult.complete.inj hcomplete, hthere⟩
      · rw [hinfo] at hincomplete
        cases hincomplete
    case h_2 => exact yields_error hscratch (by simp)
    case h_3 hincomplete =>
      split
      · apply yields_error hscratch (by simp)
      · constructor
        · apply hscratch
        · apply hsize.symm ▸ hroom
        · apply htaken
        · intro hpart
          rcases hparse hpart with herror | ⟨-, hcomplete⟩ | ⟨hlt, -⟩
          · rw [hincomplete] at herror
            cases herror
          · rw [hincomplete] at hcomplete
            cases hcomplete
          · apply hlt
  · obtain rfl : popped = [] := List.length_eq_zero_iff.mp (Nat.eq_zero_of_not_pos hpos)
    rw [List.append_nil] at htake
    simp only [hpos, if_false]
    apply yields_idleTurn hscratch
    constructor
    · apply hscratch
    · apply hsize.symm ▸ hfilled
    · apply htaken
    · intro hpart
      apply hlt (htake ▸ hpart)

/-- The loop for the header block. -/
theorem headerLoop_takes (hP : P.Receives received) {st : Filling σ}
    (h : HeaderTaken P received start m st) :
  (Turns.run (headerTurn phr P s) turns st).Holds (HeaderTaken P received start m)
    fun r _ => Yields P received start (HeaderOf m) r
  := Turns.run_keeps (fun _ _ => headerTurn_takes hP) h

/-- A call begins with nothing taken. -/
theorem headerTaken_start {client : Client σ} (h : client.scratch.length ≤ isizeMax) :
  HeaderTaken P received client.port m { client := client, filled := 0 }
  where
  length_le := h
  filled_le := Nat.zero_le _
  taken := .refl
  filled_lt _ := List.length_pos_iff.mpr m.block.nonempty

end FdRpc.Http

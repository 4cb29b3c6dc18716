import FiredancerRs.Http.ReadResponse

/-!
# Bytes that arrive by deliveries

The port at which a stream of bytes arrives by deliveries, one for each pump, however the stream is
split (`feed`). In a quiet turn the connection is open and the time is not over. A list of turns is
patient when, after the last delivery, it has a turn for each byte.
-/

namespace FdRpc.Http

/-- What a pump meets: the bytes that arrive, and whether it finds the connection closed or in
error. -/
structure Delivery where
  bytes : List UInt8
  closed : Bool := false
  error : Bool := false

/-- The port that appends what arrives to its ring. -/
def feed : Port Delivery (List UInt8) where
  pump d ring :=
    ({ rxData := !d.bytes.isEmpty, closed := d.closed, error := d.error }, ring ++ d.bytes)
  rx ring := ring
  setRx ring _ := ring

/-- The bytes that arrive in some turns. -/
def arrivals (turns : List (Turn Delivery)) : List UInt8 := turns.flatMap (·.pump.bytes)

/-- The connection is open and the time is not over. -/
structure Quiet (s : Settings) (t : Turn Delivery) : Prop where
  closed : t.pump.closed = false
  error : t.pump.error = false
  time : timedOut s t.now = .ok false

/-- After the last delivery there is a turn for each byte. -/
def Patient (ring : List UInt8) (turns : List (Turn Delivery)) : Prop :=
  ∃ before after, turns = before ++ after ∧ arrivals after = []
    ∧ ring.length + (arrivals before).length ≤ after.length

variable {s : Settings} {t : Turn Delivery} {ts : List (Turn Delivery)} {ring : List UInt8}

@[simp]
theorem arrivals_nil :
  arrivals [] = []
  := rfl

@[simp]
theorem arrivals_cons :
  arrivals (t :: ts) = t.pump.bytes ++ arrivals ts
  := List.flatMap_cons

theorem Patient.ring_nil (h : Patient ring []) :
  ring = []
  := by
  obtain ⟨before, after, heq, -, hle⟩ := h
  obtain ⟨rfl, rfl⟩ := List.append_eq_nil_iff.mp heq.symm
  apply List.length_eq_zero_iff.mp
  simpa using hle

/-- A turn in which something is popped, or nothing is left to pop, keeps the others patient. -/
theorem Patient.pop {popped rest : List UInt8} (h : Patient ring (t :: ts))
    (hring : ring ++ t.pump.bytes = popped ++ rest) (hpop : popped = [] → rest = []) :
  Patient rest ts
  := by
  obtain ⟨before, after, heq, hafter, hle⟩ := h
  have hlength := congrArg List.length hring
  simp only [List.length_append] at hlength
  cases before with
  | nil =>
    obtain rfl : t :: ts = after := heq
    simp only [arrivals_cons, List.append_eq_nil_iff] at hafter
    use [], ts
    use rfl, hafter.2
    simp only [hafter.1, arrivals_nil, List.length_nil, List.length_cons] at hle hlength ⊢
    cases popped with
    | nil => simp [hpop rfl]
    | cons b popped =>
      simp only [List.length_cons] at hlength
      omega
  | cons t' before =>
    obtain ⟨rfl, rfl⟩ := List.cons.inj heq
    use before, after
    use rfl, hafter
    simp only [arrivals_cons, List.length_append] at hle
    omega

/-- The turns are quiet, what has been seen, lies in the ring and is to arrive is the stream, and
the turns are patient if the run is. -/
structure Feeding (s : Settings) (patient : Prop) (stream seen : List UInt8)
    (turns : List (Turn Delivery)) (ring : List UInt8) : Prop where
  quiet : ∀ t ∈ turns, Quiet s t
  stream_eq : seen ++ ring ++ arrivals turns = stream
  patient : patient → Patient ring turns

namespace Feeding

variable {patient : Prop} {stream seen : List UInt8}

/-- A turn in which something is popped, or nothing is left to pop. -/
theorem pop (h : Feeding s patient stream seen (t :: ts) ring) {popped rest : List UInt8}
    (hring : ring ++ t.pump.bytes = popped ++ rest) (hpop : popped = [] → rest = []) :
  Feeding s patient stream (seen ++ popped) ts rest
  where
  quiet t ht := h.quiet t (List.mem_cons_of_mem _ ht)
  stream_eq := by
    rw [← h.stream_eq, List.append_assoc seen, ← hring, arrivals_cons]
    simp only [List.append_assoc]
  patient hp := (h.patient hp).pop hring hpop

/-- What comes first in the stream and has been seen can be left out. -/
theorem drop {first : List UInt8}
    (h : Feeding s patient (first ++ stream) (first ++ seen) ts ring) :
  Feeding s patient stream seen ts ring
  where
  quiet := h.quiet
  stream_eq := by
    have heq := h.stream_eq
    rw [List.append_assoc, List.append_assoc] at heq
    rw [List.append_assoc]
    apply List.append_cancel_left heq
  patient := h.patient

theorem seen_isPrefix (h : Feeding s patient stream seen ts ring) :
  seen <+: stream
  := by
  rw [← h.stream_eq, List.append_assoc]
  apply List.prefix_append

/-- When the turns are over, what has not been seen lies in the ring, and patience empties it. -/
theorem ended (h : Feeding s patient stream seen [] ring) :
  (seen ≠ stream → ring ≠ []) ∧ (patient → ring = [])
  := by
  constructor
  · rintro hseen rfl
    apply hseen
    rw [← h.stream_eq]
    simp
  · intro hp
    apply (h.patient hp).ring_nil

end Feeding

/-! ### What a call is left with -/

/-- A call returns a status and selects a body in `scratch`. -/
structure Selects (status : UInt16) (start : Nat) (body : List UInt8)
    (r : Except Stop Reply × Client (List UInt8)) : Prop where
  result : r.1 = .ok (status, start, body.length)
  inRange : start + body.length ≤ r.2.scratch.length
  slice_eq : Buffer.slice r.2.scratch start body.length = body

/-- A call is waiting: some of the stream is missing, and it has popped all that has come if it was
given the turns for it. -/
structure Waits (patient : Prop) (stream whole : List UInt8) (client : Client (List UInt8)) :
    Prop where
  ring_of_whole : stream = whole → client.port ≠ []
  ring_of_patient : patient → client.port = []

/-- When the turns are over and not all has been seen, the call waits. -/
theorem Feeding.waits {patient : Prop} {stream seen scratch whole : List UInt8}
    (h : Feeding s patient stream seen [] ring) (hseen : stream = whole → seen ≠ stream) :
  Waits patient stream whole { scratch := scratch, port := ring }
  where
  ring_of_whole hwhole := h.ended.1 (hseen hwhole)
  ring_of_patient := h.ended.2

/-- What comes first in the stream makes no difference to a call that waits for the rest. -/
theorem Waits.append {patient : Prop} {stream whole first : List UInt8}
    {client : Client (List UInt8)} (h : Waits patient stream whole client) :
  Waits patient (first ++ stream) (first ++ whole) client
  where
  ring_of_whole hwhole := h.ring_of_whole (List.append_cancel_left hwhole)
  ring_of_patient := h.ring_of_patient

/-! ### Parts of a turn -/

variable {σ ε α β st : Type} {client : Client (List UInt8)}

theorem isizeMax_lt :
  isizeMax < 2 ^ 64
  := by decide

theorem usizeAdd_eq {checks : Bool} {a b : Nat} (h : a + b < 2 ^ 64) :
  usizeAdd checks a b = .ok (a + b)
  := if_pos h

theorem usizeSub_eq {checks : Bool} {a b : Nat} (h : b ≤ a) :
  usizeSub checks a b = .ok (a - b)
  := if_pos h

theorem usizeMul_eq {checks : Bool} {a b : Nat} (h : a * b < 2 ^ 64) :
  usizeMul checks a b = .ok (a * b)
  := if_pos h

theorem vecResize_eq {buf : List UInt8} {n : Nat} (h : n ≤ isizeMax) :
  vecResize buf n = .ok (Buffer.resize buf n 0)
  := if_pos h

@[simp]
theorem check_ok {client : Client σ} {a : α}
    {k : α → Turns.Step st (Except Stop β × Client σ)} :
  check client (.ok a) k = k a
  := rfl

@[simp]
theorem attempt_ok {client : Client σ} {turns : List (Turn ε)} {a : α} {k : α → Reading ε σ} :
  attempt client turns (.ok a) k = k a
  := rfl

/-- In a quiet turn the loop goes on with what has arrived. -/
theorem pumpTurn_quiet (h : Quiet s t)
    {k : Client (List UInt8) → Turns.Step st (Except Stop β × Client (List UInt8))} :
  pumpTurn feed t client k = k { client with port := client.port ++ t.pump.bytes }
  := by
  simp [pumpTurn, feed, h.closed, h.error]

theorem idleTurn_quiet (h : Quiet s t) {again : st} :
  (idleTurn s t client again : Turns.Step st (Except Stop β × Client (List UInt8))) = .more again
  := by
  simp [idleTurn, h.time]

/-- Popping splits the ring, and what is left did not fit. -/
theorem rxPop_feed {start : Nat} (h : start ≤ client.scratch.length) :
  ∃ popped rest, client.port = popped ++ rest
    ∧ client.rxPop feed start = .ok (popped.length,
        { scratch := Buffer.overwrite client.scratch start popped, port := rest })
    ∧ start + popped.length ≤ client.scratch.length
    ∧ (rest ≠ [] → start + popped.length = client.scratch.length)
  := by
  use client.port.take (client.scratch.length - start),
    client.port.drop (client.scratch.length - start)
  constructor
  · apply (List.take_append_drop _ _).symm
  constructor
  · have hdrop : client.port.drop (client.port.take (client.scratch.length - start)).length
        = client.port.drop (client.scratch.length - start) := by
      rw [List.length_take, List.drop_eq_drop_iff]
      omega
    simp only [Client.rxPop, Nat.not_lt.mpr h, if_false, feed, hdrop]
  constructor
  · rw [List.length_take]
    omega
  · intro hrest
    have hlt : client.scratch.length - start < client.port.length := by
      by_contra hle
      apply hrest
      apply List.drop_of_length_le
      omega
    rw [List.length_take]
    omega

/-! ### Quiet turns -/

/-- The settings of a call without a timeout. -/
def patiently : Settings where
  overflowChecks := true
  timeoutNs := -1
  start := 0

/-- A turn in which some bytes arrive. -/
def bring (bytes : List UInt8) : Turn Delivery where
  pump := { bytes := bytes }
  now := 0

theorem quiet_bring (bytes : List UInt8) :
  Quiet patiently (bring bytes)
  where
  closed := rfl
  error := rfl
  time := rfl

/-- The buffer of `RESPONSE_BUF_SZ` zeros that a client begins with. -/
@[irreducible]
def newScratch : List UInt8 := List.replicate 65536 0

theorem length_newScratch :
  newScratch.length = 65536
  := by
  rw [newScratch, List.length_replicate]

theorem length_newScratch_le :
  newScratch.length ≤ isizeMax
  := by
  rw [length_newScratch]
  decide

end FdRpc.Http

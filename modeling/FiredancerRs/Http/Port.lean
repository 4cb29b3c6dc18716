import FiredancerRs.Http.Feed

/-!
# Any port

What `read_response` makes of any port. What pumps keep of a port until one of them reports a
failure is kept by a call, and the call ends with that failure (`readResponse_keeps`).
-/

namespace FdRpc.Http

/-- The pump reports that the connection is closed or in error. -/
def PumpResult.failed (r : PumpResult) : Bool := r.closed || r.error

variable {δ ε σ α β ψ : Type} {phr : Phr δ} {P : Port ε σ} {s : Settings} {t : Turn ε}
variable {alive dead : σ → Prop}

/-- Popping keeps a port alive, and a pump that fails leaves it dead. -/
structure Port.Keeps (P : Port ε σ) (alive dead : σ → Prop) : Prop where
  setRx : ∀ bytes port, alive port → alive (P.setRx bytes port)
  pump : ∀ e port, alive port → (P.pump e port).1.failed = false → alive (P.pump e port).2
  pump_failed : ∀ e port, alive port → (P.pump e port).1.failed = true → dead (P.pump e port).2

/-- A call ends with a closed connection when its port is dead. -/
def Ends (alive dead : σ → Prop) : Except Stop α × Client σ → Prop
  | (.error (.failed .connectionClosed), client) => dead client.port
  | (_, client) => alive client.port

theorem Ends.of_alive {client : Client σ} {r : Except Stop α} (h : alive client.port)
    (hne : r ≠ .error (.failed .connectionClosed)) :
  Ends alive dead (r, client)
  := by
  cases r with
  | ok a => exact h
  | error stop =>
    cases stop with
    | panicked p => exact h
    | failed e =>
      cases e with
      | connectionClosed => exact absurd rfl hne
      | _ => exact h

theorem Ends.cases {client : Client σ} {r : Except Stop α} (h : Ends alive dead (r, client)) :
  r ≠ .error (.failed .connectionClosed) ∧ alive client.port
    ∨ r = .error (.failed .connectionClosed) ∧ dead client.port
  := by
  by_cases hclosed : r = .error (.failed .connectionClosed)
  · subst hclosed
    exact .inr ⟨rfl, h⟩
  · left
    use hclosed
    cases r with
    | ok a => exact h
    | error stop =>
      cases stop with
      | panicked p => exact h
      | failed e =>
        cases e with
        | connectionClosed => exact absurd rfl hclosed
        | _ => exact h

/-! ### Parts of a turn -/

/-- What goes wrong is a panic. -/
def OnlyPanics (x : Except Stop α) : Prop := ∀ e, x ≠ .error (.failed e)

theorem onlyPanics_usizeAdd (checks : Bool) (a b : Nat) :
  OnlyPanics (usizeAdd checks a b)
  := by
  intro e
  rw [usizeAdd]
  split
  · simp
  · split <;> simp

theorem onlyPanics_usizeSub (checks : Bool) (a b : Nat) :
  OnlyPanics (usizeSub checks a b)
  := by
  intro e
  rw [usizeSub]
  split
  · simp
  · split <;> simp

theorem onlyPanics_vecResize (buf : List UInt8) (n : Nat) :
  OnlyPanics (vecResize buf n)
  := by
  intro e
  rw [vecResize]
  split <;> simp

theorem onlyPanics_grow (checks : Bool) (scratch : List UInt8) (headroom : Nat) :
  OnlyPanics (if headroom < minHeadroom then
    (usizeMul checks scratch.length 2).bind (vecResize scratch) else .ok scratch)
  := by
  intro e
  split
  · rw [usizeMul]
    split
    · apply onlyPanics_vecResize _ _ e
    · split
      · simp [Except.bind]
      · apply onlyPanics_vecResize _ _ e
  · simp

theorem onlyPanics_timedOut (now : UInt64) :
  OnlyPanics (timedOut s now)
  := by
  intro e
  rw [timedOut]
  split
  · split <;> simp
  · simp

section

variable {more : ψ → Prop} {client : Client σ}

theorem keeps_check {x : Except Stop α} {k : α → Turns.Step ψ (Except Stop β × Client σ)}
    (hx : OnlyPanics x) (h : alive client.port)
    (hk : ∀ a, x = .ok a → (k a).Holds more (Ends alive dead)) :
  (check client x k).Holds more (Ends alive dead)
  := by
  cases x with
  | ok a => exact hk a rfl
  | error stop =>
    apply Ends.of_alive h
    rintro ⟨⟩
    apply hx _ rfl

theorem keeps_pumpTurn (hP : P.Keeps alive dead)
    {k : Client σ → Turns.Step ψ (Except Stop β × Client σ)} (h : alive client.port)
    (hk : ∀ client, alive client.port → (k client).Holds more (Ends alive dead)) :
  (pumpTurn P t client k).Holds more (Ends alive dead)
  := by
  rw [pumpTurn]
  cases hfailed : (P.pump t.pump client.port).1.failed with
  | true =>
    have hdead := hP.pump_failed _ _ h hfailed
    rw [PumpResult.failed] at hfailed
    simp only [hfailed, if_true]
    apply hdead
  | false =>
    have halive := hP.pump _ _ h hfailed
    rw [PumpResult.failed] at hfailed
    simp only [hfailed]
    apply hk _ halive

theorem keeps_idleTurn {again : ψ} (h : alive client.port) (hagain : more again) :
  (idleTurn s t client again : Turns.Step ψ (Except Stop β × Client σ)).Holds more
    (Ends alive dead)
  := by
  apply keeps_check (onlyPanics_timedOut _) h
  intro expired _
  split
  · apply h
  · apply hagain

theorem keeps_rxPop (hP : P.Keeps alive dead) {start : Nat}
    {k : Nat × Client σ → Turns.Step ψ (Except Stop β × Client σ)} (h : alive client.port)
    (hk : ∀ n client, alive client.port → (k (n, client)).Holds more (Ends alive dead)) :
  (check client (client.rxPop P start) k).Holds more (Ends alive dead)
  := by
  apply keeps_check _ h
  · rintro ⟨n, client'⟩ hpop
    apply hk
    rw [Client.rxPop] at hpop
    split at hpop
    · cases hpop
    · cases hpop
      apply hP.setRx _ _ h
  · intro e
    rw [Client.rxPop]
    split <;> simp

end

/-! ### The loops -/

theorem headerTurn_keeps (hP : P.Keeps alive dead) {st : Filling σ} (h : alive st.client.port) :
  (headerTurn phr P s t st).Holds (fun st => alive st.client.port) (Ends alive dead)
  := by
  apply keeps_pumpTurn hP h
  intro client hclient
  apply keeps_rxPop hP hclient
  intro n client hclient
  simp only
  split
  · apply keeps_check (onlyPanics_usizeAdd _ _ _) hclient
    intro filled _
    split
    · apply hclient
    · apply hclient
    · split
      · apply hclient
      · apply hclient
  · exact keeps_idleTurn hclient hclient

theorem bodyTurn_keeps (hP : P.Keeps alive dead) {total : Nat} {st : Filling σ}
    (h : alive st.client.port) :
  (bodyTurn P s total t st).Holds (fun st => alive st.client.port) (Ends alive dead)
  := by
  apply keeps_pumpTurn hP h
  intro client hclient
  apply keeps_rxPop hP hclient
  intro n client hclient
  simp only
  split
  · apply keeps_check (onlyPanics_usizeAdd _ _ _) hclient
    intro filled _
    split
    · apply hclient
    · apply hclient
  · exact keeps_idleTurn hclient hclient

theorem chunkTurn_keeps (hP : P.Keeps alive dead) {info : HeaderInfo} {st : Chunking δ σ}
    (h : alive st.client.port) :
  (chunkTurn phr P s info t st).Holds (fun st => alive st.client.port) (Ends alive dead)
  := by
  apply keeps_pumpTurn hP h
  intro client hclient
  apply keeps_check (onlyPanics_usizeAdd _ _ _) hclient
  intro writeAt _
  apply keeps_check (onlyPanics_usizeSub _ _ _) hclient
  intro headroom _
  apply keeps_check (onlyPanics_grow _ _ _) hclient
  intro scratch _
  have hgrown : alive ({ client with scratch := scratch } : Client σ).port := hclient
  apply keeps_rxPop hP hgrown
  intro n client hclient
  simp only
  split
  · apply keeps_check (onlyPanics_usizeAdd _ _ _)
    · apply hclient
    · intro decodedTotal _
      split
      · apply hclient
      · split
        · apply hclient
        · apply hclient
  · exact keeps_idleTurn hclient hclient

/-! ### The function -/

section

variable {client : Client σ} {turns : List (Turn ε)} {info : HeaderInfo} {filled : Nat}

/-- What a call keeps of its port, on a list of turns. -/
def Keeps (alive dead : σ → Prop) (e : Reading ε σ) : Prop :=
  e.Holds (fun client => alive client.port) fun r _ => Ends alive dead r

theorem keeps_attempt {x : Except Stop α} {k : α → Reading ε σ} (hx : OnlyPanics x)
    (h : alive client.port) (hk : ∀ a, x = .ok a → Keeps alive dead (k a)) :
  Keeps alive dead (attempt client turns x k)
  := by
  cases x with
  | ok a => exact hk a rfl
  | error stop =>
    apply Ends.of_alive h
    rintro ⟨⟩
    apply hx _ rfl

/-- A loop whose turns keep the port, followed by what keeps it. -/
theorem keeps_loop {τ : Type} {body : Turn ε → τ → Turns.Step τ (Except Stop α × Client σ)}
    {state : τ → Client σ} {st : τ}
    (hbody : ∀ t st, alive (state st).port →
      (body t st).Holds (fun st => alive (state st).port) (Ends alive dead))
    {turns : List (Turn ε)} (h : alive (state st).port)
    {next : Except Stop α × Client σ → List (Turn ε) → Reading ε σ}
    (hnext : ∀ r rest, Ends alive dead r → Keeps alive dead (next r rest)) :
  Keeps alive dead ((Turns.run body turns st).andThen state next)
  := by
  have hloop : (Turns.run body turns st).Holds (fun st => alive (state st).port)
      fun r _ => Ends alive dead r :=
    Turns.run_keeps hbody h
  apply hloop.andThen
  · intro st hst
    apply hst
  · apply hnext

/-- The result of a loop, with another value. -/
theorem Ends.map {r : Except Stop α × Client σ} (h : Ends alive dead r) (f : α → β) :
  Ends alive dead (r.1.map f, r.2)
  := by
  obtain ⟨result, client⟩ := r
  cases result with
  | ok a => exact h
  | error stop =>
    cases stop with
    | panicked p => exact h
    | failed e => cases e <;> exact h

theorem readSizedBody_keeps (hP : P.Keeps alive dead) {cl : Nat} (h : alive client.port) :
  Keeps alive dead (readSizedBody P s info cl filled client turns)
  := by
  apply keeps_attempt (onlyPanics_usizeAdd _ _ _) h
  intro total _
  apply keeps_attempt _ h
  · intro scratch _
    simp only
    split
    · apply keeps_loop (fun _ _ => bodyTurn_keeps hP) h
      intro r rest hr
      apply hr.map _
    · apply h
  · intro e
    split
    · apply onlyPanics_vecResize _ _ e
    · simp

theorem readChunks_keeps (hP : P.Keeps alive dead) {st : Chunking δ σ}
    (h : alive st.client.port) :
  Keeps alive dead (readChunks phr P s info st turns)
  := by
  apply keeps_loop (fun _ _ => chunkTurn_keeps hP) h
  intro r rest hr
  apply hr

theorem readChunkedBody_keeps (hP : P.Keeps alive dead) (h : alive client.port) :
  Keeps alive dead (readChunkedBody phr P s filled info client turns)
  := by
  apply keeps_attempt (onlyPanics_usizeSub _ _ _) h
  intro initialRaw _
  split
  · simp only
    split
    · apply h
    · split
      · apply h
      · apply readChunks_keeps hP h
  · apply readChunks_keeps hP h

/-- A call keeps its port until a pump fails, and then ends with that failure. -/
theorem readResponse_keeps (hP : P.Keeps alive dead) (h : alive client.port) :
  Keeps alive dead (readResponse phr P s client turns)
  := by
  apply keeps_loop (fun _ _ => headerTurn_keeps hP) h
  rintro ⟨result, client⟩ rest hr
  cases result with
  | error stop =>
    cases stop with
    | panicked p => exact hr
    | failed e => cases e <;> exact hr
  | ok found =>
    obtain ⟨info, filled⟩ := found
    change Keeps alive dead (readBody phr P s info filled client rest)
    rw [readBody]
    split
    · apply readSizedBody_keeps hP hr
    · split
      · apply readChunkedBody_keeps hP hr
      · exact keeps_attempt (onlyPanics_usizeSub _ _ _) hr fun _ _ => hr

end

end FdRpc.Http

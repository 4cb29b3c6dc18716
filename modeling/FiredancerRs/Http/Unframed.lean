import FiredancerRs.Http.HeaderLoop

/-!
# Unframed responses

A response with neither a content length nor the coding `chunked` has a body that ends when the
server closes. What `read_response` takes for the body is what has come when it sees the end of the
header block, so the result depends on how the bytes are split. It does not just when there is
nothing to mistake: the body is empty, or the header block is refused in the same way however it
comes (`splitSafe_iff`).
-/

namespace FdRpc.Http

variable {δ : Type} {phr : Phr δ}

/-- The headers have neither a content length nor the coding `chunked`. -/
structure Unframed (headers : List PhrHeader) : Prop where
  unsized : ∀ v ∈ valuesOf headers contentLengthName, ∀ n, ¬ReadsLength v n
  unchunked : ∀ v ∈ valuesOf headers transferEncodingName, ¬ReadsChunked v

/-- A way of splitting some bytes over quiet turns, and the turn in which the connection is found
closed. -/
structure Split (s : Settings) (bytes : List UInt8) where
  turns : List (Turn Delivery)
  close : Turn Delivery
  quiet : ∀ t ∈ turns, Quiet s t
  arrivals_eq : arrivals turns = bytes
  closed : close.pump.closed = true

/-- What a call does with a split. -/
def Split.read {s : Settings} {bytes : List UInt8} (a : Split s bytes) (phr : Phr δ)
    (scratch : List UInt8) : Reading Delivery (List UInt8) :=
  readResponse phr feed s { scratch := scratch, port := [] } (a.turns ++ [a.close])

/-- What a call returns, when it does. -/
def Reading.result {ε σ : Type} : Reading ε σ → Option (Except Stop Reply)
  | .waiting _ => none
  | .done r _ => some r.1

/-- Every split has the same result, and none has a proper part of the body for the body. -/
structure SplitSafe (block : HeaderBlock phr) (scratch body : List UInt8) : Prop where
  same : ∀ (s : Settings) (a b : Split s (block.bytes ++ body)),
    (a.read phr scratch).result = (b.read phr scratch).result
  whole : ∀ (s : Settings) (a : Split s (block.bytes ++ body)) status start len client rest,
    a.read phr scratch = .done (.ok (status, start, len), client) rest →
    Buffer.slice client.scratch start len <+: body →
    Buffer.slice client.scratch start len = body

/-- What is returned for a header block that is refused at first sight or does not fit. -/
def refusal : HeaderResult → HttpError
  | .error => .responseMalformed
  | _ => .responseTooLarge

/-! ### The header block at first sight -/

variable {block : HeaderBlock phr} {s : Settings} {patient : Prop} {stream tail : List UInt8}
variable {t : Turn Delivery} {ts : List (Turn Delivery)} {st : Filling (List UInt8)} {n : Nat}

/-- A part of the block is rejected at first sight or incomplete. -/
theorem tryParseHeaders_part {p : List UInt8} (hp : p <+: block.bytes) (hpos : 0 < p.length)
    (hlt : p.length < block.bytes.length) :
  tryParseHeaders phr p p.length 0 = .error ∨ tryParseHeaders phr p p.length 0 = .incomplete
  := by
  have hpart : p.take p.length <+: block.bytes ++ [] := by rwa [List.take_length, List.append_nil]
  have hcases := tryParseHeaders_cases hpart (hpos.trans hlt) (by rwa [List.take_length])
  rw [List.take_length] at hcases
  rcases hcases with herror | ⟨hle, -⟩ | ⟨-, hincomplete⟩
  · exact .inl herror
  · omega
  · exact .inr hincomplete

/-- On turns that bring the whole block the loop does not go on waiting. -/
theorem HeaderInv.not_over {body : List UInt8}
    (h : HeaderInv block s patient (block.bytes ++ body) n [] st) :
  False
  := by
  have heq := h.feeding.stream_eq
  rw [h.ring, arrivals_nil, List.append_nil, List.append_nil] at heq
  have hlength := congrArg List.length heq
  rw [List.length_take, List.length_append] at hlength
  have := h.filled_lt
  omega

/-- A loop that keeps the invariant is done before turns are over that bring the whole block. -/
theorem headerLoop_done {body : List UInt8} {e : Turns.Ended (Turn Delivery) (Filling (List UInt8))
      (Except Stop (HeaderInfo × Nat) × Client (List UInt8))}
    {d : Except Stop (HeaderInfo × Nat) × Client (List UInt8) → List (Turn Delivery) → Prop}
    (h : e.Holds (HeaderInv block s patient (block.bytes ++ body) n []) d) :
  ∃ r rest, e = .done r rest ∧ d r rest
  := by
  cases e with
  | waiting st => exact h.not_over.elim
  | done r rest => use r, rest, rfl, h

/-- The result of the loop on a split is the result on its quiet turns. -/
theorem Split.read_done {bytes scratch : List UInt8} {a : Split s bytes}
    {r : Except Stop (HeaderInfo × Nat) × Client (List UInt8)} {rest : List (Turn Delivery)}
    (h : Turns.run (headerTurn phr feed s) a.turns
      { client := { scratch := scratch, port := [] }, filled := 0 } = .done r rest) :
  a.read phr scratch = attempt r.2 (rest ++ [a.close]) r.1 fun (info, filled) =>
    readBody phr feed s info filled r.2 (rest ++ [a.close])
  := by
  rw [Split.read, readResponse, Turns.run_append, h]
  rfl

/-! ### Header blocks that are read -/

variable {scratch body : List UInt8}

/-- The headers of an unframed response say nothing of its body. -/
theorem Unframed.readBody_eq (h : Unframed block.headers) {filled : Nat}
    {client : Client (List UInt8)} (hle : block.bytes.length ≤ filled) :
  readBody phr feed s block.info filled client ts =
    .done (.ok (block.info.status, block.bytes.length, filled - block.bytes.length), client) ts
  := by
  have hlength : block.info.contentLength = none := contentLength_of_unsized h.unsized
  have hchunked : block.info.isChunked = false := isChunked_of_unchunked h.unchunked
  rw [readBody, hlength, hchunked]
  simp only [block.info_headerLen, usizeSub_eq hle, attempt_ok]
  rfl

/-- A split of an unframed response whose header block is read returns what came with the end of
the block. -/
theorem Split.read_unframed (a : Split s (block.bytes ++ body)) (h : Unframed block.headers)
    (hscratch : scratch.length ≤ isizeMax) (hfit : block.bytes.length ≤ scratch.length)
    (hroom : block.headers.length ≤ maxHeaders) :
  ∃ filled client rest, block.bytes.length ≤ filled
    ∧ filled ≤ (block.bytes ++ body).length
    ∧ a.read phr scratch =
      .done (.ok (block.info.status, block.bytes.length, filled - block.bytes.length), client) rest
  := by
  have hinv := @headerInv_start _ _ block s a.turns scratch a.quiet
  rw [a.arrivals_eq] at hinv
  obtain ⟨⟨_, client⟩, rest, hrun, filled, rfl, hdone⟩ :=
    headerLoop_done (headerLoop_holds hfit hscratch hroom (List.prefix_refl _) hinv)
  use filled, client, rest ++ [a.close], hdone.le_filled
  constructor
  · have hle := hdone.feeding.seen_isPrefix.length_le
    rw [List.length_take_of_le (hdone.length.symm ▸ hdone.filled_le)] at hle
    apply hle
  · rw [Split.read_done hrun]
    apply h.readBody_eq hdone.le_filled

/-! ### Header blocks that are refused -/

/-- The parse of what the first turn with bytes has brought. -/
theorem Popped.tryParseHeaders_first {filled : Nat} {client : Client (List UInt8)}
    (h : Popped s patient stream n ts filled client) :
  tryParseHeaders phr client.scratch filled 0
    = tryParseHeaders phr (client.scratch.take filled) (client.scratch.take filled).length 0
  := by
  rw [h.length_take]
  apply tryParseHeaders_congr
  rw [List.take_take, Nat.min_self]

/-- The parse of a part of the block that is longer than a part seen before. -/
theorem Popped.tryParseHeaders_later {filled last : Nat} {client : Client (List UInt8)}
    (h : Popped s patient stream n ts filled client) (hstream : stream <+: block.bytes ++ tail)
    (hlt : filled < block.bytes.length) (hmore : last < filled) (hlast : 0 < last) :
  tryParseHeaders phr client.scratch filled last = .incomplete
  := by
  apply tryParseHeaders_incomplete (h.part hstream hlt) _ _ (.inl hlast)
  · rw [h.length_take]
    apply hmore
  · rw [h.length_take]
    apply hlt

/-- One turn of the loop, when the array of headers has no room for the block. -/
theorem headerTurn_rejects (hfit : block.bytes.length ≤ n) (hn : n ≤ isizeMax)
    (hroom : maxHeaders < block.headers.length) (hstream : stream <+: block.bytes ++ tail)
    (hinv : HeaderInv block s patient stream n (t :: ts) st) :
  (headerTurn phr feed s t st).Holds (HeaderInv block s patient stream n ts)
    fun r => r.1 = .error (.failed .responseMalformed)
  := by
  have hlt := hinv.filled_lt
  obtain ⟨filled, client, hpopped, ⟨rfl, hturn⟩ | ⟨hmore, hturn⟩⟩ :=
    headerTurn_pops hinv (hlt.trans_le hfit) hn
  · rw [hturn]
    apply hpopped.headerInv hlt (hlt.trans_le hfit)
  · rw [hturn]
    by_cases hthere : block.bytes.length ≤ filled
    · rw [tryParseHeaders_rejected (hpopped.whole hstream hthere) hlt hroom]
      rfl
    · have hpart := Nat.not_le.mp hthere
      have hspace : ¬n ≤ filled := Nat.not_le.mpr (hpart.trans_le hfit)
      have hagain := hpopped.headerInv hpart (hpart.trans_le hfit)
      have hverdict : tryParseHeaders phr client.scratch filled st.filled = .error
          ∨ tryParseHeaders phr client.scratch filled st.filled = .incomplete := by
        cases Nat.eq_zero_or_pos st.filled with
        | inl hfirst =>
          rw [hfirst, hpopped.tryParseHeaders_first]
          apply tryParseHeaders_part (hpopped.part hstream hpart) <;> rw [hpopped.length_take]
          · omega
          · apply hpart
        | inr hlast =>
          right
          apply hpopped.tryParseHeaders_later hstream hpart hmore hlast
      cases hverdict with
      | inl hverdict =>
        rw [hverdict]
        rfl
      | inr hverdict =>
        rw [hverdict, if_neg hspace]
        apply hagain

/-- The loop reads a block that does not fit in `scratch`, as long as there is space. -/
structure RefusalInv (block : HeaderBlock phr) (s : Settings) (patient : Prop)
    (stream : List UInt8) (n : Nat) (verdict : HeaderResult) (turns : List (Turn Delivery))
    (st : Filling (List UInt8)) : Prop where
  header : HeaderInv block s patient stream n turns st
  space : st.filled < n
  first : st.filled = 0 → ∀ p, p <+: block.bytes → 0 < p.length → p.length ≤ n →
    tryParseHeaders phr p p.length 0 = verdict
  later : 0 < st.filled → verdict = .incomplete

/-- One turn of the loop, when the block does not fit in `scratch`. -/
theorem headerTurn_refuses {verdict : HeaderResult} (hbig : n < block.bytes.length)
    (hn : n ≤ isizeMax) (hstream : stream <+: block.bytes ++ tail)
    (hinv : RefusalInv block s patient stream n verdict (t :: ts) st) :
  (headerTurn phr feed s t st).Holds (RefusalInv block s patient stream n verdict ts)
    fun r => r.1 = .error (.failed (refusal verdict))
  := by
  obtain ⟨hheader, hspace, hfirst, hlater⟩ := hinv
  obtain ⟨filled, client, hpopped, ⟨rfl, hturn⟩ | ⟨hmore, hturn⟩⟩ := headerTurn_pops hheader hspace hn
  · rw [hturn]
    constructor
    · apply hpopped.headerInv hheader.filled_lt hspace
    · apply hspace
    · apply hfirst
    · apply hlater
  · have hpart : filled < block.bytes.length := hpopped.filled_le.trans_lt hbig
    have hverdict : tryParseHeaders phr client.scratch filled st.filled = verdict
        ∧ (verdict = .error ∨ verdict = .incomplete) := by
      cases Nat.eq_zero_or_pos st.filled with
      | inl hzero =>
        have hp := hpopped.part hstream hpart
        have hlength := hpopped.length_take
        have heq := hfirst hzero _ hp (by omega) (hlength.symm ▸ hpopped.filled_le)
        rw [hzero, hpopped.tryParseHeaders_first, heq]
        use rfl
        rw [← heq]
        apply tryParseHeaders_part hp <;> rw [hlength]
        · omega
        · apply hpart
      | inr hlast =>
        rw [hpopped.tryParseHeaders_later hstream hpart hmore hlast, hlater hlast]
        use rfl
        right
        rfl
    obtain ⟨hparse, hverdict⟩ := hverdict
    rw [hturn, hparse]
    cases hverdict with
    | inl hverdict =>
      subst hverdict
      rfl
    | inr hverdict =>
      subst hverdict
      by_cases hfull : n ≤ filled
      · simp only [if_pos hfull]
        rfl
      · simp only [if_neg hfull]
        have hroom := Nat.not_le.mp hfull
        constructor
        · apply hpopped.headerInv hpart hroom
        · apply hroom
        · intro hzero
          change filled = 0 at hzero
          omega
        · intro _
          rfl

/-- The loop on turns that bring a block that does not fit. -/
theorem refusalLoop_done {verdict : HeaderResult} (hbig : n < block.bytes.length)
    (hn : n ≤ isizeMax)
    (hinv : RefusalInv block s patient (block.bytes ++ body) n verdict ts st) :
  ∃ client rest, Turns.run (headerTurn phr feed s) ts st
    = .done (.error (.failed (refusal verdict)), client) rest
  := by
  have hloop : (Turns.run (headerTurn phr feed s) ts st).Holds
      (RefusalInv block s patient (block.bytes ++ body) n verdict [])
      fun r _ => r.1 = .error (.failed (refusal verdict)) :=
    Turns.run_holds (fun _ _ _ => headerTurn_refuses hbig hn (List.prefix_refl _)) hinv
  obtain ⟨⟨_, client⟩, rest, hrun, rfl⟩ :=
    headerLoop_done (hloop.mono (fun _ h => h.header) fun _ _ h => h)
  use client, rest

/-- A split of a response whose headers are too many. -/
theorem Split.read_rejected (a : Split s (block.bytes ++ body))
    (hscratch : scratch.length ≤ isizeMax) (hfit : block.bytes.length ≤ scratch.length)
    (hroom : maxHeaders < block.headers.length) :
  ∃ client rest, a.read phr scratch = .done (.error (.failed .responseMalformed), client) rest
  := by
  have hinv := @headerInv_start _ _ block s a.turns scratch a.quiet
  rw [a.arrivals_eq] at hinv
  have hloop : (Turns.run (headerTurn phr feed s) a.turns
      { client := { scratch := scratch, port := [] }, filled := 0 }).Holds
      (HeaderInv block s (Patient [] a.turns) (block.bytes ++ body) scratch.length [])
      fun r _ => r.1 = .error (.failed .responseMalformed) :=
    Turns.run_holds (fun _ _ _ => headerTurn_rejects hfit hscratch hroom (List.prefix_refl _)) hinv
  obtain ⟨⟨_, client⟩, rest, hrun, rfl⟩ := headerLoop_done hloop
  use client, rest ++ [a.close]
  rw [Split.read_done hrun]
  rfl

/-- A split of a response whose header block does not fit, when its parts are all parsed alike at
first sight. -/
theorem Split.read_refused (a : Split s (block.bytes ++ body))
    (hscratch : scratch.length ≤ isizeMax) (hbig : scratch.length < block.bytes.length)
    (hpos : 0 < scratch.length) {verdict : HeaderResult}
    (hfirst : ∀ p, p <+: block.bytes → 0 < p.length → p.length ≤ scratch.length →
      tryParseHeaders phr p p.length 0 = verdict) :
  ∃ client rest,
    a.read phr scratch = .done (.error (.failed (refusal verdict)), client) rest
  := by
  have hinv := @headerInv_start _ _ block s a.turns scratch a.quiet
  rw [a.arrivals_eq] at hinv
  obtain ⟨client, rest, hrun⟩ := refusalLoop_done hbig hscratch
    { header := hinv, space := hpos, first := fun _ => hfirst, later := fun h => by cases h }
  use client, rest ++ [a.close]
  rw [Split.read_done hrun]
  rfl

/-- The state of a loop that has popped nothing, since `scratch` is empty. -/
structure EmptyInv (s : Settings) (turns : List (Turn Delivery)) (st : Filling (List UInt8)) :
    Prop where
  quiet : ∀ t ∈ turns, Quiet s t
  scratch : st.client.scratch = []
  filled : st.filled = 0

/-- One turn of the loop, when `scratch` is empty. -/
theorem headerTurn_empty (hinv : EmptyInv s (t :: ts) st) :
  (headerTurn phr feed s t st).Holds (EmptyInv s ts) fun _ => False
  := by
  obtain ⟨hquiet, hscratch, hfilled⟩ := hinv
  obtain ⟨popped, rest, -, hle, -, hturn⟩ :=
    @headerTurn_quiet _ phr _ _ st (hquiet t (List.mem_cons_self ..)) (by simp [hfilled])
      (by simp [hscratch])
  have hnil : popped = [] := by
    apply List.length_eq_zero_iff.mp
    simpa [hscratch, hfilled] using hle
  subst hnil
  rw [hturn]
  constructor
  · intro u hu
    apply hquiet u (List.mem_cons_of_mem _ hu)
  · simp [Buffer.overwrite, hscratch]
  · apply hfilled

/-- A split, when `scratch` is empty. -/
theorem Split.read_empty {bytes : List UInt8} (a : Split s bytes) :
  ∃ client rest, a.read phr [] = .done (.error (.failed .connectionClosed), client) rest
  := by
  have hloop : (Turns.run (headerTurn phr feed s) a.turns
      { client := { scratch := [], port := [] }, filled := 0 }).Holds (EmptyInv s [])
      fun _ _ => False :=
    Turns.run_holds (fun _ _ _ => headerTurn_empty)
      { quiet := a.quiet, scratch := rfl, filled := rfl }
  rw [Split.read, readResponse, Turns.run_append]
  cases hrun : Turns.run (headerTurn phr feed s) a.turns
      { client := { scratch := [], port := [] }, filled := 0 } with
  | done r rest =>
    rw [hrun] at hloop
    apply hloop.elim
  | waiting st =>
    use { st.client with port := st.client.port ++ a.close.pump.bytes }, []
    simp [Turns.run, headerTurn, pumpTurn, feed, a.closed, Turns.Ended.andThen, attempt]

/-! ### Splits in two -/

/-- A split in two, without a timeout. -/
def Split.inTwo {p q bytes : List UInt8} (h : p ++ q = bytes) : Split patiently bytes where
  turns := [bring p, bring q]
  close := { pump := { bytes := [], closed := true }, now := 0 }
  quiet := by simp [quiet_bring]
  arrivals_eq := by
    rw [arrivals_cons, arrivals_cons, arrivals_nil, List.append_nil]
    apply h
  closed := rfl

/-- A split right behind the header block has an empty body. -/
theorem Split.read_behind {bytes : List UInt8} (hbytes : block.bytes ++ body = bytes)
    (h : Unframed block.headers) (hscratch : scratch.length ≤ isizeMax)
    (hfit : block.bytes.length ≤ scratch.length) (hroom : block.headers.length ≤ maxHeaders) :
  ∃ client rest, (Split.inTwo hbytes).read phr scratch
    = .done (.ok (block.info.status, block.bytes.length, 0), client) rest
  := by
  use { scratch := Buffer.overwrite scratch 0 block.bytes, port := [] },
    [bring body, (Split.inTwo hbytes).close]
  have hread : (Split.inTwo hbytes).read phr scratch
      = readBody phr feed patiently block.info block.bytes.length
        { scratch := Buffer.overwrite scratch 0 block.bytes, port := [] }
        [bring body, (Split.inTwo hbytes).close] :=
    readResponse_first (quiet_bring _) rfl block.nonempty hfit hscratch
      (tryParseHeaders_whole hroom) _
  rw [hread, h.readBody_eq le_rfl, Nat.sub_self]

/-- A split behind a part of a header block that does not fit is refused as the part is. -/
theorem Split.read_part {p q : List UInt8} (hbytes : p ++ q = block.bytes ++ body)
    (hscratch : scratch.length ≤ isizeMax) (hbig : scratch.length < block.bytes.length)
    (hp : p <+: block.bytes) (hpos : 0 < p.length) (hle : p.length ≤ scratch.length) :
  ∃ client rest, (Split.inTwo hbytes).read phr scratch
    = .done (.error (.failed (refusal (tryParseHeaders phr p p.length 0))), client) rest
  := by
  have hlt := hle.trans_lt hbig
  have hne := List.length_pos_iff.mp hpos
  have hquiet := (Split.inTwo hbytes).quiet
  have harrivals : arrivals [bring p, bring q] = block.bytes ++ body :=
    (Split.inTwo hbytes).arrivals_eq
  have hturn := @headerTurn_first _ phr _ _ scratch p (quiet_bring p) rfl hne hle hscratch
  cases tryParseHeaders_part hp hpos hlt with
  | inl hverdict =>
    rw [hverdict]
    use { scratch := Buffer.overwrite scratch 0 p, port := [] },
      [bring q, (Split.inTwo hbytes).close]
    apply readResponse_first_error (quiet_bring p) rfl hne hle hscratch hverdict _
  | inr hverdict =>
    rw [hverdict] at hturn ⊢
    obtain ⟨client, rest, hrun⟩ : ∃ client rest,
        Turns.run (headerTurn phr feed patiently) [bring p, bring q]
          { client := { scratch := scratch, port := [] }, filled := 0 }
          = .done (.error (.failed (refusal .incomplete)), client) rest := by
      by_cases hfull : scratch.length ≤ p.length
      · use { scratch := Buffer.overwrite scratch 0 p, port := [] }, [bring q]
        rw [Turns.run, hturn]
        simp only [if_pos hfull]
        rfl
      · rw [Turns.run, hturn]
        simp only [if_neg hfull]
        have hinv := @headerInv_first _ _ block _ _ _ scratch p hquiet rfl hlt hle
        rw [harrivals] at hinv
        apply refusalLoop_done hbig hscratch
          { header := hinv
            space := Nat.not_le.mp hfull
            first := fun h => absurd h hpos.ne'
            later := fun _ => rfl }
    use client, rest ++ [(Split.inTwo hbytes).close]
    rw [Split.read_done hrun]
    rfl

/-! ### All splits -/

/-- The parts of a header block that fit in a buffer are parsed alike at first sight. -/
def AlikeAtFirstSight (block : HeaderBlock phr) (n : Nat) : Prop :=
  ∀ p q, p <+: block.bytes → q <+: block.bytes → 0 < p.length → 0 < q.length →
    p.length ≤ n → q.length ≤ n →
    tryParseHeaders phr p p.length 0 = tryParseHeaders phr q q.length 0

/-- When there is nothing to mistake, one result is that of every split. -/
theorem oneResult (h : Unframed block.headers) (hscratch : scratch.length ≤ isizeMax)
    (hempty : block.bytes.length ≤ scratch.length → block.headers.length ≤ maxHeaders → body = [])
    (halike : scratch.length < block.bytes.length → AlikeAtFirstSight block scratch.length) :
  ∃ result : Except Stop Reply,
    (∀ (s : Settings) (a : Split s (block.bytes ++ body)), ∃ client rest,
      a.read phr scratch = .done (result, client) rest)
    ∧ ∀ reply, result = .ok reply → body = []
  := by
  by_cases hfit : block.bytes.length ≤ scratch.length
  · by_cases hroom : block.headers.length ≤ maxHeaders
    · obtain rfl := hempty hfit hroom
      use .ok (block.info.status, block.bytes.length, 0)
      constructor
      · intro s a
        obtain ⟨filled, client, rest, hle, hfilled, hread⟩ :=
          a.read_unframed h hscratch hfit hroom
        rw [List.append_nil] at hfilled
        rw [Nat.sub_eq_zero_of_le hfilled] at hread
        use client, rest
      · intro _ _
        rfl
    · use .error (.failed .responseMalformed)
      constructor
      · intro s a
        apply a.read_rejected hscratch hfit (Nat.not_le.mp hroom)
      · intro _ hok
        cases hok
  · have hbig := Nat.not_le.mp hfit
    by_cases hpos : 0 < scratch.length
    · use .error (.failed (refusal
        (tryParseHeaders phr (block.bytes.take 1) (block.bytes.take 1).length 0)))
      constructor
      · intro s a
        have hone : (block.bytes.take 1).length = 1 := List.length_take_of_le (by omega)
        apply a.read_refused hscratch hbig hpos
        intro p hp hppos hple
        apply halike hbig p _ hp (List.take_prefix _ _) hppos _ hple <;> omega
      · intro _ hok
        cases hok
    · have hnil : scratch = [] := by
        apply List.length_eq_zero_iff.mp
        omega
      subst hnil
      use .error (.failed .connectionClosed)
      constructor
      · intro s a
        apply a.read_empty
      · intro _ hok
        cases hok

/-- The results for an unframed response are the same for every split, and never a proper part of
the body, just when the body of a header block that is read is empty, and the parts of one that does
not fit are parsed alike at first sight. -/
theorem splitSafe_iff (h : Unframed block.headers) (hscratch : scratch.length ≤ isizeMax) :
  SplitSafe block scratch body ↔
    (block.bytes.length ≤ scratch.length → block.headers.length ≤ maxHeaders → body = [])
      ∧ (scratch.length < block.bytes.length → AlikeAtFirstSight block scratch.length)
  := by
  constructor
  · intro hsafe
    constructor
    · intro hfit hroom
      obtain ⟨client, rest, hread⟩ :=
        Split.read_behind (rfl : block.bytes ++ body = block.bytes ++ body) h hscratch hfit hroom
      have hwhole := hsafe.whole _ _ _ _ _ _ _ hread
      apply (hwhole List.nil_prefix).symm
    · intro hbig p q hp hq hppos hqpos hple hqle
      obtain ⟨p', hp'⟩ := hp.trans (List.prefix_append block.bytes body)
      obtain ⟨q', hq'⟩ := hq.trans (List.prefix_append block.bytes body)
      have hsame := hsafe.same patiently (Split.inTwo hp') (Split.inTwo hq')
      obtain ⟨_, _, hreadp⟩ := Split.read_part hp' hscratch hbig hp hppos hple
      obtain ⟨_, _, hreadq⟩ := Split.read_part hq' hscratch hbig hq hqpos hqle
      rw [hreadp, hreadq] at hsame
      simp only [Reading.result, Option.some.injEq, Except.error.injEq, Stop.failed.injEq] at hsame
      cases tryParseHeaders_part hp hppos (hple.trans_lt hbig) with
      | inl hverdictp =>
        cases tryParseHeaders_part hq hqpos (hqle.trans_lt hbig) with
        | inl hverdictq => rw [hverdictp, hverdictq]
        | inr hverdictq =>
          rw [hverdictp, hverdictq] at hsame
          cases hsame
      | inr hverdictp =>
        cases tryParseHeaders_part hq hqpos (hqle.trans_lt hbig) with
        | inl hverdictq =>
          rw [hverdictp, hverdictq] at hsame
          cases hsame
        | inr hverdictq => rw [hverdictp, hverdictq]
  · rintro ⟨hempty, halike⟩
    obtain ⟨result, hresult, hnot⟩ := @oneResult _ phr _ scratch body h hscratch hempty halike
    constructor
    · intro s a b
      obtain ⟨_, _, ha⟩ := hresult s a
      obtain ⟨_, _, hb⟩ := hresult s b
      rw [ha, hb]
      rfl
    · intro s a status start len client rest hread hpart
      obtain ⟨_, _, ha⟩ := hresult s a
      rw [ha] at hread
      cases hread
      obtain rfl := hnot _ rfl
      apply List.prefix_nil.mp hpart

/-- A header block without headers. -/
def plainBlock : HeaderBlock (Phr.ofBlock (ascii "HTTP/1.1 200 OK\r\n\r\n") 200 []) :=
  HeaderBlock.ofBlock (by decide)

theorem unframed_plainBlock :
  Unframed plainBlock.headers
  where
  unsized _ hv := by cases hv
  unchunked _ hv := by cases hv

theorem length_plainBlock_le :
  plainBlock.bytes.length ≤ newScratch.length
  := by
  rw [length_newScratch]
  decide

theorem splitSafe_plainBlock :
  SplitSafe plainBlock newScratch []
  := by
  apply (splitSafe_iff unframed_plainBlock length_newScratch_le).mpr
  constructor
  · intro _ _
    rfl
  · intro hbig
    exact absurd hbig (Nat.not_lt.mpr length_plainBlock_le)

/-- With the header block in one delivery and the body in the next, the body is taken for empty. -/
theorem not_splitSafe_plainBlock :
  (∃ client rest,
      (Split.inTwo (rfl : plainBlock.bytes ++ ascii "hi" = plainBlock.bytes ++ ascii "hi")).read
        (Phr.ofBlock plainBlock.bytes 200 []) newScratch
      = .done (.ok (200, plainBlock.bytes.length, 0), client) rest)
    ∧ ¬SplitSafe plainBlock newScratch (ascii "hi")
  := by
  have hread := Split.read_behind (rfl : plainBlock.bytes ++ ascii "hi" = _) unframed_plainBlock
    length_newScratch_le length_plainBlock_le (by decide)
  use hread
  intro hsafe
  obtain ⟨client, rest, hread⟩ := hread
  have hwhole := hsafe.whole _ _ _ _ _ _ _ hread
  have hempty : [] = ascii "hi" := hwhole List.nil_prefix
  revert hempty
  decide

end FdRpc.Http

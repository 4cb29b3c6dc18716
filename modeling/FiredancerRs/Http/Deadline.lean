import FiredancerRs.Http.Feed
import FiredancerRs.Http.Phr

/-!
# The deadline of a response

The three loops of `read_response` as one loop that takes iterations (`Stage.iteration`), and the
iterations that begin at or after `start + timeout_ns`. The clock is read in an iteration only when
no byte has arrived in it, so a call outlives its deadline exactly when, in an iteration past the
deadline, a byte arrives that does not complete the response (`honoursDeadline_iff`).
-/

namespace FdRpc.Http

variable {δ ε σ : Type}

/-- Where a call of `read_response` is: in the loop for the header block, in that for a body of
known length or in that for a chunked body. -/
inductive Stage (δ σ : Type) where
  | header (st : Filling σ)
  | sized (info : HeaderInfo) (contentLength total : Nat) (st : Filling σ)
  | chunked (info : HeaderInfo) (st : Chunking δ σ)

/-- The buffer and the connection of a call. -/
def Stage.client : Stage δ σ → Client σ
  | .header st => st.client
  | .sized _ _ _ st => st.client
  | .chunked _ st => st.client

/-- One iteration of a loop of `read_response`. -/
abbrev Iteration (δ σ : Type) := Turns.Step (Stage δ σ) (Except Stop Reply × Client σ)

section

variable (phr : Phr δ) (P : Port ε σ) (s : Settings)

/-! ### The loops as one -/

/-- What follows the loop for the header block: a loop for the body, or the end of the call. -/
def enterBody (info : HeaderInfo) (filled : Nat) (client : Client σ) : Iteration δ σ :=
  match info.contentLength with
  | some cl =>
    check client (usizeAdd s.overflowChecks info.headerLen cl) fun total =>
    check client
      (if client.scratch.length < total then vecResize client.scratch total
      else .ok client.scratch) fun scratch =>
    let client := { client with scratch := scratch }
    if filled < total then
      .more (.sized info cl total { client := client, filled := filled })
    else
      .done (.ok (info.status, info.headerLen, cl), client)
  | none =>
    if info.isChunked then
      check client (usizeSub s.overflowChecks filled info.headerLen) fun initialRaw =>
      if 0 < initialRaw then
        let r := phr.decodeChunked (phr.zeroed true)
          (Buffer.slice client.scratch info.headerLen initialRaw)
        let client :=
          { client with scratch := Buffer.overwrite client.scratch info.headerLen r.buf }
        if 0 ≤ r.ret then
          .done (.ok (info.status, info.headerLen, r.bufsz), client)
        else if r.ret = -1 then
          .done (.error (.failed .responseMalformed), client)
        else
          .more (.chunked info { client := client, decoder := r.decoder, decodedTotal := r.bufsz })
      else
        .more (.chunked info { client := client, decoder := phr.zeroed true, decodedTotal := 0 })
    else
      check client (usizeSub s.overflowChecks filled info.headerLen) fun len =>
        .done (.ok (info.status, info.headerLen, len), client)

/-- What the result of the loop for the header block leads to. -/
def afterHeader (r : Except Stop (HeaderInfo × Nat) × Client σ) : Iteration δ σ :=
  check r.2 r.1 fun (info, filled) => enterBody phr s info filled r.2

/-- What the result of the loop for a body of known length leads to. -/
def afterSized (info : HeaderInfo) (cl : Nat) (r : Except Stop Unit × Client σ) : Iteration δ σ :=
  .done (r.1.map fun _ => (info.status, info.headerLen, cl), r.2)

/-- One iteration of the loop that a call is in. -/
def Stage.iteration (t : Turn ε) : Stage δ σ → Iteration δ σ
  | .header st => (headerTurn phr P s t st).into .header (afterHeader phr s)
  | .sized info cl total st => (bodyTurn P s total t st).into (.sized info cl total)
      (afterSized info cl)
  | .chunked info st => (chunkTurn phr P s info t st).into (.chunked info) .done

/-- Where a call starts. -/
def Stage.start (client : Client σ) : Stage δ σ := .header { client := client, filled := 0 }

end

variable {phr : Phr δ} {P : Port ε σ} {s : Settings}

/-- What is left of a call in some stage, or after its end. -/
def ended (phr : Phr δ) (P : Port ε σ) (s : Settings) (x : Iteration δ σ)
    (turns : List (Turn ε)) : Reading ε σ :=
  (Turns.resume (Stage.iteration phr P s) x turns).andThen Stage.client fun r rest => .done r rest

/-- Values that are checked in an iteration and in a call. -/
theorem attempt_eq_ended {α : Type} {client : Client σ} {turns : List (Turn ε)}
    {x : Except Stop α} {k : α → Reading ε σ} {k' : α → Iteration δ σ}
    (h : ∀ a, k a = ended phr P s (k' a) turns) :
  attempt client turns x k = ended phr P s (check client x k') turns
  := by
  cases x with
  | error stop => rfl
  | ok a => exact h a

theorem readChunks_eq_ended {info : HeaderInfo} {st : Chunking δ σ} {turns : List (Turn ε)} :
  readChunks phr P s info st turns = ended phr P s (.more (.chunked info st)) turns
  := by
  have hrun := @Turns.run_into (Turn ε) _ _ _ _ (chunkTurn phr P s info)
    (Stage.iteration phr P s) (.chunked info) .done (fun _ _ => rfl) turns st
  rw [ended, Turns.resume, hrun, Turns.Ended.andThen_andThen]
  rfl

theorem readSizedBody_eq_ended {info : HeaderInfo} {cl filled : Nat} {client : Client σ}
    {turns : List (Turn ε)} (h : info.contentLength = some cl) :
  readSizedBody P s info cl filled client turns
    = ended phr P s (enterBody phr s info filled client) turns
  := by
  rw [readSizedBody, enterBody, h]
  apply attempt_eq_ended
  intro total
  apply attempt_eq_ended
  intro scratch
  simp only
  split
  · have hrun := @Turns.run_into (Turn ε) _ _ _ _ (bodyTurn P s total)
      (Stage.iteration phr P s) (.sized info cl total) (afterSized info cl) (fun _ _ => rfl) turns
      { client := { client with scratch := scratch }, filled := filled }
    rw [ended, Turns.resume, hrun, Turns.Ended.andThen_andThen]
    rfl
  · rfl

theorem readBody_eq_ended {info : HeaderInfo} {filled : Nat} {client : Client σ}
    {turns : List (Turn ε)} :
  readBody phr P s info filled client turns
    = ended phr P s (enterBody phr s info filled client) turns
  := by
  rw [readBody]
  split
  case h_1 cl hcl => exact readSizedBody_eq_ended hcl
  case h_2 hcl =>
    rw [enterBody, hcl]
    simp only
    split
    · rw [readChunkedBody]
      apply attempt_eq_ended
      intro initialRaw
      split
      · simp only
        split
        · rfl
        · split
          · rfl
          · apply readChunks_eq_ended
      · apply readChunks_eq_ended
    · apply attempt_eq_ended
      intro len
      rfl

/-- A call is a loop that takes iterations. -/
theorem readResponse_eq {client : Client σ} {turns : List (Turn ε)} :
  readResponse phr P s client turns
    = (Turns.run (Stage.iteration phr P s) turns (.start client)).andThen Stage.client
        fun r rest => .done r rest
  := by
  have hrun := @Turns.run_into (Turn ε) _ _ _ _ (headerTurn phr P s)
    (Stage.iteration phr P s) .header (afterHeader phr s) (fun _ _ => rfl) turns
    { client := client, filled := 0 }
  rw [Stage.start, hrun, Turns.Ended.andThen_andThen, readResponse]
  congr 1
  funext ⟨result, client⟩ rest
  cases result with
  | error stop => rfl
  | ok found => exact readBody_eq_ended

/-! ### The check of the timeout -/

/-- The settings of a call without a timeout. -/
def Settings.untimed (s : Settings) : Settings := { s with timeoutNs := -1 }

/-- `scratch` and the place in it that an iteration pops to. -/
def Stage.target (s : Settings) : Stage δ σ → Except Stop (List UInt8 × Nat)
  | .header st => .ok (st.client.scratch, st.filled)
  | .sized _ _ _ st => .ok (st.client.scratch, st.filled)
  | .chunked info st =>
    (usizeAdd s.overflowChecks info.headerLen st.decodedTotal).bind fun writeAt =>
    (usizeSub s.overflowChecks st.client.scratch.length writeAt).bind fun headroom =>
    (if headroom < minHeadroom then
      (usizeMul s.overflowChecks st.client.scratch.length 2).bind (vecResize st.client.scratch)
    else
      .ok st.client.scratch).map fun scratch => (scratch, writeAt)

/-- The bytes in the ring after a pump, as far as there is room for them. -/
def arrived (P : Port ε σ) (t : Turn ε) (client : Client σ)
    (target : Except Stop (List UInt8 × Nat)) : List UInt8 :=
  match target with
  | .ok (scratch, start) =>
    (P.rx (P.pump t.pump client.port).2).take (scratch.length - start)
  | .error _ => []

/-- The bytes that arrive in an iteration. -/
def Stage.arrived (P : Port ε σ) (s : Settings) (t : Turn ε) (stage : Stage δ σ) : List UInt8 :=
  Http.arrived P t stage.client (stage.target s)

/-- A turn in which bytes are popped to a place in `scratch`, and the timeout is checked when there
are none. -/
def receive {β st : Type} (P : Port ε σ) (s : Settings) (t : Turn ε) (client : Client σ)
    (target : Except Stop (List UInt8 × Nat))
    (popped : Nat → Nat → Client σ → Turns.Step st (Except Stop β × Client σ))
    (again : Client σ → st) :
    Turns.Step st (Except Stop β × Client σ) :=
  pumpTurn P t client fun client =>
  check client target fun (scratch, start) =>
  check { client with scratch := scratch }
    (Client.rxPop P { client with scratch := scratch } start) fun (n, client) =>
  if 0 < n then popped start n client else idleTurn s t client (again client)

/-- A turn, with the check of the timeout when it goes on and no byte has arrived. -/
def checkTimeout {β st : Type} (s : Settings) (t : Turn ε) (bytes : List UInt8)
    (client : st → Client σ) (x : Turns.Step st (Except Stop β × Client σ)) :
    Turns.Step st (Except Stop β × Client σ) :=
  match x with
  | .more next => if bytes = [] then idleTurn s t (client next) next else .more next
  | .done r => .done r

variable {β st : Type} {t : Turn ε}

theorem check_bind {α α' : Type} {client : Client σ} {x : Except Stop α}
    {f : α → Except Stop α'} {k : α' → Turns.Step st (Except Stop β × Client σ)} :
  check client (x.bind f) k = check client x fun a => check client (f a) k
  := by
  cases x <;> rfl

theorem check_map {α α' : Type} {client : Client σ} {x : Except Stop α} {f : α → α'}
    {k : α' → Turns.Step st (Except Stop β × Client σ)} :
  check client (x.map f) k = check client x fun a => k (f a)
  := by
  cases x <;> rfl

@[simp]
theorem timedOut_untimed {now : UInt64} :
  timedOut s.untimed now = .ok false
  := if_neg (show ¬(0 : Int64) ≤ -1 by decide)

section

variable {client : Client σ} {target : Except Stop (List UInt8 × Nat)}
variable {popped : Nat → Nat → Client σ → Turns.Step st (Except Stop β × Client σ)}
variable {again : Client σ → st} {clientOf : st → Client σ}

/-- What is popped is what has arrived. -/
theorem rxPop_arrived {scratch : List UInt8} {start n : Nat} {client' : Client σ}
    (h : Client.rxPop P { client with port := (P.pump t.pump client.port).2, scratch := scratch }
      start = .ok (n, client')) :
  n = (arrived P t client (.ok (scratch, start))).length
  := by
  rw [Client.rxPop] at h
  split at h
  · cases h
  · cases h
    rfl

/-- A turn that receives differs from one without a timeout in the check of the timeout only. -/
theorem receive_eq (h : ∀ client, clientOf (again client) = client) :
  receive P s t client target popped again
    = checkTimeout s t (arrived P t client target) clientOf
        (receive P s.untimed t client target popped again)
  := by
  rw [receive, receive, pumpTurn, pumpTurn]
  simp only
  split
  · rfl
  · cases target with
    | error stop => rfl
    | ok found =>
      obtain ⟨scratch, start⟩ := found
      simp only [check]
      split
      case h_1 stop _ => rfl
      case h_2 some hpop =>
        obtain ⟨n, client'⟩ := some
        have hn := rxPop_arrived hpop
        simp only
        split
        case isTrue hpos =>
          have hne : arrived P t client (.ok (scratch, start)) ≠ [] := by
            apply List.ne_nil_of_length_pos
            rw [← hn]
            apply hpos
          cases popped start n client' with
          | more next => simp only [checkTimeout, if_neg hne]
          | done r => rfl
        case isFalse hpos =>
          have hnil : arrived P t client (.ok (scratch, start)) = [] := by
            apply List.eq_nil_of_length_eq_zero
            rw [← hn]
            apply Nat.eq_zero_of_not_pos hpos
          have hmore : idleTurn s.untimed t client' (again client')
              = (.more (again client') : Turns.Step st (Except Stop β × Client σ)) := by
            simp only [idleTurn, timedOut_untimed, check, Bool.false_eq_true, if_false]
          rw [hmore]
          simp only [checkTimeout, if_pos hnil, h]

/-- A turn that receives nothing is done with a failure only. -/
theorem receive_silent (h : arrived P t client target = []) :
  (receive P s.untimed t client target popped again).Holds (fun _ => True)
    fun r => ∃ stop client', r = (.error stop, client')
  := by
  rw [receive, pumpTurn]
  simp only
  split
  · exact ⟨_, _, rfl⟩
  · cases target with
    | error stop => exact ⟨_, _, rfl⟩
    | ok found =>
      obtain ⟨scratch, start⟩ := found
      simp only [check]
      split
      case h_1 stop _ => exact ⟨_, _, rfl⟩
      case h_2 some hpop =>
        obtain ⟨n, client'⟩ := some
        have hn := rxPop_arrived hpop
        rw [h, List.length_nil] at hn
        subst hn
        simp only [Nat.lt_irrefl, if_false, idleTurn, timedOut_untimed, check, Bool.false_eq_true,
          Turns.Step.holds_more]

end

/-! ### The turns of the loops -/

/-- What the loop for the header block does with bytes that it has popped. -/
def headerPopped (phr : Phr δ) (s : Settings) (st : Filling σ) (n : Nat) (client : Client σ) :
    Turns.Step (Filling σ) (Except Stop (HeaderInfo × Nat) × Client σ) :=
  check client (usizeAdd s.overflowChecks st.filled n) fun filled =>
  match tryParseHeaders phr client.scratch filled st.filled with
  | .complete info => .done (.ok (info, filled), client)
  | .error => .done (.error (.failed .responseMalformed), client)
  | .incomplete =>
    if client.scratch.length ≤ filled then
      .done (.error (.failed .responseTooLarge), client)
    else
      .more { client := client, filled := filled }

/-- What the loop for a body of known length does with bytes that it has popped. -/
def bodyPopped (s : Settings) (total : Nat) (st : Filling σ) (n : Nat) (client : Client σ) :
    Turns.Step (Filling σ) (Except Stop Unit × Client σ) :=
  check client (usizeAdd s.overflowChecks st.filled n) fun filled =>
  if filled < total then
    .more { client := client, filled := filled }
  else
    .done (.ok (), client)

/-- What the loop for a chunked body does with bytes that it has popped. -/
def chunkPopped (phr : Phr δ) (s : Settings) (info : HeaderInfo) (st : Chunking δ σ)
    (writeAt n : Nat) (client : Client σ) :
    Turns.Step (Chunking δ σ) (Except Stop Reply × Client σ) :=
  let r := phr.decodeChunked st.decoder (Buffer.slice client.scratch writeAt n)
  let client := { client with scratch := Buffer.overwrite client.scratch writeAt r.buf }
  check client (usizeAdd s.overflowChecks st.decodedTotal r.bufsz) fun decodedTotal =>
  if 0 ≤ r.ret then
    .done (.ok (info.status, info.headerLen, decodedTotal), client)
  else if r.ret = -1 then
    .done (.error (.failed .responseMalformed), client)
  else
    .more { client := client, decoder := r.decoder, decodedTotal := decodedTotal }

theorem headerTurn_eq_receive {st : Filling σ} :
  headerTurn phr P s t st
    = receive P s t st.client (.ok (st.client.scratch, st.filled))
        (fun _ => headerPopped phr s st) (fun client => { client := client, filled := st.filled })
  := rfl

theorem bodyTurn_eq_receive {total : Nat} {st : Filling σ} :
  bodyTurn P s total t st
    = receive P s t st.client (.ok (st.client.scratch, st.filled))
        (fun _ => bodyPopped s total st) (fun client => { client := client, filled := st.filled })
  := rfl

theorem chunkTurn_eq_receive {info : HeaderInfo} {st : Chunking δ σ} :
  chunkTurn phr P s info t st
    = receive P s t st.client (Stage.target s (.chunked info st)) (chunkPopped phr s info st)
        (fun client => { st with client := client })
  := by
  rw [chunkTurn, receive, Stage.target, pumpTurn, pumpTurn]
  simp only [check_bind, check_map]
  rfl

/-- A turn of a smaller loop as an iteration of the larger one, with the check of the timeout. -/
theorem into_checkTimeout {β' st' : Type} {bytes : List UInt8} {clientOf : st → Client σ}
    {clientOf' : st' → Client σ} {x : Turns.Step st (Except Stop β × Client σ)}
    {more : st → st'} {next : Except Stop β × Client σ → Turns.Step st' (Except Stop β' × Client σ)}
    (hmore : ∀ st, clientOf' (more st) = clientOf st)
    (herror : ∀ stop client, next (.error stop, client) = .done (.error stop, client))
    (hdone : bytes = [] → x.Holds (fun _ => True) fun r => ∃ r', next r = .done r') :
  (checkTimeout s t bytes clientOf x).into more next
    = checkTimeout s t bytes clientOf' (x.into more next)
  := by
  cases x with
  | more st =>
    by_cases h : bytes = []
    · simp only [checkTimeout, Turns.Step.into, if_pos h, hmore, idleTurn]
      cases timedOut s t.now with
      | error stop => exact herror _ _
      | ok expired =>
        cases expired with
        | false => rfl
        | true => exact herror _ _
    · simp only [checkTimeout, Turns.Step.into, if_neg h]
  | done r =>
    simp only [checkTimeout, Turns.Step.into]
    cases hnext : next r with
    | done r' => rfl
    | more st' =>
      have hne : bytes ≠ [] := by
        intro h
        obtain ⟨r', hr⟩ := hdone h
        rw [hnext] at hr
        cases hr
      simp only [if_neg hne]

/-- A turn that receives, as an iteration of the larger loop. -/
theorem receive_into {β' st' : Type} {client : Client σ}
    {target : Except Stop (List UInt8 × Nat)}
    {popped : Nat → Nat → Client σ → Turns.Step st (Except Stop β × Client σ)}
    {again : Client σ → st} (clientOf : st → Client σ) (clientOf' : st' → Client σ)
    {more : st → st'} {next : Except Stop β × Client σ → Turns.Step st' (Except Stop β' × Client σ)}
    (hagain : ∀ client, clientOf (again client) = client)
    (hmore : ∀ st, clientOf' (more st) = clientOf st)
    (herror : ∀ stop client, next (.error stop, client) = .done (.error stop, client)) :
  (receive P s t client target popped again).into more next
    = checkTimeout s t (arrived P t client target) clientOf'
        ((receive P s.untimed t client target popped again).into more next)
  := by
  rw [receive_eq hagain]
  apply into_checkTimeout hmore herror
  intro hsilent
  have hdone := @receive_silent _ _ P s _ _ t client target popped again hsilent
  cases hturn : receive P s.untimed t client target popped again with
  | more st => trivial
  | done r =>
    rw [hturn] at hdone
    obtain ⟨stop, client', rfl⟩ := hdone
    exact ⟨_, herror _ _⟩

/-- An iteration differs from one without a timeout in the check of the timeout only. -/
theorem iteration_eq {stage : Stage δ σ} :
  stage.iteration phr P s t
    = checkTimeout s t (stage.arrived P s t) Stage.client (stage.iteration phr P s.untimed t)
  := by
  cases stage with
  | header st =>
    rw [Stage.iteration, Stage.iteration, headerTurn_eq_receive, headerTurn_eq_receive]
    refine receive_into Filling.client Stage.client ?_ ?_ ?_
    · intro client
      rfl
    · intro st
      rfl
    · intro stop client
      rfl
  | sized info cl total st =>
    rw [Stage.iteration, Stage.iteration, bodyTurn_eq_receive, bodyTurn_eq_receive]
    refine receive_into Filling.client Stage.client ?_ ?_ ?_
    · intro client
      rfl
    · intro st
      rfl
    · intro stop client
      rfl
  | chunked info st =>
    rw [Stage.iteration, Stage.iteration, chunkTurn_eq_receive, chunkTurn_eq_receive]
    refine receive_into Chunking.client Stage.client ?_ ?_ ?_
    · intro client
      rfl
    · intro st
      rfl
    · intro stop client
      rfl

/-! ### Iterations past the deadline -/

/-- An iteration with the time at which it begins. -/
structure Timed (ε : Type) extends Turn ε where
  began : UInt64
  began_le : began ≤ now

/-- The call has a timeout, and the iteration begins at or after `start + timeout_ns`. -/
def Late (s : Settings) (t : Timed ε) : Prop :=
  0 ≤ s.timeoutNs ∧ s.start.toNat + s.timeoutNs.toInt ≤ t.began.toNat

/-- What a call has come to on a list of turns, while it is waiting. -/
def Reaches (phr : Phr δ) (P : Port ε σ) (s : Settings) (client : Client σ)
    (turns : List (Turn ε)) (stage : Stage δ σ) : Prop :=
  Turns.run (Stage.iteration phr P s) turns (.start client) = .waiting stage

/-- An iteration of a call that begins past the deadline and leaves the response incomplete: without
a timeout the call would go on. -/
structure Overdue (phr : Phr δ) (P : Port ε σ) (s : Settings) (client : Client σ)
    (turns before : List (Timed ε)) (t : Timed ε) (stage : Stage δ σ) : Prop where
  isPrefix : before ++ [t] <+: turns
  reaches : Reaches phr P s client (before.map Timed.toTurn) stage
  late : Late s t
  incomplete : ∃ next, stage.iteration phr P s.untimed t.toTurn = .more next

/-- A call ends with an error in every iteration that begins past the deadline and leaves the
response incomplete. -/
def HonoursDeadline (phr : Phr δ) (P : Port ε σ) (s : Settings) (client : Client σ)
    (turns : List (Timed ε)) : Prop :=
  ∀ before t stage, Overdue phr P s client turns before t stage →
    ∃ e client', readResponse phr P s client ((before ++ [t]).map Timed.toTurn)
      = .done (.error (.failed e), client') []

/-- In every iteration that begins past the deadline and leaves the response incomplete, no byte
arrives, and the clock is less than `2 ^ 63` nanoseconds past the start. -/
def SilentPastDeadline (phr : Phr δ) (P : Port ε σ) (s : Settings) (client : Client σ)
    (turns : List (Timed ε)) : Prop :=
  ∀ before t stage, Overdue phr P s client turns before t stage →
    stage.arrived P s t.toTurn = [] ∧ t.now.toNat - s.start.toNat < 2 ^ 63

/-- Past the deadline the timeout is noticed, unless the time since the start has no `i64`. -/
theorem Late.timedOut {t : Timed ε} (h : Late s t) :
  timedOut s t.now = .ok (decide (t.now.toNat - s.start.toNat < 2 ^ 63))
  := by
  obtain ⟨hpos, hlate⟩ := h
  have hpos' := Int64.le_iff_toInt_le.mp hpos
  have hbegan := UInt64.le_iff_toNat_le.mp t.began_le
  rw [Int64.toInt_zero] at hpos'
  have hle : s.start.toNat ≤ t.now.toNat := by omega
  have hnot : ¬(t.now < s.start ∧ s.overflowChecks = true) := by
    rintro ⟨hlt, -⟩
    have hlt' := UInt64.lt_iff_toNat_lt.mp hlt
    omega
  have helapsed : (t.now - s.start).toInt64.toInt
      = if 2 * (t.now.toNat - s.start.toNat) < 2 ^ 64 then
          ((t.now.toNat - s.start.toNat : Nat) : Int)
        else ((t.now.toNat - s.start.toNat : Nat) : Int) - 2 ^ 64 := by
    rw [← UInt64.toNat_sub_of_le _ _ (UInt64.le_iff_toNat_le.mpr hle)]
    apply BitVec.toInt_eq_toNat_cond
  rw [Http.timedOut, if_pos hpos, if_neg hnot, Except.ok.injEq, decide_eq_decide,
    Int64.le_iff_toInt_le, helapsed]
  have hlt := t.now.toNat_lt
  split <;> omega

/-- What a call has come to after one more turn. -/
theorem readResponse_snoc {client : Client σ} {turns : List (Turn ε)} {stage : Stage δ σ}
    (h : Reaches phr P s client turns stage) :
  readResponse phr P s client (turns ++ [t]) = ended phr P s (stage.iteration phr P s t) []
  := by
  rw [readResponse_eq, Turns.run_append, h]
  rfl

/-- A call ends with an error in an iteration past its deadline exactly when no byte arrives. -/
theorem Overdue.ends_iff {client : Client σ} {turns before : List (Timed ε)} {t : Timed ε}
    {stage : Stage δ σ} (h : Overdue phr P s client turns before t stage) :
  (∃ e client', readResponse phr P s client ((before ++ [t]).map Timed.toTurn)
      = .done (.error (.failed e), client') [])
    ↔ stage.arrived P s t.toTurn = [] ∧ t.now.toNat - s.start.toNat < 2 ^ 63
  := by
  obtain ⟨next, hnext⟩ := h.incomplete
  rw [List.map_append, List.map_singleton, readResponse_snoc h.reaches, iteration_eq, hnext,
    checkTimeout]
  by_cases hsilent : stage.arrived P s t.toTurn = []
  · rw [if_pos hsilent, idleTurn, h.late.timedOut, check]
    by_cases hclock : t.now.toNat - s.start.toNat < 2 ^ 63
    · simp only [hclock, decide_true, if_true]
      constructor
      · intro _
        exact ⟨hsilent, trivial⟩
      · intro _
        exact ⟨_, _, rfl⟩
    · simp only [hclock, decide_false, Bool.false_eq_true, if_false]
      constructor
      · rintro ⟨e, client', hdone⟩
        cases hdone
      · rintro ⟨-, hfalse⟩
        apply hfalse.elim
  · rw [if_neg hsilent]
    constructor
    · rintro ⟨e, client', hdone⟩
      cases hdone
    · rintro ⟨hnil, -⟩
      exact absurd hnil hsilent

/-- A call honours its deadline exactly when nothing arrives past it but what completes the
response. -/
theorem honoursDeadline_iff {client : Client σ} {turns : List (Timed ε)} :
  HonoursDeadline phr P s client turns ↔ SilentPastDeadline phr P s client turns
  := by
  constructor
  · intro h before t stage hoverdue
    apply hoverdue.ends_iff.mp (h before t stage hoverdue)
  · intro h before t stage hoverdue
    apply hoverdue.ends_iff.mpr (h before t stage hoverdue)

/-- Bytes that a pump brings at some time. -/
def bringing (time : UInt64) (bytes : List UInt8) : Timed Delivery where
  pump := { bytes := bytes }
  now := time
  began := time
  began_le := UInt64.le_refl time

/-- With a timeout of zero every iteration begins past the deadline. A response whose bytes come in
two pumps is read all the same, and the first of the two iterations goes on waiting. -/
theorem not_honoursDeadline :
  let block := ascii "HTTP/1.1 200 OK\r\n\r\n"
  let turns := [bringing 1000 (block.take 10), bringing 3000 (block.drop 10)]
  let settings : Settings := { overflowChecks := true, timeoutNs := 0, start := 1000 }
  let client : Client (List UInt8) := { scratch := List.replicate 64 0, port := [] }
  (∃ client', readResponse (Phr.ofBlock block 200 []) feed settings client
      (turns.map Timed.toTurn) = .done (.ok (200, 19, 0), client') [])
    ∧ ¬HonoursDeadline (Phr.ofBlock block 200 []) feed settings client turns
  := by
  intro block turns settings client
  constructor
  · exact ⟨_, rfl⟩
  · intro h
    obtain ⟨e, client', hdone⟩ := h [] (bringing 1000 (block.take 10))
      (.header { client := client, filled := 0 })
      { isPrefix := ⟨[bringing 3000 (block.drop 10)], rfl⟩
        reaches := rfl
        late := ⟨by decide, by decide⟩
        incomplete := ⟨_, rfl⟩ }
    cases hdone

end FdRpc.Http

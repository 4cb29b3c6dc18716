import FiredancerRs.Http.Feed
import FiredancerRs.Http.Headers

/-!
# The loop for the header block

How `read_response` reads a header block from quiet turns. When the block fits in `scratch` and its
headers in the array, the loop ends with what the block says as soon as the block is there
(`headerLoop_holds`).
-/

namespace FdRpc.Http

variable {δ : Type} {phr : Phr δ}

/-- What `read_response` learns from a header block. -/
def HeaderBlock.info (block : HeaderBlock phr) : HeaderInfo where
  headerLen := block.bytes.length
  status := UInt16.ofInt block.status
  contentLength := (readHeaders block.headers).1
  isChunked := (readHeaders block.headers).2

@[simp]
theorem HeaderBlock.info_headerLen (block : HeaderBlock phr) :
  block.info.headerLen = block.bytes.length
  := rfl

/-! ### Parsing a part of the stream -/

variable {block : HeaderBlock phr} {buf : List UInt8} {filled lastLen : Nat}

theorem tryParseHeaders_complete (hbuf : block.bytes <+: buf.take filled)
    (hlast : lastLen < block.bytes.length) (hroom : block.headers.length ≤ maxHeaders) :
  tryParseHeaders phr buf filled lastLen = .complete block.info
  := by
  have hrc : ¬((block.bytes.length : Int) = -2) := by omega
  have hneg : ¬((block.bytes.length : Int) < 0) := by omega
  simp only [tryParseHeaders, block.complete _ _ _ hbuf hlast hroom, hrc, hneg, if_false]
  rfl

theorem tryParseHeaders_rejected (hbuf : block.bytes <+: buf.take filled)
    (hlast : lastLen < block.bytes.length) (hroom : maxHeaders < block.headers.length) :
  tryParseHeaders phr buf filled lastLen = .error
  := by
  simp [tryParseHeaders, block.rejected _ _ _ hbuf hlast hroom]

theorem tryParseHeaders_incomplete (hbuf : buf.take filled <+: block.bytes)
    (hlast : lastLen < (buf.take filled).length)
    (hlt : (buf.take filled).length < block.bytes.length)
    (hroom : 0 < lastLen ∨ block.headers.length ≤ maxHeaders) :
  tryParseHeaders phr buf filled lastLen = .incomplete
  := by
  simp [tryParseHeaders, block.unfinished _ _ _ hbuf hlast hlt hroom]

/-- The parser on what begins with the block or is a part of it, as long as the block was not there
before. -/
theorem tryParseHeaders_cases {tail : List UInt8}
    (hpart : buf.take filled <+: block.bytes ++ tail) (hlast : lastLen < block.bytes.length)
    (hmore : lastLen < (buf.take filled).length) :
  tryParseHeaders phr buf filled lastLen = .error
    ∨ block.bytes.length ≤ (buf.take filled).length
      ∧ tryParseHeaders phr buf filled lastLen = .complete block.info
    ∨ (buf.take filled).length < block.bytes.length
      ∧ tryParseHeaders phr buf filled lastLen = .incomplete
  := by
  have hblock : block.bytes <+: block.bytes ++ tail := List.prefix_append _ _
  by_cases hthere : block.bytes.length ≤ (buf.take filled).length
  · have hwhole := List.prefix_of_prefix_length_le hblock hpart hthere
    by_cases hroom : block.headers.length ≤ maxHeaders
    · right
      left
      exact ⟨hthere, tryParseHeaders_complete hwhole hlast hroom⟩
    · left
      apply tryParseHeaders_rejected hwhole hlast (Nat.not_le.mp hroom)
  · have hlt := Nat.not_le.mp hthere
    have hfirst := List.prefix_of_prefix_length_le hpart hblock hlt.le
    by_cases hseen : 0 < lastLen
    · right
      right
      exact ⟨hlt, tryParseHeaders_incomplete hfirst hmore hlt (.inl hseen)⟩
    · obtain rfl : lastLen = 0 := Nat.eq_zero_of_not_pos hseen
      rcases block.unfinished_first _ maxHeaders hfirst hmore hlt with hrc | hrc
      · left
        simp [tryParseHeaders, hrc]
      · right
        right
        exact ⟨hlt, by simp [tryParseHeaders, hrc]⟩

/-- The whole block, seen for the first time. -/
theorem tryParseHeaders_whole (hroom : block.headers.length ≤ maxHeaders) :
  tryParseHeaders phr block.bytes block.bytes.length 0 = .complete block.info
  := by
  apply tryParseHeaders_complete _ (List.length_pos_iff.mpr block.nonempty) hroom
  rw [List.take_length]

theorem tryParseHeaders_whole_rejected (hroom : maxHeaders < block.headers.length) :
  tryParseHeaders phr block.bytes block.bytes.length 0 = .error
  := by
  apply tryParseHeaders_rejected _ (List.length_pos_iff.mpr block.nonempty) hroom
  rw [List.take_length]

/-! ### One turn -/

variable {s : Settings} {t : Turn Delivery} {st : Filling (List UInt8)}

/-- What a quiet turn of the loop does with what it pops. -/
theorem headerTurn_quiet (h : Quiet s t) (hfilled : st.filled ≤ st.client.scratch.length)
    (hscratch : st.client.scratch.length ≤ isizeMax) :
  ∃ popped rest, st.client.port ++ t.pump.bytes = popped ++ rest
    ∧ st.filled + popped.length ≤ st.client.scratch.length
    ∧ (rest ≠ [] → st.filled + popped.length = st.client.scratch.length)
    ∧ headerTurn phr feed s t st =
      let client : Client (List UInt8) :=
        { scratch := Buffer.overwrite st.client.scratch st.filled popped, port := rest }
      let filled := st.filled + popped.length
      if popped = [] then
        .more { client := client, filled := filled }
      else
        match tryParseHeaders phr client.scratch filled st.filled with
        | .complete info => .done (.ok (info, filled), client)
        | .error => .done (.error (.failed .responseMalformed), client)
        | .incomplete =>
          if st.client.scratch.length ≤ filled then
            .done (.error (.failed .responseTooLarge), client)
          else
            .more { client := client, filled := filled }
  := by
  obtain ⟨⟨scratch, ring⟩, filled⟩ := st
  obtain ⟨popped, rest, hring, hpop, hle, hfull⟩ :=
    @rxPop_feed { scratch := scratch, port := ring ++ t.pump.bytes } _ hfilled
  use popped, rest
  use hring, hle, hfull
  have hadd : usizeAdd s.overflowChecks filled popped.length = .ok (filled + popped.length) :=
    usizeAdd_eq (lt_of_le_of_lt (hle.trans hscratch) isizeMax_lt)
  rw [headerTurn, pumpTurn_quiet h, hpop]
  by_cases hnil : popped = []
  · simp [hnil, idleTurn_quiet h]
  · have hpos : 0 < popped.length := List.length_pos_iff.mpr hnil
    cases hparse : tryParseHeaders phr (Buffer.overwrite scratch filled popped)
        (filled + popped.length) filled <;>
      simp [check_ok, hpos, hadd, hnil, Buffer.length_overwrite hle, hparse]

theorem tryParseHeaders_congr {buf' : List UInt8} (h : buf.take filled = buf'.take filled) :
  tryParseHeaders phr buf filled lastLen = tryParseHeaders phr buf' filled lastLen
  := by
  rw [tryParseHeaders, h, tryParseHeaders]

/-- The first turn, when all that arrives fits in `scratch`. -/
theorem headerTurn_first {scratch p : List UInt8} (h : Quiet s t) (hbytes : t.pump.bytes = p)
    (hne : p ≠ []) (hle : p.length ≤ scratch.length) (hscratch : scratch.length ≤ isizeMax) :
  headerTurn phr feed s t { client := { scratch := scratch, port := [] }, filled := 0 } =
    let client : Client (List UInt8) := { scratch := Buffer.overwrite scratch 0 p, port := [] }
    match tryParseHeaders phr p p.length 0 with
    | .complete info => .done (.ok (info, p.length), client)
    | .error => .done (.error (.failed .responseMalformed), client)
    | .incomplete =>
      if scratch.length ≤ p.length then
        .done (.error (.failed .responseTooLarge), client)
      else
        .more { client := client, filled := p.length }
  := by
  obtain ⟨popped, rest, hring, hpop, hfull, hturn⟩ :=
    @headerTurn_quiet _ phr _ _ { client := { scratch := scratch, port := [] }, filled := 0 } h
      (Nat.zero_le _) hscratch
  simp only [List.nil_append, Nat.zero_add, hbytes] at hring hpop hfull hturn
  have hrest : rest = [] := by
    by_contra hrest
    have hlength := congrArg List.length hring
    have := List.length_pos_iff.mpr hrest
    rw [List.length_append] at hlength
    have := hfull hrest
    omega
  rw [hrest, List.append_nil] at hring
  subst hring
  have htake : (Buffer.overwrite scratch 0 p).take (0 + p.length) = scratch.take 0 ++ p :=
    Buffer.take_overwrite (Nat.zero_le _)
  rw [Nat.zero_add] at htake
  have hparse : tryParseHeaders phr (Buffer.overwrite scratch 0 p) p.length 0
      = tryParseHeaders phr p p.length 0 := by
    apply tryParseHeaders_congr
    rw [htake, List.take_length]
    rfl
  rw [hturn]
  simp only [hne, hparse, hrest, if_false]

/-- A call whose first turn brings a header block goes on with its body. -/
theorem readResponse_first {scratch p : List UInt8} {info : HeaderInfo} (h : Quiet s t)
    (hbytes : t.pump.bytes = p) (hne : p ≠ []) (hle : p.length ≤ scratch.length)
    (hscratch : scratch.length ≤ isizeMax)
    (hparse : tryParseHeaders phr p p.length 0 = .complete info) (ts : List (Turn Delivery)) :
  readResponse phr feed s { scratch := scratch, port := [] } (t :: ts) =
    readBody phr feed s info p.length
      { scratch := Buffer.overwrite scratch 0 p, port := [] } ts
  := by
  have hturn := @headerTurn_first _ phr _ _ _ _ h hbytes hne hle hscratch
  rw [hparse] at hturn
  rw [readResponse, Turns.run, hturn]
  rfl

/-- A call whose first turn brings what the parser rejects. -/
theorem readResponse_first_error {scratch p : List UInt8} (h : Quiet s t)
    (hbytes : t.pump.bytes = p) (hne : p ≠ []) (hle : p.length ≤ scratch.length)
    (hscratch : scratch.length ≤ isizeMax)
    (hparse : tryParseHeaders phr p p.length 0 = .error) (ts : List (Turn Delivery)) :
  readResponse phr feed s { scratch := scratch, port := [] } (t :: ts) =
    .done (.error (.failed .responseMalformed),
      { scratch := Buffer.overwrite scratch 0 p, port := [] }) ts
  := by
  have hturn := @headerTurn_first _ phr _ _ _ _ h hbytes hne hle hscratch
  rw [hparse] at hturn
  rw [readResponse, Turns.run, hturn]
  rfl

/-! ### The loop -/

variable {patient : Prop} {stream tail : List UInt8} {n : Nat} {ts : List (Turn Delivery)}

/-- A part of the block is in `scratch`, and nothing lies in the ring. -/
structure HeaderInv (block : HeaderBlock phr) (s : Settings) (patient : Prop)
    (stream : List UInt8) (n : Nat) (turns : List (Turn Delivery))
    (st : Filling (List UInt8)) : Prop where
  feeding : Feeding s patient stream (st.client.scratch.take st.filled) turns st.client.port
  length : st.client.scratch.length = n
  filled_lt : st.filled < block.bytes.length
  ring : st.client.port = []

/-- The block is in `scratch`, with some of what follows it. -/
structure HeaderDone (block : HeaderBlock phr) (s : Settings) (patient : Prop)
    (stream : List UInt8) (n : Nat) (turns : List (Turn Delivery)) (filled : Nat)
    (client : Client (List UInt8)) : Prop where
  feeding : Feeding s patient stream (client.scratch.take filled) turns client.port
  length : client.scratch.length = n
  le_filled : block.bytes.length ≤ filled
  filled_le : filled ≤ n

/-- What lies in `scratch` and in the ring after a turn: the ring is empty unless `scratch` is
full. -/
structure Popped (s : Settings) (patient : Prop) (stream : List UInt8) (n : Nat)
    (turns : List (Turn Delivery)) (filled : Nat) (client : Client (List UInt8)) : Prop where
  feeding : Feeding s patient stream (client.scratch.take filled) turns client.port
  length : client.scratch.length = n
  filled_le : filled ≤ n
  full : client.port ≠ [] → filled = n

namespace Popped

variable {filled : Nat} {client : Client (List UInt8)}

theorem length_take (h : Popped s patient stream n ts filled client) :
  (client.scratch.take filled).length = filled
  := List.length_take_of_le (h.length.symm ▸ h.filled_le)

/-- What is in `scratch` is a part of the block while it is shorter. -/
theorem part (h : Popped s patient stream n ts filled client)
    (hstream : stream <+: block.bytes ++ tail) (hlt : filled < block.bytes.length) :
  client.scratch.take filled <+: block.bytes
  := by
  apply List.prefix_of_prefix_length_le (h.feeding.seen_isPrefix.trans hstream)
    (List.prefix_append block.bytes tail)
  rw [h.length_take]
  apply hlt.le

/-- The block is a part of what is in `scratch` once that is as long. -/
theorem whole (h : Popped s patient stream n ts filled client)
    (hstream : stream <+: block.bytes ++ tail) (hle : block.bytes.length ≤ filled) :
  block.bytes <+: client.scratch.take filled
  := by
  apply List.prefix_of_prefix_length_le (List.prefix_append block.bytes tail)
    (h.feeding.seen_isPrefix.trans hstream)
  rw [h.length_take]
  apply hle

/-- The loop goes on as long as a part of the block is in `scratch` and there is space. -/
theorem headerInv (h : Popped s patient stream n ts filled client)
    (hlt : filled < block.bytes.length) (hspace : filled < n) :
  HeaderInv block s patient stream n ts { client := client, filled := filled }
  where
  feeding := h.feeding
  length := h.length
  filled_lt := hlt
  ring := by
    by_contra hring
    have := h.full hring
    omega

end Popped

/-- One turn of the loop either finds nothing or parses more than before. -/
theorem headerTurn_pops (hinv : HeaderInv block s patient stream n (t :: ts) st)
    (hlt : st.filled < n) (hn : n ≤ isizeMax) :
  ∃ filled client, Popped s patient stream n ts filled client
    ∧ (filled = st.filled
        ∧ headerTurn phr feed s t st = .more { client := client, filled := filled }
      ∨ st.filled < filled
        ∧ headerTurn phr feed s t st =
          match tryParseHeaders phr client.scratch filled st.filled with
          | .complete info => .done (.ok (info, filled), client)
          | .error => .done (.error (.failed .responseMalformed), client)
          | .incomplete =>
            if n ≤ filled then
              .done (.error (.failed .responseTooLarge), client)
            else
              .more { client := client, filled := filled })
  := by
  obtain ⟨hfeeding, hlength, -, -⟩ := hinv
  have hfilled : st.filled ≤ st.client.scratch.length := by omega
  obtain ⟨popped, rest, hring, hle, hfull, hturn⟩ :=
    @headerTurn_quiet _ phr _ _ _ (hfeeding.quiet t (List.mem_cons_self ..)) hfilled (by omega)
  have hpop : popped = [] → rest = [] := by
    rintro rfl
    by_contra hrest
    have := hfull hrest
    simp only [List.length_nil] at this
    omega
  have hnext := hfeeding.pop hring hpop
  rw [← Buffer.take_overwrite hfilled] at hnext
  have hsize := Buffer.length_overwrite hle
  use st.filled + popped.length,
    { scratch := Buffer.overwrite st.client.scratch st.filled popped, port := rest }
  constructor
  · constructor
    · apply hnext
    · apply hsize.trans hlength
    · omega
    · intro hrest
      rw [hfull hrest, hlength]
  · rw [hturn, hlength]
    by_cases hnil : popped = []
    · left
      simp [hnil]
    · right
      have := List.length_pos_iff.mpr hnil
      use by omega
      simp only [hnil, if_false]

/-- One turn of the loop, when the block fits in `scratch` and in the array of headers. -/
theorem headerTurn_holds (hfit : block.bytes.length ≤ n) (hn : n ≤ isizeMax)
    (hroom : block.headers.length ≤ maxHeaders) (hstream : stream <+: block.bytes ++ tail)
    (hinv : HeaderInv block s patient stream n (t :: ts) st) :
  (headerTurn phr feed s t st).Holds (HeaderInv block s patient stream n ts)
    fun r => ∃ filled, r.1 = .ok (block.info, filled)
      ∧ HeaderDone block s patient stream n ts filled r.2
  := by
  have hlt := hinv.filled_lt
  obtain ⟨filled, client, hpopped, ⟨rfl, hturn⟩ | ⟨hmore, hturn⟩⟩ :=
    headerTurn_pops hinv (hlt.trans_le hfit) hn
  · rw [hturn]
    apply hpopped.headerInv hlt (hlt.trans_le hfit)
  · rw [hturn]
    by_cases hthere : block.bytes.length ≤ filled
    · rw [tryParseHeaders_complete (hpopped.whole hstream hthere) hlt hroom]
      use filled, rfl
      constructor
      · apply hpopped.feeding
      · apply hpopped.length
      · apply hthere
      · apply hpopped.filled_le
    · have hpart := Nat.not_le.mp hthere
      rw [tryParseHeaders_incomplete (hpopped.part hstream hpart)
        (by rw [hpopped.length_take]; exact hmore) (by rw [hpopped.length_take]; exact hpart)
        (.inr hroom), if_neg (by omega)]
      apply hpopped.headerInv hpart (hpart.trans_le hfit)

/-- The loop ends with what the block says, unless the turns are over before the block is there. -/
theorem headerLoop_holds (hfit : block.bytes.length ≤ n) (hn : n ≤ isizeMax)
    (hroom : block.headers.length ≤ maxHeaders) (hstream : stream <+: block.bytes ++ tail)
    (hinv : HeaderInv block s patient stream n ts st) :
  (Turns.run (headerTurn phr feed s) ts st).Holds (HeaderInv block s patient stream n [])
    fun r rest => ∃ filled, r.1 = .ok (block.info, filled)
      ∧ HeaderDone block s patient stream n rest filled r.2
  := Turns.run_holds (fun _ _ _ => headerTurn_holds hfit hn hroom hstream) hinv

/-- A call on an empty ring begins with nothing of the block. -/
theorem headerInv_start {scratch : List UInt8} (hquiet : ∀ t ∈ ts, Quiet s t) :
  HeaderInv block s (Patient [] ts) (arrivals ts) scratch.length ts
    { client := { scratch := scratch, port := [] }, filled := 0 }
  where
  feeding := { quiet := hquiet, stream_eq := rfl, patient := id }
  length := rfl
  filled_lt := List.length_pos_iff.mpr block.nonempty
  ring := rfl

/-- The part of the block that a first turn brings is in `scratch`. -/
theorem headerInv_first {scratch p : List UInt8} (hquiet : ∀ u ∈ t :: ts, Quiet s u)
    (hbytes : t.pump.bytes = p) (hlt : p.length < block.bytes.length)
    (hle : p.length ≤ scratch.length) :
  HeaderInv block s (Patient [] (t :: ts)) (arrivals (t :: ts)) scratch.length ts
    { client := { scratch := Buffer.overwrite scratch 0 p, port := [] }, filled := p.length }
  where
  feeding := by
    have hfeeding := (@headerInv_start _ _ block _ _ scratch hquiet).feeding
    have hnext := hfeeding.pop (List.append_nil ([] ++ t.pump.bytes)).symm fun _ => rfl
    have htake : (Buffer.overwrite scratch 0 p).take (0 + p.length) = scratch.take 0 ++ p :=
      Buffer.take_overwrite (Nat.zero_le _)
    rw [Nat.zero_add] at htake
    rw [hbytes] at hnext
    rw [htake]
    apply hnext
  length := by
    apply Buffer.length_overwrite
    rw [Nat.zero_add]
    apply hle
  filled_lt := hlt
  ring := rfl

end FdRpc.Http

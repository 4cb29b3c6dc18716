import FiredancerRs.Http.HeaderLoop

/-!
# Bounds

What `read_response` computes on any stream of a server. The one sum that can overflow is that of
the length of the header block and the content length: where it does not, the body selected in
`scratch` is in range and no arithmetic overflows (`inBounds_iff`).
-/

namespace FdRpc.Http

variable {δ : Type} {phr : Phr δ} {s : Settings} {t : Turn Delivery} {ts : List (Turn Delivery)}

/-- A call may fail, or panic as a vector would become too long, but does not overflow or take a
slice out of range. -/
def Tame : Stop → Prop
  | .failed _ => True
  | .panicked p => p = .capacity

/-- What a call returns selects a part of `scratch`. -/
def Fine : Except Stop Reply × Client (List UInt8) → Prop
  | (.ok (_, start, len), client) =>
    start + len ≤ client.scratch.length ∧ client.scratch.length ≤ isizeMax
  | (.error stop, _) => Tame stop

/-- The clock does not go back behind the start of the call. -/
def Clocked (s : Settings) (turns : List (Turn Delivery)) : Prop := ∀ t ∈ turns, s.start ≤ t.now

/-! ### Parts of a turn -/

section

variable {β st : Type} {more : st → Prop} {done : Except Stop β × Client (List UInt8) → Prop}
variable {client : Client (List UInt8)}

/-- A pump leads to what follows, or the connection is found closed. -/
theorem holds_pumpTurn
    {k : Client (List UInt8) → Turns.Step st (Except Stop β × Client (List UInt8))}
    (hclosed : ∀ client, done (.error (.failed .connectionClosed), client))
    (hk : (k { client with port := client.port ++ t.pump.bytes }).Holds more done) :
  (pumpTurn feed t client k).Holds more done
  := by
  rw [pumpTurn]
  by_cases hfailed : ((feed.pump t.pump client.port).1.closed
      || (feed.pump t.pump client.port).1.error) = true
  · simp only [hfailed, if_true]
    apply hclosed
  · simp only [hfailed]
    apply hk

/-- A turn without bytes leads to the next, or the time is over. -/
theorem holds_idleTurn {again : st} (htime : s.start ≤ t.now)
    (hover : done (.error (.failed .responseIncomplete), client)) (hagain : more again) :
  (idleTurn s t client again).Holds more done
  := by
  have hclock : ¬t.now < s.start := UInt64.not_lt.mpr htime
  have htimed : ∃ expired, timedOut s t.now = .ok expired := by
    rw [timedOut]
    split
    · simp [hclock]
    · simp
  obtain ⟨expired, hexpired⟩ := htimed
  rw [idleTurn, hexpired, check_ok]
  split
  · apply hover
  · apply hagain

end

/-! ### The header block -/

variable {n : Nat} {stream : List UInt8}

/-- The headers that the parser finds at the front of a stream do not announce more than a word
holds. -/
def Announces (phr : Phr δ) (n : Nat) (stream : List UInt8) : Prop :=
  ∀ p info cl, p <+: stream → p ≠ [] → p.length ≤ n →
    tryParseHeaders phr p p.length 0 = .complete info → info.contentLength = some cl →
    info.headerLen + cl < 2 ^ 64

/-- What is in `scratch` is a part of the stream. -/
structure StreamInv (s : Settings) (stream : List UInt8) (n : Nat) (turns : List (Turn Delivery))
    (st : Filling (List UInt8)) : Prop where
  clocked : Clocked s turns
  stream_eq : st.client.scratch.take st.filled ++ st.client.port ++ arrivals turns = stream
  length : st.client.scratch.length = n
  filled_le : st.filled ≤ n

/-- What the loop for the header block ends with. -/
def HeaderFine (s : Settings) (n : Nat) (turns : List (Turn Delivery)) :
    Except Stop (HeaderInfo × Nat) × Client (List UInt8) → Prop
  | (.ok (info, filled), client) =>
    Clocked s turns ∧ client.scratch.length = n ∧ filled ≤ n ∧ info.headerLen ≤ filled
      ∧ ∀ cl, info.contentLength = some cl → info.headerLen + cl < 2 ^ 64
  | (.error stop, _) => Tame stop

/-- The parser stays in what has been filled. -/
theorem headerLen_le (hphr : phr.Bounded) {buf : List UInt8} {filled lastLen : Nat}
    {info : HeaderInfo} (h : tryParseHeaders phr buf filled lastLen = .complete info) :
  info.headerLen ≤ (buf.take filled).length
  := by
  have hrc := hphr.rc_le (buf.take filled) lastLen maxHeaders
  simp only [tryParseHeaders] at h
  split at h
  · cases h
  · split at h
    · cases h
    · cases h
      simp only
      omega

/-- A header block that is found is found at first sight as well. -/
theorem tryParseHeaders_resumed (hphr : phr.Bounded) {buf : List UInt8} {filled lastLen : Nat}
    {info : HeaderInfo} (h : tryParseHeaders phr buf filled lastLen = .complete info) :
  tryParseHeaders phr (buf.take filled) (buf.take filled).length 0 = .complete info
  := by
  have hrc : 0 ≤ (phr.parseResponse (buf.take filled) lastLen maxHeaders).rc := by
    by_contra hneg
    simp only [tryParseHeaders] at h
    split at h
    · cases h
    · rw [if_pos (Int.not_le.mp hneg)] at h
      cases h
  rw [← h, tryParseHeaders, List.take_length, tryParseHeaders,
    hphr.resumed _ _ _ hrc]

/-- One turn of the loop. -/
theorem headerTurn_fine {st : Filling (List UInt8)} (hphr : phr.Bounded) (hn : n ≤ isizeMax)
    (hstream : Announces phr n stream) (hinv : StreamInv s stream n (t :: ts) st) :
  (headerTurn phr feed s t st).Holds (StreamInv s stream n ts) (HeaderFine s n ts)
  := by
  obtain ⟨hclocked, hstream_eq, hlength, hfilled⟩ := hinv
  obtain ⟨⟨scratch, ring⟩, filled⟩ := st
  simp only at hstream_eq hlength hfilled
  have hle : filled ≤ scratch.length := hlength.symm ▸ hfilled
  apply holds_pumpTurn
  · intro client
    trivial
  obtain ⟨popped, rest, hring, hpop, hroom, -⟩ :=
    @rxPop_feed { scratch := scratch, port := ring ++ t.pump.bytes } _ hle
  simp only at hring hpop hroom
  have hnext : Clocked s ts := fun u hu => hclocked u (List.mem_cons_of_mem _ hu)
  have hsize := Buffer.length_overwrite hroom
  have hseen : (Buffer.overwrite scratch filled popped).take (filled + popped.length) ++ rest
      ++ arrivals ts = stream := by
    rw [Buffer.take_overwrite hle, List.append_assoc (scratch.take filled), ← hring, ← hstream_eq,
      arrivals_cons]
    simp only [List.append_assoc]
  rw [hpop, check_ok]
  by_cases hnil : popped = []
  · subst hnil
    simp only [List.length_nil, Nat.lt_irrefl, if_false]
    apply holds_idleTurn (hclocked t (List.mem_cons_self ..))
    · trivial
    · constructor
      · apply hnext
      · apply hseen
      · apply hsize.trans hlength
      · apply hfilled
  · have hpos := List.length_pos_iff.mpr hnil
    have hadd : usizeAdd s.overflowChecks filled popped.length = .ok (filled + popped.length) :=
      usizeAdd_eq (by have := isizeMax_lt; omega)
    simp only [hpos, if_true, hadd, check_ok]
    cases hparse : tryParseHeaders phr (Buffer.overwrite scratch filled popped)
        (filled + popped.length) filled with
    | complete info =>
      have htaken : ((Buffer.overwrite scratch filled popped).take
          (filled + popped.length)).length = filled + popped.length :=
        List.length_take_of_le (hsize.symm ▸ hroom)
      have hheader := headerLen_le hphr hparse
      rw [htaken] at hheader
      have hfirst := tryParseHeaders_resumed hphr hparse
      use hnext, hsize.trans hlength, hlength ▸ hroom, hheader
      intro cl hcl
      apply hstream _ info cl _ _ _ hfirst hcl
      · rw [← hseen, List.append_assoc]
        apply List.prefix_append
      · intro hempty
        rw [hempty, List.length_nil] at htaken
        omega
      · rw [htaken]
        apply hlength ▸ hroom
    | error => trivial
    | incomplete =>
      simp only
      split
      · trivial
      · constructor
        · apply hnext
        · apply hseen
        · apply hsize.trans hlength
        · apply hlength ▸ hroom

/-! ### A body of known length -/

variable {total : Nat}

/-- There is room for the response in `scratch`. -/
structure RoomInv (s : Settings) (total : Nat) (turns : List (Turn Delivery))
    (st : Filling (List UInt8)) : Prop where
  clocked : Clocked s turns
  filled_le : st.filled ≤ st.client.scratch.length
  total_le : total ≤ st.client.scratch.length
  length_le : st.client.scratch.length ≤ isizeMax

/-- What the loop for a body of known length ends with. -/
def BodyFine (total : Nat) : Except Stop Unit × Client (List UInt8) → Prop
  | (.ok (), client) => total ≤ client.scratch.length ∧ client.scratch.length ≤ isizeMax
  | (.error stop, _) => Tame stop

/-- One turn of the loop. -/
theorem bodyTurn_fine {st : Filling (List UInt8)} (hinv : RoomInv s total (t :: ts) st) :
  (bodyTurn feed s total t st).Holds (RoomInv s total ts) (BodyFine total)
  := by
  obtain ⟨hclocked, hfilled, htotal, hlength⟩ := hinv
  obtain ⟨⟨scratch, ring⟩, filled⟩ := st
  simp only at hfilled htotal hlength
  apply holds_pumpTurn
  · intro client
    trivial
  obtain ⟨popped, rest, -, hpop, hroom, -⟩ :=
    @rxPop_feed { scratch := scratch, port := ring ++ t.pump.bytes } _ hfilled
  simp only at hpop hroom
  have hnext : Clocked s ts := fun u hu => hclocked u (List.mem_cons_of_mem _ hu)
  have hsize := Buffer.length_overwrite hroom
  have hkeep : ∀ m ≤ scratch.length, RoomInv s total ts
      { client := { scratch := Buffer.overwrite scratch filled popped, port := rest }
        filled := m } := by
    intro m hm
    constructor
    · apply hnext
    · apply hsize.symm ▸ hm
    · apply hsize.symm ▸ htotal
    · apply hsize.symm ▸ hlength
  rw [hpop, check_ok]
  by_cases hnil : popped = []
  · subst hnil
    simp only [List.length_nil, Nat.lt_irrefl, if_false]
    apply holds_idleTurn (hclocked t (List.mem_cons_self ..))
    · trivial
    · apply hkeep filled hfilled
  · have hadd : usizeAdd s.overflowChecks filled popped.length = .ok (filled + popped.length) :=
      usizeAdd_eq (lt_of_le_of_lt (hroom.trans hlength) isizeMax_lt)
    simp only [List.length_pos_iff.mpr hnil, if_true, hadd, check_ok]
    by_cases hmore : filled + popped.length < total
    · simp only [hmore, if_true]
      apply hkeep _ hroom
    · simp only [hmore, if_false]
      use hsize.symm ▸ htotal
      apply hsize.symm ▸ hlength

variable {info : HeaderInfo} {client : Client (List UInt8)} {filled : Nat}

/-- The branch for a content length, when the sum does not overflow. -/
theorem readSizedBody_fine {cl : Nat} (hclocked : Clocked s ts)
    (hlength : client.scratch.length ≤ isizeMax) (hfilled : filled ≤ client.scratch.length)
    (hsum : info.headerLen + cl < 2 ^ 64) :
  (readSizedBody feed s info cl filled client ts).Holds (fun _ => True) fun r _ => Fine r
  := by
  rw [readSizedBody, usizeAdd_eq hsum, attempt_ok]
  have hloop : ∀ scratch : List UInt8, info.headerLen + cl ≤ scratch.length →
      filled ≤ scratch.length → scratch.length ≤ isizeMax →
      (if filled < info.headerLen + cl then
        (Turns.run (bodyTurn feed s (info.headerLen + cl)) ts
          { client := { client with scratch := scratch }, filled := filled }).andThen
          Filling.client fun (result, client) rest =>
            .done (result.map fun _ => (info.status, info.headerLen, cl), client) rest
      else
        .done (.ok (info.status, info.headerLen, cl), { client with scratch := scratch })
          ts : Reading Delivery (List UInt8)).Holds (fun _ => True) fun r _ => Fine r := by
    intro scratch htotal hfilled hlength
    by_cases hmore : filled < info.headerLen + cl
    · rw [if_pos hmore]
      have hrun : (Turns.run (bodyTurn feed s (info.headerLen + cl)) ts
          { client := { client with scratch := scratch }, filled := filled }).Holds
          (RoomInv s (info.headerLen + cl) []) fun r _ => BodyFine (info.headerLen + cl) r :=
        Turns.run_holds (fun _ _ _ => bodyTurn_fine)
          { clocked := hclocked
            filled_le := hfilled
            total_le := htotal
            length_le := hlength }
      apply hrun.andThen_done
      rintro ⟨_ | _, client⟩ rest hr
      · apply hr
      · apply hr
    · rw [if_neg hmore]
      exact ⟨htotal, hlength⟩
  by_cases hgrow : client.scratch.length < info.headerLen + cl
  · rw [if_pos hgrow, vecResize]
    by_cases hcapacity : info.headerLen + cl ≤ isizeMax
    · rw [if_pos hcapacity, attempt_ok]
      apply hloop
      · rw [Buffer.length_resize]
      · rw [Buffer.length_resize]
        omega
      · rw [Buffer.length_resize]
        apply hcapacity
    · rw [if_neg hcapacity]
      rfl
  · rw [if_neg hgrow, attempt_ok]
    apply hloop _ (Nat.not_lt.mp hgrow) hfilled hlength

/-- Without overflow checks a sum that overflows is taken for less than is filled already. -/
theorem readSizedBody_wraps {cl : Nat} (hchecks : s.overflowChecks = false)
    (hover : 2 ^ 64 ≤ info.headerLen + cl) (hcl : cl < 2 ^ 64) (hheader : info.headerLen ≤ filled)
    (hfilled : filled ≤ client.scratch.length) (hlength : client.scratch.length ≤ isizeMax) :
  readSizedBody feed s info cl filled client ts =
    .done (.ok (info.status, info.headerLen, cl), client) ts
  := by
  have hmax := isizeMax_lt
  have hmod : (info.headerLen + cl) % 2 ^ 64 = info.headerLen + cl - 2 ^ 64 := by
    rw [Nat.mod_eq_sub_mod hover, Nat.mod_eq_of_lt]
    omega
  have hadd : usizeAdd s.overflowChecks info.headerLen cl
      = .ok (info.headerLen + cl - 2 ^ 64) := by
    rw [usizeAdd, if_neg (Nat.not_lt.mpr hover), hchecks, hmod]
    rfl
  rw [readSizedBody, hadd, attempt_ok, if_neg (by omega), attempt_ok]
  simp only
  rw [if_neg (by omega)]

/-! ### A chunked body -/

variable {st : Chunking δ (List UInt8)}

/-- What is decoded lies in `scratch`. -/
structure DecodedInv (s : Settings) (start : Nat) (turns : List (Turn Delivery))
    (st : Chunking δ (List UInt8)) : Prop where
  clocked : Clocked s turns
  decoded_le : start + st.decodedTotal ≤ st.client.scratch.length
  length_le : st.client.scratch.length ≤ isizeMax

/-- One turn of the loop. -/
theorem chunkTurn_fine (hphr : phr.Bounded) (hinv : DecodedInv s info.headerLen (t :: ts) st) :
  (chunkTurn phr feed s info t st).Holds (DecodedInv s info.headerLen ts) Fine
  := by
  obtain ⟨hclocked, hdecoded, hlength⟩ := hinv
  obtain ⟨⟨scratch, ring⟩, decoder, decodedTotal⟩ := st
  simp only at hdecoded hlength
  have hnext : Clocked s ts := fun u hu => hclocked u (List.mem_cons_of_mem _ hu)
  have hadd : usizeAdd s.overflowChecks info.headerLen decodedTotal
      = .ok (info.headerLen + decodedTotal) :=
    usizeAdd_eq (lt_of_le_of_lt (hdecoded.trans hlength) isizeMax_lt)
  apply holds_pumpTurn
  · intro client
    trivial
  simp only [hadd, usizeSub_eq hdecoded, check_ok]
  -- Whether `scratch` is doubled or not, the turn goes on with a buffer that is as long at least.
  have hgrown : ∀ grown : List UInt8, scratch.length ≤ grown.length → grown.length ≤ isizeMax →
      (check { scratch := grown, port := ring ++ t.pump.bytes }
        (Client.rxPop feed { scratch := grown, port := ring ++ t.pump.bytes }
          (info.headerLen + decodedTotal)) fun (n, client) =>
        if 0 < n then
          let r := phr.decodeChunked decoder
            (Buffer.slice client.scratch (info.headerLen + decodedTotal) n)
          let client := { client with
            scratch := Buffer.overwrite client.scratch (info.headerLen + decodedTotal) r.buf }
          check client (usizeAdd s.overflowChecks decodedTotal r.bufsz) fun decodedTotal =>
          if 0 ≤ r.ret then
            .done (.ok (info.status, info.headerLen, decodedTotal), client)
          else if r.ret = -1 then
            .done (.error (.failed .responseMalformed), client)
          else
            .more { client := client, decoder := r.decoder, decodedTotal := decodedTotal }
        else
          idleTurn s t client
            { client := client, decoder := decoder, decodedTotal := decodedTotal }).Holds
        (DecodedInv s info.headerLen ts) Fine := by
    intro grown hle hgrown
    obtain ⟨popped, rest, -, hpop, hroom, -⟩ :=
      @rxPop_feed { scratch := grown, port := ring ++ t.pump.bytes } _ (hdecoded.trans hle)
    simp only at hpop hroom
    have hsize := Buffer.length_overwrite hroom
    rw [hpop, check_ok]
    by_cases hnil : popped = []
    · subst hnil
      simp only [List.length_nil, Nat.lt_irrefl, if_false]
      apply holds_idleTurn (hclocked t (List.mem_cons_self ..))
      · trivial
      · constructor
        · apply hnext
        · apply hsize.symm ▸ hdecoded.trans hle
        · apply hsize.symm ▸ hgrown
    · have hslice : Buffer.slice
          (Buffer.overwrite grown (info.headerLen + decodedTotal) popped)
          (info.headerLen + decodedTotal) popped.length = popped :=
        Buffer.slice_overwrite (hdecoded.trans hle)
      have hbufsz := hphr.bufsz_le decoder popped
      have hadd : usizeAdd s.overflowChecks decodedTotal (phr.decodeChunked decoder popped).bufsz
          = .ok (decodedTotal + (phr.decodeChunked decoder popped).bufsz) := by
        apply usizeAdd_eq
        have := isizeMax_lt
        omega
      have hlast : (Buffer.overwrite
          (Buffer.overwrite grown (info.headerLen + decodedTotal) popped)
          (info.headerLen + decodedTotal)
          (phr.decodeChunked decoder popped).buf).length = grown.length := by
        rw [Buffer.length_overwrite, hsize]
        rw [hsize, phr.length_decodeChunked]
        apply hroom
      have hfits : info.headerLen + (decodedTotal + (phr.decodeChunked decoder popped).bufsz)
          ≤ grown.length := by
        omega
      simp only [List.length_pos_iff.mpr hnil, if_true, hslice, hadd, check_ok]
      split
      · use hlast.symm ▸ hfits
        apply hlast.symm ▸ hgrown
      · split
        · trivial
        · constructor
          · apply hnext
          · apply hlast.symm ▸ hfits
          · apply hlast.symm ▸ hgrown
  by_cases hlittle : scratch.length - (info.headerLen + decodedTotal) < minHeadroom
  · have hmul : usizeMul s.overflowChecks scratch.length 2 = .ok (scratch.length * 2) := by
      apply usizeMul_eq
      have : 2 * isizeMax < 2 ^ 64 := by decide
      omega
    rw [if_pos hlittle, hmul, Except.bind, vecResize]
    by_cases hcapacity : scratch.length * 2 ≤ isizeMax
    · rw [if_pos hcapacity, check_ok]
      apply hgrown
      · rw [Buffer.length_resize]
        omega
      · rw [Buffer.length_resize]
        apply hcapacity
    · rw [if_neg hcapacity]
      rfl
  · rw [if_neg hlittle, check_ok]
    apply hgrown _ le_rfl hlength

/-- The loop on any turns. -/
theorem readChunks_fine (hphr : phr.Bounded) (hinv : DecodedInv s info.headerLen ts st) :
  (readChunks phr feed s info st ts).Holds (fun _ => True) fun r _ => Fine r
  := by
  have hloop : (Turns.run (chunkTurn phr feed s info) ts st).Holds
      (DecodedInv s info.headerLen []) fun r _ => Fine r :=
    Turns.run_holds (fun _ _ _ => chunkTurn_fine hphr) hinv
  apply hloop.andThen_done
  intro r rest hr
  apply hr

/-- The branch for the coding `chunked`. -/
theorem readChunkedBody_fine (hphr : phr.Bounded) (hclocked : Clocked s ts)
    (hlength : client.scratch.length ≤ isizeMax) (hfilled : filled ≤ client.scratch.length)
    (hheader : info.headerLen ≤ filled) :
  (readChunkedBody phr feed s filled info client ts).Holds (fun _ => True) fun r _ => Fine r
  := by
  rw [readChunkedBody, usizeSub_eq hheader, attempt_ok]
  by_cases hraw : 0 < filled - info.headerLen
  · have hslice : (Buffer.slice client.scratch info.headerLen (filled - info.headerLen)).length
        = filled - info.headerLen := by
      rw [Buffer.slice, List.length_take_of_le]
      rw [List.length_drop]
      omega
    have hbufsz := hphr.bufsz_le (phr.zeroed true)
      (Buffer.slice client.scratch info.headerLen (filled - info.headerLen))
    rw [hslice] at hbufsz
    have hlast : (Buffer.overwrite client.scratch info.headerLen
        (phr.decodeChunked (phr.zeroed true)
          (Buffer.slice client.scratch info.headerLen (filled - info.headerLen))).buf).length
        = client.scratch.length := by
      apply Buffer.length_overwrite
      rw [phr.length_decodeChunked, hslice]
      omega
    have hfits : info.headerLen + (phr.decodeChunked (phr.zeroed true)
        (Buffer.slice client.scratch info.headerLen (filled - info.headerLen))).bufsz
        ≤ client.scratch.length := by
      omega
    simp only [hraw, if_true]
    split
    · use hlast.symm ▸ hfits
      apply hlast.symm ▸ hlength
    · split
      · trivial
      · apply readChunks_fine hphr
        constructor
        · apply hclocked
        · apply hlast.symm ▸ hfits
        · apply hlast.symm ▸ hlength
  · simp only [hraw, if_false]
    apply readChunks_fine hphr
    constructor
    · apply hclocked
    · change info.headerLen + 0 ≤ client.scratch.length
      omega
    · apply hlength

/-! ### The function -/

variable {scratch : List UInt8}

/-- A call on a stream whose headers do not announce more than a word holds. -/
theorem readResponse_fine (hphr : phr.Bounded) (hscratch : scratch.length ≤ isizeMax)
    (hstream : Announces phr scratch.length (arrivals ts)) (hclocked : Clocked s ts) :
  (readResponse phr feed s { scratch := scratch, port := [] } ts).Holds (fun _ => True)
    fun r _ => Fine r
  := by
  have hloop : (Turns.run (headerTurn phr feed s) ts
      { client := { scratch := scratch, port := [] }, filled := 0 }).Holds
      (StreamInv s (arrivals ts) scratch.length [])
      fun r rest => HeaderFine s scratch.length rest r :=
    Turns.run_holds (fun _ _ _ => headerTurn_fine hphr hscratch hstream)
      { clocked := hclocked, stream_eq := rfl, length := rfl, filled_le := Nat.zero_le _ }
  rw [readResponse]
  apply hloop.andThen_done
  rintro ⟨stop | ⟨info, filled⟩, client⟩ rest hr
  · apply hr
  · obtain ⟨hclocked, hlength, hfilled, hheader, hsum⟩ := hr
    rw [← hlength] at hfilled hscratch
    change (readBody phr feed s info filled client rest).Holds (fun _ => True) fun r _ => Fine r
    rw [readBody]
    cases hcl : info.contentLength with
    | some cl => exact readSizedBody_fine hclocked hscratch hfilled (hsum cl hcl)
    | none =>
      simp only
      split
      · apply readChunkedBody_fine hphr hclocked hscratch hfilled hheader
      · rw [usizeSub_eq hheader, attempt_ok]
        constructor
        · omega
        · apply hscratch

/-- What a call on some turns returns is in range, as a slice of `scratch`, and its arithmetic does
not overflow: with overflow checks it does not panic for that. -/
structure InBounds (phr : Phr δ) (scratch : List UInt8) (timeoutNs : Int64) (start : UInt64)
    (turns : List (Turn Delivery)) : Prop where
  inRange : ∀ status off len client rest,
    readResponse phr feed { overflowChecks := false, timeoutNs := timeoutNs, start := start }
      { scratch := scratch, port := [] } turns = .done (.ok (status, off, len), client) rest →
    off + len < 2 ^ 64 ∧ off + len ≤ client.scratch.length
  noOverflow : ∀ client rest,
    readResponse phr feed { overflowChecks := true, timeoutNs := timeoutNs, start := start }
      { scratch := scratch, port := [] } turns ≠ .done (.error (.panicked .overflow), client) rest

/-- Every call on a stream is in bounds just when no header block at the front of the stream that
fits in `scratch` announces a content length whose sum with the length of the block overflows. -/
theorem inBounds_iff (hphr : phr.Bounded) (hscratch : scratch.length ≤ isizeMax)
    (stream : List UInt8) :
  (∀ timeoutNs start turns, arrivals turns = stream → (∀ t ∈ turns, start ≤ t.now) →
      InBounds phr scratch timeoutNs start turns)
    ↔ Announces phr scratch.length stream
  := by
  constructor
  · intro hbounds p info cl hp hne hle hparse hcl
    by_contra hover
    obtain ⟨q, rfl⟩ := hp
    have hclocked : ∀ t ∈ [bring p, bring q], (0 : UInt64) ≤ t.now := by
      simp [bring]
    apply (hbounds (-1) 0 [bring p, bring q] (by simp [bring]) hclocked).noOverflow
      { scratch := Buffer.overwrite scratch 0 p, port := [] } [bring q]
    have hfirst := readResponse_first (quiet_bring p) rfl hne hle hscratch hparse [bring q]
    apply hfirst.trans
    rw [readBody, hcl]
    simp only [readSizedBody, usizeAdd, hover, patiently]
    rfl
  · rintro hstream timeoutNs start turns rfl hclocked
    constructor
    · intro status off len client rest hread
      have hfine := @readResponse_fine _ phr
        { overflowChecks := false, timeoutNs := timeoutNs, start := start } _ _ hphr hscratch
        hstream hclocked
      rw [hread] at hfine
      obtain ⟨hle, hlength⟩ := hfine
      have := isizeMax_lt
      use by omega
    · intro client rest hread
      have hfine := @readResponse_fine _ phr
        { overflowChecks := true, timeoutNs := timeoutNs, start := start } _ _ hphr hscratch
        hstream hclocked
      rw [hread] at hfine
      cases hfine

/-- The headers of a response with the content length `usize::MAX`. -/
def wrappingHeaders : List PhrHeader := [header "Content-Length" "18446744073709551615"]

/-- The header block of that response, with a parser for it. -/
def wrappingBlock : HeaderBlock (Phr.ofBlock
    (ascii "HTTP/1.1 200 OK\r\nContent-Length: 18446744073709551615\r\n\r\n") 200
    wrappingHeaders) :=
  HeaderBlock.ofBlock ascii_ne_nil

theorem length_wrappingBlock :
  wrappingBlock.bytes.length = 57
  := length_ascii _

theorem inBounds_iff_wrapping :
  (∀ timeoutNs start turns, arrivals turns = wrappingBlock.bytes →
      (∀ t ∈ turns, start ≤ t.now) →
      InBounds (Phr.ofBlock wrappingBlock.bytes 200 wrappingHeaders) newScratch timeoutNs start
        turns)
    ↔ Announces (Phr.ofBlock wrappingBlock.bytes 200 wrappingHeaders) newScratch.length
      wrappingBlock.bytes
  := inBounds_iff Phr.bounded_ofBlock length_newScratch_le wrappingBlock.bytes

theorem contentLength_wrappingBlock :
  wrappingBlock.info.contentLength = some (2 ^ 64 - 1)
  := by
  have hvalues : valuesOf wrappingBlock.headers contentLengthName
      = [ascii "18446744073709551615"] := by decide
  apply contentLength_of_digits hvalues (by decide) (by decide) (by decide)

theorem length_wrappingBlock_le :
  wrappingBlock.bytes.length ≤ newScratch.length
  := by
  rw [length_newScratch, length_wrappingBlock]
  decide

/-- On that block a call without overflow checks returns a length that overflows with the offset,
and a call with overflow checks panics. -/
theorem not_inBounds_wrapping :
  (∃ client,
      readResponse (Phr.ofBlock wrappingBlock.bytes 200 wrappingHeaders) feed
        { overflowChecks := false, timeoutNs := -1, start := 0 }
        { scratch := newScratch, port := [] } [bring wrappingBlock.bytes]
      = .done (.ok (200, wrappingBlock.bytes.length, 2 ^ 64 - 1), client) [])
    ∧ (∃ client,
      readResponse (Phr.ofBlock wrappingBlock.bytes 200 wrappingHeaders) feed
        { overflowChecks := true, timeoutNs := -1, start := 0 }
        { scratch := newScratch, port := [] } [bring wrappingBlock.bytes]
      = .done (.error (.panicked .overflow), client) [])
    ∧ ¬InBounds (Phr.ofBlock wrappingBlock.bytes 200 wrappingHeaders) newScratch (-1) 0
        [bring wrappingBlock.bytes]
  := by
  have hlen : wrappingBlock.info.headerLen = 57 := length_wrappingBlock
  have hover : 2 ^ 64 ≤ wrappingBlock.info.headerLen + (2 ^ 64 - 1) := by
    rw [hlen]
    decide
  have hsize : (Buffer.overwrite newScratch 0 wrappingBlock.bytes).length = newScratch.length := by
    apply Buffer.length_overwrite
    rw [Nat.zero_add]
    apply length_wrappingBlock_le
  have hread : ∀ checks, readResponse (Phr.ofBlock wrappingBlock.bytes 200 wrappingHeaders) feed
      { overflowChecks := checks, timeoutNs := -1, start := 0 }
      { scratch := newScratch, port := [] } [bring wrappingBlock.bytes]
      = readSizedBody feed { overflowChecks := checks, timeoutNs := -1, start := 0 }
        wrappingBlock.info (2 ^ 64 - 1) wrappingBlock.bytes.length
        { scratch := Buffer.overwrite newScratch 0 wrappingBlock.bytes, port := [] } [] := by
    intro checks
    have hquiet : Quiet { overflowChecks := checks, timeoutNs := -1, start := 0 }
        (bring wrappingBlock.bytes) := { closed := rfl, error := rfl, time := rfl }
    have hfirst := readResponse_first hquiet rfl wrappingBlock.nonempty length_wrappingBlock_le
      length_newScratch_le (tryParseHeaders_whole (by decide)) []
    rw [readBody, contentLength_wrappingBlock] at hfirst
    apply hfirst
  have hwraps : ∃ client,
      readResponse (Phr.ofBlock wrappingBlock.bytes 200 wrappingHeaders) feed
        { overflowChecks := false, timeoutNs := -1, start := 0 }
        { scratch := newScratch, port := [] } [bring wrappingBlock.bytes]
      = .done (.ok (200, wrappingBlock.bytes.length, 2 ^ 64 - 1), client) [] := by
    use { scratch := Buffer.overwrite newScratch 0 wrappingBlock.bytes, port := [] }
    rw [hread false]
    apply readSizedBody_wraps rfl hover (by decide) le_rfl (hsize.symm ▸ length_wrappingBlock_le)
      (hsize.symm ▸ length_newScratch_le)
  use hwraps
  constructor
  · use { scratch := Buffer.overwrite newScratch 0 wrappingBlock.bytes, port := [] }
    rw [hread true, readSizedBody, usizeAdd, if_neg (Nat.not_lt.mpr hover)]
    rfl
  · intro hbounds
    obtain ⟨client, hok⟩ := hwraps
    have hlt := (hbounds.inRange _ _ _ _ _ hok).1
    exact absurd hlt (Nat.not_lt.mpr hover)

end FdRpc.Http

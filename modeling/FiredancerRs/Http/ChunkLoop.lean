import FiredancerRs.Http.HeaderLoop

/-!
# A chunked body

How `read_chunked_body` reads a body with the coding `chunked` from quiet turns: each piece is
decoded in place behind what is decoded already, and `scratch` is doubled when little room is left,
until the body is there (`readChunkedBody_holds`).
-/

namespace FdRpc.Http

variable {δ : Type} {phr : Phr δ} {s : Settings} {patient : Prop} {stream : List UInt8}
variable {t : Turn Delivery} {ts : List (Turn Delivery)} {raw body : List UInt8}

/-! ### Decoding a piece -/

/-- What is decoded of a body lies in `scratch` from a position on. -/
structure Decoded (c : ChunkedBody phr raw body) (seen : List UInt8) (start : Nat)
    (scratch : List UInt8) : Prop where
  fits : start + (c.out seen).length ≤ scratch.length
  lies : (scratch.take (start + (c.out seen).length)).drop start = c.out seen

variable {c : ChunkedBody phr raw body} {seen piece scratch : List UInt8} {start : Nat}

/-- Decoding a piece behind what is decoded of the bytes before it. -/
theorem Decoded.decode (h : Decoded c seen start scratch) (hpiece : piece ≠ [])
    (hraw : seen ++ piece <+: raw)
    (hroom : start + (c.out seen).length + piece.length ≤ scratch.length) :
  (c.out seen).length + (phr.decodeChunked (c.state seen) piece).bufsz
      = (c.out (seen ++ piece)).length
    ∧ Decoded c (seen ++ piece) start
        (Buffer.overwrite scratch (start + (c.out seen).length)
          (phr.decodeChunked (c.state seen) piece).buf)
  := by
  have hbufsz := c.bufsz_le seen piece hpiece hraw
  have hout := c.out_append seen piece hpiece hraw
  have hbuf := phr.length_decodeChunked (c.state seen) piece
  have hlength : (c.out (seen ++ piece)).length
      = (c.out seen).length + (phr.decodeChunked (c.state seen) piece).bufsz := by
    rw [hout, List.length_append, List.length_take_of_le (hbuf.symm ▸ hbufsz)]
  use hlength.symm
  constructor
  · rw [Buffer.length_overwrite (by rw [hbuf]; exact hroom)]
    omega
  · rw [hlength, ← Nat.add_assoc, Buffer.take_overwrite_add h.fits (by omega),
      List.drop_append_of_le_length, h.lies, hout]
    rw [List.length_take_of_le h.fits]
    apply Nat.le_add_right

/-- A change behind what is decoded. -/
theorem Decoded.of_take {scratch' : List UInt8} (h : Decoded c seen start scratch)
    (htake : scratch'.take (start + (c.out seen).length)
      = scratch.take (start + (c.out seen).length)) :
  Decoded c seen start scratch'
  := by
  constructor
  · have hlength := congrArg List.length htake
    rw [List.length_take, List.length_take_of_le h.fits] at hlength
    omega
  · rw [htake]
    apply h.lies

/-- With all of the body decoded the body is selected. -/
theorem Decoded.selects {status : UInt16} {client : Client (List UInt8)}
    (h : Decoded c raw start client.scratch) :
  Selects status start body (.ok (status, start, (c.out raw).length), client)
  := by
  rw [c.out_raw]
  constructor
  · rfl
  · have hfits := h.fits
    rw [c.out_raw] at hfits
    apply hfits
  · have hlies := h.lies
    rw [c.out_raw] at hlies
    rw [Buffer.slice_eq]
    apply hlies

/-! ### The loop -/

variable {info : HeaderInfo} {st : Chunking δ (List UInt8)}

/-- A part of the body is decoded, and the decoder stands behind it. -/
structure ChunkInv (c : ChunkedBody phr raw body) (s : Settings) (patient : Prop)
    (stream : List UInt8) (start : Nat) (seen : List UInt8) (turns : List (Turn Delivery))
    (st : Chunking δ (List UInt8)) : Prop where
  feeding : Feeding s patient stream seen turns st.client.port
  decoder : st.decoder = c.state seen
  total : st.decodedTotal = (c.out seen).length
  decoded : Decoded c seen start st.client.scratch
  unfinished : seen ≠ raw
  nonempty : 0 < st.client.scratch.length
  length_le : st.client.scratch.length ≤ isizeMax

/-- Doubling `scratch` when little room is left makes some room, and keeps what is there. -/
theorem grow_ok {checks : Bool} {writeAt : Nat} (hle : writeAt ≤ scratch.length)
    (hpos : 0 < scratch.length) (hscratch : scratch.length ≤ isizeMax)
    (hsize : 2 * (writeAt + minHeadroom) ≤ isizeMax) :
  ∃ scratch',
    (if scratch.length - writeAt < minHeadroom then
      (usizeMul checks scratch.length 2).bind (vecResize scratch)
    else .ok scratch) = .ok scratch'
    ∧ writeAt < scratch'.length ∧ scratch'.length ≤ isizeMax
    ∧ scratch'.take writeAt = scratch.take writeAt
  := by
  by_cases hlt : scratch.length - writeAt < minHeadroom
  · have hdouble : scratch.length * 2 ≤ isizeMax := by omega
    use Buffer.resize scratch (scratch.length * 2) 0
    rw [if_pos hlt, usizeMul_eq (lt_of_le_of_lt hdouble isizeMax_lt), Except.bind,
      vecResize_eq hdouble, Buffer.length_resize]
    use rfl, by omega, hdouble
    apply Buffer.take_resize hle
    omega
  · use scratch
    have hroom : minHeadroom ≤ scratch.length - writeAt := Nat.not_lt.mp hlt
    have hheadroom : 0 < minHeadroom := by decide
    rw [if_neg hlt]
    use rfl, by omega, hscratch

/-- One turn of the loop. -/
theorem chunkTurn_holds (hstream : stream <+: raw)
    (hsize : 2 * (info.headerLen + body.length + minHeadroom) ≤ isizeMax)
    (hinv : ChunkInv c s patient stream info.headerLen seen (t :: ts) st) :
  (chunkTurn phr feed s info t st).Holds
    (fun st => ∃ seen, ChunkInv c s patient stream info.headerLen seen ts st)
    (Selects info.status info.headerLen body)
  := by
  obtain ⟨hfeeding, hdecoder, htotal, hdecoded, hunfinished, hpos, hlength⟩ := hinv
  obtain ⟨⟨scratch, ring⟩, decoder, decodedTotal⟩ := st
  simp only at hfeeding hdecoder htotal hdecoded hpos hlength
  subst hdecoder htotal
  have hquiet := hfeeding.quiet t (List.mem_cons_self ..)
  have hfits := hdecoded.fits
  have hout := (c.out_initial (hfeeding.seen_isPrefix.trans hstream)).length_le
  have hgrowth : 2 * (info.headerLen + (c.out seen).length + minHeadroom) ≤ isizeMax := by
    apply le_trans _ hsize
    apply Nat.mul_le_mul_left
    apply Nat.add_le_add_right
    apply Nat.add_le_add_left hout
  obtain ⟨grown, hgrow, hroom, hgrown, htake⟩ :=
    @grow_ok scratch s.overflowChecks _ hfits hpos hlength hgrowth
  obtain ⟨popped, rest, hring, hpop, hle, hfull⟩ :=
    @rxPop_feed { scratch := grown, port := ring ++ t.pump.bytes } _ hroom.le
  simp only at hring hpop hle hfull
  have hnil : popped = [] → rest = [] := by
    rintro rfl
    by_contra hrest
    have := hfull hrest
    simp only [List.length_nil] at this
    omega
  have hnext := hfeeding.pop hring hnil
  have hsize' := Buffer.length_overwrite hle
  have hdecoded' : Decoded c seen info.headerLen
      (Buffer.overwrite grown (info.headerLen + (c.out seen).length) popped) := by
    apply hdecoded.of_take
    rw [Buffer.take_overwrite_of_le hroom.le le_rfl, htake]
  have hadd : usizeAdd s.overflowChecks info.headerLen (c.out seen).length
      = .ok (info.headerLen + (c.out seen).length) :=
    usizeAdd_eq (lt_of_le_of_lt (hfits.trans hlength) isizeMax_lt)
  rw [chunkTurn, pumpTurn_quiet hquiet]
  simp only [hadd, usizeSub_eq hfits, hgrow, check_ok, hpop]
  by_cases hempty : popped = []
  · subst hempty
    simp only [List.length_nil, Nat.lt_irrefl, if_false, idleTurn_quiet hquiet,
      Turns.Step.holds_more]
    use seen
    rw [List.append_nil] at hnext
    constructor
    · apply hnext
    · rfl
    · rfl
    · apply hdecoded'
    · apply hunfinished
    · apply hsize'.symm ▸ (Nat.zero_le _).trans_lt hroom
    · apply hsize'.symm ▸ hgrown
  · have hraw := hnext.seen_isPrefix.trans hstream
    obtain ⟨hbufsz, hdone⟩ := hdecoded'.decode hempty hraw (hsize'.symm ▸ hle)
    have hout' := (c.out_initial hraw).length_le
    have hadd' : usizeAdd s.overflowChecks (c.out seen).length
        (phr.decodeChunked (c.state seen) popped).bufsz
        = .ok (c.out (seen ++ popped)).length := by
      rw [← hbufsz]
      apply usizeAdd_eq
      have := isizeMax_lt
      omega
    simp only [List.length_pos_iff.mpr hempty, if_true, Buffer.slice_overwrite hroom.le, hadd',
      check_ok]
    by_cases hwhole : seen ++ popped = raw
    · rw [if_pos (c.finished seen popped hempty hwhole), Turns.Step.holds_done]
      rw [hwhole] at hdone ⊢
      apply hdone.selects
    · obtain ⟨hret, hstate⟩ := c.unfinished seen popped hempty hraw hwhole
      simp only [hret, hstate]
      rw [if_neg (by decide), if_neg (by decide), Turns.Step.holds_more]
      use seen ++ popped
      have hlast : (Buffer.overwrite
          (Buffer.overwrite grown (info.headerLen + (c.out seen).length) popped)
          (info.headerLen + (c.out seen).length)
          (phr.decodeChunked (c.state seen) popped).buf).length = grown.length := by
        rw [Buffer.length_overwrite, hsize']
        rw [hsize', phr.length_decodeChunked]
        apply hle
      constructor
      · apply hnext
      · rfl
      · rfl
      · apply hdone
      · apply hwhole
      · apply hlast.symm ▸ (Nat.zero_le _).trans_lt hroom
      · apply hlast.symm ▸ hgrown

/-- The loop ends with the body selected, unless the turns are over before. -/
theorem readChunks_holds (hstream : stream <+: raw)
    (hsize : 2 * (info.headerLen + body.length + minHeadroom) ≤ isizeMax)
    (hinv : ChunkInv c s patient stream info.headerLen seen ts st) :
  (readChunks phr feed s info st ts).Holds (Waits patient stream raw)
    fun r _ => Selects info.status info.headerLen body r
  := by
  have hloop := Turns.run_holds (d := fun r _ => Selects info.status info.headerLen body r)
    (fun t ts st (h : ∃ seen, ChunkInv c s patient stream info.headerLen seen (t :: ts) st) =>
      have ⟨_, hseen⟩ := h
      chunkTurn_holds hstream hsize hseen)
    ⟨seen, hinv⟩
  apply hloop.andThen
  · rintro st ⟨seen, hst⟩
    apply hst.feeding.waits
    rintro rfl
    apply hst.unfinished
  · intro r rest hr
    apply hr

/-! ### The branch -/

variable {block : HeaderBlock phr} {client : Client (List UInt8)} {filled n : Nat}

/-- The branch for the coding `chunked` selects the body. -/
theorem readChunkedBody_holds (c : ChunkedBody phr raw body)
    (hdone : HeaderDone block s patient stream n ts filled client) (hn : n ≤ isizeMax)
    (hstream : stream <+: block.bytes ++ raw)
    (hsize : 2 * (block.info.headerLen + body.length + minHeadroom) ≤ isizeMax) :
  (readChunkedBody phr feed s filled block.info client ts).Holds
    (Waits patient stream (block.bytes ++ raw))
    fun r _ => Selects block.info.status block.info.headerLen body r
  := by
  obtain ⟨hfeeding, hlength, hle, hfilled⟩ := hdone
  rw [← hlength] at hfilled hn
  -- What is in `scratch` is the header block and a part of the body.
  obtain ⟨piece, hpiece⟩ : block.bytes <+: client.scratch.take filled := by
    apply List.prefix_of_prefix_length_le (List.prefix_append block.bytes raw)
      (hfeeding.seen_isPrefix.trans hstream)
    rw [List.length_take_of_le hfilled]
    apply hle
  have hlengths := congrArg List.length hpiece
  rw [List.length_append, List.length_take_of_le hfilled] at hlengths
  obtain ⟨rest, rfl⟩ : block.bytes <+: stream := by
    apply (List.prefix_append block.bytes piece).trans
    rw [hpiece]
    apply hfeeding.seen_isPrefix
  rw [← hpiece] at hfeeding
  have hbody := hfeeding.drop
  have hraw : rest <+: raw := by
    obtain ⟨more, hmore⟩ := hstream
    use more
    rw [List.append_assoc] at hmore
    apply List.append_cancel_left hmore
  have hstart : Decoded c [] block.bytes.length client.scratch := by
    constructor <;> rw [c.out_nil]
    · apply hle.trans hfilled
    · simp
  have hpos : 0 < client.scratch.length := by
    have := List.length_pos_iff.mpr block.nonempty
    omega
  have hslice : Buffer.slice client.scratch block.bytes.length piece.length = piece := by
    rw [Buffer.slice_eq, hlengths, ← hpiece, List.drop_left]
  have hsub : usizeSub s.overflowChecks filled block.info.headerLen = .ok piece.length := by
    rw [block.info_headerLen, usizeSub_eq hle, ← hlengths, Nat.add_sub_cancel_left]
  rw [readChunkedBody, hsub, attempt_ok]
  apply Turns.Ended.Holds.mono (w := Waits patient rest raw) _ (fun _ h => h.append)
    (fun _ _ h => h)
  by_cases hempty : piece = []
  · subst hempty
    simp only [List.length_nil, Nat.lt_irrefl, if_false]
    apply readChunks_holds (c := c) hraw hsize
    exact
      { feeding := hbody
        decoder := c.state_nil.symm
        total := by rw [c.out_nil]; rfl
        decoded := hstart
        unfinished := c.nonempty.symm
        nonempty := hpos
        length_le := hn }
  · have hpart := hbody.seen_isPrefix.trans hraw
    obtain ⟨hbufsz, hdecoded⟩ := hstart.decode hempty hpart (by rw [c.out_nil]; simp; omega)
    simp only [c.out_nil, c.state_nil, List.nil_append, List.length_nil, Nat.zero_add,
      Nat.add_zero] at hbufsz hdecoded
    have hlast : (Buffer.overwrite client.scratch block.bytes.length
        (phr.decodeChunked (phr.zeroed true) piece).buf).length = client.scratch.length := by
      apply Buffer.length_overwrite
      rw [phr.length_decodeChunked, hlengths]
      apply hfilled
    rw [if_pos (List.length_pos_iff.mpr hempty), block.info_headerLen, hslice]
    simp only [hbufsz]
    by_cases hwhole : piece = raw
    · have hret := c.finished [] piece hempty hwhole
      rw [c.state_nil] at hret
      rw [if_pos hret]
      rw [hwhole] at hdecoded ⊢
      apply hdecoded.selects
    · obtain ⟨hret, hstate⟩ := c.unfinished [] piece hempty hpart hwhole
      rw [c.state_nil] at hret hstate
      simp only [hret, hstate]
      rw [if_neg (by decide), if_neg (by decide)]
      apply readChunks_holds (c := c) hraw hsize
      exact
        { feeding := hbody
          decoder := rfl
          total := rfl
          decoded := hdecoded
          unfinished := hwhole
          nonempty := hlast.symm ▸ hpos
          length_le := hlast.symm ▸ hn }

end FdRpc.Http

import FiredancerRs.Http.Message

/-!
# The body of a message

What `read_response` returns on any port and any turns. When what it has taken is a part of one
message, it has taken the whole message and selects its body (`readResponse_takes`).
-/

namespace FdRpc.Http

variable {δ ε σ : Type} {phr : Phr δ} {P : Port ε σ} {received : σ → List UInt8}
variable {s : Settings} {t : Turn ε} {turns : List (Turn ε)} {start : σ} {m : Message phr}

/-! ### A body of known length -/

/-- What a call returns: if a part of the message was taken, it is all of the message, and its body
is selected. -/
def ReplyOf (m : Message phr) (reply : Reply) (taken scratch : List UInt8) : Prop :=
  taken <+: m.bytes → taken = m.bytes
    ∧ Selects m.block.info.status m.block.info.headerLen m.body
      (.ok reply, { scratch := scratch, port := [] })

/-- What has been taken is in `scratch`, and begins with what was taken before. -/
structure BodyTaken (P : Port ε σ) (received : σ → List UInt8) (start : σ) (first : List UInt8)
    (filled : Nat) (client : Client σ) : Prop where
  length_le : client.scratch.length ≤ isizeMax
  filled_le : filled ≤ client.scratch.length
  taken : Taken P received start (client.scratch.take filled) client.port
  first : first <+: client.scratch.take filled

/-- What the loop for a body of known length ends with. -/
def BodyOf (first : List UInt8) (total : Nat) (taken scratch : List UInt8) : Prop :=
  first <+: taken ∧ ∃ filled ≤ scratch.length, scratch.take filled = taken ∧ total ≤ filled

variable {first : List UInt8} {total : Nat}

/-- One turn of the loop. -/
theorem bodyTurn_takes (hP : P.Receives received) {st : Filling σ}
    (h : BodyTaken P received start first st.filled st.client) :
  (bodyTurn P s total t st).Holds
    (fun st => BodyTaken P received start first st.filled st.client)
    (Yields P received start fun _ => BodyOf first total)
  := by
  obtain ⟨⟨scratch, port⟩, filled⟩ := st
  obtain ⟨hlength, hfilled, htaken, hfirst⟩ := h
  simp only at hlength hfilled htaken hfirst
  apply yields_pumpTurn hP hlength htaken
  intro port htaken
  apply yields_rxPop hP hlength htaken
  intro popped port htaken hroom
  have hsize := Buffer.length_overwrite hroom
  have hscratch := hsize.trans_le hlength
  have htake := @Buffer.take_overwrite _ scratch popped _ hfilled
  rw [← htake] at htaken
  have hfirst := hfirst.trans (htake ▸ List.prefix_append _ _)
  simp only at hroom hsize hscratch htake htaken hfirst ⊢
  by_cases hpos : 0 < popped.length
  · have hadd : usizeAdd s.overflowChecks filled popped.length = .ok (filled + popped.length) :=
      usizeAdd_eq (lt_of_le_of_lt (hroom.trans hlength) isizeMax_lt)
    simp only [hpos, if_true, hadd, check_ok]
    split
    · exact { length_le := hscratch, filled_le := hsize.symm ▸ hroom, taken := htaken, first := hfirst }
    case isFalse hthere =>
      apply yields_ok hscratch htaken
      exact ⟨hfirst, filled + popped.length, hsize.symm ▸ hroom, rfl, Nat.not_lt.mp hthere⟩
  · obtain rfl : popped = [] := List.length_eq_zero_iff.mp (Nat.eq_zero_of_not_pos hpos)
    simp only [hpos, if_false]
    apply yields_idleTurn hscratch
    exact { length_le := hscratch, filled_le := hsize.symm ▸ hfilled, taken := htaken, first := hfirst }

/-- A message with a content length that has been taken as far as that. -/
theorem replyOf_sized {info : HeaderInfo} {cl filled : Nat} {checks : Bool} {scratch : List UInt8}
    (hinfo : first <+: m.bytes → info = m.block.info) (hcl : info.contentLength = some cl)
    (htotal : usizeAdd checks info.headerLen cl = .ok total)
    (hfirst : first <+: scratch.take filled) (hfilled : filled ≤ scratch.length)
    (hle : total ≤ filled) :
  ReplyOf m (info.status, info.headerLen, cl) (scratch.take filled) scratch
  := by
  intro hpart
  obtain rfl := hinfo (hfirst.trans hpart)
  obtain ⟨block, raw, body, hframing, hlt⟩ := m
  cases hframing with
  | chunked present chunked unsized coding =>
    have hnone : block.info.contentLength = none := contentLength_of_unsized unsized
    rw [hnone] at hcl
    cases hcl
  | contentLength present valid unchunked =>
    have hsome : block.info.contentLength = some raw.length :=
      contentLength_of_valid present valid
    obtain rfl : raw.length = cl := Option.some.inj (hsome.symm.trans hcl)
    rw [block.info_headerLen, usizeAdd_eq hlt] at htotal
    obtain rfl : block.bytes.length + raw.length = total := Except.ok.inj htotal
    have hall : scratch.take filled = block.bytes ++ raw := by
      apply hpart.eq_of_length_le
      rw [List.length_take_of_le hfilled, Message.bytes, List.length_append]
      apply hle
    use hall
    apply selects_of_take hfilled hall

/-- The branch for a header `Content-Length`. -/
theorem readSizedBody_takes (hP : P.Receives received) {info : HeaderInfo} {cl filled : Nat}
    {client : Client σ} (h : BodyTaken P received start first filled client)
    (hinfo : first <+: m.bytes → info = m.block.info) (hcl : info.contentLength = some cl) :
  (readSizedBody P s info cl filled client turns).Holds (fun _ => True)
    fun r _ => Yields P received start (ReplyOf m) r
  := by
  obtain ⟨hlength, hfilled, htaken, hfirst⟩ := h
  rw [readSizedBody]
  cases htotal : usizeAdd s.overflowChecks info.headerLen cl with
  | error stop => exact yields_panic hlength (onlyPanics_usizeAdd _ _ _) htotal
  | ok total =>
    have hreply := fun scratch filled => @replyOf_sized _ phr m first total info cl filled
      s.overflowChecks scratch hinfo hcl htotal
    -- enlarging `scratch` keeps what has been taken
    have hloop : ∀ scratch : List UInt8, BodyTaken P received start first filled
        ({ client with scratch := scratch } : Client σ) →
        (if filled < total then
          (Turns.run (bodyTurn P s total) turns
            { client := { client with scratch := scratch }, filled := filled }).andThen
            Filling.client fun r rest =>
              .done (r.1.map fun _ => (info.status, info.headerLen, cl), r.2) rest
        else
          .done (.ok (info.status, info.headerLen, cl), { client with scratch := scratch })
            turns : Reading ε σ).Holds (fun _ => True)
          fun r _ => Yields P received start (ReplyOf m) r := by
      intro scratch h
      by_cases hmore : filled < total
      · rw [if_pos hmore]
        have hrun : (Turns.run (bodyTurn P s total) turns
            { client := { client with scratch := scratch }, filled := filled }).Holds
            (fun st => BodyTaken P received start first st.filled st.client)
            fun r _ => Yields P received start (fun _ => BodyOf first total) r :=
          Turns.run_keeps (fun _ _ => bodyTurn_takes hP) h
        apply hrun.andThen_done
        rintro ⟨stop | ⟨⟩, client⟩ rest ⟨hlength, hok, hstop⟩
        · apply yields_error hlength (hstop stop rfl)
        · obtain ⟨_, htaken, hfirst, filled, hfilled, rfl, hle⟩ := hok () rfl
          apply yields_ok hlength htaken (hreply _ filled hfirst hfilled hle)
      · rw [if_neg hmore]
        apply yields_ok h.length_le h.taken
          (hreply _ filled h.first h.filled_le (Nat.not_lt.mp hmore))
    rw [attempt_ok]
    by_cases hgrow : client.scratch.length < total
    · rw [if_pos hgrow, vecResize]
      by_cases hcapacity : total ≤ isizeMax
      · rw [if_pos hcapacity, attempt_ok]
        apply hloop
        have htake : (Buffer.resize client.scratch total 0).take filled
            = client.scratch.take filled := Buffer.take_resize hfilled hgrow.le
        constructor
        · rw [Buffer.length_resize]
          apply hcapacity
        · rw [Buffer.length_resize]
          apply hfilled.trans hgrow.le
        · rw [htake]
          apply htaken
        · rw [htake]
          apply hfirst
      · rw [if_neg hcapacity]
        apply yields_error hlength (by simp)
    · rw [if_neg hgrow, attempt_ok]
      apply hloop _ { length_le := hlength, filled_le := hfilled, taken := htaken, first := hfirst }

/-! ### A chunked body -/

/-- The header block of a message has been taken and a part of its chunked body, which is decoded
behind the place of the block. -/
def Chunked (m : Message phr) (taken : List UInt8) (decoder : δ) (decodedTotal : Nat)
    (scratch : List UInt8) : Prop :=
  ∃ (c : ChunkedBody phr m.raw m.body) (seen : List UInt8), taken = m.block.bytes ++ seen
    ∧ decoder = c.state seen ∧ decodedTotal = (c.out seen).length
    ∧ Decoded c seen m.block.bytes.length scratch

/-- What decoding a piece leads to: the message is there and its body is selected, or there is more
to come. -/
def AfterPiece (m : Message phr) (taken : List UInt8) (r : PhrDecoded δ) (decodedTotal : Nat)
    (scratch : List UInt8) : Prop :=
  0 ≤ r.ret ∧ taken = m.bytes
      ∧ Selects m.block.info.status m.block.info.headerLen m.body
        (.ok (m.block.info.status, m.block.info.headerLen, decodedTotal),
          { scratch := scratch, port := [] })
    ∨ r.ret = -2 ∧ Chunked m taken r.decoder decodedTotal scratch

/-- Decoding one more piece. -/
theorem Chunked.decode {taken piece scratch : List UInt8} {decoder : δ} {decodedTotal : Nat}
    (h : Chunked m taken decoder decodedTotal scratch) (hpiece : piece ≠ [])
    (hpart : taken ++ piece <+: m.bytes)
    (hroom : m.block.bytes.length + decodedTotal + piece.length ≤ scratch.length)
    (hscratch : scratch.length ≤ isizeMax) :
  let r := phr.decodeChunked decoder piece
  decodedTotal + r.bufsz < 2 ^ 64
    ∧ AfterPiece m (taken ++ piece) r (decodedTotal + r.bufsz)
      (Buffer.overwrite scratch (m.block.bytes.length + decodedTotal) r.buf)
  := by
  obtain ⟨c, seen, rfl, rfl, rfl, hdecoded⟩ := h
  have hraw : seen ++ piece <+: m.raw := by
    rw [List.append_assoc, Message.bytes, List.prefix_append_right_inj] at hpart
    apply hpart
  obtain ⟨hbufsz, hnext⟩ := hdecoded.decode hpiece hraw hroom
  have hfits := hnext.fits
  rw [Buffer.length_overwrite (by rw [phr.length_decodeChunked]; exact hroom)] at hfits
  simp only [hbufsz]
  constructor
  · have := isizeMax_lt
    omega
  · by_cases hwhole : seen ++ piece = m.raw
    · left
      use c.finished seen piece hpiece hwhole
      constructor
      · rw [List.append_assoc, hwhole]
        rfl
      · rw [hwhole] at hnext ⊢
        apply hnext.selects
    · right
      obtain ⟨hret, hstate⟩ := c.unfinished seen piece hpiece hraw hwhole
      use hret
      exact ⟨c, seen ++ piece, List.append_assoc _ _ _, hstate, rfl, hnext⟩

/-- What has been taken is decoded, if it is a part of the message. -/
structure ChunksTaken (P : Port ε σ) (received : σ → List UInt8) (start : σ) (m : Message phr)
    (info : HeaderInfo) (taken : List UInt8) (st : Chunking δ σ) : Prop where
  length_le : st.client.scratch.length ≤ isizeMax
  ring : Taken P received start taken st.client.port
  decoded : taken <+: m.bytes → info = m.block.info
    ∧ Chunked m taken st.decoder st.decodedTotal st.client.scratch

variable {info : HeaderInfo}

/-- Doubling `scratch` keeps what it holds, and it stays no longer than a vector. -/
theorem grown_of_ok {checks : Bool} {headroom : Nat} {scratch grown : List UInt8}
    (h : scratch.length ≤ isizeMax)
    (hgrown : (if headroom < minHeadroom then
        (usizeMul checks scratch.length 2).bind (vecResize scratch)
      else .ok scratch) = .ok grown) :
  grown.length ≤ isizeMax ∧ ∀ n ≤ scratch.length, grown.take n = scratch.take n
  := by
  split at hgrown
  · have hdouble : scratch.length * 2 < 2 ^ 64 := by
      have : 2 * isizeMax < 2 ^ 64 := by decide
      omega
    rw [usizeMul_eq hdouble, Except.bind, vecResize] at hgrown
    split at hgrown
    case isFalse => cases hgrown
    case isTrue hcapacity =>
      obtain rfl := Except.ok.inj hgrown
      rw [Buffer.length_resize]
      use hcapacity
      intro n hn
      apply Buffer.take_resize hn
      omega
  · obtain rfl := Except.ok.inj hgrown
    exact ⟨h, fun _ _ => rfl⟩

/-- One turn of the loop. -/
theorem chunkTurn_takes (hP : P.Receives received) {st : Chunking δ σ}
    (h : ∃ taken, ChunksTaken P received start m info taken st) :
  (chunkTurn phr P s info t st).Holds
    (fun st => ∃ taken, ChunksTaken P received start m info taken st)
    (Yields P received start (ReplyOf m))
  := by
  obtain ⟨⟨scratch, port⟩, decoder, decodedTotal⟩ := st
  obtain ⟨taken, hlength, htaken, hdecoded⟩ := h
  simp only at hlength htaken hdecoded
  apply yields_pumpTurn hP hlength htaken
  intro port htaken
  apply yields_check (onlyPanics_usizeAdd _ _ _) hlength
  intro writeAt hwriteAt
  apply yields_check (onlyPanics_usizeSub _ _ _) hlength
  intro headroom _
  apply yields_check (onlyPanics_grow _ _ _) hlength
  intro grown hgrow
  obtain ⟨hgrown, hkeep⟩ := grown_of_ok hlength hgrow
  apply yields_rxPop hP hgrown htaken
  intro popped port htaken hroom
  have hsize := Buffer.length_overwrite hroom
  simp only at hroom hsize hwriteAt ⊢
  -- what is decoded stays, if a part of the message was taken
  have hkept : ∀ more, taken ++ more <+: m.bytes → info = m.block.info
      ∧ writeAt = m.block.bytes.length + decodedTotal
      ∧ Chunked m taken decoder decodedTotal (Buffer.overwrite grown writeAt popped) := by
    intro more hpart
    obtain ⟨rfl, c, seen, rfl, rfl, rfl, hlies⟩ :=
      hdecoded ((List.prefix_append _ _).trans hpart)
    have hfits := hlies.fits
    have hadd : usizeAdd s.overflowChecks m.block.info.headerLen (c.out seen).length
        = .ok (m.block.bytes.length + (c.out seen).length) :=
      usizeAdd_eq (lt_of_le_of_lt (hfits.trans hlength) isizeMax_lt)
    obtain rfl : m.block.bytes.length + (c.out seen).length = writeAt :=
      Except.ok.inj (hadd.symm.trans hwriteAt)
    use rfl, rfl, c, seen, rfl, rfl, rfl
    apply hlies.of_take
    rw [Buffer.take_overwrite_of_le (by omega) le_rfl, hkeep _ hfits]
  by_cases hpos : 0 < popped.length
  · have hslice : Buffer.slice (Buffer.overwrite grown writeAt popped) writeAt popped.length
        = popped := Buffer.slice_overwrite (by omega)
    have hlast : (Buffer.overwrite (Buffer.overwrite grown writeAt popped) writeAt
        (phr.decodeChunked decoder popped).buf).length = grown.length := by
      rw [Buffer.length_overwrite, hsize]
      rw [hsize, phr.length_decodeChunked]
      apply hroom
    have hscratch := hlast.trans_le hgrown
    simp only [hpos, if_true, hslice]
    apply yields_check (onlyPanics_usizeAdd _ _ _) hscratch
    intro total htotal
    have hpiece (hpart : taken ++ popped <+: m.bytes) : info = m.block.info
        ∧ AfterPiece m (taken ++ popped) (phr.decodeChunked decoder popped) total
          (Buffer.overwrite (Buffer.overwrite grown writeAt popped) writeAt
            (phr.decodeChunked decoder popped).buf) := by
      obtain ⟨hinfo, rfl, hchunked⟩ := hkept popped hpart
      obtain ⟨hlt, hafter⟩ := hchunked.decode (List.length_pos_iff.mp hpos) hpart
        (hsize.symm ▸ hroom) (hsize.symm ▸ hgrown)
      obtain rfl := Except.ok.inj (htotal.symm.trans (usizeAdd_eq hlt))
      exact ⟨hinfo, hafter⟩
    split
    case isTrue hret =>
      apply yields_ok hscratch htaken
      intro hpart
      obtain ⟨rfl, ⟨-, hall, hselects⟩ | ⟨hmore, -⟩⟩ := hpiece hpart
      · exact ⟨hall, hselects⟩
      · rw [hmore] at hret
        cases hret
    case isFalse hret =>
      split
      · apply yields_error hscratch (by simp)
      · use taken ++ popped, hscratch, htaken
        intro hpart
        obtain ⟨hinfo, ⟨hdone, -⟩ | ⟨-, hchunked⟩⟩ := hpiece hpart
        · exact absurd hdone hret
        · exact ⟨hinfo, hchunked⟩
  · obtain rfl : popped = [] := List.length_eq_zero_iff.mp (Nat.eq_zero_of_not_pos hpos)
    simp only [hpos, if_false]
    apply yields_idleTurn (hsize.trans_le hgrown)
    rw [List.append_nil] at htaken
    use taken, hsize.trans_le hgrown, htaken
    intro hpart
    obtain ⟨hinfo, -, hchunked⟩ := hkept [] (by rwa [List.append_nil])
    exact ⟨hinfo, hchunked⟩

/-- The loop for a chunked body. -/
theorem readChunks_takes (hP : P.Receives received) {st : Chunking δ σ} {taken : List UInt8}
    (h : ChunksTaken P received start m info taken st) :
  (readChunks phr P s info st turns).Holds (fun _ => True)
    fun r _ => Yields P received start (ReplyOf m) r
  := by
  have hloop : (Turns.run (chunkTurn phr P s info) turns st).Holds
      (fun st => ∃ taken, ChunksTaken P received start m info taken st)
      fun r _ => Yields P received start (ReplyOf m) r :=
    Turns.run_keeps (fun _ _ => chunkTurn_takes hP) ⟨taken, h⟩
  apply hloop.andThen_done
  intro r rest hr
  apply hr

/-- A message without a content length is chunked. -/
theorem Message.coding (m : Message phr) (hnone : m.block.info.contentLength = none) :
  m.block.info.isChunked = true ∧ Nonempty (ChunkedBody phr m.raw m.body)
  := by
  obtain ⟨block, raw, body, hframing, hlt⟩ := m
  cases hframing with
  | contentLength present valid unchunked =>
    have hsome : block.info.contentLength = some raw.length :=
      contentLength_of_valid present valid
    cases hnone.symm.trans hsome
  | chunked present chunked unsized coding => exact ⟨isChunked_of_chunked present chunked, ⟨coding⟩⟩

variable {taken scratch : List UInt8}

/-- The decoder begins behind the header block. -/
theorem chunked_start (hnone : m.block.info.contentLength = none)
    (hle : m.block.bytes.length ≤ scratch.length) :
  Chunked m m.block.bytes (phr.zeroed true) 0 scratch
  := by
  obtain ⟨-, ⟨coding⟩⟩ := m.coding hnone
  use coding, [], (List.append_nil _).symm, coding.state_nil.symm
  simp only [coding.out_nil, List.length_nil, true_and]
  constructor <;> rw [coding.out_nil]
  · apply hle
  · simp

variable {filled : Nat} {client : Client σ}

/-- What has been taken of a message with its header block is the block and a piece of the body. -/
theorem HeaderOf.piece (h : HeaderOf m (info, filled) taken scratch) (hpart : taken <+: m.bytes) :
  info = m.block.info ∧ m.block.bytes.length ≤ filled
    ∧ m.block.bytes
      ++ Buffer.slice scratch m.block.bytes.length (filled - m.block.bytes.length) = taken
  := by
  obtain ⟨hfilled, rfl, hinfo⟩ := h
  obtain ⟨hsame, hle⟩ := hinfo hpart
  simp only at hfilled hpart hsame hle
  use hsame, hle
  have hblock : m.block.bytes <+: scratch.take filled := by
    apply List.prefix_of_prefix_length_le (List.prefix_append _ _) hpart
    rw [List.length_take_of_le hfilled]
    apply hle
  rw [Buffer.slice_eq, Nat.add_sub_cancel' hle]
  apply List.prefix_iff_eq_append.mp hblock

/-- The branch for the coding `chunked`. -/
theorem readChunkedBody_takes (hP : P.Receives received)
    (hlength : client.scratch.length ≤ isizeMax)
    (htaken : Taken P received start taken client.port)
    (hheader : HeaderOf m (info, filled) taken client.scratch) (hnone : info.contentLength = none) :
  (readChunkedBody phr P s filled info client turns).Holds (fun _ => True)
    fun r _ => Yields P received start (ReplyOf m) r
  := by
  rw [readChunkedBody]
  cases hsub : usizeSub s.overflowChecks filled info.headerLen with
  | error stop => exact yields_panic hlength (onlyPanics_usizeSub _ _ _) hsub
  | ok initialRaw =>
    rw [attempt_ok]
    have hpiece (hpart : taken <+: m.bytes) : info = m.block.info
        ∧ info.headerLen + initialRaw ≤ client.scratch.length
        ∧ m.block.bytes ++ Buffer.slice client.scratch info.headerLen initialRaw = taken
        ∧ Chunked m m.block.bytes (phr.zeroed true) 0 client.scratch := by
      obtain ⟨rfl, hle, hpiece⟩ := hheader.piece hpart
      obtain rfl := Except.ok.inj ((usizeSub_eq hle).symm.trans hsub)
      have hfilled : filled ≤ client.scratch.length := hheader.1
      use rfl, (Nat.add_sub_cancel' hle).trans_le hfilled, hpiece
      apply chunked_start hnone (hle.trans hfilled)
    by_cases hraw : 0 < initialRaw
    · simp only [hraw, if_true]
      generalize hslice : Buffer.slice client.scratch info.headerLen initialRaw = piece at hpiece ⊢
      have hlast : (Buffer.overwrite client.scratch info.headerLen
          (phr.decodeChunked (phr.zeroed true) piece).buf).length = client.scratch.length := by
        apply Buffer.length_overwrite_slice
        rw [phr.length_decodeChunked, hslice]
      have hscratch := hlast.trans_le hlength
      have hafter (hpart : taken <+: m.bytes) : info = m.block.info
          ∧ AfterPiece m taken (phr.decodeChunked (phr.zeroed true) piece)
            (phr.decodeChunked (phr.zeroed true) piece).bufsz
            (Buffer.overwrite client.scratch info.headerLen
              (phr.decodeChunked (phr.zeroed true) piece).buf) := by
        obtain ⟨rfl, hroom, rfl, hchunked⟩ := hpiece hpart
        have hlen : piece.length = initialRaw := by
          rw [← hslice, Buffer.slice, List.length_take, List.length_drop]
          omega
        have hdecode := hchunked.decode (List.length_pos_iff.mp (hlen ▸ hraw)) hpart
          (by rw [hlen]; exact hroom) hlength
        simp only [Nat.zero_add] at hdecode
        exact ⟨rfl, hdecode.2⟩
      split
      case isTrue hret =>
        refine yields_ok hscratch htaken fun hpart => ?_
        obtain ⟨rfl, ⟨-, hall, hselects⟩ | ⟨hmore, -⟩⟩ := hafter hpart
        · exact ⟨hall, hselects⟩
        · rw [hmore] at hret
          cases hret
      case isFalse hret =>
        split
        · apply yields_error hscratch (by simp)
        · refine readChunks_takes hP (?_ : ChunksTaken P received start m info taken _)
          use hscratch, htaken
          intro hpart
          obtain ⟨hinfo, ⟨hdone, -⟩ | ⟨-, hchunked⟩⟩ := hafter hpart
          · exact absurd hdone hret
          · exact ⟨hinfo, hchunked⟩
    · simp only [hraw, if_false]
      refine readChunks_takes hP (?_ : ChunksTaken P received start m info taken _)
      use hlength, htaken
      intro hpart
      obtain ⟨hinfo, -, rfl, hchunked⟩ := hpiece hpart
      obtain rfl : initialRaw = 0 := Nat.eq_zero_of_not_pos hraw
      rw [Buffer.slice, List.take_zero, List.append_nil]
      exact ⟨hinfo, hchunked⟩

/-- `read_response` after its loop for the header block. -/
theorem readBody_takes (hP : P.Receives received) (hlength : client.scratch.length ≤ isizeMax)
    (htaken : Taken P received start taken client.port)
    (hheader : HeaderOf m (info, filled) taken client.scratch) :
  (readBody phr P s info filled client turns).Holds (fun _ => True)
    fun r _ => Yields P received start (ReplyOf m) r
  := by
  rw [readBody]
  cases hcl : info.contentLength with
  | some cl =>
    obtain ⟨hfilled, rfl, hinfo⟩ := hheader
    have hbody : BodyTaken P received start (client.scratch.take filled) filled client :=
      { length_le := hlength, filled_le := hfilled, taken := htaken, first := List.prefix_rfl }
    apply readSizedBody_takes hP hbody (fun hpart => (hinfo hpart).1) hcl
  | none =>
    simp only
    split
    case isTrue => exact readChunkedBody_takes hP hlength htaken hheader hcl
    case isFalse hplain =>
      cases hsub : usizeSub s.overflowChecks filled info.headerLen with
      | error stop => exact yields_panic hlength (onlyPanics_usizeSub _ _ _) hsub
      | ok len =>
        refine yields_ok hlength htaken fun hpart => ?_
        obtain ⟨rfl, -⟩ := hheader.2.2 hpart
        exact absurd (m.coding hcl).1 hplain

/-- When `read_response` returns on any port, and what it has taken is a part of one framed message,
it has taken the message and selects its body. -/
theorem readResponse_takes (hP : P.Receives received) {client : Client σ}
    (hscratch : client.scratch.length ≤ isizeMax) (m : Message phr) :
  (readResponse phr P s client turns).Holds (fun _ => True)
    fun r _ => Yields P received client.port (ReplyOf m) r
  := by
  rw [readResponse]
  apply (headerLoop_takes hP (headerTaken_start hscratch)).andThen_done
  rintro ⟨stop | ⟨info, filled⟩, client'⟩ rest ⟨hlength, hok, hstop⟩
  · apply yields_error hlength (hstop stop rfl)
  · obtain ⟨taken, htaken, hheader⟩ := hok _ rfl
    apply readBody_takes hP hlength htaken hheader

/-! ### A message at once -/

/-- A call whose first pump brings a whole message with a content length returns at once. -/
theorem readResponse_whole {port port' : σ} {r : PumpResult} {scratch : List UInt8}
    (hpump : P.pump t.pump port = (r, port')) (hfailed : r.failed = false)
    (hrx : P.rx port' = m.bytes) (hroom : m.block.headers.length ≤ maxHeaders)
    (hcl : m.block.info.contentLength = some m.raw.length) (hfit : m.bytes.length ≤ scratch.length)
    (hscratch : scratch.length ≤ isizeMax) :
  readResponse phr P s { scratch := scratch, port := port } (t :: turns)
    = .done (.ok (m.block.info.status, m.block.info.headerLen, m.raw.length),
      { scratch := Buffer.overwrite scratch 0 m.bytes, port := P.setRx [] port' }) turns
  := by
  have hmax := isizeMax_lt
  have hlen : m.bytes.length = m.block.bytes.length + m.raw.length := List.length_append
  have hblock := List.length_pos_iff.mpr m.block.nonempty
  have hsize : (Buffer.overwrite scratch 0 m.bytes).length = scratch.length :=
    Buffer.length_overwrite (by omega)
  have htake : (Buffer.overwrite scratch 0 m.bytes).take m.bytes.length = m.bytes := by
    have htake := @Buffer.take_overwrite _ scratch m.bytes 0 (Nat.zero_le _)
    rw [Nat.zero_add] at htake
    apply htake
  have hpop : Client.rxPop P { scratch := scratch, port := port' } 0
      = .ok (m.bytes.length,
        { scratch := Buffer.overwrite scratch 0 m.bytes, port := P.setRx [] port' }) := by
    simp only [Client.rxPop, hrx, Nat.not_lt_zero, if_false, Nat.sub_zero,
      List.take_of_length_le hfit, List.drop_length]
  have hadd : usizeAdd s.overflowChecks 0 m.bytes.length = .ok m.bytes.length := by
    rw [usizeAdd_eq (by omega), Nat.zero_add]
  have hparse : tryParseHeaders phr (Buffer.overwrite scratch 0 m.bytes) m.bytes.length 0
      = .complete m.block.info := by
    apply tryParseHeaders_complete _ hblock hroom
    rw [htake]
    apply List.prefix_append _ _
  have htotal : usizeAdd s.overflowChecks m.block.info.headerLen m.raw.length
      = .ok m.bytes.length := by
    rw [m.block.info_headerLen, usizeAdd_eq m.length_lt, hlen]
  have hturn : headerTurn phr P s t { client := { scratch := scratch, port := port }, filled := 0 }
      = .done (.ok (m.block.info, m.bytes.length),
        { scratch := Buffer.overwrite scratch 0 m.bytes, port := P.setRx [] port' }) := by
    rw [PumpResult.failed] at hfailed
    have hpos : 0 < m.bytes.length := by omega
    simp only [headerTurn, pumpTurn, hpump, hfailed, Bool.false_eq_true, if_false, hpop, check_ok,
      hpos, if_true, hadd, hparse]
  rw [readResponse, Turns.run, hturn]
  simp only [Turns.Ended.andThen, attempt_ok, readBody, hcl, readSizedBody, htotal, hsize,
    Nat.not_lt.mpr hfit, if_false, Nat.lt_irrefl]

/-- A call whose first pump brings nothing, when its time is over. -/
theorem readResponse_late {port port' : σ} {r : PumpResult} {scratch : List UInt8}
    (hpump : P.pump t.pump port = (r, port')) (hfailed : r.failed = false)
    (hrx : P.rx port' = []) (htime : timedOut s t.now = .ok true) :
  readResponse phr P s { scratch := scratch, port := port } (t :: turns)
    = .done (.error (.failed .responseIncomplete),
      { scratch := scratch, port := P.setRx [] port' }) turns
  := by
  have hpop : Client.rxPop P { scratch := scratch, port := port' } 0
      = .ok (0, { scratch := scratch, port := P.setRx [] port' }) := by
    simp [Client.rxPop, hrx, Buffer.overwrite]
  have hturn : headerTurn phr P s t { client := { scratch := scratch, port := port }, filled := 0 }
      = .done (.error (.failed .responseIncomplete),
        { scratch := scratch, port := P.setRx [] port' }) := by
    rw [PumpResult.failed] at hfailed
    simp only [headerTurn, pumpTurn, hpump, hfailed, Bool.false_eq_true, if_false, hpop, check_ok,
      Nat.lt_irrefl, idleTurn, htime, if_true]
  rw [readResponse, Turns.run, hturn]
  rfl

end FdRpc.Http

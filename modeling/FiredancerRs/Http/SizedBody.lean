import FiredancerRs.Http.HeaderLoop

/-!
# A body of known length

How `read_response` reads a body with a `Content-Length` from quiet turns: the loop fills `scratch`
with the bytes as they come, until the response is there (`readSizedBody_holds`).
-/

namespace FdRpc.Http

variable {δ : Type} {phr : Phr δ} {s : Settings} {patient : Prop} {stream : List UInt8}
variable {t : Turn Delivery} {ts : List (Turn Delivery)}

/-! ### The loop -/

variable {st : Filling (List UInt8)} {total : Nat}

/-- The response up to some point of its body is in `scratch`, which has room for all of it. -/
structure BodyInv (s : Settings) (patient : Prop) (stream : List UInt8) (total : Nat)
    (turns : List (Turn Delivery)) (st : Filling (List UInt8)) : Prop where
  feeding : Feeding s patient stream (st.client.scratch.take st.filled) turns st.client.port
  filled_lt : st.filled < total
  total_le : total ≤ st.client.scratch.length
  length_le : st.client.scratch.length ≤ isizeMax

/-- The response is in `scratch`. -/
structure BodyDone (stream : List UInt8) (total : Nat)
    (r : Except Stop Unit × Client (List UInt8)) : Prop where
  result : r.1 = .ok ()
  filled : ∃ filled, total ≤ filled ∧ filled ≤ r.2.scratch.length
    ∧ r.2.scratch.take filled <+: stream

/-- One turn of the loop. -/
theorem bodyTurn_holds (hinv : BodyInv s patient stream total (t :: ts) st) :
  (bodyTurn feed s total t st).Holds (BodyInv s patient stream total ts) (BodyDone stream total)
  := by
  obtain ⟨hfeeding, hlt, htotal, hlength⟩ := hinv
  obtain ⟨⟨scratch, ring⟩, filled⟩ := st
  simp only at hfeeding hlt htotal hlength
  have hquiet := hfeeding.quiet t (List.mem_cons_self ..)
  have hfilled : filled ≤ scratch.length := by omega
  obtain ⟨popped, rest, hring, hpop, hle, hfull⟩ :=
    @rxPop_feed { scratch := scratch, port := ring ++ t.pump.bytes } _ hfilled
  simp only at hring hpop hle hfull
  have hnil : popped = [] → rest = [] := by
    rintro rfl
    by_contra hrest
    have := hfull hrest
    simp only [List.length_nil] at this
    omega
  have hnext := hfeeding.pop hring hnil
  rw [← Buffer.take_overwrite hfilled] at hnext
  have hsize := Buffer.length_overwrite hle
  have hadd : usizeAdd s.overflowChecks filled popped.length = .ok (filled + popped.length) :=
    usizeAdd_eq (lt_of_le_of_lt (hle.trans hlength) isizeMax_lt)
  rw [bodyTurn, pumpTurn_quiet hquiet, hpop]
  simp only [check_ok]
  by_cases hempty : popped = []
  · subst hempty
    simp only [List.length_nil, Nat.lt_irrefl, if_false, idleTurn_quiet hquiet,
      Turns.Step.holds_more]
    constructor
    · apply hnext
    · apply hlt
    · apply hsize.symm ▸ htotal
    · apply hsize.symm ▸ hlength
  · simp only [List.length_pos_iff.mpr hempty, if_true, hadd, check_ok]
    by_cases hmore : filled + popped.length < total
    · simp only [hmore, if_true, Turns.Step.holds_more]
      constructor
      · apply hnext
      · apply hmore
      · apply hsize.symm ▸ htotal
      · apply hsize.symm ▸ hlength
    · simp only [hmore, if_false, Turns.Step.holds_done]
      constructor
      · rfl
      · use filled + popped.length, Nat.not_lt.mp hmore, hsize.symm ▸ hle
        apply hnext.seen_isPrefix

/-- The loop ends with the response in `scratch`, unless the turns are over before. -/
theorem bodyLoop_holds (hinv : BodyInv s patient stream total ts st) :
  (Turns.run (bodyTurn feed s total) ts st).Holds (BodyInv s patient stream total [])
    fun r _ => BodyDone stream total r
  := Turns.run_holds (fun _ _ _ => bodyTurn_holds) hinv

/-! ### The branch -/

variable {block : HeaderBlock phr} {body : List UInt8} {client : Client (List UInt8)}
variable {filled n : Nat}

/-- With the whole response in `scratch` its body is selected. -/
theorem selects_of_take (hfilled : filled ≤ client.scratch.length)
    (htake : client.scratch.take filled = block.bytes ++ body) :
  Selects block.info.status block.info.headerLen body
    (.ok (block.info.status, block.info.headerLen, body.length), client)
  := by
  have hlength := congrArg List.length htake
  rw [List.length_take_of_le hfilled, List.length_append] at hlength
  constructor
  · rfl
  · apply hlength ▸ hfilled
  · change Buffer.slice client.scratch block.bytes.length body.length = body
    rw [Buffer.slice_eq, ← hlength, htake, List.drop_left]

/-- What is in `scratch` is the whole response once it is as long. -/
theorem take_eq_of_le {whole : List UInt8} (hstream : stream <+: whole)
    (hpart : client.scratch.take filled <+: stream) (hfilled : filled ≤ client.scratch.length)
    (hle : whole.length ≤ filled) :
  client.scratch.take filled = whole
  := by
  apply (hpart.trans hstream).eq_of_length_le
  rw [List.length_take_of_le hfilled]
  apply hle

/-- The branch for a header `Content-Length` selects the body. -/
theorem readSizedBody_holds (hdone : HeaderDone block s patient stream n ts filled client)
    (hn : n ≤ isizeMax) (hstream : stream <+: block.bytes ++ body)
    (hsize : block.bytes.length + body.length ≤ isizeMax) :
  (readSizedBody feed s block.info body.length filled client ts).Holds
    (Waits patient stream (block.bytes ++ body))
    fun r _ => Selects block.info.status block.info.headerLen body r
  := by
  obtain ⟨hfeeding, hlength, -, hfilled⟩ := hdone
  rw [← hlength] at hfilled hn
  have htotal : (block.bytes ++ body).length = block.bytes.length + body.length :=
    List.length_append
  have hadd : usizeAdd s.overflowChecks block.info.headerLen body.length
      = .ok (block.bytes.length + body.length) :=
    usizeAdd_eq (lt_of_le_of_lt hsize isizeMax_lt)
  -- Growing `scratch` gives it room for the response and keeps what it holds.
  obtain ⟨scratch, hgrow, hroom, hscratch, htake⟩ : ∃ scratch,
      (if client.scratch.length < block.bytes.length + body.length then
        vecResize client.scratch (block.bytes.length + body.length)
      else .ok client.scratch) = .ok scratch
      ∧ block.bytes.length + body.length ≤ scratch.length ∧ scratch.length ≤ isizeMax
      ∧ scratch.take filled = client.scratch.take filled := by
    by_cases hlt : client.scratch.length < block.bytes.length + body.length
    · use Buffer.resize client.scratch (block.bytes.length + body.length) 0
      rw [if_pos hlt, vecResize_eq hsize, Buffer.length_resize]
      use rfl, le_rfl, hsize
      apply Buffer.take_resize hfilled hlt.le
    · use client.scratch
      rw [if_neg hlt]
      use rfl, Nat.not_lt.mp hlt, hn
  have hfits : filled ≤ scratch.length := by
    have := congrArg List.length htake
    rw [List.length_take, List.length_take_of_le hfilled] at this
    omega
  rw [← htake] at hfeeding
  rw [readSizedBody, hadd, attempt_ok, hgrow, attempt_ok]
  by_cases hmore : filled < block.bytes.length + body.length
  · rw [if_pos hmore]
    have hinv : BodyInv s patient stream (block.bytes.length + body.length) ts
        { client := { client with scratch := scratch }, filled := filled } :=
      { feeding := hfeeding, filled_lt := hmore, total_le := hroom, length_le := hscratch }
    apply (bodyLoop_holds hinv).andThen
    · intro st hst
      apply hst.feeding.waits
      rintro rfl hseen
      have := congrArg List.length hseen
      rw [htotal, List.length_take] at this
      have := hst.filled_lt
      omega
    · rintro ⟨result, client⟩ rest ⟨rfl, filled, hle, hfilled, hpart⟩
      apply selects_of_take hfilled
      apply take_eq_of_le hstream hpart hfilled (htotal ▸ hle)
  · rw [if_neg hmore]
    apply selects_of_take hfits
    apply take_eq_of_le hstream hfeeding.seen_isPrefix hfits
    rw [htotal]
    apply Nat.not_lt.mp hmore

end FdRpc.Http

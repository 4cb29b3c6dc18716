import FiredancerRs.Http.ChunkLoop
import FiredancerRs.Http.SizedBody

/-!
# Framed responses

A response whose body has either a `Content-Length` or the coding `chunked` is reassembled from
every split of its bytes: `read_response` selects its body in `scratch` (`framed_response`). It does
so for the headers for which `try_parse_headers` has room, and within the sizes of vectors.
-/

namespace FdRpc.Http

variable {δ : Type} {phr : Phr δ}

/-- The headers say by either a content length or the coding `chunked` which body the bytes after
the header block are. -/
inductive Framing (phr : Phr δ) (headers : List PhrHeader) : List UInt8 → List UInt8 → Prop where
  | contentLength {body : List UInt8} (present : valuesOf headers contentLengthName ≠ [])
    (valid : ∀ v ∈ valuesOf headers contentLengthName, ReadsLength v body.length)
    (unchunked : ∀ v ∈ valuesOf headers transferEncodingName, ¬ReadsChunked v) :
    Framing phr headers body body
  | chunked {raw body : List UInt8} (present : valuesOf headers transferEncodingName ≠ [])
    (chunked : ∀ v ∈ valuesOf headers transferEncodingName, ReadsChunked v)
    (unsized : ∀ v ∈ valuesOf headers contentLengthName, ∀ n, ¬ReadsLength v n)
    (coding : ChunkedBody phr raw body) :
    Framing phr headers raw body

/-! ### What the headers say -/

variable {headers : List PhrHeader}

/-- A body whose length is the only content length is framed by it. -/
theorem Framing.of_digits {digits body : List UInt8}
    (hlength : valuesOf headers contentLengthName = [digits])
    (hencoding : valuesOf headers transferEncodingName = []) (hne : digits ≠ [])
    (hdigits : digits.Forall fun b => Ascii.isDigit b = true)
    (hlt : Decimal.value digits < 2 ^ 64)
    (hbody : body.length = Decimal.value digits) :
  Framing phr headers body body
  := by
  constructor
  case present => simp [hlength]
  case valid =>
    rw [hbody]
    apply readsLength_of_digits hlength hne (List.forall_iff_forall_mem.mp hdigits) hlt
  case unchunked =>
    rw [hencoding]
    intro v hv
    cases hv

/-! ### The response -/

variable {s : Settings} {turns : List (Turn Delivery)} {scratch : List UInt8}

/-- Where the body of a framed response is read, it is selected. -/
theorem readBody_holds {block : HeaderBlock phr} {raw body stream : List UInt8} {patient : Prop}
    {n filled : Nat} {client : Client (List UInt8)}
    (hframing : Framing phr block.headers raw body)
    (hdone : HeaderDone block s patient stream n turns filled client) (hn : n ≤ isizeMax)
    (hstream : stream <+: block.bytes ++ raw)
    (hsize : 2 * (block.info.headerLen + body.length + minHeadroom) ≤ isizeMax) :
  (readBody phr feed s block.info filled client turns).Holds
    (Waits patient stream (block.bytes ++ raw))
    fun r _ => Selects block.info.status block.info.headerLen body r
  := by
  rw [readBody]
  cases hframing with
  | contentLength present valid unchunked =>
    have hlength : block.info.contentLength = some raw.length :=
      contentLength_of_valid present valid
    rw [hlength]
    apply readSizedBody_holds hdone hn hstream
    rw [block.info_headerLen] at hsize
    omega
  | chunked present chunked unsized coding =>
    have hlength : block.info.contentLength = none := contentLength_of_unsized unsized
    have hchunked : block.info.isChunked = true := isChunked_of_chunked present chunked
    rw [hlength, hchunked]
    apply readChunkedBody_holds coding hdone hn hstream hsize

/-- From quiet turns that bring a framed response, however it is split, `read_response` returns the
status and selects the body. It is left waiting only when bytes are missing, or some are not popped
yet and the turns were too few for them. -/
theorem framed_response (block : HeaderBlock phr) {raw body : List UInt8}
    (hframing : Framing phr block.headers raw body)
    (hroom : block.headers.length ≤ maxHeaders)
    (hsize : 2 * (block.bytes.length + body.length + minHeadroom) ≤ isizeMax)
    (hscratch : scratch.length ≤ isizeMax) (hfit : block.bytes.length ≤ scratch.length)
    (hquiet : ∀ t ∈ turns, Quiet s t) (hbytes : arrivals turns <+: block.bytes ++ raw) :
  (readResponse phr feed s { scratch := scratch, port := [] } turns).Holds
    (fun client => arrivals turns = block.bytes ++ raw → client.port ≠ [] ∧ ¬Patient [] turns)
    fun r _ => Selects (UInt16.ofInt block.status) block.bytes.length body r
  := by
  have hwaits : ∀ client, Waits (Patient [] turns) (arrivals turns) (block.bytes ++ raw) client →
      arrivals turns = block.bytes ++ raw → client.port ≠ [] ∧ ¬Patient [] turns := by
    intro client hclient hall
    use hclient.ring_of_whole hall
    intro hpatient
    apply hclient.ring_of_whole hall (hclient.ring_of_patient hpatient)
  rw [readResponse]
  apply (headerLoop_holds hfit hscratch hroom hbytes (headerInv_start hquiet)).andThen
  · intro st hst
    apply hwaits
    apply hst.feeding.waits
    intro hall hseen
    have hlength := congrArg List.length (hseen.trans hall)
    rw [List.length_take, List.length_append] at hlength
    have := hst.filled_lt
    omega
  · rintro ⟨result, client⟩ rest ⟨filled, rfl, hdone⟩
    apply (readBody_holds hframing hdone hscratch hbytes hsize).mono hwaits
    intro r _ hr
    apply hr

/-- The header block of a response with two bytes. -/
def okHeader : List UInt8 := ascii "HTTP/1.1 200 OK\r\nContent-Length: 2\r\n\r\n"

/-- That block, with a parser for it. -/
def okBlock : HeaderBlock (Phr.ofBlock okHeader 200 [header "Content-Length" "2"]) :=
  HeaderBlock.ofBlock ascii_ne_nil

theorem length_okBlock :
  okBlock.bytes.length = 38
  := length_ascii _

/-- A split of that response. -/
def okTurns : List (Turn Delivery) :=
  [bring (ascii "HTTP/1.1 200 OK\r\nContent-"), bring (ascii "Length: 2\r\n\r\no"),
    bring (ascii "k"), bring []]

theorem framed_response_ok :
  (readResponse (Phr.ofBlock okHeader 200 [header "Content-Length" "2"]) feed patiently
    { scratch := newScratch, port := [] } okTurns).Holds
    (fun client => arrivals okTurns = okBlock.bytes ++ ascii "ok" →
      client.port ≠ [] ∧ ¬Patient [] okTurns)
    fun r _ => Selects (UInt16.ofInt okBlock.status) okBlock.bytes.length (ascii "ok") r
  := by
  have hsize : 2 * (okBlock.bytes.length + (ascii "ok").length + minHeadroom) ≤ isizeMax := by
    have hbody : (ascii "ok").length = 2 := length_ascii _
    rw [length_okBlock, hbody]
    decide
  have hfit : okBlock.bytes.length ≤ newScratch.length := by
    rw [length_newScratch, length_okBlock]
    decide
  have hquiet : ∀ t ∈ okTurns, Quiet patiently t := by
    simp [okTurns, quiet_bring]
  have hframing : Framing (Phr.ofBlock okHeader 200 [header "Content-Length" "2"])
      okBlock.headers (ascii "ok") (ascii "ok") := by
    apply @Framing.of_digits _ _ _ (ascii "2") <;> decide
  have hroom : okBlock.headers.length ≤ maxHeaders := by decide
  have hbytes : arrivals okTurns <+: okBlock.bytes ++ ascii "ok" := by
    change (_ ++ (_ ++ (_ ++ []))) <+: okHeader ++ _
    simp only [bring, okHeader]
    rw [ascii_ofList, ascii_ofList, ascii_ofList, ascii_ofList, ascii_ofList]
    decide
  apply framed_response okBlock hframing hroom hsize length_newScratch_le hfit hquiet hbytes

/-! ### What is not reassembled -/

variable {block : HeaderBlock phr}

/-- A block with more headers than the array has room for is taken for malformed. -/
theorem readResponse_manyHeaders (hroom : maxHeaders < block.headers.length)
    (hscratch : scratch.length ≤ isizeMax) (hfit : block.bytes.length ≤ scratch.length)
    {t : Turn Delivery} (hquiet : Quiet s t) (hbytes : t.pump.bytes = block.bytes) :
  ∃ client, readResponse phr feed s { scratch := scratch, port := [] } (t :: turns)
    = .done (.error (.failed .responseMalformed), client) turns
  := by
  use { scratch := Buffer.overwrite scratch 0 block.bytes, port := [] }
  apply readResponse_first_error hquiet hbytes block.nonempty hfit hscratch
    (tryParseHeaders_whole_rejected hroom) turns

/-- Growing `scratch` for a response that is longer than a vector panics. -/
theorem readResponse_huge {cl : Nat} (hroom : block.headers.length ≤ maxHeaders)
    (hlength : (readHeaders block.headers).1 = some cl) (hlt : block.bytes.length + cl < 2 ^ 64)
    (hhuge : isizeMax < block.bytes.length + cl)
    (hscratch : scratch.length ≤ isizeMax) (hfit : block.bytes.length ≤ scratch.length)
    {t : Turn Delivery} (hquiet : Quiet s t) (hbytes : t.pump.bytes = block.bytes) :
  ∃ client, readResponse phr feed s { scratch := scratch, port := [] } (t :: turns)
    = .done (.error (.panicked .capacity), client) turns
  := by
  have hcl : block.info.contentLength = some cl := hlength
  have hadd : usizeAdd s.overflowChecks block.info.headerLen cl
      = .ok (block.bytes.length + cl) := usizeAdd_eq hlt
  have hgrow : (Buffer.overwrite scratch 0 block.bytes).length < block.bytes.length + cl := by
    rw [Buffer.length_overwrite (by omega)]
    omega
  use { scratch := Buffer.overwrite scratch 0 block.bytes, port := [] }
  rw [readResponse_first hquiet hbytes block.nonempty hfit hscratch (tryParseHeaders_whole hroom)
    turns, readBody, hcl]
  simp only [readSizedBody, hadd, attempt_ok, if_pos hgrow, vecResize, if_neg (Nat.not_le.mpr hhuge)]
  rfl

/-- More headers than the array has room for. -/
def manyHeaders : List PhrHeader :=
  List.replicate 32 (header "A" "b") ++ [header "Content-Length" "0"]

/-- A header block with these headers. -/
def manyBlock : HeaderBlock (Phr.ofBlock
    (ascii "HTTP/1.1 200 OK\r\n" ++ (List.replicate 32 (ascii "A: b\r\n")).flatten
      ++ ascii "Content-Length: 0\r\n\r\n") 200 manyHeaders) :=
  HeaderBlock.ofBlock (by decide)

/-- The header block of a response that is longer than a vector can be. -/
def hugeBlock : HeaderBlock (Phr.ofBlock
    (ascii "HTTP/1.1 200 OK\r\nContent-Length: 9223372036854775808\r\n\r\n") 200
    [header "Content-Length" "9223372036854775808"]) :=
  HeaderBlock.ofBlock ascii_ne_nil

theorem length_manyBlock :
  manyBlock.bytes.length = 230
  := by
  have hstatus : (ascii "HTTP/1.1 200 OK\r\n").length = 17 := length_ascii _
  have hheader : (ascii "A: b\r\n").length = 6 := length_ascii _
  have hlast : (ascii "Content-Length: 0\r\n\r\n").length = 21 := length_ascii _
  change (ascii _ ++ (List.replicate 32 (ascii _)).flatten ++ ascii _).length = 230
  rw [List.length_append, List.length_append, List.length_flatten, List.map_replicate, hstatus,
    hheader, hlast]
  rfl

theorem length_hugeBlock :
  hugeBlock.bytes.length = 56
  := length_ascii _

/-- The body of that response. -/
def hugeBody : List UInt8 := List.replicate (2 ^ 63) 0

theorem framing_manyBlock :
  Framing (Phr.ofBlock manyBlock.bytes 200 manyHeaders) manyBlock.headers [] []
  := by
  apply @Framing.of_digits _ _ _ (ascii "0") <;> decide

theorem framing_hugeBlock :
  Framing (Phr.ofBlock hugeBlock.bytes 200 hugeBlock.headers) hugeBlock.headers hugeBody hugeBody
  := by
  apply @Framing.of_digits _ _ _ (ascii "9223372036854775808")
  case hbody =>
    rw [hugeBody, List.length_replicate]
    decide
  all_goals decide

/-- A response with more headers than the array has room for is taken for malformed, and growing
`scratch` for a response that is longer than a vector panics. -/
theorem not_framed_response :
  (Framing (Phr.ofBlock manyBlock.bytes 200 manyHeaders) manyBlock.headers [] []
    ∧ manyBlock.bytes.length ≤ newScratch.length
    ∧ ∃ client, readResponse (Phr.ofBlock manyBlock.bytes 200 manyHeaders) feed patiently
        { scratch := newScratch, port := [] } [bring manyBlock.bytes]
      = .done (.error (.failed .responseMalformed), client) [])
    ∧ Framing (Phr.ofBlock hugeBlock.bytes 200 hugeBlock.headers) hugeBlock.headers hugeBody
        hugeBody
    ∧ hugeBlock.bytes.length ≤ newScratch.length
    ∧ ∃ client, readResponse (Phr.ofBlock hugeBlock.bytes 200 hugeBlock.headers) feed patiently
        { scratch := newScratch, port := [] } [bring hugeBlock.bytes, bring hugeBody]
      = .done (.error (.panicked .capacity), client) [bring hugeBody]
  := by
  have hmany : manyBlock.bytes.length ≤ newScratch.length := by
    rw [length_newScratch, length_manyBlock]
    decide
  have hhuge : hugeBlock.bytes.length ≤ newScratch.length := by
    rw [length_newScratch, length_hugeBlock]
    decide
  constructor
  · use framing_manyBlock, hmany
    apply @readResponse_manyHeaders _ _ _ _ _ manyBlock (by decide) length_newScratch_le hmany _
      (quiet_bring _) rfl
  · use framing_hugeBlock, hhuge
    have hvalues : valuesOf hugeBlock.headers contentLengthName
        = [ascii "9223372036854775808"] := by decide
    have hlength := contentLength_of_digits hvalues (by decide) (by decide) (by decide)
    have hlt : hugeBlock.bytes.length + Decimal.value (ascii "9223372036854775808") < 2 ^ 64 := by
      rw [length_hugeBlock, ascii_ofList]
      decide
    have hlong : isizeMax < hugeBlock.bytes.length + Decimal.value (ascii "9223372036854775808") := by
      rw [length_hugeBlock, ascii_ofList]
      decide
    apply @readResponse_huge _ _ _ _ _ hugeBlock _ (by decide) hlength hlt hlong length_newScratch_le
      hhuge _ (quiet_bring _) rfl

end FdRpc.Http

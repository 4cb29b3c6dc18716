import Mathlib.Data.List.Infix
import FiredancerRs.Http.HeaderValue

/-!
# The HTTP parser

`phr_parse_response` and `phr_decode_chunked` are not part of the repository: they are parameters
(`Phr`). What `fd_rpc` relies on is that they are incremental. A header block is parsed once it is
there in full and is incomplete before (`HeaderBlock`), and a chunked body is decoded piece by piece
(`ChunkedBody`).
-/

namespace FdRpc.Http

/-- `phr_header`, where the lines that continue a field have no name. -/
structure PhrHeader where
  name : Option (List UInt8)
  value : List UInt8
deriving DecidableEq

/-- What `phr_parse_response` returns and writes. -/
structure PhrResponse where
  rc : Int
  status : Int
  headers : List PhrHeader
deriving DecidableEq

/-- What `phr_decode_chunked` returns and writes. -/
structure PhrDecoded (δ : Type) where
  ret : Int
  decoder : δ
  buf : List UInt8
  bufsz : Nat

/-- The parser, with `δ` for `phr_chunked_decoder`. -/
structure Phr (δ : Type) where
  /-- `phr_parse_response`, on a buffer, `last_len` and the size of the array of headers. -/
  parseResponse : List UInt8 → Nat → Nat → PhrResponse
  /-- A zeroed decoder with the given `consume_trailer`. -/
  zeroed : Bool → δ
  /-- `phr_decode_chunked`, on a decoder and a buffer. -/
  decodeChunked : δ → List UInt8 → PhrDecoded δ
  /-- Decoding works in place. -/
  length_decodeChunked : ∀ d buf, (decodeChunked d buf).buf.length = buf.length

variable {δ : Type}

/-- A header block that the parser knows: with the whole block in the buffer it finds the status and
the headers, or rejects the block when there is no room for the headers. A part of the block is
incomplete, except that a part seen for the first time may be rejected for want of room. -/
structure HeaderBlock (phr : Phr δ) where
  bytes : List UInt8
  status : Int
  headers : List PhrHeader
  nonempty : bytes ≠ []
  complete : ∀ p last room, bytes <+: p → last < bytes.length → headers.length ≤ room →
    phr.parseResponse p last room = { rc := bytes.length, status := status, headers := headers }
  rejected : ∀ p last room, bytes <+: p → last < bytes.length → room < headers.length →
    (phr.parseResponse p last room).rc = -1
  unfinished : ∀ p last room, p <+: bytes → last < p.length → p.length < bytes.length →
    0 < last ∨ headers.length ≤ room → (phr.parseResponse p last room).rc = -2
  unfinished_first : ∀ p room, p <+: bytes → 0 < p.length → p.length < bytes.length →
    (phr.parseResponse p 0 room).rc = -1 ∨ (phr.parseResponse p 0 room).rc = -2

/-- A chunked body that the parser knows, as its bytes and what they encode: `state p` is the
decoder after the bytes `p`, and `out p` what it has decoded. -/
structure ChunkedBody (phr : Phr δ) (raw body : List UInt8) where
  state : List UInt8 → δ
  out : List UInt8 → List UInt8
  nonempty : raw ≠ []
  state_nil : state [] = phr.zeroed true
  out_nil : out [] = []
  out_raw : out raw = body
  unfinished : ∀ p q, q ≠ [] → p ++ q <+: raw → p ++ q ≠ raw →
    (phr.decodeChunked (state p) q).ret = -2
      ∧ (phr.decodeChunked (state p) q).decoder = state (p ++ q)
  finished : ∀ p q, q ≠ [] → p ++ q = raw → 0 ≤ (phr.decodeChunked (state p) q).ret
  bufsz_le : ∀ p q, q ≠ [] → p ++ q <+: raw → (phr.decodeChunked (state p) q).bufsz ≤ q.length
  out_append : ∀ p q, q ≠ [] → p ++ q <+: raw →
    out (p ++ q) = out p ++ (phr.decodeChunked (state p) q).buf.take
      (phr.decodeChunked (state p) q).bufsz

/-- The parser stays in its buffer on any input, and `last_len` only makes it give up sooner. -/
structure Phr.Bounded (phr : Phr δ) : Prop where
  rc_le : ∀ p last room, (phr.parseResponse p last room).rc ≤ p.length
  resumed : ∀ p last room, 0 ≤ (phr.parseResponse p last room).rc →
    phr.parseResponse p last room = phr.parseResponse p 0 room
  bufsz_le : ∀ d buf, (phr.decodeChunked d buf).bufsz ≤ buf.length

namespace ChunkedBody

variable {phr : Phr δ} {raw body : List UInt8}

/-- What part of a body decodes to is part of what the body decodes to. -/
theorem out_initial (c : ChunkedBody phr raw body) {p : List UInt8} (h : p <+: raw) :
  c.out p <+: body
  := by
  obtain ⟨q, hpq⟩ := h
  have hout : c.out (p ++ q) = body := by
    rw [hpq]
    apply c.out_raw
  have hinitial : c.out p <+: c.out (p ++ q) := by
    by_cases hq : q = []
    · rw [hq, List.append_nil]
    · have hraw : p ++ q <+: raw := by rw [hpq]
      rw [c.out_append p q hq hraw]
      apply List.prefix_append
  rw [hout] at hinitial
  apply hinitial

end ChunkedBody

/-! ### A parser of one header block -/

/-- The bytes of an ASCII text. -/
def ascii (text : String) : List UInt8 := text.toList.map fun c => UInt8.ofNat c.toNat

theorem ascii_ofList (chars : List Char) :
  ascii (String.ofList chars) = chars.map fun c => UInt8.ofNat c.toNat
  := by rw [ascii, String.toList_ofList]

theorem length_ascii (chars : List Char) :
  (ascii (String.ofList chars)).length = chars.length
  := by rw [ascii_ofList, List.length_map]

theorem ascii_ne_nil {c : Char} {chars : List Char} :
  ascii (String.ofList (c :: chars)) ≠ []
  := by
  rw [ascii_ofList]
  apply List.cons_ne_nil

/-- A header. -/
def header (name value : String) : PhrHeader where
  name := some (ascii name)
  value := ascii value

/-- A parser that behaves as `phr_parse_response` on the parts and the continuations of one header
block. -/
def Phr.ofBlock (bytes : List UInt8) (status : Int) (headers : List PhrHeader) : Phr Unit where
  parseResponse p _ room :=
    if bytes <+: p ∧ headers.length ≤ room then
      { rc := bytes.length, status := status, headers := headers }
    else
      { rc := if bytes <+: p ∨ ¬p <+: bytes then -1 else -2, status := 0, headers := [] }
  zeroed _ := ()
  decodeChunked _ buf := { ret := -1, decoder := (), buf := buf, bufsz := 0 }
  length_decodeChunked _ _ := rfl

variable {bytes : List UInt8} {status : Int} {headers : List PhrHeader}

/-- The block of `Phr.ofBlock`. -/
def HeaderBlock.ofBlock (h : bytes ≠ []) : HeaderBlock (Phr.ofBlock bytes status headers) where
  bytes := bytes
  status := status
  headers := headers
  nonempty := h
  complete p last room hp _ hroom := by
    simp [Phr.ofBlock, hp, hroom]
  rejected p last room hp _ hroom := by
    simp [Phr.ofBlock, hp, Nat.not_le.mpr hroom]
  unfinished p last room hp _ hlt _ := by
    have hnot : ¬bytes <+: p := fun h => Nat.not_le.mpr hlt h.length_le
    simp [Phr.ofBlock, hp, hnot]
  unfinished_first p room hp _ hlt := by
    have hnot : ¬bytes <+: p := fun h => Nat.not_le.mpr hlt h.length_le
    simp [Phr.ofBlock, hp, hnot]

theorem Phr.bounded_ofBlock :
  (Phr.ofBlock bytes status headers).Bounded
  := by
  constructor
  case rc_le =>
    intro p last room
    simp only [Phr.ofBlock]
    split
    case isTrue h => exact Int.ofNat_le.mpr h.1.length_le
    case isFalse h =>
      split <;> simp
  case resumed =>
    intro p last room _
    rfl
  case bufsz_le =>
    intro d buf
    apply Nat.zero_le

end FdRpc.Http

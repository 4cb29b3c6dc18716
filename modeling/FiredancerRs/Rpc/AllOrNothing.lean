import FiredancerRs.Lib.Lines
import FiredancerRs.Rpc.WriteRequest

/-!
# All or nothing

`write_request` push by push, over the TX ring alone. A push is possible only when the ring has room
for it, and the two pushes of a request always are. A request that is written has grown the ring by
its header block and its body, and one that is not has left the ring as it was
(`writeRequest_allOrNothing`). A reader of lines finds the end of the header block where the body
begins (`readBlock_requestLines`).
-/

open FdEd25519

namespace FdRpc.Http

open FdRpcIo

/-- `Connection::tx_push`. Pushing more than the ring has room for is not defined. -/
def txPush (rbuf : Rbuf) (data : Bytes) : Option Rbuf :=
  if data.length ≤ rbuf.freeSz then some (rbuf.push data) else none

/-- `write_request`, with the TX ring after it. -/
def writeRequestPushes (rbuf : Rbuf) (method path host contentType body : Bytes) :
    Option (Except Stop Unit × Rbuf) :=
  match fmtRequestHeader (List.replicate 512 0) method path host contentType body.length with
  | none => some (.error (.panicked .sliceIndex), rbuf)
  | some none => some (.error (.failed .requestTooLarge), rbuf)
  | some (some (hdrLen, hdrBuf)) =>
    let total := hdrLen + body.length
    if total > rbuf.freeSz then
      some (.error (.failed .requestTooLarge), rbuf)
    else do
      let rbuf ← txPush rbuf (hdrBuf.take hdrLen)
      let rbuf ← if body.isEmpty then pure rbuf else txPush rbuf body
      pure (.ok (), rbuf)

/-- The lines of the header block of a request. -/
def requestLines (method path host contentType : Bytes) (bodyLen : Nat) : List Bytes :=
  [method ++ asBytes " " ++ path ++ asBytes " HTTP/1.1",
    asBytes "Host: " ++ host,
    asBytes "Content-Type: " ++ contentType,
    asBytes "Content-Length: " ++ Decimal.render bodyLen,
    asBytes "Connection: keep-alive"]

/-- A request has been written into a ring: its contents grew by the header block, of at most 512
bytes, and the body. -/
structure Written (rbuf rbuf' : Rbuf) (method path host contentType body : Bytes) : Prop where
  bytes : rbuf'.bytes = rbuf.bytes
    ++ (Lines.block (requestLines method path host contentType body.length) ++ body)
  bufsz : rbuf'.bufsz = rbuf.bufsz
  usedSz_le : rbuf'.usedSz ≤ rbuf'.bufsz
  length_header_le :
    (Lines.block (requestLines method path host contentType body.length)).length ≤ 512

variable {rbuf : Rbuf} {method path host contentType body : Bytes}

/-! ### The header block -/

theorem flatten_requestHeaderParts {bodyLen : Nat} :
  (requestHeaderParts method path host contentType (Decimal.render bodyLen)).flatten
    = Lines.block (requestLines method path host contentType bodyLen)
  := by
  have hversion : asBytes " HTTP/1.1\r\nHost: "
      = asBytes " HTTP/1.1" ++ (Lines.crlf ++ asBytes "Host: ") := by decide
  have htype : asBytes "\r\nContent-Type: " = Lines.crlf ++ asBytes "Content-Type: " := by decide
  have hlength : asBytes "\r\nContent-Length: " = Lines.crlf ++ asBytes "Content-Length: " := by
    decide
  have hend : asBytes "\r\nConnection: keep-alive\r\n\r\n"
      = Lines.crlf ++ (asBytes "Connection: keep-alive" ++ (Lines.crlf ++ Lines.crlf)) := by decide
  simp only [requestHeaderParts, requestLines, Lines.block, hversion, htype, hlength, hend,
    List.flatten_cons, List.flatten_nil, List.append_assoc, List.append_nil]

/-- The lines of a request are not empty, and no carriage return comes with them. -/
theorem requestLines_readable {bodyLen : Nat}
    (h : ∀ text ∈ [method, path, host, contentType], Ascii.carriageReturn ∉ text) :
  ∀ line ∈ requestLines method path host contentType bodyLen,
    line ≠ [] ∧ Ascii.carriageReturn ∉ line
  := by
  have happend {s t : Bytes} (hne : s ≠ []) (hs : Ascii.carriageReturn ∉ s)
      (ht : Ascii.carriageReturn ∉ t) : s ++ t ≠ [] ∧ Ascii.carriageReturn ∉ s ++ t :=
    ⟨List.append_ne_nil_of_left_ne_nil hne t, fun hmem => (List.mem_append.mp hmem).elim hs ht⟩
  have hdigits : Ascii.carriageReturn ∉ Decimal.render bodyLen := by
    intro hmem
    exact absurd (Decimal.isDigit_of_mem_render hmem) (by decide)
  simp only [List.forall_mem_cons] at h
  obtain ⟨hmethod, hpath, hhost, htype, -⟩ := h
  simp only [requestLines, List.forall_mem_cons]
  refine ⟨?_, ?_, ?_, ?_, ?_, List.forall_mem_nil _⟩
  · have hrest : Ascii.carriageReturn ∉ path ++ asBytes " HTTP/1.1" := by
      intro hmem
      apply (List.mem_append.mp hmem).elim hpath (by decide)
    have hblank := @happend (asBytes " ") (path ++ asBytes " HTTP/1.1") (by decide) (by decide) hrest
    rw [List.append_assoc, List.append_assoc]
    use List.append_ne_nil_of_right_ne_nil method hblank.1
    intro hmem
    apply (List.mem_append.mp hmem).elim hmethod hblank.2
  · apply happend (by decide) (by decide) hhost
  · apply happend (by decide) (by decide) htype
  · apply happend (by decide) (by decide) hdigits
  · decide

/-- A header block whose parts have no carriage returns is read as its lines, and the body
follows. -/
theorem readBlock_requestLines
    (h : ∀ text ∈ [method, path, host, contentType], Ascii.carriageReturn ∉ text) :
  Lines.readBlock (Lines.block (requestLines method path host contentType body.length) ++ body)
    = some (requestLines method path host contentType body.length, body)
  := Lines.readBlock_block (requestLines_readable h)

/-- What `fmt_request_header` writes is the header block. -/
theorem fmtRequestHeader_some {hdrLen : Nat} {hdrBuf : Bytes} {bodyLen : Nat}
    (h : fmtRequestHeader (List.replicate 512 0) method path host contentType bodyLen
      = some (some (hdrLen, hdrBuf))) :
  hdrBuf.take hdrLen = Lines.block (requestLines method path host contentType bodyLen)
    ∧ (hdrBuf.take hdrLen).length = hdrLen ∧ hdrLen ≤ 512
  := by
  rw [fmtRequestHeader] at h
  obtain ⟨lenText, hlen, h⟩ := Option.bind_eq_some_iff.mp h
  obtain rfl := fmtDecimal_eq_some List.length_replicate hlen
  rw [Option.pure_def, Option.some.injEq] at h
  obtain ⟨w, hw, heq⟩ := Option.map_eq_some_iff.mp h
  obtain ⟨rfl, rfl⟩ := Prod.mk.inj heq
  obtain ⟨hwritten, hsize, hrange⟩ := BufWriter.writeAll_ok (BufWriter.inRange_new _) hw
  rw [BufWriter.written_new, List.nil_append, flatten_requestHeaderParts] at hwritten
  use hwritten
  have hsize' : w.buf.length = 512 := hsize.trans List.length_replicate
  rw [BufWriter.InRange, hsize'] at hrange
  use List.length_take_of_le (by rwa [hsize'])

/-! ### The pushes -/

/-- A push for which there is room. -/
theorem txPush_of_le {data : Bytes} (h : data.length ≤ rbuf.freeSz) :
  txPush rbuf data = some (rbuf.push data)
  := if_pos h

/-- After a push the ring has so much less room. -/
theorem freeSz_push {data : Bytes} :
  (rbuf.push data).freeSz = rbuf.freeSz - data.length
  := by
  rw [Rbuf.freeSz, Rbuf.freeSz, Rbuf.usedSz, Rbuf.usedSz, Rbuf.push, List.length_append,
    Nat.sub_add_eq]

/-- Two pushes that fit together, the second of which is left out when it is empty. -/
theorem txPush_txPush {header : Bytes} (h : header.length + body.length ≤ rbuf.freeSz) :
  (do
    let rbuf ← txPush rbuf header
    let rbuf ← if body.isEmpty then pure rbuf else txPush rbuf body
    pure ((.ok (), rbuf) : Except Stop Unit × Rbuf))
    = some (.ok (), rbuf.push (header ++ body))
  := by
  have hbody : body.length ≤ (rbuf.push header).freeSz := by
    rw [freeSz_push]
    omega
  simp only [txPush_of_le (Nat.le_of_add_right_le h), Option.bind_eq_bind, Option.bind_some]
  cases body with
  | nil => simp
  | cons b body =>
    simp only [List.isEmpty_cons, Bool.false_eq_true, if_false, txPush_of_le hbody,
      Option.bind_some, Option.pure_def]
    rw [Rbuf.push, Rbuf.push, Rbuf.push, List.append_assoc]

/-- Push by push or in one piece, `write_request` leaves the same ring. -/
theorem writeRequestPushes_eq (conn : Connection) :
  writeRequestPushes conn.io.rbufTx method path host contentType body
    = some (match writeRequest conn method path host contentType body with
      | .error stop => (.error stop, conn.io.rbufTx)
      | .ok conn' => (.ok (), conn'.io.rbufTx))
  := by
  rw [writeRequestPushes, writeRequest]
  cases hheader : fmtRequestHeader (List.replicate 512 0) method path host contentType
      body.length with
  | none => rfl
  | some written =>
    cases written with
    | none => rfl
    | some header =>
      obtain ⟨hdrLen, hdrBuf⟩ := header
      obtain ⟨-, hlen, -⟩ := fmtRequestHeader_some hheader
      simp only [gt_iff_lt]
      split
      · rfl
      · next hroom =>
        rw [← hlen, Nat.not_lt] at hroom
        apply txPush_txPush hroom

/-- The ways in which `write_request` ends. -/
theorem writeRequestPushes_cases (rbuf : Rbuf) (method path host contentType body : Bytes) :
  (∃ stop, writeRequestPushes rbuf method path host contentType body = some (.error stop, rbuf))
    ∨ ∃ header, header = Lines.block (requestLines method path host contentType body.length)
      ∧ header.length ≤ 512 ∧ header.length + body.length ≤ rbuf.freeSz
      ∧ writeRequestPushes rbuf method path host contentType body
        = some (.ok (), rbuf.push (header ++ body))
  := by
  rw [writeRequestPushes]
  cases hheader : fmtRequestHeader (List.replicate 512 0) method path host contentType
      body.length with
  | none => exact .inl ⟨_, rfl⟩
  | some written =>
    cases written with
    | none => exact .inl ⟨_, rfl⟩
    | some header =>
      obtain ⟨hdrLen, hdrBuf⟩ := header
      obtain ⟨hblock, hlen, hle⟩ := fmtRequestHeader_some hheader
      simp only [gt_iff_lt]
      split
      · exact .inl ⟨_, rfl⟩
      · next hroom =>
        right
        rw [← hlen, Nat.not_lt] at hroom
        use hdrBuf.take hdrLen
        rw [← hlen] at hle
        exact ⟨hblock, hle, hroom, txPush_txPush hroom⟩

/-- A header block and a body for which there is room, in the ring. -/
theorem written_push
    (hle : (Lines.block (requestLines method path host contentType body.length)).length ≤ 512)
    (hroom : (Lines.block (requestLines method path host contentType body.length)).length
      + body.length ≤ rbuf.freeSz) :
  Written rbuf
    (rbuf.push (Lines.block (requestLines method path host contentType body.length) ++ body))
    method path host contentType body
  where
  bytes := rfl
  bufsz := rfl
  usedSz_le := by
    have hpos : 0 < (Lines.block (requestLines method path host contentType body.length)).length :=
      lt_of_lt_of_le (by decide) Lines.crlf_suffix_block.length_le
    rw [Rbuf.freeSz] at hroom
    rw [Rbuf.usedSz, Rbuf.push, List.length_append, List.length_append]
    change rbuf.usedSz + _ ≤ rbuf.bufsz
    omega
  length_header_le := hle

/-- A request that is not written leaves the ring as it was, and one that is written has grown its
contents by the header block and the body. No push is made for which there is no room. -/
theorem writeRequest_allOrNothing (rbuf : Rbuf) (method path host contentType body : Bytes) :
  ∃ result rbuf',
    writeRequestPushes rbuf method path host contentType body = some (result, rbuf')
      ∧ (∀ stop, result = .error stop → rbuf' = rbuf)
      ∧ (result = .ok () → Written rbuf rbuf' method path host contentType body)
  := by
  rcases writeRequestPushes_cases rbuf method path host contentType body with
    ⟨stop, hwrite⟩ | ⟨header, hheader, hle, hroom, hwrite⟩
  · use .error stop, rbuf, hwrite
    constructor
    · intro _ _
      rfl
    · rintro ⟨⟩
  · use .ok (), rbuf.push (header ++ body), hwrite
    constructor
    · rintro _ ⟨⟩
    · intro _
      subst hheader
      apply written_push hle hroom

end FdRpc.Http

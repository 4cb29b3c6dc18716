import FiredancerRs.Rpc.Connection

/-!
# Writing a request

`write_request` and `fmt_request_header` of `fd_rpc::http`. A request that is written is pushed as
its text (`writeRequest_ok`).
-/

open FdEd25519

namespace FdRpc.Http

/-- The texts that `fmt_request_header` writes around the length of the body. -/
def requestHeaderParts (method path host contentType bodyLen : Bytes) : List Bytes :=
  [method, asBytes " ", path, asBytes " HTTP/1.1\r\nHost: ", host,
    asBytes "\r\nContent-Type: ", contentType, asBytes "\r\nContent-Length: ", bodyLen,
    asBytes "\r\nConnection: keep-alive\r\n\r\n"]

/-- `fmt_request_header`. It returns the number of bytes written and the buffer, or nothing when
they do not fit, and the outer `none` is a panic. -/
def fmtRequestHeader (buf method path host contentType : Bytes) (bodyLen : Nat) :
    Option (Option (Nat × Bytes)) := do
  let lenText ← fmtDecimal bodyLen (List.replicate 20 0)
  let w := (BufWriter.new buf).writeAll (requestHeaderParts method path host contentType lenText)
  pure (w.map fun w => (w.pos, w.buf))

/-- `write_request` -/
def writeRequest (conn : Connection) (method path host contentType body : Bytes) :
    Except Stop Connection :=
  match fmtRequestHeader (List.replicate 512 0) method path host contentType body.length with
  | none => .error (.panicked .sliceIndex)
  | some none => .error (.failed .requestTooLarge)
  | some (some (hdrLen, hdrBuf)) =>
    if conn.io.rbufTx.freeSz < hdrLen + body.length then
      .error (.failed .requestTooLarge)
    else
      .ok (conn.txPush (hdrBuf.take hdrLen ++ body))

/-! ### What is pushed -/

/-- The text of a request. -/
def httpRequest (method path host contentType body : Bytes) : Bytes :=
  (requestHeaderParts method path host contentType (Decimal.render body.length)).flatten ++ body

variable {conn conn' : Connection} {method path host contentType body : Bytes}

/-- The ways in which `write_request` ends. -/
theorem writeRequest_cases (conn : Connection) (method path host contentType body : Bytes) :
  (∃ stop, (stop = .panicked .sliceIndex ∨ stop = .failed .requestTooLarge)
      ∧ writeRequest conn method path host contentType body = .error stop)
    ∨ ∃ request, writeRequest conn method path host contentType body = .ok (conn.txPush request)
  := by
  rw [writeRequest]
  split
  · left
    use .panicked .sliceIndex
    simp
  · left
    use .failed .requestTooLarge
    simp
  · split
    · left
      use .failed .requestTooLarge
      simp
    · right
      exact ⟨_, rfl⟩

/-- A request that is written is pushed as its text. -/
theorem writeRequest_ok (hbody : body.length < 10 ^ 20)
    (h : writeRequest conn method path host contentType body = .ok conn') :
  conn' = conn.txPush (httpRequest method path host contentType body)
  := by
  have hlen : fmtDecimal body.length (List.replicate 20 0) = some (Decimal.render body.length) :=
    fmtDecimal_eq hbody List.length_replicate
  rw [writeRequest, fmtRequestHeader, hlen] at h
  simp only [Option.bind_eq_bind, Option.bind_some, Option.pure_def] at h
  cases hw : (BufWriter.new (List.replicate 512 0)).writeAll
      (requestHeaderParts method path host contentType (Decimal.render body.length)) with
  | none =>
    rw [hw] at h
    cases h
  | some w =>
    obtain ⟨hwritten, -, -⟩ := BufWriter.writeAll_ok (BufWriter.inRange_new _) hw
    rw [BufWriter.written_new, List.nil_append] at hwritten
    simp only [hw, Option.map_some] at h
    split at h
    · cases h
    · rw [httpRequest, ← hwritten]
      apply (Except.ok.inj h).symm

/-- The length of a request says how long its body is. -/
theorem length_body_eq {body' : Bytes}
    (h : httpRequest method path host contentType body
      = httpRequest method path host contentType body') :
  body.length = body'.length
  := by
  have hlen := congrArg List.length h
  simp only [httpRequest, requestHeaderParts, List.flatten_cons, List.flatten_nil,
    List.length_append, List.length_nil] at hlen
  rcases Nat.le_total body.length body'.length with hle | hle
  · have := Decimal.length_render_mono hle
    omega
  · have := Decimal.length_render_mono hle
    omega

/-- A request that is not written is too large. -/
theorem writeRequest_error {stop : Stop} (hbody : body.length < 10 ^ 20)
    (h : writeRequest conn method path host contentType body = .error stop) :
  stop = .failed .requestTooLarge
  := by
  have hlen : fmtDecimal body.length (List.replicate 20 0) = some (Decimal.render body.length) :=
    fmtDecimal_eq hbody List.length_replicate
  rw [writeRequest, fmtRequestHeader, hlen] at h
  simp only [Option.bind_eq_bind, Option.bind_some, Option.pure_def] at h
  split at h
  · next hnone => cases hnone
  · apply (Except.error.inj h).symm
  · split at h
    · apply (Except.error.inj h).symm
    · cases h

/-- A request that fits is written. -/
theorem writeRequest_of_le (hbody : body.length < 10 ^ 20)
    (hheader : (requestHeaderParts method path host contentType
      (Decimal.render body.length)).flatten.length ≤ 512)
    (hfree : 512 + body.length ≤ conn.io.rbufTx.freeSz) :
  writeRequest conn method path host contentType body
    = .ok (conn.txPush (httpRequest method path host contentType body))
  := by
  have hlen : fmtDecimal body.length (List.replicate 20 0) = some (Decimal.render body.length) :=
    fmtDecimal_eq hbody List.length_replicate
  have hnew : (BufWriter.new (List.replicate 512 0)).InRange := BufWriter.inRange_new _
  obtain ⟨w, hw⟩ := BufWriter.writeAll_of_le hnew
    (by rw [BufWriter.new, List.length_replicate, Nat.zero_add]; exact hheader)
  obtain ⟨-, hsize, hrange⟩ := BufWriter.writeAll_ok hnew hw
  rw [BufWriter.InRange, hsize, BufWriter.new, List.length_replicate] at hrange
  have hroom : ¬conn.io.rbufTx.freeSz < w.pos + body.length := by omega
  have hwrite : writeRequest conn method path host contentType body
      = .ok (conn.txPush (w.buf.take w.pos ++ body)) := by
    rw [writeRequest, fmtRequestHeader, hlen]
    simp only [Option.bind_eq_bind, Option.bind_some, Option.pure_def, hw, Option.map_some, hroom,
      if_false]
  rw [hwrite, ← writeRequest_ok hbody hwrite]

end FdRpc.Http

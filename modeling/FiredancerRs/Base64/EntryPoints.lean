import FiredancerRs.Lib.Base64
import FiredancerRs.Lib.Buffer
import FiredancerRs.Lib.Utf8

/-!
# The entry points of `fd_base64`

The functions that encode and decode into a new vector, into an existing one, into a string, and
into a buffer of the caller. The C functions are the parameter `Base64Sys`. Where these implement
RFC 4648, all entry points agree and none writes outside its buffer (`agree`).
-/

namespace FdBase64

/-- `Base64Error` -/
inductive Base64Error where
  | invalidCharacter
  | invalidLength
  | invalidPadding
  | bufferTooSmall
  | invalidInput
deriving DecidableEq, Repr

/-- `FD_BASE64_ENC_SZ`. A slice has fewer than 2^63 bytes, so the `ulong` does not overflow. -/
def encodedSize (inputLen : Nat) : Nat := (inputLen + 2) / 3 * 4

/-- `FD_BASE64_DEC_SZ` -/
def decodedSize (encodedLen : Nat) : Nat := (encodedLen + 3) / 4 * 3

/-- `fd_base64_encode` and `fd_base64_decode`: what they write at the address they are given, and
what they return. -/
structure Base64Sys where
  encode : List UInt8 → List UInt8 × Nat
  decode : List UInt8 → List UInt8 × Int

/-- A buffer after a C function has written to it from a position on. There is none when it has
written past the end. -/
def writeAt (buf : List UInt8) (start : Nat) (written : List UInt8) : Option (List UInt8) :=
  if start + written.length ≤ buf.length then some (Buffer.overwrite buf start written) else none

section Calls

variable (sys : Base64Sys)

/-- `encode` -/
def encode (input : List UInt8) : Option (List UInt8) :=
  if input = [] then
    some []
  else do
    let output ← writeAt (List.replicate (encodedSize input.length) 0) 0 (sys.encode input).1
    some (output.take (sys.encode input).2)

/-- `encode_to_vec` -/
def encodeToVec (input output : List UInt8) : Option (List UInt8) :=
  if input = [] then
    some output
  else do
    let startLen := output.length
    let output := Buffer.resize output (startLen + encodedSize input.length) 0
    let output ← writeAt output startLen (sys.encode input).1
    some (output.take (startLen + (sys.encode input).2))

/-- `encode_string`. There is no result where the bytes are not a string, since they are not
checked. -/
def encodeString (input : String) : Option String :=
  (encode sys (Utf8.bytes input)).bind Utf8.decode

/-- A byte that the classification of the errors lets pass. -/
def isBase64Byte (byte : UInt8) : Bool :=
  (0x41 ≤ byte && byte ≤ 0x5A) || (0x61 ≤ byte && byte ≤ 0x7A) || (0x30 ≤ byte && byte ≤ 0x39)
    || byte = 0x2B || byte = 0x2F || byte = 0x3D

/-- The error for an input that is not decoded, the same in each of the functions that decode. -/
def decodeError (input : List UInt8) : Base64Error :=
  if input.length % 4 ≠ 0 then .invalidLength
  else if input.all isBase64Byte then .invalidPadding
  else .invalidCharacter

/-- `decode` -/
def decode (input : List UInt8) : Option (Except Base64Error (List UInt8)) :=
  if input = [] then
    some (.ok [])
  else do
    let output ← writeAt (List.replicate (decodedSize input.length) 0) 0 (sys.decode input).1
    if (sys.decode input).2 < 0 then
      some (.error (decodeError input))
    else
      some (.ok (output.take (sys.decode input).2.toNat))

/-- `decode_to_vec`, with the vector after it. -/
def decodeToVec (input output : List UInt8) : Option (Except Base64Error Unit × List UInt8) :=
  if input = [] then
    some (.ok (), output)
  else do
    let startLen := output.length
    let output := Buffer.resize output (startLen + decodedSize input.length) 0
    let output ← writeAt output startLen (sys.decode input).1
    if (sys.decode input).2 < 0 then
      some (.error (decodeError input), output.take startLen)
    else
      some (.ok (), output.take (startLen + (sys.decode input).2.toNat))

/-- `decode_string` -/
def decodeString (input : String) : Option (Except Base64Error String) := do
  match ← decode sys (Utf8.bytes input) with
  | .error e => some (.error e)
  | .ok decodedBytes =>
    match Utf8.decode decodedBytes with
    | none => some (.error .invalidInput)
    | some s => some (.ok s)

/-- `inplace::encode`, with the buffer after it. -/
def Inplace.encode (input output : List UInt8) :
    Option (Except Base64Error Nat × List UInt8) :=
  if input = [] then
    some (.ok 0, output)
  else if output.length < encodedSize input.length then
    some (.error .bufferTooSmall, output)
  else do
    let output ← writeAt output 0 (sys.encode input).1
    some (.ok (sys.encode input).2, output)

/-- `inplace::decode`, with the buffer after it. -/
def Inplace.decode (input output : List UInt8) :
    Option (Except Base64Error Nat × List UInt8) :=
  if input = [] then
    some (.ok 0, output)
  else if output.length < decodedSize input.length then
    some (.error .bufferTooSmall, output)
  else do
    let output ← writeAt output 0 (sys.decode input).1
    if (sys.decode input).2 < 0 then
      some (.error (decodeError input), output)
    else
      some (.ok (sys.decode input).2.toNat, output)

end Calls

/-- What the C functions are documented to do: they implement RFC 4648, return how many bytes they
have written, and write at most as many as the macros say. -/
structure Base64Sys.Documented (sys : Base64Sys) : Prop where
  encode_eq : ∀ input, sys.encode input = (Base64.encode input, (Base64.encode input).length)
  length_decode_le : ∀ input, (sys.decode input).1.length ≤ decodedSize input.length
  returned_le : ∀ input, (sys.decode input).2 ≤ (sys.decode input).1.length
  decode_eq : ∀ input bytes, Base64.decode input = some bytes →
    (sys.decode input).2 = bytes.length ∧ (sys.decode input).1.take bytes.length = bytes

/-! ### Agreement -/

/-- The result of appending what is decoded to a vector, and the vector after it. -/
def appended (output : List UInt8) :
    Except Base64Error (List UInt8) → Except Base64Error Unit × List UInt8
  | .ok bytes => (.ok (), output ++ bytes)
  | .error e => (.error e, output)

/-- The functions that encode agree on an input: `encode` returns the text, and the others append it
to a vector and write it to a buffer that is large enough. -/
structure EncodersAgree (sys : Base64Sys) (input text : List UInt8) : Prop where
  encode : encode sys input = some text
  toVec : ∀ output, encodeToVec sys input output = some (output ++ text)
  inplace : ∀ output, encodedSize input.length ≤ output.length →
    Inplace.encode sys input output = some (.ok text.length, Buffer.overwrite output 0 text)
  tooSmall : ∀ output, output.length < encodedSize input.length →
    Inplace.encode sys input output = some (.error .bufferTooSmall, output)

/-- The functions that decode agree on an input: `decode` has the result, and the others append what
is decoded to a vector and write it to a buffer that is large enough, or have the same error. -/
structure DecodersAgree (sys : Base64Sys) (input : List UInt8)
    (result : Except Base64Error (List UInt8)) : Prop where
  decode : decode sys input = some result
  toVec : ∀ output, decodeToVec sys input output = some (appended output result)
  inplace : ∀ output, decodedSize input.length ≤ output.length →
    ∃ written, written.length ≤ decodedSize input.length
      ∧ Inplace.decode sys input output
          = some (result.map List.length, Buffer.overwrite output 0 written)
      ∧ ∀ bytes, result = .ok bytes → written.take bytes.length = bytes
  tooSmall : ∀ output, output.length < decodedSize input.length →
    Inplace.decode sys input output = some (.error .bufferTooSmall, output)

/-- All entry points agree, and what is encoded is decoded. -/
structure Base64Sys.Agree (sys : Base64Sys) : Prop where
  encoders : ∀ input, ∃ text, EncodersAgree sys input text
  string : ∀ input, ∃ text, encodeString sys input = some text
    ∧ FdBase64.encode sys (Utf8.bytes input) = some (Utf8.bytes text)
  decoders : ∀ input, ∃ result, DecodersAgree sys input result
  roundTrip : ∀ input,
    (FdBase64.encode sys input).bind (FdBase64.decode sys) = some (.ok input)

theorem writeAt_eq {buf : List UInt8} (written : List UInt8) {start : Nat}
    (h : start + written.length ≤ buf.length) :
  writeAt buf start written = some (Buffer.overwrite buf start written)
  := if_pos h

/-- Writing behind the end of a vector that is made longer for it: the vector stays, and what is
written follows it. -/
theorem writeAt_resize {written : List UInt8} {size : Nat} (output : List UInt8)
    (hsize : written.length ≤ size) :
  ∃ buf, writeAt (Buffer.resize output (output.length + size) 0) output.length written = some buf
    ∧ ∀ n ≤ written.length, buf.take (output.length + n) = output ++ written.take n
  := by
  have hlength : (Buffer.resize output (output.length + size) 0).length = output.length + size :=
    Buffer.length_resize
  have hkeep : (Buffer.resize output (output.length + size) 0).take output.length = output := by
    rw [Buffer.take_resize (Nat.le_refl _) (Nat.le_add_right _ _), List.take_length]
  rw [writeAt_eq _ (by omega)]
  refine ⟨_, rfl, ?_⟩
  intro n hn
  rw [Buffer.take_overwrite_add (by omega) hn, hkeep]

/-- Writing to a new vector. -/
theorem writeAt_new {written : List UInt8} {size : Nat} (hsize : written.length ≤ size) :
  ∃ buf, writeAt (List.replicate size 0) 0 written = some buf
    ∧ ∀ n ≤ written.length, buf.take n = written.take n
  := by
  obtain ⟨buf, hbuf, htake⟩ := writeAt_resize [] hsize
  use buf
  constructor
  · simpa [Buffer.resize] using hbuf
  · simpa using htake

namespace Base64Sys.Documented

variable {sys : Base64Sys} (h : sys.Documented)
include h

theorem encodersAgree (input : List UInt8) :
  EncodersAgree sys input (Base64.encode input)
  := by
  have hlength : (Base64.encode input).length = encodedSize input.length := by
    rw [Base64.length_encode, encodedSize, Nat.mul_comm]
  have hsys := h.encode_eq input
  by_cases hnil : input = []
  · subst hnil
    constructor
    · rfl
    · simp [encodeToVec, Base64.encode]
    · simp [Inplace.encode, Base64.encode, Buffer.overwrite]
    · intro output hsmall
      cases hsmall
  · constructor
    · obtain ⟨buf, hbuf, htake⟩ := writeAt_new (Nat.le_of_eq hlength)
      simp only [FdBase64.encode, if_neg hnil, hsys, hbuf, Option.bind_eq_bind, Option.bind_some]
      rw [htake _ (Nat.le_refl _), List.take_length]
    · intro output
      obtain ⟨buf, hbuf, htake⟩ := writeAt_resize output (Nat.le_of_eq hlength)
      simp only [encodeToVec, if_neg hnil, hsys, hbuf, Option.bind_eq_bind, Option.bind_some]
      rw [htake _ (Nat.le_refl _), List.take_length]
    · intro output hroom
      have hbuf : writeAt output 0 (Base64.encode input) = _ := writeAt_eq _ (by omega)
      simp only [Inplace.encode, if_neg hnil, if_neg (Nat.not_lt.mpr hroom), hsys, hbuf,
        Option.bind_eq_bind, Option.bind_some]
    · intro output hsmall
      rw [Inplace.encode, if_neg hnil, if_pos hsmall]

theorem decodersAgree_error {input : List UInt8} (hnil : input ≠ [])
    (hneg : (sys.decode input).2 < 0) :
  DecodersAgree sys input (.error (decodeError input))
  := by
  have hlength := h.length_decode_le input
  constructor
  · obtain ⟨buf, hbuf, htake⟩ := writeAt_new hlength
    simp only [FdBase64.decode, if_neg hnil, hbuf, Option.bind_eq_bind, Option.bind_some,
      if_pos hneg]
  · intro output
    obtain ⟨buf, hbuf, htake⟩ := writeAt_resize output hlength
    have hkeep := htake 0 (Nat.zero_le _)
    rw [Nat.add_zero, List.take_zero, List.append_nil] at hkeep
    simp only [decodeToVec, if_neg hnil, hbuf, Option.bind_eq_bind, Option.bind_some, if_pos hneg,
      hkeep, appended]
  · intro output hroom
    have hbuf : writeAt output 0 (sys.decode input).1 = _ := writeAt_eq _ (by omega)
    use (sys.decode input).1, hlength
    constructor
    · simp only [Inplace.decode, if_neg hnil, if_neg (Nat.not_lt.mpr hroom), hbuf,
        Option.bind_eq_bind, Option.bind_some, if_pos hneg, Except.map]
    · intro bytes hok
      cases hok
  · intro output hsmall
    rw [Inplace.decode, if_neg hnil, if_pos hsmall]

theorem decodersAgree_ok {input : List UInt8} (hnil : input ≠ [])
    (hneg : ¬ (sys.decode input).2 < 0) :
  DecodersAgree sys input (.ok ((sys.decode input).1.take (sys.decode input).2.toNat))
  := by
  have hlength := h.length_decode_le input
  have hreturned : (sys.decode input).2.toNat ≤ (sys.decode input).1.length :=
    Int.toNat_le.mpr (h.returned_le input)
  constructor
  · obtain ⟨buf, hbuf, htake⟩ := writeAt_new hlength
    simp only [FdBase64.decode, if_neg hnil, hbuf, Option.bind_eq_bind, Option.bind_some,
      if_neg hneg, htake _ hreturned]
  · intro output
    obtain ⟨buf, hbuf, htake⟩ := writeAt_resize output hlength
    simp only [decodeToVec, if_neg hnil, hbuf, Option.bind_eq_bind, Option.bind_some, if_neg hneg,
      htake _ hreturned, appended]
  · intro output hroom
    have hbuf : writeAt output 0 (sys.decode input).1 = _ := writeAt_eq _ (by omega)
    use (sys.decode input).1, hlength
    constructor
    · simp only [Inplace.decode, if_neg hnil, if_neg (Nat.not_lt.mpr hroom), hbuf,
        Option.bind_eq_bind, Option.bind_some, if_neg hneg, Except.map,
        List.length_take_of_le hreturned]
    · intro bytes hok
      cases hok
      rw [List.length_take_of_le hreturned]
  · intro output hsmall
    rw [Inplace.decode, if_neg hnil, if_pos hsmall]

theorem decodersAgree (input : List UInt8) :
  ∃ result, DecodersAgree sys input result
  := by
  by_cases hnil : input = []
  · subst hnil
    use .ok []
    constructor
    · rfl
    · simp [decodeToVec, appended]
    · intro output _
      use []
      simp [Inplace.decode, Buffer.overwrite, Except.map]
    · intro output hsmall
      cases hsmall
  · by_cases hneg : (sys.decode input).2 < 0
    · exact ⟨_, h.decodersAgree_error hnil hneg⟩
    · exact ⟨_, h.decodersAgree_ok hnil hneg⟩

/-- The text of an encoding is decoded to the bytes that it encodes. -/
theorem decode_encode (input : List UInt8) :
  FdBase64.decode sys (Base64.encode input) = some (.ok input)
  := by
  by_cases hnil : Base64.encode input = []
  · have hinput : input = [] := by
      apply Option.some.inj
      rw [← Base64.decode_encode input, hnil, Base64.decode]
    rw [FdBase64.decode, if_pos hnil, hinput]
  · obtain ⟨hreturned, htake⟩ := h.decode_eq _ _ (Base64.decode_encode input)
    have hneg : ¬ (sys.decode (Base64.encode input)).2 < 0 := by omega
    rw [(h.decodersAgree_ok hnil hneg).decode, hreturned, Int.toNat_natCast, htake]

/-- What is encoded is a string. -/
theorem encodeString_eq (input : String) :
  ∃ text, encodeString sys input = some text
    ∧ Utf8.bytes text = Base64.encode (Utf8.bytes input)
  := by
  have hascii : ∀ c ∈ Base64.encode (Utf8.bytes input), c.toNat < 128 := by
    intro c hc
    rcases Base64.isChar_of_mem_encode hc with hmem | rfl
    · apply Base64.lt_of_mem_alphabet hmem
    · decide
  obtain ⟨text, htext⟩ := Utf8.exists_bytes hascii
  use text
  rw [encodeString, (h.encodersAgree _).encode, Option.bind_some, ← htext, Utf8.decode_bytes]
  exact ⟨rfl, rfl⟩

/-- A string that is encoded as one is decoded to itself. -/
theorem decodeString_encodeString (input : String) :
  (encodeString sys input).bind (decodeString sys) = some (.ok input)
  := by
  obtain ⟨text, htext, hbytes⟩ := h.encodeString_eq input
  have hdecode : FdBase64.decode sys (Utf8.bytes text) = some (.ok (Utf8.bytes input)) := by
    rw [hbytes, h.decode_encode]
  rw [htext, Option.bind_some, decodeString, hdecode]
  simp only [Option.bind_eq_bind, Option.bind_some, Utf8.decode_bytes]

end Base64Sys.Documented

/-- Where the C functions implement RFC 4648, all entry points agree, and none writes outside its
buffer. -/
theorem entryPoints_agree (sys : Base64Sys) (h : sys.Documented) :
  sys.Agree
  := by
  constructor
  · intro input
    exact ⟨_, h.encodersAgree input⟩
  · intro input
    obtain ⟨text, htext, hbytes⟩ := h.encodeString_eq input
    use text, htext
    rw [hbytes, (h.encodersAgree _).encode]
  · apply h.decodersAgree
  · intro input
    rw [(h.encodersAgree input).encode, Option.bind_some, h.decode_encode]

/-- A library that decodes exactly the encodings. -/
def rfc4648 : Base64Sys where
  encode input := (Base64.encode input, (Base64.encode input).length)
  decode input :=
    match Base64.decode input with
    | some bytes => (bytes, bytes.length)
    | none => ([], -1)

theorem rfc4648_documented :
  rfc4648.Documented
  := by
  have hdecode : ∀ input bytes, Base64.decode input = some bytes →
      rfc4648.decode input = (bytes, (bytes.length : Int)) := by
    intro input bytes h
    simp only [rfc4648, h]
  have hnone : ∀ input, Base64.decode input = none → rfc4648.decode input = ([], -1) := by
    intro input h
    simp only [rfc4648, h]
  constructor
  · intro input
    rfl
  · intro input
    cases h : Base64.decode input with
    | none =>
      rw [hnone input h]
      apply Nat.zero_le
    | some bytes =>
      have hlength := Base64.length_decode h
      rw [hdecode input bytes h, decodedSize]
      apply Nat.le_trans hlength
      omega
  · intro input
    cases h : Base64.decode input with
    | none =>
      rw [hnone input h]
      decide
    | some bytes =>
      apply Int.le_of_eq
      rw [hdecode input bytes h]
  · intro input bytes h
    rw [hdecode input bytes h]
    exact ⟨rfl, List.take_length⟩

theorem entryPoints_agree_rfc4648 :
  rfc4648.Agree
  := entryPoints_agree rfc4648 rfc4648_documented

end FdBase64

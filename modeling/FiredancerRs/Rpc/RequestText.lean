import FiredancerRs.Lib.Except
import FiredancerRs.Lib.Memory
import FiredancerRs.Lib.Utf8
import FiredancerRs.Rpc.Batch
import FiredancerRs.Rpc.Params
import FiredancerRs.Rpc.Response

/-!
# The text of a request

What `serialize_request` writes is read back by the scanner: the text is an object, with the id,
the method and the parameters as its members (`serializeRequest_spec`). All that it writes is in
its buffer, also when the text does not fit.
-/

open Json

namespace FdRpc

open JsonScan

/-! ### Memory -/

namespace BufWriter

/-- The memory after the writes of the macro `push!`, for a buffer at an address: each write that
fits copies its data to the position, and the others are not reached. -/
def pushed (base : Nat) (w : BufWriter) (mem : Memory) : List Bytes → Memory
  | [] => mem
  | data :: rest =>
    match w.write data with
    | (false, _) => mem
    | (true, w') => w'.pushed base (mem.write (base + w.pos) data) rest

variable {base : Nat} {mem : Memory}

/-- A write that fits leaves the same bytes in the buffer as in the memory. -/
theorem read_write {w w' : BufWriter} {data : Bytes}
    (hmem : mem.read base w.buf.length = w.buf) (h : w.write data = (true, w')) :
  (mem.write (base + w.pos) data).read base w'.buf.length = w'.buf
    ∧ w'.buf.length = w.buf.length ∧ w.pos + data.length ≤ w.buf.length
  := by
  rw [write] at h
  split at h
  · cases h
  · next hroom =>
    have hle : w.pos + data.length ≤ w.buf.length := Nat.le_of_not_gt hroom
    obtain ⟨-, rfl⟩ := Prod.mk.inj h
    have hread := @Memory.read_write_within mem base _ data _ hle
    rw [hmem] at hread
    have hlen := congrArg List.length hread
    rw [Memory.length_read] at hlen
    dsimp only
    rw [← hlen]
    exact ⟨hread, rfl, hle⟩

/-- The writes leave the same bytes in the buffer as in the memory, and they leave the memory
around the buffer as it was. -/
theorem pushed_spec :
  ∀ {parts : List Bytes} {w : BufWriter} {mem : Memory}, w.InRange →
    mem.read base w.buf.length = w.buf →
      (∀ a, a < base ∨ base + w.buf.length ≤ a → w.pushed base mem parts a = mem a)
        ∧ ∀ w', w.writeAll parts = some w' →
          (w.pushed base mem parts).read base w.buf.length = w'.buf
  | [], w, mem, _, hmem => by
      refine ⟨fun _ _ => rfl, ?_⟩
      rintro w' hw'
      obtain rfl := Option.some.inj hw'
      apply hmem
  | data :: rest, w, mem, hw, hmem => by
      cases hwrite : w.write data with
      | mk fits w₁ =>
        cases fits with
        | false =>
          simp only [pushed, writeAll, hwrite]
          refine ⟨fun _ _ => trivial, ?_⟩
          rintro w' ⟨⟩
        | true =>
          obtain ⟨hread, hlen, hle⟩ := read_write hmem hwrite
          obtain ⟨-, -, hw₁⟩ := write_ok hw hwrite
          obtain ⟨hframe, hrest⟩ := @pushed_spec rest w₁ _ hw₁ hread
          simp only [pushed, writeAll, hwrite]
          rw [hlen] at hframe hrest
          refine ⟨?_, hrest⟩
          intro a ha
          rw [hframe a ha]
          rcases ha with hlt | hge
          · apply Memory.write_of_lt
            omega
          · apply Memory.write_of_ge
            omega

end BufWriter

/-- The memory that `serialize_request` leaves, for a buffer at an address. -/
def serializeRequestMemory (base : Nat) (mem : Memory) (buf method params : Bytes) (id : UInt64) :
    Option Memory := do
  let idText ← fmtU64 id (List.replicate 20 0)
  pure ((BufWriter.new buf).pushed base mem (requestParts idText method params))

/-! ### The value of a request -/

/-- The object that a request is. -/
def requestValue (id : UInt64) (method : Bytes) (params : Value) : Value :=
  .object
    (.more (.ofAscii (asBytes "jsonrpc")) .empty (.string (.ofAscii (asBytes "2.0"))) .empty
      (.more (.ofAscii (asBytes "id")) .empty (.number (.ofNat id.toNat)) .empty
        (.more (.ofAscii (asBytes "method")) .empty (.string (.ofAscii method)) .empty
          (.last (.ofAscii (asBytes "params")) .empty params .empty))))

/-- The text has no bytes that a string escapes. -/
def Unescaped (text : Bytes) : Prop :=
  ∀ c ∈ text, Ascii.space ≤ c ∧ c ≠ Ascii.quote ∧ c ≠ Ascii.backslash

theorem render_requestValue {id : UInt64} {method : Bytes} {params : Value}
    (h : Unescaped method) :
  (requestValue id method params).render = requestText id method params.render
  := by
  have hmethod : (Str.ofAscii method).render = Ascii.quote :: (method ++ [Ascii.quote]) := by
    rw [Str.render, Str.raw_ofAscii_of_unescaped h]
  simp only [requestValue, Value.render, Members.render, Number.render_ofNat, hmethod, requestText,
    requestParts, List.flatten_cons, List.flatten_nil, Space.empty, List.nil_append,
    List.append_nil, List.append_assoc, List.cons_append]
  rfl

/-- The value that the scan is at has the given bytes. -/
def AtText (s : JsonScan) (u : Bytes) : Prop :=
  ∃ s', s.skipValue = some (true, s') ∧ slice s.data s.pos s'.pos = some u

/-- A text is a request: it is JSON, and the scanner finds the id, the method and the parameters
in it. -/
structure IsRequest (id : UInt64) (method params text : Bytes) : Prop where
  valid : ∃ t : Text, t.render = text
  id : ∃ s, (JsonScan.new text).bind (·.field (asBytes "id")) = some (some s)
    ∧ AtText s (Decimal.render id.toNat)
  method : ∃ s, (JsonScan.new text).bind (·.field (asBytes "method")) = some (some s)
    ∧ s.asStr = some (some method)
  params : ∃ s, (JsonScan.new text).bind (·.field (asBytes "params")) = some (some s)
    ∧ AtText s params

/-- The value of a member is at its text. -/
theorem atText_member {data : Bytes} {m : Member} (h : m.value.render ++ m.after <:+ data)
    (hm : Delimited m.after) :
  AtText (atMember data m) m.value.render
  := by
  refine ⟨facing data m.after, ?_, ?_⟩
  · apply skipValue_value h (m.value.stops_render m.after).dropWhile hm
  · apply slice_facing h

/-- In the text of a value, `field` finds the member that is the first with the name. -/
theorem new_field {v : Value} {name : Bytes} {m : Member}
    (hfind : ((v.members []).getD []).find? (fun m => m.name.raw = name) = some m) :
  (JsonScan.new v.render).bind (·.field name) = some (some (atMember v.render m))
    ∧ m.value.render ++ m.after <:+ v.render ∧ Delimited m.after
  := by
  have htext : (⟨.empty, v, .empty⟩ : Text).render = v.render := List.append_nil v.render
  have hnew := new_text ⟨.empty, v, .empty⟩
  have hsuffix : v.render ++ [] <:+ v.render := by rw [List.append_nil]
  obtain ⟨hmember, hdelimited⟩ := Value.find?_member hfind
  rw [htext] at hnew
  rw [hnew, Option.bind_some]
  refine ⟨?_, hmember.trans hsuffix, hdelimited⟩
  change (facing v.render (v.render ++ [])).field name = _
  rw [field_value hsuffix, hfind]
  rfl

/-- The text of a request is one. -/
theorem isRequest_requestText {id : UInt64} {method : Bytes} {params : Value}
    (h : Unescaped method) (hutf8 : fromUtf8 method = some method) :
  IsRequest id method params.render (requestText id method params.render)
  := by
  rw [← render_requestValue h]
  -- the members have other names, which are compared with the one that is looked up
  obtain ⟨hid, hidSuffix, hidDelimited⟩ :=
    @new_field (requestValue id method params) (asBytes "id")
      ⟨.ofAscii (asBytes "id"), .number (.ofNat id.toNat), _⟩ rfl
  obtain ⟨hmethod, hmethodSuffix, -⟩ :=
    @new_field (requestValue id method params) (asBytes "method")
      ⟨.ofAscii (asBytes "method"), .string (.ofAscii method), _⟩ rfl
  obtain ⟨hparams, hparamsSuffix, hparamsDelimited⟩ :=
    @new_field (requestValue id method params) (asBytes "params")
      ⟨.ofAscii (asBytes "params"), params, _⟩ rfl
  constructor
  · exact ⟨⟨.empty, requestValue id method params, .empty⟩, List.append_nil _⟩
  · refine ⟨_, hid, ?_⟩
    rw [← Number.render_ofNat]
    apply atText_member hidSuffix hidDelimited
  · refine ⟨_, hmethod, ?_⟩
    rw [atMember, asStr_facing hmethodSuffix, readStr, Str.raw_ofAscii_of_unescaped h, hutf8]
  · exact ⟨_, hparams, atText_member hparamsSuffix hparamsDelimited⟩

/-! ### Strings -/

theorem fromUtf8_asBytes (s : String) :
  fromUtf8 (asBytes s) = some (asBytes s)
  := by
  rw [fromUtf8, asBytes, Array.toArray_toList, if_pos (Utf8.validateUTF8_toUTF8 s)]

/-- A string without quotes, backslashes and control characters has no bytes that a string
escapes. -/
theorem unescaped_asBytes {s : String}
    (h : ∀ c ∈ s.toList, c ≠ '"' ∧ c ≠ '\\' ∧ 0x20 ≤ c.toNat) :
  Unescaped (asBytes s)
  := by
  intro b hb
  rw [UInt8.le_iff_toNat_le]
  rcases Utf8.mem_toUTF8 hb with ⟨c, hc, heq⟩ | hge
  · obtain ⟨hquote, hbackslash, hcontrol⟩ := h c hc
    refine ⟨heq.symm ▸ hcontrol, ?_, ?_⟩
    · rintro rfl
      apply hquote (Char.ext (UInt32.toNat_inj.mp heq.symm))
    · rintro rfl
      apply hbackslash (Char.ext (UInt32.toNat_inj.mp heq.symm))
  · refine ⟨Nat.le_trans (by decide) hge, ?_, ?_⟩
    · rintro rfl
      exact absurd hge (by decide)
    · rintro rfl
      exact absurd hge (by decide)

/-! ### Serializing -/

/-- A request is serialized exactly when its text fits in the buffer, and what is written is then
read back by the scanner. No byte outside the buffer is written. -/
theorem serializeRequest_spec {buf : Bytes} {id : UInt64} {method : String} {params : Value}
    (hmethod : ∀ c ∈ method.toList, c ≠ '"' ∧ c ≠ '\\' ∧ 0x20 ≤ c.toNat) :
  ∃ result, serializeRequest buf (asBytes method) params.render id = some result
    ∧ (result.isOk = true
        ↔ (requestText id (asBytes method) params.render).length ≤ buf.length)
    ∧ (∀ len buf', result = .ok (len, buf') →
        len ≤ buf.length ∧ IsRequest id (asBytes method) params.render (buf'.take len))
    ∧ (∀ e, result = .error e → e = .serializeTooLarge)
    ∧ ∀ base mem, mem.read base buf.length = buf →
        ∃ mem', serializeRequestMemory base mem buf (asBytes method) params.render id = some mem'
          ∧ (∀ a, a < base ∨ base + buf.length ≤ a → mem' a = mem a)
          ∧ ∀ len buf', result = .ok (len, buf') → mem'.read base buf.length = buf'
  := by
  have hfits := @writeAll_requestParts_isSome_iff buf (asBytes method) params.render id
  have hmemory : ∀ base mem, serializeRequestMemory base mem buf (asBytes method) params.render id
      = some ((BufWriter.new buf).pushed base mem
          (requestParts (Decimal.render id.toNat) (asBytes method) params.render)) := by
    intro base mem
    rw [serializeRequestMemory, fmtU64_eq id List.length_replicate]
    rfl
  rw [serializeRequest_eq]
  cases hw : (BufWriter.new buf).writeAll
      (requestParts (Decimal.render id.toNat) (asBytes method) params.render) with
  | none =>
    rw [hw] at hfits
    refine ⟨.error .serializeTooLarge, rfl, hfits, ?_, ?_, ?_⟩
    · rintro len buf' ⟨⟩
    · rintro e ⟨⟩
      rfl
    · intro base mem hmem
      obtain ⟨hframe, -⟩ := BufWriter.pushed_spec (BufWriter.inRange_new buf) hmem
      refine ⟨_, hmemory base mem, hframe, ?_⟩
      rintro len buf' ⟨⟩
  | some w =>
    rw [hw] at hfits
    refine ⟨.ok (w.pos, w.buf), rfl, hfits, ?_, ?_, ?_⟩
    · rintro len buf' ⟨⟩
      obtain ⟨hwritten, -, hpos⟩ := writeAll_requestParts hw
      refine ⟨hpos, ?_⟩
      rw [BufWriter.written] at hwritten
      rw [hwritten]
      apply isRequest_requestText (unescaped_asBytes hmethod) (fromUtf8_asBytes method)
    · rintro e ⟨⟩
    · intro base mem hmem
      obtain ⟨hframe, hread⟩ := BufWriter.pushed_spec (BufWriter.inRange_new buf) hmem
      refine ⟨_, hmemory base mem, hframe, ?_⟩
      rintro len buf' ⟨⟩
      apply hread w hw

theorem serializeRequest_getSlot :
  ∃ len buf',
    serializeRequest (List.replicate 64 0) (asBytes "getSlot") (asBytes "[]") 7
        = some (.ok (len, buf'))
      ∧ IsRequest 7 (asBytes "getSlot") (asBytes "[]") (buf'.take len)
  := by
  obtain ⟨result, hresult, hok, hrequest, -⟩ :=
    @serializeRequest_spec (List.replicate 64 0) 7 "getSlot" (.emptyArray .empty)
      (List.forall_iff_forall_mem.mp (by decide))
  have hfits : (requestText 7 (asBytes "getSlot") (Value.emptyArray .empty).render).length
      ≤ (List.replicate 64 (0 : UInt8)).length := by decide
  obtain ⟨⟨len, buf'⟩, rfl⟩ := Except.isOk_iff_exists.mp (hok.mpr hfits)
  exact ⟨len, buf', hresult, (hrequest len buf' rfl).2⟩

end FdRpc

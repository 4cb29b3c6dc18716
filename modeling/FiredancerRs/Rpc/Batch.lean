import FiredancerRs.Rpc.Error

/-!
# Batches of requests

`BatchEntry`, `SolanaRpcClient::serialize_batch` and `BatchResults`. `none` is a panic. The
client's counter of ids is passed along, since it has advanced even when serializing fails.
-/

namespace FdRpc

/-- `BatchEntry` -/
structure BatchEntry where
  method : Bytes
  params : Bytes
  paramsLen : Nat
  length_params : params.length = 256
  paramsLen_le : paramsLen ≤ 256
deriving DecidableEq

/-- `BatchEntry::raw` -/
def BatchEntry.raw (method params : Bytes) : BatchEntry where
  method := method
  params := params.take 256 ++ List.replicate (256 - params.length) 0
  paramsLen := min params.length 256
  length_params := by
    rw [List.length_append, List.length_take, List.length_replicate]
    omega
  paramsLen_le := Nat.min_le_right _ _

/-- `BatchEntry::params` -/
def BatchEntry.paramsText (entry : BatchEntry) : Bytes :=
  if entry.method = asBytes "getHealth" ∨ entry.method = asBytes "getVersion" then
    asBytes "[]"
  else
    entry.params.take entry.paramsLen

/-- The loop of `serialize_batch`, from the entry at index `i` on. -/
def serializeEntries (w : BufWriter) (i : Nat) (nextId : UInt64) :
    List BatchEntry → Option (Option BufWriter × UInt64)
  | [] => some (some w, nextId)
  | entry :: entries =>
    match w.writeAll (if i > 0 then [asBytes ","] else []) with
    | none => some (none, nextId)
    | some w => do
      let idText ← fmtU64 nextId (List.replicate 20 0)
      match w.writeAll (requestParts idText entry.method entry.paramsText) with
      | none => some (none, nextId + 1)
      | some w => serializeEntries w (i + 1) (nextId + 1) entries

/-- `SolanaRpcClient::serialize_batch`. It returns the number of bytes written and the buffer,
and the next id. -/
def serializeBatch (nextId : UInt64) (buf : Bytes) (entries : List BatchEntry) :
    Option (Except RpcError (Nat × Bytes) × UInt64) :=
  match (BufWriter.new buf).writeAll [asBytes "["] with
  | none => some (.error (.jsonRpc .serializeTooLarge), nextId)
  | some w => do
    let (w, nextId) ← serializeEntries w 0 nextId entries
    match w.bind fun w => w.writeAll [asBytes "]"] with
    | none => some (.error (.jsonRpc .serializeTooLarge), nextId)
    | some w => some (.ok (w.pos, w.buf), nextId)

/-- `parse_batch_item` -/
def parseBatchItem (item : JsonScan) : Option (Except JsonRpcError JsonScan) := resultOf item

/-- `BatchResults` -/
structure BatchResults where
  data : Bytes
deriving DecidableEq, Repr

/-- `BatchResults::get` -/
def BatchResults.get (results : BatchResults) (index : Nat) :
    Option (Except JsonRpcError JsonScan) := do
  let scan ← JsonScan.new results.data
  match ← scan.index index with
  | none => pure (.error (.missingField "batch index"))
  | some item => parseBatchItem item

/-- The size of the buffer that `batch` serializes into. -/
def batchRequestBufSz : Nat := 8192

/-! ### What is written -/

/-- The id of the entry at an index, when the first entry has the id `nextId`. -/
def entryId (nextId : UInt64) (i : Nat) : UInt64 := nextId + UInt64.ofNat i

/-- The text of a request. -/
def requestText (id : UInt64) (method params : Bytes) : Bytes :=
  (requestParts (Decimal.render id.toNat) method params).flatten

theorem length_requestText (id : UInt64) (method params : Bytes) :
  (requestText id method params).length ≤ 65 + method.length + params.length
  := by
  have hlt := id.toNat_lt
  have hid : (Decimal.render id.toNat).length ≤ 20 := Decimal.length_render_le (by omega) (by decide)
  have hopen : (asBytes "\x7b\"jsonrpc\":\"2.0\",\"id\":").length = 22 := by decide
  have hmethod : (asBytes ",\"method\":\"").length = 11 := by decide
  have hparams : (asBytes "\",\"params\":").length = 11 := by decide
  have hclose : (asBytes "\x7d").length = 1 := by decide
  simp only [requestText, requestParts, List.flatten_cons, List.flatten_nil, List.length_append,
    List.length_nil]
  omega

section Serialize

variable {buf buf' method params : Bytes} {id : UInt64} {len : Nat}

/-- A request is serialized by the writes of its parts. -/
theorem serializeRequest_eq (buf method params : Bytes) (id : UInt64) :
  serializeRequest buf method params id
    = some (((BufWriter.new buf).writeAll
        (requestParts (Decimal.render id.toNat) method params)).elim
          (.error .serializeTooLarge) fun w => .ok (w.pos, w.buf))
  := by
  rw [serializeRequest, fmtU64_eq id List.length_replicate, Option.bind_eq_bind, Option.bind_some]
  cases (BufWriter.new buf).writeAll (requestParts (Decimal.render id.toNat) method params) <;> rfl

/-- The parts of a request are written when its text fits, and its text is then in the buffer. -/
theorem writeAll_requestParts {w : BufWriter}
    (h : (BufWriter.new buf).writeAll (requestParts (Decimal.render id.toNat) method params)
      = some w) :
  w.written = requestText id method params ∧ w.buf.length = buf.length ∧ w.pos ≤ buf.length
  := by
  obtain ⟨hwritten, hsize, hrange⟩ := BufWriter.writeAll_ok (BufWriter.inRange_new buf) h
  exact ⟨hwritten, hsize, hsize ▸ hrange⟩

/-- The parts of a request are written exactly when its text fits. -/
theorem writeAll_requestParts_isSome_iff :
  ((BufWriter.new buf).writeAll
      (requestParts (Decimal.render id.toNat) method params)).isSome = true
    ↔ (requestText id method params).length ≤ buf.length
  := by
  rw [Option.isSome_iff_exists]
  constructor
  · rintro ⟨w, hw⟩
    obtain ⟨hwritten, hsize, hpos⟩ := writeAll_requestParts hw
    rw [← hwritten, BufWriter.written, ← hsize]
    apply List.length_take_le' _ _
  · intro hle
    apply BufWriter.writeAll_of_le (BufWriter.inRange_new buf)
      (by rw [BufWriter.new, Nat.zero_add]; exact hle)

/-- What `serialize_request` writes is the text of the request, and it fits. -/
theorem serializeRequest_ok
    (h : serializeRequest buf method params id = some (.ok (len, buf'))) :
  buf'.take len = requestText id method params ∧ (requestText id method params).length ≤ buf.length
  := by
  rw [serializeRequest_eq] at h
  cases hw : (BufWriter.new buf).writeAll (requestParts (Decimal.render id.toNat) method params) with
  | none =>
    rw [hw] at h
    cases h
  | some w =>
    rw [hw] at h
    cases h
    exact ⟨(writeAll_requestParts hw).1, writeAll_requestParts_isSome_iff.mp (by rw [hw]; rfl)⟩

/-- A request that fits is serialized. -/
theorem serializeRequest_of_le (h : (requestText id method params).length ≤ buf.length) :
  ∃ len buf', serializeRequest buf method params id = some (.ok (len, buf'))
  := by
  obtain ⟨w, hw⟩ := Option.isSome_iff_exists.mp (writeAll_requestParts_isSome_iff.mpr h)
  use w.pos, w.buf
  rw [serializeRequest_eq, hw]
  rfl

/-- A request that does not fit is refused. -/
theorem serializeRequest_of_lt (h : buf.length < (requestText id method params).length) :
  serializeRequest buf method params id = some (.error .serializeTooLarge)
  := by
  have hnone := (not_congr writeAll_requestParts_isSome_iff).mpr (Nat.not_le.mpr h)
  rw [Option.not_isSome_iff_eq_none] at hnone
  rw [serializeRequest_eq, hnone]
  rfl

end Serialize

/-- The texts of the entries from an index on, each but the first of all after a comma. -/
def entriesText (nextId : UInt64) : Nat → List BatchEntry → Bytes
  | _, [] => []
  | i, entry :: entries =>
    (if i > 0 then asBytes "," else [])
      ++ (requestText (entryId nextId i) entry.method entry.paramsText
        ++ entriesText nextId (i + 1) entries)

/-- The loop appends the texts of the entries. -/
theorem serializeEntries_ok {first : UInt64} :
  ∀ {entries : List BatchEntry} {i : Nat} {w w' : BufWriter} {nextId : UInt64}, w.InRange →
    serializeEntries w i (entryId first i) entries = some (some w', nextId) →
      w'.written = w.written ++ entriesText first i entries ∧ w'.buf.length = w.buf.length
        ∧ w'.InRange
  | [], i, w, w', nextId, hw, h => by
      obtain ⟨rfl, -⟩ : w = w' ∧ _ := by simpa [serializeEntries] using h
      rw [entriesText, List.append_nil]
      exact ⟨rfl, rfl, hw⟩
  | entry :: entries, i, w, w', nextId, hw, h => by
      have hid : entryId first i + 1 = entryId first (i + 1) := by
        rw [entryId, entryId, UInt64.ofNat_add, UInt64.add_assoc]
        rfl
      rw [serializeEntries] at h
      split at h
      · cases h
      next w₁ hcomma =>
      rw [fmtU64_eq _ (by simp)] at h
      change (match w₁.writeAll (requestParts (Decimal.render (entryId first i).toNat) _ _) with
        | none => _
        | some w => _) = _ at h
      split at h
      · cases h
      next w₂ hrequest =>
      rw [hid] at h
      obtain ⟨hwritten₁, hlen₁, hrange₁⟩ := BufWriter.writeAll_ok hw hcomma
      obtain ⟨hwritten₂, hlen₂, hrange₂⟩ := BufWriter.writeAll_ok hrange₁ hrequest
      obtain ⟨hwritten, hlen, hrange⟩ := serializeEntries_ok hrange₂ h
      refine ⟨?_, by rw [hlen, hlen₂, hlen₁], hrange⟩
      rw [hwritten, hwritten₂, hwritten₁, entriesText, requestText, apply_ite List.flatten]
      simp only [List.append_assoc, List.flatten_singleton, List.flatten_nil]

/-- What `serialize_batch` writes: an array of requests, with the id `entryId nextId i` in the
request of the entry at index `i`. -/
theorem serializeBatch_ok {nextId nextId' : UInt64} {buf buf' : Bytes}
    {entries : List BatchEntry} {len : Nat}
    (h : serializeBatch nextId buf entries = some (.ok (len, buf'), nextId')) :
  buf'.take len = asBytes "[" ++ (entriesText nextId 0 entries ++ asBytes "]")
    ∧ buf'.length = buf.length ∧ len ≤ buf'.length
  := by
  have hid : entryId nextId 0 = nextId := by simp [entryId]
  rw [serializeBatch] at h
  split at h
  · cases h
  next w₁ hopen =>
  obtain ⟨⟨w₂, nextId₂⟩, hentries, h⟩ := Option.bind_eq_some_iff.mp h
  rw [← hid] at hentries
  cases w₂ with
  | none => cases h
  | some w₂ =>
    change (match w₂.writeAll [asBytes "]"] with
      | none => _
      | some w => some (Except.ok (w.pos, w.buf), nextId₂)) = _ at h
    cases hclose : w₂.writeAll [asBytes "]"] with
    | none =>
      rw [hclose] at h
      cases h
    | some w₃ =>
      rw [hclose] at h
      obtain ⟨⟨rfl, rfl⟩, -⟩ : (w₃.pos = len ∧ w₃.buf = buf') ∧ _ := by simpa using h
      obtain ⟨hwritten₁, hlen₁, hrange₁⟩ :=
        BufWriter.writeAll_ok (BufWriter.inRange_new buf) hopen
      obtain ⟨hwritten₂, hlen₂, hrange₂⟩ := serializeEntries_ok hrange₁ hentries
      obtain ⟨hwritten₃, hlen₃, hrange₃⟩ := BufWriter.writeAll_ok hrange₂ hclose
      refine ⟨?_, by rw [hlen₃, hlen₂, hlen₁]; rfl, hrange₃⟩
      apply hwritten₃.trans
      rw [hwritten₂, hwritten₁]
      simp

/-- The loop goes through when the texts of the entries fit. -/
theorem serializeEntries_of_le {first : UInt64} :
  ∀ {entries : List BatchEntry} {i : Nat} {w : BufWriter}, w.InRange →
    w.pos + (entriesText first i entries).length ≤ w.buf.length →
      ∃ w' nextId, serializeEntries w i (entryId first i) entries = some (some w', nextId)
  | [], i, w, _, _ => ⟨w, _, rfl⟩
  | entry :: entries, i, w, hw, hle => by
      have hid : entryId first i + 1 = entryId first (i + 1) := by
        rw [entryId, entryId, UInt64.ofNat_add, UInt64.add_assoc]
        rfl
      rw [entriesText, List.length_append, List.length_append] at hle
      obtain ⟨w₁, hcomma⟩ := @BufWriter.writeAll_of_le (if i > 0 then [asBytes ","] else []) w hw
        (by rw [apply_ite List.flatten, List.flatten_singleton, List.flatten_nil]; omega)
      obtain ⟨hwritten₁, hlen₁, hrange₁⟩ := BufWriter.writeAll_ok hw hcomma
      have hpos₁ := congrArg List.length hwritten₁
      rw [List.length_append, BufWriter.length_written hrange₁, BufWriter.length_written hw,
        apply_ite List.flatten, List.flatten_singleton, List.flatten_nil] at hpos₁
      obtain ⟨w₂, hrequest⟩ := @BufWriter.writeAll_of_le
        (requestParts (Decimal.render (entryId first i).toNat) entry.method entry.paramsText) w₁
        hrange₁ (by rw [← requestText]; omega)
      obtain ⟨hwritten₂, hlen₂, hrange₂⟩ := BufWriter.writeAll_ok hrange₁ hrequest
      have hpos₂ := congrArg List.length hwritten₂
      rw [List.length_append, BufWriter.length_written hrange₂, BufWriter.length_written hrange₁,
        ← requestText] at hpos₂
      obtain ⟨w', nextId, hrest⟩ :=
        @serializeEntries_of_le first entries (i + 1) w₂ hrange₂ (by omega)
      use w', nextId
      rw [serializeEntries, hcomma]
      dsimp only
      rw [fmtU64_eq _ List.length_replicate]
      change (match w₁.writeAll (requestParts (Decimal.render (entryId first i).toNat) _ _) with
        | none => _
        | some w => _) = _
      rw [hrequest]
      dsimp only
      rw [hid, hrest]

/-- The length of what `serialize_batch` has to write. -/
def batchLength (nextId : UInt64) (entries : List BatchEntry) : Nat :=
  (entriesText nextId 0 entries).length + 2

/-- A batch that fits is serialized. -/
theorem serializeBatch_of_le {nextId : UInt64} {buf : Bytes} {entries : List BatchEntry}
    (h : batchLength nextId entries ≤ buf.length) :
  ∃ len buf' nextId', serializeBatch nextId buf entries = some (.ok (len, buf'), nextId')
  := by
  have hid : entryId nextId 0 = nextId := by simp [entryId]
  have hnew : (BufWriter.new buf).InRange := BufWriter.inRange_new buf
  have hopen : (asBytes "[").length = 1 := by decide
  have hclose : (asBytes "]").length = 1 := by decide
  rw [batchLength] at h
  obtain ⟨w₁, hw₁⟩ := @BufWriter.writeAll_of_le [asBytes "["] _ hnew
    (by
      change 0 + [asBytes "["].flatten.length ≤ buf.length
      rw [List.flatten_singleton, hopen]
      omega)
  obtain ⟨hwritten₁, hlen₁, hrange₁⟩ := BufWriter.writeAll_ok hnew hw₁
  have hpos₁ := congrArg List.length hwritten₁
  rw [BufWriter.length_written hrange₁, BufWriter.written_new, List.nil_append,
    List.flatten_singleton, hopen] at hpos₁
  have hsize : w₁.buf.length = buf.length := hlen₁
  obtain ⟨w₂, nextId', hentries⟩ := @serializeEntries_of_le nextId entries 0 w₁ hrange₁ (by omega)
  obtain ⟨hwritten₂, hlen₂, hrange₂⟩ := serializeEntries_ok hrange₁ hentries
  have hpos₂ := congrArg List.length hwritten₂
  rw [BufWriter.length_written hrange₂, List.length_append, BufWriter.length_written hrange₁]
    at hpos₂
  obtain ⟨w₃, hw₃⟩ := @BufWriter.writeAll_of_le [asBytes "]"] _ hrange₂
    (by rw [List.flatten_singleton, hclose]; omega)
  use w₃.pos, w₃.buf, nextId'
  rw [hid] at hentries
  simp [serializeBatch, hw₁, hentries, hw₃]

/-- The loop does not panic. -/
theorem serializeEntries_returns :
  ∀ (w : BufWriter) (i : Nat) (nextId : UInt64) (entries : List BatchEntry),
    ∃ r, serializeEntries w i nextId entries = some r
  | _, _, _, [] => ⟨_, rfl⟩
  | w, i, nextId, entry :: entries => by
      rw [serializeEntries]
      split
      · exact ⟨_, rfl⟩
      · next w₁ _ =>
        rw [fmtU64_eq _ List.length_replicate]
        change ∃ r, (match w₁.writeAll (requestParts (Decimal.render nextId.toNat) _ _) with
          | none => _
          | some w => _) = some r
        split
        · exact ⟨_, rfl⟩
        · apply serializeEntries_returns

/-- A batch that does not fit is rejected. -/
theorem serializeBatch_error {nextId : UInt64} {buf : Bytes} {entries : List BatchEntry}
    (h : buf.length < batchLength nextId entries) :
  ∃ nextId', serializeBatch nextId buf entries
    = some (.error (.jsonRpc .serializeTooLarge), nextId')
  := by
  have htoo : ∀ len buf' nextId',
      serializeBatch nextId buf entries ≠ some (.ok (len, buf'), nextId') := by
    intro len buf' nextId' hok
    obtain ⟨hwritten, hlen, hle⟩ := serializeBatch_ok hok
    have hlength := congrArg List.length hwritten
    rw [List.length_take_of_le hle, List.length_append, List.length_append] at hlength
    have hopen : (asBytes "[").length = 1 := by decide
    have hclose : (asBytes "]").length = 1 := by decide
    rw [batchLength] at h
    omega
  cases hopen : (BufWriter.new buf).writeAll [asBytes "["] with
  | none => exact ⟨nextId, by rw [serializeBatch, hopen]⟩
  | some w =>
    obtain ⟨⟨w₁, nextId'⟩, hentries⟩ := serializeEntries_returns w 0 nextId entries
    cases hclose : w₁.bind fun w => w.writeAll [asBytes "]"] with
    | none =>
      use nextId'
      simp [serializeBatch, hopen, hentries, hclose]
    | some w₂ =>
      have hok : serializeBatch nextId buf entries = some (.ok (w₂.pos, w₂.buf), nextId') := by
        simp [serializeBatch, hopen, hentries, hclose]
      exact absurd hok (htoo w₂.pos w₂.buf nextId')

theorem BatchEntry.length_paramsText_le (entry : BatchEntry) :
  entry.paramsText.length ≤ 256
  := by
  unfold paramsText
  split
  · decide
  · rw [List.length_take, entry.length_params]
    apply Nat.min_le_right

theorem length_entriesText_le (nextId : UInt64) :
  ∀ (entries : List BatchEntry) (i : Nat),
    (entriesText nextId i entries).length
      ≤ (entries.map fun entry => 322 + entry.method.length).sum
  | [], _ => Nat.zero_le _
  | entry :: entries, i => by
      have ih := length_entriesText_le nextId entries (i + 1)
      have htext := length_requestText (entryId nextId i) entry.method entry.paramsText
      have hparams := entry.length_paramsText_le
      have hcomma : (if i > 0 then asBytes "," else []).length ≤ 1 := by split <;> decide
      simp only [entriesText, List.length_append, List.map_cons, List.sum_cons]
      omega

/-- A bound on what a batch has to write. -/
theorem batchLength_le (nextId : UInt64) (entries : List BatchEntry) :
  batchLength nextId entries ≤ (entries.map fun entry => 322 + entry.method.length).sum + 2
  := Nat.add_le_add_right (length_entriesText_le nextId entries 0) 2

/-- Every entry takes at least one byte. -/
theorem length_le_entriesText (nextId : UInt64) :
  ∀ (entries : List BatchEntry) (i : Nat), entries.length ≤ (entriesText nextId i entries).length
  | [], _ => Nat.zero_le _
  | entry :: entries, i => by
      have ih := length_le_entriesText nextId entries (i + 1)
      have hparts : 0 < (asBytes "\x7d").length := by decide
      simp only [entriesText, requestText, requestParts, List.length_append, List.length_cons,
        List.flatten_cons, List.flatten_nil, List.length_nil]
      omega

/-- A batch that fits into the buffer has at most as many entries as the buffer has bytes. -/
theorem length_le_of_serializeBatch {nextId nextId' : UInt64} {buf buf' : Bytes}
    {entries : List BatchEntry} {len : Nat}
    (h : serializeBatch nextId buf entries = some (.ok (len, buf'), nextId')) :
  entries.length ≤ buf.length
  := by
  obtain ⟨hwritten, hlen, hle⟩ := serializeBatch_ok h
  have htexts := length_le_entriesText nextId entries 0
  have hwritten := congrArg List.length hwritten
  rw [List.length_take_of_le hle, List.length_append, List.length_append] at hwritten
  omega

/-- The entries of a batch that fits into the buffer have different ids. -/
theorem entryId_injective {nextId : UInt64} {i j : Nat} (hi : i < 2 ^ 64) (hj : j < 2 ^ 64)
    (h : entryId nextId i = entryId nextId j) :
  i = j
  := by
  have hof : UInt64.ofNat i = UInt64.ofNat j := by
    rw [entryId, entryId] at h
    apply (UInt64.add_right_inj nextId).mp h
  have htoNat := congrArg UInt64.toNat hof
  rw [UInt64.toNat_ofNat', UInt64.toNat_ofNat', Nat.mod_eq_of_lt hi, Nat.mod_eq_of_lt hj] at htoNat
  apply htoNat

/-- The empty batch. -/
theorem serializeBatch_nil (nextId : UInt64) {buf : Bytes} (h : 2 ≤ buf.length) :
  ∃ len buf', serializeBatch nextId buf [] = some (.ok (len, buf'), nextId)
    ∧ buf'.take len = asBytes "[]"
  := by
  have hnew : (BufWriter.new buf).InRange := BufWriter.inRange_new buf
  have hopen : (asBytes "[").length = 1 := by decide
  have hclose : (asBytes "]").length = 1 := by decide
  obtain ⟨w, hw⟩ := @BufWriter.writeAll_of_le [asBytes "["] _ hnew
    (by simp [BufWriter.new, hopen]; omega)
  obtain ⟨hwritten, hlen, hrange⟩ := BufWriter.writeAll_ok hnew hw
  have hpos := congrArg List.length hwritten
  rw [BufWriter.length_written hrange, BufWriter.written_new, List.nil_append,
    List.flatten_singleton, hopen] at hpos
  have hsize : w.buf.length = buf.length := hlen
  obtain ⟨w', hw'⟩ := @BufWriter.writeAll_of_le [asBytes "]"] _ hrange
    (by rw [List.flatten_singleton, hclose, hpos, hsize]; exact h)
  have hserialize : serializeBatch nextId buf [] = some (.ok (w'.pos, w'.buf), nextId) := by
    simp [serializeBatch, hw, serializeEntries, hw']
  use w'.pos, w'.buf, hserialize
  apply (serializeBatch_ok hserialize).1

end FdRpc

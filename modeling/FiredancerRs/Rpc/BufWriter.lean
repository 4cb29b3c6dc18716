import FiredancerRs.Lib.Decimal
import FiredancerRs.Lib.Writer
import FiredancerRs.Rpc.JsonScan

/-!
# Writing into a buffer

`BufWriter` and the decimal formatting of `fd_rpc::utils`. What a chain of writes leaves in the
buffer is the concatenation of what it was given (`writeAll_ok`), and an integer is
formatted as its canonical numeral (`fmt_canonical`).
-/

namespace FdRpc

/-- `BufWriter` -/
structure BufWriter where
  buf : Bytes
  pos : Nat
deriving DecidableEq, Repr

namespace BufWriter

/-- `BufWriter::new` -/
def new (buf : Bytes) : BufWriter := ⟨buf, 0⟩

/-- `BufWriter::write` -/
def write (w : BufWriter) (data : Bytes) : Bool × BufWriter :=
  if w.pos + data.length > w.buf.length then
    (false, w)
  else
    (true, ⟨w.buf.take w.pos ++ (data ++ w.buf.drop (w.pos + data.length)), w.pos + data.length⟩)

/-- The writes of the macro `push!`, which returns at the first one that fails. -/
def writeAll (w : BufWriter) : List Bytes → Option BufWriter
  | [] => some w
  | data :: rest =>
    match w.write data with
    | (false, _) => none
    | (true, w) => w.writeAll rest

/-- Writes whose results are ignored: the writer goes on after one that fails. -/
def writeEach (w : BufWriter) : List Bytes → BufWriter
  | [] => w
  | data :: rest => (w.write data).2.writeEach rest

/-- What has been written. -/
def written (w : BufWriter) : Bytes := w.buf.take w.pos

/-- The position is in the buffer. -/
def InRange (w : BufWriter) : Prop := w.pos ≤ w.buf.length

@[simp]
theorem written_new (buf : Bytes) :
  (new buf).written = []
  := rfl

theorem inRange_new (buf : Bytes) :
  (new buf).InRange
  := Nat.zero_le _

/-- One write appends the data, keeps the size of the buffer and stays in range. -/
theorem write_ok {w w' : BufWriter} {data : Bytes} (hw : w.InRange)
    (h : w.write data = (true, w')) :
  w'.written = w.written ++ data ∧ w'.buf.length = w.buf.length ∧ w'.InRange
  := by
  rw [InRange] at hw
  rw [write] at h
  split at h
  · cases h
  · next hle =>
    obtain ⟨-, rfl⟩ := Prod.mk.inj h
    have htake : (w.buf.take w.pos ++ data).length = w.pos + data.length := by
      rw [List.length_append, List.length_take_of_le hw]
    refine ⟨?_, ?_, ?_⟩
    · rw [written, written, ← List.append_assoc, ← htake, List.take_left]
    · rw [← List.append_assoc, List.length_append, htake, List.length_drop]
      omega
    · rw [InRange, ← List.append_assoc, List.length_append, htake]
      apply Nat.le_add_right

/-- A chain of writes appends the concatenation of what it was given. -/
theorem writeAll_ok :
  ∀ {parts : List Bytes} {w w' : BufWriter}, w.InRange → w.writeAll parts = some w' →
    w'.written = w.written ++ parts.flatten ∧ w'.buf.length = w.buf.length ∧ w'.InRange
  | [], w, w', hw, h => by
      obtain rfl := Option.some.inj h
      rw [List.flatten_nil, List.append_nil]
      exact ⟨rfl, rfl, hw⟩
  | data :: rest, w, w', hw, h => by
      rw [writeAll] at h
      split at h
      · cases h
      · next w₁ hwrite =>
        obtain ⟨hwritten, hlen, hrange⟩ := write_ok hw hwrite
        obtain ⟨hwritten', hlen', hrange'⟩ := writeAll_ok hrange h
        rw [hwritten', hwritten, hlen', hlen, List.flatten_cons, List.append_assoc]
        exact ⟨rfl, rfl, hrange'⟩

/-- What fits into the buffer is written. -/
theorem writeAll_of_le :
  ∀ {parts : List Bytes} {w : BufWriter}, w.InRange →
    w.pos + parts.flatten.length ≤ w.buf.length → ∃ w', w.writeAll parts = some w'
  | [], w, _, _ => ⟨w, rfl⟩
  | data :: rest, w, hw, hle => by
      rw [List.flatten_cons, List.length_append] at hle
      obtain ⟨w₁, hwrite⟩ : ∃ w₁, w.write data = (true, w₁) := by
        rw [write, if_neg (by omega)]
        exact ⟨_, rfl⟩
      obtain ⟨hwritten, hlen, hrange⟩ := write_ok hw hwrite
      have hpos := congrArg List.length hwritten
      rw [List.length_append, written, written, List.length_take_of_le hrange,
        List.length_take_of_le hw] at hpos
      obtain ⟨w', hrest⟩ := @writeAll_of_le rest w₁ hrange (by omega)
      use w'
      rw [writeAll, hwrite]
      apply hrest

/-- Writes whose results are ignored append what fits. -/
theorem writeEach_spec :
  ∀ (parts : List Bytes) {w : BufWriter}, w.InRange →
    (w.writeEach parts).written
        = w.written ++ (Writer.kept w.buf.length w.pos parts).flatten
      ∧ (w.writeEach parts).buf.length = w.buf.length ∧ (w.writeEach parts).InRange
  | [], w, hw => by
      rw [Writer.kept, List.flatten_nil, List.append_nil]
      exact ⟨rfl, rfl, hw⟩
  | data :: rest, w, hw => by
      rw [writeEach, Writer.kept]
      by_cases hfit : w.pos + data.length > w.buf.length
      · have hwrite : w.write data = (false, w) := if_pos hfit
        rw [if_pos hfit, hwrite]
        apply writeEach_spec rest hw
      · obtain ⟨w', hwrite⟩ : ∃ w', w.write data = (true, w') := ⟨_, if_neg hfit⟩
        obtain ⟨hwritten, hlen, hrange⟩ := write_ok hw hwrite
        have hpos := congrArg List.length hwritten
        rw [List.length_append, written, written, List.length_take_of_le hrange,
          List.length_take_of_le hw] at hpos
        obtain ⟨hwritten', hlen', hrange'⟩ := writeEach_spec rest hrange
        rw [if_neg hfit, hwrite, hwritten', hwritten, hlen', hlen, hpos, List.flatten_cons,
          List.append_assoc]
        exact ⟨rfl, rfl, hrange'⟩

theorem length_written {w : BufWriter} (hw : w.InRange) :
  w.written.length = w.pos
  := List.length_take_of_le hw

end BufWriter

/-! ### Decimal formatting -/

/-- `buf[i] = c` -/
def setAt (buf : Bytes) (i : Nat) (c : UInt8) : Option Bytes :=
  if i < buf.length then some (buf.set i c) else none

/-- The loop of `fmt_u64`, which writes digits backwards from `pos`. -/
def fmtLoop : Nat → Nat → Bytes → Option (Nat × Bytes)
  | 0, val, buf => if val > 0 then none else some (0, buf)
  | pos + 1, val, buf =>
    if val > 0 then do
      let buf ← setAt buf pos (Ascii.zero + UInt8.ofNat (val % 10))
      fmtLoop pos (val / 10) buf
    else
      some (pos + 1, buf)

/-- The body of `fmt_u64`, `fmt_u32` and `fmt_usize`. -/
def fmtDecimal (val : Nat) (buf : Bytes) : Option Bytes :=
  if val = 0 then do
    let buf ← setAt buf 19 Ascii.zero
    sliceFrom buf 19
  else do
    let (pos, buf) ← fmtLoop 20 val buf
    sliceFrom buf pos

/-- `fmt_u64` -/
def fmtU64 (val : UInt64) (buf : Bytes) : Option Bytes := fmtDecimal val.toNat buf

/-- `fmt_u32` -/
def fmtU32 (val : UInt32) (buf : Bytes) : Option Bytes := fmtDecimal val.toNat buf

/-- `fmt_usize` -/
def fmtUsize (val : UInt64) (buf : Bytes) : Option Bytes := fmtDecimal val.toNat buf

/-- The loop writes the digits of the number in front of what follows the position. -/
theorem fmtLoop_eq :
  ∀ {pos val : Nat} {buf : Bytes}, val < 10 ^ pos → pos ≤ buf.length →
    ∃ pos' buf', fmtLoop pos val buf = some (pos', buf') ∧ pos' ≤ buf'.length
      ∧ buf'.drop pos' = ((Nat.digits 10 val).map Decimal.digit).reverse ++ buf.drop pos
  | 0, val, buf, hval, _ => by
      obtain rfl : val = 0 := by simpa using hval
      exact ⟨0, buf, rfl, Nat.zero_le _, rfl⟩
  | pos + 1, val, buf, hval, hpos => by
      rw [fmtLoop]
      split
      · next hne =>
        have hdiv : val / 10 < 10 ^ pos := by
          rw [Nat.div_lt_iff_lt_mul (by decide)]
          apply hval
        have hset : setAt buf pos (Ascii.zero + UInt8.ofNat (val % 10))
            = some (buf.set pos (Decimal.digit (val % 10))) := if_pos hpos
        have hlen : pos ≤ (buf.set pos (Decimal.digit (val % 10))).length := by
          rw [List.length_set]
          omega
        obtain ⟨pos', buf', hloop, hle, hdrop⟩ := fmtLoop_eq hdiv hlen
        rw [hset]
        refine ⟨pos', buf', hloop, hle, ?_⟩
        have hcons : (buf.set pos (Decimal.digit (val % 10))).drop pos
            = Decimal.digit (val % 10) :: buf.drop (pos + 1) := by
          rw [List.drop_eq_getElem_cons (by rwa [List.length_set]), List.getElem_set_self,
            List.drop_set_of_lt (Nat.lt_succ_self pos)]
        rw [hdrop, hcons, Nat.digits_def' (by decide) hne, List.map_cons, List.reverse_cons,
          List.append_assoc]
        rfl
      · next hne =>
        obtain rfl : val = 0 := by omega
        exact ⟨pos + 1, buf, rfl, hpos, rfl⟩

/-- An integer of at most twenty digits is formatted as its numeral. -/
theorem fmtDecimal_eq {val : Nat} {buf : Bytes} (hval : val < 10 ^ 20) (hbuf : buf.length = 20) :
  fmtDecimal val buf = some (Decimal.render val)
  := by
  rw [fmtDecimal, Decimal.render]
  split
  · have hlen : (buf.set 19 Ascii.zero).length = 20 := by rw [List.length_set, hbuf]
    have hset : setAt buf 19 Ascii.zero = some (buf.set 19 Ascii.zero) := if_pos (by omega)
    rw [hset]
    change sliceFrom (buf.set 19 Ascii.zero) 19 = _
    rw [sliceFrom, if_pos (by omega), List.drop_eq_getElem_cons (by omega), List.getElem_set_self,
      List.drop_eq_nil_of_le (by omega)]
  · obtain ⟨pos', buf', hloop, hle, hdrop⟩ := fmtLoop_eq hval (Nat.le_of_eq hbuf.symm)
    rw [hloop]
    change sliceFrom buf' pos' = _
    rw [sliceFrom, if_pos hle, hdrop, List.drop_eq_nil_of_le (Nat.le_of_eq hbuf), List.append_nil]

theorem fmtLoop_none :
  ∀ {pos val : Nat} {buf : Bytes}, 10 ^ pos ≤ val → fmtLoop pos val buf = none
  | 0, val, buf, hval => if_pos hval
  | pos + 1, val, buf, hval => by
      have hpos : 0 < val := lt_of_lt_of_le (Nat.pow_pos (by decide)) hval
      have hdiv : 10 ^ pos ≤ val / 10 := by
        rw [Nat.le_div_iff_mul_le (by decide)]
        apply hval
      rw [fmtLoop, if_pos hpos]
      cases setAt buf pos (Ascii.zero + UInt8.ofNat (val % 10)) with
      | none => rfl
      | some buf' => exact fmtLoop_none hdiv

/-- What is formatted is the numeral. -/
theorem fmtDecimal_eq_some {val : Nat} {buf text : Bytes} (hbuf : buf.length = 20)
    (h : fmtDecimal val buf = some text) :
  text = Decimal.render val
  := by
  rcases Nat.lt_or_ge val (10 ^ 20) with hlt | hge
  · rw [fmtDecimal_eq hlt hbuf] at h
    apply (Option.some.inj h).symm
  · have hne : val ≠ 0 := by
      rintro rfl
      exact absurd hge (by decide)
    rw [fmtDecimal, if_neg hne, fmtLoop_none hge] at h
    cases h

theorem fmtU64_eq (val : UInt64) {buf : Bytes} (hbuf : buf.length = 20) :
  fmtU64 val buf = some (Decimal.render val.toNat)
  := by
  apply fmtDecimal_eq _ hbuf
  have hlt := val.toNat_lt
  omega

theorem fmtU32_eq (val : UInt32) {buf : Bytes} (hbuf : buf.length = 20) :
  fmtU32 val buf = some (Decimal.render val.toNat)
  := by
  apply fmtDecimal_eq _ hbuf
  have hlt := val.toNat_lt
  omega

/-- Whatever the buffer holds, a number is formatted as its canonical numeral by each of the three
functions. -/
theorem fmt_canonical {buf buf' : Bytes} (hbuf : buf.length = 20) (hbuf' : buf'.length = 20) :
  (∀ val, ∃ text, fmtU64 val buf = some text ∧ Decimal.Canonical val.toNat text)
    ∧ (∀ val, ∃ text, fmtU32 val buf = some text ∧ Decimal.Canonical val.toNat text)
    ∧ (∀ val, ∃ text, fmtUsize val buf = some text ∧ Decimal.Canonical val.toNat text)
    ∧ (∀ val, fmtUsize val buf' = fmtU64 val buf)
    ∧ ∀ val, fmtU64 val.toUInt64 buf' = fmtU32 val buf
  := by
  refine ⟨?_, ?_, ?_, ?_, ?_⟩
  · intro val
    exact ⟨_, fmtU64_eq val hbuf, Decimal.canonical_render val.toNat⟩
  · intro val
    exact ⟨_, fmtU32_eq val hbuf, Decimal.canonical_render val.toNat⟩
  · intro val
    exact ⟨_, fmtU64_eq val hbuf, Decimal.canonical_render val.toNat⟩
  · intro val
    exact (fmtU64_eq val hbuf').trans (fmtU64_eq val hbuf).symm
  · intro val
    rw [fmtU64_eq val.toUInt64 hbuf', fmtU32_eq val hbuf, UInt32.toNat_toUInt64]

theorem fmt_canonical_zeros :
  fmtU64 18446744073709551615 (List.replicate 20 0)
      = fmtUsize 18446744073709551615 (List.replicate 20 255)
    ∧ ∃ text, fmtU64 18446744073709551615 (List.replicate 20 0) = some text
      ∧ Decimal.Canonical 18446744073709551615 text
  := by
  obtain ⟨hu64, -, -, hagree, -⟩ := @fmt_canonical (List.replicate 20 0) (List.replicate 20 255)
    List.length_replicate List.length_replicate
  exact ⟨(hagree 18446744073709551615).symm, hu64 18446744073709551615⟩

end FdRpc

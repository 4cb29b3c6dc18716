import FiredancerRs.Lib.Ascii

/-!
# Blocks of lines

A block is a list of lines, each followed by a carriage return and a newline, and an empty line at
the end (`block`). A reader that takes lines up to the first empty one reads a block of lines
without carriage returns, whatever follows it (`readBlock_block`).
-/

namespace Lines

open Ascii

/-- The end of a line. -/
def crlf : List UInt8 := [carriageReturn, newline]

/-- The bytes of some lines and of an empty line after them. -/
def block : List (List UInt8) → List UInt8
  | [] => crlf
  | line :: lines => line ++ crlf ++ block lines

/-- Reads lines up to the first empty one, with what comes after it. Of the first line some bytes
have been read. -/
def readFrom : List UInt8 → List UInt8 → Option (List (List UInt8) × List UInt8)
  | _, [] => none
  | line, [b] => readFrom (line ++ [b]) []
  | line, b :: c :: rest =>
    if b = carriageReturn ∧ c = newline then
      if line = [] then
        some ([], rest)
      else
        (readFrom [] rest).map fun (lines, after) => (line :: lines, after)
    else
      readFrom (line ++ [b]) (c :: rest)

/-- Reads lines up to the first empty one, with what comes after it. -/
def readBlock (bytes : List UInt8) : Option (List (List UInt8) × List UInt8) := readFrom [] bytes

variable {line bytes : List UInt8} {lines : List (List UInt8)}

/-- Bytes without carriage returns belong to the first line. -/
theorem readFrom_append {first : List UInt8} (h : carriageReturn ∉ line) :
  readFrom first (line ++ (crlf ++ bytes)) = readFrom (first ++ line) (crlf ++ bytes)
  := by
  induction line generalizing first with
  | nil => rw [List.append_nil, List.nil_append]
  | cons b line ih =>
    obtain ⟨hb, hline⟩ := not_or.mp (mt List.mem_cons.mpr h)
    have hstep : readFrom first (b :: (line ++ (crlf ++ bytes)))
        = readFrom (first ++ [b]) (line ++ (crlf ++ bytes)) := by
      cases line with
      | nil => exact if_neg fun hend => hb hend.1.symm
      | cons c line => exact if_neg fun hend => hb hend.1.symm
    rw [List.cons_append, hstep, ih hline, List.append_assoc, List.singleton_append]

/-- A block of lines that are not empty and have no carriage returns is read, whatever follows. -/
theorem readBlock_block (h : ∀ line ∈ lines, line ≠ [] ∧ carriageReturn ∉ line) :
  readBlock (block lines ++ bytes) = some (lines, bytes)
  := by
  induction lines with
  | nil => rfl
  | cons line lines ih =>
    obtain ⟨⟨hne, hline⟩, hlines⟩ := List.forall_mem_cons.mp h
    have hstep : readFrom line (crlf ++ (block lines ++ bytes))
        = (readBlock (block lines ++ bytes)).map fun (lines, after) => (line :: lines, after) := by
      rw [readBlock]
      apply (if_pos ⟨rfl, rfl⟩).trans (if_neg hne)
    rw [readBlock, block, List.append_assoc, List.append_assoc, readFrom_append hline,
      List.nil_append, hstep, ih hlines]
    rfl

/-- A block that is read stays the same when more bytes follow. -/
theorem readFrom_append_more {first after : List UInt8} (more : List UInt8)
    (h : readFrom first bytes = some (lines, after)) :
  readFrom first (bytes ++ more) = some (lines, after ++ more)
  := by
  induction first, bytes using readFrom.induct generalizing lines with
  | case1 => cases h
  | case2 => cases h
  | case3 b c rest hend =>
    rw [readFrom, if_pos hend, if_pos rfl] at h
    obtain ⟨rfl, rfl⟩ := Prod.mk.inj (Option.some.inj h)
    apply (if_pos hend).trans (if_pos rfl)
  | case4 line b c rest hend hne ih =>
    rw [readFrom, if_pos hend, if_neg hne] at h
    obtain ⟨⟨tail, left⟩, htail, heq⟩ := Option.map_eq_some_iff.mp h
    obtain ⟨rfl, rfl⟩ := Prod.mk.inj heq
    have hmore : readFrom line (b :: c :: (rest ++ more))
        = (readFrom [] (rest ++ more)).map fun (lines, after) => (line :: lines, after) :=
      (if_pos hend).trans (if_neg hne)
    rw [List.cons_append, List.cons_append, hmore, ih htail]
    rfl
  | case5 line b c rest hend ih =>
    rw [readFrom, if_neg hend] at h
    apply (if_neg hend).trans (ih h)

/-- A block ends in an empty line. -/
theorem crlf_suffix_block :
  crlf <:+ block lines
  := by
  induction lines with
  | nil => exact List.suffix_rfl
  | cons line lines ih => exact ih.trans (List.suffix_append _ _)

end Lines

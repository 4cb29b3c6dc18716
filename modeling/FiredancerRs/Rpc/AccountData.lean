import FiredancerRs.Lib.Base64
import FiredancerRs.Lib.JsonData
import FiredancerRs.Rpc.ReadAccount

/-!
# The data of accounts

An account states its data as a text with the name of the encoding, and the client decodes base64
only. `parse_account_info` returns the stated bytes or rejects the account exactly for some accounts
(`decodedOrRejected_iff`): it takes other data for base64, or for no bytes at all.
-/

open Json FdEd25519

namespace FdRpc

open JsonScan

/-! ### What an account states -/

section Stated

variable (decoders : Decoders)

/-- The decoder of base64 rejects a text with a character that no encoding has. -/
def Decoders.RejectsOthers : Prop :=
  ∀ text bytes, decoders.base64Decode text = some bytes → ∀ c ∈ text, Base64.IsChar c

/-- The member `data` of an account states the bytes: it is a text that is their encoding, with
the name of the encoding. -/
def StatesBytes (d : Value) (bytes : Bytes) : Prop :=
  ∃ (s encoding : Str) (text : Bytes), d.items = some [.string s, .string encoding]
    ∧ encoding.Spells (asBytes "base64") ∧ s.Spells text
    ∧ decoders.base64Decode text = some bytes

/-- In front of an account, what is returned has the bytes that the account states, and an
account that states none is rejected. -/
def DecodedOrRejected (account : JsonScan) (v : Value) : Prop :=
  ∃ answer, parseAccountInfo decoders account = some answer
    ∧ ∀ info, answer = .ok info →
      ∃ d, v.lookup (asBytes "data") = some d ∧ StatesBytes decoders d info.data

/-- The lamports and the owner of an account are read. -/
def LamportsAndOwnerRead (v : Value) : Prop :=
  (∃ lamports, (v.lookup (asBytes "lamports")).bind readF64 = some lamports)
    ∧ ∃ ownerStr owner, (v.lookup (asBytes "owner")).bind readStr = some ownerStr
      ∧ decoders.base58Decode32 ownerStr = some owner

/-- The data is an array that one of the checks rejects, or a text and the name of base64. -/
def DataSupported (d : Value) : Prop :=
  ∃ items, d.items = some items
    ∧ (items[0]?.bind readStr = none
      ∨ items[1]?.bind readStr = some (asBytes "base58")
      ∨ (∃ text, items[0]?.bind readStr = some text ∧ decoders.base64Decode text = none)
      ∨ ∃ (first : Value) (encoding : Str), items = [first, .string encoding]
        ∧ encoding.Spells (asBytes "base64"))

end Stated

variable {decoders : Decoders} {data : Bytes}

/-! ### What is read -/

/-- Bytes are read from data that is no array, and then there are none, and from an array whose
first element is decoded as base64, whatever encoding it states besides base58. -/
theorem readAccountData_ok_iff {d : Value} {bytes : Bytes} :
  readAccountData decoders d = .ok bytes
    ↔ (d.items = none ∧ bytes = [])
      ∨ ∃ items text, d.items = some items ∧ items[0]?.bind readStr = some text
        ∧ items[1]?.bind readStr ≠ some (asBytes "base58")
        ∧ decoders.base64Decode text = some bytes
  := by
  rw [readAccountData]
  cases hitems : d.items with
  | none => simp [eq_comm]
  | some items =>
    simp only [Option.some.injEq, reduceCtorEq, false_and, false_or, exists_and_left,
      exists_eq_left']
    cases hfirst : items[0]?.bind readStr with
    | none => simp
    | some encoded =>
      -- an encoding that is not read counts as base64, which is not base58
      have hencoding : (items[1]?.bind readStr).getD (asBytes "base64") = asBytes "base58"
          ↔ items[1]?.bind readStr = some (asBytes "base58") := by
        cases items[1]?.bind readStr with
        | none =>
          apply iff_of_false (by decide)
          simp
        | some encoding => rw [Option.getD_some, Option.some.injEq]
      simp only [hencoding, Option.some.injEq, exists_eq_left']
      by_cases hbase58 : items[1]?.bind readStr = some (asBytes "base58")
      · simp [hbase58]
      · rw [if_neg hbase58]
        cases decoders.base64Decode encoded <;> simp [hbase58]

/-- A string is read as the bytes between its quotes. -/
theorem readStr_eq_some {v : Value} {text : Bytes} (h : readStr v = some text) :
  ∃ s : Str, v = .string s ∧ s.raw = text
  := by
  cases v with
  | string s =>
    rw [readStr, fromUtf8] at h
    split at h
    · exact ⟨s, rfl, Option.some.inj h⟩
    · cases h
  | _ => cases h

/-- A text that is decoded as base64 has no escapes, so it stands for itself. -/
theorem Decoders.RejectsOthers.spells (hbase64 : decoders.RejectsOthers) {s : Str} {bytes : Bytes}
    (h : decoders.base64Decode s.raw = some bytes) :
  s.Spells s.raw
  := by
  have halphabet : ∀ c ∈ Base64.alphabet, c ≠ Ascii.backslash ∧ c < 0x80 :=
    List.forall_iff_forall_mem.mp (by decide)
  apply Str.spells_plain rfl
  intro c hc
  rcases hbase64 s.raw bytes h c hc with hmem | rfl
  · apply halphabet c hmem
  · decide

/-- The data that is read is the data that is stated exactly when it is supported. -/
theorem statesBytes_iff (hbase64 : decoders.RejectsOthers) {d : Value} :
  (∀ bytes, readAccountData decoders d = .ok bytes → StatesBytes decoders d bytes)
    ↔ DataSupported decoders d
  := by
  constructor
  · intro h
    cases hitems : d.items with
    | none =>
      obtain ⟨s, encoding, text, hsome, -⟩ := h [] (readAccountData_ok_iff.mpr (.inl ⟨hitems, rfl⟩))
      cases hitems.symm.trans hsome
    | some items =>
      refine ⟨items, hitems, ?_⟩
      cases hfirst : items[0]?.bind readStr with
      | none => exact .inl rfl
      | some text =>
        by_cases hbase58 : items[1]?.bind readStr = some (asBytes "base58")
        · exact .inr (.inl hbase58)
        · right
          right
          cases hdecode : decoders.base64Decode text with
          | none => exact .inl ⟨text, rfl, hdecode⟩
          | some bytes =>
            right
            obtain ⟨s, encoding, text', hsome, hname, -⟩ := h bytes
              (readAccountData_ok_iff.mpr (.inr ⟨items, text, hitems, hfirst, hbase58, hdecode⟩))
            obtain rfl := Option.some.inj (hitems.symm.trans hsome)
            exact ⟨.string s, encoding, rfl, hname⟩
  · rintro ⟨items, hitems, hsupported⟩ bytes hok
    rcases readAccountData_ok_iff.mp hok with
      ⟨hnone, -⟩ | ⟨items', text, hsome, hfirst, hne, hbytes⟩
    · cases hitems.symm.trans hnone
    obtain rfl := Option.some.inj (hitems.symm.trans hsome)
    rcases hsupported with hnone | hbase58 | ⟨text', htext, hnone⟩ | ⟨first, encoding, rfl, hname⟩
    · cases hnone.symm.trans hfirst
    · exact absurd hbase58 hne
    · obtain rfl := Option.some.inj (hfirst.symm.trans htext)
      cases hnone.symm.trans hbytes
    · obtain ⟨s, rfl, rfl⟩ := readStr_eq_some hfirst
      exact ⟨s, encoding, s.raw, hitems, hname, hbase64.spells hbytes, hbytes⟩

/-- In front of an account, `parse_account_info` returns the bytes that are stated or rejects the
account exactly when another of its members is not read, or when its data is supported. -/
theorem decodedOrRejected_iff (hbase64 : decoders.RejectsOthers) {v : Value} {t : Bytes}
    (h : v.render ++ t <:+ data) :
  DecodedOrRejected decoders (facing data (v.render ++ t)) v
    ↔ (LamportsAndOwnerRead decoders v →
        ∀ d, v.lookup (asBytes "data") = some d → DataSupported decoders d)
  := by
  rw [DecodedOrRejected, parseAccountInfo_facing h]
  constructor
  · rintro ⟨answer, hanswer, hstates⟩ ⟨⟨lamports, hlamports⟩, text, owner, htext, howner⟩ d hd
    obtain rfl := Option.some.inj hanswer
    apply (statesBytes_iff hbase64).mp
    intro bytes hbytes
    obtain ⟨d', hd', hdata⟩ := hstates ⟨lamports.toU64, owner, bytes, _, _⟩
      (readAccountInfo_ok_iff.mpr
        ⟨lamports, text, d, hlamports, htext, howner, hd, hbytes, rfl, rfl, rfl⟩)
    obtain rfl := Option.some.inj (hd.symm.trans hd')
    apply hdata
  · intro hsupported
    refine ⟨_, rfl, ?_⟩
    intro info hok
    obtain ⟨lamports, text, d, hlamports, htext, howner, hd, hbytes, -⟩ :=
      readAccountInfo_ok_iff.mp hok
    exact ⟨d, hd, (statesBytes_iff hbase64).mpr
      (hsupported ⟨⟨lamports, hlamports⟩, text, info.owner, htext, howner⟩ d hd) _ hbytes⟩

/-! ### Samples -/

/-- Decoders of the texts of the samples. -/
def sampleDecoders : Decoders where
  base58Decode32 text :=
    if text = List.replicate 32 0x31 then some (Vector.replicate 32 0) else none
  base64Decode text := if text = asBytes "AA==" then some [0] else none

/-- The account `{"lamports":1,"owner":"11111111111111111111111111111111","data":..}`. -/
def accountSample (d : Value) : Value :=
  .object
    (.more (.ofAscii (asBytes "lamports")) .empty (.number (.ofDigit 1)) .empty
      (.more (.ofAscii (asBytes "owner")) .empty (.string (.ofAscii (List.replicate 32 0x31)))
        .empty (.last (.ofAscii (asBytes "data")) .empty d .empty)))

/-- `["AA==","base64"]` -/
def dataSample : Value :=
  .array (.more .empty (.string (.ofAscii (asBytes "AA=="))) .empty
    (.last .empty (.string (.ofAscii (asBytes "base64"))) .empty))

theorem decodedOrRejected_sample :
  DecodedOrRejected sampleDecoders ⟨(accountSample dataSample).render, 0⟩
    (accountSample dataSample)
  := by
  have hchars : ∀ c ∈ asBytes "AA==", c ∈ Base64.alphabet ∨ c = Base64.pad :=
    List.forall_iff_forall_mem.mp (by decide)
  have hbase64 : sampleDecoders.RejectsOthers := by
    intro text bytes hdecode
    rw [sampleDecoders] at hdecode
    dsimp only at hdecode
    split at hdecode
    · next htext =>
      rw [htext]
      apply hchars
    · cases hdecode
  have hsuffix : (accountSample dataSample).render ++ [] <:+ (accountSample dataSample).render := by
    rw [List.append_nil]
  have hiff := decodedOrRejected_iff hbase64 hsuffix
  rw [List.append_nil, facing_self] at hiff
  apply hiff.mpr
  intro _ d hd
  obtain rfl : dataSample = d := Option.some.inj hd
  exact ⟨_, rfl, .inr (.inr (.inr ⟨_, _, rfl, by decide⟩))⟩

/-- The text `"2"`, which is base58, is returned as no bytes. -/
theorem not_decodedOrRejected :
  ¬ DecodedOrRejected sampleDecoders
    ⟨(accountSample (.string (.ofAscii (asBytes "2")))).render, 0⟩
    (accountSample (.string (.ofAscii (asBytes "2"))))
  := by
  have hparse : parseAccountInfo sampleDecoders
      ⟨(accountSample (.string (.ofAscii (asBytes "2")))).render, 0⟩
        = some (.ok ⟨1, Vector.replicate 32 0, [], false, 0⟩) := by
    decide
  rintro ⟨answer, hanswer, hstates⟩
  obtain rfl := Option.some.inj (hparse.symm.trans hanswer)
  obtain ⟨d, hd, s, encoding, text, hitems, -⟩ := hstates _ rfl
  obtain rfl : .string (.ofAscii (asBytes "2")) = d := Option.some.inj hd
  cases hitems

end FdRpc

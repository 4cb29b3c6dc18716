import FiredancerRs.Txn.Outcome
import FiredancerRs.Txn.Signing

/-!
# What a transaction is asked to be

The calls that a builder returns from without an error ask for a transaction (`Request`). However
the other calls end, the builder keeps what was asked (`ReachedFor.represents`), so what `build`
returns decodes, after any signatures are set, to the transaction that was asked for, with these
signatures (`signed_asked`).
-/

open FdEd25519 Decoder

namespace FdTxn

variable {sys : Sys}

/-- What the calls on a builder have asked for. -/
structure Request where
  version : TransactionVersion
  feePayer : Option Pubkey
  blockhash : Option Bytes32
  instructions : List InstructionBuf

/-- Nothing has been asked for. -/
def Request.new : Request where
  version := .legacy
  feePayer := none
  blockhash := none
  instructions := []

/-- What is asked for when a call is heard. -/
def Call.ask (req : Request) : Call → Request
  | .version v => { req with version := v }
  | .feePayer key => { req with feePayer := some key }
  | .recentBlockhash hash => { req with blockhash := some hash }
  | .addSigner _ => req
  | .addInstruction ix => { req with instructions := req.instructions ++ [ix] }

/-- A call that returns an error asks for nothing. -/
def Request.after (req : Request) (c : Call) : Outcome → Request
  | .ok => c.ask req
  | _ => req

/-- The builder is reached from `TransactionBuilder::new` by calls, however they end, that ask for
this. -/
inductive ReachedFor : Request → ArrayBuilder sys → Prop
  | new : ReachedFor .new .new
  | call {req : Request} {s s' : ArrayBuilder sys} {c : Call} {outcome : Outcome} :
      ReachedFor req s → c.InMemory → s.run c = .ok (outcome, s') →
        ReachedFor (req.after c outcome) s'

/-- The decoded transaction is what was asked for: the instructions in order, with their accounts
and data, and the fee payer first. -/
structure WireTransaction.Answers (tx : WireTransaction) (req : Request) : Prop where
  version : tx.version = req.version
  feePayer : tx.keys[0]? = req.feePayer
  blockhash : some tx.blockhash = req.blockhash
  instructions : tx.instructions.map tx.resolve
    = req.instructions.map fun ix =>
        some (ix.programId, ix.accounts.map AccountMeta.pubkey, ix.data)

namespace TransactionBuilder

variable {b b' : TransactionBuilder} {req : Request}

/-- The builder has kept what was asked for. -/
structure Records (b : TransactionBuilder) (req : Request) : Prop where
  version : b.version = req.version
  feePayer : b.feePayer = req.feePayer
  blockhash : b.blockhash = req.blockhash
  entries : List.Forall₂ (Locates (keys b.accts) b.instrAcctBuf b.instrDataBuf) b.instrs
    req.instructions

theorem records_new :
  Records .new .new
  where
  version := rfl
  feePayer := rfl
  blockhash := rfl
  entries := .nil

/-- The entries stay what they are when the table grows. -/
theorem Records.touch (h : Records b req) (key : Pubkey) (flags : UInt8) :
  Records { b with accts := touch key flags b.accts } req
  where
  version := h.version
  feePayer := h.feePayer
  blockhash := h.blockhash
  entries := h.entries.imp fun _ _ hloc =>
    hloc.mono (keys_prefix_touch key flags b.accts) List.prefix_rfl List.prefix_rfl

/-- What a call leaves behind that failed is not asked for. -/
theorem Records.grow (h : Records b req) (requests : List AccountMeta) (idxs : Bytes) :
  Records (b.grow requests idxs) req
  where
  version := h.version
  feePayer := h.feePayer
  blockhash := h.blockhash
  entries := entries_grow h.entries requests idxs

theorem Leftover.records {ix : InstructionBuf} (h : Leftover sys b ix b') (hreq : Records b req) :
  Records b' req
  := by
  cases h with
  | nothing _ => apply hreq
  | stopped _ _ _ hstop =>
    cases hstop with
    | tableFull _ _ => apply hreq.grow
    | bufferFull _ => apply hreq.grow
  | dataTooLarge _ _ => apply hreq.grow

theorem addInstruction_records (hb : Fits sys b) (h : Records b req) (ix : InstructionBuf) :
  Records (b.addInstruction sys ix).2
    (req.after (.addInstruction ix) (Outcome.ofExcept (b.addInstruction sys ix).1))
  := by
  cases hadd : b.addInstruction sys ix with
  | mk r b' =>
    cases r with
    | error e => apply (addInstruction_error hb hadd).1.records h
    | ok _ =>
      obtain ⟨entry, idxs, rfl, hloc, -⟩ := addInstruction_ok hb hadd
      constructor
      · apply h.version
      · apply h.feePayer
      · apply h.blockhash
      · apply List.rel_append _ (.cons hloc .nil)
        apply h.entries.imp
        intro entry' ix' hloc'
        apply hloc'.mono (keys_prefix_grant _ b.accts) (List.prefix_append _ _)
          (List.prefix_append _ _)

theorem addSigner_records (h : Records b req) (key : Pubkey) :
  Records (b.addSigner sys key).2
    (req.after (.addSigner key) (Outcome.ofExcept (b.addSigner sys key).1))
  := by
  cases hadd : b.addSigner sys key with
  | mk r b' =>
    cases r with
    | error e =>
      obtain ⟨rfl, -⟩ := addSigner_error hadd
      apply h
    | ok _ =>
      obtain ⟨rfl, -⟩ := addSigner_ok hadd
      apply h.touch

end TransactionBuilder

open TransactionBuilder

/-- A call keeps what was asked for, and what it asks for when it is heard. -/
theorem Call.run_records {b : TransactionBuilder} {req : Request} (hb : Fits sys b)
    (h : Records b req) (c : Call) :
  Records (c.run sys b).2 (req.after c (c.run sys b).1)
  := by
  cases c with
  | version v => exact { h with version := rfl }
  | recentBlockhash hash => exact { h with blockhash := rfl }
  | addSigner key => apply addSigner_records h
  | addInstruction ix => apply addInstruction_records hb h
  | feePayer key =>
    rw [Call.run]
    split
    · apply h
    · next b' hset =>
      obtain ⟨rfl, -⟩ := setFeePayer_ok hset
      exact { h.touch key _ with feePayer := rfl }

theorem ReachedFor.reached {req : Request} {s : ArrayBuilder sys} (h : ReachedFor req s) :
  Reached s
  := by
  induction h with
  | new => apply Reached.new
  | call _ hmem hrun ih => apply Reached.call ih hmem hrun

/-- A builder that calls on the model make is held by arrays that are reached for what the calls
ask. -/
theorem Built.reachedFor {calls : List Call} {b : TransactionBuilder} (h : Built sys calls b) :
  (∀ c ∈ calls, c.InMemory) →
    ∃ s : ArrayBuilder sys, ReachedFor (calls.foldl Call.ask .new) s ∧ Represents s b
  := by
  intro hmem
  induction h with
  | new => exact ⟨.new, .new, ArrayBuilder.represents_new⟩
  | @call calls b b' c _ hrun ih =>
    rw [List.forall_mem_append, List.forall_mem_singleton] at hmem
    obtain ⟨s, hs, hb⟩ := ih hmem.1
    rcases ArrayBuilder.run_cases hb hmem.2 with ⟨s', hok, hs'⟩ | ⟨key, rfl, hfind, hfull, -⟩
    · rw [hrun] at hok hs'
      rw [List.foldl_append]
      exact ⟨s', .call hs hmem.2 hok, hs'⟩
    · rw [Call.run, TransactionBuilder.setFeePayer, hfind] at hrun
      simp [Nat.not_lt.mpr hfull] at hrun

/-- The arrays that are reached hold the lists of a builder that has kept what was asked for. -/
theorem ReachedFor.represents {req : Request} {s : ArrayBuilder sys} (h : ReachedFor req s) :
  ∃ b, Represents s b ∧ Reachable sys b ∧ Records b req
  := by
  induction h with
  | new => exact ⟨.new, ArrayBuilder.represents_new, .new, records_new⟩
  | @call req s s' c outcome _ hmem hrun ih =>
    obtain ⟨b, hs, hb, hreq⟩ := ih
    rcases ArrayBuilder.run_cases hs hmem with ⟨s₁, hok, hs₁⟩ | ⟨key, -, -, -, hpanic⟩
    · rw [hok, Except.ok.injEq, Prod.mk.injEq] at hrun
      obtain ⟨rfl, rfl⟩ := hrun
      exact ⟨_, hs₁, hb.call c, c.run_records hb.fits hreq⟩
    · rw [hpanic] at hrun
      cases hrun

/-! ### The bytes of a signed transaction -/

/-- The transaction `wireOf` is the one that was asked for. -/
theorem answers_wireOf {b : TransactionBuilder} {req : Request} (hb : Fits sys b)
    (h : Records b req) {feePayer : Pubkey} {blockhash : Bytes32} {fpIdx : Nat}
    (hfp : b.feePayer = some feePayer) (hbh : b.blockhash = some blockhash)
    (hidx : indexOf b.accts feePayer = some fpIdx) :
  (b.wireOf sys (b.sorted fpIdx) blockhash).Answers req
  where
  version := h.version
  feePayer := by rw [getElem?_keys_wireOf_zero hidx, ← h.feePayer, hfp]
  blockhash := by rw [← h.blockhash, hbh, wireOf]
  instructions := by
    rw [wireOf, List.map_map, ← List.forall₂_eq_eq_eq, List.forall₂_map_left_iff,
      List.forall₂_map_right_iff]
    apply h.entries.imp
    intro entry ix hloc
    apply resolve_compile hb hloc

/-- The transaction with signatures. -/
def WireTransaction.sign (tx : WireTransaction) (sigs : List Bytes) : WireTransaction :=
  { tx with signatures := sigs }

/-- The signatures of a transaction do not change what it is asked to be. -/
theorem WireTransaction.Answers.sign {tx : WireTransaction} {req : Request} (h : tx.Answers req)
    (sigs : List Bytes) :
  (tx.sign sigs).Answers req
  where
  version := h.version
  feePayer := h.feePayer
  blockhash := h.blockhash
  instructions := h.instructions

theorem WireTransaction.Encodable.sign {tx : WireTransaction} (h : tx.Encodable)
    (sigs : List Bytes) :
  (tx.sign sigs).Encodable
  where
  keys := h.keys
  instructions := h.instructions
  accounts := h.accounts
  data := h.data

/-- What it takes for the bytes of a transaction to decode to it. -/
structure WireTransaction.Decodable (tx : WireTransaction) (signatureSz : Nat) : Prop where
  encodable : tx.Encodable
  signature : ∀ sig ∈ tx.signatures, sig.length = signatureSz
  count : tx.signatures.length < 0x10000
  header : tx.header.sigCount.toNat < 0x80

theorem WireTransaction.Decodable.decode {tx : WireTransaction} {signatureSz : Nat}
    (h : tx.Decodable signatureSz) :
  decodeTransaction signatureSz tx.encode = some (tx, [])
  := by
  have hreads := decodeTransaction_reads h.encodable h.signature h.count h.header []
  rwa [List.append_nil] at hreads

namespace ArrayTransaction

variable {tx : ArrayTransaction sys} {count : UInt8} {sigs : List Bytes} {message : Bytes}

/-- The bytes of an array that holds those of a transaction. -/
theorem Holds.asBytes {tx' : UnsignedTransaction} (h : tx.Holds tx') :
  tx.asBytes = .ok tx'.asBytes
  := by
  have hfilled := h.filled
  rw [ArrayTransaction.asBytes, FixedArray.slice_of_le _ (Nat.zero_le _) hfilled.le,
    hfilled.elements, Buffer.slice, List.drop_zero, Nat.sub_zero, hfilled.count_eq,
    List.take_left]
  rfl

/-- The bytes after `build` say how many signatures there are, and what the message is. -/
theorem Signed.wire_eq {wire : WireTransaction} (h : Signed tx count sigs message)
    (hbytes : tx.asBytes = .ok wire.encode) (hcount : wire.signatures.length < 0x10000)
    (hsigs : ∀ sig ∈ wire.signatures, sig.length = sys.signatureSz) :
  wire.signatures.length = count.toNat ∧ wire.encodeMessage = message
  := by
  have hlt := count.toNat_lt
  have heq : sys.cu16Enc count.toUInt16 ++ sigs.flatten ++ message = wire.encode :=
    Except.ok.inj (h.asBytes.symm.trans hbytes)
  rw [sys.cu16Enc_eq, UInt8.toNat_toUInt16, WireTransaction.encode, List.append_assoc] at heq
  have hread := @CompactU16.decode_reads count.toNat (by omega) (sigs.flatten ++ message)
  rw [heq, CompactU16.decode_reads hcount] at hread
  obtain ⟨hlength, hrest⟩ := Prod.mk.inj (Option.some.inj hread)
  use hlength
  apply List.append_inj_right hrest
  rw [length_flatten_sigs hsigs, length_flatten_sigs h.size, hlength, h.length]

/-- The bytes of a signed transaction are those of the transaction with its signatures. -/
theorem Signed.asBytes_eq {wire : WireTransaction} (h : Signed tx count sigs message)
    (hmessage : wire.encodeMessage = message) :
  tx.asBytes = .ok (wire.sign sigs).encode
  := by
  rw [h.asBytes, sys.cu16Enc_eq, UInt8.toNat_toUInt16, ← h.length, ← hmessage,
    WireTransaction.encode, List.append_assoc]
  rfl

/-- The bytes of a signed transaction fit the MTU. -/
theorem Signed.length_le {bytes : Bytes} (h : Signed tx count sigs message)
    (hbytes : tx.asBytes = .ok bytes) :
  bytes.length ≤ sys.mtu
  := by
  obtain rfl := Except.ok.inj (h.asBytes.symm.trans hbytes)
  have hle := h.len_le
  have hend := h.len
  have hoff := h.messageOff
  rw [List.length_append, List.length_append, length_flatten_sigs h.size]
  omega

end ArrayTransaction

open ArrayTransaction

/-- What is asked for and built is, after signatures are set, the transaction that was asked for
with these signatures. -/
theorem ReachedFor.signed (hsz : sys.signatureSz = 64) {req : Request} {s : ArrayBuilder sys}
    (h : ReachedFor req s) {tx : ArrayTransaction sys} (hbuild : s.build = .ok tx)
    {sets : List (Nat × Vector UInt8 sys.signatureSz)}
    (hsets : ∀ set ∈ sets, set.1 < tx.signatureCount) :
  ∃ (tx' : ArrayTransaction sys) (wire : WireTransaction),
    tx.setSignatures sets = .ok tx' ∧ tx'.asBytes = .ok wire.encode
    ∧ wire.encode.length ≤ sys.mtu ∧ wire.Decodable sys.signatureSz ∧ wire.Answers req
    ∧ wire.header.sigCount.toNat = tx.signatureCount
    ∧ wire.signatures = (List.range tx.signatureCount).map (lastSignature sets)
  := by
  obtain ⟨b, hs, hb, hreq⟩ := h.represents
  have hsim := ArrayBuilder.build_simulates (by rw [hsz]; decide) hs hb.indexed
  rw [hbuild] at hsim
  obtain ⟨built, hbuilt, hholds⟩ := hsim.ok_right
  obtain ⟨feePayer, blockhash, fpIdx, hfp, hbh, hidx, hmax, hbytes⟩ :=
    build_ok hb.fits hb.indexed.entries hbuilt
  obtain ⟨message, hsigned⟩ := signed_of_build hsz h.reached hbuild
  obtain ⟨tx', hrun, htx'⟩ := hsigned.setSignatures sets hsets
  have hsigMax := sys.sigMax_lt
  have hblank : (b.wireOf sys (b.sorted fpIdx) blockhash).signatures.length
      = (b.headerOf (b.sorted fpIdx)).sigCount.toNat := List.length_replicate
  obtain ⟨hcount, hmessage⟩ := hsigned.wire_eq (hholds.asBytes.trans (congrArg _ hbytes))
    (by omega) (by
      intro sig hsig
      rw [List.eq_of_mem_replicate hsig, List.length_replicate])
  have hwire := htx'.asBytes_eq hmessage
  refine ⟨tx', _, hrun, hwire, htx'.length_le hwire, ?_, ?_, hblank.symm.trans hcount, rfl⟩
  · exact {
      encodable := (encodable_wireOf hb.fits hb.indexed.entries).sign _
      signature := htx'.size
      count := by
        rw [WireTransaction.sign, htx'.length]
        omega
      header := Nat.lt_of_le_of_lt hmax hsigMax }
  · apply (answers_wireOf hb.fits hreq hfp hbh hidx).sign

/-- What is asked for and built decodes, after any signatures are set, to what was asked for, with
the last signature set at each place. -/
theorem signed_asked (hsz : sys.signatureSz = 64) {req : Request} {s : ArrayBuilder sys}
    (h : ReachedFor req s) {tx : ArrayTransaction sys} (hbuild : s.build = .ok tx)
    {sets : List (Nat × Vector UInt8 sys.signatureSz)}
    (hsets : ∀ set ∈ sets, set.1 < tx.signatureCount) :
  ∃ tx' bytes wire, tx.setSignatures sets = .ok tx' ∧ tx'.asBytes = .ok bytes
    ∧ bytes.length ≤ sys.mtu
    ∧ decodeTransaction sys.signatureSz bytes = some (wire, [])
    ∧ wire.Answers req
    ∧ wire.header.sigCount.toNat = tx.signatureCount
    ∧ wire.signatures = (List.range tx.signatureCount).map (lastSignature sets)
  := by
  obtain ⟨tx', wire, hrun, hbytes, hlen, hwire, hanswers⟩ := h.signed hsz hbuild hsets
  exact ⟨tx', _, wire, hrun, hbytes, hlen, hwire.decode, hanswers⟩

/-- What the sample calls ask for. -/
def sampleRequest : Request := sampleCalls.foldl Call.ask .new

/-- The sample calls, a transaction that is built from what they leave, and two signatures. -/
theorem sampleRequest_built :
  ∃ (s : ArrayBuilder .accepting) (tx : ArrayTransaction .accepting),
    ReachedFor sampleRequest s ∧ s.build = .ok tx ∧ tx.signatureCount = 2
  := by
  obtain ⟨s, hreached, hs⟩ := sampleBuilder_built.reachedFor (by
    simp [sampleCalls, Call.InMemory])
  have hsim := ArrayBuilder.build_simulates (by decide) hs sampleBuilder_built.reachable.indexed
  have hcount := sampleBuilder_sigCount
  cases hbuild : sampleBuilder.build .accepting with
  | error e =>
    rw [hbuild] at hcount
    cases hcount
  | ok tx₀ =>
    rw [hbuild] at hcount hsim
    obtain ⟨tx, htx, hholds⟩ := hsim.of_ok
    use s, tx, hreached, htx
    rw [signatureCount, hholds.sigCount, Except.ok.inj hcount]
    rfl

theorem signed_asked_sample :
  ∃ (bytes : Bytes) (wire : WireTransaction),
    decodeTransaction 64 bytes = some (wire, []) ∧ wire.Answers sampleRequest
      ∧ wire.signatures = [.replicate 64 8, .replicate 64 9]
  := by
  obtain ⟨s, tx, hreached, htx, hcount⟩ := sampleRequest_built
  have hsets : ∀ set ∈ ([(1, .replicate 64 7), (0, .replicate 64 8), (1, .replicate 64 9)] :
      List (Nat × Vector UInt8 64)), set.1 < tx.signatureCount := by
    rw [hcount]
    decide
  obtain ⟨tx', bytes, wire, -, -, -, hwire, hanswers, -, hsigs⟩ :=
    signed_asked rfl hreached htx hsets
  rw [hcount] at hsigs
  exact ⟨bytes, wire, hwire, hanswers, hsigs⟩

end FdTxn

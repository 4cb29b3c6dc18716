import FiredancerRs.Rpc.Batch
import FiredancerRs.Rpc.Response
import Mathlib.Data.List.Forall2
import Mathlib.Data.List.Nodup

/-!
# The results of a batch

A reply to a batch of requests holds a response to each of them, in any order. `get` reads the
response at the position of the entry, so it returns the result or the error of the response
to the entry exactly when this response is at the position, or when both are errors that read
the same (`get_iff`).
-/

open Json

namespace FdRpc

open JsonScan
open JsonArrayIter (atElement)

/-! ### Replies -/

/-- A response to a request: the id that it carries, and its member `result` or `error`. -/
structure Response where
  id : UInt64
  outcome : Member

/-- The value is a response object with the id of its request. -/
structure IsResponse (w : Value × Bytes) (r : Response) (members : List Member) : Prop
    extends IsResponseObject w r.outcome members where
  id : ∃ m n, spelled (asBytes "id") members = [m] ∧ m.value = .number n
    ∧ n.value = r.id.toNat

/-- The text is a JSON-RPC 2.0 reply to a batch: an array of the responses. -/
def IsReply (text : Text) (responses : List Response) : Prop :=
  ∃ elements, text.value.elements text.after.bytes = some elements
    ∧ List.Forall₂ (fun w r => ∃ members, IsResponse w r members) elements responses

/-! ### The position of a response -/

theorem after_text (text : Text) :
  text.value.render ++ text.after.bytes <:+ text.render
  := List.suffix_append text.before.bytes _

/-- The element at the position of a response. -/
theorem element_of_response {elements : List (Value × Bytes)} {responses : List Response}
    (h : List.Forall₂ (fun w r => ∃ members, IsResponse w r members) elements responses)
    {i : Nat} {r : Response} (hr : responses[i]? = some r) :
  ∃ w members, elements[i]? = some w ∧ IsResponse w r members
  := by
  obtain ⟨hi, rfl⟩ := List.getElem?_eq_some_iff.mp hr
  have hi' : i < elements.length := by rwa [h.length_eq]
  obtain ⟨members, hresponse⟩ := h.get hi' hi
  exact ⟨elements[i], members, List.getElem?_eq_getElem hi', hresponse⟩

/-- Every response of a reply is read at its position. -/
theorem get_response {reply : Text} {responses : List Response} (h : IsReply reply responses)
    {i : Nat} {r : Response} (hr : responses[i]? = some r) :
  BatchResults.get ⟨reply.render⟩ i
    = some (if Plain r.outcome then answer reply.render r.outcome else .error (.missingField "result"))
  := by
  obtain ⟨elements, helements, hall⟩ := h
  obtain ⟨w, members, hw, hresponse⟩ := element_of_response hall hr
  have hindex := index_elements (after_text reply) (reply.value.stops_render _).dropWhile
    helements i
  have hsuffix := (Value.elements_suffix helements (List.mem_of_getElem? hw)).trans
    (after_text reply)
  rw [BatchResults.get, new_text]
  change ((JsonScan.facing reply.render _).index i >>= _) = _
  rw [hindex, hw]
  apply resultOf_response hsuffix hresponse.toIsResponseObject

/-- The outcome of a response is a part of the reply. -/
theorem outcome_suffix {reply : Text} {responses : List Response} (h : IsReply reply responses)
    {i : Nat} {r : Response} (hr : responses[i]? = some r) :
  r.outcome.value.render ++ r.outcome.after <:+ reply.render
  := by
  obtain ⟨elements, helements, hall⟩ := h
  obtain ⟨w, members, hw, hresponse⟩ := element_of_response hall hr
  apply (Value.members_suffix hresponse.isObject hresponse.outcome_mem).trans
  apply (Value.elements_suffix helements (List.mem_of_getElem? hw)).trans (after_text reply)

/-- The outcomes of responses at different positions are at different positions. -/
theorem outcome_length_lt {reply : Text} {responses : List Response} (h : IsReply reply responses)
    {i j : Nat} {r r' : Response} (hij : i < j) (hr : responses[i]? = some r)
    (hr' : responses[j]? = some r') :
  (r'.outcome.value.render ++ r'.outcome.after).length
    < (r.outcome.value.render ++ r.outcome.after).length
  := by
  obtain ⟨elements, helements, hall⟩ := h
  obtain ⟨w, members, hw, hresponse⟩ := element_of_response hall hr
  obtain ⟨w', members', hw', hresponse'⟩ := element_of_response hall hr'
  obtain ⟨hi, rfl⟩ := List.getElem?_eq_some_iff.mp hw
  obtain ⟨hj, rfl⟩ := List.getElem?_eq_some_iff.mp hw'
  have hafter := (Value.suffix_after hresponse.isObject hresponse.outcome_mem).length_le
  have hinner := (Value.members_suffix hresponse'.isObject hresponse'.outcome_mem).length_le
  have hnext := (List.pairwise_iff_getElem.mp (Value.elements_pairwise helements) i j hi hj
    hij).length_le
  obtain ⟨c, l, hrender, -⟩ := r.outcome.value.render_eq_cons
  have hlen : (r.outcome.value.render ++ r.outcome.after).length
      = l.length + 1 + r.outcome.after.length := by
    rw [List.length_append, hrender, List.length_cons]
  omega

/-- Two responses of a reply have the same scan as their outcome only if they are the same. -/
theorem eq_of_atMember {reply : Text} {responses : List Response} (h : IsReply reply responses)
    {i j : Nat} {r r' : Response} (hr : responses[i]? = some r) (hr' : responses[j]? = some r')
    (heq : atMember reply.render r.outcome = atMember reply.render r'.outcome) :
  i = j
  := by
  have hlen := length_eq_of_facing (outcome_suffix h hr) (outcome_suffix h hr') heq
  rcases Nat.lt_trichotomy i j with hij | hij | hij
  · have hlt := outcome_length_lt h hij hr hr'
    omega
  · apply hij
  · have hlt := outcome_length_lt h hij hr' hr
    omega

/-! ### The response to an entry -/

/-- Both responses report an error, and the errors read the same. -/
def SameError (r r' : Response) : Prop :=
  IsError r.outcome ∧ IsError r'.outcome
    ∧ readError r.outcome.value = readError r'.outcome.value

/-- Two responses of a reply have the same answer exactly when they are at the same position,
or are errors that read the same. -/
theorem answer_eq_iff {reply : Text} {responses : List Response} (h : IsReply reply responses)
    {i j : Nat} {r r' : Response} (hr : responses[i]? = some r) (hr' : responses[j]? = some r') :
  answer reply.render r.outcome = answer reply.render r'.outcome ↔ i = j ∨ SameError r r'
  := by
  constructor
  · intro heq
    rw [answer, answer] at heq
    split at heq
    · next herror =>
      split at heq
      · next herror' => exact .inr ⟨herror, herror', Except.error.inj heq⟩
      · cases heq
    · split at heq
      · cases heq
      · apply Or.inl (eq_of_atMember h hr hr' (Except.ok.inj heq))
  · rintro (rfl | ⟨herror, herror', hread⟩)
    · obtain rfl := Option.some.inj (hr.symm.trans hr')
      rfl
    · rw [answer, answer, if_pos herror, if_pos herror', hread]

/-- An answer is a result or an error that the server reports. -/
theorem answer_ne_missing (data : Bytes) (outcome : Member) (name : String) :
  answer data outcome ≠ .error (.missingField name)
  := by
  rw [answer]
  split
  · rintro ⟨⟩
  · rintro ⟨⟩

/-- For every batch that is sent and every reply with a response to each entry, in any order:
the ids of the requests are those of the entries, and for every entry there is a response with
its id, of which `get` returns the result or the error exactly when the response at the
position of the entry names its result or error without escapes, and is the response to the
entry, or both report errors that read the same. -/
theorem get_iff {nextId nextId' : UInt64} {entries : List BatchEntry} {buf : Bytes} {len : Nat}
    (hsent : serializeBatch nextId (List.replicate batchRequestBufSz 0) entries
      = some (.ok (len, buf), nextId'))
    {reply : Text} {responses : List Response} (hreply : IsReply reply responses)
    (hids : (responses.map Response.id).Perm
      ((List.range entries.length).map (entryId nextId))) :
  buf.take len = asBytes "[" ++ (entriesText nextId 0 entries ++ asBytes "]")
    ∧ ∀ i < entries.length, ∃ r r', responses[i]? = some r
        ∧ r' ∈ responses ∧ r'.id = entryId nextId i
        ∧ (BatchResults.get ⟨reply.render⟩ i = some (answer reply.render r'.outcome)
            ↔ Plain r.outcome ∧ (r.id = entryId nextId i ∨ SameError r r'))
  := by
  have hlen := hids.length_eq
  rw [List.length_map, List.length_map, List.length_range] at hlen
  have hfit := length_le_of_serializeBatch hsent
  rw [List.length_replicate, batchRequestBufSz] at hfit
  -- the ids are different, since the buffer has room for few entries
  have hnodup : (responses.map Response.id).Nodup := by
    rw [hids.nodup_iff]
    apply List.Nodup.map_on _ List.nodup_range
    intro j hj k hk hjk
    rw [List.mem_range] at hj hk
    apply entryId_injective (by omega) (by omega) hjk
  refine ⟨(serializeBatch_ok hsent).1, fun i hi => ?_⟩
  have hmem : entryId nextId i ∈ responses.map Response.id := by
    rw [hids.mem_iff]
    apply List.mem_map_of_mem (List.mem_range.mpr hi)
  obtain ⟨r', hr', hid⟩ := List.mem_map.mp hmem
  obtain ⟨j, hj, rfl⟩ := List.getElem_of_mem hr'
  have hi' : i < responses.length := by omega
  refine ⟨responses[i], responses[j], List.getElem?_eq_getElem hi', hr', hid, ?_⟩
  -- the response at the position carries the id of the entry exactly when it is the response
  have hsame : responses[i].id = entryId nextId i ↔ i = j := by
    rw [← hid]
    constructor
    · intro heq
      have hi : i < (responses.map Response.id).length := by rwa [List.length_map]
      have hj : j < (responses.map Response.id).length := by rwa [List.length_map]
      have hget : (responses.map Response.id)[i] = (responses.map Response.id)[j] := by
        rw [List.getElem_map, List.getElem_map, heq]
      apply (List.Nodup.getElem_inj_iff hnodup).mp hget
    · rintro rfl
      rfl
  have hanswer := answer_eq_iff hreply (List.getElem?_eq_getElem hi')
    (List.getElem?_eq_getElem hj)
  rw [get_response hreply (List.getElem?_eq_getElem hi'), Option.some.injEq, hsame, ← hanswer]
  constructor
  · intro hget
    split at hget
    · next hplain => exact ⟨hplain, hget⟩
    · exact absurd hget.symm (answer_ne_missing _ _ _)
  · rintro ⟨hplain, heq⟩
    rw [if_pos hplain, heq]

/-- The text of a response with a number as its result. -/
def responseMembers (id result : Number) : Members :=
  .more (Key.ofAscii (asBytes "jsonrpc")) .empty (.string (Str.ofAscii (asBytes "2.0"))) .empty
    (.more (Key.ofAscii (asBytes "id")) .empty (.number id) .empty
      (.last (Key.ofAscii (asBytes "result")) .empty (.number result) .empty))

/-- `[{"jsonrpc":"2.0","id":2,"result":7},{"jsonrpc":"2.0","id":1,"result":5}]` -/
def swapped : Text :=
  ⟨.empty, .array (.more .empty (.object (responseMembers (.ofDigit 2) (.ofDigit 7))) .empty
    (.last .empty (.object (responseMembers (.ofDigit 1) (.ofDigit 5))) .empty)), .empty⟩

/-- The responses of `swapped`. -/
def swappedResponses : List Response :=
  [⟨2, Str.ofAscii (asBytes "result"), .number (.ofDigit 7),
      asBytes "\x7d,\x7b\"jsonrpc\":\"2.0\",\"id\":1,\"result\":5\x7d]"⟩,
    ⟨1, Str.ofAscii (asBytes "result"), .number (.ofDigit 5), asBytes "\x7d]"⟩]

/-- The batch that `swapped` answers. -/
def swappedEntries : List BatchEntry :=
  [.raw (asBytes "getSlot") (asBytes "[]"), .raw (asBytes "getBlockHeight") (asBytes "[]")]

theorem swapped_isReply :
  IsReply swapped swappedResponses
  := by
  refine ⟨_, rfl, .cons ?_ (.cons ?_ .nil)⟩
  · exact ⟨_, ⟨rfl, ⟨_, _, rfl, rfl, by decide⟩, rfl, fun herror => absurd herror (by decide)⟩,
      _, _, rfl, rfl, Number.value_ofDigit 2⟩
  · exact ⟨_, ⟨rfl, ⟨_, _, rfl, rfl, by decide⟩, rfl, fun herror => absurd herror (by decide)⟩,
      _, _, rfl, rfl, Number.value_ofDigit 1⟩

theorem swapped_sent :
  ∃ len buf nextId', serializeBatch 1 (List.replicate batchRequestBufSz 0) swappedEntries
    = some (.ok (len, buf), nextId')
  := by
  apply serializeBatch_of_le
  rw [List.length_replicate]
  apply (batchLength_le 1 swappedEntries).trans
  decide

theorem swapped_ids :
  (swappedResponses.map Response.id).Perm
    ((List.range swappedEntries.length).map (entryId 1))
  := by
  apply List.Perm.swap

theorem get_iff_swapped :
  ∃ r r', swappedResponses[0]? = some r ∧ r' ∈ swappedResponses ∧ r'.id = entryId 1 0
    ∧ (BatchResults.get ⟨swapped.render⟩ 0 = some (answer swapped.render r'.outcome)
        ↔ Plain r.outcome ∧ (r.id = entryId 1 0 ∨ SameError r r'))
  := by
  obtain ⟨len, buf, nextId', hsent⟩ := swapped_sent
  apply (get_iff hsent swapped_isReply swapped_ids).2 0 (by decide)

/-- The first result of the swapped reply is the one of the second entry. -/
theorem get_swapped :
  (∃ len buf nextId', serializeBatch 1 (List.replicate batchRequestBufSz 0) swappedEntries
      = some (.ok (len, buf), nextId'))
    ∧ IsReply swapped swappedResponses
    ∧ (swappedResponses.map Response.id).Perm
        ((List.range swappedEntries.length).map (entryId 1))
    ∧ ∃ r' ∈ swappedResponses, r'.id = entryId 1 0
        ∧ BatchResults.get ⟨swapped.render⟩ 0 ≠ some (answer swapped.render r'.outcome)
  := by
  refine ⟨swapped_sent, swapped_isReply, swapped_ids, swappedResponses[1], by simp, rfl, ?_⟩
  decide

end FdRpc

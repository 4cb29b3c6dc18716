import Mathlib.Data.List.AList
import FiredancerRs.Lib.Ledger
import FiredancerRs.Lib.Runs
import FiredancerRs.Lib.Utf8
import FiredancerRs.Rpc.Url

/-!
# The memory of responses

A response of the server is handed to C as pointers to its body and to the strings of its headers.
The server keeps them for each connection, and gives them back when the connection has another
response or is closed, or when the server is dropped. So each of them is freed once, and those of
the last response of an open connection are there until then (`responses_settled`).
-/

namespace FdHttp

open Ledger

/-- A block of memory, by its address and its size. -/
structure Block where
  address : Nat
  size : Nat
deriving DecidableEq

/-- `Response` -/
structure Response where
  status : UInt16
  headers : List (String × String)
  body : List UInt8

/-- `fd_http_server_response_t`. What a pointer points to is its block, if it is not null. -/
structure CResponse where
  status : UInt64
  contentType : Option Block
  cacheControl : Option Block
  contentEncoding : Option Block
  accessControlAllowOrigin : Option Block
  accessControlAllowMethods : Option Block
  accessControlAllowHeaders : Option Block
  accessControlMaxAge : UInt64
  staticBody : Option Block
  staticBodyLen : Nat

/-- `ResponseCleanup`. The size of a header string is what `CString::from_raw` finds by its zero
byte. -/
structure ResponseCleanup where
  bodyPtr : Option Block
  bodyLen : Nat
  headerPtrs : List Block

/-- `CallbackContext`, without the callbacks and whether the server listens. -/
structure CallbackContext where
  connectionCount : UInt64
  pendingCleanups : AList fun _ : UInt64 => ResponseCleanup

/-- The context with the memory of the process: the next free address, and what was handed to C and
taken back. -/
structure World where
  ctx : CallbackContext
  nextAddress : Nat
  ledger : List (Entry Block)

namespace World

/-- The world of a new server. -/
def new : World where
  ctx := { connectionCount := 0, pendingCleanups := ∅ }
  nextAddress := 1
  ledger := []

/-- `Box::into_raw` or `CString::into_raw` of a box of a size. -/
def intoRaw (size : Nat) (w : World) : Block × World :=
  (⟨w.nextAddress, size⟩,
    { w with
      nextAddress := w.nextAddress + size
      ledger := w.ledger ++ [.acquire ⟨w.nextAddress, size⟩] })

/-- `Box::from_raw` or `CString::from_raw`, and the drop of the box. -/
def fromRaw (block : Block) (w : World) : World :=
  { w with ledger := w.ledger ++ [.release block] }

/-- The bytes of `CString::new(value).unwrap_or_default()`, with the zero byte. -/
def cStringSize (value : String) : Nat :=
  if 0 ∈ Utf8.bytes value then 1 else (Utf8.bytes value).length + 1

/-- `response.headers.iter().find(|(key, _)| key.to_lowercase() == header_name)`. The names that are
looked for are of ASCII letters that no other character has for its lower case. -/
def findHeader (response : Response) (headerName : String) : Option (String × String) :=
  response.headers.find? fun header => header.1.toLower = headerName

/-- `header_to_c_str`, with `header_ptrs`. -/
def headerToCStr (response : Response) (headerName : String) (headerPtrs : List Block) (w : World) :
    Option Block × List Block × World :=
  match findHeader response headerName with
  | some (_, value) =>
    let (ptr, w) := w.intoRaw (cStringSize value)
    (some ptr, headerPtrs ++ [ptr], w)
  | none => (none, headerPtrs, w)

/-- `str::parse::<u64>` -/
def parseU64 (text : List Char) : Option UInt64 :=
  let digits := FdRpc.Http.skipPlus text
  if digits = [] ∨ digits.all Char.isDigit = false then
    none
  else if FdRpc.Http.digitsValue digits < 2 ^ 64 then
    some (.ofNat (FdRpc.Http.digitsValue digits))
  else
    none

/-- `ResponseCleanup::drop` -/
def dropCleanup (cleanup : ResponseCleanup) (w : World) : World :=
  let w :=
    match cleanup.bodyPtr with
    | some body => if cleanup.bodyLen > 0 then w.fromRaw ⟨body.address, cleanup.bodyLen⟩ else w
    | none => w
  cleanup.headerPtrs.foldl (fun w ptr => w.fromRaw ptr) w

/-- `body_ptr` and `body_len` of `convert_response_to_c` -/
def bodyToRaw (response : Response) (w : World) : Option Block × Nat × World :=
  if response.body ≠ [] then
    let (ptr, w) := w.intoRaw response.body.length
    (some ptr, response.body.length, w)
  else
    (none, 0, w)

/-- `convert_response_to_c` -/
def convertResponseToC (response : Response) (connectionId : UInt64) (w : World) :
    CResponse × World :=
  let (bodyPtr, bodyLen, w) := w.bodyToRaw response
  let (contentType, ptrs, w) := w.headerToCStr response "content-type" []
  let (cacheControl, ptrs, w) := w.headerToCStr response "cache-control" ptrs
  let (contentEncoding, ptrs, w) := w.headerToCStr response "content-encoding" ptrs
  let (corsOrigin, ptrs, w) := w.headerToCStr response "access-control-allow-origin" ptrs
  let (corsMethods, ptrs, w) := w.headerToCStr response "access-control-allow-methods" ptrs
  let (corsHeaders, ptrs, w) := w.headerToCStr response "access-control-allow-headers" ptrs
  let maxAge :=
    ((findHeader response "access-control-max-age").bind fun header =>
      parseU64 header.2.toList).getD 0
  let cleanup := { bodyPtr := bodyPtr, bodyLen := bodyLen, headerPtrs := ptrs }
  -- the cleanup that the map has for the connection is dropped
  let replaced := w.ctx.pendingCleanups.lookup connectionId
  let w :=
    { w with
      ctx := { w.ctx with
        pendingCleanups := w.ctx.pendingCleanups.insert connectionId cleanup } }
  let w :=
    match replaced with
    | some replaced => w.dropCleanup replaced
    | none => w
  ({ status := response.status.toUInt64
     contentType := contentType
     cacheControl := cacheControl
     contentEncoding := contentEncoding
     accessControlAllowOrigin := corsOrigin
     accessControlAllowMethods := corsMethods
     accessControlAllowHeaders := corsHeaders
     accessControlMaxAge := maxAge
     staticBody := bodyPtr
     staticBodyLen := bodyLen }, w)

/-- `open_trampoline` -/
def openTrampoline (w : World) : World :=
  { w with ctx := { w.ctx with connectionCount := w.ctx.connectionCount + 1 } }

/-- `close_trampoline` -/
def closeTrampoline (connId : UInt64) (w : World) : World :=
  let w := { w with ctx := { w.ctx with connectionCount := w.ctx.connectionCount - 1 } }
  match w.ctx.pendingCleanups.lookup connId with
  | some cleanup =>
    dropCleanup cleanup
      { w with
        ctx := { w.ctx with pendingCleanups := w.ctx.pendingCleanups.erase connId } }
  | none => w

/-- `Server::drop`: the map of the context is dropped with all that it has. -/
def dropServer (w : World) : World :=
  (w.ctx.pendingCleanups.entries.map (·.2)).foldl (fun w cleanup => w.dropCleanup cleanup) w

end World

/-! ### Blocks -/

/-- The blocks that `ResponseCleanup::drop` frees. -/
def ResponseCleanup.blocks (cleanup : ResponseCleanup) : List Block :=
  (match cleanup.bodyPtr with
    | some body => if cleanup.bodyLen > 0 then [⟨body.address, cleanup.bodyLen⟩] else []
    | none => []) ++ cleanup.headerPtrs

/-- The blocks that a response points to. -/
def CResponse.blocks (response : CResponse) : List Block :=
  response.staticBody.toList ++ response.contentType.toList ++ response.cacheControl.toList
    ++ response.contentEncoding.toList ++ response.accessControlAllowOrigin.toList
    ++ response.accessControlAllowMethods.toList ++ response.accessControlAllowHeaders.toList

/-- The blocks that a map of cleanups keeps. -/
def blocksOf (pending : AList fun _ : UInt64 => ResponseCleanup) : Multiset Block :=
  (pending.entries.flatMap fun entry => entry.2.blocks : List Block)

namespace World

variable {w : World}

theorem foldl_fromRaw (blocks : List Block) :
  blocks.foldl (fun w ptr => w.fromRaw ptr) w
    = { w with ledger := w.ledger ++ blocks.map .release }
  := by
  induction blocks generalizing w with
  | nil => rw [List.foldl_nil, List.map_nil, List.append_nil]
  | cons block blocks ih =>
    rw [List.foldl_cons, ih, fromRaw, List.map_cons, List.append_assoc, List.singleton_append]

theorem dropCleanup_eq (cleanup : ResponseCleanup) :
  w.dropCleanup cleanup = { w with ledger := w.ledger ++ cleanup.blocks.map .release }
  := by
  rw [dropCleanup, foldl_fromRaw, ResponseCleanup.blocks]
  cases cleanup.bodyPtr with
  | none => rfl
  | some body =>
    dsimp only
    split
    · rw [fromRaw, List.map_append, List.append_assoc]
      rfl
    · rfl

/-- A world that has handed blocks to C. -/
structure Hands (w w' : World) (blocks : List Block) : Prop where
  ctx : w'.ctx = w.ctx
  ledger : w'.ledger = w.ledger ++ blocks.map .acquire

theorem Hands.refl :
  Hands w w []
  where
  ctx := rfl
  ledger := (List.append_nil _).symm

theorem Hands.trans {w' w'' : World} {blocks blocks' : List Block} (h : Hands w w' blocks)
    (h' : Hands w' w'' blocks') :
  Hands w w'' (blocks ++ blocks')
  := by
  constructor
  · rw [h'.ctx, h.ctx]
  · rw [h'.ledger, h.ledger, List.map_append, List.append_assoc]

/-- The string of a header is handed to C and noted, if there is one. -/
theorem hands_of_header {w' : World} {response : Response} {headerName : String}
    {ptrs ptrs' : List Block} {ptr : Option Block}
    (h : w.headerToCStr response headerName ptrs = (ptr, ptrs', w')) :
  Hands w w' ptr.toList ∧ ptrs' = ptrs ++ ptr.toList
  := by
  rw [headerToCStr] at h
  cases hfind : findHeader response headerName with
  | none =>
    simp only [hfind, Prod.mk.injEq] at h
    obtain ⟨rfl, rfl, rfl⟩ := h
    apply And.intro .refl (List.append_nil _).symm
  | some header =>
    simp only [hfind, Prod.mk.injEq] at h
    obtain ⟨rfl, rfl, rfl⟩ := h
    constructor
    · constructor
      · rfl
      · rfl
    · rfl

/-- The body is handed to C, with its length. -/
theorem hands_of_body {w' : World} {response : Response} {bodyPtr : Option Block} {bodyLen : Nat}
    (h : w.bodyToRaw response = (bodyPtr, bodyLen, w')) :
  Hands w w' bodyPtr.toList
    ∧ ∀ ptrs, ResponseCleanup.blocks ⟨bodyPtr, bodyLen, ptrs⟩ = bodyPtr.toList ++ ptrs
  := by
  rw [bodyToRaw] at h
  split at h
  · next hbody =>
    simp only [Prod.mk.injEq] at h
    obtain ⟨rfl, rfl, rfl⟩ := h
    constructor
    · constructor
      · rfl
      · rfl
    · intro ptrs
      simp only [ResponseCleanup.blocks, if_pos (List.length_pos_iff.mpr hbody)]
      rfl
  · simp only [Prod.mk.injEq] at h
    obtain ⟨rfl, rfl, rfl⟩ := h
    use .refl
    intro ptrs
    rfl

/-- What a response leaves: its blocks are handed to C and kept for the connection, and those that
were kept for it before are freed. -/
theorem convertResponseToC_spec (response : Response) (connectionId : UInt64) :
  ∃ cleanup, cleanup.blocks = (w.convertResponseToC response connectionId).1.blocks
    ∧ (w.convertResponseToC response connectionId).2.ctx
      = { w.ctx with pendingCleanups := w.ctx.pendingCleanups.insert connectionId cleanup }
    ∧ (w.convertResponseToC response connectionId).2.ledger
      = w.ledger ++ (w.convertResponseToC response connectionId).1.blocks.map .acquire
        ++ (((w.ctx.pendingCleanups.lookup connectionId).map (·.blocks)).getD []).map .release
  := by
  rcases hbody : w.bodyToRaw response with ⟨bodyPtr, bodyLen, w₀⟩
  rcases h₁ : w₀.headerToCStr response "content-type" [] with ⟨contentType, ptrs₁, w₁⟩
  rcases h₂ : w₁.headerToCStr response "cache-control" ptrs₁ with ⟨cacheControl, ptrs₂, w₂⟩
  rcases h₃ : w₂.headerToCStr response "content-encoding" ptrs₂ with ⟨contentEncoding, ptrs₃, w₃⟩
  rcases h₄ : w₃.headerToCStr response "access-control-allow-origin" ptrs₃
    with ⟨corsOrigin, ptrs₄, w₄⟩
  rcases h₅ : w₄.headerToCStr response "access-control-allow-methods" ptrs₄
    with ⟨corsMethods, ptrs₅, w₅⟩
  rcases h₆ : w₅.headerToCStr response "access-control-allow-headers" ptrs₅
    with ⟨corsHeaders, ptrs₆, w₆⟩
  obtain ⟨handsBody, hblocks⟩ := hands_of_body hbody
  obtain ⟨hands₁, hptrs₁⟩ := hands_of_header h₁
  obtain ⟨hands₂, hptrs₂⟩ := hands_of_header h₂
  obtain ⟨hands₃, hptrs₃⟩ := hands_of_header h₃
  obtain ⟨hands₄, hptrs₄⟩ := hands_of_header h₄
  obtain ⟨hands₅, hptrs₅⟩ := hands_of_header h₅
  obtain ⟨hands₆, hptrs₆⟩ := hands_of_header h₆
  have hands := (((((handsBody.trans hands₁).trans hands₂).trans hands₃).trans hands₄).trans
    hands₅).trans hands₆
  use ⟨bodyPtr, bodyLen, ptrs₆⟩
  simp only [convertResponseToC, hbody, h₁, h₂, h₃, h₄, h₅, h₆]
  refine ⟨?_, ?_, ?_⟩
  · rw [hblocks, hptrs₆, hptrs₅, hptrs₄, hptrs₃, hptrs₂, hptrs₁, CResponse.blocks]
    simp only [List.nil_append, List.append_assoc]
  · rw [hands.ctx]
    cases w.ctx.pendingCleanups.lookup connectionId with
    | none => rfl
    | some replaced =>
      dsimp only
      rw [dropCleanup_eq]
  · rw [hands.ctx]
    cases w.ctx.pendingCleanups.lookup connectionId with
    | none =>
      rw [Option.map_none, Option.getD_none, List.map_nil, List.append_nil]
      apply hands.ledger
    | some replaced =>
      dsimp only
      rw [dropCleanup_eq, hands.ledger]
      rfl

end World

/-! ### Connections -/

/-- A callback of the C server. A request comes with the response that the Rust callback gives. -/
inductive Callback where
  | open (connId : UInt64)
  | request (connId : UInt64) (response : Response)
  | close (connId : UInt64)

/-- The Rust side with the connections that are open in C, each with its last response. -/
structure Sys where
  world : World
  connections : AList fun _ : UInt64 => Option CResponse

namespace Sys

/-- A new server. -/
def start : Sys where
  world := .new
  connections := ∅

/-- A callback is called, and C does with its result what it is for. -/
def step (s : Sys) : Callback → Sys
  | .open connId =>
    { world := s.world.openTrampoline
      connections := s.connections.insert connId none }
  | .request connId response =>
    let (r, world) := s.world.convertResponseToC response connId
    { world := world
      connections := s.connections.insert connId (some r) }
  | .close connId =>
    { world := s.world.closeTrampoline connId
      connections := s.connections.erase connId }

/-- A connection is opened when it is not open, and has requests and is closed when it is. -/
def Orderly (s : Sys) : Callback → Prop
  | .open connId => connId ∉ s.connections
  | .request connId _ => connId ∈ s.connections
  | .close connId => connId ∈ s.connections

/-- The connections are counted, nothing was freed that was not held, and what the last response of
an open connection points to is held. -/
structure Sound (s : Sys) : Prop where
  count : s.world.ctx.connectionCount = UInt64.ofNat s.connections.keys.length
  held : ∃ held, settle 0 s.world.ledger = some held
    ∧ ∀ connId response, s.connections.lookup connId = some (some response) →
      ∀ block ∈ response.blocks, block ∈ held

/-- The kept blocks are what is held, and those of each last response are kept for its
connection. -/
structure Keeps (s : Sys) : Prop where
  count : s.world.ctx.connectionCount = UInt64.ofNat s.connections.keys.length
  held : settle 0 s.world.ledger = some (blocksOf s.world.ctx.pendingCleanups)
  last : ∀ connId response, s.connections.lookup connId = some (some response) →
    ∃ cleanup, s.world.ctx.pendingCleanups.lookup connId = some cleanup
      ∧ cleanup.blocks = response.blocks

end Sys

variable {pending : AList fun _ : UInt64 => ResponseCleanup} {connId : UInt64}
  {cleanup : ResponseCleanup}

theorem blocksOf_insert :
  blocksOf (pending.insert connId cleanup)
    = blocksOf (pending.erase connId) + (cleanup.blocks : Multiset Block)
  := by
  rw [blocksOf, AList.entries_insert, List.flatMap_cons, ← Multiset.coe_add, Multiset.add_comm]
  rfl

/-- The blocks of a connection are kept apart from those of the others. -/
theorem blocksOf_eq (pending : AList fun _ : UInt64 => ResponseCleanup) (connId : UInt64) :
  blocksOf pending
    = blocksOf (pending.erase connId)
      + ((((pending.lookup connId).map (·.blocks)).getD [] : List Block) : Multiset Block)
  := by
  by_cases hmem : connId ∈ pending
  · obtain ⟨cleanup, before, after, -, hentries, herase⟩ := List.exists_of_kerase hmem
    have hlookup : pending.lookup connId = some cleanup := by
      apply AList.mem_lookup_iff.mpr
      rw [hentries]
      simp
    have hrest : (pending.erase connId).entries = before ++ after := herase
    rw [blocksOf, blocksOf, hentries, hrest, hlookup, Option.map_some, Option.getD_some,
      Multiset.coe_add, Multiset.coe_eq_coe, List.flatMap_append, List.flatMap_append,
      List.flatMap_cons, List.append_assoc]
    apply List.Perm.append_left
    apply List.perm_append_comm
  · have hrest : (pending.erase connId).entries = pending.entries :=
      List.kerase_of_notMem_keys hmem
    rw [AList.lookup_eq_none.mpr hmem, blocksOf, blocksOf, hrest, Option.map_none, Option.getD_none,
      Multiset.coe_nil, Multiset.add_zero]

theorem mem_blocksOf {block : Block} (hcleanup : pending.lookup connId = some cleanup)
    (hblock : block ∈ cleanup.blocks) :
  block ∈ blocksOf pending
  := by
  apply Multiset.mem_coe.mpr (List.mem_flatMap.mpr ⟨⟨connId, cleanup⟩, _, hblock⟩)
  apply AList.mem_lookup_iff.mp hcleanup

namespace World

variable {w : World}

/-- A response settles when what is kept is held, and then what is kept is held again. -/
theorem settle_convert (response : Response)
    (hheld : settle 0 w.ledger = some (blocksOf w.ctx.pendingCleanups)) :
  settle 0 (w.convertResponseToC response connId).2.ledger
    = some (blocksOf (w.convertResponseToC response connId).2.ctx.pendingCleanups)
  := by
  obtain ⟨cleanup, hblocks, hctx, hledger⟩ := w.convertResponseToC_spec response connId
  rw [hledger, hctx, ← hblocks, blocksOf_insert, settle_append, settle_append, hheld, Option.bind_some,
    settle_acquires, Option.bind_some, blocksOf_eq w.ctx.pendingCleanups connId, add_right_comm,
    settle_releases]

theorem erase_of_lookup_eq_none (hnone : pending.lookup connId = none) :
  pending.erase connId = pending
  := by
  apply AList.ext
  apply List.kerase_of_notMem_keys (AList.lookup_eq_none.mp hnone)

/-- What closing a connection leaves: the blocks that were kept for it are freed. -/
theorem closeTrampoline_spec (connId : UInt64) :
  (w.closeTrampoline connId).ctx
      = { connectionCount := w.ctx.connectionCount - 1
          pendingCleanups := w.ctx.pendingCleanups.erase connId }
    ∧ (w.closeTrampoline connId).ledger
      = w.ledger ++ (((w.ctx.pendingCleanups.lookup connId).map (·.blocks)).getD []).map .release
  := by
  rw [closeTrampoline]
  dsimp only
  cases hlookup : w.ctx.pendingCleanups.lookup connId with
  | none =>
    constructor
    · rw [erase_of_lookup_eq_none hlookup]
    · apply (List.append_nil _).symm
  | some cleanup =>
    dsimp only
    rw [dropCleanup_eq]
    apply And.intro rfl rfl

theorem settle_close (hheld : settle 0 w.ledger = some (blocksOf w.ctx.pendingCleanups)) :
  settle 0 (w.closeTrampoline connId).ledger
    = some (blocksOf (w.closeTrampoline connId).ctx.pendingCleanups)
  := by
  obtain ⟨hctx, hledger⟩ := w.closeTrampoline_spec connId
  rw [hctx, hledger, settle_append, hheld, Option.bind_some, blocksOf_eq w.ctx.pendingCleanups connId,
    settle_releases]

theorem foldl_dropCleanup (cleanups : List ResponseCleanup) :
  cleanups.foldl (fun w cleanup => w.dropCleanup cleanup) w
    = { w with ledger := w.ledger ++ (cleanups.flatMap (·.blocks)).map .release }
  := by
  induction cleanups generalizing w with
  | nil => rw [List.foldl_nil, List.flatMap_nil, List.map_nil, List.append_nil]
  | cons cleanup cleanups ih =>
    rw [List.foldl_cons, ih, dropCleanup_eq, List.flatMap_cons, List.map_append, List.append_assoc]

/-- Dropping the server frees all that is kept. -/
theorem settle_dropServer (hheld : settle 0 w.ledger = some (blocksOf w.ctx.pendingCleanups)) :
  settle 0 w.dropServer.ledger = some 0
  := by
  rw [dropServer, foldl_dropCleanup, settle_append, hheld, Option.bind_some, List.flatMap_map]
  apply settle_release_all

end World

namespace Sys

theorem Keeps.sound {s : Sys} (h : s.Keeps) :
  s.Sound
  where
  count := h.count
  held := by
    use blocksOf s.world.ctx.pendingCleanups, h.held
    intro connId response hresponse block hblock
    obtain ⟨cleanup, hcleanup, hblocks⟩ := h.last connId response hresponse
    rw [← hblocks] at hblock
    apply mem_blocksOf hcleanup hblock

theorem keeps_start : start.Keeps
  where
  count := rfl
  held := rfl
  last connId response h := by
    rw [start, AList.lookup_empty] at h
    cases h

theorem Keeps.open {s : Sys} {connId : UInt64} (h : s.Keeps) (hnew : connId ∉ s.connections) :
  (s.step (.open connId)).Keeps
  where
  count := by
    change s.world.ctx.connectionCount + 1
      = UInt64.ofNat (s.connections.insert connId none).keys.length
    rw [h.count, AList.keys_insert, List.erase_of_not_mem hnew, List.length_cons, UInt64.ofNat_add]
    rfl
  held := h.held
  last connId' response hresponse := by
    by_cases heq : connId' = connId
    · subst heq
      rw [step, AList.lookup_insert] at hresponse
      cases hresponse
    · rw [step, AList.lookup_insert_ne heq] at hresponse
      apply h.last connId' response hresponse

theorem Keeps.request {s : Sys} {connId : UInt64} (response : Response) (h : s.Keeps)
    (hopen : connId ∈ s.connections) :
  (s.step (.request connId response)).Keeps
  := by
  obtain ⟨cleanup, hblocks, hctx, -⟩ := s.world.convertResponseToC_spec response connId
  constructor
  · change (s.world.convertResponseToC response connId).2.ctx.connectionCount
      = UInt64.ofNat (s.connections.insert connId _).keys.length
    rw [hctx, h.count, AList.keys_insert, List.length_cons, List.length_erase_of_mem hopen,
      Nat.sub_add_cancel (List.length_pos_of_mem hopen)]
  · apply World.settle_convert response h.held
  · intro connId' response' hresponse
    by_cases heq : connId' = connId
    · subst heq
      rw [Sys.step, AList.lookup_insert] at hresponse
      obtain rfl := Option.some.inj (Option.some.inj hresponse)
      use cleanup
      rw [Sys.step, hctx, AList.lookup_insert]
      apply And.intro rfl hblocks
    · rw [Sys.step, AList.lookup_insert_ne heq] at hresponse
      obtain ⟨cleanup', hcleanup', hblocks'⟩ := h.last connId' response' hresponse
      use cleanup'
      rw [Sys.step, hctx, AList.lookup_insert_ne heq]
      apply And.intro hcleanup' hblocks'

theorem Keeps.close {s : Sys} {connId : UInt64} (h : s.Keeps) (hopen : connId ∈ s.connections) :
  (s.step (.close connId)).Keeps
  := by
  obtain ⟨hctx, -⟩ := s.world.closeTrampoline_spec connId
  constructor
  · change (s.world.closeTrampoline connId).ctx.connectionCount
      = UInt64.ofNat (s.connections.erase connId).keys.length
    obtain ⟨n, hn⟩ := Nat.exists_eq_add_one_of_ne_zero (List.length_pos_of_mem hopen).ne'
    rw [hctx, h.count, AList.keys_erase, List.length_erase_of_mem hopen, hn, UInt64.ofNat_add]
    apply UInt64.add_sub_cancel
  · apply World.settle_close h.held
  · intro connId' response' hresponse
    have hne : connId' ≠ connId := by
      rintro rfl
      rw [Sys.step, AList.lookup_erase] at hresponse
      cases hresponse
    rw [Sys.step, AList.lookup_erase_ne hne] at hresponse
    obtain ⟨cleanup, hcleanup, hblocks⟩ := h.last connId' response' hresponse
    use cleanup
    rw [Sys.step, hctx, AList.lookup_erase_ne hne]
    apply And.intro hcleanup hblocks

theorem Keeps.step {s : Sys} {callback : Callback} (h : s.Keeps) (horderly : s.Orderly callback) :
  (s.step callback).Keeps
  := by
  cases callback with
  | «open» connId => apply h.open horderly
  | request connId response => apply h.request response horderly
  | close connId => apply h.close horderly

/-- In every orderly run the connections are counted and the blocks of each last response of an open
connection are held, and after the drop of the server each block was freed once. -/
theorem responses_settled {callbacks : List Callback}
    (horderly : Runs.Along step Orderly callbacks start) :
  Runs.Throughout step Sound callbacks start
    ∧ settle 0 (Runs.run step callbacks start).world.dropServer.ledger = some 0
  := by
  have hstep (s : Sys) (callback : Callback) (h : s.Keeps) (horderly : s.Orderly callback) :
      (s.step callback).Keeps := h.step horderly
  constructor
  · intro past hpast
    apply (horderly.throughout hstep keeps_start past hpast).sound
  · apply World.settle_dropServer (horderly.keeps hstep keeps_start).held

/-- A connection with two responses, the second one of another header, and one that stays open. -/
def session : List Callback :=
  [.open 1, .open 2, .request 1 ⟨200, [("Content-Type", "text/plain")], [104, 105]⟩,
    .request 1 ⟨200, [("Cache-Control", "no\u0000cache")], []⟩, .request 2 ⟨404, [], [110, 111]⟩,
    .close 1]

theorem orderly_session : Runs.Along step Orderly session start
  := by
  refine ⟨?_, ?_, ?_, ?_, ?_, ?_, trivial⟩
  all_goals
    unfold Orderly
    decide

theorem responses_settled_session :
  Runs.Throughout step Sound session start
    ∧ settle 0 (Runs.run step session start).world.dropServer.ledger = some 0
  := responses_settled orderly_session

end Sys

end FdHttp

import FiredancerRs.Lib.Runs
import FiredancerRs.Lib.Slots

/-!
# The counters of a client

`Client::new` gives the C client the address of a variable of its own and copies the variable into
the client that it returns. The variable is gone when it returns, so each update of a counter goes
to storage that is no longer there, and `Client::metrics` reads the copy, which nothing updates
(`metrics_always_zero`). The counters are right in a run exactly when none is updated
(`countersRight_iff`).
-/

namespace FdGrpc

/-- `fd_grpc_client_metrics_t` -/
structure RawMetrics where
  wakeupCnt : UInt64
  streamErrCnt : UInt64
  connErrCnt : UInt64
  streamChunksTxCnt : UInt64
  streamChunksTxBytes : UInt64
  streamChunksRxCnt : UInt64
  streamChunksRxBytes : UInt64
  requestsSent : UInt64
  streamsActive : Int64
  rxWaitTicksCum : Int64
  txWaitTicksCum : Int64
deriving DecidableEq

namespace RawMetrics

/-- `MaybeUninit::zeroed` -/
def zeroed : RawMetrics := ⟨0, 0, 0, 0, 0, 0, 0, 0, 0, 0, 0⟩

/-- The counters after an update. -/
def add (m d : RawMetrics) : RawMetrics where
  wakeupCnt := m.wakeupCnt + d.wakeupCnt
  streamErrCnt := m.streamErrCnt + d.streamErrCnt
  connErrCnt := m.connErrCnt + d.connErrCnt
  streamChunksTxCnt := m.streamChunksTxCnt + d.streamChunksTxCnt
  streamChunksTxBytes := m.streamChunksTxBytes + d.streamChunksTxBytes
  streamChunksRxCnt := m.streamChunksRxCnt + d.streamChunksRxCnt
  streamChunksRxBytes := m.streamChunksRxBytes + d.streamChunksRxBytes
  requestsSent := m.requestsSent + d.requestsSent
  streamsActive := m.streamsActive + d.streamsActive
  rxWaitTicksCum := m.rxWaitTicksCum + d.rxWaitTicksCum
  txWaitTicksCum := m.txWaitTicksCum + d.txWaitTicksCum

end RawMetrics

/-- `ClientMetrics` -/
structure ClientMetrics where
  wakeupCount : UInt64
  streamErrorCount : UInt64
  connectionErrorCount : UInt64
  streamChunksTxCount : UInt64
  streamChunksTxBytes : UInt64
  streamChunksRxCount : UInt64
  streamChunksRxBytes : UInt64
  requestsSent : UInt64
  streamsActive : Int64
  rxWaitTicksCumulative : Int64
  txWaitTicksCumulative : Int64
deriving DecidableEq

/-- `ClientMetrics::from_raw` -/
def ClientMetrics.fromRaw (metrics : RawMetrics) : ClientMetrics where
  wakeupCount := metrics.wakeupCnt
  streamErrorCount := metrics.streamErrCnt
  connectionErrorCount := metrics.connErrCnt
  streamChunksTxCount := metrics.streamChunksTxCnt
  streamChunksTxBytes := metrics.streamChunksTxBytes
  streamChunksRxCount := metrics.streamChunksRxCnt
  streamChunksRxBytes := metrics.streamChunksRxBytes
  requestsSent := metrics.requestsSent
  streamsActive := metrics.streamsActive
  rxWaitTicksCumulative := metrics.rxWaitTicksCum
  txWaitTicksCumulative := metrics.txWaitTicksCum

/-- The errors of `Error` that `Client::new` returns. -/
inductive GrpcError where
  | internalError (msg : String)
  | invalidArgument (msg : String)
deriving DecidableEq, Repr

/-- The C functions that `Client::new` calls, the allocator, and the counters that a C client of
type `η` writes to: the slot that holds them. -/
structure GrpcSys (η : Type) where
  align : UInt64
  footprint : UInt64 → UInt64
  alloc : UInt64 → UInt64
  clientNew : UInt64 → Nat → UInt64 → Option η
  counters : η → Nat

/-- `fd_grpc_client_new` stores the pointer to the counters. -/
def GrpcSys.Stores {η : Type} (sys : GrpcSys η) : Prop :=
  ∀ mem metrics bufferMax client, sys.clientNew mem metrics bufferMax = some client →
    sys.counters client = metrics

/-- `Client`, the slot that its field `metrics` is in, and the slots of the process. -/
structure Client (η : Type) where
  client : η
  home : Nat
  slots : Slots RawMetrics

variable {η : Type}

/-- `Client::new`. The variable `metrics` is gone when the function returns. -/
def Client.new (sys : GrpcSys η) (slots : Slots RawMetrics) (bufferMax : UInt64) :
    Except GrpcError (Client η) :=
  if bufferMax = 0 then
    .error (.invalidArgument "buffer_max must be > 0")
  else
    let footprint := sys.footprint bufferMax
    if footprint = 0 then
      .error (.internalError "Invalid footprint")
    else
      let memory := sys.alloc (footprint + sys.align)
      let aligned := (memory + sys.align - 1) &&& ~~~(sys.align - 1)
      let metrics := slots.next
      let slots := slots.take .zeroed
      match sys.clientNew aligned metrics bufferMax with
      | none => .error (.internalError "Failed to create gRPC client")
      | some client => .ok { client := client, home := slots.next, slots := slots.move metrics }

/-- `Client::metrics` -/
def Client.metrics (c : Client η) : Option ClientMetrics :=
  (c.slots.cells c.home).map ClientMetrics.fromRaw

/-! ### Runs of a client -/

/-- What happens to a client: the C client updates its counters, the client is moved, or its
counters are read. -/
inductive Event where
  | update (d : RawMetrics)
  | move
  | metrics

/-- The C client has updated no counter. -/
def Event.IsUpdate : Event → Prop
  | .update _ => True
  | _ => False

section Runs

variable (sys : GrpcSys η)

/-- The client after an event. -/
def Client.after (c : Client η) : Event → Client η
  | .update d => { c with slots := c.slots.modify (sys.counters c.client) fun m => m.add d }
  | .move => { c with home := c.slots.next, slots := c.slots.move c.home }
  | .metrics => c

/-- The sum of the updates after an event. -/
def total (sum : RawMetrics) : Event → RawMetrics
  | .update d => sum.add d
  | _ => sum

/-- The client and the sum of the updates after an event. -/
def step (p : Client η × RawMetrics) (e : Event) : Client η × RawMetrics :=
  (p.1.after sys e, total p.2 e)

/-- An update goes to the field of the client, and what is read is the sum of all updates. -/
def CountersRight (p : Client η × RawMetrics) : Event → Prop
  | .update _ => sys.counters p.1.client = p.1.home ∧ (p.1.slots.cells p.1.home).isSome
  | .move => True
  | .metrics => p.1.metrics = some (ClientMetrics.fromRaw p.2)

/-- The counters that the C client writes to are gone, and those of the client are zero. -/
structure Client.Detached (c : Client η) : Prop where
  gone : c.slots.Gone (sys.counters c.client)
  zero : c.slots.cells c.home = some .zeroed

variable {sys} {slots : Slots RawMetrics} {bufferMax : UInt64} {c : Client η} {events : List Event}

/-- A new client does not have the counters that its C client writes to. -/
theorem Client.detached_new (hsys : sys.Stores) (h : Client.new sys slots bufferMax = .ok c) :
  c.Detached sys
  := by
  have hcells : (slots.take RawMetrics.zeroed).cells slots.next = some .zeroed := Slots.cells_take
  unfold Client.new at h
  split at h
  · cases h
  · dsimp only at h
    split at h
    · cases h
    · split at h
      · cases h
      · next client hclient =>
        obtain rfl := Except.ok.inj h
        constructor
        · rw [hsys _ _ _ client hclient]
          apply Slots.gone_move hcells
        · apply Slots.cells_move hcells

/-- No event changes the counters of the client. -/
theorem Client.Detached.after (h : c.Detached sys) (e : Event) :
  (c.after sys e).Detached sys
  := by
  obtain ⟨hgone, hzero⟩ := h
  cases e with
  | update d =>
    constructor
    · apply hgone.modify
    · exact (Slots.cells_modify_of_ne (hgone.ne hzero)).trans hzero
  | move =>
    constructor
    · apply hgone.move
    · apply Slots.cells_move hzero
  | metrics => exact ⟨hgone, hzero⟩

/-- Whatever the C client counts, the client reads zeros. -/
theorem metrics_always_zero (hsys : sys.Stores) (h : Client.new sys slots bufferMax = .ok c) :
  (Runs.run (Client.after sys) events c).metrics = some (ClientMetrics.fromRaw .zeroed)
  := by
  have hrun : (Runs.run (Client.after sys) events c).Detached sys :=
    Runs.run_keeps (fun _ e hc => hc.after e) (Client.detached_new hsys h)
  rw [Client.metrics, hrun.zero, Option.map_some]

/-- No counter has been updated. -/
structure Uncounted (sys : GrpcSys η) (p : Client η × RawMetrics) : Prop where
  detached : p.1.Detached sys
  sum : p.2 = .zeroed

/-- While nothing is counted, an event is right exactly when it is not an update. -/
theorem Uncounted.countersRight {p : Client η × RawMetrics} (h : Uncounted sys p) (e : Event) :
  CountersRight sys p e ↔ ¬ e.IsUpdate
  := by
  obtain ⟨hdetached, hsum⟩ := h
  cases e with
  | update d =>
    apply iff_of_false _ (not_not_intro trivial)
    rintro ⟨hhome, -⟩
    apply hdetached.gone.ne hdetached.zero hhome.symm
  | move => exact iff_of_true trivial not_false
  | metrics =>
    apply iff_of_true _ not_false
    rw [CountersRight, Client.metrics, hdetached.zero, hsum, Option.map_some]

theorem Uncounted.step {p : Client η × RawMetrics} {e : Event} (h : Uncounted sys p)
    (hright : CountersRight sys p e) :
  Uncounted sys (step sys p e)
  := by
  have hnot := (h.countersRight e).mp hright
  use h.detached.after e
  cases e with
  | update d => exact absurd trivial hnot
  | move => exact h.sum
  | metrics => exact h.sum

/-- The counters are right in a run exactly when the C client updates none of them. -/
theorem countersRight_iff (hsys : sys.Stores) (h : Client.new sys slots bufferMax = .ok c) :
  Runs.Along (step sys) (CountersRight sys) events (c, .zeroed) ↔ ∀ e ∈ events, ¬ e.IsUpdate
  := by
  have hstart : Uncounted sys (c, .zeroed) := ⟨Client.detached_new hsys h, rfl⟩
  rw [Runs.along_congr (fun p e hp => hp.countersRight e) (fun p e hp => hp.step) hstart]
  apply Runs.along_const

end Runs

/-! ### An instance -/

/-- A C client that is the slot of its counters. -/
def simpleSys : GrpcSys Nat where
  align := 8
  footprint bufferMax := 1024 + bufferMax
  alloc _ := 4096
  clientNew _ metrics _ := some metrics
  counters client := client

theorem stores_simpleSys :
  simpleSys.Stores
  := by
  intro mem metrics bufferMax client h
  exact (Option.some.inj h).symm

/-- A client that is moved and read, but not polled. -/
theorem countersRight_iff_moved :
  ∃ c, Client.new simpleSys .empty 4096 = .ok c
    ∧ Runs.Along (step simpleSys) (CountersRight simpleSys) [.move, .metrics] (c, .zeroed)
  := by
  obtain ⟨c, hc⟩ : ∃ c, Client.new simpleSys .empty 4096 = .ok c := ⟨_, rfl⟩
  use c, hc
  apply (countersRight_iff stores_simpleSys hc).mpr
  simp [Event.IsUpdate]

/-- One more wakeup. -/
def wakeup : RawMetrics := { RawMetrics.zeroed with wakeupCnt := 1 }

/-- Polled once, the client still reads zero wakeups. -/
theorem counters_lost :
  ¬ ∀ (η : Type) (sys : GrpcSys η) (slots : Slots RawMetrics) (bufferMax : UInt64) (c : Client η)
      (events : List Event), sys.Stores → Client.new sys slots bufferMax = .ok c →
    Runs.Along (step sys) (CountersRight sys) events (c, .zeroed)
  := by
  intro h
  obtain ⟨c, hc⟩ : ∃ c, Client.new simpleSys .empty 4096 = .ok c := ⟨_, rfl⟩
  have hrun := h Nat simpleSys .empty 4096 c [.update wakeup, .metrics] stores_simpleSys hc
  have hread : (c.after simpleSys (.update wakeup)).metrics
      = some (ClientMetrics.fromRaw (RawMetrics.zeroed.add wakeup)) := hrun.2.1
  have hzero : (Runs.run (Client.after simpleSys) [.update wakeup] c).metrics
      = some (ClientMetrics.fromRaw .zeroed) := metrics_always_zero stores_simpleSys hc
  have hwakeups := congrArg ClientMetrics.wakeupCount (Option.some.inj (hzero.symm.trans hread))
  revert hwakeups
  decide

end FdGrpc

import FiredancerRs.Io.Run
import FiredancerRs.Lib.Ledger

/-!
# The resources of a connection

The sockets and TLS objects that a handle has opened and not released are the ones it holds
(`resources_settled`), when `fd_rpc_io_new` is called on memory that holds none. Dropping a
`Connection` is a call of `fd_rpc_io_close`.
-/

namespace FdRpcIo

open Ledger

/-- A socket, a TLS context or a TLS object. -/
inductive Resource where
  | socket (fd : Int)
  | sslCtx (ctx : Nat)
  | ssl (ssl : Nat)
deriving DecidableEq

/-- The entry of a call, when it acquires or releases a resource. -/
def OsCall.entry : OsCall → Option (Entry Resource)
  | .socket fd => some (.acquire (.socket fd))
  | .close fd => some (.release (.socket fd))
  | .sslCtxNew ctx => some (.acquire (.sslCtx ctx))
  | .sslCtxFree ctx => some (.release (.sslCtx ctx))
  | .sslNew ssl => some (.acquire (.ssl ssl))
  | .sslFree ssl => some (.release (.ssl ssl))
  | _ => none

/-- The ledger of a list of calls. -/
def ledger (calls : List OsCall) : List (Entry Resource) := calls.filterMap OsCall.entry

variable {ρ : Type}

/-- The resources in the fields of a handle. -/
def Io.held (io : Io ρ) : List Resource :=
  (io.ssl.map Resource.ssl).toList ++ (io.sslCtx.map Resource.sslCtx).toList
    ++ if 0 ≤ io.sockFd then [.socket io.sockFd] else []

variable {platform : Platform} {io : Io ρ}

theorem ledger_append (calls calls' : List OsCall) :
  ledger (calls ++ calls') = ledger calls ++ ledger calls'
  := List.filterMap_append

theorem held_eq_nil :
  io.held = [] ↔ io.ssl = none ∧ io.sslCtx = none ∧ io.sockFd < 0
  := by
  by_cases h : 0 ≤ io.sockFd <;> simp [Io.held, h]
  exact fun _ _ => Int.not_le.mp h

/-- A closed handle holds nothing. -/
theorem held_close :
  (close io).io.held = []
  := by
  rw [held_eq_nil]
  use rfl, rfl
  simp only [close]
  split
  · decide
  · apply Int.not_le.mp ‹_›

/-- `fd_rpc_io_close` releases what is held, in order. -/
theorem ledger_close :
  ledger (close io).calls = io.held.map .release
  := by
  obtain ⟨sockFd, state, err, sslCtx, ssl, sslHsDone, rbufRx, rbufTx⟩ := io
  by_cases h : 0 ≤ sockFd <;> cases ssl <;> cases sslCtx
    <;> simp [close, Io.held, ledger, List.filterMap_cons, OsCall.entry, h]

/-- Closing a handle that holds nothing makes no calls. -/
theorem close_of_held_eq_nil (h : io.held = []) :
  close io = { ret := (), io := { io with state := .disconnected }, calls := [] }
  := by
  obtain ⟨hssl, hctx, hfd⟩ := held_eq_nil.mp h
  obtain ⟨sockFd, state, err, sslCtx, ssl, sslHsDone, rbufRx, rbufTx⟩ := io
  subst hssl hctx
  simp [close, Int.not_le.mpr hfd]

/-- Closing is idempotent. -/
theorem close_close :
  close (close io).io = { ret := (), io := (close io).io, calls := [] }
  := close_of_held_eq_nil held_close

/-- A connect of a handle that holds nothing opens what the handle then holds. -/
theorem settle_connect (h : io.held = []) (a : ConnectAnswers) (addr : UInt32) (port : UInt16)
    (useTls : Bool) (hostname : Option String) :
  settle 0 (ledger (connect platform a addr port useTls hostname io).calls)
    = some ((connect platform a addr port useTls hostname io).io.held : Multiset Resource)
  := by
  obtain ⟨hssl, hctx, hfd⟩ := held_eq_nil.mp h
  have hhost : ∀ ssl, ledger (hostname.map (OsCall.sslSetHost ssl)).toList = [] := by
    cases hostname <;> exact fun _ => rfl
  have hend := connect_end platform a addr port useTls hostname io
  generalize connect platform a addr port useTls hostname io = outcome at hend ⊢
  cases hend with
  | refused => rw [h]; rfl
  | tls _ hsock _ ctx ssl =>
    rw [ledger_append, hhost, List.append_nil]
    simp [ledger, List.filterMap_cons, OsCall.entry, Io.held, hsock]
    rfl
  | plain _ hsock =>
    simp [ledger, List.filterMap_cons, OsCall.entry, Io.held, hssl, hctx, hsock]
  | noSocket | noFlags | failed | noCtx | noSsl =>
    simp [ledger, List.filterMap_cons, OsCall.entry, Io.held, hssl, hctx, Int.not_le.mpr hfd]

/-- A connect of a handle that is not disconnected is refused. -/
theorem connect_refused (h : io.state ≠ .disconnected) (a : ConnectAnswers) (addr : UInt32)
    (port : UInt16) (useTls : Bool) (hostname : Option String) :
  connect platform a addr port useTls hostname io = { ret := -1, io := io, calls := [] }
  := by rw [connect, if_pos h]

/-- A connect of a handle that holds nothing holds nothing when it fails. -/
theorem held_connect_of_ret {a : ConnectAnswers} {addr : UInt32} {port : UInt16} {useTls : Bool}
    {hostname : Option String} (h : io.held = [])
    (hret : (connect platform a addr port useTls hostname io).ret ≠ 0) :
  (connect platform a addr port useTls hostname io).io.held = []
  := by
  obtain ⟨hssl, hctx, hfd⟩ := held_eq_nil.mp h
  have hend := connect_end platform a addr port useTls hostname io
  generalize connect platform a addr port useTls hostname io = outcome at hret hend ⊢
  cases hend with
  | refused => exact h
  | tls | plain => exact absurd rfl hret
  | noSocket | noFlags | failed | noCtx | noSsl =>
    rw [held_eq_nil]
    simp [hssl, hctx, hfd]

/-- A connect of a handle that holds nothing does not leave it disconnected, unless it is
refused. -/
theorem connect_not_disconnected {a : ConnectAnswers} {addr : UInt32} {port : UInt16}
    {useTls : Bool} {hostname : Option String} :
  (connect platform a addr port useTls hostname io).io.state ≠ .disconnected
  := by
  have hend := connect_end platform a addr port useTls hostname io
  generalize connect platform a addr port useTls hostname io = outcome at hend ⊢
  cases hend with
  | refused h => exact h
  | tls | plain =>
    simp only
    split <;> simp
  | noSocket | noFlags | failed | noCtx | noSsl => simp

variable [RbufSys ρ]

/-- A pump leaves what is held and makes no entry. -/
theorem pump_held (a : PumpAnswers) :
  (pump a io).io.held = io.held ∧ ledger (pump a io).calls = []
  := by
  have hhandshake :
      ledger (io.ssl.map fun ssl => OsCall.sslDoHandshake ssl a.handshake).toList = [] := by
    cases io.ssl <;> rfl
  have hend := pump_end a io
  generalize pump a io = outcome at hend ⊢
  cases hend <;> first | exact ⟨rfl, rfl⟩ | exact ⟨rfl, hhandshake⟩

/-- A pump of a handle that is not disconnected does not disconnect it. -/
theorem pump_not_disconnected {a : PumpAnswers} (h : io.state ≠ .disconnected) :
  (pump a io).io.state ≠ .disconnected
  := by
  have hend := pump_end a io
  generalize pump a io = outcome at hend ⊢
  cases hend <;> first | assumption | simp
  split <;> simp

namespace World

/-- A call that makes no new handle over one that holds something. -/
def CleanStep (platform : Platform) (w w' : World ρ) : Prop :=
  ∃ call, (∀ rxBufsz txBufsz, call = .new rxBufsz txBufsz → w.io.held = [])
    ∧ w' = w.step platform call

/-- What was opened and not released is held, and a disconnected handle holds nothing. -/
structure Settled (w : World ρ) : Prop where
  ledger : settle 0 (ledger w.calls) = some (w.io.held : Multiset Resource)
  disconnected : w.io.state = .disconnected → w.io.held = []

namespace Settled

variable {w : World ρ}

theorem start (rxBufsz txBufsz : Nat) :
  Settled (World.start rxBufsz txBufsz : World ρ)
  := by
  constructor
  · rfl
  · exact fun _ => rfl

/-- The calls of a step are settled after the calls before it. -/
theorem settle_step (h : w.Settled) (call : Call) :
  settle 0 (FdRpcIo.ledger (w.step platform call).calls)
    = settle (w.io.held : Multiset Resource) (FdRpcIo.ledger (call.exec platform w.io).2)
  := by
  rw [World.step, ledger_append, settle_append, h.ledger, Option.bind_some]

/-- A clean step keeps the handle settled. -/
theorem step (h : w.Settled) {w' : World ρ} (hstep : CleanStep platform w w') :
  w'.Settled
  := by
  obtain ⟨call, hclean, rfl⟩ := hstep
  have hsettle : settle 0 (FdRpcIo.ledger (w.step platform call).calls)
      = settle (w.io.held : Multiset Resource) (FdRpcIo.ledger (call.exec platform w.io).2) :=
    h.settle_step call
  cases call with
  | new rxBufsz txBufsz =>
    have hheld := hclean rxBufsz txBufsz rfl
    constructor
    · rw [hsettle, hheld]
      rfl
    · exact fun _ => rfl
  | connect a addr port useTls hostname =>
    rw [Call.exec] at hsettle
    constructor
    · rw [hsettle, World.step, Call.exec]
      by_cases hstate : w.io.state = .disconnected
      · have hheld := h.disconnected hstate
        rw [hheld]
        apply settle_connect hheld
      · rw [connect_refused hstate]
        rfl
    · exact fun hstate => absurd hstate connect_not_disconnected
  | pump a =>
    obtain ⟨hheld, hledger⟩ := @pump_held ρ w.io _ a
    rw [Call.exec, hledger] at hsettle
    constructor
    · rw [hsettle, World.step, Call.exec, hheld]
      rfl
    · intro hstate
      rw [World.step, Call.exec, hheld]
      apply h.disconnected
      by_contra hne
      apply pump_not_disconnected hne hstate
  | close =>
    rw [Call.exec, ledger_close, settle_release_all] at hsettle
    constructor
    · rw [hsettle, World.step, Call.exec, held_close]
      rfl
    · exact fun _ => held_close

/-- A clean run keeps the handle settled. -/
theorem run (h : w.Settled) {w' : World ρ}
    (hrun : Relation.ReflTransGen (CleanStep platform) w w') :
  w'.Settled
  := by
  induction hrun with
  | refl => apply h
  | tail _ hstep ih => apply ih.step hstep

end Settled

end World

open World

variable {w : World ρ}

/-- In every run that makes no new handle over one that holds something, what was opened and
not released is what the handle holds, and nothing is released twice. A disconnected handle
holds nothing, a connect of it that fails leaves nothing held, a connect of any other handle is
refused and changes nothing, and closing leaves nothing held and is idempotent. -/
theorem resources_settled {rxBufsz txBufsz : Nat}
    (hrun : Relation.ReflTransGen (CleanStep platform) (start rxBufsz txBufsz) w) :
  settle 0 (ledger w.calls) = some (w.io.held : Multiset Resource)
    ∧ (w.io.state = .disconnected → w.io.held = [])
    ∧ (∀ a addr port useTls hostname, w.io.state = .disconnected →
      (connect platform a addr port useTls hostname w.io).ret ≠ 0 →
      (connect platform a addr port useTls hostname w.io).io.held = [])
    ∧ (∀ a addr port useTls hostname, w.io.state ≠ .disconnected →
      connect platform a addr port useTls hostname w.io = { ret := -1, io := w.io, calls := [] })
    ∧ (close w.io).io.held = []
    ∧ close (close w.io).io = { ret := (), io := (close w.io).io, calls := [] }
  := by
  have hsettled := (Settled.start rxBufsz txBufsz).run hrun
  use hsettled.ledger, hsettled.disconnected
  constructor
  · intro a addr port useTls hostname hstate hret
    apply held_connect_of_ret (hsettled.disconnected hstate) hret
  · constructor
    · exact fun a addr port useTls hostname hstate => connect_refused hstate ..
    · exact ⟨held_close, close_close⟩

/-- A connection over TCP. -/
def connected : World :=
  (start 64 64).step .linux (.connect { socket := 3, connect := 0 } 0 80 false none)

/-- A new handle over one that is connected loses its socket, and a connect of one that is
connected fails and leaves its socket held. -/
theorem connected_not_settled :
  ¬ (∀ w : World, Reachable .linux w →
      settle 0 (ledger w.calls) = some (w.io.held : Multiset Resource))
    ∧ ¬ (∀ w : World, Reachable .linux w → ∀ a addr port useTls hostname,
      (connect .linux a addr port useTls hostname w.io).ret = -1 →
      (connect .linux a addr port useTls hostname w.io).io.held = [])
  := by
  have hconnected : Reachable .linux connected := ⟨64, 64, .single ⟨_, rfl⟩⟩
  constructor
  · intro h
    have hnew : Reachable .linux (connected.step .linux (.new 64 64)) :=
      ⟨64, 64, (Relation.ReflTransGen.single ⟨_, rfl⟩).tail ⟨_, rfl⟩⟩
    have hsettled := h _ hnew
    contradiction
  · intro h
    have hheld := h connected hconnected { socket := 4, connect := 0 } 0 80 false none rfl
    contradiction

/-- The socket of a connection is the resource that it holds. -/
theorem resources_settled_connected :
  settle 0 (ledger connected.calls) = some (connected.io.held : Multiset Resource)
  := by
  have hrun : Relation.ReflTransGen (CleanStep .linux) (start 64 64) connected :=
    .single ⟨_, by simp, rfl⟩
  apply (resources_settled hrun).1

end FdRpcIo

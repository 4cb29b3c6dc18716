import FiredancerRs.Io.Run
import Mathlib.Data.List.Basic

/-!
# The transport of a TLS connection

When the last connect that succeeded was one with `use_tls`, the handle is ready only after a
handshake on its TLS object, and only TLS reads and writes of the ready handle move bytes
between the rings and the socket (`no_plaintext`).
-/

namespace FdRpcIo

/-- The call moves bytes between a ring and a socket. -/
def OsCall.IsTransfer : OsCall → Prop
  | .sslRead _ | .sslWrite _ | .recvmsg _ | .sendmsg _ => True
  | _ => False

/-- The TLS object is the last that was made. -/
def Current (ssl : Nat) (calls : List OsCall) : Prop :=
  ∃ before after, calls = before ++ .sslNew ssl :: after ∧ ∀ other, .sslNew other ∉ after

/-- The TLS object is the last that was made, and a handshake on it has succeeded since. -/
def Secured (ssl : Nat) (calls : List OsCall) : Prop :=
  ∃ before after, calls = before ++ .sslNew ssl :: after ∧ (∀ other, .sslNew other ∉ after)
    ∧ ∃ res > 0, .sslDoHandshake ssl res ∈ after

variable {ρ : Type} {ssl : Nat} {calls more : List OsCall}

theorem Current.append (h : Current ssl calls) (hmore : ∀ other, .sslNew other ∉ more) :
  Current ssl (calls ++ more)
  := by
  obtain ⟨before, after, rfl, hafter⟩ := h
  use before, after ++ more
  constructor
  · simp
  · intro other hmem
    rcases List.mem_append.mp hmem with hmem | hmem
    · apply hafter other hmem
    · apply hmore other hmem

theorem Secured.append (h : Secured ssl calls) (hmore : ∀ other, .sslNew other ∉ more) :
  Secured ssl (calls ++ more)
  := by
  obtain ⟨before, after, rfl, hafter, res, hres, hmem⟩ := h
  use before, after ++ more
  constructor
  · simp
  constructor
  · intro other hmem
    rcases List.mem_append.mp hmem with hmem | hmem
    · apply hafter other hmem
    · apply hmore other hmem
  · use res, hres
    apply List.mem_append_left more hmem

/-- A handshake that succeeds secures the current object. -/
theorem Current.secured (h : Current ssl calls) {res : Int} (hres : 0 < res) :
  Secured ssl (calls ++ [.sslDoHandshake ssl res])
  := by
  obtain ⟨before, after, rfl, hafter⟩ := h
  use before, after ++ [.sslDoHandshake ssl res]
  constructor
  · simp
  constructor
  · intro other hmem
    rcases List.mem_append.mp hmem with hmem | hmem
    · apply hafter other hmem
    · simp at hmem
  · use res, hres
    simp

namespace World

/-- The link between the TLS object, the state and the last successful connect. -/
structure TlsInv (w : World ρ) : Prop where
  disconnected : w.io.state = .disconnected → w.io.ssl = none
  kind : w.io.state = .connecting ∨ w.io.state = .ready →
    (w.io.ssl.isSome ↔ w.lastTls = true)
  handshake : w.io.state = .tlsHandshake → w.io.ssl.isSome ∧ w.lastTls = true
  current : ∀ ssl, w.io.ssl = some ssl → Current ssl w.calls
  secured : w.io.state = .ready → ∀ ssl, w.io.ssl = some ssl → Secured ssl w.calls

namespace TlsInv

variable {platform : Platform} {w : World ρ}

/-- A handle without a TLS object in a state that does not ask for one. -/
theorem of_none {w : World ρ} (hssl : w.io.ssl = none)
    (hstate : w.io.state ≠ .tlsHandshake)
    (hkind : w.io.state = .connecting ∨ w.io.state = .ready → w.lastTls = false) :
  TlsInv w
  := by
  constructor
  case disconnected => exact fun _ => hssl
  case kind =>
    intro h
    rw [hssl, hkind h]
    simp
  case handshake => exact fun h => absurd h hstate
  all_goals simp [hssl]

/-- A call that ends in the error state. -/
theorem of_error (h : w.TlsInv) {w' : World ρ} {more : List OsCall}
    (hcalls : w'.calls = w.calls ++ more) (hssl : w'.io.ssl = w.io.ssl)
    (hstate : w'.io.state = .error) (hmore : ∀ other, .sslNew other ∉ more) :
  TlsInv w'
  := by
  constructor
  case disconnected => simp [hstate]
  case kind => simp [hstate]
  case handshake => simp [hstate]
  case current =>
    intro ssl hcase
    rw [hcalls]
    apply (h.current ssl (hssl ▸ hcase)).append hmore
  case secured => simp [hstate]

/-- A call that leaves the TLS object and the state. -/
theorem of_same (h : w.TlsInv) {w' : World ρ} {more : List OsCall}
    (hcalls : w'.calls = w.calls ++ more) (hssl : w'.io.ssl = w.io.ssl)
    (hstate : w'.io.state = w.io.state) (hlast : w'.lastTls = w.lastTls)
    (hmore : ∀ other, .sslNew other ∉ more) :
  TlsInv w'
  := by
  constructor
  case disconnected =>
    rw [hssl, hstate]
    apply h.disconnected
  case kind =>
    rw [hssl, hstate, hlast]
    apply h.kind
  case handshake =>
    rw [hssl, hstate, hlast]
    apply h.handshake
  case current =>
    intro ssl hcase
    rw [hcalls]
    apply (h.current ssl (hssl ▸ hcase)).append hmore
  case secured =>
    intro hready ssl hcase
    rw [hcalls]
    apply (h.secured (hstate ▸ hready) ssl (hssl ▸ hcase)).append hmore

variable [RbufSys ρ]

theorem start (rxBufsz txBufsz : Nat) :
  TlsInv (World.start rxBufsz txBufsz : World ρ)
  := by
  constructor <;> simp [World.start, new]

theorem connect (h : w.TlsInv) (a : ConnectAnswers) (addr : UInt32) (port : UInt16)
    (useTls : Bool) (hostname : Option String) :
  TlsInv (w.step platform (.connect a addr port useTls hostname))
  := by
  have hend := connect_end platform a addr port useTls hostname w.io
  rw [step, Call.exec, Call.lastTls]
  generalize FdRpcIo.connect platform a addr port useTls hostname w.io = outcome at hend ⊢
  cases hend with
  | refused => exact h.of_same rfl rfl rfl rfl (by simp)
  | noSocket hstate => exact h.of_error rfl rfl rfl (by simp)
  | noFlags hstate => exact h.of_error rfl rfl rfl (by simp)
  | failed hstate => exact h.of_error rfl rfl rfl (by simp)
  | noCtx hstate => exact h.of_error rfl rfl rfl (by simp)
  | noSsl hstate ctx => exact h.of_error rfl (h.disconnected hstate).symm rfl (by simp)
  | plain hstate _ htls =>
    apply of_none
    · apply h.disconnected hstate
    · simp only
      split <;> simp
    · intro
      simp [htls]
  | tls hstate _ htls ctx ssl =>
    have hcurrent : Current ssl (w.calls
        ++ ([.socket a.socket, .connect a.socket addr port, .sslCtxNew ctx, .sslNew ssl]
          ++ (hostname.map (OsCall.sslSetHost ssl)).toList)) := by
      use w.calls ++ [.socket a.socket, .connect a.socket addr port, .sslCtxNew ctx],
        (hostname.map (OsCall.sslSetHost ssl)).toList
      simp
    constructor
    case disconnected =>
      simp only
      split <;> simp
    case kind => simp [htls]
    case handshake => simp [htls]
    case current =>
      rintro _ ⟨⟩
      apply hcurrent
    case secured =>
      simp only
      split <;> simp

theorem pump (h : w.TlsInv) (a : PumpAnswers) :
  TlsInv (w.step platform (.pump a))
  := by
  have hend := pump_end a w.io
  rw [step, Call.exec]
  generalize FdRpcIo.pump a w.io = outcome at hend ⊢
  have hhandshake : ∀ other,
      .sslNew other ∉ (w.io.ssl.map fun ssl => OsCall.sslDoHandshake ssl a.handshake).toList := by
    cases w.io.ssl <;> simp
  cases hend with
  | idle => exact h.of_same rfl rfl rfl rfl (by simp)
  | connectFailed => exact h.of_error rfl rfl rfl (by simp)
  | connected hstate =>
    have hkind := h.kind (.inl hstate)
    constructor
    case disconnected =>
      simp only
      split <;> simp
    case kind => exact fun _ => hkind
    case handshake =>
      simp only
      split
      case isTrue hssl => exact fun _ => ⟨hssl, hkind.mp hssl⟩
      case isFalse => simp
    case current =>
      simp only [List.append_nil]
      apply h.current
    case secured =>
      intro hready ssl hssl
      simp only [show w.io.ssl = some ssl from hssl] at hready
      contradiction
  | handshakeWaits => exact h.of_same rfl rfl rfl rfl hhandshake
  | handshakeFailed => exact h.of_error rfl rfl rfl hhandshake
  | handshakeDone hstate hres =>
    obtain ⟨hsome, htls⟩ := h.handshake hstate
    obtain ⟨ssl, hssl⟩ := Option.isSome_iff_exists.mp hsome
    constructor
    case disconnected => simp
    case kind => exact fun _ => ⟨fun _ => htls, fun _ => hsome⟩
    case handshake => simp
    case current => exact fun ssl hcase => (h.current ssl hcase).append hhandshake
    case secured =>
      intro _ ssl' hcase
      have hsecured := (h.current ssl' hcase).secured hres
      simp only [show w.io.ssl = some ssl' from hcase]
      apply hsecured
  | tlsFailed => exact h.of_error rfl rfl rfl (by simp)
  | tlsMoved => exact h.of_same rfl rfl rfl rfl (by simp)
  | plainClosed => exact h.of_error rfl rfl rfl (by simp)
  | plainRxFailed => exact h.of_error rfl rfl rfl (by simp)
  | plainTxFailed => exact h.of_error rfl rfl rfl (by simp)
  | plainMoved => exact h.of_same rfl rfl rfl rfl (by simp)

/-- Every call keeps the link. -/
theorem step (h : w.TlsInv) (call : Call) :
  TlsInv (w.step platform call)
  := by
  cases call with
  | new => apply of_none <;> simp [World.step, Call.exec, FdRpcIo.new]
  | connect a addr port useTls hostname => apply h.connect
  | pump a => apply h.pump
  | close => apply of_none <;> simp [World.step, Call.exec, FdRpcIo.close]

end TlsInv

end World

/-! ### Transfers -/

section Transfers

variable {io : Io ρ} {c : OsCall}

theorem not_transfer_of_connect {platform : Platform} {a : ConnectAnswers} {addr : UInt32}
    {port : UInt16} {useTls : Bool} {hostname : Option String}
    (hc : c ∈ (connect platform a addr port useTls hostname io).calls) :
  ¬ c.IsTransfer
  := by
  have hend := connect_end platform a addr port useTls hostname io
  generalize connect platform a addr port useTls hostname io = outcome at hc hend
  cases hend <;> simp only [List.mem_append, List.mem_cons, List.not_mem_nil, or_false] at hc
  case tls =>
    rcases hc with (rfl | rfl | rfl | rfl) | hc
    case inr =>
      obtain ⟨name, -, rfl⟩ := Option.map_eq_some_iff.mp (Option.mem_toList.mp hc)
      apply id
    all_goals exact id
  all_goals rcases hc with rfl | rfl | rfl | rfl | rfl <;> exact id

theorem not_transfer_of_close (hc : c ∈ (close io).calls) :
  ¬ c.IsTransfer
  := by
  simp only [close, List.mem_append] at hc
  rcases hc with (hc | hc) | hc
  · split at hc
    · rcases List.mem_pair.mp hc with rfl | rfl <;> exact id
    · contradiction
  · obtain ⟨ctx, -, rfl⟩ := Option.map_eq_some_iff.mp (Option.mem_toList.mp hc)
    apply id
  · split at hc
    · rw [List.mem_singleton.mp hc]
      apply id
    · contradiction

variable [RbufSys ρ]

/-- A pump transfers bytes of a ready handle, over its TLS object when it has one. -/
theorem transfer_of_pump {a : PumpAnswers} (hc : c ∈ (pump a io).calls) (h : c.IsTransfer) :
  io.state = .ready
    ∧ (io.ssl = none ∨ ∃ ssl, io.ssl = some ssl ∧ (c = .sslRead ssl ∨ c = .sslWrite ssl))
  := by
  have hhandshake :
      c ∉ (io.ssl.map fun ssl => OsCall.sslDoHandshake ssl a.handshake).toList := by
    intro hmem
    obtain ⟨ssl, -, rfl⟩ := Option.map_eq_some_iff.mp (Option.mem_toList.mp hmem)
    apply h
  have hend := pump_end a io
  generalize pump a io = outcome at hc hend
  cases hend with
  | idle | connectFailed | connected => contradiction
  | handshakeWaits | handshakeFailed | handshakeDone => exact absurd hc hhandshake
  | tlsFailed hready ssl hssl =>
    use hready
    right
    use ssl, hssl
    left
    apply List.mem_singleton.mp hc
  | tlsMoved hready ssl hssl =>
    use hready
    right
    use ssl, hssl
    apply List.mem_pair.mp hc
  | plainClosed hready hssl | plainRxFailed hready hssl | plainTxFailed hready hssl
  | plainMoved hready hssl => exact ⟨hready, .inl hssl⟩

/-- Only a pump of a ready handle changes the rings of a handle that there is. -/
theorem ready_of_rings {platform : Platform} {call : Call}
    (hnew : ∀ rxBufsz txBufsz, call ≠ .new rxBufsz txBufsz)
    (h : (call.exec platform io).1.rbufRx ≠ io.rbufRx
      ∨ (call.exec platform io).1.rbufTx ≠ io.rbufTx) :
  io.state = .ready
  := by
  cases call with
  | new rxBufsz txBufsz => exact absurd rfl (hnew rxBufsz txBufsz)
  | close => simp [Call.exec, close] at h
  | connect a addr port useTls hostname =>
    have hend := connect_end platform a addr port useTls hostname io
    rw [Call.exec] at h
    generalize connect platform a addr port useTls hostname io = outcome at h hend
    cases hend <;> simp at h
  | pump a =>
    have hend := pump_end a io
    rw [Call.exec] at h
    generalize pump a io = outcome at h hend
    cases hend <;> first | assumption | simp at h

end Transfers

open World

variable [RbufSys ρ] {platform : Platform} {w : World ρ}

/-- When the last successful connect was one with `use_tls`, the handle is ready only after a
successful handshake on its TLS object, a call moves bytes only when the handle is ready, and
then by reads and writes on that object, and the rings change in no other state. -/
theorem no_plaintext (hreach : Reachable platform w) (htls : w.lastTls = true) :
  (w.io.state = .ready → ∃ ssl, w.io.ssl = some ssl ∧ Secured ssl w.calls)
    ∧ (∀ call : Call, ∀ c ∈ (call.exec platform w.io).2, c.IsTransfer →
      w.io.state = .ready ∧ ∃ ssl, w.io.ssl = some ssl ∧ (c = .sslRead ssl ∨ c = .sslWrite ssl))
    ∧ ∀ call : Call, (∀ rxBufsz txBufsz, call ≠ .new rxBufsz txBufsz) →
      ((call.exec platform w.io).1.rbufRx ≠ w.io.rbufRx
        ∨ (call.exec platform w.io).1.rbufTx ≠ w.io.rbufTx) → w.io.state = .ready
  := by
  have hinv : w.TlsInv := hreach.invariant TlsInv.start fun w call h => h.step call
  have hsome (hready : w.io.state = .ready) : ∃ ssl, w.io.ssl = some ssl :=
    Option.isSome_iff_exists.mp ((hinv.kind (.inr hready)).mpr htls)
  constructor
  · intro hready
    obtain ⟨ssl, hssl⟩ := hsome hready
    use ssl, hssl
    apply hinv.secured hready ssl hssl
  constructor
  · intro call c hc htransfer
    cases call with
    | new => contradiction
    | connect => exact absurd htransfer (not_transfer_of_connect hc)
    | close => exact absurd htransfer (not_transfer_of_close hc)
    | pump a =>
      obtain ⟨hready, hnone | hssl⟩ := transfer_of_pump hc htransfer
      · obtain ⟨ssl, hssl⟩ := hsome hready
        rw [hnone] at hssl
        contradiction
      · exact ⟨hready, hssl⟩
  · exact fun call => ready_of_rings

/-- A TLS connection after its handshake. -/
def tlsReady : World :=
  ((World.start 64 64).step .linux
      (.connect { socket := 3, connect := 0, sslCtx := some 1, ssl := some 2 } 0 443 true none)).step
    .linux (.pump { handshake := 1 })

/-- The TLS object of a connection after its handshake is secured. -/
theorem no_plaintext_tlsReady :
  ∃ ssl, tlsReady.io.ssl = some ssl ∧ Secured ssl tlsReady.calls
  := by
  have hreach : Reachable .linux tlsReady := by
    use 64, 64
    apply (Relation.ReflTransGen.single ⟨_, rfl⟩).tail ⟨_, rfl⟩
  apply (no_plaintext hreach rfl).1 rfl

end FdRpcIo

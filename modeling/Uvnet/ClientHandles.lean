import Uvnet.ClientSteps
import Uvnet.RecvRun

/- Whether a client uses its `tcp_handle` and `_connect_req` as libuv asks.

   A reconnection attempt that ends with an error in `OnConnect` leaves its handle open and
   starts the timer again, so that the next attempt initialises an open handle
   (`handle_protocol_fails`); and the timer repeats, so that it fires again while an attempt
   is outstanding. `Connect` on a client that is not closed goes on with handles it has just
   asked to close. Runs without these keep the protocol (`handle_protocol_kept`). -/
namespace Uvnet
open CMachine LoopHandle StepRun

namespace TCPClient

/-- `Connect` reaches `_init` on a closed client, with a `uv_timer_init` that does not fail there, or
on any other with an address that is refused; no reconnection attempt ends with an error in
`OnConnect`; in a reconnection the timer fires with no attempt and no close outstanding. -/
def Orderly (s : TCPClient) : TcpClientEvent → Prop
  | .issue asyncInit tcpInit timerInit ip4Addr _ _ =>
    if s.isClosed then asyncInit = 0 → tcpInit = 0 → timerInit = 0 else ip4Addr ≠ 0
  | .onConnect status _ => status ≠ 0 → s.isConnecting = false
  | .timer .. => s.isConnecting = true → s.connectReq = none ∧ ∀ cb, s.tcpHandle ≠ .closing cb
  | _ => True

/-- Where the handle stands. -/
structure HandlesOk (s : TCPClient) : Prop where
  /-- A closed client has nothing in the loop that the handle is in. -/
  idle : s.isClosed = true →
    s.looping = false ∧ s.tcpHandle = .raw ∧ s.connectReq = none ∧ s.isConnecting = false
  /-- Where the async handle has been closed, so has the other, for good. -/
  closing : s.isClosed = false →
    (∃ b, s.asyncHandle = .opened b) ∨ (s.isConnecting = false ∧ ∀ b, s.tcpHandle ≠ .opened b)
  /-- In a reconnection the handle is open for an attempt that is outstanding only. -/
  connecting : s.isConnecting = true → (∀ b, s.tcpHandle ≠ .opened b) ∨ s.connectReq.isSome

section Handles
variable {env : Env} {s s' s₁ : TCPClient} {e : TcpClientEvent} {call : Misuse} {b : Bool}

theorem HandlesOk.closeAll (h : HandlesOk s) : HandlesOk s.closeAll := by
  unfold TCPClient.closeAll
  split
  · exact h
  · next hc =>
    exact ⟨fun hc' => absurd hc' hc, fun _ => .inr ⟨rfl, fun _ => Handle.closeWalk_ne_opened⟩, nofun⟩

theorem HandlesOk.async_opened (h : HandlesOk s) (hc : s.isClosed = false) (ho : s.tcpHandle = .opened b) :
    ∃ b, s.asyncHandle = .opened b :=
  (h.closing hc).resolve_right fun hno => hno.2 b ho

theorem HandlesOk.notClosed (h : HandlesOk s) (hl : s.looping = true) : s.isClosed = false := by
  rw [Bool.eq_false_iff]
  intro hc
  rw [(h.idle hc).1] at hl
  cases hl

theorem HandlesOk.async_connecting (h : HandlesOk s) (hl : s.looping = true) (hcon : s.isConnecting = true) :
    ∃ b, s.asyncHandle = .opened b := by
  refine (h.closing (h.notClosed hl)).resolve_right fun hno => ?_
  rw [hno.1] at hcon
  cases hcon

theorem HandlesOk.unopened (h : HandlesOk s) (hl : s.looping = true) (hclosed : s'.isClosed = s.isClosed)
    (hasync : s'.asyncHandle = s.asyncHandle) (hcon : s'.isConnecting = s.isConnecting)
    (hno : ∀ b, s'.tcpHandle ≠ .opened b) : HandlesOk s' := by
  have hc := hclosed.trans (h.notClosed hl)
  refine ⟨fun hc' => ?_, fun _ => ?_, fun _ => .inl hno⟩
  · rw [hc] at hc'
    cases hc'
  · rw [hasync, hcon]
    exact (h.closing (h.notClosed hl)).imp_right fun hold => ⟨hold.1, hno⟩

theorem HandlesOk.connected (h : HandlesOk s) (hl : s.looping = true) (ho : s.tcpHandle = .opened b)
    (hclosed : s'.isClosed = s.isClosed) (hasync : s'.asyncHandle = s.asyncHandle) (hcon : s'.isConnecting = false) :
    HandlesOk s' := by
  have hc := hclosed.trans (h.notClosed hl)
  refine ⟨fun hc' => ?_, fun _ => .inl ?_, fun hcon' => ?_⟩
  · rw [hc] at hc'
    cases hc'
  · rw [hasync]
    exact h.async_opened (h.notClosed hl) ho
  · rw [hcon] at hcon'
    cases hcon'

theorem HandlesOk.inited {asyncInit tcpInit timerInit ip4Addr tcpConnect threadCreate : Int} {ok : Bool}
    (h : HandlesOk s) (hc : Orderly s (.issue asyncInit tcpInit timerInit ip4Addr tcpConnect threadCreate))
    (hi : Inited s asyncInit tcpInit timerInit s₁ ok) : HandlesOk s₁ := by
  cases hi with
  | up => exact h
  | asyncFailed => exact h
  | tcpFailed hcl => exact ⟨h.idle, fun hno => absurd (hcl.symm.trans hno) nofun, h.connecting⟩
  | timerFailed hcl _ ha ht hm =>
    rw [Orderly, if_pos hcl] at hc
    -- The handle would be left open, and the client closed.
    exact absurd (hc ha ht) hm
  | allUp hcl _ =>
    refine ⟨nofun, fun _ => .inl ⟨false, rfl⟩, fun hcon => ?_⟩
    exact absurd ((h.idle hcl).2.2.2.symm.trans hcon) nofun

/-- Where the loop of `Connect` is reached in an orderly run, the client is open. -/
theorem Inited.up_closed {asyncInit tcpInit timerInit ip4Addr tcpConnect threadCreate : Int}
    (hi : Inited s asyncInit tcpInit timerInit s₁ true)
    (hc : Orderly s (.issue asyncInit tcpInit timerInit ip4Addr tcpConnect threadCreate)) (hip : ip4Addr = 0) :
    s.isClosed = true ∧ s₁ = s.allUp := by
  cases hi with
  | up hno =>
    rw [Orderly, if_neg (by rw [hno]; nofun)] at hc
    -- `_close` has just closed the handles.
    exact absurd hip hc
  | allUp hcl _ => exact ⟨hcl, rfl⟩

theorem HandlesOk.gone (h : HandlesOk s) (hc : s.isClosed = false) (ha : s.alive = false) :
    s.tcpHandle = .raw ∧ s.connectReq = none ∧ s.isConnecting = false := by
  simp only [alive, Bool.or_eq_false_iff, decide_eq_false_iff_not, Decidable.not_not, Option.isSome_eq_false_iff,
    Option.isNone_iff_eq_none] at ha
  obtain ⟨⟨⟨⟨hasync, htcp⟩, -⟩, -⟩, hreq⟩ := ha
  -- The async handle keeps the loop running, so it has been closed.
  obtain ⟨hcon, hno⟩ := (h.closing hc).resolve_left fun ⟨b, hb⟩ => by rw [hasync] at hb; cases hb
  refine ⟨?_, hreq, hcon⟩
  cases hh : s.tcpHandle with
  | raw => rfl
  | opened b => exact absurd hh (hno b)
  | closing cb =>
    rw [hh] at htcp
    cases htcp

/-- **An orderly step keeps the handle where it should be.** -/
theorem HandlesOk.step (h : HandlesOk s) (hc : Orderly s e) (hs : ClientStep env s e s') : HandlesOk s' := by
  cases hs with
  | idle => exact h
  | called _ => exact ⟨h.closeAll.idle, h.closeAll.closing, h.closeAll.connecting⟩
  | refused _ _ hi =>
    have h₁ := h.inited hc hi
    exact ⟨h₁.idle, h₁.closing, h₁.connecting⟩
  | unthreaded _ _ hi hip _ _ =>
    have h₁ := h.inited hc hi
    obtain ⟨-, rfl⟩ := hi.up_closed hc hip
    exact ⟨nofun, h₁.closing, fun _ => .inr rfl⟩
  | issued _ _ hi hip _ _ =>
    have h₁ := h.inited hc hi
    obtain ⟨-, rfl⟩ := hi.up_closed hc hip
    exact ⟨nofun, h₁.closing, fun _ => .inr rfl⟩
  | @waited c _ =>
    unfold TCPClient.wait
    split
    · exact h
    · exact ⟨h.idle, h.closing, h.connecting⟩
    · split
      · exact ⟨h.idle, h.closing, h.connecting⟩
      · exact ⟨h.idle, h.closing, h.connecting⟩
    · exact ⟨h.idle, h.closing, h.connecting⟩
  | closeCalled => exact ⟨h.idle, h.closing, h.connecting⟩
  | signalled _ => exact ⟨h.idle, h.closing, h.connecting⟩
  | closing _ _ => exact HandlesOk.closeAll ⟨h.idle, h.closing, h.connecting⟩
  | connectFailed hl _ _ hcon =>
    have hno := h.notClosed hl
    refine ⟨fun hcl => absurd (hno.symm.trans hcl) nofun, h.closing, fun hcon' => ?_⟩
    exact absurd (hcon.symm.trans hcon') nofun
  | reconnectFailed _ _ hst hcon => exact absurd ((hc hst).symm.trans hcon) nofun
  | readFailed hl _ ho _ hs₁ =>
    subst hs₁
    split
    · exact h.connected hl ho rfl rfl rfl
    · next hcon => exact h.connected hl ho rfl rfl (Bool.eq_false_iff.2 hcon)
  | connected hl _ ho hs₁ =>
    subst hs₁
    split
    · exact h.connected hl ho rfl rfl rfl
    · next hcon => exact h.connected hl ho rfl rfl (Bool.eq_false_iff.2 hcon)
  | received _ _ _ _ => exact ⟨h.idle, h.closing, h.connecting⟩
  | disconnected hl ho =>
    have hno := h.notClosed hl
    refine ⟨fun hcl => absurd (hno.symm.trans hcl) nofun, fun _ => .inl (h.async_opened hno ho), fun _ => .inl nofun⟩
  | retried _ _ _ => exact ⟨h.idle, h.closing, h.connecting⟩
  | dropped hl _ _ => exact h.unopened hl rfl rfl rfl nofun
  | reissued hl hcon _ _ =>
    have hno := h.notClosed hl
    exact ⟨fun hcl => absurd (hno.symm.trans hcl) nofun, fun _ => .inl (h.async_connecting hl hcon), fun _ => .inr rfl⟩
  | tcpGone hl _ _ => exact h.unopened hl rfl rfl rfl nofun
  | rearmed hl _ _ _ => exact h.unopened hl rfl rfl rfl nofun
  | timerDropped hl _ _ _ => exact h.unopened hl rfl rfl rfl nofun
  | asyncGone _ =>
    refine ⟨h.idle, fun hno => ?_, h.connecting⟩
    exact (h.closing hno).imp_left fun ⟨b, hb⟩ => ⟨b, Handle.closed_eq_opened.2 hb⟩
  | timerGone _ => exact ⟨h.idle, h.closing, h.connecting⟩
  | stopped hl ha =>
    obtain ⟨hraw, hreq, hcon⟩ := h.gone (h.notClosed hl) ha
    exact ⟨fun _ => ⟨rfl, hraw, hreq, hcon⟩, nofun, h.connecting⟩

/-! No step misuses the handle. -/

theorem init_ne_misuse {h : Handle ClientCloseCb} {other : Misuse} {ret : Int} (hcall : call.onTcp = true)
    (hother : other.onTcp = false) : h.init (ClientFault.misuse other) ret ≠ .error (.misuse call) := by
  intro hf
  obtain ⟨-, heq⟩ := Handle.init_error hf
  obtain rfl : call = other := ClientFault.misuse.inj heq
  rw [hcall] at hother
  cases hother

theorem init_raw (hraw : s.tcpHandle = .raw) {call' : Misuse} {ret : Int} :
    s.tcpHandle.init (ClientFault.misuse call') ret ≠ .error (.misuse call) := by
  rw [hraw]
  exact ok_ne_error

theorem init_ok_ne_misuse {asyncInit tcpInit timerInit : Int} (hcall : call.onTcp = true)
    (hraw : s.isClosed = true → s.tcpHandle = .raw) :
    s.init asyncInit tcpInit timerInit ≠ .error (.misuse call) := by
  unfold TCPClient.init
  split
  · exact ok_ne_error
  next hc =>
  apply bind_ne_error (init_ne_misuse hcall rfl)
  intro h₁ _
  split
  · exact ok_ne_error
  apply bind_ne_error (init_raw (s := { s with asyncHandle := h₁, asyncPending := false })
    (hraw (Bool.eq_true_of_not_eq_false hc)))
  intro h₂ _
  split
  · exact ok_ne_error
  apply bind_ne_error (init_ne_misuse hcall rfl)
  intro h₃ _
  split
  · exact ok_ne_error
  · exact ok_ne_error

theorem uvTcpConnect_ne_misuse {owner : Attempt} {ret : Int} (hreq : s.connectReq = none) (ho : s.tcpHandle = .opened b) :
    s.uvTcpConnect owner ret ≠ .error (.misuse call) := by
  unfold uvTcpConnect
  rw [hreq, ho]
  exact ok_ne_error

theorem issue_ne_misuse {c : ConnectCall} {asyncInit tcpInit timerInit ip4Addr tcpConnect threadCreate : Int}
    (h : HandlesOk s) (hc : Orderly s (.issue asyncInit tcpInit timerInit ip4Addr tcpConnect threadCreate))
    (hcall : call.onTcp = true) :
    s.issue c asyncInit tcpInit timerInit ip4Addr tcpConnect threadCreate ≠ .error (.misuse call) := by
  unfold TCPClient.issue
  apply bind_ne_error (init_ok_ne_misuse hcall fun hcl => (h.idle hcl).2.1)
  intro ⟨s₁, ok⟩ hi
  simp only
  split
  · exact ok_ne_error
  split
  · exact ok_ne_error
  next hok hip =>
  obtain rfl : ok = true := Bool.eq_true_of_not_eq_false hok
  obtain ⟨hcl, rfl⟩ := (init_cases hi).up_closed hc (Decidable.of_not_not hip)
  refine bind_ne_error (uvTcpConnect_ne_misuse (b := false) ?_ ?_) fun s₂ _ => ?_
  · exact (h.idle hcl).2.2.1
  · exact rfl
  split
  · exact ok_ne_error
  split
  · exact ok_ne_error
  · exact ok_ne_error

theorem onConnect_ne_misuse {owner : Attempt} {status readStart : Int} :
    s.onConnect owner status readStart ≠ .error (.misuse call) := by
  unfold TCPClient.onConnect
  split
  · exact nofun
  split
  · simp only
    split
    · exact ok_ne_error
    · exact ok_ne_error
  · exact ok_ne_error

theorem onRecv_ne_misuse {chunk : List UInt8} : s.onRecv env chunk ≠ .error (.misuse call) := by
  unfold TCPClient.onRecv
  split
  · exact nofun
  split
  · exact ok_ne_error
  split
  · exact ok_ne_error
  · exact nofun

theorem onRecvError_ne_misuse (ho : s.tcpHandle = .opened b) : s.onRecvError ≠ .error (.misuse call) := by
  unfold TCPClient.onRecvError
  split
  · exact nofun
  rw [ho]
  exact bind_ne_error nofun fun _ _ => ok_ne_error

theorem reconnectTimer_ne_misuse {tcpInit ip4Addr tcpConnect : Int}
    (h : s.isConnecting = true → s.tcpHandle = .raw ∧ s.connectReq = none) :
    s.reconnectTimer tcpInit ip4Addr tcpConnect ≠ .error (.misuse call) := by
  unfold TCPClient.reconnectTimer
  split
  · exact ok_ne_error
  next hcon =>
  obtain ⟨hraw, hreq⟩ := h (Bool.eq_true_of_not_eq_false hcon)
  apply bind_ne_error (init_raw hraw)
  intro h₁ hi
  obtain ⟨-, rfl⟩ := Handle.init_ok hi
  split
  · exact ok_ne_error
  next hz =>
  rw [if_pos (Decidable.of_not_not hz)]
  simp only
  split
  · exact bind_ne_error nofun fun _ _ => ok_ne_error
  -- The handle has just been initialised.
  refine bind_ne_error (uvTcpConnect_ne_misuse (b := false) ?_ ?_) fun s₂ hs₂ => ?_
  · exact hreq
  · exact rfl
  obtain ⟨-, -, rfl⟩ := uvTcpConnect_ok hs₂
  split
  · exact bind_ne_error nofun fun _ _ => ok_ne_error
  · exact ok_ne_error

theorem onTcpClosed_ne_misuse {timerStart : Int} (hcall : call.onTcp = true) :
    s.onTcpClosed timerStart ≠ .error (.misuse call) := by
  unfold TCPClient.onTcpClosed
  split
  · split
    · refine bind_ne_error (fun hf => ?_) fun _ _ => ok_ne_error
      obtain rfl := ClientFault.misuse.inj (Handle.close_error hf)
      cases hcall
    · exact ok_ne_error
  · exact ok_ne_error

/-- In an orderly run the timer of a reconnection finds the handle gone. -/
theorem HandlesOk.timer_raw (h : HandlesOk s) {tcpInit ip4Addr tcpConnect : Int}
    (hc : Orderly s (.timer tcpInit ip4Addr tcpConnect)) (hcon : s.isConnecting = true) :
    s.tcpHandle = .raw ∧ s.connectReq = none := by
  obtain ⟨hreq, hclosing⟩ := hc hcon
  refine ⟨?_, hreq⟩
  rcases h.connecting hcon with hno | hsome
  · cases hh : s.tcpHandle with
    | raw => rfl
    | opened b => exact absurd hh (hno b)
    | closing cb => exact absurd hh (hclosing cb)
  · rw [hreq] at hsome
    cases hsome

/-- **An orderly step does not misuse the handle.** -/
theorem step_ne_misuse (h : HandlesOk s) (hc : Orderly s e) (hcall : call.onTcp = true) :
    TCPClient.step env s e ≠ .error (.misuse call) := by
  cases e with
  | connect =>
    simp only [TCPClient.step]
    split <;> exact ok_ne_error
  | issue asyncInit tcpInit timerInit ip4Addr tcpConnect threadCreate =>
    simp only [TCPClient.step]
    split
    · exact ok_ne_error
    split
    · -- `uv_tcp_init` and `uv_tcp_connect` of `Connect`
      exact issue_ne_misuse h hc hcall
    · exact ok_ne_error
  | wait =>
    simp only [TCPClient.step]
    split <;> exact ok_ne_error
  | close => exact ok_ne_error
  | signal => exact ok_ne_error
  | async =>
    simp only [TCPClient.step]
    split <;> exact ok_ne_error
  | onConnect status readStart =>
    simp only [TCPClient.step]
    split
    · exact ok_ne_error
    split
    · exact onConnect_ne_misuse
    · exact ok_ne_error
  | recv chunk =>
    simp only [TCPClient.step]
    split
    · exact onRecv_ne_misuse
    · exact ok_ne_error
  | recvError =>
    simp only [TCPClient.step]
    split
    · next hg => exact onRecvError_ne_misuse hg.2
    · exact ok_ne_error
  | timer tcpInit ip4Addr tcpConnect =>
    simp only [TCPClient.step]
    split
    · -- all three calls
      exact reconnectTimer_ne_misuse (h.timer_raw hc)
    · exact ok_ne_error
  | tcpClosed timerStart =>
    simp only [TCPClient.step]
    split
    · split
      · exact ok_ne_error
      · exact onTcpClosed_ne_misuse hcall
      · exact ok_ne_error
    · exact ok_ne_error
  | asyncClosed =>
    simp only [TCPClient.step]
    split <;> exact ok_ne_error
  | timerClosed =>
    simp only [TCPClient.step]
    split <;> exact ok_ne_error
  | stop =>
    simp only [TCPClient.step]
    split <;> exact ok_ne_error

theorem new_handles (env : Env) (head tail : UInt8) : HandlesOk (TCPClient.new env head tail) where
  idle _ := ⟨rfl, rfl, rfl, rfl⟩
  closing := nofun
  connecting := nofun

end Handles

end TCPClient

open TCPClient

/-! **The protocol of the handle is kept** in every orderly run. -/

theorem handle_protocol_kept (env : Env) (head tail : UInt8) (es : List TcpClientEvent) (call : Misuse)
    (hcall : call.onTcp = true) (horderly : Along (step env) Orderly (TCPClient.new env head tail) es) :
    run (step env) (TCPClient.new env head tail) es ≠ .error (.misuse call) :=
  run_ne_error (fun _ _ _ h hc hs => h.step hc (step_cases hs)) (fun _ _ h hc => step_ne_misuse h hc hcall)
    (new_handles env head tail) horderly

/-- The connection is lost, and the next attempt succeeds. -/
def reconnectRun : List TcpClientEvent :=
  [.connect, .issue 0 0 0 0 0 0, .onConnect 0 0, .recvError, .tcpClosed 0, .timer 0 0 0, .onConnect 0 0]

theorem handle_protocol_kept_reconnect :
    run (step zeroEnv) (TCPClient.new zeroEnv 1 2) reconnectRun ≠ .error (.misuse .tcpInit) := by
  apply handle_protocol_kept zeroEnv 1 2 reconnectRun .tcpInit rfl
  refine .cons rfl trivial (.cons rfl (fun _ _ => rfl) (.cons rfl (fun hne => absurd rfl hne) ?_))
  refine .cons rfl trivial (.cons rfl trivial (.cons rfl (fun _ => ⟨rfl, nofun⟩) ?_))
  exact .cons rfl (fun hne => absurd rfl hne) trivial

/-- The connection is lost, and the attempt behind it refused; the timer fires again. -/
def refusedRun : List TcpClientEvent :=
  [.connect, .issue 0 0 0 0 0 0, .onConnect 0 0, .recvError, .tcpClosed 0, .timer 0 0 0, .onConnect (-111) 0,
    .timer 0 0 0]

theorem handle_protocol_fails :
    ¬ ∀ env head tail es call, call.onTcp = true →
      run (step env) (TCPClient.new env head tail) es ≠ .error (.misuse call) :=
  fun hall => hall zeroEnv 1 2 refusedRun .tcpInit rfl rfl

end Uvnet

import Uvnet.TcpClient

/- What one step does to a client.

   `step_cases` says it once, as one of the cases of `ClientStep`; what the runs of a client
   keep is proved from these. `Inited` is the same for `_init`, which leaves handles behind
   where it fails in the middle. -/
namespace Uvnet
open CMachine LoopHandle

namespace TCPClient

/-- The client after `uv_async_init` in `_init`. -/
def asyncUp (s : TCPClient) : TCPClient := { s with asyncHandle := .opened false, asyncPending := false }

/-- The client after `Start` in `_init`. -/
def tcpUp (s : TCPClient) : TCPClient :=
  { s.asyncUp with
    tcpHandle := .opened false
    tcpData := .ctx
    packet := s.packet.setPacketCB.start s.packetHead s.packetTail }

/-- The client after an `_init` that succeeds. -/
def allUp (s : TCPClient) : TCPClient :=
  { s.tcpUp with connectTimer := .opened false, timerArmed := false, isClosed := false }

/-- What `_init` does. -/
inductive Inited (s : TCPClient) (asyncInit tcpInit timerInit : Int) : TCPClient → Bool → Prop
  | up (hc : s.isClosed = false) : Inited s asyncInit tcpInit timerInit s true
  | asyncFailed (hc : s.isClosed = true) (ha : asyncInit ≠ 0) : Inited s asyncInit tcpInit timerInit s false
  | tcpFailed (hc : s.isClosed = true) (hraw : s.tcpHandle = .raw) (ha : asyncInit = 0) (ht : tcpInit ≠ 0) :
      Inited s asyncInit tcpInit timerInit s.asyncUp false
  | timerFailed (hc : s.isClosed = true) (hraw : s.tcpHandle = .raw) (ha : asyncInit = 0) (ht : tcpInit = 0)
      (hm : timerInit ≠ 0) : Inited s asyncInit tcpInit timerInit s.tcpUp false
  | allUp (hc : s.isClosed = true) (hraw : s.tcpHandle = .raw) (ha : asyncInit = 0) (ht : tcpInit = 0) (hm : timerInit = 0) :
      Inited s asyncInit tcpInit timerInit s.allUp true

/-- The client waits for the connect request of `owner`. -/
def requested (s : TCPClient) (owner : Attempt) : TCPClient := { s with connectReq := some owner }

/-- A call of `Connect` issues its attempt, and begins to wait for it. -/
def Issues (s : TCPClient) (asyncInit tcpInit timerInit ip4Addr tcpConnect threadCreate : Int) : Prop :=
  (∃ c, s.calling = some c ∧ c.pc = .init) ∧ (s.isClosed = true → asyncInit = 0 ∧ tcpInit = 0 ∧ timerInit = 0) ∧
    ip4Addr = 0 ∧ tcpConnect = 0 ∧ threadCreate = 0

/-- **What a step does.** -/
inductive ClientStep (env : Env) (s : TCPClient) : TcpClientEvent → TCPClient → Prop
  | idle {e : TcpClientEvent} : ClientStep env s e s
  | called (hc : s.calling = none) :
      ClientStep env s .connect { s.closeAll with calling := some ⟨.init, false, false⟩ }
  | refused {c : ConnectCall} {s₁ : TCPClient} {ok : Bool} {asyncInit tcpInit timerInit ip4Addr tcpConnect threadCreate : Int}
      (hc : s.calling = some c) (hpc : c.pc = .init) (hi : Inited s asyncInit tcpInit timerInit s₁ ok) :
      ClientStep env s (.issue asyncInit tcpInit timerInit ip4Addr tcpConnect threadCreate) (s₁.finishCall c false)
  | unthreaded {c : ConnectCall} {s₁ : TCPClient} {b : Bool}
      {asyncInit tcpInit timerInit ip4Addr tcpConnect threadCreate : Int} (hc : s.calling = some c)
      (hpc : c.pc = .init) (hi : Inited s asyncInit tcpInit timerInit s₁ true) (hip : ip4Addr = 0)
      (hreq : s₁.connectReq = none) (ho : s₁.tcpHandle = .opened b) :
      ClientStep env s (.issue asyncInit tcpInit timerInit ip4Addr tcpConnect threadCreate)
        ((s₁.requested (.call s.returned.length)).finishCall c false)
  | issued {c : ConnectCall} {s₁ : TCPClient} {b : Bool}
      {asyncInit tcpInit timerInit ip4Addr tcpConnect threadCreate : Int} (hc : s.calling = some c)
      (hpc : c.pc = .init) (hi : Inited s asyncInit tcpInit timerInit s₁ true) (hip : ip4Addr = 0)
      (hreq : s₁.connectReq = none) (ho : s₁.tcpHandle = .opened b)
      (hissues : s.Issues asyncInit tcpInit timerInit ip4Addr tcpConnect threadCreate) :
      ClientStep env s (.issue asyncInit tcpInit timerInit ip4Addr tcpConnect threadCreate)
        { s₁.requested (.call s.returned.length) with looping := true, calling := some { c with pc := .test 0 } }
  | waited {c : ConnectCall} (hc : s.calling = some c) : ClientStep env s .wait (s.wait c)
  | closeCalled :
      ClientStep env s .close { s with
        isUserClosed := s.isUserClosed || !s.isClosed
        calling := s.calling.map fun c => { c with closeCalled := true }
        returned := s.returned.map fun r => { r with closeCalled := true } }
  | signalled {e : TcpClientEvent} (pending : Bool) : ClientStep env s e { s with asyncPending := pending }
  | closing (hl : s.looping = true) (hu : s.isUserClosed = true) :
      ClientStep env s .async { s with asyncPending := false }.closeAll
  | connectFailed {owner : Attempt} {status readStart : Int} (hl : s.looping = true) (hreq : s.connectReq = some owner)
      (hst : status ≠ 0) (hcon : s.isConnecting = false) :
      ClientStep env s (.onConnect status readStart) { s with connectReq := none, connectStatus := .error }
  | reconnectFailed {owner : Attempt} {status readStart : Int} (hl : s.looping = true)
      (hreq : s.connectReq = some owner) (hst : status ≠ 0) (hcon : s.isConnecting = true) :
      ClientStep env s (.onConnect status readStart)
        { s with connectReq := none, connectStatus := .error, repeatTime := s.repeatTime * 2 }.uvTimerStart
  | readFailed {owner : Attempt} {readStart : Int} {s₁ : TCPClient} (hl : s.looping = true)
      (hreq : s.connectReq = some owner) (ho : s.tcpHandle = .opened false) (hrd : readStart ≠ 0)
      (hs₁ : s₁ = { s with connectReq := none, connectStatus := .error }) :
      ClientStep env s (.onConnect 0 readStart) (if s.isConnecting then s₁.stopReconnect else s₁)
  | connected {owner : Attempt} {s₁ : TCPClient} (hl : s.looping = true) (hreq : s.connectReq = some owner)
      (ho : s.tcpHandle = .opened false) (hs₁ : s₁ = { s with connectReq := none }.reading owner) :
      ClientStep env s (.onConnect 0 0) (if s.isConnecting then s₁.stopReconnect else s₁)
  | received {chunk : List UInt8} {r : Recv} (hl : s.looping = true) (ho : s.tcpHandle = .opened true)
      (hlen : chunk.length ≤ bufferSize) (hr : recvdata env s.packet chunk = .ok r) :
      ClientStep env s (.recv chunk) ({ s with packet := r.sync }.record chunk r.calls)
  | disconnected (hl : s.looping = true) (ho : s.tcpHandle = .opened true) :
      ClientStep env s .recvError { s.startReconnect with tcpHandle := .closing .onClientClose }
  | retried {tcpInit ip4Addr tcpConnect : Int} (hl : s.looping = true) (hcon : s.isConnecting = true)
      (hraw : s.tcpHandle = .raw) : ClientStep env s (.timer tcpInit ip4Addr tcpConnect) s.retryLater
  | dropped {tcpInit ip4Addr tcpConnect : Int} (hl : s.looping = true) (hcon : s.isConnecting = true)
      (hraw : s.tcpHandle = .raw) :
      ClientStep env s (.timer tcpInit ip4Addr tcpConnect)
        { s with tcpHandle := .closing .null, tcpData := .ctx }.retryLater
  | reissued {tcpInit ip4Addr tcpConnect : Int} (hl : s.looping = true) (hcon : s.isConnecting = true)
      (hraw : s.tcpHandle = .raw) (hreq : s.connectReq = none) :
      ClientStep env s (.timer tcpInit ip4Addr tcpConnect)
        ({ s with tcpHandle := .opened false, tcpData := .ctx }.requested .reconnect)
  | tcpGone {timerStart : Int} (hl : s.looping = true) (hreq : s.connectReq = none) {cb : ClientCloseCb}
      (hh : s.tcpHandle = .closing cb) : ClientStep env s (.tcpClosed timerStart) { s with tcpHandle := .raw }
  | rearmed {timerStart : Int} (hl : s.looping = true) (hreq : s.connectReq = none) (hcon : s.isConnecting = true)
      (hh : s.tcpHandle = .closing .onClientClose) :
      ClientStep env s (.tcpClosed timerStart) { s with tcpHandle := .raw }.uvTimerStart
  | timerDropped {timerStart : Int} (hl : s.looping = true) (hreq : s.connectReq = none) (hcon : s.isConnecting = true)
      (hh : s.tcpHandle = .closing .onClientClose) :
      ClientStep env s (.tcpClosed timerStart)
        { s with tcpHandle := .raw, connectTimer := .closing .onClientClose, timerArmed := false }
  | asyncGone (hl : s.looping = true) : ClientStep env s .asyncClosed { s with asyncHandle := s.asyncHandle.closed }
  | timerGone (hl : s.looping = true) : ClientStep env s .timerClosed { s with connectTimer := s.connectTimer.closed }
  | stopped (hl : s.looping = true) (ha : s.alive = false) :
      ClientStep env s .stop { s with looping := false, isClosed := true }

section Steps
variable {env : Env} {s s' s₁ : TCPClient} {c : ConnectCall} {ok : Bool} {owner : Attempt} {e : TcpClientEvent}

theorem init_cases {asyncInit tcpInit timerInit : Int} (h : s.init asyncInit tcpInit timerInit = .ok (s₁, ok)) :
    Inited s asyncInit tcpInit timerInit s₁ ok := by
  unfold init at h
  split at h
  · next hc =>
    cases h
    exact .up hc
  · next hc =>
    have hc : s.isClosed = true := Bool.eq_true_of_not_eq_false hc
    obtain ⟨h₁, ha, h⟩ := bind_eq_ok.1 h
    obtain ⟨-, rfl⟩ := Handle.init_ok ha
    split at h
    · next hne =>
      cases h
      exact .asyncFailed hc hne
    · next hz =>
      have hz : asyncInit = 0 := Decidable.of_not_not hz
      subst hz
      obtain ⟨h₂, ht, h⟩ := bind_eq_ok.1 h
      obtain ⟨hraw, rfl⟩ := Handle.init_ok ht
      split at h
      · next hne =>
        cases h
        exact .tcpFailed hc hraw rfl hne
      · next hz =>
        have hz : tcpInit = 0 := Decidable.of_not_not hz
        subst hz
        obtain ⟨h₃, hm, h⟩ := bind_eq_ok.1 h
        obtain ⟨-, rfl⟩ := Handle.init_ok hm
        split at h
        · next hne =>
          cases h
          exact .timerFailed hc hraw rfl rfl hne
        · next hz =>
          have hz : timerInit = 0 := Decidable.of_not_not hz
          subst hz
          cases h
          exact .allUp hc hraw rfl rfl rfl

theorem Inited.allInited {asyncInit tcpInit timerInit : Int} (h : Inited s asyncInit tcpInit timerInit s₁ true)
    (hcl : s.isClosed = true) : asyncInit = 0 ∧ tcpInit = 0 ∧ timerInit = 0 := by
  cases h with
  | up hc => rw [hc] at hcl; cases hcl
  | allUp _ _ ha ht hm => exact ⟨ha, ht, hm⟩

theorem uvTcpConnect_ok {ret : Int} (h : s.uvTcpConnect owner ret = .ok s') :
    s.connectReq = none ∧ (∃ b, s.tcpHandle = .opened b) ∧ s' = if ret = 0 then s.requested owner else s := by
  unfold uvTcpConnect at h
  split at h
  · next hreq hh => exact ⟨hreq, ⟨_, hh⟩, (Except.ok.inj h).symm⟩
  · cases h

theorem issue_cases {asyncInit tcpInit timerInit ip4Addr tcpConnect threadCreate : Int} (hc : s.calling = some c)
    (hpc : c.pc = .init) (h : s.issue c asyncInit tcpInit timerInit ip4Addr tcpConnect threadCreate = .ok s') :
    ClientStep env s (.issue asyncInit tcpInit timerInit ip4Addr tcpConnect threadCreate) s' := by
  obtain ⟨⟨s₁, ok⟩, hi, h⟩ := bind_eq_ok.1 h
  have hi := init_cases hi
  have hlen : s₁.returned.length = s.returned.length := by
    cases hi <;> rfl
  simp only at h
  split at h
  · cases h
    exact .refused hc hpc hi
  split at h
  · cases h
    exact .refused hc hpc hi
  next hok hip =>
  obtain rfl : ok = true := Bool.eq_true_of_not_eq_false hok
  have hip : ip4Addr = 0 := Decidable.of_not_not hip
  obtain ⟨s₂, hcon, h⟩ := bind_eq_ok.1 h
  rw [hlen] at hcon
  obtain ⟨hreq, ⟨b, ho⟩, rfl⟩ := uvTcpConnect_ok hcon
  split at h
  · cases h
    exact .refused hc hpc hi
  next hz =>
  have hz : tcpConnect = 0 := Decidable.of_not_not hz
  rw [if_pos hz] at h
  split at h
  · cases h
    exact .unthreaded hc hpc hi hip hreq ho
  · next hth =>
    cases h
    exact .issued hc hpc hi hip hreq ho ⟨⟨c, hc, hpc⟩, hi.allInited, hip, hz, Decidable.of_not_not hth⟩

theorem onConnect_cases {status readStart : Int} (hl : s.looping = true) (hreq : s.connectReq = some owner)
    (hguard : status ≠ 0 ∨ s.tcpHandle = .opened false)
    (h : { s with connectReq := none }.onConnect owner status readStart = .ok s') :
    ClientStep env s (.onConnect status readStart) s' := by
  unfold onConnect at h
  split at h
  · cases h
  split at h
  · next hst =>
    simp only at h
    split at h
    · next hcon =>
      cases h
      exact .reconnectFailed hl hreq hst hcon
    · next hcon =>
      cases h
      exact .connectFailed hl hreq hst (Bool.eq_false_iff.2 hcon)
  next hst =>
  have hst : status = 0 := Decidable.of_not_not hst
  have ho := hguard.resolve_left fun hne => hne hst
  subst hst
  cases h
  split
  · next hrd => exact .readFailed hl hreq ho hrd rfl
  · next hrd =>
    have hrd : readStart = 0 := Decidable.of_not_not hrd
    subst hrd
    exact .connected hl hreq ho rfl

theorem reconnectTimer_cases {tcpInit ip4Addr tcpConnect : Int} (hl : s.looping = true)
    (h : s.reconnectTimer tcpInit ip4Addr tcpConnect = .ok s') :
    ClientStep env s (.timer tcpInit ip4Addr tcpConnect) s' := by
  unfold reconnectTimer at h
  split at h
  · cases h
    exact .idle
  next hcon =>
  have hcon : s.isConnecting = true := Bool.eq_true_of_not_eq_false hcon
  obtain ⟨h₁, ht, h⟩ := bind_eq_ok.1 h
  obtain ⟨hraw, rfl⟩ := Handle.init_ok ht
  split at h
  · cases h
    exact .retried hl hcon hraw
  next hz =>
  have hz : tcpInit = 0 := Decidable.of_not_not hz
  subst hz
  simp only [if_true] at h
  split at h
  · cases h
    exact .dropped hl hcon hraw
  obtain ⟨s₂, hc, h⟩ := bind_eq_ok.1 h
  obtain ⟨hreq, -, rfl⟩ := uvTcpConnect_ok hc
  split at h
  · cases h
    exact .dropped hl hcon hraw
  · next hz =>
    rw [if_pos (Decidable.of_not_not hz)] at h
    cases h
    exact .reissued hl hcon hraw hreq

theorem onTcpClosed_cases {timerStart : Int} (hl : s.looping = true) (hreq : s.connectReq = none)
    (hh : s.tcpHandle = .closing .onClientClose) (h : { s with tcpHandle := .raw }.onTcpClosed timerStart = .ok s') :
    ClientStep env s (.tcpClosed timerStart) s' := by
  unfold onTcpClosed at h
  split at h
  · next hcon =>
    split at h
    · obtain ⟨h₁, hc, h⟩ := bind_eq_ok.1 h
      obtain ⟨-, rfl⟩ := Handle.close_ok hc
      cases h
      exact .timerDropped hl hreq hcon.2 hh
    · cases h
      exact .rearmed hl hreq hcon.2 hh
  · cases h
    exact .tcpGone hl hreq hh

/-- **Every step is one of the cases.** -/
theorem step_cases (h : step env s e = .ok s') : ClientStep env s e s' := by
  cases e with
  | connect =>
    simp only [step] at h
    split at h
    · next hc =>
      cases h
      exact .called (Option.isNone_iff_eq_none.1 hc)
    · cases h
      exact .idle
  | issue asyncInit tcpInit timerInit ip4Addr tcpConnect threadCreate =>
    simp only [step] at h
    split at h
    · cases h
      exact .idle
    next c hc =>
    split at h
    · next hpc => exact issue_cases hc hpc h
    · cases h
      exact .idle
  | wait =>
    simp only [step] at h
    split at h
    · cases h
      exact .idle
    · next c hc =>
      cases h
      exact .waited hc
  | close =>
    cases h
    exact .closeCalled
  | signal =>
    cases h
    exact .signalled true
  | async =>
    simp only [step] at h
    split at h
    · next hg =>
      cases h
      split
      · next hu => exact .closing hg.1 hu
      · exact .signalled false
    · cases h
      exact .idle
  | onConnect status readStart =>
    simp only [step] at h
    split at h
    · cases h
      exact .idle
    next owner hreq =>
    split at h
    · next hg => exact onConnect_cases hg.1 hreq hg.2 h
    · cases h
      exact .idle
  | recv chunk =>
    simp only [step] at h
    split at h
    · next hg =>
      unfold onRecv at h
      split at h
      · cases h
      split at h
      · cases h
        exact .idle
      split at h
      · next r hr =>
        cases h
        exact .received hg.1 hg.2.1 hg.2.2 hr
      · cases h
    · cases h
      exact .idle
  | recvError =>
    simp only [step] at h
    split at h
    · next hg =>
      unfold onRecvError at h
      split at h
      · cases h
      obtain ⟨h₁, hc, h⟩ := bind_eq_ok.1 h
      obtain ⟨-, rfl⟩ := Handle.close_ok hc
      cases h
      exact .disconnected hg.1 hg.2
    · cases h
      exact .idle
  | timer tcpInit ip4Addr tcpConnect =>
    simp only [step] at h
    split at h
    · next hg => exact reconnectTimer_cases hg.1 h
    · cases h
      exact .idle
  | tcpClosed timerStart =>
    simp only [step] at h
    split at h
    · next hg =>
      split at h
      · next hh =>
        cases h
        exact .tcpGone hg.1 hg.2 hh
      · next hh => exact onTcpClosed_cases hg.1 hg.2 hh h
      · cases h
        exact .idle
    · cases h
      exact .idle
  | asyncClosed =>
    simp only [step] at h
    split at h
    · next hg =>
      cases h
      exact .asyncGone hg
    · cases h
      exact .idle
  | timerClosed =>
    simp only [step] at h
    split at h
    · next hg =>
      cases h
      exact .timerGone hg
    · cases h
      exact .idle
  | stop =>
    simp only [step] at h
    split at h
    · next hg =>
      cases h
      exact .stopped hg.1 hg.2
    · cases h
      exact .idle

end Steps

end TCPClient

end Uvnet

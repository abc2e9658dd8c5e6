import Uvnet.ClientData

/- Whether a connected client is ever left with nothing that would bring it back.

   A lost connection is handed from `OnRecv` to `OnClientClose`, which starts the timer, to
   `ReconnectTimer`, which issues an attempt, to `OnConnect`, which reads again or starts
   the timer (`Phase`). Three exits do not pass it on: `OnConnect` calls `_stop_reconnect`
   when `uv_read_start` fails (`client_recovers_fails`), `OnClientClose` closes the timer
   when `uv_timer_start` fails, and an attempt of `Connect` that fails after the call has
   returned true is not repeated. Without these, and without an `AsyncCB` that takes the
   flag of an earlier `Close` for a new one, the client recovers (`client_recovers`). -/
namespace Uvnet
open CMachine LoopHandle StepRun

namespace TCPClient

/-- The client reads from an open connection, or one of these is pending: the close callback
that will start the timer, the timer in a reconnection, or a connect request. -/
def Lively (s : TCPClient) : Prop :=
  s.looping = true ∧
    (s.tcpHandle = .opened true ∨
      (s.tcpHandle = .closing .onClientClose ∧ s.tcpData = .client ∧ s.isConnecting = true ∧
        s.connectTimer = .opened false) ∨
      (s.timerArmed = true ∧ s.isConnecting = true) ∨
      s.connectReq.isSome = true)

/-- The last `Connect` has returned true, and `Close` has not been called since it began. -/
def Established (s : TCPClient) : Prop :=
  s.calling = none ∧ ∃ r, s.returned.getLast? = some r ∧ r.result = true ∧ r.closeCalled = false

/-- A `Connect` waits for its attempt, and `Close` has not been called since it began. -/
def Awaited (s : TCPClient) : Prop := ∃ c, s.calling = some c ∧ c.pc ≠ .init ∧ c.closeCalled = false

/-- What the recovery rests on: once `Connect` has returned true, no attempt of its own fails,
and `uv_read_start` does not; `uv_timer_start` does not fail in `OnClientClose`; and `AsyncCB`
does not find `_is_user_closed` set, from before, in a client with no request outstanding. -/
def PassesOn (s : TCPClient) : TcpClientEvent → Prop
  | .onConnect status readStart => s.Established → (s.isConnecting = false → status = 0) ∧ (status = 0 → readStart = 0)
  | .tcpClosed timerStart => s.Established ∨ s.Awaited → timerStart = 0
  | .async => s.Established ∨ s.Awaited → s.Lively → s.isUserClosed = true → s.connectReq.isSome = true
  | _ => True

/-- Where the loop stands with `isClosed`, and what is closed for good. -/
structure LoopOk (s : TCPClient) : Prop where
  idle : s.isClosed = true → s.looping = false ∧ s.isConnecting = false
  closing : s.isClosed = false →
    (∃ b, s.asyncHandle = .opened b) ∨ (s.isConnecting = false ∧ ∀ b, s.tcpHandle ≠ .opened b)

/-- Who has the connection in hand. -/
inductive Phase (s : TCPClient) : Prop
  /-- The attempt of a `Connect` is outstanding. -/
  | attempt (hreq : s.connectReq.isSome = true) (hcon : s.isConnecting = false) (hno : s.tcpHandle ≠ .opened true)
      (ht : s.connectTimer = .opened false ∨ ∀ b, s.tcpHandle ≠ .opened b)
  | reading (ho : s.tcpHandle = .opened true) (hreq : s.connectReq = none) (hcon : s.isConnecting = false)
      (ht : s.connectTimer = .opened false)
  /-- The connection is lost, and its handle is being closed. -/
  | lost (hh : s.tcpHandle = .closing .onClientClose) (hd : s.tcpData = .client) (hcon : s.isConnecting = true)
      (hreq : s.connectReq = none) (ht : s.connectTimer = .opened false)
  /-- The timer runs, with an attempt of its own or between two. -/
  | retrying (harm : s.timerArmed = true) (hcon : s.isConnecting = true) (ht : s.connectTimer = .opened false)
      (hno : s.tcpHandle ≠ .opened true) (hcl : s.tcpHandle ≠ .closing .onClientClose)

/-- The attempt of the `Connect` that waits has failed, and the call will return false. -/
structure Failed (s : TCPClient) : Prop where
  calling : s.calling.isSome = true
  status : s.connectStatus ≠ .finish
  request : s.connectReq = none
  handle : s.tcpHandle ≠ .opened true
  connecting : s.isConnecting = false

section Steps
variable {env : Env} {s s' s₁ : TCPClient} {e : TcpClientEvent} {c : ConnectCall}

/-! Where the loop stands. -/

/-- Neither the loop nor `isClosed` changes, and the handles do not open. -/
theorem LoopOk.quiet (h : LoopOk s) (hl : s'.looping = s.looping) (hclosed : s'.isClosed = s.isClosed)
    (hcon : s'.isConnecting = s.isConnecting) (hasync : s'.asyncHandle = s.asyncHandle)
    (htcp : ∀ b, s'.tcpHandle = .opened b → ∃ b, s.tcpHandle = .opened b) : LoopOk s' := by
  refine ⟨?_, ?_⟩
  · rw [hclosed, hl, hcon]
    exact h.idle
  · rw [hclosed, hasync, hcon]
    intro hc
    refine (h.closing hc).imp_right fun hno => ⟨hno.1, fun b hb => ?_⟩
    obtain ⟨b', hb'⟩ := htcp b hb
    exact hno.2 b' hb'

theorem LoopOk.notClosed (h : LoopOk s) (hl : s.looping = true) : s.isClosed = false := by
  rw [Bool.eq_false_iff]
  intro hc
  rw [(h.idle hc).1] at hl
  cases hl

theorem LoopOk.of_async (hc : s.isClosed = false) (ha : ∃ b, s.asyncHandle = .opened b) : LoopOk s := by
  refine ⟨fun hc' => ?_, fun _ => .inl ha⟩
  rw [hc] at hc'
  cases hc'

theorem LoopOk.async_opened (h : LoopOk s) (hc : s.isClosed = false) {b : Bool} (ho : s.tcpHandle = .opened b) :
    ∃ b, s.asyncHandle = .opened b :=
  (h.closing hc).resolve_right fun hno => hno.2 b ho

theorem LoopOk.async_connecting (h : LoopOk s) (hc : s.isClosed = false) (hcon : s.isConnecting = true) :
    ∃ b, s.asyncHandle = .opened b := by
  refine (h.closing hc).resolve_right fun hno => ?_
  rw [hno.1] at hcon
  cases hcon

theorem LoopOk.closeAll (h : LoopOk s) : LoopOk s.closeAll := by
  unfold TCPClient.closeAll
  split
  · exact h
  · next hc => exact ⟨fun hc' => absurd hc' hc, fun _ => .inr ⟨rfl, fun _ => Handle.closeWalk_ne_opened⟩⟩

theorem LoopOk.wait (h : LoopOk s) : LoopOk (s.wait c) := by
  unfold TCPClient.wait
  split
  · exact h
  · exact h.quiet rfl rfl rfl rfl fun b hb => ⟨b, hb⟩
  · split
    · exact h.quiet rfl rfl rfl rfl fun b hb => ⟨b, hb⟩
    · exact h.quiet rfl rfl rfl rfl fun b hb => ⟨b, hb⟩
  · exact h.quiet rfl rfl rfl rfl fun b hb => ⟨b, hb⟩

theorem LoopOk.inited {asyncInit tcpInit timerInit : Int} {ok : Bool} (h : LoopOk s)
    (hi : Inited s asyncInit tcpInit timerInit s₁ ok) : LoopOk s₁ := by
  cases hi with
  | up => exact h
  | asyncFailed => exact h
  | tcpFailed hc => exact ⟨h.idle, fun hno => absurd (hc.symm.trans hno) nofun⟩
  | timerFailed hc => exact ⟨h.idle, fun hno => absurd (hc.symm.trans hno) nofun⟩
  | allUp => exact .of_async rfl ⟨false, rfl⟩

theorem LoopOk.step (h : LoopOk s) (hf : ClosedFirst s) (hs : ClientStep env s e s') : LoopOk s' := by
  cases hs with
  | idle => exact h
  | called _ => exact ⟨h.closeAll.idle, h.closeAll.closing⟩
  | refused _ _ hi => exact ⟨(h.inited hi).idle, (h.inited hi).closing⟩
  | unthreaded hcall hpc hi _ _ ho =>
    obtain ⟨-, rfl⟩ := hf.inited hcall hpc hi ho
    exact .of_async rfl ⟨false, rfl⟩
  | issued hcall hpc hi _ _ ho =>
    obtain ⟨-, rfl⟩ := hf.inited hcall hpc hi ho
    exact .of_async rfl ⟨false, rfl⟩
  | waited _ => exact h.wait
  | closeCalled => exact ⟨h.idle, h.closing⟩
  | signalled _ => exact ⟨h.idle, h.closing⟩
  | closing _ _ => exact LoopOk.closeAll (s := { s with asyncPending := false }) ⟨h.idle, h.closing⟩
  | connectFailed _ _ _ _ => exact ⟨h.idle, h.closing⟩
  | reconnectFailed _ _ _ _ => exact ⟨h.idle, h.closing⟩
  | readFailed hl _ ho _ hs₁ =>
    have hc := h.notClosed hl
    subst hs₁
    split
    · exact .of_async hc (h.async_opened hc ho)
    · exact .of_async hc (h.async_opened hc ho)
  | connected hl _ ho hs₁ =>
    have hc := h.notClosed hl
    subst hs₁
    split
    · exact .of_async hc (h.async_opened hc ho)
    · exact .of_async hc (h.async_opened hc ho)
  | received _ _ _ _ => exact ⟨h.idle, h.closing⟩
  | disconnected hl ho =>
    have hc := h.notClosed hl
    exact .of_async hc (h.async_opened hc ho)
  | retried _ _ _ => exact ⟨h.idle, h.closing⟩
  | dropped hl hcon _ =>
    have hc := h.notClosed hl
    exact .of_async hc (h.async_connecting hc hcon)
  | reissued hl hcon _ _ =>
    have hc := h.notClosed hl
    exact .of_async hc (h.async_connecting hc hcon)
  | tcpGone _ _ _ => exact h.quiet rfl rfl rfl rfl nofun
  | rearmed _ _ _ _ => exact h.quiet rfl rfl rfl rfl nofun
  | timerDropped _ _ _ _ => exact h.quiet rfl rfl rfl rfl nofun
  | asyncGone hl =>
    refine ⟨h.idle, fun hc => (h.closing hc).imp_left ?_⟩
    rintro ⟨b, hb⟩
    exact ⟨b, Handle.closed_eq_opened.2 hb⟩
  | timerGone _ => exact ⟨h.idle, h.closing⟩
  | stopped hl ha =>
    refine ⟨fun _ => ⟨rfl, ?_⟩, nofun⟩
    have hraw : s.asyncHandle = .raw := by
      simp only [alive, Bool.or_eq_false_iff, decide_eq_false_iff_not, Decidable.not_not] at ha
      exact ha.1.1.1.1
    refine ((h.closing (h.notClosed hl)).resolve_left ?_).1
    rintro ⟨b, hb⟩
    rw [hraw] at hb
    cases hb

/-! Who has the connection in hand. -/

theorem Phase.quiet (h : Phase s) (hh : s'.tcpHandle = s.tcpHandle) (hd : s'.tcpData = s.tcpData)
    (hcon : s'.isConnecting = s.isConnecting) (hreq : s'.connectReq = s.connectReq)
    (ht : s.connectTimer = .opened false → s'.connectTimer = .opened false) (harm : s'.timerArmed = s.timerArmed) :
    Phase s' := by
  cases h with
  | attempt r c n t => exact .attempt (hreq ▸ r) (hcon ▸ c) (hh ▸ n) (t.imp ht fun hno => hh ▸ hno)
  | reading o r c t => exact .reading (hh ▸ o) (hreq ▸ r) (hcon ▸ c) (ht t)
  | lost l d c r t => exact .lost (hh ▸ l) (hd ▸ d) (hcon ▸ c) (hreq ▸ r) (ht t)
  | retrying a c t n l => exact .retrying (harm ▸ a) (hcon ▸ c) (ht t) (hh ▸ n) (hh ▸ l)

theorem Phase.alive (h : Phase s) : s.alive = true := by
  cases h with
  | attempt hreq => simp [TCPClient.alive, hreq]
  | reading ho => simp [TCPClient.alive, ho, Handle.alive]
  | lost hh => simp [TCPClient.alive, hh, Handle.alive]
  | retrying harm => simp [TCPClient.alive, harm]

theorem Phase.lively (h : Phase s) (hl : s.looping = true) : s.Lively := by
  refine ⟨hl, ?_⟩
  cases h with
  | attempt hreq => exact .inr (.inr (.inr hreq))
  | reading ho => exact .inl ho
  | lost hh hd hcon _ ht => exact .inr (.inl ⟨hh, hd, hcon, ht⟩)
  | retrying harm hcon => exact .inr (.inr (.inl ⟨harm, hcon⟩))

/-- In a reconnection, with the handle gone or open for an attempt, the timer runs. -/
theorem Phase.timer (h : Phase s) (hcon : s.isConnecting = true) (hcl : s.tcpHandle ≠ .closing .onClientClose) :
    s.timerArmed = true ∧ s.connectTimer = .opened false ∧ s.tcpHandle ≠ .opened true := by
  cases h with
  | attempt _ hno => exact absurd (hcon.symm.trans hno) nofun
  | reading _ _ hno => exact absurd (hcon.symm.trans hno) nofun
  | lost hh => exact absurd hh hcl
  | retrying harm _ ht hno => exact ⟨harm, ht, hno⟩

theorem Phase.request (h : Phase s) (hreq : s.connectReq.isSome = true) :
    s.tcpHandle ≠ .opened true ∧ (s.isConnecting = true → s.tcpHandle ≠ .closing .onClientClose) ∧
      (∀ b, s.tcpHandle = .opened b → s.connectTimer = .opened false) := by
  cases h with
  | attempt _ hcon hno ht =>
    refine ⟨hno, fun hc => absurd (hc.symm.trans hcon) nofun, fun b hb => ?_⟩
    exact ht.resolve_right fun hall => hall b hb
  | reading _ hnone => exact absurd hreq (by rw [hnone]; nofun)
  | lost _ _ _ hnone => exact absurd hreq (by rw [hnone]; nofun)
  | retrying _ _ ht hno hcl => exact ⟨hno, fun _ => hcl, fun _ _ => ht⟩

/-- What becomes of a connection: it is in hand, or the call that waits for it has failed. -/
def Outcome (s : TCPClient) : Prop := (s.looping = true ∧ Phase s) ∨ Failed s

/-- The client is one that the recovery is promised for. -/
def Watched (s : TCPClient) : Prop := s.Established ∨ s.Awaited

theorem Failed.not_established (h : Failed s) : ¬ s.Established := by
  rintro ⟨hc, -⟩
  have := h.calling
  rw [hc] at this
  cases this

theorem Phase.tcpClosed (hl : s.looping = true) (hh : s.tcpHandle = .closing .onClientClose)
    (hd : s.tcpData = .client) (hcon : s.isConnecting = true) (hreq : s.connectReq = none)
    (ht : s.connectTimer = .opened false) (hs : step env s (.tcpClosed 0) = .ok s') :
    s'.looping = true ∧ Phase s' := by
  simp only [TCPClient.step, if_pos (And.intro hl hreq), hh, onTcpClosed, if_pos (And.intro hd hcon)] at hs
  cases hs
  refine ⟨hl, .retrying ?_ hcon ht (by simp [uvTimerStart]) (by simp [uvTimerStart])⟩
  exact decide_eq_true ht

/-- A call that returns leaves an established client only with the result true. -/
theorem finishCall_watched {result : Bool} (h : Watched (s.finishCall c result)) :
    result = true ∧ c.closeCalled = false := by
  rcases h with ⟨-, r, hr, hres, hclose⟩ | ⟨c', hc', -⟩
  · rw [finishCall, List.getLast?_concat] at hr
    obtain rfl := Option.some.inj hr
    exact ⟨hres, hclose⟩
  · cases hc'

theorem Outcome.wait (h : Watched s → Outcome s) (hcall : s.calling = some c) (hw : Watched (s.wait c)) :
    Outcome (s.wait c) := by
  have hquiet : ∀ {s₁ : TCPClient} {pc : ConnectPc}, s₁.calling = some { c with pc := pc } → c.pc ≠ .init →
      Watched s₁ → Outcome s := by
    rintro s₁ pc hc₁ hpc (⟨hn, -⟩ | ⟨c₂, hc₂, -, hclose⟩)
    · cases hn.symm.trans hc₁
    · obtain rfl := Option.some.inj (hc₁.symm.trans hc₂)
      exact h (.inr ⟨c, hcall, hpc, hclose⟩)
  unfold TCPClient.wait at hw ⊢
  split at hw
  · exact h hw
  · next hpc =>
    rcases hquiet rfl (by rw [hpc]; nofun) hw with ⟨hl, hp⟩ | hf
    · exact .inl ⟨hl, hp.quiet rfl rfl rfl rfl id rfl⟩
    · exact .inr ⟨rfl, hf.status, hf.request, hf.handle, hf.connecting⟩
  · next hpc =>
    split at hw
    · rename_i hlong
      rw [if_pos hlong]
      rcases hquiet rfl (by rw [hpc]; nofun) hw with ⟨hl, hp⟩ | hf
      · exact .inl ⟨hl, hp.quiet rfl rfl rfl rfl id rfl⟩
      · exact .inr ⟨rfl, nofun, hf.request, hf.handle, hf.connecting⟩
    · rename_i hlong
      rw [if_neg hlong]
      rcases hquiet rfl (by rw [hpc]; nofun) hw with ⟨hl, hp⟩ | hf
      · exact .inl ⟨hl, hp.quiet rfl rfl rfl rfl id rfl⟩
      · exact .inr ⟨rfl, hf.status, hf.request, hf.handle, hf.connecting⟩
  · next hpc =>
    obtain ⟨hres, hclose⟩ := finishCall_watched hw
    rcases h (.inr ⟨c, hcall, by rw [hpc]; nofun, hclose⟩) with ⟨hl, hp⟩ | hf
    · exact .inl ⟨hl, hp.quiet rfl rfl rfl rfl id rfl⟩
    · -- The failed call returns false.
      exact absurd (of_decide_eq_true hres) hf.status

theorem closeAll_returned (s : TCPClient) : s.closeAll.returned = s.returned := by
  unfold TCPClient.closeAll
  split <;> rfl

theorem Outcome.closing (h : Outcome s) (hc : s.isClosed = false)
    (hreq : s.Lively → s.connectReq.isSome = true) : Outcome s.closeAll := by
  unfold TCPClient.closeAll
  rw [if_neg (by rw [hc]; nofun)]
  rcases h with ⟨hl, hp⟩ | hf
  · exact .inl ⟨hl, .attempt (hreq (hp.lively hl)) rfl Handle.closeWalk_ne_opened
      (.inr fun _ => Handle.closeWalk_ne_opened)⟩
  · exact .inr ⟨hf.calling, hf.status, hf.request, Handle.closeWalk_ne_opened, rfl⟩

/-- An attempt that ends with an error, or without a connection read from. -/
theorem Outcome.attemptFailed (h : Watched s → Outcome s) (hno : ¬ s.Established) (hreq : s.connectReq.isSome = true)
    (hcall : s'.calling = s.calling) (hst : s'.connectStatus = .error) (hreq' : s'.connectReq = none)
    (hh : s'.tcpHandle = s.tcpHandle) (hcon : s'.isConnecting = false) (hw : Watched s) : Outcome s' := by
  have hsome : s'.calling.isSome = true := by
    rcases hw with he | ⟨c, hc, -⟩
    · exact absurd he hno
    · rw [hcall, hc]
      rfl
  rcases h hw with ⟨-, hp⟩ | hf
  · exact .inr ⟨hsome, by rw [hst]; nofun, hreq', by rw [hh]; exact (hp.request hreq).1, hcon⟩
  · exact absurd hreq (by rw [hf.request]; nofun)

theorem Outcome.quiet (h : Outcome s) (hl : s'.looping = s.looping) (hh : s'.tcpHandle = s.tcpHandle)
    (hd : s'.tcpData = s.tcpData) (hcon : s'.isConnecting = s.isConnecting) (hreq : s'.connectReq = s.connectReq)
    (ht : s.connectTimer = .opened false → s'.connectTimer = .opened false) (harm : s'.timerArmed = s.timerArmed)
    (hcall : s'.calling = s.calling) (hst : s'.connectStatus = s.connectStatus) : Outcome s' := by
  rcases h with ⟨hlo, hp⟩ | hf
  · exact .inl ⟨hl.trans hlo, hp.quiet hh hd hcon hreq ht harm⟩
  · exact .inr ⟨hcall ▸ hf.calling, hst ▸ hf.status, hreq.trans hf.request, hh ▸ hf.handle, hcon.trans hf.connecting⟩

theorem Outcome.timer (h : Outcome s) (hcon : s.isConnecting = true) (hraw : s.tcpHandle = .raw) :
    s.timerArmed = true ∧ s.connectTimer = .opened false := by
  rcases h with ⟨-, hp⟩ | hf
  · obtain ⟨harm, ht, -⟩ := hp.timer hcon (by rw [hraw]; nofun)
    exact ⟨harm, ht⟩
  · exact absurd (hcon.symm.trans hf.connecting) nofun

theorem Outcome.connected {owner : Attempt} (h : Outcome s) (hl : s.looping = true) (hreq : s.connectReq.isSome = true)
    (ho : s.tcpHandle = .opened false) (hs₁ : s₁ = { s with connectReq := none }.reading owner) :
    Outcome (if s.isConnecting then s₁.stopReconnect else s₁) := by
  rcases h with ⟨-, hp⟩ | hf
  · have ht := (hp.request hreq).2.2 false ho
    subst hs₁
    split
    · exact .inl ⟨hl, .reading rfl rfl rfl ht⟩
    · next hcon => exact .inl ⟨hl, .reading rfl rfl (Bool.eq_false_iff.2 hcon) ht⟩
  · exact absurd hreq (by rw [hf.request]; nofun)

theorem reading_watched {owner : Attempt} (hs₁ : s₁ = { s with connectReq := none }.reading owner)
    (hw : Watched (if s.isConnecting then s₁.stopReconnect else s₁)) : Watched s := by
  have hcalls : (if s.isConnecting then s₁.stopReconnect else s₁).calling = s₁.calling ∧
      (if s.isConnecting then s₁.stopReconnect else s₁).returned = s₁.returned := by
    split
    · exact ⟨rfl, rfl⟩
    · exact ⟨rfl, rfl⟩
  unfold Watched Established Awaited at hw ⊢
  rw [hcalls.1, hcalls.2] at hw
  subst hs₁
  rcases hw with ⟨hn, hret⟩ | ⟨c', hc', hpc, hclose⟩
  · exact .inl ⟨Option.map_eq_none_iff.1 hn, hret⟩
  · obtain ⟨c, hc, rfl⟩ := Option.map_eq_some_iff.1 hc'
    exact .inr ⟨c, hc, hpc, hclose⟩

theorem Outcome.disconnected (h : Outcome s) (hl : s.looping = true) (ho : s.tcpHandle = .opened true) :
    Outcome { s.startReconnect with tcpHandle := .closing .onClientClose } := by
  rcases h with ⟨-, hp⟩ | hf
  · cases hp with
    | attempt _ _ hno => exact absurd ho hno
    | reading _ hreq _ ht => exact .inl ⟨hl, .lost rfl rfl rfl hreq ht⟩
    | lost hh => exact absurd (ho.symm.trans hh) nofun
    | retrying _ _ _ hno => exact absurd ho hno
  · exact absurd ho hf.handle

/-- A close callback of the handle, where `uv_timer_start` does not fail in it. -/
theorem Outcome.tcpClosed {cb : ClientCloseCb} (h : Outcome s) (hl : s.looping = true) (hreq : s.connectReq = none)
    (hh : s.tcpHandle = .closing cb) (hs : step env s (.tcpClosed 0) = .ok s') : Outcome s' := by
  rcases h with ⟨-, hp⟩ | hf
  · cases hp with
    | attempt hsome => exact absurd hsome (by rw [hreq]; simp)
    | reading ho => exact absurd (ho.symm.trans hh) (by simp)
    | lost hcl hd hcon _ ht => exact .inl (Phase.tcpClosed hl hcl hd hcon hreq ht hs)
    | retrying harm hcon ht _ hcl =>
      cases cb with
      | onClientClose => exact absurd hh hcl
      | null =>
        simp only [TCPClient.step, if_pos (And.intro hl hreq), hh] at hs
        cases hs
        exact .inl ⟨hl, .retrying harm hcon ht (by simp) (by simp)⟩
  · have hno : ¬ (s.tcpData = .client ∧ s.isConnecting = true) := by rw [hf.connecting]; simp
    have hs' : s' = { s with tcpHandle := .raw } := by
      cases cb with
      | onClientClose =>
        simp only [TCPClient.step, if_pos (And.intro hl hreq), hh, onTcpClosed, if_neg hno] at hs
        cases hs
        rfl
      | null =>
        simp only [TCPClient.step, if_pos (And.intro hl hreq), hh] at hs
        cases hs
        rfl
    subst hs'
    exact .inr ⟨hf.calling, hf.status, hf.request, by simp, hf.connecting⟩

theorem not_watched_of_closeCalled {flag : Bool} : ¬ Watched { s with
    isUserClosed := flag
    calling := s.calling.map fun c => { c with closeCalled := true }
    returned := s.returned.map fun r => { r with closeCalled := true } } := by
  rintro (⟨-, r, hr, -, hclose⟩ | ⟨c, hc, -, hclose⟩)
  · rw [List.getLast?_map] at hr
    obtain ⟨r, -, rfl⟩ := Option.map_eq_some_iff.1 hr
    cases hclose
  · obtain ⟨c, -, rfl⟩ := Option.map_eq_some_iff.1 hc
    cases hclose

/-- **A step passes the connection on.** -/
theorem Outcome.step (h : Watched s → Outcome s) (hf : ClosedFirst s) (hlo : LoopOk s) (hc : PassesOn s e)
    (hstep : step env s e = .ok s') (hs : ClientStep env s e s') (hw : Watched s') : Outcome s' := by
  cases hs with
  | idle => exact h hw
  | called _ =>
    rcases hw with ⟨hn, -⟩ | ⟨c, hcall, hpc, -⟩
    · cases hn
    · obtain rfl := Option.some.inj hcall
      exact absurd rfl hpc
  | refused _ _ _ => exact absurd (finishCall_watched hw).1 nofun
  | unthreaded _ _ _ _ _ _ => exact absurd (finishCall_watched hw).1 nofun
  | issued hcall hpc hi _ _ ho =>
    obtain ⟨hcl, rfl⟩ := hf.inited hcall hpc hi ho
    exact .inl ⟨rfl, .attempt rfl (hlo.idle hcl).2 nofun (.inl rfl)⟩
  | waited hcall => exact .wait h hcall hw
  | closeCalled => exact absurd hw not_watched_of_closeCalled
  | signalled _ => exact (h hw).quiet rfl rfl rfl rfl rfl id rfl rfl rfl
  | closing hl hu =>
    have hcl := hlo.notClosed hl
    have hw' : Watched s := by
      unfold Watched Established Awaited at hw ⊢
      rwa [closeAll_calling, closeAll_returned] at hw
    have h₁ : Outcome { s with asyncPending := false } := (h hw').quiet rfl rfl rfl rfl rfl id rfl rfl rfl
    exact h₁.closing hcl fun hlive => hc hw' hlive hu
  | connectFailed hl hreq hst hcon =>
    exact .attemptFailed h (fun he => hst ((hc he).1 hcon)) (by rw [hreq]; rfl) rfl rfl rfl rfl hcon hw
  | reconnectFailed hl hreq hst hcon =>
    rcases h hw with ⟨-, hp⟩ | hfail
    · have hcl := (hp.request (by rw [hreq]; rfl)).2.1 hcon
      obtain ⟨-, ht, hno⟩ := hp.timer hcon hcl
      exact .inl ⟨hl, .retrying (decide_eq_true ht) hcon ht hno hcl⟩
    · exact absurd (hreq.symm.trans hfail.request) nofun
  | readFailed hl hreq ho hrd hs₁ =>
    have hno : ¬ s.Established := fun he => hrd ((hc he).2 rfl)
    subst hs₁
    split at hw
    · next hcon =>
      rw [if_pos hcon]
      exact .attemptFailed h hno (by rw [hreq]; rfl) rfl rfl rfl rfl rfl hw
    · next hcon =>
      rw [if_neg hcon]
      exact .attemptFailed h hno (by rw [hreq]; rfl) rfl rfl rfl rfl (Bool.eq_false_iff.2 hcon) hw
  | connected hl hreq ho hs₁ => exact (h (reading_watched hs₁ hw)).connected hl (by rw [hreq]; rfl) ho hs₁
  | received _ _ _ _ => exact (h hw).quiet rfl rfl rfl rfl rfl id rfl rfl rfl
  | disconnected hl ho => exact (h hw).disconnected hl ho
  | retried hl hcon hraw =>
    obtain ⟨-, ht⟩ := (h hw).timer hcon hraw
    exact .inl ⟨hl, .retrying (decide_eq_true ht) hcon ht (by rw [show s.retryLater.tcpHandle = s.tcpHandle from rfl, hraw]; nofun)
      (by rw [show s.retryLater.tcpHandle = s.tcpHandle from rfl, hraw]; nofun)⟩
  | dropped hl hcon hraw =>
    obtain ⟨-, ht⟩ := (h hw).timer hcon hraw
    exact .inl ⟨hl, .retrying (decide_eq_true ht) hcon ht nofun nofun⟩
  | reissued hl hcon hraw hreq =>
    obtain ⟨harm, ht⟩ := (h hw).timer hcon hraw
    exact .inl ⟨hl, .retrying harm hcon ht nofun nofun⟩
  | tcpGone hl hreq hh =>
    obtain rfl := hc hw
    exact (h hw).tcpClosed hl hreq hh hstep
  | rearmed hl hreq hcon hh =>
    obtain rfl := hc hw
    exact (h hw).tcpClosed hl hreq hh hstep
  | timerDropped hl hreq hcon hh =>
    obtain rfl := hc hw
    exact (h hw).tcpClosed hl hreq hh hstep
  | asyncGone _ => exact (h hw).quiet rfl rfl rfl rfl rfl id rfl rfl rfl
  | timerGone _ => exact (h hw).quiet rfl rfl rfl rfl rfl Handle.closed_eq_opened.2 rfl rfl rfl
  | stopped hl ha =>
    rcases h hw with ⟨-, hp⟩ | hfail
    · exact absurd (hp.alive.symm.trans ha) nofun
    · exact .inr ⟨hfail.calling, hfail.status, hfail.request, hfail.handle, hfail.connecting⟩

end Steps

/-- What every run keeps. -/
structure Recovers (s : TCPClient) : Prop where
  first : ClosedFirst s
  loop : LoopOk s
  outcome : Watched s → Outcome s

theorem Recovers.step {env : Env} {s s' : TCPClient} {e : TcpClientEvent} (h : Recovers s) (hc : PassesOn s e)
    (hs : TCPClient.step env s e = .ok s') : Recovers s' where
  first := h.first.step (step_cases hs)
  loop := h.loop.step h.first (step_cases hs)
  outcome := .step h.outcome h.first h.loop hc hs (step_cases hs)

theorem new_recovers (env : Env) (head tail : UInt8) : Recovers (TCPClient.new env head tail) where
  first := new_closedFirst env head tail
  loop := ⟨fun _ => ⟨rfl, rfl⟩, nofun⟩
  outcome := by
    rintro (⟨-, r, hr, -⟩ | ⟨c, hc, -⟩)
    · cases hr
    · cases hc

end TCPClient

open TCPClient

/-! **A connected client is never stranded** where nobody drops the connection. -/

theorem client_recovers (env : Env) (head tail : UInt8) (es : List TcpClientEvent) (s : TCPClient)
    (hpass : Along (step env) PassesOn (TCPClient.new env head tail) es)
    (hrun : run (step env) (TCPClient.new env head tail) es = .ok s) : s.Established → s.Lively := by
  have hkeep := run_keeps (fun _ _ _ h hc hs => h.step hc hs) (new_recovers env head tail) hpass hrun
  intro he
  rcases hkeep.outcome (.inl he) with ⟨hl, hp⟩ | hf
  · exact hp.lively hl
  · exact absurd he hf.not_established

/-- The connection is lost, and the timer has issued an attempt. -/
def retryRun : List TcpClientEvent := [.recvError, .tcpClosed 0, .timer 0 0 0]

theorem client_recovers_retry :
    ∃ s, run (step zeroEnv) (TCPClient.new zeroEnv 1 2) (connectRun ++ retryRun) = .ok s ∧ s.Established ∧ s.Lively := by
  have hrun := (run_append connectRun_run).trans (rfl : run (step zeroEnv) connectedClient retryRun = .ok _)
  have he : connectedClient.Established := ⟨rfl, ⟨true, true, false⟩, rfl, rfl, rfl⟩
  refine ⟨_, hrun, he, client_recovers zeroEnv 1 2 _ _ ?_ hrun he⟩
  refine .append ?_ connectRun_run (.cons rfl trivial (.cons rfl (fun _ => rfl) (.cons rfl trivial trivial)))
  refine .cons rfl trivial (.cons rfl trivial (.cons rfl (fun _ => ⟨fun _ => rfl, fun _ => rfl⟩) ?_))
  exact .cons rfl trivial (.cons rfl trivial trivial)

/-- The attempt succeeds, but `uv_read_start` does not. -/
theorem client_recovers_fails :
    ¬ ∀ env head tail es s, run (step env) (TCPClient.new env head tail) es = .ok s → s.Established → s.Lively := by
  intro hall
  have hrun := (run_append connectRun_run).trans
    (rfl : run (step zeroEnv) connectedClient (retryRun ++ [.onConnect 0 (-1)]) = .ok _)
  obtain ⟨-, h | ⟨h, -⟩ | ⟨h, -⟩ | h⟩ := hall zeroEnv 1 2 _ _ hrun ⟨rfl, ⟨true, true, false⟩, rfl, rfl, rfl⟩
  · cases h
  · cases h
  · cases h
  · cases h

end Uvnet

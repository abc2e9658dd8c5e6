import Uvnet.ClientConnect

/- What `handle->data` points to when a callback of a client runs.

   `tcp_handle.data` is the `TcpClientCtx`, for the callbacks that connect and read, except
   while the handle waits for `OnClientClose`, which takes the `TCPClient` from it.
   `_start_reconnect` sets it so; `_close` closes the handle with the same callback and sets
   it the other way (`client_data_fails`). Exactly the closes that find the handle in use
   have to be left out (`client_data_typed`). -/
namespace Uvnet
open CMachine LoopHandle StepRun

/-- The handles of a client. -/
inductive ClientHandle where
  | tcp
  | async
  | timer
  deriving DecidableEq

namespace TCPClient

/-- `handle->data`; `_init` sets that of the async handle and of the timer, for good. -/
def handleData (s : TCPClient) : ClientHandle → ClientData
  | .tcp => s.tcpData
  | .async | .timer => .client

/-- The handle that the callback of an event is given, with what it takes `data` for.
`AllocBufferForRecv` runs before every `OnRecv`, on the same handle. -/
def takes (s : TCPClient) : TcpClientEvent → Option (ClientHandle × ClientData)
  | .onConnect status _ =>
    if s.looping = true ∧ s.connectReq.isSome ∧ (status ≠ 0 ∨ s.tcpHandle = .opened false) then some (.tcp, .ctx)
    else none
  | .recv chunk =>
    if s.looping = true ∧ s.tcpHandle = .opened true ∧ chunk.length ≤ bufferSize then some (.tcp, .ctx) else none
  | .recvError => if s.looping = true ∧ s.tcpHandle = .opened true then some (.tcp, .ctx) else none
  | .tcpClosed _ =>
    if s.looping = true ∧ s.connectReq = none ∧ s.tcpHandle = .closing .onClientClose then some (.tcp, .client)
    else none
  | .asyncClosed =>
    if s.looping = true ∧ s.asyncHandle = .closing .onClientClose then some (.async, .client) else none
  | .timerClosed =>
    if s.looping = true ∧ s.connectTimer = .closing .onClientClose then some (.timer, .client) else none
  | _ => none

/-- Every callback that can run next finds in `data` what it takes it for. -/
def DataTyped (s : TCPClient) : Prop := ∀ e h d, s.takes e = some (h, d) → s.handleData h = d

/-- The event runs `_close`, past its test. -/
def closes (s : TCPClient) : TcpClientEvent → Prop
  | .connect => s.calling = none ∧ s.isClosed = false
  | .async => s.looping = true ∧ s.isUserClosed = true ∧ s.isClosed = false
  | _ => False

/-- `_close` finds a handle that is not open, and does not wait for `OnClientClose`, if the loop
thread is there to run that. -/
def ClosesUnused (s : TCPClient) (e : TcpClientEvent) : Prop :=
  s.closes e → s.looping = true → (∀ b, s.tcpHandle ≠ .opened b) ∧ s.tcpHandle ≠ .closing .onClientClose

/-- A `Connect` before its `_init`, on a client that is not closed, has closed the handle. -/
def ClosedFirst (s : TCPClient) : Prop :=
  ∀ c, s.calling = some c → c.pc = .init → s.isClosed = false → s.isConnecting = false ∧ ∀ b, s.tcpHandle ≠ .opened b

section Steps
variable {env : Env} {s s' s₁ : TCPClient} {e : TcpClientEvent} {c : ConnectCall}

theorem closeAll_calling (s : TCPClient) : s.closeAll.calling = s.calling := by
  unfold TCPClient.closeAll
  split <;> rfl

theorem closeAll_isClosed (s : TCPClient) : s.closeAll.isClosed = s.isClosed := by
  unfold TCPClient.closeAll
  split <;> rfl

theorem closeAll_closed (hc : s.isClosed = false) :
    s.closeAll.isConnecting = false ∧ ∀ b, s.closeAll.tcpHandle ≠ .opened b := by
  unfold TCPClient.closeAll
  rw [if_neg (by rw [hc]; nofun)]
  exact ⟨rfl, fun _ => Handle.closeWalk_ne_opened⟩

/-- No call of `Connect` comes to stand before its `_init`, and the handle does not open. -/
theorem ClosedFirst.frame (h : ClosedFirst s)
    (hcall : ∀ c', s'.calling = some c' → c'.pc = .init → ∃ c, s.calling = some c ∧ c.pc = .init)
    (hclosed : s'.isClosed = false → s.isClosed = false)
    (hrest : s.isConnecting = false → (∀ b, s.tcpHandle ≠ .opened b) →
      s'.isConnecting = false ∧ ∀ b, s'.tcpHandle ≠ .opened b) : ClosedFirst s' := by
  intro c' hc' hpc hcl
  obtain ⟨c, hc, hinit⟩ := hcall c' hc' hpc
  obtain ⟨hcon, hno⟩ := h c hc hinit (hclosed hcl)
  exact hrest hcon hno

theorem ClosedFirst.quiet (h : ClosedFirst s) (hcall : s'.calling = s.calling) (hclosed : s'.isClosed = s.isClosed)
    (hrest : s.isConnecting = false → (∀ b, s.tcpHandle ≠ .opened b) →
      s'.isConnecting = false ∧ ∀ b, s'.tcpHandle ≠ .opened b) : ClosedFirst s' := by
  refine h.frame (fun c' hc' hpc => ?_) (fun hcl => hclosed.symm.trans hcl) hrest
  rw [hcall] at hc'
  exact ⟨c', hc', hpc⟩

theorem ClosedFirst.of_none (hc : s.calling = none) : ClosedFirst s := by
  intro c hc'
  rw [hc] at hc'
  cases hc'

theorem ClosedFirst.wait (h : ClosedFirst s) : ClosedFirst (s.wait c) := by
  have hnot : ∀ {s₁ : TCPClient} {c' : ConnectCall}, s₁.calling = some c' → c'.pc ≠ .init → ClosedFirst s₁ := by
    intro s₁ c' hc' hpc c'' hc'' hinit
    obtain rfl := Option.some.inj (hc'.symm.trans hc'')
    exact absurd hinit hpc
  unfold TCPClient.wait
  split
  · exact h
  · exact hnot rfl (by split <;> nofun)
  · split
    · exact hnot rfl nofun
    · exact hnot rfl nofun
  · exact .of_none rfl

theorem ClosedFirst.step (h : ClosedFirst s) (hs : ClientStep env s e s') : ClosedFirst s' := by
  cases hs with
  | idle => exact h
  | called _ =>
    intro c _ _ hcl
    have hcl : s.closeAll.isClosed = false := hcl
    rw [closeAll_isClosed] at hcl
    exact closeAll_closed hcl
  | refused _ _ _ => exact .of_none rfl
  | unthreaded _ _ _ _ _ _ => exact .of_none rfl
  | issued _ _ _ _ _ _ =>
    intro c hc hinit
    obtain rfl := Option.some.inj hc
    cases hinit
  | waited _ => exact h.wait
  | closeCalled =>
    refine h.frame (fun c' hc' hpc => ?_) id fun hcon hno => ⟨hcon, hno⟩
    obtain ⟨c, hc, rfl⟩ := Option.map_eq_some_iff.1 hc'
    exact ⟨c, hc, hpc⟩
  | signalled _ => exact h
  | closing _ _ =>
    intro c _ _ hcl
    rw [closeAll_isClosed] at hcl
    exact closeAll_closed hcl
  | connectFailed _ _ _ _ => exact h
  | reconnectFailed _ _ _ _ => exact h
  | readFailed _ _ ho _ hs₁ =>
    subst hs₁
    split
    · exact h.quiet rfl rfl fun _ hno => absurd ho (hno _)
    · exact h
  | connected _ _ ho hs₁ =>
    subst hs₁
    split
    all_goals
      refine h.frame (fun c' hc' hpc => ?_) id fun _ hno => absurd ho (hno _)
      obtain ⟨c, hc, rfl⟩ := Option.map_eq_some_iff.1 hc'
      exact ⟨c, hc, hpc⟩
  | received _ _ _ _ => exact h
  | disconnected _ ho => exact h.quiet rfl rfl fun _ hno => absurd ho (hno _)
  | retried _ _ _ => exact h
  | dropped _ hcon _ => exact h.quiet rfl rfl fun hno _ => absurd (hcon.symm.trans hno) nofun
  | reissued _ hcon _ _ => exact h.quiet rfl rfl fun hno _ => absurd (hcon.symm.trans hno) nofun
  | tcpGone _ _ _ => exact h.quiet rfl rfl fun hcon _ => ⟨hcon, nofun⟩
  | rearmed _ _ _ _ => exact h.quiet rfl rfl fun hcon _ => ⟨hcon, nofun⟩
  | timerDropped _ _ _ _ => exact h.quiet rfl rfl fun hcon _ => ⟨hcon, nofun⟩
  | asyncGone _ => exact h
  | timerGone _ => exact h
  | stopped _ _ =>
    intro _ _ _ hcl
    cases hcl

/-- An `_init` that goes on to `uv_tcp_connect` has set everything up anew. -/
theorem ClosedFirst.inited (h : ClosedFirst s) (hc : s.calling = some c) (hpc : c.pc = .init) {b : Bool}
    {asyncInit tcpInit timerInit : Int} (hi : Inited s asyncInit tcpInit timerInit s₁ true)
    (ho : s₁.tcpHandle = .opened b) : s.isClosed = true ∧ s₁ = s.allUp := by
  cases hi with
  | up hcl => exact absurd ho ((h c hc hpc hcl).2 b)
  | allUp hcl _ => exact ⟨hcl, rfl⟩

/-- What `tcp_handle.data` points to, in each state of the handle. -/
structure DataOk (s : TCPClient) : Prop where
  awaited : s.looping = true → s.tcpHandle = .closing .onClientClose → s.tcpData = .client
  unused : s.tcpData = .client → s.connectReq = none ∧ ∀ b, s.tcpHandle ≠ .opened b
  reading : s.tcpHandle = .opened true → s.connectReq = none

theorem DataOk.quiet (h : DataOk s) (hl : s'.looping = s.looping) (hh : s'.tcpHandle = s.tcpHandle)
    (hd : s'.tcpData = s.tcpData) (hr : s'.connectReq = s.connectReq) : DataOk s' := by
  refine ⟨?_, ?_, ?_⟩
  · rw [hl, hh, hd]
    exact h.awaited
  · rw [hd, hr, hh]
    exact h.unused
  · rw [hh, hr]
    exact h.reading

/-- The data is the context, and the handle does not wait for `OnClientClose`. -/
theorem DataOk.of_ctx (hd : s.tcpData = .ctx) (ha : s.tcpHandle ≠ .closing .onClientClose)
    (hr : s.tcpHandle = .opened true → s.connectReq = none) : DataOk s := by
  refine ⟨fun _ hcl => absurd hcl ha, fun hc => ?_, hr⟩
  rw [hd] at hc
  cases hc

theorem DataOk.opened_ctx (h : DataOk s) {b : Bool} (ho : s.tcpHandle = .opened b) : s.tcpData = .ctx := by
  cases hd : s.tcpData with
  | ctx => rfl
  | client => exact absurd ho ((h.unused hd).2 b)

theorem DataOk.closeAll (h : DataOk s)
    (hc : s.isClosed = false → s.looping = true →
      (∀ b, s.tcpHandle ≠ .opened b) ∧ s.tcpHandle ≠ .closing .onClientClose) : DataOk s.closeAll := by
  unfold TCPClient.closeAll
  split
  · exact h
  · next hcl =>
    refine ⟨fun hl hclosing => ?_, nofun, fun ho => absurd ho Handle.closeWalk_ne_opened⟩
    obtain ⟨hno, hne⟩ := hc (Bool.eq_false_iff.2 hcl) hl
    cases hh : s.tcpHandle with
    | raw =>
      simp only [stopReconnect, hh] at hclosing
      cases hclosing
    | opened b => exact absurd hh (hno b)
    | closing cb =>
      simp only [stopReconnect, hh] at hclosing
      exact absurd (hh.trans hclosing) hne

theorem DataOk.inited {asyncInit tcpInit timerInit : Int} {ok : Bool} (h : DataOk s)
    (hi : Inited s asyncInit tcpInit timerInit s₁ ok) : DataOk s₁ := by
  cases hi with
  | up => exact h
  | asyncFailed => exact h
  | tcpFailed => exact h.quiet rfl rfl rfl rfl
  | timerFailed => exact .of_ctx rfl nofun nofun
  | allUp => exact .of_ctx rfl nofun nofun

theorem DataOk.wait (h : DataOk s) : DataOk (s.wait c) := by
  unfold TCPClient.wait
  split
  · exact h
  · exact h.quiet rfl rfl rfl rfl
  · split
    · exact h.quiet rfl rfl rfl rfl
    · exact h.quiet rfl rfl rfl rfl
  · exact h.quiet rfl rfl rfl rfl

/-- **A step that closes no used handle keeps its data right.** -/
theorem DataOk.step (h : DataOk s) (hf : ClosedFirst s) (hc : ClosesUnused s e) (hs : ClientStep env s e s') :
    DataOk s' := by
  cases hs with
  | idle => exact h
  | called hn =>
    have h₁ := h.closeAll fun hcl hl => hc ⟨hn, hcl⟩ hl
    exact h₁.quiet rfl rfl rfl rfl
  | refused _ _ hi => exact (h.inited hi).quiet rfl rfl rfl rfl
  | unthreaded hcall hpc hi _ _ ho =>
    obtain ⟨-, rfl⟩ := hf.inited hcall hpc hi ho
    exact .of_ctx rfl nofun nofun
  | issued hcall hpc hi _ _ ho =>
    obtain ⟨-, rfl⟩ := hf.inited hcall hpc hi ho
    exact .of_ctx rfl nofun nofun
  | waited _ => exact h.wait
  | closeCalled => exact h.quiet rfl rfl rfl rfl
  | signalled _ => exact h.quiet rfl rfl rfl rfl
  | closing hl hu =>
    have h₁ : DataOk { s with asyncPending := false } := h.quiet rfl rfl rfl rfl
    exact h₁.closeAll fun hcl hl => hc ⟨hl, hu, hcl⟩ hl
  | connectFailed _ _ _ _ => exact ⟨h.awaited, fun hd => ⟨rfl, (h.unused hd).2⟩, fun _ => rfl⟩
  | reconnectFailed _ _ _ _ => exact ⟨h.awaited, fun hd => ⟨rfl, (h.unused hd).2⟩, fun _ => rfl⟩
  | readFailed _ _ ho _ hs₁ =>
    subst hs₁
    have ha : s.tcpHandle ≠ .closing .onClientClose := by rw [ho]; nofun
    split
    · exact .of_ctx rfl ha fun _ => rfl
    · exact .of_ctx (h.opened_ctx ho) ha fun _ => rfl
  | connected _ _ ho hs₁ =>
    subst hs₁
    split
    · exact .of_ctx rfl nofun fun _ => rfl
    · exact .of_ctx (h.opened_ctx ho) nofun fun _ => rfl
  | received _ _ _ _ => exact h.quiet rfl rfl rfl rfl
  | disconnected _ ho => exact ⟨fun _ _ => rfl, fun _ => ⟨h.reading ho, nofun⟩, nofun⟩
  | retried _ _ _ => exact h.quiet rfl rfl rfl rfl
  | dropped _ _ _ => exact .of_ctx rfl nofun nofun
  | reissued _ _ _ _ => exact .of_ctx rfl nofun nofun
  | tcpGone _ hreq _ => exact ⟨nofun, fun _ => ⟨hreq, nofun⟩, nofun⟩
  | rearmed _ hreq _ _ => exact ⟨nofun, fun _ => ⟨hreq, nofun⟩, nofun⟩
  | timerDropped _ hreq _ _ => exact ⟨nofun, fun _ => ⟨hreq, nofun⟩, nofun⟩
  | asyncGone _ => exact h.quiet rfl rfl rfl rfl
  | timerGone _ => exact h.quiet rfl rfl rfl rfl
  | stopped _ _ => exact ⟨nofun, h.unused, h.reading⟩

theorem DataOk.dataTyped (h : DataOk s) : s.DataTyped := by
  have hreq : s.connectReq.isSome = true → s.tcpData = .ctx := by
    intro hsome
    cases hd : s.tcpData with
    | ctx => rfl
    | client =>
      rw [(h.unused hd).1] at hsome
      cases hsome
  intro e k d htakes
  cases e with
  | onConnect status readStart =>
    simp only [takes, Option.ite_none_right_eq_some, Option.some.injEq, Prod.mk.injEq] at htakes
    obtain ⟨⟨-, hsome, -⟩, rfl, rfl⟩ := htakes
    exact hreq hsome
  | recv chunk =>
    simp only [takes, Option.ite_none_right_eq_some, Option.some.injEq, Prod.mk.injEq] at htakes
    obtain ⟨⟨-, ho, -⟩, rfl, rfl⟩ := htakes
    exact h.opened_ctx ho
  | recvError =>
    simp only [takes, Option.ite_none_right_eq_some, Option.some.injEq, Prod.mk.injEq] at htakes
    obtain ⟨⟨-, ho⟩, rfl, rfl⟩ := htakes
    exact h.opened_ctx ho
  | tcpClosed timerStart =>
    simp only [takes, Option.ite_none_right_eq_some, Option.some.injEq, Prod.mk.injEq] at htakes
    obtain ⟨⟨hl, -, hcl⟩, rfl, rfl⟩ := htakes
    exact h.awaited hl hcl
  | asyncClosed =>
    simp only [takes, Option.ite_none_right_eq_some, Option.some.injEq, Prod.mk.injEq] at htakes
    obtain ⟨-, rfl, rfl⟩ := htakes
    rfl
  | timerClosed =>
    simp only [takes, Option.ite_none_right_eq_some, Option.some.injEq, Prod.mk.injEq] at htakes
    obtain ⟨-, rfl, rfl⟩ := htakes
    rfl
  | _ => cases htakes

end Steps

theorem new_closedFirst (env : Env) (head tail : UInt8) : ClosedFirst (TCPClient.new env head tail) := .of_none rfl

theorem new_dataOk (env : Env) (head tail : UInt8) : DataOk (TCPClient.new env head tail) where
  awaited := nofun
  unused := nofun
  reading := nofun

end TCPClient

open TCPClient

/-! **Every callback finds in `data` what it takes it for** where `_close` is run only on a
`tcp_handle` that is not in use. -/

theorem client_data_typed (env : Env) (head tail : UInt8) (es : List TcpClientEvent) (s : TCPClient)
    (hunused : Along (step env) ClosesUnused (TCPClient.new env head tail) es)
    (hrun : run (step env) (TCPClient.new env head tail) es = .ok s) : s.DataTyped := by
  have hstep : ∀ s e s', ClosedFirst s ∧ DataOk s → ClosesUnused s e → step env s e = .ok s' →
      ClosedFirst s' ∧ DataOk s' := by
    rintro s e s' ⟨hf, h⟩ hc hs
    exact ⟨hf.step (step_cases hs), h.step hf hc (step_cases hs)⟩
  have hkeep := run_keeps hstep ⟨new_closedFirst env head tail, new_dataOk env head tail⟩ hunused hrun
  exact hkeep.2.dataTyped

/-- A connection is lost, and waits for `OnClientClose`. -/
theorem client_data_typed_lost :
    ∃ s, run (step zeroEnv) (TCPClient.new zeroEnv 1 2) (connectRun ++ [.recvError]) = .ok s ∧ s.DataTyped := by
  have hrun := (run_append connectRun_run).trans (rfl : run (step zeroEnv) connectedClient [.recvError] = .ok _)
  refine ⟨_, hrun, client_data_typed zeroEnv 1 2 _ _ ?_ hrun⟩
  refine .append ?_ connectRun_run ⟨nofun, fun _ _ => trivial⟩
  exact .cons rfl (fun hc => nomatch hc.2) (.cons rfl nofun (.cons rfl nofun (.cons rfl nofun (.cons rfl nofun trivial))))

/-- `Close` closes the connection's handle. -/
theorem client_data_fails :
    ¬ ∀ env head tail es s, run (step env) (TCPClient.new env head tail) es = .ok s → s.DataTyped := by
  intro hall
  have hrun := (run_append connectRun_run).trans
    (rfl : run (step zeroEnv) connectedClient [.close, .signal, .async] = .ok _)
  have htyped := hall zeroEnv 1 2 _ _ hrun (.tcpClosed 0) .tcp .client rfl
  cases htyped

end Uvnet

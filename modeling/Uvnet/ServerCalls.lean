import Uvnet.ServerLocks

/- The callbacks that a server's notes record are those its threads call.

   `TCPServer` notes every callback it would call with the mutexes that are held at it; the
   actions of its threads say on their own which are called, and where mutexes are taken and
   given back. On a server whose callbacks are set the two agree (`notes_told`): each
   callback of the loop thread adds to the notes what its actions tell (`Tells`). -/
namespace Uvnet
open CMachine ObjectPool ActionTrace StepRun

/-- A call of a callback, with the mutexes held at it. -/
def Note.of : ServerCall × List Mutex → Option Note
  | (.newConnect sid, held) => some (.newConnect sid held)
  | (.tcpClose sid, held) => some (.tcpClose sid held)
  | (.process _, _) => none

/-- The callbacks that some actions call. -/
def told (acts : List ServerAct) : List Note := (callsUnder [] acts).filterMap Note.of

theorem told_append {acts : List ServerAct} (h : Balanced acts) (acts' : List ServerAct) :
    told (acts ++ acts') = told acts ++ told acts' := by
  rw [told, callsUnder_append, h [], List.filterMap_append]
  rfl

theorem told_quiet {acts : List ServerAct} (h : Quiet acts) : told acts = [] := by
  rw [told, h.callsUnder]
  rfl

@[simp] theorem told_access (id : Nat) (acts : List ServerAct) : told (.access id :: acts) = told acts := rfl

theorem told_flatMap {ι : Type} {f : ι → List ServerAct} (l : List ι) (hbal : ∀ i ∈ l, Balanced (f i))
    (h : ∀ i ∈ l, told (f i) = []) : told (l.flatMap f) = [] := by
  induction l with
  | nil => rfl
  | cons i rest ih =>
    rw [List.flatMap_cons, told_append (hbal i List.mem_cons_self), h i List.mem_cons_self, List.nil_append]
    exact ih (fun j hj => hbal j (List.mem_cons_of_mem i hj)) fun j hj => h j (List.mem_cons_of_mem i hj)

namespace TCPServer
variable {σ π : Type} {env : Env} {rt : Runtime σ} {e : Endian} {protocols : Protocols π} {s s' : TCPServer}

theorem connectionActs_told (status tcpInit accept readStart : Int) :
    told (s.connectionActs env true status tcpInit accept readStart) =
      if status = 0 ∧ tcpInit = 0 ∧ accept = 0 ∧ readStart = 0 then [.newConnect (s.sId + 1) []] else [] := by
  have hrecycle : ∀ p id, told (recycleActs p id) = [] := fun p id => told_quiet (recycleActs_quiet p id)
  have hfetch : told (s.fetchActs env) = [] := told_quiet (by simp [Quiet, fetchActs])
  unfold connectionActs
  by_cases hstatus : status = 0
  · simp only [hstatus, ne_eq, not_true_eq_false, if_false, true_and]
    rw [told_append (fetchActs_balanced env s), hfetch, List.nil_append, told_access]
    by_cases hinit : tcpInit = 0
    · by_cases haccept : accept = 0
      · by_cases hread : readStart = 0
        · simp [hinit, haccept, hread]
          rfl
        · simp [hinit, haccept, hread]
          rfl
      · simp [hinit, haccept, hrecycle]
    · simp [hinit, hrecycle]
  · simp [hstatus]
    rfl

theorem onConnection_notes {status tcpInit accept readStart : Int}
    (hs : s.onConnection env status tcpInit accept readStart = .ok s') :
    s'.notes = s.notes ++
      if status = 0 ∧ tcpInit = 0 ∧ accept = 0 ∧ readStart = 0 then [.newConnect (s.sId + 1) []] else [] := by
  unfold TCPServer.onConnection at hs
  by_cases hstatus : status = 0
  · subst hstatus
    rw [if_neg (not_not.2 rfl)] at hs
    obtain ⟨⟨s₁, id⟩, hfetch, hs₁⟩ := bind_eq_ok.1 hs
    obtain ⟨-, c, -, rfl⟩ := fetchOneCtx_eq hfetch
    by_cases hinit : tcpInit = 0
    · subst hinit
      simp only [ne_eq, not_true_eq_false, if_false] at hs₁
      obtain ⟨sid, hsid, hs₂⟩ := bind_eq_ok.1 hs₁
      obtain ⟨rfl, -⟩ := cint_eq_ok hsid
      obtain ⟨d, -, hs₃⟩ := bind_eq_ok.1 hs₂
      by_cases haccept : accept = 0
      · by_cases hread : readStart = 0
        · simp only [haccept, hread, not_true_eq_false, if_false, pure_ok, Except.ok.injEq] at hs₃
          rw [← hs₃]
          simp [newSession, setCtx, haccept, hread]
        · simp only [haccept, hread, not_true_eq_false, not_false_eq_true, if_false, if_true, uvClose, ok_bind, pure_ok,
            Except.ok.injEq] at hs₃
          rw [← hs₃]
          simp [setCtx, hread]
      · simp only [haccept, not_false_eq_true, if_true, pure_ok, Except.ok.injEq] at hs₃
        rw [← hs₃]
        simp [setCtx, recycleOneCtx, haccept]
    · simp only [hinit, ne_eq, not_false_eq_true, if_true, pure_ok, Except.ok.injEq] at hs₁
      rw [← hs₁]
      simp [recycleOneCtx, hinit]
  · rw [if_pos hstatus] at hs
    cases hs
    simp [hstatus]

theorem recvActs_told (id : Nat) (c : SessionCtx) (chunk : List UInt8) : told (recvActs rt protocols env id c chunk) = [] := by
  have hpacket : ∀ p, told (packetActs rt env.endian protocols id p) = [] := by
    intro p
    obtain ⟨protoIds, hacts⟩ := packetActs_calls id p
    rw [hacts, told_access, told, callsUnder_calls]
    simp [Note.of]
  unfold recvActs
  rw [told_access]
  split
  · rfl
  · split
    · exact told_flatMap _ (fun p _ => packetActs_balanced id p) fun p _ => hpacket p
    · rfl

/-- `SessionClosed` tells of the session, and holds `_mutex_sessions`. -/
theorem sessionClosedActs_told {sid : Int} {k : Nat} (hlookup : s.sessions.lookup sid = some k) :
    told (s.sessionClosedActs true sid) = [.tcpClose sid [.sessions]] := by
  obtain ⟨rest, hrest, hacts⟩ := sessionClosedActs_cut hlookup true
  have hlast : callsUnder [Mutex.sessions] rest = [] := hrest.callsUnder [Mutex.sessions]
  rw [hacts, if_pos rfl, told]
  show (callsUnder [] (.lock .sessions :: .call (.tcpClose sid) :: rest)).filterMap Note.of = _
  rw [callsUnder, callsUnder, hlast]
  rfl

theorem Change.notes_kept {e : ServerEvent} (hc : Change env s e s')
    (hconnection : ∀ status tcpInit accept readStart, e ≠ .onConnection status tcpInit accept readStart)
    (hclosed : ∀ id, e ≠ .handleClosed id) (hstop : e ≠ .stop) : s'.notes = s.notes := by
  cases hc with
  | flags hf => exact hf.notes
  | @received _ c chunk r hc hh hlen hr => exact (SameRegistry.received hc r.sync chunk r.calls).notes
  | closing => rfl
  | closedAll _ _ _ _ _ _ _ _ _ hnotes => exact hnotes
  | initFailed => exact absurd rfl (hconnection _ _ _ _)
  | acceptFailed => exact absurd rfl (hconnection _ _ _ _)
  | readFailed => exact absurd rfl (hconnection _ _ _ _)
  | accepted => exact absurd rfl (hconnection _ _ _ _)
  | forgotten => exact absurd rfl (hclosed _)
  | recycled => exact absurd rfl (hclosed _)
  | sessionClosed => exact absurd rfl (hclosed _)
  | stopped => exact absurd rfl hstop

end TCPServer

namespace TracedServer
variable {σ π : Type} {env : Env} {rt : Runtime σ} {s s' : TracedServer π}

open TCPServer

/-- Both callbacks are set. -/
structure Notified (s : TracedServer π) : Prop where
  newConn : s.newConnCb = true
  close : s.closeCb = true

theorem handleClosed_told (h : Registry s.server []) (hcb : Notified s) {id : Nat} {server : TCPServer}
    (hs : s.server.step env (.handleClosed id) = .ok server) :
    server.notes = s.server.notes ++ told (s.loopActs env rt (.handleClosed id)) := by
  by_cases hclosing : ∃ c cb, s.server.ctxs.cells[id]? = some c ∧ c.tcpHandle = .closing cb
  · obtain ⟨c, cb, hc, hh⟩ := hclosing
    rw [loopActs_closing hc hh]
    cases cb with
    | afterServerClose =>
      simp only [TCPServer.step, hc, hh] at hs
      rw [← Except.ok.inj hs]
      exact (List.append_nil _).symm
    | recycleSessionCtx =>
      simp only [TCPServer.step, hc, hh] at hs
      rw [← Except.ok.inj hs, onClosedActs, told_access, told_quiet (recycleActs_quiet _ _)]
      exact (List.append_nil _).symm
    | sessionClose =>
      obtain ⟨sid, k, o, hm, rfl, hr, hserver⟩ := handleClosed_session h hc hh
      obtain rfl := Except.ok.inj (hserver.symm.trans hs)
      obtain rfl := hr.sidEq
      rw [onClosedActs, told_access, hcb.close, sessionClosedActs_told (lookup_of_mem h.sids hm)]
  · obtain ⟨hserver, hacts⟩ := handleClosed_idle hclosing
    obtain rfl := Except.ok.inj (hserver.symm.trans hs)
    rw [hacts]
    exact (List.append_nil _).symm

/-- **What a callback of the loop thread adds to the notes** is what its actions tell. -/
theorem loopActs_told (h : Registry s.server []) (hcb : Notified s) {e : ServerEvent} {server : TCPServer}
    (hs : s.server.step env e = .ok server) : server.notes = s.server.notes ++ told (s.loopActs env rt e) := by
  have hsilent : (∀ status tcpInit accept readStart, e ≠ .onConnection status tcpInit accept readStart) →
      (∀ id, e ≠ .handleClosed id) → e ≠ .stop → told (s.loopActs env rt e) = [] →
      server.notes = s.server.notes ++ told (s.loopActs env rt e) := by
    intro hconnection hclosed hstop htold
    rw [(step_change h hs).notes_kept hconnection hclosed hstop, htold, List.append_nil]
  cases e with
  | onConnection status tcpInit accept readStart =>
    rw [loopActs]
    rw [TCPServer.step] at hs
    split at hs
    · next hopen => rw [if_pos hopen, onConnection_notes hs, hcb.newConn, connectionActs_told]
    · next hopen =>
      rw [if_neg hopen, ← Except.ok.inj hs]
      exact (List.append_nil _).symm
  | recv id chunk =>
    apply hsilent (by simp) (by simp) (by simp)
    rw [loopActs]
    split
    · rfl
    · split
      · exact recvActs_told _ _ _
      · rfl
  | recvError id =>
    apply hsilent (by simp) (by simp) (by simp)
    rw [loopActs]
    split
    · rfl
    · split
      · rw [told_access]
        split
        · rfl
        · exact told_quiet (sessionCloseActs_quiet _)
      · rfl
  | asyncClose =>
    apply hsilent (by simp) (by simp) (by simp)
    rw [loopActs]
    split
    · exact told_quiet closeAllActs_quiet
    · rfl
  | handleClosed id => exact handleClosed_told h hcb hs
  | stop =>
    rw [loopActs]
    rw [TCPServer.step] at hs
    split at hs
    · next hended =>
      rw [if_pos hended, hcb.close, ← Except.ok.inj hs]
      rfl
    · next hended =>
      rw [if_neg hended, ← Except.ok.inj hs]
      exact (List.append_nil _).symm
  | start => exact hsilent (by simp) (by simp) (by simp) (told_quiet closeAllActs_quiet)
  | close => exact hsilent (by simp) (by simp) (by simp) rfl
  | serverClosed => exact hsilent (by simp) (by simp) (by simp) rfl

/-- The callbacks stay set. -/
def KeepsCallbacks : TracedEvent π → Prop
  | .setNewConnectCB cb => cb = true
  | .setCloseCB cb => cb = true
  | _ => True

theorem Notified.step (h : Notified s) {e : TracedEvent π} (hkeeps : KeepsCallbacks e) (hs : step env rt s e = .ok s') :
    Notified s' := by
  cases e with
  | loop e =>
    rw [TracedServer.step] at hs
    split at hs
    · rwa [← Except.ok.inj hs]
    · obtain ⟨server, -, hs⟩ := bind_eq_ok.1 hs
      rw [← Except.ok.inj hs]
      exact ⟨h.newConn, h.close⟩
  | send id data iret =>
    rw [TracedServer.step] at hs
    split at hs
    · rw [← Except.ok.inj hs]
      exact ⟨h.newConn, h.close⟩
    · rwa [← Except.ok.inj hs]
  | onSend k status =>
    rw [TracedServer.step] at hs
    split at hs
    · rwa [← Except.ok.inj hs]
    · rw [← Except.ok.inj hs]
      exact ⟨h.newConn, h.close⟩
  | setNewConnectCB cb =>
    rw [← Except.ok.inj hs]
    exact ⟨hkeeps, h.close⟩
  | setCloseCB cb =>
    rw [← Except.ok.inj hs]
    exact ⟨h.newConn, hkeeps⟩
  | setRecvCB sid =>
    rw [← Except.ok.inj hs]
    exact ⟨h.newConn, h.close⟩
  | addProtocol protoId proto =>
    rw [← Except.ok.inj hs]
    exact ⟨h.newConn, h.close⟩
  | removeProtocol protocolId =>
    rw [← Except.ok.inj hs]
    exact ⟨h.newConn, h.close⟩

theorem stepActs_told {e : TracedEvent π} (hapi : ∀ e', e = .loop e' → s.waits e' = true) : told (s.stepActs env rt e) = [] := by
  cases e with
  | loop e => rw [stepActs, if_pos (hapi e rfl)]; rfl
  | send id data iret =>
    rw [stepActs]
    split
    · exact told_quiet (sendActs_quiet id data iret)
    · rfl
  | onSend k status =>
    rw [stepActs]
    split
    · rfl
    · next id _ => exact told_quiet (onSendActs_quiet id status)
  | setRecvCB sid => rfl
  | setNewConnectCB cb => rfl
  | setCloseCB cb => rfl
  | addProtocol protoId proto => rfl
  | removeProtocol protocolId => rfl

theorem step_told (h : Registry s.server []) (hcb : Notified s) {e : TracedEvent π} (hs : step env rt s e = .ok s') :
    s'.server.notes = s.server.notes ++ told (s.stepActs env rt e) := by
  by_cases hloop : ∃ e', e = .loop e' ∧ s.waits e' = false
  · obtain ⟨e', rfl, hw⟩ := hloop
    rw [TracedServer.step, hw, if_neg Bool.false_ne_true] at hs
    obtain ⟨server, hserver, hs⟩ := bind_eq_ok.1 hs
    rw [stepActs, hw, if_neg Bool.false_ne_true, ← Except.ok.inj hs]
    exact loopActs_told h hcb hserver
  · have htold : told (s.stepActs env rt e) = [] := by
      apply stepActs_told
      intro e' he
      by_contra hw
      exact hloop ⟨e', he, Bool.eq_false_iff.2 hw⟩
    rcases step_server hs with ⟨heq, -⟩ | ⟨e', he, hw, -, -⟩
    · rw [heq, htold, List.append_nil]
    · exact absurd ⟨e', he, hw⟩ hloop

end TracedServer

open TracedServer

/-- **The notes of a server** whose callbacks are set are the calls that its trace tells of. -/
theorem notes_told {σ π : Type} (env : Env) (rt : Runtime σ) (head tail : UInt8) (es : List (TracedEvent π)) (s : TracedServer π)
    (hkeeps : ∀ e ∈ es, KeepsCallbacks e)
    (hrun : run (step env rt) (TracedServer.start head tail) (.setNewConnectCB true :: .setCloseCB true :: es) = .ok s) :
    s.server.notes = told s.trace := by
  have hstep : ∀ (s : TracedServer π) e s',
      (s.server.Registry [] ∧ Balanced s.trace) ∧ Notified s ∧ s.server.notes = told s.trace → KeepsCallbacks e →
      step env rt s e = .ok s' →
      (s'.server.Registry [] ∧ Balanced s'.trace) ∧ Notified s' ∧ s'.server.notes = told s'.trace := by
    intro s e s' h hkeeps hs
    obtain ⟨⟨hregistry, hbal⟩, hcb, hnotes⟩ := h
    have htrace := step_trace hs
    refine ⟨⟨step_registry hregistry hs, ?_⟩, hcb.step hkeeps hs, ?_⟩
    · rw [htrace]
      exact hbal.append (stepActs_does e).balanced
    · rw [htrace, told_append hbal, step_told hregistry hcb hs, hnotes]
  obtain ⟨s₁, hs₁, hrun⟩ := run_cons_ok hrun
  obtain rfl := Except.ok.inj hs₁
  obtain ⟨s₂, hs₂, hrun⟩ := run_cons_ok hrun
  obtain rfl := Except.ok.inj hs₂
  have hkeep := run_keeps hstep ⟨⟨TCPServer.start_registry head tail, .nil⟩, ⟨rfl, rfl⟩, rfl⟩
    (Along.of_forall (fun e he _ => hkeeps e he) _) hrun
  exact hkeep.2.2

end Uvnet

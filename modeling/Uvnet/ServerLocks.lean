import Uvnet.ServerTrace

/- Which mutexes the threads of a server hold when they call user code.

   Every function gives back the mutexes it takes (`Does.balanced`), and calls user code when
   all mutexes are free, but for `SessionClosed`: it calls the `TcpCloseCB` of a session
   before it unlocks `_mutex_sessions`, which `SetRecvCB` takes (`Does.callsFree_iff`). -/
namespace Uvnet
open CMachine ObjectPool ActionTrace

namespace TCPServer
variable {σ π : Type} {env : Env} {rt : Runtime σ} {e : Endian} {protocols : Protocols π} {s : TCPServer}

theorem recycleActs_balanced (p : Pool SessionCtx) (id : Nat) : Balanced (recycleActs p id) := by
  apply Balanced.section
  split
  · exact (Balanced.nil.release id).access id
  · exact .nil

theorem recycleActs_quiet (p : Pool SessionCtx) (id : Nat) : Quiet (recycleActs p id) := by
  unfold recycleActs
  split <;> simp [Quiet]

theorem fetchActs_balanced (env : Env) (s : TCPServer) : Balanced (s.fetchActs env) :=
  (Balanced.nil.access (s.ctxs.fetch (.alloc env)).2).section Mutex.ctxs

theorem connectionActs_balanced (newConnCb : Bool) (status tcpInit accept readStart : Int) :
    Balanced (s.connectionActs env newConnCb status tcpInit accept readStart) := by
  unfold connectionActs
  split
  · exact .nil
  apply (fetchActs_balanced env s).append
  apply Balanced.access
  split
  · exact recycleActs_balanced _ _
  apply Balanced.access
  split
  · exact recycleActs_balanced _ _
  apply Balanced.access
  split
  · exact Balanced.nil.access _
  have hinsert : Balanced [(.lock .sessions : ServerAct), .unlock .sessions] := Balanced.nil.section Mutex.sessions
  have hcall : Balanced (if newConnCb then [(.call (.newConnect (s.sId + 1)) : ServerAct)] else []) := by
    split
    · exact Balanced.nil.call _
    · exact .nil
  exact ((hinsert.access _).append hcall).append (Balanced.nil.access _)

theorem connectionActs_callsFree (newConnCb : Bool) (status tcpInit accept readStart : Int) :
    CallsFree [] (s.connectionActs env newConnCb status tcpInit accept readStart) := by
  have hrecycle : ∀ p id, CallsFree [] (recycleActs p id) := fun p id => (recycleActs_quiet p id).callsFree []
  unfold connectionActs fetchActs
  split
  · exact callsFree_nil
  · by_cases hinit : tcpInit = 0
    · by_cases haccept : accept = 0
      · by_cases hread : readStart = 0
        · cases newConnCb <;> simp [hinit, haccept, hread]
        · simp [hinit, haccept, hread]
      · simp [hinit, haccept, hrecycle]
    · simp [hinit, hrecycle]

theorem packetActs_balanced (id : Nat) (p : FullPacket) : Balanced (packetActs rt e protocols id p) := by
  obtain ⟨protoIds, hacts⟩ := packetActs_calls id p
  rw [hacts]
  exact (Balanced.calls _).access id

theorem packetActs_callsFree (id : Nat) (p : FullPacket) : CallsFree [] (packetActs rt e protocols id p) := by
  obtain ⟨protoIds, hacts⟩ := packetActs_calls id p
  rw [hacts, callsFree_access]
  exact callsFree_calls _

theorem recvActs_balanced (id : Nat) (c : SessionCtx) (chunk : List UInt8) :
    Balanced (recvActs rt protocols env id c chunk) := by
  unfold recvActs
  apply Balanced.access
  split
  · exact .nil
  · split
    · exact .flatMap _ fun p _ => packetActs_balanced id p
    · exact .nil

theorem recvActs_callsFree (id : Nat) (c : SessionCtx) (chunk : List UInt8) :
    CallsFree [] (recvActs rt protocols env id c chunk) := by
  unfold recvActs
  rw [callsFree_access]
  split
  · exact callsFree_nil
  · split
    · exact callsFree_flatMap _ (fun p _ => packetActs_balanced id p) fun p _ => packetActs_callsFree id p
    · exact callsFree_nil

theorem sessionCloseActs_balanced (k : Nat) : Balanced (s.sessionCloseActs k) := by
  unfold sessionCloseActs
  split
  · exact .nil
  · split
    · exact .nil
    · exact Balanced.nil.access _

theorem sessionCloseActs_quiet (k : Nat) : Quiet (s.sessionCloseActs k) := by
  unfold sessionCloseActs
  split
  · simp [Quiet]
  · split <;> simp [Quiet]

theorem sessionClosedActs_balanced (closeCb : Bool) (sid : Int) : Balanced (s.sessionClosedActs closeCb sid) := by
  apply Balanced.section
  split
  · exact .nil
  · apply Balanced.append
    · split
      · exact Balanced.nil.call _
      · exact .nil
    · split
      · exact .nil
      · exact (recycleActs_balanced _ _).append (Balanced.nil.access _)

theorem sessionClosedActs_cut {sid : Int} {k : Nat} (hlookup : s.sessions.lookup sid = some k) (closeCb : Bool) :
    ∃ rest : List ServerAct, Quiet rest ∧ s.sessionClosedActs closeCb sid =
      [.lock .sessions] ++ ((if closeCb then [.call (.tcpClose sid)] else []) ++ rest) := by
  refine ⟨_, ?_, by rw [sessionClosedActs, hlookup]; exact congrArg _ (List.append_assoc _ _ _)⟩
  have hunlock : Quiet [(.unlock .sessions : ServerAct)] := by simp [Quiet]
  refine Quiet.append ?_ hunlock
  split
  · simp [Quiet]
  · next o _ =>
    have haccess : Quiet [(.access o.ctx : ServerAct)] := by simp [Quiet]
    exact (recycleActs_quiet _ _).append haccess

theorem sessionClosedActs_callsFree_iff (closeCb : Bool) (sid : Int) :
    CallsFree [] (s.sessionClosedActs closeCb sid) ↔ ((s.sessions.lookup sid).isSome = true → closeCb = false) := by
  cases hlookup : s.sessions.lookup sid with
  | none =>
    unfold sessionClosedActs
    simp [hlookup]
  | some k =>
    obtain ⟨rest, hrest, hacts⟩ := sessionClosedActs_cut hlookup closeCb
    rw [hacts]
    cases closeCb with
    | true => simp
    | false => simp [hrest.callsFree]

theorem closeAllActs_balanced : Balanced s.closeAllActs := by
  unfold closeAllActs
  split
  · exact .nil
  · apply Balanced.append
    · exact (Balanced.flatMap _ fun entry _ => sessionCloseActs_balanced entry.2).section Mutex.sessions
    · apply Balanced.flatMap
      intro id _
      split
      · exact .nil
      · exact Balanced.nil.access id

theorem closeAllActs_quiet : Quiet s.closeAllActs := by
  unfold closeAllActs
  split
  · simp [Quiet]
  · have hlock : Quiet [(.lock .sessions : ServerAct)] := by simp [Quiet]
    have hunlock : Quiet [(.unlock .sessions : ServerAct)] := by simp [Quiet]
    have hclose := Quiet.flatMap s.sessions fun entry _ => s.sessionCloseActs_quiet entry.2
    have hwalk : Quiet s.walkActs := by
      apply Quiet.flatMap
      intro id _
      split <;> simp [Quiet]
    exact (hlock.append (hclose.append hunlock)).append hwalk

end TCPServer

namespace TracedServer
variable {σ π : Type} {env : Env} {rt : Runtime σ} {s : TracedServer π}

open TCPServer

/-- No session is closed while a `TcpCloseCB` is set. -/
def NoCloseNotice (s : TracedServer π) (e : TracedEvent π) : Prop := SessionCloses s e → s.closeCb = false

theorem sendActs_balanced (id : Nat) (data : List UInt8) (iret : Int) : Balanced (sendActs id data iret) := by
  have hparam : Balanced paramActs := Balanced.nil.section Mutex.params
  unfold sendActs
  split
  · exact Balanced.nil.access id
  · apply hparam.append
    apply Balanced.access
    split
    · exact hparam.append (Balanced.nil.access id)
    · exact .nil

theorem onSendActs_balanced (id : Nat) (status : Int) : Balanced (onSendActs id status) := by
  have hparam : Balanced paramActs := Balanced.nil.section Mutex.params
  apply Balanced.access
  apply hparam.append
  split
  · exact Balanced.nil.access id
  · exact .nil

theorem sendActs_quiet (id : Nat) (data : List UInt8) (iret : Int) : Quiet (sendActs id data iret) := by
  unfold sendActs paramActs
  split
  · simp [Quiet]
  · split <;> simp [Quiet]

theorem onSendActs_quiet (id : Nat) (status : Int) : Quiet (onSendActs id status) := by
  unfold onSendActs paramActs
  split <;> simp [Quiet]

theorem Does.balanced {e : TracedEvent π} {acts : List ServerAct} (h : Does env rt s e acts) : Balanced acts := by
  cases h with
  | nothing => exact .nil
  | connection => exact connectionActs_balanced _ _ _ _ _
  | recv => exact recvActs_balanced _ _ _
  | recvError =>
    apply Balanced.access
    split
    · exact .nil
    · exact sessionCloseActs_balanced _
  | closeAll => exact closeAllActs_balanced
  | started => exact closeAllActs_balanced
  | @closed id c cb =>
    cases cb with
    | sessionClose => exact (sessionClosedActs_balanced _ _).access id
    | recycleSessionCtx => exact (recycleActs_balanced _ _).access id
    | afterServerClose => exact .nil
  | stopped => exact Balanced.nil.call _
  | send => exact sendActs_balanced _ _ _
  | onSend => exact onSendActs_balanced _ _
  | setRecvCB => exact Balanced.nil.section Mutex.sessions

/-- **User code is called under no mutex**, but by `SessionClosed`. -/
theorem Does.callsFree_iff {e : TracedEvent π} {acts : List ServerAct} (h : Does env rt s e acts) :
    CallsFree [] acts ↔ NoCloseNotice s e := by
  have hother : CallsFree [] acts → ¬ SessionCloses s e → (CallsFree [] acts ↔ NoCloseNotice s e) :=
    fun hfree hno => ⟨fun _ hcloses => absurd hcloses hno, fun _ => hfree⟩
  cases h with
  | nothing hno => exact hother callsFree_nil hno
  | connection => exact hother (connectionActs_callsFree _ _ _ _ _) nofun
  | recv => exact hother (recvActs_callsFree _ _ _) nofun
  | recvError =>
    apply hother _ nofun
    rw [callsFree_access]
    split
    · exact callsFree_nil
    · exact (sessionCloseActs_quiet _).callsFree []
  | closeAll => exact hother (closeAllActs_quiet.callsFree []) nofun
  | started => exact hother (closeAllActs_quiet.callsFree []) nofun
  | @closed id c cb hw hc hh =>
    rw [NoCloseNotice, sessionCloses_iff hw hc hh]
    cases cb with
    | sessionClose => simp [onClosedActs, sessionClosedActs_callsFree_iff]
    | recycleSessionCtx =>
      have hquiet := (recycleActs_quiet s.server.ctxs id).callsFree []
      simp [onClosedActs, hquiet]
    | afterServerClose => simp [onClosedActs]
  | stopped => exact hother (by simp) nofun
  | send => exact hother ((sendActs_quiet _ _ _).callsFree []) nofun
  | onSend => exact hother ((onSendActs_quiet _ _).callsFree []) nofun
  | setRecvCB => exact hother (by simp [setRecvCBActs]) nofun

end TracedServer

open TracedServer StepRun

/-- **User code is called with all mutexes free**, in every run in which no registered session is
closed while a `TcpCloseCB` is set, and in no other. -/
theorem callbacks_hold_no_mutex {σ π : Type} (env : Env) (rt : Runtime σ) (head tail : UInt8) (es : List (TracedEvent π)) :
    Along (step env rt) NoCloseNotice (TracedServer.start head tail) es ↔
      ∀ pre post s, es = pre ++ post → run (step env rt) (TracedServer.start head tail) pre = .ok s →
        CallsFree [] s.trace := by
  have hstep : ∀ (s : TracedServer π) e s', s.server.Registry [] ∧ Balanced s.trace → True → CallsFree [] s.trace →
      step env rt s e = .ok s' → (s'.server.Registry [] ∧ Balanced s'.trace) ∧ (NoCloseNotice s e ↔ CallsFree [] s'.trace) := by
    intro s e s' h _ hfree hs
    have htrace := step_trace hs
    refine ⟨⟨step_registry h.1 hs, ?_⟩, ?_⟩
    · rw [htrace]
      exact h.2.append (stepActs_does e).balanced
    · rw [htrace, h.2.callsFree_append, (stepActs_does e).callsFree_iff]
      exact (and_iff_right hfree).symm
  have hfault : ∀ (s : TracedServer π) e f, s.server.Registry [] ∧ Balanced s.trace → True →
      step env rt s e = .error f → NoCloseNotice s e :=
    fun s e f h _ hs hcloses => absurd hcloses (not_sessionCloses_of_fault h.1 hs)
  exact along_iff hstep hfault ⟨TCPServer.start_registry head tail, .nil⟩ callsFree_nil fun _ _ => trivial

/-- A connection that fails, with a `TcpCloseCB` set. -/
def noticedClose : List (TracedEvent Unit) :=
  [.setCloseCB true, .loop (.onConnection 0 0 0 0), .loop (.recvError 0), .loop (.handleClosed 0)]

theorem noticedClose_acts : lastActs 7 (run (step zeroEnv ByteStream.runtime) (TracedServer.start 1 2) noticedClose) =
    [.access 0, .lock .sessions, .call (.tcpClose 1), .lock .ctxs, .unlock .ctxs, .access 0, .unlock .sessions] := by
  decide +kernel

/-- The callback runs under the mutex that `SetRecvCB` takes. -/
theorem callbacks_hold_no_mutex_fails :
    ∃ s before after, run (step zeroEnv ByteStream.runtime) (TracedServer.start 1 2) noticedClose = .ok s ∧
      s.trace = before ++ .call (.tcpClose 1) :: after ∧ Mutex.sessions ∈ heldAfter [] before ∧
      setRecvCBActs.head? = some (.lock .sessions) ∧ ¬ CallsFree [] s.trace := by
  obtain ⟨s, front, hrun, htrace⟩ := lastActs_ok noticedClose_acts
  have hcut : s.trace = (front ++ [.access 0, .lock .sessions]) ++ .call (.tcpClose 1) ::
      [.lock .ctxs, .unlock .ctxs, .access 0, .unlock .sessions] := by
    rw [htrace, List.append_assoc]
    rfl
  have hheld : Mutex.sessions ∈ heldAfter [] (front ++ [(.access 0 : ServerAct), .lock .sessions]) := by
    rw [heldAfter_append]
    exact List.mem_cons_self
  refine ⟨s, _, _, hrun, hcut, hheld, rfl, fun h => ?_⟩
  rw [h _ _ _ hcut] at hheld
  cases hheld

end Uvnet

import Uvnet.LockOrder
import Uvnet.ServerLocks

/- The threads of a server do not wait for each other for ever.

   Any number of threads are each in a list of operations: the callbacks of the loop thread,
   `_send`, `_broadcast` and `SetRecvCB`, each with the actions it has in some state of the
   server, and in the place of each call of user code what the user does there. The server
   takes `_mutex_ctxs` and `_mutex_params` under `_mutex_sessions` (`SessionClosed`,
   `_broadcast`), and takes nothing under these two (`does_climbs`).

   `TcpCloseCB` is called under `_mutex_sessions`. There user code may send, but must not call
   `SetRecvCB`, which would wait for its own thread. -/
namespace Uvnet
open ObjectPool ActionTrace LockOrder TCPServer TracedServer

/-- The order in which mutexes are taken. -/
def Mutex.rank : Mutex → Nat
  | .sessions => 0
  | .ctxs | .params => 1

/-- What user code does that takes a mutex. -/
inductive UserOp where
  | send (id : Nat) (data : List UInt8) (iret : Int)
  | setRecvCB (sid : Int)

def UserOp.isSend : UserOp → Bool
  | .send .. => true
  | .setRecvCB _ => false

def UserOp.acts : UserOp → List ServerAct
  | .send id data iret => sendActs id data iret
  | .setRecvCB _ => setRecvCBActs

/-- `_broadcast`, which sends to the connections of `sends`, with what `uv_write` returns for each. -/
def broadcastActs (data : List UInt8) (sends : List (Nat × Int)) : List ServerAct :=
  if data.isEmpty then []
  else .lock .sessions :: ((sends.flatMap fun p => sendActs p.1 data p.2) ++ [.unlock .sessions])

/-- An operation of a thread, in a state of the server. User code does what `user` has for the
number and the arguments of its call. -/
inductive ServerOp (π : Type) where
  | step (s : TracedServer π) (e : TracedEvent π) (user : Nat → ServerCall → List UserOp)
  | broadcast (data : List UInt8) (sends : List (Nat × Int))

/-- User code does not call `SetRecvCB` in `TcpCloseCB`. -/
def ServerOp.Permitted {π : Type} : ServerOp π → Prop
  | .step _ _ user => ∀ n sid, ∀ op ∈ user n (.tcpClose sid), op.isSend = true
  | .broadcast .. => True

section Order
variable {σ π : Type} {env : Env} {rt : Runtime σ} {held : List Mutex}

/-- What user code does in its calls. -/
def userActs (user : Nat → ServerCall → List UserOp) (n : Nat) (c : ServerCall) : List ServerAct :=
  (user n c).flatMap UserOp.acts

def ServerOp.acts (env : Env) (rt : Runtime σ) : ServerOp π → List ServerAct
  | .step s e user => expand (userActs user) 0 (s.stepActs env rt e)
  | .broadcast data sends => broadcastActs data sends

/-- The threads before they begin. -/
def threadsOf (env : Env) (rt : Runtime σ) (programs : List (List (ServerOp π))) : Threads Mutex ServerCall :=
  (programs.map fun ops => ops.flatMap (ServerOp.acts env rt)).map fun acts => ⟨[], acts⟩

/-! Under `_mutex_sessions` at most, `_mutex_ctxs` and `_mutex_params` may be taken. -/

theorem low_rank {m : Mutex} (hlow : ∀ m ∈ held, m = .sessions) (hm : m.rank = 1) : ∀ m' ∈ held, m'.rank < m.rank := by
  intro m' hm'
  rw [hlow m' hm', hm]
  exact Nat.zero_lt_one

theorem recycleActs_climbs (hlow : ∀ m ∈ held, m = Mutex.sessions) (p : Pool SessionCtx) (id : Nat) :
    Climbs Mutex.rank held (recycleActs p id) := by
  apply Climbs.section
  · split
    · exact (Balanced.nil.release id).access id
    · exact .nil
  · exact low_rank hlow rfl
  · split <;> simp

theorem paramActs_climbs (hlow : ∀ m ∈ held, m = Mutex.sessions) : Climbs Mutex.rank held paramActs :=
  Climbs.section .nil (low_rank hlow rfl) climbs_nil

theorem paramActs_balanced : Balanced paramActs := Balanced.nil.section Mutex.params

theorem sendActs_climbs (hlow : ∀ m ∈ held, m = Mutex.sessions) (id : Nat) (data : List UInt8) (iret : Int) :
    Climbs Mutex.rank held (sendActs id data iret) := by
  unfold sendActs
  split
  · simp
  · refine (Balanced.climbs_append paramActs_balanced).2 ⟨paramActs_climbs hlow, ?_⟩
    rw [climbs_access]
    split
    · exact (Balanced.climbs_append paramActs_balanced).2 ⟨paramActs_climbs hlow, by simp⟩
    · exact climbs_nil

theorem onSendActs_climbs (hlow : ∀ m ∈ held, m = Mutex.sessions) (id : Nat) (status : Int) :
    Climbs Mutex.rank held (onSendActs id status) := by
  refine climbs_access.2 ((Balanced.climbs_append paramActs_balanced).2 ⟨paramActs_climbs hlow, ?_⟩)
  split <;> simp

theorem setRecvCBActs_climbs : Climbs Mutex.rank [] setRecvCBActs := Climbs.section .nil (by simp) climbs_nil

theorem setRecvCBActs_balanced : Balanced setRecvCBActs := Balanced.nil.section Mutex.sessions

theorem UserOp.acts_balanced (op : UserOp) : Balanced op.acts := by
  cases op with
  | send id data iret => exact sendActs_balanced id data iret
  | setRecvCB sid => exact setRecvCBActs_balanced

theorem userActs_balanced (user : Nat → ServerCall → List UserOp) (n : Nat) (c : ServerCall) : Balanced (userActs user n c) :=
  Balanced.flatMap _ fun op _ => op.acts_balanced

theorem broadcastActs_balanced (data : List UInt8) (sends : List (Nat × Int)) : Balanced (broadcastActs data sends) := by
  unfold broadcastActs
  split
  · exact .nil
  · exact (Balanced.flatMap _ fun p _ => sendActs_balanced p.1 data p.2).section Mutex.sessions

theorem broadcastActs_climbs (data : List UInt8) (sends : List (Nat × Int)) : Climbs Mutex.rank [] (broadcastActs data sends) := by
  unfold broadcastActs
  split
  · exact climbs_nil
  · apply Climbs.section (Balanced.flatMap _ fun p _ => sendActs_balanced p.1 data p.2) (by simp)
    apply climbs_flatMap _ fun p _ => sendActs_balanced p.1 data p.2
    exact fun p _ => sendActs_climbs (by simp) p.1 data p.2

/-! The callbacks of the loop thread. -/

theorem sessionCloseActs_climbs (s : TCPServer) (k : Nat) : Climbs Mutex.rank held (s.sessionCloseActs k) := by
  unfold sessionCloseActs
  split
  · exact climbs_nil
  · split <;> simp

theorem fetchActs_climbs (s : TCPServer) : Climbs Mutex.rank [] (s.fetchActs env) :=
  Climbs.section (Balanced.nil.access (s.ctxs.fetch (.alloc env)).2) (by simp) (by simp)

theorem connectionActs_climbs (s : TCPServer) (newConnCb : Bool) (status tcpInit accept readStart : Int) :
    Climbs Mutex.rank [] (s.connectionActs env newConnCb status tcpInit accept readStart) := by
  unfold connectionActs
  split
  · exact climbs_nil
  refine (Balanced.climbs_append (fetchActs_balanced env s)).2 ⟨fetchActs_climbs s, ?_⟩
  rw [climbs_access]
  split
  · exact recycleActs_climbs (by simp) _ _
  rw [climbs_access]
  split
  · exact recycleActs_climbs (by simp) _ _
  rw [climbs_access]
  split
  · simp
  · cases newConnCb <;> simp

theorem recvActs_climbs (s : TracedServer π) (id : Nat) (c : SessionCtx) (chunk : List UInt8) :
    Climbs Mutex.rank [] (recvActs rt s.protocols env id c chunk) := by
  have hcalls : ∀ calls : List ServerCall, Climbs Mutex.rank [] (calls.map (Act.call : ServerCall → ServerAct)) := by
    intro calls
    induction calls with
    | nil => exact climbs_nil
    | cons c calls ih => exact ih
  unfold recvActs
  rw [climbs_access]
  split
  · exact climbs_nil
  · split
    · apply climbs_flatMap _ fun p _ => packetActs_balanced id p
      intro p _
      obtain ⟨protoIds, hacts⟩ := packetActs_calls id p
      rw [hacts, climbs_access]
      exact hcalls _
    · exact climbs_nil

/-- The context of a session that is closed goes back to the pool, under `_mutex_sessions`. -/
theorem recycled_climbs (s : TCPServer) (k : Nat) :
    Climbs Mutex.rank [.sessions] (match s.objs[k]? with
      | none => []
      | some o => recycleActs s.ctxs o.ctx ++ [.access o.ctx]) := by
  split
  · exact climbs_nil
  · exact (Balanced.climbs_append (recycleActs_balanced _ _)).2 ⟨recycleActs_climbs (by simp) _ _, by simp⟩

theorem sessionClosedActs_climbs (s : TCPServer) (closeCb : Bool) (sid : Int) :
    Climbs Mutex.rank [] (s.sessionClosedActs closeCb sid) := by
  apply Climbs.section
  · split
    · exact .nil
    · apply Balanced.append
      · split
        · exact Balanced.nil.call _
        · exact .nil
      · split
        · exact .nil
        · exact (recycleActs_balanced _ _).append (Balanced.nil.access _)
  · simp
  · split
    · exact climbs_nil
    · cases closeCb with
      | true => exact climbs_call.2 (recycled_climbs s _)
      | false => exact recycled_climbs s _

theorem closeAllActs_climbs (s : TCPServer) : Climbs Mutex.rank [] s.closeAllActs := by
  have hclose : Balanced (s.sessions.flatMap fun entry => s.sessionCloseActs entry.2) :=
    Balanced.flatMap _ fun entry _ => sessionCloseActs_balanced entry.2
  unfold closeAllActs
  split
  · exact climbs_nil
  · refine (Balanced.climbs_append (hclose.section Mutex.sessions)).2 ⟨Climbs.section hclose (by simp) ?_, ?_⟩
    · exact climbs_flatMap _ (fun entry _ => sessionCloseActs_balanced entry.2) fun entry _ => sessionCloseActs_climbs s entry.2
    · apply climbs_flatMap
      · intro id _
        split
        · exact .nil
        · exact Balanced.nil.access id
      · intro id _
        split <;> simp

/-- **Every operation** takes the mutexes in their order. -/
theorem does_climbs {s : TracedServer π} {e : TracedEvent π} {acts : List ServerAct} (h : Does env rt s e acts) :
    Climbs Mutex.rank [] acts := by
  cases h with
  | nothing => exact climbs_nil
  | connection => exact connectionActs_climbs _ _ _ _ _ _
  | recv => exact recvActs_climbs _ _ _ _
  | recvError =>
    rw [climbs_access]
    split
    · exact climbs_nil
    · exact sessionCloseActs_climbs _ _
  | closeAll => exact closeAllActs_climbs _
  | started => exact closeAllActs_climbs _
  | @closed id c cb =>
    cases cb with
    | sessionClose => exact climbs_access.2 (sessionClosedActs_climbs _ _ _)
    | recycleSessionCtx => exact climbs_access.2 (recycleActs_climbs (by simp) _ _)
    | afterServerClose => exact climbs_nil
  | stopped => simp
  | send => exact sendActs_climbs (by simp) _ _ _
  | onSend => exact onSendActs_climbs (by simp) _ _
  | setRecvCB => exact setRecvCBActs_climbs

/-- User code is called under no mutex, or in `TcpCloseCB` under `_mutex_sessions`. -/
def CalledLow (p : ServerCall × List Mutex) : Prop := p.2 = [] ∨ p.2 = [.sessions] ∧ ∃ sid, p.1 = .tcpClose sid

theorem does_calledLow {s : TracedServer π} {e : TracedEvent π} {acts : List ServerAct} (h : Does env rt s e acts) :
    ∀ p ∈ callsUnder [] acts, CalledLow p := by
  by_cases hno : NoCloseNotice s e
  · exact fun p hp => .inl ((h.callsFree_iff.2 hno).under p hp)
  · obtain ⟨hcloses, hcb⟩ := Classical.not_imp.1 hno
    replace hcb : s.closeCb = true := by simpa using hcb
    cases h with
    | nothing hno => exact (hno hcloses).elim
    | @closed id c cb hw hc hh =>
      obtain ⟨rfl, hlookup⟩ := (sessionCloses_iff hw hc hh).1 hcloses
      obtain ⟨k, hk⟩ := Option.isSome_iff_exists.1 hlookup
      obtain ⟨rest, hrest, hacts⟩ := sessionClosedActs_cut hk true
      have hlast : callsUnder [Mutex.sessions] rest = [] := hrest.callsUnder [Mutex.sessions]
      intro p hp
      rw [hcb] at hp
      replace hp : p ∈ callsUnder [] (s.server.sessionClosedActs true c.sid) := hp
      rw [hacts, if_pos rfl] at hp
      replace hp : p ∈ callsUnder [] (.lock .sessions :: .call (.tcpClose c.sid) :: rest) := hp
      rw [callsUnder, callsUnder, hlast] at hp
      rw [List.mem_singleton.1 hp]
      exact .inr ⟨rfl, c.sid, rfl⟩
    | _ => cases hcloses

theorem userActs_climbs {user : Nat → ServerCall → List UserOp} {n : Nat}
    (huser : ∀ sid, ∀ op ∈ user n (.tcpClose sid), op.isSend = true)
    {p : ServerCall × List Mutex} (hp : CalledLow p) : Climbs Mutex.rank p.2 (userActs user n p.1) := by
  obtain ⟨c, held⟩ := p
  apply climbs_flatMap _ fun op _ => op.acts_balanced
  intro op hop
  obtain rfl | ⟨rfl, sid, rfl⟩ := hp
  · cases op with
    | send id data iret => exact sendActs_climbs (by simp) id data iret
    | setRecvCB sid => exact setRecvCBActs_climbs
  · cases op with
    | send id data iret => exact sendActs_climbs (by simp) id data iret
    | setRecvCB sid => cases huser _ _ hop

theorem ServerOp.acts_ordered {op : ServerOp π} (hop : op.Permitted) :
    Climbs Mutex.rank [] (op.acts env rt) ∧ Balanced (op.acts env rt) := by
  cases op with
  | step s e user =>
    have hdoes : Does env rt s e (s.stepActs env rt e) := stepActs_does e
    have hbody := userActs_balanced user
    refine ⟨(does_climbs hdoes).expand hbody (fun p hp n => ?_) 0, LockOrder.Balanced.expand hbody hdoes.balanced 0⟩
    exact userActs_climbs (hop n) (does_calledLow hdoes p hp)
  | broadcast data sends => exact ⟨broadcastActs_climbs data sends, broadcastActs_balanced data sends⟩

theorem threadsOf_ordered (env : Env) (rt : Runtime σ) {programs : List (List (ServerOp π))}
    (hprograms : ∀ ops ∈ programs, ∀ op ∈ ops, op.Permitted) : Ordered Mutex.rank (threadsOf env rt programs) := by
  have heach : ∀ acts ∈ programs.map fun ops => ops.flatMap (ServerOp.acts env rt), Climbs Mutex.rank [] acts ∧ Balanced acts := by
    intro acts hacts
    obtain ⟨ops, hops, rfl⟩ := List.mem_map.1 hacts
    have hop : ∀ op ∈ ops, Climbs Mutex.rank [] (op.acts env rt) ∧ Balanced (op.acts env rt) :=
      fun op h => ServerOp.acts_ordered (hprograms ops hops op h)
    exact ⟨climbs_flatMap _ (fun op h => (hop op h).2) fun op h => (hop op h).1, Balanced.flatMap _ fun op h => (hop op h).2⟩
  exact Ordered.of_programs (fun acts hacts => (heach acts hacts).1) fun acts hacts => (heach acts hacts).2

end Order

open StepRun

/-! **No deadlock**: whatever threads are in whatever operations, and however they are interleaved, no
mutex is held by two threads or given back by one that does not hold it, and some thread goes on as
long as one is not at its end; so from every state all can come to their ends. User code may do
anything in its calls but call `SetRecvCB` in `TcpCloseCB`. -/

theorem server_never_deadlocks {σ π : Type} (env : Env) (rt : Runtime σ) (programs : List (List (ServerOp π)))
    (hprograms : ∀ ops ∈ programs, ∀ op ∈ ops, op.Permitted) (is : List Nat) :
    ∃ threads, run LockOrder.step (threadsOf env rt programs) is = .ok threads ∧
      (∀ (i j : Nat) (t u : Thread Mutex ServerCall), threads[i]? = some t → threads[j]? = some u → i ≠ j → ∀ m ∈ t.held, m ∉ u.held) ∧
      ((∃ t ∈ threads, t.rest ≠ []) → ∃ i threads', LockOrder.step threads i = .ok threads' ∧ left threads' < left threads) ∧
      ∃ js ends, run LockOrder.step threads js = .ok ends ∧ ∀ t ∈ ends, t.rest = [] ∧ t.held = [] := by
  obtain ⟨threads, hrun, hordered⟩ := (threadsOf_ordered env rt hprograms).run is
  refine ⟨threads, hrun, hordered.exclusive, fun hsome => ?_, hordered.finish⟩
  obtain ⟨i, threads', hs, -, hless⟩ := hordered.progress hsome
  exact ⟨i, threads', hs, hless⟩

/-- Two connections come in: at the first the user's callback sends to it, at the second it calls
`SetRecvCB`. Another thread sends to all, and a third calls `SetRecvCB`. -/
def busyThreads : List (List (ServerOp Unit)) :=
  let up : TracedServer Unit := { TracedServer.start 1 2 with newConnCb := true }
  [[.step up (.loop (.onConnection 0 0 0 0)) fun _ _ => [.send 0 [5] 0],
    .step up (.loop (.onConnection 0 0 0 0)) fun
      | _, .newConnect sid => [.setRecvCB sid]
      | _, _ => []],
   [.broadcast [7] [(0, 0), (1, -1)]],
   [.step up (.setRecvCB 1) fun _ _ => []]]

theorem server_never_deadlocks_two : ∃ threads,
    run LockOrder.step (threadsOf zeroEnv ByteStream.runtime busyThreads) [0, 1, 2, 0, 1, 0, 0, 1] = .ok threads ∧
    (∀ (i j : Nat) (t u : Thread Mutex ServerCall), threads[i]? = some t → threads[j]? = some u → i ≠ j → ∀ m ∈ t.held, m ∉ u.held) ∧
    ((∃ t ∈ threads, t.rest ≠ []) → ∃ i threads', LockOrder.step threads i = .ok threads' ∧ left threads' < left threads) ∧
    ∃ js ends, run LockOrder.step threads js = .ok ends ∧ ∀ t ∈ ends, t.rest = [] ∧ t.held = [] :=
  server_never_deadlocks zeroEnv ByteStream.runtime busyThreads
    (by simp [busyThreads, ServerOp.Permitted, UserOp.isSend]) [0, 1, 2, 0, 1, 0, 0, 1]

end Uvnet

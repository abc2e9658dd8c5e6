import Uvnet.ActionTrace
import Uvnet.Dispatch
import Uvnet.ServerRegistry

/- What the threads of a `TCPServer` do: the mutexes they take, the user code they call, and the
   `SessionCtx`s they access and release.

   The actions of a function stand in its order. Those of the loop thread are worked out from
   the state its callback starts in, beside the step of `TCPServer` for this callback
   (`loopActs`); with `_send` and `OnSend` come the writes in flight, all of whose callbacks
   libuv runs before the close callback of their handle. What user code does when it is called
   is events of its own. `_send` is called for the connections of registered sessions, whose
   contexts a handler is given.

   Accessing a context is reading or writing a field of it.

   `Does` says once what is done in a step, and when; what the traces of all runs have in
   common is read off its cases. -/
namespace Uvnet
open CMachine ObjectPool ActionTrace

/-- A call of user code: `NewConnectCB`, `TcpCloseCB` or `Protocol::Process`. -/
inductive ServerCall where
  | newConnect (sid : Int)
  | tcpClose (sid : Int)
  | process (protoId : BitVec 32)
  deriving DecidableEq

abbrev ServerAct := Act Mutex ServerCall

/-- A server with its callbacks and protocols, the contexts of the writes in flight, and what
has been done so far. -/
structure TracedServer (π : Type) where
  server : TCPServer
  protocols : Protocols π
  newConnCb : Bool
  closeCb : Bool
  writes : List Nat
  trace : List ServerAct

inductive TracedEvent (π : Type) where
  | loop (e : ServerEvent)
  /-- `_send` for the connection of `id`, with what `uv_write` returns in it. -/
  | send (id : Nat) (data : List UInt8) (iret : Int)
  /-- `OnSend` for the `k`th write in flight. -/
  | onSend (k : Nat) (status : Int)
  | setNewConnectCB (cb : Bool)
  | setCloseCB (cb : Bool)
  | setRecvCB (sid : Int)
  | addProtocol (protoId : Int) (proto : Option π)
  | removeProtocol (protocolId : Int)

namespace TCPServer

/-- `_fetch_one_ctx`. -/
def fetchActs (env : Env) (s : TCPServer) : List ServerAct :=
  [.lock .ctxs, .access (s.ctxs.fetch (.alloc env)).2, .unlock .ctxs]

/-- `_recycle_one_ctx`, with `SessionCtx::Release`. -/
def recycleActs (p : Pool SessionCtx) (id : Nat) : List ServerAct :=
  .lock .ctxs :: ((if maxListSize < p.avail.length then [.access id, .release id] else []) ++ [.unlock .ctxs])

/-- `OnConnection`, which the server's handle is open for. -/
def connectionActs (env : Env) (s : TCPServer) (newConnCb : Bool) (status tcpInit accept readStart : Int) : List ServerAct :=
  if status ≠ 0 then []
  else
    let (p, id) := s.ctxs.fetch (.alloc env)
    s.fetchActs env ++ .access id ::
      if tcpInit ≠ 0 then recycleActs p id
      else .access id ::
        if accept ≠ 0 then recycleActs p id
        else .access id ::
          if readStart ≠ 0 then [.access id]
          else [.access id, .lock .sessions, .unlock .sessions] ++
            (if newConnCb then [.call (.newConnect (s.sId + 1))] else []) ++ [.access id]

section Protocols
variable {σ π : Type} (rt : Runtime σ) (e : Endian) (protocols : Protocols π)

/-- `GetPacket` for the connection of `id`. -/
def packetActs (id : Nat) (p : FullPacket) : List ServerAct :=
  .access id ::
    match dispatch rt e protocols p with
    | .ok calls => calls.map fun c => .call (.process c.protoId)
    | .error _ => []

/-- `AllocBufferForRecv`, and `OnRecv` without an error. -/
def recvActs (env : Env) (id : Nat) (c : SessionCtx) (chunk : List UInt8) : List ServerAct :=
  .access id ::
    if chunk.isEmpty then []
    else match recvdata env c.packet chunk with
      | .ok r => r.calls.flatMap (packetActs rt env.endian protocols id)
      | .error _ => []

end Protocols

/-- `Session::Close`. -/
def sessionCloseActs (s : TCPServer) (k : Nat) : List ServerAct :=
  match s.objs[k]? with
  | none => []
  | some o => if o.isClosed then [] else [.access o.ctx]

/-- `SessionClosed`. The session is closed by then, and its destructor does nothing. -/
def sessionClosedActs (s : TCPServer) (closeCb : Bool) (sid : Int) : List ServerAct :=
  .lock .sessions ::
    ((match s.sessions.lookup sid with
      | none => []
      | some k =>
        (if closeCb then [.call (.tcpClose sid)] else []) ++
          match s.objs[k]? with
          | none => []
          | some o => recycleActs s.ctxs o.ctx ++ [.access o.ctx]) ++ [.unlock .sessions])

/-- The close callback of a connection's handle. -/
def onClosedActs (s : TCPServer) (closeCb : Bool) (id : Nat) (c : SessionCtx) : CloseCb → List ServerAct
  | .afterServerClose => []
  | .recycleSessionCtx => .access id :: recycleActs s.ctxs id
  | .sessionClose => .access id :: s.sessionClosedActs closeCb c.sid

/-- `CloseWalkCB` on the handles in the loop. -/
def walkActs (s : TCPServer) : List ServerAct :=
  (List.range s.ctxs.cells.length).flatMap fun id =>
    if (s.ctxs.cells[id]?).map SessionCtx.tcpHandle = some .raw then [] else [.access id]

/-- `_close`. -/
def closeAllActs (s : TCPServer) : List ServerAct :=
  if s.isClosed then []
  else .lock .sessions :: (s.sessions.flatMap (fun entry => s.sessionCloseActs entry.2) ++ [.unlock .sessions]) ++ s.walkActs

end TCPServer

namespace TracedServer
variable {σ π : Type}

/-- A server that `Start` has brought up. -/
def start (packHead packTail : UInt8) : TracedServer π where
  server := .start packHead packTail
  protocols := .empty
  newConnCb := false
  closeCb := false
  writes := []
  trace := []

/-- What is done in a callback of the loop thread, and in `Start`. -/
def loopActs (env : Env) (rt : Runtime σ) (s : TracedServer π) : ServerEvent → List ServerAct
  | .onConnection status tcpInit accept readStart =>
    if s.server.tcpHandle = .opened false then
      s.server.connectionActs env s.newConnCb status tcpInit accept readStart
    else []
  | .recv id chunk =>
    match s.server.ctxs.cells[id]? with
    | none => []
    | some c =>
      if c.tcpHandle = .opened true ∧ chunk.length ≤ bufferSize then
        TCPServer.recvActs rt s.protocols env id c chunk
      else []
  | .recvError id =>
    match s.server.ctxs.cells[id]? with
    | none => []
    | some c =>
      if c.tcpHandle = .opened true then
        .access id :: match c.parentSession with
          | none => []
          | some k => s.server.sessionCloseActs k
      else []
  | .asyncClose =>
    if s.server.asyncPending = true ∧ s.server.asyncCloseHandle = .opened false ∧ s.server.isUserClosed = true then
      s.server.closeAllActs
    else []
  | .handleClosed id =>
    match s.server.ctxs.cells[id]? with
    | none => []
    | some c =>
      match c.tcpHandle with
      | .closing cb => s.server.onClosedActs s.closeCb id c cb
      | _ => []
  | .stop =>
    if s.server.isClosed = false ∧ s.server.tcpHandle = .raw ∧ s.server.asyncCloseHandle = .raw ∧
        ∀ c ∈ s.server.ctxs.cells, c.tcpHandle = .raw then
      if s.closeCb then [.call (.tcpClose (-1))] else []
    else []
  | .start => s.server.closeAllActs
  | .close => []
  | .serverClosed => []

/-- The close callback of a handle that writes are in flight for has to wait. -/
def waits (s : TracedServer π) : ServerEvent → Bool
  | .handleClosed id => decide (id ∈ s.writes)
  | _ => false

/-- `_fetch_one_param` and `_recycle_one_param`. -/
def paramActs : List ServerAct := [.lock .params, .unlock .params]

/-- `_send`. -/
def sendActs (id : Nat) (data : List UInt8) (iret : Int) : List ServerAct :=
  if data.isEmpty then [.access id]
  else paramActs ++ .access id :: if iret ≠ 0 then paramActs ++ [.access id] else []

/-- `OnSend`. -/
def onSendActs (id : Nat) (status : Int) : List ServerAct :=
  .access id :: (paramActs ++ if status < 0 then [.access id] else [])

/-- `SetRecvCB`. -/
def setRecvCBActs : List ServerAct := [.lock .sessions, .unlock .sessions]

def step (env : Env) (rt : Runtime σ) (s : TracedServer π) : TracedEvent π → C (TracedServer π)
  | .loop e =>
    if s.waits e then return s
    else do
      let server ← s.server.step env e
      return { s with server := server, trace := s.trace ++ s.loopActs env rt e }
  | .send id data iret =>
    if id ∈ s.server.owners then
      return { s with
        writes := if data.isEmpty ∨ iret ≠ 0 then s.writes else s.writes ++ [id]
        trace := s.trace ++ sendActs id data iret }
    else return s
  | .onSend k status =>
    match s.writes[k]? with
    | none => return s
    | some id => return { s with writes := s.writes.eraseIdx k, trace := s.trace ++ onSendActs id status }
  | .setNewConnectCB cb => return { s with newConnCb := cb }
  | .setCloseCB cb => return { s with closeCb := cb }
  | .setRecvCB _ => return { s with trace := s.trace ++ setRecvCBActs }
  | .addProtocol protoId proto => return { s with protocols := s.protocols.addProtocol protoId proto }
  | .removeProtocol protocolId => return { s with protocols := s.protocols.removeProtocol protocolId }

end TracedServer

namespace TCPServer

theorem packetActs_calls {σ π : Type} {rt : Runtime σ} {e : Endian} {protocols : Protocols π} (id : Nat)
    (p : FullPacket) : ∃ protoIds : List (BitVec 32),
    packetActs rt e protocols id p = .access id :: (protoIds.map ServerCall.process).map Act.call := by
  unfold packetActs
  split
  · next calls _ =>
    refine ⟨calls.map ProcessCall.protoId, ?_⟩
    rw [List.map_map, List.map_map]
    rfl
  · exact ⟨[], rfl⟩

end TCPServer

namespace TracedServer
variable {σ π : Type} {env : Env} {rt : Runtime σ} {s s' : TracedServer π}

open TCPServer

/-- `SessionClosed` runs for a registered session. -/
def SessionCloses (s : TracedServer π) : TracedEvent π → Prop
  | .loop (.handleClosed id) => id ∉ s.writes ∧ ∃ c, s.server.ctxs.cells[id]? = some c ∧
      c.tcpHandle = .closing .sessionClose ∧ (s.server.sessions.lookup c.sid).isSome = true
  | _ => False

theorem SessionCloses.handle {e : TracedEvent π} (h : SessionCloses s e) :
    ∃ id, e = .loop (.handleClosed id) ∧ s.waits (.handleClosed id) = false := by
  cases e with
  | loop e =>
    cases e with
    | handleClosed id => exact ⟨id, rfl, by simpa [waits] using h.1⟩
    | _ => cases h
  | _ => cases h

/-! What is done in a step. -/

def stepActs (env : Env) (rt : Runtime σ) (s : TracedServer π) : TracedEvent π → List ServerAct
  | .loop e => if s.waits e then [] else s.loopActs env rt e
  | .send id data iret => if id ∈ s.server.owners then sendActs id data iret else []
  | .onSend k status =>
    match s.writes[k]? with
    | none => []
    | some id => onSendActs id status
  | .setRecvCB _ => setRecvCBActs
  | .setNewConnectCB _ => []
  | .setCloseCB _ => []
  | .addProtocol _ _ => []
  | .removeProtocol _ => []

theorem sessionCloses_iff {id : Nat} {c : SessionCtx} {cb : CloseCb} (hw : id ∉ s.writes) (hc : s.server.ctxs.cells[id]? = some c)
    (hh : c.tcpHandle = .closing cb) :
    SessionCloses s (.loop (.handleClosed id)) ↔ cb = .sessionClose ∧ (s.server.sessions.lookup c.sid).isSome = true := by
  constructor
  · intro hcloses
    obtain ⟨-, d, hd, hcb, hlookup⟩ := hcloses
    obtain rfl := Option.some.inj (hc.symm.trans hd)
    exact ⟨HandleState.closing.inj (hh.symm.trans hcb), hlookup⟩
  · intro hcb
    obtain ⟨rfl, hlookup⟩ := hcb
    exact ⟨hw, c, hc, hh, hlookup⟩

/-- **What is done in a step**, and when. -/
inductive Does (env : Env) (rt : Runtime σ) (s : TracedServer π) : TracedEvent π → List ServerAct → Prop
  | nothing {e : TracedEvent π} (hno : ¬ SessionCloses s e) : Does env rt s e []
  | connection {status tcpInit accept readStart : Int} : Does env rt s (.loop (.onConnection status tcpInit accept readStart))
      (s.server.connectionActs env s.newConnCb status tcpInit accept readStart)
  | recv {id : Nat} {c : SessionCtx} {chunk : List UInt8} (hc : s.server.ctxs.cells[id]? = some c)
      (hh : c.tcpHandle = .opened true) : Does env rt s (.loop (.recv id chunk)) (recvActs rt s.protocols env id c chunk)
  | recvError {id : Nat} {c : SessionCtx} (hc : s.server.ctxs.cells[id]? = some c) (hh : c.tcpHandle = .opened true) :
      Does env rt s (.loop (.recvError id)) (.access id :: match c.parentSession with
        | none => []
        | some k => s.server.sessionCloseActs k)
  | closeAll : Does env rt s (.loop .asyncClose) s.server.closeAllActs
  | started : Does env rt s (.loop .start) s.server.closeAllActs
  | closed {id : Nat} {c : SessionCtx} {cb : CloseCb} (hw : id ∉ s.writes) (hc : s.server.ctxs.cells[id]? = some c)
      (hh : c.tcpHandle = .closing cb) : Does env rt s (.loop (.handleClosed id)) (s.server.onClosedActs s.closeCb id c cb)
  | stopped : Does env rt s (.loop .stop) [.call (.tcpClose (-1))]
  | send {id : Nat} {data : List UInt8} {iret : Int} (hid : id ∈ s.server.owners) :
      Does env rt s (.send id data iret) (sendActs id data iret)
  | onSend {k id : Nat} {status : Int} (hid : s.writes[k]? = some id) : Does env rt s (.onSend k status) (onSendActs id status)
  | setRecvCB {sid : Int} : Does env rt s (.setRecvCB sid) setRecvCBActs

theorem loopActs_does {e : ServerEvent} (hw : s.waits e = false) : Does env rt s (.loop e) (s.loopActs env rt e) := by
  cases e with
  | onConnection status tcpInit accept readStart =>
    rw [loopActs]
    split
    · exact .connection
    · exact .nothing nofun
  | recv id chunk =>
    rw [loopActs]
    split
    · exact .nothing nofun
    · next c hc =>
      split
      · next hopen => exact .recv hc hopen.1
      · exact .nothing nofun
  | recvError id =>
    rw [loopActs]
    split
    · exact .nothing nofun
    · next c hc =>
      split
      · next hopen => exact .recvError hc hopen
      · exact .nothing nofun
  | asyncClose =>
    rw [loopActs]
    split
    · exact .closeAll
    · exact .nothing nofun
  | handleClosed id =>
    have hno : id ∉ s.writes := by simpa [waits] using hw
    rw [loopActs]
    split
    · next hnone =>
      apply Does.nothing
      intro hcloses
      obtain ⟨-, c, hc, -⟩ := hcloses
      rw [hnone] at hc
      cases hc
    · next c hc =>
      split
      · next cb hh => exact .closed hno hc hh
      · next hopen =>
        apply Does.nothing
        intro hcloses
        obtain ⟨-, d, hd, hh, -⟩ := hcloses
        obtain rfl := Option.some.inj (hc.symm.trans hd)
        exact hopen _ hh
  | stop =>
    rw [loopActs]
    split
    · split
      · exact .stopped
      · exact .nothing nofun
    · exact .nothing nofun
  | start => exact .started
  | close => exact .nothing nofun
  | serverClosed => exact .nothing nofun

theorem handleClosed_idle {id : Nat} (hno : ¬ ∃ c cb, s.server.ctxs.cells[id]? = some c ∧ c.tcpHandle = .closing cb) :
    s.server.step env (.handleClosed id) = .ok s.server ∧ s.loopActs env rt (.handleClosed id) = [] := by
  rw [loopActs, TCPServer.step]
  cases hc : s.server.ctxs.cells[id]? with
  | none => exact ⟨rfl, rfl⟩
  | some c =>
    cases hh : c.tcpHandle with
    | raw => simp [hh]
    | opened b => simp [hh]
    | closing cb => exact absurd ⟨c, cb, hc, hh⟩ hno

theorem loopActs_closing {id : Nat} {c : SessionCtx} {cb : CloseCb} (hc : s.server.ctxs.cells[id]? = some c)
    (hh : c.tcpHandle = .closing cb) : s.loopActs env rt (.handleClosed id) = s.server.onClosedActs s.closeCb id c cb := by
  rw [loopActs, hc]
  simp [hh]

theorem stepActs_does (e : TracedEvent π) : Does env rt s e (s.stepActs env rt e) := by
  cases e with
  | loop e =>
    rw [stepActs]
    cases hw : s.waits e with
    | false => exact loopActs_does hw
    | true =>
      apply Does.nothing
      intro hcloses
      obtain ⟨id, he, hno⟩ := hcloses.handle
      obtain rfl := TracedEvent.loop.inj he
      rw [hw] at hno
      cases hno
  | send id data iret =>
    rw [stepActs]
    split
    · next hid => exact .send hid
    · exact .nothing nofun
  | onSend k status =>
    rw [stepActs]
    split
    · exact .nothing nofun
    · next id hid => exact .onSend hid
  | setRecvCB sid => exact .setRecvCB
  | setNewConnectCB cb => exact .nothing nofun
  | setCloseCB cb => exact .nothing nofun
  | addProtocol protoId proto => exact .nothing nofun
  | removeProtocol protocolId => exact .nothing nofun

/-! Steps and runs. -/

theorem step_trace {e : TracedEvent π} (hs : step env rt s e = .ok s') : s'.trace = s.trace ++ s.stepActs env rt e := by
  cases e with
  | loop e =>
    rw [step] at hs
    rw [stepActs]
    split at hs
    · next hw =>
      rw [if_pos hw, List.append_nil, ← Except.ok.inj hs]
    · next hw =>
      obtain ⟨server, -, hs⟩ := bind_eq_ok.1 hs
      rw [if_neg hw, ← Except.ok.inj hs]
  | send id data iret =>
    rw [step] at hs
    rw [stepActs]
    split at hs
    · next hid => rw [if_pos hid, ← Except.ok.inj hs]
    · next hid => rw [if_neg hid, List.append_nil, ← Except.ok.inj hs]
  | onSend k status =>
    rw [step] at hs
    rw [stepActs]
    split at hs
    · rw [List.append_nil, ← Except.ok.inj hs]
    · rw [← Except.ok.inj hs]
  | setRecvCB sid => rw [← Except.ok.inj hs, stepActs]
  | setNewConnectCB cb => rw [← Except.ok.inj hs, stepActs, List.append_nil]
  | setCloseCB cb => rw [← Except.ok.inj hs, stepActs, List.append_nil]
  | addProtocol protoId proto => rw [← Except.ok.inj hs, stepActs, List.append_nil]
  | removeProtocol protocolId => rw [← Except.ok.inj hs, stepActs, List.append_nil]

/-- A step of the loop thread is one of the server's. The others leave the server alone, and send
for connections of sessions only. -/
theorem step_server {e : TracedEvent π} (hs : step env rt s e = .ok s') :
    (s'.server = s.server ∧ ∀ id ∈ s'.writes, id ∈ s.writes ∨ id ∈ s.server.owners) ∨
      ∃ e', e = .loop e' ∧ s.waits e' = false ∧ s.server.step env e' = .ok s'.server ∧ s'.writes = s.writes := by
  cases e with
  | loop e =>
    rw [step] at hs
    split at hs
    · rw [← Except.ok.inj hs]
      exact .inl ⟨rfl, fun _ hid => .inl hid⟩
    · next hw =>
      obtain ⟨server, hserver, hs⟩ := bind_eq_ok.1 hs
      rw [← Except.ok.inj hs]
      exact .inr ⟨e, rfl, by simpa using hw, hserver, rfl⟩
  | send id data iret =>
    rw [step] at hs
    left
    split at hs
    · next hid =>
      rw [← Except.ok.inj hs]
      refine ⟨rfl, fun j hj => ?_⟩
      have hwrites : j ∈ s.writes ++ [id] := by
        revert hj
        show j ∈ (if data.isEmpty ∨ iret ≠ 0 then s.writes else s.writes ++ [id]) → _
        split
        · exact List.mem_append_left [id]
        · exact fun hj => hj
      rcases List.mem_append.1 hwrites with hj | hj
      · exact .inl hj
      · right
        rwa [List.mem_singleton.1 hj]
    · rw [← Except.ok.inj hs]
      exact ⟨rfl, fun _ hid => .inl hid⟩
  | onSend k status =>
    rw [step] at hs
    left
    split at hs
    · rw [← Except.ok.inj hs]
      exact ⟨rfl, fun _ hid => .inl hid⟩
    · rw [← Except.ok.inj hs]
      exact ⟨rfl, fun _ hid => .inl (List.mem_of_mem_eraseIdx hid)⟩
  | setRecvCB sid => exact .inl (by rw [← Except.ok.inj hs]; exact ⟨rfl, fun _ hid => .inl hid⟩)
  | setNewConnectCB cb => exact .inl (by rw [← Except.ok.inj hs]; exact ⟨rfl, fun _ hid => .inl hid⟩)
  | setCloseCB cb => exact .inl (by rw [← Except.ok.inj hs]; exact ⟨rfl, fun _ hid => .inl hid⟩)
  | addProtocol protoId proto => exact .inl (by rw [← Except.ok.inj hs]; exact ⟨rfl, fun _ hid => .inl hid⟩)
  | removeProtocol protocolId => exact .inl (by rw [← Except.ok.inj hs]; exact ⟨rfl, fun _ hid => .inl hid⟩)

theorem step_registry (h : Registry s.server []) {e : TracedEvent π} (hs : step env rt s e = .ok s') :
    Registry s'.server [] := by
  rcases step_server hs with ⟨heq, -⟩ | ⟨e', -, -, hserver, -⟩
  · rwa [heq]
  · exact h.step hserver

theorem not_sessionCloses_of_fault (h : Registry s.server []) {e : TracedEvent π} {f : Fault}
    (hs : step env rt s e = .error f) : ¬ SessionCloses s e := by
  intro hcloses
  obtain ⟨id, rfl, hno⟩ := hcloses.handle
  have htotal : ∃ server, s.server.step env (.handleClosed id) = .ok server ∧ _ := handleClosed_total h id
  obtain ⟨server, hserver, -⟩ := htotal
  rw [step, hno, hserver] at hs
  cases hs

end TracedServer

/-- The last actions of a run. -/
def lastActs {π : Type} (n : Nat) (r : C (TracedServer π)) : List ServerAct :=
  match r with
  | .ok s => s.trace.drop (s.trace.length - n)
  | .error _ => []

theorem lastActs_ok {π : Type} {n : Nat} {r : C (TracedServer π)} {a : ServerAct} {acts : List ServerAct}
    (h : lastActs n r = a :: acts) : ∃ s front, r = .ok s ∧ s.trace = front ++ a :: acts := by
  cases r with
  | error f => cases h
  | ok s =>
    refine ⟨s, s.trace.take (s.trace.length - n), rfl, ?_⟩
    rw [← h]
    exact (List.take_append_drop _ _).symm

end Uvnet

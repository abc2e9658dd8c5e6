import Uvnet.PacketSync
import Uvnet.ObjectPool
import Uvnet.StepRun

/- Connections of `TCPServer` in `tcpserver.cpp`: accepting, receiving, closing, and the
   pool of `SessionCtx`s.

   One event is one callback of the loop thread, or a call of `Start` or `Close`. What the
   libuv calls in a callback return is data of the event. A handle is not in the loop, open
   (and perhaps reading), or closing with the callback libuv will run; `uv_close` on a handle
   that is not open makes libuv abort. A `SessionCtx` is named by its allocation, as is a
   `Session`. An event that cannot happen leaves the state alone.

   Not part of the code are, in a `Session`, the chunks its connection received and the
   frames `GetPacket` was given, and in the server the list `notes` of its user callbacks,
   each with the mutexes held. -/
namespace Uvnet
open CMachine ObjectPool

/-- The close callbacks given to `uv_close`. -/
inductive CloseCb where
  | sessionClose
  | recycleSessionCtx
  | afterServerClose
  deriving DecidableEq

inductive HandleState where
  | raw
  | opened (reading : Bool)
  | closing (cb : CloseCb)
  deriving DecidableEq

/-- `uv_handle_t::data` of a connection: its `SessionCtx`, or a `Session`. -/
inductive HandleData where
  | ctx
  | session (session : Nat)

structure SessionCtx where
  tcpHandle : HandleState
  handleData : HandleData
  packet : PacketSync
  sid : Int
  parentSession : Option Nat

/-- `SessionCtx::Alloc`. The handle and the `sid` are unset until used. -/
def SessionCtx.alloc (env : Env) : SessionCtx where
  tcpHandle := .raw
  handleData := .ctx
  packet := .new env
  sid := 0
  parentSession := none

structure Session where
  ctx : Nat
  isClosed : Bool
  deleted : Bool
  received : List (List UInt8)
  frames : List FullPacket

inductive Mutex where
  | sessions
  | ctxs
  | params
  deriving DecidableEq

/-- A user callback: `NewConnectCB` or `TcpCloseCB` with its argument. -/
inductive Note where
  | newConnect (sid : Int) (held : List Mutex)
  | tcpClose (sid : Int) (held : List Mutex)

structure TCPServer where
  packHead : UInt8
  packTail : UInt8
  isClosed : Bool
  isUserClosed : Bool
  asyncPending : Bool
  tcpHandle : HandleState
  asyncCloseHandle : HandleState
  sId : Int
  ctxs : Pool SessionCtx
  objs : List Session
  sessions : List (Int × Nat)
  notes : List Note

inductive ServerEvent where
  /-- `Start`. On a closed server nothing it calls fails; on one that is up, libuv refuses to
  bind the handle that its `_close` has just closed. -/
  | start
  /-- `OnConnection` with its status, and what `uv_tcp_init`, `uv_accept` and
  `uv_read_start` return in it. -/
  | onConnection (status tcpInit accept readStart : Int)
  /-- `OnRecv` for the connection of `ctx`, with `nread >= 0` bytes. -/
  | recv (ctx : Nat) (chunk : List UInt8)
  /-- `OnRecv` with an error. -/
  | recvError (ctx : Nat)
  /-- `Close`. -/
  | close
  /-- `AsyncCloseCB`. -/
  | asyncClose
  /-- The close callback of the connection of `ctx`. -/
  | handleClosed (ctx : Nat)
  /-- The close callbacks of the server's own handles. -/
  | serverClosed
  /-- `uv_run` returns, and `_start_thread` goes on. -/
  | stop

/-- `uv_close`. -/
def uvClose (h : HandleState) (cb : CloseCb) : C HandleState :=
  match h with
  | .opened _ => return .closing cb
  | _ => .error .assertFailed

namespace TCPServer

/-- A server that `Start` has brought up. -/
def start (packHead packTail : UInt8) : TCPServer where
  packHead := packHead
  packTail := packTail
  isClosed := false
  isUserClosed := false
  asyncPending := false
  tcpHandle := .opened false
  asyncCloseHandle := .opened false
  sId := 0
  ctxs := .empty
  objs := []
  sessions := []
  notes := []

/-- The object a `SessionCtx *` points to. -/
def ctx (s : TCPServer) (id : Nat) : C SessionCtx :=
  match s.ctxs.cells[id]? with
  | some c => return c
  | none => .error .wildPointer

/-- The object a `Session *` points to. -/
def obj (s : TCPServer) (k : Nat) : C Session :=
  match s.objs[k]? with
  | some o => return o
  | none => .error .wildPointer

def setCtx (s : TCPServer) (id : Nat) (c : SessionCtx) : TCPServer := { s with ctxs := s.ctxs.store id c }

def setObj (s : TCPServer) (k : Nat) (o : Session) : TCPServer := { s with objs := s.objs.set k o }

/-- `_recycle_one_ctx`. -/
def recycleOneCtx (s : TCPServer) (id : Nat) : TCPServer := { s with ctxs := s.ctxs.recycle maxListSize id }

/-- `_fetch_one_ctx`; a new context has no parent session anyway. -/
def fetchOneCtx (env : Env) (s : TCPServer) : C (TCPServer × Nat) := do
  let (ctxs, id) := s.ctxs.fetch (.alloc env)
  let s := { s with ctxs := ctxs }
  let c ← s.ctx id
  return (s.setCtx id { c with parentSession := none }, id)

/-- The end of `OnConnection`: `new Session`, its entry in `_sessions`, the user's callback. -/
def newSession (s : TCPServer) (id : Nat) (c : SessionCtx) : TCPServer :=
  let s := s.setCtx id { c with tcpHandle := .opened true, parentSession := some s.objs.length }
  { s with
    objs := s.objs ++ [⟨id, false, false, [], []⟩]
    sessions := if (s.sessions.lookup c.sid).isSome then s.sessions else s.sessions ++ [(c.sid, s.objs.length)]
    notes := s.notes ++ [Note.newConnect c.sid []] }

/-- `OnConnection`. -/
def onConnection (env : Env) (s : TCPServer) (status tcpInit accept readStart : Int) : C TCPServer :=
  if status ≠ 0 then return s
  else do
    let (s, id) ← s.fetchOneCtx env
    if tcpInit ≠ 0 then return s.recycleOneCtx id
    else
      let sid ← cint (s.sId + 1)
      let c ← s.ctx id
      let c := { c with tcpHandle := .opened false, handleData := .ctx, sid := sid }
      let s := { s with sId := sid }
      if accept ≠ 0 then return (s.setCtx id c).recycleOneCtx id
      else
        let c := { c with packet := c.packet.setPacketCB.start s.packHead s.packTail }
        if readStart ≠ 0 then
          let h ← uvClose c.tcpHandle .recycleSessionCtx
          return s.setCtx id { c with tcpHandle := h }
        else return s.newSession id c

/-- `GetPacket` is called for the connection of `c`. -/
def record (s : TCPServer) (c : SessionCtx) (chunk : List UInt8) (calls : List FullPacket) : TCPServer :=
  match c.parentSession with
  | none => s
  | some k =>
    match s.objs[k]? with
    | none => s
    | some o => s.setObj k { o with received := o.received ++ [chunk], frames := o.frames ++ calls }

/-- `OnRecv` without an error. -/
def onRecv (env : Env) (s : TCPServer) (id : Nat) (c : SessionCtx) (chunk : List UInt8) : C TCPServer :=
  if chunk.isEmpty then return s
  else do
    let r ← recvdata env c.packet chunk
    return (s.setCtx id { c with packet := r.sync }).record c chunk r.calls

/-- `Session::Close`. -/
def sessionClose (s : TCPServer) (k : Nat) : C TCPServer := do
  let o ← s.obj k
  if o.isClosed then return s
  else
    let c ← s.ctx o.ctx
    let h ← uvClose c.tcpHandle .sessionClose
    return s.setCtx o.ctx { c with tcpHandle := h, handleData := .session k }

/-- `delete session`: the destructor waits until the session is closed. -/
def deleteSession (s : TCPServer) (k : Nat) : C TCPServer := do
  let s ← s.sessionClose k
  let o ← s.obj k
  if o.isClosed then return s.setObj k { o with deleted := true }
  else .error .hangs

/-- `SessionClosed`; it holds `_mutex_sessions` throughout. -/
def sessionClosed (s : TCPServer) (sid : Int) : C TCPServer :=
  match s.sessions.lookup sid with
  | none => return s
  | some k => do
    let s := { s with notes := s.notes ++ [Note.tcpClose sid [.sessions]] }
    let o ← s.obj k
    let s ← (s.recycleOneCtx o.ctx).deleteSession k
    return { s with sessions := s.sessions.filter fun entry => entry.1 ≠ sid }

/-- The close callback of a connection's handle. -/
def onClosed (s : TCPServer) (id : Nat) (c : SessionCtx) (cb : CloseCb) : C TCPServer :=
  let s := s.setCtx id { c with tcpHandle := .raw }
  match cb with
  | .afterServerClose => return s
  | .recycleSessionCtx => return s.recycleOneCtx id
  | .sessionClose =>
    match c.handleData with
    | .ctx => .error .wildPointer
    | .session k => do
      let o ← s.obj k
      (s.setObj k { o with isClosed := true }).sessionClosed c.sid

/-- `CloseWalkCB`. -/
def closeWalk (h : HandleState) : HandleState :=
  match h with
  | .opened _ => .closing .afterServerClose
  | h => h

/-- `_close`: every registered session, then every handle that is not closing yet. -/
def closeAll (s : TCPServer) : C TCPServer :=
  if s.isClosed then return s
  else do
    let s ← s.sessions.foldlM (fun s entry => s.sessionClose entry.2) s
    return { s with
      tcpHandle := closeWalk s.tcpHandle
      asyncCloseHandle := closeWalk s.asyncCloseHandle
      ctxs := { s.ctxs with cells := s.ctxs.cells.map fun c => { c with tcpHandle := closeWalk c.tcpHandle } } }

def step (env : Env) (s : TCPServer) : ServerEvent → C TCPServer
  | .start =>
    if s.isClosed then
      return { s with
        isClosed := false, asyncPending := false, tcpHandle := .opened false, asyncCloseHandle := .opened false }
    else s.closeAll
  | .onConnection status tcpInit accept readStart =>
    if s.tcpHandle = .opened false then s.onConnection env status tcpInit accept readStart else return s
  | .recv id chunk =>
    match s.ctxs.cells[id]? with
    | none => return s
    | some c =>
      if c.tcpHandle = .opened true ∧ chunk.length ≤ bufferSize then s.onRecv env id c chunk else return s
  | .recvError id =>
    match s.ctxs.cells[id]? with
    | none => return s
    | some c =>
      if c.tcpHandle = .opened true then
        match c.parentSession with
        | none => .error .wildPointer
        | some k => s.sessionClose k
      else return s
  | .close => if s.isClosed then return s else return { s with isUserClosed := true, asyncPending := true }
  | .asyncClose =>
    if s.asyncPending = true ∧ s.asyncCloseHandle = .opened false then
      let s := { s with asyncPending := false }
      if s.isUserClosed then s.closeAll else return s
    else return s
  | .handleClosed id =>
    match s.ctxs.cells[id]? with
    | none => return s
    | some c =>
      match c.tcpHandle with
      | .closing cb => s.onClosed id c cb
      | _ => return s
  | .serverClosed =>
    return { s with
      tcpHandle := if s.tcpHandle = .closing .afterServerClose then .raw else s.tcpHandle
      asyncCloseHandle := if s.asyncCloseHandle = .closing .afterServerClose then .raw else s.asyncCloseHandle }
  | .stop =>
    if s.isClosed = false ∧ s.tcpHandle = .raw ∧ s.asyncCloseHandle = .raw ∧
        ∀ c ∈ s.ctxs.cells, c.tcpHandle = .raw then
      return { s with isClosed := true, isUserClosed := false, notes := s.notes ++ [Note.tcpClose (-1) []] }
    else return s

end TCPServer

end Uvnet

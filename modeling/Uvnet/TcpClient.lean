import Uvnet.LoopHandle
import Uvnet.PacketSync
import Uvnet.StepRun

/- The connections of `TCPClient` in `tcpclient.cpp`: `Connect` and `Close`, called from the
   user's threads, and the callbacks of the loop thread that connect, receive, reconnect and
   close. Its send side is `ClientSend`.

   One event is one callback, or a part of `Connect` with no wait in it: its `_close`, then
   everything up to `uv_thread_create`, then each test, sleep and last read of
   `_connect_status`. Calls of `Connect` come one after another; `Close` may come at any
   time. What the libuv calls return is data of the event. A call that libuv does not allow
   in the state its handle is in is a fault, which names the call. The timer may fire
   whenever it is armed, and a connect request that is outstanding when its handle is closed
   ends with an error before the close callback. An event that cannot happen leaves the
   state alone.

   Not part of the code are the owner of the outstanding request (`connectReq`), what each
   connection received and delivered (`connections`), and, of a call of `Connect`, whether
   its own attempt succeeded while it waited, and whether `Close` was called since it began. -/
namespace Uvnet
open CMachine LoopHandle

/-- `_connect_status`. -/
inductive ConnectStatus where
  | timeout
  | finish
  | error
  | dis
  deriving DecidableEq

/-- The close callbacks given to `uv_close`. -/
inductive ClientCloseCb where
  | onClientClose
  | null
  deriving DecidableEq

/-- What `tcp_handle.data` points to: the `TcpClientCtx`, or the `TCPClient`. -/
inductive ClientData where
  | ctx
  | client
  deriving DecidableEq

/-- Who issued a connect request: a call of `Connect`, counted from the first, or `ReconnectTimer`. -/
inductive Attempt where
  | call (k : Nat)
  | reconnect
  deriving DecidableEq

/-- Where a call of `Connect` stands: before `_init`, at the loop condition, in `ThreadSleep`,
or behind the loop. -/
inductive ConnectPc where
  | init
  | test (waitCont : Nat)
  | sleep (waitCont : Nat)
  | leave
  deriving DecidableEq

/-- Whether the loop of `Connect` is running. -/
def ConnectPc.waiting : ConnectPc → Bool
  | .test _ | .sleep _ => true
  | _ => false

structure ConnectCall where
  pc : ConnectPc
  succeeded : Bool
  closeCalled : Bool

/-- A call of `Connect` that has returned. -/
structure ConnectResult where
  result : Bool
  succeeded : Bool
  closeCalled : Bool

/-- A connection, with the chunks `OnRecv` was given and the frames `GetPacket` was. -/
structure Connection where
  received : List (List UInt8)
  frames : List FullPacket

/-- A libuv call that its handle does not allow. -/
inductive Misuse where
  | asyncInit
  | tcpInit
  | timerInit
  | tcpConnect
  | tcpClose
  | timerClose
  deriving DecidableEq

/-- Whether the call is one on `_ctx->tcp_handle`. -/
def Misuse.onTcp : Misuse → Bool
  | .tcpInit | .tcpConnect | .tcpClose => true
  | _ => false

/-- What stops a client in the model. -/
inductive ClientFault where
  | machine (f : Fault)
  | misuse (call : Misuse)

abbrev K := Except ClientFault

structure TCPClient where
  packetHead : UInt8
  packetTail : UInt8
  isClosed : Bool
  isUserClosed : Bool
  isConnecting : Bool
  connectStatus : ConnectStatus
  repeatTime : Nat
  asyncHandle : Handle ClientCloseCb
  asyncPending : Bool
  tcpHandle : Handle ClientCloseCb
  tcpData : ClientData
  connectReq : Option Attempt
  connectTimer : Handle ClientCloseCb
  timerArmed : Bool
  looping : Bool
  packet : PacketSync
  connections : List Connection
  calling : Option ConnectCall
  returned : List ConnectResult

inductive TcpClientEvent where
  /-- `Connect` is called, and its `_close`. -/
  | connect
  /-- `Connect` from `_init` to `uv_thread_create`, with what the libuv calls in it return. -/
  | issue (asyncInit tcpInit timerInit ip4Addr tcpConnect threadCreate : Int)
  /-- The next step of the `Connect` that waits. -/
  | wait
  /-- `Close`: the test and the assignment. -/
  | close
  /-- The `uv_async_send` of a `Close` or a `Send`. -/
  | signal
  /-- `AsyncCB`. -/
  | async
  /-- `OnConnect` with its status, and what `uv_read_start` returns. -/
  | onConnect (status readStart : Int)
  /-- `OnRecv` with `nread >= 0` bytes. -/
  | recv (chunk : List UInt8)
  /-- `OnRecv` with an error. -/
  | recvError
  /-- `ReconnectTimer`, with what the libuv calls in it return. -/
  | timer (tcpInit ip4Addr tcpConnect : Int)
  /-- The close callback of `tcp_handle`, with what `uv_timer_start` returns in it. -/
  | tcpClosed (timerStart : Int)
  /-- The close callback of the async handle. -/
  | asyncClosed
  /-- The close callback of the timer. -/
  | timerClosed
  /-- `uv_run` returns, and `_run` goes on. -/
  | stop
  deriving DecidableEq

namespace TCPClient

/-- `TCPClient::TCPClient`; `_repeat_time` and `tcp_handle.data` are unset until used. -/
def new (env : Env) (packHead packTail : UInt8) : TCPClient where
  packetHead := packHead
  packetTail := packTail
  isClosed := true
  isUserClosed := false
  isConnecting := false
  connectStatus := .dis
  repeatTime := 0
  asyncHandle := .raw
  asyncPending := false
  tcpHandle := .raw
  tcpData := .ctx
  connectReq := none
  connectTimer := .raw
  timerArmed := false
  looping := false
  packet := .new env
  connections := []
  calling := none
  returned := []

/-- `uv_tcp_connect` on `tcp_handle` with `_connect_req`. -/
def uvTcpConnect (s : TCPClient) (owner : Attempt) (ret : Int) : K TCPClient :=
  match s.connectReq, s.tcpHandle with
  | none, .opened _ => return if ret = 0 then { s with connectReq := some owner } else s
  | _, _ => .error (.misuse .tcpConnect)

/-- `uv_timer_start` on `_connect_timer`; it fails on a timer that is closing. -/
def uvTimerStart (s : TCPClient) : TCPClient := { s with timerArmed := s.connectTimer = .opened false }

/-- `_start_reconnect`. -/
def startReconnect (s : TCPClient) : TCPClient :=
  { s with isConnecting := true, tcpData := .client, repeatTime := 1000 }

/-- `_stop_reconnect`. -/
def stopReconnect (s : TCPClient) : TCPClient :=
  { s with isConnecting := false, tcpData := .ctx, repeatTime := 1000, timerArmed := false }

/-- `_close`: `CloseWalkCB` on each handle in the loop. -/
def closeAll (s : TCPClient) : TCPClient :=
  if s.isClosed then s
  else
    let s := s.stopReconnect
    { s with
      asyncHandle := s.asyncHandle.closeWalk .onClientClose
      tcpHandle := s.tcpHandle.closeWalk .onClientClose
      connectTimer := s.connectTimer.closeWalk .onClientClose }

/-- `_init`, with what it returns. -/
def init (s : TCPClient) (asyncInit tcpInit timerInit : Int) : K (TCPClient × Bool) :=
  if s.isClosed = false then return (s, true)
  else do
    let h ← s.asyncHandle.init (.misuse .asyncInit) asyncInit
    if asyncInit ≠ 0 then return (s, false)
    else
      let s := { s with asyncHandle := h, asyncPending := false }
      let h ← s.tcpHandle.init (.misuse .tcpInit) tcpInit
      if tcpInit ≠ 0 then return (s, false)
      else
        let s := { s with
          tcpHandle := h
          tcpData := .ctx
          packet := s.packet.setPacketCB.start s.packetHead s.packetTail }
        let h ← s.connectTimer.init (.misuse .timerInit) timerInit
        if timerInit ≠ 0 then return (s, false)
        else return ({ s with connectTimer := h, timerArmed := false, isClosed := false }, true)

/-- A call of `Connect` returns. -/
def finishCall (s : TCPClient) (c : ConnectCall) (result : Bool) : TCPClient :=
  { s with calling := none, returned := s.returned ++ [⟨result, c.succeeded, c.closeCalled⟩] }

/-- `Connect` up to its loop. -/
def issue (s : TCPClient) (c : ConnectCall) (asyncInit tcpInit timerInit ip4Addr tcpConnect threadCreate : Int) :
    K TCPClient := do
  let (s, ok) ← s.init asyncInit tcpInit timerInit
  if ok = false then return s.finishCall c false
  else if ip4Addr ≠ 0 then return s.finishCall c false
  else
    let s ← s.uvTcpConnect (.call s.returned.length) tcpConnect
    if tcpConnect ≠ 0 then return s.finishCall c false
    else if threadCreate ≠ 0 then return s.finishCall c false
    else return { s with looping := true, calling := some { c with pc := .test 0 } }

/-- The loop of `Connect`, and the read behind it. -/
def wait (s : TCPClient) (c : ConnectCall) : TCPClient :=
  match c.pc with
  | .init => s
  | .test waitCont =>
    { s with calling := some { c with pc := if s.connectStatus = .dis then .sleep waitCont else .leave } }
  | .sleep waitCont =>
    if waitCont + 1 > 100 then { s with connectStatus := .timeout, calling := some { c with pc := .leave } }
    else { s with calling := some { c with pc := .test (waitCont + 1) } }
  | .leave => s.finishCall c (s.connectStatus = .finish)

/-- `OnConnect` where it begins to read. A call of `Connect` that waits notes whether the
attempt is its own. -/
def reading (s : TCPClient) (owner : Attempt) : TCPClient :=
  { s with
    connectStatus := .finish
    tcpHandle := .opened true
    connections := s.connections ++ [Connection.mk [] []]
    calling := s.calling.map fun c =>
      { c with succeeded := c.succeeded || (c.pc.waiting && owner = .call s.returned.length) } }

/-- `OnConnect`; it finds the client through `req->handle->data`. -/
def onConnect (s : TCPClient) (owner : Attempt) (status readStart : Int) : K TCPClient :=
  if s.tcpData = .client then .error (.machine .wildPointer)
  else if status ≠ 0 then
    let s := { s with connectStatus := .error }
    if s.isConnecting then return { s with repeatTime := s.repeatTime * 2 }.uvTimerStart
    else return s
  else
    let s := if readStart ≠ 0 then { s with connectStatus := .error } else s.reading owner
    return if s.isConnecting then s.stopReconnect else s

/-- `GetPacket` is called for the last connection. -/
def record (s : TCPClient) (chunk : List UInt8) (calls : List FullPacket) : TCPClient :=
  { s with connections := s.connections.modifyLast fun c => { c with received := c.received ++ [chunk], frames := c.frames ++ calls } }

/-- `OnRecv` without an error. -/
def onRecv (env : Env) (s : TCPClient) (chunk : List UInt8) : K TCPClient :=
  if s.tcpData = .client then .error (.machine .wildPointer)
  else if chunk.isEmpty then return s
  else
    match recvdata env s.packet chunk with
    | .ok r => return { s with packet := r.sync }.record chunk r.calls
    | .error f => .error (.machine f)

/-- `OnRecv` with an error. -/
def onRecvError (s : TCPClient) : K TCPClient :=
  if s.tcpData = .client then .error (.machine .wildPointer)
  else do
    let h ← s.tcpHandle.close (.misuse .tcpClose) .onClientClose
    return { s.startReconnect with tcpHandle := h }

/-- `ReconnectTimer` behind its loop: try again later. -/
def retryLater (s : TCPClient) : TCPClient := { s with repeatTime := s.repeatTime * 2 }.uvTimerStart

/-- `ReconnectTimer`. -/
def reconnectTimer (s : TCPClient) (tcpInit ip4Addr tcpConnect : Int) : K TCPClient :=
  if s.isConnecting = false then return s
  else do
    let h ← s.tcpHandle.init (.misuse .tcpInit) tcpInit
    if tcpInit ≠ 0 then return s.retryLater
    else
      let s := { s with tcpHandle := h, tcpData := .ctx }
      if ip4Addr ≠ 0 then
        let h ← s.tcpHandle.close (.misuse .tcpClose) .null
        return { s with tcpHandle := h }.retryLater
      else
        let s ← s.uvTcpConnect .reconnect tcpConnect
        if tcpConnect ≠ 0 then
          let h ← s.tcpHandle.close (.misuse .tcpClose) .null
          return { s with tcpHandle := h }.retryLater
        else return s

/-- `OnClientClose` for `tcp_handle`. It takes `handle->data` for the client; where that is the
context, what it takes for `_ctx` is the context's `loop`, and the handle is not in it. -/
def onTcpClosed (s : TCPClient) (timerStart : Int) : K TCPClient :=
  if s.tcpData = .client ∧ s.isConnecting = true then
    if timerStart ≠ 0 then do
      let h ← s.connectTimer.close (.misuse .timerClose) .onClientClose
      return { s with connectTimer := h, timerArmed := false }
    else return s.uvTimerStart
  else return s

/-- Whether `uv_run` goes on: a handle that keeps the loop running, or a request. -/
def alive (s : TCPClient) : Bool :=
  s.asyncHandle ≠ .raw || s.tcpHandle.alive || s.connectTimer.alive || s.timerArmed || s.connectReq.isSome

/-- One event; those of the loop thread happen while it runs. -/
def step (env : Env) (s : TCPClient) : TcpClientEvent → K TCPClient
  | .connect =>
    if s.calling.isNone then return { s.closeAll with calling := some ⟨.init, false, false⟩ } else return s
  | .issue asyncInit tcpInit timerInit ip4Addr tcpConnect threadCreate =>
    match s.calling with
    | none => return s
    | some c =>
      if c.pc = .init then s.issue c asyncInit tcpInit timerInit ip4Addr tcpConnect threadCreate else return s
  | .wait =>
    match s.calling with
    | none => return s
    | some c => return s.wait c
  | .close =>
    return { s with
      isUserClosed := s.isUserClosed || !s.isClosed
      calling := s.calling.map fun c => { c with closeCalled := true }
      returned := s.returned.map fun r => { r with closeCalled := true } }
  | .signal => return { s with asyncPending := true }
  | .async =>
    if s.looping = true ∧ s.asyncHandle = .opened false ∧ s.asyncPending = true then
      let s := { s with asyncPending := false }
      return if s.isUserClosed then s.closeAll else s
    else return s
  | .onConnect status readStart =>
    match s.connectReq with
    | none => return s
    | some owner =>
      if s.looping = true ∧ (status ≠ 0 ∨ s.tcpHandle = .opened false) then
        { s with connectReq := none }.onConnect owner status readStart
      else return s
  | .recv chunk =>
    if s.looping = true ∧ s.tcpHandle = .opened true ∧ chunk.length ≤ bufferSize then s.onRecv env chunk else return s
  | .recvError => if s.looping = true ∧ s.tcpHandle = .opened true then s.onRecvError else return s
  | .timer tcpInit ip4Addr tcpConnect =>
    if s.looping = true ∧ s.timerArmed = true then s.reconnectTimer tcpInit ip4Addr tcpConnect else return s
  | .tcpClosed timerStart =>
    if s.looping = true ∧ s.connectReq = none then
      match s.tcpHandle with
      | .closing .null => return { s with tcpHandle := .raw }
      | .closing .onClientClose => { s with tcpHandle := .raw }.onTcpClosed timerStart
      | _ => return s
    else return s
  | .asyncClosed => if s.looping = true then return { s with asyncHandle := s.asyncHandle.closed } else return s
  | .timerClosed => if s.looping = true then return { s with connectTimer := s.connectTimer.closed } else return s
  | .stop =>
    if s.looping = true ∧ s.alive = false then return { s with looping := false, isClosed := true } else return s

end TCPClient

end Uvnet

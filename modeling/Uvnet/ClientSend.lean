import Uvnet.PacketSync
import Uvnet.CircularBuffer
import Uvnet.ObjectPool
import Uvnet.StepRun

/- The send side of `TCPClient` in `tcpclient.cpp`: `Send` and `Close`, called from any
   thread, and `AsyncCB`, `OnSend`, `OnRecv` and `_send`, which the loop thread runs.

   One event is one step of one thread: a statement that another thread can see the effect
   of, or a whole section under `_mutex_writebuf`. `ClientWriteParam`s are only touched by
   the loop thread, so `_mutex_params` orders nothing. `uv_async_send` sets a flag that the
   loop clears before it runs `AsyncCB`. What a `uv_write` returns, and what its `OnSend`
   will be told, are data of the event. An event that cannot happen leaves the state alone.

   The state also keeps what was done so far: the pieces the ring accepted, with the call
   each came from (`accepted`), and the buffers given to `uv_write` (`submitted`), with the
   connection each was meant for. Nothing the code does depends on these. -/
namespace Uvnet
open CMachine ObjectPool

/-- `ClientWriteParam`; its `write_req` is the object itself. -/
structure ClientWriteParam where
  bufBase : List UInt8
  bufLen : Nat
  bufTrueLen : Int

/-- `ClientWriteParam::Alloc`; the buffer holds what the allocation happens to hold. -/
def ClientWriteParam.alloc (fresh : Nat → UInt8) : ClientWriteParam where
  bufBase := (List.range bufferSize).map fresh
  bufLen := bufferSize
  bufTrueLen := bufferSize

/-- Where a call of `Send` stands: before its first signal, at the loop condition, before
the locked section, before its last signal, or returned. -/
inductive SendPc where
  | signal
  | test
  | write
  | signalLast
  | done (result : Int)
  deriving DecidableEq

/-- A call of `Send`, with its local `iret`. -/
structure SendCall where
  data : List UInt8
  iret : Nat
  pc : SendPc

/-- What a locked section asks `write` for: `len - iret`, as the `int` it is passed as. -/
def SendCall.count (c : SendCall) : Int := toInt (sizeSub c.data.length c.iret)

/-- `Send`: a null or empty argument returns 0 at once. -/
def SendCall.enter (data : Option (List UInt8)) : SendCall :=
  match data with
  | none | some [] => ⟨[], 0, .done 0⟩
  | some data => ⟨data, 0, .signal⟩

/-- Where the loop thread stands: between callbacks, in `AsyncCB`, at the head of `_send`'s
loop, between the locked section and `uv_write`, or out of `uv_run`. -/
inductive LoopPc where
  | idle
  | asyncCB
  | send
  | submit (param : Nat)
  | stopped
  deriving DecidableEq

/-- The parameter `_send` has read into. -/
def LoopPc.param : LoopPc → Option Nat
  | .submit id => some id
  | _ => none

/-- A write `uv_write` took, with the status its `OnSend` will get. -/
structure Write where
  param : Nat
  bytes : List UInt8
  status : Int

/-- A call of `uv_write`, with the connection it was for, its result, and the status its
`OnSend` will get if it was taken. -/
structure Submission where
  conn : Nat
  bytes : List UInt8
  iret : Int
  status : Int

structure ClientSend where
  ring : PodCircularBuffer UInt8
  params : Pool ClientWriteParam
  isUserClosed : Bool
  isClosed : Bool
  asyncPending : Bool
  handlesClosing : Bool
  closeSignals : Nat
  pc : LoopPc
  writes : List Write
  conn : Nat
  calls : List SendCall
  accepted : List (Nat × List UInt8)
  submitted : List Submission

inductive ClientEvent where
  /-- A thread calls `Send`. -/
  | send (data : Option (List UInt8))
  /-- The next statement of the `i`th call of `Send`. -/
  | call (i : Nat)
  /-- A thread calls `Close`: the assignment. -/
  | close
  /-- The signal of a call of `Close`. -/
  | closeSignal
  /-- The loop takes up the async handle. -/
  | async
  /-- The test in `AsyncCB`. -/
  | asyncTest
  /-- `OnRecv` with `nread >= 0`, up to its `_send`. -/
  | recv
  /-- `OnSend` for the `k`th write in flight. -/
  | onSend (k : Nat)
  /-- A locked section of `_send`. -/
  | drain
  /-- The `uv_write` behind it. -/
  | uvWrite (iret status : Int)
  /-- `ReconnectTimer` sets the handle up for the next connection. -/
  | reconnect
  /-- `uv_run` returns. -/
  | stop

namespace ClientSend

/-- A client whose `Connect` has set up its handles. -/
def start (fresh : Nat → UInt8) : ClientSend where
  ring := .new fresh bufferSize
  params := .empty
  isUserClosed := false
  isClosed := false
  asyncPending := false
  handlesClosing := false
  closeSignals := 0
  pc := .idle
  writes := []
  conn := 0
  calls := []
  accepted := []
  submitted := []

/-- `_recycle_one_param`. -/
def recycleOneParam (s : ClientSend) (param : Nat) : ClientSend :=
  { s with params := s.params.recycle maxListSize param }

/-- The locked section of `Send`: `iret += write(data + iret, len - iret)`, and then back to
the loop condition or out. -/
def writeSection (s : ClientSend) (i : Nat) (c : SendCall) : C ClientSend := do
  let buf := c.data.drop c.iret
  let (ring, n) ← s.ring.write buf c.count
  let iret := sizeAdd c.iret (toSize n)
  return { s with
    ring := ring
    accepted := s.accepted ++ [(i, buf.take (toSize n))]
    calls := s.calls.set i ⟨c.data, iret, if iret < c.data.length then .test else .signalLast⟩ }

/-- One statement of `Send`. -/
def sendStep (s : ClientSend) (i : Nat) (c : SendCall) : C ClientSend :=
  match c.pc with
  | .signal => return { s with asyncPending := true, calls := s.calls.set i { c with pc := .test } }
  | .test => return { s with
      calls := s.calls.set i { c with pc := if s.isUserClosed then .signalLast else .write } }
  | .write => s.writeSection i c
  | .signalLast => return { s with
      asyncPending := true, calls := s.calls.set i { c with pc := .done (toInt c.iret) } }
  | .done _ => return s

/-- `OnSend`: an error only recycles the parameter; otherwise `_send(req)` does, and goes on. -/
def onSend (s : ClientSend) (k : Nat) (w : Write) : ClientSend :=
  let s := { s with writes := s.writes.eraseIdx k }.recycleOneParam w.param
  if w.status < 0 then s else { s with pc := .send }

/-- One locked section of `_send`: leave the loop when the ring is empty, else read it into a
parameter from `_fetch_one_param`. -/
def drain (fresh : Nat → UInt8) (s : ClientSend) : C ClientSend :=
  if s.ring.empty then return { s with pc := .idle }
  else
    let (params, id) := s.params.fetch (.alloc fresh)
    match params.cells[id]? with
    | none => .error .outOfBounds
    | some p => do
      let (ring, base, n) ← s.ring.read p.bufBase p.bufTrueLen
      return { s with
        ring := ring
        params := params.store id { p with bufBase := base, bufLen := toSize n }
        pc := .submit id }

/-- `uv_write` and the recycling after an error. -/
def uvWrite (s : ClientSend) (id : Nat) (iret status : Int) : C ClientSend :=
  match s.params.cells[id]? with
  | none => .error .outOfBounds
  | some p => do
    let bytes ← memRead p.bufBase 0 p.bufLen
    let s := { s with submitted := s.submitted ++ [Submission.mk s.conn bytes iret status], pc := .send }
    if iret ≠ 0 then return s.recycleOneParam id
    else return { s with writes := s.writes ++ [Write.mk id bytes status] }

def step (fresh : Nat → UInt8) (s : ClientSend) : ClientEvent → C ClientSend
  | .send data => return { s with calls := s.calls ++ [.enter data] }
  | .call i =>
    match s.calls[i]? with
    | none => return s
    | some c => s.sendStep i c
  | .close =>
    if s.isClosed then return s
    else return { s with isUserClosed := true, closeSignals := s.closeSignals + 1 }
  | .closeSignal =>
    if s.closeSignals = 0 then return s
    else return { s with asyncPending := true, closeSignals := s.closeSignals - 1 }
  | .async =>
    if s.pc = .idle ∧ s.asyncPending = true ∧ s.handlesClosing = false then
      return { s with asyncPending := false, pc := .asyncCB }
    else return s
  | .asyncTest =>
    if s.pc = .asyncCB then
      if s.isUserClosed then return { s with handlesClosing := true, pc := .idle }
      else return { s with pc := .send }
    else return s
  | .recv =>
    if s.pc = .idle ∧ s.handlesClosing = false then return { s with pc := .send } else return s
  | .onSend k =>
    match s.writes[k]? with
    | none => return s
    | some w => if s.pc = .idle then return s.onSend k w else return s
  | .drain => if s.pc = .send then s.drain fresh else return s
  | .uvWrite iret status =>
    match s.pc with
    | .submit id => s.uvWrite id iret status
    | _ => return s
  | .reconnect =>
    if s.pc = .idle ∧ s.handlesClosing = false then return { s with conn := s.conn + 1 } else return s
  | .stop =>
    if s.pc = .idle ∧ s.handlesClosing = true ∧ s.writes.isEmpty then
      return { s with isClosed := true, pc := .stopped }
    else return s

/-- All buffers given to `uv_write`, whether it took them or not. -/
def handed (s : ClientSend) : List UInt8 := s.submitted.flatMap Submission.bytes

/-- What has been read from the ring and not been given to `uv_write` yet. -/
def passing (s : ClientSend) : List UInt8 :=
  match s.pc.param.bind fun id => s.params.cells[id]? with
  | some p => p.bufBase.take p.bufLen
  | none => []

end ClientSend

/-- The length given to `Send` is a `size_t`. -/
def ClientEvent.Valid : ClientEvent → Prop
  | .send (some data) => data.length < 2 ^ 64
  | _ => True

end Uvnet

import Uvnet.PacketSync
import Uvnet.ObjectPool
import Uvnet.StepRun

/- The send side of `TCPServer` in `tcpserver.cpp`: `_send`, called from any thread, and
   `OnSend`, which the loop thread runs. `_broadcast` is one call of `_send` after another.

   One event is one step of one thread: a section under `_mutex_params`, what `_send` does to
   its own parameter between two of them, or `uv_write`. What `uv_write` returns is data of
   the event. A write that was taken is in flight until its `OnSend`, which comes once. An
   event that cannot happen leaves the state alone.

   Not part of the code are, in a write, the bytes its buffer had when it was submitted and
   the call that submitted it. -/
namespace Uvnet
open CMachine ObjectPool

/-- `WriteParam`; its `write_req` is the object itself. -/
structure WriteParam where
  bufBase : List UInt8
  bufLen : Nat
  bufTrueLen : Int

/-- `WriteParam::Alloc`; the buffer holds what the allocation happens to hold. -/
def WriteParam.alloc (fresh : Nat → UInt8) : WriteParam where
  bufBase := (List.range bufferSize).map fresh
  bufLen := bufferSize
  bufTrueLen := bufferSize

/-- Where a call of `_send` stands: before `_fetch_one_param`, before it fills the buffer,
before `uv_write`, before `_recycle_one_param`, or returned. -/
inductive ServerSendPc where
  | fetch
  | fill (param : Nat)
  | submit (param : Nat)
  | recycle (param : Nat)
  | done (result : Bool)
  deriving DecidableEq

structure ServerSendCall where
  data : List UInt8
  pc : ServerSendPc

/-- A write that `uv_write` took. -/
structure ServerWrite where
  param : Nat
  bytes : List UInt8
  call : Nat

structure ServerSend where
  params : Pool WriteParam
  writes : List ServerWrite
  calls : List ServerSendCall

inductive ServerSendEvent where
  /-- A thread calls `_send`. -/
  | send (data : List UInt8)
  /-- The next step of the `i`th call, and what `uv_write` returns in it. -/
  | call (i : Nat) (iret : Int)
  /-- `OnSend` for the `k`th write in flight. -/
  | onSend (k : Nat)

/-- `_send`: an empty string is sent by doing nothing. -/
def ServerSendCall.enter (data : List UInt8) : ServerSendCall := ⟨data, if data.isEmpty then .done true else .fetch⟩

/-- The buffer is reallocated where it is too small for `n` bytes. -/
def WriteParam.grow (fresh : Nat → UInt8) (p : WriteParam) (n : Nat) : C WriteParam :=
  if toSize p.bufTrueLen < n then do
    let base ← realloc fresh p.bufBase n n
    return { p with bufBase := base, bufTrueLen := toInt n }
  else return p

/-- `_send` on its parameter: the buffer gets large enough, and then the data. -/
def WriteParam.fill (fresh : Nat → UInt8) (p : WriteParam) (data : List UInt8) : C WriteParam := do
  let p ← p.grow fresh data.length
  let base ← memcpy p.bufBase 0 data 0 data.length
  return { p with bufBase := base, bufLen := data.length }

namespace ServerSend

def start : ServerSend := ⟨.empty, [], []⟩

def setPc (s : ServerSend) (i : Nat) (c : ServerSendCall) (pc : ServerSendPc) : ServerSend :=
  { s with calls := s.calls.set i { c with pc := pc } }

/-- One step of `_send`. -/
def sendStep (fresh : Nat → UInt8) (s : ServerSend) (i : Nat) (c : ServerSendCall) (iret : Int) : C ServerSend :=
  match c.pc with
  | .fetch =>
    let (params, id) := s.params.fetch (.alloc fresh)
    return { s with params := params }.setPc i c (.fill id)
  | .fill id =>
    match s.params.cells[id]? with
    | none => .error .outOfBounds
    | some p => do
      let p ← p.fill fresh c.data
      return { s with params := s.params.store id p }.setPc i c (.submit id)
  | .submit id =>
    match s.params.cells[id]? with
    | none => .error .outOfBounds
    | some p => do
      let bytes ← memRead p.bufBase 0 p.bufLen
      if iret ≠ 0 then return s.setPc i c (.recycle id)
      else return { s with writes := s.writes ++ [ServerWrite.mk id bytes i] }.setPc i c (.done true)
  | .recycle id => return { s with params := s.params.recycle maxListSize id }.setPc i c (.done false)
  | .done _ => return s

/-- `OnSend` gives the parameter back, whatever the status. -/
def onSend (s : ServerSend) (k : Nat) (w : ServerWrite) : ServerSend :=
  { s with params := s.params.recycle maxListSize w.param, writes := s.writes.eraseIdx k }

def step (fresh : Nat → UInt8) (s : ServerSend) : ServerSendEvent → C ServerSend
  | .send data => return { s with calls := s.calls ++ [.enter data] }
  | .call i iret =>
    match s.calls[i]? with
    | none => return s
    | some c => s.sendStep fresh i c iret
  | .onSend k =>
    match s.writes[k]? with
    | none => return s
    | some w => return s.onSend k w

end ServerSend

/-- Data of less than 2^31 bytes. -/
def ServerSendEvent.Valid : ServerSendEvent → Prop
  | .send data => data.length < 2 ^ 31
  | _ => True

end Uvnet

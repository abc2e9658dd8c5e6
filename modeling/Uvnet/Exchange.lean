import Uvnet.ClientIsolation
import Uvnet.NetworkFrames
import Uvnet.ServerBroadcast

/- Requests and responses: any number of clients, with their send and their receive side, and one
   server, whose handlers answer.

   The send sides and the server are a `Network`, and the server is that of a `ServerOut`, so
   that any threads may send and broadcast as well. A handler is a function from the frame it
   gets to what it passes to `_send`, for the context the frame came on; the loop thread makes
   these calls one after another before it goes on to its next callback (`reply`). That it
   calls the handlers once the chunk is parsed, and not in between, makes no difference, for
   nobody else has the parser.

   Every write taken goes to the session its context has at that time (`routed`). A connection
   of a client has one number with its send side, `ClientSend.conn`, and the receive side notes
   it when the connection is established (`downs`). What the session behind a connection was
   routed is what the client can read there, in order and in chunks of any size.

   Not part of the code are `peers`, `downs`, `routed`, and the calls of `_send` made in
   handlers (`replied`). An event that cannot happen leaves the state alone. -/
namespace Uvnet
open CMachine ObjectPool StreamScan StepRun PayloadCut TCPServer

structure Receiver where
  client : TCPClient
  downs : List Nat

/-- The loop thread in the handlers of a session: what is left to send, and the call it is in. -/
structure Handling where
  ctx : Nat
  session : Nat
  rest : List (List UInt8)
  current : Option Nat

structure Exchange where
  out : ServerOut
  clients : List ClientSend
  peers : List Peer
  receivers : List Receiver
  handling : Option Handling
  replied : List (Nat × Nat)
  routed : List (Option Nat × ServerWrite)

inductive ExchangeEvent where
  /-- A step of the send side of a client, or of the server. -/
  | net (e : NetEvent)
  /-- A step of a thread that sends, or `OnSend`. -/
  | out (e : OutEvent)
  /-- The next step of the loop thread in the handlers. -/
  | reply
  /-- A step of the receive side of the `i`th client, `OnRecv` with bytes apart. -/
  | receiver (i : Nat) (e : TcpClientEvent)
  /-- `OnRecv` for the `i`th client, with at most `n` bytes from session `k`. -/
  | response (i k n : Nat)

/-- The event is one of the server's loop thread. -/
def NetEvent.onLoop : NetEvent → Bool
  | .accept .. | .read .. => true
  | .server .start | .server .close | .client .. => false
  | .server _ => true

/-- The event is a callback that locks `_mutex_sessions`. -/
def Network.locksSessions (s : Network) : NetEvent → Bool
  | .accept _ tcpInit accept readStart => s.server.locksSessions (.onConnection 0 tcpInit accept readStart)
  | .server e => s.server.locksSessions e
  | _ => false

/-- The frames a session was given. -/
def TCPServer.framesOf (s : TCPServer) (k : Nat) : List FullPacket := (s.objs[k]?).elim [] Session.frames

/-- A fault of the server, or of a send side. -/
def lift {α : Type} (x : C α) : K α := x.mapError ClientFault.machine

namespace Exchange

def start (env : Env) (packHead packTail : UInt8) (fresh : Nat → UInt8) (n : Nat) : Exchange where
  out := .start packHead packTail
  clients := List.replicate n (.start fresh)
  peers := []
  receivers := List.replicate n ⟨.new env packHead packTail, []⟩
  handling := none
  replied := []
  routed := []

def net (s : Exchange) : Network := ⟨s.out.server, s.clients, s.peers⟩

def withNet (s : Exchange) (n : Network) : Exchange :=
  { s with out := { s.out with server := n.server }, clients := n.clients, peers := n.peers }

/-- `GetPacket` is called for each frame that is new, and its handler with it. -/
def handle (handler : Frame → List (List UInt8)) (before : TCPServer) (id k : Nat) (s : Exchange) : Exchange :=
  let frames := (s.out.server.framesOf k).drop (before.framesOf k).length
  { s with handling := some ⟨id, k, (frames.map FullPacket.frame).flatMap handler, none⟩ }

/-- The session a call of `_send` writes to. -/
def route (s : Exchange) (i : Nat) : Option Nat := (s.out.targets[i]?).bind s.net.reader

def netStep (env : Env) (fresh : Nat → UInt8) (handler : Frame → List (List UInt8)) (s : Exchange) (e : NetEvent) : K Exchange :=
  if (e.onLoop && s.handling.isSome) || (s.net.locksSessions e && s.out.locked) then return s
  else do
    let net ← lift (s.net.step env fresh e)
    match e with
    | .read id _ =>
      match s.net.reader id with
      | none => return s.withNet net
      | some k => return (s.withNet net).handle handler s.out.server id k
    | _ => return s.withNet net

/-- A thread takes a step; what is taken in it goes to the session its context has. -/
def sendStep (env : Env) (fresh : Nat → UInt8) (s : Exchange) (e : OutEvent) : K Exchange := do
  let out ← lift (s.out.step env fresh e)
  return { s with
    out := out
    routed := s.routed ++ (out.taken.drop s.out.taken.length).map fun w => (s.route w.call, w) }

def outStep (env : Env) (fresh : Nat → UInt8) (s : Exchange) (e : OutEvent) : K Exchange :=
  match e with
  | .server _ => return s
  | .onSend _ => if s.handling.isSome then return s else s.sendStep env fresh e
  | e => s.sendStep env fresh e

/-- The loop thread in the handlers: it calls `_send` for the next reply, waits for the return, or
is done. -/
def replyStep (s : Exchange) : Exchange :=
  match s.handling with
  | none => s
  | some h =>
    match h.current with
    | some i =>
      match s.out.send.calls[i]? with
      | some ⟨_, .done _⟩ => { s with handling := some { h with current := none } }
      | _ => s
    | none =>
      match h.rest with
      | [] => { s with handling := none }
      | data :: rest =>
        { s with
          out := s.out.beginSend h.ctx data
          handling := some { h with rest := rest, current := some s.out.send.calls.length }
          replied := s.replied ++ [(h.session, s.out.send.calls.length)] }

/-- What was routed to a session. -/
def routedTo (s : Exchange) (k : Nat) : List (List UInt8) :=
  (s.routed.filter fun r => r.1 = some k).map fun r => r.2.bytes

/-- What the last connection of a client has not received of it. -/
def arriving (s : Exchange) (k : Nat) (r : Receiver) : List UInt8 :=
  (s.routedTo k).flatten.drop (r.client.connections.getLast?.elim 0 fun c => c.received.flatten.length)

/-- What the receive side does not do by itself: `OnRecv` with bytes, and establishing a connection a
second time. -/
def refuses (r : Receiver) (c : ClientSend) : TcpClientEvent → Bool
  | .recv _ => true
  | .onConnect status readStart => status = 0 && readStart = 0 && r.downs.contains c.conn
  | _ => false

/-- The receive side of a client takes a step. -/
def receiverStep (env : Env) (s : Exchange) (i : Nat) (e : TcpClientEvent) : K Exchange :=
  match s.receivers[i]?, s.clients[i]? with
  | some r, some c =>
    if refuses r c e then return s
    else do
      let client ← r.client.step env e
      let downs := if r.client.connections.length < client.connections.length then r.downs ++ [c.conn] else r.downs
      return { s with receivers := s.receivers.set i ⟨client, downs⟩ }
  | _, _ => return s

def response (env : Env) (s : Exchange) (i k n : Nat) : K Exchange :=
  match s.receivers[i]? with
  | none => return s
  | some r =>
    if r.downs.getLast?.any fun m => s.peers[k]? = some ⟨i, m⟩ then do
      let client ← r.client.step env (.recv ((s.arriving k r).take (min n bufferSize)))
      return { s with receivers := s.receivers.set i ⟨client, r.downs⟩ }
    else return s

def step (env : Env) (fresh : Nat → UInt8) (handler : Frame → List (List UInt8)) (s : Exchange) : ExchangeEvent → K Exchange
  | .net e => s.netStep env fresh handler e
  | .out e => s.outStep env fresh e
  | .reply => return s.replyStep
  | .receiver i e => s.receiverStep env i e
  | .response i k n => s.response env i k n

/-- What a run may do: a step of the network is `Orderly`, threads send packets, and a client
establishes its connections with its parser at rest. -/
def Orderly (env : Env) (head tail : UInt8) (s : Exchange) : ExchangeEvent → Prop
  | .net e => s.net.Orderly env head tail e
  | .out (.send _ data) => ∃ o : Outgoing env head tail, data = o.bytes
  | .out (.broadcast data _) => ∃ o : Outgoing env head tail, data = o.bytes
  | .receiver i e => ∀ r, s.receivers[i]? = some r → r.client.ConnectsAtRest e
  | _ => True

end Exchange

/-! What the steps of a client do to its connections, and those of the server to its frames. -/

section Effects
variable {env : Env} {s s' : TCPClient} {e : TcpClientEvent}

/-- **What a step does** to the connections of a client: one more, or more on the last. -/
theorem TCPClient.ClientStep.connections (h : TCPClient.ClientStep env s e s') :
    (s'.packetHead = s.packetHead ∧ s'.packetTail = s.packetTail) ∧
      (s'.connections = s.connections ∨ (e = .onConnect 0 0 ∧ s'.connections = s.connections ++ [⟨[], []⟩]) ∨
        ∃ chunk calls, e = .recv chunk ∧ s'.connections = s.connections.modifyLast fun c =>
          ⟨c.received ++ [chunk], c.frames ++ calls⟩) := by
  have hclose : ∀ s : TCPClient, s.closeAll.packetHead = s.packetHead ∧ s.closeAll.packetTail = s.packetTail ∧
      s.closeAll.connections = s.connections := by
    intro s
    unfold TCPClient.closeAll
    split <;> exact ⟨rfl, rfl, rfl⟩
  have hinit : ∀ {s₁ : TCPClient} {a t m : Int} {ok : Bool}, TCPClient.Inited s a t m s₁ ok →
      s₁.packetHead = s.packetHead ∧ s₁.packetTail = s.packetTail ∧ s₁.connections = s.connections := by
    intro s₁ a t m ok hi
    cases hi <;> exact ⟨rfl, rfl, rfl⟩
  cases h with
  | called hc =>
    obtain ⟨hhead, htail, hconns⟩ := hclose s
    exact ⟨⟨hhead, htail⟩, .inl hconns⟩
  | closing hl hu =>
    obtain ⟨hhead, htail, hconns⟩ := hclose { s with asyncPending := false }
    exact ⟨⟨hhead, htail⟩, .inl hconns⟩
  | refused hc hpc hi =>
    obtain ⟨hhead, htail, hconns⟩ := hinit hi
    exact ⟨⟨hhead, htail⟩, .inl hconns⟩
  | unthreaded hc hpc hi hip hreq ho =>
    obtain ⟨hhead, htail, hconns⟩ := hinit hi
    exact ⟨⟨hhead, htail⟩, .inl hconns⟩
  | issued hc hpc hi hip hreq ho =>
    obtain ⟨hhead, htail, hconns⟩ := hinit hi
    exact ⟨⟨hhead, htail⟩, .inl hconns⟩
  | waited hc =>
    unfold TCPClient.wait
    split
    · exact ⟨⟨rfl, rfl⟩, .inl rfl⟩
    · exact ⟨⟨rfl, rfl⟩, .inl rfl⟩
    · split <;> exact ⟨⟨rfl, rfl⟩, .inl rfl⟩
    · exact ⟨⟨rfl, rfl⟩, .inl rfl⟩
  | readFailed hl hreq ho hrd hs₁ =>
    subst hs₁
    split <;> exact ⟨⟨rfl, rfl⟩, .inl rfl⟩
  | connected hl hreq ho hs₁ =>
    subst hs₁
    split <;> exact ⟨⟨rfl, rfl⟩, .inr (.inl ⟨rfl, rfl⟩)⟩
  | @received chunk r hl ho hlen hr => exact ⟨⟨rfl, rfl⟩, .inr (.inr ⟨chunk, r.calls, rfl, rfl⟩)⟩
  | idle => exact ⟨⟨rfl, rfl⟩, .inl rfl⟩
  | closeCalled => exact ⟨⟨rfl, rfl⟩, .inl rfl⟩
  | signalled pending => exact ⟨⟨rfl, rfl⟩, .inl rfl⟩
  | connectFailed hl hreq hst hcon => exact ⟨⟨rfl, rfl⟩, .inl rfl⟩
  | reconnectFailed hl hreq hst hcon => exact ⟨⟨rfl, rfl⟩, .inl rfl⟩
  | disconnected hl ho => exact ⟨⟨rfl, rfl⟩, .inl rfl⟩
  | retried hl hcon hraw => exact ⟨⟨rfl, rfl⟩, .inl rfl⟩
  | dropped hl hcon hraw => exact ⟨⟨rfl, rfl⟩, .inl rfl⟩
  | reissued hl hcon hraw hreq => exact ⟨⟨rfl, rfl⟩, .inl rfl⟩
  | tcpGone hl hreq hh => exact ⟨⟨rfl, rfl⟩, .inl rfl⟩
  | rearmed hl hreq hcon hh => exact ⟨⟨rfl, rfl⟩, .inl rfl⟩
  | timerDropped hl hreq hcon hh => exact ⟨⟨rfl, rfl⟩, .inl rfl⟩
  | asyncGone hl => exact ⟨⟨rfl, rfl⟩, .inl rfl⟩
  | timerGone hl => exact ⟨⟨rfl, rfl⟩, .inl rfl⟩
  | stopped hl ha => exact ⟨⟨rfl, rfl⟩, .inl rfl⟩

variable {t t' : TCPServer} {e' : ServerEvent} {k : Nat}

theorem framesOf_eq (h : t'.objs[k]?.map Session.frames = t.objs[k]?.map Session.frames) : t'.framesOf k = t.framesOf k := by
  unfold TCPServer.framesOf
  cases ho : t.objs[k]? <;> cases ho' : t'.objs[k]? <;> simp_all

theorem framesOf_set {o o' : Session} (ho : t.objs[k]? = some o) (hobjs : t'.objs = t.objs.set k o') (hframes : o'.frames = o.frames)
    (j : Nat) : t'.framesOf j = t.framesOf j := by
  apply framesOf_eq
  rw [hobjs]
  by_cases hj : k = j
  · subst hj
    rw [List.getElem?_set_self (List.getElem?_eq_some_iff.1 ho).1, ho, Option.map_some, Option.map_some, hframes]
  · rw [List.getElem?_set_ne hj]

/-- **What a callback does** to the frames of the sessions: `OnRecv` adds to those of the session of
its context. -/
theorem framesOf_change (h : Change env t e' t') :
    (∀ j, t'.framesOf j = t.framesOf j) ∨
      ∃ id chunk calls c k, e' = .recv id chunk ∧ t.ctxs.cells[id]? = some c ∧ c.parentSession = some k ∧
        t'.framesOf k = t.framesOf k ++ calls ∧ ∀ j, j ≠ k → t'.framesOf j = t.framesOf j := by
  have hsame : ∀ t' : TCPServer, t'.objs = t.objs → ∀ j, t'.framesOf j = t.framesOf j := by
    intro t' hobjs j
    rw [TCPServer.framesOf, hobjs]
    rfl
  cases h with
  | flags hf => exact .inl (hsame _ hf.objs)
  | @received id c chunk r hc hh hlen hr =>
    cases hk : c.parentSession with
    | none =>
      left
      apply hsame
      simp only [TCPServer.record, hk, TCPServer.setCtx]
    | some k =>
      cases ho : t.objs[k]? with
      | none =>
        left
        apply hsame
        simp only [TCPServer.record, hk, TCPServer.setCtx, ho]
      | some o =>
        refine .inr ⟨id, chunk, r.calls, c, k, rfl, hc, hk, ?_, fun j hj => ?_⟩
        · simp [TCPServer.framesOf, TCPServer.record, hk, TCPServer.setCtx, TCPServer.setObj, (List.getElem?_eq_some_iff.1 ho).1]
        · simp [TCPServer.framesOf, TCPServer.record, hk, TCPServer.setCtx, TCPServer.setObj, ho, Ne.symm hj]
  | @accepted id c hid hc hnew =>
    refine .inl fun j => ?_
    unfold TCPServer.framesOf
    rcases Nat.lt_trichotomy j t.objs.length with hlt | rfl | hgt
    · rw [List.getElem?_append_left hlt]
    · simp
    · rw [List.getElem?_eq_none (Nat.le_of_lt hgt), List.getElem?_eq_none (by simp; omega)]
  | sessionClosed hm hr hh => exact .inl (framesOf_set hr.obj rfl rfl)
  | closedAll he hhead htail havail hreleased hcells hobjs hsessions hsId hnotes => exact .inl (hsame _ hobjs)
  | initFailed hid hc => exact .inl (hsame _ rfl)
  | acceptFailed hid hc hlt hfail => exact .inl (hsame _ rfl)
  | readFailed hid hc => exact .inl (hsame _ rfl)
  | closing hm hr hh => exact .inl (hsame _ rfl)
  | forgotten hc hh => exact .inl (hsame _ rfl)
  | recycled hc hh => exact .inl (hsame _ rfl)
  | stopped hraw => exact .inl (hsame _ rfl)

end Effects

end Uvnet

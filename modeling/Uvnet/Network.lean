import Uvnet.ClientOrder
import Uvnet.FrameStream
import Uvnet.ServerIsolation

/- Any number of clients and one server, with TCP between them.

   Every client is a `ClientSend`, and the server a `TCPServer`. What `uv_write` took on a
   connection of a client is what the session that accepted this connection can read, in
   order and in chunks of any size; when the rest comes, if it does, is for the events to say
   (`read`). A connection is accepted once, at any time after it was begun.

   1. `received_change`: what a callback of the server does to what its sessions received.
   2. `Inv`: the clients' streams are in order (`Ordered`), the server's sessions in step with
      their bytes (`InStep`), and every session has received a front of what was sent to it.
      Every step that may be taken keeps this (`Inv.step`).

   That a connection meets a parser at rest, and that a client's stream goes on where it may,
   are conditions on the steps (`Orderly`). -/
namespace Uvnet
open CMachine StreamScan StepRun PayloadCut TCPServer

/-- A connection, by its client and by the number it has with the client. -/
structure Peer where
  client : Nat
  conn : Nat
  deriving DecidableEq

/-- `peers` has the connection behind each session of the server. -/
structure Network where
  server : TCPServer
  clients : List ClientSend
  peers : List Peer

inductive NetEvent where
  /-- A step of the `i`th client. -/
  | client (i : Nat) (e : ClientEvent)
  /-- `OnConnection` for a connection, and what the libuv calls in it return. -/
  | accept (peer : Peer) (tcpInit accept readStart : Int)
  /-- `OnRecv` for the connection of `ctx`, with at most `n` bytes. -/
  | read (ctx : Nat) (n : Nat)
  /-- Any other step of the server. -/
  | server (e : ServerEvent)

/-- The event brings neither a connection nor bytes. -/
def ServerEvent.isLocal : ServerEvent → Bool
  | .onConnection .. | .recv .. => false
  | _ => true

/-- What each session has received. -/
def TCPServer.receivedBy (s : TCPServer) : List (List UInt8) := s.objs.map fun o => o.received.flatten

namespace Network

def start (packHead packTail : UInt8) (fresh : Nat → UInt8) (n : Nat) : Network where
  server := .start packHead packTail
  clients := List.replicate n (.start fresh)
  peers := []

/-- What `uv_write` took on a connection. -/
def sent (s : Network) (p : Peer) : List UInt8 :=
  match s.clients[p.client]? with
  | some c => c.stream Submission.taken p.conn
  | none => []

/-- Whether a connection was begun, and waits to be accepted. -/
def offers (s : Network) (p : Peer) : Bool :=
  match s.clients[p.client]? with
  | some c => decide (p.conn ≤ c.conn ∧ p ∉ s.peers)
  | none => false

/-- What the session `k` can still read. -/
def inFlight (s : Network) (k : Nat) : List UInt8 :=
  match s.peers[k]?, s.server.receivedBy[k]? with
  | some p, some received => (s.sent p).drop received.length
  | _, _ => []

/-- The session the connection of a context belongs to. -/
def reader (s : Network) (id : Nat) : Option Nat := s.server.ctxs.cells[id]?.bind SessionCtx.parentSession

def step (env : Env) (fresh : Nat → UInt8) (s : Network) : NetEvent → C Network
  | .client i e =>
    match s.clients[i]? with
    | none => return s
    | some c => do
      let c ← c.step fresh e
      return { s with clients := s.clients.set i c }
  | .accept p tcpInit accept readStart =>
    if s.offers p then do
      let server ← s.server.step env (.onConnection 0 tcpInit accept readStart)
      return { s with
        server := server
        peers := if s.server.objs.length < server.objs.length then s.peers ++ [p] else s.peers }
    else return s
  | .read id n =>
    match s.reader id with
    | none => return s
    | some k => do
      let server ← s.server.step env (.recv id ((s.inFlight k).take (min n bufferSize)))
      return { s with server := server }
  | .server e =>
    if e.isLocal then do
      let server ← s.server.step env e
      return { s with server := server }
    else return s

/-- The session of a connection. -/
def session (s : Network) (p : Peer) : Option Session := (s.peers.zip s.server.objs).lookup p

/-- The frames `GetPacket` was given from a connection. -/
def frames (s : Network) (p : Peer) : List FullPacket := (s.session p).elim [] Session.frames

/-- What a run may do: a client sends packets one after another, and goes on submitting where
the stream of its connection may; a connection meets a parser at rest. -/
def Orderly (env : Env) (head tail : UInt8) (s : Network) : NetEvent → Prop
  | .client i e =>
    (∀ data, e = .send data → ∃ o : Outgoing env head tail, data = some o.bytes) ∧
      ∀ c, s.clients[i]? = some c → c.SingleThread e ∧ c.GoesOn Submission.taken e
  | .accept _ tcpInit accept readStart => s.server.AcceptsAtRest (.onConnection 0 tcpInit accept readStart)
  | _ => True

end Network

/-! What the callbacks do to what was received. -/

section Received
variable {env : Env} {head tail : UInt8} {s s' : TCPServer} {e : ServerEvent} {id k : Nat} {c : SessionCtx}

theorem receivedBy_length (s : TCPServer) : s.receivedBy.length = s.objs.length := List.length_map ..

theorem receivedBy_set {o o' : Session} (ho : s.objs[k]? = some o) (hsame : o'.received = o.received) :
    (s.objs.set k o').map (fun o => o.received.flatten) = s.receivedBy := by
  obtain ⟨hlt, rfl⟩ := List.getElem?_eq_some_iff.1 ho
  have hlt' : k < s.receivedBy.length := by rwa [receivedBy_length]
  calc (s.objs.set k o').map (fun o => o.received.flatten)
      = s.receivedBy.set k o'.received.flatten := List.map_set
    _ = s.receivedBy.set k s.receivedBy[k] := by simp only [hsame, TCPServer.receivedBy, List.getElem_map]
    _ = s.receivedBy := List.set_getElem_self hlt'

/-- **What a callback does** to what was received: a new session has received nothing, and
`OnRecv` adds its chunk to the session of its context. -/
theorem received_change (h : Change env s e s') :
    s'.receivedBy = s.receivedBy ∨
      ((∃ tcpInit accept readStart, e = .onConnection 0 tcpInit accept readStart) ∧ s'.receivedBy = s.receivedBy ++ [[]]) ∨
      ∃ id chunk c k o, e = .recv id chunk ∧ s.ctxs.cells[id]? = some c ∧ c.parentSession = some k ∧
        s.objs[k]? = some o ∧ s'.receivedBy = s.receivedBy.set k (o.received.flatten ++ chunk) := by
  cases h with
  | flags hf =>
    left
    rw [receivedBy, hf.objs]
    rfl
  | @received id c chunk r hc hh hlen hr =>
    cases hk : c.parentSession with
    | none =>
      left
      simp only [TCPServer.record, hk, receivedBy, TCPServer.setCtx]
    | some k =>
      cases ho : s.objs[k]? with
      | none =>
        left
        simp only [TCPServer.record, hk, receivedBy, TCPServer.setCtx, ho]
      | some o =>
        right
        right
        refine ⟨id, chunk, c, k, o, rfl, hc, hk, ho, ?_⟩
        simp only [TCPServer.record, hk, receivedBy, TCPServer.setCtx, ho, TCPServer.setObj, List.map_set,
          List.flatten_append, List.flatten_singleton]
  | accepted hid hc hnew =>
    right
    left
    refine ⟨⟨_, _, _, rfl⟩, ?_⟩
    simp only [receivedBy, List.map_append, List.map_cons, List.map_nil, List.flatten_nil]
  | sessionClosed hm hr hh =>
    left
    exact receivedBy_set hr.obj rfl
  | closedAll he hhead htail havail hreleased hcells hobjs hsessions hsId hnotes =>
    left
    rw [receivedBy, hobjs]
    rfl
  | initFailed hid hc => exact .inl rfl
  | acceptFailed hid hc hlt hfail => exact .inl rfl
  | readFailed hid hc => exact .inl rfl
  | closing hm hr hh => exact .inl rfl
  | forgotten hc hh => exact .inl rfl
  | recycled hc hh => exact .inl rfl
  | stopped hraw => exact .inl rfl

end Received

/-! What the steps of a client do to what was sent. -/

namespace ClientSend

theorem stream_grows {s s' : ClientSend} {subs : List Submission} (h : s'.submitted = s.submitted ++ subs)
    (ok : Submission → Bool) (k : Nat) : s.stream ok k <+: s'.stream ok k := by
  rw [ClientSend.stream, ClientSend.stream, h, List.filter_append, List.flatMap_append]
  exact List.prefix_append _ _

/-- A step begins at most one payload and makes at most one submission. -/
theorem step_grows {fresh : Nat → UInt8} {s s' : ClientSend} {l : SharedQueue.Line UInt8 bufferSize} (hinv : Inv s l)
    {e : ClientEvent} (hs : step fresh s e = .ok s') :
    (∃ subs, s'.submitted = s.submitted ++ subs) ∧
      (s'.payloads = s.payloads ∨ ∃ data, e = .send data ∧ s'.payloads = s.payloads ++ [(SendCall.enter data).data]) := by
  cases step_effect hinv hs with
  | enter data =>
    refine ⟨⟨[], (List.append_nil _).symm⟩, .inr ⟨data, rfl, ?_⟩⟩
    rw [payloads, List.map_append]
    rfl
  | call hi hs' =>
    obtain ⟨hsub, hpay⟩ := sendStep_frame hi hs'
    exact ⟨⟨[], hsub.trans (List.append_nil _).symm⟩, .inl hpay⟩
  | submit hpc hcalls hacc hclosed hsub => exact ⟨⟨_, hsub⟩, .inl (congrArg (List.map SendCall.data) hcalls)⟩
  | other hsame =>
    exact ⟨⟨[], hsame.submitted.trans (List.append_nil _).symm⟩, .inl (congrArg (List.map SendCall.data) hsame.calls)⟩

end ClientSend

theorem Outgoing.bytes_valid {env : Env} {head tail : UInt8} (o : Outgoing env head tail) :
    (ClientEvent.send (some o.bytes)).Valid ∧ (SendCall.enter (some o.bytes)).data = o.bytes := by
  constructor
  · have hlen : o.frame.packethead.len = o.payload.length := o.len_eq
    have hle := o.len_le
    have hhead : netPackageHeadlen = 34 := rfl
    show o.bytes.length < 2 ^ 64
    rw [o.bytes_length, hlen]
    omega
  · rfl

namespace Network

/-- Everything a run keeps. -/
structure Inv (env : Env) (head tail : UInt8) (s : Network) : Prop where
  registry : Registry s.server []
  inStep : InStep env head tail s.server
  ordered : ∀ c ∈ s.clients, ClientSend.Ordered Submission.taken c
  packets : ∀ c ∈ s.clients, ∃ ps : List (Outgoing env head tail), c.payloads = ps.map Outgoing.bytes
  length : s.peers.length = s.server.objs.length
  nodup : s.peers.Nodup
  known : ∀ p ∈ s.peers, ∃ c, s.clients[p.client]? = some c ∧ p.conn ≤ c.conn
  received : ∀ (k : Nat) (p : Peer) (r : List UInt8), s.peers[k]? = some p → s.server.receivedBy[k]? = some r → r <+: s.sent p

section Steps
variable {env : Env} {head tail : UInt8} {fresh : Nat → UInt8} {s s' : Network}

theorem Inv.client (fresh : Nat → UInt8) (h : Inv env head tail s) {i : Nat} {e : ClientEvent} (hgo : s.Orderly env head tail (.client i e))
    {c : ClientSend} (hc : s.clients[i]? = some c) :
    ∃ c', c.step fresh e = .ok c' ∧ Inv env head tail { s with clients := s.clients.set i c' } := by
  have hmem := List.mem_of_getElem? hc
  obtain ⟨hdata, hgo⟩ := hgo
  obtain ⟨hsingle, hgo⟩ := hgo c hc
  have hord := h.ordered c hmem
  obtain ⟨l, hinv⟩ := hord.framed.piped
  have hvalid : e.Valid := by
    cases e with
    | send data =>
      obtain ⟨o, rfl⟩ := hdata data rfl
      exact o.bytes_valid.1
    | _ => trivial
  obtain ⟨c', hs, -⟩ := ClientSend.step_refines fresh hinv hvalid
  obtain ⟨⟨subs, hsub⟩, hpay⟩ := ClientSend.step_grows hinv hs
  have hlt := (List.getElem?_eq_some_iff.1 hc).1
  have hself : (s.clients.set i c')[i]? = some c' := List.getElem?_set_self hlt
  refine ⟨c', hs, h.registry, h.inStep, ?_, ?_, h.length, h.nodup, ?_, ?_⟩
  · intro d hd
    rcases List.mem_or_eq_of_mem_set hd with hd | rfl
    · exact h.ordered d hd
    · exact hord.step hvalid hsingle hgo hs
  · intro d hd
    rcases List.mem_or_eq_of_mem_set hd with hd | rfl
    · exact h.packets d hd
    · obtain ⟨ps, hps⟩ := h.packets c hmem
      rcases hpay with hsame | ⟨data, rfl, hmore⟩
      · exact ⟨ps, hsame.trans hps⟩
      · obtain ⟨o, rfl⟩ := hdata data rfl
        refine ⟨ps ++ [o], ?_⟩
        rw [hmore, hps, o.bytes_valid.2, List.map_append]
        rfl
  · intro p hp
    obtain ⟨d, hd, hle⟩ := h.known p hp
    by_cases hi : i = p.client
    · subst hi
      obtain rfl := Option.some.inj (hc.symm.trans hd)
      exact ⟨c', hself, Nat.le_trans hle (ClientSend.step_conn hinv hs).1⟩
    · exact ⟨d, (List.getElem?_set_ne hi).trans hd, hle⟩
  · intro k p r hp hr
    refine (h.received k p r hp hr).trans ?_
    unfold sent
    by_cases hi : i = p.client
    · subst hi
      rw [hc, hself]
      exact ClientSend.stream_grows hsub _ _
    · rw [List.getElem?_set_ne hi]

theorem Inv.callback (h : Inv env head tail s) {e : ServerEvent} {server : TCPServer} {peers : List Peer}
    (hrest : s.server.AcceptsAtRest e) (hs : s.server.step env e = .ok server)
    (hpeers : peers.length = server.objs.length) (hnodup : peers.Nodup)
    (hknown : ∀ p ∈ peers, ∃ c, s.clients[p.client]? = some c ∧ p.conn ≤ c.conn)
    (hreceived : ∀ (k : Nat) (p : Peer) (r : List UInt8), peers[k]? = some p → server.receivedBy[k]? = some r → r <+: s.sent p) :
    Inv env head tail { s with server := server, peers := peers } where
  registry := h.registry.step hs
  inStep := h.inStep.change hrest (step_change h.registry hs)
  ordered := h.ordered
  packets := h.packets
  length := hpeers
  nodup := hnodup
  known := hknown
  received := hreceived

theorem Inv.accept (h : Inv env head tail s) {p : Peer} {tcpInit accept readStart : Int}
    (hgo : s.Orderly env head tail (.accept p tcpInit accept readStart)) (hoffer : s.offers p = true) {server : TCPServer}
    (hs : s.server.step env (.onConnection 0 tcpInit accept readStart) = .ok server) :
    Inv env head tail { s with
      server := server
      peers := if s.server.objs.length < server.objs.length then s.peers ++ [p] else s.peers } := by
  unfold offers at hoffer
  split at hoffer
  case h_2 => cases hoffer
  next c hc =>
  obtain ⟨hconn, hnew⟩ := of_decide_eq_true hoffer
  have hrest : s.server.AcceptsAtRest (.onConnection 0 tcpInit accept readStart) := hgo
  have hchange := received_change (step_change h.registry hs)
  have hcount : server.receivedBy = s.server.receivedBy ∨ server.receivedBy = s.server.receivedBy ++ [[]] := by
    rcases hchange with hsame | ⟨-, hmore⟩ | ⟨id, chunk, c, k, o, hrecv, -⟩
    · exact .inl hsame
    · exact .inr hmore
    · cases hrecv
  rcases hcount with hsame | hmore
  · have hobjs : server.objs.length = s.server.objs.length := by
      rw [← receivedBy_length, hsame, receivedBy_length]
    rw [if_neg (by omega)]
    refine h.callback hrest hs (h.length.trans hobjs.symm) h.nodup h.known ?_
    rw [hsame]
    exact h.received
  · have hobjs : server.objs.length = s.server.objs.length + 1 := by
      rw [← receivedBy_length, hmore, List.length_append, receivedBy_length]
      rfl
    rw [if_pos (by omega)]
    refine h.callback hrest hs ?_ ?_ ?_ ?_
    · rw [List.length_append, h.length, hobjs]
      rfl
    · exact List.nodup_append.2 ⟨h.nodup, List.nodup_singleton p, fun q hq q' hq' heq => by
        rw [List.mem_singleton.1 hq'] at heq
        exact hnew (heq ▸ hq)⟩
    · intro q hq
      rcases List.mem_append.1 hq with hq | hq
      · exact h.known q hq
      · rw [List.mem_singleton.1 hq]
        exact ⟨c, hc, hconn⟩
    · intro k q r hq hr
      rw [hmore] at hr
      have hlens : s.peers.length = s.server.receivedBy.length := by rw [receivedBy_length, h.length]
      rcases Nat.lt_or_ge k s.peers.length with hlt | hge
      · rw [List.getElem?_append_left hlt] at hq
        rw [List.getElem?_append_left (hlens ▸ hlt)] at hr
        exact h.received k q r hq hr
      · rw [List.getElem?_append_right (hlens ▸ hge)] at hr
        rw [List.mem_singleton.1 (List.mem_of_getElem? hr)]
        exact List.nil_prefix

theorem Inv.read (h : Inv env head tail s) {id k n : Nat} (hk : s.reader id = some k) {server : TCPServer}
    (hs : s.server.step env (.recv id ((s.inFlight k).take n)) = .ok server) :
    Inv env head tail { s with server := server } := by
  rcases received_change (step_change h.registry hs) with hsame | ⟨⟨_, _, _, hconn⟩, -⟩ |
    ⟨id', chunk, c, k', o, hrecv, hc, hk', ho, hset⟩
  · refine h.callback (e := .recv id _) trivial hs ?_ h.nodup h.known ?_
    · rw [h.length, ← receivedBy_length, ← hsame, receivedBy_length]
    · rw [hsame]
      exact h.received
  · cases hconn
  · cases hrecv
    obtain rfl : k = k' := by
      rw [reader, hc, Option.bind_some, hk'] at hk
      exact (Option.some.inj hk).symm
    refine h.callback (e := .recv id _) trivial hs ?_ h.nodup h.known ?_
    · rw [h.length, ← receivedBy_length, ← receivedBy_length, hset, List.length_set]
    · intro j p r hp hr
      rw [hset] at hr
      by_cases hj : k = j
      · subst hj
        have hold : s.server.receivedBy[k]? = some o.received.flatten := by
          rw [TCPServer.receivedBy, List.getElem?_map, ho]
          rfl
        obtain ⟨rest, hrest⟩ := h.received k p _ hp hold
        rw [List.getElem?_set_self (List.getElem?_eq_some_iff.1 hold).1] at hr
        obtain rfl := Option.some.inj hr
        have hflight : s.inFlight k = rest := by
          unfold inFlight
          simp only [hp, hold, ← hrest, List.drop_left]
        rw [hflight, ← hrest]
        exact (List.prefix_append_right_inj _).2 (List.take_prefix _ _)
      · rw [List.getElem?_set_ne hj] at hr
        exact h.received j p r hp hr

theorem Inv.local (h : Inv env head tail s) {e : ServerEvent} (hlocal : e.isLocal = true) {server : TCPServer}
    (hs : s.server.step env e = .ok server) : Inv env head tail { s with server := server } := by
  have hrest : s.server.AcceptsAtRest e := by
    cases e with
    | onConnection => cases hlocal
    | _ => trivial
  have hsame : server.receivedBy = s.server.receivedBy := by
    rcases received_change (step_change h.registry hs) with hsame | ⟨⟨_, _, _, rfl⟩, -⟩ | ⟨_, _, _, _, _, rfl, -⟩
    · exact hsame
    · cases hlocal
    · cases hlocal
  refine h.callback hrest hs ?_ h.nodup h.known ?_
  · rw [h.length, ← receivedBy_length, ← hsame, receivedBy_length]
  · rw [hsame]
    exact h.received

/-- **Every step** that may be taken. -/
theorem Inv.step (h : Inv env head tail s) {e : NetEvent} (hgo : s.Orderly env head tail e)
    (hs : step env fresh s e = .ok s') : Inv env head tail s' := by
  cases e with
  | client i e =>
    simp only [Network.step] at hs
    cases hc : s.clients[i]? with
    | none =>
      rw [hc] at hs
      cases hs
      exact h
    | some c =>
      obtain ⟨c', hs', h'⟩ := h.client fresh hgo hc
      rw [hc] at hs
      simp only [hs', ok_bind] at hs
      cases hs
      exact h'
  | accept p tcpInit accept readStart =>
    simp only [Network.step] at hs
    split at hs
    · next hoffer =>
      obtain ⟨server, hs', hs⟩ := bind_eq_ok.1 hs
      cases hs
      exact h.accept hgo hoffer hs'
    · cases hs
      exact h
  | read id n =>
    simp only [Network.step] at hs
    cases hk : s.reader id with
    | none =>
      rw [hk] at hs
      cases hs
      exact h
    | some k =>
      rw [hk] at hs
      obtain ⟨server, hs', hs⟩ := bind_eq_ok.1 hs
      cases hs
      exact h.read hk hs'
  | server e =>
    simp only [Network.step] at hs
    split at hs
    · next hlocal =>
      obtain ⟨server, hs', hs⟩ := bind_eq_ok.1 hs
      cases hs
      exact h.local hlocal hs'
    · cases hs
      exact h

theorem start_inv (env : Env) (head tail : UInt8) (fresh : Nat → UInt8) (n : Nat) : Inv env head tail (start head tail fresh n) where
  registry := start_registry head tail
  inStep := start_inStep env head tail
  ordered := by
    intro c hc
    rw [List.eq_of_mem_replicate hc]
    exact ClientSend.start_ordered _ fresh
  packets := by
    intro c hc
    rw [List.eq_of_mem_replicate hc]
    exact ⟨[], rfl⟩
  length := rfl
  nodup := List.nodup_nil
  known := by simp [start]
  received := by simp [start]

end Steps

end Network

end Uvnet

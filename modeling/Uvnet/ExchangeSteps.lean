import Uvnet.Exchange

/- What every step of an exchange keeps.

   The network keeps its invariant, and so do the threads that send; everything that is sent to
   a client is whole packets; the receive side of every client is in step with its bytes; no two
   connections of a client are one; and every connection of a client has received a front of
   what was routed to the session behind it, or nothing where it has not been accepted (`Fed`). -/
namespace Uvnet
open CMachine ObjectPool StreamScan StepRun PayloadCut TCPServer

namespace Exchange

/-- What a connection has received is a front of what was routed to its session. -/
def Fed (s : Exchange) (p : Peer) (received : List UInt8) : Prop :=
  (∃ k : Nat, s.peers[k]? = some p ∧ received <+: (s.routedTo k).flatten) ∨ (p ∉ s.peers ∧ received = [])

/-- A packet of the protocol. -/
def IsPacket (env : Env) (head tail : UInt8) (data : List UInt8) : Prop := ∃ o : Outgoing env head tail, data = o.bytes

/-- The handlers answer with packets. -/
def Answers (env : Env) (head tail : UInt8) (handler : Frame → List (List UInt8)) : Prop :=
  ∀ f, ∀ data ∈ handler f, IsPacket env head tail data

/-- Everything a run keeps. -/
structure Inv (env : Env) (head tail : UInt8) (s : Exchange) : Prop where
  net : Network.Inv env head tail s.net
  casts : s.out.Casts
  calls : ∀ c ∈ s.out.send.calls, IsPacket env head tail c.data
  broadcasts : ∀ x ∈ s.out.broadcasts, IsPacket env head tail x.data
  rest : ∀ h, s.handling = some h → ∀ data ∈ h.rest, IsPacket env head tail data
  routed : s.routed.map Prod.snd = s.out.taken
  inStep : ∀ r ∈ s.receivers, r.client.InStep env ∧ r.client.packetHead = head ∧ r.client.packetTail = tail
  downs : ∀ r ∈ s.receivers, r.downs.length = r.client.connections.length ∧ r.downs.Nodup
  fed : ∀ (i : Nat) (r : Receiver) (m : Nat) (c : Connection) (n : Nat), s.receivers[i]? = some r →
    r.client.connections[m]? = some c → r.downs[m]? = some n → s.Fed ⟨i, n⟩ c.received.flatten

section Parts
variable {env : Env} {head tail : UInt8} {fresh : Nat → UInt8} {s s' : Exchange} {p : Peer} {received : List UInt8}

theorem lift_eq_ok {α : Type} {x : C α} {a : α} : lift x = .ok a ↔ x = .ok a := by
  cases x <;> simp [lift, Except.mapError]

theorem IsPacket.short {data : List UInt8} (h : IsPacket env head tail data) : data.length < 2 ^ 31 := by
  obtain ⟨o, rfl⟩ := h
  have hlen : o.frame.packethead.len = o.payload.length := o.len_eq
  have hle := o.len_le
  have hhead : netPackageHeadlen = 34 := rfl
  rw [o.bytes_length, hlen]
  omega

theorem IsPacket.ne_nil {data : List UInt8} (h : IsPacket env head tail data) : data ≠ [] := by
  obtain ⟨o, rfl⟩ := h
  intro hnil
  have hlen := o.bytes_length
  rw [hnil] at hlen
  simp at hlen

/-! What the steps of the parts do. -/

theorem network_server {n n' : Network} {e : NetEvent} (hs : n.step env fresh e = .ok n') :
    n'.server = n.server ∨ ∃ e' : ServerEvent, n.server.step env e' = .ok n'.server ∧
      (n.server.locksSessions e' = true → n.locksSessions e = true) ∧ ∀ id chunk, e' = .recv id chunk → ∃ m, e = .read id m := by
  cases e with
  | client i e =>
    simp only [Network.step] at hs
    split at hs
    · cases hs
      exact .inl rfl
    · obtain ⟨c, -, hs⟩ := bind_eq_ok.1 hs
      cases hs
      exact .inl rfl
  | accept q tcpInit accept readStart =>
    simp only [Network.step] at hs
    split at hs
    · obtain ⟨server, hserver, hs⟩ := bind_eq_ok.1 hs
      cases hs
      exact .inr ⟨_, hserver, id, by simp⟩
    · cases hs
      exact .inl rfl
  | read id n =>
    simp only [Network.step] at hs
    split at hs
    · cases hs
      exact .inl rfl
    · obtain ⟨server, hserver, hs⟩ := bind_eq_ok.1 hs
      cases hs
      exact .inr ⟨_, hserver, by simp [TCPServer.locksSessions], by simp⟩
  | server e =>
    simp only [Network.step] at hs
    split at hs
    · next hlocal =>
      obtain ⟨server, hserver, hs⟩ := bind_eq_ok.1 hs
      cases hs
      refine .inr ⟨e, hserver, id, ?_⟩
      rintro id chunk rfl
      cases hlocal
    · cases hs
      exact .inl rfl

theorem network_peers {n n' : Network} {e : NetEvent} (hs : n.step env fresh e = .ok n') :
    n'.peers = n.peers ∨ ∃ q, n'.peers = n.peers ++ [q] := by
  cases e with
  | client i e =>
    simp only [Network.step] at hs
    split at hs
    · cases hs
      exact .inl rfl
    · obtain ⟨c, -, hs⟩ := bind_eq_ok.1 hs
      cases hs
      exact .inl rfl
  | accept q tcpInit accept readStart =>
    simp only [Network.step] at hs
    split at hs
    · obtain ⟨server, -, hs⟩ := bind_eq_ok.1 hs
      cases hs
      simp only
      split
      · exact .inr ⟨q, rfl⟩
      · exact .inl rfl
    · cases hs
      exact .inl rfl
  | read id n =>
    simp only [Network.step] at hs
    split at hs
    · cases hs
      exact .inl rfl
    · obtain ⟨server, -, hs⟩ := bind_eq_ok.1 hs
      cases hs
      exact .inl rfl
  | server e =>
    simp only [Network.step] at hs
    split at hs
    · obtain ⟨server, -, hs⟩ := bind_eq_ok.1 hs
      cases hs
      exact .inl rfl
    · cases hs
      exact .inl rfl

/-- **What the threads that send do** to the rest: the data of a call is the data given to `_send`
or `_broadcast`. -/
theorem out_data {o o' : ServerOut} (h : o.Inv) {e : OutEvent} (he : ∀ e', e ≠ .server e') (hs : o.step env fresh e = .ok o') :
    o'.server = o.server ∧
      (∀ c ∈ o'.send.calls, (∃ c₀ ∈ o.send.calls, c.data = c₀.data) ∨ (∃ ctx, e = .send ctx c.data) ∨
        ∃ x ∈ o.broadcasts, c.data = x.data) ∧
      ∀ x ∈ o'.broadcasts, (∃ x₀ ∈ o.broadcasts, x.data = x₀.data) ∨ ∃ excludeIds, e = .broadcast x.data excludeIds := by
  have hold : ∀ c ∈ o.send.calls, ∃ c₀ ∈ o.send.calls, c.data = c₀.data := fun c hc => ⟨c, hc, rfl⟩
  have hkept : ∀ x ∈ o.broadcasts, ∃ x₀ ∈ o.broadcasts, x.data = x₀.data := fun x hx => ⟨x, hx, rfl⟩
  cases e with
  | server e => exact (he e rfl).elim
  | send ctx data =>
    cases hs
    refine ⟨rfl, fun c hc => ?_, fun x hx => .inl (hkept x hx)⟩
    rcases List.mem_append.1 hc with hc | hc
    · exact .inl (hold c hc)
    · rw [List.mem_singleton.1 hc]
      exact .inr (.inl ⟨ctx, rfl⟩)
  | call i iret =>
    obtain ⟨send, hsend, hs⟩ := bind_eq_ok.1 hs
    cases hs
    refine ⟨rfl, fun c hc => .inl ?_, fun x hx => .inl (hkept x hx)⟩
    simp only [ServerSend.step] at hsend
    cases hi : o.send.calls[i]? with
    | none =>
      rw [hi] at hsend
      cases hsend
      exact hold c hc
    | some c₁ =>
      rw [hi] at hsend
      have hset : ∀ {pc : ServerSendPc}, send.calls = o.send.calls.set i ⟨c₁.data, pc⟩ → ∃ c₀ ∈ o.send.calls, c.data = c₀.data := by
        intro pc hcalls
        have hmem : c ∈ o.send.calls.set i ⟨c₁.data, pc⟩ := hcalls ▸ hc
        rcases List.mem_or_eq_of_mem_set hmem with hmem | rfl
        · exact hold c hmem
        · exact ⟨c₁, List.mem_of_getElem? hi, rfl⟩
      cases h.send.moved hi hsend with
      | on hrun hpc hcalls hwrites => exact hset hcalls
      | taken hpc hcalls hwrites => exact hset hcalls
      | returned hpc => exact hold c hc
  | onSend k =>
    obtain ⟨send, hsend, hs⟩ := bind_eq_ok.1 hs
    cases hs
    have hcalls : send.calls = o.send.calls := by
      simp only [ServerSend.step] at hsend
      split at hsend
      · cases hsend
        rfl
      · cases hsend
        rfl
    exact ⟨rfl, fun c hc => .inl (hold c (hcalls ▸ hc)), fun x hx => .inl (hkept x hx)⟩
  | broadcast data excludeIds =>
    cases hs
    refine ⟨rfl, fun c hc => .inl (hold c hc), fun x hx => ?_⟩
    rcases List.mem_append.1 hx with hx | hx
    · exact .inl (hkept x hx)
    · rw [List.mem_singleton.1 hx]
      exact .inr ⟨excludeIds, rfl⟩
  | broadcastStep b =>
    simp only [ServerOut.step] at hs
    cases hb : o.broadcasts[b]? with
    | none =>
      rw [hb] at hs
      cases hs
      exact ⟨rfl, fun c hc => .inl (hold c hc), fun x hx => .inl (hkept x hx)⟩
    | some y =>
      rw [hb] at hs
      have hy := List.mem_of_getElem? hb
      have hset : ∀ {y' : Broadcast}, ∀ x ∈ o.broadcasts.set b y', y'.data = y.data → ∃ x₀ ∈ o.broadcasts, x.data = x₀.data := by
        intro y' x hx hdata
        rcases List.mem_or_eq_of_mem_set hx with hx | rfl
        · exact hkept x hx
        · exact ⟨y, hy, hdata⟩
      cases ServerOut.broadcastStep_cases hs with
      | waits => exact ⟨rfl, fun c hc => .inl (hold c hc), fun x hx => .inl (hkept x hx)⟩
      | locked hpc hfree => exact ⟨rfl, fun c hc => .inl (hold c hc), fun x hx => .inl (hset x hx rfl)⟩
      | skipped hpc hmem => exact ⟨rfl, fun c hc => .inl (hold c hc), fun x hx => .inl (hset x hx rfl)⟩
      | sends hpc hmem ho =>
        refine ⟨rfl, fun c hc => ?_, fun x hx => .inl (hset x hx rfl)⟩
        rcases List.mem_append.1 hc with hc | hc
        · exact .inl (hold c hc)
        · rw [List.mem_singleton.1 hc]
          exact .inr (.inr ⟨y, hy, rfl⟩)
      | returned hpc hc hr => exact ⟨rfl, fun c hc => .inl (hold c hc), fun x hx => .inl (hset x hx rfl)⟩
      | unlocked hpc => exact ⟨rfl, fun c hc => .inl (hold c hc), fun x hx => .inl (hset x hx rfl)⟩

/-! The steps of an exchange. -/

theorem routedTo_grows (h : ∃ more, s'.routed = s.routed ++ more) (k : Nat) : (s.routedTo k).flatten <+: (s'.routedTo k).flatten := by
  obtain ⟨more, hmore⟩ := h
  unfold routedTo
  rw [hmore, List.filter_append, List.map_append, List.flatten_append]
  exact List.prefix_append _ _

theorem Fed.grow (h : s.Fed p received) (hpeers : s'.peers = s.peers ∨ ∃ q, s'.peers = s.peers ++ [q])
    (hrouted : ∃ more, s'.routed = s.routed ++ more) : s'.Fed p received := by
  rcases h with ⟨k, hk, hpre⟩ | ⟨hnew, rfl⟩
  · refine .inl ⟨k, ?_, hpre.trans (routedTo_grows hrouted k)⟩
    rcases hpeers with hpeers | ⟨q, hpeers⟩
    · rw [hpeers]
      exact hk
    · rw [hpeers, List.getElem?_append_left (List.getElem?_eq_some_iff.1 hk).1]
      exact hk
  · rcases hpeers with hpeers | ⟨q, hpeers⟩
    · exact .inr ⟨hpeers ▸ hnew, rfl⟩
    · by_cases hq : p = q
      · refine .inl ⟨s.peers.length, ?_, List.nil_prefix⟩
        rw [hpeers, hq]
        exact List.getElem?_concat_length
      · refine .inr ⟨?_, rfl⟩
        rw [hpeers]
        simp [hnew, hq]

/-- **A step of the network.** -/
theorem Inv.withNet (h : Inv env head tail s) {e : NetEvent} (hgo : s.net.Orderly env head tail e)
    (hfree : ¬(s.net.locksSessions e && s.out.locked) = true) {n : Network} (hs : s.net.step env fresh e = .ok n) :
    Inv env head tail (s.withNet n) where
  net := h.net.step hgo hs
  casts := by
    rcases network_server hs with hsame | ⟨e', hserver, hlocks, -⟩
    · have hout : (s.withNet n).out = s.out := by
        show { s.out with server := n.server } = s.out
        rw [hsame]
        rfl
      rw [hout]
      exact h.casts
    · refine h.casts.callback (e := e') ?_ hserver
      intro hblocked
      rw [Bool.and_eq_true] at hblocked hfree
      exact hfree ⟨hlocks hblocked.1, hblocked.2⟩
  calls := h.calls
  broadcasts := h.broadcasts
  rest := h.rest
  routed := h.routed
  inStep := h.inStep
  downs := h.downs
  fed i r m c k hr hc hn := (h.fed i r m c k hr hc hn).grow (network_peers hs) ⟨[], (List.append_nil _).symm⟩

theorem Inv.handle (h : Inv env head tail s) {handler : Frame → List (List UInt8)} (hans : Answers env head tail handler)
    (before : TCPServer) (id k : Nat) : Inv env head tail (s.handle handler before id k) where
  net := h.net
  casts := h.casts
  calls := h.calls
  broadcasts := h.broadcasts
  rest := by
    rintro h' rfl' data hdata
    cases rfl'
    obtain ⟨f, -, hf⟩ := List.mem_flatMap.1 hdata
    exact hans f data hf
  routed := h.routed
  inStep := h.inStep
  downs := h.downs
  fed := h.fed

theorem Inv.netStep (h : Inv env head tail s) {handler : Frame → List (List UInt8)} (hans : Answers env head tail handler)
    {e : NetEvent} (hgo : s.net.Orderly env head tail e) (hs : s.netStep env fresh handler e = .ok s') : Inv env head tail s' := by
  unfold Exchange.netStep at hs
  split at hs
  · cases hs
    exact h
  next hfree =>
  rw [Bool.or_eq_true, not_or] at hfree
  obtain ⟨n, hn, hs⟩ := bind_eq_ok.1 hs
  have h' := h.withNet hgo hfree.2 (lift_eq_ok.1 hn)
  split at hs
  · split at hs
    · cases hs
      exact h'
    · cases hs
      exact h'.handle hans _ _ _
  · cases hs
    exact h'

/-- **A step of a thread that sends.** -/
theorem Inv.sendStep (h : Inv env head tail s) {e : OutEvent} (hserver : ∀ e', e ≠ .server e')
    (hgo : s.Orderly env head tail (.out e)) (hs : s.sendStep env fresh e = .ok s') : Inv env head tail s' := by
  obtain ⟨out, hout, hs⟩ := bind_eq_ok.1 hs
  rw [lift_eq_ok] at hout
  cases hs
  have hvalid : e.Valid := by
    cases e with
    | send ctx data => exact IsPacket.short hgo
    | broadcast data excludeIds => exact IsPacket.short hgo
    | _ => trivial
  obtain ⟨hsame, hcalls, hbroadcasts⟩ := out_data h.casts.out hserver hout
  obtain ⟨more, hmore⟩ := (h.casts.out.step hvalid hout).2.taken
  have hnet : (⟨out.server, s.clients, s.peers⟩ : Network) = s.net := by
    rw [hsame]
    rfl
  refine ⟨?_, (h.casts.step hvalid hout).1, fun c hc => ?_, fun x hx => ?_, h.rest, ?_, h.inStep, h.downs, ?_⟩
  · show Network.Inv env head tail ⟨out.server, s.clients, s.peers⟩
    rw [hnet]
    exact h.net
  · rcases hcalls c hc with ⟨c₀, hc₀, hdata⟩ | ⟨ctx, rfl⟩ | ⟨x, hx, hdata⟩
    · rw [hdata]
      exact h.calls c₀ hc₀
    · exact hgo
    · rw [hdata]
      exact h.broadcasts x hx
  · rcases hbroadcasts x hx with ⟨x₀, hx₀, hdata⟩ | ⟨excludeIds, rfl⟩
    · rw [hdata]
      exact h.broadcasts x₀ hx₀
    · exact hgo
  · show (s.routed ++ (out.taken.drop s.out.taken.length).map fun w => (s.route w.call, w)).map Prod.snd = out.taken
    rw [List.map_append, h.routed, hmore, List.drop_left, List.map_map]
    exact congrArg (s.out.taken ++ ·) (List.map_id more)
  · intro i r m c n hr hc hn
    exact (h.fed i r m c n hr hc hn).grow (.inl rfl) ⟨_, rfl⟩

theorem Inv.outStep (h : Inv env head tail s) {e : OutEvent} (hgo : s.Orderly env head tail (.out e))
    (hs : s.outStep env fresh e = .ok s') : Inv env head tail s' := by
  cases e with
  | server e =>
    cases hs
    exact h
  | onSend k =>
    simp only [Exchange.outStep] at hs
    split at hs
    · cases hs
      exact h
    · exact h.sendStep (by simp) hgo hs
  | send ctx data => exact h.sendStep (by simp) hgo hs
  | call i iret => exact h.sendStep (by simp) hgo hs
  | broadcast data excludeIds => exact h.sendStep (by simp) hgo hs
  | broadcastStep b => exact h.sendStep (by simp) hgo hs

/-- **A step of the loop thread in the handlers.** -/
theorem Inv.replyStep (h : Inv env head tail s) : Inv env head tail s.replyStep := by
  unfold Exchange.replyStep
  split
  · exact h
  next hd hh =>
  have hrest := h.rest hd hh
  have hmove : ∀ handling : Option Handling, (∀ h', handling = some h' → h'.rest = hd.rest) →
      Inv env head tail { s with handling := handling } := by
    intro handling hsame
    refine ⟨h.net, h.casts, h.calls, h.broadcasts, fun h' heq data hdata => hrest data ?_, h.routed, h.inStep, h.downs, h.fed⟩
    rw [← hsame h' heq]
    exact hdata
  split
  · split
    · exact hmove _ fun h' heq => by cases heq; rfl
    · exact h
  · split
    · exact hmove none fun h' heq => by cases heq
    next hcur data rest hcons =>
    have hdata : IsPacket env head tail data := hrest data (by simp [hcons])
    have hout := h.casts.out.beginSend hd.ctx hdata.short
    refine ⟨h.net, ?_, fun c hc => ?_, h.broadcasts, ?_, h.routed, h.inStep, h.downs, h.fed⟩
    · exact h.casts.frame hout (ServerOut.beginSend_grows _ _ _) rfl rfl
    · rcases List.mem_append.1 hc with hc | hc
      · exact h.calls c hc
      · rw [List.mem_singleton.1 hc]
        exact hdata
    · intro h' heq x hx
      cases heq
      refine hrest x ?_
      rw [hcons]
      exact List.mem_cons_of_mem _ hx

theorem Fed.arriving (h : s.Fed p received) (hnodup : s.peers.Nodup) {k : Nat} (hk : s.peers[k]? = some p) :
    received ++ (s.routedTo k).flatten.drop received.length = (s.routedTo k).flatten := by
  rcases h with ⟨k', hk', rest, hrest⟩ | ⟨hnew, -⟩
  · obtain ⟨hlt, hp⟩ := List.getElem?_eq_some_iff.1 hk
    obtain ⟨hlt', hp'⟩ := List.getElem?_eq_some_iff.1 hk'
    obtain rfl : k = k' := (List.Nodup.getElem_inj_iff hnodup).1 (hp.trans hp'.symm)
    rw [← hrest, List.drop_left]
  · exact (hnew (List.mem_of_getElem? hk)).elim

theorem Inv.setReceiver (h : Inv env head tail s) {i : Nat} {r r' : Receiver} (hr : s.receivers[i]? = some r)
    (hin : r'.client.InStep env ∧ r'.client.packetHead = head ∧ r'.client.packetTail = tail)
    (hdowns : r'.downs.length = r'.client.connections.length ∧ r'.downs.Nodup)
    (hfed : ∀ (m : Nat) (c : Connection) (n : Nat), r'.client.connections[m]? = some c → r'.downs[m]? = some n →
      s.Fed ⟨i, n⟩ c.received.flatten) : Inv env head tail { s with receivers := s.receivers.set i r' } where
  net := h.net
  casts := h.casts
  calls := h.calls
  broadcasts := h.broadcasts
  rest := h.rest
  routed := h.routed
  inStep q hq := by
    rcases List.mem_or_eq_of_mem_set hq with hq | rfl
    · exact h.inStep q hq
    · exact hin
  downs q hq := by
    rcases List.mem_or_eq_of_mem_set hq with hq | rfl
    · exact h.downs q hq
    · exact hdowns
  fed j q m c n hq hc hn := by
    show s.Fed ⟨j, n⟩ c.received.flatten
    by_cases hj : i = j
    · subst hj
      have hself : (s.receivers.set i r')[i]? = some r' := List.getElem?_set_self (List.getElem?_eq_some_iff.1 hr).1
      obtain rfl := Option.some.inj (hself.symm.trans hq)
      exact hfed m c n hc hn
    · exact h.fed j q m c n ((List.getElem?_set_ne hj).symm.trans hq) hc hn

/-- What the receive side of a client is in step with, it stays in step with. -/
theorem Inv.received_step (h : Inv env head tail s) {r : Receiver} (hr : r ∈ s.receivers) {e : TcpClientEvent} {client : TCPClient}
    (hrest : r.client.ConnectsAtRest e) (hs : r.client.step env e = .ok client) :
    client.InStep env ∧ client.packetHead = head ∧ client.packetTail = tail := by
  obtain ⟨hin, hhead, htail⟩ := h.inStep r hr
  have hstep := TCPClient.step_cases hs
  obtain ⟨⟨hhead', htail'⟩, -⟩ := hstep.connections
  exact ⟨hin.step hrest hstep, hhead'.trans hhead, htail'.trans htail⟩

/-- **A step of the receive side of a client**, which receives nothing. -/
theorem Inv.receiverStep (h : Inv env head tail s) {i : Nat} {e : TcpClientEvent} (hgo : s.Orderly env head tail (.receiver i e))
    (hs : s.receiverStep env i e = .ok s') : Inv env head tail s' := by
  unfold Exchange.receiverStep at hs
  split at hs
  case h_2 =>
    cases hs
    exact h
  next r c hr hc =>
  split at hs
  · cases hs
    exact h
  next hallowed =>
  obtain ⟨client, hclient, hs⟩ := bind_eq_ok.1 hs
  cases hs
  have hmem := List.mem_of_getElem? hr
  obtain ⟨hlen, hnodup⟩ := h.downs r hmem
  have hin := h.received_step hmem (hgo r hr) hclient
  obtain ⟨-, hsame | ⟨rfl, hmore⟩ | ⟨chunk, calls, rfl, -⟩⟩ := (TCPClient.step_cases hclient).connections
  · rw [if_neg (by rw [hsame]; exact Nat.lt_irrefl _)]
    refine h.setReceiver hr hin (by rw [hsame]; exact ⟨hlen, hnodup⟩) fun m d n hd hn => ?_
    rw [hsame] at hd
    exact h.fed i r m d n hr hd hn
  · -- A connection that is new has received nothing.
    rw [if_pos (by rw [hmore, List.length_append]; exact Nat.lt_succ_self _)]
    have hnew : c.conn ∉ r.downs := by simpa [refuses] using hallowed
    refine h.setReceiver hr hin ⟨?_, ?_⟩ fun m d n hd hn => ?_
    · simp [hmore, hlen]
    · simpa using hnodup.concat hnew
    · rw [hmore] at hd
      rcases Nat.lt_trichotomy m r.client.connections.length with hlt | rfl | hgt
      · rw [List.getElem?_append_left hlt] at hd
        rw [List.getElem?_append_left (hlen ▸ hlt)] at hn
        exact h.fed i r m d n hr hd hn
      · rw [List.getElem?_concat_length] at hd
        obtain rfl := Option.some.inj hd
        by_cases hp : (⟨i, n⟩ : Peer) ∈ s.peers
        · obtain ⟨k, hk⟩ := List.mem_iff_getElem?.1 hp
          exact .inl ⟨k, hk, List.nil_prefix⟩
        · exact .inr ⟨hp, rfl⟩
      · rw [List.getElem?_eq_none (by simp; omega)] at hd
        cases hd
  · exact (hallowed rfl).elim

/-- **A client reads.** -/
theorem Inv.response (h : Inv env head tail s) {i k n : Nat} (hs : s.response env i k n = .ok s') : Inv env head tail s' := by
  unfold Exchange.response at hs
  split at hs
  · cases hs
    exact h
  next r hr =>
  split at hs
  case isFalse =>
    cases hs
    exact h
  next hpeer =>
  obtain ⟨m, hm, hk⟩ : ∃ m, r.downs.getLast? = some m ∧ s.peers[k]? = some ⟨i, m⟩ := by
    rw [Option.any_eq_true] at hpeer
    obtain ⟨m, hm, hk⟩ := hpeer
    exact ⟨m, hm, by simpa using hk⟩
  obtain ⟨client, hclient, hs⟩ := bind_eq_ok.1 hs
  cases hs
  have hmem := List.mem_of_getElem? hr
  obtain ⟨hlen, hnodup⟩ := h.downs r hmem
  have hrest : r.client.ConnectsAtRest (.recv ((s.arriving k r).take (min n bufferSize))) := trivial
  have hin := h.received_step hmem hrest hclient
  obtain ⟨-, hsame | ⟨hconn, -⟩ | ⟨chunk, calls, hchunk, hmore⟩⟩ := (TCPClient.step_cases hclient).connections
  · refine h.setReceiver hr hin (by rw [hsame]; exact ⟨hlen, hnodup⟩) fun j d n hd hn => ?_
    rw [hsame] at hd
    exact h.fed i r j d n hr hd hn
  · cases hconn
  · obtain rfl := (TcpClientEvent.recv.inj hchunk).symm
    -- The last connection is the one behind which the session is.
    obtain ⟨downs, hdowns⟩ := List.getLast?_eq_some_iff.1 hm
    have hne : r.client.connections ≠ [] := by
      intro hnil
      rw [hdowns, hnil] at hlen
      simp at hlen
    obtain ⟨before, c, hconns⟩ : ∃ before c, r.client.connections = before ++ [c] :=
      ⟨_, _, (List.dropLast_append_getLast hne).symm⟩
    have hsizes : downs.length = before.length := by simpa [hdowns, hconns] using hlen
    have hlast : r.client.connections.getLast? = some c := by simp [hconns]
    rw [hconns, List.modifyLast_concat] at hmore
    have hold : s.Fed ⟨i, m⟩ c.received.flatten := by
      refine h.fed i r before.length c m hr ?_ ?_
      · simp [hconns]
      · simp [hdowns, ← hsizes]
    refine h.setReceiver hr hin ⟨?_, hnodup⟩ fun j d n hd hn => ?_
    · rw [hmore, hlen, hconns]
      simp
    · simp only [hmore] at hd
      rcases Nat.lt_trichotomy j before.length with hlt | rfl | hgt
      · rw [List.getElem?_append_left hlt] at hd
        refine h.fed i r j d n hr ?_ hn
        rw [hconns, List.getElem?_append_left hlt]
        exact hd
      · rw [List.getElem?_concat_length] at hd
        obtain rfl := Option.some.inj hd
        obtain rfl : m = n := by
          simp only [hdowns, ← hsizes, List.getElem?_concat_length] at hn
          exact Option.some.inj hn
        refine .inl ⟨k, hk, ?_⟩
        rw [List.flatten_append, List.flatten_singleton, ← hold.arriving h.net.nodup hk]
        refine (List.prefix_append_right_inj _).2 ?_
        unfold Exchange.arriving
        rw [hlast]
        exact List.take_prefix _ _
      · rw [List.getElem?_eq_none (by simp; omega)] at hd
        cases hd

/-- **Every step** that may be taken. -/
theorem Inv.step (h : Inv env head tail s) {handler : Frame → List (List UInt8)} (hans : Answers env head tail handler)
    {e : ExchangeEvent} (hgo : s.Orderly env head tail e) (hs : Exchange.step env fresh handler s e = .ok s') : Inv env head tail s' := by
  cases e with
  | net e => exact h.netStep hans hgo hs
  | out e => exact h.outStep hgo hs
  | reply =>
    cases hs
    exact h.replyStep
  | receiver i e => exact h.receiverStep hgo hs
  | response i k n => exact h.response hs

theorem start_inv (env : Env) (head tail : UInt8) (fresh : Nat → UInt8) (n : Nat) : Inv env head tail (start env head tail fresh n) where
  net := Network.start_inv env head tail fresh n
  casts := ServerOut.start_casts head tail
  calls := by simp [start, ServerOut.start, ServerSend.start]
  broadcasts := by simp [start, ServerOut.start]
  rest := by simp [start]
  routed := rfl
  inStep r hr := by
    rw [List.eq_of_mem_replicate hr]
    exact ⟨TCPClient.new_inStep env head tail, rfl, rfl⟩
  downs r hr := by
    rw [List.eq_of_mem_replicate hr]
    exact ⟨rfl, List.nodup_nil⟩
  fed i r m c k hr hc hk := by
    rw [List.eq_of_mem_replicate (List.mem_of_getElem? hr)] at hc
    simp [TCPClient.new] at hc

theorem inv_run {n : Nat} {handler : Frame → List (List UInt8)} (hans : Answers env head tail handler) {es : List ExchangeEvent}
    (hgo : Along (Exchange.step env fresh handler) (Orderly env head tail) (start env head tail fresh n) es)
    (hrun : run (Exchange.step env fresh handler) (start env head tail fresh n) es = .ok s) : Inv env head tail s :=
  run_keeps (fun _ _ _ h hgo hs => h.step hans hgo hs) (start_inv env head tail fresh n) hgo hrun

end Parts

end Exchange

end Uvnet

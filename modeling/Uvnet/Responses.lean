import Mathlib.Data.Set.List
import Uvnet.ExchangeReplies

/- The answers of an exchange, and what its clients have read of them.

   1. `Inv.responses`: the frames of a connection are the packets routed to the session behind
      it, in order, and a connection that was never accepted has none (`Inv.no_responses`).
   2. `Replying.answered_sublist`: of the answers of the handlers to the frames of a session,
      those taken are routed to it in order, and all of them where no `_send` failed
      (`Replying.answered_all`).
   3. `Settled.answers`: when everything has arrived, the client has read the answers to the
      packets it has sent, in order. -/
namespace Uvnet
open CMachine ObjectPool StreamScan StepRun PayloadCut TCPServer

namespace Exchange

/-- `c` is the connection with this number on the receive side of its client. -/
def Connects (s : Exchange) (p : Peer) (c : Connection) : Prop :=
  ∃ (r : Receiver) (m : Nat), s.receivers[p.client]? = some r ∧ r.downs[m]? = some p.conn ∧ r.client.connections[m]? = some c

/-- Session `k` and its client are done: the packets sent over the one connection have been read and
answered, the answers were taken, and nothing else was sent to the session, or is still to be read. -/
structure Settled (s : Exchange) (k : Nat) (p : Peer) (c : ClientSend) (d : Connection) : Prop where
  rest : c.Resting
  submitted : ∀ sub ∈ c.submitted, sub.conn = p.conn ∧ sub.taken = true
  arrived : s.net.inFlight k = []
  handled : s.handling = none
  taken : ∀ i ∈ s.callsFor k, ∃ data, s.out.send.calls[i]? = some ⟨data, .done true⟩
  only : ∀ r ∈ s.routed, r.1 = some k → r.2.call ∈ s.callsFor k
  read : d.received.flatten = (s.routedTo k).flatten

section Responses
variable {env : Env} {head tail : UInt8} {fresh : Nat → UInt8} {handler : Frame → List (List UInt8)} {s : Exchange} {k : Nat}
  {p : Peer} {c c' : Connection}

/-! The receive side. -/

theorem Inv.connects_unique (h : Inv env head tail s) (hc : s.Connects p c) (hc' : s.Connects p c') : c = c' := by
  obtain ⟨r, m, hr, hm, hconn⟩ := hc
  obtain ⟨r', m', hr', hm', hconn'⟩ := hc'
  obtain rfl := Option.some.inj (hr.symm.trans hr')
  obtain ⟨-, hnodup⟩ := h.downs r (List.mem_of_getElem? hr)
  obtain ⟨hlt, heq⟩ := List.getElem?_eq_some_iff.1 hm
  obtain ⟨hlt', heq'⟩ := List.getElem?_eq_some_iff.1 hm'
  obtain rfl : m = m' := (List.Nodup.getElem_inj_iff hnodup).1 (heq.trans heq'.symm)
  exact Option.some.inj (hconn.symm.trans hconn')

theorem Inv.routed_packets (h : Inv env head tail s) (k : Nat) :
    ∃ packets : List (Outgoing env head tail), s.routedTo k = packets.map Outgoing.bytes := by
  have hall : ∀ data ∈ s.routedTo k, data ∈ Set.range (Outgoing.bytes : Outgoing env head tail → List UInt8) := by
    intro data hdata
    obtain ⟨r, hr, rfl⟩ := List.mem_map.1 hdata
    have hw : r.2 ∈ s.out.taken := h.routed ▸ List.mem_map_of_mem (List.mem_filter.1 hr).1
    obtain ⟨c, hc, hbytes⟩ := h.casts.out.taken_data hw
    obtain ⟨o, ho⟩ := h.calls c (List.mem_of_getElem? hc)
    exact ⟨o, by rw [hbytes, ho]⟩
  have hrange : s.routedTo k ∈ Set.range (List.map (Outgoing.bytes : Outgoing env head tail → List UInt8)) := by
    rw [Set.range_list_map]
    exact hall
  obtain ⟨packets, hpackets⟩ := hrange
  exact ⟨packets, hpackets.symm⟩

/-- A connection has the frames of its bytes, and these are what was routed to its session. -/
theorem Inv.connects (h : Inv env head tail s) (hc : s.Connects p c) :
    c.frames.map FullPacket.frame = (charScanner env head tail).outputs c.received.flatten ∧ s.Fed p c.received.flatten := by
  obtain ⟨r, m, hr, hm, hconn⟩ := hc
  obtain ⟨hin, hhead, htail⟩ := h.inStep r (List.mem_of_getElem? hr)
  have hframes := (hin.conns c (List.mem_of_getElem? hconn)).frames
  rw [hhead, htail] at hframes
  exact ⟨hframes, h.fed p.client r m c p.conn hr hconn hm⟩

/-- **The frames of a connection** are the packets routed to the session behind it. -/
theorem Inv.responses (h : Inv env head tail s) (hk : s.peers[k]? = some p) (hc : s.Connects p c)
    {packets : List (Outgoing env head tail)} (hpackets : s.routedTo k = packets.map Outgoing.bytes) :
    c.frames.map FullPacket.frame <+: packets.map Outgoing.frame ∧
      (tail < 0x80 → c.received.flatten = (s.routedTo k).flatten → c.frames.map FullPacket.frame = packets.map Outgoing.frame) := by
  obtain ⟨hframes, hfed⟩ := h.connects hc
  have hstream : (s.routedTo k).flatten = stream packets := by rw [hpackets]; rfl
  by_cases ht : tail < 0x80
  · rw [hframes, charScanner_eq_ref env head tail ht]
    refine ⟨?_, fun _ hall => by rw [hall, hstream, outputs_stream]⟩
    rw [← outputs_stream packets, ← hstream, ← hfed.arriving h.net.nodup hk]
    exact Path.outputs_prefix (List.prefix_append _ _)
  · rw [hframes, charScanner_deaf env head tail ht]
    exact ⟨List.nil_prefix, fun hlow => (ht hlow).elim⟩

theorem Inv.no_responses (h : Inv env head tail s) (hp : p ∉ s.peers) (hc : s.Connects p c) : c.frames = [] := by
  obtain ⟨hframes, hfed⟩ := h.connects hc
  rcases hfed with ⟨k, hk, -⟩ | ⟨-, hnil⟩
  · exact (hp (List.mem_of_getElem? hk)).elim
  · rw [hnil, Scanner.outputs_wait _ (Scanner.verdict_nil _)] at hframes
    exact List.map_eq_nil_iff.1 hframes

/-! The answers. -/

theorem flatMap_sublist_map {α β : Type} {f : α → List β} {g : α → β} : ∀ {l : List α}, (∀ x ∈ l, (f x).Sublist [g x]) →
    (l.flatMap f).Sublist (l.map g)
  | [], _ => List.Sublist.refl _
  | x :: l, h => by
    rw [List.flatMap_cons, List.map_cons]
    apply List.Sublist.append (h x List.mem_cons_self)
    exact flatMap_sublist_map fun y hy => h y (List.mem_cons_of_mem x hy)

theorem Replying.answered_sublist (hs : Replying handler s) (h : Inv env head tail s) (k : Nat) :
    (s.answered k).Sublist (s.answersTo handler k) := by
  have hall : ((s.callsFor k).flatMap s.out.takenBy).Sublist ((s.callsFor k).map s.dataOf) := by
    apply flatMap_sublist_map
    intro i hi
    have hc := List.getElem?_eq_getElem (hs.calls _ (mem_callsFor.1 hi))
    rw [h.casts.out.logged, dataOf, hc, Option.elim_some, Option.elim_some, ServerSendCall.handed]
    split
    · exact List.Sublist.refl _
    · exact List.nil_sublist _
  rw [hs.order k]
  apply hall.trans
  rw [← hs.asked k]
  exact List.sublist_append_left _ _

theorem Replying.answered_all (hs : Replying handler s) (h : Inv env head tail s) (hhandled : s.handling = none)
    (htaken : ∀ i ∈ s.callsFor k, ∃ data, s.out.send.calls[i]? = some ⟨data, .done true⟩) : s.answered k = s.answersTo handler k := by
  have heach : ∀ i ∈ s.callsFor k, s.out.takenBy i = [s.dataOf i] := by
    intro i hi
    obtain ⟨data, hc⟩ := htaken i hi
    have hne : data ≠ [] := (h.calls _ (List.mem_of_getElem? hc)).ne_nil
    rw [h.casts.out.logged, dataOf, hc]
    simp [ServerSendCall.handed, hne]
  have hrest : s.restFor k = [] := by simp [restFor, hhandled]
  calc s.answered k
      = (s.callsFor k).flatMap s.out.takenBy := hs.order k
    _ = (s.callsFor k).flatMap fun i => [s.dataOf i] := List.flatMap_congr heach
    _ = (s.callsFor k).map s.dataOf ++ s.restFor k := by rw [hrest, List.append_nil, List.map_eq_flatMap]
    _ = s.answersTo handler k := hs.asked k

/-- Where nothing else was routed to a session, what was routed to it are its answers. -/
theorem Replying.routed_answered (hs : Replying handler s) (honly : ∀ r ∈ s.routed, r.1 = some k → r.2.call ∈ s.callsFor k) :
    s.routedTo k = s.answered k := by
  unfold routedTo answered
  congr 1
  refine List.filter_congr fun r hr => ?_
  have hiff : r.1 = some k ↔ r.2.call ∈ s.callsFor k := ⟨honly r hr, hs.own r hr k⟩
  simp only [hiff]

/-- **When all is done**, the client has the answers to what it sent. -/
theorem Settled.answers {c : ClientSend} {d : Connection} (h : Settled s k p c d) (hinv : Inv env head tail s)
    (hreplying : Replying handler s) (ht : tail < 0x80) {o : Session} (hp : s.peers[k]? = some p)
    (ho : s.out.server.objs[k]? = some o) (hc : s.clients[p.client]? = some c) (hd : s.Connects p d) :
    ∃ packets answers : List (Outgoing env head tail), c.payloads = packets.map Outgoing.bytes ∧
      packets.flatMap (fun x => handler x.frame) = answers.map Outgoing.bytes ∧
      d.frames.map FullPacket.frame = answers.map Outgoing.frame := by
  obtain ⟨packets, hpackets, hframes⟩ := hinv.net.delivers_all ht hp ho hc h.rest h.submitted h.arrived
  obtain ⟨answers, hanswers⟩ := hinv.routed_packets k
  refine ⟨packets, answers, hpackets, ?_, (hinv.responses hp hd hanswers).2 ht h.read⟩
  have hof : s.out.server.framesOf k = o.frames := by rw [TCPServer.framesOf, ho]; rfl
  calc packets.flatMap (fun x => handler x.frame)
      = (packets.map Outgoing.frame).flatMap handler := by rw [List.flatMap_map]
    _ = s.answersTo handler k := by rw [← hframes, answersTo, hof]
    _ = s.answered k := (hreplying.answered_all hinv h.handled h.taken).symm
    _ = s.routedTo k := (hreplying.routed_answered h.only).symm
    _ = answers.map Outgoing.bytes := hanswers

end Responses

end Exchange

end Uvnet

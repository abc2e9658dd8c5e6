import Uvnet.Network

/- What the server is given of what the clients send.

   1. `network_delivers_in_order`: over all the connections of a client, `GetPacket` is given
      the packets the client sent, in order and none twice; of one at the end of a connection
      perhaps nothing. No session is given a packet of another client.
   2. `network_delivers_all`: once a client is at rest on a connection that never failed, and
      nothing is in flight, its session has been given every packet.
   3. `network_reads_safely`: nothing the clients send makes `OnRecv` fault.

   All of this is for the runs of `Orderly` steps, whatever their order and however the bytes
   are cut into chunks. -/
namespace Uvnet
open CMachine StreamScan StepRun PayloadCut TCPServer

section Streams
variable {env : Env} {head tail : UInt8} {packets : List (Outgoing env head tail)} {received streams : List (List UInt8)}

/-- **The frames in what was received** of streams that are whole packets are these packets. -/
theorem frames_sublist (h : WholeEach (packets.map Outgoing.bytes) streams)
    (hreceived : List.Forall₂ (fun r stream => r <+: stream) received streams) :
    (received.flatMap (refScanner env head tail).outputs).Sublist (packets.map Outgoing.frame) := by
  obtain ⟨wss, hwss, hpre⟩ := h
  induction hreceived generalizing wss packets with
  | nil => exact List.nil_sublist _
  | @cons r sent received streams hr hrest ih =>
    cases hpre with
    | @cons _ ws _ wss hws hpre =>
      obtain ⟨ps, hps, heq⟩ := List.sublist_map_iff.1 hwss
      rw [List.flatten_cons] at heq
      -- The packets of this stream, and those of the streams behind it.
      obtain ⟨qs, qs', rfl, rfl, hrest'⟩ := List.map_eq_append_iff.1 heq.symm
      rw [List.flatMap_cons]
      refine .trans ?_ (hps.map Outgoing.frame)
      rw [List.map_append]
      refine List.Sublist.append ?_ (ih wss ?_ hpre)
      · have hout := Path.outputs_prefix (c := refScanner env head tail) (hr.trans hws)
        have hstream : (qs.map Outgoing.bytes).flatten = stream qs := rfl
        rw [hstream, outputs_stream] at hout
        exact hout.sublist
      · rw [← hrest']

/-- A front of whole packets is a front of the stream of some of them. -/
theorem whole_stream {r : List UInt8} (h : Whole (packets.map Outgoing.bytes) r) :
    ∃ qs : List (Outgoing env head tail), qs.Sublist packets ∧ r <+: Uvnet.stream qs := by
  obtain ⟨ws, hws, hpre⟩ := h
  obtain ⟨qs, hqs, rfl⟩ := List.sublist_map_iff.1 hws
  exact ⟨qs, hqs, hpre⟩

theorem CallFits.junk {junk r chunk : List UInt8} (hj : head ∉ junk)
    (h : CallFits env head tail (charScanner env head tail) r chunk) :
    CallFits env head tail (charScanner env head tail) (junk ++ r) chunk where
  sum := by
    have hrest : (charScanner env head tail).rest (junk ++ r) = (charScanner env head tail).rest r :=
      (path_garbage hj r).rest
    rw [hrest]
    exact h.sum
  headers := by
    rw [List.append_assoc]
    induction junk with
    | nil => exact h.headers
    | cons b junk ih =>
      have hb : b ≠ head := fun heq => hj (heq ▸ List.mem_cons_self)
      refine .of_move (frameVerdict_skip hb _) ?_ (ih fun hm => hj (List.mem_cons_of_mem b hm))
      -- No header stands behind such a byte.
      rintro p ⟨hdr, body, hcut, -⟩
      exact absurd (List.cons.inj hcut).1 hb

end Streams

namespace ClientSend

/-- **A client at rest** has handed on all its payloads. -/
theorem Resting.handed {s : ClientSend} (h : s.Resting) (horder : OneByOne s) : s.handed = s.payloads.flatten := by
  obtain ⟨l, hinv⟩ := h.piped
  have hpass : s.passing = [] := by
    rw [passing, h.pc]
    rfl
  have hall : s.handed = SharedQueue.elements s.accepted := by
    calc s.handed
        = s.handed ++ s.passing ++ l.queue.items := by
          rw [hpass, ← PodCircularBuffer.contents_spec hinv.models.ring, h.ring, List.append_nil, List.append_nil]
      _ = l.given ++ l.queue.items := by rw [hinv.models.given]
      _ = SharedQueue.elements l.log := hinv.sound.conserves
      _ = SharedQueue.elements s.accepted := by rw [hinv.models.log]
  rw [hall]
  rcases horder with ⟨hnil, hacc⟩ | ⟨cs, c, hlast⟩
  · rw [hacc, payloads, hnil]
    rfl
  · have hopen : ¬ s.isUserClosed = true := by
      rw [h.userClosed]
      exact Bool.false_ne_true
    have hdone : ∃ n, c.pc = .done n := h.calls c (by rw [hlast.calls]; exact List.mem_append_right _ List.mem_cons_self)
    have hfull := (hlast.ended (.inr hdone)).resolve_right hopen
    have hexact := hlast.accepted.resolve_right fun hc => hopen hc.1
    rw [hexact, List.take_of_length_le hfull, payloads, hlast.calls, List.map_append, List.flatten_append]
    simp

theorem stream_all {s : ClientSend} {k : Nat} (h : ∀ sub ∈ s.submitted, sub.conn = k ∧ sub.taken = true) :
    s.stream Submission.taken k = s.handed := by
  have hall : s.submitted.filter (onConn Submission.taken k) = s.submitted := by
    rw [List.filter_eq_self]
    intro sub hsub
    obtain ⟨hconn, htaken⟩ := h sub hsub
    simp [onConn, hconn, htaken]
  rw [ClientSend.stream, hall, handed]

end ClientSend

namespace Network

section Frames
variable {env : Env} {head tail : UInt8} {fresh : Nat → UInt8} {s s' : Network} {p : Peer} {k : Nat} {o : Session}

theorem session_eq (h : s.session p = some o) : ∃ k : Nat, s.peers[k]? = some p ∧ s.server.objs[k]? = some o := by
  obtain ⟨before, after, hcut, -⟩ := List.lookup_eq_some_iff.1 h
  have hmem : (p, o) ∈ s.peers.zip s.server.objs := by
    rw [hcut]
    exact List.mem_append_right _ List.mem_cons_self
  obtain ⟨k, hk⟩ := List.mem_iff_getElem?.1 hmem
  rw [List.getElem?_zip_eq_some] at hk
  exact ⟨k, hk⟩

theorem Inv.session_of (h : Inv env head tail s) (hp : s.peers[k]? = some p) (ho : s.server.objs[k]? = some o) :
    s.session p = some o := by
  have hk : (s.peers.zip s.server.objs)[k]? = some (p, o) := List.getElem?_zip_eq_some.2 ⟨hp, ho⟩
  obtain ⟨o', ho'⟩ : ∃ o', s.session p = some o' := by
    cases hs : s.session p with
    | some o' => exact ⟨o', rfl⟩
    | none =>
      have hno := (List.lookup_eq_none_iff.1 hs) (p, o) (List.mem_of_getElem? hk)
      simp at hno
  obtain ⟨j, hj, hoj⟩ := session_eq ho'
  obtain ⟨hlt, hpk⟩ := List.getElem?_eq_some_iff.1 hp
  obtain ⟨hlt', hpj⟩ := List.getElem?_eq_some_iff.1 hj
  obtain rfl : k = j := (List.Nodup.getElem_inj_iff h.nodup).1 (hpk.trans hpj.symm)
  rw [ho', ← ho, hoj]

/-- What was received from a connection. -/
def received (s : Network) (p : Peer) : List UInt8 := (s.session p).elim [] fun o => o.received.flatten

/-- The frames given from a connection are those in what was received from it. -/
theorem Inv.frames_eq (h : Inv env head tail s) (p : Peer) :
    (s.frames p).map FullPacket.frame = (charScanner env head tail).outputs (s.received p) := by
  unfold Network.frames Network.received
  cases ho : s.session p with
  | none => exact (Scanner.outputs_wait _ (Scanner.verdict_nil _)).symm
  | some o =>
    obtain ⟨k, -, hk⟩ := session_eq ho
    exact h.inStep.isolated k o hk

theorem Inv.received_front (h : Inv env head tail s) (p : Peer) : s.received p <+: s.sent p := by
  unfold Network.received
  cases ho : s.session p with
  | none => exact List.nil_prefix
  | some o =>
    obtain ⟨k, hp, hk⟩ := session_eq ho
    refine h.received k p _ hp ?_
    rw [TCPServer.receivedBy, List.getElem?_map, hk]
    rfl

/-- All that was received from the connections of a client, in order: `WholeEach` but for what is
in flight. -/
theorem Inv.received_fronts (h : Inv env head tail s) {i : Nat} {c : ClientSend} (hc : s.clients[i]? = some c) (n : Nat) :
    List.Forall₂ (fun r stream => r <+: stream) ((List.range n).map fun m => s.received ⟨i, m⟩)
      (c.streams Submission.taken n) := by
  have hsent : ∀ m, s.sent ⟨i, m⟩ = c.stream Submission.taken m := by
    intro m
    simp only [sent, hc]
  rw [ClientSend.streams, List.forall₂_map_left_iff, List.forall₂_map_right_iff, List.forall₂_same]
  intro m _
  rw [← hsent]
  exact h.received_front _

theorem Inv.frames_sublist (h : Inv env head tail s) {i : Nat} {c : ClientSend} (hc : s.clients[i]? = some c) :
    ∃ packets : List (Outgoing env head tail), c.payloads = packets.map Outgoing.bytes ∧
      (((List.range (c.conn + 1)).flatMap fun n => s.frames ⟨i, n⟩).map FullPacket.frame).Sublist (packets.map Outgoing.frame) := by
  have hmem := List.mem_of_getElem? hc
  obtain ⟨packets, hpackets⟩ := h.packets c hmem
  refine ⟨packets, hpackets, ?_⟩
  have hframes : ∀ n, (s.frames ⟨i, n⟩).map FullPacket.frame = (charScanner env head tail).outputs (s.received ⟨i, n⟩) :=
    fun n => h.frames_eq _
  simp only [List.map_flatMap, hframes]
  by_cases ht : tail < 0x80
  · have hwhole := (h.ordered c hmem).wholeEach
    rw [hpackets] at hwhole
    have hsub := Uvnet.frames_sublist hwhole (h.received_fronts hc (c.conn + 1))
    rwa [List.flatMap_map, ← charScanner_eq_ref env head tail ht] at hsub
  · -- The parser recognises no frame at all.
    simp only [charScanner_deaf env head tail ht]
    rw [List.flatMap_eq_nil_iff.2 fun _ _ => rfl]
    exact List.nil_sublist _

/-- **What was received and what is in flight** is what was sent. -/
theorem Inv.received_inFlight (h : Inv env head tail s) (hp : s.peers[k]? = some p) (ho : s.server.objs[k]? = some o) :
    o.received.flatten ++ s.inFlight k = s.sent p := by
  have hk : s.server.receivedBy[k]? = some o.received.flatten := by
    rw [TCPServer.receivedBy, List.getElem?_map, ho]
    rfl
  obtain ⟨rest, hrest⟩ := h.received k p _ hp hk
  unfold inFlight
  simp only [hp, hk, ← hrest, List.drop_left]

theorem Inv.inFlight_stream (h : Inv env head tail s) (hp : s.peers[k]? = some p) (ho : s.server.objs[k]? = some o) :
    ∃ qs : List (Outgoing env head tail), o.received.flatten ++ s.inFlight k <+: stream qs := by
  obtain ⟨c, hc, hle⟩ := h.known p (List.mem_of_getElem? hp)
  have hmem := List.mem_of_getElem? hc
  obtain ⟨packets, hpackets⟩ := h.packets c hmem
  have hsent : s.sent p = c.stream Submission.taken p.conn := by simp only [sent, hc]
  have hall := h.received_inFlight hp ho
  obtain ⟨l, hinv⟩ := (h.ordered c hmem).framed.piped
  have hwhole := ((h.ordered c hmem).framed.cut p.conn).whole (ClientSend.handed_front hinv (h.ordered c hmem).framed.order)
  rw [hpackets] at hwhole
  obtain ⟨qs, -, hpre⟩ := whole_stream hwhole
  exact ⟨qs, by rwa [hall, hsent]⟩

theorem inv_run {n : Nat} {es : List NetEvent}
    (hgo : Along (Network.step env fresh) (Orderly env head tail) (start head tail fresh n) es)
    (hrun : run (Network.step env fresh) (start head tail fresh n) es = .ok s) : Inv env head tail s :=
  run_keeps (fun _ _ _ h hgo hs => h.step hgo hs) (start_inv env head tail fresh n) hgo hrun

/-- The headers of packets are small, so that a front of them, received in chunks, fits. -/
theorem fits_of_stream (ht : tail < 0x80) {qs : List (Outgoing env head tail)} {chunks : List (List UInt8)} {chunk : List UInt8}
    (hchunks : ∀ x ∈ chunks, x.length ≤ bufferSize) (hlen : chunk.length ≤ bufferSize)
    (hfront : (chunks ++ [chunk]).flatten <+: Uvnet.stream qs) :
    CallFits env head tail (charScanner env head tail) chunks.flatten chunk := by
  obtain ⟨rest, hrest⟩ := hfront
  have hsmall : AllVisited (refScanner env head tail) (SmallHeader env head tail) (Uvnet.stream qs) :=
    (visits_stream qs).mono fun S hS => hS.1
  rw [← hrest] at hsmall
  have hall : ∀ x ∈ chunks ++ [chunk], x.length ≤ bufferSize := by
    intro x hx
    rcases List.mem_append.1 hx with hx | hx
    · exact hchunks x hx
    · rw [List.mem_singleton.1 hx]
      exact hlen
  have hfits : CallsFit env head tail (refScanner env head tail) (chunks ++ [chunk]) :=
    callsFit_of_small hall (hsmall.of_append fun _ => SmallHeader.of_append)
  rw [← charScanner_eq_ref env head tail ht] at hfits
  exact hfits chunks chunk [] rfl

theorem record_eq {s : TCPServer} {c : SessionCtx} (hpar : c.parentSession = some k) (ho : s.objs[k]? = some o) {chunk : List UInt8}
    {calls : List FullPacket} :
    s.record c chunk calls = s.setObj k { o with received := o.received ++ [chunk], frames := o.frames ++ calls } := by
  simp only [TCPServer.record, hpar, ho]

/-- The connection of the context `id` is open, and its session is `k`. -/
def Opened (s : Network) (id k : Nat) : Prop :=
  ∃ c, s.server.ctxs.cells[id]? = some c ∧ c.parentSession = some k ∧ c.tcpHandle = .opened true

theorem Opened.reader {id : Nat} (h : s.Opened id k) : s.reader id = some k := by
  obtain ⟨c, hc, hpar, -⟩ := h
  rw [Network.reader, hc, Option.bind_some, hpar]

/-- **What a chunk leaves alone**: the connections that are open, and what is in flight to others. -/
theorem received_frame (server : TCPServer) {id : Nat} {c : SessionCtx} {q : PacketSync} {chunk : List UInt8} {frames : List FullPacket}
    (hc : s.server.ctxs.cells[id]? = some c) (ho : s.server.objs[k]? = some o)
    (hcells : server.ctxs.cells = s.server.ctxs.cells.set id { c with packet := q })
    (hobjs : server.objs = s.server.objs.set k { o with received := o.received ++ [chunk], frames := frames }) :
    (∀ id' k', s.Opened id' k' → Opened { s with server := server } id' k') ∧
      ∀ j, inFlight { s with server := server } j = if j = k then (s.inFlight k).drop chunk.length else s.inFlight j := by
  constructor
  · rintro id' k' ⟨c', hc', hpar', hh'⟩
    unfold Opened
    rw [hcells]
    by_cases hid : id = id'
    · subst hid
      obtain rfl := Option.some.inj (hc.symm.trans hc')
      exact ⟨_, List.getElem?_set_self (List.getElem?_eq_some_iff.1 hc).1, hpar', hh'⟩
    · exact ⟨c', (List.getElem?_set_ne hid).trans hc', hpar', hh'⟩
  · intro j
    have hold : s.server.receivedBy[k]? = some o.received.flatten := by
      rw [TCPServer.receivedBy, List.getElem?_map, ho]
      rfl
    have hset : server.receivedBy = s.server.receivedBy.set k (o.received.flatten ++ chunk) := by
      rw [TCPServer.receivedBy, hobjs, List.map_set, List.flatten_append, List.flatten_singleton]
      rfl
    unfold inFlight
    simp only [hset]
    by_cases hj : j = k
    · subst hj
      rw [if_pos rfl, List.getElem?_set_self (List.getElem?_eq_some_iff.1 hold).1, hold]
      cases s.peers[j]? with
      | none => exact List.drop_nil.symm
      | some p =>
        show (s.sent p).drop (o.received.flatten ++ chunk).length = ((s.sent p).drop o.received.flatten.length).drop chunk.length
        rw [List.drop_drop, List.length_append]
    · rw [if_neg hj, List.getElem?_set_ne (Ne.symm hj)]
      rfl

/-- **A session whose connection is open reads** what is in flight. -/
theorem Inv.read_opened (fresh : Nat → UInt8) (h : Inv env head tail s) (ht : tail < 0x80) {id : Nat} (hopen : s.Opened id k) (n : Nat) :
    ∃ server, Network.step env fresh s (.read id n) = .ok { s with server := server } ∧
      (∀ id' k', s.Opened id' k' → Opened { s with server := server } id' k') ∧
      ∀ j, inFlight { s with server := server } j = if j = k then (s.inFlight k).drop (min n bufferSize) else s.inFlight j := by
  have hreader := hopen.reader
  obtain ⟨c, hc, hpar, hh⟩ := hopen
  have hlen : ((s.inFlight k).take (min n bufferSize)).length ≤ bufferSize :=
    Nat.le_trans (List.length_take_le _ _) (Nat.min_le_right _ _)
  have hdrop : (s.inFlight k).drop ((s.inFlight k).take (min n bufferSize)).length = (s.inFlight k).drop (min n bufferSize) := by
    rw [List.length_take]
    rcases Nat.le_total (min n bufferSize) (s.inFlight k).length with hle | hle
    · rw [Nat.min_eq_left hle]
    · rw [Nat.min_eq_right hle, List.drop_length, List.drop_eq_nil_of_le hle]
  generalize hchunk : (s.inFlight k).take (min n bufferSize) = chunk at hlen hdrop
  rw [← hdrop]
  by_cases hempty : chunk.isEmpty = true
  · -- A read of no bytes returns at once.
    have hs : s.server.step env (.recv id chunk) = .ok s.server := by
      simp only [TCPServer.step, hc, hh, hlen, and_self, if_true, TCPServer.onRecv, hempty, pure_ok]
    refine ⟨s.server, by simp only [Network.step, hreader, hchunk, hs, ok_bind, pure_ok], fun _ _ hopen => hopen, fun j => ?_⟩
    rw [List.isEmpty_iff.1 hempty]
    split
    · next hj => rw [hj]; rfl
    · rfl
  · obtain ⟨o, junk, ho, -, hjunk, hin⟩ := h.inStep.linked id c k hc hpar hh
    have hlt : k < s.peers.length := h.length ▸ (List.getElem?_eq_some_iff.1 ho).1
    obtain ⟨qs, hqs⟩ := h.inFlight_stream (List.getElem?_eq_getElem hlt) ho
    -- The chunks of the session, with this one, are a front of packets.
    have hfront : (o.received ++ [chunk]).flatten <+: stream qs := by
      rw [List.flatten_append, List.flatten_singleton]
      exact ((List.prefix_append_right_inj _).2 (hchunk ▸ List.take_prefix _ _)).trans hqs
    have hfits := fits_of_stream ht (fun x hx => h.inStep.chunks k o ho x hx) hlen hfront
    have hmax : chunk.length ≤ intMax := Nat.le_trans hlen (by decide)
    obtain ⟨r, hr, -⟩ := hin.recv hmax (CallFits.junk hjunk hfits)
    have hs : s.server.step env (.recv id chunk) = .ok ((s.server.setCtx id { c with packet := r.sync }).setObj k
        { o with received := o.received ++ [chunk], frames := o.frames ++ r.calls }) := by
      rw [← record_eq (s := s.server.setCtx id { c with packet := r.sync }) hpar ho]
      simp only [TCPServer.step, hc, hh, hlen, and_self, if_true, TCPServer.onRecv, Bool.not_eq_true _ ▸ hempty, Bool.false_eq_true,
        if_false, hr, ok_bind, pure_ok]
    obtain ⟨hopened, hflight⟩ := received_frame ((s.server.setCtx id { c with packet := r.sync }).setObj k
      { o with received := o.received ++ [chunk], frames := o.frames ++ r.calls }) hc ho rfl rfl
    exact ⟨_, by simp only [Network.step, hreader, hchunk, hs, ok_bind, pure_ok], hopened, hflight⟩

/-- **A context can always read.** -/
theorem Inv.read_safely (fresh : Nat → UInt8) (h : Inv env head tail s) (ht : tail < 0x80) (id n : Nat) :
    ∃ s', Network.step env fresh s (.read id n) = .ok s' := by
  cases hk : s.reader id with
  | none => exact ⟨s, by simp only [Network.step, hk, pure_ok]⟩
  | some k =>
    obtain ⟨c, hc, hpar⟩ := Option.bind_eq_some_iff.1 hk
    by_cases hh : c.tcpHandle = .opened true
    · obtain ⟨server, hs, -⟩ := h.read_opened fresh ht ⟨c, hc, hpar, hh⟩ n
      exact ⟨_, hs⟩
    · exact ⟨s, by simp only [Network.step, hk, TCPServer.step, hc, hh, false_and, if_false, pure_ok, ok_bind]⟩

/-- **All that a client sent** on its one connection is with the server when nothing is in flight. -/
theorem Inv.delivers_all (h : Inv env head tail s) (ht : tail < 0x80) {k : Nat} {p : Peer} {o : Session} {c : ClientSend}
    (hp : s.peers[k]? = some p) (ho : s.server.objs[k]? = some o) (hc : s.clients[p.client]? = some c) (hrest : c.Resting)
    (hall : ∀ sub ∈ c.submitted, sub.conn = p.conn ∧ sub.taken = true) (harrived : s.inFlight k = []) :
    ∃ packets : List (Outgoing env head tail), c.payloads = packets.map Outgoing.bytes ∧
      o.frames.map FullPacket.frame = packets.map Outgoing.frame := by
  have hmem := List.mem_of_getElem? hc
  obtain ⟨packets, hpackets⟩ := h.packets c hmem
  refine ⟨packets, hpackets, ?_⟩
  have hreceived : o.received.flatten = stream packets := by
    calc o.received.flatten
        = o.received.flatten ++ s.inFlight k := by rw [harrived, List.append_nil]
      _ = s.sent p := h.received_inFlight hp ho
      _ = c.stream Submission.taken p.conn := by simp only [sent, hc]
      _ = c.handed := ClientSend.stream_all hall
      _ = c.payloads.flatten := hrest.handed (h.ordered c hmem).framed.order
      _ = stream packets := by rw [hpackets]; rfl
  rw [h.inStep.isolated k o ho, hreceived, charScanner_eq_ref env head tail ht, outputs_stream]

end Frames

end Network

/-! Clients that send packets, one after another. -/

namespace ClientSend

section Sends
variable {env : Env} {head tail : UInt8} {s : ClientSend} {packets : List (Outgoing env head tail)}

/-- The client has sent these packets, all on its first connection, and is at rest. -/
structure HasSent (s : ClientSend) (packets : List (Outgoing env head tail)) : Prop where
  resting : s.Resting
  submitted : s.submitted = packets.map fun o => ⟨0, o.bytes, 0, 0⟩
  payloads : s.payloads = packets.map Outgoing.bytes
  conn : s.conn = 0

/-- The calls of `Send` for these packets, of which the first has the index `i`. -/
def sendAll : Nat → List (Outgoing env head tail) → List ClientEvent
  | _, [] => []
  | i, o :: rest => sendOnce i o.bytes ++ sendAll (i + 1) rest

theorem HasSent.taken (h : s.HasSent packets) : ∀ sub ∈ s.submitted, sub.conn = 0 ∧ sub.taken = true := by
  intro sub hsub
  rw [h.submitted] at hsub
  obtain ⟨o, -, rfl⟩ := List.mem_map.1 hsub
  exact ⟨rfl, rfl⟩

theorem HasSent.stream (h : s.HasSent packets) : s.stream Submission.taken 0 = Uvnet.stream packets := by
  rw [stream_all h.taken, handed, h.submitted, List.flatMap_map]
  rfl

theorem reachedBy_all {p : Submission → Bool} {subs : List Submission} (h : ∀ sub ∈ subs, p sub = true) :
    (reachedBy p subs).2 = (reachedBy p subs).1 := by
  induction subs using List.reverseRecOn with
  | nil => rfl
  | append_singleton subs sub ih => rw [reachedBy_append, if_pos (h sub (by simp))]

theorem HasSent.reached (h : s.HasSent packets) : s.reached Submission.taken s.conn = s.handed.length := by
  rw [ClientSend.reached, h.conn, reachedBy_all, reachedBy_fst, handed]
  intro sub hsub
  obtain ⟨hconn, htaken⟩ := h.taken sub hsub
  simp [onConn, hconn, htaken]

/-- **A client sends more**, and may. -/
theorem HasSent.sendAll (fresh : Nat → UInt8) (h : s.HasSent packets) {more : List (Outgoing env head tail)}
    (hfit : ∀ o ∈ more, o.bytes.length ≤ bufferSize) :
    ∃ t, run (step fresh) s (sendAll packets.length more) = .ok t ∧ t.HasSent (packets ++ more) ∧
      Along (step fresh) SingleThread s (sendAll packets.length more) ∧
      Along (step fresh) (GoesOn Submission.taken) s (sendAll packets.length more) := by
  induction more generalizing s packets with
  | nil => exact ⟨s, rfl, by rwa [List.append_nil], trivial, trivial⟩
  | cons o more ih =>
    have hne : o.bytes ≠ [] := List.cons_ne_nil _ _
    have hlen := hfit o List.mem_cons_self
    have hcalls : s.calls.length = packets.length := by
      simpa only [ClientSend.payloads, List.length_map] using congrArg List.length h.payloads
    obtain ⟨u, hu, hrest, hsub, hpay, hconn⟩ := h.resting.sendOnce fresh hne hlen
    have hsent : u.HasSent (packets ++ [o]) := by
      refine ⟨hrest, ?_, ?_, hconn.trans h.conn⟩
      · rw [hsub, h.submitted, h.conn, List.map_append]
        rfl
      · rw [hpay, h.payloads, List.map_append]
        rfl
    obtain ⟨hsingle, hgoes⟩ := h.resting.sendOnce_along fresh Submission.taken hne hlen (.inl h.reached)
    obtain ⟨t, ht, hall, hsingle', hgoes'⟩ := ih hsent fun o ho => hfit o (List.mem_cons_of_mem _ ho)
    rw [List.length_append] at ht hsingle' hgoes'
    rw [hcalls] at hu hsingle hgoes
    rw [List.append_assoc] at hall
    exact ⟨t, (run_append hu).trans ht, hall, hsingle.append hu hsingle', hgoes.append hu hgoes'⟩

theorem sendAll_data {i : Nat} {data : Option (List UInt8)} (h : .send data ∈ sendAll i packets) :
    ∃ o : Outgoing env head tail, data = some o.bytes := by
  induction packets generalizing i with
  | nil => cases h
  | cons o rest ih =>
    rcases List.mem_append.1 h with h | h
    · exact ⟨o, by simpa [ClientSend.sendOnce, ClientSend.sendAndRead] using h⟩
    · exact ih h

end Sends

end ClientSend

namespace Network

section OneClient
variable {env : Env} {head tail : UInt8} {fresh : Nat → UInt8} {s : Network} {i : Nat} {c c' : ClientSend}

theorem step_client (hc : s.clients[i]? = some c) {e : ClientEvent} (hs : c.step fresh e = .ok c') :
    step env fresh s (.client i e) = .ok { s with clients := s.clients.set i c' } := by
  simp only [step, hc, hs, ok_bind, pure_ok]

theorem run_client {es : List ClientEvent} (hc : s.clients[i]? = some c) (hrun : run (ClientSend.step fresh) c es = .ok c') :
    run (step env fresh) s (es.map (NetEvent.client i)) = .ok { s with clients := s.clients.set i c' } := by
  induction es generalizing s c with
  | nil =>
    cases hrun
    obtain ⟨hlt, rfl⟩ := List.getElem?_eq_some_iff.1 hc
    rw [List.set_getElem_self]
    rfl
  | cons e es ih =>
    obtain ⟨d, hs, hrun⟩ := run_cons_ok hrun
    have hd : (s.clients.set i d)[i]? = some d := List.getElem?_set_self (List.getElem?_eq_some_iff.1 hc).1
    have hrest := ih (s := { s with clients := s.clients.set i d }) hd hrun
    rw [List.set_set] at hrest
    exact (run_cons (step_client hc hs) _).trans hrest

theorem along_client {es : List ClientEvent} (hc : s.clients[i]? = some c)
    (hdata : ∀ data, ClientEvent.send data ∈ es → ∃ o : Outgoing env head tail, data = some o.bytes)
    (halong : Along (ClientSend.step fresh) ClientSend.SingleThread c es ∧
      Along (ClientSend.step fresh) (ClientSend.GoesOn Submission.taken) c es) :
    Along (step env fresh) (Orderly env head tail) s (es.map (NetEvent.client i)) := by
  induction es generalizing s c with
  | nil => trivial
  | cons e es ih =>
    refine ⟨⟨?_, ?_⟩, fun s' hs => ?_⟩
    · rintro data rfl
      exact hdata data List.mem_cons_self
    · intro d hd
      obtain rfl := Option.some.inj (hc.symm.trans hd)
      exact ⟨halong.1.1, halong.2.1⟩
    · simp only [step, hc] at hs
      obtain ⟨d, hs', hs⟩ := bind_eq_ok.1 hs
      cases hs
      refine ih (List.getElem?_set_self (List.getElem?_eq_some_iff.1 hc).1) ?_ ⟨halong.1.2 d hs', halong.2.2 d hs'⟩
      exact fun data hm => hdata data (List.mem_cons_of_mem e hm)

end OneClient

end Network

open Network

/-- The `i`th client sends packets. -/
def sends {env : Env} {head tail : UInt8} (i : Nat) (packets : List (Outgoing env head tail)) : List NetEvent :=
  (ClientSend.sendAll 0 packets).map (NetEvent.client i)

theorem sends_run {env : Env} {head tail : UInt8} {fresh : Nat → UInt8} {s : Network} {i : Nat}
    (hc : s.clients[i]? = some (ClientSend.start fresh)) {packets : List (Outgoing env head tail)}
    (hfit : ∀ o ∈ packets, o.bytes.length ≤ bufferSize) :
    ∃ c, run (Network.step env fresh) s (sends i packets) = .ok { s with clients := s.clients.set i c } ∧ c.HasSent packets ∧
      Along (Network.step env fresh) (Orderly env head tail) s (sends i packets) := by
  have hnone : (ClientSend.start fresh).HasSent ([] : List (Outgoing env head tail)) := ⟨ClientSend.start_resting fresh, rfl, rfl, rfl⟩
  obtain ⟨c, hrun, hsent, halong⟩ := hnone.sendAll fresh hfit
  exact ⟨c, run_client hc hrun, hsent, along_client hc (fun _ hdata => ClientSend.sendAll_data hdata) halong⟩

/-- Two clients send packets, and the server accepts both. -/
def bothAccepted (ps qs : List (Outgoing zeroEnv 1 2)) : List NetEvent :=
  sends 0 ps ++ sends 1 qs ++ [.accept ⟨0, 0⟩ 0 0 0, .accept ⟨1, 0⟩ 0 0 0]

theorem bothAccepted_run {ps qs : List (Outgoing zeroEnv 1 2)} (hps : ∀ o ∈ ps, o.bytes.length ≤ bufferSize)
    (hqs : ∀ o ∈ qs, o.bytes.length ≤ bufferSize) :
    ∃ (server : TCPServer) (c d : ClientSend), c.HasSent ps ∧ d.HasSent qs ∧ server.receivedBy = [[], []] ∧
      Opened ⟨server, [c, d], [⟨0, 0⟩, ⟨1, 0⟩]⟩ 0 0 ∧ Opened ⟨server, [c, d], [⟨0, 0⟩, ⟨1, 0⟩]⟩ 1 1 ∧
      Along (Network.step zeroEnv fun _ => 0) (Orderly zeroEnv 1 2) (Network.start 1 2 (fun _ => 0) 2) (bothAccepted ps qs) ∧
      run (Network.step zeroEnv fun _ => 0) (Network.start 1 2 (fun _ => 0) 2) (bothAccepted ps qs) =
        .ok ⟨server, [c, d], [⟨0, 0⟩, ⟨1, 0⟩]⟩ := by
  obtain ⟨c, h₁, hc, halong₁⟩ := sends_run (s := Network.start 1 2 (fun _ => 0) 2) (i := 0) rfl hps
  obtain ⟨d, h₂, hd, halong₂⟩ := sends_run (s := ⟨TCPServer.start 1 2, [c, .start fun _ => 0], []⟩) (i := 1) rfl hqs
  have hsent := (run_append h₁).trans h₂
  have halong := halong₁.append h₁ halong₂
  -- Each connection gets a context, and with it a parser, of its own.
  obtain ⟨server, h₃, hnil, hfirst, hsecond⟩ : ∃ server,
      run (Network.step zeroEnv fun _ => 0) ⟨TCPServer.start 1 2, [c, d], []⟩ [.accept ⟨0, 0⟩ 0 0 0, .accept ⟨1, 0⟩ 0 0 0] =
        .ok ⟨server, [c, d], [⟨0, 0⟩, ⟨1, 0⟩]⟩ ∧ server.receivedBy = [[], []] ∧
      Opened ⟨server, [c, d], [⟨0, 0⟩, ⟨1, 0⟩]⟩ 0 0 ∧ Opened ⟨server, [c, d], [⟨0, 0⟩, ⟨1, 0⟩]⟩ 1 1 :=
    ⟨_, rfl, rfl, ⟨_, rfl, rfl, rfl⟩, ⟨_, rfl, rfl, rfl⟩⟩
  have hrest : Along (Network.step zeroEnv fun _ => 0) (Orderly zeroEnv 1 2) ⟨TCPServer.start 1 2, [c, d], []⟩
      [.accept ⟨0, 0⟩ 0 0 0, .accept ⟨1, 0⟩ 0 0 0] := by
    refine .cons rfl ?_ (.cons rfl ?_ trivial)
    · rintro - - - - id rest x ⟨⟩
    · rintro - - - - id rest x ⟨⟩
  exact ⟨server, c, d, hc, hd, hnil, hfirst, hsecond, halong.append hsent hrest, (run_append hsent).trans h₃⟩

/-- The first sends two packets, of which one has both delimiters in its payload. -/
def firstPackets : List (Outgoing zeroEnv 1 2) := threePackets.take 2

/-- The second sends one. -/
def secondPackets : List (Outgoing zeroEnv 1 2) := threePackets.drop 2

theorem firstPackets_fit : ∀ o ∈ firstPackets, o.bytes.length ≤ bufferSize := by decide

theorem secondPackets_fit : ∀ o ∈ secondPackets, o.bytes.length ≤ bufferSize := by decide

/-- The server reads a part of what the first sent, what the second sent, and the rest. -/
def bothRead : List NetEvent := bothAccepted firstPackets secondPackets ++ [.read 0 20, .read 1 100, .read 0 100]

theorem bothRead_run :
    ∃ s c o, Along (Network.step zeroEnv fun _ => 0) (Orderly zeroEnv 1 2) (Network.start 1 2 (fun _ => 0) 2) bothRead ∧
      run (Network.step zeroEnv fun _ => 0) (Network.start 1 2 (fun _ => 0) 2) bothRead = .ok s ∧
      s.clients[0]? = some c ∧ s.peers[0]? = some ⟨0, 0⟩ ∧ s.server.objs[0]? = some o ∧ c.HasSent firstPackets ∧ s.inFlight 0 = [] := by
  obtain ⟨server, c, d, hc, hd, hnil, hfirst, hsecond, halong, hrun⟩ :=
    bothAccepted_run firstPackets_fit secondPackets_fit
  have hinv := inv_run halong hrun
  obtain ⟨server₁, h₁, hopened₁, hflight₁⟩ := hinv.read_opened (fun _ => 0) (by decide) hfirst 20
  have hinv₁ := hinv.step (e := .read 0 20) trivial h₁
  obtain ⟨server₂, h₂, hopened₂, hflight₂⟩ := hinv₁.read_opened (fun _ => 0) (by decide) (hopened₁ 1 1 hsecond) 100
  have hinv₂ := hinv₁.step (e := .read 1 100) trivial h₂
  obtain ⟨server₃, h₃, -, hflight₃⟩ := hinv₂.read_opened (fun _ => 0) (by decide) (hopened₂ 0 0 (hopened₁ 0 0 hfirst)) 100
  have hinv₃ := hinv₂.step (e := .read 0 100) trivial h₃
  have hreads := (run_cons h₁ _).trans ((run_cons h₂ _).trans (run_cons h₃ []))
  have hlt : 0 < server₃.objs.length := by
    have hpeers := hinv₃.length
    simp only [List.length_cons, List.length_nil] at hpeers
    omega
  refine ⟨_, c, server₃.objs[0], halong.append hrun ?_, (run_append hrun).trans hreads, rfl, rfl, List.getElem?_eq_getElem hlt, hc, ?_⟩
  · exact Along.of_forall (by simp [Orderly]) _
  · have hbefore : inFlight ⟨server, [c, d], [⟨0, 0⟩, ⟨1, 0⟩]⟩ 0 = stream firstPackets := by
      have hsent : sent ⟨server, [c, d], [⟨0, 0⟩, ⟨1, 0⟩]⟩ ⟨0, 0⟩ = stream firstPackets := hc.stream
      simp only [inFlight, hnil, List.getElem?_cons_zero, List.length_nil, List.drop_zero, hsent]
    have hsecond := hflight₂ 0
    rw [if_neg (by decide), hflight₁ 0, if_pos rfl, hbefore] at hsecond
    rw [hflight₃ 0, if_pos rfl, hsecond]
    decide

/-! **At most once, and in order**: whatever the order of the steps and however the bytes arrive, the
frames the server's callback is given over all connections of a client, in the order of these,
are some of the packets the client has sent, each once and in their order; and every session
is the one of some connection of a client. -/

theorem network_delivers_in_order (env : Env) (head tail : UInt8) (fresh : Nat → UInt8) (n : Nat) (es : List NetEvent)
    (s : Network) (hgo : Along (Network.step env fresh) (Orderly env head tail) (Network.start head tail fresh n) es)
    (hrun : run (Network.step env fresh) (Network.start head tail fresh n) es = .ok s) :
    (∀ (i : Nat) (c : ClientSend), s.clients[i]? = some c → ∃ packets : List (Outgoing env head tail),
      c.payloads = packets.map Outgoing.bytes ∧
      (((List.range (c.conn + 1)).flatMap fun n => s.frames ⟨i, n⟩).map FullPacket.frame).Sublist (packets.map Outgoing.frame)) ∧
    ∀ (k : Nat) (o : Session), s.server.objs[k]? = some o → ∃ p c, s.peers[k]? = some p ∧ s.frames p = o.frames ∧
      s.clients[p.client]? = some c ∧ p.conn ≤ c.conn := by
  have h := inv_run hgo hrun
  refine ⟨fun i c hc => h.frames_sublist hc, fun k o ho => ?_⟩
  have hlt : k < s.peers.length := h.length ▸ (List.getElem?_eq_some_iff.1 ho).1
  have hp := List.getElem?_eq_getElem hlt
  obtain ⟨c, hc, hle⟩ := h.known _ (List.getElem_mem hlt)
  refine ⟨_, c, hp, ?_, hc, hle⟩
  rw [Network.frames, h.session_of hp ho]
  rfl

theorem network_delivers_in_order_two :
    ∃ s, run (Network.step zeroEnv fun _ => 0) (Network.start 1 2 (fun _ => 0) 2) bothRead = .ok s ∧
      (∀ (i : Nat) (c : ClientSend), s.clients[i]? = some c → ∃ packets : List (Outgoing zeroEnv 1 2),
        c.payloads = packets.map Outgoing.bytes ∧
        (((List.range (c.conn + 1)).flatMap fun n => s.frames ⟨i, n⟩).map FullPacket.frame).Sublist (packets.map Outgoing.frame)) ∧
      ∀ (k : Nat) (o : Session), s.server.objs[k]? = some o → ∃ p c, s.peers[k]? = some p ∧ s.frames p = o.frames ∧
        s.clients[p.client]? = some c ∧ p.conn ≤ c.conn := by
  obtain ⟨s, -, -, halong, hrun, -⟩ := bothRead_run
  exact ⟨s, hrun, network_delivers_in_order zeroEnv 1 2 (fun _ => 0) 2 bothRead s halong hrun⟩

/-! **Nothing is lost** on a connection that took all that was submitted, and on which the client
sent everything: when the client is at rest and nothing is in flight, the session has been
given every packet. -/

theorem network_delivers_all (env : Env) (head tail : UInt8) (ht : tail < 0x80) (fresh : Nat → UInt8) (n : Nat)
    (es : List NetEvent) (s : Network)
    (hgo : Along (Network.step env fresh) (Orderly env head tail) (Network.start head tail fresh n) es)
    (hrun : run (Network.step env fresh) (Network.start head tail fresh n) es = .ok s) (k : Nat) (p : Peer) (o : Session)
    (c : ClientSend) (hp : s.peers[k]? = some p) (ho : s.server.objs[k]? = some o) (hc : s.clients[p.client]? = some c)
    (hrest : c.Resting) (hall : ∀ sub ∈ c.submitted, sub.conn = p.conn ∧ sub.taken = true) (harrived : s.inFlight k = []) :
    ∃ packets : List (Outgoing env head tail), c.payloads = packets.map Outgoing.bytes ∧
      o.frames.map FullPacket.frame = packets.map Outgoing.frame := by
  exact (inv_run hgo hrun).delivers_all ht hp ho hc hrest hall harrived

theorem network_delivers_all_two :
    ∃ s o c, run (Network.step zeroEnv fun _ => 0) (Network.start 1 2 (fun _ => 0) 2) bothRead = .ok s ∧
      s.server.objs[0]? = some o ∧ s.clients[0]? = some c ∧
      ∃ packets : List (Outgoing zeroEnv 1 2), c.payloads = packets.map Outgoing.bytes ∧
        o.frames.map FullPacket.frame = packets.map Outgoing.frame := by
  obtain ⟨s, c, o, halong, hrun, hc, hp, ho, hsent, harrived⟩ := bothRead_run
  exact ⟨s, o, c, hrun, ho, hc, network_delivers_all zeroEnv 1 2 (by decide) (fun _ => 0) 2 bothRead s halong hrun 0 ⟨0, 0⟩ o c
    hp ho hc hsent.resting hsent.taken harrived⟩

/-! **No packet of a client makes the server fault**: in every state reached, every context can read,
whatever the number of bytes. -/

theorem network_reads_safely (env : Env) (head tail : UInt8) (ht : tail < 0x80) (fresh : Nat → UInt8) (n : Nat)
    (es : List NetEvent) (s : Network)
    (hgo : Along (Network.step env fresh) (Orderly env head tail) (Network.start head tail fresh n) es)
    (hrun : run (Network.step env fresh) (Network.start head tail fresh n) es = .ok s) (id m : Nat) :
    ∃ s', Network.step env fresh s (.read id m) = .ok s' := by
  exact (inv_run hgo hrun).read_safely fresh ht id m

theorem network_reads_safely_two :
    ∃ s, run (Network.step zeroEnv fun _ => 0) (Network.start 1 2 (fun _ => 0) 2) bothRead = .ok s ∧
      ∃ s', Network.step zeroEnv (fun _ => 0) s (.read 1 7) = .ok s' := by
  obtain ⟨s, -, -, halong, hrun, -⟩ := bothRead_run
  exact ⟨s, hrun, network_reads_safely zeroEnv 1 2 (by decide) (fun _ => 0) 2 bothRead s halong hrun 1 7⟩

end Uvnet

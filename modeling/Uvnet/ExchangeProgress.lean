import Uvnet.Responses

/- No state of an exchange is a dead end.

   From every state reached, in which the connection between a client and its session is read on
   both sides and no answer to it has failed, the steps of the loop thread in the handlers, of
   their calls of `_send`, and of the two readers lead to a state in which the client has the
   answers to all that it has sent. Each of these steps can be taken whatever the other threads
   do, or hold, and each brings the end nearer: bytes the server can still read, then steps of
   the handlers, then bytes the client can still read (`distance`). -/
namespace Uvnet
open CMachine ObjectPool StreamScan StepRun PayloadCut TCPServer

/-- The client is reading its connection `n`. -/
structure Receiver.Reading (r : Receiver) (n : Nat) : Prop where
  last : r.downs.getLast? = some n
  looping : r.client.looping = true
  opened : r.client.tcpHandle = .opened true
  data : r.client.tcpData ≠ .client

namespace Exchange

/-- The connection `p` is read on both sides, at session `k` and at its client. -/
structure Reading (s : Exchange) (k : Nat) (p : Peer) : Prop where
  peer : s.peers[k]? = some p
  server : ∃ id, s.net.Opened id k
  client : ∃ r, s.receivers[p.client]? = some r ∧ r.Reading p.conn

/-- No answer to session `k` has failed, and nothing else was sent to it. -/
structure Clean (s : Exchange) (k : Nat) : Prop where
  calls : ∀ i ∈ s.callsFor k, ∀ c, s.out.send.calls[i]? = some c → c.pc.failed = false
  only : ∀ r ∈ s.routed, r.1 = some k → r.2.call ∈ s.callsFor k

/-- The steps the loop thread has to take in the handlers. -/
def work (s : Exchange) : Nat :=
  match s.handling with
  | none => 0
  | some h => 1 + 6 * h.rest.length + h.current.elim 0 fun i => 1 + (s.out.send.calls[i]?).elim 0 fun c => c.pc.left

/-- How far the session and its client are from their end. -/
def distance (s : Exchange) (k : Nat) (p : Peer) : Nat × Nat × Nat :=
  ((s.net.inFlight k).length, s.work, (s.receivers[p.client]?).elim 0 fun r => (s.arriving k r).length)

section Progress
variable {env : Env} {head tail : UInt8} {handler : Frame → List (List UInt8)} {s s' : Exchange} {k : Nat}
  {p : Peer} {h : Handling}

/-! The handlers. -/

theorem Clean.call (fresh : Nat → UInt8) (hclean : s.Clean k) (hinv : Inv env head tail s) (hreplying : Replying handler s) (hh : s.handling = some h) {i : Nat}
    (hcur : h.current = some i) {c : ServerSendCall} (hc : s.out.send.calls[i]? = some c) (hrun : ∀ r, c.pc ≠ .done r) :
    ∃ s', Exchange.step env fresh handler s (.out (.call i 0)) = .ok s' ∧ s'.net = s.net ∧ s'.receivers = s.receivers ∧
      s'.work < s.work ∧ s'.Clean k := by
  obtain ⟨send, pc, hsend, hcalls, hless, hkept⟩ := hinv.casts.out.send.advance fresh hc hrun
  have hlt := (List.getElem?_eq_some_iff.1 hc).1
  have hout : s.out.step env fresh (.call i 0) =
      .ok { s.out with send := send, taken := s.out.taken ++ send.writes.drop s.out.send.writes.length } := by
    simp only [ServerOut.step, hsend, ok_bind, pure_ok]
  have hs : Exchange.step env fresh handler s (.out (.call i 0)) = .ok { s with
      out := { s.out with send := send, taken := s.out.taken ++ send.writes.drop s.out.send.writes.length }
      routed := s.routed ++ (send.writes.drop s.out.send.writes.length).map fun w => (s.route w.call, w) } := by
    simp only [Exchange.step, Exchange.outStep, Exchange.sendStep, lift_eq_ok.2 hout, ok_bind, pure_ok, List.drop_left]
  refine ⟨_, hs, rfl, rfl, ?_, ?_, ?_⟩
  · simp only [work, hh, hcur, hc, hcalls, List.getElem?_set_self hlt, Option.elim_some]
    omega
  · intro j hj d hd
    replace hd : send.calls[j]? = some d := hd
    rw [hcalls] at hd
    by_cases hij : i = j
    · subst hij
      rw [List.getElem?_set_self hlt] at hd
      obtain rfl := Option.some.inj hd
      exact hkept (hclean.calls i hj c hc)
    · rw [List.getElem?_set_ne hij] at hd
      exact hclean.calls j hj d hd
  · -- What it takes goes to the session whose handlers the loop thread is in.
    intro r hr hk
    rcases List.mem_append.1 hr with hr | hr
    · exact hclean.only r hr hk
    · obtain ⟨w, hw, rfl⟩ := List.mem_map.1 hr
      obtain ⟨htarget, before, hbefore⟩ := hreplying.last h i hh hcur
      obtain rfl : w.call = i := by
        rcases (hinv.casts.out.call_taken hout).2 with hsame | ⟨id, d, -, -, hmore⟩
        · rw [List.append_right_eq_self.1 hsame] at hw
          cases hw
        · rw [List.append_cancel_left hmore] at hw
          rw [List.mem_singleton.1 hw]
      have hroute : s.route w.call = some h.session := by
        rw [route, htarget, Option.bind_some, hreplying.reader h hh]
      obtain rfl : h.session = k := Option.some.inj (hroute.symm.trans hk)
      refine mem_callsFor.2 ?_
      show (h.session, w.call) ∈ s.replied
      rw [hbefore]
      exact List.mem_append_right _ List.mem_cons_self

theorem Clean.begin (hclean : s.Clean k) (hinv : Inv env head tail s) (hreplying : Replying handler s) (hh : s.handling = some h)
    (hcur : h.current = none) {data : List UInt8} {rest : List (List UInt8)} (hrest : h.rest = data :: rest) :
    s.replyStep.net = s.net ∧ s.replyStep.receivers = s.receivers ∧ s.replyStep.routed = s.routed ∧ s.replyStep.work < s.work ∧
      s.replyStep.Clean k := by
  have hs : s.replyStep = { s with
      out := s.out.beginSend h.ctx data
      handling := some { h with rest := rest, current := some s.out.send.calls.length }
      replied := s.replied ++ [(h.session, s.out.send.calls.length)] } := by
    simp only [Exchange.replyStep, hh, hcur, hrest]
  have hne : data ≠ [] := (hinv.rest h hh data (by simp [hrest])).ne_nil
  have hcall : (ServerSendCall.enter data).pc = .fetch := by
    simp [ServerSendCall.enter, hne]
  have hnew : (s.out.send.calls ++ [ServerSendCall.enter data])[s.out.send.calls.length]? = some (.enter data) :=
    List.getElem?_concat_length
  rw [hs]
  refine ⟨rfl, rfl, rfl, ?_, ?_, ?_⟩
  · simp only [work, hh, hcur, hrest, ServerOut.beginSend, hnew, hcall, ServerSendPc.left, Option.elim_some, Option.elim_none,
      List.length_cons]
    omega
  · intro j hj d hd
    replace hd : (s.out.send.calls ++ [ServerSendCall.enter data])[j]? = some d := hd
    replace hj : (k, j) ∈ s.replied ++ [(h.session, s.out.send.calls.length)] := mem_callsFor.1 hj
    rcases List.mem_append.1 hj with hj | hj
    · rw [List.getElem?_append_left (hreplying.calls _ hj)] at hd
      exact hclean.calls j (mem_callsFor.2 hj) d hd
    · obtain ⟨-, rfl⟩ := Prod.mk.inj (List.mem_singleton.1 hj)
      rw [hnew] at hd
      obtain rfl := Option.some.inj hd
      rw [hcall]
      rfl
  · intro r hr hk
    refine mem_callsFor.2 (List.mem_append_left _ ?_)
    exact mem_callsFor.1 (hclean.only r hr hk)

/-- **A step of the handlers.** -/
theorem Clean.handlers (fresh : Nat → UInt8) (hclean : s.Clean k) (hinv : Inv env head tail s) (hreplying : Replying handler s) (hh : s.handling = some h) :
    ∃ e s', s.Orderly env head tail e ∧ Exchange.step env fresh handler s e = .ok s' ∧ s'.net = s.net ∧ s'.receivers = s.receivers ∧
      s'.work < s.work ∧ s'.Clean k := by
  have hreply : ∀ handling : Option Handling, work { s with handling := handling } < s.work →
      s.replyStep = { s with handling := handling } → ∃ e s', s.Orderly env head tail e ∧
        Exchange.step env fresh handler s e = .ok s' ∧ s'.net = s.net ∧ s'.receivers = s.receivers ∧ s'.work < s.work ∧ s'.Clean k := by
    intro handling hless hs
    exact ⟨.reply, _, trivial, congrArg Except.ok hs, rfl, rfl, hless, ⟨hclean.calls, hclean.only⟩⟩
  cases hcur : h.current with
  | none =>
    cases hrest : h.rest with
    | nil =>
      refine hreply none ?_ (by simp only [Exchange.replyStep, hh, hcur, hrest])
      simp only [work, hh, hcur, Option.elim_none]
      omega
    | cons data rest =>
      obtain ⟨hnet, hreceivers, -, hless, hclean'⟩ := hclean.begin hinv hreplying hh hcur hrest
      exact ⟨.reply, _, trivial, rfl, hnet, hreceivers, hless, hclean'⟩
  | some i =>
    obtain ⟨htarget, -⟩ := hreplying.last h i hh hcur
    have hlt : i < s.out.send.calls.length := hinv.casts.out.targets ▸ (List.getElem?_eq_some_iff.1 htarget).1
    have hc := List.getElem?_eq_getElem hlt
    by_cases hrun : ∀ r, s.out.send.calls[i].pc ≠ .done r
    · obtain ⟨s', hs, hnet, hreceivers, hless, hclean'⟩ := hclean.call fresh hinv hreplying hh hcur hc hrun
      exact ⟨.out (.call i 0), s', trivial, hs, hnet, hreceivers, hless, hclean'⟩
    · obtain ⟨r, hr⟩ := not_forall_not.1 hrun
      refine hreply (some { h with current := none }) ?_ ?_
      · simp only [work, hh, hcur, Option.elim_none, Option.elim_some]
        omega
      · have hc' : s.out.send.calls[i]? = some ⟨s.out.send.calls[i].data, .done r⟩ := by rw [hc, ← hr]
        simp only [Exchange.replyStep, hh, hcur, hc']

/-! The two readers. -/

theorem Reading.read (fresh : Nat → UInt8) (handler : Frame → List (List UInt8)) (hread : s.Reading k p) (hinv : Inv env head tail s) (ht : tail < 0x80) (hidle : s.handling = none)
    (hne : s.net.inFlight k ≠ []) :
    ∃ id s', Exchange.step env fresh handler s (.net (.read id bufferSize)) = .ok s' ∧ s'.Reading k p ∧ s'.clients = s.clients ∧
      s'.out.send = s.out.send ∧ s'.routed = s.routed ∧ s'.replied = s.replied ∧
      (s'.net.inFlight k).length < (s.net.inFlight k).length := by
  obtain ⟨id, hopen⟩ := hread.server
  have hreader := hopen.reader
  obtain ⟨server, hstep, hopened, hflight⟩ := hinv.net.read_opened fresh ht hopen bufferSize
  have hs : Exchange.step env fresh handler s (.net (.read id bufferSize)) =
      .ok ((s.withNet { s.net with server := server }).handle handler s.out.server id k) := by
    simp only [Exchange.step, Exchange.netStep, hidle, NetEvent.onLoop, Network.locksSessions, Option.isSome_none, Bool.and_false,
      Bool.false_and, Bool.or_false, Bool.false_eq_true, if_false, lift_eq_ok.2 hstep, ok_bind, hreader, pure_ok]
  refine ⟨id, _, hs, ⟨hread.peer, ⟨id, hopened id k hopen⟩, hread.client⟩, rfl, rfl, rfl, rfl, ?_⟩
  have hleft := List.length_pos_of_ne_nil hne
  have hsize : 0 < bufferSize := by decide
  show (Network.inFlight { s.net with server := server } k).length < _
  rw [hflight k, if_pos rfl, Nat.min_self, List.length_drop]
  omega

theorem Inv.reading_last (h : Inv env head tail s) {r : Receiver} (hr : s.receivers[p.client]? = some r) (hread : r.Reading p.conn) :
    ∃ before c, r.client.connections = before ++ [c] ∧ r.downs[before.length]? = some p.conn ∧ s.Connects p c := by
  obtain ⟨hlen, -⟩ := h.downs r (List.mem_of_getElem? hr)
  obtain ⟨downs, hdowns⟩ := List.getLast?_eq_some_iff.1 hread.last
  obtain ⟨hin, -, -⟩ := h.inStep r (List.mem_of_getElem? hr)
  obtain ⟨before, c, junk, hconns, -, -⟩ := hin.linked hread.opened
  have hsizes : downs.length = before.length := by simpa [hdowns, hconns] using hlen
  have hdown : r.downs[before.length]? = some p.conn := by simp [hdowns, ← hsizes]
  exact ⟨before, c, hconns, hdown, r, before.length, hr, hdown, by simp [hconns]⟩

/-- **A client that is reading** takes any front of what was routed to its session. -/
theorem Inv.client_recv (h : Inv env head tail s) (ht : tail < 0x80) (hk : s.peers[k]? = some p) {r : Receiver}
    (hr : s.receivers[p.client]? = some r) (hread : r.Reading p.conn) {chunk : List UInt8} (hpre : chunk <+: s.arriving k r)
    (hlen : chunk.length ≤ bufferSize) (hne : chunk.isEmpty = false) :
    ∃ (before : List Connection) (c : Connection) (q : Recv), r.client.connections = before ++ [c] ∧
      r.client.step env (.recv chunk) =
        .ok { r.client with packet := q.sync, connections := before ++ [⟨c.received ++ [chunk], c.frames ++ q.calls⟩] } := by
  obtain ⟨hin, hhead, htail⟩ := h.inStep r (List.mem_of_getElem? hr)
  obtain ⟨before, c, junk, hconns, hjunk, hsync⟩ := hin.linked hread.opened
  obtain ⟨before', c', hconns', -, hconnects⟩ := h.reading_last hr hread
  obtain ⟨rfl, hc⟩ := List.append_inj' (hconns.symm.trans hconns') rfl
  obtain rfl := (List.cons.inj hc).1
  rw [hhead, htail] at hsync
  rw [hhead] at hjunk
  -- What it has received, with this chunk, is a front of packets.
  obtain ⟨packets, hpackets⟩ := h.routed_packets k
  have hfront : (c.received ++ [chunk]).flatten <+: stream packets := by
    have hlast : r.client.connections.getLast? = some c := by simp [hconns]
    have hall := (h.connects hconnects).2.arriving h.net.nodup hk
    rw [hpackets] at hall
    rw [List.flatten_append, List.flatten_singleton]
    refine ((List.prefix_append_right_inj _).2 hpre).trans ?_
    rw [Exchange.arriving, hlast, Option.elim_some, hpackets, hall]
    exact List.prefix_refl _
  have hchunks : ∀ x ∈ c.received, x.length ≤ bufferSize := (hin.conns c (by simp [hconns])).chunks
  have hmax : chunk.length ≤ intMax := Nat.le_trans hlen (by decide)
  obtain ⟨q, hq, -⟩ := hsync.recv hmax (CallFits.junk hjunk (Network.fits_of_stream ht hchunks hlen hfront))
  refine ⟨before, c, q, hconns, ?_⟩
  simp only [TCPClient.step, hread.looping, hread.opened, hlen, and_self, if_true, TCPClient.onRecv, if_neg hread.data, hne,
    Bool.false_eq_true, if_false, hq, pure_ok, TCPClient.record, hconns, List.modifyLast_concat]

theorem Reading.response (fresh : Nat → UInt8) (handler : Frame → List (List UInt8)) (hread : s.Reading k p) (hinv : Inv env head tail s) (ht : tail < 0x80) {r : Receiver}
    (hr : s.receivers[p.client]? = some r) (hne : s.arriving k r ≠ []) :
    ∃ s' r', Exchange.step env fresh handler s (.response p.client k bufferSize) = .ok s' ∧ s'.Reading k p ∧ s'.out = s.out ∧
      s'.clients = s.clients ∧ s'.handling = s.handling ∧ s'.routed = s.routed ∧ s'.replied = s.replied ∧ s'.net = s.net ∧
      s'.receivers[p.client]? = some r' ∧ (s'.arriving k r').length < (s.arriving k r).length := by
  obtain ⟨r₁, hr₁, hreads⟩ := hread.client
  obtain rfl := Option.some.inj (hr.symm.trans hr₁)
  have hlen : ((s.arriving k r).take (min bufferSize bufferSize)).length ≤ bufferSize :=
    Nat.le_trans (List.length_take_le _ _) (Nat.min_le_right _ _)
  have hpos : 0 < ((s.arriving k r).take (min bufferSize bufferSize)).length := by
    rw [List.length_take, Nat.min_self, Nat.lt_min]
    exact ⟨by decide, List.length_pos_of_ne_nil hne⟩
  have hsome : ((s.arriving k r).take (min bufferSize bufferSize)).isEmpty = false := by
    rw [List.isEmpty_eq_false_iff]
    exact List.ne_nil_of_length_pos hpos
  obtain ⟨before, c, q, hconns, hstep⟩ := hinv.client_recv ht hread.peer hr hreads (List.take_prefix _ _) hlen hsome
  have hlast : r.client.connections.getLast? = some c := by simp [hconns]
  have hmine : (r.downs.getLast?.any fun m => s.peers[k]? = some ⟨p.client, m⟩) = true := by
    rw [hreads.last, Option.any_some, decide_eq_true_iff]
    exact hread.peer
  generalize hchunk : (s.arriving k r).take (min bufferSize bufferSize) = chunk at hstep hpos
  have hs : Exchange.step env fresh handler s (.response p.client k bufferSize) = .ok { s with
      receivers := s.receivers.set p.client ⟨{ r.client with
        packet := q.sync
        connections := before ++ [⟨c.received ++ [chunk], c.frames ++ q.calls⟩] }, r.downs⟩ } := by
    simp only [Exchange.step, Exchange.response, hr, hmine, if_true, hchunk, hstep, ok_bind, pure_ok]
  have hself : (s.receivers.set p.client ⟨{ r.client with
        packet := q.sync
        connections := before ++ [⟨c.received ++ [chunk], c.frames ++ q.calls⟩] }, r.downs⟩)[p.client]? = some _ :=
    List.getElem?_set_self (List.getElem?_eq_some_iff.1 hr).1
  refine ⟨_, _, hs, ⟨hread.peer, hread.server, _, hself, hreads.last, hreads.looping, hreads.opened, hreads.data⟩, rfl, rfl, rfl, rfl,
    rfl, rfl, hself, ?_⟩
  -- What it has received more, is to come no more.
  have hbefore : (s.arriving k r).length = (s.routedTo k).flatten.length - c.received.flatten.length := by
    rw [Exchange.arriving, hlast, Option.elim_some, List.length_drop]
  have hleft := List.length_pos_of_ne_nil hne
  rw [hbefore] at hleft ⊢
  simp only [Exchange.arriving, List.getLast?_concat, Option.elim_some, List.length_drop, List.flatten_append, List.flatten_singleton,
    List.length_append]
  show (s.routedTo k).flatten.length - _ < _
  omega

theorem Reading.frame (hread : s.Reading k p) (hnet : s'.net = s.net) (hreceivers : s'.receivers = s.receivers) : s'.Reading k p where
  peer := (congrArg (fun n : Network => n.peers[k]?) hnet).trans hread.peer
  server := by
    obtain ⟨id, c, hc, hrest⟩ := hread.server
    exact ⟨id, c, (congrArg (fun n : Network => n.server.ctxs.cells[id]?) hnet).trans hc, hrest⟩
  client := by
    rw [hreceivers]
    exact hread.client

theorem Clean.frame (hclean : s.Clean k) (hsend : s'.out.send = s.out.send) (hrouted : s'.routed = s.routed)
    (hreplied : s'.replied = s.replied) : s'.Clean k := by
  have hcalls : s'.callsFor k = s.callsFor k := by rw [callsFor, hreplied]; rfl
  refine ⟨?_, ?_⟩
  · rw [hcalls, hsend]
    exact hclean.calls
  · rw [hcalls, hrouted]
    exact hclean.only

/-- **Some step brings the end nearer**, as long as the session and its client are not done. -/
theorem closer (fresh : Nat → UInt8) (hinv : Inv env head tail s) (hreplying : Replying handler s) (ht : tail < 0x80) (hread : s.Reading k p)
    (hclean : s.Clean k)
    (hgoal : ¬(s.handling = none ∧ s.net.inFlight k = [] ∧ ∀ r, s.receivers[p.client]? = some r → s.arriving k r = [])) :
    ∃ e s', s.Orderly env head tail e ∧ Exchange.step env fresh handler s e = .ok s' ∧ s'.Reading k p ∧ s'.Clean k ∧
      s'.clients = s.clients ∧ Prod.Lex (· < ·) (Prod.Lex (· < ·) (· < ·)) (s'.distance k p) (s.distance k p) := by
  cases hh : s.handling with
  | some h =>
    obtain ⟨e, s', hgo, hs, hnet, hreceivers, hless, hclean'⟩ := hclean.handlers fresh hinv hreplying hh
    refine ⟨e, s', hgo, hs, hread.frame hnet hreceivers, hclean', congrArg Network.clients hnet, ?_⟩
    unfold distance
    rw [hnet]
    exact .right _ (.left _ _ hless)
  | none =>
    by_cases hflight : s.net.inFlight k = []
    · obtain ⟨r, hr, -⟩ := hread.client
      have hne : s.arriving k r ≠ [] := by
        intro hnil
        refine hgoal ⟨hh, hflight, fun r' hr' => ?_⟩
        obtain rfl := Option.some.inj (hr.symm.trans hr')
        exact hnil
      obtain ⟨s', r', hs, hread', hout, hclients, hhandling, hrouted, hreplied, hnet, hr', hless⟩ :=
        hread.response fresh handler hinv ht hr hne
      refine ⟨.response p.client k bufferSize, s', trivial, hs, hread', ?_, hclients, ?_⟩
      · exact hclean.frame (congrArg ServerOut.send hout) hrouted hreplied
      · have hwork : s'.work = s.work := by
          rw [work, hhandling, hout]
          rfl
        unfold distance
        rw [hnet, hwork, hr, hr']
        exact .right _ (.right _ hless)
    · obtain ⟨id, s', hs, hread', hclients, hsend, hrouted, hreplied, hless⟩ :=
        hread.read fresh handler hinv ht hh hflight
      exact ⟨.net (.read id bufferSize), s', trivial, hs, hread', hclean.frame hsend hrouted hreplied, hclients, .left _ _ hless⟩

/-- **When nothing is left to do**, all is done. -/
theorem Clean.settled {c : ClientSend} (hclean : s.Clean k) (hinv : Inv env head tail s) (hreplying : Replying handler s)
    (hread : s.Reading k p) (hrest : c.Resting) (hall : ∀ sub ∈ c.submitted, sub.conn = p.conn ∧ sub.taken = true)
    (hhandled : s.handling = none) (harrived : s.net.inFlight k = [])
    (hnil : ∀ r, s.receivers[p.client]? = some r → s.arriving k r = []) : ∃ d, s.Connects p d ∧ Settled s k p c d := by
  obtain ⟨r, hr, hreads⟩ := hread.client
  obtain ⟨before, d, hconns, -, hd⟩ := hinv.reading_last hr hreads
  refine ⟨d, hd, hrest, hall, harrived, hhandled, fun i hi => ?_, hclean.only, ?_⟩
  · have hret := hreplying.returned _ (mem_callsFor.1 hi)
    simp only [inCall, hhandled, Option.bind_none] at hret
    obtain ⟨⟨data, pc⟩, b, hc, hpc⟩ := hret.resolve_left (by simp)
    obtain rfl : pc = .done b := hpc
    have hsound : (ServerSendPc.done b).failed = false := hclean.calls i hi _ hc
    cases b with
    | true => exact ⟨data, hc⟩
    | false => cases hsound
  · have hlast : r.client.connections.getLast? = some d := by simp [hconns]
    have hrest := (hinv.connects hd).2.arriving hinv.net.nodup hread.peer
    have hleft := hnil r hr
    rw [Exchange.arriving, hlast, Option.elim_some] at hleft
    rw [hleft, List.append_nil] at hrest
    exact hrest

/-- **From every state** in which nothing has gone wrong, some run leads to the end. -/
theorem can_finish (fresh : Nat → UInt8) (hans : Answers env head tail handler) (ht : tail < 0x80) (hinv : Inv env head tail s)
    (hreplying : Replying handler s) (hread : s.Reading k p) (hclean : s.Clean k) {c : ClientSend} (hc : s.clients[p.client]? = some c)
    (hrest : c.Resting) (hall : ∀ sub ∈ c.submitted, sub.conn = p.conn ∧ sub.taken = true) :
    ∃ es s' d, Along (Exchange.step env fresh handler) (Orderly env head tail) s es ∧ run (Exchange.step env fresh handler) s es = .ok s' ∧
      s'.clients[p.client]? = some c ∧ Inv env head tail s' ∧ Replying handler s' ∧ s'.peers[k]? = some p ∧ s'.Connects p d ∧
      Settled s' k p c d := by
  have hstep : ∀ u : Exchange, (Inv env head tail u ∧ Replying handler u ∧ u.Reading k p ∧ u.Clean k ∧ u.clients = s.clients) →
      ¬(u.handling = none ∧ u.net.inFlight k = [] ∧ ∀ r, u.receivers[p.client]? = some r → u.arriving k r = []) →
      ∃ e u', u.Orderly env head tail e ∧ Exchange.step env fresh handler u e = .ok u' ∧
        (Inv env head tail u' ∧ Replying handler u' ∧ u'.Reading k p ∧ u'.Clean k ∧ u'.clients = s.clients) ∧
        Prod.Lex (· < ·) (Prod.Lex (· < ·) (· < ·)) (u'.distance k p) (u.distance k p) := by
    rintro u ⟨hinv, hreplying, hread, hclean, hclients⟩ hgoal
    obtain ⟨e, u', hgo, hs, hread', hclean', hclients', hless⟩ := closer fresh hinv hreplying ht hread hclean hgoal
    exact ⟨e, u', hgo, hs, ⟨hinv.step hans hgo hs, hreplying.step hinv hgo hs, hread', hclean', hclients'.trans hclients⟩, hless⟩
  obtain ⟨es, s', halong, hrun, ⟨hinv', hreplying', hread', hclean', hclients⟩, hhandled, harrived, hnil⟩ :=
    run_reaches (Prod.lex Nat.lt_wfRel (Prod.lex Nat.lt_wfRel Nat.lt_wfRel)).wf (fun u : Exchange => u.distance k p) hstep ⟨hinv, hreplying, hread, hclean, rfl⟩
  obtain ⟨d, hd, hsettled⟩ := hclean'.settled hinv' hreplying' hread' hrest hall hhandled harrived hnil
  exact ⟨es, s', d, halong, hrun, hclients ▸ hc, hinv', hreplying', hread'.peer, hd, hsettled⟩

end Progress

end Exchange

end Uvnet

import Uvnet.ClientConnect
import Uvnet.ParserReuse
import Mathlib.Data.List.ModifyLast

/- Whether what a connection of a client delivers depends on the connections before it.

   The client has one `PacketSync`, made with it, and neither `ReconnectTimer` nor `_init`
   resets it: a connection that is lost inside a frame leaves its bytes to the next one
   (`connections_isolated_fails`). Where every connection is established with the parser at
   rest (`ConnectsAtRest`), each of them delivers the frames that a fresh parser delivers on
   its own bytes (`connections_isolated`). -/
namespace Uvnet
open CMachine LoopHandle StreamScan StepRun

namespace TCPClient

/-- A connection is established, in `OnConnect`, with the parser at rest. -/
def ConnectsAtRest (s : TCPClient) : TcpClientEvent → Prop
  | .onConnect status readStart => status = 0 → readStart = 0 → s.packet.AtRest s.packetHead
  | _ => True

/-- The frames `GetPacket` was given on a connection are those a fresh parser delivers on the
chunks of that connection. -/
def Isolated (env : Env) (s : TCPClient) (c : Connection) : Prop :=
  ∀ p calls, recvCalls env (started env s.packetHead s.packetTail) c.received = .ok (p, calls) →
    c.frames.map FullPacket.frame = calls.map FullPacket.frame

/-- The parser is in step with some stream, or has never been started. -/
def ParserOk (env : Env) (s : TCPClient) : Prop :=
  (∃ calls received, Synced env s.packetHead s.packetTail s.packet calls received) ∨
    (s.packet = .new env ∧ s.isConnecting = false ∧ ∀ b, s.tcpHandle ≠ .opened b)

/-- What a connection has received and delivered. -/
structure Delivered (env : Env) (head tail : UInt8) (c : Connection) : Prop where
  chunks : ∀ chunk ∈ c.received, chunk.length ≤ bufferSize
  frames : c.frames.map FullPacket.frame = (charScanner env head tail).outputs c.received.flatten

structure InStep (env : Env) (s : TCPClient) : Prop where
  parser : ParserOk env s
  conns : ∀ c ∈ s.connections, Delivered env s.packetHead s.packetTail c
  /-- A parser that is reading is in step with the last connection, but for bytes in front that
  are not heads. -/
  linked : s.tcpHandle = .opened true → ∃ before c junk, s.connections = before ++ [c] ∧ s.packetHead ∉ junk ∧
    Synced env s.packetHead s.packetTail s.packet c.frames (junk ++ c.received.flatten)

section Steps
variable {env : Env} {s s' s₁ : TCPClient} {c : Connection} {e : TcpClientEvent} {b : Bool}

theorem ParserOk.opened (h : ParserOk env s) (ho : s.tcpHandle = .opened b) :
    ∃ calls received, Synced env s.packetHead s.packetTail s.packet calls received :=
  h.resolve_right fun hn => hn.2.2 b ho

theorem ParserOk.connecting (h : ParserOk env s) (hcon : s.isConnecting = true) :
    ∃ calls received, Synced env s.packetHead s.packetTail s.packet calls received := by
  refine h.resolve_right fun hn => ?_
  rw [hn.2.1] at hcon
  cases hcon

theorem ParserOk.start (h : ParserOk env s) :
    ∃ calls received, Synced env s.packetHead s.packetTail (s.packet.setPacketCB.start s.packetHead s.packetTail)
      calls received := by
  -- `Start` does nothing to a parser that has been started.
  rcases h with ⟨calls, received, hin⟩ | ⟨hnew, -⟩
  · exact ⟨calls, received, by rw [hin.sound.start_eq]; exact hin⟩
  · exact ⟨[], [], by rw [hnew]; exact started_synced env s.packetHead s.packetTail⟩

theorem InStep.quiet (h : InStep env s) (hhead : s'.packetHead = s.packetHead) (htail : s'.packetTail = s.packetTail)
    (hparser : ParserOk env s') (hpacket : s'.tcpHandle = .opened true → s.tcpHandle = .opened true ∧ s'.packet = s.packet)
    (hconns : s'.connections = s.connections) : InStep env s' := by
  refine ⟨hparser, fun c hc => ?_, fun ho => ?_⟩
  · rw [hconns] at hc
    rw [hhead, htail]
    exact h.conns c hc
  · obtain ⟨ho, hp⟩ := hpacket ho
    rw [hconns, hhead, htail, hp]
    exact h.linked ho

theorem InStep.closeAll (h : InStep env s) : InStep env s.closeAll := by
  unfold TCPClient.closeAll
  split
  · exact h
  · refine h.quiet rfl rfl ?_ (fun ho => absurd ho Handle.closeWalk_ne_opened) rfl
    exact h.parser.imp_right fun hn => ⟨hn.1, rfl, fun _ => Handle.closeWalk_ne_opened⟩

theorem InStep.inited {asyncInit tcpInit timerInit : Int} {ok : Bool} (h : InStep env s)
    (hi : Inited s asyncInit tcpInit timerInit s₁ ok) : InStep env s₁ := by
  cases hi with
  | up _ => exact h
  | asyncFailed _ _ => exact h
  | tcpFailed _ _ _ _ => exact ⟨h.parser, h.conns, h.linked⟩
  | timerFailed _ _ _ _ _ => exact h.quiet rfl rfl (.inl h.parser.start) nofun rfl
  | allUp _ _ => exact h.quiet rfl rfl (.inl h.parser.start) nofun rfl

theorem InStep.connected (h : InStep env s) (ho : s.tcpHandle = .opened b) (hrest : s.packet.AtRest s.packetHead)
    (hhead : s'.packetHead = s.packetHead) (htail : s'.packetTail = s.packetTail) (hpacket : s'.packet = s.packet)
    (hconns : s'.connections = s.connections ++ [⟨[], []⟩]) : InStep env s' := by
  obtain ⟨calls, received, hin⟩ := h.parser.opened ho
  -- What the parser holds is bytes that are not heads.
  obtain ⟨junk, hjunk, hin'⟩ := hin.restart hrest
  refine ⟨.inl ⟨calls, received, ?_⟩, fun c hc => ?_, fun _ => ⟨s.connections, ⟨[], []⟩, junk, hconns, ?_, ?_⟩⟩
  · rw [hhead, htail, hpacket]
    exact hin
  · rw [hconns] at hc
    rw [hhead, htail]
    rcases List.mem_append.1 hc with hc | hc
    · exact h.conns c hc
    · obtain rfl := List.mem_singleton.1 hc
      exact ⟨nofun, (Scanner.outputs_wait _ (Scanner.verdict_nil _)).symm⟩
  · rw [hhead]
    exact hjunk
  · rw [hhead, htail, hpacket, List.flatten_nil, List.append_nil]
    exact hin'

theorem InStep.received (h : InStep env s) (ho : s.tcpHandle = .opened true) {chunk : List UInt8}
    (hlen : chunk.length ≤ bufferSize) {r : Recv} (hr : recvdata env s.packet chunk = .ok r) :
    InStep env ({ s with packet := r.sync }.record chunk r.calls) := by
  obtain ⟨before, c, junk, hconns, hjunk, hin⟩ := h.linked ho
  have hc := h.conns c (by rw [hconns]; exact List.mem_append_right before List.mem_cons_self)
  have hin' : Synced env s.packetHead s.packetTail r.sync (c.frames ++ r.calls) (junk ++ (c.received ++ [chunk]).flatten) :=
    hin.recv_chunk hlen hr
  have hlast : ({ s with packet := r.sync }.record chunk r.calls).connections =
      before ++ [⟨c.received ++ [chunk], c.frames ++ r.calls⟩] := by
    show s.connections.modifyLast _ = _
    rw [hconns, List.modifyLast_concat]
  refine ⟨.inl ⟨_, _, hin'⟩, fun d hd => ?_, fun _ => ⟨before, _, junk, hlast, hjunk, hin'⟩⟩
  rw [hlast] at hd
  rcases List.mem_append.1 hd with hd | hd
  · exact h.conns d (by rw [hconns]; exact List.mem_append_left _ hd)
  · obtain rfl := List.mem_singleton.1 hd
    refine ⟨fun x hx => ?_, hin'.outputs.trans (outputs_junk hjunk _)⟩
    rcases List.mem_append.1 hx with hx | hx
    · exact hc.chunks x hx
    · rw [List.mem_singleton.1 hx]
      exact hlen

/-- **A step keeps the connections in step.** -/
theorem InStep.step (h : InStep env s) (hrest : ConnectsAtRest s e) (hs : ClientStep env s e s') : InStep env s' := by
  cases hs with
  | idle => exact h
  | called _ => exact ⟨h.closeAll.parser, h.closeAll.conns, h.closeAll.linked⟩
  | refused _ _ hi =>
    have h₁ := h.inited hi
    exact ⟨h₁.parser, h₁.conns, h₁.linked⟩
  | unthreaded _ _ hi _ _ _ =>
    have h₁ := h.inited hi
    exact ⟨h₁.parser, h₁.conns, h₁.linked⟩
  | issued _ _ hi _ _ _ =>
    have h₁ := h.inited hi
    exact ⟨h₁.parser, h₁.conns, h₁.linked⟩
  | waited _ =>
    unfold TCPClient.wait
    split
    · exact h
    · exact ⟨h.parser, h.conns, h.linked⟩
    · split
      · exact ⟨h.parser, h.conns, h.linked⟩
      · exact ⟨h.parser, h.conns, h.linked⟩
    · exact ⟨h.parser, h.conns, h.linked⟩
  | closeCalled => exact ⟨h.parser, h.conns, h.linked⟩
  | signalled _ => exact ⟨h.parser, h.conns, h.linked⟩
  | closing _ _ =>
    have h₁ : InStep env { s with asyncPending := false } := ⟨h.parser, h.conns, h.linked⟩
    exact h₁.closeAll
  | connectFailed _ _ _ _ => exact ⟨h.parser, h.conns, h.linked⟩
  | reconnectFailed _ _ _ _ => exact ⟨h.parser, h.conns, h.linked⟩
  | readFailed _ _ ho _ hs₁ =>
    subst hs₁
    split
    · exact h.quiet rfl rfl (.inl (h.parser.opened ho)) (fun ho' => ⟨ho', rfl⟩) rfl
    · exact ⟨h.parser, h.conns, h.linked⟩
  | connected _ _ ho hs₁ =>
    subst hs₁
    split
    · exact h.connected ho (hrest rfl rfl) rfl rfl rfl rfl
    · exact h.connected ho (hrest rfl rfl) rfl rfl rfl rfl
  | received _ ho hlen hr => exact h.received ho hlen hr
  | disconnected _ ho => exact h.quiet rfl rfl (.inl (h.parser.opened ho)) nofun rfl
  | retried _ _ _ => exact ⟨h.parser, h.conns, h.linked⟩
  | dropped _ hcon _ => exact h.quiet rfl rfl (.inl (h.parser.connecting hcon)) nofun rfl
  | reissued _ hcon _ _ => exact h.quiet rfl rfl (.inl (h.parser.connecting hcon)) nofun rfl
  | tcpGone _ _ _ => exact h.quiet rfl rfl (h.parser.imp_right fun hn => ⟨hn.1, hn.2.1, nofun⟩) nofun rfl
  | rearmed _ _ hcon _ => exact h.quiet rfl rfl (.inl (h.parser.connecting hcon)) nofun rfl
  | timerDropped _ _ hcon _ => exact h.quiet rfl rfl (.inl (h.parser.connecting hcon)) nofun rfl
  | asyncGone _ => exact ⟨h.parser, h.conns, h.linked⟩
  | timerGone _ => exact ⟨h.parser, h.conns, h.linked⟩
  | stopped _ _ => exact ⟨h.parser, h.conns, h.linked⟩

theorem new_inStep (env : Env) (head tail : UInt8) : InStep env (TCPClient.new env head tail) where
  parser := .inr ⟨rfl, rfl, nofun⟩
  conns := nofun
  linked := nofun

end Steps

end TCPClient

open TCPClient

/-! **Connections are isolated** where each is established with the parser at rest. -/

theorem connections_isolated (env : Env) (head tail : UInt8) (es : List TcpClientEvent) (s : TCPClient)
    (hrest : Along (step env) ConnectsAtRest (TCPClient.new env head tail) es)
    (hrun : run (step env) (TCPClient.new env head tail) es = .ok s) : ∀ c ∈ s.connections, s.Isolated env c := by
  have hkeep := run_keeps (fun _ _ _ h hr hs => h.step hr (step_cases hs)) (new_inStep env head tail) hrest hrun
  intro c hc p calls hfresh
  obtain ⟨hchunks, hframes⟩ := hkeep.conns c hc
  exact frames_fresh hchunks hframes hfresh

/-- The connected client after some connections, of which it reads the last. -/
def readingClient (repeatTime : Nat) (p : PacketSync) (conns : List Connection) : TCPClient :=
  { connectedClient with repeatTime := repeatTime, packet := p, connections := conns }

/-- The connection is lost, and the next attempt succeeds. -/
def lostRun : List TcpClientEvent := [.recvError, .tcpClosed 0, .timer 0 0 0, .onConnect 0 0]

theorem lostRun_run (repeatTime : Nat) (p : PacketSync) (conns : List Connection) :
    run (step zeroEnv) (readingClient repeatTime p conns) lostRun =
      .ok (readingClient 1000 p (conns ++ [⟨[], []⟩])) := by
  rfl

theorem readingClient_recv (repeatTime : Nat) (before : List Connection) {c : Connection} {p : PacketSync}
    {chunk : List UInt8} {r : Recv} (hr : recvdata zeroEnv p chunk = .ok r) (hlen : chunk.length ≤ bufferSize)
    (hne : chunk.isEmpty = false) :
    step zeroEnv (readingClient repeatTime p (before ++ [c])) (.recv chunk) =
      .ok (readingClient repeatTime r.sync (before ++ [⟨c.received ++ [chunk], c.frames ++ r.calls⟩])) := by
  have hdata : (readingClient repeatTime p (before ++ [c])).tcpData ≠ .client := nofun
  have hguard : (readingClient repeatTime p (before ++ [c])).looping = true ∧
      (readingClient repeatTime p (before ++ [c])).tcpHandle = .opened true ∧ chunk.length ≤ bufferSize :=
    ⟨rfl, rfl, hlen⟩
  simp only [step, if_pos hguard, TCPClient.onRecv, if_neg hdata, hne, Bool.false_eq_true, if_false]
  simp only [readingClient, hr, pure_ok, record, List.modifyLast_concat]

/-- A connection receives `chunk` and is lost, and the next one receives an empty frame. -/
def lostAfter (chunk : List UInt8) : List TcpClientEvent := connectRun ++ [.recv chunk] ++ lostRun ++ [.recv emptyFrame]

section Lost
variable {chunk : List UInt8} {r r' : Recv}

theorem lostAfter_first (hr : recvdata zeroEnv (started zeroEnv 1 2) chunk = .ok r) (hlen : chunk.length ≤ bufferSize)
    (hne : chunk.isEmpty = false) :
    run (step zeroEnv) (TCPClient.new zeroEnv 1 2) (connectRun ++ [.recv chunk]) =
      .ok (readingClient 0 r.sync [⟨[chunk], r.calls⟩]) :=
  (run_append connectRun_run).trans (run_cons (readingClient_recv 0 [] (c := ⟨[], []⟩) hr hlen hne) [])

theorem lostAfter_run (hr : recvdata zeroEnv (started zeroEnv 1 2) chunk = .ok r) (hlen : chunk.length ≤ bufferSize)
    (hne : chunk.isEmpty = false) (hr' : recvdata zeroEnv r.sync emptyFrame = .ok r') :
    run (step zeroEnv) (TCPClient.new zeroEnv 1 2) (lostAfter chunk) =
      .ok (readingClient 1000 r'.sync [⟨[chunk], r.calls⟩, ⟨[emptyFrame], r'.calls⟩]) := by
  have hlost := (run_append (lostAfter_first hr hlen hne)).trans (lostRun_run 0 r.sync [⟨[chunk], r.calls⟩])
  exact (run_append hlost).trans (run_cons (readingClient_recv 1000 [⟨[chunk], r.calls⟩] hr' (by decide) rfl) [])

theorem lostAfter_atRest (hr : recvdata zeroEnv (started zeroEnv 1 2) chunk = .ok r) (hlen : chunk.length ≤ bufferSize)
    (hne : chunk.isEmpty = false) (hrest : r.sync.AtRest 1) :
    Along (step zeroEnv) ConnectsAtRest (TCPClient.new zeroEnv 1 2) (lostAfter chunk) := by
  have hfirst := lostAfter_first hr hlen hne
  have hidle : (started zeroEnv 1 2).AtRest 1 := ⟨rfl, List.not_mem_nil⟩
  have hlost := (run_append hfirst).trans (lostRun_run 0 r.sync [⟨[chunk], r.calls⟩])
  refine .append (.append (.append ?_ connectRun_run ⟨trivial, fun _ _ => trivial⟩) hfirst ?_) hlost ⟨trivial, fun _ _ => trivial⟩
  · refine .cons rfl trivial (.cons rfl trivial (.cons rfl (fun _ _ => hidle) ?_))
    exact .cons rfl trivial (.cons rfl trivial trivial)
  · refine .cons rfl trivial (.cons rfl trivial (.cons rfl trivial ?_))
    exact .cons rfl (fun _ _ => hrest) trivial

end Lost

theorem connections_isolated_lost :
    ∃ s, run (step zeroEnv) (TCPClient.new zeroEnv 1 2) (lostAfter frameAndJunk) = .ok s ∧
      ∀ c ∈ s.connections, s.Isolated zeroEnv c := by
  obtain ⟨r, r', hr, hrest, -, hr'⟩ := frameAndJunk_rests
  have hrun := lostAfter_run hr (by decide) rfl hr'
  exact ⟨_, hrun, connections_isolated zeroEnv 1 2 _ _ (lostAfter_atRest hr (by decide) rfl hrest) hrun⟩

/-- A connection is lost inside a frame. -/
theorem connections_isolated_fails :
    ¬ ∀ env head tail es s, run (step env) (TCPClient.new env head tail) es = .ok s →
      ∀ c ∈ s.connections, s.Isolated env c := by
  intro hall
  obtain ⟨r, r', hr, -, hr', p, calls, hfresh, hne⟩ := cutFrame_leaks
  have hrun := lostAfter_run hr (by decide) rfl hr'
  exact hne (hall zeroEnv 1 2 _ _ hrun ⟨[emptyFrame], r'.calls⟩ (.tail _ (.head _)) p calls hfresh)

end Uvnet

import Uvnet.ServerParsers

/- Whether what a session receives depends on earlier connections.

   A `SessionCtx` keeps its `PacketSync` when it goes back to the pool, and neither
   `_fetch_one_ctx` nor `Start` resets it: a connection that ended inside a frame leaves its
   bytes to the next one (`sessions_isolated_fails`). Where every connection is accepted with
   a parser at rest (`AcceptsAtRest`), every session gets the frames a fresh parser delivers
   on its own bytes (`sessions_isolated`). -/
namespace Uvnet
open CMachine ObjectPool StreamScan StepRun

/-- What a session has received and delivered, and through which context. -/
def Session.stream (o : Session) : Nat × List (List UInt8) × List FullPacket := (o.ctx, o.received, o.frames)

theorem stream_eq {o o' : Session} (h : o'.stream = o.stream) :
    o'.ctx = o.ctx ∧ o'.received = o.received ∧ o'.frames = o.frames := by
  obtain ⟨hctx, h⟩ := Prod.mk.inj h
  exact ⟨hctx, Prod.mk.inj h⟩

namespace TCPServer

/-- A connection that becomes a session is accepted with a parser at rest: the pool is
empty, or the parser of its first context is. -/
def AcceptsAtRest (s : TCPServer) : ServerEvent → Prop
  | .onConnection status tcpInit accept readStart =>
    status = 0 → tcpInit = 0 → accept = 0 → readStart = 0 →
      ∀ id rest c, s.ctxs.avail = id :: rest → s.ctxs.cells[id]? = some c → c.packet.AtRest s.packHead
  | _ => True

/-- The frames `GetPacket` was given for a session are those a fresh parser delivers on the
chunks of its connection. -/
def Isolated (env : Env) (s : TCPServer) (o : Session) : Prop :=
  ∀ p calls, recvCalls env (started env s.packHead s.packTail) o.received = .ok (p, calls) →
    o.frames.map FullPacket.frame = calls.map FullPacket.frame

/-! What holds of every context and every session. -/

/-- The parser of context `id` is in step with what session `k` has received, but for bytes
in front that are not heads. -/
def Linked (env : Env) (head tail : UInt8) (objs : List Session) (id : Nat) (c : SessionCtx) (k : Nat) : Prop :=
  ∃ o junk, objs[k]? = some o ∧ o.ctx = id ∧ head ∉ junk ∧
    Synced env head tail c.packet o.frames (junk ++ o.received.flatten)

structure InStep (env : Env) (head tail : UInt8) (s : TCPServer) : Prop where
  headEq : s.packHead = head
  tailEq : s.packTail = tail
  parser : ∀ (id : Nat) (c : SessionCtx), s.ctxs.cells[id]? = some c → ParserOk env head tail c
  linked : ∀ (id : Nat) (c : SessionCtx) (k : Nat), s.ctxs.cells[id]? = some c → c.parentSession = some k → c.tcpHandle = .opened true →
    Linked env head tail s.objs id c k
  isolated : ∀ (k : Nat) (o : Session), s.objs[k]? = some o →
    o.frames.map FullPacket.frame = (charScanner env head tail).outputs o.received.flatten
  chunks : ∀ (k : Nat) (o : Session), s.objs[k]? = some o → ∀ chunk ∈ o.received, chunk.length ≤ bufferSize

section Steps
variable {env : Env} {head tail : UInt8} {s s' : TCPServer} {id k : Nat} {c : SessionCtx} {o : Session}

theorem InStep.parsers (h : InStep env head tail s) : ParsersOk env s := by
  intro id c hc
  rw [h.headEq, h.tailEq]
  exact h.parser id c hc

theorem InStep.quiet (h : InStep env head tail s) (hhead : s'.packHead = s.packHead) (htail : s'.packTail = s.packTail)
    (hparsers : ParsersOk env s')
    (hcells : ∀ (id : Nat) (c' : SessionCtx) (k : Nat), s'.ctxs.cells[id]? = some c' → c'.parentSession = some k →
      c'.tcpHandle = .opened true → ∃ c, s.ctxs.cells[id]? = some c ∧ c.parentSession = some k ∧
        c.tcpHandle = .opened true ∧ c'.packet = c.packet)
    (hobjs : ∀ k : Nat, (s'.objs[k]?).map Session.stream = (s.objs[k]?).map Session.stream) :
    InStep env head tail s' := by
  -- Every session is one of those before, with the same stream.
  have hback : ∀ {k : Nat} {o' : Session}, s'.objs[k]? = some o' →
      ∃ o, s.objs[k]? = some o ∧ o'.received = o.received ∧ o'.frames = o.frames := by
    intro k o' ho'
    have heq := hobjs k
    rw [ho', Option.map_some, eq_comm, Option.map_eq_some_iff] at heq
    obtain ⟨o, ho, heq⟩ := heq
    exact ⟨o, ho, (stream_eq heq.symm).2⟩
  refine ⟨hhead.trans h.headEq, htail.trans h.tailEq, ?_, ?_, ?_, ?_⟩
  · rw [← h.headEq, ← h.tailEq, ← hhead, ← htail]
    exact hparsers
  · intro id c' k hc' hk hr'
    obtain ⟨c, hc, hk, hr, hp⟩ := hcells id c' k hc' hk hr'
    obtain ⟨o, junk, ho, hctx, hjunk, hin⟩ := h.linked id c k hc hk hr
    have heq := hobjs k
    rw [ho, Option.map_some, Option.map_eq_some_iff] at heq
    obtain ⟨o', ho', heq⟩ := heq
    obtain ⟨hctx', hrec, hframes⟩ := stream_eq heq
    refine ⟨o', junk, ho', hctx'.trans hctx, hjunk, ?_⟩
    rw [hp, hrec, hframes]
    exact hin
  · intro k o' ho'
    obtain ⟨o, ho, hrec, hframes⟩ := hback ho'
    rw [hrec, hframes]
    exact h.isolated k o ho
  · intro k o' ho'
    obtain ⟨o, ho, hrec, -⟩ := hback ho'
    rw [hrec]
    exact h.chunks k o ho

theorem InStep.received (h : InStep env head tail s) (hc : s.ctxs.cells[id]? = some c)
    (hr : c.tcpHandle = .opened true) {chunk : List UInt8} (hlen : chunk.length ≤ bufferSize) {r : Recv}
    (hrecv : recvdata env c.packet chunk = .ok r) :
    InStep env head tail ((s.setCtx id { c with packet := r.sync }).record c chunk r.calls) := by
  have hparsers : ParsersOk env ((s.setCtx id { c with packet := r.sync }).record c chunk r.calls) :=
    h.parsers.change (.received hc hr hlen hrecv)
  cases hk : c.parentSession with
  | none =>
    rw [TCPServer.record, hk] at hparsers ⊢
    refine h.quiet rfl rfl hparsers (fun j d m hd hm hr' => ?_) fun _ => rfl
    obtain ⟨rfl, rfl⟩ | ⟨-, hd⟩ := Pool.getElem?_set_cases hd
    · cases hm
    · exact ⟨d, hd, hm, hr', rfl⟩
  | some k =>
    obtain ⟨o, junk, ho, hctx, hjunk, hin⟩ := h.linked id c k hc hk hr
    have hlt := (List.getElem?_eq_some_iff.1 ho).1
    have hin' : Synced env head tail r.sync (o.frames ++ r.calls) (junk ++ (o.received ++ [chunk]).flatten) :=
      hin.recv_chunk hlen hrecv
    obtain rfl := h.headEq
    obtain rfl := h.tailEq
    simp only [TCPServer.record, hk, TCPServer.setCtx, ho, TCPServer.setObj] at hparsers ⊢
    refine ⟨rfl, rfl, hparsers, ?_, ?_, ?_⟩
    · intro j d m hd hm hr'
      obtain ⟨rfl, rfl⟩ | ⟨hji, hd⟩ := Pool.getElem?_set_cases hd
      · obtain rfl : k = m := Option.some.inj hm
        exact ⟨_, junk, List.getElem?_set_self hlt, hctx, hjunk, hin'⟩
      · -- The session of another context is another session.
        obtain ⟨p, junk', hp, hctx', hjunk', hin''⟩ := h.linked j d m hd hm hr'
        have hkm : k ≠ m := by
          rintro rfl
          obtain rfl := Option.some.inj (ho.symm.trans hp)
          exact hji (hctx'.symm.trans hctx)
        exact ⟨p, junk', by rw [List.getElem?_set_ne hkm]; exact hp, hctx', hjunk', hin''⟩
    · intro j p hp
      obtain ⟨rfl, rfl⟩ | ⟨-, hp⟩ := Pool.getElem?_set_cases hp
      · have hout := hin'.outputs
        rwa [outputs_junk hjunk] at hout
      · exact h.isolated j p hp
    · intro j p hp
      obtain ⟨rfl, rfl⟩ | ⟨-, hp⟩ := Pool.getElem?_set_cases hp
      · intro x hx
        rcases List.mem_append.1 hx with hx | hx
        · exact h.chunks _ o ho x hx
        · rw [List.mem_singleton.1 hx]
          exact hlen
      · exact h.chunks j p hp

theorem ParserOk.start_rest (h : ParserOk env head tail c) (hrest : c.packet.AtRest head) :
    ∃ junk, head ∉ junk ∧ Synced env head tail (c.packet.setPacketCB.start head tail) [] junk := by
  rcases h with ⟨calls, received, hin⟩ | ⟨hnew, -⟩
  · rw [hin.sound.start_eq]
    exact hin.restart hrest
  · exact ⟨[], List.not_mem_nil, by rw [hnew]; exact started_synced env head tail⟩

theorem InStep.accepted (h : InStep env head tail s) (hid : (s.ctxs.fetch (.alloc env)).2 = id)
    (hc : (s.ctxs.fetch (.alloc env)).1.cells[id]? = some c) (hnew : s.sessions.lookup (s.sId + 1) = none)
    (hrest : s.AcceptsAtRest (.onConnection 0 0 0 0)) :
    InStep env head tail { s with
      sId := s.sId + 1
      ctxs := s.fetchedWith env
        ⟨.opened true, .ctx, c.packet.setPacketCB.start s.packHead s.packTail, s.sId + 1, some s.objs.length⟩
      objs := s.objs ++ [⟨id, false, false, [], []⟩]
      sessions := s.sessions ++ [(s.sId + 1, s.objs.length)]
      notes := s.notes ++ [Note.newConnect (s.sId + 1) []] } := by
  have hparsers := h.parsers.change (.accepted hid hc hnew)
  -- A new context has a new parser; one of the pool was at rest.
  have hpark : c.packet.AtRest s.packHead := by
    rcases Pool.fetch_found rfl (hid ▸ hc) with rfl | ⟨rest, ha, hd⟩
    · exact new_atRest env s.packHead
    · exact hrest rfl rfl rfl rfl _ rest c ha hd
  obtain ⟨junk, hjunk, hin⟩ := (h.parsers.fetched hc).start_rest hpark
  obtain rfl := h.headEq
  obtain rfl := h.tailEq
  have hold : ∀ {m : Nat} {o : Session}, s.objs[m]? = some o →
      (s.objs ++ [Session.mk id false false [] []])[m]? = some o := by
    intro m o ho
    rwa [List.getElem?_append_left (List.getElem?_eq_some_iff.1 ho).1]
  have hcase : ∀ {m : Nat} {o : Session}, (s.objs ++ [Session.mk id false false [] []])[m]? = some o →
      s.objs[m]? = some o ∨ o = ⟨id, false, false, [], []⟩ := by
    intro m o ho
    rcases Nat.lt_or_ge m s.objs.length with hm | hm
    · rw [List.getElem?_append_left hm] at ho
      exact .inl ho
    · rw [List.getElem?_append_right hm] at ho
      exact .inr (List.mem_singleton.1 (List.mem_of_getElem? ho))
  refine ⟨rfl, rfl, hparsers, ?_, ?_, ?_⟩
  · intro j d m hd hm hr
    obtain ⟨rfl, rfl⟩ | ⟨-, hd⟩ := Pool.getElem?_set_cases hd
    · obtain rfl := Option.some.inj hm
      refine ⟨⟨id, false, false, [], []⟩, junk, by simp, hid.symm, hjunk, ?_⟩
      rw [List.flatten_nil, List.append_nil]
      exact hin
    · rcases Pool.fetch_lookup rfl hd with hd | rfl
      · obtain ⟨o, junk', ho, hlinked⟩ := h.linked j d m hd hm hr
        exact ⟨o, junk', hold ho, hlinked⟩
      · cases hm
  · intro m o ho
    rcases hcase ho with ho | rfl
    · exact h.isolated m o ho
    · exact (Scanner.outputs_wait _ (Scanner.verdict_nil _)).symm
  · intro m o ho
    rcases hcase ho with ho | rfl
    · exact h.chunks m o ho
    · intro chunk hchunk
      cases hchunk

/-- A context of the pool after one was fetched and replaced by one that serves no session. -/
theorem fetchedWith_reading {c' d : SessionCtx} {j : Nat} (hnone : c'.parentSession = none)
    (hd : (s.fetchedWith env c').cells[j]? = some d) (hm : d.parentSession = some k) : s.ctxs.cells[j]? = some d := by
  obtain ⟨-, rfl⟩ | ⟨-, hd⟩ := Pool.getElem?_set_cases hd
  · rw [hnone] at hm
    cases hm
  · rcases Pool.fetch_lookup rfl hd with hd | rfl
    · exact hd
    · cases hm

/-- A context found after one was replaced by one that is not reading. -/
theorem set_reading {c' d : SessionCtx} {j : Nat} (hd : (s.ctxs.cells.set id c')[j]? = some d)
    (hr : d.tcpHandle = .opened true) (hno : c'.tcpHandle ≠ .opened true) : s.ctxs.cells[j]? = some d := by
  obtain ⟨-, rfl⟩ | ⟨-, hd⟩ := Pool.getElem?_set_cases hd
  · exact absurd hr hno
  · exact hd

/-- **What a callback does** keeps the sessions in step. -/
theorem InStep.change (h : InStep env head tail s) {e : ServerEvent} (hrest : s.AcceptsAtRest e)
    (he : Change env s e s') : InStep env head tail s' := by
  have hparsers := h.parsers.change he
  cases he with
  | flags hf =>
    refine h.quiet hf.packHead hf.packTail hparsers (fun j d m hd hm hr => ?_) fun k => by rw [hf.objs]
    rw [hf.ctxs] at hd
    exact ⟨d, hd, hm, hr, rfl⟩
  | received hc hh hlen hr => exact h.received hc hh hlen hr
  | initFailed hid hc =>
    refine h.quiet rfl rfl hparsers (fun j d m hd hm hr => ?_) fun _ => rfl
    rw [Pool.recycle_cells] at hd
    exact ⟨d, fetchedWith_reading rfl hd hm, hm, hr, rfl⟩
  | acceptFailed hid hc hlt hfail =>
    refine h.quiet rfl rfl hparsers (fun j d m hd hm hr => ?_) fun _ => rfl
    rw [Pool.recycle_cells] at hd
    exact ⟨d, fetchedWith_reading rfl hd hm, hm, hr, rfl⟩
  | readFailed hid hc =>
    refine h.quiet rfl rfl hparsers (fun j d m hd hm hr => ?_) fun _ => rfl
    exact ⟨d, fetchedWith_reading rfl hd hm, hm, hr, rfl⟩
  | accepted hid hc hnew => exact h.accepted hid hc hnew hrest
  | closing hm hr hh =>
    refine h.quiet rfl rfl hparsers (fun j d m hd hm hr => ?_) fun _ => rfl
    exact ⟨d, set_reading hd hr nofun, hm, hr, rfl⟩
  | closedAll he hhead htail havail hreleased hcells hobjs hsessions hsId hnotes =>
    refine h.quiet hhead htail hparsers (fun j d m hd hm hr => ?_) fun k => by rw [hobjs]
    -- Nothing reads any more.
    rw [hcells, Option.map_eq_some_iff] at hd
    obtain ⟨c, -, rfl⟩ := hd
    refine absurd hr ?_
    unfold closedCell closedSession closeWalk
    split
    · exact nofun
    · cases c.tcpHandle <;> exact nofun
  | forgotten hc hh =>
    refine h.quiet rfl rfl hparsers (fun j d m hd hm hr => ?_) fun _ => rfl
    exact ⟨d, set_reading hd hr nofun, hm, hr, rfl⟩
  | recycled hc hh =>
    refine h.quiet rfl rfl hparsers (fun j d m hd hm hr => ?_) fun _ => rfl
    rw [recycleOneCtx, Pool.recycle_cells] at hd
    exact ⟨d, set_reading hd hr nofun, hm, hr, rfl⟩
  | @sessionClosed sid k o c hm hr hh =>
    refine h.quiet rfl rfl hparsers (fun j d m hd hm hr => ?_) fun j => ?_
    · rw [Pool.recycle_cells] at hd
      exact ⟨d, set_reading hd hr nofun, hm, hr, rfl⟩
    · by_cases hj : k = j
      · subst hj
        rw [List.getElem?_set_self (List.getElem?_eq_some_iff.1 hr.obj).1, hr.obj]
        rfl
      · rw [List.getElem?_set_ne hj]
  | stopped hraw => exact h.quiet rfl rfl hparsers (fun j d m hd hm hr => ⟨d, hd, hm, hr, rfl⟩) fun _ => rfl

theorem start_inStep (env : Env) (head tail : UInt8) : InStep env head tail (start head tail) where
  headEq := rfl
  tailEq := rfl
  parser := by simp [start, Pool.empty]
  linked := by simp [start, Pool.empty]
  isolated := by simp [start]
  chunks := by simp [start]

theorem InStep.isolated_fresh (h : InStep env head tail s) (ho : s.objs[k]? = some o) : s.Isolated env o := by
  intro p calls hrun
  rw [h.headEq, h.tailEq] at hrun
  exact frames_fresh (h.chunks k o ho) (h.isolated k o ho) hrun

end Steps

end TCPServer

open TCPServer

/-! **Sessions are isolated** where every connection is accepted with a parser at rest. -/

theorem sessions_isolated (env : Env) (head tail : UInt8) (es : List ServerEvent) (s : TCPServer)
    (hrest : Along (step env) AcceptsAtRest (TCPServer.start head tail) es)
    (hrun : run (step env) (TCPServer.start head tail) es = .ok s) : ∀ o ∈ s.objs, s.Isolated env o := by
  have hstep : ∀ s e s', Registry s [] ∧ InStep env head tail s → AcceptsAtRest s e → step env s e = .ok s' →
      Registry s' [] ∧ InStep env head tail s' :=
    fun _ _ _ h hr hs => ⟨h.1.step hs, h.2.change hr (step_change h.1 hs)⟩
  have hkeep := run_keeps hstep ⟨start_registry head tail, start_inStep env head tail⟩ hrest hrun
  intro o ho
  obtain ⟨k, hk⟩ := List.mem_iff_getElem?.1 ho
  exact hkeep.2.isolated_fresh hk

/-- A server between the delimiters 1 and 2 with one context, which serves the last of the
sessions `objs` and has the parser `p`. -/
def serving (sid : Int) (p : PacketSync) (objs : List Session) (notes : List Note) : TCPServer :=
  { TCPServer.start 1 2 with
    sId := sid
    ctxs := ⟨[⟨.opened true, .ctx, p, sid, some (objs.length - 1)⟩], [], []⟩
    objs := objs
    sessions := [(sid, objs.length - 1)]
    notes := notes }

theorem serving_recv (objs : List Session) {o : Session} {sid : Int} {p : PacketSync} {notes : List Note}
    {chunk : List UInt8} {r : Recv} (hr : recvdata zeroEnv p chunk = .ok r) (hlen : chunk.length ≤ bufferSize)
    (hne : chunk.isEmpty = false) :
    step zeroEnv (serving sid p (objs ++ [o]) notes) (.recv 0 chunk) =
      .ok (serving sid r.sync (objs ++ [{ o with received := o.received ++ [chunk], frames := o.frames ++ r.calls }])
        notes) := by
  have hlast : (objs ++ [o]).length - 1 = objs.length := by rw [List.length_append]; rfl
  have hget : (objs ++ [o])[objs.length]? = some o := by simp
  have hset : ∀ o', (objs ++ [o]).set objs.length o' = objs ++ [o'] := by simp
  have hlast' : ∀ o' : Session, (objs ++ [o']).length - 1 = objs.length := by
    intro o'
    rw [List.length_append]
    rfl
  simp only [step, serving, List.getElem?_cons_zero, hlen, and_self, if_true, TCPServer.onRecv, hne, hr, ok_bind,
    pure_ok, TCPServer.setCtx, TCPServer.record, Pool.store, hlast, hlast', hget, TCPServer.setObj, hset,
    Bool.false_eq_true, if_false, List.set_cons_zero]

/-- The context is used twice: its first connection receives `chunk`, its second an empty frame. -/
def reuseRun (chunk : List UInt8) : List ServerEvent :=
  [.onConnection 0 0 0 0, .recv 0 chunk, .recvError 0, .handleClosed 0, .onConnection 0 0 0 0, .recv 0 emptyFrame]

/-- The callbacks of such a run. -/
def reuseNotes : List Note := [.newConnect 1 [], .tcpClose 1 [.sessions], .newConnect 2 []]

section Reuse
variable {chunk : List UInt8} {r r' : Recv}

/-- The first connection has received its chunk. -/
def firstServed (chunk : List UInt8) (r : Recv) : TCPServer :=
  serving 1 r.sync [⟨0, false, false, [chunk], r.calls⟩] [.newConnect 1 []]

theorem reuseRun_first (hr : recvdata zeroEnv (started zeroEnv 1 2) chunk = .ok r) (hlen : chunk.length ≤ bufferSize)
    (hne : chunk.isEmpty = false) :
    run (step zeroEnv) (TCPServer.start 1 2) [.onConnection 0 0 0 0, .recv 0 chunk] = .ok (firstServed chunk r) := by
  have hconnect : run (step zeroEnv) (TCPServer.start 1 2) [.onConnection 0 0 0 0] =
      .ok (serving 1 (started zeroEnv 1 2) [⟨0, false, false, [], []⟩] [.newConnect 1 []]) := rfl
  exact (run_append hconnect).trans (run_cons (serving_recv [] hr hlen hne) [])

theorem reuseRun_run (hr : recvdata zeroEnv (started zeroEnv 1 2) chunk = .ok r) (hlen : chunk.length ≤ bufferSize)
    (hne : chunk.isEmpty = false) (hstart : r.sync.setPacketCB.start 1 2 = r.sync)
    (hr' : recvdata zeroEnv r.sync emptyFrame = .ok r') :
    run (step zeroEnv) (TCPServer.start 1 2) (reuseRun chunk) = .ok (serving 2 r'.sync
      [⟨0, true, true, [chunk], r.calls⟩, ⟨0, false, false, [emptyFrame], r'.calls⟩] reuseNotes) := by
  have hreuse : run (step zeroEnv) (firstServed chunk r) [.recvError 0, .handleClosed 0, .onConnection 0 0 0 0] =
      .ok (serving 2 (r.sync.setPacketCB.start 1 2) [⟨0, true, true, [chunk], r.calls⟩, ⟨0, false, false, [], []⟩]
        reuseNotes) := rfl
  rw [hstart] at hreuse
  have hempty : step zeroEnv (serving 2 r.sync [⟨0, true, true, [chunk], r.calls⟩, ⟨0, false, false, [], []⟩] reuseNotes)
      (.recv 0 emptyFrame) = .ok (serving 2 r'.sync
        [⟨0, true, true, [chunk], r.calls⟩, ⟨0, false, false, [emptyFrame], r'.calls⟩] reuseNotes) :=
    serving_recv [⟨0, true, true, [chunk], r.calls⟩] hr' (by decide) rfl
  exact (run_append (reuseRun_first hr hlen hne)).trans ((run_append hreuse).trans (run_cons hempty []))

theorem reuseRun_atRest (hr : recvdata zeroEnv (started zeroEnv 1 2) chunk = .ok r) (hlen : chunk.length ≤ bufferSize)
    (hne : chunk.isEmpty = false) (hrest : r.sync.AtRest 1) :
    Along (step zeroEnv) AcceptsAtRest (TCPServer.start 1 2) (reuseRun chunk) := by
  have hfirst : Along (step zeroEnv) AcceptsAtRest (TCPServer.start 1 2) [.onConnection 0 0 0 0, .recv 0 chunk] := by
    refine ⟨?_, fun s₁ _ => ⟨trivial, fun _ _ => trivial⟩⟩
    rintro - - - - id rest c ⟨⟩
  refine hfirst.append (reuseRun_first hr hlen hne) ⟨trivial, fun s₁ h₁ => ?_⟩
  cases h₁
  refine ⟨trivial, fun s₂ h₂ => ?_⟩
  cases h₂
  refine ⟨?_, fun s₃ _ => ⟨trivial, fun _ _ => trivial⟩⟩
  rintro - - - - id rest c ⟨⟩ ⟨⟩
  exact hrest

end Reuse

theorem sessions_isolated_reuse :
    ∃ s, run (step zeroEnv) (TCPServer.start 1 2) (reuseRun frameAndJunk) = .ok s ∧ ∀ o ∈ s.objs, s.Isolated zeroEnv o := by
  obtain ⟨r, r', hr, hrest, hstart, hr'⟩ := frameAndJunk_rests
  have hrun := reuseRun_run hr (by decide) rfl hstart hr'
  exact ⟨_, hrun, sessions_isolated zeroEnv 1 2 _ _ (reuseRun_atRest hr (by decide) rfl hrest) hrun⟩

/-- A frame begun on one connection swallows the next one's. -/
theorem sessions_isolated_fails :
    ¬ ∀ env head tail es s, run (step env) (TCPServer.start head tail) es = .ok s →
      ∀ o ∈ s.objs, s.Isolated env o := by
  intro hall
  obtain ⟨r, r', hr, hstart, hr', p, calls, hfresh, hne⟩ := cutFrame_leaks
  have hrun := reuseRun_run hr (by decide) rfl hstart hr'
  apply hne
  exact hall zeroEnv 1 2 (reuseRun cutFrame) _ hrun ⟨0, false, false, [emptyFrame], r'.calls⟩ (by simp [serving]) p calls
    hfresh

end Uvnet

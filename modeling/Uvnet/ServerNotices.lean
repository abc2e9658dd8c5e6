import Uvnet.ServerRegistry

/- What a server tells its user about connections.

   1. `Told`: a registered session has been announced and not been reported closed; every
      other session announced has been reported closed once, after it was announced.
   2. `Told.change`: every callback keeps this. A session leaves `_sessions` in
      `SessionClosed` only, whichever way its handle was closed, and that reports it.
   3. `connection_events_complete`: when the loop thread ends no session is left, so all have
      been reported before the last callback, `TcpCloseCB` with -1. -/
namespace Uvnet
open CMachine ObjectPool StepRun

/-- The callback announces the session `sid`. -/
def Note.opens (sid : Int) : Note → Bool
  | .newConnect sid' _ => sid' == sid
  | .tcpClose _ _ => false

/-- The callback reports the session `sid` closed. -/
def Note.closes (sid : Int) : Note → Bool
  | .newConnect _ _ => false
  | .tcpClose sid' _ => sid' == sid

/-- Every session announced is reported closed once, after that and before the last callback;
nothing else is reported closed. -/
structure EventsComplete (notes : List Note) : Prop where
  each : ∀ sid held, Note.newConnect sid held ∈ notes →
    notes.countP (Note.opens sid) = 1 ∧ notes.countP (Note.closes sid) = 1 ∧
      ∃ before between after held' held'', notes = before ++ Note.newConnect sid held' ::
        (between ++ Note.tcpClose sid held'' :: (after ++ [Note.tcpClose (-1) []]))
  only : ∀ sid held, 0 ≤ sid → Note.tcpClose sid held ∈ notes → ∃ held', Note.newConnect sid held' ∈ notes

/-- The session was announced, and is not reported closed. -/
structure Pending (notes : List Note) (sid : Int) : Prop where
  opened : notes.countP (Note.opens sid) = 1
  notClosed : notes.countP (Note.closes sid) = 0

/-- The session was announced, and reported closed after that. -/
structure Ended (notes : List Note) (sid : Int) : Prop where
  opened : notes.countP (Note.opens sid) = 1
  closed : notes.countP (Note.closes sid) = 1
  order : ∃ before between after held held', notes =
    before ++ Note.newConnect sid held :: (between ++ Note.tcpClose sid held' :: after)

section Notes
variable {notes : List Note} {sid : Int} {n : Note}

theorem opens_eq (h : n.opens sid = true) : ∃ held, n = .newConnect sid held := by
  cases n with
  | newConnect sid' held => exact ⟨held, by rw [beq_iff_eq.1 h]⟩
  | tcpClose sid' held => cases h

theorem closes_eq (h : n.closes sid = true) : ∃ held, n = .tcpClose sid held := by
  cases n with
  | newConnect sid' held => cases h
  | tcpClose sid' held => exact ⟨held, by rw [beq_iff_eq.1 h]⟩

theorem Pending.append (h : Pending notes sid) (ho : n.opens sid = false) (hc : n.closes sid = false) :
    Pending (notes ++ [n]) sid where
  opened := by rw [List.countP_append, List.countP_singleton, ho, h.opened]; rfl
  notClosed := by rw [List.countP_append, List.countP_singleton, hc, h.notClosed]; rfl

theorem Ended.append (h : Ended notes sid) (ho : n.opens sid = false) (hc : n.closes sid = false) :
    Ended (notes ++ [n]) sid where
  opened := by rw [List.countP_append, List.countP_singleton, ho, h.opened]; rfl
  closed := by rw [List.countP_append, List.countP_singleton, hc, h.closed]; rfl
  order := by
    obtain ⟨before, between, after, held, held', heq⟩ := h.order
    refine ⟨before, between, after ++ [n], held, held', ?_⟩
    rw [heq]
    simp only [List.append_assoc, List.cons_append]

theorem Pending.close (h : Pending notes sid) (held : List Mutex) : Ended (notes ++ [Note.tcpClose sid held]) sid where
  opened := by rw [List.countP_append, List.countP_singleton, h.opened]; rfl
  closed := by
    have hc : Note.closes sid (.tcpClose sid held) = true := beq_self_eq_true sid
    rw [List.countP_append, List.countP_singleton, hc, h.notClosed]
    rfl
  order := by
    have hpos : 0 < notes.countP (Note.opens sid) := by
      rw [h.opened]
      exact Nat.one_pos
    obtain ⟨n, hm, hn⟩ := List.countP_pos_iff.1 hpos
    obtain ⟨held', rfl⟩ := opens_eq hn
    obtain ⟨before, after, heq⟩ := List.append_of_mem hm
    refine ⟨before, after, [], held', held, ?_⟩
    rw [heq, List.append_assoc, List.cons_append]

end Notes

namespace TCPServer

/-- What has been told about the sessions, when the registry holds `sessions`. -/
structure Told (s : TCPServer) : Prop where
  pending : ∀ entry ∈ s.sessions, Pending s.notes entry.1
  opened : ∀ sid held, Note.newConnect sid held ∈ s.notes →
    0 < sid ∧ sid ≤ s.sId ∧ (sid ∈ s.sessions.map Prod.fst ∨ Ended s.notes sid)
  closed : ∀ sid held, 0 ≤ sid → Note.tcpClose sid held ∈ s.notes → Ended s.notes sid

section Told
variable {env : Env} {s s' : TCPServer} {k : Nat} {sid : Int}

theorem Told.frame (h : Told s) (hsessions : s'.sessions = s.sessions) (hnotes : s'.notes = s.notes)
    (hsId : s.sId ≤ s'.sId) : Told s' where
  pending := by rw [hsessions, hnotes]; exact h.pending
  opened := by
    rw [hsessions, hnotes]
    intro sid held hm
    obtain ⟨hpos, hle, hcase⟩ := h.opened sid held hm
    exact ⟨hpos, Int.le_trans hle hsId, hcase⟩
  closed := by rw [hnotes]; exact h.closed

theorem Told.new (h : Told s) (hr : Registry s []) : s.notes.countP (Note.opens (s.sId + 1)) = 0 ∧
    s.notes.countP (Note.closes (s.sId + 1)) = 0 := by
  have hfresh : ∀ held, Note.newConnect (s.sId + 1) held ∉ s.notes := by
    intro held hm
    have := (h.opened _ _ hm).2.1
    omega
  constructor
  · rw [List.countP_eq_zero]
    intro n hm hn
    obtain ⟨held, rfl⟩ := opens_eq hn
    exact hfresh held hm
  · rw [List.countP_eq_zero]
    intro n hm hn
    obtain ⟨held, rfl⟩ := closes_eq hn
    -- What is reported closed was announced before.
    have hnonneg := hr.sId_nonneg
    obtain ⟨before, between, after, held', held'', heq⟩ := (h.closed _ _ (by omega) hm).order
    refine hfresh held' ?_
    rw [heq]
    exact List.mem_append_right _ List.mem_cons_self

theorem Told.accepted (h : Told s) (hr : Registry s []) (hsessions : s'.sessions = s.sessions ++ [(s.sId + 1, k)])
    (hnotes : s'.notes = s.notes ++ [Note.newConnect (s.sId + 1) []]) (hsId : s'.sId = s.sId + 1) : Told s' := by
  obtain ⟨hopens, hcloses⟩ := h.new hr
  -- The new number is above all the others.
  have hold : ∀ {sid : Int}, sid ≤ s.sId → Note.opens sid (.newConnect (s.sId + 1) []) = false := by
    intro sid hle
    have hne : s.sId + 1 ≠ sid := by omega
    exact beq_eq_false_iff_ne.2 hne
  have hself : Note.opens (s.sId + 1) (.newConnect (s.sId + 1) []) = true := beq_self_eq_true _
  refine ⟨?_, ?_, ?_⟩
  · rw [hsessions, hnotes]
    intro entry he
    rcases List.mem_append.1 he with he | he
    · exact (h.pending entry he).append (hold (hr.sid_le entry he).2) rfl
    · rw [List.mem_singleton.1 he]
      refine ⟨?_, ?_⟩
      · rw [List.countP_append, List.countP_singleton, hself, hopens]
        rfl
      · rw [List.countP_append, hcloses]
        rfl
  · rw [hsessions, hnotes, hsId]
    intro sid held hm
    rcases List.mem_append.1 hm with hm | hm
    · obtain ⟨hpos, hle, hcase⟩ := h.opened sid held hm
      refine ⟨hpos, by omega, ?_⟩
      rcases hcase with hreg | hended
      · left
        rw [List.map_append]
        exact List.mem_append_left _ hreg
      · exact .inr (hended.append (hold hle) rfl)
    · obtain ⟨rfl, -⟩ := Note.newConnect.inj (List.mem_singleton.1 hm)
      have := hr.sId_nonneg
      refine ⟨by omega, Int.le_refl _, .inl ?_⟩
      rw [List.map_append]
      exact List.mem_append_right _ List.mem_cons_self
  · rw [hnotes]
    intro sid held hpos hm
    rcases List.mem_append.1 hm with hm | hm
    · have hended := h.closed sid held hpos hm
      obtain ⟨before, between, after, held', held'', heq⟩ := hended.order
      have hopened : Note.newConnect sid held' ∈ s.notes := by
        rw [heq]
        exact List.mem_append_right _ List.mem_cons_self
      exact hended.append (hold (h.opened sid held' hopened).2.1) rfl
    · cases List.mem_singleton.1 hm

theorem Told.sessionClosed (h : Told s) (hm : (sid, k) ∈ s.sessions)
    (hsessions : s'.sessions = s.sessions.filter fun entry => entry.1 ≠ sid) {held : List Mutex}
    (hnotes : s'.notes = s.notes ++ [Note.tcpClose sid held]) (hsId : s'.sId = s.sId) : Told s' := by
  have hended : Ended s'.notes sid := by
    rw [hnotes]
    exact (h.pending _ hm).close held
  have hother : ∀ {sid' : Int}, sid' ≠ sid → Note.closes sid' (.tcpClose sid held) = false :=
    fun hne => beq_eq_false_iff_ne.2 hne.symm
  -- A session that has ended stays so, and the one closed here ends.
  have hkeep : ∀ {sid' : Int}, Ended s.notes sid' → Ended s'.notes sid' := by
    intro sid' he
    by_cases heq : sid' = sid
    · rw [heq]
      exact hended
    · rw [hnotes]
      exact he.append rfl (hother heq)
  refine ⟨?_, ?_, ?_⟩
  · rw [hsessions]
    intro entry he
    obtain ⟨he, hne⟩ := List.mem_filter.1 he
    rw [hnotes]
    exact (h.pending entry he).append rfl (hother (by simpa using hne))
  · intro sid' held' hm'
    rw [hnotes] at hm'
    rw [hsId]
    rcases List.mem_append.1 hm' with hm' | hm'
    · obtain ⟨hpos, hle, hcase⟩ := h.opened sid' held' hm'
      refine ⟨hpos, hle, ?_⟩
      by_cases heq : sid' = sid
      · exact .inr (heq ▸ hended)
      · rcases hcase with hreg | hend
        · left
          obtain ⟨entry, he, rfl⟩ := List.mem_map.1 hreg
          rw [hsessions]
          exact List.mem_map_of_mem (List.mem_filter.2 ⟨he, by simpa using heq⟩)
        · exact .inr (hkeep hend)
    · cases List.mem_singleton.1 hm'
  · intro sid' held' hpos hm'
    rw [hnotes] at hm'
    rcases List.mem_append.1 hm' with hm' | hm'
    · exact hkeep (h.closed sid' held' hpos hm')
    · obtain ⟨rfl, -⟩ := Note.tcpClose.inj (List.mem_singleton.1 hm')
      exact hended

theorem Told.stopped (h : Told s) (hr : Registry s []) (hsessions : s'.sessions = s.sessions)
    (hnotes : s'.notes = s.notes ++ [Note.tcpClose (-1) []]) (hsId : s'.sId = s.sId) : Told s' := by
  have hother : ∀ {sid : Int}, 0 ≤ sid → Note.closes sid (.tcpClose (-1) []) = false := by
    intro sid hpos
    have hne : -1 ≠ sid := by omega
    exact beq_eq_false_iff_ne.2 hne
  refine ⟨?_, ?_, ?_⟩
  · rw [hsessions, hnotes]
    intro entry he
    have := (hr.sid_le entry he).1
    exact (h.pending entry he).append rfl (hother (by omega))
  · rw [hsessions, hnotes, hsId]
    intro sid held hm
    rcases List.mem_append.1 hm with hm | hm
    · obtain ⟨hpos, hle, hcase⟩ := h.opened sid held hm
      exact ⟨hpos, hle, hcase.imp_right fun he => he.append rfl (hother (by omega))⟩
    · cases List.mem_singleton.1 hm
  · rw [hnotes]
    intro sid held hpos hm
    rcases List.mem_append.1 hm with hm | hm
    · exact (h.closed sid held hpos hm).append rfl (hother hpos)
    · obtain ⟨rfl, -⟩ := Note.tcpClose.inj (List.mem_singleton.1 hm)
      cases hpos

/-- **Every callback** tells what it has to. -/
theorem Told.change (h : Told s) (hr : Registry s []) {e : ServerEvent} (hc : Change env s e s') : Told s' := by
  have hnext : s.sId ≤ s.sId + 1 := Int.le_add_one (Int.le_refl _)
  cases hc with
  | flags hf => exact h.frame hf.sessions hf.notes (Int.le_of_eq hf.sId.symm)
  | @received _ c chunk r hc hh hlen hrecv =>
    have hsame := SameRegistry.received hc r.sync chunk r.calls
    exact h.frame hsame.sessions hsame.notes (Int.le_of_eq hsame.sId.symm)
  | initFailed hid hc => exact h.frame rfl rfl (Int.le_refl _)
  | acceptFailed hid hc hlt hfail => exact h.frame rfl rfl hnext
  | readFailed hid hc => exact h.frame rfl rfl hnext
  | accepted hid hc hnew => exact h.accepted hr rfl rfl rfl
  | closing hm hr' hh => exact h.frame rfl rfl (Int.le_refl _)
  | closedAll _ _ _ havail hreleased hcells hobjs hsessions hsId hnotes =>
    exact h.frame hsessions hnotes (Int.le_of_eq hsId.symm)
  | forgotten hc hh => exact h.frame rfl rfl (Int.le_refl _)
  | recycled hc hh => exact h.frame rfl rfl (Int.le_refl _)
  | sessionClosed hm hr' hh => exact h.sessionClosed hm rfl rfl rfl
  | stopped hraw => exact h.stopped hr rfl rfl rfl

theorem start_told (head tail : UInt8) : Told (TCPServer.start head tail) where
  pending := by simp [TCPServer.start]
  opened := by simp [TCPServer.start]
  closed := by simp [TCPServer.start]

theorem Registry.no_sessions (h : Registry s []) (hraw : ∀ c ∈ s.ctxs.cells, c.tcpHandle = .raw) : s.sessions = [] := by
  rw [List.eq_nil_iff_forall_not_mem]
  intro entry he
  obtain ⟨o, c, hr⟩ := h.registered entry he
  have hc := hraw c (List.mem_of_getElem? hr.cell)
  rcases hr.handle with hopen | ⟨hclosing, -⟩
  · rw [hc] at hopen
    cases hopen
  · rw [hc] at hclosing
    cases hclosing

theorem Told.complete (h : Told s) (hempty : s.sessions = []) : EventsComplete (s.notes ++ [Note.tcpClose (-1) []]) := by
  -- No session is registered, so every session announced has ended.
  have hopened : ∀ sid held, Note.newConnect sid held ∈ s.notes → 0 < sid ∧ Ended s.notes sid := by
    intro sid held hm
    obtain ⟨hpos, -, hcase⟩ := h.opened sid held hm
    refine ⟨hpos, hcase.resolve_left ?_⟩
    rw [hempty]
    exact List.not_mem_nil
  refine ⟨?_, ?_⟩
  · intro sid held hm
    rcases List.mem_append.1 hm with hm | hm
    · obtain ⟨hpos, hend⟩ := hopened sid held hm
      have hne : -1 ≠ sid := by omega
      have hend' : Ended (s.notes ++ [Note.tcpClose (-1) []]) sid := hend.append rfl (beq_eq_false_iff_ne.2 hne)
      refine ⟨hend'.opened, hend'.closed, ?_⟩
      obtain ⟨before, between, after, held', held'', heq⟩ := hend.order
      refine ⟨before, between, after, held', held'', ?_⟩
      rw [heq]
      simp only [List.append_assoc, List.cons_append]
    · cases List.mem_singleton.1 hm
  · intro sid held hpos hm
    rcases List.mem_append.1 hm with hm | hm
    · obtain ⟨before, between, after, held', held'', heq⟩ := (h.closed sid held hpos hm).order
      refine ⟨held', ?_⟩
      rw [heq]
      exact List.mem_append_left _ (List.mem_append_right _ List.mem_cons_self)
    · obtain ⟨rfl, -⟩ := Note.tcpClose.inj (List.mem_singleton.1 hm)
      cases hpos

end Told

end TCPServer

open TCPServer

/-! **The user is told everything**: when the loop thread ends, every session announced has been
reported closed once, after it was announced and before the end, and none is left. -/

theorem connection_events_complete (env : Env) (head tail : UInt8) (es : List ServerEvent) (s s' : TCPServer)
    (hrun : run (step env) (TCPServer.start head tail) es = .ok s) (hlive : s.isClosed = false)
    (hstop : step env s .stop = .ok s') (hend : s'.isClosed = true) :
    s.sessions = [] ∧ EventsComplete s'.notes := by
  have hstep : ∀ s e s', Registry s [] ∧ Told s → True → step env s e = .ok s' → Registry s' [] ∧ Told s' := by
    rintro s e s' ⟨hr, h⟩ - hs
    exact ⟨hr.step hs, h.change hr (step_change hr hs)⟩
  have hkeep := run_keeps hstep ⟨start_registry head tail, start_told head tail⟩ (Along.of_forall (fun _ _ _ => trivial) _)
    hrun
  simp only [step] at hstop
  split at hstop
  · next hg =>
    cases hstop
    have hempty := hkeep.1.no_sessions hg.2.2.2
    exact ⟨hempty, hkeep.2.complete hempty⟩
  · cases hstop
    rw [hlive] at hend
    cases hend

/-- Two connections: one fails, the other is open when the server is closed. -/
def twoSessions : List ServerEvent :=
  [.onConnection 0 0 0 0, .onConnection 0 0 0 0, .recvError 0, .handleClosed 0, .close, .asyncClose, .handleClosed 1,
    .serverClosed]

theorem connection_events_complete_two :
    ∃ s s', run (step zeroEnv) (TCPServer.start 1 2) twoSessions = .ok s ∧ step zeroEnv s .stop = .ok s' ∧
      s.sessions = [] ∧ EventsComplete s'.notes :=
  ⟨_, _, rfl, rfl, connection_events_complete zeroEnv 1 2 twoSessions _ _ rfl rfl rfl rfl⟩

end Uvnet

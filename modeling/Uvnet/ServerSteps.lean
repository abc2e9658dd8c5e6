import Uvnet.TcpServer
import Uvnet.RecvRun

/- What one callback does to the contexts, the sessions and their registry.

   `Change` says it once, as one of its cases, and what the runs of a server keep is proved
   from these. Some of them rest on what holds between callbacks (`Registry`): every context
   that was not released is in `_avail_ctxs`, or belongs to one registered session, or waits
   for `RecycleSessionCtx`; a registered session and its context name each other, and its
   handle is reading or waits for `_session_close`. Read errors and close callbacks never
   fail then (`recvError_total`, `handleClosed_total`). -/
namespace Uvnet
open CMachine ObjectPool

namespace TCPServer

/-- The contexts of the sessions with the given entries. -/
def ctxsOf (s : TCPServer) (entries : List (Int × Nat)) : List Nat :=
  entries.filterMap fun entry => (s.objs[entry.2]?).map Session.ctx

/-- The contexts of the registered sessions. -/
def owners (s : TCPServer) : List Nat := s.ctxsOf s.sessions

/-- Whether the context `id` waits for `RecycleSessionCtx`. -/
def awaiting (s : TCPServer) (id : Nat) : Nat :=
  if (s.ctxs.cells[id]?).map SessionCtx.tcpHandle = some (.closing .recycleSessionCtx) then 1 else 0

/-- Session `k` with its context `c` is registered under `sid`. -/
structure Registered (s : TCPServer) (sid : Int) (k : Nat) (o : Session) (c : SessionCtx) : Prop where
  obj : s.objs[k]? = some o
  cell : s.ctxs.cells[o.ctx]? = some c
  notClosed : o.isClosed = false
  sidEq : c.sid = sid
  parent : c.parentSession = some k
  handle : c.tcpHandle = .opened true ∨ (c.tcpHandle = .closing .sessionClose ∧ c.handleData = .session k)

/-- The state of the registry, with the contexts `inHand` in the middle of a callback. -/
structure Registry (s : TCPServer) (inHand : List Nat) : Prop where
  accounted : s.ctxs.Accounted fun id => s.owners.count id + s.awaiting id + inHand.count id
  avail_le : s.ctxs.avail.length ≤ maxListSize + 1
  sId_nonneg : 0 ≤ s.sId
  sids : (s.sessions.map Prod.fst).Nodup
  sid_le : ∀ entry ∈ s.sessions, 0 < entry.1 ∧ entry.1 ≤ s.sId
  registered : ∀ entry ∈ s.sessions, ∃ o c, Registered s entry.1 entry.2 o c
  unowned : ∀ (id : Nat) (c : SessionCtx), s.ctxs.cells[id]? = some c → id ∉ s.owners →
    c.tcpHandle ≠ .opened true ∧ c.tcpHandle ≠ .closing .sessionClose

section Registry
variable {env : Env} {s s' : TCPServer} {inHand : List Nat} {id k : Nat} {sid : Int} {c : SessionCtx} {o : Session}

theorem mem_owners : id ∈ s.owners ↔ ∃ entry ∈ s.sessions, ∃ o, s.objs[entry.2]? = some o ∧ o.ctx = id := by
  simp only [owners, ctxsOf, List.mem_filterMap, Option.map_eq_some_iff]

theorem Registered.mem (h : Registered s sid k o c) (hm : (sid, k) ∈ s.sessions) : o.ctx ∈ s.owners :=
  mem_owners.2 ⟨_, hm, o, h.obj, rfl⟩

theorem Registry.owner (h : Registry s inHand) (hid : id ∈ s.owners) (hc : s.ctxs.cells[id]? = some c) :
    ∃ sid k o, (sid, k) ∈ s.sessions ∧ o.ctx = id ∧ Registered s sid k o c := by
  obtain ⟨⟨sid, k⟩, hm, o, ho, rfl⟩ := mem_owners.1 hid
  obtain ⟨o', c', hreg⟩ := h.registered _ hm
  obtain rfl := Option.some.inj (ho.symm.trans hreg.obj)
  obtain rfl := Option.some.inj (hc.symm.trans hreg.cell)
  exact ⟨sid, k, o, hm, rfl, hreg⟩

/-- A handle that is read from, or waits for `_session_close`, is a session's. -/
theorem Registry.session_of_handle (h : Registry s inHand) (hc : s.ctxs.cells[id]? = some c)
    (hh : c.tcpHandle = .opened true ∨ c.tcpHandle = .closing .sessionClose) :
    ∃ sid k o, (sid, k) ∈ s.sessions ∧ o.ctx = id ∧ Registered s sid k o c := by
  apply h.owner _ hc
  by_contra hno
  obtain ⟨hopen, hclosing⟩ := h.unowned id c hc hno
  exact hh.elim hopen hclosing

theorem awaiting_pos : 0 < s.awaiting id ↔ ∃ c, s.ctxs.cells[id]? = some c ∧ c.tcpHandle = .closing .recycleSessionCtx := by
  unfold awaiting
  rw [← Option.map_eq_some_iff]
  split <;> simp_all

theorem Registry.avail (h : Registry s inHand) (hid : id ∈ s.ctxs.avail) :
    id ∉ s.owners ∧ s.awaiting id = 0 ∧ id ∉ inHand := by
  obtain ⟨-, -, hzero⟩ := h.accounted.avail_lt hid
  refine ⟨?_, by omega, ?_⟩
  · rw [← List.count_eq_zero]
    omega
  · rw [← List.count_eq_zero]
    omega

end Registry

/-! What one callback does. -/

/-- The two servers differ in flags and in the server's own handles only. -/
structure OnlyFlags (s s' : TCPServer) : Prop where
  ctxs : s'.ctxs = s.ctxs
  objs : s'.objs = s.objs
  sessions : s'.sessions = s.sessions
  sId : s'.sId = s.sId
  notes : s'.notes = s.notes
  packHead : s'.packHead = s.packHead
  packTail : s'.packTail = s.packTail

/-- The two servers differ in flags and in what has been received only. -/
structure SameRegistry (s s' : TCPServer) : Prop where
  avail : s'.ctxs.avail = s.ctxs.avail
  released : s'.ctxs.released = s.ctxs.released
  cells : ∀ id : Nat, (s'.ctxs.cells[id]?).map (fun c => (c.tcpHandle, c.handleData, c.sid, c.parentSession)) =
    (s.ctxs.cells[id]?).map fun c => (c.tcpHandle, c.handleData, c.sid, c.parentSession)
  objs : ∀ k : Nat, (s'.objs[k]?).map (fun o => (o.ctx, o.isClosed)) = (s.objs[k]?).map fun o => (o.ctx, o.isClosed)
  sessions : s'.sessions = s.sessions
  sId : s'.sId = s.sId
  notes : s'.notes = s.notes

/-- `Session::Close` on the session of a context. -/
def closedSession (c : SessionCtx) : SessionCtx :=
  { c with tcpHandle := .closing .sessionClose, handleData := .session (c.parentSession.getD 0) }

/-- What closing the server does to one context. -/
def closedCell (s : TCPServer) (id : Nat) (c : SessionCtx) : SessionCtx :=
  if id ∈ s.owners then closedSession c else { c with tcpHandle := closeWalk c.tcpHandle }

/-- The pool after `_fetch_one_ctx` with `c` stored in the context fetched. -/
def fetchedWith (env : Env) (s : TCPServer) (c : SessionCtx) : Pool SessionCtx :=
  (s.ctxs.fetch (.alloc env)).1.store (s.ctxs.fetch (.alloc env)).2 c

/-- The events that run `_close`. -/
def runsClose : ServerEvent → Bool
  | .start | .asyncClose => true
  | _ => false

/-- **What a callback does** to the contexts, the sessions and the registry. -/
inductive Change (env : Env) (s : TCPServer) : ServerEvent → TCPServer → Prop
  | flags {e : ServerEvent} {s' : TCPServer} (h : OnlyFlags s s') : Change env s e s'
  | received {id : Nat} {c : SessionCtx} {chunk : List UInt8} {r : Recv} (hc : s.ctxs.cells[id]? = some c)
      (hh : c.tcpHandle = .opened true) (hlen : chunk.length ≤ bufferSize) (hr : recvdata env c.packet chunk = .ok r) :
      Change env s (.recv id chunk) ((s.setCtx id { c with packet := r.sync }).record c chunk r.calls)
  | initFailed {tcpInit accept readStart : Int} {id : Nat} {c : SessionCtx}
      (hid : (s.ctxs.fetch (.alloc env)).2 = id) (hc : (s.ctxs.fetch (.alloc env)).1.cells[id]? = some c) :
      Change env s (.onConnection 0 tcpInit accept readStart)
        { s with ctxs := (s.fetchedWith env { c with parentSession := none }).recycle maxListSize id }
  | acceptFailed {accept readStart : Int} {id : Nat} {c : SessionCtx}
      (hid : (s.ctxs.fetch (.alloc env)).2 = id) (hc : (s.ctxs.fetch (.alloc env)).1.cells[id]? = some c)
      (hlt : s.sId < intMax) (hfail : accept ≠ 0) :
      Change env s (.onConnection 0 0 accept readStart)
        { s with
          sId := s.sId + 1
          ctxs := (s.fetchedWith env { c with
            tcpHandle := .opened false, handleData := .ctx, sid := s.sId + 1, parentSession := none }).recycle
              maxListSize id }
  | readFailed {readStart : Int} {id : Nat} {c : SessionCtx}
      (hid : (s.ctxs.fetch (.alloc env)).2 = id) (hc : (s.ctxs.fetch (.alloc env)).1.cells[id]? = some c) :
      Change env s (.onConnection 0 0 0 readStart)
        { s with
          sId := s.sId + 1
          ctxs := s.fetchedWith env
            ⟨.closing .recycleSessionCtx, .ctx, c.packet.setPacketCB.start s.packHead s.packTail, s.sId + 1, none⟩ }
  | accepted {id : Nat} {c : SessionCtx}
      (hid : (s.ctxs.fetch (.alloc env)).2 = id) (hc : (s.ctxs.fetch (.alloc env)).1.cells[id]? = some c)
      (hnew : s.sessions.lookup (s.sId + 1) = none) :
      Change env s (.onConnection 0 0 0 0)
        { s with
          sId := s.sId + 1
          ctxs := s.fetchedWith env
            ⟨.opened true, .ctx, c.packet.setPacketCB.start s.packHead s.packTail, s.sId + 1, some s.objs.length⟩
          objs := s.objs ++ [⟨id, false, false, [], []⟩]
          sessions := s.sessions ++ [(s.sId + 1, s.objs.length)]
          notes := s.notes ++ [Note.newConnect (s.sId + 1) []] }
  | closing {sid : Int} {k : Nat} {o : Session} {c : SessionCtx} (hm : (sid, k) ∈ s.sessions)
      (hr : Registered s sid k o c) (hh : c.tcpHandle = .opened true) :
      Change env s (.recvError o.ctx)
        (s.setCtx o.ctx { c with tcpHandle := .closing .sessionClose, handleData := .session k })
  | closedAll {e : ServerEvent} {s' : TCPServer} (he : runsClose e = true) (hhead : s'.packHead = s.packHead)
      (htail : s'.packTail = s.packTail)
      (havail : s'.ctxs.avail = s.ctxs.avail) (hreleased : s'.ctxs.released = s.ctxs.released)
      (hcells : ∀ id : Nat, s'.ctxs.cells[id]? = (s.ctxs.cells[id]?).map (s.closedCell id)) (hobjs : s'.objs = s.objs)
      (hsessions : s'.sessions = s.sessions) (hsId : s'.sId = s.sId) (hnotes : s'.notes = s.notes) :
      Change env s e s'
  | forgotten {id : Nat} {c : SessionCtx} (hc : s.ctxs.cells[id]? = some c)
      (hh : c.tcpHandle = .closing .afterServerClose) :
      Change env s (.handleClosed id) (s.setCtx id { c with tcpHandle := .raw })
  | recycled {id : Nat} {c : SessionCtx} (hc : s.ctxs.cells[id]? = some c)
      (hh : c.tcpHandle = .closing .recycleSessionCtx) :
      Change env s (.handleClosed id) ((s.setCtx id { c with tcpHandle := .raw }).recycleOneCtx id)
  | sessionClosed {sid : Int} {k : Nat} {o : Session} {c : SessionCtx} (hm : (sid, k) ∈ s.sessions)
      (hr : Registered s sid k o c) (hh : c.tcpHandle = .closing .sessionClose) :
      Change env s (.handleClosed o.ctx)
        { s with
          ctxs := (s.ctxs.store o.ctx { c with tcpHandle := .raw }).recycle maxListSize o.ctx
          objs := s.objs.set k { o with isClosed := true, deleted := true }
          sessions := s.sessions.filter fun entry => entry.1 ≠ sid
          notes := s.notes ++ [Note.tcpClose sid [.sessions]] }
  | stopped (hraw : ∀ c ∈ s.ctxs.cells, c.tcpHandle = .raw) :
      Change env s .stop
        { s with isClosed := true, isUserClosed := false, notes := s.notes ++ [Note.tcpClose (-1) []] }

section Change
variable {env : Env} {s s' : TCPServer} {inHand : List Nat} {id k : Nat} {sid : Int} {c : SessionCtx} {o : Session}

theorem ctx_ok (h : s.ctxs.cells[id]? = some c) : s.ctx id = .ok c := by
  rw [ctx, h]
  rfl

theorem obj_ok (h : s.objs[k]? = some o) : s.obj k = .ok o := by
  rw [obj, h]
  rfl

theorem OnlyFlags.same (h : OnlyFlags s s') : SameRegistry s s' where
  avail := by rw [h.ctxs]
  released := by rw [h.ctxs]
  cells _ := by rw [h.ctxs]
  objs _ := by rw [h.objs]
  sessions := h.sessions
  sId := h.sId
  notes := h.notes

theorem OnlyFlags.refl (s : TCPServer) : OnlyFlags s s := ⟨rfl, rfl, rfl, rfl, rfl, rfl, rfl⟩

theorem SameRegistry.trans {s'' : TCPServer} (h : SameRegistry s s') (h' : SameRegistry s' s'') : SameRegistry s s'' where
  avail := h'.avail.trans h.avail
  released := h'.released.trans h.released
  cells id := (h'.cells id).trans (h.cells id)
  objs k := (h'.objs k).trans (h.objs k)
  sessions := h'.sessions.trans h.sessions
  sId := h'.sId.trans h.sId
  notes := h'.notes.trans h.notes

theorem SameRegistry.setCtx (hc : s.ctxs.cells[id]? = some c) (packet : PacketSync) :
    SameRegistry s (s.setCtx id { c with packet := packet }) where
  avail := rfl
  released := rfl
  cells j := by
    simp only [TCPServer.setCtx, Pool.store]
    by_cases hj : id = j
    · subst hj
      rw [List.getElem?_set_self (List.getElem?_eq_some_iff.1 hc).1, hc]
      rfl
    · rw [List.getElem?_set_ne hj]
  objs _ := rfl
  sessions := rfl
  sId := rfl
  notes := rfl

theorem SameRegistry.record (s : TCPServer) (c : SessionCtx) (chunk : List UInt8) (calls : List FullPacket) :
    SameRegistry s (s.record c chunk calls) := by
  unfold TCPServer.record
  split
  · exact (OnlyFlags.refl s).same
  next k _ =>
  split
  · exact (OnlyFlags.refl s).same
  next o ho =>
  refine ⟨rfl, rfl, fun _ => rfl, fun j => ?_, rfl, rfl, rfl⟩
  simp only [TCPServer.setObj]
  by_cases hj : k = j
  · subst hj
    rw [List.getElem?_set_self (List.getElem?_eq_some_iff.1 ho).1, ho]
    rfl
  · rw [List.getElem?_set_ne hj]

theorem SameRegistry.received (hc : s.ctxs.cells[id]? = some c) (packet : PacketSync) (chunk : List UInt8)
    (calls : List FullPacket) : SameRegistry s ((s.setCtx id { c with packet := packet }).record c chunk calls) :=
  (SameRegistry.setCtx hc packet).trans (.record _ c chunk calls)

theorem lookup_of_mem (hnd : (s.sessions.map Prod.fst).Nodup) (hm : (sid, k) ∈ s.sessions) :
    s.sessions.lookup sid = some k := by
  obtain ⟨before, after, hcut⟩ := List.append_of_mem hm
  refine List.lookup_eq_some_iff.2 ⟨before, after, hcut, fun entry he => ?_⟩
  rw [hcut, List.map_append, List.map_cons, List.nodup_append] at hnd
  have := hnd.2.2 entry.1 (List.mem_map_of_mem he) sid List.mem_cons_self
  simpa using this.symm

theorem lookup_new (h : Registry s inHand) : s.sessions.lookup (s.sId + 1) = none := by
  rw [List.lookup_eq_none_iff]
  intro entry he
  have := (h.sid_le entry he).2
  have hne : s.sId + 1 ≠ entry.1 := by omega
  simpa using hne

theorem store_store (p : Pool SessionCtx) (id : Nat) (c c' : SessionCtx) : (p.store id c).store id c' = p.store id c' := by
  simp only [Pool.store, List.set_set]

theorem fetchOneCtx_eq (hs : s.fetchOneCtx env = .ok (s', id)) :
    (s.ctxs.fetch (.alloc env)).2 = id ∧ ∃ c, (s.ctxs.fetch (.alloc env)).1.cells[id]? = some c ∧
      s' = { s with ctxs := s.fetchedWith env { c with parentSession := none } } := by
  unfold fetchOneCtx at hs
  obtain ⟨c, hc, hs⟩ := bind_eq_ok.1 hs
  cases hs
  refine ⟨rfl, c, ?_, rfl⟩
  unfold ctx at hc
  split at hc
  · next hc' => cases hc; exact hc'
  · cases hc

theorem fetchedWith_cell (hid : (s.ctxs.fetch (.alloc env)).2 = id)
    (hc : (s.ctxs.fetch (.alloc env)).1.cells[id]? = some c) (d : SessionCtx) :
    (s.fetchedWith env d).cells[id]? = some d := by
  subst hid
  exact List.getElem?_set_self (List.getElem?_eq_some_iff.1 hc).1

theorem onConnection_change (h : Registry s []) {status tcpInit accept readStart : Int}
    (hs : s.onConnection env status tcpInit accept readStart = .ok s') :
    Change env s (.onConnection status tcpInit accept readStart) s' := by
  unfold TCPServer.onConnection at hs
  by_cases hstatus : status = 0
  · subst hstatus
    rw [if_neg (not_not.2 rfl)] at hs
    obtain ⟨⟨s₁, id⟩, hfetch, hs₁⟩ := bind_eq_ok.1 hs
    obtain ⟨rfl, c, hc, rfl⟩ := fetchOneCtx_eq hfetch
    clear hs hfetch
    by_cases hinit : tcpInit = 0
    · subst hinit
      simp only [ne_eq, not_true_eq_false, if_false] at hs₁
      obtain ⟨sid, hsid, hs₂⟩ := bind_eq_ok.1 hs₁
      obtain ⟨rfl, hmax⟩ := cint_eq_ok hsid
      rw [ctx_ok (fetchedWith_cell rfl hc _), ok_bind] at hs₂
      clear hs₁ hsid
      by_cases haccept : accept = 0
      · subst haccept
        simp only [not_true_eq_false, if_false] at hs₂
        by_cases hread : readStart = 0
        · subst hread
          simp only [not_true_eq_false, if_false, pure_ok, Except.ok.injEq] at hs₂
          subst hs₂
          have hnew := lookup_new h
          simp only [newSession, setCtx, hnew, Option.isSome_none, Bool.false_eq_true, if_false, fetchedWith, store_store]
          exact .accepted rfl hc hnew
        · simp only [hread, not_false_eq_true, if_true, uvClose, ok_bind, pure_ok, Except.ok.injEq] at hs₂
          subst hs₂
          simp only [setCtx, fetchedWith, store_store]
          exact .readFailed rfl hc
      · simp only [haccept, not_false_eq_true, if_true, pure_ok, Except.ok.injEq] at hs₂
        subst hs₂
        simp only [setCtx, recycleOneCtx, fetchedWith, store_store]
        exact .acceptFailed rfl hc (by omega) haccept
    · simp only [ne_eq, hinit, not_false_eq_true, if_true, pure_ok, Except.ok.injEq] at hs₁
      subst hs₁
      exact .initFailed rfl hc
  · rw [if_pos hstatus] at hs
    cases hs
    exact .flags ⟨rfl, rfl, rfl, rfl, rfl, rfl, rfl⟩

/-- `Session::Close` on a registered session closes its handle, or makes libuv abort. -/
theorem Registered.close_opened (h : Registered s sid k o c) (hh : c.tcpHandle = .opened true) :
    s.sessionClose k =
      .ok (s.setCtx o.ctx { c with tcpHandle := .closing .sessionClose, handleData := .session k }) := by
  simp only [sessionClose, obj_ok h.obj, ok_bind, h.notClosed, Bool.false_eq_true, if_false, ctx_ok h.cell, hh, uvClose,
    pure_ok]

theorem Registered.close_closing (h : Registered s sid k o c) (hh : c.tcpHandle ≠ .opened true) :
    s.sessionClose k = .error .assertFailed := by
  obtain ⟨hclosing, -⟩ := h.handle.resolve_left hh
  simp only [sessionClose, obj_ok h.obj, ok_bind, h.notClosed, Bool.false_eq_true, if_false, ctx_ok h.cell, hclosing,
    uvClose, error_bind]

/-- `SessionClosed` on a session that has been closed: it is deleted and taken out of the registry. -/
theorem sessionClosed_eq (ho : s.objs[k]? = some o) (hclosed : o.isClosed = true) (hlookup : s.sessions.lookup sid = some k) :
    s.sessionClosed sid = .ok { s with
      ctxs := s.ctxs.recycle maxListSize o.ctx
      objs := s.objs.set k { o with deleted := true }
      sessions := s.sessions.filter fun entry => entry.1 ≠ sid
      notes := s.notes ++ [Note.tcpClose sid [.sessions]] } := by
  have hobj : ∀ notes ctxs, ({ s with notes := notes, ctxs := ctxs } : TCPServer).obj k = .ok o := fun _ _ => obj_ok ho
  simp only [sessionClosed, hlookup, hobj, ok_bind, deleteSession, sessionClose, recycleOneCtx, hclosed,
    if_true, pure_ok, setObj]

theorem recvError_total (h : Registry s []) (id : Nat) :
    ∃ s', step env s (.recvError id) = .ok s' ∧ Change env s (.recvError id) s' := by
  have hsame : Change env s (.recvError id) s := .flags (.refl s)
  simp only [step]
  cases hc : s.ctxs.cells[id]? with
  | none => exact ⟨s, rfl, hsame⟩
  | some c =>
    simp only
    by_cases hh : c.tcpHandle = .opened true
    · obtain ⟨sid, k, o, hm, rfl, hr⟩ := h.session_of_handle hc (.inl hh)
      rw [if_pos hh, hr.parent]
      exact ⟨_, hr.close_opened hh, .closing hm hr hh⟩
    · rw [if_neg hh]
      exact ⟨s, rfl, hsame⟩

/-- The close callback of a session's connection ends in `SessionClosed`. -/
theorem handleClosed_session (h : Registry s []) (hc : s.ctxs.cells[id]? = some c)
    (hh : c.tcpHandle = .closing .sessionClose) :
    ∃ sid k o, (sid, k) ∈ s.sessions ∧ o.ctx = id ∧ Registered s sid k o c ∧ step env s (.handleClosed id) = .ok { s with
      ctxs := (s.ctxs.store o.ctx { c with tcpHandle := .raw }).recycle maxListSize o.ctx
      objs := s.objs.set k { o with isClosed := true, deleted := true }
      sessions := s.sessions.filter fun entry => entry.1 ≠ sid
      notes := s.notes ++ [Note.tcpClose sid [.sessions]] } := by
  obtain ⟨sid, k, o, hm, rfl, hr⟩ := h.session_of_handle hc (.inr hh)
  have hdata : c.handleData = .session k := by
    rcases hr.handle with hopen | ⟨-, hdata⟩
    · rw [hh] at hopen
      cases hopen
    · exact hdata
  obtain rfl := hr.sidEq
  have hobj : (s.setCtx o.ctx { c with tcpHandle := .raw }).obj k = .ok o := obj_ok hr.obj
  have hset : ((s.setCtx o.ctx { c with tcpHandle := .raw }).setObj k { o with isClosed := true }).objs[k]? =
      some { o with isClosed := true } := List.getElem?_set_self (List.getElem?_eq_some_iff.1 hr.obj).1
  refine ⟨c.sid, k, o, hm, rfl, hr, ?_⟩
  simp only [step, hc, hh]
  unfold TCPServer.onClosed
  simp only
  split
  · next hctx =>
    rw [hdata] at hctx
    cases hctx
  next j hj =>
  obtain rfl : k = j := HandleData.session.inj (hdata.symm.trans hj)
  rw [hobj, ok_bind, sessionClosed_eq hset rfl (lookup_of_mem h.sids hm)]
  simp only [setCtx, setObj, List.set_set]

theorem handleClosed_total (h : Registry s []) (id : Nat) :
    ∃ s', step env s (.handleClosed id) = .ok s' ∧ Change env s (.handleClosed id) s' := by
  have hsame : Change env s (.handleClosed id) s := .flags (.refl s)
  cases hc : s.ctxs.cells[id]? with
  | none =>
    simp only [step, hc]
    exact ⟨s, rfl, hsame⟩
  | some c =>
    cases hh : c.tcpHandle with
    | raw =>
      simp only [step, hc, hh]
      exact ⟨s, rfl, hsame⟩
    | opened b =>
      simp only [step, hc, hh]
      exact ⟨s, rfl, hsame⟩
    | closing cb =>
      cases cb with
      | afterServerClose =>
        simp only [step, hc, hh]
        exact ⟨_, rfl, .forgotten hc hh⟩
      | recycleSessionCtx =>
        simp only [step, hc, hh]
        exact ⟨_, rfl, .recycled hc hh⟩
      | sessionClose =>
        obtain ⟨sid, k, o, hm, rfl, hr, hs⟩ := handleClosed_session h hc hh
        exact ⟨_, hs, .sessionClosed hm hr hh⟩

end Change

end TCPServer

end Uvnet

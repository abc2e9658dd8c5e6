import Uvnet.ServerTrace

/- When the `SessionCtx`s of a server are accessed, and when they are released.

   A context goes to `_avail_ctxs` when its connection is closed, and is released when there
   are more than `MAXLISTSIZE` in it. A released one has no handle in the loop any more
   (`DeadRaw`), belongs to no session, and no write is in flight for it (`CtxLife`), so
   whatever finds its contexts in these ways finds live ones. `SessionClosed` has a context
   of its own in hand when it releases it: `LOG_TRACE` then reads its `client_ip`. -/
namespace Uvnet
open CMachine ObjectPool ActionTrace

namespace TCPServer

/-- The handle of a released context was closed. -/
def DeadRaw (p : Pool SessionCtx) : Prop := p.Holds SessionCtx.tcpHandle (p.released.map fun id => (id, HandleState.raw))

section Dead
variable {env : Env} {s s' : TCPServer} {p p' : Pool SessionCtx} {inHand : List Nat} {id : Nat} {c : SessionCtx}

theorem deadRaw_iff : DeadRaw p ↔ ∀ id ∈ p.released, (p.cells[id]?).map SessionCtx.tcpHandle = some .raw := by
  simp [DeadRaw, Pool.Holds]

theorem DeadRaw.live (h : DeadRaw p) (hc : p.cells[id]? = some c) (hh : c.tcpHandle ≠ .raw) : id ∉ p.released := by
  intro hid
  have hraw := deadRaw_iff.1 h id hid
  rw [hc, Option.map_some, Option.some.injEq] at hraw
  exact hh hraw

theorem DeadRaw.store (h : DeadRaw p) (hid : id ∉ p.released) (c : SessionCtx) : DeadRaw (p.store id c) := by
  apply Pool.Holds.store h
  simpa using hid

theorem DeadRaw.closed (h : DeadRaw p) (hc : p.cells[id]? = some c) (hh : c.tcpHandle = .raw) (limit : Nat) :
    DeadRaw (p.recycle limit id) := by
  rw [deadRaw_iff, Pool.recycle_cells, Pool.recycle_released]
  intro j hj
  rcases List.mem_append.1 hj with hj | hj
  · exact deadRaw_iff.1 h j hj
  · have hid : j = id := by
      split at hj
      · exact List.mem_singleton.1 hj
      · cases hj
    rw [hid, hc, Option.map_some, hh]

theorem Registry.owner_live (h : Registry s inHand) (hid : id ∈ s.owners) : id ∉ s.ctxs.released := by
  apply h.accounted.held_live
  have hpos := List.count_pos_iff.2 hid
  omega

theorem Registry.fetched_live (h : Registry s []) (env : Env) : (s.ctxs.fetch (.alloc env)).2 ∉ s.ctxs.released := by
  have hlive : (s.ctxs.fetch (.alloc env)).2 ∉ (s.ctxs.fetch (.alloc env)).1.released := by
    apply (h.fetch env).accounted.held_live
    rw [List.count_cons_self]
    omega
  rwa [Pool.fetch_released] at hlive

/-- The context that `_fetch_one_ctx` took is replaced, and goes back or not. -/
theorem DeadRaw.fetched (h : DeadRaw s.ctxs) (hreg : Registry s [])
    (hcells : p'.cells = (s.fetchedWith env c).cells) (hreleased : p'.released = s.ctxs.released) : DeadRaw p' := by
  have hfetch : DeadRaw (s.ctxs.fetch (.alloc env)).1 := by
    rw [DeadRaw, Pool.fetch_released]
    exact Pool.Holds.fetch h (.alloc env)
  have hlive : (s.ctxs.fetch (.alloc env)).2 ∉ (s.ctxs.fetch (.alloc env)).1.released := by
    rw [Pool.fetch_released]
    exact hreg.fetched_live env
  have hstore : DeadRaw (s.fetchedWith env c) := hfetch.store hlive c
  have hsame : (s.fetchedWith env c).released = s.ctxs.released := Pool.fetch_released s.ctxs (.alloc env)
  rw [deadRaw_iff] at hstore ⊢
  rwa [hcells, hreleased, ← hsame]

theorem Change.releases_nothing (h : Registry s []) {e : ServerEvent} (hc : Change env s e s')
    (hne : ∀ id, e ≠ .handleClosed id) : s'.ctxs.released = s.ctxs.released := by
  cases hc with
  | flags hf => rw [hf.ctxs]
  | @received _ c chunk r hc hh hlen hr => exact (SameRegistry.received hc r.sync chunk r.calls).released
  | initFailed hid hc =>
    subst hid
    exact Pool.fetch_recycle_released h.avail_le _ _ _
  | acceptFailed hid hc hlt hfail =>
    subst hid
    exact Pool.fetch_recycle_released h.avail_le _ _ _
  | readFailed hid hc => exact Pool.fetch_released s.ctxs (.alloc env)
  | accepted hid hc hnew => exact Pool.fetch_released s.ctxs (.alloc env)
  | closing hm hr hh => rfl
  | closedAll _ _ _ havail hreleased hcells hobjs hsessions hsId hnotes => exact hreleased
  | forgotten hc hh => exact absurd rfl (hne _)
  | recycled hc hh => exact absurd rfl (hne _)
  | sessionClosed hm hr hh => exact absurd rfl (hne _)
  | stopped hraw => rfl

/-- **What a callback does** to released contexts. -/
theorem DeadRaw.change (hd : DeadRaw s.ctxs) (h : Registry s []) {e : ServerEvent} (hc : Change env s e s') : DeadRaw s'.ctxs := by
  have hset : ∀ {id : Nat} {c : SessionCtx} (d : SessionCtx), s.ctxs.cells[id]? = some c → c.tcpHandle ≠ .raw →
      DeadRaw (s.ctxs.store id d) := fun d hc hh => hd.store (hd.live hc hh) d
  have hself : ∀ {id : Nat} {c d : SessionCtx}, s.ctxs.cells[id]? = some c → (s.ctxs.store id d).cells[id]? = some d :=
    fun hc => List.getElem?_set_self (List.getElem?_eq_some_iff.1 hc).1
  cases hc with
  | flags hf => rwa [hf.ctxs]
  | @received _ c chunk r hc hh hlen hr =>
    have hsame := SameRegistry.received hc r.sync chunk r.calls
    rw [deadRaw_iff, hsame.released]
    intro id hid
    have hcell := congrArg (Option.map Prod.fst) (hsame.cells id)
    rw [Option.map_map, Option.map_map] at hcell
    exact hcell.trans (deadRaw_iff.1 hd id hid)
  | initFailed hid hc =>
    exact hd.fetched h (Pool.recycle_cells ..) (by subst hid; exact Pool.fetch_recycle_released h.avail_le _ _ _)
  | acceptFailed hid hc hlt hfail =>
    exact hd.fetched h (Pool.recycle_cells ..) (by subst hid; exact Pool.fetch_recycle_released h.avail_le _ _ _)
  | readFailed hid hc => exact hd.fetched h rfl (Pool.fetch_released s.ctxs (.alloc env))
  | accepted hid hc hnew => exact hd.fetched h rfl (Pool.fetch_released s.ctxs (.alloc env))
  | closing hm hr hh => exact hset _ hr.cell (by rw [hh]; simp)
  | closedAll _ _ _ havail hreleased hcells hobjs hsessions hsId hnotes =>
    rw [deadRaw_iff, hreleased]
    intro id hid
    have hraw := deadRaw_iff.1 hd id hid
    rw [Option.map_eq_some_iff] at hraw
    obtain ⟨c, hc, hh⟩ := hraw
    have hno : id ∉ s.owners := fun ho => h.owner_live ho hid
    rw [hcells, hc, Option.map_some, Option.map_some, closedCell, if_neg hno, hh]
    rfl
  | forgotten hc hh => exact hset _ hc (by rw [hh]; simp)
  | recycled hc hh => exact (hset _ hc (by rw [hh]; simp)).closed (hself hc) rfl maxListSize
  | sessionClosed hm hr hh => exact (hset _ hr.cell (by rw [hh]; simp)).closed (hself hr.cell) rfl maxListSize
  | stopped hraw => exact hd

theorem Change.keeps_owner (h : Registry s []) {e : ServerEvent} (hc : Change env s e s') (hid : id ∈ s.owners) :
    id ∈ s'.owners ∨ e = .handleClosed id := by
  cases hc with
  | flags hf =>
    left
    rwa [hf.same.owners]
  | @received _ c chunk r hc hh hlen hr =>
    left
    rwa [(SameRegistry.received hc r.sync chunk r.calls).owners]
  | initFailed => exact .inl hid
  | acceptFailed => exact .inl hid
  | readFailed => exact .inl hid
  | accepted =>
    left
    obtain ⟨entry, he, o, ho, hctx⟩ := mem_owners.1 hid
    apply mem_owners.2
    refine ⟨entry, List.mem_append_left _ he, o, ?_, hctx⟩
    show (s.objs ++ _)[entry.2]? = some o
    rw [List.getElem?_append_left (List.getElem?_eq_some_iff.1 ho).1]
    exact ho
  | closing => exact .inl hid
  | closedAll _ _ _ _ _ _ hobjs hsessions =>
    left
    rwa [owners, ctxsOf, hobjs, hsessions]
  | forgotten => exact .inl hid
  | recycled => exact .inl hid
  | @sessionClosed sid k o c hm hr hh =>
    by_cases heq : id = o.ctx
    · exact .inr (by rw [heq])
    left
    obtain ⟨⟨sid', k'⟩, he, o', ho', hctx⟩ := mem_owners.1 hid
    have hk : k ≠ k' := by
      intro hkk
      subst hkk
      obtain rfl := Option.some.inj (hr.obj.symm.trans ho')
      exact heq hctx.symm
    have hsid : sid' ≠ sid := by
      intro hss
      subst hss
      exact hk (Option.some.inj ((lookup_of_mem h.sids hm).symm.trans (lookup_of_mem h.sids he)))
    apply mem_owners.2
    exact ⟨(sid', k'), List.mem_filter.2 ⟨he, by simpa using hsid⟩, o', (List.getElem?_set_ne hk).trans ho', hctx⟩
  | stopped => exact .inl hid

end Dead

/-! What the callbacks access. -/

section Acts
variable {σ π : Type} {env : Env} {rt : Runtime σ} {e : Endian} {protocols : Protocols π} {s : TCPServer} {p : Pool SessionCtx}
  {dead : List Nat} {id : Nat}

theorem recycleActs_harmless (hroom : p.avail.length ≤ maxListSize) (id : Nat) : Harmless dead (recycleActs p id) := by
  rw [recycleActs, if_neg (Nat.not_lt.2 hroom)]
  simp

theorem recycleActs_live (hid : id ∉ dead) : AccessesLive dead (recycleActs p id) := by
  unfold recycleActs
  split <;> simp [hid]

theorem recycleActs_releases (p : Pool SessionCtx) (id : Nat) :
    releasedBy (recycleActs p id) = if maxListSize < p.avail.length then [id] else [] := by
  unfold recycleActs
  split <;> rfl

theorem connectionActs_harmless (havail : s.ctxs.avail.length ≤ maxListSize + 1) (hlive : (s.ctxs.fetch (.alloc env)).2 ∉ dead)
    (newConnCb : Bool) (status tcpInit accept readStart : Int) :
    Harmless dead (s.connectionActs env newConnCb status tcpInit accept readStart) := by
  have hroom : (s.ctxs.fetch (.alloc env)).1.avail.length ≤ maxListSize := Pool.fetch_avail_le (.alloc env) havail
  have hrecycle : Harmless dead (recycleActs (s.ctxs.fetch (.alloc env)).1 (s.ctxs.fetch (.alloc env)).2) :=
    recycleActs_harmless hroom _
  have hcall : Harmless dead (if newConnCb then [(.call (.newConnect (s.sId + 1)) : ServerAct)] else []) := by
    split <;> simp
  unfold connectionActs fetchActs
  split
  · exact harmless_nil
  · simp only [harmless_append, harmless_cons, Act.Gentle, harmless_nil, hlive, not_false_eq_true, true_and, and_true]
    split
    · exact hrecycle
    · simp only [harmless_cons, Act.Gentle, hlive, not_false_eq_true, true_and]
      split
      · exact hrecycle
      · split <;> simp [hlive, hcall]

theorem packetActs_harmless (hid : id ∉ dead) (p : FullPacket) : Harmless dead (packetActs rt e protocols id p) := by
  obtain ⟨protoIds, hacts⟩ := packetActs_calls id p
  rw [hacts]
  apply harmless_cons.2
  refine ⟨hid, fun a ha => ?_⟩
  obtain ⟨c, -, rfl⟩ := List.mem_map.1 ha
  trivial

theorem recvActs_harmless (hid : id ∉ dead) (c : SessionCtx) (chunk : List UInt8) :
    Harmless dead (recvActs rt protocols env id c chunk) := by
  unfold recvActs
  split
  · simp [hid]
  · split
    · exact harmless_cons.2 ⟨hid, harmless_flatMap _ fun p _ => packetActs_harmless hid p⟩
    · simp [hid]

theorem sessionCloseActs_harmless {k : Nat} {o : Session} (ho : s.objs[k]? = some o) (hlive : o.ctx ∉ dead) :
    Harmless dead (s.sessionCloseActs k) := by
  rw [sessionCloseActs, ho]
  simp only
  split <;> simp [hlive]

/-- `_close` finds the sessions in the registry, and the handles in the loop. -/
theorem closeAllActs_harmless (h : Registry s []) (hd : DeadRaw s.ctxs) : Harmless s.ctxs.released s.closeAllActs := by
  have hsessions : Harmless s.ctxs.released (s.sessions.flatMap fun entry => s.sessionCloseActs entry.2) := by
    apply harmless_flatMap
    intro entry he
    obtain ⟨o, c, hr⟩ := h.registered entry he
    exact sessionCloseActs_harmless hr.obj (h.owner_live (hr.mem he))
  have hwalk : Harmless s.ctxs.released s.walkActs := by
    apply harmless_flatMap
    intro id _
    split
    · exact harmless_nil
    · next hloop =>
      have hid : id ∉ s.ctxs.released := fun hid => hloop (deadRaw_iff.1 hd id hid)
      simp [hid]
  unfold closeAllActs
  split
  · exact harmless_nil
  · simp [hsessions, hwalk]

/-- **`SessionClosed` reads its context once more** after it has recycled it. -/
theorem sessionClosedActs_live_iff {closeCb : Bool} {sid : Int} {k : Nat} {o : Session}
    (hlookup : s.sessions.lookup sid = some k) (ho : s.objs[k]? = some o) (hlive : o.ctx ∉ dead) :
    AccessesLive dead (s.sessionClosedActs closeCb sid) ↔ s.ctxs.avail.length ≤ maxListSize := by
  have hcalls : ∀ acts, AccessesLive dead ((if closeCb then [(.call (.tcpClose sid) : ServerAct)] else []) ++ acts) ↔
      AccessesLive dead acts := by
    intro acts
    split <;> simp
  rw [sessionClosedActs, hlookup]
  simp only [ho, accessesLive_lock, List.append_assoc, hcalls]
  rw [accessesLive_append, recycleActs_releases]
  have hrecycle : AccessesLive dead (recycleActs s.ctxs o.ctx) := recycleActs_live hlive
  split
  · next hfull => simp [Nat.not_le.2 hfull]
  · next hroom => simp [hrecycle, hlive, Nat.not_lt.1 hroom]

theorem sessionClosedActs_releases {closeCb : Bool} {sid : Int} {k : Nat} {o : Session}
    (hlookup : s.sessions.lookup sid = some k) (ho : s.objs[k]? = some o) :
    releasedBy (s.sessionClosedActs closeCb sid) = if maxListSize < s.ctxs.avail.length then [o.ctx] else [] := by
  have hcall : releasedBy (if closeCb then [(.call (.tcpClose sid) : ServerAct)] else []) = [] := by
    split <;> rfl
  have hrest : releasedBy [(.access o.ctx : ServerAct)] = [] ∧ releasedBy [(.unlock .sessions : ServerAct)] = [] := ⟨rfl, rfl⟩
  rw [sessionClosedActs, hlookup]
  show releasedBy (_ ++ [(.unlock .sessions : ServerAct)]) = _
  simp only [ho, releasedBy_append, hcall, hrest, recycleActs_releases, List.nil_append, List.append_nil]

end Acts

end TCPServer

/-! Steps and runs. -/

namespace TracedServer
variable {σ π : Type} {env : Env} {rt : Runtime σ} {s s' : TracedServer π}

open TCPServer

/-- What holds of the contexts between callbacks. -/
structure CtxLife (s : TracedServer π) : Prop where
  registry : Registry s.server []
  dead : DeadRaw s.server.ctxs
  writes : ∀ id ∈ s.writes, id ∈ s.server.owners
  released : releasedBy s.trace = s.server.ctxs.released

/-- `SessionClosed` finds room in `_avail_ctxs`. -/
def RoomAtClose (s : TracedServer π) (e : TracedEvent π) : Prop :=
  SessionCloses s e → s.server.ctxs.avail.length ≤ maxListSize

theorem start_ctxLife (head tail : UInt8) : CtxLife (start head tail : TracedServer π) where
  registry := start_registry head tail
  dead := deadRaw_iff.2 fun id hid => by cases hid
  writes := fun id hid => by cases hid
  released := rfl

theorem sendActs_harmless {dead : List Nat} {id : Nat} (hid : id ∉ dead) (data : List UInt8) (iret : Int) :
    Harmless dead (sendActs id data iret) := by
  unfold sendActs paramActs
  split
  · simp [hid]
  · split <;> simp [hid]

theorem onSendActs_harmless {dead : List Nat} {id : Nat} (hid : id ∉ dead) (status : Int) :
    Harmless dead (onSendActs id status) := by
  unfold onSendActs paramActs
  split <;> simp [hid]

/-- **A step closes a handle, or does no harm.** -/
theorem Does.harmless (h : CtxLife s) {e : TracedEvent π} {acts : List ServerAct} (hdoes : Does env rt s e acts)
    (hne : ∀ id, e ≠ .loop (.handleClosed id)) : Harmless s.server.ctxs.released acts := by
  cases hdoes with
  | nothing => exact harmless_nil
  | connection => exact connectionActs_harmless h.registry.avail_le (h.registry.fetched_live env) _ _ _ _ _
  | recv hc hh => exact recvActs_harmless (h.dead.live hc (by rw [hh]; exact nofun)) _ _
  | @recvError id c hc hh =>
    obtain ⟨sid, k, o, hm, rfl, hr⟩ := h.registry.session_of_handle hc (.inl hh)
    have hlive := h.registry.owner_live (hr.mem hm)
    rw [hr.parent]
    exact harmless_cons.2 ⟨hlive, sessionCloseActs_harmless hr.obj hlive⟩
  | closeAll => exact closeAllActs_harmless h.registry h.dead
  | started => exact closeAllActs_harmless h.registry h.dead
  | closed => exact absurd rfl (hne _)
  | stopped => simp
  | send hid => exact sendActs_harmless (h.registry.owner_live hid) _ _
  | onSend hid => exact onSendActs_harmless (h.registry.owner_live (h.writes _ (List.mem_of_getElem? hid))) _
  | setRecvCB => simp [setRecvCBActs]

/-- **Live contexts only are accessed** where there is room for the one that is recycled. -/
theorem Does.live_iff (h : CtxLife s) {e : TracedEvent π} {acts : List ServerAct} (hdoes : Does env rt s e acts) :
    AccessesLive s.server.ctxs.released acts ↔ RoomAtClose s e := by
  have hother : ¬ SessionCloses s e → Harmless s.server.ctxs.released acts →
      (AccessesLive s.server.ctxs.released acts ↔ RoomAtClose s e) :=
    fun hno hharmless => ⟨fun _ hcloses => absurd hcloses hno, fun _ => hharmless.live⟩
  by_cases hclosed : ∃ id, e = .loop (.handleClosed id)
  · obtain ⟨id, rfl⟩ := hclosed
    cases hdoes with
    | nothing hno => exact hother hno harmless_nil
    | @closed _ c cb hw hc hh =>
      have hid : id ∉ s.server.ctxs.released := h.dead.live hc (by rw [hh]; exact nofun)
      rw [RoomAtClose, sessionCloses_iff hw hc hh]
      cases cb with
      | afterServerClose => simp [onClosedActs]
      | recycleSessionCtx =>
        have hrecycle : AccessesLive s.server.ctxs.released (recycleActs s.server.ctxs id) := recycleActs_live hid
        simp [onClosedActs, hid, hrecycle]
      | sessionClose =>
        obtain ⟨sid, k, o, hm, rfl, hr⟩ := h.registry.session_of_handle hc (.inr hh)
        obtain rfl := hr.sidEq
        have hlookup := lookup_of_mem h.registry.sids hm
        have hacts : AccessesLive s.server.ctxs.released (s.server.sessionClosedActs s.closeCb c.sid) ↔ _ :=
          sessionClosedActs_live_iff hlookup hr.obj hid
        rw [hlookup]
        simp [onClosedActs, hid, hacts]
  · have hne : ∀ id, e ≠ .loop (.handleClosed id) := fun id he => hclosed ⟨id, he⟩
    apply hother _ (hdoes.harmless h hne)
    intro hcloses
    obtain ⟨id, he, -⟩ := hcloses.handle
    exact hne id he

/-- The close callback of a handle releases what is missing from the pool afterwards. -/
theorem handleClosed_releases (h : CtxLife s) {id : Nat} {server : TCPServer}
    (hs : s.server.step env (.handleClosed id) = .ok server) :
    server.ctxs.released = s.server.ctxs.released ++ releasedBy (s.loopActs env rt (.handleClosed id)) := by
  by_cases hclosing : ∃ c cb, s.server.ctxs.cells[id]? = some c ∧ c.tcpHandle = .closing cb
  · obtain ⟨c, cb, hc, hh⟩ := hclosing
    rw [loopActs_closing hc hh]
    cases cb with
    | afterServerClose =>
      simp only [TCPServer.step, hc, hh] at hs
      rw [← Except.ok.inj hs]
      exact (List.append_nil _).symm
    | recycleSessionCtx =>
      simp only [TCPServer.step, hc, hh] at hs
      rw [← Except.ok.inj hs]
      show ((s.server.ctxs.store id _).recycle maxListSize id).released =
        s.server.ctxs.released ++ releasedBy (recycleActs s.server.ctxs id)
      rw [Pool.recycle_released, recycleActs_releases]
      rfl
    | sessionClose =>
      obtain ⟨sid, k, o, hm, rfl, hr, hserver⟩ := handleClosed_session h.registry hc hh
      obtain rfl := Except.ok.inj (hserver.symm.trans hs)
      obtain rfl := hr.sidEq
      show ((s.server.ctxs.store o.ctx _).recycle maxListSize o.ctx).released = s.server.ctxs.released ++
        releasedBy (s.server.sessionClosedActs s.closeCb c.sid)
      rw [Pool.recycle_released, sessionClosedActs_releases (lookup_of_mem h.registry.sids hm) hr.obj]
      rfl
  · obtain ⟨hserver, hacts⟩ := handleClosed_idle hclosing
    obtain rfl := Except.ok.inj (hserver.symm.trans hs)
    rw [hacts]
    exact (List.append_nil _).symm

theorem stepActs_releases (h : CtxLife s) {e : TracedEvent π} (hs : step env rt s e = .ok s') :
    s'.server.ctxs.released = s.server.ctxs.released ++ releasedBy (s.stepActs env rt e) := by
  by_cases hclosed : ∃ id, e = .loop (.handleClosed id)
  · obtain ⟨id, rfl⟩ := hclosed
    rw [step] at hs
    rw [stepActs]
    cases hw : s.waits (.handleClosed id) with
    | false =>
      rw [hw, if_neg Bool.false_ne_true] at hs
      obtain ⟨server, hserver, hs⟩ := bind_eq_ok.1 hs
      rw [if_neg Bool.false_ne_true, ← Except.ok.inj hs]
      exact handleClosed_releases h hserver
    | true =>
      rw [hw, if_pos rfl] at hs
      rw [if_pos rfl, ← Except.ok.inj hs]
      exact (List.append_nil _).symm
  · have hne : ∀ id, e ≠ .loop (.handleClosed id) := fun id he => hclosed ⟨id, he⟩
    rw [((stepActs_does e).harmless h hne).releases, List.append_nil]
    rcases step_server hs with ⟨heq, -⟩ | ⟨e', rfl, -, hserver, -⟩
    · rw [heq]
    · apply (step_change h.registry hserver).releases_nothing h.registry
      intro id he
      exact hne id (congrArg TracedEvent.loop he)

/-- The writes in flight are for connections of sessions, whose handles stay open. -/
theorem step_writes (h : CtxLife s) {e : TracedEvent π} (hs : step env rt s e = .ok s') :
    ∀ id ∈ s'.writes, id ∈ s'.server.owners := by
  intro id hid
  rcases step_server hs with ⟨heq, hwrites⟩ | ⟨e', rfl, hw, hserver, hwrites⟩
  · rw [heq]
    exact (hwrites id hid).elim (h.writes id) fun howner => howner
  · rw [hwrites] at hid
    rcases (step_change h.registry hserver).keeps_owner h.registry (h.writes id hid) with howner | heq
    · exact howner
    · -- libuv runs the callbacks of the writes first.
      rw [heq, waits, decide_eq_false_iff_not] at hw
      exact absurd hid hw

/-- **Every step** keeps what holds of the contexts. -/
theorem CtxLife.step (h : CtxLife s) {e : TracedEvent π} (hs : step env rt s e = .ok s') : CtxLife s' where
  registry := step_registry h.registry hs
  dead := by
    rcases step_server hs with ⟨heq, -⟩ | ⟨e', -, -, hserver, -⟩
    · rw [heq]
      exact h.dead
    · exact h.dead.change h.registry (step_change h.registry hserver)
  writes := step_writes h hs
  released := by rw [step_trace hs, releasedBy_append, h.released, stepActs_releases h hs]

end TracedServer

open TracedServer StepRun

/-- **No context is accessed after its release**, in every run in which `SessionClosed` finds at
most `MAXLISTSIZE` contexts in `_avail_ctxs` each time, and in no other. -/
theorem no_context_used_after_release {σ π : Type} (env : Env) (rt : Runtime σ) (head tail : UInt8) (es : List (TracedEvent π)) :
    Along (step env rt) RoomAtClose (TracedServer.start head tail) es ↔
      ∀ pre post s, es = pre ++ post → run (step env rt) (TracedServer.start head tail) pre = .ok s →
        AccessesLive [] s.trace := by
  have hstep : ∀ (s : TracedServer π) e s', CtxLife s → True → AccessesLive [] s.trace → step env rt s e = .ok s' →
      CtxLife s' ∧ (RoomAtClose s e ↔ AccessesLive [] s'.trace) := by
    intro s e s' h _ hlive hs
    refine ⟨h.step hs, ?_⟩
    rw [step_trace hs, accessesLive_append, List.nil_append, h.released, (stepActs_does e).live_iff h]
    exact (and_iff_right hlive).symm
  have hfault : ∀ (s : TracedServer π) e f, CtxLife s → True → step env rt s e = .error f → RoomAtClose s e :=
    fun s e f h _ hs hcloses => absurd hcloses (not_sessionCloses_of_fault h.registry hs)
  exact along_iff hstep hfault (start_ctxLife head tail) accessesLive_nil fun _ _ => trivial

/-- As many sessions at once, and all of their connections fail. -/
def sessionsAtOnce (n : Nat) : List (TracedEvent Unit) :=
  List.replicate n (.loop (.onConnection 0 0 0 0)) ++
    (List.range n).flatMap fun id => [.loop (.recvError id), .loop (.handleClosed id)]

theorem sessionsAtOnce_acts : lastActs 8 (run (step zeroEnv ByteStream.runtime) (TracedServer.start 1 2) (sessionsAtOnce 22)) =
    [.access 21, .lock .sessions, .lock .ctxs, .access 21, .release 21, .unlock .ctxs, .access 21, .unlock .sessions] := by
  decide +kernel

/-- The last of 22 contexts is read after its release. -/
theorem no_context_used_after_release_fails :
    ∃ s before after, run (step zeroEnv ByteStream.runtime) (TracedServer.start 1 2) (sessionsAtOnce 22) = .ok s ∧
      s.trace = before ++ .access 21 :: after ∧ 21 ∈ releasedBy before ∧ ¬ AccessesLive [] s.trace := by
  obtain ⟨s, front, hrun, htrace⟩ := lastActs_ok sessionsAtOnce_acts
  have hcut : s.trace = (front ++ [.access 21, .lock .sessions, .lock .ctxs, .access 21, .release 21, .unlock .ctxs]) ++
      .access 21 :: [.unlock .sessions] := by
    rw [htrace, List.append_assoc]
    rfl
  have hreleased : 21 ∈ releasedBy (front ++ [(.access 21 : ServerAct), .lock .sessions, .lock .ctxs, .access 21, .release 21,
      .unlock .ctxs]) := by
    rw [releasedBy_append]
    exact List.mem_append_right _ List.mem_cons_self
  refine ⟨s, _, _, hrun, hcut, hreleased, fun h => ?_⟩
  exact h _ _ _ hcut hreleased

end Uvnet

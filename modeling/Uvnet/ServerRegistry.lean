import Uvnet.ServerSteps

/- Who has which `SessionCtx`, and what `_sessions` says about it.

   Every piece of a callback keeps the state of the registry, with the contexts it has in
   hand in between (`Registry.fetch`, `Registry.newSession`, `Registry.unregister`, ...), so
   every callback is one of the cases of `Change` (`step_change`), every case keeps the
   registry (`Registry.change`), and every run does (`registry_in_order`). -/
namespace Uvnet
open CMachine ObjectPool StepRun

namespace TCPServer

/-! What keeps the registry in order. -/

section Kept
variable {env : Env} {s s' : TCPServer} {inHand inHand' : List Nat} {id j k : Nat} {sid : Int} {c c' : SessionCtx} {o : Session}

theorem SameRegistry.owners (h : SameRegistry s s') : s'.owners = s.owners := by
  unfold TCPServer.owners ctxsOf
  rw [h.sessions]
  congr 1
  funext entry
  have := congrArg (Option.map Prod.fst) (h.objs entry.2)
  rwa [Option.map_map, Option.map_map] at this

theorem SameRegistry.awaiting (h : SameRegistry s s') (id : Nat) : s'.awaiting id = s.awaiting id := by
  have := congrArg (Option.map Prod.fst) (h.cells id)
  rw [Option.map_map, Option.map_map] at this
  unfold TCPServer.awaiting
  rw [show (s'.ctxs.cells[id]?).map SessionCtx.tcpHandle = (s.ctxs.cells[id]?).map SessionCtx.tcpHandle from this]

theorem SameRegistry.length (h : SameRegistry s s') : s'.ctxs.cells.length = s.ctxs.cells.length := by
  refine eq_of_forall_lt_iff fun id => ?_
  have := congrArg Option.isSome (h.cells id)
  rw [Option.isSome_map, Option.isSome_map] at this
  have hlt : ∀ cells : List SessionCtx, (cells[id]?.isSome = true) = (id < cells.length) := fun cells => isSome_getElem? cells id
  rw [← hlt, ← hlt, this]

theorem Registered.same (h : SameRegistry s s') (hr : Registered s sid k o c) :
    ∃ o' c', Registered s' sid k o' c' := by
  have hobj := h.objs k
  rw [hr.obj, Option.map_some, Option.map_eq_some_iff] at hobj
  obtain ⟨o', ho', heq⟩ := hobj
  obtain ⟨hctx, hclosed⟩ := Prod.mk.inj heq
  have hcell := h.cells o.ctx
  rw [hr.cell, Option.map_some, Option.map_eq_some_iff] at hcell
  obtain ⟨c', hc', heq⟩ := hcell
  obtain ⟨hhandle, hdata, hsid, hparent⟩ := by simpa only [Prod.mk.injEq] using heq
  refine ⟨o', c', ho', by rwa [hctx], hclosed.trans hr.notClosed, hsid.trans hr.sidEq, hparent.trans hr.parent, ?_⟩
  rw [hhandle, hdata]
  exact hr.handle

theorem Registry.same (h : Registry s inHand) (hsame : SameRegistry s s') : Registry s' inHand where
  accounted := by
    intro id
    simp only [hsame.avail, hsame.released, hsame.owners, hsame.awaiting, hsame.length]
    exact h.accounted id
  avail_le := by rw [hsame.avail]; exact h.avail_le
  sId_nonneg := by rw [hsame.sId]; exact h.sId_nonneg
  sids := by rw [hsame.sessions]; exact h.sids
  sid_le := by rw [hsame.sessions, hsame.sId]; exact h.sid_le
  registered := by
    rw [hsame.sessions]
    intro entry he
    obtain ⟨o, c, hr⟩ := h.registered entry he
    exact hr.same hsame
  unowned := by
    intro id c hc hno
    rw [hsame.owners] at hno
    have hcell := hsame.cells id
    rw [hc, Option.map_some, eq_comm, Option.map_eq_some_iff] at hcell
    obtain ⟨d, hd, heq⟩ := hcell
    obtain ⟨hhandle, -⟩ := by simpa only [Prod.mk.injEq] using heq
    rw [← hhandle]
    exact h.unowned id d hd hno

theorem Registry.frame (h : Registry s inHand) (hctxs : s'.ctxs = s.ctxs) (hobjs : s'.objs = s.objs)
    (hsessions : s'.sessions = s.sessions) (hsId : s.sId ≤ s'.sId) : Registry s' inHand where
  accounted := by
    intro id
    simp only [TCPServer.owners, ctxsOf, TCPServer.awaiting, hctxs, hobjs, hsessions]
    exact h.accounted id
  avail_le := by rw [hctxs]; exact h.avail_le
  sId_nonneg := Int.le_trans h.sId_nonneg hsId
  sids := by rw [hsessions]; exact h.sids
  sid_le := by
    rw [hsessions]
    exact fun entry he => ⟨(h.sid_le entry he).1, Int.le_trans (h.sid_le entry he).2 hsId⟩
  registered := by
    rw [hsessions]
    intro entry he
    obtain ⟨o, c, hr⟩ := h.registered entry he
    exact ⟨o, c, by rw [hobjs]; exact hr.obj, by rw [hctxs]; exact hr.cell, hr.notClosed, hr.sidEq, hr.parent, hr.handle⟩
  unowned := by
    simp only [hctxs, TCPServer.owners, ctxsOf, hobjs, hsessions]
    exact h.unowned

theorem Registry.recycle (h : Registry s (id :: inHand)) : Registry (s.recycleOneCtx id) inHand := by
  have hcells : (s.recycleOneCtx id).ctxs.cells = s.ctxs.cells := Pool.recycle_cells ..
  have hawait : ∀ j, (s.recycleOneCtx id).awaiting j = s.awaiting j := by
    intro j
    simp only [TCPServer.awaiting, hcells]
  refine ⟨?_, Pool.recycle_avail_le h.avail_le id, h.sId_nonneg, h.sids, h.sid_le, ?_, ?_⟩
  · apply Pool.Accounted.recycle
    apply h.accounted.congr
    intro j
    rw [hawait, List.count_cons, List.count_singleton]
    simp only [TCPServer.owners]
    exact (Nat.add_assoc _ _ _).symm
  · intro entry he
    obtain ⟨o, c, hr⟩ := h.registered entry he
    exact ⟨o, c, hr.obj, by rw [hcells]; exact hr.cell, hr.notClosed, hr.sidEq, hr.parent, hr.handle⟩
  · rw [hcells]
    exact h.unowned

theorem Registry.inHand_free (h : Registry s (id :: inHand)) :
    id < s.ctxs.cells.length ∧ id ∉ s.owners ∧ s.awaiting id = 0 := by
  have hcount := h.accounted id
  simp only [List.count_cons_self] at hcount
  split at hcount
  · next hlt =>
    refine ⟨hlt, ?_, by omega⟩
    rw [← List.count_eq_zero]
    omega
  · omega

theorem awaiting_set (hlt : id < s.ctxs.cells.length) (j : Nat) : (s.setCtx id c').awaiting j =
    if j = id then (if c'.tcpHandle = .closing .recycleSessionCtx then 1 else 0) else s.awaiting j := by
  simp only [TCPServer.awaiting, TCPServer.setCtx, Pool.store]
  by_cases hj : j = id
  · subst hj
    simp only [List.getElem?_set_self hlt, Option.map_some, Option.some.injEq, if_true]
  · simp only [List.getElem?_set_ne (Ne.symm hj), if_neg hj]

/-- A context that belongs to no session is replaced, and what is in hand changes with it. -/
theorem Registry.setUnowned (h : Registry s inHand) (hid : id ∉ s.owners)
    (hh : c'.tcpHandle ≠ .opened true ∧ c'.tcpHandle ≠ .closing .sessionClose)
    (hcount : ∀ j, (s.setCtx id c').awaiting j + inHand'.count j = s.awaiting j + inHand.count j) :
    Registry (s.setCtx id c') inHand' where
  accounted := by
    apply Pool.Accounted.store
    apply h.accounted.congr
    intro j
    have := hcount j
    simp only [TCPServer.owners, ctxsOf, TCPServer.setCtx] at this ⊢
    omega
  avail_le := h.avail_le
  sId_nonneg := h.sId_nonneg
  sids := h.sids
  sid_le := h.sid_le
  registered := by
    intro entry he
    obtain ⟨o, c, hr⟩ := h.registered entry he
    have hne : id ≠ o.ctx := fun heq => hid (heq ▸ hr.mem he)
    refine ⟨o, c, hr.obj, ?_, hr.notClosed, hr.sidEq, hr.parent, hr.handle⟩
    rw [← hr.cell]
    exact List.getElem?_set_ne hne
  unowned := by
    intro j d hd hno
    rcases Pool.getElem?_set_cases hd with ⟨rfl, rfl⟩ | ⟨-, hd⟩
    · exact hh
    · exact h.unowned j d hd hno

theorem Registry.fetch (h : Registry s []) (env : Env) :
    Registry { s with ctxs := (s.ctxs.fetch (.alloc env)).1 } [(s.ctxs.fetch (.alloc env)).2] := by
  have hkeep : ∀ {j : Nat} {d : SessionCtx}, s.ctxs.cells[j]? = some d →
      (s.ctxs.fetch (.alloc env)).1.cells[j]? = some d := Pool.fetch_keeps
  have hacc := h.accounted.fetch (.alloc env)
  have havail := Nat.le_succ_of_le (Pool.fetch_avail_le (.alloc env) h.avail_le)
  obtain ⟨⟨ctxs, id⟩, hf⟩ : ∃ r, s.ctxs.fetch (.alloc env) = r := ⟨_, rfl⟩
  rw [hf] at hacc havail hkeep ⊢
  -- A fetched context was free or is new, and a new one has no handle.
  have hawait : ∀ j, ({ s with ctxs := ctxs } : TCPServer).awaiting j = s.awaiting j := by
    intro j
    refine if_congr ?_ rfl rfl
    simp only [Option.map_eq_some_iff]
    constructor
    · rintro ⟨d, hd, hh⟩
      rcases Pool.fetch_lookup hf hd with hd | rfl
      · exact ⟨d, hd, hh⟩
      · cases hh
    · rintro ⟨d, hd, hh⟩
      exact ⟨d, hkeep hd, hh⟩
  refine ⟨?_, havail, h.sId_nonneg, h.sids, h.sid_le, ?_, ?_⟩
  · apply hacc.congr
    intro j
    simp only [hawait, TCPServer.owners, ctxsOf, List.count_nil, Nat.add_zero]
  · intro entry he
    obtain ⟨o, c, hr⟩ := h.registered entry he
    exact ⟨o, c, hr.obj, hkeep hr.cell, hr.notClosed, hr.sidEq, hr.parent, hr.handle⟩
  · intro j d hd hno
    rcases Pool.fetch_lookup hf hd with hd | rfl
    · exact h.unowned j d hd hno
    · exact ⟨by simp [SessionCtx.alloc], by simp [SessionCtx.alloc]⟩

theorem Registered.awaiting (hr : Registered s sid k o c) : s.awaiting o.ctx = 0 := by
  unfold TCPServer.awaiting
  rw [if_neg]
  rw [hr.cell, Option.map_some, Option.some.injEq]
  intro hh
  rcases hr.handle with hopen | ⟨hclosing, -⟩
  · rw [hh] at hopen
    cases hopen
  · rw [hh] at hclosing
    cases hclosing

/-- Two registered sessions with one context, or one number, are one entry. -/
theorem Registered.unique {sid' : Int} {k' : Nat} {o' : Session} {c' : SessionCtx} (hr : Registered s sid k o c)
    (hr' : Registered s sid' k' o' c') (hctx : o.ctx = o'.ctx ∨ k = k') : sid = sid' ∧ k = k' ∧ o = o' ∧ c = c' := by
  have hcells : o.ctx = o'.ctx := by
    rcases hctx with hctx | rfl
    · exact hctx
    · rw [Option.some.inj (hr.obj.symm.trans hr'.obj)]
  have hc : c = c' := by
    have := hr'.cell
    rw [← hcells] at this
    exact Option.some.inj (hr.cell.symm.trans this)
  subst hc
  have hk : k = k' := Option.some.inj (hr.parent.symm.trans hr'.parent)
  subst hk
  exact ⟨hr.sidEq.symm.trans hr'.sidEq, rfl, Option.some.inj (hr.obj.symm.trans hr'.obj), rfl⟩

/-- Another registered session stays as it is where the context of one is replaced. -/
theorem Registered.setCtx_ne {sid' : Int} {k' : Nat} {o' : Session} {c' d : SessionCtx} (hr' : Registered s sid' k' o' c')
    (hne : id ≠ o'.ctx) : Registered (s.setCtx id d) sid' k' o' c' := by
  refine ⟨hr'.obj, ?_, hr'.notClosed, hr'.sidEq, hr'.parent, hr'.handle⟩
  rw [← hr'.cell]
  exact List.getElem?_set_ne hne

theorem Registry.closing (h : Registry s inHand) (hm : (sid, k) ∈ s.sessions) (hr : Registered s sid k o c) :
    Registry (s.setCtx o.ctx { c with tcpHandle := .closing .sessionClose, handleData := .session k }) inHand where
  accounted := by
    apply Pool.Accounted.store
    apply h.accounted.congr
    intro j
    have hlt := (List.getElem?_eq_some_iff.1 hr.cell).1
    rw [awaiting_set hlt]
    by_cases hj : j = o.ctx
    · rw [if_pos hj, if_neg nofun, hj, hr.awaiting]
      rfl
    · rw [if_neg hj]
      rfl
  avail_le := h.avail_le
  sId_nonneg := h.sId_nonneg
  sids := h.sids
  sid_le := h.sid_le
  registered := by
    rintro ⟨sid', k'⟩ he
    obtain ⟨o', c', hr'⟩ := h.registered _ he
    by_cases heq : o.ctx = o'.ctx
    · -- this session
      obtain ⟨rfl, rfl, rfl, rfl⟩ := hr.unique hr' (.inl heq)
      refine ⟨o, _, hr.obj, List.getElem?_set_self (List.getElem?_eq_some_iff.1 hr.cell).1, hr.notClosed, hr.sidEq,
        hr.parent, .inr ⟨rfl, rfl⟩⟩
    · -- another one
      exact ⟨o', c', hr'.setCtx_ne heq⟩
  unowned := by
    intro j d hd hno
    rcases Pool.getElem?_set_cases hd with ⟨rfl, rfl⟩ | ⟨-, hd⟩
    · exact absurd (hr.mem hm) hno
    · exact h.unowned j d hd hno

theorem Registry.newSession (h : Registry s [id]) {packet : PacketSync}
    (hctxs : s'.ctxs = s.ctxs.store id ⟨.opened true, .ctx, packet, s.sId + 1, some s.objs.length⟩)
    (hobjs : s'.objs = s.objs ++ [⟨id, false, false, [], []⟩])
    (hsessions : s'.sessions = s.sessions ++ [(s.sId + 1, s.objs.length)]) (hsId : s'.sId = s.sId + 1) :
    Registry s' [] := by
  obtain ⟨hlt, hno, hzero⟩ := h.inHand_free
  have hnonneg := h.sId_nonneg
  have hold : ∀ {m : Nat} {o : Session}, s.objs[m]? = some o → s'.objs[m]? = some o := by
    intro m o ho
    rwa [hobjs, List.getElem?_append_left (List.getElem?_eq_some_iff.1 ho).1]
  -- The new session is the last object, and the context in hand is its own.
  have hlast : s'.objs[s.objs.length]? = some ⟨id, false, false, [], []⟩ := by rw [hobjs]; simp
  have hcell : s'.ctxs.cells[id]? = some ⟨.opened true, .ctx, packet, s.sId + 1, some s.objs.length⟩ := by
    rw [hctxs]
    exact List.getElem?_set_self hlt
  have hother : ∀ {j : Nat}, j ≠ id → s'.ctxs.cells[j]? = s.ctxs.cells[j]? := by
    intro j hj
    rw [hctxs]
    exact List.getElem?_set_ne (Ne.symm hj)
  -- The old entries keep their contexts.
  have howners : s'.owners = s.owners ++ [id] := by
    unfold TCPServer.owners ctxsOf
    rw [hsessions, List.filterMap_append, List.filterMap_cons, hlast]
    refine congrArg (· ++ [id]) (List.filterMap_congr fun entry he => ?_)
    obtain ⟨o, c, hr⟩ := h.registered entry he
    rw [hold hr.obj, hr.obj]
  have hawait : ∀ j, s'.awaiting j = s.awaiting j := by
    intro j
    by_cases hj : j = id
    · rw [hj, hzero, TCPServer.awaiting, hcell]
      rfl
    · simp only [TCPServer.awaiting, hother hj]
  refine ⟨?_, by rw [hctxs]; exact h.avail_le, by omega, ?_, ?_, ?_, ?_⟩
  · rw [hctxs]
    apply Pool.Accounted.store
    apply h.accounted.congr
    intro j
    rw [howners, hawait, List.count_append, List.count_nil]
    omega
  · rw [hsessions, List.map_append, List.nodup_append]
    refine ⟨h.sids, by simp, ?_⟩
    intro sid hsid sid' hsid'
    obtain ⟨entry, he, rfl⟩ := List.mem_map.1 hsid
    obtain rfl := List.mem_singleton.1 hsid'
    have := (h.sid_le entry he).2
    simp only
    omega
  · rw [hsessions, hsId]
    intro entry he
    rcases List.mem_append.1 he with he | he
    · obtain ⟨hpos, hle⟩ := h.sid_le entry he
      exact ⟨hpos, Int.le_add_one hle⟩
    · obtain rfl := List.mem_singleton.1 he
      exact ⟨Int.lt_add_one_of_le hnonneg, Int.le_refl _⟩
  · rw [hsessions]
    intro entry he
    rcases List.mem_append.1 he with he | he
    · obtain ⟨o, c, hr⟩ := h.registered entry he
      have hne : o.ctx ≠ id := fun heq => hno (heq ▸ hr.mem he)
      exact ⟨o, c, hold hr.obj, (hother hne).trans hr.cell, hr.notClosed, hr.sidEq, hr.parent, hr.handle⟩
    · obtain rfl := List.mem_singleton.1 he
      exact ⟨_, _, hlast, hcell, rfl, rfl, rfl, .inl rfl⟩
  · intro j d hd hnot
    rw [howners, List.mem_append, not_or, List.mem_singleton] at hnot
    rw [hother hnot.2] at hd
    exact h.unowned j d hd hnot.1

theorem sessions_cut (hnd : (s.sessions.map Prod.fst).Nodup) (hm : (sid, k) ∈ s.sessions) :
    ∃ before after, s.sessions = before ++ (sid, k) :: after ∧
      (s.sessions.filter fun entry => entry.1 ≠ sid) = before ++ after := by
  obtain ⟨before, after, hcut⟩ := List.append_of_mem hm
  refine ⟨before, after, hcut, ?_⟩
  rw [hcut, List.map_append, List.map_cons, List.nodup_append, List.nodup_cons] at hnd
  obtain ⟨-, ⟨hafter, -⟩, hbefore⟩ := hnd
  rw [hcut, List.filter_append, List.filter_cons_of_neg (by simp)]
  congr 1
  · refine List.filter_eq_self.2 fun entry he => ?_
    have := hbefore entry.1 (List.mem_map_of_mem he) sid List.mem_cons_self
    simpa using this
  · refine List.filter_eq_self.2 fun entry he => ?_
    have hin : entry.1 ∈ after.map Prod.fst := List.mem_map_of_mem he
    have : entry.1 ≠ sid := fun heq => hafter (heq ▸ hin)
    simpa using this

theorem Registry.unregister (h : Registry s []) (hm : (sid, k) ∈ s.sessions) (hr : Registered s sid k o c)
    {o' : Session} (hctxs : s'.ctxs = s.ctxs.store o.ctx { c with tcpHandle := .raw })
    (hobjs : s'.objs = s.objs.set k o') (hsessions : s'.sessions = s.sessions.filter fun entry => entry.1 ≠ sid)
    (hsId : s'.sId = s.sId) : Registry s' [o.ctx] := by
  obtain ⟨before, after, hcut, hfilter⟩ := sessions_cut h.sids hm
  have hmem : ∀ {entry : Int × Nat}, entry ∈ s'.sessions → entry ∈ s.sessions ∧ entry.1 ≠ sid := by
    intro entry he
    rw [hsessions, List.mem_filter] at he
    exact ⟨he.1, by simpa using he.2⟩
  -- The other sessions and their contexts stay as they are.
  have hother : ∀ {sid' : Int} {k' : Nat} {o' : Session} {c' : SessionCtx}, sid' ≠ sid → Registered s sid' k' o' c' →
      s'.objs[k']? = some o' ∧ s'.ctxs.cells[o'.ctx]? = some c' := by
    intro sid' k' o' c' hne hr'
    have hk : k ≠ k' := fun heq => hne (hr.unique hr' (.inr heq)).1.symm
    have hctx : o.ctx ≠ o'.ctx := fun heq => hne (hr.unique hr' (.inl heq)).1.symm
    rw [hobjs, hctxs]
    exact ⟨(List.getElem?_set_ne hk).trans hr'.obj, (List.getElem?_set_ne hctx).trans hr'.cell⟩
  -- Its context was owned once, so one less is owned now.
  have howners : s.owners.Perm (o.ctx :: s'.owners) := by
    have hsame : s'.owners = s.ctxsOf (before ++ after) := by
      unfold TCPServer.owners ctxsOf
      rw [hsessions, ← hfilter]
      refine List.filterMap_congr fun entry he => ?_
      rw [← hsessions] at he
      obtain ⟨he, hne⟩ := hmem he
      obtain ⟨o', c', hr'⟩ := h.registered entry he
      rw [(hother hne hr').1, hr'.obj]
    rw [hsame, TCPServer.owners, hcut, ctxsOf, ctxsOf, List.filterMap_append, List.filterMap_append, List.filterMap_cons, hr.obj]
    exact List.perm_middle
  have hlt := (List.getElem?_eq_some_iff.1 hr.cell).1
  have hawait : ∀ j, s'.awaiting j = s.awaiting j := by
    intro j
    by_cases hj : j = o.ctx
    · rw [hj, hr.awaiting, TCPServer.awaiting, hctxs, Pool.store, List.getElem?_set_self hlt]
      rfl
    · simp only [TCPServer.awaiting, hctxs, Pool.store, List.getElem?_set_ne (Ne.symm hj)]
  refine ⟨?_, by rw [hctxs]; exact h.avail_le, by rw [hsId]; exact h.sId_nonneg, ?_, ?_, ?_, ?_⟩
  · rw [hctxs]
    apply Pool.Accounted.store
    apply h.accounted.congr
    intro j
    rw [howners.count_eq, hawait, List.count_cons, List.count_nil, List.count_singleton]
    omega
  · rw [hsessions]
    exact h.sids.sublist (List.filter_sublist.map _)
  · rw [hsId]
    intro entry he
    exact h.sid_le entry (hmem he).1
  · intro entry he
    obtain ⟨he, hne⟩ := hmem he
    obtain ⟨o', c', hr'⟩ := h.registered entry he
    obtain ⟨ho', hc'⟩ := hother hne hr'
    exact ⟨o', c', ho', hc', hr'.notClosed, hr'.sidEq, hr'.parent, hr'.handle⟩
  · intro j d hd hno
    rw [hctxs] at hd
    rcases Pool.getElem?_set_cases hd with ⟨rfl, rfl⟩ | ⟨hne, hd⟩
    · exact ⟨by simp, by simp⟩
    · refine h.unowned j d hd fun hj => ?_
      rcases List.mem_cons.1 (howners.mem_iff.1 hj) with rfl | hj
      · exact hne rfl
      · exact hno hj

theorem closeSessions_spec : ∀ (entries : List (Int × Nat)) (s : TCPServer), Registry s [] →
    (∀ entry ∈ entries, entry ∈ s.sessions) →
    entries.foldlM (fun s entry => TCPServer.sessionClose s entry.2) s = .ok s' →
    ∃ cells, s' = { s with ctxs := { s.ctxs with cells := cells } } ∧
      ∀ id : Nat, cells[id]? = (s.ctxs.cells[id]?).map fun c => if id ∈ s.ctxsOf entries then closedSession c else c
  | [], s, _, _, hs => by
    cases hs
    refine ⟨s'.ctxs.cells, rfl, fun id => ?_⟩
    simp [ctxsOf]
  | (sid, k) :: entries, s, h, hsub, hs => by
    rw [List.foldlM_cons] at hs
    obtain ⟨s₁, h₁, hs₁⟩ := bind_eq_ok.1 hs
    have hm : (sid, k) ∈ s.sessions := hsub _ List.mem_cons_self
    obtain ⟨o, c, hr⟩ := h.registered _ hm
    -- libuv aborts where the handle is closing already.
    have hopen : c.tcpHandle = .opened true := by
      by_contra hh
      rw [hr.close_closing hh] at h₁
      cases h₁
    rw [hr.close_opened hopen] at h₁
    obtain rfl := Except.ok.inj h₁
    obtain ⟨cells, hs', hcells⟩ := closeSessions_spec entries _ (h.closing hm hr)
      (fun entry he => hsub entry (List.mem_cons_of_mem _ he)) hs₁
    refine ⟨cells, hs', fun id => ?_⟩
    rw [hcells]
    have hcons : s.ctxsOf ((sid, k) :: entries) = o.ctx :: s.ctxsOf entries := by
      rw [ctxsOf, List.filterMap_cons, hr.obj]
      rfl
    have hclosed : closedSession c = { c with tcpHandle := .closing .sessionClose, handleData := .session k } := by
      rw [closedSession, hr.parent]
      rfl
    simp only [hcons, List.mem_cons, setCtx, Pool.store]
    by_cases hid : id = o.ctx
    · subst hid
      rw [List.getElem?_set_self (List.getElem?_eq_some_iff.1 hr.cell).1, hr.cell, ← hclosed, Option.map_some,
        Option.map_some, if_pos (.inl rfl)]
      exact congrArg some (ite_self (closedSession c))
    · rw [List.getElem?_set_ne (Ne.symm hid)]
      simp only [hid, false_or]
      rfl

theorem closeAll_change {s₀ : TCPServer} {e : ServerEvent} (h : Registry s []) (he : runsClose e = true)
    (hsame : OnlyFlags s s₀) (hs : s₀.closeAll = .ok s') : Change env s e s' := by
  obtain ⟨hctxs, hobjs, hsessions, hsId, hnotes, hhead, htail⟩ := hsame
  unfold TCPServer.closeAll at hs
  split at hs
  · cases hs
    exact .flags ⟨hctxs, hobjs, hsessions, hsId, hnotes, hhead, htail⟩
  · obtain ⟨s₁, h₁, hs⟩ := bind_eq_ok.1 hs
    have h₀ : Registry s₀ [] := h.same (OnlyFlags.same ⟨hctxs, hobjs, hsessions, hsId, hnotes, hhead, htail⟩)
    obtain ⟨cells, rfl, hcells⟩ := closeSessions_spec _ _ h₀ (fun _ he => he) h₁
    cases hs
    have howners : s₀.owners = s.owners := by rw [TCPServer.owners, TCPServer.owners, ctxsOf, ctxsOf, hobjs, hsessions]
    have hclosed : ∀ id : Nat, cells[id]? =
        (s.ctxs.cells[id]?).map fun c => if id ∈ s.owners then closedSession c else c := by
      rw [← hctxs, ← howners]
      exact hcells
    have havail : s₀.ctxs.avail = s.ctxs.avail := by rw [hctxs]
    have hreleased : s₀.ctxs.released = s.ctxs.released := by rw [hctxs]
    refine .closedAll he hhead htail havail hreleased (fun id => ?_) hobjs hsessions hsId hnotes
    rw [List.getElem?_map, hclosed, Option.map_map]
    congr 1
    funext c
    simp only [Function.comp_apply, closedCell]
    by_cases hid : id ∈ s.owners
    · rw [if_pos hid, if_pos hid]
      rfl
    · rw [if_neg hid, if_neg hid]

theorem asyncClose_change (h : Registry s []) (hs : step env s .asyncClose = .ok s') : Change env s .asyncClose s' := by
  have hsame : OnlyFlags s { s with asyncPending := false } := ⟨rfl, rfl, rfl, rfl, rfl, rfl, rfl⟩
  simp only [step] at hs
  split at hs
  · split at hs
    · exact closeAll_change h rfl hsame hs
    · cases hs
      exact .flags hsame
  · cases hs
    exact .flags (.refl s)

theorem Registry.closedAll (h : Registry s []) (havail : s'.ctxs.avail = s.ctxs.avail)
    (hreleased : s'.ctxs.released = s.ctxs.released)
    (hcells : ∀ id : Nat, s'.ctxs.cells[id]? = (s.ctxs.cells[id]?).map (s.closedCell id)) (hobjs : s'.objs = s.objs)
    (hsessions : s'.sessions = s.sessions) (hsId : s'.sId = s.sId) : Registry s' [] := by
  have howners : s'.owners = s.owners := by rw [TCPServer.owners, TCPServer.owners, ctxsOf, ctxsOf, hobjs, hsessions]
  have hlen : s'.ctxs.cells.length = s.ctxs.cells.length := by
    have hiff : ∀ id, s'.ctxs.cells.length ≤ id ↔ s.ctxs.cells.length ≤ id := by
      intro id
      rw [← List.getElem?_eq_none_iff, hcells, Option.map_eq_none_iff, List.getElem?_eq_none_iff]
    exact Nat.le_antisymm ((hiff _).2 (Nat.le_refl _)) ((hiff _).1 (Nat.le_refl _))
  have hawait : ∀ id, s'.awaiting id = s.awaiting id := by
    intro id
    by_cases hid : id ∈ s.owners
    · -- Neither before nor after does a session's context wait to be recycled.
      obtain ⟨entry, he, o, ho, rfl⟩ := mem_owners.1 hid
      obtain ⟨o', c, hr⟩ := h.registered entry he
      obtain rfl := Option.some.inj (ho.symm.trans hr.obj)
      rw [hr.awaiting, TCPServer.awaiting, hcells, hr.cell, Option.map_some, closedCell, if_pos hid]
      rfl
    · refine if_congr ?_ rfl rfl
      rw [hcells, Option.map_map, Option.map_eq_some_iff, Option.map_eq_some_iff]
      simp only [Function.comp_apply, closedCell, if_neg hid]
      refine exists_congr fun c => and_congr_right fun _ => ?_
      unfold closeWalk
      cases c.tcpHandle <;> simp
  refine ⟨?_, by rw [havail]; exact h.avail_le, by rw [hsId]; exact h.sId_nonneg, by rw [hsessions]; exact h.sids,
    by rw [hsessions, hsId]; exact h.sid_le, ?_, ?_⟩
  · intro id
    simp only [havail, hreleased, howners, hawait, hlen]
    exact h.accounted id
  · rw [hsessions]
    intro entry he
    obtain ⟨o, c, hr⟩ := h.registered entry he
    refine ⟨o, closedSession c, by rw [hobjs]; exact hr.obj, ?_, hr.notClosed, hr.sidEq, hr.parent, .inr ⟨rfl, ?_⟩⟩
    · rw [hcells, hr.cell, Option.map_some, closedCell, if_pos (hr.mem he)]
    · simp only [closedSession, hr.parent, Option.getD_some]
  · intro id d hd hno
    rw [howners] at hno
    rw [hcells, Option.map_eq_some_iff] at hd
    obtain ⟨c, hc, rfl⟩ := hd
    have := (h.unowned id c hc hno).2
    rw [closedCell, if_neg hno]
    unfold closeWalk
    cases hh : c.tcpHandle with
    | raw => exact ⟨by simp, by simp⟩
    | opened b => exact ⟨by simp, by simp⟩
    | closing cb => exact ⟨by simp, by rwa [hh] at this⟩

/-- **What a callback does**, whichever it is. -/
theorem step_change (h : Registry s []) {e : ServerEvent} (hs : step env s e = .ok s') : Change env s e s' := by
  have hsame : ∀ {e : ServerEvent}, Change env s e s := .flags (.refl s)
  cases e with
  | start =>
    simp only [step] at hs
    split at hs
    · cases hs
      exact .flags ⟨rfl, rfl, rfl, rfl, rfl, rfl, rfl⟩
    · exact closeAll_change h rfl (.refl s) hs
  | onConnection status tcpInit accept readStart =>
    simp only [step] at hs
    split at hs
    · exact onConnection_change h hs
    · cases hs
      exact hsame
  | recv id chunk =>
    simp only [step] at hs
    split at hs
    · cases hs
      exact hsame
    · next c hc =>
      split at hs
      · next hg =>
        unfold TCPServer.onRecv at hs
        split at hs
        · cases hs
          exact hsame
        · obtain ⟨r, hr, hs⟩ := bind_eq_ok.1 hs
          cases hs
          exact .received hc hg.1 hg.2 hr
      · cases hs
        exact hsame
  | recvError id =>
    obtain ⟨s₁, h₁, hchange⟩ := recvError_total h id
    obtain rfl := Except.ok.inj (hs.symm.trans h₁)
    exact hchange
  | close =>
    simp only [step] at hs
    split at hs <;> cases hs
    · exact hsame
    · exact .flags ⟨rfl, rfl, rfl, rfl, rfl, rfl, rfl⟩
  | asyncClose => exact asyncClose_change h hs
  | handleClosed id =>
    obtain ⟨s₁, h₁, hchange⟩ := handleClosed_total h id
    obtain rfl := Except.ok.inj (hs.symm.trans h₁)
    exact hchange
  | serverClosed =>
    cases hs
    exact .flags ⟨rfl, rfl, rfl, rfl, rfl, rfl, rfl⟩
  | stop =>
    simp only [step] at hs
    split at hs
    · next hg =>
      cases hs
      exact .stopped hg.2.2.2
    · cases hs
      exact hsame

theorem Registry.setInHand (h : Registry s [id])
    (hh : c'.tcpHandle = .opened false ∨ ∃ c, s.ctxs.cells[id]? = some c ∧ c'.tcpHandle = c.tcpHandle) :
    Registry (s.setCtx id c') [id] := by
  obtain ⟨hlt, hno, hzero⟩ := h.inHand_free
  -- The new handle is no session's and waits for no callback, like the old one.
  have hquiet : (c'.tcpHandle ≠ .opened true ∧ c'.tcpHandle ≠ .closing .sessionClose) ∧
      c'.tcpHandle ≠ .closing .recycleSessionCtx := by
    rcases hh with hh | ⟨c, hc, hh⟩
    · rw [hh]
      exact ⟨⟨nofun, nofun⟩, nofun⟩
    · rw [hh]
      refine ⟨h.unowned id c hc hno, fun hw => ?_⟩
      have := awaiting_pos.2 ⟨c, hc, hw⟩
      omega
  refine h.setUnowned hno hquiet.1 fun j => ?_
  rw [awaiting_set hlt, if_neg hquiet.2]
  by_cases hj : j = id
  · rw [if_pos hj, hj, hzero]
  · rw [if_neg hj]

theorem Registry.await (h : Registry s [id]) (hh : c'.tcpHandle = .closing .recycleSessionCtx) :
    Registry (s.setCtx id c') [] := by
  obtain ⟨hlt, hno, hzero⟩ := h.inHand_free
  refine h.setUnowned hno (by rw [hh]; exact ⟨nofun, nofun⟩) fun j => ?_
  rw [awaiting_set hlt, if_pos hh, List.count_singleton]
  by_cases hj : j = id
  · rw [if_pos hj, hj, hzero, if_pos (beq_self_eq_true id)]
    rfl
  · rw [if_neg hj, if_neg (by simpa using Ne.symm hj)]
    rfl

/-- The handle of a context that is no session's goes away; the context is then in hand if it
was to be recycled. -/
theorem Registry.handleGone (h : Registry s []) (hc : s.ctxs.cells[id]? = some c) (hno : id ∉ s.owners)
    (hin : inHand = if c.tcpHandle = .closing .recycleSessionCtx then [id] else []) :
    Registry (s.setCtx id { c with tcpHandle := .raw }) inHand := by
  have hlt := (List.getElem?_eq_some_iff.1 hc).1
  have hraw : ∀ j, (s.setCtx id { c with tcpHandle := .raw }).awaiting j = if j = id then 0 else s.awaiting j := by
    intro j
    rw [awaiting_set hlt]
    rfl
  have hid : s.awaiting id = if c.tcpHandle = .closing .recycleSessionCtx then 1 else 0 := by
    rw [TCPServer.awaiting, hc, Option.map_some]
    simp only [Option.some.injEq]
  refine h.setUnowned hno ⟨nofun, nofun⟩ fun j => ?_
  rw [hraw, hin, List.count_nil]
  by_cases hj : j = id
  · rw [if_pos hj, hj, hid]
    split <;> simp
  · rw [if_neg hj]
    split
    · rw [List.count_singleton, if_neg (by simpa using Ne.symm hj)]
    · rfl

theorem Registry.not_owner (h : Registry s inHand) (hc : s.ctxs.cells[id]? = some c) {cb : CloseCb}
    (hh : c.tcpHandle = .closing cb) (hcb : cb ≠ .sessionClose) : id ∉ s.owners := by
  intro hid
  obtain ⟨sid, k, o, -, rfl, hr⟩ := h.owner hid hc
  rcases hr.handle with hopen | ⟨hclosing, -⟩
  · rw [hh] at hopen
    cases hopen
  · rw [hh] at hclosing
    exact hcb (HandleState.closing.inj hclosing)

/-- **Every callback keeps the registry.** -/
theorem Registry.change (h : Registry s []) {e : ServerEvent} (hc : Change env s e s') : Registry s' [] := by
  have hnext : s.sId ≤ s.sId + 1 := Int.le_add_one (Int.le_refl _)
  cases hc with
  | flags hflags => exact h.same hflags.same
  | @received _ c chunk r hc hh hlen hr => exact h.same (.received hc r.sync chunk r.calls)
  | @initFailed _ _ _ id c hid hc =>
    subst hid
    have hset : Registry (TCPServer.setCtx { s with ctxs := (s.ctxs.fetch (.alloc env)).1 } _ { c with parentSession := none }) _ :=
      (h.fetch env).setInHand (.inr ⟨c, hc, rfl⟩)
    exact hset.recycle
  | @acceptFailed _ _ id c hid hc hlt hfail =>
    subst hid
    have hset : Registry (TCPServer.setCtx { s with ctxs := (s.ctxs.fetch (.alloc env)).1 } _ { c with
        tcpHandle := .opened false, handleData := .ctx, sid := s.sId + 1, parentSession := none }) _ :=
      (h.fetch env).setInHand (.inl rfl)
    exact hset.recycle.frame rfl rfl rfl hnext
  | @readFailed _ id c hid hc =>
    subst hid
    have hset : Registry (TCPServer.setCtx { s with ctxs := (s.ctxs.fetch (.alloc env)).1 } _ ⟨.closing .recycleSessionCtx,
        .ctx, c.packet.setPacketCB.start s.packHead s.packTail, s.sId + 1, none⟩) [] := (h.fetch env).await rfl
    exact hset.frame rfl rfl rfl hnext
  | accepted hid hc hnew =>
    subst hid
    exact (h.fetch env).newSession rfl rfl rfl rfl
  | closing hm hr hh => exact h.closing hm hr
  | closedAll _ _ _ havail hreleased hcells hobjs hsessions hsId hnotes =>
    exact h.closedAll havail hreleased hcells hobjs hsessions hsId
  | forgotten hc hh => exact h.handleGone hc (h.not_owner hc hh nofun) (by rw [hh, if_neg nofun])
  | recycled hc hh => exact (h.handleGone hc (h.not_owner hc hh nofun) (by rw [if_pos hh])).recycle
  | @sessionClosed sid k o c hm hr hh =>
    have hset : Registry { s with
        ctxs := s.ctxs.store o.ctx { c with tcpHandle := .raw }
        objs := s.objs.set k { o with isClosed := true, deleted := true }
        sessions := s.sessions.filter fun entry => entry.1 ≠ sid
        notes := s.notes ++ [Note.tcpClose sid [.sessions]] } [o.ctx] := h.unregister hm hr rfl rfl rfl rfl
    exact hset.recycle
  | stopped hraw => exact h.frame rfl rfl rfl (Int.le_refl _)

theorem start_registry (head tail : UInt8) : Registry (start head tail) [] where
  accounted := Pool.empty_accounted
  avail_le := Nat.zero_le _
  sId_nonneg := Int.le_refl 0
  sids := List.nodup_nil
  sid_le := by simp [start]
  registered := by simp [start]
  unowned := by simp [start, Pool.empty]

theorem Registry.step (h : Registry s []) {e : ServerEvent} (hs : step env s e = .ok s') : Registry s' [] :=
  h.change (step_change h hs)

theorem run_registry {head tail : UInt8} {es : List ServerEvent}
    (hrun : run (TCPServer.step env) (TCPServer.start head tail) es = .ok s) : Registry s [] := by
  have hstep : ∀ s e s', Registry s [] → True → TCPServer.step env s e = .ok s' → Registry s' [] :=
    fun _ _ _ h _ hs => h.step hs
  have hkeep := run_keeps hstep (start_registry head tail) (Along.of_forall (fun _ _ _ => trivial) _) hrun
  exact hkeep

end Kept

/-- Every context that was not released is in one place, and every registered session and its
context name each other. -/
structure InOrder (s : TCPServer) : Prop where
  onePlace : ∀ id, id < s.ctxs.cells.length → id ∉ s.ctxs.released →
    s.ctxs.avail.count id + s.owners.count id + s.awaiting id = 1
  availNodup : s.ctxs.avail.Nodup
  avail_le : s.ctxs.avail.length ≤ maxListSize + 1
  sids : (s.sessions.map Prod.fst).Nodup
  back : ∀ sid k, (sid, k) ∈ s.sessions → ∃ o c, s.objs[k]? = some o ∧ s.ctxs.cells[o.ctx]? = some c ∧
    c.sid = sid ∧ c.parentSession = some k

end TCPServer

open TCPServer

/-! **The registry stays in order**, whatever fails and in whatever order things close. -/

theorem registry_in_order (env : Env) (head tail : UInt8) (es : List ServerEvent) (s : TCPServer)
    (hrun : run (step env) (TCPServer.start head tail) es = .ok s) : s.InOrder := by
  have h := run_registry hrun
  refine ⟨?_, h.accounted.avail_nodup, h.avail_le, h.sids, ?_⟩
  · intro id hlt hlive
    have hcount : _ + _ + (s.owners.count id + s.awaiting id + 0) = _ := h.accounted id
    rw [List.count_eq_zero.2 hlive, if_pos hlt] at hcount
    omega
  · intro sid k hm
    obtain ⟨o, c, hr⟩ := h.registered _ hm
    exact ⟨o, c, hr.obj, hr.cell, hr.sidEq, hr.parent⟩

/-- Connections that fail at each of the three calls, and one that does not. -/
def refusals : List ServerEvent :=
  [.onConnection 0 0 (-1) 0, .onConnection 0 0 0 0, .onConnection 0 0 0 (-1), .recvError 0, .onConnection 0 (-1) 0 0,
    .handleClosed 1, .handleClosed 0]

theorem registry_in_order_refusals :
    ∃ s, run (step zeroEnv) (TCPServer.start 1 2) refusals = .ok s ∧ s.InOrder :=
  ⟨_, rfl, registry_in_order zeroEnv 1 2 refusals _ rfl⟩

end Uvnet

import Uvnet.ServerRegistry

/- Whether the handles of pooled contexts are out of the loop.

   Of the error exits of `OnConnection`, the one after `uv_accept` puts a context back whose
   handle `uv_tcp_init` has entered in the loop, and the next connection initialises it again
   (`pool_handles_raw_fails`). There is always room for it in `_avail_ctxs`, so the handles of
   pooled contexts are out of the loop in exactly those runs in which `uv_accept` never fails
   (`pool_handles_raw`). -/
namespace Uvnet
open CMachine ObjectPool StepRun

namespace TCPServer

/-- No context of the pool, nor the one the next `OnConnection` initialises, has a handle in
the loop. -/
structure PoolRaw (env : Env) (s : TCPServer) : Prop where
  avail : ∀ id ∈ s.ctxs.avail, ∀ c, s.ctxs.cells[id]? = some c → c.tcpHandle = .raw
  next : ∀ c, (s.ctxs.fetch (.alloc env)).1.cells[(s.ctxs.fetch (.alloc env)).2]? = some c → c.tcpHandle = .raw

/-- `uv_accept` does not fail, where `OnConnection` gets to it. -/
def Accepts (s : TCPServer) : ServerEvent → Prop
  | .onConnection status tcpInit accept _ =>
    s.tcpHandle = .opened false → s.sId < intMax → status = 0 → tcpInit = 0 → accept = 0
  | _ => True

section Pool
variable {env : Env} {s s' : TCPServer} {id : Nat} {c : SessionCtx}

theorem PoolRaw.of_avail (h : ∀ id ∈ s.ctxs.avail, ∀ c, s.ctxs.cells[id]? = some c → c.tcpHandle = .raw) :
    PoolRaw env s where
  avail := h
  next c hc := by
    rcases Pool.fetch_found rfl hc with rfl | ⟨rest, ha, hc⟩
    · rfl
    · refine h _ ?_ c hc
      rw [ha]
      exact List.mem_cons_self

/-- What the pool has is out of the loop, or was there before with the same handle. -/
theorem PoolRaw.keep (h : PoolRaw env s)
    (hcells : ∀ id ∈ s'.ctxs.avail, ∀ c', s'.ctxs.cells[id]? = some c' → c'.tcpHandle = .raw ∨
      (id ∈ s.ctxs.avail ∧ ∃ c, s.ctxs.cells[id]? = some c ∧ c'.tcpHandle = c.tcpHandle)) : PoolRaw env s' := by
  apply PoolRaw.of_avail
  intro id hid c' hc'
  rcases hcells id hid c' hc' with hraw | ⟨hid', c, hc, heq⟩
  · exact hraw
  · rw [heq]
    exact h.avail id hid' c hc

/-- One context was fetched and replaced, and may have gone back to the pool. -/
theorem PoolRaw.fetched (h : PoolRaw env s) (hid : (s.ctxs.fetch (.alloc env)).2 = id)
    (hcells : s'.ctxs.cells = (s.fetchedWith env c).cells)
    (havail : ∀ j ∈ s'.ctxs.avail, j ∈ (s.ctxs.fetch (.alloc env)).1.avail ∨ j = id)
    (hraw : id ∈ s'.ctxs.avail → c.tcpHandle = .raw) : PoolRaw env s' := by
  apply h.keep
  rw [hcells]
  intro j hj d hd
  rcases Pool.getElem?_set_cases hd with ⟨heq, rfl⟩ | ⟨hne, hd⟩
  · rw [heq, hid] at hj
    exact .inl (hraw hj)
  · rw [hid] at hne
    have hj' := Pool.fetch_avail ((havail j hj).resolve_right hne)
    rcases Pool.fetch_lookup rfl hd with hd | rfl
    · exact .inr ⟨hj', d, hd, rfl⟩
    · exact .inl rfl

/-- One context is replaced; it is not in the pool, or out of the loop now. -/
theorem PoolRaw.set (h : PoolRaw env s) (hcells : s'.ctxs.cells = s.ctxs.cells.set id c)
    (havail : ∀ j ∈ s'.ctxs.avail, j ∈ s.ctxs.avail ∨ j = id) (hraw : id ∈ s'.ctxs.avail → c.tcpHandle = .raw) :
    PoolRaw env s' := by
  apply h.keep
  rw [hcells]
  intro j hj d hd
  rcases Pool.getElem?_set_cases hd with ⟨rfl, rfl⟩ | ⟨hne, hd⟩
  · exact .inl (hraw hj)
  · exact .inr ⟨(havail j hj).resolve_right hne, d, hd, rfl⟩

theorem Registry.fetched_avail (h : Registry s []) (hid : (s.ctxs.fetch (.alloc env)).2 = id) :
    id ∉ (s.ctxs.fetch (.alloc env)).1.avail := by
  intro hmem
  have := (h.fetch env).avail hmem
  exact this.2.2 (List.mem_singleton.2 hid.symm)

/-- **What a callback does** to the pool where `uv_accept` does not fail. -/
theorem PoolRaw.change (hp : PoolRaw env s) (h : Registry s []) {e : ServerEvent} (hc : Change env s e s')
    (hok : ∀ accept readStart, e = .onConnection 0 0 accept readStart → s.sId < intMax → accept = 0) : PoolRaw env s' := by
  cases hc with
  | flags hf =>
    refine hp.keep fun id hid c hc => ?_
    rw [hf.ctxs] at hid hc
    exact .inr ⟨hid, c, hc, rfl⟩
  | @received _ c chunk r hc hh hlen hr =>
    have hsame := SameRegistry.received hc r.sync chunk r.calls
    refine hp.keep fun id hid c' hc' => ?_
    have heq := hsame.cells id
    rw [hc', Option.map_some, eq_comm, Option.map_eq_some_iff] at heq
    obtain ⟨d, hd, heq⟩ := heq
    exact .inr ⟨hsame.avail ▸ hid, d, hd, (Prod.mk.inj heq).1.symm⟩
  | initFailed hid hc =>
    refine hp.fetched hid (Pool.recycle_cells ..) (fun _ => Pool.mem_recycle) fun _ => ?_
    -- `uv_tcp_init` failed, and left the handle as it was.
    subst hid
    have hraw := hp.next _ hc
    exact hraw
  | acceptFailed hid hc hlt hfail => exact absurd (hok _ _ rfl hlt) hfail
  | readFailed hid hc =>
    exact hp.fetched hid rfl (fun _ hj => .inl hj) fun hmem => absurd hmem (h.fetched_avail hid)
  | accepted hid hc hnew =>
    exact hp.fetched hid rfl (fun _ hj => .inl hj) fun hmem => absurd hmem (h.fetched_avail hid)
  | closing hm hr hh =>
    exact hp.set rfl (fun _ hj => .inl hj) fun hmem => absurd (hr.mem hm) (h.avail hmem).1
  | closedAll _ _ _ havail hreleased hcells hobjs hsessions hsId hnotes =>
    refine hp.keep fun id hid c' hc' => .inl ?_
    rw [havail] at hid
    rw [hcells, Option.map_eq_some_iff] at hc'
    obtain ⟨c, hc, rfl⟩ := hc'
    rw [closedCell, if_neg (h.avail hid).1, hp.avail id hid c hc]
    rfl
  | forgotten hc hh => exact hp.set rfl (fun _ hj => .inl hj) fun _ => rfl
  | recycled hc hh => exact hp.set (Pool.recycle_cells ..) (fun _ => Pool.mem_recycle) fun _ => rfl
  | sessionClosed hm hr hh => exact hp.set (Pool.recycle_cells ..) (fun _ => Pool.mem_recycle) fun _ => rfl
  | stopped hraw => exact hp.keep fun id hid c hc => .inr ⟨hid, c, hc, rfl⟩

/-- Where `uv_accept` fails, a context with an open handle goes to the pool. -/
theorem accept_fails (env : Env) (h : Registry s []) (hopen : s.tcpHandle = .opened false) (hlt : s.sId < intMax)
    {accept : Int} (readStart : Int) (hfail : accept ≠ 0) :
    ∃ s', step env s (.onConnection 0 0 accept readStart) = .ok s' ∧ ¬ PoolRaw env s' := by
  have hid := (h.fetch env).inHand_free.1
  obtain ⟨c, hc⟩ : ∃ c, (s.ctxs.fetch (.alloc env)).1.cells[(s.ctxs.fetch (.alloc env)).2]? = some c :=
    ⟨_, List.getElem?_eq_getElem hid⟩
  have hfetch : s.fetchOneCtx env =
      .ok ({ s with ctxs := s.fetchedWith env { c with parentSession := none } }, (s.ctxs.fetch (.alloc env)).2) := by
    rw [fetchOneCtx]
    simp only [ctx, hc, pure_ok, ok_bind]
    rfl
  have hsid : cint (s.sId + 1) = .ok (s.sId + 1) := by
    have := h.sId_nonneg
    exact cint_ok (by omega) (by omega)
  have hctx : ∀ sid, TCPServer.ctx { s with sId := sid, ctxs := s.fetchedWith env { c with parentSession := none } }
      (s.ctxs.fetch (.alloc env)).2 = .ok { c with parentSession := none } := fun _ => ctx_ok (fetchedWith_cell rfl hc _)
  have hstep : step env s (.onConnection 0 0 accept readStart) = .ok { s with
      sId := s.sId + 1
      ctxs := (s.fetchedWith env { c with
        tcpHandle := .opened false, handleData := .ctx, sid := s.sId + 1, parentSession := none }).recycle maxListSize
          (s.ctxs.fetch (.alloc env)).2 } := by
    simp only [step, if_pos hopen, TCPServer.onConnection, hfetch, ok_bind, hsid, hctx, pure_ok, ne_eq,
      not_true_eq_false, if_false, hfail, not_false_eq_true, if_true]
    simp only [recycleOneCtx, setCtx, fetchedWith, store_store]
  refine ⟨_, hstep, fun hraw => ?_⟩
  -- `_fetch_one_ctx` left room for the context in the pool.
  have hroom : ∀ d, (s.fetchedWith env d).avail.length ≤ maxListSize := fun _ => Pool.fetch_avail_le _ h.avail_le
  have hcell' := fetchedWith_cell rfl hc { c with
    tcpHandle := .opened false, handleData := .ctx, sid := s.sId + 1, parentSession := none }
  rw [← Pool.recycle_cells maxListSize _ (s.ctxs.fetch (.alloc env)).2] at hcell'
  cases hraw.avail _ (Pool.recycle_mem (hroom _) _) _ hcell'

/-- **One callback** keeps the handles of the pool out of the loop, or `uv_accept` failed. -/
theorem step_poolRaw_iff (h : Registry s []) (hp : PoolRaw env s) {e : ServerEvent} (hs : step env s e = .ok s') :
    Accepts s e ↔ PoolRaw env s' := by
  by_cases hbad : ∃ accept readStart, e = .onConnection 0 0 accept readStart ∧ accept ≠ 0
  · obtain ⟨accept, readStart, rfl, hfail⟩ := hbad
    by_cases hopen : s.tcpHandle = .opened false
    · by_cases hlt : s.sId < intMax
      · obtain ⟨s₁, hs₁, hno⟩ := accept_fails env h hopen hlt readStart hfail
        obtain rfl := Except.ok.inj (hs.symm.trans hs₁)
        exact ⟨fun hok => absurd (hok hopen hlt rfl rfl) hfail, fun hp' => absurd hp' hno⟩
      · -- The session ids have run out before `uv_accept`.
        refine ⟨fun _ => hp.change h (step_change h hs) ?_, fun _ _ hlt' => absurd hlt' hlt⟩
        exact fun _ _ _ hlt' => absurd hlt' hlt
    · have hsame : s' = s := by
        simp only [step, if_neg hopen, pure_ok, Except.ok.injEq] at hs
        exact hs.symm
      rw [hsame]
      exact ⟨fun _ => hp, fun _ hopen' => absurd hopen' hopen⟩
  · have hok : ∀ accept readStart, e = .onConnection 0 0 accept readStart → accept = 0 := by
      intro accept readStart he
      by_contra hfail
      exact hbad ⟨accept, readStart, he, hfail⟩
    refine ⟨fun _ => hp.change h (step_change h hs) fun accept readStart he _ => hok accept readStart he, fun _ => ?_⟩
    cases e with
    | onConnection status tcpInit accept readStart =>
      rintro - - rfl rfl
      exact hok accept readStart rfl
    | _ => trivial

theorem accepts_of_fault (h : Registry s []) {e : ServerEvent} {f : Fault} (hs : step env s e = .error f) : Accepts s e := by
  cases e with
  | onConnection status tcpInit accept readStart =>
    rintro hopen hlt rfl rfl
    by_contra hfail
    obtain ⟨s₁, hs₁, -⟩ := accept_fails env h hopen hlt readStart hfail
    cases hs.symm.trans hs₁
  | _ => trivial

theorem start_poolRaw (env : Env) (head tail : UInt8) : PoolRaw env (TCPServer.start head tail) := by
  apply PoolRaw.of_avail
  intro id hid
  cases hid

end Pool

end TCPServer

open TCPServer

/-! **Pooled contexts have no live handle** in the runs in which `uv_accept` never fails, and in
no others. -/

theorem pool_handles_raw (env : Env) (head tail : UInt8) (es : List ServerEvent) :
    Along (step env) Accepts (TCPServer.start head tail) es ↔
      ∀ pre post s, es = pre ++ post → run (step env) (TCPServer.start head tail) pre = .ok s → s.PoolRaw env := by
  have hstep : ∀ s e s', Registry s [] → True → s.PoolRaw env → step env s e = .ok s' →
      Registry s' [] ∧ (Accepts s e ↔ s'.PoolRaw env) :=
    fun _ _ _ h _ hp hs => ⟨h.step hs, step_poolRaw_iff h hp hs⟩
  have hfault : ∀ s e f, Registry s [] → True → step env s e = .error f → Accepts s e :=
    fun _ _ _ h _ hs => accepts_of_fault h hs
  exact along_iff hstep hfault (start_registry head tail) (start_poolRaw env head tail) fun _ _ => trivial

theorem pool_handles_raw_fails :
    ¬ ∀ env head tail es pre post s, es = pre ++ post → run (step env) (TCPServer.start head tail) pre = .ok s →
      s.PoolRaw env := by
  intro hall
  have hraw := hall zeroEnv 1 2 [.onConnection 0 0 (-1) 0] [.onConnection 0 0 (-1) 0] [] _ (List.append_nil _).symm rfl
  cases hraw.avail 0 (List.mem_singleton.2 rfl) _ rfl

end Uvnet

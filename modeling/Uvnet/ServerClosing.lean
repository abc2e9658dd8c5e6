import Uvnet.ServerParsers

/- Which runs of a server call `uv_close` on a closing handle.

   `Session::Close` asks for `_is_closed`, which only the close callback sets. A read error
   closes a connection that is reading, so it never comes twice (`recvError_total`); but the
   server's `_close` goes through all of `_sessions`, and where a session's close callback is
   still to come, libuv aborts (`closes_once_fails`). `AsyncCloseCB` runs it after a `Close`,
   and `Start` on a server that is not closed. Nothing else a server does makes libuv abort,
   so the runs that do not are those in which no session is closing when `_close` runs
   (`closes_once`). -/
namespace Uvnet
open CMachine ObjectPool StepRun

namespace TCPServer

/-- No registered session is closing. -/
def SessionsOpen (s : TCPServer) : Prop :=
  ∀ entry ∈ s.sessions, ∀ o c, s.objs[entry.2]? = some o → s.ctxs.cells[o.ctx]? = some c →
    c.tcpHandle ≠ .closing .sessionClose

/-- When `_close` goes through the sessions, no registered session is closing already. `Start`
runs it at once on a server that is not closed, and `AsyncCloseCB` after a `Close`. -/
def NoneClosing (s : TCPServer) : ServerEvent → Prop
  | .start => s.isClosed = false → s.SessionsOpen
  | .asyncClose =>
    s.asyncPending = true → s.asyncCloseHandle = .opened false → s.isUserClosed = true → s.isClosed = false →
      s.SessionsOpen
  | _ => True

section Closing
variable {env : Env} {s : TCPServer} {id k : Nat} {sid : Int} {c : SessionCtx} {o : Session}

theorem closeSessions_ok (entries : List (Int × Nat)) (h : Registry s []) (hnd : entries.Nodup)
    (hopen : ∀ entry ∈ entries, entry ∈ s.sessions ∧
      ∀ o c, Registered s entry.1 entry.2 o c → c.tcpHandle = .opened true) :
    ∃ s', entries.foldlM (fun s entry => TCPServer.sessionClose s entry.2) s = .ok s' := by
  induction entries generalizing s with
  | nil => exact ⟨s, rfl⟩
  | cons entry entries ih =>
    obtain ⟨hm, hone⟩ := hopen entry List.mem_cons_self
    obtain ⟨o, c, hr⟩ := h.registered entry hm
    obtain ⟨hnot, hnd⟩ := List.nodup_cons.1 hnd
    rw [List.foldlM_cons, hr.close_opened (hone o c hr), ok_bind]
    apply ih (h.closing hm hr) hnd
    intro entry' he
    obtain ⟨hm', hone'⟩ := hopen entry' (List.mem_cons_of_mem _ he)
    refine ⟨hm', fun o₁ c₁ hr₁ => ?_⟩
    -- The session is another one than the session just closed.
    obtain ⟨o', c', hr'⟩ := h.registered entry' hm'
    have hne : o.ctx ≠ o'.ctx := by
      intro heq
      obtain ⟨hsid, hk, -⟩ := hr.unique hr' (.inl heq)
      apply hnot
      rwa [Prod.ext hsid hk]
    obtain ⟨-, -, -, rfl⟩ := (hr'.setCtx_ne hne).unique hr₁ (.inr rfl)
    exact hone' o' c' hr'

theorem closeSessions_abort (entries : List (Int × Nat)) (h : Registry s [])
    (hsub : ∀ entry ∈ entries, entry ∈ s.sessions) (hm : (sid, k) ∈ entries) (hr : Registered s sid k o c)
    (hh : c.tcpHandle ≠ .opened true) :
    entries.foldlM (fun s entry => TCPServer.sessionClose s entry.2) s = .error .assertFailed := by
  induction entries generalizing s with
  | nil => cases hm
  | cons entry entries ih =>
    have hm' : entry ∈ s.sessions := hsub entry List.mem_cons_self
    obtain ⟨o', c', hr'⟩ := h.registered entry hm'
    rw [List.foldlM_cons]
    by_cases hopen : c'.tcpHandle = .opened true
    · -- The closing session comes later, and closing this one does not change it.
      have hne : o'.ctx ≠ o.ctx := by
        intro heq
        obtain ⟨-, -, -, rfl⟩ := hr'.unique hr (.inl heq)
        exact hh hopen
      have hrest : (sid, k) ∈ entries := by
        rcases List.mem_cons.1 hm with heq | hrest
        · subst heq
          obtain ⟨-, -, rfl, -⟩ := hr'.unique hr (.inr rfl)
          exact absurd rfl hne
        · exact hrest
      rw [hr'.close_opened hopen, ok_bind]
      exact ih (h.closing hm' hr') (fun e he => hsub e (List.mem_cons_of_mem _ he)) hrest (hr.setCtx_ne hne)
    · rw [hr'.close_closing hopen, error_bind]

theorem closeAll_aborts_iff (h : Registry s []) (hopen : s.isClosed = false) :
    s.SessionsOpen ↔ s.closeAll ≠ .error .assertFailed := by
  have hclosed : ¬ s.isClosed = true := Bool.eq_false_iff.1 hopen
  rw [TCPServer.closeAll, if_neg hclosed]
  constructor
  · intro hnone
    have hreading : ∀ entry ∈ s.sessions, entry ∈ s.sessions ∧ ∀ o c,
        Registered s entry.1 entry.2 o c → c.tcpHandle = .opened true := by
      intro entry he
      exact ⟨he, fun o c hr => hr.handle.resolve_right fun hclosing => hnone entry he o c hr.obj hr.cell hclosing.1⟩
    obtain ⟨s₁, hs₁⟩ := closeSessions_ok s.sessions h (h.sids.of_map _) hreading
    rw [hs₁, ok_bind]
    exact ok_ne_error
  · -- a session that is closing makes `uv_close` abort
    intro hne entry he o c ho hc hh
    obtain ⟨o', c', hr⟩ := h.registered entry he
    obtain rfl := Option.some.inj (ho.symm.trans hr.obj)
    obtain rfl := Option.some.inj (hc.symm.trans hr.cell)
    refine hne ?_
    rw [closeSessions_abort s.sessions h (fun _ he => he) he hr (by rw [hh]; simp), error_bind]

theorem start_aborts_iff (h : Registry s []) : NoneClosing s .start ↔ step env s .start ≠ .error .assertFailed := by
  by_cases hclosed : s.isClosed = true
  · have hstep : step env s .start = .ok _ := if_pos hclosed
    rw [hstep]
    refine ⟨fun _ => ok_ne_error, fun _ hopen => ?_⟩
    rw [hclosed] at hopen
    cases hopen
  · have hopen := Bool.eq_false_iff.2 hclosed
    have hstep : step env s .start = s.closeAll := if_neg hclosed
    rw [hstep, ← closeAll_aborts_iff h hopen]
    exact ⟨fun hc => hc hopen, fun hc _ => hc⟩

theorem asyncClose_aborts_iff (h : Registry s []) :
    NoneClosing s .asyncClose ↔ step env s .asyncClose ≠ .error .assertFailed := by
  by_cases hg : s.asyncPending = true ∧ s.asyncCloseHandle = .opened false
  · by_cases huser : s.isUserClosed = true
    · by_cases hclosed : s.isClosed = true
      · -- The server is closed, and `_close` returns at once.
        have hstep : step env s .asyncClose = .ok { s with asyncPending := false } := by
          simp only [step, if_pos hg, huser, if_true, TCPServer.closeAll, hclosed, pure_ok]
        rw [hstep]
        refine ⟨fun _ => ok_ne_error, fun _ _ _ _ hc => ?_⟩
        rw [hclosed] at hc
        cases hc
      · have hopen := Bool.eq_false_iff.2 hclosed
        have hflags : OnlyFlags s { s with asyncPending := false } := ⟨rfl, rfl, rfl, rfl, rfl, rfl, rfl⟩
        have hstep : step env s .asyncClose = { s with asyncPending := false }.closeAll := by
          simp only [step, if_pos hg, huser, if_true]
        have hiff : s.SessionsOpen ↔ { s with asyncPending := false }.closeAll ≠ .error .assertFailed :=
          closeAll_aborts_iff (h.same hflags.same) hopen
        rw [hstep, ← hiff]
        exact ⟨fun hc => hc hg.1 hg.2 huser hopen, fun hc _ _ _ _ => hc⟩
    · have hstep : step env s .asyncClose = .ok { s with asyncPending := false } := by
        simp only [step, if_pos hg, huser, Bool.false_eq_true, if_false, pure_ok]
      rw [hstep]
      exact ⟨fun _ => ok_ne_error, fun _ _ _ hu => absurd hu huser⟩
  · have hstep : step env s .asyncClose = .ok s := by
      simp only [step, if_neg hg, pure_ok]
    rw [hstep]
    exact ⟨fun _ => ok_ne_error, fun _ hpending hhandle => absurd ⟨hpending, hhandle⟩ hg⟩

theorem ctx_ne_assertFailed (s : TCPServer) (id : Nat) : s.ctx id ≠ .error .assertFailed := by
  unfold ctx
  split <;> nofun

theorem onConnection_ne_assertFailed (s : TCPServer) (status tcpInit accept readStart : Int) :
    s.onConnection env status tcpInit accept readStart ≠ .error .assertFailed := by
  unfold TCPServer.onConnection
  split
  · exact ok_ne_error
  apply bind_ne_error
  · exact bind_ne_error (ctx_ne_assertFailed _ _) fun _ _ => ok_ne_error
  rintro ⟨s₁, id⟩ -
  simp only
  split
  · exact ok_ne_error
  apply bind_ne_error (cint_ne_assertFailed _)
  intro sid _
  apply bind_ne_error (ctx_ne_assertFailed _ _)
  intro c _
  split
  · exact ok_ne_error
  split
  · exact ok_ne_error
  · exact ok_ne_error

/-- **A step aborts** only where `_close` meets a session that is closing. -/
theorem step_aborts_iff (h : Registry s []) (hp : ParsersOk env s) (e : ServerEvent) :
    NoneClosing s e ↔ step env s e ≠ .error .assertFailed := by
  have honly : ∀ {e : ServerEvent}, NoneClosing s e → step env s e ≠ .error .assertFailed →
      (NoneClosing s e ↔ step env s e ≠ .error .assertFailed) := fun hc hne => ⟨fun _ => hne, fun _ => hc⟩
  cases e with
  | asyncClose => exact asyncClose_aborts_iff h
  | start => exact start_aborts_iff h
  | onConnection status tcpInit accept readStart =>
    refine honly trivial ?_
    simp only [step]
    split
    · exact onConnection_ne_assertFailed s status tcpInit accept readStart
    · exact ok_ne_error
  | recv id chunk =>
    refine honly trivial ?_
    simp only [step]
    split
    · exact ok_ne_error
    next c hc =>
    split
    · next hg =>
      unfold TCPServer.onRecv
      split
      · exact ok_ne_error
      apply bind_ne_error
      · -- A parser overflows or goes on; it asserts nothing.
        rcases (hp id c hc).recv hg.1 hg.2 with ⟨r, hr, -⟩ | ⟨x, hx⟩
        · rw [hr]
          exact ok_ne_error
        · rw [hx]
          simp
      · exact fun _ _ => ok_ne_error
    · exact ok_ne_error
  | recvError id =>
    refine honly trivial ?_
    obtain ⟨s', hs', -⟩ := recvError_total h id
    rw [hs']
    exact ok_ne_error
  | close =>
    refine honly trivial ?_
    simp only [step]
    split <;> exact ok_ne_error
  | handleClosed id =>
    refine honly trivial ?_
    obtain ⟨s', hs', -⟩ := handleClosed_total h id
    rw [hs']
    exact ok_ne_error
  | serverClosed => exact honly trivial ok_ne_error
  | stop =>
    refine honly trivial ?_
    simp only [step]
    split <;> exact ok_ne_error

end Closing

end TCPServer

open TCPServer

/-! **No handle is closed twice** in the runs in which no session is closing when `_close` runs,
and in no others. -/

theorem closes_once (env : Env) (head tail : UInt8) (es : List ServerEvent) :
    Along (step env) NoneClosing (TCPServer.start head tail) es ↔
      run (step env) (TCPServer.start head tail) es ≠ .error .assertFailed := by
  have hkeep : ∀ s e s', Registry s [] ∧ ParsersOk env s → step env s e = .ok s' → Registry s' [] ∧ ParsersOk env s' := by
    rintro s e s' ⟨h, hp⟩ hs
    have hchange := step_change h hs
    exact ⟨h.change hchange, hp.change hchange⟩
  exact along_iff_ne hkeep (fun s e h => step_aborts_iff h.1 h.2 e) ⟨start_registry head tail, start_parsers env head tail⟩

/-- The server is closed before the close callback of a connection that failed. -/
def hastyClose : List ServerEvent := [.onConnection 0 0 0 0, .recvError 0, .close, .asyncClose]

theorem closes_once_fails :
    ¬ ∀ env head tail es, run (step env) (TCPServer.start head tail) es ≠ .error .assertFailed :=
  fun hall => hall zeroEnv 1 2 hastyClose rfl

/-- `Start` meets the same connection. -/
example : run (step zeroEnv) (TCPServer.start 1 2) [.onConnection 0 0 0 0, .recvError 0, .start] =
    .error .assertFailed := rfl

end Uvnet

import Uvnet.TcpServer
import Uvnet.RecvRun

/- `Start` of `tcpserver.cpp`, step by step, beside the loop thread.

   `_close` only asks for the handles to be closed, and `_is_closed` is set when the loop
   thread ends, so `_init` returns at once on a server that was up and has not ended:
   `Start` goes on with handles that are closing (`start_fresh_fails`). It works on fresh
   handles exactly where `_is_closed` is set when it comes to `_init` (`start_fresh_iff`).
   The event `start` of `TCPServer` is a `Start` in which nothing fails, on a closed server
   (`start_refines`), and one that fails in `_bind` on any other (`start_refines_up`).

   One event is a part of `Start` with no wait in it, a `Close`, the beginning of the loop
   thread, or one of its callbacks. Calls of `Start` come one after another. A handle that is
   in the loop, left there by an `_init` that failed half way, is initialised once more and
   belongs to the new call. Not part of the code are the number of the call (`starts`), and
   which call initialised each of the two handles last. -/
namespace Uvnet
open CMachine StepRun

/-- `_start_status`. -/
inductive StartStatus where
  | timeout
  | finish
  | error
  | dis
  deriving DecidableEq

/-- Where a call of `Start` stands: before `_init`, before `_bind`, at the loop condition, in
`ThreadSleep`, or behind the loop. -/
inductive StartPc where
  | init
  | bind
  | test (retryCount : Nat)
  | sleep (retryCount : Nat)
  | leave
  deriving DecidableEq

structure ServerStart where
  server : TCPServer
  startStatus : StartStatus
  /-- Loop threads that were created and have not begun. -/
  created : Nat
  /-- Loop threads in `uv_run`. -/
  running : Nat
  starting : Option StartPc
  returned : List Bool
  starts : Nat
  tcpInit : Nat
  asyncInit : Nat

inductive StartEvent where
  /-- `Start` is called, and its `_close`. -/
  | start
  /-- `_init`, with what the libuv calls in it return. -/
  | init (asyncInit tcpInit nodelay : Int)
  /-- `_bind`, `_listen` and `uv_thread_create`, with what the libuv calls return. -/
  | bind (ip4Addr tcpBind listen threadCreate : Int)
  /-- The next step of the `Start` that waits. -/
  | wait
  /-- `Close`. -/
  | close
  /-- `_start_thread` up to `uv_run`. -/
  | beginThread
  /-- A callback of the loop thread, or its end. -/
  | loop (e : ServerEvent)

/-- The events of the loop thread. -/
def ServerEvent.onLoop : ServerEvent → Bool
  | .start | .close => false
  | _ => true

/-- Initialising a handle, with what libuv returns. -/
def uvInit (h : HandleState) (ret : Int) : HandleState := if ret = 0 then .opened false else h

namespace ServerStart

/-- `TCPServer::TCPServer`. -/
def new (packHead packTail : UInt8) : ServerStart where
  server := { TCPServer.start packHead packTail with isClosed := true, tcpHandle := .raw, asyncCloseHandle := .raw }
  startStatus := .dis
  created := 0
  running := 0
  starting := none
  returned := []
  starts := 0
  tcpInit := 0
  asyncInit := 0

/-- `Start` returns. -/
def finish (s : ServerStart) (result : Bool) : ServerStart :=
  { s with starting := none, returned := s.returned ++ [result] }

/-- `_init`, with what it returns. -/
def init (s : ServerStart) (asyncInit tcpInit nodelay : Int) : ServerStart × Bool :=
  if s.server.isClosed = false then (s, true)
  else if asyncInit ≠ 0 then (s, false)
  else
    let s := { s with
      server := { s.server with
        asyncCloseHandle := uvInit s.server.asyncCloseHandle asyncInit, asyncPending := false }
      asyncInit := s.starts }
    if tcpInit ≠ 0 then (s, false)
    else
      let s := { s with
        server := { s.server with tcpHandle := uvInit s.server.tcpHandle tcpInit }, tcpInit := s.starts }
      if nodelay ≠ 0 then (s, false)
      else ({ s with server := { s.server with isClosed := false } }, true)

/-- `Start` from `_bind` to `uv_thread_create`. -/
def bind (s : ServerStart) (ip4Addr tcpBind listen threadCreate : Int) : ServerStart :=
  if ip4Addr ≠ 0 then s.finish false
  else if tcpBind ≠ 0 then s.finish false
  else if listen ≠ 0 then s.finish false
  else if threadCreate ≠ 0 then s.finish false
  else { s with created := s.created + 1, starting := some (.test 0) }

/-- The loop of `Start`, and what it returns. -/
def wait (s : ServerStart) : StartPc → ServerStart
  | .init | .bind => s
  | .test retryCount =>
    { s with starting := some (if s.startStatus = .dis then .sleep retryCount else .leave) }
  | .sleep retryCount =>
    if retryCount + 1 > 100 then { s with startStatus := .timeout, starting := some .leave }
    else { s with starting := some (.test (retryCount + 1)) }
  | .leave => s.finish (s.startStatus = .finish)

def step (env : Env) (s : ServerStart) : StartEvent → C ServerStart
  | .start =>
    if s.starting.isNone then do
      let server ← s.server.closeAll
      return { s with server := server, starting := some .init, starts := s.starts + 1 }
    else return s
  | .init asyncInit tcpInit nodelay =>
    if s.starting = some .init then
      let (s, ok) := s.init asyncInit tcpInit nodelay
      return if ok then { s with starting := some .bind } else s.finish false
    else return s
  | .bind ip4Addr tcpBind listen threadCreate =>
    if s.starting = some .bind then return s.bind ip4Addr tcpBind listen threadCreate else return s
  | .wait =>
    match s.starting with
    | none => return s
    | some pc => return s.wait pc
  | .close => do
    let server ← s.server.step env .close
    return { s with server := server }
  | .beginThread =>
    if 0 < s.created then
      return { s with created := s.created - 1, running := s.running + 1, startStatus := .finish }
    else return s
  | .loop e =>
    if 0 < s.running ∧ e.onLoop = true then do
      let server ← s.server.step env e
      -- Only the end of `_start_thread` sets `_is_closed`.
      let ended := s.server.isClosed = false ∧ server.isClosed = true
      return { s with server := server, running := if ended then s.running - 1 else s.running }
    else return s

/-- Both handles were initialised by the `Start` that runs, and are not closing. -/
def Fresh (s : ServerStart) : Prop :=
  s.tcpInit = s.starts ∧ s.asyncInit = s.starts ∧ s.server.tcpHandle = .opened false ∧
    s.server.asyncCloseHandle = .opened false

/-- A `Start` that has come to `_bind` has fresh handles. -/
def BindsFresh (s : ServerStart) : Prop := s.starting = some .bind → s.Fresh

/-- `_is_closed` is set when `Start` comes to `_init`. -/
def InitsClosed (s : ServerStart) : StartEvent → Prop
  | .init .. => s.starting = some .init → s.server.isClosed = true
  | _ => True

section Steps
variable {env : Env} {s s' : ServerStart} {e : StartEvent}

theorem sessionClose_isClosed {t t' : TCPServer} {k : Nat} (h : t.sessionClose k = .ok t') : t'.isClosed = t.isClosed := by
  obtain ⟨o, -, h⟩ := bind_eq_ok.1 h
  split at h
  · cases h
    rfl
  · obtain ⟨c, -, h⟩ := bind_eq_ok.1 h
    obtain ⟨b, -, h⟩ := bind_eq_ok.1 h
    cases h
    rfl

theorem sessionsClose_isClosed (entries : List (Int × Nat)) (t t' : TCPServer)
    (h : entries.foldlM (fun s entry => TCPServer.sessionClose s entry.2) t = .ok t') : t'.isClosed = t.isClosed := by
  induction entries generalizing t with
  | nil =>
    cases h
    rfl
  | cons entry entries ih =>
    rw [List.foldlM_cons] at h
    obtain ⟨u, hu, h⟩ := bind_eq_ok.1 h
    exact (ih u h).trans (sessionClose_isClosed hu)

theorem closeAll_isClosed {t t' : TCPServer} (h : t.closeAll = .ok t') : t'.isClosed = t.isClosed := by
  unfold TCPServer.closeAll at h
  split at h
  · cases h
    rfl
  · obtain ⟨u, hu, h⟩ := bind_eq_ok.1 h
    cases h
    exact sessionsClose_isClosed t.sessions t u hu

/-- What a successful `_init` does: nothing on a server that is not closed, else all of it. -/
theorem init_ok {asyncInit tcpInit nodelay : Int} (h : s.init asyncInit tcpInit nodelay = (s', true)) :
    (s.server.isClosed = false ∧ s' = s) ∨
      (s.server.isClosed = true ∧ s' = { s with
        server := { s.server with
          asyncCloseHandle := .opened false, asyncPending := false, tcpHandle := .opened false, isClosed := false }
        asyncInit := s.starts
        tcpInit := s.starts }) := by
  unfold init at h
  split at h
  · next hc =>
    cases h
    exact .inl ⟨hc, rfl⟩
  next hc =>
  split at h
  · cases h
  next ha =>
  obtain rfl : asyncInit = 0 := Decidable.of_not_not ha
  split at h
  · cases h
  next ht =>
  obtain rfl : tcpInit = 0 := Decidable.of_not_not ht
  split at h
  · cases h
  cases h
  exact .inr ⟨Bool.eq_true_of_not_eq_false hc, rfl⟩

/-- What a failed `_init` leaves: the flag, and which call is the last. -/
theorem init_failed {asyncInit tcpInit nodelay : Int} (h : s.init asyncInit tcpInit nodelay = (s', false)) :
    s.server.isClosed = true ∧ s'.server.isClosed = true ∧ s'.created = s.created ∧ s'.running = s.running ∧
      s'.starts = s.starts ∧ (s'.tcpInit = s.tcpInit ∨ s'.tcpInit = s.starts) := by
  unfold init at h
  split at h
  · cases h
  next hc =>
  have hc : s.server.isClosed = true := Bool.eq_true_of_not_eq_false hc
  split at h
  · cases h
    exact ⟨hc, hc, rfl, rfl, rfl, .inl rfl⟩
  split at h
  · cases h
    exact ⟨hc, hc, rfl, rfl, rfl, .inl rfl⟩
  split at h
  · cases h
    exact ⟨hc, hc, rfl, rfl, rfl, .inr rfl⟩
  · cases h

/-- How the flag, the loop threads and the calls of `Start` go together. -/
structure StartOk (s : ServerStart) : Prop where
  single : s.created + s.running ≤ 1
  closed : s.server.isClosed = true → s.created + s.running = 0
  older : s.tcpInit ≤ s.starts ∧ (s.starting = some .init → s.tcpInit < s.starts)
  binding : s.starting = some .bind → s.server.isClosed = false ∧ (s.tcpInit = s.starts → s.created + s.running = 0)

theorem StartOk.init (h : StartOk s) {asyncInit tcpInit nodelay : Int} (hpc : s.starting = some .init)
    (hs : step env s (.init asyncInit tcpInit nodelay) = .ok s') :
    StartOk s' ∧ (s.server.isClosed = true ↔ s'.BindsFresh) := by
  simp only [step, if_pos hpc] at hs
  obtain ⟨⟨s₁, ok⟩, hi⟩ : ∃ r, s.init asyncInit tcpInit nodelay = r := ⟨_, rfl⟩
  rw [hi] at hs
  have hlt := h.older.2 hpc
  cases ok with
  | false =>
    obtain rfl : s₁.finish false = s' := Except.ok.inj hs
    obtain ⟨hc, hc', hcreated, hrunning, hstarts, hinit⟩ := init_failed hi
    refine ⟨⟨?_, ?_, ?_, nofun⟩, iff_of_true hc nofun⟩
    · simpa only [finish, hcreated, hrunning] using h.single
    · intro _
      simpa only [finish, hcreated, hrunning] using h.closed hc
    · refine ⟨?_, nofun⟩
      simp only [finish, hstarts]
      omega
  | true =>
    obtain rfl : { s₁ with starting := some .bind } = s' := Except.ok.inj hs
    rcases init_ok hi with ⟨hc, rfl⟩ | ⟨hc, rfl⟩
    · -- The handles are from an earlier call.
      have hnot : ¬ BindsFresh { s₁ with starting := some .bind } := by
        intro hfresh
        have := (hfresh rfl).1
        simp only at this
        omega
      refine ⟨⟨h.single, h.closed, ⟨h.older.1, nofun⟩, fun _ => ⟨hc, fun heq => ?_⟩⟩, iff_of_false (by rw [hc]; nofun) hnot⟩
      simp only at heq
      omega
    · exact ⟨⟨h.single, nofun, ⟨Nat.le_refl _, nofun⟩, fun _ => ⟨rfl, fun _ => h.closed hc⟩⟩,
        iff_of_true hc fun _ => ⟨rfl, rfl, rfl, rfl⟩⟩

theorem StartOk.wait (h : StartOk s) (hP : s.BindsFresh) {pc : StartPc} (hpc : s.starting = some pc) :
    StartOk (s.wait pc) ∧ (s.wait pc).BindsFresh := by
  have hleft : ∀ {pc' : Option StartPc} {status : StartStatus} {returned : List Bool}, pc' ≠ some .init →
      pc' ≠ some .bind → StartOk { s with starting := pc', startStatus := status, returned := returned } ∧
        BindsFresh { s with starting := pc', startStatus := status, returned := returned } := by
    intro pc' status returned hinit hbind
    exact ⟨⟨h.single, h.closed, ⟨h.older.1, fun hi => absurd hi hinit⟩, fun hb => absurd hb hbind⟩,
      fun hb => absurd hb hbind⟩
  unfold ServerStart.wait
  split
  · exact ⟨h, hP⟩
  · exact ⟨h, hP⟩
  · refine hleft ?_ ?_ <;> split <;> nofun
  · split
    · exact hleft nofun nofun
    · exact hleft nofun nofun
  · exact hleft nofun nofun

theorem StartOk.bind (h : StartOk s) (hP : s.BindsFresh) (hpc : s.starting = some .bind)
    (ip4Addr tcpBind listen threadCreate : Int) :
    StartOk (s.bind ip4Addr tcpBind listen threadCreate) ∧
      (s.bind ip4Addr tcpBind listen threadCreate).BindsFresh := by
  obtain ⟨hopen, hnone⟩ := h.binding hpc
  have hfail : StartOk (s.finish false) ∧ (s.finish false).BindsFresh :=
    ⟨⟨h.single, h.closed, ⟨h.older.1, nofun⟩, nofun⟩, nofun⟩
  unfold ServerStart.bind
  split
  · exact hfail
  split
  · exact hfail
  split
  · exact hfail
  split
  · exact hfail
  · -- No loop thread is there yet.
    have hzero := hnone (hP hpc).1
    refine ⟨⟨?_, fun hc => ?_, ⟨h.older.1, nofun⟩, nofun⟩, nofun⟩
    · simp only
      omega
    · exact absurd (hopen.symm.trans hc) nofun

/-- `Start` is called: its handles will be newer than those of all calls before. -/
theorem StartOk.called (h : StartOk s) (hP : s.BindsFresh) (hs : step env s .start = .ok s') :
    StartOk s' ∧ s'.BindsFresh := by
  simp only [ServerStart.step] at hs
  split at hs
  · obtain ⟨server, hclose, hs⟩ := bind_eq_ok.1 hs
    have hflag := closeAll_isClosed hclose
    cases hs
    refine ⟨⟨h.single, fun hc => h.closed (hflag.symm.trans hc), ⟨?_, fun _ => ?_⟩, nofun⟩, nofun⟩
    · exact Nat.le_succ_of_le h.older.1
    · exact Nat.lt_succ_of_le h.older.1
  · cases hs
    exact ⟨h, hP⟩

theorem StartOk.loop (h : StartOk s) (hP : s.BindsFresh) {e : ServerEvent} (hs : step env s (.loop e) = .ok s') :
    StartOk s' ∧ s'.BindsFresh := by
  simp only [ServerStart.step] at hs
  split at hs
  · next hrun =>
    obtain ⟨server, -, hs⟩ := bind_eq_ok.1 hs
    obtain rfl := Except.ok.inj hs
    -- A loop thread runs, so no call of `Start` is at `_bind`.
    have hbind : s.starting ≠ some .bind := by
      intro hpc
      have := (h.binding hpc).2 (hP hpc).1
      omega
    have hopen : s.server.isClosed = false := by
      rw [Bool.eq_false_iff]
      intro hcl
      have := h.closed hcl
      omega
    have hle := h.single
    refine ⟨⟨?_, fun hc => ?_, h.older, fun hpc => absurd hpc hbind⟩, fun hpc => absurd hpc hbind⟩
    · simp only
      split <;> omega
    · simp only at hc ⊢
      rw [if_pos ⟨hopen, hc⟩]
      omega
  · cases hs
    exact ⟨h, hP⟩

/-- **One step.** The flag, the threads and the calls stay together, and a `Start` that comes to
`_bind` has fresh handles exactly where the condition holds. -/
theorem StartOk.step (h : StartOk s) (hP : s.BindsFresh) (hs : step env s e = .ok s') :
    StartOk s' ∧ (s.InitsClosed e ↔ s'.BindsFresh) := by
  have other : ∀ {t : ServerStart}, StartOk t ∧ t.BindsFresh → StartOk t ∧ (True ↔ t.BindsFresh) :=
    fun ht => ⟨ht.1, iff_of_true trivial ht.2⟩
  cases e with
  | start => exact other (h.called hP hs)
  | init asyncInit tcpInit nodelay =>
    by_cases hpc : s.starting = some .init
    · obtain ⟨h', hiff⟩ := h.init hpc hs
      exact ⟨h', ⟨fun hc => hiff.1 (hc hpc), fun hP' _ => hiff.2 hP'⟩⟩
    · simp only [ServerStart.step, if_neg hpc] at hs
      cases hs
      exact ⟨h, iff_of_true (fun hi => absurd hi hpc) hP⟩
  | bind ip4Addr tcpBind listen threadCreate =>
    simp only [ServerStart.step] at hs
    split at hs
    · next hpc =>
      cases hs
      exact other (h.bind hP hpc ip4Addr tcpBind listen threadCreate)
    · cases hs
      exact other ⟨h, hP⟩
  | wait =>
    simp only [ServerStart.step] at hs
    split at hs
    · cases hs
      exact other ⟨h, hP⟩
    · next pc hpc =>
      cases hs
      exact other (h.wait hP hpc)
  | close =>
    obtain ⟨server, hclose, hs⟩ := bind_eq_ok.1 hs
    simp only [TCPServer.step] at hclose
    split at hclose
    · cases hclose
      cases hs
      exact other ⟨h, hP⟩
    · cases hclose
      cases hs
      exact other ⟨⟨h.single, h.closed, h.older, h.binding⟩, hP⟩
  | beginThread =>
    simp only [ServerStart.step] at hs
    split at hs
    · next hpos =>
      cases hs
      have hsum : s.created - 1 + (s.running + 1) = s.created + s.running := by omega
      refine other ⟨⟨?_, ?_, h.older, ?_⟩, hP⟩
      · simpa only [hsum] using h.single
      · simpa only [hsum] using h.closed
      · simpa only [hsum] using h.binding
    · cases hs
      exact other ⟨h, hP⟩
  | loop e => exact other (h.loop hP hs)

theorem initsClosed_of_error {f : Fault} (hs : step env s e = .error f) : s.InitsClosed e := by
  cases e with
  | init asyncInit tcpInit nodelay =>
    intro hpc
    simp only [ServerStart.step, if_pos hpc] at hs
    cases hs
  | _ => trivial

/-- On a closed server the event `start` is a `Start` in which nothing fails. -/
theorem start_refines (env : Env) {t : TCPServer} (hs : s.starting = none) (hc : s.server.isClosed = true)
    (ht : s.server.step env .start = .ok t) :
    ∃ s', run (step env) s [.start, .init 0 0 0, .bind 0 0 0 0] = .ok s' ∧ s'.server = t ∧
      s'.starting = some (.test 0) ∧ s'.created = s.created + 1 := by
  have hclose : s.server.closeAll = .ok s.server := by
    rw [TCPServer.closeAll, if_pos hc]
    rfl
  rw [TCPServer.step, if_pos hc] at ht
  obtain rfl := Except.ok.inj ht
  have hstart : step env s .start = .ok { s with starting := some .init, starts := s.starts + 1 } := by
    simp only [ServerStart.step, hs, hclose]
    rfl
  have hinit : step env { s with starting := some .init, starts := s.starts + 1 } (.init 0 0 0) = .ok { s with
      server := { s.server with
        isClosed := false, asyncPending := false, tcpHandle := .opened false, asyncCloseHandle := .opened false }
      starting := some .bind
      starts := s.starts + 1
      tcpInit := s.starts + 1
      asyncInit := s.starts + 1 } := by
    simp only [ServerStart.step, ServerStart.init, hc]
    rfl
  exact ⟨_, (run_cons hstart _).trans ((run_cons hinit _).trans (run_cons rfl [])), rfl, rfl, rfl⟩

/-- On any other it is a `Start` that comes to `_bind` at once, and fails there. -/
theorem start_refines_up (env : Env) {t : TCPServer} (hs : s.starting = none) (hc : s.server.isClosed = false)
    (ht : s.server.step env .start = .ok t) {tcpBind : Int} (hbind : tcpBind ≠ 0) :
    ∃ s', run (step env) s [.start, .init 0 0 0, .bind 0 tcpBind 0 0] = .ok s' ∧ s'.server = t ∧
      s'.starting = none ∧ s'.returned = s.returned ++ [false] := by
  have hclose : s.server.closeAll = .ok t := by rwa [TCPServer.step, if_neg (Bool.eq_false_iff.1 hc)] at ht
  have hopen : t.isClosed = false := (closeAll_isClosed hclose).trans hc
  have hstart : step env s .start = .ok { s with server := t, starting := some .init, starts := s.starts + 1 } := by
    simp only [ServerStart.step, hs, hclose]
    rfl
  have hinit : step env { s with server := t, starting := some .init, starts := s.starts + 1 } (.init 0 0 0) =
      .ok { s with server := t, starting := some .bind, starts := s.starts + 1 } := by
    simp only [ServerStart.step, ServerStart.init, hopen]
    rfl
  have hfail : step env { s with server := t, starting := some .bind, starts := s.starts + 1 } (.bind 0 tcpBind 0 0) =
      .ok (finish { s with server := t, starting := some .bind, starts := s.starts + 1 } false) := by
    rw [ServerStart.step, if_pos rfl, ServerStart.bind, if_neg (not_not.2 rfl), if_pos hbind]
    rfl
  exact ⟨_, (run_cons hstart _).trans ((run_cons hinit _).trans (run_cons hfail [])), rfl, rfl, rfl⟩

end Steps

theorem new_startOk (head tail : UInt8) : StartOk (ServerStart.new head tail) where
  single := Nat.zero_le 1
  closed _ := rfl
  older := ⟨Nat.le_refl 0, nofun⟩
  binding := nofun

end ServerStart

open ServerStart

/-! **`Start` works on fresh handles** exactly where `_is_closed` is set when it comes to `_init`. -/

theorem start_fresh_iff (env : Env) (head tail : UInt8) (es : List StartEvent) :
    Along (step env) InitsClosed (ServerStart.new head tail) es ↔
      ∀ pre post s, es = pre ++ post → run (step env) (ServerStart.new head tail) pre = .ok s → s.BindsFresh := by
  have hstep : ∀ s e s', StartOk s → True → s.BindsFresh → step env s e = .ok s' →
      StartOk s' ∧ (s.InitsClosed e ↔ s'.BindsFresh) := fun _ _ _ h _ hP hs => h.step hP hs
  have hfault : ∀ s e f, StartOk s → True → step env s e = .error f → s.InitsClosed e :=
    fun _ _ _ _ _ hs => initsClosed_of_error hs
  exact along_iff hstep hfault (new_startOk head tail) nofun fun _ _ => trivial

/-- The first call fails in `_bind`; the second finds the flag cleared, and its handles closing. -/
theorem start_fresh_fails :
    ¬ ∀ env head tail es s, run (step env) (ServerStart.new head tail) es = .ok s → s.BindsFresh := by
  intro hall
  have hrun : run (step zeroEnv) (ServerStart.new 1 2)
      [.start, .init 0 0 0, .bind 0 (-98) 0 0, .start, .init 0 0 0] = .ok _ := rfl
  have hfresh := hall zeroEnv 1 2 _ _ hrun rfl
  cases hfresh.1

/-- After an `_init` that failed half way, the next call initialises both handles itself. -/
example : ∃ s, run (step zeroEnv) (ServerStart.new 1 2) [.start, .init 0 (-12) 0, .start, .init 0 0 0] = .ok s ∧
    s.starting = some .bind ∧ s.Fresh := ⟨_, rfl, rfl, rfl, rfl, rfl, rfl⟩

end Uvnet

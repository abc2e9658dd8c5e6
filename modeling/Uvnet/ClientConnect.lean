import Uvnet.ClientSteps
import Uvnet.ClientSend
import Uvnet.RecvRun

/- What a call of `Connect` says, and what a client is good for after `Close`.

   `_connect_status` is `CONNECT_DIS` in a new client and never again, and `Connect` reads it
   whatever wrote it: once a client has connected, every later call returns true at once
   (`connect_truthful_fails`). A call whose attempt is issued while the status is
   `CONNECT_DIS`, and which returns before the status is written a second time, tells the
   truth (`connect_truthful`).

   `_is_user_closed` is set by `Close` and never reset, so a client that is connected again
   still counts as closed (`client_reusable_fails`), unless `Connect` is called on one that
   does not (`client_reusable`). -/
namespace Uvnet
open CMachine StepRun

namespace TCPClient

/-- `Connect` is called when every earlier `Close` is over: the loop thread has returned. -/
def ConnectsClosed (s : TCPClient) : TcpClientEvent → Prop
  | .connect => s.isClosed = true ∧ s.looping = false
  | _ => True

/-! What `Connect` returns. -/

/-- An attempt is issued by `Connect` while the status is `CONNECT_DIS`, and until the call
has returned the status does not change a second time. -/
def StatusFresh (s : TCPClient) : TcpClientEvent → Prop
  | .issue asyncInit tcpInit timerInit ip4Addr tcpConnect threadCreate =>
    s.Issues asyncInit tcpInit timerInit ip4Addr tcpConnect threadCreate → s.connectStatus = .dis
  | .onConnect status readStart =>
    s.calling.isSome → s.connectStatus = .dis ∨
      s.connectStatus = if status = 0 ∧ readStart = 0 then .finish else .error
  | .wait => ∀ c n, s.calling = some c → c.pc = .sleep n → 100 < n + 1 → s.connectStatus = .dis
  | _ => True

/-- A call of `Connect` that has not returned, with `n` calls before it: once its attempt is
issued the status says whether that has succeeded, and while the status says nothing the
call waits and its request is outstanding. -/
structure CallOk (status : ConnectStatus) (req : Option Attempt) (n : Nat) (c : ConnectCall) : Prop where
  fresh : c.pc = .init → c.succeeded = false
  told : c.pc ≠ .init → (status = .finish ↔ c.succeeded = true)
  pending : c.pc ≠ .init → status = .dis → c.pc.waiting = true ∧ req = some (.call n)

structure Truthful (s : TCPClient) : Prop where
  returned : ∀ r ∈ s.returned, r.result = true ↔ r.succeeded = true
  calling : ∀ c, s.calling = some c → CallOk s.connectStatus s.connectReq s.returned.length c

section Truthful
variable {env : Env} {s s' s₁ : TCPClient} {c : ConnectCall} {e : TcpClientEvent} {owner : Attempt}

theorem Truthful.closeAll (h : Truthful s) : Truthful s.closeAll := by
  unfold TCPClient.closeAll
  split
  · exact h
  · exact ⟨h.returned, h.calling⟩

theorem Truthful.finishCall (h : ∀ r ∈ s.returned, r.result = true ↔ r.succeeded = true) {b : Bool}
    (hb : b = true ↔ c.succeeded = true) : Truthful (s.finishCall c b) := by
  refine ⟨fun r hr => ?_, nofun⟩
  rcases List.mem_append.1 hr with hr | hr
  · exact h r hr
  · obtain rfl := List.mem_singleton.1 hr
    exact hb

theorem Inited.calls {asyncInit tcpInit timerInit : Int} {ok : Bool} (h : Inited s asyncInit tcpInit timerInit s₁ ok) :
    s₁.returned = s.returned ∧ s₁.calling = s.calling ∧ s₁.connectStatus = s.connectStatus := by
  cases h <;> exact ⟨rfl, rfl, rfl⟩

theorem Truthful.wait (h : Truthful s) (hc : s.calling = some c)
    (hkeep : ∀ n, c.pc = .sleep n → 100 < n + 1 → s.connectStatus = .dis) : Truthful (s.wait c) := by
  have hok := h.calling c hc
  obtain ⟨pc, succeeded, closeCalled⟩ := c
  cases pc with
  | init => exact h
  | test n =>
    refine ⟨h.returned, fun c' hc' => ?_⟩
    obtain rfl := Option.some.inj hc'
    by_cases hst : s.connectStatus = .dis
    · simp only [hst, if_true]
      exact ⟨nofun, fun _ => hst ▸ hok.told nofun, fun _ _ => ⟨rfl, (hok.pending nofun hst).2⟩⟩
    · simp only [hst, if_false]
      exact ⟨nofun, fun _ => hok.told nofun, fun _ hdis => absurd hdis hst⟩
  | sleep n =>
    simp only [TCPClient.wait]
    split
    · next hn =>
      -- The call times out: its attempt has not succeeded.
      have hst := hkeep n rfl hn
      have hnot : succeeded ≠ true := by
        rw [Ne, ← hok.told nofun, hst]
        exact nofun
      refine ⟨h.returned, fun c' hc' => ?_⟩
      obtain rfl := Option.some.inj hc'
      exact ⟨nofun, fun _ => ⟨nofun, fun hs => absurd hs hnot⟩, fun _ => nofun⟩
    · refine ⟨h.returned, fun c' hc' => ?_⟩
      obtain rfl := Option.some.inj hc'
      exact ⟨nofun, fun _ => hok.told nofun, fun _ hst => ⟨rfl, (hok.pending nofun hst).2⟩⟩
  | leave =>
    simp only [TCPClient.wait]
    apply Truthful.finishCall h.returned
    rw [decide_eq_true_iff]
    exact hok.told nofun

/-- An attempt fails: the status becomes `CONNECT_ERROR`, from `CONNECT_DIS` if it changes. -/
theorem Truthful.failed (h : Truthful s) (hkeep : s.calling.isSome → s.connectStatus = .dis ∨ s.connectStatus = .error)
    (hst : s'.connectStatus = .error) (hcalling : s'.calling = s.calling) (hreturned : s'.returned = s.returned) :
    Truthful s' := by
  refine ⟨by rw [hreturned]; exact h.returned, fun c hc => ?_⟩
  rw [hcalling] at hc
  have hok := h.calling c hc
  have hne : s.connectStatus ≠ .finish := by
    rcases hkeep (by rw [hc]; rfl) with hdis | herr
    · rw [hdis]
      exact nofun
    · rw [herr]
      exact nofun
  rw [hst]
  refine ⟨hok.fresh, fun hpc => ⟨nofun, fun hs => ?_⟩, fun _ => nofun⟩
  exact absurd ((hok.told hpc).2 hs) hne

theorem Truthful.reading (h : Truthful s) (hreq : s.connectReq = some owner)
    (hkeep : s.calling.isSome → s.connectStatus = .dis ∨ s.connectStatus = .finish)
    (hcalling : s'.calling = ({ s with connectReq := none }.reading owner).calling)
    (hst : s'.connectStatus = .finish) (hreturned : s'.returned = s.returned) : Truthful s' := by
  refine ⟨by rw [hreturned]; exact h.returned, fun c' hc' => ?_⟩
  rw [hcalling] at hc'
  obtain ⟨c, hc, rfl⟩ := Option.map_eq_some_iff.1 hc'
  have hok := h.calling c hc
  rw [hst]
  refine ⟨fun hpc => ?_, fun hpc => ⟨fun _ => ?_, fun _ => rfl⟩, fun _ => nofun⟩
  · have hwait : c.pc.waiting = false := by
      rw [show c.pc = .init from hpc]
      rfl
    simp only [hok.fresh hpc, hwait, Bool.false_and, Bool.or_self]
  · rcases hkeep (by rw [hc]; rfl) with hdis | hfin
    · -- The request was outstanding, so it was the call's own.
      obtain ⟨hwait, hown⟩ := hok.pending hpc hdis
      obtain rfl : owner = .call s.returned.length := Option.some.inj (hreq.symm.trans hown)
      simp only [hwait, decide_true, Bool.and_self, Bool.or_true]
    · simp only [(hok.told hpc).1 hfin, Bool.true_or]

/-- **A step keeps the calls of `Connect` truthful.** -/
theorem Truthful.step (h : Truthful s) (hc : StatusFresh s e) (hs : ClientStep env s e s') : Truthful s' := by
  cases hs with
  | idle => exact h
  | called _ =>
    refine ⟨h.closeAll.returned, fun c hc => ?_⟩
    obtain rfl := Option.some.inj hc
    exact ⟨fun _ => rfl, fun hpc => absurd rfl hpc, fun hpc => absurd rfl hpc⟩
  | refused hcall hpc hi =>
    obtain ⟨hreturned, -, -⟩ := hi.calls
    apply Truthful.finishCall
    · rw [hreturned]
      exact h.returned
    · rw [(h.calling _ hcall).fresh hpc]
  | unthreaded hcall hpc hi _ _ _ =>
    obtain ⟨hreturned, -, -⟩ := hi.calls
    apply Truthful.finishCall
    · show ∀ r ∈ TCPClient.returned _, _
      rw [requested, hreturned]
      exact h.returned
    · rw [(h.calling _ hcall).fresh hpc]
  | @issued c s₁ _ _ _ _ _ _ _ hcall hpc hi _ _ _ hissues =>
    obtain ⟨hreturned, -, hst⟩ := hi.calls
    have hdis : s₁.connectStatus = .dis := hst.trans (hc hissues)
    refine ⟨?_, fun c' hc' => ?_⟩
    · show ∀ r ∈ s₁.returned, _
      rw [hreturned]
      exact h.returned
    · obtain rfl := Option.some.inj hc'
      show CallOk s₁.connectStatus (some (.call s.returned.length)) s₁.returned.length _
      rw [hdis, hreturned]
      have hno : c.succeeded = false := (h.calling _ hcall).fresh hpc
      refine ⟨nofun, fun _ => ⟨nofun, fun hs => ?_⟩, fun _ _ => ⟨rfl, rfl⟩⟩
      rw [show c.succeeded = true from hs] at hno
      cases hno
  | waited hcall => exact h.wait hcall fun n hpc hn => hc _ n hcall hpc hn
  | closeCalled =>
    refine ⟨fun r' hr' => ?_, fun c' hc' => ?_⟩
    · obtain ⟨r, hr, rfl⟩ := List.mem_map.1 hr'
      exact h.returned r hr
    · obtain ⟨c, hcall, rfl⟩ := Option.map_eq_some_iff.1 hc'
      obtain ⟨hfresh, htold, hpending⟩ := h.calling c hcall
      refine ⟨hfresh, htold, fun hpc hst => ?_⟩
      rw [List.length_map]
      exact hpending hpc hst
  | signalled pending => exact ⟨h.returned, h.calling⟩
  | closing _ _ => exact Truthful.closeAll ⟨h.returned, h.calling⟩
  | connectFailed _ _ hst _ =>
    refine h.failed (fun hsome => ?_) rfl rfl rfl
    have := hc hsome
    rwa [if_neg fun hz => hst hz.1] at this
  | reconnectFailed _ _ hst _ =>
    refine h.failed (fun hsome => ?_) rfl rfl rfl
    have := hc hsome
    rwa [if_neg fun hz => hst hz.1] at this
  | readFailed _ _ _ hrd hs₁ =>
    subst hs₁
    have hkeep : s.calling.isSome → s.connectStatus = .dis ∨ s.connectStatus = .error := by
      intro hsome
      have := hc hsome
      rwa [if_neg fun hz => hrd hz.2] at this
    split
    · exact h.failed hkeep rfl rfl rfl
    · exact h.failed hkeep rfl rfl rfl
  | connected _ hreq _ hs₁ =>
    subst hs₁
    split
    · exact h.reading hreq hc rfl rfl rfl
    · exact h.reading hreq hc rfl rfl rfl
  | received _ _ _ _ => exact ⟨h.returned, h.calling⟩
  | disconnected _ _ => exact ⟨h.returned, h.calling⟩
  | retried _ _ _ => exact ⟨h.returned, h.calling⟩
  | dropped _ _ _ => exact ⟨h.returned, h.calling⟩
  | reissued _ _ _ hreq =>
    refine ⟨h.returned, fun c hcall => ?_⟩
    obtain ⟨hfresh, htold, hpending⟩ := h.calling c hcall
    refine ⟨hfresh, htold, fun hpc hst => ?_⟩
    -- No request was outstanding, so the status says something.
    obtain ⟨-, hown⟩ := hpending hpc hst
    rw [hreq] at hown
    cases hown
  | tcpGone _ _ _ => exact ⟨h.returned, h.calling⟩
  | rearmed _ _ _ _ => exact ⟨h.returned, h.calling⟩
  | timerDropped _ _ _ _ => exact ⟨h.returned, h.calling⟩
  | asyncGone _ => exact ⟨h.returned, h.calling⟩
  | timerGone _ => exact ⟨h.returned, h.calling⟩
  | stopped _ _ => exact ⟨h.returned, h.calling⟩

theorem new_truthful (env : Env) (head tail : UInt8) : Truthful (TCPClient.new env head tail) where
  returned := nofun
  calling := nofun

end Truthful

/-! Whether a connected client sends. -/

/-- `Connect` is called on a client that does not count as closed by its user. -/
def ConnectsUnclosed (s : TCPClient) : TcpClientEvent → Prop
  | .connect => s.isUserClosed = false
  | _ => True

/-- `Send` enters its loop, and `AsyncCB` empties the ring instead of closing the handles. -/
structure Sends (env : Env) (s : TCPClient) : Prop where
  notClosed : s.isUserClosed = false
  enters : ∀ (pipe : ClientSend) (i : Nat) (call : SendCall), pipe.isUserClosed = s.isUserClosed → call.pc = .test →
    pipe.sendStep i call = .ok { pipe with calls := pipe.calls.set i { call with pc := .write } }
  keepsOpen : ∀ s', step env s .async = .ok s' →
    s'.asyncHandle = s.asyncHandle ∧ s'.tcpHandle = s.tcpHandle ∧ s'.connectTimer = s.connectTimer

/-- Where `Close` has not been called since a call of `Connect` began, the user has not closed. -/
structure Unclosed (s : TCPClient) : Prop where
  returned : ∀ r ∈ s.returned, r.closeCalled = false → s.isUserClosed = false
  calling : ∀ c, s.calling = some c → c.closeCalled = false → s.isUserClosed = false

section Unclosed
variable {env : Env} {s s' s₁ : TCPClient} {c : ConnectCall} {e : TcpClientEvent}

theorem closeAll_isUserClosed (s : TCPClient) : s.closeAll.isUserClosed = s.isUserClosed := by
  unfold TCPClient.closeAll
  split <;> rfl

theorem Unclosed.closeAll (h : Unclosed s) : Unclosed s.closeAll := by
  unfold TCPClient.closeAll
  split
  · exact h
  · exact ⟨h.returned, h.calling⟩

theorem Inited.isUserClosed {asyncInit tcpInit timerInit : Int} {ok : Bool}
    (h : Inited s asyncInit tcpInit timerInit s₁ ok) : s₁.isUserClosed = s.isUserClosed := by
  cases h <;> rfl

theorem Unclosed.finishCall (h : Unclosed s) (hc : s.calling = some c) (b : Bool) (hret : s₁.returned = s.returned)
    (huser : s₁.isUserClosed = s.isUserClosed) : Unclosed (s₁.finishCall c b) := by
  refine ⟨fun r hr hclose => huser.trans ?_, nofun⟩
  rcases List.mem_append.1 hr with hr | hr
  · rw [hret] at hr
    exact h.returned r hr hclose
  · obtain rfl := List.mem_singleton.1 hr
    exact h.calling c hc hclose

theorem Unclosed.goOn (h : Unclosed s) (hc : s.calling = some c) {c' : ConnectCall} (hcall : s'.calling = some c')
    (hclose : c'.closeCalled = c.closeCalled) (hret : s'.returned = s.returned) (huser : s'.isUserClosed = s.isUserClosed) :
    Unclosed s' := by
  constructor
  · rw [hret, huser]
    exact h.returned
  · intro c'' hc''
    rw [hcall] at hc''
    obtain rfl := Option.some.inj hc''
    rw [hclose, huser]
    exact h.calling c hc

theorem Unclosed.step (h : Unclosed s) (hcond : ConnectsUnclosed s e) (hs : ClientStep env s e s') : Unclosed s' := by
  cases hs with
  | idle => exact h
  | called _ =>
    have huser : s.isUserClosed = false := hcond
    have hall := (closeAll_isUserClosed s).trans huser
    exact ⟨fun _ _ _ => hall, fun _ _ _ => hall⟩
  | refused hcall _ hi => exact h.finishCall hcall false hi.calls.1 hi.isUserClosed
  | unthreaded hcall _ hi _ _ _ => exact h.finishCall hcall false hi.calls.1 hi.isUserClosed
  | issued hcall _ hi _ _ _ => exact h.goOn hcall rfl rfl hi.calls.1 hi.isUserClosed
  | @waited c hcall =>
    unfold TCPClient.wait
    split
    · exact h
    · exact h.goOn hcall rfl rfl rfl rfl
    · split
      · exact h.goOn hcall rfl rfl rfl rfl
      · exact h.goOn hcall rfl rfl rfl rfl
    · exact h.finishCall hcall _ rfl rfl
  | closeCalled =>
    -- `Close` has been called since every call of `Connect` began.
    refine ⟨fun r' hr' hclose => ?_, fun c' hc' hclose => ?_⟩
    · obtain ⟨r, -, rfl⟩ := List.mem_map.1 hr'
      cases hclose
    · obtain ⟨c, -, rfl⟩ := Option.map_eq_some_iff.1 hc'
      cases hclose
  | signalled _ => exact ⟨h.returned, h.calling⟩
  | closing _ _ => exact Unclosed.closeAll ⟨h.returned, h.calling⟩
  | connectFailed _ _ _ _ => exact ⟨h.returned, h.calling⟩
  | reconnectFailed _ _ _ _ => exact ⟨h.returned, h.calling⟩
  | readFailed _ _ _ _ hs₁ =>
    subst hs₁
    split
    · exact ⟨h.returned, h.calling⟩
    · exact ⟨h.returned, h.calling⟩
  | @connected owner s₁ _ _ _ hs₁ =>
    have hall : Unclosed s₁ := by
      subst hs₁
      refine ⟨h.returned, fun c' hc' => ?_⟩
      obtain ⟨c, hc, rfl⟩ := Option.map_eq_some_iff.1 hc'
      exact h.calling c hc
    split
    · exact ⟨hall.returned, hall.calling⟩
    · exact hall
  | received _ _ _ _ => exact ⟨h.returned, h.calling⟩
  | disconnected _ _ => exact ⟨h.returned, h.calling⟩
  | retried _ _ _ => exact ⟨h.returned, h.calling⟩
  | dropped _ _ _ => exact ⟨h.returned, h.calling⟩
  | reissued _ _ _ _ => exact ⟨h.returned, h.calling⟩
  | tcpGone _ _ _ => exact ⟨h.returned, h.calling⟩
  | rearmed _ _ _ _ => exact ⟨h.returned, h.calling⟩
  | timerDropped _ _ _ _ => exact ⟨h.returned, h.calling⟩
  | asyncGone _ => exact ⟨h.returned, h.calling⟩
  | timerGone _ => exact ⟨h.returned, h.calling⟩
  | stopped _ _ => exact ⟨h.returned, h.calling⟩

theorem new_unclosed (env : Env) (head tail : UInt8) : Unclosed (TCPClient.new env head tail) where
  returned := nofun
  calling := nofun

theorem sends_of_unclosed (h : s.isUserClosed = false) : Sends env s := by
  refine ⟨h, fun pipe i call hflag hpc => ?_, fun s' hs => ?_⟩
  · simp only [ClientSend.sendStep, hpc, hflag, h, Bool.false_eq_true, if_false, pure_ok]
  · simp only [TCPClient.step, h, Bool.false_eq_true, if_false] at hs
    split at hs
    · cases hs
      exact ⟨rfl, rfl, rfl⟩
    · cases hs
      exact ⟨rfl, rfl, rfl⟩

end Unclosed

end TCPClient

open TCPClient

/-- `Connect` succeeds. -/
def connectRun : List TcpClientEvent := [.connect, .issue 0 0 0 0 0 0, .onConnect 0 0, .wait, .wait]

/-- `Close`, up to the end of the loop thread. -/
def closeRun : List TcpClientEvent := [.close, .signal, .async, .tcpClosed 0, .asyncClosed, .timerClosed, .stop]

/-- A client between the delimiters 1 and 2 whose first call of `Connect` has succeeded. -/
def connectedClient : TCPClient :=
  { TCPClient.new zeroEnv 1 2 with
    isClosed := false
    connectStatus := .finish
    asyncHandle := .opened false
    tcpHandle := .opened true
    connectTimer := .opened false
    looping := true
    packet := started zeroEnv 1 2
    connections := [⟨[], []⟩]
    returned := [⟨true, true, false⟩] }

/-- The same client after `Close`. -/
def closedClient : TCPClient :=
  { connectedClient with
    isClosed := true
    isUserClosed := true
    asyncHandle := .raw
    tcpHandle := .raw
    repeatTime := 1000
    connectTimer := .raw
    looping := false
    returned := [⟨true, true, true⟩] }

theorem connectRun_run : run (step zeroEnv) (TCPClient.new zeroEnv 1 2) connectRun = .ok connectedClient := rfl

theorem closeRun_run : run (step zeroEnv) connectedClient closeRun = .ok closedClient := rfl

/-- A second cycle meets the claim that every earlier `Close` is over. -/
theorem secondConnect_closed {es : List TcpClientEvent} (hes : ∀ e ∈ es, e ≠ .connect) :
    Along (step zeroEnv) ConnectsClosed (TCPClient.new zeroEnv 1 2) (connectRun ++ closeRun ++ .connect :: es) := by
  have hother : ∀ (es : List TcpClientEvent), (∀ e ∈ es, e ≠ .connect) → ∀ s, Along (step zeroEnv) ConnectsClosed s es := by
    intro es hes s
    refine .of_forall (fun e he s => ?_) s
    have := hes e he
    cases e <;> trivial
  refine .append (.append ⟨⟨rfl, rfl⟩, fun s _ => hother _ (by decide) s⟩ connectRun_run ?_)
    ((run_append connectRun_run).trans closeRun_run) ?_
  · exact hother _ (by decide) _
  · exact ⟨⟨rfl, rfl⟩, fun s _ => hother es hes s⟩

/-! **`Connect` tells the truth** where its attempt is issued with the status `CONNECT_DIS` and
the status changes once before it returns. -/

theorem connect_truthful (env : Env) (head tail : UInt8) (es : List TcpClientEvent) (s : TCPClient)
    (hfresh : Along (step env) StatusFresh (TCPClient.new env head tail) es)
    (hrun : run (step env) (TCPClient.new env head tail) es = .ok s) :
    ∀ r ∈ s.returned, r.result = true ↔ r.succeeded = true := by
  have hkeep := run_keeps (fun _ _ _ h hc hs => h.step hc (step_cases hs)) (new_truthful env head tail) hfresh hrun
  exact hkeep.returned

theorem connect_truthful_first :
    ∃ s, run (step zeroEnv) (TCPClient.new zeroEnv 1 2) connectRun = .ok s ∧
      ∀ r ∈ s.returned, r.result = true ↔ r.succeeded = true := by
  refine ⟨connectedClient, connectRun_run, connect_truthful zeroEnv 1 2 connectRun _ ?_ connectRun_run⟩
  refine .cons rfl trivial (.cons rfl (fun _ => rfl) (.cons rfl (fun _ => .inl rfl) ?_))
  exact .cons rfl nofun (.cons rfl nofun trivial)

/-- The second call returns before its attempt ends. -/
theorem connect_truthful_fails :
    ¬ ∀ env head tail es s, Along (step env) ConnectsClosed (TCPClient.new env head tail) es →
      run (step env) (TCPClient.new env head tail) es = .ok s → ∀ r ∈ s.returned, r.result = true ↔ r.succeeded = true := by
  intro hall
  have hrun := (run_append ((run_append connectRun_run).trans closeRun_run)).trans
    (rfl : run (step zeroEnv) closedClient [.connect, .issue 0 0 0 0 0 0, .wait, .wait] = .ok _)
  have hstale := hall zeroEnv 1 2 _ _ (secondConnect_closed (by decide)) hrun ⟨true, false, false⟩ (.tail _ (.head _))
  cases hstale.1 rfl

/-! **A client can be reused after `Close`** where `Connect` is called on one that does not count
as closed by its user. -/

theorem client_reusable (env : Env) (head tail : UInt8) (es : List TcpClientEvent) (s : TCPClient)
    (hopen : Along (step env) ConnectsUnclosed (TCPClient.new env head tail) es)
    (hrun : run (step env) (TCPClient.new env head tail) es = .ok s) :
    ∀ r ∈ s.returned, r.result = true → r.closeCalled = false → Sends env s := by
  have hkeep := run_keeps (fun _ _ _ h hc hs => h.step hc (step_cases hs)) (new_unclosed env head tail) hopen hrun
  intro r hr _ hclose
  exact sends_of_unclosed (hkeep.returned r hr hclose)

theorem client_reusable_first : Sends zeroEnv connectedClient := by
  refine client_reusable zeroEnv 1 2 connectRun _ ?_ connectRun_run ⟨true, true, false⟩ (.head _) rfl rfl
  exact .cons rfl rfl (.of_forall (fun e he s => by cases e <;> trivial) _)

theorem client_reusable_fails :
    ¬ ∀ env head tail es s, Along (step env) ConnectsClosed (TCPClient.new env head tail) es →
      run (step env) (TCPClient.new env head tail) es = .ok s →
      ∀ r ∈ s.returned, r.result = true → r.closeCalled = false → Sends env s := by
  intro hall
  have hrun := (run_append ((run_append connectRun_run).trans closeRun_run)).trans
    (rfl : run (step zeroEnv) closedClient connectRun = .ok _)
  have hsends := hall zeroEnv 1 2 _ _ (secondConnect_closed (by decide)) hrun ⟨true, true, false⟩ (.tail _ (.head _)) rfl rfl
  cases hsends.notClosed

end Uvnet

import Uvnet.ServerBroadcast

/- Broadcasts of several threads come one after another.

   Two calls of `_broadcast` never have `_mutex_sessions` both, and a call that has it calls
   `_send` and waits for its return. So of two calls, one has had all its writes taken before
   the first write of the other is (`broadcasts_in_one_order`): every connection gets them in
   the same order.

   `Apart` is what any two calls keep. The one whose writes come first has returned, or the
   other has not sent yet. -/
namespace Uvnet
open CMachine ObjectPool StepRun TCPServer

/-- The write is from a call of `_send` that the broadcast made. -/
def Broadcast.owns (x : Broadcast) (w : ServerWrite) : Prop := w.call ∈ x.sends.map Prod.snd

namespace ServerOut

/-- Every write of `x` was taken before every write of `y`. -/
def Precedes (s : ServerOut) (x y : Broadcast) : Prop := s.taken.Pairwise fun w w' => ¬(y.owns w ∧ x.owns w')

/-- It is `x` whose writes come first: `x` has returned, or `y` has not sent. -/
structure Turn (s : ServerOut) (x y : Broadcast) : Prop where
  precedes : s.Precedes x y
  passed : x.pc = .done ∨ y.sends = []

/-- **What two calls keep**: one of them at most has the mutex, no call of `_send` is from both,
and the writes of one come before those of the other. -/
structure Apart (s : ServerOut) (x y : Broadcast) : Prop where
  exclusive : x.holds = true → y.holds = false
  calls : ∀ i ∈ x.sends.map Prod.snd, i ∉ y.sends.map Prod.snd
  turn : s.Turn x y ∨ s.Turn y x

section Apart
variable {env : Env} {fresh : Nat → UInt8} {s s' t : ServerOut} {b : Nat} {x x' y : Broadcast} {w : ServerWrite} {i : Nat}

theorem holds_cases (x : Broadcast) : x.pc = .lock ∨ x.pc = .done ∨ x.holds = true := by
  unfold Broadcast.holds
  cases x.pc <;> simp

theorem Apart.symm (h : Apart s x y) : Apart s y x where
  exclusive hy := by
    by_contra hx
    simp [h.exclusive (by simpa using hx)] at hy
  calls i hi hx := h.calls i hx hi
  turn := h.turn.symm

theorem precedes_of_nil (s : ServerOut) (x : Broadcast) (hy : y.sends = []) : s.Precedes x y := by
  refine List.Pairwise.imp (R := fun _ _ => True) (fun _ => ?_) (List.pairwise_of_forall fun _ _ => trivial)
  simp [Broadcast.owns, hy]

theorem Turn.of_same (h : Turn s x y) (htaken : s'.taken = s.taken) : Turn s' x y where
  precedes := by
    unfold Precedes
    rw [htaken]
    exact h.precedes
  passed := h.passed

theorem Apart.of_same (h : Apart s x y) (htaken : s'.taken = s.taken) : Apart s' x y where
  exclusive := h.exclusive
  calls := h.calls
  turn := h.turn.imp (fun h => h.of_same htaken) fun h => h.of_same htaken

theorem Turn.taken (h : Turn s x y) (htaken : s'.taken = s.taken ++ [w]) (hdone : x.pc = .done → ¬x.owns w) : Turn s' x y where
  precedes := by
    unfold Precedes
    rw [htaken, List.pairwise_append]
    refine ⟨h.precedes, List.pairwise_singleton _ _, ?_⟩
    rintro w₀ - w₁ hw₁ ⟨hy, hx⟩
    obtain rfl := List.mem_singleton.1 hw₁
    rcases h.passed with hover | hnone
    · exact hdone hover hx
    · simp [Broadcast.owns, hnone] at hy
  passed := h.passed

theorem Apart.taken (h : Apart s x y) (htaken : s'.taken = s.taken ++ [w]) (hx : x.pc = .done → ¬x.owns w)
    (hy : y.pc = .done → ¬y.owns w) : Apart s' x y where
  exclusive := h.exclusive
  calls := h.calls
  turn := h.turn.imp (fun h => h.taken htaken hx) fun h => h.taken htaken hy

theorem Apart.move (h : Apart s x y) (htaken : s'.taken = s.taken) (hsends : x'.sends = x.sends)
    (hdone : x.pc = .done → x'.pc = .done) (hholds : x'.holds = true → x.holds = true ∨ y.holds = false) : Apart s' x' y where
  exclusive hx := (hholds hx).elim h.exclusive id
  calls i hi := h.calls i (hsends ▸ hi)
  turn := by
    refine h.turn.imp (fun h => ?_) fun h => ?_
    · refine ⟨?_, h.passed.imp_left hdone⟩
      simpa [Precedes, Broadcast.owns, htaken, hsends] using h.precedes
    · refine ⟨?_, h.passed.imp_right hsends.trans⟩
      simpa [Precedes, Broadcast.owns, htaken, hsends] using h.precedes

/-- One of the two, with the mutex, begins a call of `_send` that is new. -/
theorem Apart.send (h : Apart s x y) (hfresh : y.pc = .lock → y.sends = []) (hx : x.holds = true) (htaken : s'.taken = s.taken)
    {k : Nat} (hsends : x'.sends = x.sends ++ [(k, i)]) (hother : i ∉ y.sends.map Prod.snd) (hnew : ∀ w ∈ s.taken, w.call ≠ i) :
    Apart s' x' y where
  exclusive _ := h.exclusive hx
  calls j hj := by
    rw [hsends, List.map_append] at hj
    rcases List.mem_append.1 hj with hj | hj
    · exact h.calls j hj
    · rw [List.mem_singleton.1 hj]
      exact hother
  turn := by
    have hrunning : x.pc ≠ .done := by
      intro hdone
      simp [Broadcast.holds, hdone] at hx
    have hfirst : y.sends = [] → Turn s' x' y := fun hnone => ⟨precedes_of_nil s' x' hnone, .inr hnone⟩
    rcases h.turn with hturn | hturn
    · exact .inl (hfirst (hturn.passed.resolve_left hrunning))
    · rcases holds_cases y with hlock | hdone | hholds
      · exact .inl (hfirst (hfresh hlock))
      · -- The other has returned, and no write is taken from the new call yet.
        refine .inr ⟨?_, .inl hdone⟩
        have hprecedes : s.taken.Pairwise fun w w' => ¬(x.owns w ∧ y.owns w') := hturn.precedes
        unfold Precedes
        rw [htaken]
        refine hprecedes.imp_of_mem fun {w w'} hw _ hnot hboth => hnot ⟨?_, hboth.2⟩
        have howns := hboth.1
        rw [Broadcast.owns, hsends, List.map_append] at howns
        rcases List.mem_append.1 howns with howns | howns
        · exact howns
        · exact (hnew w hw (List.mem_singleton.1 howns)).elim
      · simp [h.exclusive hx] at hholds

theorem Inv.call_taken (h : Inv s) {iret : Int} (hs : ServerOut.step env fresh s (.call i iret) = .ok s') :
    s'.broadcasts = s.broadcasts ∧ (s'.taken = s.taken ∨
      ∃ id c, s.send.calls[i]? = some c ∧ c.pc = .submit id ∧ s'.taken = s.taken ++ [⟨id, c.data, i⟩]) := by
  obtain ⟨send, hsend, hs⟩ := bind_eq_ok.1 hs
  cases hs
  refine ⟨rfl, ?_⟩
  simp only [ServerSend.step] at hsend
  cases hi : s.send.calls[i]? with
  | none =>
    rw [hi] at hsend
    cases hsend
    exact .inl (by simp)
  | some c =>
    rw [hi] at hsend
    cases h.send.moved hi hsend with
    | on hrun hpc hcalls hwrites => exact .inl (by simp [hwrites])
    | @taken _ id hpc hcalls hwrites => exact .inr ⟨id, c, rfl, hpc, by simp [hwrites]⟩
    | returned hpc => exact .inl (by simp)

/-- Everything a run keeps. -/
structure Serial (s : ServerOut) : Prop where
  casts : s.Casts
  apart : ∀ (b b' : Nat) (x y : Broadcast), b ≠ b' → s.broadcasts[b]? = some x → s.broadcasts[b']? = some y → s.Apart x y

theorem Casts.call_lt (h : Casts s) (hw : w ∈ s.taken) : w.call < s.send.calls.length := by
  by_contra hge
  have hnone : s.send.calls[w.call]? = none := List.getElem?_eq_none (Nat.le_of_not_lt hge)
  have hmem : w.bytes ∈ s.takenBy w.call := List.mem_map_of_mem (List.mem_filter.2 ⟨hw, by simp⟩)
  simp [h.out.logged, hnone] at hmem

theorem Casts.sends_lt (h : Casts s) (hx : x ∈ s.broadcasts) (hi : i ∈ x.sends.map Prod.snd) : i < s.send.calls.length := by
  obtain ⟨p, hp, rfl⟩ := List.mem_map.1 hi
  obtain ⟨c, hsent, -⟩ := (h.casting x hx).sent p hp
  exact (List.getElem?_eq_some_iff.1 hsent.1).1

/-- A broadcast that has returned has no call of `_send` that still runs. -/
theorem Casts.not_running (h : Casts s) (hx : x ∈ s.broadcasts) (hdone : x.pc = .done) {c : ServerSendCall} {id : Nat}
    (hc : s.send.calls[i]? = some c) (hpc : c.pc = .submit id) : i ∉ x.sends.map Prod.snd := by
  intro hi
  obtain ⟨p, hp, rfl⟩ := List.mem_map.1 hi
  obtain ⟨c', hsent, hend⟩ := (h.casting x hx).sent p hp
  obtain rfl := Option.some.inj (hc.symm.trans hsent.1)
  rcases hend with hcur | ⟨r, hr⟩
  · simp [hdone, BroadcastPc.current] at hcur
  · simp [hpc] at hr

theorem Serial.set (h : Serial s) (hcasts : s'.Casts) (hb : s.broadcasts[b]? = some x)
    (hbroadcasts : s'.broadcasts = s.broadcasts.set b x') (htaken : s'.taken = s.taken)
    (hown : ∀ y ∈ s.broadcasts, Apart s x y → Apart s' x' y) : Serial s' where
  casts := hcasts
  apart i j y z hne hy hz := by
    have hget : ∀ k y, s'.broadcasts[k]? = some y → (k = b ∧ y = x') ∨ (k ≠ b ∧ s.broadcasts[k]? = some y) := by
      intro k y hy
      rw [hbroadcasts] at hy
      by_cases hk : b = k
      · subst hk
        rw [List.getElem?_set_self (List.getElem?_eq_some_iff.1 hb).1] at hy
        exact .inl ⟨rfl, (Option.some.inj hy).symm⟩
      · rw [List.getElem?_set_ne hk] at hy
        exact .inr ⟨Ne.symm hk, hy⟩
    rcases hget i y hy with ⟨rfl, rfl⟩ | ⟨hi, hy⟩
    · obtain ⟨hj, hz⟩ := (hget j z hz).resolve_left fun h => hne h.1.symm
      exact hown z (List.mem_of_getElem? hz) (h.apart i j x z hne hb hz)
    · rcases hget j z hz with ⟨rfl, rfl⟩ | ⟨hj, hz⟩
      · exact (hown y (List.mem_of_getElem? hy) (h.apart j i x y hne.symm hb hy)).symm
      · exact (h.apart i j y z hne hy hz).of_same htaken

theorem Serial.frame (h : Serial s) (hcasts : s'.Casts) (hbroadcasts : s'.broadcasts = s.broadcasts) (htaken : s'.taken = s.taken) :
    Serial s' where
  casts := hcasts
  apart i j y z hne hy hz := by
    rw [hbroadcasts] at hy hz
    exact (h.apart i j y z hne hy hz).of_same htaken

/-- **A step of `_broadcast`.** -/
theorem Serial.broadcasts (h : Serial s) (hcasts : s'.Casts) (hb : s.broadcasts[b]? = some x) (hs : Broadcasts s b x s') :
    Serial s' := by
  have hmem := List.mem_of_getElem? hb
  cases hs with
  | waits => exact h
  | locked hpc hfree =>
    refine h.set hcasts hb rfl rfl fun y hy hapart => ?_
    have hy' : y.holds = false := by
      by_contra hholds
      simp [locked_of_holds hy (by simpa using hholds)] at hfree
    exact hapart.move rfl rfl (by simp [hpc]) fun _ => .inr hy'
  | skipped hpc hmem =>
    refine h.set hcasts hb rfl rfl fun y hy hapart => ?_
    exact hapart.move rfl rfl (by simp [hpc]) fun _ => .inl (by simp [Broadcast.holds, hpc])
  | @sends sid k rest excludeIds o hpc hout ho =>
    refine h.set hcasts hb rfl rfl fun y hy hapart => ?_
    have hlast : s.send.calls.length ∉ y.sends.map Prod.snd := fun hi => Nat.lt_irrefl _ (h.casts.sends_lt hy hi)
    exact hapart.send (h.casts.casting y hy).fresh (by simp [Broadcast.holds, hpc]) rfl rfl hlast
      fun w hw => Nat.ne_of_lt (h.casts.call_lt hw)
  | returned hpc hc hr =>
    refine h.set hcasts hb rfl rfl fun y hy hapart => ?_
    exact hapart.move rfl rfl (by simp [hpc]) fun _ => .inl (by simp [Broadcast.holds, hpc])
  | unlocked hpc =>
    refine h.set hcasts hb rfl rfl fun y hy hapart => ?_
    exact hapart.move rfl rfl (fun _ => rfl) (by simp [Broadcast.holds])

/-- **Every step of every thread.** -/
theorem Serial.step (h : Serial s) {e : OutEvent} (he : e.Valid) (hs : ServerOut.step env fresh s e = .ok s') : Serial s' := by
  have hcasts := (h.casts.step he hs).1
  cases e with
  | server e =>
    simp only [ServerOut.step] at hs
    split at hs
    · cases hs
      exact h
    · obtain ⟨server, -, hs⟩ := bind_eq_ok.1 hs
      cases hs
      exact h.frame hcasts rfl rfl
  | send ctx data =>
    cases hs
    exact h.frame hcasts rfl rfl
  | call i iret =>
    obtain ⟨hbroadcasts, hsame | ⟨id, c, hc, hpc, hmore⟩⟩ := h.casts.out.call_taken hs
    · exact h.frame hcasts hbroadcasts hsame
    · refine ⟨hcasts, fun b b' x y hne hx hy => ?_⟩
      rw [hbroadcasts] at hx hy
      exact (h.apart b b' x y hne hx hy).taken hmore
        (fun hdone => h.casts.not_running (List.mem_of_getElem? hx) hdone hc hpc)
        fun hdone => h.casts.not_running (List.mem_of_getElem? hy) hdone hc hpc
  | onSend k =>
    obtain ⟨send, -, hs⟩ := bind_eq_ok.1 hs
    cases hs
    exact h.frame hcasts rfl rfl
  | broadcast data excludeIds =>
    cases hs
    refine ⟨hcasts, fun b b' x y hne hx hy => ?_⟩
    have hnew : ∀ x, Apart s x (.enter data excludeIds) := by
      intro x
      refine ⟨fun _ => ?_, by simp [Broadcast.enter], .inl ⟨precedes_of_nil s x rfl, .inr rfl⟩⟩
      unfold Broadcast.holds Broadcast.enter
      cases data <;> rfl
    have hget : ∀ k z, (s.broadcasts ++ [Broadcast.enter data excludeIds])[k]? = some z →
        s.broadcasts[k]? = some z ∨ (k = s.broadcasts.length ∧ z = .enter data excludeIds) := by
      intro k z hz
      rcases Nat.lt_trichotomy k s.broadcasts.length with hlt | rfl | hgt
      · exact .inl ((List.getElem?_append_left hlt).symm.trans hz)
      · simp only [List.getElem?_concat_length] at hz
        exact .inr ⟨rfl, (Option.some.inj hz).symm⟩
      · rw [List.getElem?_eq_none (by simp; omega)] at hz
        cases hz
    rcases hget b x hx with hx | ⟨hb, rfl⟩
    · rcases hget b' y hy with hy | ⟨-, rfl⟩
      · exact (h.apart b b' x y hne hx hy).of_same rfl
      · exact (hnew x).of_same rfl
    · rcases hget b' y hy with hy | ⟨hb', -⟩
      · exact (hnew y).symm.of_same rfl
      · exact (hne (hb.trans hb'.symm)).elim
  | broadcastStep b =>
    simp only [ServerOut.step] at hs
    cases hb : s.broadcasts[b]? with
    | none =>
      rw [hb] at hs
      cases hs
      exact h
    | some x =>
      rw [hb] at hs
      exact h.broadcasts hcasts hb (broadcastStep_cases hs)

theorem run_serial {packHead packTail : UInt8} {es : List OutEvent} (hes : ∀ e ∈ es, e.Valid)
    (hrun : run (step env fresh) (start packHead packTail) es = .ok s) : Serial s := by
  have hstep : ∀ s e s', Serial s → e.Valid → ServerOut.step env fresh s e = .ok s' → Serial s' := fun _ _ _ h he hs => h.step he hs
  have hstart : Serial (start packHead packTail) := ⟨start_casts packHead packTail, by simp [start]⟩
  exact run_keeps hstep hstart (Along.of_forall (fun e he _ => hes e he) _) hrun

end Apart

end ServerOut

/-! **One order for all**: of two calls of `_broadcast`, whoever made them, one has all its writes taken
before the first of the other, on whichever connections; and one of them at most runs. -/

theorem broadcasts_in_one_order (env : Env) (fresh : Nat → UInt8) (packHead packTail : UInt8) (es : List OutEvent)
    (hes : ∀ e ∈ es, e.Valid) (s : ServerOut)
    (hrun : run (ServerOut.step env fresh) (ServerOut.start packHead packTail) es = .ok s) (b b' : Nat) (x y : Broadcast)
    (hne : b ≠ b') (hx : s.broadcasts[b]? = some x) (hy : s.broadcasts[b']? = some y) :
    (s.Precedes x y ∨ s.Precedes y x) ∧ (x.holds = true → y.holds = false) := by
  have hapart := (ServerOut.run_serial hes hrun).apart b b' x y hne hx hy
  exact ⟨hapart.turn.imp ServerOut.Turn.precedes ServerOut.Turn.precedes, hapart.exclusive⟩

/-- A second broadcast, to both connections. -/
def castToBoth : List OutEvent :=
  [.broadcast [8] [], .broadcastStep 1, .broadcastStep 1, .call 1 0, .call 1 0, .call 1 0, .broadcastStep 1, .broadcastStep 1,
    .call 2 0, .call 2 0, .call 2 0, .broadcastStep 1, .broadcastStep 1]

theorem castToBoth_run {x : Broadcast} {s : ServerOut} (hs : s.Casts) (hcalls : s.send.calls.length = 1)
    (hbroadcasts : s.broadcasts = [x]) (hdone : x.pc = .done) (hsessions : s.server.sessions = [(1, 0), (2, 1)])
    (hobjs : s.server.objs = [⟨0, false, false, [], []⟩, ⟨1, false, false, [], []⟩]) :
    ∃ t, run (ServerOut.step zeroEnv fun _ => 0) s castToBoth = .ok t ∧
      t.broadcasts = [x, ⟨[8], [], .done, [(1, 0), (2, 1)], [(0, 1), (1, 2)]⟩] := by
  have hfree : x.holds = false := by rw [Broadcast.holds, hdone]
  have h₁ : run (ServerOut.step zeroEnv fun _ => 0) s [.broadcast [8] [], .broadcastStep 1] = .ok { s with
      broadcasts := [x, ⟨[8], [], .loop [(1, 0), (2, 1)] [], [(1, 0), (2, 1)], []⟩] } := by
    have henter : (Broadcast.enter [8] []).holds = false := rfl
    simp [run, ServerOut.step, ServerOut.broadcastStep, ServerOut.locked, ServerOut.setBroadcast, hbroadcasts, hfree, henter,
      hsessions]
    rfl
  obtain ⟨hs₁, -⟩ := ServerOut.run_casts hs (by simp [OutEvent.Valid]) h₁
  have hfirst : s.server.objs[0]? = some ⟨0, false, false, [], []⟩ := by rw [hobjs]; rfl
  obtain ⟨send₂, w₂, h₂, hcalls₂⟩ := hs₁.turn zeroEnv (fun _ => 0) (b := 1) rfl rfl List.not_mem_nil hfirst rfl (by simp) hcalls
  obtain ⟨hs₂, -⟩ := ServerOut.run_casts hs₁ (by simp [OutEvent.Valid]) h₂
  have hsecond : s.server.objs[1]? = some ⟨1, false, false, [], []⟩ := by rw [hobjs]; rfl
  have htwo : send₂.calls.length = 2 := by
    rw [hcalls₂, List.length_append]
    exact congrArg (· + 1) hcalls
  obtain ⟨send₃, w₃, h₃, -⟩ := hs₂.turn zeroEnv (fun _ => 0) (b := 1) rfl rfl List.not_mem_nil hsecond rfl (by simp) htwo
  exact ⟨_, (run_append h₁).trans ((run_append h₂).trans ((run_append h₃).trans rfl)), rfl⟩

theorem broadcasts_in_one_order_two :
    ∃ s x y, run (ServerOut.step zeroEnv fun _ => 0) (ServerOut.start 1 2) (twoAccepted ++ castToOne ++ castToBoth) = .ok s ∧
      x.sends = [(0, 0)] ∧ y.sends = [(0, 1), (1, 2)] ∧ (s.Precedes x y ∨ s.Precedes y x) ∧
      (x.holds = true → y.holds = false) := by
  obtain ⟨t, hrun, ht, hsend, hnone, hsessions, hobjs⟩ := twoAccepted_run
  obtain ⟨u, hrun', hserver, hcalls, hu⟩ := castToOne_run ht hsend hnone hsessions hobjs
  obtain ⟨hcasts, -⟩ := ServerOut.run_casts ht (by simp [castToOne, OutEvent.Valid]) hrun'
  obtain ⟨s, hrun'', hs⟩ := castToBoth_run hcasts (by rw [hcalls]; rfl) hu rfl (by rw [hserver, hsessions]) (by rw [hserver, hobjs])
  have hall : run (ServerOut.step zeroEnv fun _ => 0) (ServerOut.start 1 2) (twoAccepted ++ castToOne ++ castToBoth) = .ok s :=
    (run_append ((run_append hrun).trans hrun')).trans hrun''
  refine ⟨s, ⟨[7], [2], .done, [(1, 0), (2, 1)], [(0, 0)]⟩, ⟨[8], [], .done, [(1, 0), (2, 1)], [(0, 1), (1, 2)]⟩, hall, rfl, rfl, ?_⟩
  exact broadcasts_in_one_order zeroEnv (fun _ => 0) 1 2 _ (by simp [twoAccepted, castToOne, castToBoth, OutEvent.Valid]) s hall
    0 1 _ _ (by decide) (by simp [hs]) (by simp [hs])

end Uvnet

import Uvnet.ServerOut

/- `_broadcast` next to everything else a server does.

   1. `Later`: sessions stay where they are, and a session that has left the registry does not
      come back.
   2. `Casting`: what a call of `_broadcast` has sent so far, and what it still has to send.
      Every step of every thread keeps it (`Casts.step`): while the call runs, the callbacks
      that would change the registry wait.
   3. `broadcast_reaches`: a call that has returned sent its data once to every session that was
      registered all the time, and to none that it was to leave out.
   4. `threads_run`: no step of a thread other than the loop thread faults. -/
namespace Uvnet
open CMachine ObjectPool StepRun

namespace TCPServer

/-- The sessions of `s`, some callbacks after `t`: every session has the context it had, and of
the old ones those are registered that were. -/
structure Later (t s : TCPServer) : Prop where
  length : t.objs.length ≤ s.objs.length
  ctx : ∀ (k : Nat) (o : Session), t.objs[k]? = some o → ∃ o', s.objs[k]? = some o' ∧ o'.ctx = o.ctx
  sessions : ∀ entry ∈ s.sessions, entry.2 < t.objs.length → entry ∈ t.sessions

/-- What was deleted had been closed. -/
def DeletedClosed (s : TCPServer) : Prop := ∀ o ∈ s.objs, o.deleted = true → o.isClosed = true

section Later
variable {env : Env} {s s' t u : TCPServer} {e : ServerEvent} {k : Nat} {o o' : Session}

theorem Later.refl (s : TCPServer) : Later s s := ⟨Nat.le_refl _, fun _ o ho => ⟨o, ho, rfl⟩, fun _ he _ => he⟩

theorem Later.trans (h : Later t s) (h' : Later s u) : Later t u where
  length := Nat.le_trans h.length h'.length
  ctx k o ho := by
    obtain ⟨o₁, ho₁, hctx₁⟩ := h.ctx k o ho
    obtain ⟨o₂, ho₂, hctx₂⟩ := h'.ctx k o₁ ho₁
    exact ⟨o₂, ho₂, hctx₂.trans hctx₁⟩
  sessions entry he hlt := h.sessions entry (h'.sessions entry he (Nat.lt_of_lt_of_le hlt h.length)) hlt

theorem Later.of_same (hobjs : s'.objs = s.objs) (hsessions : s'.sessions = s.sessions) : Later s s' where
  length := Nat.le_of_eq (congrArg List.length hobjs.symm)
  ctx _ o ho := ⟨o, hobjs ▸ ho, rfl⟩
  sessions _ he _ := hsessions ▸ he

/-- One session is another, with its context, and some are registered no more. -/
theorem Later.of_set (ho : s.objs[k]? = some o) (hobjs : s'.objs = s.objs.set k o') (hctx : o'.ctx = o.ctx)
    (hsessions : ∀ entry ∈ s'.sessions, entry ∈ s.sessions) : Later s s' where
  length := by rw [hobjs, List.length_set]
  ctx j p hp := by
    rw [hobjs]
    by_cases hj : k = j
    · subst hj
      obtain rfl := Option.some.inj (ho.symm.trans hp)
      exact ⟨o', List.getElem?_set_self (List.getElem?_eq_some_iff.1 ho).1, hctx⟩
    · exact ⟨p, (List.getElem?_set_ne hj).trans hp, rfl⟩
  sessions entry he _ := hsessions entry he

theorem DeletedClosed.of_set (h : DeletedClosed s) (hobjs : s'.objs = s.objs.set k o') (ho : o'.deleted = true → o'.isClosed = true) :
    DeletedClosed s' := by
  intro p hp
  rw [hobjs] at hp
  rcases List.mem_or_eq_of_mem_set hp with hp | rfl
  · exact h p hp
  · exact ho

theorem record_later (s : TCPServer) (c : SessionCtx) (chunk : List UInt8) (calls : List FullPacket) :
    Later s (s.record c chunk calls) ∧ (DeletedClosed s → DeletedClosed (s.record c chunk calls)) := by
  unfold TCPServer.record
  split
  · exact ⟨.refl s, id⟩
  · split
    · exact ⟨.refl s, id⟩
    · next o ho =>
      refine ⟨.of_set ho rfl rfl fun _ he => he, fun h => h.of_set rfl fun hdel => ?_⟩
      exact h o (List.mem_of_getElem? ho) hdel

/-- **Every callback** leaves the sessions where they are. -/
theorem Change.later (h : Change env s e s') : Later s s' ∧ (DeletedClosed s → DeletedClosed s') := by
  have hsame : ∀ s' : TCPServer, s'.objs = s.objs → s'.sessions = s.sessions → Later s s' ∧ (DeletedClosed s → DeletedClosed s') := by
    intro s' hobjs hsessions
    refine ⟨.of_same hobjs hsessions, fun h => ?_⟩
    rwa [DeletedClosed, hobjs]
  cases h with
  | flags hf => exact hsame _ hf.objs hf.sessions
  | @received id c chunk r hc hh hlen hr =>
    obtain ⟨hlater, hdeleted⟩ := record_later (s.setCtx id { c with packet := r.sync }) c chunk r.calls
    have hctx : Later s (s.setCtx id { c with packet := r.sync }) := .of_same rfl rfl
    exact ⟨hctx.trans hlater, hdeleted⟩
  | initFailed hid hc => exact hsame _ rfl rfl
  | acceptFailed hid hc hlt hfail => exact hsame _ rfl rfl
  | readFailed hid hc => exact hsame _ rfl rfl
  | @accepted id c hid hc hnew =>
    refine ⟨⟨by simp, fun k o ho => ⟨o, ?_, rfl⟩, fun entry he hlt => ?_⟩, fun h o ho => ?_⟩
    · exact (List.getElem?_append_left (List.getElem?_eq_some_iff.1 ho).1).trans ho
    · rcases List.mem_append.1 he with he | he
      · exact he
      · rw [List.mem_singleton.1 he] at hlt
        exact (Nat.lt_irrefl _ hlt).elim
    · rcases List.mem_append.1 ho with ho | ho
      · exact h o ho
      · rw [List.mem_singleton.1 ho]
        simp
  | closing hm hr hh => exact hsame _ rfl rfl
  | closedAll he hhead htail havail hreleased hcells hobjs hsessions hsId hnotes => exact hsame _ hobjs hsessions
  | forgotten hc hh => exact hsame _ rfl rfl
  | recycled hc hh => exact hsame _ rfl rfl
  | @sessionClosed sid k o c hm hr hh =>
    refine ⟨.of_set hr.obj rfl rfl fun entry he => (List.mem_filter.1 he).1, fun h => h.of_set rfl fun _ => rfl⟩
  | stopped hraw => exact hsame _ rfl rfl

/-- A callback that leaves `_mutex_sessions` alone leaves the registry alone. -/
theorem Change.sessions_eq (h : Change env s e s') (he : s.locksSessions e = false) : s'.sessions = s.sessions := by
  cases h with
  | flags hf => exact hf.sessions
  | @received id c chunk r hc hh hlen hr => exact (SameRegistry.received hc r.sync chunk r.calls).sessions
  | closing hm hr hh => rfl
  | stopped hraw => rfl
  | initFailed hid hc => rfl
  | acceptFailed hid hc hlt hfail => rfl
  | readFailed hid hc => rfl
  | accepted hid hc hnew => cases he
  | closedAll he hhead htail havail hreleased hcells hobjs hsessions hsId hnotes => exact hsessions
  | forgotten hc hh => rfl
  | recycled hc hh => rfl
  | sessionClosed hm hr hh => simp [locksSessions, hr.cell, hh] at he

end Later

end TCPServer

open TCPServer

/-- The sessions a call of `_broadcast` has not come to. -/
def BroadcastPc.rest : BroadcastPc → List (Int × Nat)
  | .loop rest _ | .sending _ rest _ => rest
  | _ => []

/-- The call of `_send` it is in. -/
def BroadcastPc.current : BroadcastPc → Option Nat
  | .sending i _ _ => some i
  | _ => none

/-- The sessions it still has to send to. -/
def BroadcastPc.remaining : BroadcastPc → List (Int × Nat)
  | .loop rest excludeIds | .sending _ rest excludeIds => rest.filter fun entry => entry.1 ∉ excludeIds
  | _ => []

/-- The sessions it has to send to. -/
def Broadcast.chosen (x : Broadcast) : List (Int × Nat) := x.sessions.filter fun entry => entry.1 ∉ x.excludeIds

namespace ServerOut

/-- The call `i` of `_send` is one with `data` for the session `k`. -/
def SentTo (s : ServerOut) (data : List UInt8) (k i : Nat) (c : ServerSendCall) : Prop :=
  s.send.calls[i]? = some c ∧ c.data = data ∧ ∃ o, s.server.objs[k]? = some o ∧ s.targets[i]? = some o.ctx

/-- What a call of `_broadcast` has done so far: with what is still to do it comes to all the
sessions it has to send to, each has a call of `_send` of its own, and these have returned but
for the one it is in. While it runs, the registry is what it was. -/
structure Casting (s : ServerOut) (x : Broadcast) : Prop where
  chosen : x.sends.map Prod.fst ++ x.pc.remaining.map Prod.snd = x.chosen.map Prod.snd
  fresh : x.pc = .lock → x.sends = []
  sids : (x.pc.rest.map Prod.fst).Nodup
  registered : x.holds = true → s.server.sessions = x.sessions ∧ ∀ entry ∈ x.pc.rest, entry ∈ x.sessions
  calls : (x.sends.map Prod.snd).Nodup
  sent : ∀ p ∈ x.sends, ∃ c, s.SentTo x.data p.1 p.2 c ∧ (x.pc.current = some p.2 ∨ ∃ r, c.pc = .done r)

/-- Everything a run keeps. -/
structure Casts (s : ServerOut) : Prop where
  out : s.Inv
  registry : Registry s.server []
  deletedClosed : s.server.DeletedClosed
  casting : ∀ x ∈ s.broadcasts, s.Casting x

section Casts
variable {env : Env} {fresh : Nat → UInt8} {s s' t u : ServerOut} {b : Nat} {x x' : Broadcast} {data : List UInt8} {k i : Nat}
  {c : ServerSendCall}

theorem SentTo.grows (h : s.SentTo data k i c) (hgrows : Grows s s') (hlater : Later s.server s'.server) :
    ∃ c', s'.SentTo data k i c' ∧ ∀ r, c.pc = .done r → c'.pc = .done r := by
  obtain ⟨hc, hdata, o, ho, htarget⟩ := h
  obtain ⟨c', hc', hdata', hsame⟩ := hgrows.calls i c hc
  obtain ⟨o', ho', hctx⟩ := hlater.ctx k o ho
  obtain ⟨more, hmore⟩ := hgrows.targets
  refine ⟨c', ⟨hc', hdata'.trans hdata, o', ho', ?_⟩, fun r hr => ?_⟩
  · rw [hmore, hctx, List.getElem?_append_left (List.getElem?_eq_some_iff.1 htarget).1]
    exact htarget
  · rw [hsame r hr]
    exact hr

theorem Casting.frame (h : s.Casting x) (hgrows : Grows s s') (hlater : Later s.server s'.server)
    (hsessions : x.holds = true → s'.server.sessions = s.server.sessions) : s'.Casting x where
  chosen := h.chosen
  fresh := h.fresh
  sids := h.sids
  registered hx := by
    obtain ⟨hsame, hrest⟩ := h.registered hx
    exact ⟨(hsessions hx).trans hsame, hrest⟩
  calls := h.calls
  sent p hp := by
    obtain ⟨c, hsent, hdone⟩ := h.sent p hp
    obtain ⟨c', hsent', hsame⟩ := hsent.grows hgrows hlater
    refine ⟨c', hsent', hdone.imp_right ?_⟩
    rintro ⟨r, hr⟩
    exact ⟨r, hsame r hr⟩

theorem enter_casting (s : ServerOut) (data : List UInt8) (excludeIds : List Int) : s.Casting (.enter data excludeIds) where
  chosen := by
    unfold Broadcast.enter
    split <;> simp [BroadcastPc.remaining, Broadcast.chosen]
  fresh _ := rfl
  sids := by
    unfold Broadcast.enter
    split <;> simp [BroadcastPc.rest]
  registered := by
    unfold Broadcast.enter
    split <;> simp [Broadcast.holds]
  calls := List.nodup_nil
  sent := by simp [Broadcast.enter]

theorem filter_erase {sid : Int} {rest : List (Int × Nat)} (excludeIds : List Int) (h : sid ∉ rest.map Prod.fst) :
    rest.filter (fun entry => entry.1 ∉ excludeIds.erase sid) = rest.filter fun entry => entry.1 ∉ excludeIds := by
  apply List.filter_congr
  intro entry he
  have hne : entry.1 ≠ sid := fun heq => h (heq ▸ List.mem_map_of_mem he)
  simp [List.mem_erase_of_ne hne]

theorem Casting.move (h : s.Casting x) {pc : BroadcastPc} (hpc : pc ≠ .lock) (hremaining : pc.remaining = x.pc.remaining)
    (hrest : pc.rest.Sublist x.pc.rest) (hholds : Broadcast.holds { x with pc := pc } = true → x.holds = true)
    (hcurrent : ∀ i, x.pc.current = some i → ∃ c r, s.send.calls[i]? = some c ∧ c.pc = .done r) : s.Casting { x with pc := pc } where
  chosen := by
    show _ ++ pc.remaining.map Prod.snd = x.chosen.map Prod.snd
    rw [hremaining]
    exact h.chosen
  fresh hlock := (hpc hlock).elim
  sids := (hrest.map Prod.fst).nodup h.sids
  registered hx := by
    obtain ⟨hsame, hin⟩ := h.registered (hholds hx)
    exact ⟨hsame, fun entry he => hin entry (hrest.subset he)⟩
  calls := h.calls
  sent p hp := by
    obtain ⟨c, hsent, hdone⟩ := h.sent p hp
    refine ⟨c, hsent, .inr ?_⟩
    rcases hdone with hcur | hdone
    · obtain ⟨c', r, hc', hr⟩ := hcurrent p.2 hcur
      obtain rfl := Option.some.inj (hsent.1.symm.trans hc')
      exact ⟨r, hr⟩
    · exact hdone

theorem Casting.lock (h : s.Casting x) (hreg : Registry s.server []) (hpc : x.pc = .lock) :
    s.Casting { x with pc := .loop s.server.sessions x.excludeIds, sessions := s.server.sessions } where
  chosen := by
    rw [h.fresh hpc]
    rfl
  fresh := by simp
  sids := hreg.sids
  registered _ := ⟨rfl, fun _ he => he⟩
  calls := h.calls
  sent := by simp [h.fresh hpc]

theorem Casting.send (h : s.Casting x) (hout : s.Inv) {sid : Int} {rest : List (Int × Nat)} {excludeIds : List Int} {o : Session}
    (hpc : x.pc = .loop ((sid, k) :: rest) excludeIds) (hmem : sid ∉ excludeIds) (ho : s.server.objs[k]? = some o) :
    (s.beginSend o.ctx x.data).Casting { x with
      pc := .sending s.send.calls.length rest excludeIds
      sends := x.sends ++ [(k, s.send.calls.length)] } where
  chosen := by
    have hchosen := h.chosen
    simp only [hpc, BroadcastPc.remaining] at hchosen
    show (x.sends ++ [(k, s.send.calls.length)]).map Prod.fst ++ _ = x.chosen.map Prod.snd
    rw [← hchosen]
    simp [BroadcastPc.remaining, hmem]
  fresh := by simp
  sids := by
    have hsids := h.sids
    rw [hpc] at hsids
    exact (List.nodup_cons.1 hsids).2
  registered _ := by
    obtain ⟨hsame, hin⟩ := h.registered (by simp [Broadcast.holds, hpc])
    refine ⟨hsame, fun entry he => hin entry ?_⟩
    rw [hpc]
    exact List.mem_cons_of_mem _ he
  calls := by
    rw [List.map_append, List.nodup_append]
    refine ⟨h.calls, List.nodup_singleton _, ?_⟩
    rintro i hi j hj rfl
    obtain ⟨p, hp, rfl⟩ := List.mem_map.1 hi
    obtain ⟨c, hsent, -⟩ := h.sent p hp
    -- The calls made before have smaller numbers.
    have hlt := (List.getElem?_eq_some_iff.1 hsent.1).1
    rw [List.mem_singleton.1 hj] at hlt
    exact Nat.lt_irrefl _ hlt
  sent p hp := by
    rcases List.mem_append.1 hp with hp | hp
    · obtain ⟨c, hsent, hdone⟩ := h.sent p hp
      obtain ⟨c', hsent', hsame⟩ := hsent.grows (beginSend_grows s o.ctx x.data) (.refl _)
      rcases hdone with hcur | ⟨r, hr⟩
      · simp [hpc, BroadcastPc.current] at hcur
      · exact ⟨c', hsent', .inr ⟨r, hsame r hr⟩⟩
    · obtain rfl := List.mem_singleton.1 hp
      refine ⟨.enter x.data, ⟨?_, rfl, o, ho, ?_⟩, .inl rfl⟩
      · simp [ServerOut.beginSend]
      · simp [ServerOut.beginSend, ← hout.targets]

theorem Casting.set (h : s.Casting x) (b : Nat) (y : Broadcast) : (s.setBroadcast b y).Casting x :=
  h.frame (.of_same rfl rfl rfl) (.refl _) fun _ => rfl

/-- **A step of `_broadcast`** keeps what it has done so far. -/
theorem Casting.step (h : s.Casting x) (hout : s.Inv) (hreg : Registry s.server []) (hs : Broadcasts s b x s') :
    s' = s ∨ ∃ x', s'.broadcasts = s.broadcasts.set b x' ∧ s'.server = s.server ∧ s'.Casting x' := by
  cases hs with
  | waits => exact .inl rfl
  | locked hpc hfree => exact .inr ⟨_, rfl, rfl, (h.lock hreg hpc).set b _⟩
  | @skipped sid k rest excludeIds hpc hmem =>
    have hsids := h.sids
    rw [hpc] at hsids
    have hmove : s.Casting { x with pc := .loop rest (excludeIds.erase sid) } := by
      apply h.move
      · simp
      · have herase := filter_erase excludeIds (List.nodup_cons.1 hsids).1
        simpa [hpc, BroadcastPc.remaining, hmem] using herase
      · simp [hpc, BroadcastPc.rest]
      · simp [Broadcast.holds, hpc]
      · simp [hpc, BroadcastPc.current]
    exact .inr ⟨_, rfl, rfl, hmove.set b _⟩
  | sends hpc hmem ho => exact .inr ⟨_, rfl, rfl, (h.send hout hpc hmem ho).set b _⟩
  | @returned i rest excludeIds c r hpc hc hr =>
    have hmove : s.Casting { x with pc := .loop rest excludeIds } := by
      apply h.move
      · simp
      · simp [hpc, BroadcastPc.remaining]
      · simp [hpc, BroadcastPc.rest]
      · simp [Broadcast.holds, hpc]
      · intro j hj
        rw [hpc] at hj
        obtain rfl := Option.some.inj hj
        exact ⟨c, r, hc, hr⟩
    exact .inr ⟨_, rfl, rfl, hmove.set b _⟩
  | unlocked hpc =>
    have hmove : s.Casting { x with pc := .done } := by
      apply h.move
      · simp
      · simp [hpc, BroadcastPc.remaining]
      · simp [BroadcastPc.rest]
      · simp [Broadcast.holds]
      · simp [hpc, BroadcastPc.current]
    exact .inr ⟨_, rfl, rfl, hmove.set b _⟩

theorem Casts.frame (h : Casts s) (hout : s'.Inv) (hgrows : Grows s s') (hserver : s'.server = s.server)
    (hbroadcasts : s'.broadcasts = s.broadcasts) : Casts s' where
  out := hout
  registry := hserver ▸ h.registry
  deletedClosed := hserver ▸ h.deletedClosed
  casting x hx := by
    rw [hbroadcasts] at hx
    refine (h.casting x hx).frame hgrows ?_ fun _ => congrArg _ hserver
    rw [hserver]
    exact .refl _

theorem locked_of_holds (hx : x ∈ s.broadcasts) (hholds : x.holds = true) : s.locked = true :=
  List.any_eq_true.2 ⟨x, hx, hholds⟩

theorem Casts.callback (h : Casts s) {e : ServerEvent} (hfree : ¬(s.server.locksSessions e && s.locked) = true) {server : TCPServer}
    (hs : s.server.step env e = .ok server) : Casts { s with server := server } := by
  have hchange := step_change h.registry hs
  obtain ⟨hlater, hdeleted⟩ := hchange.later
  refine ⟨h.out.of_same rfl rfl rfl h.out.short, h.registry.step hs, hdeleted h.deletedClosed, fun x hx => ?_⟩
  refine (h.casting x hx).frame (.of_same rfl rfl rfl) hlater fun hholds => ?_
  have hlocked : s.locked = true := locked_of_holds hx hholds
  apply hchange.sessions_eq
  simpa [hlocked] using hfree

/-- **Every step of every thread.** -/
theorem Casts.step (h : Casts s) {e : OutEvent} (he : e.Valid) (hs : ServerOut.step env fresh s e = .ok s') :
    Casts s' ∧ Later s.server s'.server := by
  obtain ⟨hout, hgrows⟩ := h.out.step he hs
  cases e with
  | server e =>
    simp only [ServerOut.step] at hs
    split at hs
    · cases hs
      exact ⟨h, .refl _⟩
    · next hfree =>
      obtain ⟨server, hserver, hs⟩ := bind_eq_ok.1 hs
      cases hs
      exact ⟨h.callback hfree hserver, (step_change h.registry hserver).later.1⟩
  | send ctx data =>
    cases hs
    exact ⟨h.frame hout hgrows rfl rfl, .refl _⟩
  | call i iret =>
    obtain ⟨send, -, hs⟩ := bind_eq_ok.1 hs
    cases hs
    exact ⟨h.frame hout hgrows rfl rfl, .refl _⟩
  | onSend k =>
    obtain ⟨send, -, hs⟩ := bind_eq_ok.1 hs
    cases hs
    exact ⟨h.frame hout hgrows rfl rfl, .refl _⟩
  | broadcast data excludeIds =>
    cases hs
    refine ⟨⟨hout, h.registry, h.deletedClosed, fun x hx => ?_⟩, .refl _⟩
    rcases List.mem_append.1 hx with hx | hx
    · exact (h.casting x hx).frame hgrows (.refl _) fun _ => rfl
    · rw [List.mem_singleton.1 hx]
      exact enter_casting _ data excludeIds
  | broadcastStep b =>
    simp only [ServerOut.step] at hs
    cases hb : s.broadcasts[b]? with
    | none =>
      rw [hb] at hs
      cases hs
      exact ⟨h, .refl _⟩
    | some x =>
      rw [hb] at hs
      have hx := h.casting x (List.mem_of_getElem? hb)
      rcases hx.step h.out h.registry (broadcastStep_cases hs) with rfl | ⟨x', hbroadcasts, hserver, hx'⟩
      · exact ⟨h, .refl _⟩
      · have hlater : Later s.server s'.server := by rw [hserver]; exact .refl _
        refine ⟨⟨hout, hserver ▸ h.registry, hserver ▸ h.deletedClosed, fun y hy => ?_⟩, hlater⟩
        rw [hbroadcasts] at hy
        rcases List.mem_or_eq_of_mem_set hy with hy | rfl
        · exact (h.casting y hy).frame hgrows hlater fun _ => congrArg _ hserver
        · exact hx'

theorem start_casts (packHead packTail : UInt8) : Casts (start packHead packTail) where
  out := start_inv packHead packTail
  registry := start_registry packHead packTail
  deletedClosed := by simp [start, TCPServer.start, DeletedClosed]
  casting := by simp [start]

theorem run_casts (h : Casts t) {es : List OutEvent} (hes : ∀ e ∈ es, e.Valid) (hrun : run (step env fresh) t es = .ok s) :
    Casts s ∧ Later t.server s.server := by
  have hstep : ∀ s e s', Casts s ∧ Later t.server s.server → e.Valid → ServerOut.step env fresh s e = .ok s' →
      Casts s' ∧ Later t.server s'.server := by
    rintro s e s' ⟨hcasts, hlater⟩ he hs
    obtain ⟨hcasts', hlater'⟩ := hcasts.step he hs
    exact ⟨hcasts', hlater.trans hlater'⟩
  have hstart : Casts t ∧ Later t.server t.server := ⟨h, .refl _⟩
  have hend := run_keeps hstep hstart (Along.of_forall (fun e he _ => hes e he) _) hrun
  exact hend

/-! No thread faults. -/

/-- The sessions a call of `_broadcast` comes to have not been deleted. -/
theorem Casts.next_ok (h : Casts s) (hx : x ∈ s.broadcasts) {sid : Int} {rest : List (Int × Nat)} {excludeIds : List Int}
    (hpc : x.pc = .loop ((sid, k) :: rest) excludeIds) : ∃ o, s.server.objs[k]? = some o ∧ o.deleted = false := by
  obtain ⟨hsame, hin⟩ := (h.casting x hx).registered (by simp [Broadcast.holds, hpc])
  have hmem : (sid, k) ∈ s.server.sessions := by
    rw [hsame]
    apply hin
    simp [hpc, BroadcastPc.rest]
  obtain ⟨o, c, hreg⟩ := h.registry.registered _ hmem
  refine ⟨o, hreg.obj, ?_⟩
  by_contra hdel
  have hclosed := h.deletedClosed o (List.mem_of_getElem? hreg.obj) (by simpa using hdel)
  simp [hreg.notClosed] at hclosed

theorem Casts.broadcastStep_total (h : Casts s) (hb : s.broadcasts[b]? = some x) : ∃ s', s.broadcastStep b x = .ok s' := by
  have hx := List.mem_of_getElem? hb
  unfold ServerOut.broadcastStep
  split
  · split
    · exact ⟨_, rfl⟩
    · exact ⟨_, rfl⟩
  · exact ⟨_, rfl⟩
  · next sid k rest excludeIds hpc =>
    split
    · exact ⟨_, rfl⟩
    · obtain ⟨o, ho, hdel⟩ := h.next_ok hx hpc
      simp only [obj_ok ho, ok_bind, hdel, Bool.false_eq_true, if_false]
      exact ⟨_, rfl⟩
  · split
    · exact ⟨_, rfl⟩
    · exact ⟨_, rfl⟩
  · exact ⟨_, rfl⟩

/-- **No step of a thread faults**, the callbacks of the loop thread apart. -/
theorem Casts.total (h : Casts s) (env : Env) (fresh : Nat → UInt8) {e : OutEvent} (he : ∀ e', e ≠ .server e') :
    ∃ s', ServerOut.step env fresh s e = .ok s' := by
  cases e with
  | server e => exact (he e rfl).elim
  | send ctx data => exact h.out.send_total env fresh rfl
  | call i iret => exact h.out.send_total env fresh rfl
  | onSend k => exact h.out.send_total env fresh rfl
  | broadcast data excludeIds => exact ⟨_, rfl⟩
  | broadcastStep b =>
    simp only [ServerOut.step]
    cases hb : s.broadcasts[b]? with
    | none => exact ⟨s, rfl⟩
    | some x => exact h.broadcastStep_total hb

/-! What a broadcast found registered. -/

/-- The broadcast `b`, called some time after `t`, found registered what some server between `t`
and now has. -/
structure Called (t : TCPServer) (b : Nat) (data : List UInt8) (excludeIds : List Int) (s : ServerOut) (x : Broadcast) : Prop where
  get : s.broadcasts[b]? = some x
  data : x.data = data
  excludeIds : x.excludeIds = excludeIds
  found : x.pc = .lock ∨ ∃ u, Registry u [] ∧ x.sessions = u.sessions ∧ Later t u ∧ Later u s.server

variable {excludeIds : List Int} {server : TCPServer}

theorem Called.frame (h : Called server b data excludeIds s x) (hget : s'.broadcasts[b]? = some x) (hlater : Later s.server s'.server) :
    Called server b data excludeIds s' x := by
  refine ⟨hget, h.data, h.excludeIds, h.found.imp_right ?_⟩
  rintro ⟨u, hu, hsessions, ht, hs⟩
  exact ⟨u, hu, hsessions, ht, hs.trans hlater⟩

theorem Called.set (h : Called server b data excludeIds s x) (hpc : x.pc ≠ .lock) (hdata : x'.data = x.data)
    (hexclude : x'.excludeIds = x.excludeIds) (hsessions : x'.sessions = x.sessions) :
    Called server b data excludeIds (s.setBroadcast b x') x' := by
  refine ⟨List.getElem?_set_self (List.getElem?_eq_some_iff.1 h.get).1, hdata.trans h.data, hexclude.trans h.excludeIds, .inr ?_⟩
  obtain ⟨u, hu, hfound, ht, hs⟩ := h.found.resolve_left hpc
  exact ⟨u, hu, hsessions.trans hfound, ht, hs⟩

/-- **Its own steps.** -/
theorem Called.own (h : Called server b data excludeIds s x) (hreg : Registry s.server []) (hlater : Later server s.server)
    (hs : Broadcasts s b x s') : ∃ x', Called server b data excludeIds s' x' := by
  cases hs with
  | waits => exact ⟨x, h⟩
  | locked hpc hfree =>
    refine ⟨_, List.getElem?_set_self (List.getElem?_eq_some_iff.1 h.get).1, h.data, h.excludeIds, .inr ?_⟩
    exact ⟨s.server, hreg, rfl, hlater, .refl _⟩
  | skipped hpc hmem => exact ⟨_, h.set (by simp [hpc]) rfl rfl rfl⟩
  | @sends sid k rest excludeIds o hpc hmem ho =>
    have hbegin : Called server b data _ (s.beginSend o.ctx x.data) x := h.frame h.get (.refl _)
    exact ⟨_, hbegin.set (by simp [hpc]) rfl rfl rfl⟩
  | returned hpc hc hr => exact ⟨_, h.set (by simp [hpc]) rfl rfl rfl⟩
  | unlocked hpc => exact ⟨_, h.set (by simp [hpc]) rfl rfl rfl⟩

theorem Called.step (h : Called server b data excludeIds s x) (hcasts : Casts s) (hlater : Later server s.server) {e : OutEvent}
    (he : e.Valid) (hs : ServerOut.step env fresh s e = .ok s') : ∃ x', Called server b data excludeIds s' x' := by
  have hlater' := (hcasts.step he hs).2
  cases e with
  | server e =>
    simp only [ServerOut.step] at hs
    split at hs
    · cases hs
      exact ⟨x, h⟩
    · obtain ⟨server, -, hs⟩ := bind_eq_ok.1 hs
      cases hs
      exact ⟨x, h.frame h.get hlater'⟩
  | send ctx data =>
    cases hs
    exact ⟨x, h.frame h.get hlater'⟩
  | call i iret =>
    obtain ⟨send, -, hs⟩ := bind_eq_ok.1 hs
    cases hs
    exact ⟨x, h.frame h.get hlater'⟩
  | onSend k =>
    obtain ⟨send, -, hs⟩ := bind_eq_ok.1 hs
    cases hs
    exact ⟨x, h.frame h.get hlater'⟩
  | broadcast data excludeIds =>
    cases hs
    refine ⟨x, h.frame ?_ hlater'⟩
    exact (List.getElem?_append_left (List.getElem?_eq_some_iff.1 h.get).1).trans h.get
  | broadcastStep j =>
    simp only [ServerOut.step] at hs
    cases hj : s.broadcasts[j]? with
    | none =>
      rw [hj] at hs
      cases hs
      exact ⟨x, h⟩
    | some y =>
      rw [hj] at hs
      by_cases hb : j = b
      · subst hb
        obtain rfl := Option.some.inj (hj.symm.trans h.get)
        exact h.own hcasts.registry hlater (broadcastStep_cases hs)
      · have hy := hcasts.casting y (List.mem_of_getElem? hj)
        rcases hy.step hcasts.out hcasts.registry (broadcastStep_cases hs) with rfl | ⟨y', hbroadcasts, -, -⟩
        · exact ⟨x, h⟩
        · refine ⟨x, h.frame ?_ hlater'⟩
          rw [hbroadcasts, List.getElem?_set_ne hb]
          exact h.get

theorem called (hne : data ≠ []) (t : ServerOut) (excludeIds : List Int) :
    Called t.server t.broadcasts.length data excludeIds { t with broadcasts := t.broadcasts ++ [.enter data excludeIds] }
      (.enter data excludeIds) where
  get := by simp
  data := rfl
  excludeIds := rfl
  found := by simp [Broadcast.enter, hne]

theorem run_called (ht : Casts t) (hne : data ≠ []) {es : List OutEvent} (hes : ∀ e ∈ OutEvent.broadcast data excludeIds :: es, e.Valid)
    (hrun : run (step env fresh) t (.broadcast data excludeIds :: es) = .ok s) :
    ∃ x, Called t.server t.broadcasts.length data excludeIds s x := by
  obtain ⟨t', hs, hrun⟩ := run_cons_ok hrun
  obtain ⟨hcasts, hlater⟩ := ht.step (hes _ List.mem_cons_self) hs
  obtain rfl : { t with broadcasts := t.broadcasts ++ [.enter data excludeIds] } = t' := Except.ok.inj hs
  have hstep : ∀ s e s', (Casts s ∧ Later t.server s.server) ∧ (∃ x, Called t.server t.broadcasts.length data excludeIds s x) →
      e.Valid → ServerOut.step env fresh s e = .ok s' →
      (Casts s' ∧ Later t.server s'.server) ∧ ∃ x, Called t.server t.broadcasts.length data excludeIds s' x := by
    rintro s e s' ⟨⟨hcasts, hlater⟩, x, hx⟩ he hs
    obtain ⟨hcasts', hlater'⟩ := hcasts.step he hs
    exact ⟨⟨hcasts', hlater.trans hlater'⟩, hx.step hcasts hlater he hs⟩
  have hstart := called hne t excludeIds
  have hvalid : ∀ e ∈ es, e.Valid := fun e he => hes e (List.mem_cons_of_mem _ he)
  have hend := run_keeps hstep ⟨⟨hcasts, hlater⟩, _, hstart⟩ (Along.of_forall (fun e he _ => hvalid e he) _) hrun
  exact hend.2

theorem numbers_nodup (h : Registry server []) : (server.sessions.map Prod.snd).Nodup := by
  refine List.Nodup.map_on ?_ (List.Nodup.of_map Prod.fst h.sids)
  intro entry he entry' he' heq
  obtain ⟨o, c, hr⟩ := h.registered entry he
  obtain ⟨o', c', hr'⟩ := h.registered entry' he'
  exact Prod.ext (hr.unique hr' (.inr heq)).1 heq

/-- **What a call that has returned sent to**: the sessions it found registered, but for those it was to leave out. -/
theorem Casting.done (h : s.Casting x) (hdone : x.pc = .done) : x.sends.map Prod.fst = x.chosen.map Prod.snd := by
  simpa [hdone, BroadcastPc.remaining] using h.chosen

theorem mem_chosen : k ∈ x.chosen.map Prod.snd ↔ ∃ sid, (sid, k) ∈ x.sessions ∧ sid ∉ x.excludeIds := by
  simp [Broadcast.chosen]

end Casts

end ServerOut

/-! **A broadcast reaches everybody once**: a call of `_broadcast` that has returned called `_send` once
for every session that was registered when it began and still is, and whose id it was not to
leave out; it called `_send` for no session it was to leave out; and `uv_write` took the data
in each of these calls that returned true. -/

theorem broadcast_reaches (env : Env) (fresh : Nat → UInt8) (packHead packTail : UInt8) (data : List UInt8) (excludeIds : List Int)
    (hne : data ≠ []) (es fs : List OutEvent) (hes : ∀ e ∈ es ++ .broadcast data excludeIds :: fs, e.Valid) (t s : ServerOut)
    (hrun : run (ServerOut.step env fresh) (ServerOut.start packHead packTail) es = .ok t)
    (hrun' : run (ServerOut.step env fresh) t (.broadcast data excludeIds :: fs) = .ok s) (x : Broadcast)
    (hx : s.broadcasts[t.broadcasts.length]? = some x) (hdone : x.pc = .done) :
    (x.sends.map Prod.fst).Nodup ∧ (x.sends.map Prod.snd).Nodup ∧
    (∀ sid k, (sid, k) ∈ t.server.sessions → (sid, k) ∈ s.server.sessions → sid ∉ excludeIds → k ∈ x.sends.map Prod.fst) ∧
    (∀ sid k, (sid, k) ∈ t.server.sessions ∨ (sid, k) ∈ s.server.sessions → sid ∈ excludeIds → k ∉ x.sends.map Prod.fst) ∧
    ∀ p ∈ x.sends, ∃ c r, s.SentTo data p.1 p.2 c ∧ c.pc = .done r ∧ s.takenBy p.2 = if r then [data] else [] := by
  obtain ⟨ht, -⟩ := ServerOut.run_casts (ServerOut.start_casts packHead packTail) (fun e he => hes e (List.mem_append_left _ he)) hrun
  have hfs : ∀ e ∈ OutEvent.broadcast data excludeIds :: fs, e.Valid := fun e he => hes e (List.mem_append_right _ he)
  obtain ⟨hs, -⟩ := ServerOut.run_casts ht hfs hrun'
  obtain ⟨x', hcalled⟩ := ServerOut.run_called ht hne hfs hrun'
  obtain rfl : x = x' := Option.some.inj (hx.symm.trans hcalled.get)
  obtain ⟨u, hu, hsessions, htu, hus⟩ := hcalled.found.resolve_left (by simp [hdone])
  have hcasting := hs.casting x (List.mem_of_getElem? hx)
  have hsends := hcasting.done hdone
  refine ⟨?_, hcasting.calls, ?_, ?_, ?_⟩
  · rw [hsends]
    refine List.Nodup.sublist (List.filter_sublist.map Prod.snd) ?_
    rw [hsessions]
    exact ServerOut.numbers_nodup hu
  · intro sid k hbefore hafter hout
    obtain ⟨o, c, hreg⟩ := ht.registry.registered _ hbefore
    obtain ⟨o', ho', -⟩ := htu.ctx k o hreg.obj
    rw [hsends, ServerOut.mem_chosen, hsessions, hcalled.excludeIds]
    exact ⟨sid, hus.sessions _ hafter (List.getElem?_eq_some_iff.1 ho').1, hout⟩
  · intro sid k hentry hin hmem
    rw [hsends, ServerOut.mem_chosen, hsessions, hcalled.excludeIds] at hmem
    obtain ⟨sid', hfound, hout⟩ := hmem
    obtain ⟨o', c', hreg'⟩ := hu.registered _ hfound
    -- The session `k` has one id only, before and after.
    have hsame : sid = sid' := by
      rcases hentry with hbefore | hafter
      · obtain ⟨o, c, hreg⟩ := ht.registry.registered _ hbefore
        have hold := htu.sessions _ hfound (List.getElem?_eq_some_iff.1 hreg.obj).1
        obtain ⟨o₂, c₂, hreg₂⟩ := ht.registry.registered _ hold
        exact (hreg.unique hreg₂ (.inr rfl)).1
      · have hold := hus.sessions _ hafter (List.getElem?_eq_some_iff.1 hreg'.obj).1
        obtain ⟨o₂, c₂, hreg₂⟩ := hu.registered _ hold
        exact (hreg₂.unique hreg' (.inr rfl)).1
    exact hout (hsame ▸ hin)
  · intro p hp
    obtain ⟨c, hsent, hend⟩ := hcasting.sent p hp
    rw [hcalled.data] at hsent
    rcases hend with hcur | ⟨r, hr⟩
    · simp [hdone, BroadcastPc.current] at hcur
    · refine ⟨c, r, hsent, hr, ?_⟩
      rw [hs.out.logged, hsent.1, Option.elim_some, ServerSendCall.handed, hr, hsent.2.1]
      simp [hne]

/-- A turn of the loop of `_broadcast` that nobody interrupts, and whose write is taken. -/
theorem ServerOut.Casts.turn (env : Env) (fresh : Nat → UInt8) {s : ServerOut} (hs : s.Casts) {b : Nat} {x : Broadcast}
    (hb : s.broadcasts[b]? = some x) {sid : Int} {k : Nat} {rest : List (Int × Nat)} {excludeIds : List Int}
    (hpc : x.pc = .loop ((sid, k) :: rest) excludeIds) (hout : sid ∉ excludeIds) {o : Session}
    (ho : s.server.objs[k]? = some o) (hlive : o.deleted = false) (hne : x.data ≠ []) {i : Nat} (hi : s.send.calls.length = i) :
    ∃ send w, run (ServerOut.step env fresh) s
        (.broadcastStep b :: ([.call i 0, .call i 0, .call i 0] ++ [.broadcastStep b])) = .ok { s with
          send := send
          targets := s.targets ++ [o.ctx]
          taken := s.taken ++ [w]
          broadcasts := s.broadcasts.set b { x with pc := .loop rest excludeIds, sends := x.sends ++ [(k, i)] } } ∧
      send.calls = s.send.calls ++ [⟨x.data, .done true⟩] := by
  subst hi
  have hlt := (List.getElem?_eq_some_iff.1 hb).1
  have henter : ServerSendCall.enter x.data = ⟨x.data, .fetch⟩ := by
    unfold ServerSendCall.enter
    rw [if_neg (by simpa using hne)]
  let x₁ : Broadcast := { x with
    pc := .sending s.send.calls.length rest excludeIds, sends := x.sends ++ [(k, s.send.calls.length)] }
  have h₁ : ServerOut.step env fresh s (.broadcastStep b) = .ok ((s.beginSend o.ctx x.data).setBroadcast b x₁) := by
    simp only [ServerOut.step, hb, ServerOut.broadcastStep, hpc, if_neg hout, TCPServer.obj, ho, ok_bind, pure_ok, hlive,
      Bool.false_eq_true, if_false, x₁]
  have hrun : run (ServerOut.step env fresh) s [.broadcastStep b] = .ok ((s.beginSend o.ctx x.data).setBroadcast b x₁) :=
    run_cons h₁ []
  have hinv := (ServerOut.run_casts hs (by simp [OutEvent.Valid]) hrun).1.out
  have hcall : ((s.beginSend o.ctx x.data).setBroadcast b x₁).send.calls[s.send.calls.length]? = some ⟨x.data, .fetch⟩ := by
    simp [ServerOut.beginSend, ServerOut.setBroadcast, henter]
  obtain ⟨send, id, h₂, -, hcalls, -⟩ := hinv.sendThrough env fresh hcall
  have hdone : send.calls = s.send.calls ++ [⟨x.data, .done true⟩] := by
    rw [hcalls]
    simp [ServerOut.beginSend, ServerOut.setBroadcast]
  refine ⟨send, ⟨id, x.data, s.send.calls.length⟩, ?_, hdone⟩
  rw [run_cons h₁, run_append h₂]
  simp [run, ServerOut.step, ServerOut.broadcastStep, ServerOut.setBroadcast, ServerOut.beginSend, hdone, x₁, hlt]

/-- Two connections, with the ids 1 and 2. -/
def twoAccepted : List OutEvent := [.server (.onConnection 0 0 0 0), .server (.onConnection 0 0 0 0)]

theorem twoAccepted_run :
    ∃ t, run (ServerOut.step zeroEnv fun _ => 0) (ServerOut.start 1 2) twoAccepted = .ok t ∧ t.Casts ∧ t.send = .start ∧
      t.broadcasts = [] ∧ t.server.sessions = [(1, 0), (2, 1)] ∧
      t.server.objs = [⟨0, false, false, [], []⟩, ⟨1, false, false, [], []⟩] := by
  obtain ⟨t, hrun, hsend, hbroadcasts, hsessions, hobjs⟩ :
      ∃ t, run (ServerOut.step zeroEnv fun _ => 0) (ServerOut.start 1 2) twoAccepted = .ok t ∧ t.send = .start ∧
        t.broadcasts = [] ∧ t.server.sessions = [(1, 0), (2, 1)] ∧
        t.server.objs = [⟨0, false, false, [], []⟩, ⟨1, false, false, [], []⟩] := ⟨_, rfl, rfl, rfl, rfl, rfl⟩
  obtain ⟨ht, -⟩ := ServerOut.run_casts (ServerOut.start_casts 1 2) (by simp [twoAccepted, OutEvent.Valid]) hrun
  exact ⟨t, hrun, ht, hsend, hbroadcasts, hsessions, hobjs⟩

/-- A broadcast to all but the second. -/
def castToOne : List OutEvent :=
  [.broadcast [7] [2], .broadcastStep 0, .broadcastStep 0, .call 0 0, .call 0 0, .call 0 0, .broadcastStep 0, .broadcastStep 0,
    .broadcastStep 0]

theorem castToOne_run {t : ServerOut} (ht : t.Casts) (hsend : t.send = .start) (hbroadcasts : t.broadcasts = [])
    (hsessions : t.server.sessions = [(1, 0), (2, 1)])
    (hobjs : t.server.objs = [⟨0, false, false, [], []⟩, ⟨1, false, false, [], []⟩]) :
    ∃ s, run (ServerOut.step zeroEnv fun _ => 0) t castToOne = .ok s ∧ s.server = t.server ∧
      s.send.calls = [⟨[7], .done true⟩] ∧ s.broadcasts = [⟨[7], [2], .done, [(1, 0), (2, 1)], [(0, 0)]⟩] := by
  have h₁ : run (ServerOut.step zeroEnv fun _ => 0) t [.broadcast [7] [2], .broadcastStep 0] = .ok { t with
      broadcasts := [⟨[7], [2], .loop [(1, 0), (2, 1)] [2], [(1, 0), (2, 1)], []⟩] } := by
    simp [run, ServerOut.step, ServerOut.broadcastStep, ServerOut.locked, Broadcast.enter, Broadcast.holds,
      ServerOut.setBroadcast, hbroadcasts, hsessions]
  obtain ⟨hs₁, -⟩ := ServerOut.run_casts ht (by simp [OutEvent.Valid]) h₁
  have hfirst : t.server.objs[0]? = some ⟨0, false, false, [], []⟩ := by rw [hobjs]; rfl
  have hnone : t.send.calls.length = 0 := by rw [hsend]; rfl
  obtain ⟨send, w, h₂, hcalls⟩ := hs₁.turn zeroEnv (fun _ => 0) (b := 0) rfl rfl (by decide) hfirst rfl (by simp) hnone
  refine ⟨_, (run_append h₁).trans ((run_append h₂).trans rfl), rfl, ?_, rfl⟩
  rw [hsend] at hcalls
  exact hcalls

theorem broadcast_reaches_one :
    ∃ (t s : ServerOut) (x : Broadcast),
      run (ServerOut.step zeroEnv fun _ => 0) (ServerOut.start 1 2) twoAccepted = .ok t ∧
      run (ServerOut.step zeroEnv fun _ => 0) t castToOne = .ok s ∧ x.sends = [(0, 0)] ∧
      (x.sends.map Prod.fst).Nodup ∧ (x.sends.map Prod.snd).Nodup ∧
      (∀ sid k, (sid, k) ∈ t.server.sessions → (sid, k) ∈ s.server.sessions → sid ∉ [2] → k ∈ x.sends.map Prod.fst) ∧
      (∀ sid k, (sid, k) ∈ t.server.sessions ∨ (sid, k) ∈ s.server.sessions → sid ∈ [2] → k ∉ x.sends.map Prod.fst) ∧
      ∀ p ∈ x.sends, ∃ c r, s.SentTo [7] p.1 p.2 c ∧ c.pc = .done r ∧ s.takenBy p.2 = if r then [[7]] else [] := by
  obtain ⟨t, hrun, ht, hsend, hnone, hsessions, hobjs⟩ := twoAccepted_run
  obtain ⟨s, hrun', -, -, hs⟩ := castToOne_run ht hsend hnone hsessions hobjs
  have hx : s.broadcasts[t.broadcasts.length]? = some ⟨[7], [2], .done, [(1, 0), (2, 1)], [(0, 0)]⟩ := by simp [hnone, hs]
  refine ⟨t, s, ⟨[7], [2], .done, [(1, 0), (2, 1)], [(0, 0)]⟩, hrun, hrun', rfl, ?_⟩
  exact broadcast_reaches zeroEnv (fun _ => 0) 1 2 [7] [2] (by simp) twoAccepted castToOne.tail
    (by simp [twoAccepted, castToOne, OutEvent.Valid]) t s hrun hrun' _ hx rfl

end Uvnet

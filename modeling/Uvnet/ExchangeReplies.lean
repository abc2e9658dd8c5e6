import Uvnet.BroadcastOrder
import Uvnet.ExchangeSteps

/- What the handlers of a session have answered.

   `Replying` is what every step keeps of the loop thread in the handlers: with what is left it
   has called `_send` for every answer to the frames of a session, in order, each call begun
   after the one before it has returned; and what was routed to the session from these calls is
   what `uv_write` took from them, in their order. -/
namespace Uvnet
open CMachine ObjectPool StreamScan StepRun PayloadCut TCPServer

namespace Exchange

/-- The answers to the frames of a session. -/
def answersTo (handler : Frame → List (List UInt8)) (s : Exchange) (k : Nat) : List (List UInt8) :=
  ((s.out.server.framesOf k).map FullPacket.frame).flatMap handler

/-- The calls of `_send` for answers to a session. -/
def callsFor (s : Exchange) (k : Nat) : List Nat := (s.replied.filter fun p => p.1 = k).map Prod.snd

/-- What is left to send to a session. -/
def restFor (s : Exchange) (k : Nat) : List (List UInt8) :=
  match s.handling with
  | some h => if h.session = k then h.rest else []
  | none => []

/-- The data a call of `_send` was given. -/
def dataOf (s : Exchange) (i : Nat) : List UInt8 := (s.out.send.calls[i]?).elim [] ServerSendCall.data

/-- What was routed of the answers to a session. -/
def answered (s : Exchange) (k : Nat) : List (List UInt8) :=
  (s.routed.filter fun r => r.2.call ∈ s.callsFor k).map fun r => r.2.bytes

/-- The call of `_send` the loop thread is in. -/
def inCall (s : Exchange) : Option Nat := s.handling.bind Handling.current

structure Replying (handler : Frame → List (List UInt8)) (s : Exchange) : Prop where
  asked : ∀ k, (s.callsFor k).map s.dataOf ++ s.restFor k = s.answersTo handler k
  calls : ∀ p ∈ s.replied, p.2 < s.out.send.calls.length
  nodup : (s.replied.map Prod.snd).Nodup
  returned : ∀ p ∈ s.replied, s.inCall = some p.2 ∨ ∃ c r, s.out.send.calls[p.2]? = some c ∧ c.pc = .done r
  last : ∀ h i, s.handling = some h → h.current = some i →
    s.out.targets[i]? = some h.ctx ∧ ∃ before, s.replied = before ++ [(h.session, i)]
  reader : ∀ h, s.handling = some h → s.net.reader h.ctx = some h.session
  order : ∀ k, s.answered k = (s.callsFor k).flatMap s.out.takenBy
  own : ∀ r ∈ s.routed, ∀ k, r.2.call ∈ s.callsFor k → r.1 = some k

section Replying
variable {env : Env} {head tail : UInt8} {fresh : Nat → UInt8} {handler : Frame → List (List UInt8)} {s s' : Exchange} {i k : Nat}
  {h : Handling}

theorem mem_callsFor : i ∈ s.callsFor k ↔ (k, i) ∈ s.replied := by
  simp [callsFor]

theorem Replying.session_unique (hs : Replying handler s) {k' : Nat} (hk : i ∈ s.callsFor k) (hk' : i ∈ s.callsFor k') : k = k' := by
  rw [mem_callsFor] at hk hk'
  have hinj := List.inj_on_of_nodup_map hs.nodup hk hk' rfl
  exact (Prod.mk.inj hinj).1

/-- The server has another state, but the frames of its sessions, and whose contexts are whose, are
the same. -/
theorem Replying.server (hs : Replying handler s) (hreplied : s'.replied = s.replied) (hhandling : s'.handling = s.handling)
    (hsend : s'.out.send = s.out.send) (htargets : s'.out.targets = s.out.targets) (htaken : s'.out.taken = s.out.taken)
    (hrouted : s'.routed = s.routed) (hframes : ∀ k, s'.out.server.framesOf k = s.out.server.framesOf k)
    (hreader : ∀ h, s.handling = some h → s'.net.reader h.ctx = s.net.reader h.ctx) : Replying handler s' := by
  have hcalls : s'.callsFor = s.callsFor := by funext k; rw [callsFor, hreplied]; rfl
  have hdata : s'.dataOf = s.dataOf := by funext i; rw [dataOf, hsend]; rfl
  have htakenBy : s'.out.takenBy = s.out.takenBy := by funext i; rw [ServerOut.takenBy, htaken]; rfl
  refine ⟨fun k => ?_, ?_, ?_, ?_, ?_, fun h hh => ?_, fun k => ?_, ?_⟩
  · rw [hcalls, hdata, restFor, hhandling, answersTo, hframes]
    exact hs.asked k
  · rw [hreplied, hsend]
    exact hs.calls
  · rw [hreplied]
    exact hs.nodup
  · rw [hreplied, inCall, hhandling, hsend]
    exact hs.returned
  · rw [hreplied, hhandling, htargets]
    exact hs.last
  · rw [hhandling] at hh
    rw [hreader h hh]
    exact hs.reader h hh
  · rw [answered, hrouted, hcalls, htakenBy]
    exact hs.order k
  · rw [hrouted, hcalls]
    exact hs.own

/-! The network. -/

theorem recv_reader {t t' : TCPServer} {id : Nat} {chunk : List UInt8} (h : Change env t (.recv id chunk) t') (j : Nat) :
    (t'.ctxs.cells[j]?).bind SessionCtx.parentSession = (t.ctxs.cells[j]?).bind SessionCtx.parentSession := by
  cases h with
  | flags hf => rw [hf.ctxs]
  | @received _ c _ r hc hh hlen hr =>
    have hcells := (SameRegistry.received hc r.sync chunk r.calls).cells j
    have hparent := congrArg (fun x => x.bind fun c : HandleState × HandleData × Int × Option Nat => c.2.2.2) hcells
    simpa [Option.bind_map, Function.comp_def] using hparent
  | closedAll he => cases he

theorem closedCell_parent (t : TCPServer) (id : Nat) (c : SessionCtx) : (t.closedCell id c).parentSession = c.parentSession := by
  unfold closedCell
  split <;> rfl

theorem start_reader {t t' : TCPServer} (h : Change env t .start t') (j : Nat) :
    (t'.ctxs.cells[j]?).bind SessionCtx.parentSession = (t.ctxs.cells[j]?).bind SessionCtx.parentSession := by
  cases h with
  | flags hf => rw [hf.ctxs]
  | closedAll he hhead htail havail hreleased hcells =>
    rw [hcells, Option.bind_map]
    congr 1
    funext c
    exact closedCell_parent t j c

theorem offLoop_reader {n n' : Network} {e : NetEvent} (hreg : Registry n.server []) (he : e.onLoop = false) (hs : n.step env fresh e = .ok n') (j : Nat) :
    n'.reader j = n.reader j := by
  cases e with
  | client i e =>
    simp only [Network.step] at hs
    split at hs
    · cases hs
      rfl
    · obtain ⟨c, -, hs⟩ := bind_eq_ok.1 hs
      cases hs
      rfl
  | accept q tcpInit accept readStart => cases he
  | read id n => cases he
  | server e =>
    simp only [Network.step] at hs
    split at hs
    · obtain ⟨server, hserver, hs⟩ := bind_eq_ok.1 hs
      cases hs
      cases e with
      | start => exact start_reader (step_change hreg hserver) j
      | close =>
        have hctxs : server.ctxs = n.server.ctxs := by
          simp only [TCPServer.step] at hserver
          split at hserver <;> cases hserver <;> rfl
        simp only [Network.reader, hctxs]
      | _ => cases he
    · cases hs
      rfl

theorem network_frames {n n' : Network} {e : NetEvent} (hreg : Registry n.server []) (hs : n.step env fresh e = .ok n')
    (he : ∀ id m, e ≠ .read id m) (k : Nat) : n'.server.framesOf k = n.server.framesOf k := by
  rcases network_server hs with hsame | ⟨e', hserver, -, hrecv⟩
  · rw [hsame]
  · rcases framesOf_change (step_change hreg hserver) with hsame | ⟨id, chunk, calls, c, k', rfl, -⟩
    · exact hsame k
    · obtain ⟨m, rfl⟩ := hrecv id chunk rfl
      exact (he id m rfl).elim

/-- What `OnRecv` does on the context of session `k`: the frames of this session grow. -/
theorem read_frames {n n' : Network} {id m : Nat} (hreg : Registry n.server []) (hk : n.reader id = some k)
    (hs : n.step env fresh (.read id m) = .ok n') :
    (∀ j, n'.reader j = n.reader j) ∧ (∃ calls, n'.server.framesOf k = n.server.framesOf k ++ calls) ∧
      ∀ j, j ≠ k → n'.server.framesOf j = n.server.framesOf j := by
  simp only [Network.step, hk] at hs
  obtain ⟨server, hserver, hs⟩ := bind_eq_ok.1 hs
  cases hs
  have hchange := step_change hreg hserver
  refine ⟨fun j => recv_reader hchange j, ?_⟩
  rcases framesOf_change hchange with hsame | ⟨id', chunk, calls, c, k', hrecv, hc, hk', hself, hother⟩
  · exact ⟨⟨[], by rw [hsame, List.append_nil]⟩, fun j _ => hsame j⟩
  · obtain ⟨rfl, -⟩ := ServerEvent.recv.inj hrecv
    obtain rfl : k' = k := by
      rw [Network.reader, hc, Option.bind_some, hk'] at hk
      exact Option.some.inj hk
    exact ⟨⟨calls, hself⟩, hother⟩

/-- **A step of the network**, in which a session may get frames to answer. -/
theorem Replying.netStep (hs : Replying handler s) (hinv : Inv env head tail s) {e : NetEvent}
    (h : s.netStep env fresh handler e = .ok s') : Replying handler s' := by
  unfold Exchange.netStep at h
  split at h
  · cases h
    exact hs
  next hfree =>
  rw [Bool.or_eq_true, not_or] at hfree
  obtain ⟨n, hn, h⟩ := bind_eq_ok.1 h
  rw [lift_eq_ok] at hn
  have hreg : Registry s.net.server [] := hinv.net.registry
  split at h
  · -- The loop thread is in no handler before it reads.
    next id m _ =>
    have hnone : s.handling = none := by
      have hidle := hfree.1
      simpa [NetEvent.onLoop] using hidle
    split at h
    · next hk =>
      cases h
      simp only [Network.step, hk] at hn
      cases hn
      exact hs.server rfl rfl rfl rfl rfl rfl (fun _ => rfl) fun _ _ => rfl
    next k hk =>
    cases h
    obtain ⟨hreader, ⟨calls, hself⟩, hother⟩ := read_frames hreg hk hn
    have hself' : n.server.framesOf k = s.out.server.framesOf k ++ calls := hself
    refine ⟨fun j => ?_, hs.calls, hs.nodup, fun p hp => ?_, ?_, ?_, hs.order, hs.own⟩
    · have hasked := hs.asked j
      have hrest : s.restFor j = [] := by simp [restFor, hnone]
      rw [hrest, List.append_nil] at hasked
      show (s.callsFor j).map s.dataOf ++ _ = _
      rw [hasked]
      unfold answersTo restFor Exchange.handle
      simp only [withNet, hself', List.drop_left]
      by_cases hj : k = j
      · subst hj
        simp [hself']
      · simp only [if_neg hj, List.append_nil]
        have hsame : n.server.framesOf j = s.out.server.framesOf j := hother j (Ne.symm hj)
        rw [hsame]
    · have hret := hs.returned p hp
      simp only [inCall, hnone, Option.bind_none] at hret
      exact .inr (hret.resolve_left (by simp))
    · rintro h' i hh hcur
      cases hh
      cases hcur
    · rintro h' hh
      cases hh
      show n.reader id = some k
      rw [hreader, hk]
  · next hread =>
    cases h
    refine hs.server rfl rfl rfl rfl rfl rfl (fun k => ?_) fun h' hh => ?_
    · exact network_frames hreg hn (fun id m heq => hread id m heq) k
    · have hoff : e.onLoop = false := by
        have hblocked := hfree.1
        simpa [hh] using hblocked
      exact offLoop_reader hreg hoff hn h'.ctx

/-! The threads that send. -/

/-- A call of `_send` that has not returned is the one the loop thread is in, if it is one of its own. -/
theorem Replying.running (hs : Replying handler s) (hi : i ∈ s.callsFor k) {c : ServerSendCall} (hc : s.out.send.calls[i]? = some c)
    (hrun : ∀ r, c.pc ≠ .done r) : ∃ h, s.handling = some h ∧ h.current = some i ∧ h.session = k := by
  rw [mem_callsFor] at hi
  rcases hs.returned _ hi with hcur | ⟨c', r, hc', hr⟩
  · obtain ⟨h, hh, hcur⟩ := Option.bind_eq_some_iff.1 hcur
    obtain ⟨-, before, hbefore⟩ := hs.last h i hh hcur
    refine ⟨h, hh, hcur, ?_⟩
    have hlast : (h.session, i) ∈ s.replied := hbefore ▸ List.mem_append_right _ List.mem_cons_self
    exact hs.session_unique (mem_callsFor.2 hlast) (mem_callsFor.2 hi)
  · obtain rfl := Option.some.inj (hc.symm.trans hc')
    exact (hrun r hr).elim

theorem Replying.callsFor_last (hs : Replying handler s) (hh : s.handling = some h) (hcur : h.current = some i) :
    ∃ before, s.callsFor h.session = before ++ [i] ∧ i ∉ before := by
  obtain ⟨-, before, hbefore⟩ := hs.last h i hh hcur
  refine ⟨(before.filter fun p => p.1 = h.session).map Prod.snd, ?_, ?_⟩
  · simp [callsFor, hbefore]
  · have hnodup := hs.nodup
    rw [hbefore, List.map_append, List.nodup_append] at hnodup
    intro hi
    obtain ⟨p, hp, rfl⟩ := List.mem_map.1 hi
    exact hnodup.2.2 p.2 (List.mem_map_of_mem (List.mem_filter.1 hp).1) p.2 (by simp) rfl

/-- The frames, and whose contexts are whose, stay; the calls that have returned stay as they are. -/
theorem Replying.outGrows (hs : Replying handler s) {out : ServerOut} {routed : List (Option Nat × ServerWrite)}
    (hserver : out.server = s.out.server) (hgrows : ServerOut.Grows s.out out)
    (horder : ∀ k, answered { s with out := out, routed := routed } k = (s.callsFor k).flatMap out.takenBy)
    (hown : ∀ r ∈ routed, ∀ k, r.2.call ∈ s.callsFor k → r.1 = some k) :
    Replying handler { s with out := out, routed := routed } := by
  have hlt : ∀ p ∈ s.replied, p.2 < out.send.calls.length := by
    intro p hp
    obtain ⟨c', hc', -⟩ := hgrows.calls p.2 _ (List.getElem?_eq_getElem (hs.calls p hp))
    exact (List.getElem?_eq_some_iff.1 hc').1
  obtain ⟨more, hmore⟩ := hgrows.targets
  refine ⟨fun k => ?_, hlt, hs.nodup, fun p hp => ?_, fun h i hh hcur => ?_, fun h hh => ?_, horder, hown⟩
  · have hdata : (s.callsFor k).map (dataOf { s with out := out, routed := routed }) = (s.callsFor k).map s.dataOf := by
      refine List.map_congr_left fun i hi => ?_
      have hc := List.getElem?_eq_getElem (hs.calls _ (mem_callsFor.1 hi))
      obtain ⟨c', hc', hdata, -⟩ := hgrows.calls i _ hc
      simp [dataOf, hc, hc', hdata]
    show (s.callsFor k).map (dataOf { s with out := out, routed := routed }) ++ s.restFor k = _
    rw [hdata, hs.asked k]
    simp only [answersTo, hserver]
  · refine (hs.returned p hp).imp_right ?_
    rintro ⟨c, r, hc, hr⟩
    obtain ⟨c', hc', -, hsame⟩ := hgrows.calls p.2 c hc
    exact ⟨c', r, hc', by rw [hsame r hr, hr]⟩
  · obtain ⟨htarget, hbefore⟩ := hs.last h i hh hcur
    refine ⟨?_, hbefore⟩
    show out.targets[i]? = some h.ctx
    rw [hmore, List.getElem?_append_left (List.getElem?_eq_some_iff.1 htarget).1]
    exact htarget
  · have hreader := hs.reader h hh
    simp only [Network.reader, Exchange.net, hserver] at hreader ⊢
    exact hreader

theorem taken_cases {o o' : ServerOut} (h : o.Inv) {e : OutEvent} (he : ∀ e', e ≠ .server e') (hs : o.step env fresh e = .ok o') :
    o'.taken = o.taken ∨ ∃ id c i, o.send.calls[i]? = some c ∧ c.pc = .submit id ∧ o'.taken = o.taken ++ [⟨id, c.data, i⟩] := by
  cases e with
  | server e => exact (he e rfl).elim
  | call i iret =>
    rcases (h.call_taken hs).2 with hsame | ⟨id, c, hc, hpc, hmore⟩
    · exact .inl hsame
    · exact .inr ⟨id, c, i, hc, hpc, hmore⟩
  | send ctx data =>
    cases hs
    exact .inl rfl
  | onSend k =>
    obtain ⟨send, -, hs⟩ := bind_eq_ok.1 hs
    cases hs
    exact .inl rfl
  | broadcast data excludeIds =>
    cases hs
    exact .inl rfl
  | broadcastStep b =>
    simp only [ServerOut.step] at hs
    split at hs
    · cases hs
      exact .inl rfl
    · cases ServerOut.broadcastStep_cases hs <;> exact .inl rfl

/-- **A step of a thread that sends**: what is taken from a call of the loop thread goes to the session
whose handlers it is in. -/
theorem Replying.sendStep (hs : Replying handler s) (hinv : Inv env head tail s) {e : OutEvent} (hserver : ∀ e', e ≠ .server e')
    (hgo : s.Orderly env head tail (.out e)) (h : s.sendStep env fresh e = .ok s') : Replying handler s' := by
  obtain ⟨out, hout, h⟩ := bind_eq_ok.1 h
  rw [lift_eq_ok] at hout
  cases h
  have hvalid : e.Valid := by
    cases e with
    | send ctx data => exact IsPacket.short hgo
    | broadcast data excludeIds => exact IsPacket.short hgo
    | _ => trivial
  have hsame := (out_data hinv.casts.out hserver hout).1
  obtain ⟨houtInv, hgrows⟩ := hinv.casts.out.step hvalid hout
  rcases taken_cases hinv.casts.out hserver hout with htaken | ⟨id, c, i, hc, hpc, hmore⟩
  · have htakenBy : out.takenBy = s.out.takenBy := by
      funext j
      rw [ServerOut.takenBy, htaken]
      rfl
    have hdrop : out.taken.drop s.out.taken.length = [] := by rw [htaken, List.drop_length]
    refine hs.outGrows hsame hgrows (fun k => ?_) ?_
    · rw [htakenBy, ← hs.order k, hdrop, List.map_nil, List.append_nil]
      rfl
    · rw [hdrop, List.map_nil, List.append_nil]
      exact hs.own
  · have hdrop : out.taken.drop s.out.taken.length = [⟨id, c.data, i⟩] := by rw [hmore, List.drop_left]
    rw [hdrop]
    have hrun : ∀ r, c.pc ≠ .done r := by simp [hpc]
    have htakenBy : ∀ j, out.takenBy j = s.out.takenBy j ++ if i = j then [c.data] else [] := by
      intro j
      rw [ServerOut.takenBy_append hmore]
      by_cases hj : i = j <;> simp [hj]
    refine hs.outGrows hsame hgrows (fun k => ?_) ?_
    · have hold := hs.order k
      unfold answered at hold ⊢
      by_cases hi : i ∈ s.callsFor k
      · obtain ⟨h, hh, hcur, rfl⟩ := hs.running hi hc hrun
        obtain ⟨before, hbefore, hnew⟩ := hs.callsFor_last hh hcur
        have hrest : before.flatMap out.takenBy = before.flatMap s.out.takenBy := by
          rw [List.flatMap_def, List.flatMap_def]
          congr 1
          refine List.map_congr_left fun j hj => ?_
          have hne : i ≠ j := fun heq => hnew (heq ▸ hj)
          simp [htakenBy, hne]
        have hcalls : callsFor { s with out := out, routed := s.routed ++ [(s.route i, ⟨id, c.data, i⟩)] } h.session =
            s.callsFor h.session := rfl
        simp only [List.map_cons, List.map_nil, hcalls, List.filter_append, List.map_append, hold]
        rw [hbefore, List.flatMap_append, List.flatMap_append, hrest]
        simp [htakenBy]
      · have hcalls : callsFor { s with out := out, routed := s.routed ++ [(s.route i, ⟨id, c.data, i⟩)] } k = s.callsFor k := rfl
        have hall : (s.callsFor k).flatMap out.takenBy = (s.callsFor k).flatMap s.out.takenBy := by
          rw [List.flatMap_def, List.flatMap_def]
          congr 1
          refine List.map_congr_left fun j hj => ?_
          have hne : i ≠ j := fun heq => hi (heq ▸ hj)
          simp [htakenBy, hne]
        simp only [List.map_cons, List.map_nil, hcalls, List.filter_append, List.map_append, hold, hall]
        simp [hi]
    · intro r hr k hk
      rcases List.mem_append.1 hr with hr | hr
      · exact hs.own r hr k hk
      · rw [List.map_cons, List.map_nil, List.mem_singleton] at hr
        subst hr
        obtain ⟨h, hh, hcur, rfl⟩ := hs.running hk hc hrun
        obtain ⟨htarget, -⟩ := hs.last h i hh hcur
        show (s.out.targets[i]?).bind s.net.reader = some h.session
        rw [htarget, Option.bind_some, hs.reader h hh]

theorem Replying.outStep (hs : Replying handler s) (hinv : Inv env head tail s) {e : OutEvent}
    (hgo : s.Orderly env head tail (.out e)) (h : s.outStep env fresh e = .ok s') : Replying handler s' := by
  cases e with
  | server e =>
    cases h
    exact hs
  | onSend k =>
    simp only [Exchange.outStep] at h
    split at h
    · cases h
      exact hs
    · exact hs.sendStep hinv (by simp) hgo h
  | send ctx data => exact hs.sendStep hinv (by simp) hgo h
  | call i iret => exact hs.sendStep hinv (by simp) hgo h
  | broadcast data excludeIds => exact hs.sendStep hinv (by simp) hgo h
  | broadcastStep b => exact hs.sendStep hinv (by simp) hgo h

/-! The loop thread. -/

theorem Replying.callDone (hs : Replying handler s) (hh : s.handling = some h) (hcur : h.current = some i) {c : ServerSendCall} {r : Bool}
    (hc : s.out.send.calls[i]? = some c) (hr : c.pc = .done r) :
    Replying handler { s with handling := some { h with current := none } } where
  asked k := by
    have hrest : restFor { s with handling := some { h with current := none } } k = s.restFor k := by
      simp [restFor, hh]
    have hasked := hs.asked k
    rw [← hrest] at hasked
    exact hasked
  calls := hs.calls
  nodup := hs.nodup
  returned p hp := by
    rcases hs.returned p hp with hin | hret
    · have hp2 : i = p.2 := by simpa [inCall, hh, hcur] using hin
      exact .inr ⟨c, r, hp2 ▸ hc, hr⟩
    · exact .inr hret
  last h' j hh' hcur' := by
    cases hh'
    cases hcur'
  reader h' hh' := by
    cases hh'
    exact hs.reader h hh
  order := hs.order
  own := hs.own

theorem Replying.handled (hs : Replying handler s) (hh : s.handling = some h) (hcur : h.current = none) (hrest : h.rest = []) :
    Replying handler { s with handling := none } where
  asked k := by
    have hnil : s.restFor k = [] := by simp [restFor, hh, hrest]
    have hasked := hs.asked k
    rw [hnil] at hasked
    exact hasked
  calls := hs.calls
  nodup := hs.nodup
  returned p hp := by
    have hret := hs.returned p hp
    simp only [inCall, hh, Option.bind_some, hcur] at hret
    exact .inr (hret.resolve_left (by simp))
  last h' j hh' := by cases hh'
  reader h' hh' := by cases hh'
  order := hs.order
  own := hs.own

/-- **The next answer**: a call of `_send` that has taken nothing. -/
theorem Replying.begin (hs : Replying handler s) (hinv : Inv env head tail s) (hh : s.handling = some h) (hcur : h.current = none)
    {data : List UInt8} {rest : List (List UInt8)} (hrest : h.rest = data :: rest) :
    Replying handler { s with
      out := s.out.beginSend h.ctx data
      handling := some { h with rest := rest, current := some s.out.send.calls.length }
      replied := s.replied ++ [(h.session, s.out.send.calls.length)] } := by
  generalize hs₁ : ({ s with
      out := s.out.beginSend h.ctx data
      handling := some { h with rest := rest, current := some s.out.send.calls.length }
      replied := s.replied ++ [(h.session, s.out.send.calls.length)] } : Exchange) = s₁
  have hsend : s₁.out.send.calls = s.out.send.calls ++ [.enter data] := by rw [← hs₁]; rfl
  have hreplied : s₁.replied = s.replied ++ [(h.session, s.out.send.calls.length)] := by rw [← hs₁]
  have hhandling : s₁.handling = some { h with rest := rest, current := some s.out.send.calls.length } := by rw [← hs₁]
  have hnewCall : ∀ p ∈ s.replied, p.2 ≠ s.out.send.calls.length := fun p hp => Nat.ne_of_lt (hs.calls p hp)
  have hcalls : ∀ k, s₁.callsFor k = s.callsFor k ++ if h.session = k then [s.out.send.calls.length] else [] := by
    intro k
    by_cases hk : h.session = k <;> simp [callsFor, hreplied, hk]
  have hdata : ∀ k, (s.callsFor k).map s₁.dataOf = (s.callsFor k).map s.dataOf := by
    intro k
    refine List.map_congr_left fun j hj => ?_
    have hlt := hs.calls _ (mem_callsFor.1 hj)
    simp [dataOf, hsend, List.getElem?_append_left hlt]
  have hnew : s₁.dataOf s.out.send.calls.length = data := by simp [dataOf, hsend, ServerSendCall.enter]
  have htaken : s₁.out.takenBy = s.out.takenBy := by rw [← hs₁]; rfl
  have hnone : s.out.takenBy s.out.send.calls.length = [] := by
    unfold ServerOut.takenBy
    rw [List.map_eq_nil_iff, List.filter_eq_nil_iff]
    intro w hw
    simpa using Nat.ne_of_lt (hinv.casts.call_lt hw)
  have hrouted : ∀ r ∈ s.routed, r.2.call ≠ s.out.send.calls.length := by
    intro r hr
    have hw : r.2 ∈ s.out.taken := hinv.routed ▸ List.mem_map_of_mem hr
    exact Nat.ne_of_lt (hinv.casts.call_lt hw)
  have hroutedSame : s₁.routed = s.routed := by rw [← hs₁]
  refine ⟨fun k => ?_, fun p hp => ?_, ?_, fun p hp => ?_, fun h' j hh' hcur' => ?_, fun h' hh' => ?_, fun k => ?_, fun r hr k hk => ?_⟩
  · have hasked := hs.asked k
    have hanswers : s₁.answersTo handler k = s.answersTo handler k := by rw [← hs₁]; rfl
    rw [hanswers, ← hasked, hcalls, List.map_append, hdata]
    by_cases hk : h.session = k
    · simp [restFor, hhandling, hh, hk, hnew, hrest]
    · simp [restFor, hhandling, hh, hk]
  · rw [hsend, List.length_append, List.length_singleton]
    rw [hreplied] at hp
    rcases List.mem_append.1 hp with hp | hp
    · exact Nat.lt_succ_of_lt (hs.calls p hp)
    · rw [List.mem_singleton.1 hp]
      exact Nat.lt_succ_self _
  · rw [hreplied, List.map_append, List.nodup_append]
    refine ⟨hs.nodup, by simp, ?_⟩
    intro a ha b hb
    obtain ⟨p, hp, rfl⟩ := List.mem_map.1 ha
    simp only [List.map_cons, List.map_nil, List.mem_singleton] at hb
    exact hb ▸ hnewCall p hp
  · rw [hreplied] at hp
    rcases List.mem_append.1 hp with hp | hp
    · have hret := hs.returned p hp
      simp only [inCall, hh, Option.bind_some, hcur] at hret
      obtain ⟨c, r, hc, hr⟩ := hret.resolve_left (by simp)
      refine .inr ⟨c, r, ?_, hr⟩
      rw [hsend, List.getElem?_append_left (hs.calls p hp)]
      exact hc
    · left
      simp [inCall, hhandling, List.mem_singleton.1 hp]
  · rw [hhandling] at hh'
    cases hh'
    cases hcur'
    refine ⟨?_, s.replied, hreplied⟩
    rw [← hs₁]
    show (s.out.targets ++ [h.ctx])[s.out.send.calls.length]? = some h.ctx
    rw [← hinv.casts.out.targets]
    exact List.getElem?_concat_length
  · rw [hhandling] at hh'
    cases hh'
    have hreader : s₁.net.reader = s.net.reader := by rw [← hs₁]; rfl
    rw [hreader]
    exact hs.reader h hh
  · rw [hcalls, htaken, List.flatMap_append, ← hs.order k]
    have hlast : (if h.session = k then [s.out.send.calls.length] else []).flatMap s.out.takenBy = [] := by
      by_cases hk : h.session = k <;> simp [hk, hnone]
    rw [hlast, List.append_nil]
    unfold answered
    rw [hroutedSame]
    congr 1
    refine List.filter_congr fun r hr => ?_
    by_cases hk : h.session = k <;> simp [hcalls, hk, hrouted r hr]
  · rw [hroutedSame] at hr
    refine hs.own r hr k ?_
    rw [hcalls] at hk
    by_cases hsession : h.session = k
    · simpa [hsession, hrouted r hr] using hk
    · simpa [hsession] using hk

/-- **A step of the loop thread in the handlers.** -/
theorem Replying.replyStep (hs : Replying handler s) (hinv : Inv env head tail s) : Replying handler s.replyStep := by
  unfold Exchange.replyStep
  split
  · exact hs
  next h hh =>
  split
  · next i hcur =>
    split
    · next data r hc => exact hs.callDone hh hcur hc rfl
    · exact hs
  · next hcur =>
    split
    · next hrest => exact hs.handled hh hcur hrest
    · next data rest hrest => exact hs.begin hinv hh hcur hrest

/-- **Every step** that may be taken. -/
theorem Replying.step (hs : Replying handler s) (hinv : Inv env head tail s) {e : ExchangeEvent} (hgo : s.Orderly env head tail e)
    (h : Exchange.step env fresh handler s e = .ok s') : Replying handler s' := by
  -- A client that receives is nothing to the server.
  have hsame : ∀ receivers, Replying handler { s with receivers := receivers } := fun receivers =>
    hs.server rfl rfl rfl rfl rfl rfl (fun _ => rfl) fun _ _ => rfl
  cases e with
  | net e => exact hs.netStep hinv h
  | out e => exact hs.outStep hinv hgo h
  | reply =>
    cases h
    exact hs.replyStep hinv
  | receiver i e =>
    simp only [Exchange.step, receiverStep] at h
    split at h
    · split at h
      · cases h
        exact hs
      · obtain ⟨client, -, h⟩ := bind_eq_ok.1 h
        cases h
        exact hsame _
    · cases h
      exact hs
  | response i k n =>
    simp only [Exchange.step, Exchange.response] at h
    split at h
    · cases h
      exact hs
    · split at h
      · obtain ⟨client, -, h⟩ := bind_eq_ok.1 h
        cases h
        exact hsame _
      · cases h
        exact hs

theorem start_replying (env : Env) (head tail : UInt8) (fresh : Nat → UInt8) (n : Nat) (handler : Frame → List (List UInt8)) :
    Replying handler (start env head tail fresh n) where
  asked k := by simp [start, callsFor, restFor, answersTo, ServerOut.start, TCPServer.framesOf, TCPServer.start]
  calls := by simp [start]
  nodup := by simp [start]
  returned := by simp [start]
  last h i hh := by cases hh
  reader h hh := by cases hh
  order k := by simp [start, answered, callsFor]
  own := by simp [start]

theorem replying_run {n : Nat} (hans : Answers env head tail handler) {es : List ExchangeEvent}
    (hgo : Along (Exchange.step env fresh handler) (Orderly env head tail) (start env head tail fresh n) es)
    (hrun : run (Exchange.step env fresh handler) (start env head tail fresh n) es = .ok s) :
    Inv env head tail s ∧ Replying handler s := by
  have hstep : ∀ (s : Exchange) (e : ExchangeEvent) (s' : Exchange), Inv env head tail s ∧ Replying handler s →
      s.Orderly env head tail e →
      Exchange.step env fresh handler s e = .ok s' → Inv env head tail s' ∧ Replying handler s' :=
    fun _ _ _ h hgo hs => ⟨h.1.step hans hgo hs, h.2.step h.1 hgo hs⟩
  have hstart : Inv env head tail (start env head tail fresh n) ∧ Replying handler (start env head tail fresh n) :=
    ⟨start_inv env head tail fresh n, start_replying env head tail fresh n handler⟩
  have hend := run_keeps hstep hstart hgo hrun
  exact hend

end Replying

end Exchange

end Uvnet

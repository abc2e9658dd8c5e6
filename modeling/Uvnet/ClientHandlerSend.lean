import Uvnet.ClientPipe

/- `Send` called by a handler, on the loop thread itself.

   The retry loop of `Send` waits for a drain of the ring, and drains run on the loop
   thread. A handler runs on that thread too, in `OnRecv` behind its `_send`, so the call
   waits for its own return: until then other threads can only fill the ring further. The
   call returns, with everything accepted, exactly when its data fits in the room that
   its first locked section finds (`handlerSend_returns`). -/
namespace Uvnet
open CMachine ObjectPool BoundedQueue SharedQueue StepRun

/-- What can happen while the loop thread is in a handler and nobody calls `Close`: other
threads, and the handler itself, are in `Send`, or a `Close` from before signals. -/
def ClientEvent.InHandler : ClientEvent → Prop
  | .send _ | .call _ | .closeSignal => True
  | _ => False

namespace ClientSend

/-- The room in the ring. -/
def room (s : ClientSend) : Nat := bufferSize - s.ring.contents.length

/-- An open client. -/
structure Handling (s : ClientSend) : Prop where
  piped : Piped s
  notClosed : s.isUserClosed = false

/-- A call of `Send` with all of `data` left that finds room for it in its locked section. -/
def Fits (i : Nat) (data : List UInt8) (s : ClientSend) (e : ClientEvent) : Prop :=
  e = .call i ∧ s.calls[i]? = some ⟨data, 0, .write⟩ ∧ data.length ≤ s.room

/-- A call that has not been accepted whole: it is before its first section, or in the loop
with the ring full. -/
inductive Trying (i : Nat) (data : List UInt8) (s : ClientSend) : Prop where
  | before (pc : SendPc) (hpc : pc = .signal ∨ pc = .test ∨ pc = .write) (hi : s.calls[i]? = some ⟨data, 0, pc⟩)
  | stuck (iret : Nat) (pc : SendPc) (hpc : pc = .test ∨ pc = .write) (hi : s.calls[i]? = some ⟨data, iret, pc⟩)
    (hleft : iret < data.length) (hfull : s.room = 0)

section Steps
variable {fresh : Nat → UInt8} {s s' : ClientSend} {i iret : Nat} {data : List UInt8} {e : ClientEvent}

/-- The locked section of a call with short data: it takes what there is room for. -/
theorem Handling.write (fresh : Nat → UInt8) (h : Handling s) (hi : s.calls[i]? = some ⟨data, iret, .write⟩)
    (hmax : data.length ≤ intMax) {k : Nat} (hk : k = min s.room (data.length - iret)) :
    ∃ s', step fresh s (.call i) = .ok s' ∧
      s'.calls[i]? = some ⟨data, iret + k, if iret + k < data.length then .test else .signalLast⟩ ∧
      s'.room = s.room - k := by
  obtain ⟨sent, hsent⟩ : ∃ sent, sent = (data.drop iret).take (bufferSize - s.ring.contents.length) := ⟨_, rfl⟩
  have hlen : sent.length = k := by rw [hsent, List.length_take, List.length_drop, hk, room]
  obtain ⟨ring, hring, hstep⟩ := h.piped.write_short fresh hi hmax hsent
  refine ⟨_, hstep, ?_, ?_⟩
  · rw [← hlen]
    exact List.getElem?_set_self (List.getElem?_eq_some_iff.1 hi).1
  · simp only [room, hring, List.length_append, hlen]
    omega

/-- **What a step can do during a handler.** The ring only grows, and a call stays where it
is but for its own steps. -/
theorem Handling.next (h : Handling s) (he : e.InHandler) (hv : e.Valid) (hs : step fresh s e = .ok s') :
    Handling s' ∧ s'.room ≤ s.room ∧
      ∀ i, e ≠ .call i → ∀ c, s.calls[i]? = some c → s'.calls[i]? = some c := by
  have hp' := h.piped.next hv hs
  have hopen := h.notClosed
  cases e with
  | send data =>
    cases hs
    refine ⟨⟨hp', hopen⟩, Nat.le_refl _, ?_⟩
    intro i _ c hc
    have hlt := (List.getElem?_eq_some_iff.1 hc).1
    exact (List.getElem?_append_left hlt).trans hc
  | closeSignal =>
    simp only [ClientSend.step] at hs
    split at hs
    · cases hs
      exact ⟨⟨hp', hopen⟩, Nat.le_refl _, fun _ _ _ hc => hc⟩
    · cases hs
      exact ⟨⟨hp', hopen⟩, Nat.le_refl _, fun _ _ _ hc => hc⟩
  | call j =>
    cases hj : s.calls[j]? with
    | none =>
      simp only [ClientSend.step, hj] at hs
      cases hs
      exact ⟨⟨hp', hopen⟩, Nat.le_refl _, fun _ _ _ hc => hc⟩
    | some c =>
      have hother : ∀ (k : SendCall) (i : Nat), ClientEvent.call j ≠ .call i → ∀ c, s.calls[i]? = some c →
          (s.calls.set j k)[i]? = some c := by
        intro k i hne c hc
        rw [List.getElem?_set_ne (fun hji => hne (by rw [hji]))]
        exact hc
      by_cases hw : c.pc = .write
      · obtain ⟨ring, hring, hstep⟩ := h.piped.write fresh hj hw rfl
        rw [hstep] at hs
        cases hs
        refine ⟨⟨hp', hopen⟩, ?_, hother _⟩
        simp only [room, hring, List.length_append]
        omega
      · simp only [ClientSend.step, hj, sendStep] at hs
        split at hs
        · cases hs
          exact ⟨⟨hp', hopen⟩, Nat.le_refl _, hother _⟩
        · cases hs
          exact ⟨⟨hp', hopen⟩, Nat.le_refl _, hother _⟩
        · next hpc => exact absurd hpc hw
        · cases hs
          exact ⟨⟨hp', hopen⟩, Nat.le_refl _, hother _⟩
        · cases hs
          exact ⟨⟨hp', hopen⟩, Nat.le_refl _, fun _ _ _ hc => hc⟩
  | _ => cases he

theorem Handling.total (fresh : Nat → UInt8) (h : Handling s) (hv : e.Valid) : ∃ s', step fresh s e = .ok s' := by
  obtain ⟨l, hl⟩ := h.piped
  obtain ⟨s', hs, -⟩ := step_refines fresh hl hv
  exact ⟨s', hs⟩

/-- A call that tries goes on trying, but in a section that it finds room in. -/
theorem Trying.next (h : Handling s) (ht : Trying i data s) (he : e.InHandler) (hv : e.Valid)
    (hmax : data.length ≤ intMax) (hs : step fresh s e = .ok s') : Trying i data s' ∨ Fits i data s e := by
  obtain ⟨-, hroom, hkeep⟩ := h.next he hv hs
  by_cases hown : e = .call i
  · subst hown
    cases ht with
    | before pc hpc hi =>
      have hlt := (List.getElem?_eq_some_iff.1 hi).1
      rcases hpc with rfl | rfl | rfl
      · simp only [ClientSend.step, hi, sendStep] at hs
        cases hs
        exact .inl (.before .test (.inr (.inl rfl)) (List.getElem?_set_self hlt))
      · simp only [ClientSend.step, hi, sendStep, h.notClosed] at hs
        cases hs
        exact .inl (.before .write (.inr (.inr rfl)) (List.getElem?_set_self hlt))
      · by_cases hfit : data.length ≤ s.room
        · exact .inr ⟨rfl, hi, hfit⟩
        · -- The section fills the ring and leaves the rest of the data.
          left
          obtain ⟨s'', hstep, hcall, hleft⟩ := h.write fresh hi hmax (k := s.room) (by omega)
          obtain rfl := Except.ok.inj (hs.symm.trans hstep)
          rw [Nat.zero_add, if_pos (by omega)] at hcall
          exact .stuck s.room .test (.inl rfl) hcall (by omega) (by omega)
    | stuck iret pc hpc hi hleft hfull =>
      have hlt := (List.getElem?_eq_some_iff.1 hi).1
      rcases hpc with rfl | rfl
      · simp only [ClientSend.step, hi, sendStep, h.notClosed] at hs
        cases hs
        exact .inl (.stuck iret .write (.inr rfl) (List.getElem?_set_self hlt) hleft hfull)
      · left
        obtain ⟨s'', hstep, hcall, hroom'⟩ := h.write fresh hi hmax (k := 0) (by omega)
        obtain rfl := Except.ok.inj (hs.symm.trans hstep)
        rw [Nat.add_zero, if_pos hleft] at hcall
        exact .stuck iret .test (.inl rfl) hcall hleft (by omega)
  · left
    cases ht with
    | before pc hpc hi => exact .before pc hpc (hkeep i hown _ hi)
    | stuck iret pc hpc hi hleft hfull => exact .stuck iret pc hpc (hkeep i hown _ hi) hleft (by omega)

theorem Handling.enter (fresh : Nat → UInt8) (h : Handling s) (hne : data ≠ []) (hmax : data.length ≤ intMax) :
    ∃ s', step fresh s (.send (some data)) = .ok s' ∧ Handling s' ∧ Trying s.calls.length data s' := by
  have hv : (ClientEvent.send (some data)).Valid := by
    have h31 : intMax < 2 ^ 64 := by decide
    exact Nat.lt_of_le_of_lt hmax h31
  have henter : SendCall.enter (some data) = ⟨data, 0, .signal⟩ := by
    cases data with
    | nil => exact absurd rfl hne
    | cons a data => rfl
  obtain ⟨s', hs⟩ := h.total fresh hv
  refine ⟨s', hs, (h.next (e := .send (some data)) trivial hv hs).1, .before .signal (.inl rfl) ?_⟩
  cases hs
  rw [henter]
  exact List.getElem?_concat_length

end Steps

/-- A schedule of the time in which call `i` runs in a handler: nothing else happens on the
loop thread, and the call goes on for ever unless it returns. -/
structure DuringHandler (i : Nat) (sched : Nat → ClientEvent) : Prop where
  events : ∀ n, (sched n).InHandler ∧ (sched n).Valid
  goesOn : ∀ n, ∃ m, n ≤ m ∧ sched m = .call i

/-- The call has returned with everything accepted. -/
def Returned (i : Nat) (data : List UInt8) (s : ClientSend) : Prop :=
  s.calls[i]? = some ⟨data, data.length, .done data.length⟩

section Schedules
variable {fresh : Nat → UInt8} {s t : ClientSend} {i n : Nat} {data : List UInt8} {sched : Nat → ClientEvent}

theorem DuringHandler.handling (hsched : DuringHandler i sched) (h : Handling s) :
    ∀ n t, run (step fresh) s (upTo sched n) = .ok t → Handling t := by
  intro n
  induction n with
  | zero =>
    intro t hrun
    cases hrun
    exact h
  | succ n ih =>
    intro t hrun
    obtain ⟨u, hu, hs⟩ := run_upTo_before hrun
    exact ((ih u hu).next (hsched.events n).1 (hsched.events n).2 hs).1

theorem DuringHandler.fits (hsched : DuringHandler i sched) (h : Handling s) (ht : Trying i data s)
    (hmax : data.length ≤ intMax) (hrun : run (step fresh) s (upTo sched n) = .ok t) (hret : Returned i data t) :
    ∃ m u, run (step fresh) s (upTo sched m) = .ok u ∧ Fits i data u (sched m) := by
  have hstep : ∀ n s s', Handling s ∧ Trying i data s → step fresh s (sched n) = .ok s' →
      (Handling s' ∧ Trying i data s') ∨ Fits i data s (sched n) := by
    rintro n s s' ⟨h, ht⟩ hs
    obtain ⟨he, hv⟩ := hsched.events n
    exact (ht.next h he hv hmax hs).imp_left fun ht' => ⟨(h.next he hv hs).1, ht'⟩
  rcases upTo_until hstep ⟨h, ht⟩ n t hrun with ⟨-, htry⟩ | hfits
  · exfalso
    unfold Returned at hret
    cases htry with
    | before pc hpc hi =>
      rw [hret] at hi
      have hdone : SendPc.done data.length = pc := congrArg SendCall.pc (Option.some.inj hi)
      rcases hpc with rfl | rfl | rfl <;> cases hdone
    | stuck iret pc hpc hi =>
      rw [hret] at hi
      have hdone : SendPc.done data.length = pc := congrArg SendCall.pc (Option.some.inj hi)
      rcases hpc with rfl | rfl <;> cases hdone
  · exact hfits

theorem DuringHandler.returns (hsched : DuringHandler i sched) (h : Handling s) (hmax : data.length ≤ intMax)
    (hrun : run (step fresh) s (upTo sched n) = .ok t) (hfits : Fits i data t (sched n)) :
    ∃ n t, run (step fresh) s (upTo sched n) = .ok t ∧ Returned i data t := by
  obtain ⟨hown, hi, hfit⟩ := hfits
  have hh := hsched.handling h n t hrun
  obtain ⟨t₁, hs₁, hcall₁, -⟩ := hh.write fresh hi hmax (k := data.length) (by omega)
  rw [Nat.zero_add, if_neg (Nat.lt_irrefl _)] at hcall₁
  rw [← hown] at hs₁
  have hrun₁ := (run_upTo_succ hrun).trans (run_cons hs₁ [])
  -- The call waits for its last step, whatever the others do.
  have hkeep : ∀ n s, Handling s ∧ s.calls[i]? = some ⟨data, data.length, .signalLast⟩ → sched n ≠ .call i →
      ∃ s', step fresh s (sched n) = .ok s' ∧
        (Handling s' ∧ s'.calls[i]? = some ⟨data, data.length, .signalLast⟩) := by
    rintro n s ⟨h, hi⟩ hne
    obtain ⟨he, hv⟩ := hsched.events n
    obtain ⟨s', hs⟩ := h.total fresh hv
    obtain ⟨h', -, hother⟩ := h.next he hv hs
    exact ⟨s', hs, h', hother i hne _ hi⟩
  obtain ⟨m, u, -, hm, hu, hhu, hlast⟩ := upTo_next hsched.goesOn hkeep hrun₁
    ⟨hsched.handling h _ t₁ hrun₁, hcall₁⟩
  have hlt := (List.getElem?_eq_some_iff.1 hlast).1
  obtain ⟨t₂, hs₂, hcall₂⟩ : ∃ t₂, step fresh u (sched m) = .ok t₂ ∧ Returned i data t₂ := by
    rw [hm]
    refine ⟨_, by simp only [ClientSend.step, hlast, sendStep]; rfl, ?_⟩
    rw [Returned, ← toInt_eq hmax]
    exact List.getElem?_set_self hlt
  exact ⟨m + 1, t₂, (run_upTo_succ hu).trans (run_cons hs₂ []), hcall₂⟩

end Schedules

end ClientSend

open ClientSend

/-! **A `Send` from a handler returns** exactly when its data is empty or its first locked
section has room for all of it. -/

theorem handlerSend_returns (fresh : Nat → UInt8) (es : List ClientEvent) (hes : ∀ e ∈ es, e.Valid) (s : ClientSend)
    (hrun : run (step fresh) (start fresh) es = .ok s) (hopen : s.isUserClosed = false) (data : List UInt8)
    (hmax : data.length < 2 ^ 31) (sched : Nat → ClientEvent) (hsched : DuringHandler s.calls.length sched) :
    (∃ n t, run (step fresh) s (.send (some data) :: upTo sched n) = .ok t ∧ Returned s.calls.length data t) ↔
      data = [] ∨
        ∃ n t, run (step fresh) s (.send (some data) :: upTo sched n) = .ok t ∧
          Fits s.calls.length data t (sched n) := by
  have hh : Handling s := ⟨(start_piped fresh).run hes hrun, hopen⟩
  have hmax' : data.length ≤ intMax := Nat.le_of_lt_succ hmax
  by_cases hne : data = []
  · subst hne
    refine iff_of_true ⟨0, _, rfl, ?_⟩ (.inl rfl)
    exact List.getElem?_concat_length
  · obtain ⟨s₀, hs₀, hh₀, htry⟩ := hh.enter fresh hne hmax'
    simp only [run_cons hs₀, hne, false_or]
    constructor
    · rintro ⟨n, t, hrun, hret⟩
      exact hsched.fits hh₀ htry hmax' hrun hret
    · rintro ⟨n, t, hrun, hfits⟩
      exact hsched.returns hh₀ hmax' hrun hfits

theorem alone_duringHandler (i : Nat) : DuringHandler i fun _ => .call i where
  events := fun _ => ⟨trivial, trivial⟩
  goesOn := fun n => ⟨n, Nat.le_refl n, rfl⟩

theorem handlerSend_returns_echo :
    (∃ n t, run (step fun _ => 0) (start fun _ => 0) (.send (some [1]) :: upTo (fun _ => .call 0) n) = .ok t ∧
        Returned 0 [1] t) ↔
      [(1 : UInt8)] = [] ∨
        ∃ n t, run (step fun _ => 0) (start fun _ => 0) (.send (some [1]) :: upTo (fun _ => .call 0) n) = .ok t ∧
          Fits 0 [1] t (.call 0) :=
  handlerSend_returns (fun _ => 0) [] (by simp) (start fun _ => 0) rfl rfl [1] (by decide) (fun _ => .call 0)
    (alone_duringHandler 0)

/-- One byte more than the ring holds, and nobody else about. -/
theorem handlerSend_returns_fails :
    ¬ ∀ (data : List UInt8), data.length < 2 ^ 31 → ∀ sched, DuringHandler 0 sched →
      ∃ n t, run (step fun _ => 0) (start fun _ => 0) (.send (some data) :: upTo sched n) = .ok t ∧
        Returned 0 data t := by
  intro hall
  have hlen := overfull_length
  have hmax : overfull.length ≤ intMax := by rw [hlen]; decide
  have hh : Handling (start fun _ => 0) := ⟨start_piped _, rfl⟩
  have hne : overfull ≠ [] := nofun
  obtain ⟨s₀, hs₀, hh₀, htry⟩ := hh.enter (fun _ => 0) hne hmax
  obtain ⟨n, t, hrun, hret⟩ := hall overfull (Nat.lt_succ_of_le hmax) (fun _ => .call 0) (alone_duringHandler 0)
  rw [run_cons hs₀] at hrun
  obtain ⟨m, u, -, -, -, hfit⟩ := (alone_duringHandler 0).fits hh₀ htry hmax hrun hret
  rw [hlen, room] at hfit
  omega

end Uvnet

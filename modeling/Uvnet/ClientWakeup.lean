import Uvnet.ClientPipe

/- Whether a `Send` that waits for room in the ring can count on a drain.

   `Send` signals before its loop and after it, never inside. The loop thread may take the
   first signal while the ring is still empty, and then nothing drains what the call writes
   after that (`noLostWakeup_fails`). Exactly the runs in which every locked section that
   leaves the ring full, and some call waiting, starts with a drain due, have one due in
   every state with a waiting call (`noLostWakeup_iff`). -/
namespace Uvnet
open CMachine ObjectPool BoundedQueue SharedQueue StepRun

/-- In its loop, with data left. -/
def SendCall.Waiting (c : SendCall) : Prop := (c.pc = .test ∨ c.pc = .write) ∧ c.iret < c.data.length

namespace ClientSend

/-- The flag is pending, or the loop thread is in `AsyncCB` or `_send`, or a write is in
flight whose `OnSend` will call `_send`. -/
def DrainDue (s : ClientSend) : Prop :=
  s.asyncPending = true ∨ (s.pc = .asyncCB ∨ s.pc = .send ∨ ∃ id, s.pc = .submit id) ∨
    ∃ w ∈ s.writes, 0 ≤ w.status

/-- Unless the client is being closed, a drain is due while a call waits and the ring is full. -/
def NoLostWakeup (s : ClientSend) : Prop :=
  s.isUserClosed = false → s.ring.full = true → (∃ c ∈ s.calls, c.Waiting) → s.DrainDue

/-- A locked section that fills the ring, and is not the last of its call or leaves another
call waiting, starts with a drain due. -/
def FillsWhenDue (s : ClientSend) : ClientEvent → Prop
  | .call i => ∀ c, s.calls[i]? = some c → c.pc = .write → s.isUserClosed = false →
      bufferSize ≤ s.ring.contents.length + c.count.toNat →
      (bufferSize < s.ring.contents.length + (c.data.length - c.iret) ∨
        ∃ j c', j ≠ i ∧ s.calls[j]? = some c' ∧ c'.Waiting) →
      s.DrainDue
  | _ => True

section Steps
variable {fresh : Nat → UInt8} {s s' : ClientSend}

/-- With the same calls and ring, it is enough that a due drain stays due. -/
theorem NoLostWakeup.of_due (h : s.NoLostWakeup) (hclosed : s'.isUserClosed = false → s.isUserClosed = false)
    (hring : s'.ring = s.ring) (hcalls : (∃ c ∈ s'.calls, c.Waiting) → ∃ c ∈ s.calls, c.Waiting)
    (hdue : s'.isUserClosed = false → s.DrainDue → s'.DrainDue) : s'.NoLostWakeup := by
  intro hc hf hw
  rw [hring] at hf
  exact hdue hc (h (hclosed hc) hf (hcalls hw))

/-- `n` elements offered to a queue that holds `held` of `cap`: it is full after if they are
at least as many as there is room for. -/
theorem full_after {cap held n : Nat} (hroom : held ≤ cap) : held + min (cap - held) n = cap ↔ cap ≤ held + n := by
  omega

/-- A writer of `len` elements that has sent `sent` fills the queue and has some left. -/
theorem left_after {cap held n len sent : Nat} (hroom : held ≤ cap) (hfit : cap ≤ held + n) :
    sent + min (cap - held) n < len ↔ cap < held + (len - sent) := by
  omega

/-- The locked section of `Send` is the step that can lose a wake-up, and does exactly
where the condition fails. -/
theorem write_noLostWakeup (hp : Piped s) {i : Nat} {c : SendCall} (hi : s.calls[i]? = some c)
    (hpc : c.pc = .write) (hs : step fresh s (.call i) = .ok s') :
    s.FillsWhenDue (.call i) ↔ s'.NoLostWakeup := by
  obtain ⟨sent, hsent⟩ : ∃ sent, sent =
    ((c.data.drop c.iret).take c.count.toNat).take (bufferSize - s.ring.contents.length) := ⟨_, rfl⟩
  have hlt := (List.getElem?_eq_some_iff.1 hi).1
  have hroom := hp.contents_le
  have hcount : c.count.toNat ≤ c.data.length - c.iret := by
    obtain ⟨l, hl⟩ := hp
    have := (SendCall.count_le (hl.call_writer hi).2.1 (hl.call_writer hi).2.2).1
    rw [List.length_drop] at this
    exact Int.toNat_le.2 this
  have hlen : sent.length = min (bufferSize - s.ring.contents.length) c.count.toNat := by
    rw [hsent, List.length_take, List.length_take, List.length_drop, Nat.min_eq_left hcount]
  have hp' := hp.next (e := .call i) trivial hs
  obtain ⟨ring, hring, hstep⟩ := hp.write fresh hi hpc hsent
  rw [hstep] at hs
  obtain rfl := Except.ok.inj hs
  have hfull : ring.full = true ↔ bufferSize ≤ s.ring.contents.length + c.count.toNat := by
    have := hp'.full
    simp only [hring] at this
    rw [this, decide_eq_true_iff, List.length_append, hlen]
    exact full_after hroom
  constructor
  · intro hcond hc hf hw
    have hfit := hfull.1 hf
    apply hcond _ hi hpc hc hfit
    obtain ⟨c', hc', hwait⟩ := hw
    obtain ⟨j, hj⟩ := List.mem_iff_getElem?.1 hc'
    by_cases hij : i = j
    · -- The call itself still waits: the ring was too small for its rest.
      left
      subst hij
      simp only [List.getElem?_set_self hlt, Option.some.injEq] at hj
      have := hwait.2
      rw [← hj] at this
      simp only [hlen] at this
      exact (left_after hroom hfit).1 this
    · right
      simp only [List.getElem?_set_ne hij] at hj
      exact ⟨j, c', fun h => hij h.symm, hj, hwait⟩
  · rintro hkeep c' hc' - hopen hfit hor
    obtain rfl := Option.some.inj (hi.symm.trans hc')
    refine hkeep hopen (hfull.2 hfit) ?_
    rcases hor with hmore | ⟨j, c', hji, hj, hwait⟩
    · have hleft : c.iret + sent.length < c.data.length := by
        rw [hlen]
        exact (left_after hroom hfit).2 hmore
      refine ⟨_, List.mem_iff_getElem?.2 ⟨i, List.getElem?_set_self hlt⟩, ?_, hleft⟩
      left
      simp only [if_pos hleft]
    · exact ⟨c', List.mem_iff_getElem?.2 ⟨j, by simp only [List.getElem?_set_ne (Ne.symm hji)]; exact hj⟩, hwait⟩

theorem waiting_of_set {calls : List SendCall} {i : Nat} {c : SendCall} {pc : SendPc} (hi : calls[i]? = some c)
    (hpc : (pc = .test ∨ pc = .write) → c.pc = .test ∨ c.pc = .write)
    (h : ∃ k ∈ calls.set i { c with pc := pc }, SendCall.Waiting k) : ∃ k ∈ calls, k.Waiting := by
  obtain ⟨k, hk, hwait⟩ := h
  rcases List.mem_or_eq_of_mem_set hk with hk | rfl
  · exact ⟨k, hk, hwait⟩
  · exact ⟨c, List.mem_of_getElem? hi, hpc hwait.1, hwait.2⟩

theorem NoLostWakeup.of_drainDue (h : s.DrainDue) : s.NoLostWakeup := fun _ _ _ => h

theorem DrainDue.of_pc (h : s.pc = .asyncCB ∨ s.pc = .send ∨ ∃ id, s.pc = .submit id) : s.DrainDue := .inr (.inl h)

theorem call_noLostWakeup (h : s.NoLostWakeup) {i : Nat} {c : SendCall} (hi : s.calls[i]? = some c)
    (hpc : c.pc ≠ .write) (hs : s.sendStep i c = .ok s') : s'.NoLostWakeup := by
  unfold sendStep at hs
  split at hs
  · cases hs
    exact .of_drainDue (.inl rfl)
  · next htest =>
    cases hs
    exact h.of_due id rfl (waiting_of_set hi fun _ => .inl htest) fun _ hd => hd
  · next hw => exact absurd hw hpc
  · cases hs
    exact .of_drainDue (.inl rfl)
  · cases hs
    exact h

theorem onSend_noLostWakeup (h : s.NoLostWakeup) {k : Nat} {w : Write} (hk : s.writes[k]? = some w) :
    (s.onSend k w).NoLostWakeup := by
  unfold ClientSend.onSend
  split
  · next hneg =>
    refine h.of_due id rfl id ?_
    rintro - (hd | hd | ⟨v, hv, hst⟩)
    · exact .inl hd
    · exact .inr (.inl hd)
    · right
      right
      obtain ⟨j, hj⟩ := List.mem_iff_getElem?.1 hv
      have hne : k ≠ j := by
        rintro rfl
        rw [hk] at hj
        cases hj
        omega
      exact ⟨v, List.mem_eraseIdx_iff_getElem?.2 ⟨j, hne.symm, hj⟩, hst⟩
  · exact .of_drainDue (.of_pc (.inr (.inl rfl)))

theorem drain_noLostWakeup (hp : Piped s) (hpc : s.pc = .send) (hs : s.drain fresh = .ok s') :
    s'.NoLostWakeup := by
  have hp' : Piped s' := by
    apply Piped.next (s := s) (e := .drain) hp trivial
    simp only [step, if_pos hpc]
    exact hs
  by_cases hempty : s.ring.empty = true
  · rw [ClientSend.drain, if_pos hempty] at hs
    cases hs
    intro _ hf _
    have hnil : s.ring.contents = [] := if_pos hempty
    rw [hp'.full, decide_eq_true_iff] at hf
    simp only [hnil, List.length_nil] at hf
    cases hf
  · obtain ⟨l, hl⟩ := hp
    obtain ⟨ring, p, -, -, -, hstep⟩ := drain_spec fresh hl (Bool.eq_false_iff.2 hempty)
    rw [hstep] at hs
    cases hs
    exact .of_drainDue (.of_pc (.inr (.inr ⟨_, rfl⟩)))

theorem uvWrite_noLostWakeup {id : Nat} {iret status : Int} (hs : s.uvWrite id iret status = .ok s') :
    s'.NoLostWakeup := by
  unfold ClientSend.uvWrite at hs
  split at hs
  · cases hs
  · obtain ⟨bytes, -, hs⟩ := bind_eq_ok.1 hs
    have hpc : s'.pc = .send := by
      split at hs
      · cases hs; rfl
      · cases hs; rfl
    exact .of_drainDue (.of_pc (.inr (.inl hpc)))

/-- **One step.** Every step but a locked section of `Send` keeps a drain due. -/
theorem step_noLostWakeup (hp : Piped s) (h : s.NoLostWakeup) {e : ClientEvent}
    (hwrite : ∀ i c, e = .call i → s.calls[i]? = some c → c.pc ≠ .write)
    (hs : step fresh s e = .ok s') : s'.NoLostWakeup := by
  cases step_cases hs with
  | idle => exact h
  | entered data =>
    refine h.of_due id rfl ?_ fun _ hd => hd
    rintro ⟨c, hc, hwait⟩
    rcases List.mem_append.1 hc with hc | hc
    · exact ⟨c, hc, hwait⟩
    · rw [List.mem_singleton.1 hc] at hwait
      unfold SendCall.enter at hwait
      split at hwait
      · rcases hwait.1 with h | h <;> cases h
      · rcases hwait.1 with h | h <;> cases h
      · rcases hwait.1 with h | h <;> cases h
  | called hi hs => exact call_noLostWakeup h hi (hwrite _ _ rfl hi) hs
  | closeCalled =>
    intro hc
    cases hc
  | closeSignalled => exact .of_drainDue (.inl rfl)
  | woken => exact .of_drainDue (.of_pc (.inl rfl))
  | userClosed _ hclosed =>
    intro hc
    rw [hclosed] at hc
    cases hc
  | tested => exact .of_drainDue (.of_pc (.inr (.inl rfl)))
  | received => exact .of_drainDue (.of_pc (.inr (.inl rfl)))
  | sent hk => exact onSend_noLostWakeup h hk
  | drained hpc hs => exact drain_noLostWakeup hp hpc hs
  | submitted _ hs => exact uvWrite_noLostWakeup hs
  | reconnected => exact h.of_due id rfl id fun _ hd => hd
  | stopped hpc hwrites =>
    -- The loop is idle and nothing is in flight, so only the flag was due.
    refine h.of_due id rfl id ?_
    rintro - (hd | hd | ⟨w, hw, -⟩)
    · exact .inl hd
    · rw [hpc] at hd
      rcases hd with hd | hd | ⟨_, hd⟩ <;> cases hd
    · rw [hwrites] at hw
      cases hw

/-- The condition on a step is exactly what keeps wake-ups from being lost. -/
theorem fillsWhenDue_iff (hp : Piped s) (h : s.NoLostWakeup) {e : ClientEvent}
    (hs : step fresh s e = .ok s') : s.FillsWhenDue e ↔ s'.NoLostWakeup := by
  by_cases hwrite : ∃ i c, e = .call i ∧ s.calls[i]? = some c ∧ c.pc = .write
  · obtain ⟨i, c, rfl, hi, hpc⟩ := hwrite
    exact write_noLostWakeup hp hi hpc hs
  · have hno : ∀ i c, e = .call i → s.calls[i]? = some c → c.pc ≠ .write :=
      fun i c he hi hpc => hwrite ⟨i, c, he, hi, hpc⟩
    refine iff_of_true ?_ (step_noLostWakeup hp h hno hs)
    cases e with
    | call i => exact fun c hi hpc => absurd hpc (hno i c rfl hi)
    | _ => trivial

end Steps

end ClientSend

open ClientSend

/-! **No wake-up is lost** in exactly the runs whose locked sections fill the ring only with
a drain due. -/

theorem noLostWakeup_iff (fresh : Nat → UInt8) (es : List ClientEvent) (hes : ∀ e ∈ es, e.Valid) :
    Along (step fresh) FillsWhenDue (start fresh) es ↔
      ∀ pre post s, es = pre ++ post → run (step fresh) (start fresh) pre = .ok s → s.NoLostWakeup := by
  have hstep : ∀ s e s', Piped s → e.Valid → s.NoLostWakeup → step fresh s e = .ok s' →
      Piped s' ∧ (s.FillsWhenDue e ↔ s'.NoLostWakeup) := by
    rintro s e s' ⟨l, hl⟩ he h hs
    obtain ⟨s₁, hs₁, h'⟩ := step_refines fresh hl he
    obtain rfl := Except.ok.inj (hs.symm.trans hs₁)
    exact ⟨⟨_, h'⟩, fillsWhenDue_iff ⟨l, hl⟩ h hs⟩
  have htotal : ∀ s e f, Piped s → e.Valid → step fresh s e = .error f → s.FillsWhenDue e := by
    rintro s e f ⟨l, hl⟩ he hs
    obtain ⟨s', hs', -⟩ := step_refines fresh hl he
    cases hs.symm.trans hs'
  have hstart : (start fresh).NoLostWakeup := by
    rintro - - ⟨c, hc, -⟩
    cases hc
  exact along_iff hstep htotal (start_piped fresh) hstart hes

theorem noLostWakeup_iff_short :
    Along (step fun _ => 0) FillsWhenDue (start fun _ => 0) shortRun ↔
      ∀ pre post s, shortRun = pre ++ post → run (step fun _ => 0) (start fun _ => 0) pre = .ok s → s.NoLostWakeup :=
  noLostWakeup_iff (fun _ => 0) shortRun (by simp [shortRun, ClientEvent.Valid])

/-- The loop takes the first signal before the first byte is written. -/
def earlyWake : List ClientEvent := [.send (some overfull), .call 0, .async, .asyncTest, .drain, .call 0]

theorem noLostWakeup_fails :
    ¬ ∀ es, (∀ e ∈ es, e.Valid) → ∀ s, run (step fun _ => 0) (start fun _ => 0) es = .ok s → s.NoLostWakeup := by
  intro hall
  have hlen := overfull_length
  have hvalid : ∀ e ∈ earlyWake ++ [.call 0], e.Valid := by
    have hmax : overfull.length < 2 ^ 64 := by rw [hlen]; decide
    simp only [earlyWake, List.cons_append, List.nil_append, List.forall_mem_cons]
    exact ⟨hmax, trivial, trivial, trivial, trivial, trivial, trivial, by simp⟩
  have hearly : run (step fun _ => 0) (start fun _ => 0) earlyWake =
      .ok { start (fun _ => 0) with calls := [⟨overfull, 0, .write⟩] } := rfl
  have hp := (start_piped _).run (fun e he => hvalid e (List.mem_append_left _ he)) hearly
  -- The call fills the ring and is left with one byte.
  obtain ⟨sent, hsent⟩ : ∃ sent, sent = (overfull.drop 0).take (bufferSize - 0) := ⟨_, rfl⟩
  have hn : sent.length = bufferSize := by
    rw [hsent, List.length_take, List.drop_zero, hlen]
    omega
  obtain ⟨ring, hring, hstep⟩ := hp.write_short (i := 0) (fun _ => 0) rfl (by rw [hlen]; decide) hsent
  have hrun := (run_append hearly).trans ((run_cons hstep []).trans rfl)
  have hp' := (start_piped _).run hvalid hrun
  have hfull := hp'.full
  simp only [hring] at hfull
  have hdue := hall _ hvalid _ hrun rfl (hfull.trans (decide_eq_true ?_)) ?_
  · rcases hdue with h | (h | h | ⟨_, h⟩) | ⟨w, h, -⟩ <;> cases h
  · exact hn
  · refine ⟨_, List.mem_singleton.2 rfl, .inl ?_, ?_⟩
    · simp only [hn, hlen]
      exact if_pos (by omega)
    · simp only [hn, hlen]
      omega

end Uvnet

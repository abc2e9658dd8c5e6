import Uvnet.ClientPipe

/- Whether the bytes of one `Send` stay together in the stream handed to `uv_write`.

   `Send` gives the mutex back between its partial writes, so another call can get its bytes
   in between (`sends_stay_together_fails`: a `Send` of one byte more than the ring holds,
   and a second thread that writes one byte after the first drain).

   1. `LastWaits.step`: while no call adds bytes as another one waits for room
      (`NoneWaits`), the last byte accepted is that of the call that waits.
   2. `sends_stay_together`: hence the bytes of every call stay together in these runs.
   3. `fits_noneWaits`: among them are the runs in which every call finds room for all its
      data, since then no call ever waits. -/
namespace Uvnet
open CMachine ObjectPool BoundedQueue SharedQueue StepRun

/-- A call in its loop with a part of its data accepted: it may yet add the rest. -/
def SendCall.Waits (c : SendCall) (isUserClosed : Bool) : Prop :=
  0 < c.iret ∧ c.iret < c.data.length ∧ (c.pc = .write ∨ c.pc = .test ∧ isUserClosed = false)

/-- What a call has had accepted before its last signal. -/
def SendCall.Begun (c : SendCall) : Prop :=
  match c.pc with
  | .signal => c.iret = 0 ∧ c.iret < c.data.length
  | .test | .write => c.iret < c.data.length
  | .signalLast | .done _ => True

theorem SendCall.enter_begun (data : Option (List UInt8)) : (SendCall.enter data).Begun := by
  unfold SendCall.enter
  split
  · trivial
  · trivial
  · next hne =>
    refine ⟨rfl, List.length_pos_iff.2 fun hnil => ?_⟩
    subst hnil
    exact hne rfl

theorem SendCall.enter_iret (data : Option (List UInt8)) : (SendCall.enter data).iret = 0 := by
  unfold SendCall.enter
  split <;> rfl

namespace ClientSend

/-- The bytes handed to `uv_write`, each with the call of `Send` it came from. -/
def handedTags (s : ClientSend) : List (Nat × UInt8) := (tagged s.accepted).take s.handed.length

/-- No locked section adds bytes while another call waits for room. -/
def NoneWaits (s : ClientSend) : ClientEvent → Prop
  | .call i => ∀ c, s.calls[i]? = some c → c.pc = .write → s.ring.full = false →
    ∀ j d, s.calls[j]? = some d → j ≠ i → ¬d.Waits s.isUserClosed
  | _ => True

/-- A call that has come to its first locked section finds room for all its data. -/
def FitsAtFirst (s : ClientSend) : ClientEvent → Prop
  | .call i => ∀ c, s.calls[i]? = some c → c.pc = .write → c.iret = 0 →
    c.data.length ≤ bufferSize - s.ring.contents.length
  | _ => True

variable {fresh : Nat → UInt8} {s : ClientSend} {l : Line UInt8 bufferSize}

theorem Inv.taken_full (h : Inv s l) (hfull : s.ring.full = true) (w : Writer UInt8) (n : Nat) : l.taken w n = [] := by
  rw [PodCircularBuffer.full_spec h.models.ring, decide_eq_true_iff] at hfull
  rw [Line.taken, Queue.accepted, Queue.free, hfull, Nat.sub_self, List.take_zero]

theorem offer_mem_moves {e : ClientEvent} {i n : Nat} (h : Move.offer i n ∈ s.moves e) :
    e = .call i ∧ ∃ c, s.calls[i]? = some c ∧ c.pc = .write := by
  unfold moves at h
  split at h
  · cases List.mem_singleton.1 h
  · split at h
    · next hj =>
      cases List.mem_singleton.1 h
      exact ⟨rfl, _, hj, rfl⟩
    · cases h
  · split at h
    · cases List.mem_singleton.1 h
    · cases h
  · cases h

/-- The last byte accepted is that of the call that waits. -/
structure LastWaits (s : ClientSend) : Prop where
  begun : ∀ c ∈ s.calls, c.Begun
  last : ∀ i c, s.calls[i]? = some c → c.Waits s.isUserClosed →
    ∀ x, (tagged s.accepted).getLast? = some x → x.1 = i

theorem start_lastWaits (fresh : Nat → UInt8) : LastWaits (start fresh) where
  begun := by simp [start]
  last := by simp [start]

theorem LastWaits.same {s s' : ClientSend} (h : LastWaits s) (hcalls : s'.calls = s.calls) (haccepted : s'.accepted = s.accepted)
    (hclosed : s.isUserClosed = true → s'.isUserClosed = true) : LastWaits s' where
  begun := by rw [hcalls]; exact h.begun
  last := by
    rw [hcalls, haccepted]
    rintro i c hi ⟨hpos, hlt, hpc⟩
    refine h.last i c hi ⟨hpos, hlt, hpc.imp_right fun ⟨htest, hopen⟩ => ⟨htest, ?_⟩⟩
    cases hu : s.isUserClosed with
    | false => rfl
    | true => rw [hclosed hu] at hopen; cases hopen

theorem LastWaits.setCall {s s' : ClientSend} (h : LastWaits s) {i : Nat} {c c' : SendCall} (hi : s.calls[i]? = some c)
    (hcalls : s'.calls = s.calls.set i c') (hclosed : s'.isUserClosed = s.isUserClosed) (hbegun : c'.Begun)
    (hself : c'.Waits s.isUserClosed → ∀ x, (tagged s'.accepted).getLast? = some x → x.1 = i)
    (hrest : tagged s'.accepted = tagged s.accepted ∨ ∀ j d, s.calls[j]? = some d → j ≠ i → ¬d.Waits s.isUserClosed) : LastWaits s' where
  begun := by
    rw [hcalls]
    intro d hd
    rcases List.mem_or_eq_of_mem_set hd with hd | rfl
    · exact h.begun d hd
    · exact hbegun
  last := by
    rw [hcalls, hclosed]
    intro j d hj hw x hx
    obtain ⟨hlt, -⟩ := List.getElem?_eq_some_iff.1 hi
    by_cases hij : j = i
    · subst hij
      obtain rfl : c' = d := by simpa [List.getElem?_set_self hlt] using hj
      exact hself hw x hx
    · rw [List.getElem?_set_ne (Ne.symm hij)] at hj
      rcases hrest with hsame | hnone
      · rw [hsame] at hx
        exact h.last j d hj hw x hx
      · exact absurd hw (hnone j d hj hij)

/-- The locked section of call `i`. What it adds to the log is its own. -/
theorem LastWaits.writeSection {s' : ClientSend} (hinv : Inv s l) (h : LastWaits s) {i : Nat} {c : SendCall}
    (hi : s.calls[i]? = some c) (hpc : c.pc = .write) (hc : s.NoneWaits (.call i)) (hs : s.writeSection i c = .ok s') :
    LastWaits s' := by
  obtain ⟨sent, hsent⟩ : ∃ sent, sent = l.taken c.writer c.count.toNat := ⟨_, rfl⟩
  obtain ⟨ring, hstep, -⟩ := writeSection_spec hinv hi hsent
  have hs' := Except.ok.inj (hs.symm.trans hstep)
  have hbegun := h.begun c (List.mem_of_getElem? hi)
  simp only [SendCall.Begun, hpc] at hbegun
  have htagged : tagged s'.accepted = tagged s.accepted ++ sent.map fun a => (i, a) := by rw [hs', tagged_append]
  apply h.setCall hi (by rw [hs']) (by rw [hs'])
  · by_cases hlt : c.iret + sent.length < c.data.length
    · simp only [SendCall.Begun, if_pos hlt]
      exact hlt
    · simp only [SendCall.Begun, if_neg hlt]
  · rintro ⟨hpos, -, -⟩ x hx
    by_cases hnil : sent = []
    · -- Nothing is accepted: the call waits where it was.
      subst hnil
      rw [htagged, List.map_nil, List.append_nil] at hx
      exact h.last i c hi ⟨hpos, hbegun, .inl hpc⟩ x hx
    · have hne : sent.map (fun a => (i, a)) ≠ [] := fun hmap => hnil (List.map_eq_nil_iff.1 hmap)
      rw [htagged, List.getLast?_append_of_ne_nil _ hne] at hx
      obtain ⟨a, -, rfl⟩ := List.mem_map.1 (List.mem_of_getLast? hx)
      rfl
  · by_cases hfull : s.ring.full = true
    · left
      rw [htagged, hsent, hinv.taken_full hfull, List.map_nil, List.append_nil]
    · right
      exact hc c hi hpc (Bool.not_eq_true _ ▸ hfull)

/-- **The last byte accepted stays that of the call that waits.** -/
theorem LastWaits.step {s' : ClientSend} {e : ClientEvent} (hinv : Inv s l) (h : LastWaits s) (hc : s.NoneWaits e)
    (hs : step fresh s e = .ok s') : LastWaits s' := by
  cases step_effect hinv hs with
  | other hu => exact h.same hu.calls hu.accepted hu.closed
  | submit _ hcalls haccepted hclosed _ => exact h.same hcalls haccepted fun hu => hclosed.trans hu
  | enter data =>
    refine ⟨?_, ?_⟩
    · intro c hmem
      rcases List.mem_append.1 hmem with hmem | hmem
      · exact h.begun c hmem
      · rw [List.mem_singleton.1 hmem]
        exact SendCall.enter_begun data
    · intro i c hi hw
      rcases Nat.lt_or_ge i s.calls.length with hlt | hge
      · exact h.last i c (by rwa [List.getElem?_append_left hlt] at hi) hw
      · -- The new call has had nothing accepted.
        rw [List.getElem?_append_right hge] at hi
        have hnew : c = .enter data := by simpa using List.mem_of_getElem? hi
        rw [hnew] at hw
        exact absurd (SendCall.enter_iret data) (Nat.ne_of_gt hw.1)
  | @call i c _ hi hstmt =>
    have hbegun := h.begun c (List.mem_of_getElem? hi)
    obtain ⟨data, iret, pc⟩ := c
    cases pc with
    | signal =>
      cases hstmt
      refine h.setCall hi rfl rfl hbegun.2 (fun hw => ?_) (.inl rfl)
      exact absurd hbegun.1 (Nat.ne_of_gt hw.1)
    | test =>
      cases hstmt
      cases hu : s.isUserClosed with
      | true => exact h.setCall hi rfl hu.symm trivial (fun hw => by simpa using hw.2.2) (.inl rfl)
      | false =>
        refine h.setCall hi rfl hu.symm hbegun (fun hw => ?_) (.inl rfl)
        exact h.last i _ hi ⟨hw.1, hw.2.1, .inr ⟨rfl, hu⟩⟩
    | write => exact h.writeSection hinv hi rfl hc hstmt
    | signalLast =>
      cases hstmt
      exact h.setCall hi rfl rfl trivial (fun hw => by simpa using hw.2.2) (.inl rfl)
    | done n =>
      cases hstmt
      exact h

theorem Inv.mayOffer (hinv : Inv s l) (h : LastWaits s) (e : ClientEvent) :
    ∀ m ∈ s.moves e, ∀ i n, m = .offer i n → MayOffer l i n := by
  rintro m hm i n rfl w hw hsent - x hx
  obtain ⟨rfl, c, hi, hpc⟩ := offer_mem_moves hm
  rw [(hinv.call_writer hi).1] at hw
  obtain rfl := Option.some.inj hw
  have hbegun := h.begun c (List.mem_of_getElem? hi)
  simp only [SendCall.Begun, hpc] at hbegun
  rw [hinv.models.log] at hx
  exact h.last i c hi ⟨hsent, hbegun, .inl hpc⟩ x hx

/-- Every call has had nothing accepted, or is past its loop. -/
def Whole (s : ClientSend) : Prop :=
  ∀ c ∈ s.calls, c.pc = .signal ∨ c.pc = .test ∨ c.pc = .write → c.iret = 0

theorem Whole.setCall {s s' : ClientSend} (h : Whole s) {i : Nat} {c' : SendCall} (hcalls : s'.calls = s.calls.set i c')
    (hc' : c'.pc = .signal ∨ c'.pc = .test ∨ c'.pc = .write → c'.iret = 0) : Whole s' := by
  intro c hmem
  rw [hcalls] at hmem
  rcases List.mem_or_eq_of_mem_set hmem with hmem | rfl
  · exact h c hmem
  · exact hc'

/-- **A call that finds room for all its data takes one section.** -/
theorem Whole.step {s' : ClientSend} {e : ClientEvent} (hinv : Inv s l) (h : Whole s) (hfits : s.FitsAtFirst e)
    (hs : step fresh s e = .ok s') : Whole s' := by
  cases step_effect hinv hs with
  | other hu => rwa [Whole, hu.calls]
  | submit _ hcalls _ _ _ => rwa [Whole, hcalls]
  | enter data =>
    intro c hmem
    rcases List.mem_append.1 hmem with hmem | hmem
    · exact h c hmem
    · rw [List.mem_singleton.1 hmem]
      exact fun _ => SendCall.enter_iret data
  | @call i c _ hi hstmt =>
    have hc := h c (List.mem_of_getElem? hi)
    obtain ⟨data, iret, pc⟩ := c
    cases pc with
    | signal =>
      cases hstmt
      exact h.setCall rfl fun _ => hc (.inl rfl)
    | test =>
      cases hstmt
      exact h.setCall rfl fun _ => hc (.inr (.inl rfl))
    | write =>
      obtain rfl : iret = 0 := hc (.inr (.inr rfl))
      have hroom := hfits _ hi rfl rfl
      have hle : bufferSize ≤ intMax := by decide
      have hcount : (SendCall.mk data 0 .write).count.toNat = data.length := by
        rw [count_short (Nat.zero_le _) (by omega)]
        rfl
      obtain ⟨ring, -, hstep⟩ := Piped.write fresh ⟨l, hinv⟩ hi rfl (List.take_of_length_le (by
        rw [List.length_take, List.length_drop]
        omega)).symm
      obtain rfl := Except.ok.inj (hs.symm.trans hstep)
      -- The section takes all of the data, and the call leaves its loop.
      have hall : ¬ 0 + ((data.drop 0).take (SendCall.mk data 0 .write).count.toNat).length < data.length := by
        rw [hcount, List.drop_zero, List.take_length, Nat.zero_add]
        exact Nat.lt_irrefl _
      refine h.setCall rfl fun hpc => ?_
      rw [if_neg hall] at hpc
      simp at hpc
    | signalLast =>
      cases hstmt
      exact h.setCall rfl (by simp)
    | done n =>
      cases hstmt
      exact h

theorem blocks_run {moves : List (Move UInt8)} (hs : Sound l) (h : Blocks l)
    (hm : ∀ m ∈ moves, ∀ i n, m = .offer i n → MayOffer l i n) (hone : moves.length ≤ 1) : Blocks (l.run moves) := by
  match moves, hone with
  | [], _ => exact h
  | [m], _ => exact h.move hs m (hm m (by simp))

theorem moves_length (s : ClientSend) (e : ClientEvent) : (s.moves e).length ≤ 1 := by
  unfold moves
  split
  · exact Nat.le_refl _
  · split <;> simp
  · split <;> simp
  · exact Nat.zero_le _

theorem Inv.handedTags_snd (h : Inv s l) : s.handedTags.map Prod.snd = s.handed := by
  have hcons : s.handed ++ (s.passing ++ l.queue.items) = elements s.accepted := by
    rw [← List.append_assoc, ← h.models.given, ← h.models.log]
    exact h.sound.conserves
  rw [handedTags, List.map_take, tagged_snd, ← hcons, List.take_left]

/-- What has been handed on of a call is the front of what was accepted from it. -/
theorem Inv.handedTags_prefix (h : Inv s l) {i : Nat} {c : SendCall} (hi : s.calls[i]? = some c) :
    ((s.handedTags.filter fun x => x.1 == i).map Prod.snd) <+: c.data := by
  have hpre : s.handedTags <+: tagged s.accepted := List.take_prefix _ _
  have hacc := (h.sound.accepted i _ (h.call_writer hi).1).1
  rw [h.models.log] at hacc
  have hpart := (hpre.filter fun x => x.1 == i).map Prod.snd
  rw [tagged_filter, hacc] at hpart
  exact hpart.trans (List.take_prefix _ _)

end ClientSend

open ClientSend

/-! **The bytes of every `Send` stay together** where no call adds bytes as another one waits. -/

theorem sends_stay_together (fresh : Nat → UInt8) (es : List ClientEvent) (hes : ∀ e ∈ es, e.Valid)
    (hnone : Along (step fresh) NoneWaits (start fresh) es) :
    ∃ s, run (step fresh) (start fresh) es = .ok s ∧ s.handedTags.map Prod.snd = s.handed ∧
      ∀ i c, s.calls[i]? = some c → Block i s.handedTags ∧
        ((s.handedTags.filter fun x => x.1 == i).map Prod.snd) <+: c.data := by
  have hstep : ∀ s e, (∃ l, Inv s l ∧ Blocks l ∧ LastWaits s) → e.Valid ∧ s.NoneWaits e →
      ∃ s', step fresh s e = .ok s' ∧ ∃ l, Inv s' l ∧ Blocks l ∧ LastWaits s' := by
    rintro s e ⟨l, h, hb, hlast⟩ ⟨he, hc⟩
    obtain ⟨s', hs, h'⟩ := step_refines fresh h he
    exact ⟨s', hs, _, h', blocks_run h.sound hb (h.mayOffer hlast e) (moves_length s e), hlast.step h hc hs⟩
  obtain ⟨s, hs, l, h, hb, -⟩ := run_total hstep ⟨_, start_inv fresh, fun i => Block.nil i, start_lastWaits fresh⟩
    ((Along.of_forall (fun e he _ => hes e he) _).and hnone)
  refine ⟨s, hs, h.handedTags_snd, fun i c hi => ⟨?_, h.handedTags_prefix hi⟩⟩
  have := hb i
  rw [h.models.log] at this
  exact this.take _

/-- **Where every call finds room for all its data, none waits.** -/
theorem fits_noneWaits (fresh : Nat → UInt8) {es : List ClientEvent} (hes : ∀ e ∈ es, e.Valid)
    (hfits : Along (step fresh) FitsAtFirst (start fresh) es) : Along (step fresh) NoneWaits (start fresh) es := by
  have hstep : ∀ s e s', Piped s ∧ Whole s → e.Valid ∧ s.FitsAtFirst e → step fresh s e = .ok s' → Piped s' ∧ Whole s' := by
    rintro s e s' ⟨⟨l, hinv⟩, h⟩ ⟨he, hf⟩ hs
    exact ⟨⟨_, hinv.next he hs⟩, h.step hinv hf hs⟩
  refine Along.imp hstep ?_ ⟨start_piped fresh, by simp [Whole, start]⟩ ((Along.of_forall (fun e he _ => hes e he) _).and hfits)
  rintro s e ⟨-, h⟩ -
  cases e with
  | call i =>
    rintro c - - - j d hj - ⟨hpos, -, hpc⟩
    have hzero := h d (List.mem_of_getElem? hj) (.inr (hpc.symm.imp And.left id))
    exact Nat.ne_of_gt hpos hzero
  | _ => trivial

/-! A `Send` that has to wait, and a second one. -/

/-- A `Send` up to its first locked section. -/
def firstSend : List ClientEvent := [.send (some overfull), .call 0, .call 0]

/-- The section fills the ring, and the loop drains it. -/
def firstHalf : List ClientEvent := firstSend ++ [.call 0, .async, .asyncTest, .drain, .uvWrite 0 0]

/-- The second `Send` comes to its section after the first one's last. -/
def aloneRun : List ClientEvent :=
  firstHalf ++ [.send (some [1]), .call 1, .call 0, .call 1, .call 0, .call 1, .call 0, .call 1, .drain, .uvWrite 0 0]

/-- The second `Send` has its section while the first one waits. -/
def splitRun : List ClientEvent :=
  firstHalf ++ [.send (some [1]), .call 1, .call 1, .call 1, .call 1, .call 0, .call 0, .call 0, .drain, .uvWrite 0 0]

theorem firstHalf_valid : ∀ e ∈ firstHalf, e.Valid := by
  have hmax : overfull.length < 2 ^ 64 := by rw [overfull_length]; decide
  simp only [firstHalf, firstSend, List.cons_append, List.nil_append, List.forall_mem_cons]
  exact ⟨hmax, by simp [ClientEvent.Valid]⟩

theorem splitRun_valid : ∀ e ∈ splitRun, e.Valid :=
  List.forall_mem_append.2 ⟨firstHalf_valid, by simp [ClientEvent.Valid]⟩

theorem aloneRun_valid : ∀ e ∈ aloneRun, e.Valid :=
  List.forall_mem_append.2 ⟨firstHalf_valid, by simp [ClientEvent.Valid]⟩

/-- The state before the first section. -/
def filling : ClientSend :=
  { start (fun _ => 0) with calls := [⟨overfull, 0, .write⟩], asyncPending := true }

/-- The state when the first `Send` waits for its second section. -/
def waiting (ring : PodCircularBuffer UInt8) (params : Pool ClientWriteParam) (writes : List Write) (sent : List UInt8) :
    ClientSend :=
  { start (fun _ => 0) with
    ring := ring
    params := params
    pc := .send
    writes := writes
    calls := [⟨overfull, bufferSize, .test⟩]
    accepted := [(0, sent)]
    submitted := [⟨0, sent, 0, 0⟩] }

theorem firstHalf_end :
    ∃ ring params writes sent, run (step fun _ => 0) (start fun _ => 0) firstHalf = .ok (waiting ring params writes sent) ∧
      Along (step fun _ => 0) NoneWaits (start fun _ => 0) firstHalf ∧ ring.contents = [] ∧ (0 : UInt8) ∈ sent := by
  have hmax : overfull.length ≤ intMax := by rw [overfull_length]; decide
  have h₁ : run (step fun _ => 0) (start fun _ => 0) firstSend = .ok filling := rfl
  have hp₁ := (start_piped fun _ => 0).run (fun e he => firstHalf_valid e (List.mem_append_left _ he)) h₁
  have halong₁ : Along (step fun _ => 0) NoneWaits (start fun _ => 0) firstSend := by
    refine ⟨trivial, fun s₁ hs₁ => ?_⟩
    cases hs₁
    refine ⟨?_, fun s₂ hs₂ => ?_⟩
    · rintro c ⟨⟩ hpc
      cases hpc
    cases hs₂
    refine ⟨?_, fun s₃ _ => trivial⟩
    rintro c ⟨⟩ hpc
    cases hpc
  obtain ⟨sent, hsent⟩ : ∃ sent, sent = (overfull.drop 0).take (bufferSize - 0) := ⟨_, rfl⟩
  have hn : sent.length = bufferSize := by
    rw [hsent, List.length_take, List.drop_zero, overfull_length]
    omega
  obtain ⟨ring₂, hring₂, h₂⟩ := hp₁.write_short (i := 0) (fun _ => 0) rfl hmax hsent
  have hcalls₂ : filling.calls.set 0 ⟨overfull, 0 + sent.length,
      if 0 + sent.length < overfull.length then .test else .signalLast⟩ = [⟨overfull, bufferSize, .test⟩] := by
    rw [hn, overfull_length, Nat.zero_add, if_pos (Nat.lt_succ_self _)]
    rfl
  rw [hcalls₂] at h₂
  have halong₂ : Along (step fun _ => 0) NoneWaits filling [.call 0, .async, .asyncTest, .drain, .uvWrite 0 0] := by
    refine .cons h₂ ?_ (Along.of_forall (by simp [NoneWaits]) _)
    -- There is no other call.
    rintro c - - - j d hj hne
    have hone := (List.getElem?_eq_some_iff.1 hj).1
    exact absurd (Nat.lt_one_iff.1 hone) hne
  -- The loop drains the ring.
  have h₃ := (run_cons h₂ [.async, .asyncTest]).trans rfl
  have hp₃ := hp₁.run (by simp [ClientEvent.Valid]) h₃
  have hall : ring₂.contents = sent := hring₂
  have hne₃ : ring₂.contents ≠ [] := by
    rintro hnil
    rw [hall] at hnil
    rw [hnil] at hn
    cases hn
  obtain ⟨ring₄, params₄, id₄, hring₄, h₄, hpass₄⟩ := hp₃.drain (fun _ => 0) rfl hne₃
  have h₅ := (hp₃.next (e := .drain) trivial h₄).uvWrite (fun _ => 0) rfl 0
  rw [hpass₄.trans hall] at h₅
  refine ⟨ring₄, params₄, [⟨id₄, sent, 0⟩], sent, ?_, halong₁.append h₁ halong₂, hring₄, ?_⟩
  · exact (run_append h₁).trans ((run_append h₃).trans ((run_cons h₄ _).trans (run_cons h₅ [])))
  · rw [hsent, List.drop_zero, Nat.sub_zero]
    exact List.mem_cons_self

theorem two_calls {a b d : SendCall} {j : Nat} (h : [a, b][j]? = some d) : (j = 0 ∧ a = d) ∨ (j = 1 ∧ b = d) := by
  rcases j with _ | _ | j
  · exact .inl ⟨rfl, Option.some.inj h⟩
  · exact .inr ⟨rfl, Option.some.inj h⟩
  · cases h

/-- The first `Send` has its last section while the second one has had nothing accepted. -/
theorem aloneRun_none : Along (step fun _ => 0) NoneWaits (start fun _ => 0) aloneRun := by
  have hmax : overfull.length ≤ intMax := by rw [overfull_length]; decide
  obtain ⟨ring, params, writes, sent, h₁, halong₁, hring, -⟩ := firstHalf_end
  refine halong₁.append h₁ ?_
  have hp₁ := (start_piped fun _ => 0).run firstHalf_valid h₁
  have h₂ : run (step fun _ => 0) (waiting ring params writes sent) [.send (some [1]), .call 1, .call 0, .call 1] =
      .ok { waiting ring params writes sent with
        calls := [⟨overfull, bufferSize, .write⟩, ⟨[1], 0, .write⟩], asyncPending := true } := rfl
  have hp₂ := hp₁.run (by simp [ClientEvent.Valid]) h₂
  have halong₂ : Along (step fun _ => 0) NoneWaits (waiting ring params writes sent)
      [.send (some [1]), .call 1, .call 0, .call 1] := by
    refine ⟨trivial, fun s hs => ?_⟩
    cases hs
    refine ⟨?_, fun s hs => ?_⟩
    · rintro c ⟨⟩ hpc
      cases hpc
    cases hs
    refine ⟨?_, fun s hs => ?_⟩
    · rintro c ⟨⟩ hpc
      cases hpc
    cases hs
    refine ⟨?_, fun s _ => trivial⟩
    rintro c ⟨⟩ hpc
    cases hpc
  refine halong₂.append h₂ ?_
  obtain ⟨ring₃, hring₃, h₃⟩ := hp₂.write_short (i := 0) (fun _ => 0) rfl hmax
    (show [0] = List.take _ _ by
      show [0] = List.take (bufferSize - ring.contents.length) (List.drop bufferSize overfull)
      rw [hring, overfull_drop]
      rfl)
  have hlast : ring₃.contents = [0] := by
    rw [hring₃]
    show ring.contents ++ [0] = [0]
    rw [hring]
    rfl
  have hend : ¬ bufferSize + [(0 : UInt8)].length < overfull.length := by
    rw [overfull_length]
    exact Nat.lt_irrefl _
  simp only [if_neg hend] at h₃
  have hp₃ := hp₂.next (e := .call 0) trivial h₃
  refine .cons h₃ ?_ ?_
  · rintro c ⟨⟩ - - j d hj hne ⟨hpos, -, -⟩
    rcases two_calls hj with ⟨rfl, -⟩ | ⟨rfl, rfl⟩
    · exact hne rfl
    · exact Nat.lt_irrefl 0 hpos
  obtain ⟨ring₄, -, h₄⟩ := hp₃.write_short (i := 1) (fun _ => 0) rfl (by decide)
    (show [1] = List.take _ _ by simp only [hlast]; rfl)
  refine .cons h₄ ?_ ?_
  · rintro c ⟨⟩ - - j d hj hne ⟨-, -, hpc⟩
    rcases two_calls hj with ⟨rfl, rfl⟩ | ⟨rfl, -⟩
    · simp at hpc
    · exact hne rfl
  refine ⟨?_, fun s hs => ?_⟩
  · rintro c ⟨⟩ hpc
    cases hpc
  cases hs
  refine ⟨?_, fun s _ => Along.of_forall (by simp [NoneWaits]) s⟩
  rintro c ⟨⟩ hpc
  cases hpc

theorem sends_stay_together_alone :
    ∃ s, run (step fun _ => 0) (start fun _ => 0) aloneRun = .ok s ∧ s.handedTags.map Prod.snd = s.handed ∧
      ∀ i c, s.calls[i]? = some c → Block i s.handedTags ∧
        ((s.handedTags.filter fun x => x.1 == i).map Prod.snd) <+: c.data :=
  sends_stay_together (fun _ => 0) aloneRun aloneRun_valid aloneRun_none

/-- The state at the end of the other run: both calls have returned with all their bytes handed on. -/
theorem splitRun_end :
    ∃ s sent, run (step fun _ => 0) (start fun _ => 0) splitRun = .ok s ∧ (0 : UInt8) ∈ sent ∧
      s.accepted = [(0, sent), (1, [1]), (0, [0])] ∧ s.handed = sent ++ [1, 0] ∧
      ∃ n, s.calls[0]? = some ⟨overfull, bufferSize + 1, .done n⟩ := by
  have hmax : overfull.length ≤ intMax := by rw [overfull_length]; decide
  obtain ⟨ring, params, writes, sent, h₁, -, hring, hzero⟩ := firstHalf_end
  have hp₁ := (start_piped fun _ => 0).run firstHalf_valid h₁
  -- The second call writes its byte and returns.
  have h₂ : run (step fun _ => 0) (waiting ring params writes sent) [.send (some [1]), .call 1, .call 1] =
      .ok { waiting ring params writes sent with
        calls := [⟨overfull, bufferSize, .test⟩, ⟨[1], 0, .write⟩], asyncPending := true } := rfl
  have hp₂ := hp₁.run (by simp [ClientEvent.Valid]) h₂
  obtain ⟨ring₃, hring₃, h₃⟩ := hp₂.write_short (i := 1) (fun _ => 0) rfl (by decide)
    (show [1] = List.take _ _ by
      show [1] = List.take (bufferSize - ring.contents.length) [1]
      rw [hring]
      rfl)
  have hfirst : ring₃.contents = [1] := by
    rw [hring₃]
    show ring.contents ++ [1] = [1]
    rw [hring]
    rfl
  have h₄ := (run_cons h₃ [.call 1, .call 0]).trans rfl
  have hp₄ := hp₂.run (by simp [ClientEvent.Valid]) h₄
  -- The first call writes its last byte and returns.
  obtain ⟨ring₅, hring₅, h₅⟩ := hp₄.write_short (i := 0) (fun _ => 0) rfl hmax
    (show [0] = List.take _ _ by simp only [hfirst, overfull_drop]; rfl)
  have hend : ¬ bufferSize + [(0 : UInt8)].length < overfull.length := by
    rw [overfull_length]
    exact Nat.lt_irrefl _
  simp only [if_neg hend] at h₅
  have h₆ := (run_cons h₅ [.call 0]).trans rfl
  have hp₆ := hp₄.run (by simp [ClientEvent.Valid]) h₆
  -- The loop drains both bytes.
  have hboth : ring₅.contents = [1, 0] := by rw [hring₅, hfirst]; rfl
  obtain ⟨ring₇, params₇, id₇, -, h₇, hpass₇⟩ := hp₆.drain (fun _ => 0) rfl (by simp only [hboth]; simp)
  have h₈ := (hp₆.next (e := .drain) trivial h₇).uvWrite (fun _ => 0) rfl 0
  simp only [hpass₇, hboth] at h₈
  have hrun : run (step fun _ => 0) (start fun _ => 0) splitRun = _ :=
    (run_append h₁).trans ((run_append h₂).trans ((run_append h₄).trans ((run_append h₆).trans
      ((run_cons h₇ _).trans (run_cons h₈ [])))))
  refine ⟨_, sent, hrun.trans rfl, hzero, rfl, ?_, ⟨_, rfl⟩⟩
  show [Submission.mk 0 sent 0 0, ⟨0, [1, 0], 0, 0⟩].flatMap Submission.bytes = sent ++ [1, 0]
  simp

theorem sends_stay_together_fails :
    ¬ ∀ es, (∀ e ∈ es, e.Valid) → ∀ s, run (step fun _ => 0) (start fun _ => 0) es = .ok s →
      ∀ i c n, s.calls[i]? = some c → c.pc = .done n → Block i s.handedTags := by
  intro hall
  obtain ⟨s, sent, hrun, hzero, hacc, hhanded, n, hcall⟩ := splitRun_end
  have htags : s.handedTags = sent.map (fun a => (0, a)) ++ [(1, 1), (0, 0)] := by
    have hall : tagged s.accepted = sent.map (fun a => (0, a)) ++ [(1, 1), (0, 0)] := by simp [hacc, tagged]
    rw [handedTags, hall, hhanded]
    exact List.take_of_length_le (by simp)
  -- The first call's bytes stand on both sides of the second call's.
  refine (hall splitRun splitRun_valid s hrun 0 _ n hcall rfl).not_split (a := (0, 0)) (b := (1, 1)) (c := (0, 0))
    rfl (by decide) rfl ?_
  have hfront : [((0 : Nat), (0 : UInt8))].Sublist (sent.map fun a => (0, a)) :=
    List.singleton_sublist.2 (List.mem_map.2 ⟨0, hzero, rfl⟩)
  rw [htags]
  exact hfront.append (List.Sublist.refl [(1, 1), (0, 0)])

end Uvnet

import Uvnet.ClientRest
import Uvnet.PayloadCut

/- Whether the stream of each connection is made of whole payloads.

   `_send` takes pieces of up to 10 KiB out of the ring, wherever payloads end, and the ring
   outlives the connection; a piece whose `uv_write` fails is dropped, and the next is tried.
   So a connection can begin in the middle of a payload or miss a piece of one
   (`frames_stay_whole_fails`: a payload of two pieces, of which the first fails).

   1. `OneByOne`: with a single thread the ring gets the payloads one after another.
   2. `Cut`: the stream of every connection is cut from that, as long as every piece goes on where its
      connection's stream ended, or lies behind a gap between two payload ends (`GoesOn`).
   3. `Unbroken.goesOn`: what breaks that is a `uv_write` that fails or a reconnection while a
      payload is handed over in part, and then a `uv_write` that is taken.
   4. `frames_stay_whole`: in the runs without this, the stream of every connection is whole
      payloads but for the end of the last. -/
namespace Uvnet
open CMachine ObjectPool BoundedQueue SharedQueue StepRun PayloadCut

/-- `uv_write` took the buffer. -/
def Submission.taken (sub : Submission) : Bool := sub.iret == 0

/-- `uv_write` took the buffer, and `OnSend` is told of no error. -/
def Submission.sent (sub : Submission) : Bool := sub.iret == 0 && decide (0 ≤ sub.status)

namespace ClientSend

/-- The submission was for the connection `k`, and successful. -/
def onConn (ok : Submission → Bool) (k : Nat) (sub : Submission) : Bool := sub.conn == k && ok sub

/-- The bytes successfully submitted on the connection `k`. -/
def stream (ok : Submission → Bool) (s : ClientSend) (k : Nat) : List UInt8 :=
  (s.submitted.filter (onConn ok k)).flatMap Submission.bytes

/-- How many bytes were handed over up to the last of the submissions with `p`. -/
def reachedBy (p : Submission → Bool) (subs : List Submission) : Nat × Nat :=
  subs.foldl (fun r sub => (r.1 + sub.bytes.length, if p sub then r.1 + sub.bytes.length else r.2)) (0, 0)

/-- How far the connection `k` has got in the bytes handed over. -/
def reached (ok : Submission → Bool) (s : ClientSend) (k : Nat) : Nat := (reachedBy (onConn ok k) s.submitted).2

/-- `Send` is called when all earlier calls have returned. -/
def SingleThread (s : ClientSend) : ClientEvent → Prop
  | .send _ => ∀ c ∈ s.calls, ∃ n, c.pc = .done n
  | _ => True

/-- A buffer is submitted with success where the stream of its connection ended, or the
stream ended at the end of a payload and the buffer begins at one. -/
def GoesOn (ok : Submission → Bool) (s : ClientSend) : ClientEvent → Prop
  | .uvWrite iret status => ∀ id, s.pc = .submit id → ok ⟨s.conn, s.passing, iret, status⟩ = true →
    s.reached ok s.conn = s.handed.length ∨
      (PayloadEnd s.payloads (s.reached ok s.conn) ∧ PayloadEnd s.payloads s.handed.length)
  | _ => True

/-- A payload is handed over in part, and the last `uv_write` of the connection has failed. -/
def CutByFailure (ok : Submission → Bool) (s : ClientSend) : Prop :=
  ¬PayloadEnd s.payloads s.handed.length ∧
    ∃ sub, s.submitted.getLast? = some sub ∧ sub.conn = s.conn ∧ ok sub = false

/-- A payload is handed over in part, and the client has reconnected. -/
def CutByReconnect (s : ClientSend) : Prop :=
  ¬PayloadEnd s.payloads s.handed.length ∧ ∃ sub, s.submitted.getLast? = some sub ∧ sub.conn ≠ s.conn

/-- A `uv_write` of the connection has failed right after one that handed over the first part of
a payload with success. -/
def LostInside (ok : Submission → Bool) (s : ClientSend) : Prop :=
  ∃ before a b after, s.submitted = before ++ a :: b :: after ∧ onConn ok s.conn a = true ∧ b.conn = s.conn ∧
    ok b = false ∧ ¬PayloadEnd s.payloads ((before ++ [a]).flatMap Submission.bytes).length

/-- No `uv_write` succeeds on a connection after one of these has broken a payload off. -/
def Unbroken (ok : Submission → Bool) (s : ClientSend) : ClientEvent → Prop
  | .uvWrite iret status => ∀ id, s.pc = .submit id → ok ⟨s.conn, s.passing, iret, status⟩ = true →
    ¬s.CutByFailure ok ∧ ¬s.CutByReconnect ∧ ¬s.LostInside ok
  | _ => True

section Frames
variable {fresh : Nat → UInt8} {ok : Submission → Bool} {s s' : ClientSend} {l : Line UInt8 bufferSize}
  {cs : List SendCall} {c : SendCall}

theorem reachedBy_append (p : Submission → Bool) (subs : List Submission) (sub : Submission) :
    reachedBy p (subs ++ [sub]) = ((reachedBy p subs).1 + sub.bytes.length,
      if p sub then (reachedBy p subs).1 + sub.bytes.length else (reachedBy p subs).2) := by
  rw [reachedBy, List.foldl_append]
  rfl

theorem reachedBy_fst (p : Submission → Bool) (subs : List Submission) :
    (reachedBy p subs).1 = (subs.flatMap Submission.bytes).length := by
  induction subs using List.reverseRecOn with
  | nil => rfl
  | append_singleton subs sub ih => simp [reachedBy_append, ih]

/-! A single thread. -/

/-- The last call is the only one at work: the ring has got the payloads before it, and its
own up to `iret`. After a `Close` nothing more gets in. -/
structure LastCall (s : ClientSend) (cs : List SendCall) (c : SendCall) : Prop where
  calls : s.calls = cs ++ [c]
  done : ∀ c' ∈ cs, ∃ n, c'.pc = .done n
  accepted : elements s.accepted = (cs.map SendCall.data).flatten ++ c.data.take c.iret ∨
    (s.isUserClosed = true ∧ c.pc ≠ .write ∧ elements s.accepted <+: (cs.map SendCall.data).flatten)
  ended : (c.pc = .signalLast ∨ ∃ n, c.pc = .done n) → c.data.length ≤ c.iret ∨ s.isUserClosed = true

def OneByOne (s : ClientSend) : Prop :=
  (s.calls = [] ∧ elements s.accepted = []) ∨ ∃ cs c, LastCall s cs c

theorem LastCall.front (h : LastCall s cs c) : elements s.accepted <+: s.payloads.flatten := by
  have hpay : s.payloads.flatten = (cs.map SendCall.data).flatten ++ c.data := by
    rw [payloads, h.calls, List.map_append, List.flatten_append]
    simp
  rw [hpay]
  rcases h.accepted with heq | ⟨-, -, hpre⟩
  · rw [heq]
    exact (List.prefix_append_right_inj _).2 (List.take_prefix _ _)
  · exact hpre.trans (List.prefix_append _ _)

/-- **With a single thread** the ring gets a part of the payloads from the front. -/
theorem OneByOne.front (h : OneByOne s) : elements s.accepted <+: s.payloads.flatten := by
  rcases h with ⟨-, hnil⟩ | ⟨cs, c, h⟩
  · rw [hnil]
    exact List.nil_prefix
  · exact h.front

theorem OneByOne.frame (h : OneByOne s) (hcalls : s'.calls = s.calls) (haccepted : s'.accepted = s.accepted)
    (hclosed : s.isUserClosed = true → s'.isUserClosed = true) : OneByOne s' := by
  rcases h with ⟨hnil, hacc⟩ | ⟨cs, c, h⟩
  · exact .inl ⟨hcalls.trans hnil, by rw [haccepted]; exact hacc⟩
  · refine .inr ⟨cs, c, hcalls.trans h.calls, h.done, ?_, fun hover => (h.ended hover).imp_right hclosed⟩
    rw [haccepted]
    exact h.accepted.imp_right fun hc => ⟨hclosed hc.1, hc.2⟩

theorem enter_over (data : Option (List UInt8)) : (SendCall.enter data).iret = 0 ∧ (SendCall.enter data).pc ≠ .write ∧
    ((SendCall.enter data).pc = .signalLast ∨ (∃ n, (SendCall.enter data).pc = .done n) →
      (SendCall.enter data).data = []) := by
  unfold SendCall.enter
  split
  · exact ⟨rfl, nofun, fun _ => rfl⟩
  · exact ⟨rfl, nofun, fun _ => rfl⟩
  · refine ⟨rfl, nofun, ?_⟩
    rintro (h | ⟨n, h⟩) <;> cases h

theorem OneByOne.enter (h : OneByOne s) (hdone : ∀ c ∈ s.calls, ∃ n, c.pc = .done n) (data : Option (List UInt8)) :
    OneByOne { s with calls := s.calls ++ [.enter data] } := by
  obtain ⟨hiret, hpc, hover⟩ := enter_over data
  refine .inr ⟨s.calls, .enter data, rfl, hdone, ?_, fun ho => .inl (by rw [hover ho]; exact Nat.zero_le _)⟩
  rw [hiret, List.take_zero, List.append_nil]
  rcases h with ⟨hnil, hacc⟩ | ⟨cs, c, h⟩
  · left
    rw [hnil, hacc]
    rfl
  · have hlast : ∃ n, c.pc = .done n := hdone c (by rw [h.calls]; exact List.mem_append_right _ List.mem_cons_self)
    rcases h.ended (.inr hlast) with hfull | hclosed
    · rcases h.accepted with heq | ⟨hclosed, -, -⟩
      · left
        rw [heq, h.calls, List.map_append, List.flatten_append, List.take_of_length_le hfull]
        simp
      · exact .inr ⟨hclosed, hpc, h.front⟩
    · -- after a `Close`, in the middle of the last payload
      exact .inr ⟨hclosed, hpc, h.front⟩

theorem LastCall.setPc (h : LastCall s cs c) (pc : SendPc) (hcalls : s'.calls = s.calls.set cs.length { c with pc := pc })
    (haccepted : s'.accepted = s.accepted) (hclosed : s'.isUserClosed = s.isUserClosed)
    (hwrite : s.isUserClosed = true → pc ≠ .write)
    (hover : (pc = .signalLast ∨ ∃ n, pc = .done n) → c.data.length ≤ c.iret ∨ s.isUserClosed = true) :
    LastCall s' cs { c with pc := pc } where
  calls := by
    rw [hcalls, h.calls, List.set_append_right _ _ (Nat.le_refl _), Nat.sub_self]
    rfl
  done := h.done
  accepted := by
    rw [haccepted, hclosed]
    exact h.accepted.imp_right fun hc => ⟨hc.1, hwrite hc.1, hc.2.2⟩
  ended := by
    rw [hclosed]
    exact hover

theorem LastCall.writeSection (h : LastCall s cs c) (hinv : Inv s l) (hpc : c.pc = .write)
    (hs : s.writeSection cs.length c = .ok s') : ∃ c', LastCall s' cs c' := by
  have hi : s.calls[cs.length]? = some c := by rw [h.calls]; simp
  obtain ⟨ring, hstep, -⟩ := writeSection_spec hinv hi rfl
  obtain rfl := Except.ok.inj (hs.symm.trans hstep)
  have hpre : l.taken c.writer c.count.toNat <+: c.data.drop c.iret := taken_prefix l c.writer _
  -- A call that writes has not been cut short by a `Close`.
  have hexact := h.accepted.resolve_right fun hc => hc.2.1 hpc
  refine ⟨⟨c.data, c.iret + (l.taken c.writer c.count.toNat).length,
    if c.iret + (l.taken c.writer c.count.toNat).length < c.data.length then .test else .signalLast⟩,
    ?_, h.done, .inl ?_, ?_⟩
  · simp only
    rw [h.calls, List.set_append_right _ _ (Nat.le_refl _), Nat.sub_self]
    rfl
  · simp only
    rw [elements_append, hexact, List.append_assoc, List.take_add, ← List.prefix_iff_eq_take.1 hpre]
  · simp only
    intro hover
    left
    by_contra hlt
    rw [if_pos (Nat.lt_of_not_le hlt)] at hover
    rcases hover with hover | ⟨n, hover⟩ <;> cases hover

theorem OneByOne.sendStep (h : OneByOne s) (hinv : Inv s l) {i : Nat} {c₀ : SendCall} (hi : s.calls[i]? = some c₀)
    (hs : s.sendStep i c₀ = .ok s') : OneByOne s' := by
  rcases h with ⟨hnil, -⟩ | ⟨cs, c, h⟩
  · rw [hnil] at hi
    cases hi
  rcases Nat.lt_or_ge i cs.length with hlt | hge
  · -- An earlier call: it has returned.
    rw [h.calls, List.getElem?_append_left hlt] at hi
    obtain ⟨n, hn⟩ := h.done c₀ (List.mem_of_getElem? hi)
    simp only [ClientSend.sendStep, hn] at hs
    cases hs
    exact .inr ⟨cs, c, h⟩
  · obtain rfl : i = cs.length := by
      have hlt := (List.getElem?_eq_some_iff.1 hi).1
      rw [h.calls, List.length_append, List.length_singleton] at hlt
      omega
    obtain rfl : c = c₀ := by
      rw [h.calls] at hi
      simpa using hi
    refine .inr ?_
    cases hpc : c.pc with
    | signal =>
      simp only [ClientSend.sendStep, hpc] at hs
      cases hs
      exact ⟨cs, _, h.setPc .test rfl rfl rfl (fun _ => by simp) (by rintro (h | ⟨n, h⟩) <;> cases h)⟩
    | test =>
      simp only [ClientSend.sendStep, hpc] at hs
      cases hs
      refine ⟨cs, _, h.setPc _ rfl rfl rfl ?_ ?_⟩
      · intro hclosed
        rw [if_pos hclosed]
        simp
      · intro hover
        right
        by_contra hopen
        rw [if_neg hopen] at hover
        rcases hover with hover | ⟨n, hover⟩ <;> cases hover
    | write =>
      simp only [ClientSend.sendStep, hpc] at hs
      -- the only statement that puts something into the ring
      obtain ⟨c', h'⟩ := h.writeSection hinv hpc hs
      exact ⟨cs, c', h'⟩
    | signalLast =>
      simp only [ClientSend.sendStep, hpc] at hs
      cases hs
      exact ⟨cs, _, h.setPc (.done (toInt c.iret)) rfl rfl rfl (fun _ => by simp) fun _ => h.ended (.inl hpc)⟩
    | done n =>
      simp only [ClientSend.sendStep, hpc] at hs
      cases hs
      exact ⟨cs, c, h⟩

/-- A step of `Send` neither submits anything nor changes what was to be sent. -/
theorem sendStep_frame {i : Nat} {c : SendCall} (hi : s.calls[i]? = some c) (hs : s.sendStep i c = .ok s') :
    s'.submitted = s.submitted ∧ s'.payloads = s.payloads := by
  have hset : ∀ c' : SendCall, c'.data = c.data → (s.calls.set i c').map SendCall.data = s.calls.map SendCall.data := by
    intro c' hdata
    obtain ⟨hlt, rfl⟩ := List.getElem?_eq_some_iff.1 hi
    have hlt' : i < (s.calls.map SendCall.data).length := by rwa [List.length_map]
    calc (s.calls.set i c').map SendCall.data
        = (s.calls.map SendCall.data).set i c'.data := List.map_set
      _ = (s.calls.map SendCall.data).set i (s.calls.map SendCall.data)[i] := by rw [hdata, List.getElem_map]
      _ = s.calls.map SendCall.data := List.set_getElem_self hlt'
  unfold ClientSend.sendStep at hs
  split at hs
  · cases hs
    exact ⟨rfl, hset _ rfl⟩
  · cases hs
    exact ⟨rfl, hset _ rfl⟩
  · unfold ClientSend.writeSection at hs
    obtain ⟨r, -, hs⟩ := bind_eq_ok.1 hs
    cases hs
    exact ⟨rfl, hset _ rfl⟩
  · cases hs
    exact ⟨rfl, hset _ rfl⟩
  · cases hs
    exact ⟨rfl, rfl⟩

/-! The pieces. -/

/-- Everything the property rests on. -/
structure Framed (ok : Submission → Bool) (s : ClientSend) : Prop where
  piped : Piped s
  order : OneByOne s
  cut : ∀ k, Cut s.payloads s.handed (s.stream ok k) (s.reached ok k)

theorem handed_front (hinv : Inv s l) (h : OneByOne s) : s.handed <+: s.payloads.flatten := by
  have heq : s.handed ++ (s.passing ++ l.queue.items) = elements s.accepted := by
    rw [← List.append_assoc, ← hinv.models.given, ← hinv.models.log]
    exact hinv.sound.conserves
  exact (List.prefix_append _ _).trans (heq ▸ h.front)

theorem Framed.submit (h : Framed ok s) {sub : Submission}
    (hgo : onConn ok sub.conn sub = true → s.reached ok sub.conn = s.handed.length ∨
      (PayloadEnd s.payloads (s.reached ok sub.conn) ∧ PayloadEnd s.payloads s.handed.length))
    (hsub : s'.submitted = s.submitted ++ [sub]) (hpay : s'.payloads = s.payloads) (k : Nat) :
    Cut s'.payloads s'.handed (s'.stream ok k) (s'.reached ok k) := by
  obtain ⟨l, hinv⟩ := h.piped
  have hhanded : s'.handed = s.handed ++ sub.bytes := by simp [handed, hsub]
  have hall : (reachedBy (onConn ok k) s.submitted).1 = s.handed.length := reachedBy_fst _ _
  rw [hpay, hhanded, stream, reached, hsub, reachedBy_append, List.filter_append, List.flatMap_append, hall]
  have hcut := h.cut k
  cases hk : onConn ok k sub with
  | false =>
    rw [if_neg Bool.false_ne_true]
    have hnone : [sub].filter (onConn ok k) = [] := by simp [hk]
    rw [hnone, List.flatMap_nil, List.append_nil]
    exact hcut.skip sub.bytes
  | true =>
    obtain rfl : sub.conn = k := by
      unfold onConn at hk
      rw [Bool.and_eq_true, beq_iff_eq] at hk
      exact hk.1
    have hone : ([sub].filter (onConn ok sub.conn)).flatMap Submission.bytes = sub.bytes := by simp [hk]
    rw [if_pos rfl, hone, ← List.length_append]
    rcases hgo hk with hon | ⟨hreached, hnext⟩
    · rw [hon] at hcut
      exact hcut.goOn sub.bytes
    · exact hcut.restart (handed_front hinv h.order) hreached hnext sub.bytes

/-- **Every step** that may be taken keeps the streams whole. -/
theorem Framed.step (h : Framed ok s) {e : ClientEvent} (he : e.Valid) (hsingle : s.SingleThread e) (hgo : s.GoesOn ok e)
    (hs : step fresh s e = .ok s') : Framed ok s' := by
  obtain ⟨l, hinv⟩ := h.piped
  refine ⟨h.piped.next he hs, ?_, ?_⟩
  · cases step_effect hinv hs with
    | enter data => exact h.order.enter hsingle data
    | call hi hs' => exact h.order.sendStep hinv hi hs'
    | submit hpc hcalls hacc hclosed hsub => exact h.order.frame hcalls hacc fun hc => by rw [hclosed]; exact hc
    | other hsame => exact h.order.frame hsame.calls hsame.accepted hsame.closed
  · have hcut : ∀ {s'' : ClientSend} (more : List (List UInt8)), s''.submitted = s.submitted → s''.payloads = s.payloads ++ more →
        ∀ k, Cut s''.payloads s''.handed (s''.stream ok k) (s''.reached ok k) := by
      intro s'' more hsub hpay k
      rw [hpay, handed, stream, reached, hsub]
      exact (h.cut k).extend more
    cases step_effect hinv hs with
    | enter data => exact hcut [(SendCall.enter data).data] rfl (by rw [payloads, List.map_append]; rfl)
    | call hi hs' =>
      obtain ⟨hsub, hpay⟩ := sendStep_frame hi hs'
      exact hcut [] hsub (by rw [hpay, List.append_nil])
    | submit hpc hcalls hacc hclosed hsub =>
      refine h.submit ?_ hsub (by rw [payloads, hcalls]; rfl)
      intro hon
      unfold onConn at hon
      rw [Bool.and_eq_true] at hon
      exact hgo _ hpc hon.2
    | other hsame => exact hcut [] hsame.submitted (by rw [payloads, hsame.calls, List.append_nil]; rfl)

/-! What breaks a payload off. -/

theorem sendStep_conn {i : Nat} {c : SendCall} (hs : s.sendStep i c = .ok s') : s'.conn = s.conn := by
  unfold ClientSend.sendStep at hs
  split at hs
  case h_3 =>
    unfold ClientSend.writeSection at hs
    obtain ⟨r, -, hs⟩ := bind_eq_ok.1 hs
    cases hs
    rfl
  all_goals
    cases hs
    rfl

theorem step_conn (hinv : Inv s l) {e : ClientEvent} (hs : step fresh s e = .ok s') :
    s.conn ≤ s'.conn ∧ ((∃ iret status, e = .uvWrite iret status) → s'.conn = s.conn) := by
  have hsame : s'.conn = s.conn → s.conn ≤ s'.conn ∧ ((∃ iret status, e = .uvWrite iret status) → s'.conn = s.conn) :=
    fun h => ⟨Nat.le_of_eq h.symm, fun _ => h⟩
  cases step_cases hs with
  | called hi hs => exact hsame (sendStep_conn hs)
  | drained hpc hs =>
    cases hne : s.ring.empty with
    | true =>
      rw [ClientSend.drain, if_pos hne] at hs
      cases hs
      exact hsame rfl
    | false =>
      obtain ⟨ring, p, -, -, -, hstep⟩ := drain_spec fresh hinv hne
      obtain rfl := Except.ok.inj (hs.symm.trans hstep)
      exact hsame rfl
  | submitted hpc hs =>
    obtain rfl := Except.ok.inj (hs.symm.trans (uvWrite_spec hinv hpc _ _))
    refine hsame ?_
    dsimp only
    split <;> rfl
  | sent =>
    refine hsame ?_
    unfold ClientSend.onSend
    split <;> rfl
  | reconnected =>
    refine ⟨Nat.le_succ _, ?_⟩
    rintro ⟨iret, status, h⟩
    cases h
  | idle => exact hsame rfl
  | entered => exact hsame rfl
  | closeCalled => exact hsame rfl
  | closeSignalled => exact hsame rfl
  | woken => exact hsame rfl
  | userClosed => exact hsame rfl
  | tested => exact hsame rfl
  | received => exact hsame rfl
  | stopped => exact hsame rfl

/-- The connections of the submissions only go up, to the one there is. -/
structure ConnOrder (s : ClientSend) : Prop where
  le : ∀ sub ∈ s.submitted, sub.conn ≤ s.conn
  sorted : s.submitted.Pairwise fun a b => a.conn ≤ b.conn

theorem ConnOrder.step (h : ConnOrder s) (hinv : Inv s l) {e : ClientEvent} (hs : step fresh s e = .ok s') : ConnOrder s' := by
  obtain ⟨hle, hsame⟩ := step_conn hinv hs
  have hkept : s'.submitted = s.submitted → ConnOrder s' := by
    intro hsub
    refine ⟨?_, by rw [hsub]; exact h.sorted⟩
    rw [hsub]
    exact fun sub hmem => Nat.le_trans (h.le sub hmem) hle
  cases step_effect hinv hs with
  | enter data => exact hkept rfl
  | call hi hs' => exact hkept (sendStep_frame hi hs').1
  | other hu => exact hkept hu.submitted
  | submit _ _ _ _ hsub =>
    have hconn : s'.conn = s.conn := hsame ⟨_, _, rfl⟩
    refine ⟨?_, ?_⟩
    · rw [hsub, hconn]
      intro sub hmem
      rcases List.mem_append.1 hmem with hmem | hmem
      · exact h.le sub hmem
      · rw [List.mem_singleton.1 hmem]
    · rw [hsub]
      refine List.pairwise_append.2 ⟨h.sorted, List.pairwise_singleton _ _, fun sub hmem last hlast => ?_⟩
      rw [List.mem_singleton.1 hlast]
      exact h.le sub hmem

/-- The place reached is behind the last submission with `p`, if there is one. -/
theorem reachedBy_snd (p : Submission → Bool) (subs : List Submission) :
    ((reachedBy p subs).2 = 0 ∧ ∀ sub ∈ subs, p sub = false) ∨
      ∃ before a after, subs = before ++ a :: after ∧ p a = true ∧ (∀ sub ∈ after, p sub = false) ∧
        (reachedBy p subs).2 = ((before ++ [a]).flatMap Submission.bytes).length := by
  induction subs using List.reverseRecOn with
  | nil => exact .inl ⟨rfl, by simp⟩
  | append_singleton subs sub ih =>
    rw [reachedBy_append]
    cases hp : p sub with
    | true =>
      right
      refine ⟨subs, sub, [], rfl, hp, by simp, ?_⟩
      rw [if_pos rfl, reachedBy_fst, List.flatMap_append, List.length_append]
      simp
    | false =>
      rw [if_neg Bool.false_ne_true]
      have hmore : ∀ after : List Submission, (∀ x ∈ after, p x = false) → ∀ x ∈ after ++ [sub], p x = false := by
        intro after hnone x hx
        rcases List.mem_append.1 hx with hx | hx
        · exact hnone x hx
        · rwa [List.mem_singleton.1 hx]
      rcases ih with ⟨hzero, hnone⟩ | ⟨before, a, after, rfl, ha, hnone, hreached⟩
      · exact .inl ⟨hzero, hmore subs hnone⟩
      · exact .inr ⟨before, a, after ++ [sub], by simp, ha, hmore after hnone, hreached⟩

/-- Where the last `uv_write` was not a success of the connection, what was handed over ends with a payload. -/
theorem payloadEnd_of_uncut (hfailure : ¬s.CutByFailure ok) (hreconnect : ¬s.CutByReconnect) {sub : Submission}
    (hlast : s.submitted.getLast? = some sub) (hno : onConn ok s.conn sub = false) : PayloadEnd s.payloads s.handed.length := by
  by_contra hpart
  by_cases hconn : sub.conn = s.conn
  · refine hfailure ⟨hpart, sub, hlast, hconn, ?_⟩
    rwa [onConn, hconn, beq_self_eq_true, Bool.true_and] at hno
  · exact hreconnect ⟨hpart, sub, hlast, hconn⟩

/-- **A piece goes on** where no payload was broken off. -/
theorem Unbroken.goesOn {e : ClientEvent} (h : s.Unbroken ok e) (horder : ConnOrder s) : s.GoesOn ok e := by
  cases e with
  | uvWrite iret status =>
    intro id hpc hok
    obtain ⟨hfailure, hreconnect, hlost⟩ := h id hpc hok
    rcases reachedBy_snd (onConn ok s.conn) s.submitted with ⟨hzero, hnone⟩ | ⟨before, a, after, hsub, ha, hnone, hreached⟩
    · -- Nothing was taken on the connection yet.
      cases hlast : s.submitted.getLast? with
      | none =>
        left
        rw [reached, hzero, handed, List.getLast?_eq_none_iff.1 hlast]
        rfl
      | some sub =>
        right
        refine ⟨⟨0, hzero⟩, payloadEnd_of_uncut hfailure hreconnect hlast (hnone sub (List.mem_of_getLast? hlast))⟩
    · cases after with
      | nil =>
        left
        rw [reached, hreached, handed, hsub]
      | cons b after =>
        right
        have hlast : s.submitted.getLast? = some ((b :: after).getLast (List.cons_ne_nil b after)) := by
          rw [hsub, List.getLast?_append_of_ne_nil _ (List.cons_ne_nil _ _), List.getLast?_cons_cons,
            List.getLast?_eq_some_getLast]
        refine ⟨?_, payloadEnd_of_uncut hfailure hreconnect hlast (hnone _ (List.getLast_mem _))⟩
        -- The next submission is of the same connection, and failed.
        have hb : b ∈ s.submitted := by rw [hsub]; simp
        have hab : a.conn ≤ b.conn := by
          have hsorted := horder.sorted
          rw [hsub] at hsorted
          exact List.rel_of_pairwise_cons (List.pairwise_append.1 hsorted).2.1 List.mem_cons_self
        have haconn : a.conn = s.conn := by
          unfold onConn at ha
          rw [Bool.and_eq_true, beq_iff_eq] at ha
          exact ha.1
        have hbconn : b.conn = s.conn := Nat.le_antisymm (horder.le b hb) (haconn ▸ hab)
        have hbfail : ok b = false := by
          have hno := hnone b List.mem_cons_self
          rwa [onConn, hbconn, beq_self_eq_true, Bool.true_and] at hno
        by_contra hpart
        apply hlost
        refine ⟨before, a, b, after, hsub, ha, hbconn, hbfail, ?_⟩
        rw [← hreached]
        exact hpart
  | _ => trivial

theorem unbroken_goesOn (fresh : Nat → UInt8) {es : List ClientEvent} (hes : ∀ e ∈ es, e.Valid)
    (h : Along (ClientSend.step fresh) (Unbroken ok) (start fresh) es) : Along (ClientSend.step fresh) (GoesOn ok) (start fresh) es := by
  have hstep : ∀ s e s', Piped s ∧ ConnOrder s → e.Valid ∧ s.Unbroken ok e → ClientSend.step fresh s e = .ok s' →
      Piped s' ∧ ConnOrder s' := by
    rintro s e s' ⟨⟨l, hinv⟩, horder⟩ ⟨he, -⟩ hs
    exact ⟨⟨_, hinv.next he hs⟩, horder.step hinv hs⟩
  exact Along.imp hstep (fun s e hs he => he.2.goesOn hs.2) ⟨start_piped fresh, by simp [start], by simp [start]⟩
    ((Along.of_forall (fun e he _ => hes e he) _).and h)

theorem start_framed (ok : Submission → Bool) (fresh : Nat → UInt8) : Framed ok (start fresh) where
  piped := start_piped fresh
  order := .inl ⟨rfl, rfl⟩
  cut _ := .empty

end Frames

end ClientSend

open ClientSend

/-! **The stream of each connection is whole payloads**, but for the end of its last, whichever
submissions count as successful, in the runs in which no payload is broken off and the connection
used again. -/

theorem frames_stay_whole (fresh : Nat → UInt8) (ok : Submission → Bool) (es : List ClientEvent) (hes : ∀ e ∈ es, e.Valid)
    (hsingle : Along (step fresh) SingleThread (start fresh) es) (hunbroken : Along (step fresh) (Unbroken ok) (start fresh) es) :
    ∃ s, run (step fresh) (start fresh) es = .ok s ∧ ∀ k, Whole s.payloads (s.stream ok k) := by
  have hstep : ∀ s e, Framed ok s → (e.Valid ∧ s.SingleThread e) ∧ s.GoesOn ok e →
      ∃ s', step fresh s e = .ok s' ∧ Framed ok s' := by
    rintro s e h ⟨⟨he, hone⟩, hgo⟩
    obtain ⟨l, hinv⟩ := h.piped
    obtain ⟨s', hs, -⟩ := step_refines fresh hinv he
    exact ⟨s', hs, h.step he hone hgo hs⟩
  obtain ⟨s, hrun, h⟩ := run_total hstep (start_framed ok fresh)
    (((Along.of_forall (fun e he _ => hes e he) _).and hsingle).and (unbroken_goesOn fresh hes hunbroken))
  obtain ⟨l, hinv⟩ := h.piped
  exact ⟨s, hrun, fun k => (h.cut k).whole (handed_front hinv h.order)⟩

theorem unbroken_of_pieces {ok : Submission → Bool} {s : ClientSend} {more : List (List UInt8)}
    (h : s.payloads = s.submitted.map Submission.bytes ++ more) (e : ClientEvent) : s.Unbroken ok e := by
  have hend : ∀ before after, s.submitted = before ++ after →
      PayloadEnd s.payloads (before.flatMap Submission.bytes).length := by
    intro before after hsub
    refine ⟨before.length, ?_⟩
    rw [bound, h, hsub, List.map_append, List.append_assoc, List.take_left' (List.length_map _), ← List.flatMap_def]
  cases e with
  | uvWrite iret status =>
    have hhanded : PayloadEnd s.payloads s.handed.length := hend s.submitted [] (List.append_nil _).symm
    refine fun _ _ _ => ⟨fun hcut => hcut.1 hhanded, fun hcut => hcut.1 hhanded, ?_⟩
    rintro ⟨before, a, b, after, hsub, -, -, -, hpart⟩
    exact hpart (hend (before ++ [a]) (b :: after) (by rw [hsub, List.append_assoc]; rfl))
  | _ => trivial

namespace ClientSend

/-- The client is at rest after `n` calls of `Send`, and each of its buffers was a payload. -/
structure SentWhole (s : ClientSend) (n : Nat) : Prop where
  rest : s.Resting
  pieces : s.payloads = s.submitted.map Submission.bytes
  count : s.calls.length = n

theorem start_sentWhole (fresh : Nat → UInt8) : SentWhole (start fresh) 0 := ⟨start_resting fresh, rfl, rfl⟩

theorem SentWhole.reconnect (fresh : Nat → UInt8) {s : ClientSend} {n : Nat} (h : s.SentWhole n) :
    ∃ t, step fresh s .reconnect = .ok t ∧ t.SentWhole n :=
  ⟨_, (h.rest.reconnect fresh).1, (h.rest.reconnect fresh).2, h.pieces, h.count⟩

/-- A `Send` that goes out in one buffer breaks nothing off, whatever `uv_write` returns. -/
theorem SentWhole.send (fresh : Nat → UInt8) (ok : Submission → Bool) {s : ClientSend} {n : Nat} (h : s.SentWhole n)
    {data : List UInt8} (hne : data ≠ []) (hlen : data.length ≤ bufferSize) (iret : Int) :
    let es := sendAndRead n data ++ [.uvWrite iret 0, .drain]
    (∃ t, run (step fresh) s es = .ok t ∧ t.SentWhole (n + 1)) ∧ Along (step fresh) SingleThread s es ∧
      Along (step fresh) (Unbroken ok) s es := by
  obtain ⟨hrest, hpieces, rfl⟩ := h
  obtain ⟨t, hrun, ht, hsub, hpay, -⟩ := hrest.submitOnce fresh hne hlen iret
  obtain ⟨ring, params, id, m, -, -, h₁⟩ := hrest.sendAndRead fresh hne hlen
  refine ⟨⟨t, hrun, ht, ?_, ?_⟩, ⟨hrest.calls, fun t _ => Along.of_forall (by simp [SingleThread]) t⟩, ?_⟩
  · rw [hpay, hsub, hpieces, List.map_append]
    rfl
  · have hlength := congrArg List.length hpay
    rwa [payloads, payloads, List.length_append, List.length_map, List.length_map] at hlength
  · refine Along.append (Along.of_forall (by simp [sendAndRead, Unbroken]) s) h₁ ⟨?_, fun t _ => ⟨trivial, fun _ _ => trivial⟩⟩
    apply unbroken_of_pieces
    calc (s.calls ++ [SendCall.mk data data.length (.done m)]).map SendCall.data
        = s.payloads ++ [data] := by rw [List.map_append]; rfl
      _ = s.submitted.map Submission.bytes ++ [data] := by rw [hpieces]

end ClientSend

/-- Of four payloads, the second fails, the client reconnects, and the third fails too. -/
def brokenConnection : List ClientEvent :=
  sendOnce 0 [1] ++ (sendInVain 1 [2] ++ (.reconnect :: (sendInVain 2 [3] ++ sendOnce 3 [4])))

theorem brokenConnection_valid : ∀ e ∈ brokenConnection, e.Valid := by
  have h₀ : ∀ e ∈ sendOnce 0 [1], e.Valid := sendOnce_valid 0 (by decide)
  have h₁ : ∀ e ∈ sendInVain 1 [2], e.Valid := sendInVain_valid 1 (by decide)
  have h₂ : ∀ e ∈ sendInVain 2 [3], e.Valid := sendInVain_valid 2 (by decide)
  have h₃ : ∀ e ∈ sendOnce 3 [4], e.Valid := sendOnce_valid 3 (by decide)
  simp only [brokenConnection, List.forall_mem_append, List.forall_mem_cons]
  exact ⟨h₀, h₁, trivial, h₂, h₃⟩

theorem brokenConnection_along : Along (step fun _ => 0) SingleThread (start fun _ => 0) brokenConnection ∧
    Along (step fun _ => 0) (Unbroken Submission.taken) (start fun _ => 0) brokenConnection := by
  have hne : ∀ a : UInt8, [a] ≠ [] := fun a => List.cons_ne_nil a []
  obtain ⟨⟨s₁, hrun₁, h₁⟩, hsingle₁, hunbroken₁⟩ := (start_sentWhole fun _ => 0).send _ Submission.taken (hne 1) (by decide) 0
  obtain ⟨⟨s₂, hrun₂, h₂⟩, hsingle₂, hunbroken₂⟩ := h₁.send (fun _ => 0) Submission.taken (hne 2) (by decide) (-1)
  obtain ⟨s₃, hs₃, h₃⟩ := h₂.reconnect fun _ => 0
  obtain ⟨⟨s₄, hrun₄, h₄⟩, hsingle₄, hunbroken₄⟩ := h₃.send (fun _ => 0) Submission.taken (hne 3) (by decide) (-1)
  obtain ⟨-, hsingle₅, hunbroken₅⟩ := h₄.send (fun _ => 0) Submission.taken (hne 4) (by decide) 0
  exact ⟨hsingle₁.append hrun₁ (hsingle₂.append hrun₂ (.cons hs₃ trivial (hsingle₄.append hrun₄ hsingle₅))),
    hunbroken₁.append hrun₁ (hunbroken₂.append hrun₂ (.cons hs₃ trivial (hunbroken₄.append hrun₄ hunbroken₅)))⟩

theorem frames_stay_whole_broken :
    ∃ s, run (step fun _ => 0) (start fun _ => 0) brokenConnection = .ok s ∧
      ∀ k, Whole s.payloads (s.stream Submission.taken k) :=
  frames_stay_whole (fun _ => 0) Submission.taken brokenConnection brokenConnection_valid brokenConnection_along.1
    brokenConnection_along.2

/-! The run in which the first piece of a payload fails. -/

/-- One byte more than the ring holds, and unlike the others. -/
def twoPieces : List UInt8 := List.replicate bufferSize 0 ++ [1]

/-- `Send` up to its first locked section. -/
def sendFirst : List ClientEvent := [.send (some twoPieces), .call 0, .call 0]

/-- The section; the loop drains the ring, and `uv_write` fails. Then `Send` goes on to its
second section; the last byte is drained and taken. -/
def halfRun : List ClientEvent :=
  sendFirst ++ ([.call 0, .async, .asyncTest] ++ (.drain :: .uvWrite (-1) 0 :: ([.call 0] ++ [.call 0, .drain, .uvWrite 0 0])))

theorem halfRun_valid : ∀ e ∈ halfRun, e.Valid := by
  have hmax : twoPieces.length < 2 ^ 64 := by
    rw [twoPieces, List.length_append, List.length_replicate]
    decide
  simp only [halfRun, sendFirst, List.cons_append, List.nil_append, List.forall_mem_cons]
  exact ⟨hmax, by simp [ClientEvent.Valid]⟩

theorem halfRun_singleThread : Along (step fun _ => 0) SingleThread (start fun _ => 0) halfRun := by
  refine ⟨nofun, fun s _ => ?_⟩
  exact Along.of_forall (by simp [SingleThread]) s

/-- Its end: the connection has only got the last byte of the payload. -/
theorem halfRun_end :
    ∃ s bytes, run (step fun _ => 0) (start fun _ => 0) halfRun = .ok s ∧ s.payloads = [twoPieces] ∧
      s.submitted = [⟨0, bytes, -1, 0⟩, ⟨0, [1], 0, 0⟩] := by
  have hlen : twoPieces.length = bufferSize + 1 := by rw [twoPieces, List.length_append, List.length_replicate]; rfl
  have hmax : twoPieces.length ≤ intMax := by rw [hlen]; decide
  have hp₀ := start_piped fun _ => 0
  -- The call fills the ring.
  have h₁ : run (step fun _ => 0) (start fun _ => 0) sendFirst =
      .ok { start (fun _ => 0) with calls := [⟨twoPieces, 0, .write⟩], asyncPending := true } := rfl
  have hp₁ := hp₀.run (fun e he => halfRun_valid e (List.mem_append_left _ he)) h₁
  obtain ⟨sent, hsent⟩ : ∃ sent, sent = (twoPieces.drop 0).take (bufferSize - 0) := ⟨_, rfl⟩
  have hn : sent.length = bufferSize := by
    rw [hsent, List.length_take, List.drop_zero, hlen]
    omega
  obtain ⟨ring₂, hring₂, h₂⟩ := hp₁.write_short (i := 0) (fun _ => 0) rfl hmax hsent
  have hcalls₂ : [SendCall.mk twoPieces 0 .write].set 0 ⟨twoPieces, 0 + sent.length,
      if 0 + sent.length < twoPieces.length then .test else .signalLast⟩ = [⟨twoPieces, bufferSize, .test⟩] := by
    rw [hn, hlen, Nat.zero_add, if_pos (Nat.lt_succ_self _)]
    rfl
  simp only [hcalls₂] at h₂
  -- The loop drains it, in vain.
  have h₃ := (run_cons h₂ [.async, .asyncTest]).trans rfl
  have hp₃ := hp₁.run (by simp [ClientEvent.Valid]) h₃
  have hne₃ : ring₂.contents ≠ [] := by
    intro hnil
    rw [hring₂, List.append_eq_nil_iff] at hnil
    rw [hnil.2] at hn
    cases hn
  obtain ⟨ring₄, params₄, id₄, hring₄, h₄, hpass₄⟩ := hp₃.drain (fun _ => 0) rfl hne₃
  have hp₄ := hp₃.next (e := .drain) trivial h₄
  have h₅ := hp₄.uvWrite_fails (fun _ => 0) rfl (show (-1 : Int) ≠ 0 by decide) 0
  -- The call writes its last byte, and that is taken.
  have h₆ := (run_cons h₅ [.call 0]).trans rfl
  have hp₆ := hp₄.run (by simp [ClientEvent.Valid]) h₆
  have hdrop : twoPieces.drop bufferSize = [1] := List.drop_left' List.length_replicate
  obtain ⟨ring₇, hring₇, h₇⟩ := hp₆.write_short (i := 0) (fun _ => 0) rfl hmax
    (show [1] = List.take _ _ by simp only [hring₄, hdrop]; rfl)
  have hp₇ := hp₆.next (e := .call 0) trivial h₇
  have hring₇' : ring₇.contents = [1] := by rw [hring₇, hring₄]; rfl
  obtain ⟨ring₈, params₈, id₈, -, h₈, hpass₈⟩ := hp₇.drain (fun _ => 0) rfl (by simp only [hring₇']; simp)
  have hp₈ := hp₇.next (e := .drain) trivial h₈
  have h₉ := hp₈.uvWrite (fun _ => 0) rfl 0
  simp only [hpass₈, hring₇'] at h₉
  have hrun : run (step fun _ => 0) (start fun _ => 0) halfRun = _ :=
    (run_append h₁).trans ((run_append h₃).trans ((run_cons h₄ _).trans ((run_append h₆).trans
      ((run_cons h₇ _).trans ((run_cons h₈ _).trans (run_cons h₉ []))))))
  exact ⟨_, _, hrun.trans rfl, rfl, rfl⟩

theorem not_whole_last : ¬ Whole [twoPieces] [1] := by
  rintro ⟨ws, hsub, t, ht⟩
  rcases List.sublist_cons_iff.1 hsub with hnil | ⟨r, rfl, hr⟩
  · rw [List.sublist_nil.1 hnil] at ht
    cases ht
  · have hfirst := congrArg (fun l : List UInt8 => l[0]?) ht
    cases hfirst

theorem frames_stay_whole_fails :
    ¬ ∃ ok, (ok = Submission.taken ∨ ok = Submission.sent) ∧
      ∀ es, (∀ e ∈ es, e.Valid) → Along (step fun _ => 0) SingleThread (start fun _ => 0) es →
        ∀ s, run (step fun _ => 0) (start fun _ => 0) es = .ok s → ∀ k, Whole s.payloads (s.stream ok k) := by
  rintro ⟨ok, hok, hall⟩
  obtain ⟨s, bytes, hrun, hpay, hsub⟩ := halfRun_end
  have hwhole := hall halfRun halfRun_valid halfRun_singleThread s hrun 0
  have hstream : s.stream ok 0 = [1] := by
    rw [stream, hsub]
    rcases hok with rfl | rfl <;> rfl
  rw [hpay, hstream] at hwhole
  exact not_whole_last hwhole

end Uvnet

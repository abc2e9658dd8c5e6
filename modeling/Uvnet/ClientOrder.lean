import Uvnet.ClientFrames
import Uvnet.PayloadOrder

/- The connections of a client, one after another.

   A client goes on sending on its next connection from where its ring is. In the runs in
   which the stream of each connection is made of whole payloads (`GoesOn`), all of them
   together are: what reached one connection, even in part, is never sent on another
   (`payloads_sent_once`).

   1. `ClosedUpTo`: the streams before the last one with a byte are closed, and those behind
      it are empty; a submission on a later connection closes them all (`ClosedUpTo.reopen`).
   2. `Ordered`: what a step keeps. -/
namespace Uvnet
open CMachine SharedQueue StepRun PayloadCut

namespace ClientSend

/-- Nothing was submitted with success on a connection behind `k`. -/
def NoneBehind (ok : Submission → Bool) (s : ClientSend) (k : Nat) : Prop :=
  ∀ sub ∈ s.submitted, ok sub = true → sub.conn ≤ k

/-- The streams of the first connections. -/
def streams (ok : Submission → Bool) (s : ClientSend) (n : Nat) : List (List UInt8) := (List.range n).map (s.stream ok)

/-- The streams before the connection `k` are closed, its own is open, and those behind it are
empty. -/
structure ClosedUpTo (ok : Submission → Bool) (s : ClientSend) (k : Nat) : Prop where
  le : k ≤ s.conn
  none : s.NoneBehind ok k
  cut : CutEach s.payloads s.handed (s.streams ok k) (s.stream ok k) (s.reached ok k)

section Order
variable {fresh : Nat → UInt8} {ok : Submission → Bool} {s s' : ClientSend} {l : Line UInt8 bufferSize} {k n : Nat}

theorem streams_succ (ok : Submission → Bool) (s : ClientSend) (n : Nat) :
    s.streams ok (n + 1) = s.streams ok n ++ [s.stream ok n] := by
  rw [streams, List.range_succ, List.map_append]
  rfl

theorem NoneBehind.filter (h : s.NoneBehind ok k) (hlt : k < n) : s.submitted.filter (onConn ok n) = [] := by
  rw [List.filter_eq_nil_iff]
  intro sub hsub hon
  unfold onConn at hon
  rw [Bool.and_eq_true, beq_iff_eq] at hon
  have := h sub hsub hon.2
  omega

theorem NoneBehind.stream (h : s.NoneBehind ok k) (hlt : k < n) : s.stream ok n = [] := by
  rw [ClientSend.stream, h.filter hlt]
  rfl

theorem reachedBy_none {p : Submission → Bool} {subs : List Submission} (h : subs.filter p = []) :
    (reachedBy p subs).2 = 0 := by
  induction subs using List.reverseRecOn with
  | nil => rfl
  | append_singleton subs sub ih =>
    rw [List.filter_append, List.append_eq_nil_iff] at h
    have hp : p sub = false := by simpa using h.2
    rw [reachedBy_append, hp]
    exact ih h.1

theorem NoneBehind.reached (h : s.NoneBehind ok k) (hlt : k < n) : s.reached ok n = 0 := reachedBy_none (h.filter hlt)

theorem NoneBehind.streams (h : s.NoneBehind ok k) :
    ∀ n, s.streams ok (k + 1 + n) = s.streams ok k ++ [s.stream ok k] ++ List.replicate n []
  | 0 => by
    rw [List.replicate_zero, List.append_nil]
    exact streams_succ ok s k
  | n + 1 => by
    have hempty : s.stream ok (k + 1 + n) = [] := h.stream (by omega)
    rw [← Nat.add_assoc, streams_succ, h.streams n, hempty, List.append_assoc, ← List.replicate_succ']

theorem ClosedUpTo.frame (h : s.ClosedUpTo ok k) (hsub : s'.submitted = s.submitted) {more : List (List UInt8)}
    (hpay : s'.payloads = s.payloads ++ more) (hconn : s.conn ≤ s'.conn) : s'.ClosedUpTo ok k where
  le := Nat.le_trans h.le hconn
  none := by
    unfold NoneBehind
    rw [hsub]
    exact h.none
  cut := by
    have hstream : s'.stream ok = s.stream ok := by
      funext n
      rw [ClientSend.stream, ClientSend.stream, hsub]
    rw [hpay, handed, ClientSend.streams, hstream, ClientSend.reached, hsub]
    exact h.cut.extend more

/-- Where the buffers end with a payload, the streams up to a later connection are closed. -/
theorem ClosedUpTo.reopen (h : s.ClosedUpTo ok k) (hhanded : s.handed <+: s.payloads.flatten)
    (hend : PayloadEnd s.payloads s.handed.length) (hlt : k < n) :
    CutEach s.payloads s.handed (s.streams ok n) [] s.handed.length := by
  obtain ⟨d, rfl⟩ := Nat.exists_eq_add_of_le hlt
  rw [h.none.streams d]
  exact h.cut.closeAll hhanded hend d

theorem ClosedUpTo.open (h : s.ClosedUpTo ok k) (hhanded : s.handed <+: s.payloads.flatten)
    (hgo : s.reached ok s.conn = s.handed.length ∨
      (PayloadEnd s.payloads (s.reached ok s.conn) ∧ PayloadEnd s.payloads s.handed.length)) (piece : List UInt8) :
    CutEach s.payloads (s.handed ++ piece) (s.streams ok s.conn) (s.stream ok s.conn ++ piece)
      (s.handed ++ piece).length := by
  rcases Nat.lt_or_ge k s.conn with hlt | hge
  · -- The first on its connection: what was handed over so far ends with a payload.
    have hend : PayloadEnd s.payloads s.handed.length := by
      rcases hgo with hnone | ⟨-, hend⟩
      · refine ⟨0, ?_⟩
        rw [← hnone, h.none.reached hlt]
        rfl
      · exact hend
    rw [h.none.stream hlt]
    exact (h.reopen hhanded hend hlt).push hhanded (.inl rfl) piece
  · obtain rfl : k = s.conn := Nat.le_antisymm h.le hge
    exact h.cut.push hhanded hgo piece

theorem ClosedUpTo.submit (h : s.ClosedUpTo ok k) (hhanded : s.handed <+: s.payloads.flatten) {sub : Submission}
    (hsconn : sub.conn = s.conn)
    (hgo : ok sub = true → s.reached ok s.conn = s.handed.length ∨
      (PayloadEnd s.payloads (s.reached ok s.conn) ∧ PayloadEnd s.payloads s.handed.length))
    (hsub : s'.submitted = s.submitted ++ [sub]) (hpay : s'.payloads = s.payloads) (hconn : s'.conn = s.conn) :
    ∃ k', s'.ClosedUpTo ok k' := by
  have hhanded' : s'.handed = s.handed ++ sub.bytes := by simp [handed, hsub]
  have hall : ∀ n, (reachedBy (onConn ok n) s.submitted).1 = s.handed.length := fun n => reachedBy_fst _ _
  -- A stream gets the piece if it is the connection's, and the piece counts.
  have hstream : ∀ n, onConn ok n sub = false → s'.stream ok n = s.stream ok n := by
    intro n hno
    rw [ClientSend.stream, ClientSend.stream, hsub, List.filter_append, List.flatMap_append]
    simp [hno]
  have hothers : ∀ n, n ≤ sub.conn → s'.streams ok n = s.streams ok n := by
    intro n hn
    refine List.map_congr_left fun m hm => hstream m ?_
    have hne : sub.conn ≠ m := by
      have := List.mem_range.1 hm
      omega
    simp [onConn, hne]
  cases hok : ok sub with
  | false =>
    have hno : ∀ n, onConn ok n sub = false := by
      intro n
      simp [onConn, hok]
    refine ⟨k, by rw [hconn]; exact h.le, ?_, ?_⟩
    · intro x hx hxok
      rw [hsub] at hx
      rcases List.mem_append.1 hx with hx | hx
      · exact h.none x hx hxok
      · rw [List.mem_singleton.1 hx, hok] at hxok
        cases hxok
    · have hsame : s'.streams ok k = s.streams ok k := hothers k (hsconn ▸ h.le)
      have hreached : s'.reached ok k = s.reached ok k := by
        rw [ClientSend.reached, hsub, reachedBy_append, hno k]
        rfl
      rw [hpay, hhanded', hsame, hstream k (hno k), hreached]
      exact h.cut.skip sub.bytes
  | true =>
    have hon : onConn ok s.conn sub = true := by simp [onConn, hok, hsconn]
    refine ⟨s.conn, Nat.le_of_eq hconn.symm, ?_, ?_⟩
    · intro x hx hxok
      rw [hsub] at hx
      rcases List.mem_append.1 hx with hx | hx
      · exact Nat.le_trans (h.none x hx hxok) h.le
      · rw [List.mem_singleton.1 hx, hsconn]
    · have hlast : s'.stream ok s.conn = s.stream ok s.conn ++ sub.bytes := by
        rw [ClientSend.stream, ClientSend.stream, hsub, List.filter_append, List.flatMap_append]
        simp [hon]
      have hreached : s'.reached ok s.conn = (s.handed ++ sub.bytes).length := by
        rw [ClientSend.reached, hsub, reachedBy_append, if_pos hon, hall, List.length_append]
      rw [hpay, hhanded', hothers _ (Nat.le_of_eq hsconn.symm), hlast, hreached]
      exact h.open hhanded (hgo hok) sub.bytes

/-- Everything the property rests on. -/
structure Ordered (ok : Submission → Bool) (s : ClientSend) : Prop where
  framed : Framed ok s
  closed : ∃ k, s.ClosedUpTo ok k

/-- **Every step** that may be taken keeps the streams in order. -/
theorem Ordered.step (h : Ordered ok s) {e : ClientEvent} (he : e.Valid) (hsingle : s.SingleThread e) (hgo : s.GoesOn ok e)
    (hs : step fresh s e = .ok s') : Ordered ok s' := by
  refine ⟨h.framed.step he hsingle hgo hs, ?_⟩
  obtain ⟨l, hinv⟩ := h.framed.piped
  obtain ⟨k, hclosed⟩ := h.closed
  obtain ⟨hle, hsame⟩ := step_conn hinv hs
  cases step_effect hinv hs with
  | enter data => exact ⟨k, hclosed.frame rfl (by rw [payloads, List.map_append]; rfl) hle⟩
  | call hi hs' =>
    obtain ⟨hsub, hpay⟩ := sendStep_frame hi hs'
    exact ⟨k, hclosed.frame hsub (hpay.trans (List.append_nil _).symm) hle⟩
  | submit hpc hcalls hacc hclosed' hsub =>
    refine hclosed.submit (handed_front hinv h.framed.order) rfl ?_ hsub ?_ (hsame ⟨_, _, rfl⟩)
    · exact hgo _ hpc
    · rw [payloads, hcalls]
      rfl
  | other hunmoved =>
    have hpay : s'.payloads = s.payloads ++ [] := by
      rw [payloads, hunmoved.calls]
      exact (List.append_nil _).symm
    exact ⟨k, hclosed.frame hunmoved.submitted hpay hle⟩

theorem start_ordered (ok : Submission → Bool) (fresh : Nat → UInt8) : Ordered ok (start fresh) where
  framed := start_framed ok fresh
  closed := ⟨0, Nat.le_refl 0, nofun, .start⟩

theorem Ordered.wholeEach (h : Ordered ok s) : WholeEach s.payloads (s.streams ok (s.conn + 1)) := by
  obtain ⟨l, hinv⟩ := h.framed.piped
  obtain ⟨k, hclosed⟩ := h.closed
  obtain ⟨d, hd⟩ := Nat.exists_eq_add_of_le hclosed.le
  rw [hd, Nat.add_right_comm, hclosed.none.streams d]
  exact (hclosed.cut.wholeEach (handed_front hinv h.framed.order)).append_nil d

end Order

end ClientSend

open ClientSend

/-! A `Send` of a client at rest. -/

namespace ClientSend

section Rest
variable {s : ClientSend} {data : List UInt8}

theorem Resting.sendOnce_along (fresh : Nat → UInt8) (ok : Submission → Bool) (h : s.Resting) (hne : data ≠ []) (hlen : data.length ≤ bufferSize)
    (hgo : s.reached ok s.conn = s.handed.length ∨ (PayloadEnd (s.payloads ++ [data]) (s.reached ok s.conn) ∧
      PayloadEnd (s.payloads ++ [data]) s.handed.length)) :
    Along (step fresh) SingleThread s (ClientSend.sendOnce s.calls.length data) ∧
      Along (step fresh) (GoesOn ok) s (ClientSend.sendOnce s.calls.length data) := by
  refine ⟨⟨h.calls, fun t _ => ?_⟩, ?_⟩
  · exact Along.of_forall (by simp [SingleThread]) t
  · obtain ⟨ring, params, id, n, hring, hpass, h₁⟩ := h.sendAndRead fresh hne hlen
    have hpay : (s.calls ++ [SendCall.mk data data.length (.done n)]).map SendCall.data = s.payloads ++ [data] := by
      rw [List.map_append]
      rfl
    refine Along.append (Along.of_forall (by simp [ClientSend.sendAndRead, GoesOn]) s) h₁ ⟨?_, fun t _ => ?_⟩
    · intro id' _ _
      unfold payloads
      rw [hpay]
      exact hgo
    · exact Along.of_forall (by simp [GoesOn]) t

end Rest

end ClientSend

/-- Two payloads, each on its own connection. -/
def twoConnections : List ClientEvent := sendOnce 0 [1] ++ .reconnect :: sendOnce 1 [2]

theorem twoConnections_valid : ∀ e ∈ twoConnections, e.Valid := by
  intro e he
  rcases List.mem_append.1 he with he | he
  · exact sendOnce_valid 0 (by decide) e he
  rcases List.mem_cons.1 he with rfl | he
  · exact trivial
  · exact sendOnce_valid 1 (by decide) e he

theorem twoConnections_along : Along (step fun _ => 0) SingleThread (start fun _ => 0) twoConnections ∧
    Along (step fun _ => 0) (GoesOn Submission.taken) (start fun _ => 0) twoConnections := by
  have h₀ := start_resting fun _ => 0
  have hne : [(1 : UInt8)] ≠ [] ∧ [(2 : UInt8)] ≠ [] := by simp
  obtain ⟨t, hrun, ht, hsub, hpay, hconn⟩ := h₀.sendOnce (fun _ => 0) hne.1 (by decide)
  have hfirst := h₀.sendOnce_along (fun _ => 0) Submission.taken hne.1 (by decide) (.inl rfl)
  obtain ⟨hs, hr⟩ := ht.reconnect fun _ => 0
  have hcalls : t.calls.length = 1 := by
    have hlen := congrArg List.length hpay
    rwa [payloads, List.length_map] at hlen
  -- The second connection begins behind the first payload.
  have hgo : PayloadEnd (t.payloads ++ [[2]]) (t.reached Submission.taken (t.conn + 1)) ∧
      PayloadEnd (t.payloads ++ [[2]]) t.handed.length := by
    rw [hpay, ClientSend.reached, handed, hsub, hconn]
    exact ⟨⟨0, rfl⟩, ⟨1, rfl⟩⟩
  have hsecond := hr.sendOnce_along (fun _ => 0) Submission.taken hne.2 (by decide) (.inr hgo)
  simp only [hcalls] at hsecond
  exact ⟨hfirst.1.append hrun (.cons hs trivial hsecond.1), hfirst.2.append hrun (.cons hs trivial hsecond.2)⟩

/-! **No payload is sent twice**, on one connection or on two: the streams of all connections of a
client, in order, are whole payloads in order, each stream but for the end of its last. -/

theorem payloads_sent_once (fresh : Nat → UInt8) (ok : Submission → Bool) (es : List ClientEvent) (hes : ∀ e ∈ es, e.Valid)
    (hsingle : Along (step fresh) SingleThread (start fresh) es) (hgo : Along (step fresh) (GoesOn ok) (start fresh) es) :
    ∃ s, run (step fresh) (start fresh) es = .ok s ∧ WholeEach s.payloads (s.streams ok (s.conn + 1)) := by
  have hstep : ∀ s e, Ordered ok s → (e.Valid ∧ s.SingleThread e) ∧ s.GoesOn ok e →
      ∃ s', step fresh s e = .ok s' ∧ Ordered ok s' := by
    rintro s e h ⟨⟨he, hone⟩, hgo⟩
    obtain ⟨l, hinv⟩ := h.framed.piped
    obtain ⟨s', hs, -⟩ := step_refines fresh hinv he
    exact ⟨s', hs, h.step he hone hgo hs⟩
  obtain ⟨s, hrun, h⟩ := run_total hstep (start_ordered ok fresh)
    (((Along.of_forall (fun e he _ => hes e he) _).and hsingle).and hgo)
  exact ⟨s, hrun, h.wholeEach⟩

theorem payloads_sent_once_twice :
    ∃ s, run (step fun _ => 0) (start fun _ => 0) twoConnections = .ok s ∧
      WholeEach s.payloads (s.streams Submission.taken (s.conn + 1)) :=
  payloads_sent_once (fun _ => 0) Submission.taken twoConnections twoConnections_valid twoConnections_along.1
    twoConnections_along.2

end Uvnet

import Uvnet.ClientPipe

/- A client at rest, and one `Send` of it that goes out in one buffer.

   `Resting.submitOnce` says what a `Send` that fits the empty ring comes to, with no other
   thread at work, when `uv_write` takes its data and when it does not. -/
namespace Uvnet
open CMachine ObjectPool BoundedQueue SharedQueue StepRun

namespace ClientSend

/-- What `Send` was called with. -/
def payloads (s : ClientSend) : List (List UInt8) := s.calls.map SendCall.data

/-- All calls have returned, the ring is empty, and the loop waits for its next callback. -/
structure Resting (s : ClientSend) : Prop where
  piped : Piped s
  pc : s.pc = .idle
  ring : s.ring.contents = []
  calls : ∀ c ∈ s.calls, ∃ n, c.pc = .done n
  userClosed : s.isUserClosed = false
  closing : s.handlesClosing = false

theorem start_resting (fresh : Nat → UInt8) : Resting (start fresh) where
  piped := start_piped fresh
  pc := rfl
  ring := (start_inv fresh).contents
  calls := by simp [start]
  userClosed := rfl
  closing := rfl

/-- The call of `Send` with the index `i`, up to its return; the loop takes up the signal and
reads what the call has written. -/
def sendAndRead (i : Nat) (data : List UInt8) : List ClientEvent :=
  [.send (some data), .call i, .call i, .call i, .call i, .async, .asyncTest, .drain]

/-- The same, and the loop gives it to `uv_write`. -/
def sendOnce (i : Nat) (data : List UInt8) : List ClientEvent := sendAndRead i data ++ [.uvWrite 0 0, .drain]

/-- The same, and `uv_write` returns an error. -/
def sendInVain (i : Nat) (data : List UInt8) : List ClientEvent := sendAndRead i data ++ [.uvWrite (-1) 0, .drain]

section Rest
variable {s : ClientSend} {data : List UInt8}

theorem Resting.reconnect (fresh : Nat → UInt8) (h : s.Resting) : step fresh s .reconnect = .ok { s with conn := s.conn + 1 } ∧
    Resting { s with conn := s.conn + 1 } := by
  have hs : step fresh s .reconnect = .ok { s with conn := s.conn + 1 } := by
    simp only [step, h.pc, h.closing, and_self, if_true, pure_ok]
  exact ⟨hs, h.piped.next (e := .reconnect) trivial hs, h.pc, h.ring, h.calls, h.userClosed, h.closing⟩

theorem Piped.drain_empty (fresh : Nat → UInt8) (h : Piped s) (hpc : s.pc = .send) (hnil : s.ring.contents = []) :
    step fresh s .drain = .ok { s with pc := .idle } := by
  obtain ⟨l, hl⟩ := h
  have hempty : s.ring.empty = true := by
    rw [PodCircularBuffer.empty_spec hl.models.ring, ← hl.contents, hnil]
    rfl
  simp only [step, if_pos hpc, ClientSend.drain, if_pos hempty, pure_ok]

theorem sendAndRead_valid (i : Nat) (hlen : data.length ≤ bufferSize) : ∀ e ∈ sendAndRead i data, e.Valid := by
  have hmax : data.length < 2 ^ 64 := Nat.lt_of_le_of_lt hlen (by decide)
  simp only [sendAndRead, List.forall_mem_cons]
  exact ⟨hmax, by simp [ClientEvent.Valid]⟩

theorem sendOnce_valid (i : Nat) (hlen : data.length ≤ bufferSize) : ∀ e ∈ sendOnce i data, e.Valid :=
  List.forall_mem_append.2 ⟨sendAndRead_valid i hlen, by simp [ClientEvent.Valid]⟩

theorem sendInVain_valid (i : Nat) (hlen : data.length ≤ bufferSize) : ∀ e ∈ sendInVain i data, e.Valid :=
  List.forall_mem_append.2 ⟨sendAndRead_valid i hlen, by simp [ClientEvent.Valid]⟩

theorem Resting.sendAndRead (fresh : Nat → UInt8) (h : s.Resting) (hne : data ≠ []) (hlen : data.length ≤ bufferSize) :
    ∃ ring params id n, ring.contents = [] ∧
      passing { s with ring := ring, params := params, pc := .submit id } = data ∧
      run (step fresh) s (sendAndRead s.calls.length data) = .ok { s with
        ring := ring
        params := params
        asyncPending := false
        pc := .submit id
        accepted := s.accepted ++ [(s.calls.length, data)]
        calls := s.calls ++ [⟨data, data.length, .done n⟩] } := by
  have hbs : bufferSize ≤ intMax := by decide
  have hget : ∀ c : SendCall, (s.calls ++ [c])[s.calls.length]? = some c := by simp
  have hset : ∀ c c' : SendCall, (s.calls ++ [c]).set s.calls.length c' = s.calls ++ [c'] := by
    intro c c'
    rw [List.set_append_right _ _ (Nat.le_refl _), Nat.sub_self]
    rfl
  have henter : SendCall.enter (some data) = ⟨data, 0, .signal⟩ := by
    cases data with
    | nil => exact absurd rfl hne
    | cons a rest => rfl
  have hvalid := sendAndRead_valid s.calls.length hlen
  -- The call comes to its locked section, and writes its data.
  have h₁ : run (step fresh) s [.send (some data), .call s.calls.length, .call s.calls.length] = .ok { s with
      calls := s.calls ++ [⟨data, 0, .write⟩], asyncPending := true } := by
    simp only [run, step, henter, hget, sendStep, hset, h.userClosed, pure_ok, Bool.false_eq_true, if_false]
  have hp₁ := h.piped.run (fun e he => hvalid e (List.mem_of_mem_take (i := 3) he)) h₁
  have hsent : data = (data.drop 0).take (bufferSize - s.ring.contents.length) := by
    rw [h.ring, List.drop_zero, List.length_nil, Nat.sub_zero, List.take_of_length_le hlen]
  obtain ⟨ring, hring, h₂⟩ := hp₁.write_short fresh (hget _) (Nat.le_trans hlen hbs) hsent
  simp only [hset, Nat.zero_add, Nat.lt_irrefl, if_false] at h₂
  have hp₂ := hp₁.next (e := .call s.calls.length) trivial h₂
  have hdata : ring.contents = data := by rw [hring, h.ring, List.nil_append]
  -- It returns, and the loop comes to its own.
  have h₃ : run (step fresh) { s with
        ring := ring
        asyncPending := true
        accepted := s.accepted ++ [(s.calls.length, data)]
        calls := s.calls ++ [⟨data, data.length, .signalLast⟩] } [.call s.calls.length, .async, .asyncTest] =
      .ok { s with
        ring := ring
        asyncPending := false
        pc := .send
        accepted := s.accepted ++ [(s.calls.length, data)]
        calls := s.calls ++ [⟨data, data.length, .done (toInt data.length)⟩] } := by
    simp only [run, step, hget, sendStep, hset, h.pc, h.closing, h.userClosed, and_self, if_true, pure_ok,
      Bool.false_eq_true, if_false]
  have hp₃ := hp₂.run (by simp [ClientEvent.Valid]) h₃
  obtain ⟨ring₄, params₄, id, hring₄, h₄, hpass⟩ := hp₃.drain fresh rfl (by rw [hdata]; exact hne)
  refine ⟨ring₄, params₄, id, toInt data.length, hring₄, hpass.trans hdata, ?_⟩
  exact (run_append h₁).trans ((run_cons h₂ _).trans ((run_append h₃).trans (run_cons h₄ [])))

theorem Resting.leave (fresh : Nat → UInt8) (h : s.Resting) {t : ClientSend} (hp : Piped t) (hpc : t.pc = .send)
    (hring : t.ring.contents = []) {n : Int} (hcalls : t.calls = s.calls ++ [⟨data, data.length, .done n⟩])
    (huser : t.isUserClosed = s.isUserClosed) (hclosing : t.handlesClosing = s.handlesClosing) :
    step fresh t .drain = .ok { t with pc := .idle } ∧ Resting { t with pc := .idle } := by
  have hs := hp.drain_empty fresh hpc hring
  refine ⟨hs, hp.next (e := .drain) trivial hs, rfl, hring, ?_, huser.trans h.userClosed, hclosing.trans h.closing⟩
  intro c hc
  simp only [hcalls] at hc
  rcases List.mem_append.1 hc with hc | hc
  · exact h.calls c hc
  · rw [List.mem_singleton.1 hc]
    exact ⟨_, rfl⟩

/-- **A client at rest** gives the data to `uv_write` in one buffer, and is at rest again,
whatever `uv_write` returns. -/
theorem Resting.submitOnce (fresh : Nat → UInt8) (h : s.Resting) (hne : data ≠ []) (hlen : data.length ≤ bufferSize)
    (iret : Int) : ∃ t, run (step fresh) s (ClientSend.sendAndRead s.calls.length data ++ [.uvWrite iret 0, .drain]) = .ok t ∧
      t.Resting ∧ t.submitted = s.submitted ++ [⟨s.conn, data, iret, 0⟩] ∧ t.payloads = s.payloads ++ [data] ∧ t.conn = s.conn := by
  obtain ⟨ring, params, id, n, hring, hpass, h₁⟩ := h.sendAndRead fresh hne hlen
  have hp₁ := h.piped.run (sendAndRead_valid s.calls.length hlen) h₁
  have hpay : (s.calls ++ [SendCall.mk data data.length (.done n)]).map SendCall.data = s.payloads ++ [data] := by
    rw [List.map_append]
    rfl
  by_cases hret : iret = 0
  · subst hret
    have h₂ := hp₁.uvWrite fresh rfl 0
    have hp₂ := hp₁.next (e := .uvWrite 0 0) trivial h₂
    obtain ⟨h₃, hrest⟩ := h.leave fresh hp₂ rfl hring rfl rfl rfl
    refine ⟨_, (run_append h₁).trans ((run_cons h₂ _).trans (run_cons h₃ [])), hrest, ?_, hpay, rfl⟩
    exact congrArg (fun bytes => s.submitted ++ [Submission.mk s.conn bytes 0 0]) hpass
  · have h₂ := hp₁.uvWrite_fails fresh rfl hret 0
    have hp₂ := hp₁.next (e := .uvWrite iret 0) trivial h₂
    obtain ⟨h₃, hrest⟩ := h.leave fresh hp₂ rfl hring rfl rfl rfl
    refine ⟨_, (run_append h₁).trans ((run_cons h₂ _).trans (run_cons h₃ [])), hrest, ?_, hpay, rfl⟩
    exact congrArg (fun bytes => s.submitted ++ [Submission.mk s.conn bytes iret 0]) hpass

theorem Resting.sendOnce (fresh : Nat → UInt8) (h : s.Resting) (hne : data ≠ []) (hlen : data.length ≤ bufferSize) :
    ∃ t, run (step fresh) s (sendOnce s.calls.length data) = .ok t ∧ t.Resting ∧
      t.submitted = s.submitted ++ [⟨s.conn, data, 0, 0⟩] ∧ t.payloads = s.payloads ++ [data] ∧ t.conn = s.conn :=
  h.submitOnce fresh hne hlen 0

end Rest

end ClientSend

end Uvnet

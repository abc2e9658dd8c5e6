import Uvnet.RecvLoop

/- Runs of `recvdata` calls on a fresh, started parser.

   1. `recvCalls_spec`: after any number of calls the callbacks made are the scanner's
      outputs on the bytes received, or some call overflowed an `int` and did not fit
      (`CallFits`).
   2. `recvCalls_refines`: where every call fits, the parser refines the reference scanner
      whatever the chunking.
   3. `callsFit_of_small`: streams of headers with `datalen` at most 2^30 in chunks of at most
      `BUFFER_SIZE` bytes always fit. -/
namespace Uvnet
open CMachine StreamScan

/-- The call with `chunk` after the bytes `received` stays inside `int`: bytes of an
unfinished frame and chunk together do, and so does every accepted header the scan visits. -/
structure CallFits (env : Env) (head tail : UInt8) (sc : Scanner UInt8 Frame)
    (received chunk : List UInt8) : Prop where
  sum : (sc.rest received).length + chunk.length ≤ intMax + (netPackageHeadlen + 1)
  headers : AllVisited sc (HeaderFits env head tail sc) (received ++ chunk)

/-- Every call of a run with `chunks` fits. -/
def CallsFit (env : Env) (head tail : UInt8) (sc : Scanner UInt8 Frame) (chunks : List (List UInt8)) : Prop :=
  ∀ before chunk after, chunks = before ++ chunk :: after → CallFits env head tail sc before.flatten chunk

/-- The parser after the bytes `received` and the callbacks `calls`: it has delivered what
the scanner moved over, and holds the rest. -/
structure Synced (env : Env) (head tail : UInt8) (s : PacketSync) (calls : List FullPacket)
    (received : List UInt8) : Prop where
  sound : Sound head tail s
  held : ∃ P, Held env head tail s P ∧
    Path (charScanner env head tail) received (calls.map FullPacket.frame) P ∧
    (s.parsetype = .parseNothing → P.length < netPackageHeadlen + 2)

section Run
variable {env : Env} {head tail : UInt8} {s : PacketSync} {calls : List FullPacket} {received : List UInt8}

theorem started_synced (env : Env) (head tail : UInt8) : Synced env head tail (started env head tail) [] [] where
  sound := started_sound env head tail
  held := ⟨[], .idle (started_idle env head tail), .refl _, fun _ => by decide⟩

theorem Synced.outputs (h : Synced env head tail s calls received) :
    calls.map FullPacket.frame = (charScanner env head tail).outputs received := by
  obtain ⟨P, hh, hp, hq⟩ := h.held
  have hnone : (charScanner env head tail).outputs P = [] := by
    cases ht : s.parsetype with
    | parseHead => exact Scanner.outputs_wait _ (hh.wait ht)
    | parseNothing => exact outputs_short P (hq ht)
  rw [hp.outputs, hnone, List.append_nil]

/-- A parser with more left over than a head and its header is inside a frame. -/
theorem Synced.in_frame (h : Synced env head tail s calls received)
    (hlong : netPackageHeadlen + 2 ≤ ((charScanner env head tail).rest received).length) :
    ∃ hdr X D, InFrame env head tail s hdr X D ∧ D.length < s.theNexPacket.len.toNat + 1 ∧
      (charScanner env head tail).rest received = head :: (hdr ++ D) := by
  obtain ⟨P, hh, hp, hq⟩ := h.held
  have hle : ((charScanner env head tail).rest P).length ≤ P.length := (Scanner.path_rest _ P).length_le
  rw [hp.rest] at hlong ⊢
  have hin : s.parsetype = .parseHead := by
    cases ht : s.parsetype with
    | parseHead => rfl
    | parseNothing =>
      have := hq ht
      omega
  rw [Scanner.rest_wait _ (hh.wait hin)]
  cases hh with
  | idle hi => rw [hi.parsetype] at hin; cases hin
  | @frame hdr X D hf hX hD => exact ⟨hdr, X, D, hf, hD, rfl⟩

theorem Synced.overflow {chunk : List UInt8} (hd : chunk.length ≤ intMax) (h : Synced env head tail s calls received)
    (hsum : intMax + (netPackageHeadlen + 1) < ((charScanner env head tail).rest received).length + chunk.length) :
    ∃ x, recvdata env s chunk = .error (.intOverflow x) := by
  obtain ⟨hdr, X, D, hf, hD, hrest⟩ := h.in_frame (by omega)
  have hl := hf.hdrLen
  have hroom := hf.room
  have hmax := h.sound.packMax
  rw [hrest, List.length_cons, List.length_append] at hsum
  have h0 : chunk ≠ [] := by
    rintro rfl
    rw [List.length_nil] at hsum
    omega
  exact ⟨_, recvdata_overflow hd h0 h.sound hf hD (by omega)⟩

/-- One call: it keeps the parser in step with the scanner, or does not fit. -/
theorem recvdata_synced {chunk : List UInt8} (hd : chunk.length ≤ intMax)
    (h : Synced env head tail s calls received) :
    (∃ c, recvdata env s chunk = .ok c ∧ Synced env head tail c.sync (calls ++ c.calls) (received ++ chunk)) ∨
    (∃ x, recvdata env s chunk = .error (.intOverflow x) ∧
      ¬ CallFits env head tail (charScanner env head tail) received chunk) := by
  obtain ⟨P, hh, hp, hq⟩ := h.held
  have hpath := hp.append chunk
  have hout := recvdata_spec hd h.sound hh
  cases hr : recvdata env s chunk with
  | ok c =>
    rw [hr] at hout
    cases hout with
    | ok hs' hh' _ hp' hc hq' =>
      left
      refine ⟨c, rfl, hs', _, hh', ?_, hq'⟩
      rw [List.map_append, hc, List.nil_append]
      exact hpath.trans hp'
  | error e =>
    rw [hr] at hout
    cases hout with
    | @overflow x o S hp' hx =>
      right
      refine ⟨x, rfl, fun hfits => ?_⟩
      rcases hx with hx | hx
      · exact hx (hfits.headers _ _ (hpath.trans hp'))
      · -- The held bytes are the scan's rest, or too few to matter.
        have hle := hp'.length_le
        have hsum := hfits.sum
        have hlen : netPackageHeadlen = 34 := rfl
        rw [List.length_append] at hle
        cases ht : s.parsetype with
        | parseHead =>
          rw [hp.rest, Scanner.rest_wait _ (hh.wait ht)] at hsum
          omega
        | parseNothing =>
          have := hq ht
          omega

/-- **A run of calls.** -/
theorem recvCalls_spec : ∀ (chunks : List (List UInt8)) (s : PacketSync) (calls : List FullPacket)
    (received : List UInt8), (∀ chunk ∈ chunks, chunk.length ≤ intMax) → Synced env head tail s calls received →
    (∃ s' calls', recvCalls env s chunks = .ok (s', calls') ∧
      Synced env head tail s' (calls ++ calls') (received ++ chunks.flatten)) ∨
    (∃ x before chunk after, recvCalls env s chunks = .error (.intOverflow x) ∧ chunks = before ++ chunk :: after ∧
      ¬ CallFits env head tail (charScanner env head tail) (received ++ before.flatten) chunk)
  | [], s, calls, received, _, h => .inl ⟨s, [], rfl, by simpa using h⟩
  | chunk :: chunks, s, calls, received, hd, h => by
    rcases recvdata_synced (hd chunk (by simp)) h with ⟨c, hc, hs⟩ | ⟨x, hx, hno⟩
    · have ih := recvCalls_spec chunks c.sync _ _ (fun k hk => hd k (List.mem_cons_of_mem _ hk)) hs
      rcases ih with ⟨s', calls', hrun, hs'⟩ | ⟨x, before, k, after, hrun, rfl, hno⟩
      · left
        refine ⟨s', c.calls ++ calls', ?_, ?_⟩
        · simp only [recvCalls, hc, ok_bind, hrun, pure_ok]
        · rw [List.flatten_cons, ← List.append_assoc, ← List.append_assoc]
          exact hs'
      · right
        refine ⟨x, chunk :: before, k, after, ?_, rfl, ?_⟩
        · simp only [recvCalls, hc, ok_bind, hrun, error_bind]
        · rw [List.flatten_cons, ← List.append_assoc]
          exact hno
    · right
      refine ⟨x, [], chunk, chunks, ?_, rfl, by simpa using hno⟩
      simp only [recvCalls, hx, error_bind]

theorem recvCalls_ok {chunks : List (List UInt8)} (hd : ∀ chunk ∈ chunks, chunk.length ≤ intMax)
    (hfits : CallsFit env head tail (charScanner env head tail) chunks) :
    ∃ s calls, recvCalls env (started env head tail) chunks = .ok (s, calls) ∧
      Synced env head tail s calls chunks.flatten := by
  rcases recvCalls_spec chunks _ _ _ hd (started_synced env head tail) with hok |
    ⟨x, before, chunk, after, -, hcut, hno⟩
  · exact hok
  · exact absurd (hfits before chunk after hcut) hno

theorem recvCalls_append (s : PacketSync) : ∀ (xs ys : List (List UInt8)),
    recvCalls env s (xs ++ ys) = recvCalls env s xs >>= fun r =>
      recvCalls env r.1 ys >>= fun r' => .ok (r'.1, r.2 ++ r'.2)
  | [], ys => by
    cases h : recvCalls env s ys <;> simp [recvCalls, h]
  | x :: xs, ys => by
    simp only [List.cons_append, recvCalls]
    cases recvdata env s x with
    | error e => rfl
    | ok c =>
      rw [ok_bind, ok_bind, recvCalls_append c.sync xs ys]
      cases recvCalls env c.sync xs with
      | error e => rfl
      | ok r =>
        simp only [ok_bind, pure_ok]
        cases recvCalls env r.1 ys with
        | error e => rfl
        | ok r' => simp only [ok_bind, List.append_assoc]

theorem CallsFit.left {sc : Scanner UInt8 Frame} {xs ys : List (List UInt8)}
    (h : CallsFit env head tail sc (xs ++ ys)) : CallsFit env head tail sc xs := by
  intro before chunk after hcut
  exact h before chunk (after ++ ys) (by rw [hcut, List.append_assoc, List.cons_append])

/-- A run overflows at the first chunk that does not fit behind an unfinished frame. -/
theorem recvCalls_overflow {before after : List (List UInt8)} {chunk : List UInt8}
    (hd : ∀ k ∈ before ++ chunk :: after, k.length ≤ intMax)
    (hfits : CallsFit env head tail (charScanner env head tail) before)
    (hsum : intMax + (netPackageHeadlen + 1) <
      ((charScanner env head tail).rest before.flatten).length + chunk.length) :
    ∃ x, recvCalls env (started env head tail) (before ++ chunk :: after) = .error (.intOverflow x) := by
  obtain ⟨s, calls, hrun, hs⟩ := recvCalls_ok (fun k hk => hd k (List.mem_append_left _ hk)) hfits
  obtain ⟨x, hx⟩ := hs.overflow (hd chunk (by simp)) hsum
  refine ⟨x, ?_⟩
  simp only [recvCalls_append, hrun, ok_bind, recvCalls, hx, error_bind]

/-! Streams whose accepted headers are small. -/

/-- An accepted header in front of the cursor has `datalen` at most 2^30. -/
def SmallHeader (env : Env) (head tail : UInt8) (S : List UInt8) : Prop :=
  ∀ p, Candidate env head tail S p → p.len ≤ 2 ^ 30

section Small
variable {tailOk : UInt8 → Bool}

theorem SmallHeader.of_append {S t : List UInt8} (h : SmallHeader env head tail (S ++ t)) :
    SmallHeader env head tail S := by
  rintro p ⟨hdr, body, rfl, hl, hp, hacc⟩
  exact h p ⟨hdr, body ++ t, by simp, hl, hp, hacc⟩

theorem SmallHeader.fits {S : List UInt8} (h : SmallHeader env head tail S) (sc : Scanner UInt8 Frame) :
    HeaderFits env head tail sc S := by
  intro p hp
  have := h p hp
  have hlen : netPackageHeadlen = 34 := rfl
  refine ⟨?_, fun _ => ?_⟩
  · simp only [intMax]; omega
  · simp only [intMax]; omega

theorem rest_small {s : List UInt8}
    (h : AllVisited (frameScanner env head tail tailOk) (SmallHeader env head tail) s) :
    ((frameScanner env head tail tailOk).rest s).length ≤ netPackageHeadlen + 1 + 2 ^ 30 := by
  have hsmall := h _ _ (Scanner.path_rest _ s)
  rcases frameVerdict_wait ((frameScanner env head tail tailOk).verdict_rest s) with hshort | ⟨hdr, body, heq, hl, hacc, hbody⟩
  · exact Nat.le_trans hshort (Nat.le_trans (Nat.le_succ _) (Nat.le_add_right _ _))
  · have hlen := hsmall _ ⟨hdr, body, heq, hl, rfl, hacc⟩
    rw [heq, List.length_cons, List.length_append]
    omega

/-- Small headers and chunks of at most `BUFFER_SIZE` bytes always fit. -/
theorem callsFit_of_small {chunks : List (List UInt8)} (hchunk : ∀ chunk ∈ chunks, chunk.length ≤ bufferSize)
    (hsmall : AllVisited (frameScanner env head tail tailOk) (SmallHeader env head tail) chunks.flatten) :
    CallsFit env head tail (frameScanner env head tail tailOk) chunks := by
  rintro before chunk after rfl
  have hlen : netPackageHeadlen = 34 := rfl
  rw [List.flatten_append, List.flatten_cons, ← List.append_assoc] at hsmall
  have hcall : AllVisited _ (SmallHeader env head tail) (before.flatten ++ chunk) :=
    hsmall.of_append fun _ => SmallHeader.of_append
  have hrest := rest_small (hcall.of_append fun _ => SmallHeader.of_append)
  refine ⟨?_, hcall.mono fun S hS => hS.fits _⟩
  have := hchunk chunk (by simp)
  simp only [bufferSize, intMax] at this ⊢
  omega

end Small

end Run

/-! **The parser refines the reference scanner** where every call fits. -/

theorem recvCalls_refines (env : Env) (head tail : UInt8) (ht : tail < 0x80) (chunks : List (List UInt8))
    (hd : ∀ chunk ∈ chunks, chunk.length ≤ intMax)
    (hfits : CallsFit env head tail (refScanner env head tail) chunks)
    (before after : List (List UInt8)) (hcut : chunks = before ++ after) :
    ∃ s calls, recvCalls env (started env head tail) before = .ok (s, calls) ∧
      calls.map FullPacket.frame = (refScanner env head tail).outputs before.flatten := by
  subst hcut
  rw [← charScanner_eq_ref env head tail ht] at hfits ⊢
  obtain ⟨s, calls, hrun, hs⟩ := recvCalls_ok (fun k hk => hd k (List.mem_append_left _ hk)) hfits.left
  exact ⟨s, calls, hrun, hs.outputs⟩

/-- A host, and a header between the delimiters 1 and 2 with the given `datalen` bytes. -/
def zeroEnv : Env := ⟨.little, fun _ => Vector.replicate 16 0, fun _ => 0⟩

def sampleHeader (datalen : List UInt8) : List UInt8 :=
  List.replicate 4 0 ++ [1, 2] ++ List.replicate 20 0 ++ datalen ++ List.replicate 4 0

def emptyFrame : List UInt8 := 1 :: (sampleHeader [0, 0, 0, 0] ++ [2])

/-- What is delivered of it. -/
def emptyPacket : Frame := ⟨charToNetPacket .little (sampleHeader [0, 0, 0, 0]), []⟩

theorem emptyFrame_small : AllVisited (refScanner zeroEnv 1 2) (SmallHeader zeroEnv 1 2) emptyFrame := by
  have hv : (refScanner zeroEnv 1 2).verdict emptyFrame = .move 36 (some emptyPacket) := by decide
  refine .of_move hv (fun p hp => ?_) (.of_wait (Scanner.verdict_nil _) ?_)
  · rw [hp.eq]
    decide
  · rintro p ⟨hdr, body, h, -⟩
    cases h

theorem recvCalls_refines_split :
    ∃ s calls, recvCalls zeroEnv (started zeroEnv 1 2) [emptyFrame.take 20, emptyFrame.drop 20] = .ok (s, calls) ∧
      calls.map FullPacket.frame =
        (refScanner zeroEnv 1 2).outputs [emptyFrame.take 20, emptyFrame.drop 20].flatten :=
  recvCalls_refines zeroEnv 1 2 (by decide) [emptyFrame.take 20, emptyFrame.drop 20] (by decide)
    (callsFit_of_small (by decide) emptyFrame_small) _ [] (List.append_nil _).symm

/-- The payload byte of a header with `datalen` 1 is there, the tail is not. -/
theorem stalled_wait : (refScanner zeroEnv 1 2).verdict (1 :: sampleHeader [1, 0, 0, 0] ++ [0]) = .wait := by
  decide

theorem stalled_small :
    AllVisited (refScanner zeroEnv 1 2) (SmallHeader zeroEnv 1 2) (1 :: sampleHeader [1, 0, 0, 0] ++ [0]) := by
  refine .of_wait stalled_wait fun p hp => ?_
  rw [hp.eq]
  decide

theorem recvCalls_refines_fails :
    ¬ ∃ s calls, recvCalls zeroEnv (started zeroEnv 1 2)
        [1 :: sampleHeader [1, 0, 0, 0], [0], List.replicate intMax 0] = .ok (s, calls) ∧
      calls.map FullPacket.frame = (refScanner zeroEnv 1 2).outputs
        [1 :: sampleHeader [1, 0, 0, 0], [0], List.replicate intMax 0].flatten := by
  rintro ⟨s, calls, hrun, -⟩
  have hsum : intMax + (netPackageHeadlen + 1) <
      ((charScanner zeroEnv 1 2).rest [1 :: sampleHeader [1, 0, 0, 0], [0]].flatten).length +
        (List.replicate intMax (0 : UInt8)).length := by
    have hrest : (charScanner zeroEnv 1 2).rest [1 :: sampleHeader [1, 0, 0, 0], [0]].flatten =
        1 :: sampleHeader [1, 0, 0, 0] ++ [0] := by
      rw [charScanner_eq_ref zeroEnv 1 2 (by decide)]
      exact Scanner.rest_wait _ stalled_wait
    have hlen : (1 :: sampleHeader [1, 0, 0, 0] ++ [0]).length = netPackageHeadlen + 2 := by decide
    rw [hrest, hlen, List.length_replicate]
    omega
  have hshort : ∀ k ∈ [1 :: sampleHeader [1, 0, 0, 0], [0]], k.length ≤ bufferSize := by decide
  have hbs : bufferSize ≤ intMax := by decide
  have hfits : CallsFit zeroEnv 1 2 (charScanner zeroEnv 1 2) [1 :: sampleHeader [1, 0, 0, 0], [0]] := by
    rw [charScanner_eq_ref zeroEnv 1 2 (by decide)]
    exact callsFit_of_small hshort stalled_small
  have hd : ∀ k ∈ [1 :: sampleHeader [1, 0, 0, 0], [0]] ++ [List.replicate intMax 0], k.length ≤ intMax := by
    intro k hk
    rcases List.mem_append.1 hk with hk | hk
    · exact Nat.le_trans (hshort k hk) hbs
    · rw [List.mem_singleton.1 hk, List.length_replicate]
  obtain ⟨x, hx⟩ := recvCalls_overflow hd hfits hsum
  rw [List.cons_append, List.cons_append, List.nil_append, hrun] at hx
  cases hx

end Uvnet

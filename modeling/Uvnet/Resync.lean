import Uvnet.RecvRun

/- Resynchronisation: a valid frame is found behind whatever came before it.

   `recvCalls_resynchronises` is `emits_reached` of the scanner library read off the run of
   `recvdata`: no cursor before the frame waits, because the stream goes on beyond every
   candidate there, and no move goes beyond the frame, because rejected candidates move by
   one byte and delivered ones are assumed not to cover it. -/
namespace Uvnet
open CMachine StreamScan

/-- The scan of `s` visits offset `q`. -/
def Visits {α β : Type} (sc : Scanner α β) (s : List α) (q : Nat) : Prop := ∃ os, Path sc s os (s.drop q)

section Resync
variable {env : Env} {head tail : UInt8} {s : List UInt8} {p : Nat} {f : Frame}

theorem moves_before (hframe : FrameAt env head tail (s.drop p) f) {q : Nat} (hq : q < p)
    (hends : ∀ hd, Candidate env head tail (s.drop q) hd → q + (netPackageHeadlen + hd.len.toNat + 2) ≤ s.length) :
    ∃ m o, (refScanner env head tail).verdict (s.drop q) = .move m o ∧
      (m = 1 ∨ ∃ g, o = some g ∧ m = netPackageHeadlen + g.packethead.len.toNat + 2) := by
  have hlong : p + (netPackageHeadlen + 2) ≤ s.length := by
    obtain ⟨hdr, rest, hcut, hl, -⟩ := hframe
    have hlen := congrArg List.length hcut
    simp only [List.length_drop, List.length_cons, List.length_append] at hlen
    omega
  cases hv : (refScanner env head tail).verdict (s.drop q) with
  | wait =>
    exfalso
    rcases frameVerdict_wait hv with hshort | ⟨hdr, body, hcut, hl, hacc, hbody⟩
    · rw [List.length_drop] at hshort
      omega
    · have hend := hends _ ⟨hdr, body, hcut, hl, rfl, hacc⟩
      have hlen := congrArg List.length hcut
      simp only [List.length_drop, List.length_cons, List.length_append] at hlen
      omega
  | move m o =>
    refine ⟨m, o, rfl, ?_⟩
    cases o with
    | none =>
      left
      rcases frameVerdict_cases hv with ⟨b, r, -, -, hm, -⟩ | ⟨hdr, body, -, -, -, hm, -⟩ |
        ⟨hdr, body, -, -, -, hb⟩
      · exact hm
      · exact hm
      · obtain ⟨-, ⟨hm, -⟩ | ⟨-, ho⟩⟩ := bodyVerdict_cases hb
        · exact hm
        · cases ho
    | some g => exact .inr ⟨g, rfl, (frame_length hv).1⟩

theorem scan_resynchronises (hframe : FrameAt env head tail (s.drop p) f)
    (hcover : ∀ q g, (q, g) ∈ (refScanner env head tail).emits 0 s → q < p →
      q + (netPackageHeadlen + g.packethead.len.toNat + 2) ≤ p)
    (hends : ∀ q hd, q < p → Visits (refScanner env head tail) s q → Candidate env head tail (s.drop q) hd →
      q + (netPackageHeadlen + hd.len.toNat + 2) ≤ s.length) :
    ((refScanner env head tail).emits 0 s).filter (fun x => x.1 = p) = [(p, f)] := by
  apply Scanner.emits_once
  apply Scanner.emits_reached _ (refScanner_frame hframe)
  intro q hq hvisit
  obtain ⟨m, o, hv, hm⟩ := moves_before hframe hq fun hd => hends q hd hq hvisit
  refine ⟨m, o, hv, ?_⟩
  rcases hm with rfl | ⟨g, rfl, rfl⟩
  · exact .inl hq
  · by_cases hg : (q, g) ∈ (refScanner env head tail).emits 0 s
    · exact .inl (hcover q g hg hq)
    · exact .inr ⟨g, rfl, hg⟩

end Resync

/-- **Resynchronisation without loss.** A complete valid frame at offset `p` that no frame
delivered from before covers is delivered exactly once, if the stream reaches the end of
every accepted candidate visited before `p`. -/
theorem recvCalls_resynchronises (env : Env) (head tail : UInt8) (ht : tail < 0x80) (chunks : List (List UInt8))
    (hchunk : ∀ chunk ∈ chunks, chunk.length ≤ bufferSize) (s : List UInt8) (hs : chunks.flatten = s)
    (hsmall : ∀ q hd, Visits (refScanner env head tail) s q → Candidate env head tail (s.drop q) hd → hd.len ≤ 2 ^ 30)
    (p : Nat) (f : Frame) (hframe : FrameAt env head tail (s.drop p) f)
    (hcover : ∀ q g, (q, g) ∈ (refScanner env head tail).emits 0 s → q < p →
      q + (netPackageHeadlen + g.packethead.len.toNat + 2) ≤ p)
    (hends : ∀ q hd, q < p → Visits (refScanner env head tail) s q → Candidate env head tail (s.drop q) hd →
      q + (netPackageHeadlen + hd.len.toNat + 2) ≤ s.length) :
    ∃ sync calls, recvCalls env (started env head tail) chunks = .ok (sync, calls) ∧
      calls.map FullPacket.frame = ((refScanner env head tail).emits 0 s).map Prod.snd ∧
      ((refScanner env head tail).emits 0 s).filter (fun x => x.1 = p) = [(p, f)] := by
  subst hs
  have hvisited : AllVisited (refScanner env head tail) (SmallHeader env head tail) chunks.flatten := by
    intro os s' hpath hd hcand
    obtain ⟨q, rfl⟩ := hpath.suffix
    exact hsmall q hd ⟨os, hpath⟩ hcand
  have hfits : CallsFit env head tail (refScanner env head tail) chunks := callsFit_of_small hchunk hvisited
  have hbs : bufferSize ≤ intMax := by decide
  rw [← charScanner_eq_ref env head tail ht] at hfits
  obtain ⟨sync, calls, hrun, hsync⟩ := recvCalls_ok (fun k hk => Nat.le_trans (hchunk k hk) hbs) hfits
  refine ⟨sync, calls, hrun, ?_, scan_resynchronises hframe hcover hends⟩
  rw [hsync.outputs, charScanner_eq_ref env head tail ht]
  rfl

theorem stray_rejected {hd : NetPacket} : ¬ Candidate zeroEnv 1 2 (1 :: emptyFrame) hd := by
  intro h
  obtain ⟨-, -, -, -, -, hacc⟩ := id h
  rw [h.eq] at hacc
  revert hacc
  decide

theorem stray_small : AllVisited (refScanner zeroEnv 1 2) (SmallHeader zeroEnv 1 2) (1 :: emptyFrame) := by
  have hv : (refScanner zeroEnv 1 2).verdict (1 :: emptyFrame) = .move 1 none := by decide
  exact .of_move hv (fun _ h => absurd h stray_rejected) emptyFrame_small

/-- A stray head byte before the frame. -/
theorem recvCalls_resynchronises_stray :
    ∃ sync calls, recvCalls zeroEnv (started zeroEnv 1 2) [[1], emptyFrame] = .ok (sync, calls) ∧
      calls.map FullPacket.frame = ((refScanner zeroEnv 1 2).emits 0 (1 :: emptyFrame)).map Prod.snd ∧
      ((refScanner zeroEnv 1 2).emits 0 (1 :: emptyFrame)).filter (fun x => x.1 = 1) = [(1, emptyPacket)] := by
  have hemits : (refScanner zeroEnv 1 2).emits 0 (1 :: emptyFrame) = [(1, emptyPacket)] := by decide
  apply recvCalls_resynchronises zeroEnv 1 2 (by decide) [[1], emptyFrame] (by decide) (1 :: emptyFrame) rfl
  · rintro q hd ⟨os, hp⟩ hcand
    exact stray_small os _ hp hd hcand
  · exact ⟨sampleHeader [0, 0, 0, 0], [], rfl, rfl, rfl, by decide, by decide, by decide⟩
  · intro q g hg hq
    rw [hemits, List.mem_singleton] at hg
    cases hg
    omega
  · intro q hd hq _ hcand
    obtain rfl : q = 0 := by omega
    exact absurd hcand stray_rejected

end Uvnet

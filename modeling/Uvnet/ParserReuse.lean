import Uvnet.RecvRun

/- A `PacketSync` that serves one connection after another.

   Nothing resets a parser: `SetPacketCB` and `Start` leave one alone that has been started
   (`Sound.start_eq`). Where it is at rest when a connection begins, it is in step with that
   connection but for bytes that are not heads (`Synced.restart`), and delivers what a fresh
   parser would (`frames_fresh`); a frame that the connection before has begun swallows the
   bytes of the next one (`cutFrame_leaks`). -/
namespace Uvnet
open CMachine StreamScan

section Reuse
variable {env : Env} {head tail : UInt8} {p : PacketSync} {calls : List FullPacket} {received chunk : List UInt8}

/-- `SetPacketCB` and `Start` do nothing to a parser that has been started. -/
theorem Sound.start_eq (h : Sound head tail p) : p.setPacketCB.start head tail = p := by
  obtain ⟨packetCb, parsetype, getdatalen, readdata, packetdata, truepacketlen, headpos, hd, tl, next⟩ := p
  obtain ⟨rfl, rfl, rfl, -⟩ := h
  rfl

/-- No frame has begun: the parser looks for a head, and has none buffered. -/
def PacketSync.AtRest (p : PacketSync) (head : UInt8) : Prop :=
  p.parsetype = .parseNothing ∧ head ∉ p.threadReaddata.base.take p.truepacketlen.toNat

theorem new_atRest (env : Env) (head : UInt8) : (PacketSync.new env).AtRest head := ⟨rfl, List.not_mem_nil⟩

theorem Synced.recv (h : Synced env head tail p calls received) (hd : chunk.length ≤ intMax)
    (hfits : CallFits env head tail (charScanner env head tail) received chunk) :
    ∃ r, recvdata env p chunk = .ok r ∧ Synced env head tail r.sync (calls ++ r.calls) (received ++ chunk) := by
  rcases recvdata_synced hd h with hok | ⟨-, -, hno⟩
  · exact hok
  · exact absurd hfits hno

theorem Synced.recv_ok (h : Synced env head tail p calls received) (hlen : chunk.length ≤ bufferSize) {r : Recv}
    (hr : recvdata env p chunk = .ok r) : Synced env head tail r.sync (calls ++ r.calls) (received ++ chunk) := by
  have hbs : bufferSize ≤ intMax := by decide
  rcases recvdata_synced (Nat.le_trans hlen hbs) h with ⟨r', hr', hs'⟩ | ⟨x, hx, -⟩
  · obtain rfl := Except.ok.inj (hr.symm.trans hr')
    exact hs'
  · rw [hr] at hx
    cases hx

/-- The same where what was received is kept as chunks, behind bytes `junk`. -/
theorem Synced.recv_chunk {junk : List UInt8} {chunks : List (List UInt8)}
    (h : Synced env head tail p calls (junk ++ chunks.flatten)) (hlen : chunk.length ≤ bufferSize) {r : Recv}
    (hr : recvdata env p chunk = .ok r) :
    Synced env head tail r.sync (calls ++ r.calls) (junk ++ (chunks ++ [chunk]).flatten) := by
  have hnext := h.recv_ok hlen hr
  rwa [List.append_assoc, ← List.flatten_singleton (l := chunk), ← List.flatten_append] at hnext

/-- A parser in step that is at rest is in step with nothing, but for bytes that are not heads. -/
theorem Synced.restart (h : Synced env head tail p calls received) (hrest : p.AtRest head) :
    ∃ junk, head ∉ junk ∧ Synced env head tail p [] junk := by
  obtain ⟨P, hh, -, hq⟩ := h.held
  cases hh with
  | frame hf _ _ =>
    have := hrest.1.symm.trans hf.parsetype
    cases this
  | idle hi =>
    obtain ⟨J, hJ⟩ := hi.buffered
    refine ⟨P, ?_, h.sound, P, .idle hi, .refl P, hq⟩
    have := hrest.2
    rwa [hi.valid, Int.toNat_natCast, hJ, List.take_left] at this

/-- Bytes that are not heads, in front of what was received, change no output. -/
theorem outputs_junk {junk : List UInt8} (hj : head ∉ junk) (received : List UInt8) :
    (charScanner env head tail).outputs (junk ++ received) = (charScanner env head tail).outputs received :=
  (path_garbage hj received).outputs

theorem frames_fresh {chunks : List (List UInt8)} {frames : List FullPacket}
    (hchunks : ∀ chunk ∈ chunks, chunk.length ≤ bufferSize)
    (hframes : frames.map FullPacket.frame = (charScanner env head tail).outputs chunks.flatten)
    (hrun : recvCalls env (started env head tail) chunks = .ok (p, calls)) :
    frames.map FullPacket.frame = calls.map FullPacket.frame := by
  have hbs : bufferSize ≤ intMax := by decide
  rcases recvCalls_spec chunks _ _ _ (fun chunk hm => Nat.le_trans (hchunks chunk hm) hbs)
    (started_synced env head tail) with ⟨p', calls', hrun', hin⟩ | ⟨x, -, -, -, hrun', -⟩
  · obtain ⟨rfl, rfl⟩ := Prod.mk.inj (Except.ok.inj (hrun.symm.trans hrun'))
    exact hframes.trans hin.outputs.symm
  · rw [hrun] at hrun'
    cases hrun'

end Reuse

theorem emptyFrame_fits : CallsFit zeroEnv 1 2 (charScanner zeroEnv 1 2) [emptyFrame] := by
  rw [charScanner_eq_ref zeroEnv 1 2 (by decide)]
  exact callsFit_of_small (by decide) emptyFrame_small

/-- A head and an accepted header with 100 bytes to come. -/
def cutFrame : List UInt8 := 1 :: sampleHeader [100, 0, 0, 0]

theorem cutFrame_wait : (charScanner zeroEnv 1 2).verdict (cutFrame ++ emptyFrame) = .wait := by
  decide

theorem leak_fits : CallsFit zeroEnv 1 2 (charScanner zeroEnv 1 2) [cutFrame, emptyFrame] := by
  refine callsFit_of_small (by decide) ?_
  refine .of_wait cutFrame_wait fun p hp => ?_
  rw [hp.eq]
  decide

/-- A frame that is begun on one connection swallows a whole frame of the next one, which a fresh
parser delivers. -/
theorem cutFrame_leaks :
    ∃ r r', recvdata zeroEnv (started zeroEnv 1 2) cutFrame = .ok r ∧ r.sync.setPacketCB.start 1 2 = r.sync ∧
      recvdata zeroEnv r.sync emptyFrame = .ok r' ∧
      ∃ p calls, recvCalls zeroEnv (started zeroEnv 1 2) [emptyFrame] = .ok (p, calls) ∧
        r'.calls.map FullPacket.frame ≠ calls.map FullPacket.frame := by
  obtain ⟨r, hr, hin⟩ := (started_synced zeroEnv 1 2).recv (by decide) (leak_fits [] cutFrame [emptyFrame] rfl)
  obtain ⟨r', hr', hin'⟩ := hin.recv (by decide) (leak_fits [cutFrame] emptyFrame [] rfl)
  obtain ⟨p, calls, hfresh, hsync⟩ := recvCalls_ok (by decide) emptyFrame_fits
  refine ⟨r, r', hr, hin.sound.start_eq, hr', p, calls, hfresh, ?_⟩
  have hnone : r'.calls.map FullPacket.frame = [] := by
    have hout : (r.calls ++ r'.calls).map FullPacket.frame = [] :=
      hin'.outputs.trans (Scanner.outputs_wait _ cutFrame_wait)
    rw [List.map_append, List.append_eq_nil_iff] at hout
    exact hout.2
  rw [hnone, hsync.outputs]
  decide

/-- A whole frame, and bytes behind it that are not heads. -/
def frameAndJunk : List UInt8 := emptyFrame ++ [7, 2]

/-- The parser stops at the frame, and then at bytes that are not heads. -/
theorem frameAndJunk_visits : AllVisited (charScanner zeroEnv 1 2) (fun S => S = frameAndJunk ∨ 1 ∉ S) frameAndJunk := by
  have hframe : (charScanner zeroEnv 1 2).verdict frameAndJunk = .move 36 (some emptyPacket) := by decide
  have hseven : (charScanner zeroEnv 1 2).verdict [7, 2] = .move 1 none := by decide
  have htwo : (charScanner zeroEnv 1 2).verdict [2] = .move 1 none := by decide
  refine .of_move hframe (.inl rfl) (.of_move hseven (.inr (by decide)) (.of_move htwo (.inr (by decide)) ?_))
  exact .of_wait (Scanner.verdict_nil _) (.inr List.not_mem_nil)

theorem frameAndJunk_fits : CallsFit zeroEnv 1 2 (charScanner zeroEnv 1 2) [frameAndJunk, emptyFrame] := by
  have hframe : (charScanner zeroEnv 1 2).verdict (frameAndJunk ++ emptyFrame) = .move 36 (some emptyPacket) := by decide
  have hseven : (charScanner zeroEnv 1 2).verdict (7 :: 2 :: emptyFrame) = .move 1 none := by decide
  have htwo : (charScanner zeroEnv 1 2).verdict (2 :: emptyFrame) = .move 1 none := by decide
  have hsmall := emptyFrame_small
  rw [← charScanner_eq_ref zeroEnv 1 2 (by decide)] at hsmall
  refine callsFit_of_small (by decide) (.of_move hframe ?_ (.of_move hseven ?_ (.of_move htwo ?_ hsmall)))
  · intro p hp
    rw [hp.eq]
    decide
  · rintro p ⟨hdr, body, hcut, -⟩
    cases hcut
  · rintro p ⟨hdr, body, hcut, -⟩
    cases hcut

/-- Behind a whole frame and bytes that are not heads the parser is at rest. -/
theorem frameAndJunk_rests :
    ∃ r r', recvdata zeroEnv (started zeroEnv 1 2) frameAndJunk = .ok r ∧ r.sync.AtRest 1 ∧
      r.sync.setPacketCB.start 1 2 = r.sync ∧ recvdata zeroEnv r.sync emptyFrame = .ok r' := by
  obtain ⟨r, hr, hin⟩ := (started_synced zeroEnv 1 2).recv (by decide) (frameAndJunk_fits [] frameAndJunk [emptyFrame] rfl)
  obtain ⟨r', hr', -⟩ := hin.recv (by decide) (frameAndJunk_fits [frameAndJunk] emptyFrame [] rfl)
  refine ⟨r, r', hr, ?_, hin.sound.start_eq, hr'⟩
  obtain ⟨P, hh, hpath, hshort⟩ := hin.held
  have hP := frameAndJunk_visits _ _ hpath
  cases hh with
  | idle hi =>
    refine ⟨hi.parsetype, ?_⟩
    obtain ⟨J, hJ⟩ := hi.buffered
    rw [hi.valid, Int.toNat_natCast, hJ, List.take_left]
    rcases hP with rfl | hnot
    · exact absurd (hshort hi.parsetype) (by decide)
    · exact hnot
  | @frame hdr X D hf _ hd =>
    -- A frame of no bytes is not held with three behind its header.
    rcases hP with heq | hnot
    · have hcut : hdr ++ D = sampleHeader [0, 0, 0, 0] ++ _ := (List.cons.inj heq).2
      obtain ⟨hhdr, hD⟩ := List.append_inj hcut (by rw [hf.hdrLen]; decide)
      rw [hf.next, hhdr, hD] at hd
      exact absurd hd (by decide)
    · exact absurd List.mem_cons_self hnot

end Uvnet

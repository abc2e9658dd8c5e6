import Uvnet.RecvSilent

/- What the parser goes on with after the checks of a complete frame.

   At the checks the frame is in two buffers: head and header where they were found in
   `thread_readdata`, payload and last byte in `thread_packetdata`, with what follows it
   either behind it in `thread_readdata` or not there. `candidate` and `beyond` read these
   bytes off the state. Together they are the last bytes received that were read so far
   (`consumed_eq`), which fixes the position of the candidate in the stream. `Restored`
   says what the checks then leave, and `checked_frame_restored` that they do, whichever
   branch the code takes and whether a callback is set or not. -/
namespace Uvnet
open CMachine StreamScan

/-- The valid bytes of `thread_readdata`. -/
def PacketSync.buffered (s : PacketSync) : List UInt8 := s.threadReaddata.base.take s.truepacketlen.toNat

/-- The frame under check: head and header from `headpos` on, then payload and last byte. -/
def PacketSync.candidate (s : PacketSync) : List UInt8 :=
  (s.threadReaddata.base.drop s.headpos.toNat).take (1 + netPackageHeadlen) ++
    s.threadPacketdata.base.take (s.theNexPacket.len.toNat + 1)

/-- What `thread_readdata` has behind the frame under check. -/
def PacketSync.beyond (s : PacketSync) : List UInt8 :=
  s.buffered.drop (s.headpos.toNat + (1 + netPackageHeadlen + (s.theNexPacket.len.toNat + 1)))

/-- **What the checks leave.** `d` is the state at the checks, with the frame behind the bytes
`pre` of the stream, `c'` the state after them: what is buffered and what is unread are the
stream from the byte after the frame's head on if it was rejected, by its last byte or its
checksum, and from the byte after its last one on if it was delivered. -/
structure Restored (env : Env) (head : UInt8) (before data pre : List UInt8) (d c' : Recv) (ok : Bool) : Prop where
  consumed : before ++ data.take d.iret.toNat = pre ++ (d.sync.candidate ++ d.sync.beyond)
  head_first : d.sync.candidate.head? = some head
  whole : d.sync.candidate.length = netPackageHeadlen + d.sync.theNexPacket.len.toNat + 2
  checks : frameOk env d.sync = .ok ok
  rejected : ok = false →
    c'.sync.buffered ++ data.drop c'.iret.toNat = (before ++ data).drop (pre.length + 1)
  delivered : ok = true →
    c'.sync.buffered ++ data.drop c'.iret.toNat = (before ++ data).drop (pre.length + d.sync.candidate.length)

section Restore
variable {env : Env} {head tail : UInt8} {s : PacketSync} {hdr X D Z P R data received : List UInt8} {c : Recv}

theorem Idle.buffered_eq (hi : Idle s P) : s.buffered = P := by
  obtain ⟨J, hJ⟩ := hi.buffered
  rw [PacketSync.buffered, hi.valid, Int.toNat_natCast, hJ, List.take_left]

theorem InFrame.candidate_eq (hf : InFrame env head tail s hdr X D)
    (hD : D.length = s.theNexPacket.len.toNat + 1) : s.candidate = head :: (hdr ++ D) := by
  have hl := hf.hdrLen
  obtain ⟨G, J, hb, hp, -⟩ := hf.scratch
  obtain ⟨K, hK⟩ := hf.collected
  have hhead : (s.threadReaddata.base.drop s.headpos.toNat).take (1 + netPackageHeadlen) = head :: hdr := by
    rw [hb, hp, Int.toNat_natCast, List.drop_left, Nat.add_comm, List.take_succ_cons, ← hl, List.take_left]
  rw [PacketSync.candidate, hhead, hK, ← hD, List.take_left, List.cons_append]

theorem InFrame.beyond_eq (hf : InFrame env head tail s hdr X D)
    (hD : D.length = s.theNexPacket.len.toNat + 1) (hZ : Following s.theNexPacket.len.toNat X D Z) :
    s.beyond = Z := by
  have hl := hf.hdrLen
  obtain ⟨G, J, hb, hp, hn⟩ := hf.scratch
  have hvalid : s.truepacketlen.toNat = (G ++ head :: (hdr ++ X)).length := by
    simp only [List.length_append, List.length_cons] at hn ⊢
    omega
  have hbuf : s.buffered = G ++ head :: (hdr ++ X) := by
    have hbase : s.threadReaddata.base = G ++ head :: (hdr ++ X) ++ J := by rw [hb]; simp
    rw [PacketSync.buffered, hvalid, hbase, List.take_left]
  rw [PacketSync.beyond, hbuf, hp, Int.toNat_natCast]
  rcases hZ with ⟨-, -, rfl⟩ | ⟨hshort, rfl⟩
  · -- the frame lies in the scratch buffer
    have hcut : G ++ head :: (hdr ++ (D ++ Z)) = G ++ head :: (hdr ++ D) ++ Z := by simp
    have hlen : G.length + (1 + netPackageHeadlen + (s.theNexPacket.len.toNat + 1)) =
        (G ++ head :: (hdr ++ D)).length := by
      simp only [List.length_append, List.length_cons]
      omega
    rw [hcut, hlen, List.drop_left]
  · apply List.drop_of_length_le
    simp only [List.length_append, List.length_cons]
    omega

theorem Unread.read_eq (hu : Unread data c R) : data.take c.iret.toNat ++ R = data ∧ data.drop c.iret.toNat = R := by
  obtain ⟨pre, rfl, hiret⟩ := hu
  rw [hiret, Int.toNat_natCast, List.take_left, List.drop_left]
  exact ⟨rfl, rfl⟩

/-- The frame under check and what is buffered behind it are the last bytes read. -/
theorem consumed_eq {before : List UInt8} (hf : InFrame env head tail c.sync hdr X D)
    (hD : D.length = c.sync.theNexPacket.len.toNat + 1) (hZ : Following c.sync.theNexPacket.len.toNat X D Z)
    (hu : Unread data c R) (hsuf : head :: (hdr ++ (D ++ (Z ++ R))) <:+ before ++ data) :
    ∃ pre, before ++ data.take c.iret.toNat = pre ++ (c.sync.candidate ++ c.sync.beyond) ∧
      before ++ data = pre ++ (head :: (hdr ++ (D ++ (Z ++ R)))) := by
  obtain ⟨pre, hpre⟩ := hsuf
  refine ⟨pre, ?_, hpre.symm⟩
  have hread : before ++ data.take c.iret.toNat ++ R = pre ++ (head :: (hdr ++ D) ++ Z) ++ R := by
    rw [List.append_assoc, hu.read_eq.1, ← hpre]
    simp
  rw [hf.candidate_eq hD, hf.beyond_eq hD hZ]
  exact List.append_cancel_right hread

theorem restored_of_idle {before : List UInt8} {ok : Bool} {d c' : Recv}
    (hf : InFrame env head tail d.sync hdr X D) (hD : D.length = d.sync.theNexPacket.len.toNat + 1)
    (hZ : Following d.sync.theNexPacket.len.toNat X D Z) (hu : Unread data d R)
    (hsuf : head :: (hdr ++ (D ++ (Z ++ R))) <:+ before ++ data) (hok : frameOk env d.sync = .ok ok)
    (hi : Idle c'.sync (if ok then Z else hdr ++ (D ++ Z))) (hiret : c'.iret = d.iret) :
    ∃ pre, Restored env head before data pre d c' ok := by
  obtain ⟨pre, hread, hall⟩ := consumed_eq hf hD hZ hu hsuf
  have hcand := hf.candidate_eq hD
  have hl := hf.hdrLen
  have hleft := (hu.same hiret).read_eq.2
  refine ⟨pre, hread, by rw [hcand]; rfl, ?_, hok, ?_, ?_⟩
  · rw [hcand, List.length_cons, List.length_append]
    omega
  · rintro rfl
    have hbuf : c'.sync.buffered = hdr ++ (D ++ Z) := hi.buffered_eq
    rw [hbuf, hleft, hall, ← List.drop_drop, List.drop_left, List.drop_succ_cons, List.drop_zero]
    simp
  · rintro rfl
    have hbuf : c'.sync.buffered = Z := hi.buffered_eq
    have hcut : head :: (hdr ++ (D ++ (Z ++ R))) = head :: (hdr ++ D) ++ (Z ++ R) := by simp
    rw [hbuf, hleft, hall, hcand, ← List.drop_drop, List.drop_left, hcut, List.drop_left]

theorem LoopHead.restored {before : List (List UInt8)} {d : Recv} (hd : ∀ k ∈ before ++ [data], k.length ≤ intMax)
    (hc : LoopHead env (started env head tail) before data c) (hcheck : toCheck env data c = .ok (.go d))
    (hlen : d.sync.theNexPacket.len ≤ 2 ^ 30) :
    ∃ pre ok c', recvStep env data c = .ok (.again c') ∧ Restored env head before.flatten data pre d c' ok := by
  obtain ⟨hsound, P, R₀, o, hh, hu₀, hpath⟩ := hc.path hd
  rcases toCheck_spec (hd data (by simp)) hsound hh hu₀ with ⟨flow, hflow, hout⟩ | ⟨_, _, -, -, herr⟩
  · rw [hcheck] at hflow
    obtain rfl := Except.ok.inj hflow
    cases hout with
    | go hs hf hD hZ _ hu hsuf =>
      obtain ⟨ok, c', hok, hagain, -, hi', hiret⟩ := checkFrame_restores hs hf hD hZ hlen
      obtain ⟨pre, hres⟩ := restored_of_idle hf hD hZ hu (hsuf.trans (path_suffix hpath)) hok hi' hiret
      have hstep : recvStep env data c = .ok (.again c') := by
        rw [recvStep_toCheck, hcheck, ok_bind]
        exact hagain
      exact ⟨pre, ok, c', hstep, hres⟩
  · rw [hcheck] at herr
    cases herr

theorem Restored.silent {before pre : List UInt8} {d c' : Recv} {ok : Bool}
    (h : Restored env head before data pre d c' ok) : Restored env head before data pre d.silent c'.silent ok :=
  ⟨h.consumed, h.head_first, h.whole, h.checks, h.rejected, h.delivered⟩

end Restore

/-- **Rejecting a frame restores the stream, delivering it moves behind it**: in every pass of
every run of calls that comes to the checks of a complete frame with `datalen` at most 2^30. -/
theorem checked_frame_restored (env : Env) (packetCb : Bool) (head tail : UInt8) (before : List (List UInt8))
    (data : List UInt8) (hd : ∀ k ∈ before ++ [data], k.length ≤ intMax) (c d : Recv)
    (hc : LoopHead env (startedWith env packetCb head tail) before data c)
    (hcheck : toCheck env data c = .ok (.go d)) (hlen : d.sync.theNexPacket.len ≤ 2 ^ 30) :
    ∃ pre ok c', recvStep env data c = .ok (.again c') ∧ Restored env head before.flatten data pre d c' ok := by
  cases packetCb with
  | true => exact hc.restored hd hcheck hlen
  | false =>
    rw [startedWith_false] at hc
    obtain ⟨c₁, hc₁, rfl⟩ := hc.of_silent
    rw [toCheck_silent] at hcheck
    obtain ⟨flow, hflow, hgo⟩ := map_eq_ok.1 hcheck
    cases flow with
    | again => cases hgo
    | ret => cases hgo
    | go d₁ =>
      cases hgo
      obtain ⟨pre, ok, c', hstep, hres⟩ := hc₁.restored hd hflow hlen
      exact ⟨pre, ok, c'.silent, by rw [recvStep_silent, hstep]; rfl, hres.silent⟩

/-- The state of a pass that has come to the checks. -/
def Flow.checked : Flow → Option Recv
  | .go d => some d
  | _ => none

/-- The second chunk completes the broken frame, and its last byte is refused. -/
theorem brokenFrame_refused :
    ∃ s calls d, recvCalls zeroEnv (started zeroEnv 1 2) [brokenFrame.take 35] = .ok (s, calls) ∧
      toCheck zeroEnv (brokenFrame.drop 35) ⟨s, 0, []⟩ = .ok (.go d) ∧ frameOk zeroEnv d.sync = .ok false ∧
      d.sync.theNexPacket.len = 1 := by
  have hrun : (recvCalls zeroEnv (started zeroEnv 1 2) [brokenFrame.take 35] >>= fun r =>
      toCheck zeroEnv (brokenFrame.drop 35) ⟨r.1, 0, []⟩ >>= fun flow =>
        .ok (flow.checked.map fun d => (frameOk zeroEnv d.sync, d.sync.theNexPacket.len))) =
      .ok (some (.ok false, 1)) := by decide +kernel
  obtain ⟨⟨s, calls⟩, hcalls, hrun⟩ := bind_eq_ok.1 hrun
  obtain ⟨flow, hcheck, hrun⟩ := bind_eq_ok.1 hrun
  obtain ⟨d, hd, hpair⟩ := Option.map_eq_some_iff.1 (Except.ok.inj hrun)
  obtain ⟨hok, hlen⟩ := Prod.mk.inj hpair
  cases flow with
  | again => cases hd
  | ret => cases hd
  | go d =>
    cases hd
    exact ⟨s, calls, d, hcalls, hcheck, hok, hlen⟩

/-- It is rolled back to the byte after its head. -/
theorem checked_frame_restored_broken :
    ∃ s d pre c', toCheck zeroEnv (brokenFrame.drop 35) ⟨s, 0, []⟩ = .ok (.go d) ∧
      recvStep zeroEnv (brokenFrame.drop 35) ⟨s, 0, []⟩ = .ok (.again c') ∧
      Restored zeroEnv 1 [brokenFrame.take 35].flatten (brokenFrame.drop 35) pre d c' false := by
  obtain ⟨s, calls, d, hcalls, hcheck, hbad, hlen⟩ := brokenFrame_refused
  obtain ⟨pre, ok, c', hstep, hres⟩ := checked_frame_restored zeroEnv true 1 2 [brokenFrame.take 35]
    (brokenFrame.drop 35) (by decide) _ d (.first hcalls) hcheck (by omega)
  have hok := hres.checks
  rw [hbad] at hok
  obtain rfl := Except.ok.inj hok
  exact ⟨s, d, pre, c', hcheck, hstep, hres⟩

end Uvnet

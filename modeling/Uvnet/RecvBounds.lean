import Uvnet.RecvSilent

/- What `recvdata` keeps within bounds, and that it comes to an end.

   1. `Held.inBounds`: the state between two passes is within its buffers, in `PARSE_HEAD`
      with the accepted header in the scratch buffer.
   2. `recvdata_in_bounds`: so it is at every loop head and on return, and no pass faults.
      Copies, reads and searches of the model fault outside their buffer or the chunk, so
      this is every access of the source.
   3. `recvdata_finishes`: a call ends after finitely many passes and has used up its chunk.
      What decreases is the number of bytes held and unread together: a rejected candidate
      gives its bytes back, all but the head. -/
namespace Uvnet
open CMachine StreamScan

/-- The part of the invariant that `PARSE_HEAD` adds. -/
structure FrameInBounds (head : UInt8) (s : PacketSync) : Prop where
  headpos_nonneg : 0 ≤ s.headpos
  header_inside : s.headpos + (1 + netPackageHeadlen : Nat) ≤ s.truepacketlen
  head_there : s.threadReaddata.base[s.headpos.toNat]? = some head
  got_nonneg : 0 ≤ s.getdatalen
  got_le : s.getdatalen ≤ s.theNexPacket.len + 1
  room : s.theNexPacket.len + 1 ≤ s.threadPacketdata.len

/-- Lengths and positions are those of the buffers. -/
structure InBounds (head : UInt8) (s : PacketSync) : Prop where
  valid_nonneg : 0 ≤ s.truepacketlen
  valid_le : s.truepacketlen ≤ s.threadReaddata.len
  readdata_len : s.threadReaddata.base.length = s.threadReaddata.len
  packetdata_len : s.threadPacketdata.base.length = s.threadPacketdata.len
  frame : s.parsetype = .parseHead → FrameInBounds head s

section Bounds
variable {env : Env} {head tail : UInt8} {before : List (List UInt8)} {data P R : List UInt8}
variable {s : PacketSync} {calls : List FullPacket} {c : Recv}

theorem InFrame.frameInBounds {hdr X D : List UInt8} (hf : InFrame env head tail s hdr X D)
    (hD : D.length < s.theNexPacket.len.toNat + 1) : FrameInBounds head s := by
  have hlen := hf.len_eq
  have hroom := hf.room
  have hgot := hf.got
  have hl := hf.hdrLen
  obtain ⟨G, J, hb, hp, hn⟩ := hf.scratch
  refine ⟨by omega, ?_, ?_, by omega, by omega, by omega⟩
  · rw [hn, hp, List.length_append]
    omega
  · rw [hb, hp, Int.toNat_natCast, List.getElem?_append_right (Nat.le_refl _), Nat.sub_self]
    rfl

theorem Held.inBounds (hs : Sound head tail s) (hh : Held env head tail s P) : InBounds head s := by
  have hread := hs.readLen
  cases hh with
  | idle hi =>
    obtain ⟨J, hJ⟩ := hi.buffered
    have hvalid := hi.valid
    rw [hJ, List.length_append] at hread
    refine ⟨by omega, by omega, hs.readLen, hs.packLen, fun hin => ?_⟩
    rw [hi.parsetype] at hin
    cases hin
  | @frame hdr X D hf hX hD =>
    obtain ⟨G, J, hb, -, hn⟩ := hf.scratch
    rw [hb] at hread
    simp only [List.length_append, List.length_cons] at hread hn
    exact ⟨by omega, by omega, hs.readLen, hs.packLen, fun _ => hf.frameInBounds hD⟩

theorem Unread.iret_le (hu : Unread data c R) : 0 ≤ c.iret ∧ c.iret ≤ data.length := by
  obtain ⟨pre, rfl, hiret⟩ := hu
  rw [List.length_append]
  omega

theorem recvLoop_within {n : Nat} {d : Recv} (h : ∀ k, n ≤ k → recvLoop env data (k + 1) c = .ok d) :
    ∀ fuel, n + 1 ≤ fuel → recvLoop env data fuel c = .ok d
  | k + 1, hk => h k (Nat.le_of_succ_le_succ hk)

/-- **The loop ends**, with the same result for every larger number of passes allowed. -/
theorem recvLoop_total (hb : ∀ k ∈ before, k.length ≤ intMax) (hd : data.length ≤ bufferSize)
    (hsm : SmallAccepted env (started env head tail) (before ++ [data])) :
    ∀ (n : Nat) (c : Recv) (P R : List UInt8), LoopHead env (started env head tail) before data c →
      Sound head tail c.sync → Held env head tail c.sync P → Unread data c R → (P ++ R).length + 2 ≤ n →
      ∃ c', ∀ fuel, n ≤ fuel → recvLoop env data fuel c = .ok c' := by
  have hbs : bufferSize ≤ intMax := by decide
  intro n
  induction n with
  | zero => intro c P R _ _ _ _ hn; omega
  | succ n ih =>
    intro c P R hc hs hh hu hn
    cases hmore : recvMore data c with
    | false => exact ⟨c, recvLoop_within fun k _ => recvLoop_over env hmore k⟩
    | true =>
      obtain ⟨flow, hstep⟩ := hc.pass hb hd hsm hmore
      have hout := recvStep_spec (Nat.le_trans hd hbs) hs hh hu
      rw [hstep] at hout
      cases hout with
      | @ret c' => exact ⟨c', recvLoop_within fun k _ => recvLoop_ret hmore hstep k⟩
      | @again c' o P' R' hs' hi' hu' hp hcalls hless =>
        have hnext : ∃ d, ∀ fuel, n ≤ fuel → recvLoop env data fuel c' = .ok d := by
          rcases hless with hless | ⟨rfl, hshort⟩
          · exact ih c' P' R' (hc.again hmore hstep) hs' (.idle hi') hu' (by omega)
          · -- nothing is unread, and too little held to go on
            obtain ⟨m, rfl⟩ : ∃ m, n = m + 1 := ⟨n - 1, by omega⟩
            exact ⟨c', recvLoop_within fun k _ => recvLoop_over env (hi'.over hshort hu') k⟩
        obtain ⟨d, hd'⟩ := hnext
        refine ⟨d, recvLoop_within fun k hk => ?_⟩
        rw [recvLoop_again hmore hstep]
        exact hd' k hk

/-- One call returns, whatever more passes it were allowed, and has used up its chunk. -/
theorem recvdata_total (hb : ∀ k ∈ before, k.length ≤ intMax) (hd : data.length ≤ bufferSize)
    (hsm : SmallAccepted env (started env head tail) (before ++ [data]))
    (hs : recvCalls env (started env head tail) before = .ok (s, calls)) :
    ∃ c, recvdata env s data = .ok c ∧ c.iret = data.length ∧
      ∃ n, ∀ fuel, n ≤ fuel → recvLoop env data fuel ⟨s, 0, []⟩ = .ok c := by
  have hbs : bufferSize ≤ intMax := by decide
  have hsync := recvCalls_synced hb hs
  obtain ⟨P, hh, -, -⟩ := hsync.held
  obtain ⟨c, hloop⟩ := recvLoop_total hb hd hsm _ _ P data (.first hs) hsync.sound hh ⟨[], rfl, rfl⟩ (Nat.le_refl _)
  have hcall : recvdata env s data = .ok c := hloop _ (Held.fuel hsync.sound hh data)
  have hout := recvdata_spec (Nat.le_trans hd hbs) hsync.sound hh
  rw [hcall] at hout
  refine ⟨c, hcall, ?_, _, hloop⟩
  cases hout with
  | ok _ _ hu _ _ _ => exact hu

theorem recvCalls_total : ∀ (chunks : List (List UInt8)), (∀ k ∈ chunks, k.length ≤ bufferSize) →
    SmallAccepted env (started env head tail) chunks →
    ∃ s calls, recvCalls env (started env head tail) chunks = .ok (s, calls) := by
  have hbs : bufferSize ≤ intMax := by decide
  intro chunks
  induction chunks using List.reverseRecOn with
  | nil => exact fun _ _ => ⟨_, _, rfl⟩
  | append_singleton before data ih =>
    intro hd hsm
    have hb : ∀ k ∈ before, k.length ≤ bufferSize := fun k hk => hd k (List.mem_append_left _ hk)
    obtain ⟨s, calls, hrun⟩ := ih hb hsm.left
    obtain ⟨P, hh, -, -⟩ := (recvCalls_synced (fun k hk => Nat.le_trans (hb k hk) hbs) hrun).held
    obtain ⟨c, hcall, -⟩ := recvdata_total (fun k hk => Nat.le_trans (hb k hk) hbs) (hd data (by simp)) hsm hrun
    refine ⟨c.sync, calls ++ (c.calls ++ []), ?_⟩
    rw [recvCalls_append, hrun]
    simp only [ok_bind, recvCalls, hcall, pure_ok]

theorem LoopHead.in_bounds (hd : ∀ k ∈ before ++ [data], k.length ≤ bufferSize)
    (hsm : SmallAccepted env (started env head tail) (before ++ [data]))
    (hc : LoopHead env (started env head tail) before data c) :
    InBounds head c.sync ∧ 0 ≤ c.iret ∧ c.iret ≤ data.length ∧
      (recvMore data c = true → ∃ flow, recvStep env data c = .ok flow) := by
  have hbs : bufferSize ≤ intMax := by decide
  have hall : ∀ k ∈ before ++ [data], k.length ≤ intMax := fun k hk => Nat.le_trans (hd k hk) hbs
  obtain ⟨hsound, P, R, o, hh, hu, -⟩ := hc.path hall
  obtain ⟨hlo, hhi⟩ := hu.iret_le
  exact ⟨hh.inBounds hsound, hlo, hhi,
    hc.pass (fun k hk => hall k (List.mem_append_left _ hk)) (hd data (by simp)) hsm⟩

theorem recvCalls_in_bounds {chunks : List (List UInt8)} (hd : ∀ k ∈ chunks, k.length ≤ bufferSize)
    (hsm : SmallAccepted env (started env head tail) chunks) :
    ∃ s calls, recvCalls env (started env head tail) chunks = .ok (s, calls) ∧ InBounds head s := by
  have hbs : bufferSize ≤ intMax := by decide
  obtain ⟨s, calls, hrun⟩ := recvCalls_total _ hd hsm
  have hsync := recvCalls_synced (fun k hk => Nat.le_trans (hd k hk) hbs) hrun
  obtain ⟨P, hh, -, -⟩ := hsync.held
  exact ⟨s, calls, hrun, hh.inBounds hsync.sound⟩

end Bounds

/-- **`recvdata` terminates and consumes its chunk**: after finitely many passes the loop is
over, whatever more it were allowed, and `iret` is `len`. -/
theorem recvdata_finishes (env : Env) (packetCb : Bool) (head tail : UInt8) (before : List (List UInt8))
    (data : List UInt8) (hb : ∀ k ∈ before, k.length ≤ intMax) (hd : data.length ≤ bufferSize)
    (hsm : SmallAccepted env (startedWith env packetCb head tail) (before ++ [data])) (s : PacketSync)
    (calls : List FullPacket) (hs : recvCalls env (startedWith env packetCb head tail) before = .ok (s, calls)) :
    ∃ n c, (∀ fuel, n ≤ fuel → recvLoop env data fuel ⟨s, 0, []⟩ = .ok c) ∧ recvdata env s data = .ok c ∧
      c.iret = data.length := by
  cases packetCb with
  | true =>
    obtain ⟨c, hcall, hiret, n, hloop⟩ := recvdata_total hb hd hsm hs
    exact ⟨n, c, hloop, hcall, hiret⟩
  | false =>
    rw [startedWith_false] at hsm hs
    rw [recvCalls_silent] at hs
    obtain ⟨r, hrun, hr⟩ := map_eq_ok.1 hs
    cases hr
    obtain ⟨c, hcall, hiret, n, hloop⟩ := recvdata_total hb hd hsm.of_silent hrun
    refine ⟨n, c.silent, fun fuel hfuel => ?_, ?_, hiret⟩
    · have hsilent : recvLoop env data fuel ⟨r.1.silent, 0, []⟩ = Recv.silent <$> recvLoop env data fuel ⟨r.1, 0, []⟩ :=
        recvLoop_silent fuel ⟨r.1, 0, []⟩
      rw [hsilent, hloop fuel hfuel]
      rfl
    · rw [recvdata_silent, hcall]
      rfl

/-- The call that rolls the broken frame back. -/
theorem recvdata_finishes_broken :
    ∃ s calls, recvCalls zeroEnv (startedWith zeroEnv true 1 2) [brokenFrame.take 35] = .ok (s, calls) ∧
      ∃ n c, (∀ fuel, n ≤ fuel → recvLoop zeroEnv (brokenFrame.drop 35) fuel ⟨s, 0, []⟩ = .ok c) ∧
        recvdata zeroEnv s (brokenFrame.drop 35) = .ok c ∧ c.iret = (brokenFrame.drop 35).length := by
  obtain ⟨s, calls, hs⟩ := recvCalls_total _ (by decide) brokenFrame_accepted.left
  exact ⟨s, calls, hs, recvdata_finishes zeroEnv true 1 2 [brokenFrame.take 35] (brokenFrame.drop 35) (by decide)
    (by decide) brokenFrame_accepted s calls hs⟩

theorem InBounds.silent {head : UInt8} {s : PacketSync} (h : InBounds head s) : InBounds head s.silent where
  valid_nonneg := h.valid_nonneg
  valid_le := h.valid_le
  readdata_len := h.readdata_len
  packetdata_len := h.packetdata_len
  frame hin :=
    have hf := h.frame hin
    ⟨hf.headpos_nonneg, hf.header_inside, hf.head_there, hf.got_nonneg, hf.got_le, hf.room⟩

/-- **The buffer bounds of `recvdata`**: they hold at every loop head and on return; every pass
runs without a fault; and the call returns. -/
theorem recvdata_in_bounds (env : Env) (packetCb : Bool) (head tail : UInt8) (before : List (List UInt8))
    (data : List UInt8) (hd : ∀ k ∈ before ++ [data], k.length ≤ bufferSize)
    (hsm : SmallAccepted env (startedWith env packetCb head tail) (before ++ [data])) :
    (∀ c, LoopHead env (startedWith env packetCb head tail) before data c →
      InBounds head c.sync ∧ 0 ≤ c.iret ∧ c.iret ≤ data.length ∧
      (recvMore data c = true → ∃ flow, recvStep env data c = .ok flow)) ∧
    ∃ s calls, recvCalls env (startedWith env packetCb head tail) (before ++ [data]) = .ok (s, calls) ∧
      InBounds head s := by
  cases packetCb with
  | true => exact ⟨fun c hc => hc.in_bounds hd hsm, recvCalls_in_bounds hd hsm⟩
  | false =>
    rw [startedWith_false] at hsm ⊢
    constructor
    · intro c hc
      obtain ⟨d, hd', rfl⟩ := hc.of_silent
      obtain ⟨hbounds, hlo, hhi, hpass⟩ := hd'.in_bounds hd hsm.of_silent
      refine ⟨hbounds.silent, hlo, hhi, fun hmore => ?_⟩
      obtain ⟨flow, hflow⟩ := hpass hmore
      exact ⟨flow.silent, by rw [recvStep_silent, hflow]; rfl⟩
    · obtain ⟨s, calls, hrun, hbounds⟩ := recvCalls_in_bounds hd hsm.of_silent
      exact ⟨s.silent, [], by rw [recvCalls_silent, hrun]; rfl, hbounds.silent⟩

theorem recvdata_in_bounds_broken :
    (∀ c, LoopHead zeroEnv (startedWith zeroEnv true 1 2) [brokenFrame.take 35] (brokenFrame.drop 35) c →
      InBounds 1 c.sync ∧ 0 ≤ c.iret ∧ c.iret ≤ (brokenFrame.drop 35).length ∧
      (recvMore (brokenFrame.drop 35) c = true → ∃ flow, recvStep zeroEnv (brokenFrame.drop 35) c = .ok flow)) ∧
    ∃ s calls, recvCalls zeroEnv (startedWith zeroEnv true 1 2) ([brokenFrame.take 35] ++ [brokenFrame.drop 35]) =
      .ok (s, calls) ∧ InBounds 1 s :=
  recvdata_in_bounds zeroEnv true 1 2 [brokenFrame.take 35] (brokenFrame.drop 35) (by decide) brokenFrame_accepted

end Uvnet

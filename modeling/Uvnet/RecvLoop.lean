import Uvnet.RecvHead
import Uvnet.RecvFrame

/- The loop of `recvdata`: `recvStep_spec` for one pass, `recvLoop_ok` for all of them, and
   `recvdata_spec` for one call on the bytes held and the chunk. -/
namespace Uvnet
open CMachine StreamScan

section Loop
variable {env : Env} {head tail : UInt8} {data : List UInt8} {c : Recv} {P R : List UInt8}

/-- **One pass through the loop body** makes moves of the scanner. -/
theorem recvStep_spec (hd : data.length ≤ intMax) (hs : Sound head tail c.sync)
    (hh : Held env head tail c.sync P) (hu : Unread data c R) :
    StepOut env head tail data (P ++ R) (c.calls.map FullPacket.frame) (recvStep env data c) := by
  cases hh with
  | idle hi =>
    rcases parseHead_spec hd hs hi hu with hout | ⟨c', hdr, X, R', hgo, hs', hf', hu', hc', hp⟩
    · simp only [recvStep, hi.parsetype]
      cases hr : parseHead env data c with
      | error e => rw [hr] at hout; exact hout
      | ok flow =>
        rw [hr] at hout
        cases hout with
        | again hs' hi' hu' hp hc hless => exact .again hs' hi' hu' hp hc hless
        | ret hs' hh' hu' hp hc hw => exact .ret hs' hh' hu' hp hc hw
    · have hstep : recvStep env data c = collect env data c' := by simp only [recvStep, hi.parsetype, hgo, ok_bind]
      rw [hstep]
      obtain ⟨Z, hX, hZ⟩ := following_take c'.sync.theNexPacket.len.toNat X
      have hout := collect_spec hd hs' hf' (List.length_take_le _ _) hZ hu'
      rw [← List.append_assoc _ Z R', ← hX] at hout
      refine StepOut.after (o := []) ?_ hp
      rwa [List.append_nil, ← hc']
  | @frame hdr X D hf hX hD =>
    have hstep : recvStep env data c = collect env data c := by simp only [recvStep, hf.parsetype]
    rw [hstep, List.cons_append, List.append_assoc]
    exact collect_spec hd hs hf (by omega) (.inr ⟨hX, rfl⟩) hu

/-- Where the loop is over outside a frame, too little is left for one. -/
theorem Held.quiet (hs : Sound head tail c.sync) (hh : Held env head tail c.sync P)
    (hmore : recvMore data c = false) (hp : c.sync.parsetype = .parseNothing) :
    P.length < netPackageHeadlen + 2 := by
  cases hh with
  | idle hi =>
    have hlt : intMax < 2 ^ 31 := by decide
    obtain ⟨J, hJ⟩ := hi.buffered
    have hmax := hs.readMax
    rw [← hs.readLen, hJ, List.length_append] at hmax
    have hshort : ¬ sizeAdd netPackageHeadlen 2 ≤ toSize c.sync.truepacketlen := by
      rw [recvMore, Bool.or_eq_false_iff] at hmore
      exact of_decide_eq_false hmore.2
    rw [hi.valid, toSize_natCast (by omega)] at hshort
    exact Nat.lt_of_not_le hshort
  | frame hf => rw [hf.parsetype] at hp; cases hp

theorem Unread.done (hu : Unread data c []) : c.iret = (data.length : Int) := by
  obtain ⟨pre, rfl, h⟩ := hu
  rw [h, List.append_nil]

/-- The loop condition fails where the chunk is used up and no frame can be buffered. -/
theorem Idle.over (hi : Idle c.sync P) (hlen : P.length < netPackageHeadlen + 2) (hu : Unread data c []) :
    recvMore data c = false := by
  have hshort : ¬ sizeAdd netPackageHeadlen 2 ≤ toSize c.sync.truepacketlen := by
    have hh : sizeAdd netPackageHeadlen 2 = netPackageHeadlen + 2 := by decide
    have hh' : netPackageHeadlen = 34 := rfl
    rw [hi.valid, toSize_natCast (by omega), hh]
    exact Nat.not_le.2 hlen
  simp only [recvMore, hu.done, hshort, decide_false, Bool.or_false, Int.lt_irrefl]

/-! One turn of the loop. -/

theorem recvLoop_over (env : Env) (hmore : recvMore data c = false) (fuel : Nat) :
    recvLoop env data (fuel + 1) c = .ok c := by
  simp only [recvLoop, hmore]
  rfl

theorem recvLoop_again {c' : Recv} (hmore : recvMore data c = true) (hstep : recvStep env data c = .ok (.again c'))
    (fuel : Nat) : recvLoop env data (fuel + 1) c = recvLoop env data fuel c' := by
  simp only [recvLoop, hmore, if_true, hstep, ok_bind]

theorem recvLoop_ret {c' : Recv} (hmore : recvMore data c = true) (hstep : recvStep env data c = .ok (.ret c'))
    (fuel : Nat) : recvLoop env data (fuel + 1) c = .ok c' := by
  simp only [recvLoop, hmore, if_true, hstep, ok_bind, pure_ok]

theorem recvLoop_error {e : Fault} (hmore : recvMore data c = true) (hstep : recvStep env data c = .error e)
    (fuel : Nat) : recvLoop env data (fuel + 1) c = .error e := by
  simp only [recvLoop, hmore, if_true, hstep, error_bind]

theorem recvLoop_stop (hs : Sound head tail c.sync) (hh : Held env head tail c.sync P)
    (hu : Unread data c R) (hmore : recvMore data c = false) (fuel : Nat) :
    CallOut env head tail data (P ++ R) (c.calls.map FullPacket.frame) (recvLoop env data (fuel + 1) c) := by
  have hR : R = [] := by
    obtain ⟨pre, rfl, hiret⟩ := hu
    rw [recvMore, Bool.or_eq_false_iff] at hmore
    have := of_decide_eq_false hmore.1
    rw [hiret, List.length_append] at this
    exact List.eq_nil_of_length_eq_zero (by omega)
  subst hR
  rw [recvLoop_over env hmore, List.append_nil]
  exact .ok (o := []) hs hh hu.done (.refl _) (by simp) (hh.quiet hs hmore)

/-- **The whole loop** runs the scanner to where it waits; every pass but the last uses up a
byte of `P ++ R`. -/
theorem recvLoop_ok (hd : data.length ≤ intMax) : ∀ (fuel : Nat) (c : Recv) (P R : List UInt8),
    Sound head tail c.sync → Held env head tail c.sync P → Unread data c R →
    (P ++ R).length + 2 ≤ fuel →
    CallOut env head tail data (P ++ R) (c.calls.map FullPacket.frame) (recvLoop env data fuel c) := by
  intro fuel
  induction fuel with
  | zero => intro c P R _ _ _ hfuel; omega
  | succ fuel ih =>
    intro c P R hs hh hu hfuel
    cases hmore : recvMore data c with
    | false => exact recvLoop_stop hs hh hu hmore fuel
    | true =>
      have hout := recvStep_spec hd hs hh hu
      cases hr : recvStep env data c with
      | error e =>
        rw [hr] at hout
        rw [recvLoop_error hmore hr]
        cases hout with
        | overflow hp hx => exact .overflow hp hx
      | ok flow =>
        rw [hr] at hout
        cases hout with
        | ret hs' hh' hu' hp hc hw =>
          rw [recvLoop_ret hmore hr]
          exact .ok hs' hh' hu' hp hc (fun h => by rw [hw] at h; cases h)
        | @again c' os P' R' hs' hi' hu' hp hc hless =>
          have hnext : CallOut env head tail data (P' ++ R') (c'.calls.map FullPacket.frame)
              (recvLoop env data fuel c') := by
            rcases hless with hless | ⟨rfl, hless⟩
            · exact ih c' P' R' hs' (.idle hi') hu' (by omega)
            · obtain ⟨k, rfl⟩ : ∃ k, fuel = k + 1 := ⟨fuel - 1, by omega⟩
              exact recvLoop_stop hs' (.idle hi') hu' (hi'.over hless hu') k
          rw [hc] at hnext
          rw [recvLoop_again hmore hr]
          exact hnext.after hp

theorem Held.fuel {s : PacketSync} (hs : Sound head tail s) (hh : Held env head tail s P) (data : List UInt8) :
    (P ++ data).length + 2 ≤ (s.truepacketlen + s.getdatalen).toNat + data.length + 2 := by
  have hgot := hs.got
  rw [List.length_append]
  cases hh with
  | idle hi =>
    have := hi.valid
    omega
  | @frame hdr X D hf hX hD =>
    obtain ⟨G, J, -, -, hn⟩ := hf.scratch
    have hl := hf.hdrLen
    have hg := hf.got
    simp only [List.length_append, List.length_cons] at hn ⊢
    omega

/-- **One call of `recvdata`**: the scanner's moves on what was held and the chunk. -/
theorem recvdata_spec {s : PacketSync} (hd : data.length ≤ intMax) (hs : Sound head tail s)
    (hh : Held env head tail s P) : CallOut env head tail data (P ++ data) [] (recvdata env s data) :=
  recvLoop_ok hd _ ⟨s, 0, []⟩ P data hs hh ⟨[], rfl, rfl⟩ (Held.fuel hs hh data)

theorem recvMore_start (s : PacketSync) (h0 : data ≠ []) : recvMore data ⟨s, 0, []⟩ = true := by
  have hpos := List.length_pos_of_ne_nil h0
  have hlt : (0 : Int) < data.length := by omega
  simp only [recvMore, hlt, decide_true, Bool.true_or]

/-- A chunk that takes a frame's collected bytes beyond `int` stops the call at once. -/
theorem recvdata_overflow {s : PacketSync} {hdr X D : List UInt8} (hd : data.length ≤ intMax)
    (h0 : data ≠ []) (hs : Sound head tail s) (hf : InFrame env head tail s hdr X D)
    (hD : D.length < s.theNexPacket.len.toNat + 1) (hov : intMax < D.length + data.length) :
    recvdata env s data = .error (.intOverflow (D.length + data.length : Nat)) := by
  have hmore := recvMore_start s h0
  have hstep : recvStep env data ⟨s, 0, []⟩ = .error (.intOverflow (D.length + data.length : Nat)) := by
    have hgather : gather data ⟨s, 0, []⟩ = .error (.intOverflow (D.length + data.length : Nat)) :=
      gather_overflow hd hs hf hD ⟨[], rfl, rfl⟩ hov
    simp only [recvStep, hf.parsetype, collect_gather, hgather, error_bind]
  simp only [recvdata, recvLoop, hmore, hstep, error_bind]
  rfl

/-- A chunk that brings the header whose `datalen + 1` overflows stops the call. -/
theorem recvdata_header_overflow {s : PacketSync} {G hdr X : List UInt8} (hs : Sound head tail s)
    (hi : Idle s P) (hT : P ++ data = G ++ head :: (hdr ++ X)) (hG : head ∉ G)
    (hl : hdr.length = netPackageHeadlen) (hacc : Accepted head tail (charToNetPacket env.endian hdr))
    (htop : (charToNetPacket env.endian hdr).len = intMax) (h0 : data ≠ [])
    (hsmall : (P ++ data).length ≤ bufferSize) :
    recvdata env s data = .error (.intOverflow (intMax + 1)) := by
  have hbs : bufferSize ≤ intMax := by decide
  have hsmall' := hsmall
  rw [List.length_append] at hsmall'
  have hmore := recvMore_start s h0
  have hu : Unread data ⟨s, 0, []⟩ data := ⟨[], rfl, rfl⟩
  obtain ⟨c₁, A, B, rfl, hf⟩ := fill_spec (by omega) hs hi hu
  have hB : B = [] := by
    rcases hf.full with hB | hfull
    · exact hB
    · have hmin := hf.sound.readMin
      simp only [List.length_append] at hsmall hfull
      exact List.eq_nil_of_length_eq_zero (by omega)
  subst hB
  rw [List.append_nil] at hT hf hmore ⊢
  rw [hT] at hf
  have hstep : recvStep env A ⟨s, 0, []⟩ = .error (.intOverflow (intMax + 1)) := by
    simp only [recvStep, hi.parsetype, parseHead_overflow hf hG hl hacc htop, error_bind]
  simp only [recvdata, recvLoop, hmore, hstep, error_bind]
  rfl

theorem Env.buffer_base (env : Env) : env.buffer.base.length = env.buffer.len := by
  simp only [Env.buffer, List.length_map, List.length_range]

theorem started_sound (env : Env) (head tail : UInt8) : Sound head tail (started env head tail) where
  head := rfl
  tail := rfl
  packetCb := rfl
  readLen := env.buffer_base
  readMin := Nat.le_of_eq (show bufferSize = env.buffer.len from rfl)
  readMax := Nat.le_trans (Nat.le_of_eq (show env.buffer.len = bufferSize from rfl)) (by decide)
  packLen := env.buffer_base
  packMax := Nat.le_trans (Nat.le_of_eq (show env.buffer.len = bufferSize from rfl)) (by decide)
  got := Int.le_refl _

theorem started_idle (env : Env) (head tail : UInt8) : Idle (started env head tail) [] where
  parsetype := rfl
  valid := rfl
  buffered := ⟨env.buffer.base, (List.nil_append _).symm⟩
end Loop

end Uvnet

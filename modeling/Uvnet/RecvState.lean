import Uvnet.FrameScan

/- The states a `PacketSync` goes through, and what a pass of its loop may do.

   Between two passes the parser is `Idle` with the bytes `P` in its scratch buffer, or
   `InFrame`: a header is accepted and part of its payload collected. With `Unread`, what is
   left of the chunk, this gives the bytes the parser has not yet disposed of; `StepOut` and
   `CallOut` say that a pass, or a whole call, makes moves of the frame scanner on exactly
   these bytes, or stops at a signed overflow. -/
namespace Uvnet
open CMachine StreamScan

/-- What every state of a running parser has: the delimiters it was started with, and
buffers whose `len` is what was allocated and fits an `int`. -/
structure Sound (head tail : UInt8) (s : PacketSync) : Prop where
  head : s.head = head
  tail : s.tail = tail
  packetCb : s.packetCb = true
  readLen : s.threadReaddata.base.length = s.threadReaddata.len
  readMin : bufferSize ≤ s.threadReaddata.len
  readMax : s.threadReaddata.len ≤ intMax
  packLen : s.threadPacketdata.base.length = s.threadPacketdata.len
  packMax : s.threadPacketdata.len ≤ intMax
  got : 0 ≤ s.getdatalen

/-- State `PARSE_NOTHING` with the bytes `P` buffered. -/
structure Idle (s : PacketSync) (P : List UInt8) : Prop where
  parsetype : s.parsetype = .parseNothing
  valid : s.truepacketlen = P.length
  buffered : ∃ J, s.threadReaddata.base = P ++ J

/-- `R` is the unread part of the chunk. -/
def Unread (data : List UInt8) (c : Recv) (R : List UInt8) : Prop :=
  ∃ pre, data = pre ++ R ∧ c.iret = pre.length

/-- State `PARSE_HEAD`: the scratch buffer has the accepted header `hdr` and the bytes `X`
behind it, the packet buffer the bytes `D`. -/
structure InFrame (env : Env) (head tail : UInt8) (s : PacketSync) (hdr X D : List UInt8) : Prop where
  parsetype : s.parsetype = .parseHead
  hdrLen : hdr.length = netPackageHeadlen
  next : s.theNexPacket = charToNetPacket env.endian hdr
  accepted : Accepted head tail s.theNexPacket
  room : s.theNexPacket.len.toNat + 1 ≤ s.threadPacketdata.len
  scratch : ∃ G J, s.threadReaddata.base = G ++ (head :: (hdr ++ (X ++ J))) ∧
    s.headpos = G.length ∧ s.truepacketlen = G.length + (1 + (hdr ++ X).length : Nat)
  got : s.getdatalen = D.length
  collected : ∃ J, s.threadPacketdata.base = D ++ J

/-- `Z` is what the scratch buffer has beyond the frame of payload length `d`: nothing
unless the frame lies wholly in it. -/
def Following (d : Nat) (X D Z : List UInt8) : Prop :=
  (d + 1 ≤ X.length ∧ D.length = d + 1 ∧ X = D ++ Z) ∨ (X.length < d + 1 ∧ Z = [])

/-- What an accepted header takes of the bytes `X` behind it, and what is beyond. -/
theorem following_take (d : Nat) (X : List UInt8) :
    ∃ Z, X = X.take (d + 1) ++ Z ∧ Following d X (X.take (d + 1)) Z := by
  by_cases hwide : d + 1 ≤ X.length
  · exact ⟨_, (List.take_append_drop ..).symm,
      .inl ⟨hwide, List.length_take_of_le hwide, (List.take_append_drop ..).symm⟩⟩
  · exact ⟨[], by rw [List.take_of_length_le (by omega), List.append_nil], .inr ⟨by omega, rfl⟩⟩

/-- The state between two calls, with the bytes received and not yet done with. -/
inductive Held (env : Env) (head tail : UInt8) (s : PacketSync) : List UInt8 → Prop where
  | idle {P} (hi : Idle s P) : Held env head tail s P
  | frame {hdr X D} (hf : InFrame env head tail s hdr X D) (hx : X.length < s.theNexPacket.len.toNat + 1)
      (hd : D.length < s.theNexPacket.len.toNat + 1) : Held env head tail s (head :: (hdr ++ D))

/-- Nothing the parser computes from an accepted header in front of the cursor leaves the
`int` range: `datalen + 1` does not, and when the frame is rejected neither does
`NET_PACKAGE_HEADLEN + datalen + 1`. -/
def HeaderFits (env : Env) (head tail : UInt8) (sc : Scanner UInt8 Frame) (S : List UInt8) : Prop :=
  ∀ p, Candidate env head tail S p →
    p.len < intMax ∧ (sc.verdict S = .move 1 none → p.len + (netPackageHeadlen + 1) ≤ intMax)

/-- `c₁` is `c` after `fill`: `P` is buffered, and `R` is left only where the buffer is full. -/
structure Filled (head tail : UInt8) (data : List UInt8) (c c₁ : Recv) (P R : List UInt8) : Prop where
  fill : fill data c = .ok c₁
  sound : Sound head tail c₁.sync
  idle : Idle c₁.sync P
  unread : Unread data c₁ R
  calls : c₁.calls = c.calls
  full : R = [] ∨ P.length = c₁.sync.threadReaddata.len

/-- What a pass (or several) makes of the bytes `T` held and unread, after callbacks `done`:
the scanner's moves, or an overflow where they call for one. -/
inductive StepOut (env : Env) (head tail : UInt8) (data T : List UInt8) (done : List Frame) :
    C Flow → Prop where
  | again {c : Recv} {o P R} (hs : Sound head tail c.sync) (hi : Idle c.sync P) (hu : Unread data c R)
      (hp : Path (charScanner env head tail) T o (P ++ R))
      (hc : c.calls.map FullPacket.frame = done ++ o)
      (hless : (P ++ R).length < T.length ∨ (R = [] ∧ P.length < netPackageHeadlen + 2)) :
      StepOut env head tail data T done (.ok (.again c))
  | ret {c : Recv} {o P} (hs : Sound head tail c.sync) (hh : Held env head tail c.sync P)
      (hu : c.iret = (data.length : Int)) (hp : Path (charScanner env head tail) T o P)
      (hc : c.calls.map FullPacket.frame = done ++ o)
      (hw : c.sync.parsetype = .parseHead) : StepOut env head tail data T done (.ok (.ret c))
  | overflow {x o S} (hp : Path (charScanner env head tail) T o S)
      (hx : ¬ HeaderFits env head tail (charScanner env head tail) S ∨ intMax + (netPackageHeadlen + 1) < S.length) :
      StepOut env head tail data T done (.error (.intOverflow x))

/-- What a whole call makes of them: it ends inside a frame, or with too little for one. -/
inductive CallOut (env : Env) (head tail : UInt8) (data T : List UInt8) (done : List Frame) :
    C Recv → Prop where
  | ok {c : Recv} {o P} (hs : Sound head tail c.sync) (hh : Held env head tail c.sync P)
      (hu : c.iret = (data.length : Int)) (hp : Path (charScanner env head tail) T o P)
      (hc : c.calls.map FullPacket.frame = done ++ o)
      (hq : c.sync.parsetype = .parseNothing → P.length < netPackageHeadlen + 2) :
      CallOut env head tail data T done (.ok c)
  | overflow {x o S} (hp : Path (charScanner env head tail) T o S)
      (hx : ¬ HeaderFits env head tail (charScanner env head tail) S ∨ intMax + (netPackageHeadlen + 1) < S.length) :
      CallOut env head tail data T done (.error (.intOverflow x))

section
variable {env : Env} {head tail : UInt8} {data T S : List UInt8} {done o : List Frame}

theorem Unread.same {c c' : Recv} {R : List UInt8} (hu : Unread data c R) (h : c'.iret = c.iret) :
    Unread data c' R := by
  obtain ⟨pre, hpre, hiret⟩ := hu
  exact ⟨pre, hpre, h.trans hiret⟩

theorem Held.wait {s : PacketSync} {P : List UInt8} (hh : Held env head tail s P)
    (h : s.parsetype = .parseHead) : (charScanner env head tail).verdict P = .wait := by
  cases hh with
  | idle hi => rw [hi.parsetype] at h; cases h
  | @frame hdr X D hf hX hD =>
    have hacc := hf.accepted
    rw [hf.next] at hacc hD
    refine (frameVerdict_header hf.hdrLen).trans ((if_pos hacc).trans ?_)
    rw [bodyVerdict]
    exact if_pos hD

theorem StepOut.after {r : C Flow}
    (h : StepOut env head tail data S (done ++ o) r) (hp : Path (charScanner env head tail) T o S) :
    StepOut env head tail data T done r := by
  have hle := hp.length_le
  cases h with
  | again hs hi hu hp' hc hless =>
    exact .again hs hi hu (hp.trans hp') (by rw [hc, List.append_assoc])
      (hless.imp_left fun h => Nat.lt_of_lt_of_le h hle)
  | ret hs hh hu hp' hc hw => exact .ret hs hh hu (hp.trans hp') (by rw [hc, List.append_assoc]) hw
  | overflow hp' hx => exact .overflow (hp.trans hp') hx

theorem CallOut.after {r : C Recv}
    (h : CallOut env head tail data S (done ++ o) r) (hp : Path (charScanner env head tail) T o S) :
    CallOut env head tail data T done r := by
  cases h with
  | ok hs hh hu hp' hc hq => exact .ok hs hh hu (hp.trans hp') (by rw [hc, List.append_assoc]) hq
  | overflow hp' hx => exact .overflow (hp.trans hp') hx

end

theorem afterHead_eq {s : PacketSync} {g n : Nat} (hp : s.headpos = g)
    (hn : s.truepacketlen = g + (1 + n : Nat)) (hmax : g + (1 + n) ≤ intMax) : afterHead s = .ok n := by
  have h1 : s.truepacketlen - s.headpos = (n : Int) + 1 := by rw [hn, hp]; omega
  rw [afterHead, h1, cint_ok (by omega) (by omega), ok_bind, Int.add_sub_cancel,
    cint_ok (by omega) (by omega)]

theorem dropHead_spec {s : PacketSync} {G Y J : List UInt8} {b : UInt8}
    (hb : s.threadReaddata.base = G ++ (b :: (Y ++ J))) (hp : s.headpos = G.length)
    (hn : s.truepacketlen = G.length + (1 + Y.length : Nat)) (hmax : G.length + (1 + Y.length) ≤ intMax) :
    ∃ J', (Y ++ J').length = s.threadReaddata.base.length ∧
      dropHead s = .ok { s with
        threadReaddata := { s.threadReaddata with base := Y ++ J' }, truepacketlen := Y.length } := by
  have hlt : intMax < 2 ^ 31 := by decide
  have hcopy := memcpy_mid (d := s.threadReaddata.base) (i := 0) (s := s.threadReaddata.base)
    (j := s.headpos + 1) (n := Y.length) (A := []) (B := s.threadReaddata.base) (G := G ++ [b]) (X := Y)
    (D := J) (by simp) (by simp) (by rw [hb]; simp) (by rw [hp]; simp) rfl
    (by rw [hb]; simp only [List.length_append, List.length_cons]; omega)
  have hk : s.truepacketlen - (s.headpos + 1) = (Y.length : Int) := by rw [hn, hp]; omega
  refine ⟨s.threadReaddata.base.drop Y.length, ?_, ?_⟩
  · rw [hb]; simp only [List.length_append, List.length_cons, List.length_drop]; omega
  · simp only [dropHead, afterHead_eq hp hn hmax, ok_bind, toSize_natCast (show Y.length < 2 ^ 64 by omega),
      hcopy, cint_ok (show -(2 : Int) ^ 31 ≤ s.headpos + 1 by omega) (by omega), hk,
      cint_ok (show -(2 : Int) ^ 31 ≤ (Y.length : Int) by omega) (by omega), List.nil_append, pure_ok]

theorem NetPacket.len_le (p : NetPacket) : p.len ≤ intMax := by
  have := BitVec.toInt_lt (x := p.datalen)
  simp only [NetPacket.len, intMax]
  omega

end Uvnet

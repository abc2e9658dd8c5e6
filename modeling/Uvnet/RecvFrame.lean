import Uvnet.RecvState

/- The `PARSE_HEAD` block of `recvdata`: collecting payload and tail, checking them, and
   delivering the frame or rolling it back. -/
namespace Uvnet
open CMachine StreamScan

section Frame
variable {env : Env} {head tail : UInt8} {data : List UInt8} {c : Recv} {P R : List UInt8}
variable {s : PacketSync} {hdr X D Z : List UInt8}

theorem InFrame.len_eq (hf : InFrame env head tail s hdr X D) :
    s.theNexPacket.len = s.theNexPacket.len.toNat := by
  have := hf.accepted.2.2
  omega

theorem InFrame.len_lt (hs : Sound head tail s) (hf : InFrame env head tail s hdr X D) :
    s.theNexPacket.len.toNat + 1 ≤ intMax := Nat.le_trans hf.room hs.packMax

theorem InFrame.scratch_le (hs : Sound head tail s) (hf : InFrame env head tail s hdr X D) :
    s.headpos + (1 + (hdr ++ X).length : Nat) ≤ intMax := by
  obtain ⟨G, J, hb, hp, -⟩ := hf.scratch
  have hlen := congrArg List.length hb
  have hmax := hs.readMax
  rw [hs.readLen] at hlen
  simp only [List.length_append, List.length_cons] at hlen ⊢
  omega

theorem InFrame.afterHead_eq (hs : Sound head tail s) (hf : InFrame env head tail s hdr X D) :
    afterHead s = .ok (hdr ++ X).length := by
  have hmax := hf.scratch_le hs
  obtain ⟨G, J, hb, hp, hn⟩ := hf.scratch
  exact Uvnet.afterHead_eq hp hn (by omega)

theorem InFrame.cint_len (hs : Sound head tail s) (hf : InFrame env head tail s hdr X D) :
    cint (s.theNexPacket.len + 1) = .ok (s.theNexPacket.len.toNat + 1 : Nat) := by
  have hlen := hf.len_lt hs
  have hlen' := hf.len_eq
  exact cint_nat (by omega) (by omega)

theorem inReaddata_spec (hs : Sound head tail s) (hf : InFrame env head tail s hdr X D) :
    inReaddata s = .ok (decide (s.theNexPacket.len.toNat + 1 ≤ X.length)) := by
  have hlt : intMax < 2 ^ 31 := by decide
  have hlen := hf.len_lt hs
  have hmax := hf.scratch_le hs
  have hsize : sizeSub (toSize ((hdr ++ X).length : Nat)) netPackageHeadlen = X.length := by
    obtain ⟨G, J, -, hp, -⟩ := hf.scratch
    have hl := hf.hdrLen
    rw [List.length_append] at hmax ⊢
    rw [toSize_natCast (by omega), sizeSub_eq (by omega) (by omega), hl, Nat.add_sub_cancel_left]
  rw [inReaddata, hf.afterHead_eq hs, ok_bind, hf.cint_len hs, ok_bind, hsize,
    toSize_natCast (show s.theNexPacket.len.toNat + 1 < 2 ^ 64 by omega)]
  rfl

theorem growReaddata_spec (env : Env) {buf : UvBuf} {w : Int} {n : Nat} (hl : buf.base.length = buf.len)
    (hw : n = w) (h0 : 0 < n) (hm : n ≤ maxAlloc) :
    ∃ buf' J, growReaddata env buf w n = .ok buf' ∧ buf'.base = buf.base ++ J ∧
      buf'.base.length = buf'.len ∧ buf'.len = max buf.len n := by
  by_cases hfit : buf.len < n
  · refine ⟨⟨buf.base ++ (List.range (n - buf.base.length)).map env.fresh, n⟩, _, ?_, rfl, ?_, ?_⟩
    · have hgrow := realloc_grow env.fresh (b := buf.base) hw h0 hm (by omega)
      simp only [growReaddata, if_pos hfit, hgrow, ok_bind, pure_ok]
    · simp only [List.length_append, List.length_map, List.length_range]; omega
    · simp only; omega
  · exact ⟨buf, [], by simp only [growReaddata, if_neg hfit, pure_ok], by simp, hl, by omega⟩

/-- A rollback puts back every byte after the head, unless the frame's size overflows. -/
theorem rollback_spec (hs : Sound head tail s) (hf : InFrame env head tail s hdr X D)
    (hD : D.length = s.theNexPacket.len.toNat + 1) (hZ : Following s.theNexPacket.len.toNat X D Z) :
    (∃ s', rollback env s = .ok s' ∧ Sound head tail s' ∧ Idle s' (hdr ++ (D ++ Z))) ∨
    (∃ x, rollback env s = .error (.intOverflow x) ∧
      intMax < s.theNexPacket.len + (netPackageHeadlen + 1)) := by
  have hlt : intMax < 2 ^ 31 := by decide
  have hlen := hf.len_lt hs
  have hlen' := hf.len_eq
  have hl := hf.hdrLen
  have hh : netPackageHeadlen = 34 := rfl
  have hmax := hf.scratch_le hs
  obtain ⟨G, J, hb, hp, hn⟩ := hf.scratch
  obtain ⟨K, hK⟩ := hf.collected
  rcases hZ with ⟨hwide, -, rfl⟩ | ⟨hnarrow, rfl⟩
  · -- The frame lies in the scratch buffer: the head is dropped there.
    left
    obtain ⟨J', hJ', hdrop⟩ := dropHead_spec (s := s) (Y := hdr ++ (D ++ Z)) (J := J)
      (by rw [hb, List.append_assoc hdr]) hp hn (by omega)
    have hrun : rollback env s = .ok { s with
        parsetype := .parseNothing
        threadReaddata := { s.threadReaddata with base := hdr ++ (D ++ Z) ++ J' }
        truepacketlen := (hdr ++ (D ++ Z)).length } := by
      simp only [rollback, inReaddata_spec hs hf, decide_eq_true hwide, ok_bind, if_true, hdrop, pure_ok]
    exact ⟨_, hrun, { hs with readLen := hJ'.trans hs.readLen }, rfl, rfl, J', rfl⟩
  · -- Header and payload are brought together again.
    have hin : inReaddata s = .ok false := by
      rw [inReaddata_spec hs hf, decide_eq_false (by omega)]
    have hsize : sizeAdd (sizeAdd netPackageHeadlen (toSize s.theNexPacket.len)) 1 = (hdr ++ D).length := by
      have hfst : sizeAdd netPackageHeadlen s.theNexPacket.len.toNat =
          netPackageHeadlen + s.theNexPacket.len.toNat := sizeAdd_eq (by omega)
      rw [hlen', toSize_natCast (by omega), hfst, sizeAdd_eq (by omega), List.length_append]
      omega
    have htotal : (hdr ++ D).length ≤ maxAlloc := by
      simp only [List.length_append, maxAlloc]; omega
    obtain ⟨buf, J₂, hgrow, hbase, hbl, hblen⟩ := growReaddata_spec env hs.readLen
      (w := netPackageHeadlen + s.theNexPacket.len + 1) (n := (hdr ++ D).length)
      (by rw [List.length_append]; omega) (by rw [List.length_append]; omega) htotal
    have hbig : (hdr ++ D).length ≤ buf.base.length := by omega
    rw [List.length_append] at hbig
    have hcopy₁ := memcpy_mid (d := buf.base) (i := 0) (s := buf.base) (j := s.headpos + 1)
      (n := netPackageHeadlen) (A := []) (B := buf.base) (G := G ++ [head]) (X := hdr)
      (D := X ++ J ++ J₂) (by simp) (by simp) (by rw [hbase, hb]; simp) (by rw [hp]; simp) hl.symm (by omega)
    have hcopy₂ := memcpy_mid (d := [] ++ (hdr ++ buf.base.drop hdr.length)) (i := netPackageHeadlen)
      (s := s.threadPacketdata.base) (j := 0) (n := D.length) (A := hdr) (B := buf.base.drop hdr.length)
      (G := []) (X := D) (D := K) (by simp) (by rw [hl]) (by rw [hK]; simp) (by simp) rfl
      (by rw [List.length_drop]; omega)
    have hrun : rollback env s = cint (netPackageHeadlen + (s.theNexPacket.len.toNat + 1 : Nat)) >>= fun m =>
        .ok { s with
          parsetype := .parseNothing
          threadReaddata := { buf with base := hdr ++ (D ++ (buf.base.drop hdr.length).drop D.length) }
          truepacketlen := m } := by
      have hneed : toSize ((s.theNexPacket.len.toNat + 1 : Nat) : Int) = D.length := by
        rw [toSize_natCast (by omega), hD]
      simp only [rollback, hin, ok_bind, hsize, hgrow]
      rw [hcopy₁, ok_bind, hf.cint_len hs, ok_bind, hneed, hcopy₂, ok_bind]
      rfl
    have hm : (netPackageHeadlen : Int) + (s.theNexPacket.len.toNat + 1 : Nat) = (hdr ++ D).length := by
      rw [List.length_append]; omega
    rw [hm] at hrun
    by_cases hfits : (hdr ++ D).length ≤ intMax
    · left
      rw [cint_ok (by omega) (by omega), ok_bind] at hrun
      refine ⟨_, hrun, ?_, rfl, by rw [List.append_nil], _, by simp only [List.append_nil, List.append_assoc]; rfl⟩
      refine { hs with readLen := ?_, readMin := ?_, readMax := ?_ }
      · simp only [List.length_append, List.length_drop]; omega
      · exact Nat.le_trans hs.readMin (by simp only; omega)
      · have := hs.readMax
        simp only; omega
    · right
      rw [cint_overflow (by omega), error_bind] at hrun
      refine ⟨_, hrun, ?_⟩
      rw [List.length_append] at hfits
      omega

theorem keepFollowing_spec (hs : Sound head tail s) (hf : InFrame env head tail s hdr X D)
    (hZ : Following s.theNexPacket.len.toNat X D Z) :
    ∃ J, (Z ++ J).length = s.threadReaddata.base.length ∧
      keepFollowing s = .ok { s with
        threadReaddata := { s.threadReaddata with base := Z ++ J }, truepacketlen := Z.length } := by
  have hlt : intMax < 2 ^ 31 := by decide
  have hlen := hf.len_lt hs
  have hlen' := hf.len_eq
  have hl := hf.hdrLen
  have hh : netPackageHeadlen = 34 := rfl
  have hmax := hf.scratch_le hs
  obtain ⟨G, J, hb, hp, hn⟩ := hf.scratch
  rcases hZ with ⟨hwide, hD, rfl⟩ | ⟨hnarrow, rfl⟩
  · -- The frame lay in the scratch buffer as a whole.
    simp only [List.length_append] at hmax hn
    have hend : sizeAdd (sizeAdd (sizeAdd (toSize s.headpos) netPackageHeadlen)
        (toSize s.theNexPacket.len)) 2 = G.length + netPackageHeadlen + s.theNexPacket.len.toNat + 2 := by
      have h1 : sizeAdd G.length netPackageHeadlen = G.length + netPackageHeadlen := sizeAdd_eq (by omega)
      have h2 : sizeAdd (G.length + netPackageHeadlen) s.theNexPacket.len.toNat =
          G.length + netPackageHeadlen + s.theNexPacket.len.toNat := sizeAdd_eq (by omega)
      rw [hp, hlen', toSize_natCast (by omega), toSize_natCast (by omega), h1, Int.toNat_natCast, h2,
        sizeAdd_eq (by omega)]
    have hleft : sizeSub (toSize s.truepacketlen)
        (G.length + netPackageHeadlen + s.theNexPacket.len.toNat + 2) = Z.length := by
      rw [toSize_of_nonneg (by omega) (by omega), sizeSub_eq (by omega) (by omega)]
      omega
    have hoff : s.headpos + netPackageHeadlen + s.theNexPacket.len + 2 = (G ++ (head :: (hdr ++ D))).length := by
      simp only [List.length_append, List.length_cons]; omega
    have hcopy := memcpy_mid (d := s.threadReaddata.base) (i := 0) (s := s.threadReaddata.base)
      (n := Z.length) (A := []) (B := s.threadReaddata.base) (G := G ++ (head :: (hdr ++ D))) (X := Z) (D := J)
      (by simp) (by simp) (by rw [hb]; simp) hoff rfl
      (by rw [hb]; simp only [List.length_append, List.length_cons]; omega)
    refine ⟨s.threadReaddata.base.drop Z.length, ?_, ?_⟩
    · rw [hb]; simp only [List.length_append, List.length_cons, List.length_drop]; omega
    · simp only [keepFollowing, inReaddata_spec hs hf, decide_eq_true hwide, ok_bind, if_true, hend, hleft]
      rw [hcopy, ok_bind, pure_ok, toInt_eq (by omega)]
      rfl
  · refine ⟨s.threadReaddata.base, by simp, ?_⟩
    simp only [keepFollowing, inReaddata_spec hs hf,
      decide_eq_false (show ¬ s.theNexPacket.len.toNat + 1 ≤ X.length by omega), ok_bind]
    rfl

theorem payloadMd5_spec {F K : List UInt8} (hs : Sound head tail s) (hf : InFrame env head tail s hdr X D)
    (hF : F.length = s.theNexPacket.len.toNat) (hb : s.threadPacketdata.base = F ++ K) :
    payloadMd5 env s = .ok (expectedCheck env F) := by
  have hlt : intMax < 2 ^ 31 := by decide
  have hlen := hf.len_lt hs
  have hlen' := hf.len_eq
  by_cases h0 : s.theNexPacket.len = 0
  · have hF0 : F.length = 0 := by omega
    simp only [payloadMd5, if_pos h0, expectedCheck, if_pos hF0, pure_ok]
  · have hF0 : F.length ≠ 0 := by omega
    have hread : memRead s.threadPacketdata.base 0 (toSize s.theNexPacket.len) = .ok F :=
      memRead_mid (A := []) (D := K) (by simpa using hb) rfl
        (by rw [toSize_of_nonneg (by omega) (by omega), hF])
    simp only [payloadMd5, if_neg h0, hread, expectedCheck, if_neg hF0, ok_bind, pure_ok]

theorem frameOk_spec {F K : List UInt8} {b : UInt8} (hs : Sound head tail s)
    (hf : InFrame env head tail s hdr X (F ++ [b])) (hF : F.length = s.theNexPacket.len.toNat)
    (hb : s.threadPacketdata.base = F ++ [b] ++ K) :
    frameOk env s = .ok (decide (charEq b tail = true ∧ s.theNexPacket.check = expectedCheck env F)) := by
  have hlen' := hf.len_eq
  have hread : memRead s.threadPacketdata.base s.theNexPacket.len 1 = .ok [b] :=
    memRead_mid (A := F) (D := K) (by simpa using hb) (by omega) rfl
  have hmd5 := payloadMd5_spec (K := b :: K) hs hf hF (by simpa using hb)
  by_cases htail : charEq b tail = true
  · simp only [frameOk, hread, ok_bind, List.headD_cons, hs.tail, htail, hmd5, not_true_eq_false, if_false,
      true_and, pure_ok]
  · simp only [frameOk, hread, ok_bind, List.headD_cons, hs.tail, htail]
    rfl

theorem deliver_spec (hs : Sound head tail c.sync) (hf : InFrame env head tail c.sync hdr X D)
    (hZ : Following c.sync.theNexPacket.len.toNat X D Z) :
    ∃ c', deliver c = .ok (.again c') ∧ Sound head tail c'.sync ∧ Idle c'.sync Z ∧ c'.iret = c.iret ∧
      c'.calls = c.calls ++ [⟨c.sync.theNexPacket, c.sync.threadPacketdata.base⟩] := by
  obtain ⟨J, hJ, hkeep⟩ := keepFollowing_spec hs hf hZ
  have hdeliver : deliver c = .ok (.again { c with
      sync := { c.sync with
        threadReaddata := { c.sync.threadReaddata with base := Z ++ J }
        truepacketlen := Z.length
        parsetype := .parseNothing }
      calls := c.calls ++ [⟨c.sync.theNexPacket, c.sync.threadPacketdata.base⟩] }) := by
    simp only [deliver, hkeep, ok_bind, hs.packetCb, if_true, pure_ok]
  exact ⟨_, hdeliver, { hs with readLen := hJ.trans hs.readLen }, ⟨rfl, rfl, J, rfl⟩, rfl, rfl⟩

/-- A complete frame is delivered, or rolled back to the byte after its head. -/
theorem checkFrame_spec (hs : Sound head tail c.sync) (hf : InFrame env head tail c.sync hdr X D)
    (hD : D.length = c.sync.theNexPacket.len.toNat + 1) (hZ : Following c.sync.theNexPacket.len.toNat X D Z)
    (hu : Unread data c R) :
    StepOut env head tail data (head :: (hdr ++ (D ++ (Z ++ R)))) (c.calls.map FullPacket.frame)
      (checkFrame env c) := by
  obtain ⟨F, b, rfl⟩ : ∃ F b, D = F ++ [b] := by
    rcases List.eq_nil_or_concat D with rfl | ⟨F, b, rfl⟩
    · cases hD
    · exact ⟨F, b, by simp⟩
  have hF : F.length = c.sync.theNexPacket.len.toNat := by
    rw [List.length_append] at hD; simpa using hD
  obtain ⟨K, hK⟩ := hf.collected
  have hT : head :: (hdr ++ (F ++ [b] ++ (Z ++ R))) = head :: (hdr ++ (F ++ b :: (Z ++ R))) := by simp
  have hv : (charScanner env head tail).verdict (head :: (hdr ++ (F ++ b :: (Z ++ R)))) =
      if charEq b tail = true ∧ c.sync.theNexPacket.check = expectedCheck env F then
        .move (netPackageHeadlen + F.length + 2) (some ⟨c.sync.theNexPacket, F⟩)
      else .move 1 none := by
    have hacc := hf.accepted
    rw [hf.next] at hacc hF ⊢
    exact (frameVerdict_header hf.hdrLen).trans ((if_pos hacc).trans (bodyVerdict_complete hF b _))
  rw [hT, checkFrame_frameOk, frameOk_spec hs hf hF hK, ok_bind]
  split
  · -- delivered
    next hgood =>
    rw [if_pos (of_decide_eq_true hgood)] at hv
    obtain ⟨c', hdeliver, hs', hi', hiret, hcalls⟩ := deliver_spec hs hf hZ
    rw [hdeliver]
    have hdrop : (head :: (hdr ++ (F ++ b :: (Z ++ R)))).drop (netPackageHeadlen + F.length + 2) = Z ++ R := by
      have hl : (head :: (hdr ++ (F ++ [b]))).length = netPackageHeadlen + F.length + 2 := by
        have := hf.hdrLen
        simp only [List.length_append, List.length_cons, List.length_nil]; omega
      have hcut : head :: (hdr ++ (F ++ b :: (Z ++ R))) = head :: (hdr ++ (F ++ [b])) ++ (Z ++ R) := by simp
      rw [hcut, ← hl, List.drop_left]
    have hpath : Path (charScanner env head tail) (head :: (hdr ++ (F ++ b :: (Z ++ R))))
        [⟨c.sync.theNexPacket, F⟩] (Z ++ R) := .move hv (by rw [hdrop]; exact .refl _)
    refine .again hs' hi' (hu.same hiret) hpath ?_ (.inl ?_)
    · rw [hcalls, List.map_append, hK]
      simp [FullPacket.frame, ← hF]
    · simp only [List.length_append, List.length_cons]; omega
  · -- rolled back
    next hbad =>
    rw [if_neg (of_decide_eq_false (eq_false_of_ne_true hbad))] at hv
    rcases rollback_spec hs hf hD hZ with ⟨s', hroll, hs', hi'⟩ | ⟨x, herr, hx⟩
    · rw [hroll, ok_bind]
      refine .again (o := []) hs' hi' hu (.skip (n := 1) hv ?_) (by simp) (.inl ?_)
      · rw [show hdr ++ (F ++ [b] ++ Z) ++ R = hdr ++ (F ++ b :: (Z ++ R)) by simp]
        exact .refl _
      · simp only [List.length_append, List.length_cons, List.length_nil]; omega
    · rw [herr, error_bind]
      refine .overflow (.refl _) (.inl fun hfits => ?_)
      have hacc := hf.accepted
      rw [hf.next] at hacc hx
      have := (hfits _ ⟨hdr, _, rfl, hf.hdrLen, rfl, hacc⟩).2 hv
      omega

/-- What `collect` computes before it copies, on a frame that is not complete. -/
theorem collect_reads {pre : List UInt8} (hd : (pre ++ R).length ≤ intMax) (hs : Sound head tail c.sync)
    (hf : InFrame env head tail c.sync hdr X D) (hD : D.length < c.sync.theNexPacket.len.toNat + 1)
    (hiret : c.iret = pre.length) :
    cint (c.sync.theNexPacket.len + 1) = .ok (c.sync.theNexPacket.len.toNat + 1 : Nat) ∧
    c.sync.getdatalen < ((c.sync.theNexPacket.len.toNat + 1 : Nat) : Int) ∧
    cint (((pre ++ R).length : Int) - c.iret) = .ok R.length ∧
    c.sync.getdatalen + R.length = (D.length + R.length : Nat) := by
  rw [List.length_append] at hd
  refine ⟨hf.cint_len hs, ?_, ?_, ?_⟩
  · rw [hf.got]; omega
  · exact cint_nat (by rw [hiret, List.length_append]; omega) (by omega)
  · rw [hf.got]; omega

/-- How collecting ends, for a frame whose header is `hdr`, with `D` collected, `Z` beyond it
in the scratch buffer and `R` unread: inside the frame, with the frame complete, or where
`getdatalen + (len - iret)` overflows. -/
inductive Gathered (env : Env) (head tail : UInt8) (data : List UInt8) (c : Recv) (hdr X D Z R : List UInt8) :
    C Flow → Prop where
  | ret {c' : Recv} (hs : Sound head tail c'.sync) (hf : InFrame env head tail c'.sync hdr X (D ++ R))
      (hx : X.length < c'.sync.theNexPacket.len.toNat + 1)
      (hd : (D ++ R).length < c'.sync.theNexPacket.len.toNat + 1) (hz : Z = [])
      (hu : c'.iret = (data.length : Int)) (hc : c'.calls = c.calls) :
      Gathered env head tail data c hdr X D Z R (.ok (.ret c'))
  | go {c' : Recv} {B S : List UInt8} (hs : Sound head tail c'.sync) (hf : InFrame env head tail c'.sync hdr X B)
      (hd : B.length = c'.sync.theNexPacket.len.toNat + 1)
      (hz : Following c'.sync.theNexPacket.len.toNat X B Z) (hu : Unread data c' S)
      (hsame : D ++ (Z ++ R) = B ++ (Z ++ S)) (hc : c'.calls = c.calls) :
      Gathered env head tail data c hdr X D Z R (.ok (.go c'))
  | overflow (hov : intMax < D.length + R.length) :
      Gathered env head tail data c hdr X D Z R (.error (.intOverflow (D.length + R.length : Nat)))

theorem gather_overflow (hd : data.length ≤ intMax) (hs : Sound head tail c.sync)
    (hf : InFrame env head tail c.sync hdr X D) (hD : D.length < c.sync.theNexPacket.len.toNat + 1)
    (hu : Unread data c R) (hov : intMax < D.length + R.length) :
    gather data c = .error (.intOverflow (D.length + R.length : Nat)) := by
  obtain ⟨pre, rfl, hiret⟩ := hu
  obtain ⟨hn, hmore, hleft, hsum⟩ := collect_reads hd hs hf hD hiret
  simp only [gather, hn, ok_bind, if_pos hmore, hleft]
  rw [hsum, cint_overflow (by omega), error_bind]

/-- The chunk ends inside the frame: all of it is kept, and the call returns. -/
theorem gather_part (hd : data.length ≤ intMax) (hs : Sound head tail c.sync)
    (hf : InFrame env head tail c.sync hdr X D) (hX : X.length < c.sync.theNexPacket.len.toNat + 1)
    (hu : Unread data c R) (hpart : D.length + R.length < c.sync.theNexPacket.len.toNat + 1) :
    Gathered env head tail data c hdr X D [] R (gather data c) := by
  have hlt : intMax < 2 ^ 31 := by decide
  have hlen := hf.len_lt hs
  have hroom := hf.room
  have hpack := hs.packLen
  obtain ⟨K, hK⟩ := hf.collected
  obtain ⟨pre, rfl, hiret⟩ := hu
  obtain ⟨hn, hmore, hleft, hsum⟩ := collect_reads hd hs hf (by omega) hiret
  have hRK : R.length ≤ K.length := by rw [hK, List.length_append] at hpack; omega
  have hkept : (D ++ (R ++ K.drop R.length)).length = c.sync.threadPacketdata.base.length := by
    rw [hK]; simp only [List.length_append, List.length_drop]; omega
  have hcopy := memcpy_mid (d := c.sync.threadPacketdata.base) (i := c.sync.getdatalen) (s := pre ++ R)
    (j := c.iret) (n := R.length) (D := []) hK hf.got (by simp) hiret rfl hRK
  have hlessn : ((D.length + R.length : Nat) : Int) < (c.sync.theNexPacket.len.toNat + 1 : Nat) := by omega
  have hstep : gather (pre ++ R) c = .ok (.ret { c with
      sync := { c.sync with
        threadPacketdata := { c.sync.threadPacketdata with base := D ++ (R ++ K.drop R.length) }
        getdatalen := (D.length + R.length : Nat) }
      iret := (pre ++ R).length }) := by
    simp only [gather, hn, ok_bind, if_pos hmore, hleft]
    rw [hsum, cint_ok (by omega) (by omega), ok_bind, if_pos hlessn, toSize_natCast (by omega), hcopy, ok_bind,
      pure_ok]
  rw [hstep]
  refine .ret ?_ ?_ hX ?_ rfl rfl rfl
  · exact { hs with packLen := hkept.trans hpack, got := by simp only; omega }
  · exact { hf with
      got := by simp only [List.length_append]
      collected := ⟨_, (List.append_assoc ..).symm⟩ }
  · rw [List.length_append]; exact hpart

theorem gather_rest (hd : data.length ≤ intMax) (hs : Sound head tail c.sync)
    (hf : InFrame env head tail c.sync hdr X D) (hX : X.length < c.sync.theNexPacket.len.toNat + 1)
    (hD : D.length < c.sync.theNexPacket.len.toNat + 1) (hu : Unread data c R)
    (hov : D.length + R.length ≤ intMax) (hrest : c.sync.theNexPacket.len.toNat + 1 ≤ D.length + R.length) :
    Gathered env head tail data c hdr X D [] R (gather data c) := by
  have hlt : intMax < 2 ^ 31 := by decide
  have hlen := hf.len_lt hs
  obtain ⟨pre, rfl, hiret⟩ := hu
  obtain ⟨hn, hmore, hleft, hsum⟩ := collect_reads hd hs hf hD hiret
  obtain ⟨E, R', rfl, hE⟩ : ∃ E R', R = E ++ R' ∧ E.length = c.sync.theNexPacket.len.toNat + 1 - D.length :=
    ⟨_, _, (List.take_append_drop ..).symm, List.length_take_of_le (by omega)⟩
  have hroom := hf.room
  have hpack := hs.packLen
  obtain ⟨K, hK⟩ := hf.collected
  have hEK : E.length ≤ K.length := by rw [hK, List.length_append] at hpack; omega
  have hkept : (D ++ (E ++ K.drop E.length)).length = c.sync.threadPacketdata.base.length := by
    rw [hK]; simp only [List.length_append, List.length_drop]; omega
  have hcopy := memcpy_mid (d := c.sync.threadPacketdata.base) (i := c.sync.getdatalen)
    (s := pre ++ (E ++ R')) (j := c.iret) (n := E.length) (D := R') hK hf.got rfl hiret rfl hEK
  have hlessn : ¬ ((D.length + (E ++ R').length : Nat) : Int) < (c.sync.theNexPacket.len.toNat + 1 : Nat) := by
    omega
  have hneed : ((c.sync.theNexPacket.len.toNat + 1 : Nat) : Int) - c.sync.getdatalen = E.length := by
    rw [hf.got]; omega
  simp only [List.length_append] at hd hov
  have hstep : gather (pre ++ (E ++ R')) c = .ok (.go { c with
      sync := { c.sync with
        threadPacketdata := { c.sync.threadPacketdata with base := D ++ (E ++ K.drop E.length) }
        getdatalen := (c.sync.theNexPacket.len.toNat + 1 : Nat) }
      iret := (pre ++ E).length }) := by
    simp only [gather, hn, ok_bind, if_pos hmore, hleft]
    rw [hsum, cint_ok (by omega) (by rw [List.length_append]; omega), ok_bind, if_neg hlessn, hneed,
      cint_ok (by omega) (by omega), ok_bind, toSize_natCast (by omega), hcopy, ok_bind, hiret,
      cint_ok (by omega) (by omega), ok_bind, List.length_append]
    rfl
  rw [hstep]
  refine .go (B := D ++ E) (S := R') ?_ ?_ ?_ (.inr ⟨hX, rfl⟩) ⟨pre ++ E, by simp, rfl⟩ (by simp) rfl
  · exact { hs with packLen := hkept.trans hpack, got := by simp only; omega }
  · exact { hf with
      got := by simp only [List.length_append]; omega
      collected := ⟨_, (List.append_assoc ..).symm⟩ }
  · simp only [List.length_append]; omega

/-- Collecting: the chunk ends inside the frame, or the frame is complete. -/
theorem gather_spec (hd : data.length ≤ intMax) (hs : Sound head tail c.sync)
    (hf : InFrame env head tail c.sync hdr X D) (hD : D.length ≤ c.sync.theNexPacket.len.toNat + 1)
    (hZ : Following c.sync.theNexPacket.len.toNat X D Z) (hu : Unread data c R) :
    Gathered env head tail data c hdr X D Z R (gather data c) := by
  by_cases hfull : D.length = c.sync.theNexPacket.len.toNat + 1
  · have hno : ¬ c.sync.getdatalen < ((c.sync.theNexPacket.len.toNat + 1 : Nat) : Int) := by
      rw [hf.got]; omega
    have hstep : gather data c = .ok (.go c) := by
      simp only [gather, hf.cint_len hs, ok_bind, if_neg hno, pure_ok]
    rw [hstep]
    exact .go hs hf hfull hZ hu rfl rfl
  · obtain ⟨hX, rfl⟩ : X.length < c.sync.theNexPacket.len.toNat + 1 ∧ Z = [] := by
      rcases hZ with ⟨-, hD', -⟩ | hZ
      · exact absurd hD' hfull
      · exact hZ
    have hD' : D.length < c.sync.theNexPacket.len.toNat + 1 := by omega
    by_cases hov : intMax < D.length + R.length
    · rw [gather_overflow hd hs hf hD' hu hov]
      exact .overflow hov
    by_cases hpart : D.length + R.length < c.sync.theNexPacket.len.toNat + 1
    · exact gather_part hd hs hf hX hu hpart
    · exact gather_rest hd hs hf hX hD' hu (by omega) (by omega)

theorem collect_spec (hd : data.length ≤ intMax) (hs : Sound head tail c.sync)
    (hf : InFrame env head tail c.sync hdr X D) (hD : D.length ≤ c.sync.theNexPacket.len.toNat + 1)
    (hZ : Following c.sync.theNexPacket.len.toNat X D Z) (hu : Unread data c R) :
    StepOut env head tail data (head :: (hdr ++ (D ++ (Z ++ R)))) (c.calls.map FullPacket.frame)
      (collect env data c) := by
  have hgather := gather_spec hd hs hf hD hZ hu
  rw [collect_gather]
  cases hg : gather data c with
  | error e =>
    rw [hg] at hgather
    cases hgather with
    | overflow hov =>
      refine .overflow (.refl _) (.inr ?_)
      have := hf.hdrLen
      simp only [List.length_append, List.length_cons]; omega
  | ok flow =>
    rw [hg] at hgather
    rw [ok_bind]
    cases hgather with
    | @ret c' hs' hf' hx' hd' hz hu' hc =>
      subst hz
      exact .ret (P := head :: (hdr ++ (D ++ R))) (o := []) hs' (.frame hf' hx' hd') hu' (.refl _) (by simp [hc])
        hf'.parsetype
    | @go c' B S hs' hf' hd' hz hu' hsame hc =>
      rw [hsame, ← hc]
      exact checkFrame_spec hs' hf' hd' hz hu'

end Frame

end Uvnet

import Uvnet.RecvState

/- The `PARSE_NOTHING` block of `recvdata`: filling the scratch buffer, finding a head and
   accepting or rejecting the header behind it. `parseHead_spec` joins the four ways it ends. -/
namespace Uvnet
open CMachine StreamScan

section Head
variable {env : Env} {head tail : UInt8} {data : List UInt8} {c : Recv} {P R : List UInt8}

theorem fill_spec (hd : data.length ≤ intMax) (hs : Sound head tail c.sync) (hi : Idle c.sync P)
    (hu : Unread data c R) :
    ∃ c₁ A B, R = A ++ B ∧ Filled head tail data c c₁ (P ++ A) B := by
  obtain ⟨pre, rfl, hiret⟩ := hu
  obtain ⟨J, hJ⟩ := hi.buffered
  have hmax : intMax < 2 ^ 31 := by decide
  have hlen := hs.readLen
  have hle := hs.readMax
  rw [hJ, List.length_append] at hlen
  rw [List.length_append] at hd
  have hspace : sizeSub c.sync.threadReaddata.len (toSize c.sync.truepacketlen) = J.length := by
    rw [hi.valid, toSize_natCast (by omega), sizeSub_eq (by omega) (by omega)]
    omega
  have hcint : cint (((pre ++ R).length : Int) - c.iret) = .ok R.length :=
    cint_nat (by rw [hiret, List.length_append]; omega) (by omega)
  by_cases hfit : R.length ≤ J.length
  · -- the chunk fits into the scratch buffer
    have hcopy := memcpy_mid (d := c.sync.threadReaddata.base) (i := c.sync.truepacketlen)
      (s := pre ++ R) (j := c.iret) (n := R.length) (D := []) hJ hi.valid (by simp) hiret rfl hfit
    have hadd : cint (c.sync.truepacketlen + R.length) = .ok ((P ++ R).length : Int) :=
      cint_nat (by rw [hi.valid, List.length_append]; omega) (by rw [List.length_append]; omega)
    have hfill : fill (pre ++ R) c = .ok { c with
        sync := { c.sync with
          threadReaddata := { c.sync.threadReaddata with base := P ++ (R ++ J.drop R.length) }
          truepacketlen := ((P ++ R).length : Int) }
        iret := (pre ++ R).length } := by
      simp only [fill, hspace, hcint, ok_bind, toSize_natCast (show R.length < 2 ^ 64 by omega),
        if_pos hfit, hcopy, hadd, pure_ok]
    refine ⟨_, R, [], by simp, hfill, ?_, ?_, ?_, rfl, .inl rfl⟩
    · exact { hs with readLen := by simp only [List.length_append, List.length_drop]; omega }
    · exact ⟨hi.parsetype, rfl, _, by simp only [← List.append_assoc]; rfl⟩
    · exact ⟨pre ++ R, by simp, rfl⟩
  · -- the scratch buffer fills up
    have htake : (R.take J.length).length = J.length := List.length_take_of_le (by omega)
    have hcopy := memcpy_mid (d := c.sync.threadReaddata.base) (i := c.sync.truepacketlen)
      (s := pre ++ R) (j := c.iret) (n := J.length) (X := R.take J.length) (D := R.drop J.length)
      hJ hi.valid (by rw [List.take_append_drop]) hiret htake.symm (by omega)
    have hread : toInt c.sync.threadReaddata.len = ((P ++ R.take J.length).length : Int) := by
      rw [toInt_eq hle, List.length_append, htake, hlen]
    have hnext : toInt (sizeAdd (toSize c.iret) J.length) = ((pre ++ R.take J.length).length : Int) := by
      rw [hiret, toSize_natCast (by omega), sizeAdd_eq (by omega), toInt_eq (by omega),
        List.length_append, htake]
    have hfill : fill (pre ++ R) c = .ok { c with
        sync := { c.sync with
          threadReaddata := { c.sync.threadReaddata with
            base := P ++ (R.take J.length ++ J.drop (R.take J.length).length) }
          truepacketlen := ((P ++ R.take J.length).length : Int) }
        iret := (pre ++ R.take J.length).length } := by
      simp only [fill, hspace, hcint, ok_bind, toSize_natCast (show R.length < 2 ^ 64 by omega),
        if_neg hfit, hcopy, hread, hnext, pure_ok]
    refine ⟨_, R.take J.length, R.drop J.length, (List.take_append_drop ..).symm, hfill, ?_, ?_, ?_, rfl,
      .inr ?_⟩
    · exact { hs with readLen := by simp only [List.length_append, List.length_drop]; omega }
    · exact ⟨hi.parsetype, rfl, _, by simp only [← List.append_assoc]; rfl⟩
    · exact ⟨pre ++ R.take J.length, by simp, rfl⟩
    · simp only [List.length_append, htake]; omega

/-- The packet buffer ends up with room for payload and tail, or `datalen + 1` overflows. -/
theorem growPacketdata_spec (env : Env) {buf : UvBuf} {p : NetPacket} (hl : buf.base.length = buf.len)
    (hmax : buf.len ≤ intMax) (hp : 0 ≤ p.len) (hpmax : p.len ≤ intMax) :
    ((p.len : Int) = intMax ∧ growPacketdata env buf p = .error (.intOverflow (intMax + 1))) ∨
    ∃ buf', growPacketdata env buf p = .ok buf' ∧ buf'.base.length = buf'.len ∧
      p.len.toNat + 1 ≤ buf'.len ∧ buf'.len ≤ intMax := by
  have hlt : intMax < 2 ^ 31 := by decide
  have hadd : sizeAdd (toSize p.len) 1 = p.len.toNat + 1 := by
    rw [toSize_of_nonneg hp (by omega), sizeAdd_eq (by omega)]
  by_cases hfit : p.len.toNat + 1 ≤ buf.len
  · exact .inr ⟨buf, by simp only [growPacketdata, hadd, if_neg (Nat.not_lt.2 hfit), pure_ok], hl, hfit, hmax⟩
  · have hgrow : buf.len < p.len.toNat + 1 := by omega
    by_cases htop : p.len = intMax
    · refine .inl ⟨htop, ?_⟩
      simp only [growPacketdata, hadd, if_pos hgrow]
      rw [htop, cint_overflow (by omega), error_bind]
    · have hn : p.len + 1 = (p.len.toNat + 1 : Nat) := by omega
      have hmaxA : p.len.toNat + 1 ≤ maxAlloc := by simp only [maxAlloc]; omega
      have hgrown : growPacketdata env buf p = .ok ⟨buf.base ++
          (List.range (p.len.toNat + 1 - buf.base.length)).map env.fresh, p.len.toNat + 1⟩ := by
        simp only [growPacketdata, hadd, if_pos hgrow]
        rw [hn, cint_ok (by omega) (by omega), ok_bind, toSize_natCast (by omega),
          realloc_grow env.fresh (by omega) (by omega) hmaxA (by omega), ok_bind, pure_ok]
      refine .inr ⟨_, hgrown, ?_, Nat.le_refl _, by simp only; omega⟩
      simp only [List.length_append, List.length_map, List.length_range]
      omega

theorem min_length_take {α : Type} (X : List α) (n : Nat) :
    min (X.length : Int) n = (X.take n).length := by
  rw [List.length_take]
  omega

/-- An accepted header: take of the payload and tail what the scratch buffer has. -/
theorem acceptHead_spec {s : PacketSync} {G hdr X J : List UInt8} (hs : Sound head tail s)
    (hb : s.threadReaddata.base = G ++ (head :: (hdr ++ (X ++ J)))) (hp : s.headpos = G.length)
    (hn : s.truepacketlen = G.length + (1 + (hdr ++ X).length : Nat))
    (hl : hdr.length = netPackageHeadlen) (hacc : Accepted head tail (charToNetPacket env.endian hdr))
    (hc : c.sync = s) :
    ((charToNetPacket env.endian hdr).len = intMax ∧
      acceptHead env c (charToNetPacket env.endian hdr) = .error (.intOverflow (intMax + 1))) ∨
    ∃ c', acceptHead env c (charToNetPacket env.endian hdr) = .ok (.go c') ∧ Sound head tail c'.sync ∧
      InFrame env head tail c'.sync hdr X (X.take ((charToNetPacket env.endian hdr).len.toNat + 1)) ∧
      c'.iret = c.iret ∧ c'.calls = c.calls := by
  subst hc
  have hlt : intMax < 2 ^ 31 := by decide
  have hh : netPackageHeadlen = 34 := rfl
  generalize hpk : charToNetPacket env.endian hdr = p at hacc ⊢
  have hp0 := hacc.2.2
  have hpmax := p.len_le
  have hbase := congrArg List.length hb
  have hreadLen := hs.readLen
  have hreadMax := hs.readMax
  simp only [List.length_append, List.length_cons] at hbase hn
  rcases growPacketdata_spec env hs.packLen hs.packMax hp0 hpmax with ⟨htop, herr⟩ |
    ⟨buf, hgrow, hbl, hroom, hbmax⟩
  · left
    exact ⟨htop, by simp only [acceptHead, herr, error_bind]⟩
  · right
    have hafter : afterHead c.sync = .ok ((hdr ++ X).length : Nat) :=
      afterHead_eq hp (by rw [hn, List.length_append]) (by rw [List.length_append]; omega)
    have hn1 : cint (p.len + 1) = .ok (p.len.toNat + 1 : Nat) := cint_nat (by omega) (by omega)
    have hsub : toInt (sizeSub (toSize ((hdr ++ X).length : Nat)) netPackageHeadlen) = X.length := by
      rw [List.length_append, toSize_natCast (by omega), sizeSub_eq (by omega) (by omega),
        toInt_eq (by omega), hl, Nat.add_sub_cancel_left]
    have hgot := min_length_take X (p.len.toNat + 1)
    have htl : (X.take (p.len.toNat + 1)).length ≤ p.len.toNat + 1 := List.length_take_le _ _
    -- `memcpy` of nothing is left out in the source.
    have hcopy : takeAhead c.sync buf.base (X.take (p.len.toNat + 1)).length =
        .ok (X.take (p.len.toNat + 1) ++ buf.base.drop (X.take (p.len.toNat + 1)).length) := by
      unfold takeAhead
      split
      · rw [toSize_natCast (by omega)]
        exact memcpy_mid (A := []) (B := buf.base) (G := G ++ (head :: hdr))
          (D := X.drop (p.len.toNat + 1) ++ J) (by simp) (by simp)
          (by rw [hb, ← List.append_assoc (X.take _), List.take_append_drop]; simp)
          (by rw [hp]; simp; omega) rfl (by omega)
      · have : X.take (p.len.toNat + 1) = [] := List.eq_nil_of_length_eq_zero (by omega)
        rw [this]
        rfl
    have haccept : acceptHead env c p = .ok (.go { c with sync := { c.sync with
        parsetype := .parseHead
        theNexPacket := p
        threadPacketdata := { buf with
          base := X.take (p.len.toNat + 1) ++ buf.base.drop (X.take (p.len.toNat + 1)).length }
        getdatalen := (X.take (p.len.toNat + 1)).length } }) := by
      simp only [acceptHead, hgrow, hafter, ok_bind]
      rw [hn1, ok_bind, hsub, hgot, hcopy]
      rfl
    refine ⟨_, haccept, ?_, ?_, rfl, rfl⟩
    · exact { hs with
        packLen := by simp only [List.length_append, List.length_drop]; omega
        packMax := hbmax
        got := by simp only; omega }
    · exact { parsetype := rfl, hdrLen := hl, next := hpk.symm, accepted := hacc, room := hroom
              scratch := ⟨G, J, hb, hp, by rw [hn, List.length_append]⟩, got := rfl, collected := ⟨_, rfl⟩ }

variable {c₁ : Recv} {G Y B : List UInt8}

theorem Filled.frames (hf : Filled head tail data c c₁ P B) :
    c₁.calls.map FullPacket.frame = c.calls.map FullPacket.frame ++ [] := by
  rw [hf.calls, List.append_nil]

theorem Filled.length_le (hf : Filled head tail data c c₁ P B) : P.length ≤ intMax := by
  obtain ⟨J, hJ⟩ := hf.idle.buffered
  have hlen := congrArg List.length hJ
  have hmax := hf.sound.readMax
  rw [hf.sound.readLen, List.length_append] at hlen
  omega

theorem Filled.found (hf : Filled head tail data c c₁ (G ++ head :: Y) B) (hG : head ∉ G) :
    G.length + (1 + Y.length) ≤ intMax ∧ c₁.sync.truepacketlen = G.length + (1 + Y.length : Nat) ∧
      (∃ J, c₁.sync.threadReaddata.base = G ++ (head :: (Y ++ J))) ∧
      memchr c₁.sync.threadReaddata.base c₁.sync.head (toSize c₁.sync.truepacketlen) =
        .ok (some G.length) ∧
      afterHead { c₁.sync with headpos := (G.length : Int) } = .ok Y.length := by
  have hlt : intMax < 2 ^ 31 := by decide
  have hmax := hf.length_le
  have hlen : (G ++ head :: Y).length = G.length + (1 + Y.length) := by
    simp only [List.length_append, List.length_cons]; omega
  obtain ⟨J, hJ⟩ := hf.idle.buffered
  have hbase : c₁.sync.threadReaddata.base = G ++ (head :: (Y ++ J)) := by rw [hJ]; simp
  have hvalid : c₁.sync.truepacketlen = G.length + (1 + Y.length : Nat) := by
    rw [hf.idle.valid, hlen]; omega
  have htrue : toSize c₁.sync.truepacketlen = G.length + (Y.length + 1) := by
    rw [hf.idle.valid, toSize_natCast (by omega)]; omega
  exact ⟨by omega, hvalid, ⟨J, hbase⟩,
    memchr_first (Y := Y) (J := J) (by rw [hbase, hf.sound.head]; rfl) htrue (hf.sound.head ▸ hG),
    afterHead_eq rfl hvalid (by omega)⟩

theorem Filled.path (hG : head ∉ G) :
    Path (charScanner env head tail) (G ++ head :: Y ++ B) [] (head :: Y ++ B) := by
  rw [List.append_assoc]
  exact path_garbage hG _

theorem parseHead_absent (hf : Filled head tail data c c₁ P B) (hmem : head ∉ P) :
    ∃ c', parseHead env data c = .ok (.again c') ∧
      StepOut env head tail data (P ++ B) (c.calls.map FullPacket.frame) (.ok (.again c')) := by
  have hlt : intMax < 2 ^ 31 := by decide
  have hmax := hf.length_le
  obtain ⟨J, hJ⟩ := hf.idle.buffered
  have htrue : toSize c₁.sync.truepacketlen = P.length := by
    rw [hf.idle.valid, toSize_natCast (by omega)]
  have hchr : memchr c₁.sync.threadReaddata.base c₁.sync.head (toSize c₁.sync.truepacketlen) = .ok none :=
    memchr_absent hJ htrue (hf.sound.head ▸ hmem)
  have hstep : parseHead env data c = .ok (.again { c₁ with sync := { c₁.sync with truepacketlen := 0 } }) := by
    simp only [parseHead, parseHeadWith, hf.fill, hchr, ok_bind, pure_ok]
  refine ⟨_, hstep, ?_⟩
  refine .again (P := []) (R := B) { hf.sound with } ⟨hf.idle.parsetype, rfl, _, rfl⟩ hf.unread
    (path_garbage hmem B) hf.frames ?_
  rcases hf.full with hB | hfull
  · exact .inr ⟨hB, by decide⟩
  · left
    have hmin := hf.sound.readMin
    have hbs : bufferSize = 10240 := rfl
    simp only [List.nil_append, List.length_append]
    omega

theorem parseHead_short (hf : Filled head tail data c c₁ (G ++ head :: Y) B) (hG : head ∉ G)
    (hshort : Y.length < netPackageHeadlen) :
    ∃ c', parseHead env data c = .ok (.again c') ∧
      StepOut env head tail data (G ++ head :: Y ++ B) (c.calls.map FullPacket.frame) (.ok (.again c')) := by
  have hlt : intMax < 2 ^ 31 := by decide
  have hh : netPackageHeadlen = 34 := rfl
  obtain ⟨hmax, hvalid, ⟨J, hbase⟩, hchr, hafter⟩ := hf.found hG
  have hGmax : G.length ≤ intMax := by omega
  have hif : toSize (Y.length : Int) < netPackageHeadlen := by rw [toSize_natCast (by omega)]; exact hshort
  by_cases hG0 : (G.length : Int) ≠ 0
  · -- The head moves to the front.
    have hcopy := memcpy_mid (d := c₁.sync.threadReaddata.base) (i := 0)
      (s := c₁.sync.threadReaddata.base) (j := G.length) (n := (head :: Y).length) (A := [])
      (B := c₁.sync.threadReaddata.base) (G := G) (X := head :: Y) (D := J) (by simp) (by simp)
      (by rw [hbase]; simp) rfl rfl
      (by rw [hbase]; simp only [List.length_append, List.length_cons]; omega)
    have hn : cint (c₁.sync.truepacketlen - G.length) = .ok ((head :: Y).length : Int) :=
      cint_nat (by rw [hvalid, List.length_cons]; omega) (by rw [List.length_cons]; omega)
    have hstep : parseHead env data c = .ok (.again { c₁ with sync := { c₁.sync with
        headpos := G.length
        threadReaddata := { c₁.sync.threadReaddata with
          base := [] ++ (head :: Y ++ c₁.sync.threadReaddata.base.drop (head :: Y).length) }
        truepacketlen := (head :: Y).length } }) := by
      simp only [parseHead, parseHeadWith, hf.fill, hchr, toInt_eq hGmax, hafter, ok_bind, if_pos hif, if_pos hG0]
      rw [hn, ok_bind, toSize_natCast (by rw [List.length_cons]; omega), hcopy, ok_bind, pure_ok]
    refine ⟨_, hstep, ?_⟩
    refine .again (P := head :: Y) { hf.sound with readLen := ?_ } ⟨hf.idle.parsetype, rfl, _, rfl⟩ hf.unread
      (Filled.path hG) hf.frames (.inl (by simp only [List.length_append, List.length_cons]; omega))
    rw [← hf.sound.readLen, hbase]
    simp only [List.nil_append, List.length_append, List.length_cons, List.length_drop]
    omega
  · have hG' : G = [] := List.eq_nil_of_length_eq_zero (by omega)
    have hstep : parseHead env data c = .ok (.again { c₁ with sync := { c₁.sync with
        headpos := G.length } }) := by
      simp only [parseHead, parseHeadWith, hf.fill, hchr, toInt_eq hGmax, hafter, ok_bind, if_pos hif, if_neg hG0, pure_ok]
    refine ⟨_, hstep, ?_⟩
    subst hG'
    have hB : B = [] := by
      rcases hf.full with hB | hfull
      · exact hB
      · have hmin := hf.sound.readMin
        have hbs : bufferSize = 10240 := rfl
        rw [List.nil_append, List.length_cons] at hfull
        omega
    exact .again (P := head :: Y) { hf.sound with }
      ⟨hf.idle.parsetype, hf.idle.valid, hf.idle.buffered⟩ hf.unread (Filled.path hG) hf.frames
      (.inr ⟨hB, by rw [List.length_cons]; omega⟩)

variable {hdr X : List UInt8}

theorem Filled.read (hf : Filled head tail data c c₁ (G ++ head :: (hdr ++ X)) B) (hG : head ∉ G)
    (hl : hdr.length = netPackageHeadlen) :
    memRead c₁.sync.threadReaddata.base ((G.length : Int) + 1) netPackageHeadlen = .ok hdr := by
  obtain ⟨-, -, ⟨J, hbase⟩, -, -⟩ := hf.found hG
  exact memRead_mid (A := G ++ [head]) (B := hdr) (D := X ++ J) (by rw [hbase]; simp) (by simp) hl.symm

theorem Filled.valid_iff (hf : Filled head tail data c c₁ P B) {p : NetPacket} :
    p.header ≠ c₁.sync.head ∨ p.tail ≠ c₁.sync.tail ∨ p.len < 0 ↔ ¬ Accepted head tail p := by
  rw [hf.sound.head, hf.sound.tail, Accepted, not_and_or, not_and_or, Int.not_le]

/-- With the header complete, the block decodes it and goes on by the validity test. -/
theorem parseHead_header (hf : Filled head tail data c c₁ (G ++ head :: (hdr ++ X)) B) (hG : head ∉ G)
    (hl : hdr.length = netPackageHeadlen) :
    parseHead env data c =
      if Accepted head tail (charToNetPacket env.endian hdr) then
        acceptHead env { c₁ with sync := { c₁.sync with headpos := G.length } } (charToNetPacket env.endian hdr)
      else do
        let s ← dropHead { c₁.sync with
          headpos := G.length, theNexPacket := charToNetPacket env.endian hdr }
        return .again { c₁ with sync := s } := by
  have hlt : intMax < 2 ^ 31 := by decide
  obtain ⟨hmax, -, -, hchr, hafter⟩ := hf.found hG
  rw [List.length_append] at hmax
  have hGmax : G.length ≤ intMax := by omega
  have hif : ¬ toSize ((hdr ++ X).length : Int) < netPackageHeadlen := by
    rw [List.length_append, toSize_natCast (by omega)]; omega
  simp only [parseHead, parseHeadWith, hf.fill, hchr, toInt_eq hGmax, hafter, ok_bind, if_neg hif, hf.read hG hl, pure_ok,
    hf.valid_iff, ite_not]

theorem parseHead_rejected (hf : Filled head tail data c c₁ (G ++ head :: (hdr ++ X)) B) (hG : head ∉ G)
    (hl : hdr.length = netPackageHeadlen) (hacc : ¬ Accepted head tail (charToNetPacket env.endian hdr)) :
    ∃ c', parseHead env data c = .ok (.again c') ∧
      StepOut env head tail data (G ++ head :: (hdr ++ X) ++ B) (c.calls.map FullPacket.frame)
        (.ok (.again c')) := by
  obtain ⟨hmax, hvalid, ⟨J, hbase⟩, -, -⟩ := hf.found hG
  obtain ⟨J', hJ', hdrop⟩ := dropHead_spec
    (s := { c₁.sync with headpos := G.length, theNexPacket := charToNetPacket env.endian hdr })
    hbase rfl hvalid hmax
  rw [parseHead_header hf hG hl, if_neg hacc, hdrop, ok_bind, pure_ok]
  refine ⟨_, rfl, ?_⟩
  refine .again (P := hdr ++ X) { hf.sound with readLen := hJ'.trans hf.sound.readLen }
    ⟨hf.idle.parsetype, rfl, J', rfl⟩ hf.unread ((Filled.path hG).trans (.skip (n := 1) ?_ (.refl _))) hf.frames
    (.inl (by simp only [List.length_append, List.length_cons]; omega))
  rw [List.cons_append, List.append_assoc]
  exact (frameVerdict_header hl).trans (if_neg hacc)

theorem acceptedHeader_header (hf : Filled head tail data c c₁ (G ++ head :: (hdr ++ X)) B) (hG : head ∉ G)
    (hl : hdr.length = netPackageHeadlen) (hi : c.sync.parsetype = .parseNothing)
    (hacc : Accepted head tail (charToNetPacket env.endian hdr)) :
    acceptedHeader env data c = .ok (some (charToNetPacket env.endian hdr)) := by
  have hlt : intMax < 2 ^ 31 := by decide
  obtain ⟨hmax, -, -, hchr, hafter⟩ := hf.found hG
  rw [List.length_append] at hmax
  have hif : ¬ toSize ((hdr ++ X).length : Int) < netPackageHeadlen := by
    rw [List.length_append, toSize_natCast (by omega)]; omega
  simp only [acceptedHeader, hi, hf.fill, hchr, toInt_eq (show G.length ≤ intMax by omega), hafter, ok_bind,
    if_neg hif, hf.read hG hl, hf.valid_iff, hacc, not_true_eq_false, if_false, pure_ok]

theorem parseHead_accepted (hf : Filled head tail data c c₁ (G ++ head :: (hdr ++ X)) B) (hG : head ∉ G)
    (hl : hdr.length = netPackageHeadlen) (hacc : Accepted head tail (charToNetPacket env.endian hdr)) :
    ((charToNetPacket env.endian hdr).len = intMax ∧
      parseHead env data c = .error (.intOverflow (intMax + 1))) ∨
    ∃ c', parseHead env data c = .ok (.go c') ∧ Sound head tail c'.sync ∧
      InFrame env head tail c'.sync hdr X (X.take (c'.sync.theNexPacket.len.toNat + 1)) ∧
      Unread data c' B ∧ c'.calls = c.calls := by
  obtain ⟨-, hvalid, ⟨J, hbase⟩, -, -⟩ := hf.found hG
  rw [parseHead_header hf hG hl, if_pos hacc]
  rcases acceptHead_spec (c := { c₁ with sync := { c₁.sync with headpos := G.length } })
    (s := { c₁.sync with headpos := G.length }) { hf.sound with } (by rw [hbase, List.append_assoc]) rfl hvalid
    hl hacc rfl with htop | ⟨c₂, haccept, hs₂, hf₂, hi₂, hc₂⟩
  · exact .inl htop
  · right
    exact ⟨c₂, haccept, hs₂, by rwa [hf₂.next], hf.unread.same hi₂, hc₂.trans hf.calls⟩

variable (env) in
/-- The ways the `PARSE_NOTHING` block ends: the pass is over; a header has been accepted and
collecting begins; or a header has been accepted whose `datalen + 1` overflows. -/
theorem parseHead_cases (hd : data.length ≤ intMax) (hs : Sound head tail c.sync) (hi : Idle c.sync P)
    (hu : Unread data c R) :
    (∃ c', parseHead env data c = .ok (.again c') ∧
      StepOut env head tail data (P ++ R) (c.calls.map FullPacket.frame) (.ok (.again c'))) ∨
    ∃ hdr X R', acceptedHeader env data c = .ok (some (charToNetPacket env.endian hdr)) ∧
      hdr.length = netPackageHeadlen ∧ Accepted head tail (charToNetPacket env.endian hdr) ∧
      Path (charScanner env head tail) (P ++ R) [] (head :: (hdr ++ (X ++ R'))) ∧
      (((charToNetPacket env.endian hdr).len = intMax ∧
        parseHead env data c = .error (.intOverflow (intMax + 1))) ∨
      ∃ c', parseHead env data c = .ok (.go c') ∧ Sound head tail c'.sync ∧
        InFrame env head tail c'.sync hdr X (X.take (c'.sync.theNexPacket.len.toNat + 1)) ∧
        Unread data c' R' ∧ c'.calls = c.calls) := by
  obtain ⟨c₁, A, B, rfl, hf⟩ := fill_spec hd hs hi hu
  rw [← List.append_assoc]
  generalize P ++ A = P₁ at hf ⊢
  by_cases hmem : head ∈ P₁
  · obtain ⟨G, Y, rfl, hG⟩ := List.eq_append_cons_of_mem hmem
    by_cases hshort : Y.length < netPackageHeadlen
    · exact .inl (parseHead_short hf hG hshort)
    · obtain ⟨hdr, X, rfl, hl⟩ : ∃ hdr X, Y = hdr ++ X ∧ hdr.length = netPackageHeadlen :=
        ⟨_, Y.drop netPackageHeadlen, (List.take_append_drop ..).symm, List.length_take_of_le (by omega)⟩
      by_cases hacc : Accepted head tail (charToNetPacket env.endian hdr)
      · exact .inr ⟨hdr, X, B, acceptedHeader_header hf hG hl hi.parsetype hacc, hl, hacc,
          by simpa using Filled.path (Y := hdr ++ X) hG, parseHead_accepted hf hG hl hacc⟩
      · exact .inl (parseHead_rejected hf hG hl hacc)
  · exact .inl (parseHead_absent hf hmem)

/-- The `PARSE_NOTHING` block: the pass is over, or a header has been accepted. -/
theorem parseHead_spec (hd : data.length ≤ intMax) (hs : Sound head tail c.sync) (hi : Idle c.sync P)
    (hu : Unread data c R) :
    StepOut env head tail data (P ++ R) (c.calls.map FullPacket.frame) (parseHead env data c) ∨
    ∃ c' hdr X R', parseHead env data c = .ok (.go c') ∧ Sound head tail c'.sync ∧
      InFrame env head tail c'.sync hdr X (X.take (c'.sync.theNexPacket.len.toNat + 1)) ∧
      Unread data c' R' ∧ c'.calls = c.calls ∧
      Path (charScanner env head tail) (P ++ R) [] (head :: (hdr ++ (X ++ R'))) := by
  rcases parseHead_cases env hd hs hi hu with ⟨c', hagain, hout⟩ |
    ⟨hdr, X, R', -, hl, hacc, hp, ⟨htop, herr⟩ | ⟨c', hgo, hs', hf', hu', hc'⟩⟩
  · exact .inl (hagain ▸ hout)
  · left
    rw [herr]
    refine .overflow hp (.inl fun hfits => ?_)
    have := (hfits _ ⟨hdr, X ++ R', rfl, hl, rfl, hacc⟩).1
    omega
  · exact .inr ⟨c', hdr, X, R', hgo, hs', hf', hu', hc', hp⟩

theorem parseHead_overflow {c₁ : Recv} {G hdr X B : List UInt8}
    (hf : Filled head tail data c c₁ (G ++ head :: (hdr ++ X)) B) (hG : head ∉ G)
    (hl : hdr.length = netPackageHeadlen) (hacc : Accepted head tail (charToNetPacket env.endian hdr))
    (htop : (charToNetPacket env.endian hdr).len = intMax) :
    parseHead env data c = .error (.intOverflow (intMax + 1)) := by
  rcases parseHead_accepted hf hG hl hacc with ⟨-, herr⟩ | ⟨c', -, hs', hf', -⟩
  · exact herr
  · have hroom := hf'.room
    have hmax := hs'.packMax
    rw [hf'.next, htop] at hroom
    omega

end Head

end Uvnet

import Uvnet.Resync

/- `recvdata` with the sums of `CharToInt32` made in `int`.

   `recvCalls` takes from a header what gcc's code gets, also where a sum of `CharToInt32`
   overflows. `recvCallsC` is the same loop with the sums checked, so that all arithmetic of
   `recvdata` and of the decoder it calls is. The two differ only where the header behind a
   head byte the scan visits overflows (`recvCallsC_eq`); with the bounds of `CallsFit` that
   is all that can go wrong (`recvCalls_fault_free`). -/
namespace Uvnet
open CMachine StreamScan

/-! The loop. -/

def parseHeadC (env : Env) (data : List UInt8) (c : Recv) : C Flow :=
  parseHeadWith (charToNetPacketC env.endian) env data c

def recvStepC (env : Env) (data : List UInt8) (c : Recv) : C Flow :=
  match c.sync.parsetype with
  | .parseHead => collect env data c
  | .parseNothing => do
    match ← parseHeadC env data c with
    | .go c => collect env data c
    | flow => return flow

def recvLoopC (env : Env) (data : List UInt8) : Nat → Recv → C Recv
  | 0, _ => .error .outOfFuel
  | fuel + 1, c =>
    if recvMore data c then do
      match ← recvStepC env data c with
      | .again c => recvLoopC env data fuel c
      | .ret c => return c
      | .go c => return c
    else return c

/-- `PacketSync::recvdata`. -/
def recvdataC (env : Env) (s : PacketSync) (data : List UInt8) : C Recv :=
  recvLoopC env data ((s.truepacketlen + s.getdatalen).toNat + data.length + 2) ⟨s, 0, []⟩

def recvCallsC (env : Env) (s : PacketSync) : List (List UInt8) → C (PacketSync × List FullPacket)
  | [] => return (s, [])
  | data :: rest => do
    let c ← recvdataC env s data
    let (s', calls) ← recvCallsC env c.sync rest
    return (s', c.calls ++ calls)

/-- The header behind a head byte in front of the cursor does not overflow. -/
def DecodesInInt (head : UInt8) (S : List UInt8) : Prop :=
  ∀ hdr body, S = head :: (hdr ++ body) → hdr.length = netPackageHeadlen → HeaderSumsFit hdr

section Sums
variable {env : Env} {head tail : UInt8} {data : List UInt8} {c : Recv} {P R : List UInt8}

theorem DecodesInInt.of_append {S t : List UInt8} (h : DecodesInInt head (S ++ t)) : DecodesInInt head S := by
  rintro hdr body rfl hl
  exact h hdr (body ++ t) (by simp) hl

/-- The block decodes the header behind the first head byte, if it is complete. -/
theorem parseHeadC_filled {c₁ : Recv} {B : List UInt8} (hf : Filled head tail data c c₁ P B)
    (hsums : ∀ G hdr X, P = G ++ head :: (hdr ++ X) → head ∉ G → hdr.length = netPackageHeadlen → HeaderSumsFit hdr) :
    parseHeadC env data c = parseHead env data c := by
  have hlt : intMax < 2 ^ 31 := by decide
  have hmax := hf.length_le
  by_cases hmem : head ∈ P
  · obtain ⟨G, Y, rfl, hG⟩ := List.eq_append_cons_of_mem hmem
    obtain ⟨hle, -, -, hchr, hafter⟩ := hf.found hG
    have hpos : toInt G.length = G.length := toInt_eq (by omega)
    by_cases hshort : Y.length < netPackageHeadlen
    · have hif : toSize (Y.length : Int) < netPackageHeadlen := by rw [toSize_natCast (by omega)]; exact hshort
      simp only [parseHeadC, parseHead, parseHeadWith, hf.fill, hchr, hpos, hafter, ok_bind, if_pos hif]
    · obtain ⟨hdr, X, rfl, hl⟩ : ∃ hdr X, Y = hdr ++ X ∧ hdr.length = netPackageHeadlen :=
        ⟨_, Y.drop netPackageHeadlen, (List.take_append_drop ..).symm, List.length_take_of_le (by omega)⟩
      have hif : ¬ toSize ((hdr ++ X).length : Int) < netPackageHeadlen := by
        rw [toSize_natCast (by omega)]; exact hshort
      have hdecode : charToNetPacketC env.endian hdr = .ok (charToNetPacket env.endian hdr) := by
        rcases charToNetPacketC_cases env.endian hdr with ⟨-, hok⟩ | ⟨hno, -⟩
        · exact hok
        · exact absurd (hsums G hdr X rfl hG hl) hno
      simp only [parseHeadC, parseHead, parseHeadWith, hf.fill, hchr, hpos, hafter, ok_bind, if_neg hif,
        hf.read hG hl, hdecode, pure_ok]
  · obtain ⟨J, hJ⟩ := hf.idle.buffered
    have htrue : toSize c₁.sync.truepacketlen = P.length := by
      rw [hf.idle.valid, toSize_natCast (by omega)]
    have hchr : memchr c₁.sync.threadReaddata.base c₁.sync.head (toSize c₁.sync.truepacketlen) = .ok none :=
      memchr_absent hJ htrue (hf.sound.head ▸ hmem)
    simp only [parseHeadC, parseHead, parseHeadWith, hf.fill, hchr, ok_bind]

/-- **One pass** is the same where the headers it may come to do not overflow. -/
theorem recvStepC_eq (hd : data.length ≤ intMax) (hs : Sound head tail c.sync) (hh : Held env head tail c.sync P)
    (hu : Unread data c R) (hsums : AllVisited (charScanner env head tail) (DecodesInInt head) (P ++ R)) :
    recvStepC env data c = recvStep env data c := by
  cases hh with
  | idle hi =>
    obtain ⟨c₁, A, B, rfl, hf⟩ := fill_spec hd hs hi hu
    have heq : parseHeadC env data c = parseHead env data c := by
      refine parseHeadC_filled hf fun G hdr X hP hG hl => ?_
      rw [← List.append_assoc, hP] at hsums
      exact hsums _ _ (Filled.path hG) hdr (X ++ B) (by simp) hl
    cases hflow : parseHead env data c with
    | error e => simp only [recvStepC, recvStep, hi.parsetype, heq, hflow, error_bind]
    | ok flow => cases flow <;> simp only [recvStepC, recvStep, hi.parsetype, heq, hflow, ok_bind]
  | frame hf => simp only [recvStepC, recvStep, hf.parsetype]

/-- **The loop**: each pass takes the scan to another cursor it visits. -/
theorem recvLoopC_eq (hd : data.length ≤ intMax) (fuel : Nat) (c : Recv) (P R : List UInt8) (hs : Sound head tail c.sync)
    (hh : Held env head tail c.sync P) (hu : Unread data c R)
    (hsums : AllVisited (charScanner env head tail) (DecodesInInt head) (P ++ R)) :
    recvLoopC env data fuel c = recvLoop env data fuel c := by
  induction fuel generalizing c P R with
  | zero => rfl
  | succ fuel ih =>
    simp only [recvLoopC, recvLoop, recvStepC_eq hd hs hh hu hsums]
    split
    · have hout := recvStep_spec hd hs hh hu
      cases hr : recvStep env data c with
      | error e => simp only [error_bind]
      | ok flow =>
        rw [hr] at hout
        simp only [ok_bind]
        cases hout with
        | again hs' hi' hu' hp hc hless => exact ih _ _ _ hs' (.idle hi') hu' fun os S p => hsums _ S (hp.trans p)
        | ret hs' hh' hu' hp hc hw => simp only
    · simp only

theorem recvdataC_eq {s : PacketSync} (hd : data.length ≤ intMax) (hs : Sound head tail s) (hh : Held env head tail s P)
    (hsums : AllVisited (charScanner env head tail) (DecodesInInt head) (P ++ data)) :
    recvdataC env s data = recvdata env s data :=
  recvLoopC_eq hd _ ⟨s, 0, []⟩ P data hs hh ⟨[], rfl, rfl⟩ hsums

/-- **A run of calls.** -/
theorem recvCallsC_eq (chunks : List (List UInt8)) (s : PacketSync) (calls : List FullPacket) (received : List UInt8)
    (hd : ∀ chunk ∈ chunks, chunk.length ≤ intMax) (h : Synced env head tail s calls received)
    (hsums : AllVisited (charScanner env head tail) (DecodesInInt head) (received ++ chunks.flatten)) :
    recvCallsC env s chunks = recvCalls env s chunks := by
  induction chunks generalizing s calls received with
  | nil => rfl
  | cons chunk chunks ih =>
    have hlen := hd chunk List.mem_cons_self
    obtain ⟨P, hh, hp, -⟩ := h.held
    rw [List.flatten_cons, ← List.append_assoc] at hsums
    have hcall : AllVisited (charScanner env head tail) (DecodesInInt head) (P ++ chunk) := by
      have hfirst := hsums.of_append fun _ => DecodesInInt.of_append
      exact fun os S p => hfirst _ S ((hp.append chunk).trans p)
    rw [recvCallsC, recvCalls, recvdataC_eq hlen h.sound hh hcall]
    rcases recvdata_synced hlen h with ⟨c, hc, hs⟩ | ⟨x, hx, -⟩
    · rw [hc, ok_bind, ok_bind, ih c.sync _ _ (fun k hk => hd k (List.mem_cons_of_mem _ hk)) hs hsums]
    · simp only [hx, error_bind]

/-- The header that an idle parser comes to overflows, and stops the call. -/
theorem recvdataC_overflow {s : PacketSync} {G hdr X : List UInt8} (hs : Sound head tail s) (hi : Idle s P)
    (hT : P ++ data = G ++ head :: (hdr ++ X)) (hG : head ∉ G) (hl : hdr.length = netPackageHeadlen)
    (hover : ¬ HeaderSumsFit hdr) (h0 : data ≠ []) (hsmall : (P ++ data).length ≤ bufferSize) :
    ∃ x, recvdataC env s data = .error (.intOverflow x) := by
  have hlt : intMax < 2 ^ 31 := by decide
  have hbs : bufferSize ≤ intMax := by decide
  have hlen := hsmall
  rw [List.length_append] at hlen
  have hmore := recvMore_start s h0
  have hu : Unread data ⟨s, 0, []⟩ data := ⟨[], rfl, rfl⟩
  obtain ⟨c₁, A, B, rfl, hf⟩ := fill_spec (by omega) hs hi hu
  obtain rfl : B = [] := by
    rcases hf.full with hB | hfull
    · exact hB
    · have hmin := hf.sound.readMin
      simp only [List.length_append] at hsmall hfull
      exact List.eq_nil_of_length_eq_zero (by omega)
  rw [List.append_nil] at hT hf hmore ⊢
  rw [hT] at hf
  obtain ⟨hmax, -, -, hchr, hafter⟩ := hf.found hG
  rw [List.length_append] at hmax
  have hpos : toInt G.length = G.length := toInt_eq (by omega)
  have hif : ¬ toSize ((hdr ++ X).length : Int) < netPackageHeadlen := by
    rw [List.length_append, toSize_natCast (by omega)]; omega
  obtain ⟨x, hdecode⟩ : ∃ x, charToNetPacketC env.endian hdr = .error (.intOverflow x) := by
    rcases charToNetPacketC_cases env.endian hdr with ⟨hfits, -⟩ | ⟨-, herr⟩
    · exact absurd hfits hover
    · exact herr
  have hstep : recvStepC env A ⟨s, 0, []⟩ = .error (.intOverflow x) := by
    simp only [recvStepC, hi.parsetype, parseHeadC, parseHeadWith, hf.fill, hchr, hpos, hafter, ok_bind, if_neg hif,
      hf.read hG hl, hdecode, error_bind]
  refine ⟨x, ?_⟩
  simp only [recvdataC, recvLoopC, hmore, hstep, error_bind]
  rfl

theorem DecodesInInt.of_take {S : List UInt8} (h : HeaderSumsFit ((S.drop 1).take netPackageHeadlen)) :
    DecodesInInt head S := by
  rintro hdr body rfl hl
  rwa [List.drop_one, List.tail_cons, List.take_left' hl] at h

end Sums

/-! **No fault** where every call fits and no header overflows: every `int` stays in range, and
every size handed to `realloc` is the positive one meant. -/

theorem recvCalls_fault_free (env : Env) (head tail : UInt8) (chunks : List (List UInt8))
    (hd : ∀ chunk ∈ chunks, chunk.length ≤ bufferSize)
    (hfits : CallsFit env head tail (charScanner env head tail) chunks)
    (hsums : AllVisited (charScanner env head tail) (DecodesInInt head) chunks.flatten) :
    ∃ r, recvCallsC env (started env head tail) chunks = .ok r := by
  have hbs : bufferSize ≤ intMax := by decide
  have hmax : ∀ chunk ∈ chunks, chunk.length ≤ intMax := fun k hk => Nat.le_trans (hd k hk) hbs
  obtain ⟨s, calls, hrun, -⟩ := recvCalls_ok hmax hfits
  exact ⟨_, (recvCallsC_eq chunks _ _ [] hmax (started_synced env head tail) hsums).trans hrun⟩

theorem stray_sums : AllVisited (refScanner zeroEnv 1 2) (DecodesInInt 1) (1 :: emptyFrame) := by
  have hstray : (refScanner zeroEnv 1 2).verdict (1 :: emptyFrame) = .move 1 none := by decide
  have hframe : (refScanner zeroEnv 1 2).verdict emptyFrame = .move 36 (some emptyPacket) := by decide
  refine .of_move hstray (.of_take (by decide)) (.of_move hframe (.of_take (by decide)) ?_)
  exact .of_wait (Scanner.verdict_nil _) (.of_take (by decide))

theorem recvCalls_fault_free_split :
    ∃ r, recvCallsC zeroEnv (started zeroEnv 1 2) [(1 :: emptyFrame).take 20, (1 :: emptyFrame).drop 20] = .ok r := by
  have hsame := charScanner_eq_ref zeroEnv 1 2 (by decide)
  exact recvCalls_fault_free zeroEnv 1 2 [(1 :: emptyFrame).take 20, (1 :: emptyFrame).drop 20] (by decide)
    (hsame ▸ callsFit_of_small (by decide) stray_small) (hsame ▸ stray_sums)

/-- 35 bytes are enough: a header of `datalen` 2^31 - 1, which passes the validity test, or one with
the version bytes 80 80 00 00, whose sum is 2^31 + 2^23 below zero. -/
theorem recvCalls_fault_free_fails :
    recvCallsC zeroEnv (started zeroEnv 1 2) [1 :: sampleHeader [0, 0, 0xff, 0x7f]] = .error (.intOverflow (2 ^ 31)) ∧
    ∃ x, recvCallsC zeroEnv (started zeroEnv 1 2) [1 :: ([0x80, 0x80, 0, 0] ++ (sampleHeader [0, 0, 0, 0]).drop 4)] =
      .error (.intOverflow x) := by
  constructor
  · have hacc : Accepted 1 2 (charToNetPacket zeroEnv.endian (sampleHeader [0, 0, 0xff, 0x7f])) := by decide
    have htop : (charToNetPacket zeroEnv.endian (sampleHeader [0, 0, 0xff, 0x7f])).len = intMax := by decide
    have hwait : (refScanner zeroEnv 1 2).verdict (1 :: sampleHeader [0, 0, 0xff, 0x7f]) = .wait := by decide
    have hsums : AllVisited (charScanner zeroEnv 1 2) (DecodesInInt 1) ([] ++ [1 :: sampleHeader [0, 0, 0xff, 0x7f]].flatten) := by
      rw [charScanner_eq_ref zeroEnv 1 2 (by decide)]
      exact .of_wait hwait (.of_take (by decide))
    have hcall : recvdata zeroEnv (started zeroEnv 1 2) (1 :: sampleHeader [0, 0, 0xff, 0x7f]) =
        .error (.intOverflow (intMax + 1)) :=
      recvdata_header_overflow (P := []) (G := []) (X := []) (started_sound zeroEnv 1 2)
        (started_idle zeroEnv 1 2) rfl (by simp) rfl hacc htop (by simp) (by decide)
    rw [recvCallsC_eq [1 :: sampleHeader [0, 0, 0xff, 0x7f]] _ _ [] (by decide) (started_synced zeroEnv 1 2) hsums,
      recvCalls, hcall, error_bind]
    rfl
  · have hover : ¬ HeaderSumsFit ([0x80, 0x80, 0, 0] ++ (sampleHeader [0, 0, 0, 0]).drop 4) := by decide
    have hcall : ∃ x, recvdataC zeroEnv (started zeroEnv 1 2) (1 :: ([0x80, 0x80, 0, 0] ++ (sampleHeader [0, 0, 0, 0]).drop 4)) =
        .error (.intOverflow x) :=
      recvdataC_overflow (P := []) (G := []) (X := []) (started_sound zeroEnv 1 2) (started_idle zeroEnv 1 2) rfl (by simp) rfl
        hover (by simp) (by decide)
    obtain ⟨x, hx⟩ := hcall
    exact ⟨x, by rw [recvCallsC, hx, error_bind]⟩

end Uvnet

import Uvnet.RecvRun
import Mathlib.Data.List.Induction

/- One pass of `recvdata`'s loop in a run of calls, up to the checks and through them.

   A pass ends early, or brings the parser to the checks of a complete frame (`CheckOut`),
   or overflows an `int` for a header and a chunk that are too large together
   (`toCheck_spec`). The checks do not fault on a small frame, and what they leave held
   begins behind the frame or behind its head (`checkFrame_restores`).

   `LoopHead` are the states in which a run of calls comes to the loop condition; there the
   parser is in step with the scanner (`LoopHead.path`). In a run that accepts no header
   with `datalen` above 2^30 (`SmallAccepted`) no pass faults on a chunk of at most
   `BUFFER_SIZE` bytes (`LoopHead.pass`). -/
namespace Uvnet
open CMachine StreamScan

/-- The states at the head of the loop of the call on `data` that follows the calls on
`before`. -/
inductive LoopHead (env : Env) (s₀ : PacketSync) (before : List (List UInt8)) (data : List UInt8) :
    Recv → Prop where
  | first {s calls} (h : recvCalls env s₀ before = .ok (s, calls)) : LoopHead env s₀ before data ⟨s, 0, []⟩
  | again {c c'} (h : LoopHead env s₀ before data c) (hm : recvMore data c = true)
      (hs : recvStep env data c = .ok (.again c')) : LoopHead env s₀ before data c'

/-- No header that the calls on `chunks` accept has `datalen` above 2^30. -/
def SmallAccepted (env : Env) (s₀ : PacketSync) (chunks : List (List UInt8)) : Prop :=
  ∀ before data after, chunks = before ++ data :: after → ∀ c, LoopHead env s₀ before data c →
    recvMore data c = true → ∀ p, acceptedHeader env data c = .ok (some p) → p.len ≤ 2 ^ 30

/-- The header that a pass works on: the one it begins with in `PARSE_HEAD`, or the one it
accepts. -/
def NextHeader (env : Env) (data : List UInt8) (c : Recv) (p : NetPacket) : Prop :=
  (c.sync.parsetype = .parseHead ∧ c.sync.theNexPacket = p) ∨ acceptedHeader env data c = .ok (some p)

/-- How a pass over the bytes `T`, held and unread, ends or comes to the checks. -/
inductive CheckOut (env : Env) (head tail : UInt8) (data T : List UInt8) (next : NetPacket → Prop) : Flow → Prop where
  | again {c : Recv} {P R} (hs : Sound head tail c.sync) (hi : Idle c.sync P) (hu : Unread data c R)
      (hsuf : P ++ R <:+ T) : CheckOut env head tail data T next (.again c)
  | ret {c : Recv} {P} (hs : Sound head tail c.sync) (hh : Held env head tail c.sync P)
      (hnext : next c.sync.theNexPacket) (hu : c.iret = (data.length : Int)) (hsuf : P <:+ T) :
      CheckOut env head tail data T next (.ret c)
  | go {c : Recv} {hdr X D Z R} (hs : Sound head tail c.sync) (hf : InFrame env head tail c.sync hdr X D)
      (hd : D.length = c.sync.theNexPacket.len.toNat + 1) (hz : Following c.sync.theNexPacket.len.toNat X D Z)
      (hnext : next c.sync.theNexPacket) (hu : Unread data c R) (hsuf : head :: (hdr ++ (D ++ (Z ++ R))) <:+ T) :
      CheckOut env head tail data T next (.go c)

section Pass
variable {env : Env} {head tail : UInt8} {data T T' P R hdr X D Z : List UInt8} {c : Recv} {flow : Flow}
variable {next : NetPacket → Prop}

theorem CheckOut.of_suffix (h : CheckOut env head tail data T' next flow) (hT : T' <:+ T) :
    CheckOut env head tail data T next flow := by
  cases h with
  | again hs hi hu hsuf => exact .again hs hi hu (hsuf.trans hT)
  | ret hs hh hnext hu hsuf => exact .ret hs hh hnext hu (hsuf.trans hT)
  | go hs hf hd hz hnext hu hsuf => exact .go hs hf hd hz hnext hu (hsuf.trans hT)

theorem path_suffix {S S' : List UInt8} {o : List Frame} (h : Path (charScanner env head tail) S o S') :
    S' <:+ S := by
  obtain ⟨q, rfl⟩ := h.suffix
  exact List.drop_suffix q S

/-- Collecting for the header of `c`: only header and chunk together can overflow. -/
theorem gather_out (hd : data.length ≤ intMax) (hs : Sound head tail c.sync)
    (hf : InFrame env head tail c.sync hdr X D) (hD : D.length ≤ c.sync.theNexPacket.len.toNat + 1)
    (hZ : Following c.sync.theNexPacket.len.toNat X D Z) (hu : Unread data c R) (hnext : next c.sync.theNexPacket) :
    (∃ flow, gather data c = .ok flow ∧
      CheckOut env head tail data (head :: (hdr ++ (D ++ (Z ++ R)))) next flow) ∨
    (∃ p x, next p ∧ intMax ≤ p.len + data.length ∧ gather data c = .error (.intOverflow x)) := by
  have hgather := gather_spec hd hs hf hD hZ hu
  cases hg : gather data c with
  | error e =>
    rw [hg] at hgather
    cases hgather with
    | overflow hov =>
      obtain ⟨pre, rfl, -⟩ := hu
      have hlen := hf.len_eq
      refine .inr ⟨_, _, hnext, ?_, rfl⟩
      rw [List.length_append]
      omega
  | ok flow =>
    rw [hg] at hgather
    refine .inl ⟨flow, rfl, ?_⟩
    cases hgather with
    | @ret c' hs' hf' hx' hd' hz hu' hc =>
      subst hz
      exact .ret (P := head :: (hdr ++ (D ++ R))) hs' (.frame hf' hx' hd') (by rw [hf'.next, ← hf.next]; exact hnext)
        hu' (List.suffix_refl _)
    | @go c' B S hs' hf' hd' hz hu' hsame hc =>
      rw [hsame]
      exact .go hs' hf' hd' hz (by rw [hf'.next, ← hf.next]; exact hnext) hu' (List.suffix_refl _)

/-- **A pass up to the checks.** -/
theorem toCheck_spec (hd : data.length ≤ intMax) (hs : Sound head tail c.sync)
    (hh : Held env head tail c.sync P) (hu : Unread data c R) :
    (∃ flow, toCheck env data c = .ok flow ∧
      CheckOut env head tail data (P ++ R) (NextHeader env data c) flow) ∨
    (∃ p x, NextHeader env data c p ∧ intMax ≤ p.len + data.length ∧
      toCheck env data c = .error (.intOverflow x)) := by
  cases hh with
  | idle hi =>
    rcases parseHead_cases env hd hs hi hu with ⟨c', hagain, hout⟩ |
      ⟨hdr, X, R', hhdr, hl, -, hp, ⟨htop, herr⟩ | ⟨c', hgo, hs', hf', hu', -⟩⟩
    · left
      refine ⟨.again c', by simp only [toCheck, hi.parsetype, hagain, ok_bind, pure_ok], ?_⟩
      cases hout with
      | again hs' hi' hu' hp _ _ => exact .again hs' hi' hu' (path_suffix hp)
    · -- `datalen` is 2^31 - 1
      refine .inr ⟨_, (intMax : Int) + 1, .inr hhdr, by omega, ?_⟩
      simp only [toCheck, hi.parsetype, herr, error_bind]
    · obtain ⟨Z, hX, hZ⟩ := following_take c'.sync.theNexPacket.len.toNat X
      have hnext : NextHeader env data c c'.sync.theNexPacket := .inr (by rw [hf'.next]; exact hhdr)
      have hcheck : toCheck env data c = gather data c' := by
        simp only [toCheck, hi.parsetype, hgo, ok_bind]
      have hout := gather_out hd hs' hf' (List.length_take_le _ _) hZ hu' hnext
      rw [← List.append_assoc _ Z R', ← hX] at hout
      rw [hcheck]
      refine hout.imp_left ?_
      rintro ⟨flow, hflow, h⟩
      exact ⟨flow, hflow, h.of_suffix (path_suffix hp)⟩
  | @frame hdr X D hf hX hD =>
    have hcheck : toCheck env data c = gather data c := by simp only [toCheck, hf.parsetype]
    rw [hcheck, List.cons_append, List.append_assoc]
    exact gather_out hd hs hf (by omega) (.inr ⟨hX, rfl⟩) hu (.inl ⟨hf.parsetype, rfl⟩)

/-- **The checks**: they come to a decision, and leave held what follows the frame when it is
delivered, and every byte after its head when it is not. -/
theorem checkFrame_restores (hs : Sound head tail c.sync) (hf : InFrame env head tail c.sync hdr X D)
    (hD : D.length = c.sync.theNexPacket.len.toNat + 1) (hZ : Following c.sync.theNexPacket.len.toNat X D Z)
    (hsm : c.sync.theNexPacket.len ≤ 2 ^ 30) :
    ∃ ok c', frameOk env c.sync = .ok ok ∧ checkFrame env c = .ok (.again c') ∧ Sound head tail c'.sync ∧
      Idle c'.sync (if ok then Z else hdr ++ (D ++ Z)) ∧ c'.iret = c.iret := by
  obtain ⟨F, b, rfl⟩ : ∃ F b, D = F ++ [b] := by
    rcases List.eq_nil_or_concat D with rfl | ⟨F, b, rfl⟩
    · cases hD
    · exact ⟨F, b, by simp⟩
  have hF : F.length = c.sync.theNexPacket.len.toNat := by
    rw [List.length_append] at hD; simpa using hD
  obtain ⟨K, hK⟩ := hf.collected
  have hok := frameOk_spec hs hf hF hK
  rw [checkFrame_frameOk, hok, ok_bind]
  generalize decide (charEq b tail = true ∧ c.sync.theNexPacket.check = expectedCheck env F) = ok at hok ⊢
  cases ok with
  | true =>
    obtain ⟨c', hdeliver, hs', hi', hiret, -⟩ := deliver_spec hs hf hZ
    exact ⟨true, c', rfl, hdeliver, hs', hi', hiret⟩
  | false =>
    rcases rollback_spec hs hf hD hZ with ⟨s', hroll, hs', hi'⟩ | ⟨x, -, hx⟩
    · exact ⟨false, { c with sync := s' }, rfl, by rw [hroll]; rfl, hs', hi', rfl⟩
    · simp only [intMax, netPackageHeadlen] at hx
      omega

end Pass

/-! Reachable loop heads. -/

section Run
variable {env : Env} {head tail : UInt8} {s₀ s : PacketSync} {before after : List (List UInt8)}
variable {data : List UInt8} {c c' : Recv} {calls : List FullPacket}

theorem SmallAccepted.left {xs ys : List (List UInt8)} (h : SmallAccepted env s₀ (xs ++ ys)) :
    SmallAccepted env s₀ xs := by
  intro before data after hcut
  exact h before data (after ++ ys) (by rw [hcut, List.append_assoc, List.cons_append])

/-- The loop is over where its condition fails, or where a pass returns. -/
theorem recvLoop_ends : ∀ (fuel : Nat) (c : Recv), LoopHead env s₀ before data c →
    recvLoop env data fuel c = .ok c' →
    (LoopHead env s₀ before data c' ∧ recvMore data c' = false) ∨
    ∃ h, LoopHead env s₀ before data h ∧ recvMore data h = true ∧
      (recvStep env data h = .ok (.ret c') ∨ recvStep env data h = .ok (.go c')) := by
  intro fuel
  induction fuel with
  | zero => intro c _ hrun; cases hrun
  | succ fuel ih =>
    intro c hc hrun
    rw [recvLoop] at hrun
    split at hrun
    · next hmore =>
      obtain ⟨flow, hstep, hrun⟩ := bind_eq_ok.1 hrun
      cases flow with
      | again d => exact ih d (hc.again hmore hstep) hrun
      | ret d =>
        obtain rfl := Except.ok.inj hrun
        exact .inr ⟨c, hc, hmore, .inl hstep⟩
      | go d =>
        obtain rfl := Except.ok.inj hrun
        exact .inr ⟨c, hc, hmore, .inr hstep⟩
    · next hmore =>
      obtain rfl := Except.ok.inj hrun
      exact .inl ⟨hc, eq_false_of_ne_true hmore⟩

theorem recvCalls_synced (hb : ∀ k ∈ before, k.length ≤ intMax)
    (h : recvCalls env (started env head tail) before = .ok (s, calls)) :
    Synced env head tail s calls before.flatten := by
  rcases recvCalls_spec before _ _ _ hb (started_synced env head tail) with ⟨s', calls', hrun, hs⟩ |
    ⟨x, _, _, _, hrun, -⟩
  · rw [h] at hrun
    obtain ⟨rfl, rfl⟩ := Prod.mk.inj (Except.ok.inj hrun)
    exact hs
  · rw [h] at hrun
    cases hrun

theorem LoopHead.path (hd : ∀ k ∈ before ++ [data], k.length ≤ intMax)
    (h : LoopHead env (started env head tail) before data c) :
    Sound head tail c.sync ∧ ∃ P R o, Held env head tail c.sync P ∧ Unread data c R ∧
      Path (charScanner env head tail) (before.flatten ++ data) o (P ++ R) := by
  induction h with
  | @first s calls h =>
    have hsync := recvCalls_synced (fun k hk => hd k (List.mem_append_left _ hk)) h
    obtain ⟨P, hh, hp, -⟩ := hsync.held
    exact ⟨hsync.sound, P, data, _, hh, ⟨[], rfl, rfl⟩, hp.append data⟩
  | @again c c' _ _ hs ih =>
    obtain ⟨hsound, P, R, o, hh, hu, hp⟩ := ih
    have hout := recvStep_spec (hd data (by simp)) hsound hh hu
    rw [hs] at hout
    cases hout with
    | again hs' hi' hu' hp' _ _ => exact ⟨hs', _, _, _, .idle hi', hu', hp.trans hp'⟩

/-- Where the scanner visits small headers only, the run accepts small headers only. -/
theorem smallAccepted_of_visited {chunks : List (List UInt8)} (hd : ∀ k ∈ chunks, k.length ≤ intMax)
    (hsmall : AllVisited (charScanner env head tail) (SmallHeader env head tail) chunks.flatten) :
    SmallAccepted env (started env head tail) chunks := by
  rintro before data after rfl c hc _ p hp
  have hcut : (before ++ data :: after).flatten = before.flatten ++ data ++ after.flatten := by simp
  rw [hcut] at hsmall
  have hvisited := hsmall.of_append fun _ => SmallHeader.of_append
  rw [List.forall_mem_append, List.forall_mem_cons] at hd
  obtain ⟨hbefore, hdata, -⟩ := hd
  have hd' : ∀ k ∈ before ++ [data], k.length ≤ intMax :=
    List.forall_mem_append.2 ⟨hbefore, List.forall_mem_singleton.2 hdata⟩
  obtain ⟨hsound, P, R, o, hh, hu, hpath⟩ := hc.path hd'
  obtain ⟨hin, d, hparse⟩ := parseHead_of_accepted hp
  cases hh with
  | frame hf => rw [hf.parsetype] at hin; cases hin
  | idle hi =>
    rcases parseHead_cases env hdata hsound hi hu with ⟨c', hagain, -⟩ |
      ⟨hdr, X, R', hhdr, hl, hacc, hp', -⟩
    · rw [hparse] at hagain
      exact absurd hagain acceptHead_ne_again
    · rw [hp] at hhdr
      obtain rfl := Option.some.inj (Except.ok.inj hhdr)
      exact hvisited _ _ (hpath.trans hp') _ ⟨hdr, X ++ R', rfl, hl, rfl, hacc⟩

theorem LoopHead.idle_next (hd : ∀ k ∈ before ++ [data], k.length ≤ intMax)
    (h : LoopHead env (started env head tail) before data c) (hs : recvStep env data c = .ok (.again c')) :
    c'.sync.parsetype = .parseNothing := by
  obtain ⟨hsound, P, R, o, hh, hu, -⟩ := h.path hd
  have hout := recvStep_spec (hd data (by simp)) hsound hh hu
  rw [hs] at hout
  cases hout with
  | again _ hi' _ _ _ _ => exact hi'.parsetype

theorem recvStep_ne_go (hd : ∀ k ∈ before ++ [data], k.length ≤ intMax)
    (h : LoopHead env (started env head tail) before data c) : recvStep env data c ≠ .ok (.go c') := by
  intro hs
  obtain ⟨hsound, P, R, o, hh, hu, -⟩ := h.path hd
  have hout := recvStep_spec (hd data (by simp)) hsound hh hu
  rw [hs] at hout
  cases hout

/-- A frame at hand has a small header. -/
def SmallNext (s : PacketSync) : Prop := s.parsetype = .parseHead → s.theNexPacket.len ≤ 2 ^ 30

theorem LoopHead.small (hd : ∀ k ∈ before ++ [data], k.length ≤ intMax)
    (hfirst : ∀ s calls, recvCalls env (started env head tail) before = .ok (s, calls) → SmallNext s)
    (h : LoopHead env (started env head tail) before data c) : SmallNext c.sync := by
  cases h with
  | first hrun => exact hfirst _ _ hrun
  | again h _ hs =>
    intro hin
    rw [h.idle_next hd hs] at hin
    cases hin

theorem NextHeader.small {p : NetPacket} (h : NextHeader env data c p) (hsm : SmallNext c.sync)
    (hacc : ∀ p, acceptedHeader env data c = .ok (some p) → p.len ≤ 2 ^ 30) : p.len ≤ 2 ^ 30 := by
  rcases h with ⟨hin, rfl⟩ | haccepted
  · exact hsm hin
  · exact hacc p haccepted

theorem recvCalls_snoc {chunk : List UInt8} (h : recvCalls env s₀ (before ++ [chunk]) = .ok (s, calls)) :
    ∃ s' calls' c, recvCalls env s₀ before = .ok (s', calls') ∧ recvdata env s' chunk = .ok c ∧ s = c.sync := by
  rw [recvCalls_append] at h
  obtain ⟨⟨s', calls'⟩, hrun, h⟩ := bind_eq_ok.1 h
  obtain ⟨⟨s'', calls''⟩, hlast, h⟩ := bind_eq_ok.1 h
  obtain ⟨c, hc, hlast⟩ := bind_eq_ok.1 hlast
  cases hlast
  cases h
  exact ⟨s', calls', c, hrun, hc, rfl⟩

theorem recvCalls_small : ∀ (before : List (List UInt8)) (s : PacketSync) (calls : List FullPacket),
    (∀ k ∈ before, k.length ≤ intMax) → SmallAccepted env (started env head tail) before →
    recvCalls env (started env head tail) before = .ok (s, calls) → SmallNext s := by
  intro before
  induction before using List.reverseRecOn with
  | nil =>
    intro s calls _ _ h
    cases h
    exact fun hin => by cases hin
  | append_singleton before chunk ih =>
    intro s calls hd hsm h
    obtain ⟨s', calls', c, hrun, hc, rfl⟩ := recvCalls_snoc h
    have hfirst : ∀ s calls, recvCalls env (started env head tail) before = .ok (s, calls) → SmallNext s :=
      fun s calls hr => ih s calls (fun k hk => hd k (List.mem_append_left _ hk)) hsm.left hr
    rcases recvLoop_ends _ _ (.first hrun) hc with ⟨hhead, -⟩ | ⟨h, hh, hmore, hret | hgo⟩
    · exact hhead.small hd hfirst
    · -- the call ended inside the frame
      obtain ⟨hsound, P, R, o, hheld, hu, -⟩ := hh.path hd
      have hsmall {p : NetPacket} (hp : NextHeader env chunk h p) : p.len ≤ 2 ^ 30 :=
        hp.small (hh.small hd hfirst) (hsm before chunk [] rfl h hh hmore)
      rw [recvStep_toCheck] at hret
      obtain ⟨flow, hcheck, hfin⟩ := bind_eq_ok.1 hret
      rcases toCheck_spec (hd chunk (by simp)) hsound hheld hu with ⟨flow', hflow, hout⟩ | ⟨_, _, -, -, herr⟩
      · rw [hcheck] at hflow
        obtain rfl := Except.ok.inj hflow
        cases hout with
        | again => cases hfin
        | ret _ _ hnext _ _ =>
          cases hfin
          exact fun _ => hsmall hnext
        | go hs' hf' hd' hz' hnext _ _ =>
          obtain ⟨_, _, -, hagain, -⟩ := checkFrame_restores hs' hf' hd' hz' (hsmall hnext)
          rw [finish, hagain] at hfin
          cases hfin
      · rw [hcheck] at herr
        cases herr
    · exact absurd hgo (recvStep_ne_go hd hh)

/-- **No pass faults** on chunks of at most `BUFFER_SIZE` bytes. -/
theorem LoopHead.pass (hb : ∀ k ∈ before, k.length ≤ intMax) (hd : data.length ≤ bufferSize)
    (hsm : SmallAccepted env (started env head tail) (before ++ [data]))
    (h : LoopHead env (started env head tail) before data c) (hmore : recvMore data c = true) :
    ∃ flow, recvStep env data c = .ok flow := by
  have hbs : bufferSize ≤ intMax := by decide
  have hall : ∀ k ∈ before ++ [data], k.length ≤ intMax :=
    List.forall_mem_append.2 ⟨hb, List.forall_mem_singleton.2 (Nat.le_trans hd hbs)⟩
  obtain ⟨hsound, P, R, o, hheld, hu, -⟩ := h.path hall
  have hsmall := h.small hall fun s calls hr => recvCalls_small before s calls hb hsm.left hr
  have hnextSmall {p : NetPacket} (hp : NextHeader env data c p) : p.len ≤ 2 ^ 30 :=
    hp.small hsmall (hsm before data [] rfl c h hmore)
  rw [recvStep_toCheck]
  rcases toCheck_spec (Nat.le_trans hd hbs) hsound hheld hu with ⟨flow, hflow, hout⟩ | ⟨p, x, hnext, hbig, -⟩
  · rw [hflow, ok_bind]
    cases hout with
    | again => exact ⟨_, rfl⟩
    | ret => exact ⟨_, rfl⟩
    | go hs' hf' hd' hz' hnext _ _ =>
      obtain ⟨_, c', -, hagain, -⟩ := checkFrame_restores hs' hf' hd' hz' (hnextSmall hnext)
      exact ⟨_, hagain⟩
  · have hp := hnextSmall hnext
    simp only [intMax] at hbig
    simp only [bufferSize] at hd
    omega

end Run

/-! A frame whose last byte is wrong, in two chunks: the second has payload and tail. -/

def brokenFrame : List UInt8 := 1 :: (sampleHeader [1, 0, 0, 0] ++ [7, 9])

theorem visited_skip {env : Env} {head tail b : UInt8} {tailOk : UInt8 → Bool} {S : List UInt8} (hb : b ≠ head)
    (h : AllVisited (frameScanner env head tail tailOk) (SmallHeader env head tail) S) :
    AllVisited (frameScanner env head tail tailOk) (SmallHeader env head tail) (b :: S) := by
  refine .of_move (frameVerdict_skip hb S) ?_ h
  rintro p ⟨hdr, body, hcons, -⟩
  exact absurd (List.cons.inj hcons).1 hb

theorem brokenFrame_small : AllVisited (refScanner zeroEnv 1 2) (SmallHeader zeroEnv 1 2) brokenFrame := by
  have hv : (refScanner zeroEnv 1 2).verdict brokenFrame = .move 1 none := by decide
  have hwait : (refScanner zeroEnv 1 2).verdict (brokenFrame.drop 5) = .wait := by decide
  have hrest : AllVisited (refScanner zeroEnv 1 2) (SmallHeader zeroEnv 1 2) (brokenFrame.drop 5) := by
    refine .of_wait hwait fun p hp => ?_
    rw [hp.eq]
    decide
  refine .of_move hv (fun p hp => ?_) ?_
  · rw [hp.eq]
    decide
  · -- four bytes of the version, then a head byte with too little behind it
    exact visited_skip (by decide) (visited_skip (by decide) (visited_skip (by decide) (visited_skip (by decide) hrest)))

theorem brokenFrame_accepted :
    SmallAccepted zeroEnv (started zeroEnv 1 2) ([brokenFrame.take 35] ++ [brokenFrame.drop 35]) :=
  smallAccepted_of_visited (by decide) (charScanner_eq_ref zeroEnv 1 2 (by decide) ▸ brokenFrame_small)

end Uvnet

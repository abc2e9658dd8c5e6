import Uvnet.RecvPass

/- A parser whose callback was never set.

   `packet_cb_` decides in `deliver` whether a call is made, and nothing else. `silent`
   takes the callback and the record of its calls out of a state; every block of the loop
   body commutes with it, so a run without a callback is the run with one seen through
   `silent` (`recvStep_silent`, `recvCalls_silent`), and so are the loop heads it comes to
   (`LoopHead.of_silent`). What is proved of a parser with its callback set and does not
   speak of calls holds of the other one too. -/
namespace Uvnet
open CMachine

/-- The parser with no callback set. -/
def PacketSync.silent (s : PacketSync) : PacketSync := { s with packetCb := false }

/-- The locals of a call on it, which makes no callbacks. -/
def Recv.silent (c : Recv) : Recv := ⟨c.sync.silent, c.iret, []⟩

def Flow.silent : Flow → Flow
  | .again c => .again c.silent
  | .ret c => .ret c.silent
  | .go c => .go c.silent

section Blocks
variable {env : Env} {data : List UInt8}

theorem fill_silent (c : Recv) : fill data c.silent = Recv.silent <$> fill data c := by
  simp only [fill, map_bind]
  refine bind_congr fun left => ?_
  dsimp only [Recv.silent, PacketSync.silent]
  by_cases hfit : toSize left ≤ sizeSub c.sync.threadReaddata.len (toSize c.sync.truepacketlen)
  · simp only [hfit, if_true, map_bind, pure_ok, map_ok, Recv.silent, PacketSync.silent]
  · simp only [hfit, if_false, map_bind, pure_ok, map_ok, Recv.silent, PacketSync.silent]

theorem dropHead_silent (s : PacketSync) : dropHead s.silent = PacketSync.silent <$> dropHead s := by
  simp only [dropHead, map_bind, pure_ok, map_ok, PacketSync.silent]
  rfl

theorem acceptHead_silent (c : Recv) (p : NetPacket) :
    acceptHead env c.silent p = Flow.silent <$> acceptHead env c p := by
  simp only [acceptHead, map_bind, pure_ok, map_ok, Flow.silent, Recv.silent, PacketSync.silent]
  rfl

theorem parseHeadWith_silent (decode : List UInt8 → C NetPacket) (c : Recv) :
    parseHeadWith decode env data c.silent = Flow.silent <$> parseHeadWith decode env data c := by
  rw [parseHeadWith, parseHeadWith, fill_silent, bind_map_left, map_bind]
  refine bind_congr fun c => ?_
  obtain ⟨⟨cb, parsetype, got, read, pack, n, pos, head, tail, p⟩, iret, calls⟩ := c
  rw [map_bind]
  refine bind_congr fun found => ?_
  cases found with
  | none => rfl
  | some i =>
    dsimp only [Recv.silent, PacketSync.silent]
    generalize toInt i = pos
    rw [map_bind]
    refine bind_congr fun after => ?_
    by_cases hshort : toSize after < netPackageHeadlen
    · by_cases hmoved : pos ≠ 0
      · simp only [hshort, if_pos hmoved, if_true, map_bind]
        exact bind_congr fun n => bind_congr fun base => rfl
      · simp only [hshort, if_neg hmoved, if_true]
        rfl
    · simp only [hshort, if_false, map_bind]
      refine bind_congr fun chars => bind_congr fun q => ?_
      by_cases hvalid : q.header ≠ head ∨ q.tail ≠ tail ∨ q.len < 0
      · simp only [hvalid, if_true, map_bind]
        have hdrop := dropHead_silent ⟨cb, parsetype, got, read, pack, n, pos, head, tail, q⟩
        dsimp only [PacketSync.silent] at hdrop
        rw [hdrop, bind_map_left]
        exact bind_congr fun s => rfl
      · simp only [hvalid, if_false]
        exact acceptHead_silent ⟨⟨cb, parsetype, got, read, pack, n, pos, head, tail, p⟩, iret, calls⟩ _

theorem parseHead_silent (c : Recv) : parseHead env data c.silent = Flow.silent <$> parseHead env data c :=
  parseHeadWith_silent _ c

theorem acceptedHeader_silent (c : Recv) : acceptedHeader env data c.silent = acceptedHeader env data c := by
  obtain ⟨⟨cb, parsetype, got, read, pack, n, pos, head, tail, p⟩, iret, calls⟩ := c
  cases parsetype with
  | parseHead => rfl
  | parseNothing =>
    have hfill : fill data (Recv.silent ⟨⟨cb, .parseNothing, got, read, pack, n, pos, head, tail, p⟩, iret, calls⟩) =
        Recv.silent <$> fill data ⟨⟨cb, .parseNothing, got, read, pack, n, pos, head, tail, p⟩, iret, calls⟩ :=
      fill_silent _
    dsimp only [acceptedHeader]
    rw [hfill, bind_map_left]
    rfl

theorem gather_silent (c : Recv) : gather data c.silent = Flow.silent <$> gather data c := by
  obtain ⟨⟨cb, parsetype, got, read, pack, n, pos, head, tail, p⟩, iret, calls⟩ := c
  rw [gather, gather, map_bind]
  refine bind_congr fun n => ?_
  dsimp only [Recv.silent, PacketSync.silent]
  by_cases hmore : got < n
  · simp only [hmore, if_true, map_bind]
    refine bind_congr fun left => bind_congr fun sum => ?_
    by_cases hpart : sum < n
    · simp only [hpart, if_true, map_bind]
      exact bind_congr fun base => rfl
    · simp only [hpart, if_false, map_bind]
      exact bind_congr fun need => bind_congr fun base => bind_congr fun iret => rfl
  · simp only [hmore, if_false]
    rfl

theorem rollback_silent (s : PacketSync) : rollback env s.silent = PacketSync.silent <$> rollback env s := by
  rw [rollback, rollback, map_bind]
  refine bind_congr fun inside => ?_
  cases inside with
  | true =>
    simp only [if_true, map_bind]
    rw [dropHead_silent, bind_map_left]
    exact bind_congr fun s => rfl
  | false =>
    obtain ⟨cb, parsetype, got, read, pack, n, pos, head, tail, p⟩ := s
    dsimp only [PacketSync.silent]
    simp only [Bool.false_eq_true, if_false, map_bind]
    exact bind_congr fun buf => bind_congr fun base => bind_congr fun n => bind_congr fun base => bind_congr fun m => rfl

theorem keepFollowing_silent (s : PacketSync) :
    keepFollowing s.silent = PacketSync.silent <$> keepFollowing s := by
  obtain ⟨cb, parsetype, got, read, pack, n, pos, head, tail, p⟩ := s
  rw [keepFollowing, keepFollowing, map_bind]
  refine bind_congr fun inside => ?_
  dsimp only [PacketSync.silent]
  cases inside with
  | true =>
    simp only [if_true, map_bind, pure_ok, map_ok, PacketSync.silent]
  | false =>
    simp only [Bool.false_eq_true, if_false]
    rfl

theorem deliver_silent (c : Recv) : deliver c.silent = Flow.silent <$> deliver c := by
  obtain ⟨s, iret, calls⟩ := c
  rw [deliver, deliver, map_bind]
  dsimp only [Recv.silent]
  rw [keepFollowing_silent, bind_map_left]
  exact bind_congr fun s => rfl

theorem checkFrame_silent (c : Recv) : checkFrame env c.silent = Flow.silent <$> checkFrame env c := by
  have hok : frameOk env c.silent.sync = frameOk env c.sync := rfl
  rw [checkFrame_frameOk, checkFrame_frameOk, hok, map_bind]
  refine bind_congr fun ok => ?_
  cases ok with
  | true => exact deliver_silent c
  | false =>
    have hroll : rollback env c.silent.sync = PacketSync.silent <$> rollback env c.sync := rollback_silent c.sync
    simp only [Bool.false_eq_true, if_false, map_bind, hroll, bind_map_left]
    exact bind_congr fun s => rfl

theorem toCheck_silent (c : Recv) : toCheck env data c.silent = Flow.silent <$> toCheck env data c := by
  have htype : c.silent.sync.parsetype = c.sync.parsetype := rfl
  rw [toCheck, toCheck, htype]
  cases c.sync.parsetype with
  | parseHead => exact gather_silent c
  | parseNothing =>
    dsimp only
    rw [parseHead_silent, bind_map_left, map_bind]
    refine bind_congr fun flow => ?_
    cases flow with
    | again c => rfl
    | ret c => rfl
    | go c => exact gather_silent c

/-- **A pass without a callback** is the pass with one, but for the callback. -/
theorem recvStep_silent (c : Recv) : recvStep env data c.silent = Flow.silent <$> recvStep env data c := by
  rw [recvStep_toCheck, recvStep_toCheck, toCheck_silent, bind_map_left, map_bind]
  refine bind_congr fun flow => ?_
  cases flow with
  | again c => rfl
  | ret c => rfl
  | go c => exact checkFrame_silent c

/-! The loop and the calls. -/

theorem recvLoop_silent : ∀ (fuel : Nat) (c : Recv),
    recvLoop env data fuel c.silent = Recv.silent <$> recvLoop env data fuel c
  | 0, _ => rfl
  | fuel + 1, c => by
    have hmore : recvMore data c.silent = recvMore data c := rfl
    rw [recvLoop, recvLoop, hmore]
    cases recvMore data c with
    | false => rfl
    | true =>
      simp only [if_true]
      rw [recvStep_silent, bind_map_left, map_bind]
      refine bind_congr fun flow => ?_
      cases flow with
      | again c => exact recvLoop_silent fuel c
      | ret c => rfl
      | go c => rfl

theorem recvdata_silent (s : PacketSync) : recvdata env s.silent data = Recv.silent <$> recvdata env s data :=
  recvLoop_silent _ ⟨s, 0, []⟩

theorem recvCalls_silent : ∀ (chunks : List (List UInt8)) (s : PacketSync),
    recvCalls env s.silent chunks = (fun r => (r.1.silent, [])) <$> recvCalls env s chunks
  | [], _ => rfl
  | data :: chunks, s => by
    rw [recvCalls, recvCalls, recvdata_silent, bind_map_left, map_bind]
    refine bind_congr fun c => ?_
    have hnext : recvCalls env c.silent.sync chunks =
        (fun r => (r.1.silent, [])) <$> recvCalls env c.sync chunks :=
      recvCalls_silent chunks c.sync
    rw [hnext, bind_map_left, map_bind]
    exact bind_congr fun r => rfl

end Blocks

/-! Runs. -/

section Run
variable {env : Env} {s₀ : PacketSync} {before : List (List UInt8)} {data : List UInt8} {c : Recv}

theorem LoopHead.silent (h : LoopHead env s₀ before data c) : LoopHead env s₀.silent before data c.silent := by
  induction h with
  | @first s calls h =>
    have hrun : recvCalls env s₀.silent before = .ok (s.silent, []) := by
      rw [recvCalls_silent, h]
      rfl
    exact .first hrun
  | @again c c' _ hm hs ih =>
    have hstep : recvStep env data c.silent = .ok (.again c'.silent) := by
      rw [recvStep_silent, hs]
      rfl
    exact ih.again hm hstep

/-- A loop head of the run without a callback is one of the run with it, seen through `silent`. -/
theorem LoopHead.of_silent (h : LoopHead env s₀.silent before data c) :
    ∃ d, LoopHead env s₀ before data d ∧ c = d.silent := by
  induction h with
  | first h =>
    rw [recvCalls_silent] at h
    obtain ⟨r, hrun, hr⟩ := map_eq_ok.1 h
    cases hr
    exact ⟨⟨r.1, 0, []⟩, .first hrun, rfl⟩
  | again _ hm hs ih =>
    obtain ⟨d, hd, rfl⟩ := ih
    rw [recvStep_silent] at hs
    obtain ⟨flow, hstep, hflow⟩ := map_eq_ok.1 hs
    cases flow with
    | again d' =>
      cases hflow
      exact ⟨d', hd.again hm hstep, rfl⟩
    | ret d' => cases hflow
    | go d' => cases hflow

theorem SmallAccepted.of_silent {chunks : List (List UInt8)} (h : SmallAccepted env s₀.silent chunks) :
    SmallAccepted env s₀ chunks := by
  intro before data after hcut c hc hmore p hp
  rw [← acceptedHeader_silent] at hp
  exact h before data after hcut c.silent hc.silent hmore p hp

end Run

theorem startedWith_false (env : Env) (head tail : UInt8) :
    startedWith env false head tail = (started env head tail).silent := rfl

end Uvnet

import Uvnet.ClientSend
import Uvnet.CircularCopy
import Uvnet.SharedQueue

/- The send side of the client is a bounded queue with many writers and one reader.

   1. `step_refines`: no step faults, and each is the moves `ClientSend.moves` gives it on a
      `Line` whose writers are the calls of `Send` and whose reader is `_send`.
   2. `sendPipeline_conserves`: hence, in every state reached, the buffers handed to
      `uv_write` and the ring together are what the ring accepted, in order, and every call
      of `Send` has had exactly the prefix it reports accepted. -/
namespace Uvnet
open CMachine ObjectPool BoundedQueue SharedQueue StepRun

/-- A call of `Send` as a writer. -/
def SendCall.writer (c : SendCall) : Writer UInt8 := ⟨c.data, c.iret⟩

/-- `bufTrueLen` is what was allocated, and `bufLen` is within it. -/
structure ClientWriteParam.Sized (p : ClientWriteParam) : Prop where
  base : p.bufBase.length = bufferSize
  trueLen : p.bufTrueLen = bufferSize
  len : p.bufLen ≤ bufferSize

theorem ClientWriteParam.alloc_sized (fresh : Nat → UInt8) : (ClientWriteParam.alloc fresh).Sized where
  base := by simp [alloc]
  trueLen := rfl
  len := Nat.le_refl _

namespace ClientSend

/-- The parameters in use: one for each write in flight, and the one `_send` has read into. -/
def inUse (s : ClientSend) : List Nat := s.pc.param.toList ++ s.writes.map Write.param

/-- What an event does to the line. -/
def moves (s : ClientSend) : ClientEvent → List (Move UInt8)
  | .send data => [.join (data.getD [])]
  | .call i =>
    match s.calls[i]? with
    | some ⟨data, iret, .write⟩ => [.offer i (SendCall.count ⟨data, iret, .write⟩).toNat]
    | _ => []
  | .drain => if s.pc = .send ∧ s.ring.empty = false then [.take bufferSize] else []
  | _ => []

/-- The line a client stands for. -/
structure Models (s : ClientSend) (l : Line UInt8 bufferSize) : Prop where
  ring : s.ring.Rep l.queue
  given : l.given = s.handed ++ s.passing
  log : l.log = s.accepted
  writers : l.writers = s.calls.map SendCall.writer

/-- The free list and the parameters in use, each with the buffer it was allocated with. -/
structure ParamsOk (params : Pool ClientWriteParam) (used : List Nat) : Prop where
  owned : params.Owned used
  avail : params.avail.length ≤ maxListSize + 1
  sized : ∀ p ∈ params.cells, p.Sized

structure Inv (s : ClientSend) (l : Line UInt8 bufferSize) : Prop where
  models : Models s l
  sound : Sound l
  params : ParamsOk s.params s.inUse
  short : ∀ c ∈ s.calls, c.data.length < 2 ^ 64
  result : ∀ c ∈ s.calls, ∀ n, c.pc = .done n → n = toInt c.iret

section Steps
variable {fresh : Nat → UInt8} {s s' : ClientSend} {l : Line UInt8 bufferSize}

theorem Inv.frame (h : Inv s l) (hring : s'.ring = s.ring) (hparams : s'.params = s.params)
    (hwrites : s'.writes = s.writes) (hcalls : s'.calls = s.calls) (haccepted : s'.accepted = s.accepted)
    (hsubmitted : s'.submitted = s.submitted) (hpc : s'.pc.param = s.pc.param) : Inv s' l where
  models := by
    obtain ⟨hr, hg, hl, hw⟩ := h.models
    refine ⟨by rwa [hring], ?_, by rwa [haccepted], by rwa [hcalls]⟩
    unfold handed passing
    rw [hsubmitted, hparams, hpc]
    exact hg
  sound := h.sound
  params := by
    unfold inUse
    rw [hparams, hwrites, hpc]
    exact h.params
  short := by rw [hcalls]; exact h.short
  result := by rw [hcalls]; exact h.result

theorem Inv.setCall (h : Inv s l) {i : Nat} {c : SendCall} (hi : s.calls[i]? = some c) (pc : SendPc)
    (hpc : ∀ n, pc = .done n → n = toInt c.iret) : Inv { s with calls := s.calls.set i { c with pc := pc } } l where
  models := by
    obtain ⟨hr, hg, hl, hw⟩ := h.models
    refine ⟨hr, hg, hl, hw.trans ?_⟩
    obtain ⟨hlt, rfl⟩ := List.getElem?_eq_some_iff.1 hi
    have hlt' : i < (s.calls.map SendCall.writer).length := by rwa [List.length_map]
    calc s.calls.map SendCall.writer
        = (s.calls.map SendCall.writer).set i (s.calls.map SendCall.writer)[i] := (List.set_getElem_self hlt').symm
      _ = (s.calls.map SendCall.writer).set i s.calls[i].writer := by rw [List.getElem_map]
      _ = (s.calls.set i { s.calls[i] with pc := pc }).map SendCall.writer := by rw [List.map_set]; rfl
  sound := h.sound
  params := h.params
  short := by
    intro k hk
    rcases List.mem_or_eq_of_mem_set hk with hk | rfl
    · exact h.short k hk
    · exact h.short c (List.mem_of_getElem? hi)
  result := by
    intro k hk
    rcases List.mem_or_eq_of_mem_set hk with hk | rfl
    · exact h.result k hk
    · exact hpc

theorem enter_writer (data : Option (List UInt8)) : (SendCall.enter data).writer = ⟨data.getD [], 0⟩ := by
  unfold SendCall.enter
  split <;> rfl

theorem Inv.enter (h : Inv s l) {data : Option (List UInt8)} (hd : (ClientEvent.send data).Valid) :
    Inv { s with calls := s.calls ++ [.enter data] } (l.move (.join (data.getD []))) where
  models := by
    obtain ⟨hr, hg, hl, hw⟩ := h.models
    refine ⟨hr, hg, hl, ?_⟩
    simp only [Line.move, hw, List.map_append, List.map_cons, List.map_nil, enter_writer]
  sound := h.sound.move _
  params := h.params
  short := by
    intro k hk
    rcases List.mem_append.1 hk with hk | hk
    · exact h.short k hk
    · rw [List.mem_singleton.1 hk]
      unfold SendCall.enter
      split
      · exact Nat.two_pow_pos 64
      · exact Nat.two_pow_pos 64
      · exact hd
  result := by
    intro k hk n hn
    rcases List.mem_append.1 hk with hk | hk
    · exact h.result k hk n hn
    · rw [List.mem_singleton.1 hk] at hn ⊢
      unfold SendCall.enter at hn ⊢
      split at hn
      · cases hn; rfl
      · cases hn; rfl
      · cases hn

/-- The call at its locked section is a writer with something left to offer. -/
theorem Inv.call_writer (h : Inv s l) {i : Nat} {c : SendCall} (hi : s.calls[i]? = some c) :
    l.writers[i]? = some c.writer ∧ c.iret ≤ c.data.length ∧ c.data.length < 2 ^ 64 := by
  have hw : l.writers[i]? = some c.writer := by rw [h.models.writers, List.getElem?_map, hi]; rfl
  exact ⟨hw, (h.sound.accepted i _ hw).2, h.short c (List.mem_of_getElem? hi)⟩

theorem SendCall.count_le {c : SendCall} (hle : c.iret ≤ c.data.length) (hmax : c.data.length < 2 ^ 64) :
    c.count ≤ (c.data.drop c.iret).length ∧ c.count ≤ intMax := by
  have h := toInt_le (sizeSub c.data.length c.iret)
  rw [sizeSub_eq hle hmax, ← List.length_drop] at h
  unfold SendCall.count
  rwa [sizeSub_eq hle hmax, ← List.length_drop]

/-- **The locked section of `Send`** offers the rest of the data to the line. -/
theorem writeSection_spec (h : Inv s l) {i : Nat} {c : SendCall} (hi : s.calls[i]? = some c)
    {sent : List UInt8} (hsent : sent = l.taken c.writer c.count.toNat) :
    ∃ ring, s.writeSection i c = .ok { s with
        ring := ring
        accepted := s.accepted ++ [(i, sent)]
        calls := s.calls.set i ⟨c.data, c.iret + sent.length,
          if c.iret + sent.length < c.data.length then .test else .signalLast⟩ } ∧
      ring.Rep (l.queue.put ((c.data.drop c.iret).take c.count.toNat)) := by
  obtain ⟨hw, hle, hmax⟩ := h.call_writer hi
  obtain ⟨hbuf, hcmax⟩ := SendCall.count_le hle hmax
  obtain ⟨ring, hwrite, hrep⟩ := PodCircularBuffer.write_spec h.models.ring hbuf hcmax
  have hpre : sent <+: c.data.drop c.iret := hsent ▸ taken_prefix l c.writer _
  have hlen : sent.length ≤ c.data.length - c.iret := by
    rw [← List.length_drop]
    exact hpre.length_le
  have hsize : toSize (sent.length : Int) = sent.length := toSize_natCast (by omega)
  have hadd : sizeAdd c.iret sent.length = c.iret + sent.length := sizeAdd_eq (by omega)
  have htake : (c.data.drop c.iret).take sent.length = sent := (List.prefix_iff_eq_take.1 hpre).symm
  have hacc : l.queue.accepted ((c.data.drop c.iret).take c.count.toNat) = sent := hsent.symm
  rw [hacc] at hwrite
  refine ⟨ring, ?_, hrep⟩
  rw [ClientSend.writeSection, hwrite, ok_bind]
  simp only [hsize, hadd, htake, pure_ok]

theorem Inv.writeSection (h : Inv s l) {i : Nat} {c : SendCall} (hi : s.calls[i]? = some c) :
    ∃ s', s.writeSection i c = .ok s' ∧ Inv s' (l.move (.offer i c.count.toNat)) := by
  obtain ⟨hw, -, hmax⟩ := h.call_writer hi
  obtain ⟨ring, hstep, hrep⟩ := writeSection_spec h hi rfl
  obtain ⟨hr, hg, hl, hwr⟩ := h.models
  refine ⟨_, hstep, ?_, h.sound.move _, h.params, ?_, ?_⟩
  · simp only [Line.move, hw]
    refine ⟨hrep, hg, ?_, ?_⟩
    · rw [hl]
    · rw [hwr, List.map_set]
      rfl
  · intro k hk
    rcases List.mem_or_eq_of_mem_set hk with hk | rfl
    · exact h.short k hk
    · exact hmax
  · intro k hk n hn
    rcases List.mem_or_eq_of_mem_set hk with hk | rfl
    · exact h.result k hk n hn
    · simp only at hn
      split at hn <;> cases hn

theorem Inv.sendStep (h : Inv s l) {i : Nat} {c : SendCall} (hi : s.calls[i]? = some c) :
    ∃ s', s.sendStep i c = .ok s' ∧ Inv s' (l.run (s.moves (.call i))) := by
  obtain ⟨data, iret, pc⟩ := c
  have hcall := h.call_writer hi
  cases pc with
  | signal =>
    refine ⟨_, rfl, ?_⟩
    simp only [moves, hi]
    exact (h.setCall hi .test (by simp)).frame rfl rfl rfl rfl rfl rfl rfl
  | test =>
    refine ⟨_, rfl, ?_⟩
    simp only [moves, hi]
    exact h.setCall hi _ (by intro n hn; split at hn <;> cases hn)
  | write =>
    simp only [moves, hi]
    exact h.writeSection hi
  | signalLast =>
    refine ⟨_, rfl, ?_⟩
    simp only [moves, hi]
    refine (h.setCall hi (.done (toInt iret)) ?_).frame rfl rfl rfl rfl rfl rfl rfl
    intro n hn
    exact (SendPc.done.inj hn).symm
  | done n =>
    refine ⟨s, rfl, ?_⟩
    simp only [moves, hi]
    exact h

/-- **The locked section of `_send`** takes from the line. -/
theorem drain_spec (fresh : Nat → UInt8) (h : Inv s l) (hne : s.ring.empty = false) :
    ∃ ring p, ring.Rep (l.queue.get bufferSize) ∧ p.Sized ∧ p.bufBase.take p.bufLen = l.queue.out bufferSize ∧
      s.drain fresh = .ok { s with
        ring := ring
        params := (s.params.fetch (.alloc fresh)).1.store (s.params.fetch (.alloc fresh)).2 p
        pc := .submit (s.params.fetch (.alloc fresh)).2 } := by
  have howned := h.params.owned.fetch (ClientWriteParam.alloc fresh)
  have hsized := Pool.fetch_cells (ClientWriteParam.alloc_sized fresh) h.params.sized
  have hlt := howned.held_live List.mem_cons_self
  obtain ⟨p, hp⟩ : ∃ p, (s.params.fetch (.alloc fresh)).1.cells[(s.params.fetch (.alloc fresh)).2]? = some p :=
    ⟨_, List.getElem?_eq_getElem hlt⟩
  obtain ⟨hbase, htrue, -⟩ := hsized p (List.mem_of_getElem? hp)
  have hbs : bufferSize ≤ intMax := by decide
  obtain ⟨ring, hread, hrep⟩ := PodCircularBuffer.read_spec h.models.ring
    (show ((bufferSize : Nat) : Int) ≤ p.bufBase.length by rw [hbase]) (by exact_mod_cast hbs)
  rw [Int.toNat_natCast] at hread hrep
  have hout : (l.queue.out bufferSize).length ≤ bufferSize := List.length_take_le _ _
  have hsize : toSize ((l.queue.out bufferSize).length : Int) = (l.queue.out bufferSize).length :=
    toSize_natCast (Nat.lt_of_le_of_lt hout (by decide))
  refine ⟨ring, { p with
    bufBase := l.queue.out bufferSize ++ p.bufBase.drop (l.queue.out bufferSize).length
    bufLen := (l.queue.out bufferSize).length }, hrep, ⟨?_, htrue, hout⟩, List.take_left, ?_⟩
  · rw [List.length_append, List.length_drop, hbase]
    omega
  · rw [drain, if_neg (by rw [hne]; exact Bool.false_ne_true)]
    simp only [hp, htrue, hread, ok_bind, hsize, pure_ok]

theorem Inv.drain (h : Inv s l) (hpc : s.pc = .send) (hne : s.ring.empty = false) :
    ∃ s', s.drain fresh = .ok s' ∧ Inv s' (l.move (.take bufferSize)) := by
  obtain ⟨ring, p, hrep, hsized, htake, hstep⟩ := drain_spec fresh h hne
  obtain ⟨hr, hg, hl, hw⟩ := h.models
  have howned := h.params.owned.fetch (ClientWriteParam.alloc fresh)
  have hlt := howned.held_live List.mem_cons_self
  have huse : s.inUse = s.writes.map Write.param := by rw [inUse, hpc]; rfl
  have hpass : s.passing = [] := by rw [passing, hpc]; rfl
  refine ⟨_, hstep, ⟨hrep, ?_, hl, hw⟩, h.sound.move _, ⟨?_, ?_, ?_⟩, h.short, h.result⟩
  · -- What the parameter now holds is on its way to `uv_write`.
    rw [hpass, List.append_nil] at hg
    simp only [Line.move, handed, passing, LoopPc.param, Option.bind_some, Pool.store,
      List.getElem?_set_self hlt, htake]
    rw [hg]
    rfl
  · rw [huse] at howned
    exact howned.store _ p
  · exact Nat.le_succ_of_le (Pool.fetch_avail_le _ h.params.avail)
  · exact Pool.store_cells hsized (Pool.fetch_cells (ClientWriteParam.alloc_sized fresh) h.params.sized) _

/-- **`uv_write`** is given what was read. -/
theorem uvWrite_spec (h : Inv s l) {id : Nat} (hpc : s.pc = .submit id) (iret status : Int) :
    s.uvWrite id iret status = .ok (
      let s' := { s with submitted := s.submitted ++ [Submission.mk s.conn s.passing iret status], pc := .send }
      if iret ≠ 0 then s'.recycleOneParam id
      else { s' with writes := s.writes ++ [Write.mk id s.passing status] }) := by
  have hlt : id < s.params.cells.length := h.params.owned.held_live (by rw [inUse, hpc]; simp [LoopPc.param])
  obtain ⟨p, hp⟩ : ∃ p, s.params.cells[id]? = some p := ⟨_, List.getElem?_eq_getElem hlt⟩
  have hsized := h.params.sized p (List.mem_of_getElem? hp)
  have hpass : s.passing = p.bufBase.take p.bufLen := by
    simp only [passing, hpc, LoopPc.param, Option.bind_some, hp]
  have hread : memRead p.bufBase 0 p.bufLen = .ok s.passing := by
    have hfit : (0 : Int) ≤ 0 ∧ (0 : Int) + p.bufLen ≤ p.bufBase.length := by
      have := hsized.len
      rw [hsized.base]
      omega
    rw [memRead, if_pos hfit, hpass]
    rfl
  simp only [uvWrite, hp, hread, ok_bind, pure_ok]
  split <;> rfl

theorem Inv.uvWrite (h : Inv s l) {id : Nat} (hpc : s.pc = .submit id) (iret status : Int) :
    ∃ s', s.uvWrite id iret status = .ok s' ∧ Inv s' l := by
  obtain ⟨hr, hg, hl, hw⟩ := h.models
  have huse : s.inUse = id :: s.writes.map Write.param := by rw [inUse, hpc]; rfl
  have howned := h.params.owned
  rw [huse] at howned
  have hgiven : l.given = (s.submitted ++ [Submission.mk s.conn s.passing iret status]).flatMap Submission.bytes := by
    rw [List.flatMap_append, hg]
    simp [handed]
  refine ⟨_, uvWrite_spec h hpc iret status, ?_⟩
  by_cases hret : iret ≠ 0
  · simp only [if_pos hret]
    refine ⟨⟨hr, ?_, hl, hw⟩, h.sound, ⟨howned.recycle maxListSize, ?_, ?_⟩, h.short, h.result⟩
    · rw [hgiven]
      exact (List.append_nil _).symm
    · exact Pool.recycle_avail_le h.params.avail id
    · rw [recycleOneParam, Pool.recycle_cells]
      exact h.params.sized
  · simp only [if_neg hret]
    refine ⟨⟨hr, ?_, hl, hw⟩, h.sound, ⟨?_, h.params.avail, h.params.sized⟩, h.short, h.result⟩
    · rw [hgiven]
      exact (List.append_nil _).symm
    · apply howned.perm
      simp only [inUse, LoopPc.param, Option.toList_none, List.nil_append, List.map_append, List.map_cons,
        List.map_nil]
      exact (List.perm_append_singleton id _).symm

/-- **`OnSend`** gives its parameter back. -/
theorem Inv.onSend (h : Inv s l) (hpc : s.pc = .idle) {k : Nat} {w : Write} (hk : s.writes[k]? = some w) :
    Inv (s.onSend k w) l := by
  obtain ⟨hr, hg, hl, hwr⟩ := h.models
  have hpass : s.passing = [] := by rw [passing, hpc]; rfl
  rw [hpass, List.append_nil] at hg
  have hperm : s.inUse.Perm (w.param :: (s.writes.eraseIdx k).map Write.param) := by
    obtain ⟨hlt, rfl⟩ := List.getElem?_eq_some_iff.1 hk
    rw [inUse, hpc]
    exact ((List.getElem_cons_eraseIdx_perm hlt).map Write.param).symm
  have hparams := (h.params.owned.perm hperm).recycle maxListSize
  have havail := Pool.recycle_avail_le h.params.avail w.param
  have hcells : (s.params.recycle maxListSize w.param).cells = s.params.cells := Pool.recycle_cells ..
  have hsized : ∀ p ∈ (s.params.recycle maxListSize w.param).cells, p.Sized := by
    rw [hcells]
    exact h.params.sized
  unfold ClientSend.onSend
  split
  · refine ⟨⟨hr, ?_, hl, hwr⟩, h.sound, ⟨?_, havail, hsized⟩, h.short, h.result⟩
    · simp only [passing, recycleOneParam, hpc]
      exact hg.trans (List.append_nil _).symm
    · simp only [inUse, recycleOneParam, hpc]
      exact hparams
  · refine ⟨⟨hr, ?_, hl, hwr⟩, h.sound, ⟨hparams, havail, hsized⟩, h.short, h.result⟩
    exact hg.trans (List.append_nil _).symm

theorem start_inv (fresh : Nat → UInt8) : Inv (start fresh) Line.start where
  models := by
    refine ⟨?_, rfl, rfl, rfl⟩
    exact PodCircularBuffer.new_rep fresh (by decide) (by decide)
  sound := start_sound
  params := ⟨Pool.empty_owned, Nat.zero_le _, by simp [start, Pool.empty]⟩
  short := by simp [start]
  result := by simp [start]

/-- **Every step is the moves it stands for**, and none faults. -/
theorem step_refines (fresh : Nat → UInt8) (h : Inv s l) {e : ClientEvent} (he : e.Valid) :
    ∃ s', step fresh s e = .ok s' ∧ Inv s' (l.run (s.moves e)) := by
  cases e with
  | send data => exact ⟨_, rfl, h.enter he⟩
  | call i =>
    cases hi : s.calls[i]? with
    | none =>
      refine ⟨s, by simp only [step, hi, pure_ok], ?_⟩
      simp only [moves, hi]
      exact h
    | some c =>
      simp only [step, hi]
      exact h.sendStep hi
  | close =>
    simp only [step]
    split
    · exact ⟨s, rfl, h⟩
    · exact ⟨_, rfl, h.frame rfl rfl rfl rfl rfl rfl rfl⟩
  | closeSignal =>
    simp only [step]
    split
    · exact ⟨s, rfl, h⟩
    · exact ⟨_, rfl, h.frame rfl rfl rfl rfl rfl rfl rfl⟩
  | async =>
    simp only [step]
    split
    · next hg => exact ⟨_, rfl, h.frame rfl rfl rfl rfl rfl rfl (by rw [hg.1]; rfl)⟩
    · exact ⟨s, rfl, h⟩
  | asyncTest =>
    simp only [step]
    split
    · next hg =>
      split
      · exact ⟨_, rfl, h.frame rfl rfl rfl rfl rfl rfl (by rw [hg]; rfl)⟩
      · exact ⟨_, rfl, h.frame rfl rfl rfl rfl rfl rfl (by rw [hg]; rfl)⟩
    · exact ⟨s, rfl, h⟩
  | recv =>
    simp only [step]
    split
    · next hg => exact ⟨_, rfl, h.frame rfl rfl rfl rfl rfl rfl (by rw [hg.1]; rfl)⟩
    · exact ⟨s, rfl, h⟩
  | onSend k =>
    simp only [step]
    cases hk : s.writes[k]? with
    | none => exact ⟨s, rfl, h⟩
    | some w =>
      simp only
      split
      · next hg => exact ⟨_, rfl, h.onSend hg hk⟩
      · exact ⟨s, rfl, h⟩
  | drain =>
    simp only [step, moves]
    split
    · next hg =>
      cases hr : s.ring.empty with
      | true =>
        rw [if_neg (by simp)]
        refine ⟨_, by rw [ClientSend.drain, if_pos hr]; rfl, ?_⟩
        exact h.frame rfl rfl rfl rfl rfl rfl (by rw [hg]; rfl)
      | false =>
        rw [if_pos ⟨hg, rfl⟩]
        exact h.drain hg hr
    · next hg =>
      rw [if_neg (fun hc => hg hc.1)]
      exact ⟨s, rfl, h⟩
  | uvWrite iret status =>
    cases hpc : s.pc with
    | submit id =>
      simp only [step, hpc]
      exact h.uvWrite hpc iret status
    | idle => exact ⟨s, by simp only [step, hpc]; rfl, h⟩
    | asyncCB => exact ⟨s, by simp only [step, hpc]; rfl, h⟩
    | send => exact ⟨s, by simp only [step, hpc]; rfl, h⟩
    | stopped => exact ⟨s, by simp only [step, hpc]; rfl, h⟩
  | reconnect =>
    simp only [step]
    split
    · exact ⟨_, rfl, h.frame rfl rfl rfl rfl rfl rfl rfl⟩
    · exact ⟨s, rfl, h⟩
  | stop =>
    simp only [step]
    split
    · next hg => exact ⟨_, rfl, h.frame rfl rfl rfl rfl rfl rfl (by rw [hg.1]; rfl)⟩
    · exact ⟨s, rfl, h⟩

/-- **What a step can do.** -/
inductive SendStep (fresh : Nat → UInt8) (s : ClientSend) : ClientEvent → ClientSend → Prop
  | idle {e : ClientEvent} : SendStep fresh s e s
  | entered (data : Option (List UInt8)) : SendStep fresh s (.send data) { s with calls := s.calls ++ [.enter data] }
  | called {i : Nat} {c : SendCall} {s' : ClientSend} (hi : s.calls[i]? = some c) (hs : s.sendStep i c = .ok s') :
      SendStep fresh s (.call i) s'
  | closeCalled : SendStep fresh s .close { s with isUserClosed := true, closeSignals := s.closeSignals + 1 }
  | closeSignalled : SendStep fresh s .closeSignal { s with asyncPending := true, closeSignals := s.closeSignals - 1 }
  | woken (hpc : s.pc = .idle) : SendStep fresh s .async { s with asyncPending := false, pc := .asyncCB }
  | userClosed (hpc : s.pc = .asyncCB) (hclosed : s.isUserClosed = true) :
      SendStep fresh s .asyncTest { s with handlesClosing := true, pc := .idle }
  | tested (hpc : s.pc = .asyncCB) : SendStep fresh s .asyncTest { s with pc := .send }
  | received (hpc : s.pc = .idle) : SendStep fresh s .recv { s with pc := .send }
  | sent {k : Nat} {w : Write} (hk : s.writes[k]? = some w) : SendStep fresh s (.onSend k) (s.onSend k w)
  | drained {s' : ClientSend} (hpc : s.pc = .send) (hs : s.drain fresh = .ok s') : SendStep fresh s .drain s'
  | submitted {id : Nat} {iret status : Int} {s' : ClientSend} (hpc : s.pc = .submit id)
      (hs : s.uvWrite id iret status = .ok s') : SendStep fresh s (.uvWrite iret status) s'
  | reconnected : SendStep fresh s .reconnect { s with conn := s.conn + 1 }
  | stopped (hpc : s.pc = .idle) (hwrites : s.writes = []) :
      SendStep fresh s .stop { s with isClosed := true, pc := .stopped }

theorem step_cases {e : ClientEvent} (hs : step fresh s e = .ok s') : SendStep fresh s e s' := by
  cases e with
  | send data =>
    cases hs
    exact .entered data
  | call i =>
    simp only [step] at hs
    split at hs
    · cases hs
      exact .idle
    · next c hi => exact .called hi hs
  | close =>
    simp only [step] at hs
    split at hs <;> cases hs
    · exact .idle
    · exact .closeCalled
  | closeSignal =>
    simp only [step] at hs
    split at hs <;> cases hs
    · exact .idle
    · exact .closeSignalled
  | async =>
    simp only [step] at hs
    split at hs
    · next hg =>
      cases hs
      exact .woken hg.1
    · cases hs
      exact .idle
  | asyncTest =>
    simp only [step] at hs
    split at hs
    · next hpc =>
      split at hs
      · next hclosed =>
        cases hs
        exact .userClosed hpc hclosed
      · cases hs
        exact .tested hpc
    · cases hs
      exact .idle
  | recv =>
    simp only [step] at hs
    split at hs
    · next hg =>
      cases hs
      exact .received hg.1
    · cases hs
      exact .idle
  | onSend k =>
    simp only [step] at hs
    split at hs
    · cases hs
      exact .idle
    · next w hk =>
      split at hs <;> cases hs
      · exact .sent hk
      · exact .idle
  | drain =>
    simp only [step] at hs
    split at hs
    · next hpc => exact .drained hpc hs
    · cases hs
      exact .idle
  | uvWrite iret status =>
    simp only [step] at hs
    split at hs
    · next id hpc => exact .submitted hpc hs
    · cases hs
      exact .idle
  | reconnect =>
    simp only [step] at hs
    split at hs <;> cases hs
    · exact .reconnected
    · exact .idle
  | stop =>
    simp only [step] at hs
    split at hs
    · next hg =>
      cases hs
      exact .stopped hg.1 (List.isEmpty_iff.1 hg.2.2)
    · cases hs
      exact .idle

theorem Inv.next (h : Inv s l) {e : ClientEvent} (he : e.Valid) (hs : step fresh s e = .ok s') :
    Inv s' (l.run (s.moves e)) := by
  obtain ⟨s'', hs'', h'⟩ := step_refines fresh h he
  obtain rfl : s'' = s' := Except.ok.inj (hs''.symm.trans hs)
  exact h'

/-- Neither what is to be sent nor what was submitted is another. -/
structure Unmoved (s s' : ClientSend) : Prop where
  calls : s'.calls = s.calls
  accepted : s'.accepted = s.accepted
  submitted : s'.submitted = s.submitted
  closed : s.isUserClosed = true → s'.isUserClosed = true

/-- **What a step does** to what is to be sent and what was submitted. -/
inductive Effect (s : ClientSend) : ClientEvent → ClientSend → Prop
  | enter (data : Option (List UInt8)) : Effect s (.send data) { s with calls := s.calls ++ [.enter data] }
  | call {i : Nat} {c : SendCall} {s' : ClientSend} (hi : s.calls[i]? = some c) (hs : s.sendStep i c = .ok s') :
      Effect s (.call i) s'
  | submit {id : Nat} {iret status : Int} {s' : ClientSend} (hpc : s.pc = .submit id) (hcalls : s'.calls = s.calls)
      (haccepted : s'.accepted = s.accepted) (hclosed : s'.isUserClosed = s.isUserClosed)
      (hsub : s'.submitted = s.submitted ++ [⟨s.conn, s.passing, iret, status⟩]) : Effect s (.uvWrite iret status) s'
  | other {e : ClientEvent} {s' : ClientSend} (h : Unmoved s s') : Effect s e s'

theorem step_effect (hinv : Inv s l) {e : ClientEvent} (hs : step fresh s e = .ok s') : Effect s e s' := by
  cases step_cases hs with
  | entered data => exact .enter data
  | called hi hs => exact .call hi hs
  | @submitted id iret status _ hpc hs =>
    obtain rfl := Except.ok.inj (hs.symm.trans (uvWrite_spec hinv hpc iret status))
    by_cases hret : iret ≠ 0
    · simp only [if_pos hret, recycleOneParam]
      exact .submit hpc rfl rfl rfl rfl
    · simp only [if_neg hret]
      exact .submit hpc rfl rfl rfl rfl
  | drained _ hs =>
    cases hne : s.ring.empty with
    | true =>
      rw [ClientSend.drain, if_pos hne] at hs
      cases hs
      exact .other ⟨rfl, rfl, rfl, fun h => h⟩
    | false =>
      obtain ⟨ring, p, -, -, -, hstep⟩ := drain_spec fresh hinv hne
      obtain rfl := Except.ok.inj (hs.symm.trans hstep)
      exact .other ⟨rfl, rfl, rfl, fun h => h⟩
  | closeCalled => exact .other ⟨rfl, rfl, rfl, fun _ => rfl⟩
  | sent =>
    unfold ClientSend.onSend
    split
    · exact .other ⟨rfl, rfl, rfl, fun h => h⟩
    · exact .other ⟨rfl, rfl, rfl, fun h => h⟩
  | idle => exact .other ⟨rfl, rfl, rfl, fun h => h⟩
  | closeSignalled => exact .other ⟨rfl, rfl, rfl, fun h => h⟩
  | woken => exact .other ⟨rfl, rfl, rfl, fun h => h⟩
  | userClosed => exact .other ⟨rfl, rfl, rfl, fun h => h⟩
  | tested => exact .other ⟨rfl, rfl, rfl, fun h => h⟩
  | received => exact .other ⟨rfl, rfl, rfl, fun h => h⟩
  | reconnected => exact .other ⟨rfl, rfl, rfl, fun h => h⟩
  | stopped => exact .other ⟨rfl, rfl, rfl, fun h => h⟩

end Steps

/-! The steps that touch the ring, in the code's own terms. -/

/-- Some line stands behind the state. -/
def Piped (s : ClientSend) : Prop := ∃ l, Inv s l

section Piped
variable {fresh : Nat → UInt8} {s s' : ClientSend}

theorem start_piped (fresh : Nat → UInt8) : Piped (start fresh) := ⟨_, start_inv fresh⟩

theorem Piped.next (h : Piped s) {e : ClientEvent} (he : e.Valid) (hs : step fresh s e = .ok s') : Piped s' := by
  obtain ⟨l, hl⟩ := h
  exact ⟨_, hl.next he hs⟩

theorem Inv.contents {l : Line UInt8 bufferSize} (h : Inv s l) : s.ring.contents = l.queue.items :=
  PodCircularBuffer.contents_spec h.models.ring

theorem Piped.contents_le (h : Piped s) : s.ring.contents.length ≤ bufferSize := by
  obtain ⟨l, hl⟩ := h
  rw [hl.contents]
  exact l.queue.bound

theorem Piped.full (h : Piped s) : s.ring.full = decide (s.ring.contents.length = bufferSize) := by
  obtain ⟨l, hl⟩ := h
  rw [hl.contents]
  exact PodCircularBuffer.full_spec hl.models.ring

theorem Piped.write (fresh : Nat → UInt8) (h : Piped s) {i : Nat} {c : SendCall} (hi : s.calls[i]? = some c) (hpc : c.pc = .write)
    {sent : List UInt8}
    (hsent : sent = ((c.data.drop c.iret).take c.count.toNat).take (bufferSize - s.ring.contents.length)) :
    ∃ ring, ring.contents = s.ring.contents ++ sent ∧ step fresh s (.call i) = .ok { s with
      ring := ring
      accepted := s.accepted ++ [(i, sent)]
      calls := s.calls.set i ⟨c.data, c.iret + sent.length,
        if c.iret + sent.length < c.data.length then .test else .signalLast⟩ } := by
  obtain ⟨l, hl⟩ := h
  have hacc : sent = l.taken c.writer c.count.toNat := by rw [hsent, hl.contents]; rfl
  obtain ⟨ring, hstep, hrep⟩ := writeSection_spec hl hi hacc
  refine ⟨ring, ?_, ?_⟩
  · rw [PodCircularBuffer.contents_spec hrep, hl.contents, hacc]
    rfl
  · simp only [step, hi, sendStep, hpc]
    exact hstep

theorem count_short {c : SendCall} (hle : c.iret ≤ c.data.length) (hmax : c.data.length ≤ intMax) :
    c.count.toNat = c.data.length - c.iret := by
  have h31 : intMax < 2 ^ 31 := by decide
  rw [SendCall.count, sizeSub_eq hle (by omega), toInt_eq (by omega), Int.toNat_natCast]

theorem Piped.write_short (fresh : Nat → UInt8) (h : Piped s) {i iret : Nat} {data : List UInt8}
    (hi : s.calls[i]? = some ⟨data, iret, .write⟩) (hmax : data.length ≤ intMax) {sent : List UInt8}
    (hsent : sent = (data.drop iret).take (bufferSize - s.ring.contents.length)) :
    ∃ ring, ring.contents = s.ring.contents ++ sent ∧ step fresh s (.call i) = .ok { s with
      ring := ring
      accepted := s.accepted ++ [(i, sent)]
      calls := s.calls.set i ⟨data, iret + sent.length,
        if iret + sent.length < data.length then .test else .signalLast⟩ } := by
  obtain ⟨l, hl⟩ := h
  have hcount := count_short (hl.call_writer hi).2.1 hmax
  apply Piped.write fresh ⟨l, hl⟩ hi rfl
  rw [hcount, List.take_of_length_le (Nat.le_of_eq List.length_drop)]
  exact hsent

theorem Piped.drain (fresh : Nat → UInt8) (h : Piped s) (hpc : s.pc = .send) (hne : s.ring.contents ≠ []) :
    ∃ ring params id, ring.contents = [] ∧
      step fresh s .drain = .ok { s with ring := ring, params := params, pc := .submit id } ∧
      passing { s with ring := ring, params := params, pc := .submit id } = s.ring.contents := by
  obtain ⟨l, hl⟩ := h
  have hempty : s.ring.empty = false := by
    rw [PodCircularBuffer.empty_spec hl.models.ring, ← hl.contents]
    exact List.isEmpty_eq_false_iff.2 hne
  obtain ⟨ring, p, hrep, -, htake, hstep⟩ := drain_spec fresh hl hempty
  have hlt := (hl.params.owned.fetch (ClientWriteParam.alloc fresh)).held_live List.mem_cons_self
  refine ⟨ring, _, _, ?_, by simp only [step, if_pos hpc]; exact hstep, ?_⟩
  · rw [PodCircularBuffer.contents_spec hrep]
    exact List.drop_of_length_le l.queue.bound
  · simp only [passing, LoopPc.param, Option.bind_some, Pool.store, List.getElem?_set_self hlt, htake]
    rw [hl.contents]
    exact List.take_of_length_le l.queue.bound

theorem Piped.uvWrite (fresh : Nat → UInt8) (h : Piped s) {id : Nat} (hpc : s.pc = .submit id) (status : Int) :
    step fresh s (.uvWrite 0 status) = .ok { s with
      submitted := s.submitted ++ [Submission.mk s.conn s.passing 0 status]
      writes := s.writes ++ [Write.mk id s.passing status]
      pc := .send } := by
  obtain ⟨l, hl⟩ := h
  simp only [step, hpc]
  exact uvWrite_spec hl hpc 0 status

theorem Piped.uvWrite_fails (fresh : Nat → UInt8) (h : Piped s) {id : Nat} (hpc : s.pc = .submit id) {iret : Int}
    (hret : iret ≠ 0) (status : Int) :
    step fresh s (.uvWrite iret status) = .ok { s with
      params := s.params.recycle maxListSize id
      submitted := s.submitted ++ [Submission.mk s.conn s.passing iret status]
      pc := .send } := by
  obtain ⟨l, hl⟩ := h
  simp only [step, hpc]
  rw [uvWrite_spec hl hpc iret status, if_pos hret]
  rfl

end Piped

theorem run_piped (fresh : Nat → UInt8) {es : List ClientEvent} (hes : ∀ e ∈ es, e.Valid) :
    ∃ s, run (step fresh) (start fresh) es = .ok s ∧ Piped s := by
  have hstep : ∀ s e, Piped s → e.Valid → ∃ s', step fresh s e = .ok s' ∧ Piped s' := by
    rintro s e ⟨l, h⟩ he
    obtain ⟨s', hs, h'⟩ := step_refines fresh h he
    exact ⟨s', hs, _, h'⟩
  exact run_total hstep (start_piped fresh) (Along.of_forall (fun e he _ => hes e he) _)

theorem Piped.run {fresh : Nat → UInt8} {es : List ClientEvent} {s s' : ClientSend} (hp : Piped s)
    (hes : ∀ e ∈ es, e.Valid) (hrun : run (step fresh) s es = .ok s') : Piped s' := by
  have hstep : ∀ s e s', Piped s → e.Valid → step fresh s e = .ok s' → Piped s' :=
    fun _ _ _ h he hs => h.next he hs
  exact run_keeps hstep hp (Along.of_forall (fun e he _ => hes e he) s) hrun

/-- One byte more than the ring holds. -/
def overfull : List UInt8 := 0 :: List.replicate bufferSize 0

theorem overfull_length : overfull.length = bufferSize + 1 := by
  rw [overfull, List.length_cons, List.length_replicate]

theorem overfull_drop : overfull.drop bufferSize = [0] := by
  have h : overfull = List.replicate (bufferSize + 1) 0 := List.replicate_succ.symm
  rw [h, List.drop_replicate, Nat.add_sub_cancel_left]
  rfl

end ClientSend

open ClientSend

/-! **The send pipeline loses, doubles and reorders nothing** before `uv_write`. Between the
locked section and its `uv_write`, what was read is on its way (`passing`). -/

theorem sendPipeline_conserves (fresh : Nat → UInt8) (es : List ClientEvent) (hes : ∀ e ∈ es, e.Valid) :
    ∃ s, run (step fresh) (start fresh) es = .ok s ∧
      s.handed ++ (s.passing ++ s.ring.contents) = elements s.accepted ∧
      (s.pc.param = none → s.handed ++ s.ring.contents = elements s.accepted) ∧
      ∀ i c, s.calls[i]? = some c →
        elementsOf i s.accepted = c.data.take c.iret ∧ c.iret ≤ c.data.length ∧
          (c.data.length ≤ intMax → ∀ n, c.pc = .done n → n = c.iret) := by
  obtain ⟨s, hrun, l, h⟩ := run_piped fresh hes
  obtain ⟨hr, hg, hl, hw⟩ := h.models
  have heq : s.handed ++ (s.passing ++ s.ring.contents) = elements s.accepted := by
    calc s.handed ++ (s.passing ++ s.ring.contents)
        = l.given ++ l.queue.items := by rw [hg, List.append_assoc, PodCircularBuffer.contents_spec hr]
      _ = elements l.log := h.sound.conserves
      _ = elements s.accepted := by rw [hl]
  refine ⟨s, hrun, heq, ?_, ?_⟩
  · intro hpc
    have hpass : s.passing = [] := by rw [passing, hpc]; rfl
    rwa [hpass, List.nil_append] at heq
  · intro i c hi
    rw [← hl]
    obtain ⟨hacc, hle⟩ := h.sound.accepted i _ (h.call_writer hi).1
    refine ⟨hacc, hle, fun hshort n hn => ?_⟩
    rw [h.result c (List.mem_of_getElem? hi) n hn]
    exact toInt_eq (Nat.le_trans hle hshort)

/-- Three bytes are sent and handed on, with a `Close` in between. -/
def shortRun : List ClientEvent :=
  [.send (some [7, 8, 9]), .call 0, .call 0, .call 0, .async, .asyncTest, .close, .drain, .uvWrite 0 0]

theorem sendPipeline_conserves_short :
    ∃ s, run (step fun _ => 0) (start fun _ => 0) shortRun = .ok s ∧
      s.handed ++ (s.passing ++ s.ring.contents) = elements s.accepted ∧
      (s.pc.param = none → s.handed ++ s.ring.contents = elements s.accepted) ∧
      ∀ i c, s.calls[i]? = some c →
        elementsOf i s.accepted = c.data.take c.iret ∧ c.iret ≤ c.data.length ∧
          (c.data.length ≤ intMax → ∀ n, c.pc = .done n → n = c.iret) :=
  sendPipeline_conserves (fun _ => 0) shortRun (by simp [shortRun, ClientEvent.Valid])

end Uvnet

import Uvnet.ServerSend
import Uvnet.ClientPipe

/- The write parameters of the server and of the client.

   1. `WritesSafe`: what has to hold of a pool of write parameters and of the writes in
      flight, for any kind of parameter with a buffer.
   2. `ServerSend.step_inv` and `ClientSend.step_holds`: every step keeps it. A parameter is on the
      free list, in the hands of one call, or in one write, and what is stored is stored in a
      parameter that the thread has just fetched.
   3. `write_pools_safe`: so it holds in every state either side reaches, and none faults. -/
namespace Uvnet
open CMachine ObjectPool StepRun

/-- The buffer of a parameter: `buf` and `buf_true_len`. -/
structure WriteBuf where
  base : List UInt8
  len : Nat
  trueLen : Int

/-- The bytes of `buf`. -/
def WriteBuf.bytes (b : WriteBuf) : List UInt8 := b.base.take b.len

/-- `buf_true_len` is what was allocated, and `buf.len` is within it. -/
structure WriteBuf.Sized (b : WriteBuf) : Prop where
  trueLen : b.trueLen = b.base.length
  len : b.len ≤ b.base.length

def WriteParam.buf (p : WriteParam) : WriteBuf := ⟨p.bufBase, p.bufLen, p.bufTrueLen⟩

def ClientWriteParam.buf (p : ClientWriteParam) : WriteBuf := ⟨p.bufBase, p.bufLen, p.bufTrueLen⟩

/-- The free list has no parameter twice, none that is in flight, and at most `MAXLISTSIZE + 1`;
no two writes in flight have one parameter; the sizes are right; and every write in flight has
its own bytes in its buffer. -/
structure WritesSafe {α : Type} (params : Pool α) (buf : α → WriteBuf) (writes : List (Nat × List UInt8)) : Prop where
  availNodup : params.avail.Nodup
  writesNodup : (writes.map Prod.fst).Nodup
  apart : ∀ w ∈ writes, w.1 ∉ params.avail ∧ w.1 ∉ params.released
  avail_le : params.avail.length ≤ maxListSize + 1
  sized : ∀ p ∈ params.cells, (buf p).Sized
  holds : params.Holds (fun p => (buf p).bytes) writes

theorem WritesSafe.of_owned {α : Type} {params : Pool α} {buf : α → WriteBuf} {writes : List (Nat × List UInt8)}
    {others : List Nat} (howned : params.Owned (others ++ writes.map Prod.fst)) (havail : params.avail.length ≤ maxListSize + 1)
    (hsized : ∀ p ∈ params.cells, (buf p).Sized) (hholds : params.Holds (fun p => (buf p).bytes) writes) :
    WritesSafe params buf writes where
  availNodup := (List.nodup_append.1 howned.nodup).1
  writesNodup := (List.nodup_append.1 (List.nodup_append.1 howned.nodup).2.1).2.1
  apart w hw := by
    have hmem : w.1 ∈ others ++ writes.map Prod.fst := List.mem_append_right _ (List.mem_map_of_mem hw)
    refine ⟨fun ha => ?_, (howned.live _ (List.mem_append_right _ hmem)).2⟩
    exact (List.nodup_append.1 howned.nodup).2.2 _ ha _ hmem rfl
  avail_le := havail
  sized := hsized
  holds := hholds

/-! The server. -/

namespace WriteParam
variable {p : WriteParam} {data : List UInt8}

/-- The sizes are right, and the allocation fits an `int`. -/
structure Ok (p : WriteParam) : Prop where
  sized : p.buf.Sized
  small : p.bufBase.length ≤ intMax

theorem alloc_ok (fresh : Nat → UInt8) : (alloc fresh).Ok where
  sized := ⟨by simp [buf, alloc], by simp [buf, alloc]⟩
  small := by
    simp only [alloc, List.length_map, List.length_range]
    decide

theorem grow_spec (fresh : Nat → UInt8) (h : p.Ok) {n : Nat} (hn : n ≤ intMax) :
    ∃ p', p.grow fresh n = .ok p' ∧ p'.bufTrueLen = p'.bufBase.length ∧ n ≤ p'.bufBase.length ∧ p'.bufBase.length ≤ intMax := by
  have htrue : p.bufTrueLen = p.bufBase.length := h.sized.trueLen
  have hmax : intMax < 2 ^ 64 := by decide
  have hsize : toSize p.bufTrueLen = p.bufBase.length := by
    rw [htrue]
    exact toSize_natCast (Nat.lt_of_le_of_lt h.small hmax)
  unfold grow
  rw [hsize]
  by_cases hlt : p.bufBase.length < n
  · have halloc : intMax ≤ maxAlloc := by decide
    rw [if_pos hlt, realloc_grow fresh rfl (by omega) (Nat.le_trans hn halloc) (Nat.le_of_lt hlt)]
    have hlen : (p.bufBase ++ (List.range (n - p.bufBase.length)).map fresh).length = n := by
      rw [List.length_append, List.length_map, List.length_range]
      omega
    exact ⟨_, rfl, by rw [toInt_eq hn, hlen], Nat.le_of_eq hlen.symm, by rw [hlen]; exact hn⟩
  · rw [if_neg hlt]
    exact ⟨p, rfl, htrue, Nat.le_of_not_lt hlt, h.small⟩

/-- **The buffer holds the data** after `_send` has filled it. -/
theorem fill_spec (fresh : Nat → UInt8) (h : p.Ok) (hlen : data.length ≤ intMax) :
    ∃ p', p.fill fresh data = .ok p' ∧ p'.Ok ∧ p'.buf.bytes = data := by
  obtain ⟨p', hgrow, htrue, hfit, hsmall⟩ := grow_spec fresh h hlen
  have hcopy : memcpy p'.bufBase 0 data 0 data.length = .ok (data ++ p'.bufBase.drop data.length) :=
    memcpy_mid (A := []) (G := []) (D := []) rfl rfl (List.append_nil data).symm rfl rfl hfit
  have hsame : (data ++ p'.bufBase.drop data.length).length = p'.bufBase.length := by
    rw [List.length_append, List.length_drop]
    omega
  have hfill : p.fill fresh data =
      .ok { p' with bufBase := data ++ p'.bufBase.drop data.length, bufLen := data.length } := by
    simp only [fill, hgrow, ok_bind, hcopy, pure_ok]
  refine ⟨_, hfill, ⟨⟨?_, ?_⟩, ?_⟩, ?_⟩
  · simp only [buf, htrue, hsame]
  · simp only [buf, hsame]
    exact hfit
  · simp only [hsame]
    exact hsmall
  · exact List.take_left

end WriteParam

/-- The parameter a call has. -/
def ServerSendPc.param : ServerSendPc → Option Nat
  | .fill id | .submit id | .recycle id => some id
  | _ => none

/-- The parameter a call has filled, and the data. -/
def ServerSendCall.filled (c : ServerSendCall) : Option (Nat × List UInt8) :=
  match c.pc with
  | .submit id => some (id, c.data)
  | _ => none

namespace ServerSend

/-- The parameters that calls have, and those in flight. -/
def inUse (s : ServerSend) : List Nat := (s.calls.filterMap fun c => c.pc.param) ++ s.writes.map ServerWrite.param

/-- The parameters filled or in flight, and what they have to hold. -/
def lent (s : ServerSend) : List (Nat × List UInt8) :=
  s.calls.filterMap ServerSendCall.filled ++ s.writes.map fun w => (w.param, w.bytes)

structure Inv (s : ServerSend) : Prop where
  owned : s.params.Owned s.inUse
  avail_le : s.params.avail.length ≤ maxListSize + 1
  ok : ∀ p ∈ s.params.cells, p.Ok
  holds : s.params.Holds (fun p => p.buf.bytes) s.lent
  short : ∀ c ∈ s.calls, c.data.length ≤ intMax
  source : ∀ w ∈ s.writes, ∃ c, s.calls[w.call]? = some c ∧ w.bytes = c.data

section Server
variable {fresh : Nat → UInt8} {s : ServerSend} {i : Nat} {c : ServerSendCall}

theorem filterMap_cons_toList {α β : Type} (f : α → Option β) (a : α) (l : List α) :
    (a :: l).filterMap f = (f a).toList ++ l.filterMap f := by
  rw [List.filterMap_cons]
  cases f a <;> rfl

theorem filterMap_perm {α β : Type} (f : α → Option β) {l : List α} {i : Nat} {a : α} (h : l[i]? = some a) :
    (l.filterMap f).Perm ((f a).toList ++ (l.eraseIdx i).filterMap f) := by
  obtain ⟨hlt, rfl⟩ := List.getElem?_eq_some_iff.1 h
  rw [← filterMap_cons_toList]
  exact ((List.getElem_cons_eraseIdx_perm hlt).filterMap f).symm

theorem filterMap_set_perm {α β : Type} (f : α → Option β) {l : List α} {i : Nat} {a : α} (h : l[i]? = some a) (b : α) :
    ((l.set i b).filterMap f).Perm ((f b).toList ++ (l.eraseIdx i).filterMap f) := by
  rw [← filterMap_cons_toList]
  exact (List.set_perm_cons_eraseIdx (List.getElem?_eq_some_iff.1 h).1 b).filterMap f

/-- The parameters in use by the other calls and by the writes `writes`. -/
def otherUse (s : ServerSend) (i : Nat) (writes : List ServerWrite) : List Nat :=
  ((s.calls.eraseIdx i).filterMap fun c => c.pc.param) ++ writes.map ServerWrite.param

def otherLent (s : ServerSend) (i : Nat) (writes : List ServerWrite) : List (Nat × List UInt8) :=
  (s.calls.eraseIdx i).filterMap ServerSendCall.filled ++ writes.map fun w => (w.param, w.bytes)

theorem otherLent_sub (s : ServerSend) (i : Nat) (writes : List ServerWrite) :
    ∀ id ∈ (s.otherLent i writes).map Prod.fst, id ∈ s.otherUse i writes := by
  intro id hid
  obtain ⟨l, hl, rfl⟩ := List.mem_map.1 hid
  rcases List.mem_append.1 hl with hl | hl
  · apply List.mem_append_left
    obtain ⟨c, hc, hfilled⟩ := List.mem_filterMap.1 hl
    refine List.mem_filterMap.2 ⟨c, hc, ?_⟩
    unfold ServerSendCall.filled at hfilled
    split at hfilled
    · next hpc =>
      rw [hpc, ← Option.some.inj hfilled]
      rfl
    · cases hfilled
  · apply List.mem_append_right
    obtain ⟨w, hw, rfl⟩ := List.mem_map.1 hl
    exact List.mem_map_of_mem hw

theorem Inv.split (h : Inv s) (hi : s.calls[i]? = some c) :
    s.params.Owned (c.pc.param.toList ++ s.otherUse i s.writes) ∧
      s.params.Holds (fun p => p.buf.bytes) (c.filled.toList ++ s.otherLent i s.writes) := by
  constructor
  · apply h.owned.perm
    rw [otherUse, ← List.append_assoc]
    exact (filterMap_perm (fun c => c.pc.param) hi).append_right _
  · apply h.holds.subset
    intro l hl
    rw [otherLent, ← List.append_assoc] at hl
    exact ((filterMap_perm ServerSendCall.filled hi).append_right _).mem_iff.2 hl

theorem Inv.setPc (h : Inv s) (hi : s.calls[i]? = some c) {params : Pool WriteParam} {writes : List ServerWrite} {pc : ServerSendPc}
    (howned : params.Owned (pc.param.toList ++ s.otherUse i writes)) (havail : params.avail.length ≤ maxListSize + 1)
    (hok : ∀ p ∈ params.cells, p.Ok)
    (hholds : params.Holds (fun p => p.buf.bytes) ((ServerSendCall.filled ⟨c.data, pc⟩).toList ++ s.otherLent i writes))
    (hwrites : ∀ w ∈ writes, w ∈ s.writes ∨ (w.call = i ∧ w.bytes = c.data)) :
    Inv (ServerSend.setPc { s with params := params, writes := writes } i c pc) where
  owned := by
    apply howned.perm
    rw [otherUse, ← List.append_assoc]
    exact ((filterMap_set_perm (fun c => c.pc.param) hi ⟨c.data, pc⟩).append_right _).symm
  avail_le := havail
  ok := hok
  holds := by
    apply hholds.subset
    intro l hl
    rw [otherLent, ← List.append_assoc]
    exact ((filterMap_set_perm ServerSendCall.filled hi ⟨c.data, pc⟩).append_right _).mem_iff.1 hl
  short := by
    intro k hk
    rcases List.mem_or_eq_of_mem_set hk with hk | rfl
    · exact h.short k hk
    · exact h.short c (List.mem_of_getElem? hi)
  source := by
    have hself : (s.calls.set i { c with pc := pc })[i]? = some { c with pc := pc } :=
      List.getElem?_set_self (List.getElem?_eq_some_iff.1 hi).1
    intro w hw
    -- The call keeps its data, whatever it does.
    by_cases hcall : w.call = i
    · refine ⟨{ c with pc := pc }, by rw [hcall]; exact hself, ?_⟩
      rcases hwrites w hw with hw | ⟨-, hbytes⟩
      · obtain ⟨c', hc', hbytes⟩ := h.source w hw
        rw [hcall, hi] at hc'
        rw [hbytes, ← Option.some.inj hc']
      · exact hbytes
    · rcases hwrites w hw with hw | ⟨heq, -⟩
      · obtain ⟨c', hc', hbytes⟩ := h.source w hw
        exact ⟨c', (List.getElem?_set_ne (Ne.symm hcall)).trans hc', hbytes⟩
      · exact absurd heq hcall

/-- **One step of `_send`.** -/
theorem Inv.sendStep (fresh : Nat → UInt8) (h : Inv s) (hi : s.calls[i]? = some c) (iret : Int) :
    ∃ s', s.sendStep fresh i c iret = .ok s' ∧ Inv s' := by
  obtain ⟨howned, hholds⟩ := h.split hi
  have hold : ∀ w ∈ s.writes, w ∈ s.writes ∨ (w.call = i ∧ w.bytes = c.data) := fun _ hw => .inl hw
  obtain ⟨data, pc⟩ := c
  cases pc with
  | fetch =>
    refine ⟨_, rfl, h.setPc hi ?_ ?_ ?_ ?_ hold⟩
    · exact howned.fetch _
    · exact Nat.le_succ_of_le (Pool.fetch_avail_le _ h.avail_le)
    · exact Pool.fetch_cells (WriteParam.alloc_ok fresh) h.ok
    · exact hholds.fetch _
  | fill id =>
    have hlt : id < s.params.cells.length := howned.held_live List.mem_cons_self
    obtain ⟨p, hp⟩ : ∃ p, s.params.cells[id]? = some p := ⟨_, List.getElem?_eq_getElem hlt⟩
    obtain ⟨p', hfill, hok, hbytes⟩ :=
      WriteParam.fill_spec fresh (h.ok p (List.mem_of_getElem? hp)) (h.short _ (List.mem_of_getElem? hi))
    -- No other call and no write has the parameter that is filled.
    have hother : id ∉ (s.otherLent i s.writes).map Prod.fst := by
      intro hmem
      have hnd := (List.nodup_append.1 howned.nodup).2.1
      exact (List.nodup_cons.1 hnd).1 (s.otherLent_sub i s.writes id hmem)
    refine ⟨ServerSend.setPc { s with params := s.params.store id p' } i ⟨data, .fill id⟩ (.submit id), ?_,
      h.setPc hi ?_ h.avail_le ?_ ?_ hold⟩
    · simp only [ServerSend.sendStep, hp, hfill, ok_bind, pure_ok]
    · exact howned.store id p'
    · exact Pool.store_cells hok h.ok id
    · have hset : (s.params.store id p').cells[id]? = some p' := List.getElem?_set_self hlt
      have hlend := (hholds.store hother p').lend hset
      rw [hbytes] at hlend
      exact hlend
  | submit id =>
    have hlt : id < s.params.cells.length := howned.held_live List.mem_cons_self
    obtain ⟨p, hp⟩ : ∃ p, s.params.cells[id]? = some p := ⟨_, List.getElem?_eq_getElem hlt⟩
    have hbytes : p.buf.bytes = data := by
      have hmem : (id, data) ∈ (ServerSendCall.filled ⟨data, .submit id⟩).toList ++ s.otherLent i s.writes := List.mem_cons_self
      have hview := hholds _ hmem
      rw [hp] at hview
      exact Option.some.inj hview
    -- libuv reads what the call has filled in.
    have hread : memRead p.bufBase 0 p.bufLen = .ok data := by
      have hle : p.bufLen ≤ p.bufBase.length := (h.ok p (List.mem_of_getElem? hp)).sized.len
      rw [memRead, if_pos ⟨Int.le_refl 0, by omega⟩]
      exact congrArg Except.ok hbytes
    by_cases hret : iret = 0
    · refine ⟨ServerSend.setPc { s with writes := s.writes ++ [⟨id, data, i⟩] } i ⟨data, .submit id⟩ (.done true), ?_,
        h.setPc hi ?_ h.avail_le h.ok ?_ ?_⟩
      · simp only [ServerSend.sendStep, hp, hread, ok_bind, pure_ok, hret, ne_eq, not_true_eq_false, if_false]
      · -- The parameter passes from the call to the write.
        apply howned.perm
        simp only [otherUse, List.map_append, List.map_cons, List.map_nil, ← List.append_assoc]
        exact (List.perm_append_singleton id _).symm
      · apply hholds.subset
        intro l hl
        simp only [otherLent, List.map_append, List.map_cons, List.map_nil, ← List.append_assoc] at hl
        rcases List.mem_append.1 hl with hl | hl
        · exact List.mem_cons_of_mem _ hl
        · rw [List.mem_singleton.1 hl]
          exact List.mem_cons_self
      · intro w hw
        rcases List.mem_append.1 hw with hw | hw
        · exact .inl hw
        · rw [List.mem_singleton.1 hw]
          exact .inr ⟨rfl, rfl⟩
    · refine ⟨ServerSend.setPc s i ⟨data, .submit id⟩ (.recycle id), ?_, h.setPc hi howned h.avail_le h.ok ?_ hold⟩
      · simp only [ServerSend.sendStep, hp, hread, ok_bind, pure_ok, hret, ne_eq, not_false_eq_true, if_true]
      · exact hholds.subset fun l hl => List.mem_cons_of_mem _ hl
  | recycle id =>
    refine ⟨_, rfl, h.setPc hi ?_ ?_ ?_ ?_ hold⟩
    · exact howned.recycle maxListSize
    · exact Pool.recycle_avail_le h.avail_le id
    · rw [Pool.recycle_cells]
      exact h.ok
    · exact hholds.recycle maxListSize id
  | done result => exact ⟨s, rfl, h⟩

/-- **`OnSend`** gives the parameter of its write back. -/
theorem Inv.onSend (h : Inv s) {k : Nat} {w : ServerWrite} (hk : s.writes[k]? = some w) : Inv (s.onSend k w) where
  owned := by
    have hperm : s.inUse.Perm (w.param :: ((s.calls.filterMap fun c => c.pc.param) ++ (s.writes.eraseIdx k).map ServerWrite.param)) := by
      obtain ⟨hlt, rfl⟩ := List.getElem?_eq_some_iff.1 hk
      have hw := ((List.getElem_cons_eraseIdx_perm hlt).map ServerWrite.param).symm
      exact (hw.append_left _).trans List.perm_middle
    exact (h.owned.perm hperm).recycle maxListSize
  avail_le := Pool.recycle_avail_le h.avail_le w.param
  ok := by
    rw [ServerSend.onSend, Pool.recycle_cells]
    exact h.ok
  holds := by
    apply (h.holds.recycle maxListSize w.param).subset
    intro l hl
    rcases List.mem_append.1 hl with hl | hl
    · exact List.mem_append_left _ hl
    · apply List.mem_append_right
      obtain ⟨w', hw', rfl⟩ := List.mem_map.1 hl
      exact List.mem_map.2 ⟨w', List.mem_of_mem_eraseIdx hw', rfl⟩
  short := h.short
  source w' hw' := h.source w' (List.mem_of_mem_eraseIdx hw')

theorem Inv.enter (h : Inv s) {data : List UInt8} (hlen : data.length < 2 ^ 31) :
    Inv { s with calls := s.calls ++ [.enter data] } := by
  have hnone : (ServerSendCall.enter data).pc.param = none ∧ (ServerSendCall.enter data).filled = none := by
    unfold ServerSendCall.enter
    cases data.isEmpty <;> exact ⟨rfl, rfl⟩
  refine ⟨?_, h.avail_le, h.ok, ?_, ?_, ?_⟩
  · have huse : ServerSend.inUse { s with calls := s.calls ++ [.enter data] } = s.inUse := by
      simp only [inUse, List.filterMap_append, filterMap_cons_toList, hnone.1, Option.toList_none, List.filterMap_nil,
        List.append_nil]
    rw [huse]
    exact h.owned
  · have hlent : ServerSend.lent { s with calls := s.calls ++ [.enter data] } = s.lent := by
      simp only [lent, List.filterMap_append, filterMap_cons_toList, hnone.2, Option.toList_none, List.filterMap_nil,
        List.append_nil]
    rw [hlent]
    exact h.holds
  · intro c hc
    rcases List.mem_append.1 hc with hc | hc
    · exact h.short c hc
    · rw [List.mem_singleton.1 hc]
      exact Nat.le_of_lt_succ hlen
  · intro w hw
    obtain ⟨c, hc, hbytes⟩ := h.source w hw
    refine ⟨c, ?_, hbytes⟩
    exact (List.getElem?_append_left (List.getElem?_eq_some_iff.1 hc).1).trans hc

/-- **Every step** of the server's send side keeps the pool in order, and none faults. -/
theorem step_inv (fresh : Nat → UInt8) (h : Inv s) {e : ServerSendEvent} (he : e.Valid) :
    ∃ s', step fresh s e = .ok s' ∧ Inv s' := by
  cases e with
  | send data => exact ⟨_, rfl, h.enter he⟩
  | call i iret =>
    simp only [step]
    cases hi : s.calls[i]? with
    | none => exact ⟨s, rfl, h⟩
    | some c => exact h.sendStep fresh hi iret
  | onSend k =>
    simp only [step]
    cases hk : s.writes[k]? with
    | none => exact ⟨s, rfl, h⟩
    | some w => exact ⟨_, rfl, h.onSend hk⟩

theorem start_inv : Inv start where
  owned := Pool.empty_owned
  avail_le := Nat.zero_le _
  ok := by simp [start, Pool.empty]
  holds := by simp [start, lent, Pool.Holds]
  short := by simp [start]
  source := by simp [start]

theorem Inv.safe (h : Inv s) : WritesSafe s.params WriteParam.buf (s.writes.map fun w => (w.param, w.bytes)) := by
  have howned := h.owned
  have huse : s.writes.map ServerWrite.param = (s.writes.map fun w => (w.param, w.bytes)).map Prod.fst := by
    rw [List.map_map]
    rfl
  rw [inUse, huse] at howned
  exact .of_owned howned h.avail_le (fun p hp => (h.ok p hp).sized) (h.holds.subset fun _ hl => List.mem_append_right _ hl)

end Server

end ServerSend

/-! The client. -/

theorem ClientWriteParam.Sized.buf {p : ClientWriteParam} (h : p.Sized) : p.buf.Sized where
  trueLen := by simp only [ClientWriteParam.buf, h.trueLen, h.base]
  len := by simp only [ClientWriteParam.buf, h.base, h.len]

namespace ClientSend

/-- Every write in flight has its bytes in its buffer. -/
def WritesHold (s : ClientSend) : Prop :=
  s.params.Holds (fun p => p.buf.bytes) (s.writes.map fun w => (w.param, w.bytes))

section Client
variable {fresh : Nat → UInt8} {s s' : ClientSend} {l : SharedQueue.Line UInt8 bufferSize}

theorem WritesHold.frame (h : WritesHold s) (hparams : s'.params = s.params) (hwrites : s'.writes = s.writes) :
    WritesHold s' := by
  unfold WritesHold
  rw [hparams, hwrites]
  exact h

theorem WritesHold.sendStep (h : WritesHold s) {i : Nat} {c : SendCall} (hs : s.sendStep i c = .ok s') : WritesHold s' := by
  unfold ClientSend.sendStep at hs
  split at hs
  · cases hs
    exact h.frame rfl rfl
  · cases hs
    exact h.frame rfl rfl
  · unfold ClientSend.writeSection at hs
    obtain ⟨r, -, hs⟩ := bind_eq_ok.1 hs
    cases hs
    exact h.frame rfl rfl
  · cases hs
    exact h.frame rfl rfl
  · cases hs
    exact h

theorem WritesHold.drain (h : WritesHold s) (hinv : Inv s l) (hs : s.drain fresh = .ok s') :
    WritesHold s' := by
  cases hne : s.ring.empty with
  | true =>
    rw [ClientSend.drain, if_pos hne] at hs
    cases hs
    exact h.frame rfl rfl
  | false =>
    obtain ⟨ring, p, -, -, -, hstep⟩ := drain_spec fresh hinv hne
    obtain rfl := Except.ok.inj (hs.symm.trans hstep)
    have howned := hinv.params.owned.fetch (ClientWriteParam.alloc fresh)
    have hnd := (List.nodup_append.1 howned.nodup).2.1
    have hother : (s.params.fetch (.alloc fresh)).2 ∉ (s.writes.map fun w => (w.param, w.bytes)).map Prod.fst := by
      rw [List.map_map]
      intro hmem
      exact (List.nodup_cons.1 hnd).1 (List.mem_append_right _ hmem)
    exact (h.fetch (.alloc fresh)).store hother p

theorem WritesHold.uvWrite (h : WritesHold s) (hinv : Inv s l) {id : Nat} (hpc : s.pc = .submit id) (iret status : Int)
    (hs : s.uvWrite id iret status = .ok s') : WritesHold s' := by
  obtain rfl := Except.ok.inj (hs.symm.trans (uvWrite_spec hinv hpc iret status))
  by_cases hret : iret ≠ 0
  · simp only [if_pos hret]
    exact h.recycle maxListSize id
  · simp only [if_neg hret]
    have hlt : id < s.params.cells.length := hinv.params.owned.held_live (by rw [inUse, hpc]; simp [LoopPc.param])
    obtain ⟨p, hp⟩ : ∃ p, s.params.cells[id]? = some p := ⟨_, List.getElem?_eq_getElem hlt⟩
    -- What is submitted is what `read` put into the buffer.
    have hpass : s.passing = p.buf.bytes := by
      simp only [passing, hpc, LoopPc.param, Option.bind_some, hp]
      rfl
    apply (h.lend hp).subset
    intro l hl
    simp only [List.map_append, List.map_cons, List.map_nil, hpass] at hl
    exact (List.perm_append_singleton (id, p.buf.bytes) _).mem_iff.1 hl

theorem WritesHold.onSend (h : WritesHold s) (k : Nat) (w : Write) : WritesHold (s.onSend k w) := by
  have hrest : ∀ pc, WritesHold { s with
      writes := s.writes.eraseIdx k, params := s.params.recycle maxListSize w.param, pc := pc } := by
    intro pc
    apply (h.recycle maxListSize w.param).subset
    intro l hl
    obtain ⟨w', hw', rfl⟩ := List.mem_map.1 hl
    exact List.mem_map.2 ⟨w', List.mem_of_mem_eraseIdx hw', rfl⟩
  unfold ClientSend.onSend
  split
  · exact hrest s.pc
  · exact hrest .send

/-- **Every step** of the client keeps what the writes in flight hold. -/
theorem step_holds (h : WritesHold s) (hp : Piped s) {e : ClientEvent} (hs : step fresh s e = .ok s') : WritesHold s' := by
  obtain ⟨l, hinv⟩ := hp
  cases step_cases hs with
  | idle => exact h
  | entered => exact h.frame rfl rfl
  | called _ hs => exact h.sendStep hs
  | closeCalled => exact h.frame rfl rfl
  | closeSignalled => exact h.frame rfl rfl
  | woken => exact h.frame rfl rfl
  | userClosed => exact h.frame rfl rfl
  | tested => exact h.frame rfl rfl
  | received => exact h.frame rfl rfl
  | sent => exact h.onSend _ _
  | drained _ hs => exact h.drain hinv hs
  | @submitted id iret status _ hpc hs => exact h.uvWrite hinv hpc iret status hs
  | reconnected => exact h.frame rfl rfl
  | stopped => exact h.frame rfl rfl

theorem Piped.safe (hp : Piped s) (h : WritesHold s) :
    WritesSafe s.params ClientWriteParam.buf (s.writes.map fun w => (w.param, w.bytes)) := by
  obtain ⟨l, hinv⟩ := hp
  have howned := hinv.params.owned
  have huse : s.writes.map Write.param = (s.writes.map fun w => (w.param, w.bytes)).map Prod.fst := by
    rw [List.map_map]
    rfl
  rw [inUse, huse] at howned
  exact .of_owned howned hinv.params.avail (fun p hm => (hinv.params.sized p hm).buf) h

end Client

end ClientSend

/-! **The pools of write parameters are safe**: on either side no run faults, no parameter is on
the free list twice or while it is in flight, and every write in flight has in its buffer what
was submitted, which on the server is the data of the call. -/

theorem write_pools_safe (fresh : Nat → UInt8) (es : List ServerSendEvent) (hes : ∀ e ∈ es, e.Valid)
    (es' : List ClientEvent) (hes' : ∀ e ∈ es', e.Valid) :
    (∃ s, run (ServerSend.step fresh) ServerSend.start es = .ok s ∧
      WritesSafe s.params WriteParam.buf (s.writes.map fun w => (w.param, w.bytes)) ∧
      ∀ w ∈ s.writes, ∃ c, s.calls[w.call]? = some c ∧ w.bytes = c.data) ∧
    (∃ s, run (ClientSend.step fresh) (ClientSend.start fresh) es' = .ok s ∧
      WritesSafe s.params ClientWriteParam.buf (s.writes.map fun w => (w.param, w.bytes))) := by
  constructor
  · have hstep : ∀ s e, ServerSend.Inv s → e.Valid → ∃ s', ServerSend.step fresh s e = .ok s' ∧ ServerSend.Inv s' :=
      fun _ _ h he => ServerSend.step_inv fresh h he
    obtain ⟨s, hrun, h⟩ := run_total hstep ServerSend.start_inv (Along.of_forall (fun e he _ => hes e he) _)
    exact ⟨s, hrun, h.safe, h.source⟩
  · have hstep : ∀ s e, ClientSend.Piped s ∧ ClientSend.WritesHold s → e.Valid →
        ∃ s', ClientSend.step fresh s e = .ok s' ∧ ClientSend.Piped s' ∧ ClientSend.WritesHold s' := by
      rintro s e ⟨⟨l, hl⟩, h⟩ he
      obtain ⟨s', hs, h'⟩ := ClientSend.step_refines fresh hl he
      exact ⟨s', hs, ⟨_, h'⟩, ClientSend.step_holds h ⟨l, hl⟩ hs⟩
    have hstart : ClientSend.WritesHold (ClientSend.start fresh) := by
      intro w hw
      cases hw
    obtain ⟨s, hrun, hp, h⟩ :=
      run_total hstep ⟨ClientSend.start_piped fresh, hstart⟩ (Along.of_forall (fun e he _ => hes' e he) _)
    exact ⟨s, hrun, hp.safe h⟩

/-- Two calls of `_send`, whose writes are in flight together; the first completes, and a third
call uses its parameter again, in vain. -/
def serverSends : List ServerSendEvent :=
  [.send [1, 2], .send [3], .call 0 0, .call 1 0, .call 1 0, .call 0 0, .call 0 0, .call 1 0, .onSend 0, .send [4],
    .call 2 0, .call 2 0, .call 2 (-1), .call 2 0]

theorem write_pools_safe_runs :
    (∃ s, run (ServerSend.step fun _ => 0) ServerSend.start serverSends = .ok s ∧
      WritesSafe s.params WriteParam.buf (s.writes.map fun w => (w.param, w.bytes)) ∧
      ∀ w ∈ s.writes, ∃ c, s.calls[w.call]? = some c ∧ w.bytes = c.data) ∧
    (∃ s, run (ClientSend.step fun _ => 0) (ClientSend.start fun _ => 0) shortRun = .ok s ∧
      WritesSafe s.params ClientWriteParam.buf (s.writes.map fun w => (w.param, w.bytes))) :=
  write_pools_safe (fun _ => 0) serverSends (by simp [serverSends, ServerSendEvent.Valid]) shortRun
    (by simp [shortRun, ClientEvent.Valid])

end Uvnet

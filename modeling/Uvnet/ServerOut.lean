import Uvnet.ServerRegistry
import Uvnet.WritePools

/- What a `TCPServer` sends: `_send` and `_broadcast`, called by any threads, next to the
   callbacks of the loop thread.

   `_broadcast` holds `_mutex_sessions` from its first session to its last. Meanwhile the
   callbacks that lock this mutex wait, and so do other broadcasts; `_send` goes on.

   1. `Moved`: what one step of a call of `_send` does to the calls and the writes.
   2. `Inv.logged`: every call has in the list of the writes that `uv_write` took what it has
      to have, its data once where it returned true and nothing where it did not.
   3. `sends_taken_once`: so it is in every run, and the list only grows at its end, by calls
      that have not returned.

   Not part of the code are the list of the writes taken, and in a broadcast what it found
   registered and which calls of `_send` it made. -/
namespace Uvnet
open CMachine ObjectPool StepRun

/-- Where a call of `_broadcast` stands: before it locks `_mutex_sessions`, at the head of its
loop, in a call of `_send`, or returned. `rest` are the sessions still to come, `excludeIds` the
ids not yet erased. -/
inductive BroadcastPc where
  | lock
  | loop (rest : List (Int × Nat)) (excludeIds : List Int)
  | sending (call : Nat) (rest : List (Int × Nat)) (excludeIds : List Int)
  | done

/-- `sessions` is what was registered under the lock, `sends` the sessions sent to, each with
its call of `_send`. -/
structure Broadcast where
  data : List UInt8
  excludeIds : List Int
  pc : BroadcastPc
  sessions : List (Int × Nat)
  sends : List (Nat × Nat)

/-- `_broadcast`: an empty string is sent by doing nothing. -/
def Broadcast.enter (data : List UInt8) (excludeIds : List Int) : Broadcast :=
  ⟨data, excludeIds, if data.isEmpty then .done else .lock, [], []⟩

/-- It has `_mutex_sessions`. -/
def Broadcast.holds (x : Broadcast) : Bool :=
  match x.pc with
  | .loop .. | .sending .. => true
  | _ => false

/-- `targets` has the context of each call of `_send`, `taken` what `uv_write` took. -/
structure ServerOut where
  server : TCPServer
  send : ServerSend
  targets : List Nat
  taken : List ServerWrite
  broadcasts : List Broadcast

inductive OutEvent where
  /-- A callback of the loop thread. -/
  | server (e : ServerEvent)
  /-- A thread calls `_send` for a context. -/
  | send (ctx : Nat) (data : List UInt8)
  /-- The next step of the `i`th call of `_send`, and what `uv_write` returns in it. -/
  | call (i : Nat) (iret : Int)
  /-- `OnSend` for the `k`th write in flight. -/
  | onSend (k : Nat)
  /-- A thread calls `_broadcast`. -/
  | broadcast (data : List UInt8) (excludeIds : List Int)
  /-- The next step of the `b`th call of `_broadcast`. -/
  | broadcastStep (b : Nat)

/-- Data of less than 2^31 bytes. -/
def OutEvent.Valid : OutEvent → Prop
  | .send _ data => data.length < 2 ^ 31
  | .broadcast data _ => data.length < 2 ^ 31
  | _ => True

/-- A step of `_send`, or `OnSend`. -/
def OutEvent.ofSend : OutEvent → Bool
  | .send .. | .call .. | .onSend _ => true
  | _ => false

/-- The callback locks `_mutex_sessions`: to register a session, in `_close`, or in `SessionClosed`. -/
def TCPServer.locksSessions (s : TCPServer) : ServerEvent → Bool
  | .onConnection status tcpInit accept readStart => decide (status = 0 ∧ tcpInit = 0 ∧ accept = 0 ∧ readStart = 0)
  | .start => !s.isClosed
  | .asyncClose => s.isUserClosed && !s.isClosed
  | .handleClosed id => decide ((s.ctxs.cells[id]?).map SessionCtx.tcpHandle = some (.closing .sessionClose))
  | _ => false

namespace ServerOut

def start (packHead packTail : UInt8) : ServerOut := ⟨.start packHead packTail, .start, [], [], []⟩

def setBroadcast (s : ServerOut) (b : Nat) (x : Broadcast) : ServerOut := { s with broadcasts := s.broadcasts.set b x }

/-- `_send` is called. -/
def beginSend (s : ServerOut) (ctx : Nat) (data : List UInt8) : ServerOut :=
  { s with send := { s.send with calls := s.send.calls ++ [.enter data] }, targets := s.targets ++ [ctx] }

/-- A thread has `_mutex_sessions`. -/
def locked (s : ServerOut) : Bool := s.broadcasts.any Broadcast.holds

/-- One step of `_broadcast`. Without ids to exclude its loop looks for none, and finds none. -/
def broadcastStep (s : ServerOut) (b : Nat) (x : Broadcast) : C ServerOut :=
  match x.pc with
  | .lock =>
    if s.locked then return s
    else return s.setBroadcast b { x with pc := .loop s.server.sessions x.excludeIds, sessions := s.server.sessions }
  | .loop [] _ => return s.setBroadcast b { x with pc := .done }
  | .loop ((sid, k) :: rest) excludeIds =>
    if sid ∈ excludeIds then return s.setBroadcast b { x with pc := .loop rest (excludeIds.erase sid) }
    else do
      let session ← s.server.obj k
      if session.deleted then .error .wildPointer
      else return (s.beginSend session.ctx x.data).setBroadcast b { x with
        pc := .sending s.send.calls.length rest excludeIds
        sends := x.sends ++ [(k, s.send.calls.length)] }
  | .sending i rest excludeIds =>
    match s.send.calls[i]? with
    | some ⟨_, .done _⟩ => return s.setBroadcast b { x with pc := .loop rest excludeIds }
    | _ => return s
  | .done => return s

def step (env : Env) (fresh : Nat → UInt8) (s : ServerOut) : OutEvent → C ServerOut
  | .server e =>
    if s.server.locksSessions e && s.locked then return s
    else do
      let server ← s.server.step env e
      return { s with server := server }
  | .send ctx data => return s.beginSend ctx data
  | .call i iret => do
    let send ← s.send.step fresh (.call i iret)
    return { s with send := send, taken := s.taken ++ send.writes.drop s.send.writes.length }
  | .onSend k => do
    let send ← s.send.step fresh (.onSend k)
    return { s with send := send }
  | .broadcast data excludeIds => return { s with broadcasts := s.broadcasts ++ [.enter data excludeIds] }
  | .broadcastStep b =>
    match s.broadcasts[b]? with
    | none => return s
    | some x => s.broadcastStep b x

/-- What `uv_write` took from the `i`th call of `_send`. -/
def takenBy (s : ServerOut) (i : Nat) : List (List UInt8) :=
  (s.taken.filter fun w => w.call = i).map ServerWrite.bytes

end ServerOut

/-- What `uv_write` has to have taken from a call: its data, once it has returned true. -/
def ServerSendCall.handed (c : ServerSendCall) : List (List UInt8) :=
  if c.pc = .done true ∧ c.data ≠ [] then [c.data] else []

/-- How many steps of `_send` are still to come. -/
def ServerSendPc.left : ServerSendPc → Nat
  | .fetch => 3
  | .fill _ => 2
  | .submit _ | .recycle _ => 1
  | .done _ => 0

/-- `uv_write` did not take the data. -/
def ServerSendPc.failed : ServerSendPc → Bool
  | .recycle _ | .done false => true
  | _ => false

namespace ServerSend

/-- **What a step of `_send` does**: the call moves on and no write is taken, or its data is
taken and it returns true. A call that has returned does nothing. -/
inductive Moved (s : ServerSend) (i : Nat) (c : ServerSendCall) : ServerSend → Prop
  | on {s' : ServerSend} {pc : ServerSendPc} (hrun : ∀ r, c.pc ≠ .done r) (hpc : pc ≠ .done true)
      (hcalls : s'.calls = s.calls.set i ⟨c.data, pc⟩) (hwrites : s'.writes = s.writes) : Moved s i c s'
  | taken {s' : ServerSend} {id : Nat} (hpc : c.pc = .submit id) (hcalls : s'.calls = s.calls.set i ⟨c.data, .done true⟩)
      (hwrites : s'.writes = s.writes ++ [⟨id, c.data, i⟩]) : Moved s i c s'
  | returned {r : Bool} (hpc : c.pc = .done r) : Moved s i c s

section Moved
variable {fresh : Nat → UInt8} {s s' : ServerSend} {i : Nat} {c : ServerSendCall} {iret : Int}

theorem Inv.bytes_eq (h : Inv s') (hi : i < s.calls.length) {id : Nat} {bytes : List UInt8} {pc : ServerSendPc}
    (hcalls : s'.calls = s.calls.set i ⟨c.data, pc⟩) (hwrites : s'.writes = s.writes ++ [⟨id, bytes, i⟩]) : bytes = c.data := by
  obtain ⟨c', hc', hbytes⟩ := h.source ⟨id, bytes, i⟩ (by simp [hwrites])
  rw [hcalls, List.getElem?_set_self hi] at hc'
  obtain rfl := Option.some.inj hc'
  exact hbytes

theorem Inv.moved (h : Inv s) (hi : s.calls[i]? = some c) (hs : s.sendStep fresh i c iret = .ok s') : Moved s i c s' := by
  have hlt := (List.getElem?_eq_some_iff.1 hi).1
  obtain ⟨s₁, hs₁, h'⟩ := h.sendStep fresh hi iret
  obtain rfl : s' = s₁ := Except.ok.inj (hs.symm.trans hs₁)
  obtain ⟨data, pc⟩ := c
  unfold ServerSend.sendStep at hs
  cases pc with
  | fetch =>
    cases hs
    exact .on (by simp) (by simp) rfl rfl
  | fill id =>
    simp only at hs
    split at hs
    · cases hs
    · obtain ⟨p', -, hs⟩ := bind_eq_ok.1 hs
      cases hs
      exact .on (by simp) (by simp) rfl rfl
  | submit id =>
    simp only at hs
    split at hs
    · cases hs
    · obtain ⟨bytes, -, hs⟩ := bind_eq_ok.1 hs
      split at hs
      · cases hs
        exact .on (by simp) (by simp) rfl rfl
      · cases hs
        obtain rfl : bytes = data := h'.bytes_eq hlt (c := ⟨data, .submit id⟩) rfl rfl
        exact .taken rfl rfl rfl
  | recycle id =>
    cases hs
    exact .on (by simp) (by simp) rfl rfl
  | done r =>
    cases hs
    exact .returned rfl

theorem Inv.fetched (h : Inv s) {data : List UInt8} (hi : s.calls[i]? = some ⟨data, .fetch⟩) :
    ∃ s' id, step fresh s (.call i iret) = .ok s' ∧ Inv s' ∧ s'.calls = s.calls.set i ⟨data, .fill id⟩ ∧ s'.writes = s.writes := by
  obtain ⟨s', hs, h'⟩ := h.sendStep fresh hi iret
  refine ⟨s', (s.params.fetch (.alloc fresh)).2, ?_, h', ?_, ?_⟩
  · simp only [ServerSend.step, hi, hs]
  · cases hs
    rfl
  · cases hs
    rfl

theorem Inv.filled (h : Inv s) {data : List UInt8} {id : Nat} (hi : s.calls[i]? = some ⟨data, .fill id⟩) :
    ∃ s', step fresh s (.call i iret) = .ok s' ∧ Inv s' ∧ s'.calls = s.calls.set i ⟨data, .submit id⟩ ∧ s'.writes = s.writes := by
  obtain ⟨s', hs, h'⟩ := h.sendStep fresh hi iret
  refine ⟨s', by simp only [ServerSend.step, hi, hs], h', ?_⟩
  simp only [ServerSend.sendStep] at hs
  split at hs
  · cases hs
  · obtain ⟨p', -, hs⟩ := bind_eq_ok.1 hs
    cases hs
    exact ⟨rfl, rfl⟩

theorem Inv.submitted (h : Inv s) {data : List UInt8} {id : Nat} (hi : s.calls[i]? = some ⟨data, .submit id⟩) :
    ∃ s', step fresh s (.call i 0) = .ok s' ∧ Inv s' ∧ s'.calls = s.calls.set i ⟨data, .done true⟩ ∧
      s'.writes = s.writes ++ [⟨id, data, i⟩] := by
  have hlt := (List.getElem?_eq_some_iff.1 hi).1
  obtain ⟨s', hs, h'⟩ := h.sendStep fresh hi 0
  refine ⟨s', by simp only [ServerSend.step, hi, hs], h', ?_⟩
  simp only [ServerSend.sendStep] at hs
  split at hs
  · cases hs
  · obtain ⟨bytes, -, hs⟩ := bind_eq_ok.1 hs
    simp only [ne_eq, not_true_eq_false, if_false] at hs
    cases hs
    obtain rfl : bytes = data := h'.bytes_eq hlt (c := ⟨data, .submit id⟩) rfl rfl
    exact ⟨rfl, rfl⟩

/-- **A call of `_send`** that nobody interrupts, and whose write is taken. -/
theorem Inv.sendThrough (h : Inv s) (fresh : Nat → UInt8) {data : List UInt8} (hi : s.calls[i]? = some ⟨data, .fetch⟩) :
    ∃ s₁ s₂ s₃ id, step fresh s (.call i 0) = .ok s₁ ∧ step fresh s₁ (.call i 0) = .ok s₂ ∧ step fresh s₂ (.call i 0) = .ok s₃ ∧
      s₁.writes = s.writes ∧ s₂.writes = s.writes ∧ Inv s₃ ∧ s₃.calls = s.calls.set i ⟨data, .done true⟩ ∧
      s₃.writes = s.writes ++ [⟨id, data, i⟩] := by
  have hlt := (List.getElem?_eq_some_iff.1 hi).1
  obtain ⟨s₁, id, hs₁, h₁, hcalls₁, hwrites₁⟩ := h.fetched hi
  have hi₁ : s₁.calls[i]? = some ⟨data, .fill id⟩ := hcalls₁ ▸ List.getElem?_set_self hlt
  obtain ⟨s₂, hs₂, h₂, hcalls₂, hwrites₂⟩ := h₁.filled hi₁
  rw [hcalls₁, List.set_set] at hcalls₂
  have hi₂ : s₂.calls[i]? = some ⟨data, .submit id⟩ := hcalls₂ ▸ List.getElem?_set_self hlt
  obtain ⟨s₃, hs₃, h₃, hcalls₃, hwrites₃⟩ := h₂.submitted hi₂
  rw [hcalls₂, List.set_set] at hcalls₃
  rw [hwrites₂, hwrites₁] at hwrites₃
  exact ⟨s₁, s₂, s₃, id, hs₁, hs₂, hs₃, hwrites₁, hwrites₂.trans hwrites₁, h₃, hcalls₃, hwrites₃⟩

/-- **A call goes on**, with `uv_write` taking its data: it has a step less before it, and it does not
fail if it had not. -/
theorem Inv.advance (h : Inv s) (fresh : Nat → UInt8) (hi : s.calls[i]? = some c) (hrun : ∀ r, c.pc ≠ .done r) :
    ∃ s' pc, step fresh s (.call i 0) = .ok s' ∧ s'.calls = s.calls.set i ⟨c.data, pc⟩ ∧ pc.left < c.pc.left ∧
      (c.pc.failed = false → pc.failed = false) := by
  obtain ⟨data, pc⟩ := c
  cases pc with
  | fetch =>
    obtain ⟨s', id, hs, -, hcalls, -⟩ := h.fetched hi
    exact ⟨s', .fill id, hs, hcalls, Nat.lt_succ_self 2, fun _ => rfl⟩
  | fill id =>
    obtain ⟨s', hs, -, hcalls, -⟩ := h.filled hi
    exact ⟨s', .submit id, hs, hcalls, Nat.lt_succ_self 1, fun _ => rfl⟩
  | submit id =>
    obtain ⟨s', hs, -, hcalls, -⟩ := h.submitted hi
    exact ⟨s', .done true, hs, hcalls, Nat.zero_lt_one, fun _ => rfl⟩
  | recycle id =>
    obtain ⟨s', hs, -⟩ := h.sendStep fresh hi 0
    cases hs
    exact ⟨_, .done false, by simp only [ServerSend.step, hi, ServerSend.sendStep]; rfl, rfl, Nat.zero_lt_one, nofun⟩
  | done r => exact (hrun r rfl).elim

end Moved

end ServerSend

/-! The list of the writes taken. -/

namespace ServerOut

/-- The calls of `_send`, and what they have in the list. -/
structure Inv (s : ServerOut) : Prop where
  send : s.send.Inv
  nonempty : ∀ c ∈ s.send.calls, c.data = [] → c.pc = .done true
  logged : ∀ i : Nat, s.takenBy i = (s.send.calls[i]?).elim [] ServerSendCall.handed
  targets : s.targets.length = s.send.calls.length
  short : ∀ x ∈ s.broadcasts, x.data.length < 2 ^ 31

/-- **What a run does** to the calls and to the list: calls that have returned stay as they are,
and the list grows at its end. -/
structure Grows (t s : ServerOut) : Prop where
  calls : ∀ (i : Nat) (c : ServerSendCall), t.send.calls[i]? = some c →
    ∃ c', s.send.calls[i]? = some c' ∧ c'.data = c.data ∧ ∀ r, c.pc = .done r → c' = c
  taken : ∃ more, s.taken = t.taken ++ more
  targets : ∃ more, s.targets = t.targets ++ more

/-- **What a step of `_broadcast` does.** -/
inductive Broadcasts (s : ServerOut) (b : Nat) (x : Broadcast) : ServerOut → Prop
  | waits : Broadcasts s b x s
  | locked (hpc : x.pc = .lock) (hfree : s.locked = false) :
      Broadcasts s b x (s.setBroadcast b { x with pc := .loop s.server.sessions x.excludeIds, sessions := s.server.sessions })
  | skipped {sid : Int} {k : Nat} {rest : List (Int × Nat)} {excludeIds : List Int}
      (hpc : x.pc = .loop ((sid, k) :: rest) excludeIds) (hmem : sid ∈ excludeIds) :
      Broadcasts s b x (s.setBroadcast b { x with pc := .loop rest (excludeIds.erase sid) })
  | sends {sid : Int} {k : Nat} {rest : List (Int × Nat)} {excludeIds : List Int} {o : Session}
      (hpc : x.pc = .loop ((sid, k) :: rest) excludeIds) (hmem : sid ∉ excludeIds) (ho : s.server.objs[k]? = some o) :
      Broadcasts s b x ((s.beginSend o.ctx x.data).setBroadcast b { x with
        pc := .sending s.send.calls.length rest excludeIds
        sends := x.sends ++ [(k, s.send.calls.length)] })
  | returned {i : Nat} {rest : List (Int × Nat)} {excludeIds : List Int} {c : ServerSendCall} {r : Bool}
      (hpc : x.pc = .sending i rest excludeIds) (hc : s.send.calls[i]? = some c) (hr : c.pc = .done r) :
      Broadcasts s b x (s.setBroadcast b { x with pc := .loop rest excludeIds })
  | unlocked {excludeIds : List Int} (hpc : x.pc = .loop [] excludeIds) :
      Broadcasts s b x (s.setBroadcast b { x with pc := .done })

section Steps
variable {env : Env} {fresh : Nat → UInt8} {s s' t u : ServerOut} {i b : Nat} {c : ServerSendCall} {x : Broadcast}

theorem takenBy_append {more : List ServerWrite} (h : s'.taken = s.taken ++ more) (i : Nat) :
    s'.takenBy i = s.takenBy i ++ (more.filter fun w => w.call = i).map ServerWrite.bytes := by
  simp only [takenBy, h, List.filter_append, List.map_append]

theorem Grows.of_same (hcalls : s.send.calls = t.send.calls) (htaken : s.taken = t.taken) (htargets : s.targets = t.targets) :
    Grows t s where
  calls i c hc := ⟨c, hcalls ▸ hc, rfl, fun _ _ => rfl⟩
  taken := ⟨[], by simp [htaken]⟩
  targets := ⟨[], by simp [htargets]⟩

theorem Grows.trans (h : Grows t s) (h' : Grows s u) : Grows t u where
  calls i c hc := by
    obtain ⟨c₁, hc₁, hdata₁, hsame₁⟩ := h.calls i c hc
    obtain ⟨c₂, hc₂, hdata₂, hsame₂⟩ := h'.calls i c₁ hc₁
    refine ⟨c₂, hc₂, hdata₂.trans hdata₁, fun r hr => ?_⟩
    obtain rfl := hsame₁ r hr
    exact hsame₂ r hr
  taken := by
    obtain ⟨more, hmore⟩ := h.taken
    obtain ⟨more', hmore'⟩ := h'.taken
    exact ⟨more ++ more', by rw [hmore', hmore, List.append_assoc]⟩
  targets := by
    obtain ⟨more, hmore⟩ := h.targets
    obtain ⟨more', hmore'⟩ := h'.targets
    exact ⟨more ++ more', by rw [hmore', hmore, List.append_assoc]⟩

theorem Inv.of_same (h : Inv s) (hsend : s'.send = s.send) (htaken : s'.taken = s.taken) (htargets : s'.targets = s.targets)
    (hshort : ∀ x ∈ s'.broadcasts, x.data.length < 2 ^ 31) : Inv s' where
  send := hsend ▸ h.send
  nonempty := hsend ▸ h.nonempty
  logged i := by
    rw [takenBy, htaken, hsend]
    exact h.logged i
  targets := by rw [htargets, hsend, h.targets]
  short := hshort

theorem enter_handed (data : List UInt8) : (ServerSendCall.enter data).handed = [] := by
  unfold ServerSendCall.enter ServerSendCall.handed
  cases data <;> simp

/-- **A call of `_send`** begins. -/
theorem Inv.beginSend (h : Inv s) (ctx : Nat) {data : List UInt8} (hlen : data.length < 2 ^ 31) : Inv (s.beginSend ctx data) where
  send := h.send.enter hlen
  nonempty c hc hdata := by
    rcases List.mem_append.1 hc with hc | hc
    · exact h.nonempty c hc hdata
    · rw [List.mem_singleton.1 hc] at hdata ⊢
      have hnil : data = [] := hdata
      simp [ServerSendCall.enter, hnil]
  logged i := by
    show s.takenBy i = ((s.send.calls ++ [.enter data])[i]?).elim [] ServerSendCall.handed
    rw [h.logged i]
    rcases Nat.lt_trichotomy i s.send.calls.length with hlt | rfl | hgt
    · rw [List.getElem?_append_left hlt]
    · simp [enter_handed]
    · rw [List.getElem?_eq_none (Nat.le_of_lt hgt), List.getElem?_eq_none (by simp; omega)]
  targets := by simp [ServerOut.beginSend, h.targets]
  short := h.short

theorem beginSend_grows (s : ServerOut) (ctx : Nat) (data : List UInt8) : Grows s (s.beginSend ctx data) where
  calls i c hc := by
    refine ⟨c, ?_, rfl, fun _ _ => rfl⟩
    exact (List.getElem?_append_left (List.getElem?_eq_some_iff.1 hc).1).trans hc
  taken := ⟨[], by simp [ServerOut.beginSend]⟩
  targets := ⟨[ctx], rfl⟩

/-- A call that moves on, where the list has what it has to have of it. -/
theorem Inv.set (h : Inv s) (hi : s.send.calls[i]? = some c) {send : ServerSend} {taken : List ServerWrite} {c' : ServerSendCall}
    (hsend : send.Inv) (hcalls : send.calls = s.send.calls.set i c') (hdone : c'.data = [] → c'.pc = .done true)
    (hself : ServerOut.takenBy { s with send := send, taken := taken } i = c'.handed)
    (hother : ∀ j, j ≠ i → ServerOut.takenBy { s with send := send, taken := taken } j = s.takenBy j) :
    Inv { s with send := send, taken := taken } where
  send := hsend
  nonempty d hd hdata := by
    have hd' : d ∈ s.send.calls.set i c' := hcalls ▸ hd
    rcases List.mem_or_eq_of_mem_set hd' with hd | rfl
    · exact h.nonempty d hd hdata
    · exact hdone hdata
  logged j := by
    show _ = (send.calls[j]?).elim [] ServerSendCall.handed
    rw [hcalls]
    by_cases hj : j = i
    · subst hj
      rw [hself, List.getElem?_set_self (List.getElem?_eq_some_iff.1 hi).1]
      rfl
    · rw [hother j hj, List.getElem?_set_ne (Ne.symm hj)]
      exact h.logged j
  targets := by
    show s.targets.length = send.calls.length
    rw [hcalls, List.length_set, h.targets]
  short := h.short

theorem set_grows (hi : s.send.calls[i]? = some c) {send : ServerSend} {more : List ServerWrite} {c' : ServerSendCall}
    (hcalls : send.calls = s.send.calls.set i c') (hdata : c'.data = c.data) (hrun : ∀ r, c.pc ≠ .done r) :
    Grows s { s with send := send, taken := s.taken ++ more } where
  calls j d hd := by
    show ∃ d', send.calls[j]? = some d' ∧ _
    rw [hcalls]
    by_cases hj : j = i
    · subst hj
      obtain rfl := Option.some.inj (hi.symm.trans hd)
      refine ⟨c', List.getElem?_set_self (List.getElem?_eq_some_iff.1 hi).1, hdata, fun r hr => ?_⟩
      exact (hrun r hr).elim
    · exact ⟨d, (List.getElem?_set_ne (Ne.symm hj)).trans hd, rfl, fun _ _ => rfl⟩
  taken := ⟨more, rfl⟩
  targets := ⟨[], by simp⟩

/-- **A call of `_send`** takes a step. -/
theorem Inv.call (h : Inv s) (hi : s.send.calls[i]? = some c) {iret : Int} {send : ServerSend}
    (hs : s.send.sendStep fresh i c iret = .ok send) :
    Inv { s with send := send, taken := s.taken ++ send.writes.drop s.send.writes.length } ∧
      Grows s { s with send := send, taken := s.taken ++ send.writes.drop s.send.writes.length } := by
  have hmem := List.mem_of_getElem? hi
  obtain ⟨send', hs', hsend⟩ := h.send.sendStep fresh hi iret
  obtain rfl : send = send' := Except.ok.inj (hs.symm.trans hs')
  have hold : s.takenBy i = c.handed := by
    rw [h.logged i, hi]
    rfl
  cases h.send.moved hi hs with
  | @on _ pc hrun hpc hcalls hwrites =>
    have hdrop : send.writes.drop s.send.writes.length = [] := by rw [hwrites, List.drop_length]
    -- The call had data, for it was running.
    have hne : c.data ≠ [] := fun hnil => hrun true (h.nonempty c hmem hnil)
    have hsame : ∀ j, ServerOut.takenBy { s with send := send, taken := s.taken ++ send.writes.drop s.send.writes.length } j = s.takenBy j := by
      intro j
      rw [takenBy, hdrop, List.append_nil]
      rfl
    refine ⟨h.set hi hsend hcalls (fun hnil => (hne hnil).elim) ?_ fun j _ => hsame j, set_grows hi hcalls rfl hrun⟩
    rw [hsame i, hold]
    simp [ServerSendCall.handed, hpc, hrun]
  | @taken _ id hpc hcalls hwrites =>
    have hdrop : send.writes.drop s.send.writes.length = [⟨id, c.data, i⟩] := by rw [hwrites, List.drop_left]
    have hrun : ∀ r, c.pc ≠ .done r := by simp [hpc]
    have hne : c.data ≠ [] := fun hnil => hrun true (h.nonempty c hmem hnil)
    refine ⟨h.set hi hsend hcalls (fun _ => rfl) ?_ ?_, set_grows hi hcalls rfl hrun⟩
    · rw [takenBy_append (s := s) rfl, hold, hdrop]
      simp [ServerSendCall.handed, hpc, hne]
    · intro j hj
      rw [takenBy_append (s := s) rfl, hdrop]
      simp [Ne.symm hj]
  | returned hpc => exact ⟨h.of_same rfl (by simp) rfl h.short, .of_same rfl (by simp) rfl⟩

theorem obj_eq_ok {server : TCPServer} {k : Nat} {o : Session} (h : server.obj k = .ok o) : server.objs[k]? = some o := by
  unfold TCPServer.obj at h
  split at h
  · next ho =>
    cases h
    exact ho
  · cases h

theorem broadcastStep_cases (hs : s.broadcastStep b x = .ok s') : Broadcasts s b x s' := by
  unfold ServerOut.broadcastStep at hs
  split at hs
  · next hpc =>
    split at hs
    · cases hs
      exact .waits
    · next hfree =>
      cases hs
      exact .locked hpc (by simpa using hfree)
  · next hpc =>
    cases hs
    exact .unlocked hpc
  · next hpc =>
    split at hs
    · next hmem =>
      cases hs
      exact .skipped hpc hmem
    · next hmem =>
      obtain ⟨o, ho, hs⟩ := bind_eq_ok.1 hs
      split at hs
      · cases hs
      · cases hs
        exact .sends hpc hmem (obj_eq_ok ho)
  · next hpc =>
    split at hs
    · next hc =>
      cases hs
      exact .returned hpc hc rfl
    · cases hs
      exact .waits
  · cases hs
    exact .waits

theorem short_set (h : Inv s) (hb : s.broadcasts[b]? = some x) {x' : Broadcast} (hdata : x'.data = x.data) :
    ∀ y ∈ s.broadcasts.set b x', y.data.length < 2 ^ 31 := by
  intro y hy
  rcases List.mem_or_eq_of_mem_set hy with hy | rfl
  · exact h.short y hy
  · rw [hdata]
    exact h.short x (List.mem_of_getElem? hb)

/-- **A step of `_broadcast`** begins a call of `_send`, or leaves the calls alone. -/
theorem Inv.broadcasts (h : Inv s) (hb : s.broadcasts[b]? = some x) (hs : Broadcasts s b x s') : Inv s' ∧ Grows s s' := by
  have hshort := h.short x (List.mem_of_getElem? hb)
  cases hs with
  | waits => exact ⟨h, .of_same rfl rfl rfl⟩
  | locked hpc hfree => exact ⟨h.of_same rfl rfl rfl (short_set h hb rfl), .of_same rfl rfl rfl⟩
  | skipped hpc hmem => exact ⟨h.of_same rfl rfl rfl (short_set h hb rfl), .of_same rfl rfl rfl⟩
  | @sends sid k rest excludeIds o hpc hmem ho =>
    refine ⟨(h.beginSend o.ctx hshort).of_same rfl rfl rfl ?_, (beginSend_grows s o.ctx x.data).trans (.of_same rfl rfl rfl)⟩
    exact short_set h hb rfl
  | returned hpc hc hr => exact ⟨h.of_same rfl rfl rfl (short_set h hb rfl), .of_same rfl rfl rfl⟩
  | unlocked hpc => exact ⟨h.of_same rfl rfl rfl (short_set h hb rfl), .of_same rfl rfl rfl⟩

/-- **Every step** keeps the list as it has to be. -/
theorem Inv.step (h : Inv s) {e : OutEvent} (he : e.Valid) (hs : step env fresh s e = .ok s') : Inv s' ∧ Grows s s' := by
  cases e with
  | server e =>
    simp only [ServerOut.step] at hs
    split at hs
    · cases hs
      exact ⟨h, .of_same rfl rfl rfl⟩
    · obtain ⟨server, -, hs⟩ := bind_eq_ok.1 hs
      cases hs
      exact ⟨h.of_same rfl rfl rfl h.short, .of_same rfl rfl rfl⟩
  | send ctx data =>
    cases hs
    exact ⟨h.beginSend ctx he, beginSend_grows s ctx data⟩
  | call i iret =>
    obtain ⟨send, hsend, hs⟩ := bind_eq_ok.1 hs
    cases hs
    simp only [ServerSend.step] at hsend
    cases hi : s.send.calls[i]? with
    | none =>
      rw [hi] at hsend
      cases hsend
      exact ⟨h.of_same rfl (by simp) rfl h.short, .of_same rfl (by simp) rfl⟩
    | some c =>
      rw [hi] at hsend
      exact h.call hi hsend
  | onSend k =>
    obtain ⟨send, hsend, hs⟩ := bind_eq_ok.1 hs
    cases hs
    obtain ⟨send', hsend', h'⟩ := ServerSend.step_inv fresh h.send (show (ServerSendEvent.onSend k).Valid from trivial)
    obtain rfl : send = send' := Except.ok.inj (hsend.symm.trans hsend')
    have hcalls : send.calls = s.send.calls := by
      simp only [ServerSend.step] at hsend
      split at hsend
      · cases hsend
        rfl
      · cases hsend
        rfl
    refine ⟨⟨h', hcalls ▸ h.nonempty, ?_, hcalls ▸ h.targets, h.short⟩, .of_same hcalls rfl rfl⟩
    intro i
    show s.takenBy i = (send.calls[i]?).elim [] ServerSendCall.handed
    rw [hcalls]
    exact h.logged i
  | broadcast data excludeIds =>
    cases hs
    refine ⟨h.of_same rfl rfl rfl fun x hx => ?_, .of_same rfl rfl rfl⟩
    rcases List.mem_append.1 hx with hx | hx
    · exact h.short x hx
    · rw [List.mem_singleton.1 hx]
      exact he
  | broadcastStep b =>
    simp only [ServerOut.step] at hs
    cases hb : s.broadcasts[b]? with
    | none =>
      rw [hb] at hs
      cases hs
      exact ⟨h, .of_same rfl rfl rfl⟩
    | some x =>
      rw [hb] at hs
      exact h.broadcasts hb (broadcastStep_cases hs)

theorem start_inv (packHead packTail : UInt8) : Inv (start packHead packTail) where
  send := ServerSend.start_inv
  nonempty := by simp [start, ServerSend.start]
  logged := by simp [start, ServerSend.start, takenBy]
  targets := rfl
  short := by simp [start]

theorem run_inv (h : Inv t) {es : List OutEvent} (hes : ∀ e ∈ es, e.Valid) (hrun : run (step env fresh) t es = .ok s) :
    Inv s ∧ Grows t s := by
  have hstep : ∀ s e s', Inv s ∧ Grows t s → e.Valid → step env fresh s e = .ok s' → Inv s' ∧ Grows t s' := by
    rintro s e s' ⟨hinv, hgrows⟩ he hs
    obtain ⟨hinv', hgrows'⟩ := hinv.step he hs
    exact ⟨hinv', hgrows.trans hgrows'⟩
  have hstart : Inv t ∧ Grows t t := ⟨h, .of_same rfl rfl rfl⟩
  have hend := run_keeps hstep hstart (Along.of_forall (fun e he _ => hes e he) _) hrun
  exact hend

theorem Grows.not_returned (h : Grows t s) (ht : Inv t) (hs : Inv s) {more : List ServerWrite} (hmore : s.taken = t.taken ++ more)
    {w : ServerWrite} (hw : w ∈ more) (hc : t.send.calls[w.call]? = some c) (r : Bool) : c.pc ≠ .done r := by
  intro hr
  obtain ⟨c', hc', -, hsame⟩ := h.calls w.call c hc
  obtain rfl := hsame r hr
  have hboth : s.takenBy w.call = t.takenBy w.call := by rw [hs.logged, ht.logged, hc, hc']
  rw [takenBy_append hmore, List.append_right_eq_self, List.map_eq_nil_iff, List.filter_eq_nil_iff] at hboth
  simpa using hboth w hw

theorem Inv.taken_data (h : Inv s) {w : ServerWrite} (hw : w ∈ s.taken) : ∃ c, s.send.calls[w.call]? = some c ∧ w.bytes = c.data := by
  -- The list has something of this call, so it is a call, and this is its data.
  have hmem : w.bytes ∈ s.takenBy w.call := List.mem_map_of_mem (List.mem_filter.2 ⟨hw, by simp⟩)
  rw [h.logged] at hmem
  cases hc : s.send.calls[w.call]? with
  | none => simp [hc] at hmem
  | some c =>
    refine ⟨c, rfl, ?_⟩
    rw [hc, Option.elim_some, ServerSendCall.handed] at hmem
    split at hmem
    · exact List.mem_singleton.1 hmem
    · cases hmem

/-- **A call of `_send`** that nobody interrupts, and whose write is taken. -/
theorem Inv.sendThrough (h : Inv s) (env : Env) (fresh : Nat → UInt8) {data : List UInt8} (hi : s.send.calls[i]? = some ⟨data, .fetch⟩) :
    ∃ send id, run (ServerOut.step env fresh) s [.call i 0, .call i 0, .call i 0] =
        .ok { s with send := send, taken := s.taken ++ [⟨id, data, i⟩] } ∧
      send.Inv ∧ send.calls = s.send.calls.set i ⟨data, .done true⟩ ∧ send.writes = s.send.writes ++ [⟨id, data, i⟩] := by
  obtain ⟨s₁, s₂, s₃, id, hs₁, hs₂, hs₃, hw₁, hw₂, h₃, hcalls, hwrites⟩ := h.send.sendThrough fresh hi
  have hfirst : ServerOut.step env fresh s (.call i 0) = .ok { s with send := s₁ } := by
    simp only [ServerOut.step, hs₁, ok_bind, pure_ok, hw₁, List.drop_length, List.append_nil]
  have hsecond : ServerOut.step env fresh { s with send := s₁ } (.call i 0) = .ok { s with send := s₂ } := by
    simp only [ServerOut.step, hs₂, ok_bind, pure_ok, hw₁, hw₂, List.drop_length, List.append_nil]
  have hthird : ServerOut.step env fresh { s with send := s₂ } (.call i 0) =
      .ok { s with send := s₃, taken := s.taken ++ [⟨id, data, i⟩] } := by
    simp only [ServerOut.step, hs₃, ok_bind, pure_ok, hw₂, hwrites, List.drop_left]
  refine ⟨s₃, id, ?_, h₃, hcalls, hwrites⟩
  rw [run_cons hfirst, run_cons hsecond, run_cons hthird]
  rfl

theorem Inv.send_total (h : Inv s) (env : Env) (fresh : Nat → UInt8) {e : OutEvent} (he : e.ofSend = true) :
    ∃ s', ServerOut.step env fresh s e = .ok s' := by
  cases e with
  | send ctx data => exact ⟨_, rfl⟩
  | call i iret =>
    obtain ⟨send, hs, -⟩ := ServerSend.step_inv fresh h.send (show (ServerSendEvent.call i iret).Valid from trivial)
    refine ⟨{ s with send := send, taken := s.taken ++ send.writes.drop s.send.writes.length }, ?_⟩
    simp only [ServerOut.step, hs, ok_bind, pure_ok]
  | onSend k =>
    obtain ⟨send, hs, -⟩ := ServerSend.step_inv fresh h.send (show (ServerSendEvent.onSend k).Valid from trivial)
    refine ⟨{ s with send := send }, ?_⟩
    simp only [ServerOut.step, hs, ok_bind, pure_ok]
  | server e => cases he
  | broadcast data excludeIds => cases he
  | broadcastStep b => cases he

theorem sends_total (h : Inv t) (env : Env) (fresh : Nat → UInt8) {es : List OutEvent}
    (hes : ∀ e ∈ es, e.Valid ∧ e.ofSend = true) : ∃ s, run (step env fresh) t es = .ok s := by
  have hstep : ∀ s e, Inv s → e.Valid ∧ e.ofSend = true → ∃ s', step env fresh s e = .ok s' ∧ Inv s' := by
    rintro s e hinv ⟨hvalid, he⟩
    obtain ⟨s', hs⟩ := hinv.send_total env fresh he
    exact ⟨s', hs, (hinv.step hvalid hs).1⟩
  obtain ⟨s, hrun, -⟩ := run_total hstep h (Along.of_forall (fun e he _ => hes e he) _)
  exact ⟨s, hrun⟩

end Steps

end ServerOut

/-! **Exactly once**: whatever the threads and the loop thread do and in whatever order, `uv_write` has
taken the data of every call of `_send` that returned true once, and from the other calls
nothing; and what it takes later, it takes from calls that have not returned, and behind what
it took before. -/

theorem sends_taken_once (env : Env) (fresh : Nat → UInt8) (packHead packTail : UInt8) (es fs : List OutEvent)
    (hes : ∀ e ∈ es ++ fs, e.Valid) (t s : ServerOut)
    (hrun : run (ServerOut.step env fresh) (ServerOut.start packHead packTail) es = .ok t)
    (hrun' : run (ServerOut.step env fresh) t fs = .ok s) :
    (∀ (i : Nat) (c : ServerSendCall), s.send.calls[i]? = some c → s.takenBy i = if c.pc = .done true ∧ c.data ≠ [] then [c.data] else []) ∧
    (∀ w ∈ s.taken, ∃ c ctx, s.send.calls[w.call]? = some c ∧ s.targets[w.call]? = some ctx ∧ w.bytes = c.data) ∧
    (∀ (i : Nat) (c : ServerSendCall) (r : Bool), t.send.calls[i]? = some c → c.pc = .done r → s.send.calls[i]? = some c) ∧
    ∃ later, s.taken = t.taken ++ later ∧ ∀ w ∈ later, ∀ (c : ServerSendCall) (r : Bool), t.send.calls[w.call]? = some c → c.pc ≠ .done r := by
  obtain ⟨ht, -⟩ := ServerOut.run_inv (ServerOut.start_inv packHead packTail) (fun e he => hes e (List.mem_append_left _ he)) hrun
  obtain ⟨hs, hgrows⟩ := ServerOut.run_inv ht (fun e he => hes e (List.mem_append_right _ he)) hrun'
  refine ⟨fun i c hc => ?_, fun w hw => ?_, fun i c r hc hr => ?_, ?_⟩
  · rw [hs.logged i, hc]
    rfl
  · obtain ⟨c, hc, hbytes⟩ := hs.taken_data hw
    have hlt : w.call < s.targets.length := hs.targets ▸ (List.getElem?_eq_some_iff.1 hc).1
    exact ⟨c, s.targets[w.call], hc, List.getElem?_eq_getElem hlt, hbytes⟩
  · obtain ⟨c', hc', -, hsame⟩ := hgrows.calls i c hc
    rw [hc', hsame r hr]
  · obtain ⟨later, hlater⟩ := hgrows.taken
    exact ⟨later, hlater, fun w hw c r hc => hgrows.not_returned ht hs hlater hw hc r⟩

/-- Two threads send, and the write of the second is taken first; then one sends again, in vain. -/
def threadsSend : List OutEvent := [.send 0 [1, 2], .send 1 [3], .call 0 0, .call 1 0, .call 1 0, .call 1 0]

def threadsGoOn : List OutEvent := [.call 0 0, .call 0 0, .onSend 0, .send 1 [4], .call 2 0, .call 2 0, .call 2 (-1), .call 2 0]

theorem sends_taken_once_threads :
    ∃ t s, run (ServerOut.step zeroEnv fun _ => 0) (ServerOut.start 1 2) threadsSend = .ok t ∧
      run (ServerOut.step zeroEnv fun _ => 0) t threadsGoOn = .ok s ∧
      (∀ (i : Nat) (c : ServerSendCall), s.send.calls[i]? = some c → s.takenBy i = if c.pc = .done true ∧ c.data ≠ [] then [c.data] else []) ∧
      (∀ w ∈ s.taken, ∃ c ctx, s.send.calls[w.call]? = some c ∧ s.targets[w.call]? = some ctx ∧ w.bytes = c.data) ∧
      (∀ (i : Nat) (c : ServerSendCall) (r : Bool), t.send.calls[i]? = some c → c.pc = .done r → s.send.calls[i]? = some c) ∧
      ∃ later, s.taken = t.taken ++ later ∧ ∀ w ∈ later, ∀ (c : ServerSendCall) (r : Bool), t.send.calls[w.call]? = some c → c.pc ≠ .done r := by
  have hes : ∀ e ∈ threadsSend, e.Valid ∧ e.ofSend = true := by simp [threadsSend, OutEvent.Valid, OutEvent.ofSend]
  have hfs : ∀ e ∈ threadsGoOn, e.Valid ∧ e.ofSend = true := by simp [threadsGoOn, OutEvent.Valid, OutEvent.ofSend]
  obtain ⟨t, hrun⟩ := ServerOut.sends_total (ServerOut.start_inv 1 2) zeroEnv (fun _ => 0) hes
  obtain ⟨ht, -⟩ := ServerOut.run_inv (ServerOut.start_inv 1 2) (fun e he => (hes e he).1) hrun
  obtain ⟨s, hrun'⟩ := ServerOut.sends_total ht zeroEnv (fun _ => 0) hfs
  refine ⟨t, s, hrun, hrun', sends_taken_once zeroEnv (fun _ => 0) 1 2 threadsSend threadsGoOn ?_ t s hrun hrun'⟩
  intro e he
  exact (List.mem_append.1 he).elim (fun he => (hes e he).1) fun he => (hfs e he).1

end Uvnet

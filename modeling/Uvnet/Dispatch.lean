import Uvnet.CProto
import Uvnet.FrameScan
import Uvnet.RecvState

/- `GetPacket`: from a delivered frame to the protocol handler.

   `GetPacket` of the server and of the client find an id and some bytes in the payload, in
   one of two encodings (`locate`), and call the handler registered for the id (`dispatch`).
   The result of parsing a message is not looked at. The message is a local of the block that
   parses it, so that its body is gone when the handler runs (`Memory.read`).

   `dispatch_exact_iff`: a message is handled exactly where no handler is called, or where it
   is complete and has no body. -/
namespace Uvnet
open CMachine

/-! The registered protocols. -/

/-- `_protocols`, with the handlers `π` that are not `NULL`. -/
structure Protocols (π : Type) where
  find : Int → Option π
  positive : ∀ {id handler}, find id = some handler → 0 < id

namespace Protocols
variable {π : Type}

def empty : Protocols π := ⟨fun _ => none, nofun⟩

/-- `AddProtocol`. An id that is taken keeps its handler, as `std::map::insert` has it. -/
def addProtocol (ps : Protocols π) (protoId : Int) (proto : Option π) : Protocols π where
  find id := if 0 < protoId ∧ id = protoId then (ps.find id).or proto else ps.find id
  positive := by
    intro id handler h
    split at h
    · next hid => exact hid.2 ▸ hid.1
    · exact ps.positive h

/-- `RemoveProtocol`. -/
def removeProtocol (ps : Protocols π) (protocolId : Int) : Protocols π where
  find id := if 0 < protocolId ∧ id = protocolId then none else ps.find id
  positive := by
    intro id handler h
    split at h
    · cases h
    · exact ps.positive h

/-- `GetProtocol`. -/
def getProtocol (ps : Protocols π) (protoId : Int) : Option π :=
  if protoId ≤ 0 then none else ps.find protoId

theorem getProtocol_eq (ps : Protocols π) (protoId : Int) : ps.getProtocol protoId = ps.find protoId := by
  unfold getProtocol
  split
  · next hid =>
    cases hfind : ps.find protoId with
    | none => rfl
    | some handler =>
      have := ps.positive hfind
      omega
  · rfl

theorem getProtocol_addProtocol (ps : Protocols π) {protoId : Int} (h0 : 0 < protoId)
    (hfree : ps.getProtocol protoId = none) (handler : π) :
    (ps.addProtocol protoId (some handler)).getProtocol protoId = some handler := by
  rw [getProtocol_eq] at hfree
  rw [getProtocol_eq]
  show (if 0 < protoId ∧ protoId = protoId then (ps.find protoId).or (some handler) else ps.find protoId) = _
  rw [if_pos ⟨h0, rfl⟩, hfree, Option.none_or]

theorem getProtocol_removeProtocol (ps : Protocols π) {protocolId : Int} (h0 : 0 < protocolId) :
    (ps.removeProtocol protocolId).getProtocol protocolId = none := by
  rw [getProtocol_eq]
  exact if_pos ⟨h0, rfl⟩

end Protocols

/-! The memory a handler reads. -/

/-- A `const char*` of `GetPacket`. -/
inductive Pointer where
  | null
  | packetdata (off : Nat)
  /-- The empty string that all messages without a body share. -/
  | emptyString
  | string (address : Nat)
  deriving DecidableEq

/-- The packet buffer, and the strings on the heap, `none` where one is deleted. -/
structure Memory where
  packetdata : List UInt8
  strings : List (Option (List UInt8))

namespace Memory

/-- Where the body of a message is: it has a string of its own when the field is set. -/
def placeBody (mem : Memory) (m : CProto) : Memory × Pointer :=
  match m.body_ with
  | some body => ({ mem with strings := mem.strings ++ [some body] }, .string mem.strings.length)
  | none => (mem, .emptyString)

/-- `SharedDtor`: the string is deleted, but for the shared one. -/
def sharedDtor (mem : Memory) : Pointer → Memory
  | .string address => { mem with strings := mem.strings.set address none }
  | _ => mem

/-- Reading `n` bytes through a pointer. -/
def read (mem : Memory) (p : Pointer) (n : Int) : C (List UInt8) :=
  if n = 0 then .ok []
  else match p with
    | .null => .error .wildPointer
    | .packetdata off => memRead mem.packetdata off (toSize n)
    | .emptyString => .error .outOfBounds
    | .string address =>
      match mem.strings[address]? with
      | some (some body) => memRead body 0 (toSize n)
      | _ => .error .wildPointer

end Memory

/-! The function. -/

/-- One call of `Protocol::Process`, with the id it was found under and the memory as it is then. -/
structure ProcessCall (π : Type) where
  protoId : BitVec 32
  handler : π
  protoData : Pointer
  dataSize : Int
  memory : Memory

/-- The bytes the handler reads. -/
def ProcessCall.read {π : Type} (c : ProcessCall π) : C (List UInt8) := c.memory.read c.protoData c.dataSize

/-- The locals `proto_id`, `proto_data` and `data_size`. -/
structure Located where
  protoId : BitVec 32
  protoData : Pointer
  dataSize : Int
  memory : Memory

section GetPacket
variable {σ π : Type} (rt : Runtime σ) (e : Endian) (protocols : Protocols π)

/-- The block for type 1. The message it parses is destroyed at its end. -/
def locateProto (mem : Memory) (datalen : Int) : C Located := do
  let bytes ← memRead mem.packetdata 0 (toSize datalen)
  let proto := (parseFromArray rt bytes).2
  let (mem, body) := mem.placeBody proto
  return ⟨proto.id, body, toInt proto.body.length, mem.sharedDtor body⟩

/-- The block for type 2. -/
def locateManual (mem : Memory) (datalen : Int) : C Located := do
  let chars ← memRead mem.packetdata 0 4
  let size ← cint (datalen - 4)
  return ⟨charToInt32 e chars, .packetdata 4, size, mem⟩

def locate (p : FullPacket) : C Located :=
  if p.packethead.type = 1 then locateProto rt ⟨p.packetdata, []⟩ p.packethead.len
  else if p.packethead.type = 2 then locateManual e ⟨p.packetdata, []⟩ p.packethead.len
  else return ⟨0, .null, 0, ⟨p.packetdata, []⟩⟩

/-- What the two `GetPacket` share. `proto_id` is unsigned there, and an `int` for `GetProtocol`. -/
def dispatch (p : FullPacket) : C (List (ProcessCall π)) := do
  let l ← locate rt e p
  if 0 < l.protoId.toNat then
    match protocols.getProtocol l.protoId.toInt with
    | some handler => return [⟨l.protoId, handler, l.protoData, l.dataSize, l.memory⟩]
    | none => return []
  else return []

/-- A call of user code: the client's `recv_cb`, or a handler. -/
inductive UserCall (π : Type) where
  | recv (p : FullPacket)
  | process (c : ProcessCall π)

/-- `GetPacket` of the server. -/
def getPacket (p : FullPacket) : C (List (UserCall π)) := do
  let calls ← dispatch rt e protocols p
  return calls.map .process

/-- `TCPClient::GetPacket`. `recvCb` says whether a callback is set, and `protocols` are those
registered when it returns. -/
def TCPClient.getPacket (recvCb : Bool) (p : FullPacket) : C (List (UserCall π)) := do
  let calls ← dispatch rt e protocols p
  return (if recvCb then [.recv p] else []) ++ calls.map .process

def UserCall.process? : UserCall π → Option (ProcessCall π)
  | .recv _ => none
  | .process c => some c

/-- The calls of handlers. -/
def processCalls (r : C (List (UserCall π))) : C (List (ProcessCall π)) := do
  let calls ← r
  return calls.filterMap UserCall.process?

variable {rt e protocols} {p : FullPacket}

theorem filterMap_process (calls : List (ProcessCall π)) :
    (calls.map UserCall.process).filterMap UserCall.process? = calls := by
  induction calls with
  | nil => rfl
  | cons c rest ih => exact congrArg (c :: ·) ih

theorem processCalls_getPacket : processCalls (getPacket rt e protocols p) = dispatch rt e protocols p := by
  unfold getPacket
  cases dispatch rt e protocols p with
  | error x => rfl
  | ok calls => exact congrArg Except.ok (filterMap_process calls)

theorem processCalls_client (recvCb : Bool) :
    processCalls (TCPClient.getPacket rt e protocols recvCb p) = dispatch rt e protocols p := by
  unfold TCPClient.getPacket
  cases dispatch rt e protocols p with
  | error x => rfl
  | ok calls =>
    cases recvCb with
    | false => exact congrArg Except.ok (filterMap_process calls)
    | true => exact congrArg Except.ok (filterMap_process calls)

theorem dispatch_eq (protocols : Protocols π) {l : Located} (h : locate rt e p = .ok l) :
    dispatch rt e protocols p = .ok ((protocols.getProtocol l.protoId.toInt).map fun handler =>
      ⟨l.protoId, handler, l.protoData, l.dataSize, l.memory⟩).toList := by
  rw [dispatch, h, ok_bind]
  split
  · split
    · next heq => rw [heq]; rfl
    · next heq => rw [heq]; rfl
  · next hzero =>
    -- an id of 0 is not looked up, and would not be found
    have hid : l.protoId.toInt = 0 := by
      have hnat : l.protoId = 0 := BitVec.eq_of_toNat_eq (by simpa using hzero)
      rw [hnat]
      rfl
    rw [hid]
    rfl

end GetPacket

/-! Frames of type 1. -/

/-- A frame of type `type` with the payload `payload`, as `packet_cb_` gets it. -/
structure FullPacket.Carries (p : FullPacket) (type : BitVec 32) (payload : List UInt8) : Prop where
  type_eq : p.packethead.type = type
  len_eq : p.packethead.len = payload.length
  data : payload <+: p.packetdata

section Proto
variable {σ π : Type} {rt : Runtime σ} {e : Endian} {protocols : Protocols π} {p : FullPacket}
  {payload body : List UInt8} {type : BitVec 32}

theorem FullPacket.Carries.length_le (hp : p.Carries type payload) : payload.length ≤ intMax := by
  have hle := NetPacket.len_le p.packethead
  rw [hp.len_eq] at hle
  exact Int.ofNat_le.1 hle

theorem FullPacket.Carries.read (hp : p.Carries type payload) :
    memRead p.packetdata 0 (toSize p.packethead.len) = .ok payload := by
  obtain ⟨J, hJ⟩ := hp.data
  have hlt : intMax < 2 ^ 64 := by decide
  rw [hp.len_eq, toSize_natCast (Nat.lt_of_le_of_lt hp.length_le hlt)]
  exact memRead_mid (A := []) hJ.symm rfl rfl

/-- Where the handler finds the body of a message, and what is left of it by then. -/
def bodyGone (m : CProto) (packetdata : List UInt8) : Pointer × Memory :=
  match m.body_ with
  | some _ => (.string 0, ⟨packetdata, [none]⟩)
  | none => (.emptyString, ⟨packetdata, []⟩)

theorem locate_proto (rt : Runtime σ) (e : Endian) (hp : p.Carries 1 payload) :
    locate rt e p = .ok ⟨(parseFromArray rt payload).2.id, (bodyGone (parseFromArray rt payload).2 p.packetdata).1,
      (parseFromArray rt payload).2.body.length, (bodyGone (parseFromArray rt payload).2 p.packetdata).2⟩ := by
  have hsize := toInt_eq (Nat.le_trans (parse_body_le rt payload) hp.length_le)
  rw [locate, if_pos hp.type_eq, locateProto, hp.read, ok_bind]
  cases hbody : (parseFromArray rt payload).2.body_ with
  | none => simp [Memory.placeBody, Memory.sharedDtor, bodyGone, hbody, hsize]
  | some body => simp [Memory.placeBody, Memory.sharedDtor, bodyGone, hbody, hsize]

theorem read_bodyGone (m : CProto) (packetdata : List UInt8) :
    (bodyGone m packetdata).2.read (bodyGone m packetdata).1 m.body.length =
      if m.body = [] then .ok [] else .error .wildPointer := by
  cases hbody : m.body_ with
  | none =>
    have hnil : m.body = [] := by simp [CProto.body, hbody]
    rw [hnil, if_pos rfl]
    rfl
  | some body =>
    have heq : m.body = body := by simp [CProto.body, hbody]
    rw [heq]
    cases body with
    | nil => rfl
    | cons byte rest =>
      have hne : ((byte :: rest).length : Int) ≠ 0 := by simp only [List.length_cons]; omega
      simp only [Memory.read, bodyGone, hbody, if_neg hne]
      rfl

/-- What a call tells of itself: the handler, and the bytes that it reads. -/
def ProcessCall.told (c : ProcessCall π) : π × C (List UInt8) := (c.handler, c.read)

/-- The call that a message should make. -/
def intendedCalls (rt : Runtime σ) (protocols : Protocols π) (payload : List UInt8) : List (π × C (List UInt8)) :=
  match parseFromArray rt payload with
  | (true, m) => ((protocols.getProtocol m.id.toInt).map fun handler => (handler, .ok m.body)).toList
  | (false, _) => []

/-- Dispatch of a message is exact. -/
def ExactDispatch (rt : Runtime σ) (protocols : Protocols π) (payload : List UInt8) (r : C (List (UserCall π))) : Prop :=
  ∃ calls, processCalls r = .ok calls ∧ calls.map ProcessCall.told = intendedCalls rt protocols payload

theorem dispatch_proto (rt : Runtime σ) (e : Endian) (protocols : Protocols π) (hp : p.Carries 1 payload) :
    ∃ calls, dispatch rt e protocols p = .ok calls ∧ calls.map ProcessCall.told =
      ((protocols.getProtocol (parseFromArray rt payload).2.id.toInt).map fun handler =>
        (handler, if (parseFromArray rt payload).2.body = [] then .ok [] else .error .wildPointer)).toList := by
  refine ⟨_, dispatch_eq protocols (locate_proto rt e hp), ?_⟩
  cases protocols.getProtocol (parseFromArray rt payload).2.id.toInt with
  | none => rfl
  | some handler =>
    show [(handler, Memory.read _ _ _)] = _
    rw [read_bodyGone]
    rfl

/-- Where a message does what it should: no handler is found, or the message is complete and
has no bytes in its body. -/
def ExactWhen (rt : Runtime σ) (protocols : Protocols π) (payload : List UInt8) : Prop :=
  protocols.getProtocol (parseFromArray rt payload).2.id.toInt = none ∨
    ((parseFromArray rt payload).1 = true ∧ (parseFromArray rt payload).2.body = [])

theorem exactDispatch_iff {r : C (List (UserCall π))} (hp : p.Carries 1 payload)
    (hr : processCalls r = dispatch rt e protocols p) :
    ExactDispatch rt protocols payload r ↔ ExactWhen rt protocols payload := by
  obtain ⟨calls, hcalls, htold⟩ := dispatch_proto rt e protocols hp
  have hexact : ExactDispatch rt protocols payload r ↔ calls.map ProcessCall.told = intendedCalls rt protocols payload := by
    rw [ExactDispatch, hr, hcalls]
    constructor
    · intro h
      obtain ⟨calls', hok, h⟩ := h
      obtain rfl := Except.ok.inj hok
      exact h
    · intro h
      exact ⟨calls, rfl, h⟩
  rw [hexact, htold, ExactWhen, intendedCalls]
  generalize parseFromArray rt payload = parsed
  obtain ⟨ok, m⟩ := parsed
  cases hfind : protocols.getProtocol m.id.toInt with
  | none => cases ok <;> simp [hfind]
  | some handler =>
    by_cases hbody : m.body = []
    · cases ok <;> simp [hfind, hbody]
    · cases ok <;> simp [hfind, hbody]

end Proto

/-- **Dispatch of type 1 is exact** exactly where no handler is registered under the id read
so far, or the payload is a complete message without a body. -/
theorem dispatch_exact_iff {σ π : Type} (rt : Runtime σ) (e : Endian) (protocols : Protocols π) {p : FullPacket}
    {payload : List UInt8} (hp : p.Carries 1 payload) :
    (ExactDispatch rt protocols payload (getPacket rt e protocols p) ↔ ExactWhen rt protocols payload) ∧
    ∀ recvCb, ExactDispatch rt protocols payload (TCPClient.getPacket rt e protocols recvCb p) ↔
      ExactWhen rt protocols payload := by
  refine ⟨exactDispatch_iff hp processCalls_getPacket, fun recvCb => ?_⟩
  exact exactDispatch_iff hp (processCalls_client recvCb)

/-- A frame of type 1 or 2 with a payload, in a buffer that has the tail 2 behind it. -/
def packetOf (type : BitVec 32) (payload : List UInt8) : FullPacket :=
  ⟨⟨0, 1, 2, Vector.replicate 16 0, type, BitVec.ofNat 32 payload.length, 0⟩, payload ++ [2, 0, 0, 0]⟩

/-- Seven is registered. -/
def onlySeven : Protocols Unit := Protocols.empty.addProtocol 7 (some ())

theorem dispatch_exact_empty :
    (ExactDispatch ByteStream.runtime onlySeven [8, 7, 18, 0]
      (getPacket ByteStream.runtime .little onlySeven (packetOf 1 [8, 7, 18, 0])) ↔
      ExactWhen ByteStream.runtime onlySeven [8, 7, 18, 0]) ∧
    ∀ recvCb, ExactDispatch ByteStream.runtime onlySeven [8, 7, 18, 0]
      (TCPClient.getPacket ByteStream.runtime .little onlySeven recvCb (packetOf 1 [8, 7, 18, 0])) ↔
      ExactWhen ByteStream.runtime onlySeven [8, 7, 18, 0] :=
  dispatch_exact_iff ByteStream.runtime .little onlySeven ⟨rfl, by decide, [2, 0, 0, 0], rfl⟩

theorem parse_truncated : parseFromArray ByteStream.runtime [8, 7] = (false, ⟨some 7, none⟩) := by decide +kernel

theorem parse_whole : parseFromArray ByteStream.runtime [8, 7, 18, 1, 97] = (true, ⟨some 7, some [97]⟩) := by
  decide +kernel

/-- An id without a body makes the handler run; and where there is a body, it is gone. -/
theorem dispatch_exact_fails :
    (∃ calls c, processCalls (getPacket ByteStream.runtime .little onlySeven (packetOf 1 [8, 7])) = .ok calls ∧
      c ∈ calls ∧ (parseFromArray ByteStream.runtime [8, 7]).1 = false) ∧
    (∃ calls c, processCalls (getPacket ByteStream.runtime .little onlySeven (packetOf 1 [8, 7, 18, 1, 97])) = .ok calls ∧
      c ∈ calls ∧ c.dataSize = 1 ∧ c.read = .error .wildPointer) ∧
    ¬ ExactDispatch ByteStream.runtime onlySeven [8, 7]
      (getPacket ByteStream.runtime .little onlySeven (packetOf 1 [8, 7])) ∧
    ¬ ExactDispatch ByteStream.runtime onlySeven [8, 7, 18, 1, 97]
      (getPacket ByteStream.runtime .little onlySeven (packetOf 1 [8, 7, 18, 1, 97])) := by
  have hseven : onlySeven.getProtocol (7 : BitVec 32).toInt = some () := by decide
  have hcut : (packetOf 1 [8, 7]).Carries 1 [8, 7] := ⟨rfl, by decide, [2, 0, 0, 0], rfl⟩
  have hwhole : (packetOf 1 [8, 7, 18, 1, 97]).Carries 1 [8, 7, 18, 1, 97] := ⟨rfl, by decide, [2, 0, 0, 0], rfl⟩
  have hcall := dispatch_eq onlySeven (locate_proto ByteStream.runtime .little hcut)
  have hcall' := dispatch_eq onlySeven (locate_proto ByteStream.runtime .little hwhole)
  rw [parse_truncated] at hcall
  rw [parse_whole] at hcall'
  refine ⟨⟨_, _, processCalls_getPacket.trans hcall, List.mem_singleton.2 rfl, by rw [parse_truncated]⟩,
    ⟨_, _, processCalls_getPacket.trans hcall', List.mem_singleton.2 rfl, rfl, rfl⟩, ?_, ?_⟩
  · rw [exactDispatch_iff hcut processCalls_getPacket, ExactWhen, parse_truncated]
    intro h
    rcases h with h | h
    · rw [show (CProto.id ⟨some 7, none⟩) = 7 from rfl, hseven] at h
      cases h
    · cases h.1
  · rw [exactDispatch_iff hwhole processCalls_getPacket, ExactWhen, parse_whole]
    intro h
    rcases h with h | h
    · rw [show (CProto.id ⟨some 7, some [97]⟩) = 7 from rfl, hseven] at h
      cases h
    · cases h.2

end Uvnet

import Uvnet.DeliveredFrames
import Uvnet.Dispatch
import Uvnet.FrameStream

/- `GetPacket` on messages that are encoded by hand.

   The first four bytes of the buffer are the id, whether or not the payload has so many, and
   the rest of the payload is the body, of a negative length where it has not.

   1. `dispatch_inside_iff`: dispatch stays inside the payload exactly where this has four
      bytes, or no bytes that may stand behind it spell an id that is registered.
   2. `encodings_agree_iff`: when the two encodings of a message come to the same. -/
namespace Uvnet
open CMachine

theorem charToInt32_append (e : Endian) {chars : List UInt8} (h : 4 ≤ chars.length) (rest : List UInt8) :
    charToInt32 e (chars ++ rest) = charToInt32 e chars := by
  have hget : ∀ i, i < 4 → (chars ++ rest)[i]? = chars[i]? :=
    fun i hi => List.getElem?_append_left (Nat.lt_of_lt_of_le hi h)
  simp [charToInt32, hget]

section Manual
variable {σ π : Type} {rt : Runtime σ} {e : Endian} {protocols : Protocols π} {p : FullPacket}

/-- The handler that the bytes in front of a buffer name. -/
def handlerAt (e : Endian) (protocols : Protocols π) (chars : List UInt8) : Option π :=
  protocols.getProtocol (charToInt32 e chars).toInt

theorem handlerAt_append {chars : List UInt8} (h : 4 ≤ chars.length) (rest : List UInt8) :
    handlerAt e protocols (chars ++ rest) = handlerAt e protocols chars := by
  rw [handlerAt, charToInt32_append e h, handlerAt]

theorem dispatch_manual (htype : p.packethead.type = 2) (hnonneg : 0 ≤ p.packethead.len)
    (hlen : 4 ≤ p.packetdata.length) :
    dispatch rt e protocols p = .ok ((handlerAt e protocols p.packetdata).map fun handler =>
      ⟨charToInt32 e p.packetdata, handler, .packetdata 4, p.packethead.len - 4, ⟨p.packetdata, []⟩⟩).toList := by
  have hread : memRead p.packetdata 0 4 = .ok (p.packetdata.take 4) :=
    memRead_mid (A := []) (D := p.packetdata.drop 4) (by simp) rfl (by rw [List.length_take]; omega)
  have hid : charToInt32 e (p.packetdata.take 4) = charToInt32 e p.packetdata := by
    have hfour : 4 ≤ (p.packetdata.take 4).length := by rw [List.length_take]; omega
    have h := charToInt32_append e hfour (p.packetdata.drop 4)
    rw [List.take_append_drop] at h
    exact h.symm
  have hle := NetPacket.len_le p.packethead
  have hlocate : locate rt e p = .ok ⟨charToInt32 e p.packetdata, .packetdata 4, p.packethead.len - 4, ⟨p.packetdata, []⟩⟩ := by
    have h1 : ¬ p.packethead.type = 1 := by rw [htype]; decide
    rw [locate, if_neg h1, if_pos htype, locateManual, hread, ok_bind, hid,
      cint_ok (by omega) (by omega), ok_bind]
    rfl
  rw [dispatch_eq protocols hlocate, handlerAt]

/-- A call keeps inside a payload of `len` bytes. -/
def ProcessCall.Inside (c : ProcessCall π) (len : Int) : Prop :=
  0 ≤ c.dataSize ∧ ∃ off : Nat, c.protoData = .packetdata off ∧ off + c.dataSize ≤ len

/-- The ids that handlers are called for. -/
def decision (r : C (List (UserCall π))) : C (List (BitVec 32)) := do
  let calls ← processCalls r
  return calls.map ProcessCall.protoId

/-- The bytes that the packet buffer has behind a frame. -/
def FullPacket.behind (p : FullPacket) : List UInt8 := p.packetdata.drop (p.packethead.len.toNat + 1)

/-- The frame with other bytes behind it. -/
def FullPacket.withStale (p : FullPacket) (stale : List UInt8) : FullPacket :=
  { p with packetdata := p.packetdata.take (p.packethead.len.toNat + 1) ++ stale }

/-- Dispatch by `get` stays inside the payload of `p`: the calls it makes do, and what it
decides is the same for all bytes behind the frame. -/
structure DispatchInside (get : FullPacket → C (List (UserCall π))) (p : FullPacket) : Prop where
  inside : ∃ calls, processCalls (get p) = .ok calls ∧ ∀ c ∈ calls, c.Inside p.packethead.len
  stable : ∀ stale, stale.length = p.behind.length → decision (get (p.withStale stale)) = decision (get p)

/-- The payload has the four bytes of an id, or no bytes that may follow it and the tail spell
one that is registered. -/
def InsideWhen (e : Endian) (protocols : Protocols π) (tail : UInt8) (payload : List UInt8) : Prop :=
  4 ≤ payload.length ∨ ∀ a b c, handlerAt e protocols (payload ++ [tail, a, b, c]) = none

/-- The id that the bytes in front of a buffer spell, where a handler is called for it. -/
def decided (e : Endian) (protocols : Protocols π) (chars : List UInt8) : List (BitVec 32) :=
  ((handlerAt e protocols chars).map fun _ => charToInt32 e chars).toList

theorem decided_eq_nil_iff {chars : List UInt8} :
    decided e protocols chars = [] ↔ handlerAt e protocols chars = none := by
  unfold decided
  cases handlerAt e protocols chars with
  | none => simp
  | some handler => simp

theorem decided_append {chars : List UInt8} (h : 4 ≤ chars.length) (rest : List UInt8) :
    decided e protocols (chars ++ rest) = decided e protocols chars := by
  rw [decided, handlerAt_append h, charToInt32_append e h, decided]

theorem decision_eq {get : FullPacket → C (List (UserCall π))}
    (hget : ∀ p, processCalls (get p) = dispatch rt e protocols p) (htype : p.packethead.type = 2)
    (hnonneg : 0 ≤ p.packethead.len) (hlen : 4 ≤ p.packetdata.length) :
    decision (get p) = .ok (decided e protocols p.packetdata) := by
  rw [decision, hget, dispatch_manual htype hnonneg hlen, decided]
  cases handlerAt e protocols p.packetdata with
  | none => rfl
  | some handler => rfl

section Delivered
variable {tail : UInt8} (hp : Delivered tail p)
include hp

theorem Delivered.cut : p.packetdata = p.frame.payload ++ tail :: p.behind := by
  obtain ⟨hlt, hget⟩ := List.getElem?_eq_some_iff.1 hp.closed
  show _ = p.packetdata.take _ ++ tail :: p.packetdata.drop _
  rw [← hget, ← List.drop_eq_getElem_cons hlt, List.take_append_drop]

theorem Delivered.cut_withStale (stale : List UInt8) :
    (p.withStale stale).packetdata = p.frame.payload ++ tail :: stale := by
  obtain ⟨hlt, hget⟩ := List.getElem?_eq_some_iff.1 hp.closed
  show p.packetdata.take (p.packethead.len.toNat + 1) ++ stale = p.packetdata.take _ ++ tail :: stale
  rw [List.take_succ_eq_append_getElem hlt, hget, List.append_assoc]
  rfl

theorem Delivered.payload_length : (p.frame.payload.length : Int) = p.packethead.len := by
  have hnonneg := hp.nonneg
  obtain ⟨hlt, -⟩ := List.getElem?_eq_some_iff.1 hp.closed
  have hlen : p.frame.payload.length = p.packethead.len.toNat := by
    rw [FullPacket.frame, List.length_take]
    omega
  omega

theorem Delivered.behind_length : bufferSize ≤ p.frame.payload.length + (p.behind.length + 1) := by
  have hroom := hp.room
  rw [hp.cut] at hroom
  simpa only [List.length_append, List.length_cons] using hroom

theorem Delivered.four_le {stale : List UInt8} (hlen : stale.length = p.behind.length) :
    4 ≤ (p.frame.payload ++ tail :: stale).length := by
  have hroom := hp.behind_length
  have hbs : bufferSize = 10240 := rfl
  rw [List.length_append, List.length_cons]
  omega

variable {get : FullPacket → C (List (UserCall π))}
  (hget : ∀ p, processCalls (get p) = dispatch rt e protocols p) (htype : p.packethead.type = 2)
include hget htype

theorem Delivered.decision_withStale {stale : List UInt8} (hlen : stale.length = p.behind.length) :
    decision (get (p.withStale stale)) = .ok (decided e protocols (p.frame.payload ++ tail :: stale)) := by
  have hcut := hp.cut_withStale stale
  have hfour := hp.four_le hlen
  rw [← hcut] at hfour ⊢
  exact decision_eq hget htype hp.nonneg hfour

theorem Delivered.decision_eq : decision (get p) = .ok (decided e protocols (p.frame.payload ++ tail :: p.behind)) := by
  have hfour := hp.four_le rfl
  rw [← hp.cut] at hfour ⊢
  exact Uvnet.decision_eq hget htype hp.nonneg hfour

theorem Delivered.stable_of (h : ∀ stale, stale.length = p.behind.length →
      decided e protocols (p.frame.payload ++ tail :: stale) = decided e protocols (p.frame.payload ++ tail :: p.behind)) :
    ∀ stale, stale.length = p.behind.length → decision (get (p.withStale stale)) = decision (get p) := by
  intro stale hlen
  rw [hp.decision_withStale hget htype hlen, hp.decision_eq hget htype, h stale hlen]

theorem Delivered.calls_eq : processCalls (get p) = .ok ((handlerAt e protocols p.packetdata).map fun handler =>
    ⟨charToInt32 e p.packetdata, handler, .packetdata 4, p.packethead.len - 4, ⟨p.packetdata, []⟩⟩).toList := by
  have hfour := hp.four_le rfl
  rw [← hp.cut] at hfour
  rw [hget]
  exact dispatch_manual htype hp.nonneg hfour

theorem Delivered.inside_of_long (h4 : 4 ≤ p.frame.payload.length) : DispatchInside get p := by
  have hlen := hp.payload_length
  refine ⟨⟨_, hp.calls_eq hget htype, fun c hc => ?_⟩, hp.stable_of hget htype fun stale _ => ?_⟩
  · obtain ⟨handler, -, rfl⟩ := Option.map_eq_some_iff.1 (Option.mem_toList.1 hc)
    have hsize : 0 ≤ p.packethead.len - 4 := by omega
    have hend : (4 : Int) + (p.packethead.len - 4) ≤ p.packethead.len := by omega
    exact ⟨hsize, 4, rfl, hend⟩
  · rw [decided_append h4, decided_append h4]

/-- No handler is called for a short payload that no bytes complete to an id. -/
theorem Delivered.inside_of_none
    (hnone : ∀ stale, stale.length = p.behind.length → handlerAt e protocols (p.frame.payload ++ tail :: stale) = none) :
    DispatchInside get p := by
  have hcalls := hp.calls_eq hget htype
  have hfound := hnone p.behind rfl
  rw [← hp.cut] at hfound
  rw [hfound] at hcalls
  refine ⟨⟨[], hcalls, nofun⟩, hp.stable_of hget htype fun stale hlen => ?_⟩
  rw [decided_eq_nil_iff.2 (hnone stale hlen), decided_eq_nil_iff.2 (hnone p.behind rfl)]

/-- A handler that is called for a short payload gets a negative length. -/
theorem Delivered.none_of_inside (h : DispatchInside get p) (h4 : ¬ 4 ≤ p.frame.payload.length) {stale : List UInt8}
    (hlen : stale.length = p.behind.length) : handlerAt e protocols (p.frame.payload ++ tail :: stale) = none := by
  have hstable := h.stable stale hlen
  rw [hp.decision_withStale hget htype hlen, hp.decision_eq hget htype] at hstable
  rw [← decided_eq_nil_iff, Except.ok.inj hstable, decided_eq_nil_iff, ← hp.cut]
  obtain ⟨calls, hok, hinside⟩ := h.inside
  rw [hp.calls_eq hget htype] at hok
  have hpay := hp.payload_length
  cases hfound : handlerAt e protocols p.packetdata with
  | none => rfl
  | some handler =>
    rw [hfound] at hok
    obtain rfl := Except.ok.inj hok
    have hsize : 0 ≤ p.packethead.len - 4 := (hinside _ (List.mem_singleton.2 rfl)).1
    omega

/-- **One delivered frame** of type 2. -/
theorem Delivered.dispatchInside_iff : DispatchInside get p ↔ InsideWhen e protocols tail p.frame.payload := by
  have hroom := hp.behind_length
  have hbs : bufferSize = 10240 := rfl
  have happend : ∀ a b c K, handlerAt e protocols (p.frame.payload ++ tail :: a :: b :: c :: K) =
      handlerAt e protocols (p.frame.payload ++ [tail, a, b, c]) := by
    intro a b c K
    have hlen : 4 ≤ (p.frame.payload ++ [tail, a, b, c]).length := by simp
    have h : handlerAt e protocols _ = _ := handlerAt_append hlen K
    rwa [List.append_assoc] at h
  constructor
  · intro h
    by_cases h4 : 4 ≤ p.frame.payload.length
    · exact .inl h4
    · right
      intro a b c
      rw [← happend a b c (p.behind.drop 3)]
      apply hp.none_of_inside hget htype h h4
      simp only [List.length_cons, List.length_drop]
      omega
  · intro h
    rcases h with h4 | hnone
    · exact hp.inside_of_long hget htype h4
    · by_cases h4 : 4 ≤ p.frame.payload.length
      · exact hp.inside_of_long hget htype h4
      · apply hp.inside_of_none hget htype
        intro stale hlen
        obtain ⟨a, b, c, K, rfl⟩ : ∃ a b c K, stale = a :: b :: c :: K := by
          rcases stale with _ | ⟨a, _ | ⟨b, _ | ⟨c, K⟩⟩⟩
          · simp only [List.length_nil] at hlen
            omega
          · simp only [List.length_cons, List.length_nil] at hlen
            omega
          · simp only [List.length_cons, List.length_nil] at hlen
            omega
          · exact ⟨a, b, c, K, rfl⟩
        rw [happend]
        exact hnone a b c

end Delivered

end Manual

/-- **Dispatch of type 2 stays inside the payload**, for every frame that calls of `recvdata`
deliver, exactly where the payload has four bytes or nothing behind it makes an id of it. -/
theorem dispatch_inside_iff {σ π : Type} (rt : Runtime σ) (protocols : Protocols π) {env : Env} {head tail : UInt8}
    {chunks : List (List UInt8)} {s : PacketSync} {calls : List FullPacket} {p : FullPacket}
    (hrun : recvCalls env (started env head tail) chunks = .ok (s, calls)) (hp : p ∈ calls)
    (htype : p.packethead.type = 2) :
    (DispatchInside (getPacket rt env.endian protocols) p ↔ InsideWhen env.endian protocols tail p.frame.payload) ∧
    ∀ recvCb, DispatchInside (TCPClient.getPacket rt env.endian protocols recvCb) p ↔
      InsideWhen env.endian protocols tail p.frame.payload := by
  have hdel := (recvCalls_delivers (started_buffer env head tail) hrun).2 p hp
  refine ⟨hdel.dispatchInside_iff (fun _ => processCalls_getPacket) htype, fun recvCb => ?_⟩
  exact hdel.dispatchInside_iff (fun _ => processCalls_client recvCb) htype

/-- Three zero bytes, as an application may send them. -/
def shortOutgoing : Outgoing zeroEnv 1 2 := smallOutgoing 1 2 [0, 0, 0] (by decide)

theorem shortOutgoing_run : ∃ s p, recvCalls zeroEnv (started zeroEnv 1 2) [shortOutgoing.bytes] = .ok (s, [p]) ∧
    p.frame = shortOutgoing.frame := by
  have hstream : [shortOutgoing.bytes].flatten = stream [shortOutgoing] := rfl
  have hsize : ∀ chunk ∈ [shortOutgoing.bytes], chunk.length ≤ bufferSize := by decide
  have hbs : bufferSize ≤ intMax := by decide
  have hfits : CallsFit zeroEnv 1 2 (charScanner zeroEnv 1 2) [shortOutgoing.bytes] :=
    callsFit_packets (by decide) hsize hstream
  obtain ⟨s, calls, hrun, hsync⟩ := recvCalls_ok (fun chunk hc => Nat.le_trans (hsize chunk hc) hbs) hfits
  rw [hstream] at hsync
  have hframes := (hsync.drained (by decide)).1
  cases calls with
  | nil => cases hframes
  | cons p rest =>
    obtain ⟨hframe, hrest⟩ := List.cons.inj hframes
    obtain rfl := List.map_eq_nil_iff.1 hrest
    exact ⟨s, p, hrun, hframe⟩

theorem dispatch_inside_short :
    ∃ s p, recvCalls zeroEnv (started zeroEnv 1 2) [shortOutgoing.bytes] = .ok (s, [p]) ∧
      (DispatchInside (getPacket ByteStream.runtime .little onlySeven) p ↔ InsideWhen .little onlySeven 2 p.frame.payload) ∧
      ∀ recvCb, DispatchInside (TCPClient.getPacket ByteStream.runtime .little onlySeven recvCb) p ↔
        InsideWhen .little onlySeven 2 p.frame.payload := by
  obtain ⟨s, p, hrun, hframe⟩ := shortOutgoing_run
  have htype : p.packethead.type = 2 := by
    have h := congrArg (fun f => f.packethead.type) hframe
    exact h
  have h := dispatch_inside_iff ByteStream.runtime onlySeven hrun (List.mem_singleton.2 rfl) htype
  exact ⟨s, p, hrun, h⟩

/-- With a handler for 2^25, three zero bytes and the tail make a call with -1 bytes. -/
theorem dispatch_inside_fails :
    ∃ s p c, recvCalls zeroEnv (started zeroEnv 1 2) [shortOutgoing.bytes] = .ok (s, [p]) ∧
      p.packethead.type = 2 ∧ p.frame.payload = [0, 0, 0] ∧
      processCalls (getPacket ByteStream.runtime .little (Protocols.empty.addProtocol (2 ^ 25) (some ())) p) = .ok [c] ∧
      c.dataSize = -1 ∧
      ¬ DispatchInside (getPacket ByteStream.runtime .little (Protocols.empty.addProtocol (2 ^ 25) (some ()))) p := by
  obtain ⟨s, p, hrun, hframe⟩ := shortOutgoing_run
  have hdel := (recvCalls_delivers (started_buffer zeroEnv 1 2) hrun).2 p (List.mem_singleton.2 rfl)
  have htype : p.packethead.type = 2 := congrArg (fun f => f.packethead.type) hframe
  have hpay : p.frame.payload = [0, 0, 0] := congrArg Frame.payload hframe
  have hhead : p.packethead = shortOutgoing.frame.packethead := congrArg Frame.packethead hframe
  have hlen : p.packethead.len = 3 := by
    rw [hhead]
    decide
  have hnamed : handlerAt .little (Protocols.empty.addProtocol (2 ^ 25) (some ())) [0, 0, 0, 2] = some () := by decide
  have hget : ∀ q, processCalls (getPacket ByteStream.runtime .little (Protocols.empty.addProtocol (2 ^ 25) (some ())) q) =
      dispatch ByteStream.runtime .little _ q := fun _ => processCalls_getPacket
  have hcalls := hdel.calls_eq hget htype
  have hfound : handlerAt .little (Protocols.empty.addProtocol (2 ^ 25) (some ())) p.packetdata = some () := by
    rw [hdel.cut, hpay]
    have hfour : 4 ≤ [(0 : UInt8), 0, 0, 2].length := by decide
    exact (handlerAt_append hfour p.behind).trans hnamed
  rw [hfound] at hcalls
  refine ⟨s, p, _, hrun, htype, hpay, hcalls, ?_, fun h => ?_⟩
  · show p.packethead.len - 4 = -1
    rw [hlen]
    rfl
  · obtain ⟨calls, hok, hinside⟩ := h.inside
    rw [hcalls] at hok
    obtain rfl := Except.ok.inj hok
    have hsize : 0 ≤ p.packethead.len - 4 := (hinside _ (List.mem_singleton.2 rfl)).1
    omega

/-! The two encodings of one message. -/

/-- What a handler is given: the bytes it reads, and how many it is told there are. -/
def ProcessCall.given {π : Type} (c : ProcessCall π) : π × C (List UInt8) × Int := (c.handler, c.read, c.dataSize)

/-- The same handler is called with the same bytes, or none is. -/
def EncodingsAgree {π : Type} (r₁ r₂ : C (List (UserCall π))) : Prop :=
  ∃ calls₁ calls₂, processCalls r₁ = .ok calls₁ ∧ processCalls r₂ = .ok calls₂ ∧
    calls₁.map ProcessCall.given = calls₂.map ProcessCall.given

/-- No byte of the id but the lowest has its top bit set: bits 15, 23 and 31 are clear. -/
def UpperBytesSmall (id : BitVec 32) : Prop := byteOf id 1 < 0x80 ∧ byteOf id 2 < 0x80 ∧ byteOf id 3 < 0x80

instance (id : BitVec 32) : Decidable (UpperBytesSmall id) := inferInstanceAs (Decidable (_ ∧ _))

/-- The id has no handler, or a handler and an empty body to read; and so has the other id that the
bytes spell where one of the upper three is 0x80 or more. -/
def AgreeWhen {π : Type} (protocols : Protocols π) (id : BitVec 32) (body : List UInt8) : Prop :=
  (protocols.getProtocol id.toInt = none ∧ (UpperBytesSmall id ∨ protocols.getProtocol (spelled id).toInt = none)) ∨
    (body = [] ∧ ∃ handler, protocols.getProtocol id.toInt = some handler ∧
      (UpperBytesSmall id ∨ protocols.getProtocol (spelled id).toInt = some handler))

section Encodings
variable {σ π : Type} {rt : Runtime σ} {e : Endian} {protocols : Protocols π} {p : FullPacket} {id : BitVec 32}
  {body : List UInt8}

theorem dispatch_typeOne (e : Endian) (protocols : Protocols π) (hp : p.Carries 1 (serialize rt ⟨some id, some body⟩))
    (hparse : parseFromArray rt (serialize rt ⟨some id, some body⟩) = (true, ⟨some id, some body⟩)) :
    ∃ calls, dispatch rt e protocols p = .ok calls ∧ calls.map ProcessCall.given =
      ((protocols.getProtocol id.toInt).map fun handler =>
        (handler, if body = [] then .ok [] else .error .wildPointer, (body.length : Int))).toList := by
  have hlocate := locate_proto rt e hp
  rw [hparse] at hlocate
  refine ⟨_, dispatch_eq protocols hlocate, ?_⟩
  show List.map _ ((protocols.getProtocol id.toInt).map _).toList = _
  cases protocols.getProtocol id.toInt with
  | none => rfl
  | some handler =>
    have hread := read_bodyGone ⟨some id, some body⟩ p.packetdata
    exact congrArg (fun r => [(handler, r, (body.length : Int))]) hread

theorem dispatch_typeTwo (rt : Runtime σ) (protocols : Protocols π) (hp : p.Carries 2 (int32ToChar e id ++ body)) :
    ∃ calls, dispatch rt e protocols p = .ok calls ∧ calls.map ProcessCall.given =
      ((handlerAt e protocols (int32ToChar e id)).map fun handler => (handler, .ok body, (body.length : Int))).toList := by
  obtain ⟨J, hJ⟩ := hp.data
  rw [List.append_assoc] at hJ
  have hfour : (int32ToChar e id).length = 4 := rfl
  have hlen : p.packethead.len - 4 = body.length := by
    rw [hp.len_eq, List.length_append, hfour]
    omega
  have hread : Memory.read ⟨p.packetdata, []⟩ (.packetdata 4) body.length = .ok body := by
    have hle := NetPacket.len_le p.packethead
    have hlt : intMax < 2 ^ 64 := by decide
    unfold Memory.read
    split
    · next hzero =>
      have hnil : body = [] := List.eq_nil_of_length_eq_zero (by omega)
      rw [hnil]
    · show memRead p.packetdata 4 (toSize body.length) = _
      rw [toSize_natCast (by omega)]
      exact memRead_mid hJ.symm rfl rfl
  have hlong : 4 ≤ p.packetdata.length := by
    rw [← hJ, List.length_append, hfour]
    exact Nat.le_add_right _ _
  have hnonneg : 0 ≤ p.packethead.len := by
    rw [hp.len_eq]
    exact Int.natCast_nonneg _
  refine ⟨_, dispatch_manual hp.type_eq hnonneg hlong, ?_⟩
  rw [← handlerAt_append (Nat.le_of_eq hfour.symm) (body ++ J), hJ, hlen]
  cases handlerAt e protocols p.packetdata with
  | none => rfl
  | some handler => exact congrArg (fun r => [(handler, r, (body.length : Int))]) hread

theorem agreeWhen_iff : AgreeWhen protocols id body ↔
    protocols.getProtocol id.toInt = handlerAt .little protocols (int32ToChar .little id) ∧
      (protocols.getProtocol id.toInt = none ∨ body = []) := by
  have hspelled : UpperBytesSmall id → protocols.getProtocol (spelled id).toInt = protocols.getProtocol id.toInt :=
    fun hsmall => by rw [(spelled_eq_iff id).2 hsmall]
  rw [AgreeWhen, handlerAt, charToInt32_spelled]
  cases hfound : protocols.getProtocol id.toInt with
  | none =>
    rw [hfound] at hspelled
    constructor
    · rintro (⟨-, hsmall | hnone⟩ | ⟨-, handler, hsome, -⟩)
      · exact ⟨(hspelled hsmall).symm, .inl rfl⟩
      · exact ⟨hnone.symm, .inl rfl⟩
      · cases hsome
    · exact fun h => .inl ⟨rfl, .inr h.1.symm⟩
  | some handler =>
    rw [hfound] at hspelled
    constructor
    · rintro (⟨hnone, -⟩ | ⟨hbody, handler', hsome, hsmall | hsame⟩)
      · cases hnone
      · exact ⟨(hspelled hsmall).symm, .inr hbody⟩
      · exact ⟨hsome.trans hsame.symm, .inr hbody⟩
    · rintro ⟨hsame, hnone | hbody⟩
      · cases hnone
      · exact .inr ⟨hbody, handler, rfl, .inr hsame.symm⟩

theorem encodingsAgree_iff {p₁ p₂ : FullPacket} {r₁ r₂ : C (List (UserCall π))}
    (hparse : parseFromArray rt (serialize rt ⟨some id, some body⟩) = (true, ⟨some id, some body⟩))
    (h₁ : p₁.Carries 1 (serialize rt ⟨some id, some body⟩)) (h₂ : p₂.Carries 2 (int32ToChar .little id ++ body))
    (hr₁ : processCalls r₁ = dispatch rt .little protocols p₁) (hr₂ : processCalls r₂ = dispatch rt .little protocols p₂) :
    EncodingsAgree r₁ r₂ ↔ AgreeWhen protocols id body := by
  obtain ⟨calls₁, hok₁, hgiven₁⟩ := dispatch_typeOne .little protocols h₁ hparse
  obtain ⟨calls₂, hok₂, hgiven₂⟩ := dispatch_typeTwo rt protocols h₂
  have hagree : EncodingsAgree r₁ r₂ ↔ calls₁.map ProcessCall.given = calls₂.map ProcessCall.given := by
    rw [EncodingsAgree, hr₁, hr₂, hok₁, hok₂]
    constructor
    · intro h
      obtain ⟨c₁, c₂, hc₁, hc₂, h⟩ := h
      obtain rfl := Except.ok.inj hc₁
      obtain rfl := Except.ok.inj hc₂
      exact h
    · intro h
      exact ⟨calls₁, calls₂, rfl, rfl, h⟩
  rw [hagree, hgiven₁, hgiven₂, agreeWhen_iff]
  by_cases hbody : body = []
  · rw [if_pos hbody, hbody]
    cases protocols.getProtocol id.toInt with
    | none => cases handlerAt .little protocols (int32ToChar .little id) <;> simp
    | some handler => cases handlerAt .little protocols (int32ToChar .little id) <;> simp
  · rw [if_neg hbody]
    cases protocols.getProtocol id.toInt with
    | none => cases handlerAt .little protocols (int32ToChar .little id) <;> simp
    | some handler => cases handlerAt .little protocols (int32ToChar .little id) <;> simp [hbody]

end Encodings

/-- **The two encodings agree** exactly where the id has no handler, or one and an empty body, and
the same goes for what its bytes spell if that is another id. -/
theorem encodings_agree_iff {σ π : Type} (rt : Runtime σ) (protocols : Protocols π) (id : BitVec 32) (body : List UInt8)
    {p₁ p₂ : FullPacket}
    (hparse : parseFromArray rt (serialize rt ⟨some id, some body⟩) = (true, ⟨some id, some body⟩))
    (h₁ : p₁.Carries 1 (serialize rt ⟨some id, some body⟩)) (h₂ : p₂.Carries 2 (int32ToChar .little id ++ body)) :
    (EncodingsAgree (getPacket rt .little protocols p₁) (getPacket rt .little protocols p₂) ↔ AgreeWhen protocols id body) ∧
    ∀ recvCb, EncodingsAgree (TCPClient.getPacket rt .little protocols recvCb p₁)
      (TCPClient.getPacket rt .little protocols recvCb p₂) ↔ AgreeWhen protocols id body := by
  refine ⟨encodingsAgree_iff hparse h₁ h₂ processCalls_getPacket processCalls_getPacket, fun recvCb => ?_⟩
  exact encodingsAgree_iff hparse h₁ h₂ (processCalls_client recvCb) (processCalls_client recvCb)

theorem parse_seven : parseFromArray ByteStream.runtime (serialize ByteStream.runtime ⟨some 7, some []⟩) =
    (true, ⟨some 7, some []⟩) := by decide +kernel

theorem encodings_agree_seven :
    (EncodingsAgree
        (getPacket ByteStream.runtime .little onlySeven (packetOf 1 (serialize ByteStream.runtime ⟨some 7, some []⟩)))
        (getPacket ByteStream.runtime .little onlySeven (packetOf 2 (int32ToChar .little 7 ++ []))) ↔
      AgreeWhen onlySeven 7 []) ∧
    ∀ recvCb, EncodingsAgree
        (TCPClient.getPacket ByteStream.runtime .little onlySeven recvCb
          (packetOf 1 (serialize ByteStream.runtime ⟨some 7, some []⟩)))
        (TCPClient.getPacket ByteStream.runtime .little onlySeven recvCb (packetOf 2 (int32ToChar .little 7 ++ []))) ↔
      AgreeWhen onlySeven 7 [] :=
  encodings_agree_iff ByteStream.runtime onlySeven 7 [] parse_seven
    ⟨rfl, by decide, [2, 0, 0, 0], rfl⟩ ⟨rfl, by decide, [2, 0, 0, 0], rfl⟩

theorem parse_body : parseFromArray ByteStream.runtime (serialize ByteStream.runtime ⟨some 7, some [97]⟩) =
    (true, ⟨some 7, some [97]⟩) := by decide +kernel

theorem parse_large : parseFromArray ByteStream.runtime (serialize ByteStream.runtime ⟨some 0x8000, some []⟩) =
    (true, ⟨some 0x8000, some []⟩) := by decide +kernel

/-- A message with a body; and one without, with an id that comes back as another one. -/
theorem encodings_agree_fails :
    ¬ EncodingsAgree
        (getPacket ByteStream.runtime .little onlySeven (packetOf 1 (serialize ByteStream.runtime ⟨some 7, some [97]⟩)))
        (getPacket ByteStream.runtime .little onlySeven (packetOf 2 (int32ToChar .little 7 ++ [97]))) ∧
    ¬ EncodingsAgree
        (getPacket ByteStream.runtime .little (Protocols.empty.addProtocol 0x8000 (some ()))
          (packetOf 1 (serialize ByteStream.runtime ⟨some 0x8000, some []⟩)))
        (getPacket ByteStream.runtime .little (Protocols.empty.addProtocol 0x8000 (some ()))
          (packetOf 2 (int32ToChar .little 0x8000 ++ []))) := by
  constructor
  · rw [encodingsAgree_iff parse_body ⟨rfl, by decide, [2, 0, 0, 0], rfl⟩ ⟨rfl, by decide, [2, 0, 0, 0], rfl⟩
      processCalls_getPacket processCalls_getPacket]
    intro h
    have hseven : onlySeven.getProtocol (7 : BitVec 32).toInt = some () := by decide
    rcases (agreeWhen_iff.1 h).2 with hnone | hnil
    · rw [hseven] at hnone
      cases hnone
    · cases hnil
  · rw [encodingsAgree_iff parse_large ⟨rfl, by decide, [2, 0, 0, 0], rfl⟩ ⟨rfl, by decide, [2, 0, 0, 0], rfl⟩
      processCalls_getPacket processCalls_getPacket]
    intro h
    have hfound : (Protocols.empty.addProtocol 0x8000 (some ())).getProtocol (0x8000 : BitVec 32).toInt = some () := by decide
    have hlost : handlerAt .little (Protocols.empty.addProtocol 0x8000 (some ())) (int32ToChar .little 0x8000) = none := by
      decide
    rw [agreeWhen_iff, hfound, hlost] at h
    cases h.1

end Uvnet

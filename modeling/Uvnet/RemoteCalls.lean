import Mathlib.Data.List.Forall2
import Uvnet.DispatchManual
import Uvnet.ExchangeAnswers
import Uvnet.MessageBytes

/- Messages as calls of a server: an exchange in which the packets carry messages.

   A message travels in a frame of type 2, behind the id of its protocol. `GetPacket` calls the
   handler registered for the id with the bytes of the message, which parses them
   (`Frame.Conveys.gives`). The handler of the server computes what it answers from what it has
   parsed, and answers with messages, which travel back the same way. -/
namespace Uvnet
open CMachine StreamScan StepRun PayloadCut Exchange

/-- The frame carries the message under a protocol id. -/
structure Frame.Conveys {σ : Type} {ts : List FieldType} (e : Endian) (rt : MessageRuntime σ) (id : BitVec 32) (m : Message ts)
    (f : Frame) : Prop where
  type : f.packethead.type = 2
  len : f.packethead.len = f.payload.length
  payload : f.payload = int32ToChar e id ++ m.serialize rt

/-- `GetPacket` calls this handler, once, and what it reads there it parses as `m`. -/
def Gives {σ π : Type} {ts : List FieldType} (rt : MessageRuntime σ) (calls : C (List (UserCall π))) (handler : π) (m : Message ts) : Prop :=
  ∃ call, processCalls calls = .ok [call] ∧ call.handler = handler ∧
    call.read.map (Message.parseFromArray rt) = .ok (m.isInitialized, m)

/-- The data the handlers called in `GetPacket` pass to `_send`, where these go by what they read. A read that
is not defined has no answer. -/
def frameAnswers {σ : Type} (rt : Runtime σ) (e : Endian) (protocols : Protocols (List UInt8 → List (List UInt8))) (f : Frame) :
    List (List UInt8) :=
  match dispatch rt e protocols ⟨f.packethead, f.payload⟩ with
  | .ok calls => calls.flatMap fun call => match call.read with
    | .ok bytes => call.handler bytes
    | .error _ => []
  | .error _ => []

section Frames
variable {σ π : Type} {rt : MessageRuntime σ} {At : List UInt8 → σ → Prop} {ts : List FieldType} {e : Endian} {protocols : Protocols π}
  {id : BitVec 32} {m : Message ts} {f : Frame}

theorem Frame.Conveys.carries (h : f.Conveys e rt id m) {p : FullPacket} (hp : p.frame = f) :
    p.Carries 2 (int32ToChar e id ++ m.serialize rt) := by
  subst hp
  refine ⟨h.type, ?_, ?_⟩
  · rw [← h.payload]
    exact h.len
  · rw [← h.payload]
    exact List.take_prefix _ _

/-- **The handler** of the id is called, and has the bytes of the message. -/
theorem Frame.Conveys.dispatches (h : f.Conveys e rt id m) (hid : charToInt32 e (int32ToChar e id) = id) {handler : π}
    (hreg : protocols.getProtocol id.toInt = some handler) {p : FullPacket} (hp : p.frame = f) :
    ∃ call, dispatch rt.toRuntime e protocols p = .ok [call] ∧ call.handler = handler ∧ call.read = .ok (m.serialize rt) := by
  obtain ⟨calls, hcalls, hgiven⟩ := dispatch_typeTwo rt.toRuntime protocols (h.carries hp)
  rw [handlerAt, hid, hreg] at hgiven
  obtain ⟨call, rfl, hcall⟩ := List.map_eq_singleton_iff.1 hgiven
  obtain ⟨hhandler, hread⟩ := Prod.mk.inj hcall
  exact ⟨call, hcalls, hhandler, (Prod.mk.inj hread).1⟩

theorem Frame.Conveys.gives (hw : rt.Wire At) (hx : rt.Expects) (hts : ts.length ≤ 15) (h : f.Conveys e rt id m) (hm : m.Short)
    (hid : charToInt32 e (int32ToChar e id) = id) {handler : π} (hreg : protocols.getProtocol id.toInt = some handler)
    {p : FullPacket} (hp : p.frame = f) {calls : C (List (UserCall π))}
    (hcalls : processCalls calls = dispatch rt.toRuntime e protocols p) : Gives rt calls handler m := by
  obtain ⟨call, hok, hhandler, hread⟩ := h.dispatches hid hreg hp
  refine ⟨call, hcalls.trans hok, hhandler, ?_⟩
  rw [hread]
  exact congrArg Except.ok (Message.parseFromArray_of_partial (Message.parsePartial_serialize hw hx hts hm))

theorem Frame.Conveys.answers {protocols : Protocols (List UInt8 → List (List UInt8))} (h : f.Conveys e rt id m)
    (hid : charToInt32 e (int32ToChar e id) = id) {process : List UInt8 → List (List UInt8)}
    (hreg : protocols.getProtocol id.toInt = some process) : frameAnswers rt.toRuntime e protocols f = process (m.serialize rt) := by
  have hframe : (⟨f.packethead, f.payload⟩ : FullPacket).frame = f := by
    show (⟨f.packethead, f.payload.take f.packethead.len.toNat⟩ : Frame) = f
    rw [h.len]
    simp
  obtain ⟨call, hok, rfl, hread⟩ := h.dispatches hid hreg hframe
  unfold frameAnswers
  rw [hok]
  show [call].flatMap _ = _
  rw [List.flatMap_singleton, hread]

theorem frameAnswers_packets {env : Env} {head tail : UInt8} {rt : Runtime σ} {protocols : Protocols (List UInt8 → List (List UInt8))}
    (h : ∀ i process, protocols.getProtocol i = some process → ∀ bytes, ∀ data ∈ process bytes, IsPacket env head tail data) :
    Answers env head tail (frameAnswers rt env.endian protocols) := by
  intro f data hdata
  unfold frameAnswers at hdata
  cases hlocate : locate rt env.endian ⟨f.packethead, f.payload⟩ with
  | error x =>
    rw [dispatch, hlocate] at hdata
    cases hdata
  | ok l =>
    rw [dispatch_eq protocols hlocate] at hdata
    cases hreg : protocols.getProtocol l.protoId.toInt with
    | none =>
      rw [hreg] at hdata
      cases hdata
    | some process =>
      rw [hreg] at hdata
      obtain ⟨call, hcall, hdata⟩ := List.mem_flatMap.1 hdata
      obtain rfl := List.mem_singleton.1 hcall
      split at hdata
      · exact h _ _ hreg _ data hdata
      · cases hdata

theorem Outgoing.frame_of_bytes {env : Env} {head tail : UInt8} {o o' : Outgoing env head tail} (h : o.bytes = o'.bytes) : o.frame = o'.frame := by
  have hout : ∀ x : Outgoing env head tail, (refScanner env head tail).outputs x.bytes = [x.frame] := by
    intro x
    have hstream : stream [x] = x.bytes := List.append_nil _
    rw [← hstream]
    exact outputs_stream [x]
  have hsame := hout o
  rw [h, hout o'] at hsame
  exact (List.singleton_inj.1 hsame).symm

end Frames

/-- A packet as an application sends it, with a message in it. -/
def Encloses {σ : Type} {ts : List FieldType} (env : Env) (head tail : UInt8) (rt : MessageRuntime σ) (id : BitVec 32) (data : List UInt8)
    (m : Message ts) : Prop :=
  m.Short ∧ ∃ o : Outgoing env head tail, data = o.bytes ∧ o.frame.Conveys env.endian rt id m

section Enclosed
variable {σ : Type} {rt : MessageRuntime σ} {ts : List FieldType} {env : Env} {head tail : UInt8} {id : BitVec 32}

theorem forall₂_frames {packets : List (Outgoing env head tail)} {ms : List (Message ts)}
    (h : List.Forall₂ (Encloses env head tail rt id) (packets.map Outgoing.bytes) ms) :
    List.Forall₂ (fun (f : Frame) m => m.Short ∧ f.Conveys env.endian rt id m) (packets.map Outgoing.frame) ms := by
  rw [List.forall₂_map_left_iff] at h ⊢
  refine h.imp fun x m hx => ?_
  obtain ⟨hm, o, ho, hconveys⟩ := hx
  rw [Outgoing.frame_of_bytes ho]
  exact ⟨hm, hconveys⟩

theorem forall₂_answers {At : List UInt8 → σ → Prop} (hw : rt.Wire At) (hx : rt.Expects) (hts : ts.length ≤ 15)
    (hid : charToInt32 env.endian (int32ToChar env.endian id) = id) {protocols : Protocols (List UInt8 → List (List UInt8))}
    {answer : Message ts → List (List UInt8)}
    (hreg : protocols.getProtocol id.toInt = some fun bytes => answer (Message.parseFromArray rt bytes).2) {frames : List Frame}
    {ms : List (Message ts)} (h : List.Forall₂ (fun (f : Frame) m => m.Short ∧ f.Conveys env.endian rt id m) frames ms) :
    frames.flatMap (frameAnswers rt.toRuntime env.endian protocols) = ms.flatMap answer := by
  induction h with
  | nil => rfl
  | @cons f m frames ms hm _ ih =>
    have hparse := Message.parseFromArray_of_partial (Message.parsePartial_serialize hw hx hts hm.1)
    rw [List.flatMap_cons, List.flatMap_cons, ih, hm.2.answers hid hreg, hparse]

theorem forall₂_computed {ts' : List FieldType} {answer : Message ts → List (List UInt8)} {compute : Message ts → List (Message ts')}
    (h : ∀ m, List.Forall₂ (Encloses env head tail rt id) (answer m) (compute m)) (ms : List (Message ts)) :
    List.Forall₂ (Encloses env head tail rt id) (ms.flatMap answer) (ms.flatMap compute) := by
  induction ms with
  | nil => exact .nil
  | cons m ms ih =>
    rw [List.flatMap_cons, List.flatMap_cons]
    exact List.rel_append (h m) ih

theorem forall₂_gives {π : Type} {At : List UInt8 → σ → Prop} (hw : rt.Wire At) (hx : rt.Expects) (hts : ts.length ≤ 15)
    (hid : charToInt32 env.endian (int32ToChar env.endian id) = id) {protocols : Protocols π} {handler : π}
    (hreg : protocols.getProtocol id.toInt = some handler) {get : FullPacket → C (List (UserCall π))}
    (hget : ∀ p, processCalls (get p) = dispatch rt.toRuntime env.endian protocols p) {packets : List FullPacket} {ms : List (Message ts)}
    (h : List.Forall₂ (fun (f : Frame) m => m.Short ∧ f.Conveys env.endian rt id m) (packets.map FullPacket.frame) ms) :
    List.Forall₂ (fun packet m => Gives rt (get packet) handler m) packets ms := by
  rw [List.forall₂_map_left_iff] at h
  exact h.imp fun packet m hm => hm.2.gives hw hx hts hm.1 hid hreg rfl (hget packet)

end Enclosed

/-! **Remote calls**: where the packets that a client has sent carry messages, and the handler that is
registered for their id answers to each with what it computes from it, then, when the client and
its session are done, the handler has been given the messages the client sent, in order, and the
handler of the client the results, in order: both parsed to the fields that were serialized. -/

/-- What goes in the frame of an `EchoProto`. -/
def echoPayload (m : EchoProto) : List UInt8 := int32ToChar .little 1 ++ m.serialize ByteStream.messageRuntime

/-- It takes less than 128 bytes. -/
def EchoProto.Small (m : EchoProto) : Prop := m.data.length < 128 ∧ (echoPayload m).length < 128

instance (m : EchoProto) : Decidable m.Small := instDecidableAnd

def echoPacket (m : EchoProto) (h : m.Small) : Outgoing zeroEnv 1 2 := smallOutgoing 1 2 (echoPayload m) h.2

theorem echoPacket_encloses {m : EchoProto} (h : m.Small) :
    Encloses zeroEnv 1 2 ByteStream.messageRuntime 1 (echoPacket m h).bytes m := by
  refine ⟨?_, echoPacket m h, rfl, rfl, (echoPacket m h).len_eq, rfl⟩
  intro i v hv
  match i with
  | ⟨0, _⟩ =>
    have hsmall := h.1
    unfold EchoProto.data Message.get at hsmall
    rw [hv] at hsmall
    exact Nat.lt_trans hsmall (by decide)

/-- A handler that sends back what it gets, where that is small. -/
def echo (m : EchoProto) : List EchoProto := if m.Small then [m] else []

def echoAnswer (m : EchoProto) : List (List UInt8) := if h : m.Small then [(echoPacket m h).bytes] else []

theorem echoAnswer_encloses (m : EchoProto) :
    List.Forall₂ (Encloses zeroEnv 1 2 ByteStream.messageRuntime 1) (echoAnswer m) (echo m) := by
  unfold echoAnswer echo
  by_cases h : m.Small
  · rw [dif_pos h, if_pos h]
    exact .cons (echoPacket_encloses h) .nil
  · rw [dif_neg h, if_neg h]
    exact .nil

def echoProcess (bytes : List UInt8) : List (List UInt8) := echoAnswer (Message.parseFromArray ByteStream.messageRuntime bytes).2

def echoProtocols : Protocols (List UInt8 → List (List UInt8)) := Protocols.empty.addProtocol 1 (some echoProcess)

theorem echoProtocols_sends (i : Int) (process : List UInt8 → List (List UInt8)) (h : echoProtocols.getProtocol i = some process)
    (bytes data : List UInt8) (hdata : data ∈ process bytes) : IsPacket zeroEnv 1 2 data := by
  obtain rfl : process = echoProcess := by
    rw [Protocols.getProtocol_eq] at h
    replace h : (if 0 < (1 : Int) ∧ i = 1 then some echoProcess else none) = some process := h
    split at h
    · exact (Option.some.inj h).symm
    · cases h
  unfold echoProcess echoAnswer at hdata
  split at hdata
  · exact ⟨_, List.mem_singleton.1 hdata⟩
  · cases hdata

/-- The messages of the client, of which one has both delimiters in its data. -/
def hello : EchoProto := EchoProto.ofData [104, 105]

def delimiters : EchoProto := EchoProto.ofData [1, 2, 1]

theorem hello_small : hello.Small := by
  decide +kernel

theorem delimiters_small : delimiters.Small := by
  decide +kernel

end Uvnet

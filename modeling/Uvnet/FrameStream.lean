import Uvnet.RecvRun

/- The frame stream from `PacketData` to the callback.

   1. `packetData_eq`: what `PacketData` makes of a packet is a complete valid frame.
   2. `visits_stream`, `outputs_stream`: on a concatenation of such frames the scanner stops at
      frame boundaries only, and delivers every packet in order.
   3. `frame_stream_round_trip`: exactly when `recvdata` gives every packet back. -/
namespace Uvnet
open CMachine StreamScan

/-- A packet an application may send between `head` and `tail`: its `datalen` is the length
of its payload, and its header survives the header codec. -/
structure Outgoing (env : Env) (head tail : UInt8) where
  packet : NetPacket
  payload : List UInt8
  header_eq : packet.header = head
  tail_eq : packet.tail = tail
  len_eq : packet.len = payload.length
  len_le : payload.length ≤ 2 ^ 30
  survives : charToNetPacket env.endian (netPacketToChar env.endian packet) = packet

/-- The concatenation of the `PacketData` encodings. -/
def encodeAll (env : Env) : List (NetPacket × List UInt8) → C (List UInt8)
  | [] => return []
  | (packet, data) :: rest => do
    let (_, bytes) ← packetData env packet (some data)
    let more ← encodeAll env rest
    return bytes ++ more

namespace Outgoing
variable {env : Env} {head tail : UInt8}

/-- The frame the receiver should see: the header with its checksum, and the payload. -/
def frame (o : Outgoing env head tail) : Frame :=
  ⟨{ o.packet with check := expectedCheck env o.payload }, o.payload⟩

def bytes (o : Outgoing env head tail) : List UInt8 :=
  head :: (netPacketToChar env.endian o.frame.packethead ++ (o.payload ++ [tail]))

theorem packetData_eq (o : Outgoing env head tail) :
    packetData env o.packet (some o.payload) = .ok (o.frame.packethead, o.bytes) := by
  have hlen := o.len_le
  have hread : memRead o.payload 0 (toSize o.packet.len) = .ok o.payload := by
    rw [o.len_eq, toSize_natCast (by omega)]
    exact memRead_mid (A := []) (D := []) (by simp) rfl rfl
  have hcheck : (if o.packet.len = 0 then Vector.replicate 16 0 else env.md5 o.payload) =
      expectedCheck env o.payload := by
    simp only [expectedCheck, o.len_eq, Int.natCast_eq_zero]
  simp [packetData, hread, hcheck, frame, bytes, o.header_eq, o.tail_eq]

theorem frameAt (o : Outgoing env head tail) (rest : List UInt8) :
    FrameAt env head tail (o.bytes ++ rest) o.frame := by
  have hsurvives : charToNetPacket env.endian (netPacketToChar env.endian o.frame.packethead) =
      o.frame.packethead := by
    have h := (charToNetPacket_eq_iff env.endian o.packet).1 o.survives
    exact (charToNetPacket_eq_iff env.endian o.frame.packethead).2 h
  have hlen : o.frame.packethead.len = o.payload.length := o.len_eq
  refine ⟨_, rest, ?_, netPacketToChar_length env.endian _, hsurvives, ⟨o.header_eq, o.tail_eq, ?_⟩, ?_, rfl⟩
  · simp [bytes, frame]
  · omega
  · rw [hlen]; rfl

theorem bytes_length (o : Outgoing env head tail) :
    o.bytes.length = netPackageHeadlen + o.frame.packethead.len.toNat + 2 := by
  have hlen : o.frame.packethead.len = o.payload.length := o.len_eq
  simp only [bytes, List.length_cons, List.length_append, netPacketToChar_length, hlen, Int.toNat_natCast,
    List.length_nil]
  omega

theorem small (o : Outgoing env head tail) (rest : List UInt8) : SmallHeader env head tail (o.bytes ++ rest) := by
  intro p hp
  obtain ⟨hdr, body, hcut, hl, hpk, -⟩ := o.frameAt rest
  have hlen : o.frame.packethead.len = o.payload.length := o.len_eq
  have hle := o.len_le
  rw [hp.eq, hcut, List.drop_one, List.tail_cons, List.take_left' hl, hpk]
  omega

end Outgoing

section Stream
variable {env : Env} {head tail : UInt8}

def stream (packets : List (Outgoing env head tail)) : List UInt8 := (packets.map Outgoing.bytes).flatten

theorem stream_cons (o : Outgoing env head tail) (packets : List (Outgoing env head tail)) :
    stream (o :: packets) = o.bytes ++ stream packets := rfl

theorem encodeAll_eq : ∀ packets : List (Outgoing env head tail),
    encodeAll env (packets.map fun o => (o.packet, o.payload)) = .ok (stream packets)
  | [] => rfl
  | o :: packets => by
    simp only [List.map_cons, encodeAll, o.packetData_eq, ok_bind, encodeAll_eq packets, pure_ok, stream_cons]

/-- The scanner's cursor only stops at the end of the stream and in front of whole frames,
whose headers are small. -/
theorem visits_stream : ∀ packets : List (Outgoing env head tail),
    AllVisited (refScanner env head tail) (fun S => SmallHeader env head tail S ∧
      (S = [] ∨ ∃ n f, (refScanner env head tail).verdict S = .move n (some f))) (stream packets)
  | [] => by
    refine .of_wait (Scanner.verdict_nil _) ⟨?_, .inl rfl⟩
    rintro p ⟨hdr, body, h, -⟩
    cases h
  | o :: packets => by
    have hv := refScanner_frame (o.frameAt (stream packets))
    rw [stream_cons]
    refine .of_move hv ⟨o.small _, .inr ⟨_, _, hv⟩⟩ ?_
    rw [← o.bytes_length, List.drop_left]
    exact visits_stream packets

theorem outputs_stream : ∀ packets : List (Outgoing env head tail),
    (refScanner env head tail).outputs (stream packets) = packets.map Outgoing.frame
  | [] => Scanner.outputs_wait _ (Scanner.verdict_nil _)
  | o :: packets => by
    have hv := refScanner_frame (o.frameAt (stream packets))
    rw [stream_cons, Scanner.outputs_move _ hv, ← o.bytes_length, List.drop_left, outputs_stream packets]
    rfl

variable {packets : List (Outgoing env head tail)} {chunks : List (List UInt8)}

/-- The bytes of an unfinished frame received before a chunk, and the chunk, fit an `int`
behind the frame's head and header. -/
def SumFits (sc : Scanner UInt8 Frame) (before : List (List UInt8)) (chunk : List UInt8) : Prop :=
  (sc.rest before.flatten).length + chunk.length ≤ intMax + (netPackageHeadlen + 1)

theorem headers_stream (hstream : chunks.flatten = stream packets) {before after : List (List UInt8)}
    {chunk : List UInt8} (hcut : chunks = before ++ chunk :: after) :
    AllVisited (refScanner env head tail) (HeaderFits env head tail (refScanner env head tail))
      (before.flatten ++ chunk) := by
  have hall : AllVisited (refScanner env head tail) (SmallHeader env head tail) (stream packets) :=
    (visits_stream packets).mono fun S hS => hS.1
  rw [← hstream, hcut, List.flatten_append, List.flatten_cons, ← List.append_assoc] at hall
  exact hall.of_append fun S hS => hS.of_append.fits _

theorem callsFit_stream (hstream : chunks.flatten = stream packets)
    (hsum : ∀ before chunk after, chunks = before ++ chunk :: after → SumFits (refScanner env head tail) before chunk) :
    CallsFit env head tail (refScanner env head tail) chunks :=
  fun before chunk after hcut => ⟨hsum before chunk after hcut, headers_stream hstream hcut⟩

theorem callsFit_packets (ht : tail < 0x80) (hchunks : ∀ chunk ∈ chunks, chunk.length ≤ bufferSize)
    (hstream : chunks.flatten = stream packets) : CallsFit env head tail (charScanner env head tail) chunks := by
  rw [charScanner_eq_ref env head tail ht]
  apply callsFit_of_small hchunks
  rw [hstream]
  exact (visits_stream packets).mono fun _ hS => hS.1

/-- A parser that has received the whole stream of `packets` holds nothing. -/
theorem Synced.drained {s : PacketSync} {calls : List FullPacket} (ht : tail < 0x80)
    (h : Synced env head tail s calls (stream packets)) :
    calls.map FullPacket.frame = packets.map Outgoing.frame ∧ s.truepacketlen = 0 ∧ s.parsetype = .parseNothing := by
  have hout := h.outputs
  obtain ⟨P, hh, hp, -⟩ := h.held
  rw [charScanner_eq_ref env head tail ht] at hout hp
  have hP : P = [] := by
    rcases (visits_stream packets _ _ hp).2 with hP | ⟨n, f, hv⟩
    · exact hP
    · have h' := hp.outputs
      rw [← hout, Scanner.outputs_move _ hv] at h'
      have hlen := congrArg List.length h'
      simp only [List.length_append, List.length_map, Option.toList_some, List.length_cons] at hlen
      omega
  subst hP
  rw [outputs_stream] at hout
  cases hh with
  | idle hi => exact ⟨hout, hi.valid, hi.parsetype⟩

/-- A run that ends has only chunks that fit: the first that does not stops it. -/
theorem sumFits_of_ok {r : PacketSync × List FullPacket} (ht : tail < 0x80)
    (hd : ∀ chunk ∈ chunks, chunk.length ≤ intMax) (hstream : chunks.flatten = stream packets)
    (hrun : recvCalls env (started env head tail) chunks = .ok r) :
    ∀ before chunk after, chunks = before ++ chunk :: after → SumFits (refScanner env head tail) before chunk := by
  intro before
  induction hk : before.length using Nat.strongRecOn generalizing before with
  | _ k ih =>
    intro chunk after hcut
    by_contra hno
    have hfits : CallsFit env head tail (refScanner env head tail) before := by
      -- Every chunk before this one fits, by induction.
      intro before' chunk' after' hcut'
      have hsplit : chunks = before' ++ chunk' :: (after' ++ chunk :: after) := by rw [hcut, hcut']; simp
      have hshorter : before'.length < k := by
        rw [← hk, hcut', List.length_append, List.length_cons]; omega
      exact ⟨ih _ hshorter before' rfl chunk' _ hsplit, headers_stream hstream hsplit⟩
    rw [SumFits] at hno
    rw [← charScanner_eq_ref env head tail ht] at hfits hno
    rw [hcut] at hd hrun
    obtain ⟨x, hx⟩ := recvCalls_overflow hd hfits (by omega)
    rw [hrun] at hx
    cases hx

/-- What a run on the stream of `packets` delivers, whatever the tail. -/
theorem outputs_of_ok {s : PacketSync} {calls : List FullPacket} (hd : ∀ chunk ∈ chunks, chunk.length ≤ intMax)
    (hrun : recvCalls env (started env head tail) chunks = .ok (s, calls)) :
    calls.map FullPacket.frame = (charScanner env head tail).outputs chunks.flatten := by
  rcases recvCalls_spec chunks _ _ _ hd (started_synced env head tail) with ⟨s', calls', hok, hs⟩ |
    ⟨x, -, -, -, herr, -⟩
  · rw [hrun] at hok
    cases hok
    exact hs.outputs
  · rw [hrun] at herr
    cases herr

theorem recvCalls_empty (env : Env) (head tail : UInt8) (h : chunks.flatten = []) :
    ∃ s, recvCalls env (started env head tail) chunks = .ok (s, []) ∧ s.truepacketlen = 0 ∧
      s.parsetype = .parseNothing := by
  have hempty : ∀ chunk ∈ chunks, chunk.length ≤ bufferSize := by
    intro chunk hk
    rw [List.flatten_eq_nil_iff.1 h chunk hk]
    exact Nat.zero_le _
  have hvisits : AllVisited (charScanner env head tail) (SmallHeader env head tail) chunks.flatten := by
    rw [h]
    refine .of_wait (Scanner.verdict_nil _) ?_
    rintro p ⟨hdr, body, hcut, -⟩
    cases hcut
  have hbs : bufferSize ≤ intMax := by decide
  obtain ⟨s, calls, hrun, hs⟩ := recvCalls_ok (fun k hk => Nat.le_trans (hempty k hk) hbs)
    (callsFit_of_small hempty hvisits)
  rw [h] at hs
  have hcalls := hs.outputs
  rw [Scanner.outputs_wait _ (Scanner.verdict_nil _)] at hcalls
  rw [List.map_eq_nil_iff.1 hcalls] at hrun
  obtain ⟨P, hh, hp, -⟩ := hs.held
  have hP : P = [] := List.eq_nil_of_length_eq_zero (Nat.le_zero.1 hp.length_le)
  subst hP
  cases hh with
  | idle hi => exact ⟨s, hrun, hi.valid, hi.parsetype⟩

end Stream

/-- **The frame stream round trip, exactly.** Cut into chunks anywhere, the encodings of
`packets` come back as these packets, with nothing left over, exactly when there is no
packet, or the tail is below 0x80 and no chunk overflows an unfinished frame. -/
theorem frame_stream_round_trip (env : Env) (head tail : UInt8) (packets : List (Outgoing env head tail))
    (chunks : List (List UInt8)) (hd : ∀ chunk ∈ chunks, chunk.length ≤ intMax)
    (hcut : encodeAll env (packets.map fun o => (o.packet, o.payload)) = .ok chunks.flatten) :
    (∃ s calls, recvCalls env (started env head tail) chunks = .ok (s, calls) ∧
      calls.map FullPacket.frame = packets.map Outgoing.frame ∧ s.truepacketlen = 0 ∧
      s.parsetype = .parseNothing) ↔
    packets = [] ∨ (tail < 0x80 ∧ ∀ before chunk after, chunks = before ++ chunk :: after →
      SumFits (refScanner env head tail) before chunk) := by
  have hstream : chunks.flatten = stream packets := by
    rw [encodeAll_eq] at hcut
    exact (Except.ok.inj hcut).symm
  constructor
  · rintro ⟨s, calls, hrun, hcalls, -⟩
    by_cases hp : packets = []
    · exact .inl hp
    right
    have ht : tail < 0x80 := by
      by_contra hdeaf
      have hout := outputs_of_ok hd hrun
      rw [charScanner_deaf env head tail hdeaf, hcalls] at hout
      exact hp (List.map_eq_nil_iff.1 hout)
    exact ⟨ht, sumFits_of_ok ht hd hstream hrun⟩
  · rintro (rfl | ⟨ht, hsum⟩)
    · obtain ⟨s, hrun, hlen, hparse⟩ := recvCalls_empty env head tail hstream
      exact ⟨s, [], hrun, rfl, hlen, hparse⟩
    · have hfits := callsFit_stream hstream hsum
      rw [← charScanner_eq_ref env head tail ht] at hfits
      obtain ⟨s, calls, hrun, hs⟩ := recvCalls_ok hd hfits
      rw [hstream] at hs
      exact ⟨s, calls, hrun, hs.drained ht⟩

/-- An empty packet, between any delimiters. -/
def emptyOutgoing (head tail : UInt8) : Outgoing zeroEnv head tail where
  packet := ⟨0, head, tail, Vector.replicate 16 0, 0, 0, 0⟩
  payload := []
  header_eq := rfl
  tail_eq := rfl
  len_eq := rfl
  len_le := Nat.zero_le _
  survives := by
    refine (charToNetPacket_eq_iff _ _).2 fun x hx => ?_
    obtain rfl : x = 0 := by simpa using hx
    exact ⟨by decide, by decide, by decide⟩

/-- A packet of type 2 with a payload of less than 128 bytes. -/
def smallOutgoing (head tail : UInt8) (payload : List UInt8) (h : payload.length < 128) : Outgoing zeroEnv head tail where
  packet := ⟨0, head, tail, Vector.replicate 16 0, 2, BitVec.ofNat 32 payload.length, 0⟩
  payload := payload
  header_eq := rfl
  tail_eq := rfl
  len_eq := by
    show (BitVec.ofNat 32 _).toInt = _
    rw [BitVec.toInt_ofNat', Int.bmod_def]
    split <;> omega
  len_le := Nat.le_trans (Nat.le_of_lt h) (by decide)
  survives := by
    have hdatalen : ∀ n : Fin 128, byteOf (htonl .little (BitVec.ofNat 32 n)) 2 < 0x80 ∧
        byteOf (htonl .little (BitVec.ofNat 32 n)) 1 < 0x80 ∧ byteOf (htonl .little (BitVec.ofNat 32 n)) 0 < 0x80 := by
      decide +kernel
    refine (charToNetPacket_eq_iff _ _).2 fun x hx => ?_
    simp only [List.mem_cons, List.not_mem_nil, or_false] at hx
    rcases hx with rfl | rfl | rfl | rfl
    · exact ⟨by decide, by decide, by decide⟩
    · exact ⟨by decide, by decide, by decide⟩
    · exact hdatalen ⟨payload.length, h⟩
    · exact ⟨by decide, by decide, by decide⟩

/-- Three packets, of which the first has both delimiters in its payload, and the second none. -/
def threePackets : List (Outgoing zeroEnv 1 2) :=
  [smallOutgoing 1 2 [1, 2, 1, 1, 2] (by decide), emptyOutgoing 1 2, smallOutgoing 1 2 [7] (by decide)]

/-- They are cut inside the first header, and inside the second. -/
def threeChunks : List (List UInt8) :=
  [(stream threePackets).take 20, ((stream threePackets).drop 20).take 40, (stream threePackets).drop 60]

theorem frame_stream_round_trip_split :
    (∃ s calls, recvCalls zeroEnv (started zeroEnv 1 2) threeChunks = .ok (s, calls) ∧
      calls.map FullPacket.frame = threePackets.map Outgoing.frame ∧ s.truepacketlen = 0 ∧ s.parsetype = .parseNothing) ↔
    threePackets = [] ∨ ((2 : UInt8) < 0x80 ∧ ∀ before chunk after, threeChunks = before ++ chunk :: after →
      SumFits (refScanner zeroEnv 1 2) before chunk) :=
  frame_stream_round_trip zeroEnv 1 2 threePackets threeChunks (by decide)
    ((encodeAll_eq threePackets).trans (by decide))

/-- A tail of 0x80: the packet is never delivered. -/
theorem frame_stream_round_trip_fails :
    encodeAll zeroEnv [((emptyOutgoing 1 0x80).packet, (emptyOutgoing 1 0x80).payload)] =
        .ok (emptyOutgoing 1 0x80).bytes ∧
      ¬ ∃ s calls, recvCalls zeroEnv (started zeroEnv 1 0x80) [(emptyOutgoing 1 0x80).bytes] = .ok (s, calls) ∧
        calls.map FullPacket.frame = [(emptyOutgoing 1 0x80).frame] := by
  refine ⟨(encodeAll_eq [emptyOutgoing 1 0x80]).trans (by rfl), ?_⟩
  rintro ⟨s, calls, hrun, hcalls⟩
  have hout := outputs_of_ok (by decide) hrun
  rw [charScanner_deaf zeroEnv 1 0x80 (by decide), hcalls] at hout
  cases hout

end Uvnet

import Uvnet.RecvRun

/- What the packet buffer holds when a frame is delivered.

   `packet_cb_` gets the whole of `thread_packetdata`, of which a frame fills only the front:
   its payload and the tail byte behind it (`Delivered`). What stands behind these is left
   from earlier frames. The parser never shrinks the buffer, and nothing but the block that
   checks a frame hands it out (`recvStep_delivers`, `recvCalls_delivers`). -/
namespace Uvnet
open CMachine

/-- A frame as it is handed out: `datalen` is not negative, the byte behind the payload is
the tail, and the buffer is at least as long as it was allocated with. -/
structure Delivered (tail : UInt8) (p : FullPacket) : Prop where
  nonneg : 0 ≤ p.packethead.len
  closed : p.packetdata[p.packethead.len.toNat]? = some tail
  room : bufferSize ≤ p.packetdata.length

/-- The packet buffer of a parser that looks for `tail`. -/
structure BufferOk (tail : UInt8) (s : PacketSync) : Prop where
  tail_eq : s.tail = tail
  length_eq : s.threadPacketdata.base.length = s.threadPacketdata.len
  room : bufferSize ≤ s.threadPacketdata.len

/-- A call of `recvdata` under way. -/
structure Delivering (tail : UInt8) (c : Recv) : Prop where
  buffer : BufferOk tail c.sync
  calls : ∀ p ∈ c.calls, Delivered tail p

def Flow.state : Flow → Recv
  | .again c => c
  | .ret c => c
  | .go c => c

section Blocks
variable {env : Env} {tail : UInt8} {data : List UInt8} {s s' : PacketSync} {c c' : Recv}

/-- The blocks that work on the scratch buffer leave the other one alone. -/
theorem BufferOk.keep (h : BufferOk tail s) (htail : s'.tail = s.tail)
    (hbuf : s'.threadPacketdata = s.threadPacketdata) : BufferOk tail s' where
  tail_eq := htail.trans h.tail_eq
  length_eq := by rw [hbuf]; exact h.length_eq
  room := by rw [hbuf]; exact h.room

theorem BufferOk.scratch (h : BufferOk tail s) (parsetype : ParseType) (buf : UvBuf) (n headpos : Int)
    (p : NetPacket) : BufferOk tail { s with
      parsetype := parsetype, threadReaddata := buf, truepacketlen := n, headpos := headpos, theNexPacket := p } :=
  h.keep rfl rfl

theorem BufferOk.stored (h : BufferOk tail s) (htail : s'.tail = s.tail)
    (hlen : s'.threadPacketdata.base.length = s.threadPacketdata.base.length)
    (hsize : s'.threadPacketdata.len = s.threadPacketdata.len) : BufferOk tail s' where
  tail_eq := htail.trans h.tail_eq
  length_eq := by rw [hlen, hsize]; exact h.length_eq
  room := by rw [hsize]; exact h.room

theorem Delivering.moved (h : Delivering tail c) (hs : BufferOk tail s) (iret : Int) :
    Delivering tail { c with sync := s, iret := iret } := ⟨hs, h.calls⟩

theorem fill_delivers (h : Delivering tail c) (hf : fill data c = .ok c') : Delivering tail c' := by
  obtain ⟨left, -, hrest⟩ := bind_eq_ok.1 hf
  split at hrest
  · obtain ⟨base, -, hrest⟩ := bind_eq_ok.1 hrest
    obtain ⟨n, -, hrest⟩ := bind_eq_ok.1 hrest
    obtain rfl := Except.ok.inj hrest
    exact ⟨h.buffer.keep rfl rfl, h.calls⟩
  · obtain ⟨base, -, hrest⟩ := bind_eq_ok.1 hrest
    obtain rfl := Except.ok.inj hrest
    exact ⟨h.buffer.keep rfl rfl, h.calls⟩

theorem dropHead_buffer (h : BufferOk tail s) (hd : dropHead s = .ok s') : BufferOk tail s' := by
  obtain ⟨after, -, hrest⟩ := bind_eq_ok.1 hd
  obtain ⟨base, -, hrest⟩ := bind_eq_ok.1 hrest
  obtain ⟨k, -, hrest⟩ := bind_eq_ok.1 hrest
  obtain ⟨n, -, hrest⟩ := bind_eq_ok.1 hrest
  obtain rfl := Except.ok.inj hrest
  exact h.keep rfl rfl

theorem growPacketdata_buffer {buf buf' : UvBuf} {p : NetPacket} (hlen : buf.base.length = buf.len)
    (hroom : bufferSize ≤ buf.len) (hg : growPacketdata env buf p = .ok buf') :
    buf'.base.length = buf'.len ∧ bufferSize ≤ buf'.len := by
  unfold growPacketdata at hg
  split at hg
  · next hsmall =>
    obtain ⟨n, hn, hrest⟩ := bind_eq_ok.1 hg
    obtain ⟨base, hbase, hrest⟩ := bind_eq_ok.1 hrest
    obtain rfl := Except.ok.inj hrest
    obtain ⟨hlength, hwant⟩ := realloc_length hbase
    refine ⟨hlength, ?_⟩
    have hbound : (bufferSize : Int) = 10240 := rfl
    have hbig : buf.len < toSize n := by
      -- The size asked for is the one compared with, for it did not wrap.
      have hsum : sizeAdd (toSize p.len) 1 ≤ toSize n := by
        obtain ⟨rfl, hmax⟩ := cint_eq_ok hn
        simp only [sizeAdd, toSize, intMax] at *
        omega
      exact Nat.lt_of_lt_of_le hsmall hsum
    exact Nat.le_trans hroom (Nat.le_of_lt hbig)
  · obtain rfl := Except.ok.inj hg
    exact ⟨hlen, hroom⟩

theorem takeAhead_length {dst out : List UInt8} {got : Int} (ht : takeAhead s dst got = .ok out) :
    out.length = dst.length := by
  unfold takeAhead at ht
  split at ht
  · exact memcpy_length ht
  · rw [← Except.ok.inj ht]

theorem acceptHead_delivers {p : NetPacket} {f : Flow} (h : Delivering tail c)
    (ha : acceptHead env c p = .ok f) : Delivering tail f.state := by
  obtain ⟨buf, hbuf, hrest⟩ := bind_eq_ok.1 ha
  obtain ⟨after, -, hrest⟩ := bind_eq_ok.1 hrest
  obtain ⟨n, -, hrest⟩ := bind_eq_ok.1 hrest
  obtain ⟨base, hbase, hrest⟩ := bind_eq_ok.1 hrest
  obtain rfl := Except.ok.inj hrest
  obtain ⟨hlen, hroom⟩ := growPacketdata_buffer h.buffer.length_eq h.buffer.room hbuf
  exact ⟨⟨h.buffer.tail_eq, (takeAhead_length hbase).trans hlen, hroom⟩, h.calls⟩

theorem parseHead_delivers {f : Flow} (h : Delivering tail c) (hp : parseHead env data c = .ok f) :
    Delivering tail f.state := by
  obtain ⟨c₁, hfill, hrest⟩ := bind_eq_ok.1 hp
  have h₁ := fill_delivers h hfill
  obtain ⟨found, -, hrest⟩ := bind_eq_ok.1 hrest
  split at hrest
  · obtain rfl := Except.ok.inj hrest
    exact h₁.moved (h₁.buffer.scratch _ _ _ _ _) _
  · next pos =>
    obtain ⟨after, -, hrest⟩ := bind_eq_ok.1 hrest
    split at hrest
    · -- too few bytes for a header
      split at hrest
      · obtain ⟨n, -, hrest⟩ := bind_eq_ok.1 hrest
        obtain ⟨base, -, hrest⟩ := bind_eq_ok.1 hrest
        obtain rfl := Except.ok.inj hrest
        exact h₁.moved (h₁.buffer.scratch _ _ _ _ _) _
      · obtain rfl := Except.ok.inj hrest
        exact h₁.moved (h₁.buffer.scratch _ _ _ _ _) _
    · obtain ⟨chars, -, hrest⟩ := bind_eq_ok.1 hrest
      obtain ⟨p, -, hrest⟩ := bind_eq_ok.1 hrest
      split at hrest
      · obtain ⟨s', hdrop, hrest⟩ := bind_eq_ok.1 hrest
        obtain rfl := Except.ok.inj hrest
        exact h₁.moved (dropHead_buffer (h₁.buffer.scratch _ _ _ _ _) hdrop) _
      · refine acceptHead_delivers ?_ hrest
        exact h₁.moved (h₁.buffer.scratch _ _ _ _ _) _

theorem rollback_buffer (h : BufferOk tail s) (hr : rollback env s = .ok s') : BufferOk tail s' := by
  obtain ⟨inside, -, hrest⟩ := bind_eq_ok.1 hr
  split at hrest
  · obtain ⟨s₁, hdrop, hrest⟩ := bind_eq_ok.1 hrest
    obtain rfl := Except.ok.inj hrest
    exact (dropHead_buffer h hdrop).keep rfl rfl
  · obtain ⟨buf, -, hrest⟩ := bind_eq_ok.1 hrest
    obtain ⟨base, -, hrest⟩ := bind_eq_ok.1 hrest
    obtain ⟨n, -, hrest⟩ := bind_eq_ok.1 hrest
    obtain ⟨base', -, hrest⟩ := bind_eq_ok.1 hrest
    obtain ⟨m, -, hrest⟩ := bind_eq_ok.1 hrest
    obtain rfl := Except.ok.inj hrest
    exact h.keep rfl rfl

theorem keepFollowing_keeps (hk : keepFollowing s = .ok s') :
    s'.tail = s.tail ∧ s'.theNexPacket = s.theNexPacket ∧ s'.threadPacketdata = s.threadPacketdata := by
  obtain ⟨inside, -, hrest⟩ := bind_eq_ok.1 hk
  split at hrest
  · obtain ⟨base, -, hrest⟩ := bind_eq_ok.1 hrest
    obtain rfl := Except.ok.inj hrest
    exact ⟨rfl, rfl, rfl⟩
  · obtain rfl := Except.ok.inj hrest
    exact ⟨rfl, rfl, rfl⟩

theorem deliver_delivers {f : Flow} (h : Delivering tail c)
    (hnext : Delivered tail ⟨c.sync.theNexPacket, c.sync.threadPacketdata.base⟩)
    (hd : deliver c = .ok f) : Delivering tail f.state := by
  obtain ⟨s, hkeep, hrest⟩ := bind_eq_ok.1 hd
  obtain ⟨htail, hpacket, hbuf⟩ := keepFollowing_keeps hkeep
  obtain rfl := Except.ok.inj hrest
  refine ⟨h.buffer.keep htail hbuf, fun p hp => ?_⟩
  rcases List.mem_append.1 hp with hp | hp
  · exact h.calls p hp
  · split at hp
    · obtain rfl := List.mem_singleton.1 hp
      rw [hpacket, hbuf]
      exact hnext
    · cases hp

theorem checkFrame_delivers {f : Flow} (h : Delivering tail c) (hc : checkFrame env c = .ok f) :
    Delivering tail f.state := by
  obtain ⟨last, hlast, hrest⟩ := bind_eq_ok.1 hc
  split at hrest
  · obtain ⟨s, hroll, hrest⟩ := bind_eq_ok.1 hrest
    obtain rfl := Except.ok.inj hrest
    exact ⟨rollback_buffer h.buffer hroll, h.calls⟩
  · next hchar =>
    obtain ⟨md5str, -, hrest⟩ := bind_eq_ok.1 hrest
    split at hrest
    · obtain ⟨s, hroll, hrest⟩ := bind_eq_ok.1 hrest
      obtain rfl := Except.ok.inj hrest
      exact ⟨rollback_buffer h.buffer hroll, h.calls⟩
    · obtain ⟨hnonneg, hin, rfl⟩ := memRead_made hlast
      have hlt : c.sync.theNexPacket.len.toNat < c.sync.threadPacketdata.base.length := by omega
      rw [List.drop_eq_getElem_cons hlt, List.take_succ_cons, List.headD_cons, not_not,
        h.buffer.tail_eq] at hchar
      refine deliver_delivers h ⟨hnonneg, ?_, ?_⟩ hrest
      · rw [List.getElem?_eq_getElem hlt, ((charEq_iff _ _).1 hchar).1]
      · rw [h.buffer.length_eq]
        exact h.buffer.room

theorem collect_delivers {f : Flow} (h : Delivering tail c) (hc : collect env data c = .ok f) :
    Delivering tail f.state := by
  obtain ⟨n, -, hrest⟩ := bind_eq_ok.1 hc
  split at hrest
  · obtain ⟨left, -, hrest⟩ := bind_eq_ok.1 hrest
    obtain ⟨sum, -, hrest⟩ := bind_eq_ok.1 hrest
    split at hrest
    · obtain ⟨base, hbase, hrest⟩ := bind_eq_ok.1 hrest
      obtain rfl := Except.ok.inj hrest
      exact ⟨h.buffer.stored rfl (memcpy_length hbase) rfl, h.calls⟩
    · obtain ⟨need, -, hrest⟩ := bind_eq_ok.1 hrest
      obtain ⟨base, hbase, hrest⟩ := bind_eq_ok.1 hrest
      obtain ⟨iret, -, hrest⟩ := bind_eq_ok.1 hrest
      refine checkFrame_delivers ?_ hrest
      exact ⟨h.buffer.stored rfl (memcpy_length hbase) rfl, h.calls⟩
  · exact checkFrame_delivers h hrest

end Blocks

section Loop
variable {env : Env} {tail : UInt8} {data : List UInt8} {c c' : Recv}

/-- **One pass** of the loop hands out whole frames. -/
theorem recvStep_delivers {f : Flow} (h : Delivering tail c) (hs : recvStep env data c = .ok f) :
    Delivering tail f.state := by
  unfold recvStep at hs
  split at hs
  · exact collect_delivers h hs
  · obtain ⟨f₁, hparse, hrest⟩ := bind_eq_ok.1 hs
    have h₁ := parseHead_delivers h hparse
    cases f₁ with
    | go c₁ => exact collect_delivers h₁ hrest
    | again c₁ =>
      obtain rfl := Except.ok.inj hrest
      exact h₁
    | ret c₁ =>
      obtain rfl := Except.ok.inj hrest
      exact h₁

theorem recvLoop_delivers (fuel : Nat) (h : Delivering tail c) (hl : recvLoop env data fuel c = .ok c') :
    Delivering tail c' := by
  induction fuel generalizing c with
  | zero => cases hl
  | succ fuel ih =>
    unfold recvLoop at hl
    split at hl
    · obtain ⟨f, hstep, hrest⟩ := bind_eq_ok.1 hl
      have hf := recvStep_delivers h hstep
      cases f with
      | again c₁ => exact ih hf hrest
      | ret c₁ =>
        obtain rfl := Except.ok.inj hrest
        exact hf
      | go c₁ =>
        obtain rfl := Except.ok.inj hrest
        exact hf
    · obtain rfl := Except.ok.inj hl
      exact h

theorem started_buffer (env : Env) (head tail : UInt8) : BufferOk tail (started env head tail) where
  tail_eq := rfl
  length_eq := env.buffer_base
  room := Nat.le_refl _

/-- **Every frame a run of calls delivers** is whole, and has its tail behind it. -/
theorem recvCalls_delivers {chunks : List (List UInt8)} {s s' : PacketSync} {calls : List FullPacket}
    (h : BufferOk tail s) (hrun : recvCalls env s chunks = .ok (s', calls)) :
    BufferOk tail s' ∧ ∀ p ∈ calls, Delivered tail p := by
  induction chunks generalizing s s' calls with
  | nil =>
    obtain ⟨rfl, rfl⟩ := Prod.mk.inj (Except.ok.inj hrun)
    exact ⟨h, fun p hp => absurd hp List.not_mem_nil⟩
  | cons chunk rest ih =>
    obtain ⟨c, hcall, hrest⟩ := bind_eq_ok.1 hrun
    obtain ⟨⟨s₁, more⟩, hmore, hrest⟩ := bind_eq_ok.1 hrest
    obtain ⟨rfl, rfl⟩ := Prod.mk.inj (Except.ok.inj hrest)
    have hc := recvLoop_delivers _ ⟨h, fun p hp => absurd hp List.not_mem_nil⟩ hcall
    obtain ⟨hs, hcalls⟩ := ih hc.buffer hmore
    refine ⟨hs, fun p hp => ?_⟩
    rcases List.mem_append.1 hp with hp | hp
    · exact hc.calls p hp
    · exact hcalls p hp

end Loop

end Uvnet

import Uvnet.NetBase

/- The header codec between hosts of different byte order.

   `Int32ToChar` swaps the bytes with `htonl` and then writes the result from its
   most significant byte on: the swap is undone on a little-endian host, which
   writes its least significant byte first, and only a big-endian host writes the
   layout of the comments. A header of small bytes passes between two hosts
   exactly when their byte orders agree or every field reads the same both ways
   (`header_between_hosts`). -/
namespace Uvnet

/-- All four bytes of the word are below 0x80. -/
def SmallBytes (x : BitVec 32) : Prop :=
  byteOf x 3 < 0x80 ∧ byteOf x 2 < 0x80 ∧ byteOf x 1 < 0x80 ∧ byteOf x 0 < 0x80

/-- All four bytes of each 32-bit field are below 0x80. -/
def NetPacket.SmallBytes (p : NetPacket) : Prop :=
  ∀ x ∈ [p.version, p.type, p.datalen, p.reserve], Uvnet.SmallBytes x

instance (x : BitVec 32) : Decidable (SmallBytes x) :=
  inferInstanceAs (Decidable (byteOf x 3 < 0x80 ∧ byteOf x 2 < 0x80 ∧ byteOf x 1 < 0x80 ∧ byteOf x 0 < 0x80))

/-- Every 32-bit field reads the same with its bytes in reverse. -/
def NetPacket.ReadsBothWays (p : NetPacket) : Prop :=
  ∀ x ∈ [p.version, p.type, p.datalen, p.reserve], htonl .little x = x

theorem SmallBytes.htonl {x : BitVec 32} (h : SmallBytes x) (e : Endian) : SmallBytes (htonl e x) := by
  cases e with
  | big => exact h
  | little =>
    obtain ⟨h0, h1, h2, h3⟩ := byteOf_ofBytes (byteOf x 0) (byteOf x 1) (byteOf x 2) (byteOf x 3)
    obtain ⟨s3, s2, s1, s0⟩ := h
    refine ⟨?_, ?_, ?_, ?_⟩
    · rw [Uvnet.htonl, h3]; exact s0
    · rw [Uvnet.htonl, h2]; exact s1
    · rw [Uvnet.htonl, h1]; exact s2
    · rw [Uvnet.htonl, h0]; exact s3

/-- No sign extension borrows from a small byte, so only the two swaps remain. -/
theorem charToInt32_between {x : BitVec 32} (h : SmallBytes x) (e e' : Endian) :
    charToInt32 e' (int32ToChar e x) = htonl e' (htonl e x) := by
  have hsum := (charSum_eq (byteOf (htonl e x) 3) (byteOf (htonl e x) 2) (byteOf (htonl e x) 1)
    (byteOf (htonl e x) 0)).2 (h.htonl e).2
  rw [ofBytes_byteOf] at hsum
  exact congrArg (htonl e') hsum

/-- The swaps of two hosts cancel when the hosts agree, and else are one byte swap. -/
theorem htonl_between (e e' : Endian) (x : BitVec 32) :
    htonl e' (htonl e x) = x ↔ e = e' ∨ htonl .little x = x := by
  by_cases he : e = e'
  · subst he
    simp [htonl_htonl]
  · have hswap : htonl e' (htonl e x) = htonl .little x := by
      cases e <;> cases e' <;> first | exact absurd rfl he | rfl
    simp [hswap, he]

/-- A record with its 32-bit fields replaced is the same record when the fields are. -/
theorem NetPacket.fields_eq_iff (p : NetPacket) (v t d r : BitVec 32) :
    { p with version := v, type := t, datalen := d, reserve := r } = p ↔
      v = p.version ∧ t = p.type ∧ d = p.datalen ∧ r = p.reserve := by
  cases p
  simp

/-- **Which headers pass between two hosts.** A header whose fields have small
    bytes only, encoded on one host and decoded on another, comes back exactly when
    the two hosts have the same byte order or every field reads the same both ways. -/
theorem header_between_hosts (e e' : Endian) (p : NetPacket) (h : p.SmallBytes) :
    charToNetPacket e' (netPacketToChar e p) = p ↔ e = e' ∨ p.ReadsBothWays := by
  have hfields := charToNetPacket_netPacketToChar e e' p []
  have field : ∀ x ∈ [p.version, p.type, p.datalen, p.reserve],
      (charToInt32 e' (int32ToChar e x) = x ↔ e = e' ∨ htonl .little x = x) := by
    intro x hx
    rw [charToInt32_between (h x hx), htonl_between]
  rw [List.append_nil] at hfields
  rw [hfields, NetPacket.fields_eq_iff]
  constructor
  · rintro ⟨hv, ht, hd, hr⟩
    by_cases he : e = e'
    · exact .inl he
    · right
      intro x hx
      have hx' : charToInt32 e' (int32ToChar e x) = x := by
        simp only [List.mem_cons, List.not_mem_nil, or_false] at hx
        rcases hx with rfl | rfl | rfl | rfl
        · exact hv
        · exact ht
        · exact hd
        · exact hr
      exact ((field x hx).1 hx').resolve_left he
  · intro hsame
    have back : ∀ x ∈ [p.version, p.type, p.datalen, p.reserve], charToInt32 e' (int32ToChar e x) = x := by
      intro x hx
      apply (field x hx).2
      exact hsame.imp_right fun hboth => hboth x hx
    exact ⟨back p.version (by simp), back p.type (by simp), back p.datalen (by simp), back p.reserve (by simp)⟩

/-- A version 1 frame of type 2 with eight payload bytes. -/
def ping : NetPacket := ⟨1, 1, 2, Vector.replicate 16 0, 2, 8, 0⟩

theorem ping_smallBytes : ping.SmallBytes := by
  intro x hx
  simp only [ping, List.mem_cons, List.not_mem_nil, or_false] at hx
  rcases hx with rfl | rfl | rfl | rfl <;> decide

theorem header_between_hosts_ping :
    charToNetPacket .big (netPacketToChar .little ping) = ping ↔ Endian.little = Endian.big ∨ ping.ReadsBothWays :=
  header_between_hosts .little .big ping ping_smallBytes

/-- The version a little-endian host sends as 1 arrives at a big-endian host as 2^24. -/
theorem header_between_hosts_fails :
    ¬ ∀ (e e' : Endian) (p : NetPacket), p.SmallBytes → charToNetPacket e' (netPacketToChar e p) = p := by
  intro h
  have hv := congrArg NetPacket.version (h .little .big ping ping_smallBytes)
  revert hv
  decide

end Uvnet

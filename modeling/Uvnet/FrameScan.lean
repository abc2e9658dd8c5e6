import Uvnet.StreamScan
import Uvnet.PacketSync

/- The reference scanner of the frame stream.

   At its cursor it skips to the next byte equal to HEAD, waits for 34 more
   bytes, decodes them, and moves on by one byte if the header is not accepted;
   otherwise it waits for `datalen + 1` more bytes, moves on by one byte if the
   last of them is not the tail or the digest differs, and else delivers the
   frame and moves past it. This is an instance of the incremental scanners of
   `StreamScan`, so it does not depend on how the stream is cut.

   The scanner takes the tail comparison as a parameter: `refScanner` compares
   bytes, `charScanner` compares as the compiled code does (a signed `char` with
   an `unsigned char`). The two are one scanner for tails below 0x80
   (`charScanner_eq_ref`); from 0x80 on the second delivers nothing
   (`charScanner_deaf`). -/
namespace Uvnet
open CMachine StreamScan

/-- A frame as the callback sees it: the header and the `datalen` payload bytes. -/
structure Frame where
  packethead : NetPacket
  payload : List UInt8
  deriving DecidableEq

/-- The frame a callback is handed. -/
def FullPacket.frame (c : FullPacket) : Frame :=
  ⟨c.packethead, c.packetdata.take c.packethead.len.toNat⟩

/-- The digest expected in `check`: all zero for the empty payload. -/
def expectedCheck (env : Env) (payload : List UInt8) : Vector UInt8 16 :=
  if payload.length = 0 then Vector.replicate 16 0 else env.md5 payload

/-- The validity test on a decoded header. -/
def Accepted (head tail : UInt8) (p : NetPacket) : Prop :=
  p.header = head ∧ p.tail = tail ∧ 0 ≤ p.len

instance (head tail : UInt8) (p : NetPacket) : Decidable (Accepted head tail p) :=
  inferInstanceAs (Decidable (_ ∧ _ ∧ _))

/-- A head byte with an accepted header behind it stands in front of the cursor. -/
def Candidate (env : Env) (head tail : UInt8) (s : List UInt8) (p : NetPacket) : Prop :=
  ∃ hdr body, s = head :: (hdr ++ body) ∧ hdr.length = netPackageHeadlen ∧
    charToNetPacket env.endian hdr = p ∧ Accepted head tail p

/-- The complete valid frame `f` stands in front of the cursor. -/
def FrameAt (env : Env) (head tail : UInt8) (s : List UInt8) (f : Frame) : Prop :=
  ∃ hdr rest, s = head :: (hdr ++ (f.payload ++ tail :: rest)) ∧ hdr.length = netPackageHeadlen ∧
    charToNetPacket env.endian hdr = f.packethead ∧ Accepted head tail f.packethead ∧
    f.payload.length = f.packethead.len.toNat ∧ f.packethead.check = expectedCheck env f.payload

/-- The verdict once header `p` is accepted and `body` follows it. -/
def bodyVerdict (env : Env) (tailOk : UInt8 → Bool) (p : NetPacket) (body : List UInt8) : Verdict Frame :=
  let d := p.len.toNat
  if body.length < d + 1 then .wait
  else if tailOk (body.getD d 0) = true ∧ p.check = expectedCheck env (body.take d) then
    .move (netPackageHeadlen + d + 2) (some ⟨p, body.take d⟩)
  else .move 1 none

/-- The verdict on the bytes in front of the cursor. -/
def frameVerdict (env : Env) (head tail : UInt8) (tailOk : UInt8 → Bool) : List UInt8 → Verdict Frame
  | [] => .wait
  | b :: s =>
    if b ≠ head then .move 1 none
    else if s.length < netPackageHeadlen then .wait
    else
      let p := charToNetPacket env.endian (s.take netPackageHeadlen)
      if Accepted head tail p then bodyVerdict env tailOk p (s.drop netPackageHeadlen)
      else .move 1 none

theorem Candidate.eq {env : Env} {head tail : UInt8} {s : List UInt8} {p : NetPacket}
    (h : Candidate env head tail s p) :
    p = charToNetPacket env.endian ((s.drop 1).take netPackageHeadlen) := by
  obtain ⟨hdr, body, rfl, hl, rfl, -⟩ := h
  rw [List.drop_one, List.tail_cons, List.take_left' hl]

section Verdict
variable {env : Env} {head tail : UInt8} {tailOk : UInt8 → Bool}

theorem bodyVerdict_cases {p : NetPacket} {body : List UInt8} {n : Nat} {o : Option Frame}
    (h : bodyVerdict env tailOk p body = .move n o) :
    p.len.toNat + 1 ≤ body.length ∧
      ((n = 1 ∧ o = none) ∨ (n = netPackageHeadlen + p.len.toNat + 2 ∧ o = some ⟨p, body.take p.len.toNat⟩)) := by
  simp only [bodyVerdict] at h
  split at h
  · cases h
  · next hlen =>
    refine ⟨by omega, ?_⟩
    split at h
    · cases h; exact .inr ⟨rfl, rfl⟩
    · cases h; exact .inl ⟨rfl, rfl⟩

theorem bodyVerdict_complete {p : NetPacket} {F : List UInt8} (hF : F.length = p.len.toNat) (b : UInt8)
    (t : List UInt8) :
    bodyVerdict env tailOk p (F ++ b :: t) =
      if tailOk b = true ∧ p.check = expectedCheck env F then
        .move (netPackageHeadlen + F.length + 2) (some ⟨p, F⟩)
      else .move 1 none := by
  simp [bodyVerdict, ← hF]

theorem bodyVerdict_stable {p : NetPacket} {body : List UInt8} {n : Nat} {o : Option Frame}
    (h : bodyVerdict env tailOk p body = .move n o) (t : List UInt8) :
    bodyVerdict env tailOk p (body ++ t) = .move n o := by
  have hlen := (bodyVerdict_cases h).1
  have hget : (body ++ t).getD p.len.toNat 0 = body.getD p.len.toNat 0 := by
    rw [List.getD_eq_getElem?_getD, List.getElem?_append_left (by omega), List.getD_eq_getElem?_getD]
  have htake : (body ++ t).take p.len.toNat = body.take p.len.toNat :=
    List.take_append_of_le_length (by omega)
  have hlen' : ¬ (body ++ t).length < p.len.toNat + 1 := by rw [List.length_append]; omega
  have hlen'' : ¬ body.length < p.len.toNat + 1 := by omega
  simp only [bodyVerdict, if_neg hlen''] at h
  simp only [bodyVerdict, if_neg hlen', hget, htake]
  exact h

theorem frameVerdict_skip {b : UInt8} (hb : b ≠ head) (s : List UInt8) :
    frameVerdict env head tail tailOk (b :: s) = .move 1 none := by
  simp only [frameVerdict, if_pos hb]

theorem frameVerdict_short {s : List UInt8} (hs : s.length < netPackageHeadlen) :
    frameVerdict env head tail tailOk (head :: s) = .wait := by
  simp [frameVerdict, hs]

theorem frameVerdict_header {hdr body : List UInt8} (hl : hdr.length = netPackageHeadlen) :
    frameVerdict env head tail tailOk (head :: (hdr ++ body)) =
      if Accepted head tail (charToNetPacket env.endian hdr) then
        bodyVerdict env tailOk (charToNetPacket env.endian hdr) body
      else .move 1 none := by
  have hlen : ¬ (hdr ++ body).length < netPackageHeadlen := by rw [List.length_append]; omega
  simp only [frameVerdict, ne_eq, not_true_eq_false, if_false, if_neg hlen,
    List.take_left' hl, List.drop_left' hl]

theorem frameVerdict_cases {s : List UInt8} {n : Nat} {o : Option Frame}
    (h : frameVerdict env head tail tailOk s = .move n o) :
    (∃ b r, s = b :: r ∧ b ≠ head ∧ n = 1 ∧ o = none) ∨
    (∃ hdr body, s = head :: (hdr ++ body) ∧ hdr.length = netPackageHeadlen ∧
      ¬ Accepted head tail (charToNetPacket env.endian hdr) ∧ n = 1 ∧ o = none) ∨
    (∃ hdr body, s = head :: (hdr ++ body) ∧ hdr.length = netPackageHeadlen ∧
      Accepted head tail (charToNetPacket env.endian hdr) ∧
      bodyVerdict env tailOk (charToNetPacket env.endian hdr) body = .move n o) := by
  cases s with
  | nil => cases h
  | cons b r =>
    by_cases hb : b = head
    · subst hb
      by_cases hr : r.length < netPackageHeadlen
      · rw [frameVerdict_short hr] at h; cases h
      · have hl : (r.take netPackageHeadlen).length = netPackageHeadlen :=
          List.length_take_of_le (by omega)
        have hcut : b :: r = b :: (r.take netPackageHeadlen ++ r.drop netPackageHeadlen) := by
          rw [List.take_append_drop]
        rw [hcut, frameVerdict_header hl] at h
        split at h
        · next ha => exact .inr (.inr ⟨_, _, hcut, hl, ha, h⟩)
        · next ha => cases h; exact .inr (.inl ⟨_, _, hcut, hl, ha, rfl, rfl⟩)
    · rw [frameVerdict_skip hb] at h
      cases h
      exact .inl ⟨b, r, rfl, hb, rfl, rfl⟩

theorem frameVerdict_wait {s : List UInt8} (h : frameVerdict env head tail tailOk s = .wait) :
    s.length ≤ netPackageHeadlen ∨
      ∃ hdr body, s = head :: (hdr ++ body) ∧ hdr.length = netPackageHeadlen ∧
        Accepted head tail (charToNetPacket env.endian hdr) ∧
        body.length ≤ (charToNetPacket env.endian hdr).len.toNat := by
  cases s with
  | nil => exact .inl (Nat.zero_le _)
  | cons b r =>
    by_cases hr : r.length < netPackageHeadlen
    · left
      rw [List.length_cons]
      omega
    · right
      have hl : (r.take netPackageHeadlen).length = netPackageHeadlen :=
        List.length_take_of_le (by omega)
      have hcut : b :: r = b :: (r.take netPackageHeadlen ++ r.drop netPackageHeadlen) := by
        rw [List.take_append_drop]
      by_cases hb : b = head
      · subst hb
        rw [hcut, frameVerdict_header hl] at h
        split at h
        · next ha =>
          refine ⟨_, _, hcut, hl, ha, ?_⟩
          rw [bodyVerdict] at h
          split at h
          · next hshort => omega
          · split at h <;> cases h
        · cases h
      · rw [frameVerdict_skip hb] at h
        cases h

theorem frameVerdict_bound {s : List UInt8} {n : Nat} {o : Option Frame}
    (h : frameVerdict env head tail tailOk s = .move n o) : 0 < n ∧ n ≤ s.length := by
  rcases frameVerdict_cases h with ⟨b, r, rfl, -, rfl, -⟩ | ⟨hdr, body, rfl, -, -, rfl, -⟩ |
    ⟨hdr, body, rfl, hl, -, hv⟩
  · simp
  · simp
  · obtain ⟨hlen, ⟨rfl, -⟩ | ⟨rfl, -⟩⟩ := bodyVerdict_cases hv
    · simp
    · simp only [List.length_cons, List.length_append]; omega

theorem frameVerdict_stable {s : List UInt8} {n : Nat} {o : Option Frame} (t : List UInt8)
    (h : frameVerdict env head tail tailOk s = .move n o) :
    frameVerdict env head tail tailOk (s ++ t) = .move n o := by
  rcases frameVerdict_cases h with ⟨b, r, rfl, hb, rfl, rfl⟩ | ⟨hdr, body, rfl, hl, ha, rfl, rfl⟩ |
    ⟨hdr, body, rfl, hl, ha, hv⟩
  · exact frameVerdict_skip hb _
  · rw [List.cons_append, List.append_assoc, frameVerdict_header hl, if_neg ha]
  · rw [List.cons_append, List.append_assoc, frameVerdict_header hl, if_pos ha]
    exact bodyVerdict_stable hv t

end Verdict

/-- The frame scanner with delimiters `head` and `tail` and the tail test `tailOk`. -/
def frameScanner (env : Env) (head tail : UInt8) (tailOk : UInt8 → Bool) : Scanner UInt8 Frame where
  verdict := frameVerdict env head tail tailOk
  bound := frameVerdict_bound
  stable := frameVerdict_stable

/-- The reference scanner: the frame's last byte is the tail. -/
def refScanner (env : Env) (head tail : UInt8) : Scanner UInt8 Frame :=
  frameScanner env head tail (· == tail)

/-- The scanner with the tail compared as the code compares it. -/
def charScanner (env : Env) (head tail : UInt8) : Scanner UInt8 Frame :=
  frameScanner env head tail (charEq · tail)

/-! The two tail tests. -/

theorem charEq_iff (c u : UInt8) : charEq c u = true ↔ c = u ∧ u < 0x80 := by
  have hc := c.toNat_lt
  have hu := u.toNat_lt
  have e : (0x80 : UInt8).toNat = 128 := rfl
  rw [charEq, beq_iff_eq, BitVec.toInt_eq_toNat_cond, schar_toNat, ← UInt8.toNat_inj,
    UInt8.lt_iff_toNat_lt, e]
  split <;> split <;> omega

theorem charScanner_eq_ref (env : Env) (head tail : UInt8) (h : tail < 0x80) :
    charScanner env head tail = refScanner env head tail := by
  have : (charEq · tail) = (· == tail) := by
    funext c
    rw [Bool.eq_iff_iff, charEq_iff]
    simp [h]
  rw [charScanner, refScanner, this]

section Scan
variable {env : Env} {head tail : UInt8} {tailOk : UInt8 → Bool}

theorem frame_length {s : List UInt8} {n : Nat} {f : Frame}
    (h : frameVerdict env head tail tailOk s = .move n (some f)) :
    n = netPackageHeadlen + f.packethead.len.toNat + 2 ∧ f.payload.length = f.packethead.len.toNat := by
  rcases frameVerdict_cases h with ⟨b, r, -, -, -, ho⟩ | ⟨hdr, body, -, -, -, -, ho⟩ |
    ⟨hdr, body, -, -, -, hv⟩
  · cases ho
  · cases ho
  · obtain ⟨hlen, ⟨-, ho⟩ | ⟨rfl, ho⟩⟩ := bodyVerdict_cases hv
    · cases ho
    · cases ho
      refine ⟨rfl, ?_⟩
      rw [List.length_take]
      simp only
      omega

theorem refScanner_frame {s : List UInt8} {f : Frame} (h : FrameAt env head tail s f) :
    (refScanner env head tail).verdict s =
      .move (netPackageHeadlen + f.packethead.len.toNat + 2) (some f) := by
  obtain ⟨hdr, rest, rfl, hl, hp, hacc, hpay, hcheck⟩ := h
  rw [← hp] at hacc hpay hcheck
  refine (frameVerdict_header hl).trans ((if_pos hacc).trans ?_)
  rw [bodyVerdict_complete hpay, if_pos ⟨beq_self_eq_true tail, hcheck⟩, hpay, hp]

theorem outputs_short (s : List UInt8) (h : s.length < netPackageHeadlen + 2) :
    (frameScanner env head tail tailOk).outputs s = [] := by
  induction s using (frameScanner env head tail tailOk).scan_induction with
  | wait s hv => exact Scanner.outputs_wait _ hv
  | move s n o hv ih =>
    rw [Scanner.outputs_move _ hv, ih (by rw [List.length_drop]; omega)]
    cases o with
    | none => rfl
    | some f =>
      have := (frame_length hv).1
      have := (frameVerdict_bound hv).2
      omega

theorem path_garbage {G : List UInt8} (hG : head ∉ G) (s : List UInt8) :
    Path (frameScanner env head tail tailOk) (G ++ s) [] s := by
  induction G with
  | nil => exact .refl s
  | cons b G ih =>
    have hb : b ≠ head := fun e => hG (by simp [e])
    exact .skip (frameVerdict_skip hb (G ++ s)) (ih (fun hm => hG (List.mem_cons_of_mem b hm)))

theorem outputs_deaf (hdeaf : ∀ b, tailOk b = false) (s : List UInt8) :
    (frameScanner env head tail tailOk).outputs s = [] := by
  induction s using (frameScanner env head tail tailOk).scan_induction with
  | wait s hv => exact Scanner.outputs_wait _ hv
  | move s n o hv ih =>
    rw [Scanner.outputs_move _ hv, ih]
    rcases frameVerdict_cases hv with ⟨b, r, -, -, -, rfl⟩ | ⟨hdr, body, -, -, -, -, rfl⟩ |
      ⟨hdr, body, -, -, -, hb⟩
    · rfl
    · rfl
    · simp only [bodyVerdict, hdeaf] at hb
      split at hb
      · cases hb
      · simp at hb
        rw [← hb.2]
        rfl

end Scan

theorem charScanner_deaf (env : Env) (head tail : UInt8) (h : ¬ tail < 0x80) (s : List UInt8) :
    (charScanner env head tail).outputs s = [] :=
  outputs_deaf (fun b => by
    cases hb : charEq b tail with
    | false => rfl
    | true => exact absurd ((charEq_iff b tail).1 hb).2 h) s

end Uvnet

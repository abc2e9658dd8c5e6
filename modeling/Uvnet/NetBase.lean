import Uvnet.CMachine
import Uvnet.SignedBytes
import Mathlib.Data.Vector.Basic
import Mathlib.Data.List.Basic

/- The wire header of `net_base.h`: the `NetPacket` record and its byte codec.

   `int32_t` and `uint32_t` values are `BitVec 32`. Plain `char` is signed on the
   build's targets, so `CharToInt32` adds sign-extended bytes. `charToInt32` is what
   gcc's code computes, whose sums wrap around; `charToInt32C` makes them in `int`,
   where they can overflow (`intSum_cases` says when).

   The codec round trip is settled here exactly: a 32-bit field survives when its
   three upper bytes are below 0x80 (`charToInt32_int32ToChar`), and a header survives
   when its four 32-bit fields do (`header_round_trip`). -/
namespace Uvnet
open CMachine SignedBytes

/-- Byte order of the host, as `IsLittleendian` finds it. -/
inductive Endian where
  | little
  | big
  deriving DecidableEq, Repr

/-- Byte `i` of a 32-bit word, byte 0 the least significant. -/
def byteOf (x : BitVec 32) (i : Nat) : UInt8 := UInt8.ofBitVec (x.extractLsb' (8 * i) 8)

/-- The word with bytes `b3 b2 b1 b0`, `b3` the most significant. -/
def ofBytes (b3 b2 b1 b0 : UInt8) : BitVec 32 :=
  b3.toBitVec ++ b2.toBitVec ++ b1.toBitVec ++ b0.toBitVec

/-- `htonl`, and `ntohl`: the byte swap on a little-endian host. -/
def htonl : Endian → BitVec 32 → BitVec 32
  | .little, x => ofBytes (byteOf x 0) (byteOf x 1) (byteOf x 2) (byteOf x 3)
  | .big, x => x

/-- `Int32ToChar`: network order, most significant byte first. -/
def int32ToChar (e : Endian) (intnum : BitVec 32) : List UInt8 :=
  let networkByteorder := htonl e intnum
  [byteOf networkByteorder 3, byteOf networkByteorder 2,
   byteOf networkByteorder 1, byteOf networkByteorder 0]

/-- A plain `char` in an `int` expression: sign-extended. -/
def schar (c : UInt8) : BitVec 32 := c.toBitVec.signExtend 32

/-- `CharToInt32`: the four `char`s shifted into place and added, then `ntohl`. -/
def charToInt32 (e : Endian) (charnum : List UInt8) : BitVec 32 :=
  htonl e ((schar (charnum.getD 0 0) <<< 24) + (schar (charnum.getD 1 0) <<< 16) +
    (schar (charnum.getD 2 0) <<< 8) + schar (charnum.getD 3 0))

/-- `char` number `i` shifted to its place, where gcc's shift of a negative number puts it. -/
def placed (charnum : List UInt8) (i place : Nat) : Int := (schar (charnum.getD i 0)).toInt * 2 ^ place

/-- The sum of `CharToInt32` in `int`, from left to right. -/
def intSum (charnum : List UInt8) : C Int := do
  let sum ← cint (placed charnum 0 24 + placed charnum 1 16)
  let sum ← cint (sum + placed charnum 2 8)
  cint (sum + placed charnum 3 0)

/-- `CharToInt32` with its sum in `int`. -/
def charToInt32C (e : Endian) (charnum : List UInt8) : C (BitVec 32) := do
  let sum ← intSum charnum
  return htonl e (BitVec.ofInt 32 sum)

/-- `NET_PACKAGE_HEADLEN`: the packed record takes 34 bytes. -/
def netPackageHeadlen : Nat := 34

/-- `NetPacket`, the header of a frame. -/
structure NetPacket where
  version : BitVec 32
  header : UInt8
  tail : UInt8
  check : Vector UInt8 16
  type : BitVec 32
  datalen : BitVec 32
  reserve : BitVec 32
  deriving DecidableEq, Repr

/-- `NetPacketToChar`. -/
def netPacketToChar (e : Endian) (package : NetPacket) : List UInt8 :=
  int32ToChar e package.version ++ [package.header] ++ [package.tail] ++ package.check.toList ++
    int32ToChar e package.type ++ int32ToChar e package.datalen ++ int32ToChar e package.reserve

/-- `CharToNetPacket`. -/
def charToNetPacket (e : Endian) (chardata : List UInt8) : NetPacket where
  version := charToInt32 e chardata
  header := chardata.getD 4 0
  tail := chardata.getD 5 0
  check := Vector.ofFn fun i => chardata.getD (6 + i) 0
  type := charToInt32 e (chardata.drop 22)
  datalen := charToInt32 e (chardata.drop 26)
  reserve := charToInt32 e (chardata.drop 30)

/-- `CharToNetPacket` with the sums of `CharToInt32` in `int`. -/
def charToNetPacketC (e : Endian) (chardata : List UInt8) : C NetPacket := do
  let version ← charToInt32C e chardata
  let type ← charToInt32C e (chardata.drop 22)
  let datalen ← charToInt32C e (chardata.drop 26)
  let reserve ← charToInt32C e (chardata.drop 30)
  return { charToNetPacket e chardata with version := version, type := type, datalen := datalen, reserve := reserve }

/-! One 32-bit field. -/

theorem int32ToChar_length (e : Endian) (x : BitVec 32) : (int32ToChar e x).length = 4 := rfl

theorem byteOf_toNat (x : BitVec 32) (i : Nat) : (byteOf x i).toNat = x.toNat / 2 ^ (8 * i) % 256 := by
  simp [byteOf, BitVec.extractLsb'_toNat, Nat.shiftRight_eq_div_pow]

theorem ofBytes_toNat (b3 b2 b1 b0 : UInt8) :
    (ofBytes b3 b2 b1 b0).toNat =
      b3.toNat * 2 ^ 24 + b2.toNat * 2 ^ 16 + b1.toNat * 2 ^ 8 + b0.toNat := by
  simp only [ofBytes, BitVec.toNat_append]
  rw [← Nat.shiftLeft_add_eq_or_of_lt b0.toBitVec.isLt, ← Nat.shiftLeft_add_eq_or_of_lt b1.toBitVec.isLt,
    ← Nat.shiftLeft_add_eq_or_of_lt b2.toBitVec.isLt]
  simp only [Nat.shiftLeft_eq, UInt8.toNat_toBitVec]
  omega

theorem byteOf_ofBytes (b3 b2 b1 b0 : UInt8) :
    byteOf (ofBytes b3 b2 b1 b0) 0 = b0 ∧ byteOf (ofBytes b3 b2 b1 b0) 1 = b1 ∧
    byteOf (ofBytes b3 b2 b1 b0) 2 = b2 ∧ byteOf (ofBytes b3 b2 b1 b0) 3 = b3 := by
  have h3 := b3.toNat_lt
  have h2 := b2.toNat_lt
  have h1 := b1.toNat_lt
  have h0 := b0.toNat_lt
  refine ⟨?_, ?_, ?_, ?_⟩ <;> rw [← UInt8.toNat_inj, byteOf_toNat, ofBytes_toNat] <;> omega

theorem ofBytes_byteOf (x : BitVec 32) : ofBytes (byteOf x 3) (byteOf x 2) (byteOf x 1) (byteOf x 0) = x := by
  have hx := x.isLt
  rw [← BitVec.toNat_inj, ofBytes_toNat]
  simp only [byteOf_toNat]
  omega

theorem htonl_htonl (e : Endian) (x : BitVec 32) : htonl e (htonl e x) = x := by
  cases e with
  | big => rfl
  | little =>
    obtain ⟨h0, h1, h2, h3⟩ := byteOf_ofBytes (byteOf x 0) (byteOf x 1) (byteOf x 2) (byteOf x 3)
    simp only [htonl, h0, h1, h2, h3, ofBytes_byteOf]

theorem schar_toNat (c : UInt8) :
    (schar c).toNat = if c.toNat < 128 then c.toNat else c.toNat + (2 ^ 32 - 256) := by
  have hc := c.toNat_lt
  rw [schar, BitVec.toNat_signExtend]
  have hm : c.toBitVec.msb = decide (128 ≤ c.toNat) := by
    rw [BitVec.msb_eq_decide]; rfl
  rw [hm, BitVec.toNat_setWidth, UInt8.toNat_toBitVec]
  by_cases h : 128 ≤ c.toNat
  · rw [if_neg (show ¬ c.toNat < 128 by omega)]; simp [h]
  · rw [if_pos (show c.toNat < 128 by omega)]; simp [h]

theorem charSum (c0 c1 c2 c3 : UInt8) :
    (schar c0 <<< 24) + (schar c1 <<< 16) + (schar c2 <<< 8) + schar c3 =
      BitVec.ofInt 32 (charsVal [c0, c1, c2, c3]) := by
  have hplace (c : UInt8) (n : Nat) : schar c <<< n = BitVec.ofInt 32 (c.toBitVec.toInt * 2 ^ n) :=
    ofInt_shiftLeft 32 n _
  have hlast : schar c3 = BitVec.ofInt 32 c3.toBitVec.toInt := rfl
  rw [hplace, hplace, hplace, hlast, ← BitVec.ofInt_add, ← BitVec.ofInt_add, ← BitVec.ofInt_add]
  simp only [charsVal, List.length_cons, List.length_nil]
  congr 1
  grind

theorem schar_toInt (c : UInt8) : (schar c).toInt = c.toBitVec.toInt := BitVec.toInt_signExtend_of_le (by decide)

theorem char_bounds (c : UInt8) : -128 ≤ c.toBitVec.toInt ∧ c.toBitVec.toInt ≤ 127 := by
  have lo := BitVec.le_toInt c.toBitVec
  have hi := BitVec.toInt_lt (x := c.toBitVec)
  omega

theorem char_least (c : UInt8) : c = 0x80 ↔ c.toBitVec.toInt = -128 := by
  have hval := toInt_char c
  have hlt : (c < 0x80) = (c.toNat < 128) := rfl
  have heq : c = 0x80 ↔ c.toNat = 128 := UInt8.toNat_inj.symm
  simp only [hlt] at hval
  rw [heq]
  split at hval <;> omega

/-- Where the sum of four `char`s stays in `int`: it is too small only for a first byte 0x80, whose
place holds the least `int`, with a borrow behind it. -/
def CharSumFits (charnum : List UInt8) : Prop :=
  charnum.getD 0 0 = 0x80 → 0 ≤ charsVal [charnum.getD 1 0, charnum.getD 2 0, charnum.getD 3 0]

instance (charnum : List UInt8) : Decidable (CharSumFits charnum) := inferInstanceAs (Decidable (_ → _))

/-- **The sum of `CharToInt32`** stays in `int`, or overflows. -/
theorem intSum_cases (charnum : List UInt8) :
    (CharSumFits charnum ∧ intSum charnum =
      .ok (charsVal [charnum.getD 0 0, charnum.getD 1 0, charnum.getD 2 0, charnum.getD 3 0])) ∨
    (¬ CharSumFits charnum ∧ ∃ x, intSum charnum = .error (.intOverflow x)) := by
  obtain ⟨lo0, hi0⟩ := char_bounds (charnum.getD 0 0)
  obtain ⟨lo1, hi1⟩ := char_bounds (charnum.getD 1 0)
  obtain ⟨lo2, hi2⟩ := char_bounds (charnum.getD 2 0)
  obtain ⟨lo3, hi3⟩ := char_bounds (charnum.getD 3 0)
  have hleast := char_least (charnum.getD 0 0)
  simp only [CharSumFits, intSum, placed, schar_toInt, charsVal, List.length_cons, List.length_nil]
  generalize charnum.getD 0 0 = c0 at *
  generalize (charnum.getD 1 0).toBitVec.toInt = v1 at *
  generalize (charnum.getD 2 0).toBitVec.toInt = v2 at *
  generalize (charnum.getD 3 0).toBitVec.toInt = v3 at *
  generalize c0.toBitVec.toInt = v0 at *
  rw [hleast]
  have hmax : (intMax : Int) = 2 ^ 31 - 1 := by decide
  by_cases hfits : v0 = -128 → 0 ≤ v1 * 256 ^ 2 + (v2 * 256 ^ 1 + (v3 * 256 ^ 0 + 0))
  · left
    refine ⟨hfits, ?_⟩
    rw [cint_ok (by omega) (by omega), ok_bind, cint_ok (by omega) (by omega), ok_bind, cint_ok (by omega) (by omega)]
    congr 1
    omega
  · right
    refine ⟨hfits, ?_⟩
    -- the first of the three sums that is too small
    have hlow : ∀ {x : Int}, x < -(2 : Int) ^ 31 → cint x = .error (.intOverflow x) :=
      fun hx => if_neg fun hc => by omega
    by_cases h1 : v0 * 2 ^ 24 + v1 * 2 ^ 16 < -(2 : Int) ^ 31
    · exact ⟨_, by rw [hlow h1]; rfl⟩
    rw [cint_ok (by omega) (by omega), ok_bind]
    by_cases h2 : v0 * 2 ^ 24 + v1 * 2 ^ 16 + v2 * 2 ^ 8 < -(2 : Int) ^ 31
    · exact ⟨_, by rw [hlow h2]; rfl⟩
    rw [cint_ok (by omega) (by omega), ok_bind]
    exact ⟨_, hlow (by omega)⟩

/-- Where it does not overflow, `CharToInt32` gives what gcc's code computes. -/
theorem charToInt32C_cases (e : Endian) (charnum : List UInt8) :
    (CharSumFits charnum ∧ charToInt32C e charnum = .ok (charToInt32 e charnum)) ∨
    (¬ CharSumFits charnum ∧ ∃ x, charToInt32C e charnum = .error (.intOverflow x)) := by
  rw [charToInt32C, charToInt32, charSum]
  rcases intSum_cases charnum with ⟨hfits, hsum⟩ | ⟨hover, x, hsum⟩
  · exact .inl ⟨hfits, by rw [hsum]; rfl⟩
  · exact .inr ⟨hover, x, by rw [hsum]; rfl⟩

/-- The sum of four `char`s is the word they spell exactly when no sign
    extension borrows from a higher byte: the three lower ones are below 0x80. -/
theorem charSum_eq (c0 c1 c2 c3 : UInt8) :
    (schar c0 <<< 24) + (schar c1 <<< 16) + (schar c2 <<< 8) + schar c3 = ofBytes c0 c1 c2 c3 ↔
      c1 < 0x80 ∧ c2 < 0x80 ∧ c3 < 0x80 := by
  have hword : ofBytes c0 c1 c2 c3 = BitVec.ofNat 32 (bytesVal [c0, c1, c2, c3]) := by
    apply BitVec.eq_of_toNat_eq
    rw [ofBytes_toNat, bytesWord_toNat 32 [c0, c1, c2, c3] rfl]
    simp only [bytesVal, List.length_cons, List.length_nil]
    grind
  rw [charSum, hword, charsWord_eq_iff 32 c0 [c1, c2, c3] rfl]
  simp

/-- The four bytes a field takes on the wire survive decoding. -/
def Survives (e : Endian) (x : BitVec 32) : Prop :=
  byteOf (htonl e x) 2 < 0x80 ∧ byteOf (htonl e x) 1 < 0x80 ∧ byteOf (htonl e x) 0 < 0x80

/-- **A field survives the codec exactly when its three lower wire bytes are below 0x80.** -/
theorem charToInt32_int32ToChar (e : Endian) (x : BitVec 32) :
    charToInt32 e (int32ToChar e x) = x ↔ Survives e x := by
  have hsum := charSum_eq (byteOf (htonl e x) 3) (byteOf (htonl e x) 2) (byteOf (htonl e x) 1)
    (byteOf (htonl e x) 0)
  rw [ofBytes_byteOf] at hsum
  rw [Survives, ← hsum]
  constructor
  · intro h
    have := congrArg (htonl e) h
    rwa [charToInt32, htonl_htonl] at this
  · intro h
    have := congrArg (htonl e) h
    rwa [htonl_htonl] at this

/-- Four `char`s survive decoding and encoding exactly when the last three are below 0x80. -/
theorem int32ToChar_charToInt32 (e : Endian) (c0 c1 c2 c3 : UInt8) (rest : List UInt8) :
    int32ToChar e (charToInt32 e (c0 :: c1 :: c2 :: c3 :: rest)) = [c0, c1, c2, c3] ↔
      c1 < 0x80 ∧ c2 < 0x80 ∧ c3 < 0x80 := by
  rw [← charSum_eq c0 c1 c2 c3]
  generalize hs : (schar c0 <<< 24) + (schar c1 <<< 16) + (schar c2 <<< 8) + schar c3 = sum
  have hd : htonl e (charToInt32 e (c0 :: c1 :: c2 :: c3 :: rest)) = sum := by
    rw [← hs]; exact htonl_htonl e _
  simp only [int32ToChar, hd]
  constructor
  · intro h
    simp only [List.cons.injEq, and_true] at h
    obtain ⟨e3, e2, e1, e0⟩ := h
    rw [← ofBytes_byteOf sum, e3, e2, e1, e0]
  · intro h
    obtain ⟨e0, e1, e2, e3⟩ := byteOf_ofBytes c0 c1 c2 c3
    rw [h, e0, e1, e2, e3]

/-- Whether a `char` takes one from the byte above it in the sum: it is negative, or zero with one
taken from it. -/
def takesOne (c : UInt8) (taken : Bool) : Bool := decide (0x80 ≤ c) || (c == 0 && taken)

/-- The byte that is left of a `char`. -/
def lessOne (c : UInt8) (taken : Bool) : UInt8 := if taken then c - 1 else c

/-- What the bytes of `x`, sent from a little-endian host to another, spell as `char`s: each one
from 0x80 on takes one from the byte below it in `x`. -/
def spelled (x : BitVec 32) : BitVec 32 :=
  let taken2 := takesOne (byteOf x 3) false
  let taken1 := takesOne (byteOf x 2) taken2
  let taken0 := takesOne (byteOf x 1) taken1
  ofBytes (byteOf x 3) (lessOne (byteOf x 2) taken2) (lessOne (byteOf x 1) taken1) (lessOne (byteOf x 0) taken0)

theorem char_digit (c : UInt8) (taken : Bool) :
    c.toBitVec.toInt - taken.toNat = (lessOne c taken).toNat - 256 * ((takesOne c taken).toNat : Int) := by
  have hval := toInt_char c
  have hlt : (c < 0x80) = (c.toNat < 128) := rfl
  have hle : (0x80 ≤ c) = (128 ≤ c.toNat) := rfl
  have hzero : (c == 0) = decide (c.toNat = 0) := by
    rw [Bool.eq_iff_iff, beq_iff_eq, decide_eq_true_iff, ← UInt8.toNat_inj]
    rfl
  have hone : (c - 1).toNat = (c.toNat + 255) % 256 := by
    rw [UInt8.toNat_sub]
    have h1 : (1 : UInt8).toNat = 1 := rfl
    rw [h1]
    omega
  have hbound := c.toNat_lt
  simp only [hlt] at hval
  rw [takesOne, lessOne, hzero, hval]
  simp only [hle]
  cases taken with
  | false =>
    by_cases hneg : 128 ≤ c.toNat
    · simp [hneg]
    · simp [hneg, Nat.lt_of_not_le hneg]
  | true =>
    by_cases hneg : 128 ≤ c.toNat
    · simp [hneg, hone]
      omega
    · by_cases h0 : c.toNat = 0
      · simp [h0, hone]
      · simp [hneg, h0, hone]
        omega

theorem charsWord_digits (c0 c1 c2 c3 : UInt8) :
    BitVec.ofInt 32 (charsVal [c0, c1, c2, c3]) =
      let taken2 := takesOne c3 false
      let taken1 := takesOne c2 taken2
      let taken0 := takesOne c1 taken1
      ofBytes (lessOne c0 taken0) (lessOne c1 taken1) (lessOne c2 taken2) c3 := by
  have h3 := char_digit c3 false
  have h2 := char_digit c2 (takesOne c3 false)
  have h1 := char_digit c1 (takesOne c2 (takesOne c3 false))
  have h0 := char_digit c0 (takesOne c1 (takesOne c2 (takesOne c3 false)))
  have hlast : lessOne c3 false = c3 := rfl
  rw [hlast] at h3
  apply BitVec.eq_of_toNat_eq
  have hlt := (ofBytes (lessOne c0 (takesOne c1 (takesOne c2 (takesOne c3 false)))) (lessOne c1 (takesOne c2 (takesOne c3 false)))
    (lessOne c2 (takesOne c3 false)) c3).isLt
  simp only [ofBytes_toNat, BitVec.toNat_ofInt, charsVal, List.length_cons, List.length_nil] at hlt ⊢
  simp only [Bool.toNat_false] at h3
  omega

/-- **What a field comes back as**, whatever its bytes are. -/
theorem charToInt32_spelled (x : BitVec 32) : charToInt32 .little (int32ToChar .little x) = spelled x := by
  obtain ⟨h0, h1, h2, h3⟩ := byteOf_ofBytes (byteOf x 0) (byteOf x 1) (byteOf x 2) (byteOf x 3)
  have hchars : int32ToChar .little x = [byteOf x 0, byteOf x 1, byteOf x 2, byteOf x 3] := by
    simp only [int32ToChar, htonl, h0, h1, h2, h3]
  rw [hchars]
  show htonl .little ((schar (byteOf x 0) <<< 24) + (schar (byteOf x 1) <<< 16) + (schar (byteOf x 2) <<< 8) +
    schar (byteOf x 3)) = _
  rw [charSum, charsWord_digits]
  simp only [htonl, byteOf_ofBytes, spelled]

theorem spelled_eq_iff (x : BitVec 32) : spelled x = x ↔ byteOf x 1 < 0x80 ∧ byteOf x 2 < 0x80 ∧ byteOf x 3 < 0x80 := by
  obtain ⟨h0, h1, h2, -⟩ := byteOf_ofBytes (byteOf x 0) (byteOf x 1) (byteOf x 2) (byteOf x 3)
  rw [← charToInt32_spelled, charToInt32_int32ToChar, Survives, htonl, h0, h1, h2]

example : spelled 0x8000 = 0x80ff := by decide

/-! The whole header. -/

/-- The sums for the four 32-bit fields of a header stay in `int`. -/
def HeaderSumsFit (chardata : List UInt8) : Prop := ∀ off ∈ [0, 22, 26, 30], CharSumFits (chardata.drop off)

instance (chardata : List UInt8) : Decidable (HeaderSumsFit chardata) :=
  inferInstanceAs (Decidable (∀ off ∈ [0, 22, 26, 30], CharSumFits (chardata.drop off)))

/-- **`CharToNetPacket` overflows** exactly where one of its sums does. -/
theorem charToNetPacketC_cases (e : Endian) (b : List UInt8) :
    (HeaderSumsFit b ∧ charToNetPacketC e b = .ok (charToNetPacket e b)) ∨
    (¬ HeaderSumsFit b ∧ ∃ x, charToNetPacketC e b = .error (.intOverflow x)) := by
  have hfields : HeaderSumsFit b ↔ CharSumFits b ∧ CharSumFits (b.drop 22) ∧ CharSumFits (b.drop 26) ∧ CharSumFits (b.drop 30) := by
    simp [HeaderSumsFit]
  rw [hfields, charToNetPacketC]
  rcases charToInt32C_cases e b with ⟨hv, ev⟩ | ⟨hv, x, ev⟩
  · rcases charToInt32C_cases e (b.drop 22) with ⟨ht, et⟩ | ⟨ht, x, et⟩
    · rcases charToInt32C_cases e (b.drop 26) with ⟨hd, ed⟩ | ⟨hd, x, ed⟩
      · rcases charToInt32C_cases e (b.drop 30) with ⟨hr, er⟩ | ⟨hr, x, er⟩
        · exact .inl ⟨⟨hv, ht, hd, hr⟩, by rw [ev, et, ed, er]; rfl⟩
        · exact .inr ⟨fun h => hr h.2.2.2, x, by rw [ev, et, ed, er]; rfl⟩
      · exact .inr ⟨fun h => hd h.2.2.1, x, by rw [ev, et, ed]; rfl⟩
    · exact .inr ⟨fun h => ht h.2.1, x, by rw [ev, et]; rfl⟩
  · exact .inr ⟨fun h => hv h.1, x, by rw [ev]; rfl⟩

theorem netPacketToChar_length (e : Endian) (p : NetPacket) :
    (netPacketToChar e p).length = netPackageHeadlen := by
  simp [netPacketToChar, int32ToChar_length, netPackageHeadlen]

theorem netPacketToChar_layout (e : Endian) (p : NetPacket) (rest : List UInt8) :
    netPacketToChar e p ++ rest =
      int32ToChar e p.version ++ (p.header :: p.tail :: (p.check.toList ++
        (int32ToChar e p.type ++ (int32ToChar e p.datalen ++ (int32ToChar e p.reserve ++ rest))))) := by
  simp [netPacketToChar]

/-- What decoding an encoded header gives, field by field; the two hosts may differ. -/
theorem charToNetPacket_netPacketToChar (e e' : Endian) (p : NetPacket) (rest : List UInt8) :
    charToNetPacket e' (netPacketToChar e p ++ rest) =
      { p with
        version := charToInt32 e' (int32ToChar e p.version)
        type := charToInt32 e' (int32ToChar e p.type)
        datalen := charToInt32 e' (int32ToChar e p.datalen)
        reserve := charToInt32 e' (int32ToChar e p.reserve) } := by
  have hc : p.check.toList.length = 16 := by simp
  rw [netPacketToChar_layout]
  generalize hw : int32ToChar e p.type ++ (int32ToChar e p.datalen ++ (int32ToChar e p.reserve ++ rest)) = w
  have hdrop : ∀ n, (int32ToChar e p.version ++ (p.header :: p.tail :: (p.check.toList ++ w))).drop (22 + n) =
      w.drop n := by
    intro n
    have h6 : (int32ToChar e p.version ++ (p.header :: p.tail :: (p.check.toList ++ w))).drop (22 + n) =
        (p.check.toList ++ w).drop (16 + n) := by
      rw [show 22 + n = 6 + (16 + n) by omega, ← List.drop_drop]; rfl
    rw [h6, List.drop_append, hc, List.drop_of_length_le (by omega)]
    simp
  have hcheck : (Vector.ofFn fun i : Fin 16 =>
      (int32ToChar e p.version ++ (p.header :: p.tail :: (p.check.toList ++ w))).getD (6 + i) 0) = p.check := by
    apply Vector.ext
    intro i hi
    have h6 : (int32ToChar e p.version ++ (p.header :: p.tail :: (p.check.toList ++ w))).getD (6 + i) 0 =
        (p.check.toList ++ w).getD i 0 := by
      rw [Nat.add_comm 6 i]; rfl
    rw [Vector.getElem_ofFn, h6, List.getD_eq_getElem?_getD, List.getElem?_append_left (by omega)]
    simp [hi]
  have htype := hdrop 0
  have hdatalen := hdrop 4
  have hreserve := hdrop 8
  simp only [charToNetPacket, hcheck, htype, hdatalen, hreserve]
  subst hw
  rfl

/-- The four 32-bit fields of a header survive the codec. -/
def NetPacket.Survives (e : Endian) (p : NetPacket) : Prop :=
  ∀ x ∈ [p.version, p.type, p.datalen, p.reserve], Uvnet.Survives e x

theorem charToNetPacket_eq_iff (e : Endian) (p : NetPacket) :
    charToNetPacket e (netPacketToChar e p) = p ↔ p.Survives e := by
  have h := charToNetPacket_netPacketToChar e e p []
  rw [List.append_nil] at h
  rw [h]
  cases p
  simp [NetPacket.Survives, charToInt32_int32ToChar]

/-- The last three of the four bytes of every 32-bit field are below 0x80. -/
def CharsSurvive (b : List UInt8) : Prop :=
  ∀ off ∈ [0, 22, 26, 30], b.getD (off + 1) 0 < 0x80 ∧ b.getD (off + 2) 0 < 0x80 ∧ b.getD (off + 3) 0 < 0x80

theorem four_chars {b : List UInt8} (h : 4 ≤ b.length) :
    b = b.getD 0 0 :: b.getD 1 0 :: b.getD 2 0 :: b.getD 3 0 :: b.drop 4 := by
  match b, h with
  | _ :: _ :: _ :: _ :: _, _ => rfl

theorem int32ToChar_charToInt32' (e : Endian) {b : List UInt8} (h : 4 ≤ b.length) :
    int32ToChar e (charToInt32 e b) = b.take 4 ↔
      b.getD 1 0 < 0x80 ∧ b.getD 2 0 < 0x80 ∧ b.getD 3 0 < 0x80 := by
  rw [← int32ToChar_charToInt32 e (b.getD 0 0) _ _ _ (b.drop 4), ← four_chars h]
  conv => lhs; rhs; rw [four_chars h]
  rfl

theorem header_parts {b : List UInt8} (h : b.length = netPackageHeadlen) :
    b = b.take 4 ++ (b.getD 4 0 :: b.getD 5 0 :: ((b.drop 6).take 16 ++
      ((b.drop 22).take 4 ++ ((b.drop 26).take 4 ++ ((b.drop 30).take 4 ++ []))))) := by
  simp only [netPackageHeadlen] at h
  have h30 : (b.drop 30).take 4 ++ [] = b.drop 30 := by
    rw [List.append_nil, List.take_of_length_le (by rw [List.length_drop]; omega)]
  have cut (m n : Nat) : (b.drop m).take n ++ b.drop (m + n) = b.drop m := by
    rw [← List.drop_drop, List.take_append_drop]
  have h4 : b.getD 4 0 :: b.getD 5 0 :: b.drop 6 = b.drop 4 := by
    match b, h with
    | _ :: _ :: _ :: _ :: _ :: _ :: _, _ => rfl
  rw [h30, cut 26 4, cut 22 4, cut 6 16, h4, List.take_append_drop]

theorem netPacketToChar_eq_iff (e : Endian) {b : List UInt8} (h : b.length = netPackageHeadlen) :
    netPacketToChar e (charToNetPacket e b) = b ↔ CharsSurvive b := by
  have hlen : b.length = 34 := h
  have hl (n : Nat) (hn : n ≤ 30) : 4 ≤ (b.drop n).length := by rw [List.length_drop]; omega
  have field (n : Nat) (hn : n ≤ 30) : int32ToChar e (charToInt32 e (b.drop n)) = (b.drop n).take 4 ↔
      b.getD (n + 1) 0 < 0x80 ∧ b.getD (n + 2) 0 < 0x80 ∧ b.getD (n + 3) 0 < 0x80 := by
    rw [int32ToChar_charToInt32' e (hl n hn)]
    simp only [List.getD_eq_getElem?_getD, List.getElem?_drop]
  have hcheck : (charToNetPacket e b).check.toList = (b.drop 6).take 16 := by
    apply List.ext_getElem
    · simp; omega
    · intro i hi _
      simp only [Vector.length_toList] at hi
      simp [charToNetPacket, List.getD_eq_getElem?_getD, List.getElem?_eq_getElem (show 6 + i < b.length by omega)]
  have hwire := netPacketToChar_layout e (charToNetPacket e b) []
  rw [List.append_nil] at hwire
  have h4 (n : Nat) (hn : n ≤ 30) : ((b.drop n).take 4).length = 4 := by
    have := hl n hn
    rw [List.length_take]; omega
  constructor
  · intro heq
    rw [hwire, hcheck] at heq
    conv at heq => rhs; rw [header_parts h]
    obtain ⟨hv, heq⟩ := List.append_inj heq (by rw [int32ToChar_length]; exact (h4 0 (by omega)).symm)
    simp only [List.cons.injEq] at heq
    obtain ⟨-, -, heq⟩ := heq
    have heq := List.append_cancel_left heq
    obtain ⟨ht, heq⟩ := List.append_inj heq (by rw [int32ToChar_length]; exact (h4 22 (by omega)).symm)
    obtain ⟨hd, heq⟩ := List.append_inj heq (by rw [int32ToChar_length]; exact (h4 26 (by omega)).symm)
    obtain ⟨hr, -⟩ := List.append_inj heq (by rw [int32ToChar_length]; exact (h4 30 (by omega)).symm)
    intro off hoff
    simp only [List.mem_cons, List.not_mem_nil, or_false] at hoff
    rcases hoff with rfl | rfl | rfl | rfl
    · exact (field 0 (by omega)).1 hv
    · exact (field 22 (by omega)).1 ht
    · exact (field 26 (by omega)).1 hd
    · exact (field 30 (by omega)).1 hr
  · intro hs
    have hv : int32ToChar e (charToInt32 e b) = b.take 4 := (field 0 (by omega)).2 (hs 0 (by simp))
    have ht := (field 22 (by omega)).2 (hs 22 (by simp))
    have hd := (field 26 (by omega)).2 (hs 26 (by simp))
    have hr := (field 30 (by omega)).2 (hs 30 (by simp))
    rw [hwire, hcheck]
    conv => rhs; rw [header_parts h]
    simp only [charToNetPacket, hv, ht, hd, hr]

/-- **The header codec round trip, exactly** (little-endian host, signed `char`).
    A record survives encoding and decoding exactly when its four 32-bit fields
    have their three upper bytes below 0x80; a 34-byte string survives decoding
    and encoding exactly when the same holds of its bytes. -/
theorem header_round_trip (p : NetPacket) (b : Vector UInt8 netPackageHeadlen) :
    (charToNetPacket .little (netPacketToChar .little p) = p ↔ p.Survives .little) ∧
    (netPacketToChar .little (charToNetPacket .little b.toList) = b.toList ↔ CharsSurvive b.toList) :=
  ⟨charToNetPacket_eq_iff .little p, netPacketToChar_eq_iff .little (by simp)⟩

/-- A payload length of 2^15 comes back as another one. -/
theorem header_round_trip_fails :
    ¬ ((∀ p : NetPacket, charToNetPacket .little (netPacketToChar .little p) = p) ∧
      (∀ b : Vector UInt8 netPackageHeadlen,
        netPacketToChar .little (charToNetPacket .little b.toList) = b.toList)) := by
  intro h
  have hp := h.1 ⟨1, 1, 2, Vector.replicate 16 0, 1, 32768, 0⟩
  revert hp
  decide

end Uvnet

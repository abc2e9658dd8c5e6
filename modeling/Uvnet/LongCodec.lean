import Uvnet.NetBase
import Uvnet.SignedBytes
import Mathlib.Data.Vector.Basic

/- The 64-bit codec of `net_base.h`: `htonll`, `Int64ToChar`, `CharToInt64`.

   `CharToInt64` casts the four upper `char`s to `uint64_t` before it shifts them and
   shifts the four lower ones as `int`. Both ways a `char` from 0x80 on is negative: the
   cast extends its sign over the word, and so does the conversion of the `int` when it is
   added. The whole sum is then the signed sum of the eight bytes (`charSum64`), and by
   `SignedBytes.charsWord_eq_iff` it is the word they spell exactly when no byte after
   the first is 0x80 or more. No borrow is made good by another one. -/
namespace Uvnet
open SignedBytes

/-- Byte `i` of a 64-bit word, byte 0 the least significant. -/
def byteOf64 (x : BitVec 64) (i : Nat) : UInt8 := UInt8.ofBitVec (x.extractLsb' (8 * i) 8)

/-- `__builtin_bswap64`: the word with the bytes of `num` in the opposite order. -/
def bswap64 (num : BitVec 64) : BitVec 64 :=
  BitVec.ofNat 64 (bytesVal [byteOf64 num 0, byteOf64 num 1, byteOf64 num 2, byteOf64 num 3,
    byteOf64 num 4, byteOf64 num 5, byteOf64 num 6, byteOf64 num 7])

/-- `Phata::htonll`. -/
def htonll : Endian → BitVec 64 → BitVec 64
  | .little, num => bswap64 num
  | .big, num => num

/-- `Phata::ntohll`. -/
def ntohll : Endian → BitVec 64 → BitVec 64
  | .little, num => bswap64 num
  | .big, num => num

/-- `Int64ToChar`: network order, most significant byte first. -/
def int64ToChar (e : Endian) (intnum : BitVec 64) : Vector UInt8 8 :=
  let networkByteorder := htonll e intnum
  #v[byteOf64 networkByteorder 7, byteOf64 networkByteorder 6, byteOf64 networkByteorder 5,
    byteOf64 networkByteorder 4, byteOf64 networkByteorder 3, byteOf64 networkByteorder 2,
    byteOf64 networkByteorder 1, byteOf64 networkByteorder 0]

/-- `(uint64_t)c` of a plain `char`: sign-extended. -/
def schar64 (c : UInt8) : BitVec 64 := c.toBitVec.signExtend 64

/-- An `int` where a `uint64_t` is added to it: converted, its sign extended. -/
def intToUint64 (x : BitVec 32) : BitVec 64 := x.signExtend 64

/-- `CharToInt64`. Addition groups to the left, so each `int` is converted on its own. -/
def charToInt64 (e : Endian) (charnum : Vector UInt8 8) : BitVec 64 :=
  ntohll e ((schar64 charnum[0] <<< 56) + (schar64 charnum[1] <<< 48) + (schar64 charnum[2] <<< 40) +
    (schar64 charnum[3] <<< 32) + intToUint64 (schar charnum[4] <<< 24) + intToUint64 (schar charnum[5] <<< 16) +
    intToUint64 (schar charnum[6] <<< 8) + intToUint64 (schar charnum[7]))

/-! The wire bytes. -/

theorem eight_bytes (x : BitVec 64) :
    [byteOf64 x 7, byteOf64 x 6, byteOf64 x 5, byteOf64 x 4, byteOf64 x 3, byteOf64 x 2, byteOf64 x 1,
      byteOf64 x 0] = bytesOf 8 x.toNat := by
  have hbyte (i : Nat) : byteOf64 x i = UInt8.ofNat (x.toNat / 256 ^ i) := by
    rw [← UInt8.toNat_inj, UInt8.toNat_ofNat', byteOf64, UInt8.toNat_ofBitVec, BitVec.extractLsb'_toNat,
      Nat.shiftRight_eq_div_pow, Nat.pow_mul]
  simp only [hbyte, bytesOf]

theorem int64ToChar_toList (e : Endian) (x : BitVec 64) :
    (int64ToChar e x).toList = bytesOf 8 (htonll e x).toNat :=
  eight_bytes (htonll e x)

theorem bswap64_eq (x : BitVec 64) : bswap64 x = BitVec.ofNat 64 (bytesVal (bytesOf 8 x.toNat).reverse) := by
  rw [← eight_bytes]
  rfl

theorem bytesVal_eight (x : BitVec 64) : BitVec.ofNat 64 (bytesVal (bytesOf 8 x.toNat)) = x := by
  have hx : x.toNat < 256 ^ 8 := x.isLt
  rw [bytesVal_bytesOf, Nat.mod_eq_of_lt hx, BitVec.ofNat_toNat, BitVec.setWidth_eq]

theorem bytesOf_word (cs : List UInt8) (h : cs.length = 8) :
    bytesOf 8 (BitVec.ofNat 64 (bytesVal cs)).toNat = cs := by
  rw [bytesWord_toNat 64 cs (by rw [h]), ← h, bytesOf_bytesVal]

theorem bswap64_bswap64 (x : BitVec 64) : bswap64 (bswap64 x) = x := by
  have hlen : (bytesOf 8 x.toNat).reverse.length = 8 := by rw [List.length_reverse, bytesOf_length]
  rw [bswap64_eq (bswap64 x), bswap64_eq x, bytesOf_word _ hlen, List.reverse_reverse, bytesVal_eight]

theorem ntohll_htonll (e : Endian) (x : BitVec 64) : ntohll e (htonll e x) = x := by
  cases e with
  | little => exact bswap64_bswap64 x
  | big => rfl

theorem htonll_ntohll (e : Endian) (x : BitVec 64) : htonll e (ntohll e x) = x := by
  cases e with
  | little => exact bswap64_bswap64 x
  | big => rfl

/-! The sum `CharToInt64` forms. -/

theorem schar64_shiftLeft (c : UInt8) (n : Nat) : schar64 c <<< n = BitVec.ofInt 64 (c.toBitVec.toInt * 2 ^ n) :=
  ofInt_shiftLeft 64 n _

/-- The shift of an `int` by at most 24 places loses no bit of a `char`. -/
theorem intToUint64_shiftLeft (c : UInt8) {n : Nat} (hn : n ≤ 24) :
    intToUint64 (schar c <<< n) = BitVec.ofInt 64 (c.toBitVec.toInt * 2 ^ n) := by
  have hc := c.toNat_lt
  have hlow : -128 ≤ c.toBitVec.toInt ∧ c.toBitVec.toInt ≤ 127 := by
    rw [toInt_char]
    split
    · next h =>
      have : c.toNat < 128 := h
      omega
    · next h =>
      have : ¬ c.toNat < 128 := h
      omega
  have hp : (0 : Int) ≤ 2 ^ n := Int.pow_nonneg (by decide)
  have hp24 : (2 : Int) ^ n ≤ 2 ^ 24 := by
    have : 2 ^ n ≤ 2 ^ 24 := Nat.pow_le_pow_right (by decide) hn
    exact_mod_cast this
  have hlo := Int.mul_le_mul_of_nonneg_right hlow.1 hp
  have hhi := Int.mul_le_mul_of_nonneg_right hlow.2 hp
  have hshift : schar c <<< n = BitVec.ofInt 32 (c.toBitVec.toInt * 2 ^ n) := ofInt_shiftLeft 32 n _
  have hint : (schar c <<< n).toInt = c.toBitVec.toInt * 2 ^ n := by
    rw [hshift]
    apply BitVec.toInt_ofInt_eq_self (by decide)
    · omega
    · omega
  rw [← hint]
  rfl

theorem eight_chars (b : Vector UInt8 8) : b.toList = [b[0], b[1], b[2], b[3], b[4], b[5], b[6], b[7]] := by
  obtain ⟨⟨l⟩, h⟩ := b
  match l, h with
  | [_, _, _, _, _, _, _, _], _ => rfl

/-- The casts and the conversions amount to the signed sum of the eight bytes. -/
theorem charToInt64_eq (e : Endian) (b : Vector UInt8 8) :
    charToInt64 e b = ntohll e (BitVec.ofInt 64 (charsVal b.toList)) := by
  have hlast : intToUint64 (schar b[7]) = intToUint64 (schar b[7] <<< 0) := by rw [BitVec.shiftLeft_zero]
  rw [charToInt64, hlast, schar64_shiftLeft, schar64_shiftLeft, schar64_shiftLeft, schar64_shiftLeft,
    intToUint64_shiftLeft _ (by decide), intToUint64_shiftLeft _ (by decide),
    intToUint64_shiftLeft _ (by decide), intToUint64_shiftLeft _ (by decide)]
  simp only [← BitVec.ofInt_add, eight_chars, charsVal, List.length_cons, List.length_nil]
  congr 2
  grind

/-! The round trip. -/

theorem htonll_charToInt64 (e : Endian) (b : Vector UInt8 8) :
    htonll e (charToInt64 e b) = BitVec.ofInt 64 (charsVal b.toList) := by
  rw [charToInt64_eq, htonll_ntohll]

/-- A word of eight `char`s is what they spell exactly when the last seven are below 0x80. -/
theorem charsWord_iff (b : Vector UInt8 8) :
    BitVec.ofInt 64 (charsVal b.toList) = BitVec.ofNat 64 (bytesVal b.toList) ↔
      ∀ c ∈ b.toList.tail, c < 0x80 := by
  rw [eight_chars, List.tail_cons]
  exact charsWord_eq_iff 64 b[0] _ rfl

theorem int64ToChar_charToInt64 (e : Endian) (b : Vector UInt8 8) :
    int64ToChar e (charToInt64 e b) = b ↔ ∀ c ∈ b.toList.tail, c < 0x80 := by
  have hlen : b.toList.length = 8 := Vector.length_toList
  rw [← charsWord_iff, ← Vector.toList_inj, int64ToChar_toList, htonll_charToInt64]
  constructor
  · intro h
    have hword := bytesVal_eight (BitVec.ofInt 64 (charsVal b.toList))
    rw [h] at hword
    exact hword.symm
  · intro h
    rw [h, bytesOf_word _ hlen]

theorem charToInt64_int64ToChar (e : Endian) (v : BitVec 64) :
    charToInt64 e (int64ToChar e v) = v ↔ ∀ c ∈ (int64ToChar e v).toList.tail, c < 0x80 := by
  rw [← charsWord_iff, charToInt64_eq, int64ToChar_toList, bytesVal_eight]
  constructor
  · intro h
    have hword := congrArg (htonll e) h
    rwa [htonll_ntohll] at hword
  · intro h
    rw [h, ntohll_htonll]

/-- On a little-endian host the bytes of a word go out least significant first. -/
theorem int64ToChar_little (v : BitVec 64) :
    (int64ToChar .little v).toList = [0, 1, 2, 3, 4, 5, 6, 7].map (byteOf64 v) := by
  have hlen : (bytesOf 8 v.toNat).reverse.length = 8 := by rw [List.length_reverse, bytesOf_length]
  have hswap : htonll .little v = bswap64 v := rfl
  rw [int64ToChar_toList, hswap, bswap64_eq, bytesOf_word _ hlen, ← eight_bytes]
  rfl

/-- **The 64-bit codec round trip, exactly** (little-endian host, signed `char`).
    A value survives encoding and decoding exactly when its seven upper bytes are below
    0x80; eight bytes survive decoding and encoding exactly when the last seven are. -/
theorem int64_round_trip (v : BitVec 64) (b : Vector UInt8 8) :
    (charToInt64 .little (int64ToChar .little v) = v ↔ ∀ i ∈ [1, 2, 3, 4, 5, 6, 7], byteOf64 v i < 0x80) ∧
    (int64ToChar .little (charToInt64 .little b) = b ↔ ∀ c ∈ b.toList.tail, c < 0x80) := by
  constructor
  · rw [charToInt64_int64ToChar, int64ToChar_little, List.map_cons, List.tail_cons, List.forall_mem_map]
  · exact int64ToChar_charToInt64 .little b

/-- The value that the repository's own test encodes comes back as another one. -/
theorem int64_round_trip_fails :
    ¬ ((∀ v : BitVec 64, charToInt64 .little (int64ToChar .little v) = v) ∧
      (∀ b : Vector UInt8 8, int64ToChar .little (charToInt64 .little b) = b)) := by
  intro h
  have hv := h.1 0x123456789ABCDEF0
  revert hv
  decide

end Uvnet

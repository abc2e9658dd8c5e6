import Mathlib.Algebra.Group.Int.Defs
import Mathlib.Algebra.Group.Nat.Defs

/- Big-endian numbers put together from bytes that were read as signed.

   `bytesVal` is the number that a list of bytes spells, `charsVal` the sum a program gets
   that shifts each byte into place but takes it for a two's complement digit. A byte from
   0x80 on counts 256 too little at its place, so it borrows one from the place above:
   `charsVal` is `bytesVal` less `borrows` (`charsVal_eq`). The borrow of the top byte
   leaves the word. All the others together stay below the word (`borrows_lt`) and never
   cancel, so a word as wide as the list is spelled right exactly when no byte below the
   top borrows (`charsWord_eq_iff`), whatever the width. -/
namespace SignedBytes

/-- The number that `cs` spells, most significant byte first. -/
def bytesVal : List UInt8 → Nat
  | [] => 0
  | c :: cs => c.toNat * 256 ^ cs.length + bytesVal cs

/-- The sum of the bytes of `cs` in place, each one taken as signed. -/
def charsVal : List UInt8 → Int
  | [] => 0
  | c :: cs => c.toBitVec.toInt * 256 ^ cs.length + charsVal cs

/-- The `n` lower bytes of `v`, most significant first. -/
def bytesOf : Nat → Nat → List UInt8
  | 0, _ => []
  | n + 1, v => UInt8.ofNat (v / 256 ^ n) :: bytesOf n v

/-- What the bytes of `cs` borrow from the places above them. -/
def borrows : List UInt8 → Nat
  | [] => 0
  | c :: cs => (if c < 0x80 then 0 else 256 ^ (cs.length + 1)) + borrows cs

/-! Numbers and their bytes. -/

theorem bytesOf_length (n v : Nat) : (bytesOf n v).length = n := by
  induction n with
  | zero => rfl
  | succ n ih => rw [bytesOf, List.length_cons, ih]

theorem bytesVal_lt (cs : List UInt8) : bytesVal cs < 256 ^ cs.length := by
  induction cs with
  | nil => decide
  | cons c cs ih =>
    have hc := c.toNat_lt
    calc c.toNat * 256 ^ cs.length + bytesVal cs
        < c.toNat * 256 ^ cs.length + 256 ^ cs.length := Nat.add_lt_add_left ih _
      _ = (c.toNat + 1) * 256 ^ cs.length := by grind
      _ ≤ 256 * 256 ^ cs.length := Nat.mul_le_mul_right _ hc
      _ = 256 ^ (cs.length + 1) := by grind

theorem bytesVal_bytesOf (n v : Nat) : bytesVal (bytesOf n v) = v % 256 ^ n := by
  induction n with
  | zero => rw [Nat.pow_zero, Nat.mod_one]; rfl
  | succ n ih =>
    have hsplit : v % 256 ^ (n + 1) = v % 256 ^ n + 256 ^ n * (v / 256 ^ n % 256) := Nat.mod_pow_succ
    rw [bytesOf, bytesVal, bytesOf_length, ih, UInt8.toNat_ofNat', hsplit, Nat.add_comm, Nat.mul_comm]

theorem bytesOf_add (n k v : Nat) : bytesOf n (k * 256 ^ n + v) = bytesOf n v := by
  induction n generalizing k with
  | zero => rfl
  | succ n ih =>
    have hsplit : k * 256 ^ (n + 1) + v = (k * 256) * 256 ^ n + v := by grind
    have hhead : UInt8.ofNat ((k * 256 * 256 ^ n + v) / 256 ^ n) = UInt8.ofNat (v / 256 ^ n) := by
      rw [Nat.add_comm, Nat.add_mul_div_right _ _ (Nat.pow_pos (by decide)), ← UInt8.toNat_inj,
        UInt8.toNat_ofNat', UInt8.toNat_ofNat']
      omega
    rw [hsplit, bytesOf, bytesOf, ih, hhead]

theorem bytesOf_bytesVal (cs : List UInt8) : bytesOf cs.length (bytesVal cs) = cs := by
  induction cs with
  | nil => rfl
  | cons c cs ih =>
    have hdiv : (c.toNat * 256 ^ cs.length + bytesVal cs) / 256 ^ cs.length = c.toNat := by
      rw [Nat.add_comm, Nat.add_mul_div_right _ _ (Nat.pow_pos (by decide)), Nat.div_eq_of_lt (bytesVal_lt cs),
        Nat.zero_add]
    rw [bytesVal, List.length_cons, bytesOf, hdiv, UInt8.ofNat_toNat, bytesOf_add, ih]

theorem bytesWord_toNat (w : Nat) (cs : List UInt8) (hw : w = 8 * cs.length) :
    (BitVec.ofNat w (bytesVal cs)).toNat = bytesVal cs := by
  have hsize : 2 ^ w = 256 ^ cs.length := by rw [hw, Nat.pow_mul]
  rw [BitVec.toNat_ofNat, hsize, Nat.mod_eq_of_lt (bytesVal_lt cs)]

/-! Borrows. -/

theorem toInt_char (c : UInt8) : c.toBitVec.toInt = (c.toNat : Int) - if c < 0x80 then 0 else 256 := by
  have hc : (c < 0x80) = (c.toNat < 128) := rfl
  rw [BitVec.toInt_eq_toNat_cond, UInt8.toNat_toBitVec]
  simp only [hc]
  split <;> split <;> omega

theorem charsVal_eq (cs : List UInt8) : charsVal cs = (bytesVal cs : Int) - borrows cs := by
  induction cs with
  | nil => rfl
  | cons c cs ih =>
    rw [charsVal, bytesVal, borrows, toInt_char, ih, Int.natCast_add, Int.natCast_mul, Int.natCast_add, Int.natCast_pow]
    split
    · grind
    · rw [Int.natCast_pow]
      grind

theorem borrows_lt (cs : List UInt8) : borrows cs < 256 ^ (cs.length + 1) := by
  induction cs with
  | nil => decide
  | cons c cs ih =>
    rw [borrows, List.length_cons, Nat.pow_succ 256 (cs.length + 1)]
    split <;> omega

theorem borrows_eq_zero (cs : List UInt8) : borrows cs = 0 ↔ ∀ c ∈ cs, c < 0x80 := by
  induction cs with
  | nil => simp [borrows]
  | cons c cs ih =>
    have hpos : 0 < 256 ^ (cs.length + 1) := Nat.pow_pos (by decide)
    rw [borrows, List.forall_mem_cons, ← ih]
    split
    · next hc => simp only [hc, Nat.zero_add, true_and]
    · next hc =>
      simp only [hc, false_and, iff_false]
      omega

theorem ofInt_shiftLeft (w n : Nat) (i : Int) : BitVec.ofInt w i <<< n = BitVec.ofInt w (i * 2 ^ n) := by
  have h2 : BitVec.ofInt w ((2 : Int) ^ n) = BitVec.twoPow w n := by
    rw [← BitVec.toNat_inj, BitVec.toNat_twoPow, BitVec.toNat_ofInt]
    norm_cast
  rw [BitVec.shiftLeft_eq_mul_twoPow, BitVec.ofInt_mul, h2]

/-- **A word of `char`s is the word they spell exactly when no byte below the top is 0x80
    or more.** -/
theorem charsWord_eq_iff (w : Nat) (c : UInt8) (cs : List UInt8) (hw : w = 8 * (cs.length + 1)) :
    BitVec.ofInt w (charsVal (c :: cs)) = BitVec.ofNat w (bytesVal (c :: cs)) ↔ ∀ b ∈ cs, b < 0x80 := by
  have hsize : 2 ^ w = 256 ^ (cs.length + 1) := by rw [hw, Nat.pow_mul]
  have hsum : charsVal (c :: cs) - bytesVal (c :: cs) = -(borrows (c :: cs) : Int) := by
    rw [charsVal_eq]
    omega
  rw [← BitVec.ofInt_natCast, ← BitVec.toInt_inj, BitVec.toInt_ofInt, BitVec.toInt_ofInt, hsize,
    Int.bmod_eq_bmod_iff_bmod_sub_eq_zero, ← Int.dvd_iff_bmod_eq_zero, hsum, Int.dvd_neg, Int.natCast_dvd_natCast,
    ← borrows_eq_zero]
  -- the borrow of the top byte is a whole word
  have htop : 256 ^ (cs.length + 1) ∣ if c < 0x80 then 0 else 256 ^ (cs.length + 1) := by
    split
    · exact Nat.dvd_zero _
    · exact Nat.dvd_refl _
  rw [borrows, Nat.dvd_add_right htop]
  constructor
  · intro hd
    exact Nat.eq_zero_of_dvd_of_lt hd (borrows_lt cs)
  · intro h0
    rw [h0]
    exact Nat.dvd_zero _

end SignedBytes

import Mathlib.Algebra.Group.Int.Defs
import Mathlib.Algebra.Group.Nat.Defs
import Mathlib.Data.List.Basic

/- The C machine the model runs on: 32-bit `int`, 64-bit `size_t`, and flat
   buffers with checked copies.

   An `int` is an `Int`; every signed operation the source performs is passed
   through `cint`, which faults when the value leaves the int32 range (signed
   overflow is undefined, so no later behaviour is claimed). A `size_t` is a
   `Nat` with wrap-around written out. A buffer is the list of the bytes it was
   allocated with; a copy that would touch anything outside it faults. -/
namespace CMachine

/-- What stops a C program in the model. -/
inductive Fault where
  | intOverflow (value : Int)
  | outOfBounds
  | badSize (size : Nat)
  | assertFailed
  | wildPointer
  | hangs
  | outOfFuel
  deriving DecidableEq, Repr

abbrev C := Except Fault

def intMax : Nat := 2 ^ 31 - 1

/-- The result of a signed 32-bit operation. -/
def cint (x : Int) : C Int :=
  if -(2 : Int) ^ 31 ≤ x ∧ x < 2 ^ 31 then .ok x else .error (.intOverflow x)

/-- Conversion of an `int` to `size_t`. -/
def toSize (x : Int) : Nat := (x % 2 ^ 64).toNat

def sizeAdd (a b : Nat) : Nat := (a + b) % 2 ^ 64

def sizeSub (a b : Nat) : Nat := (2 ^ 64 + a - b) % 2 ^ 64

/-- Conversion of a `size_t` to `int`. -/
def toInt (n : Nat) : Int := (n : Int).bmod (2 ^ 32)

/-- The largest request an allocator can serve (`PTRDIFF_MAX`). -/
def maxAlloc : Nat := 2 ^ 63 - 1

/-- `realloc(base, n)` where `want` bytes are meant: the old bytes up to `n`, then fresh
ones. A request of zero bytes, of more than the allocator can serve, or of any size but
the one meant is a fault. -/
def realloc {α : Type} (fresh : Nat → α) (base : List α) (want : Int) (n : Nat) : C (List α) :=
  if (n : Int) ≠ want ∨ n = 0 ∨ maxAlloc < n then .error (.badSize n)
  else .ok (base.take n ++ (List.range (n - base.length)).map fresh)

/-- The `n` elements of `src` from offset `off`. -/
def memRead {α : Type} (src : List α) (off : Int) (n : Nat) : C (List α) :=
  if 0 ≤ off ∧ off + n ≤ src.length then .ok ((src.drop off.toNat).take n)
  else .error .outOfBounds

/-- `dst` with the elements `xs` stored from offset `off`. -/
def memWrite {α : Type} (dst : List α) (off : Int) (xs : List α) : C (List α) :=
  if 0 ≤ off ∧ off + xs.length ≤ dst.length then
    .ok (dst.take off.toNat ++ xs ++ dst.drop (off.toNat + xs.length))
  else .error .outOfBounds

/-- `memcpy(dst + doff, src + soff, n)`; with `src = dst`, `memmove`. -/
def memcpy {α : Type} (dst : List α) (doff : Int) (src : List α) (soff : Int) (n : Nat) :
    C (List α) := do
  let xs ← memRead src soff n
  memWrite dst doff xs

/-- `memchr(base, b, n)`, as an offset. -/
def memchr {α : Type} [DecidableEq α] (base : List α) (b : α) (n : Nat) : C (Option Nat) :=
  if n ≤ base.length then .ok ((base.take n).findIdx? (· == b)) else .error .outOfBounds

/-- `assert(p)`. -/
def cassert (p : Prop) [Decidable p] : C Unit := if p then .ok () else .error .assertFailed

/-! Running the machine. -/

@[simp] theorem ok_bind {φ α β : Type} (a : α) (f : α → Except φ β) :
    ((Except.ok a : Except φ α) >>= f) = f a := rfl

@[simp] theorem error_bind {φ α β : Type} (e : φ) (f : α → Except φ β) :
    ((Except.error e : Except φ α) >>= f) = .error e := rfl

@[simp] theorem pure_ok {φ α : Type} (a : α) : (pure a : Except φ α) = .ok a := rfl

theorem ok_ne_error {φ α : Type} {a : α} {e : φ} : (Except.ok a : Except φ α) ≠ .error e := nofun

/-- A result of a sequence is a result of its first part, passed to the rest. -/
theorem bind_eq_ok {φ α β : Type} {x : Except φ α} {f : α → Except φ β} {b : β} :
    (x >>= f) = .ok b ↔ ∃ a, x = .ok a ∧ f a = .ok b := by
  cases x with
  | error e => simp
  | ok a => simp

@[simp] theorem map_ok {φ α β : Type} (f : α → β) (a : α) : f <$> (Except.ok a : Except φ α) = .ok (f a) := rfl

theorem map_eq_ok {φ α β : Type} {x : Except φ α} {f : α → β} {b : β} :
    f <$> x = .ok b ↔ ∃ a, x = .ok a ∧ f a = b := by
  cases x with
  | error e => exact ⟨nofun, fun ⟨_, h, _⟩ => nomatch h⟩
  | ok a => simp

theorem bind_ne_error {φ α β : Type} {x : Except φ α} {f : α → Except φ β} {e : φ} (hx : x ≠ .error e)
    (hf : ∀ a, x = .ok a → f a ≠ .error e) : (x >>= f) ≠ .error e := by
  cases x with
  | error e' => exact fun h => hx (congrArg Except.error (Except.error.inj h))
  | ok a => exact hf a rfl

theorem cassert_true {p : Prop} [Decidable p] (h : p) : cassert p = .ok () := if_pos h

/-! Integers in range. -/

theorem cint_ok {x : Int} (lo : -(2 : Int) ^ 31 ≤ x) (hi : x ≤ intMax) : cint x = .ok x := by
  have hi' : x < 2 ^ 31 := by simp only [intMax] at hi; omega
  exact if_pos ⟨lo, hi'⟩

theorem cint_nat {x : Int} {n : Nat} (hx : x = n) (hn : n ≤ intMax) : cint x = .ok n := by
  rw [hx, cint_ok (by omega) (by omega)]

theorem cint_overflow {x : Int} (h : (intMax : Int) < x) : cint x = .error (.intOverflow x) := by
  have hi' : ¬ x < 2 ^ 31 := by simp only [intMax] at h; omega
  exact if_neg fun hx => hi' hx.2

theorem cint_eq_ok {x y : Int} (h : cint x = .ok y) : y = x ∧ x ≤ intMax := by
  unfold cint at h
  split at h
  · next hx =>
    refine ⟨(Except.ok.inj h).symm, ?_⟩
    simp only [intMax]
    omega
  · cases h

theorem cint_ne_assertFailed (x : Int) : cint x ≠ .error .assertFailed := by
  unfold cint
  split <;> nofun

theorem toSize_natCast {n : Nat} (h : n < 2 ^ 64) : toSize (n : Int) = n := by
  unfold toSize
  omega

theorem toSize_of_nonneg {x : Int} (lo : 0 ≤ x) (hi : x < 2 ^ 64) : toSize x = x.toNat := by
  unfold toSize
  omega

theorem sizeAdd_eq {a b : Nat} (h : a + b < 2 ^ 64) : sizeAdd a b = a + b := Nat.mod_eq_of_lt h

theorem sizeSub_eq {a b : Nat} (h : b ≤ a) (ha : a < 2 ^ 64) : sizeSub a b = a - b := by
  unfold sizeSub
  omega

theorem toInt_eq {n : Nat} (h : n ≤ intMax) : toInt n = n := by
  have h31 : n < 2 ^ 31 := by simp only [intMax] at h; omega
  exact Int.bmod_eq_of_le (by omega) (by omega)

theorem toInt_le (n : Nat) : toInt n ≤ n ∧ toInt n ≤ intMax := by
  have h31 : toInt n < 2 ^ 31 := Int.bmod_lt (by decide)
  refine ⟨?_, by simp only [intMax]; omega⟩
  unfold toInt
  rw [Int.bmod_def]
  split <;> omega

/-! Copies inside a buffer cut into its parts. -/

section Parts
variable {α : Type}

theorem memRead_mid {s A B D : List α} {i : Int} {n : Nat} (h : s = A ++ (B ++ D))
    (hi : i = A.length) (hn : n = B.length) : memRead s i n = .ok B := by
  subst h hi hn
  have hb : (0 : Int) ≤ A.length ∧ (A.length : Int) + B.length ≤ (A ++ (B ++ D)).length := by
    simp only [List.length_append]; omega
  rw [memRead, if_pos hb]
  simp

theorem memWrite_mid {d A B X : List α} {i : Int} (h : d = A ++ B) (hi : i = A.length)
    (hn : X.length ≤ B.length) :
    memWrite d i X = .ok (A ++ (X ++ B.drop X.length)) := by
  subst h hi
  have hb : (0 : Int) ≤ A.length ∧ (A.length : Int) + X.length ≤ (A ++ B).length := by
    simp only [List.length_append]; omega
  have hA : A.drop (A.length + X.length) = [] := List.drop_of_length_le (by omega)
  rw [memWrite, if_pos hb]
  simp [List.drop_append, hA]

/-- A copy of the part `X` of `s = G ++ X ++ D` over the front of the part `B` of `d = A ++ B`. -/
theorem memcpy_mid {d A B s G X D : List α} {i j : Int} {n : Nat} (hd : d = A ++ B) (hi : i = A.length)
    (hs : s = G ++ (X ++ D)) (hj : j = G.length) (hn : n = X.length) (hfit : X.length ≤ B.length) :
    memcpy d i s j n = .ok (A ++ (X ++ B.drop X.length)) := by
  simp [memcpy, memRead_mid hs hj hn, memWrite_mid hd hi hfit]

theorem realloc_grow (fresh : Nat → α) {b : List α} {w : Int} {n : Nat} (hw : n = w)
    (h0 : 0 < n) (hm : n ≤ maxAlloc) (hl : b.length ≤ n) :
    realloc fresh b w n = .ok (b ++ (List.range (n - b.length)).map fresh) := by
  have : ¬ ((n : Int) ≠ w ∨ n = 0 ∨ maxAlloc < n) := by omega
  simp only [realloc, if_neg this, List.take_of_length_le hl]

theorem memchr_absent [DecidableEq α] {base P J : List α} {b : α} {n : Nat} (h : base = P ++ J)
    (hn : n = P.length) (hb : b ∉ P) : memchr base b n = .ok none := by
  subst h hn
  have : P.findIdx? (· == b) = none := by
    rw [List.findIdx?_eq_none_iff]
    intro x hx
    have : x ≠ b := fun e => hb (e ▸ hx)
    simpa using this
  simp [memchr, this]

theorem memchr_first [DecidableEq α] {base G Y J : List α} {b : α} {n : Nat}
    (h : base = G ++ (b :: Y ++ J)) (hn : n = G.length + (Y.length + 1)) (hb : b ∉ G) :
    memchr base b n = .ok (some G.length) := by
  subst h hn
  have htake : (G ++ (b :: Y ++ J)).take (G.length + (Y.length + 1)) = G ++ b :: Y := by
    rw [← List.append_assoc, List.take_left' (by simp)]
  have hG : G.findIdx? (· == b) = none := by
    rw [List.findIdx?_eq_none_iff]
    intro x hx
    have : x ≠ b := fun e => hb (e ▸ hx)
    simpa using this
  have hle : G.length + (Y.length + 1) ≤ (G ++ (b :: Y ++ J)).length := by
    simp only [List.length_append, List.length_cons]; omega
  rw [memchr, if_pos hle, htake]
  simp [List.findIdx?_append, hG, List.findIdx?_cons]

end Parts

/-! What a copy that is made tells. -/

section Made
variable {α : Type}

theorem memRead_made {src xs : List α} {off : Int} {n : Nat} (h : memRead src off n = .ok xs) :
    0 ≤ off ∧ off + n ≤ src.length ∧ xs = (src.drop off.toNat).take n := by
  unfold memRead at h
  split at h
  · next hin => exact ⟨hin.1, hin.2, (Except.ok.inj h).symm⟩
  · cases h

theorem memWrite_length {dst xs out : List α} {off : Int} (h : memWrite dst off xs = .ok out) :
    out.length = dst.length := by
  unfold memWrite at h
  split at h
  · next hin =>
    rw [← Except.ok.inj h]
    simp only [List.length_append, List.length_take, List.length_drop]
    omega
  · cases h

theorem memcpy_length {dst src out : List α} {doff soff : Int} {n : Nat}
    (h : memcpy dst doff src soff n = .ok out) : out.length = dst.length := by
  obtain ⟨xs, -, hwrite⟩ := bind_eq_ok.1 h
  exact memWrite_length hwrite

theorem realloc_length {fresh : Nat → α} {base out : List α} {want : Int} {n : Nat}
    (h : realloc fresh base want n = .ok out) : out.length = n ∧ (n : Int) = want := by
  unfold realloc at h
  split at h
  · cases h
  · next hno =>
    rw [← Except.ok.inj h]
    simp only [List.length_append, List.length_take, List.length_map, List.length_range]
    omega

end Made

end CMachine

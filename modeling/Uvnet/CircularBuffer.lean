import Uvnet.CMachine
import Uvnet.BoundedQueue

/- `PodCircularBuffer` of `pod_circularbuffer.h`, and how it represents a bounded queue.

   The source tells six memory layouts apart (three in `write`, three in `read`); each is a
   definition of its own here. The proof needs two: the data lies in one piece with room
   behind it (`Layout.straight`; an empty buffer is the case without data), or it runs
   around the end of the storage (`Layout.wrapped`; a full buffer is the case without
   room). Every branch takes one of the two to one of the two. -/
namespace Uvnet
open CMachine BoundedQueue

/-- `PodCircularBuffer<T>`. -/
structure PodCircularBuffer (T : Type) where
  mBEmpty : Bool
  mBFull : Bool
  mPBuf : List T
  mNBufSize : Int
  mNReadPos : Int
  mNWritePos : Int

namespace PodCircularBuffer
variable {T : Type}

/-- The constructor; the storage holds what the allocation happens to hold. -/
def new (fresh : Nat → T) (capacity : Int) : PodCircularBuffer T where
  mBEmpty := true
  mBFull := false
  mPBuf := (List.range capacity.toNat).map fresh
  mNBufSize := capacity
  mNReadPos := 0
  mNWritePos := 0

def full (b : PodCircularBuffer T) : Bool := b.mBFull

def empty (b : PodCircularBuffer T) : Bool := b.mBEmpty

def clear (b : PodCircularBuffer T) : PodCircularBuffer T :=
  { b with mNReadPos := 0, mNWritePos := 0, mBEmpty := true, mBFull := false }

def size (b : PodCircularBuffer T) : C Nat :=
  if b.mBEmpty then return 0
  else if b.mBFull then return toSize b.mNBufSize
  else if b.mNReadPos < b.mNWritePos then do
    let n ← cint (b.mNWritePos - b.mNReadPos)
    return toSize n
  else do
    let n ← cint (b.mNBufSize - b.mNReadPos)
    let n ← cint (n + b.mNWritePos)
    return toSize n

/-- The two assertions at the end of most branches. -/
def assertPos (b : PodCircularBuffer T) : C Unit := do
  cassert (b.mNReadPos ≤ b.mNBufSize)
  cassert (b.mNWritePos ≤ b.mNBufSize)

/-! The branches of `write`. -/

/-- `m_nReadPos == m_nWritePos`: the buffer is empty. -/
def writeEmpty (b : PodCircularBuffer T) (buf : List T) (count : Int) : C (PodCircularBuffer T × Int) := do
  let leftcount ← cint (b.mNBufSize - b.mNWritePos)
  if count < leftcount then
    let store ← memcpy b.mPBuf b.mNWritePos buf 0 (toSize count)
    let w ← cint (b.mNWritePos + count)
    return ({ b with mPBuf := store, mNWritePos := w }, count)
  else
    let store ← memcpy b.mPBuf b.mNWritePos buf 0 (toSize leftcount)
    let extra ← cint (count - leftcount)
    let w := if extra < b.mNReadPos then extra else b.mNWritePos
    let store ← memcpy store 0 buf leftcount (toSize w)
    let n ← cint (leftcount + w)
    return ({ b with mPBuf := store, mNWritePos := w, mBFull := decide (w = b.mNReadPos) }, n)

/-- `m_nReadPos < m_nWritePos`: room behind the data, and before it. -/
def writeBehind (b : PodCircularBuffer T) (buf : List T) (count : Int) : C (PodCircularBuffer T × Int) := do
  let leftcount ← cint (b.mNBufSize - b.mNWritePos)
  if count < leftcount then
    let store ← memcpy b.mPBuf b.mNWritePos buf 0 (toSize count)
    let w ← cint (b.mNWritePos + count)
    let b := { b with mPBuf := store, mNWritePos := w, mBFull := decide (b.mNReadPos = w) }
    b.assertPos
    return (b, count)
  else
    let store ← memcpy b.mPBuf b.mNWritePos buf 0 (toSize leftcount)
    let extra ← cint (count - leftcount)
    let w := if extra ≤ b.mNReadPos then extra else b.mNReadPos
    let store ← memcpy store 0 buf leftcount (toSize w)
    let b := { b with mPBuf := store, mNWritePos := w, mBFull := decide (b.mNReadPos = w) }
    b.assertPos
    let n ← cint (leftcount + w)
    return (b, n)

/-- `m_nWritePos < m_nReadPos`: room between the two pieces of the data. -/
def writeBetween (b : PodCircularBuffer T) (buf : List T) (count : Int) : C (PodCircularBuffer T × Int) := do
  let leftcount ← cint (b.mNReadPos - b.mNWritePos)
  if count < leftcount then
    let store ← memcpy b.mPBuf b.mNWritePos buf 0 (toSize count)
    let w ← cint (b.mNWritePos + count)
    let b := { b with mPBuf := store, mNWritePos := w, mBFull := decide (b.mNReadPos = w) }
    b.assertPos
    return (b, count)
  else
    let store ← memcpy b.mPBuf b.mNWritePos buf 0 (toSize leftcount)
    let w ← cint (b.mNWritePos + leftcount)
    let b : PodCircularBuffer T := { b with mPBuf := store, mNWritePos := w, mBFull := decide (b.mNReadPos = w) }
    cassert (b.mBFull = true)
    b.assertPos
    return (b, leftcount)

/-- `write`: the number of elements written, and the buffer after. -/
def write (b : PodCircularBuffer T) (buf : List T) (count : Int) : C (PodCircularBuffer T × Int) :=
  if count ≤ 0 then return (b, 0)
  else if b.mBFull then return (b, 0)
  else
    let b := { b with mBEmpty := false }
    if b.mNReadPos = b.mNWritePos then b.writeEmpty buf count
    else if b.mNReadPos < b.mNWritePos then b.writeBehind buf count
    else b.writeBetween buf count

/-! The branches of `read`; they return the caller's array as well. -/

/-- `m_nReadPos == m_nWritePos`: the buffer is full. -/
def readFull (b : PodCircularBuffer T) (buf : List T) (count : Int) : C (PodCircularBuffer T × List T × Int) := do
  let leftcount ← cint (b.mNBufSize - b.mNReadPos)
  if count < leftcount then
    let buf ← memcpy buf 0 b.mPBuf b.mNReadPos (toSize count)
    let r ← cint (b.mNReadPos + count)
    return ({ b with mNReadPos := r, mBEmpty := decide (r = b.mNWritePos) }, buf, count)
  else
    let buf ← memcpy buf 0 b.mPBuf b.mNReadPos (toSize leftcount)
    let extra ← cint (count - leftcount)
    let r := if extra < b.mNWritePos then extra else b.mNWritePos
    let buf ← memcpy buf leftcount b.mPBuf 0 (toSize r)
    let n ← cint (leftcount + r)
    return ({ b with mNReadPos := r, mBEmpty := decide (r = b.mNWritePos) }, buf, n)

/-- `m_nReadPos < m_nWritePos`: the data lies in one piece. -/
def readAhead (b : PodCircularBuffer T) (buf : List T) (count : Int) : C (PodCircularBuffer T × List T × Int) := do
  let leftcount ← cint (b.mNWritePos - b.mNReadPos)
  let c := if count < leftcount then count else leftcount
  let buf ← memcpy buf 0 b.mPBuf b.mNReadPos (toSize c)
  let r ← cint (b.mNReadPos + c)
  let b := { b with mNReadPos := r, mBEmpty := decide (r = b.mNWritePos) }
  b.assertPos
  return (b, buf, c)

/-- `m_nWritePos < m_nReadPos`: the data runs around the end. -/
def readAround (b : PodCircularBuffer T) (buf : List T) (count : Int) : C (PodCircularBuffer T × List T × Int) := do
  let leftcount ← cint (b.mNBufSize - b.mNReadPos)
  if count < leftcount then
    let buf ← memcpy buf 0 b.mPBuf b.mNReadPos (toSize count)
    let r ← cint (b.mNReadPos + count)
    let b := { b with mNReadPos := r, mBEmpty := decide (r = b.mNWritePos) }
    b.assertPos
    return (b, buf, count)
  else
    let buf ← memcpy buf 0 b.mPBuf b.mNReadPos (toSize leftcount)
    let extra ← cint (count - leftcount)
    let r := if extra ≤ b.mNWritePos then extra else b.mNWritePos
    let buf ← memcpy buf leftcount b.mPBuf 0 (toSize r)
    let b := { b with mNReadPos := r, mBEmpty := decide (r = b.mNWritePos) }
    b.assertPos
    let n ← cint (leftcount + r)
    return (b, buf, n)

/-- `read`: the number of elements read, with the caller's array and the buffer after. -/
def read (b : PodCircularBuffer T) (buf : List T) (count : Int) : C (PodCircularBuffer T × List T × Int) :=
  if count ≤ 0 then return (b, buf, 0)
  else if b.mBEmpty then return (b, buf, 0)
  else
    let b := { b with mBFull := false }
    if b.mNReadPos = b.mNWritePos then b.readFull buf count
    else if b.mNReadPos < b.mNWritePos then b.readAhead buf count
    else b.readAround buf count

/-- What the buffer holds, oldest first. -/
def contents (b : PodCircularBuffer T) : List T :=
  if b.mBEmpty then []
  else if b.mNReadPos < b.mNWritePos then
    (b.mPBuf.drop b.mNReadPos.toNat).take (b.mNWritePos - b.mNReadPos).toNat
  else b.mPBuf.drop b.mNReadPos.toNat ++ b.mPBuf.take b.mNWritePos.toNat

/-! The representation invariant. -/

/-- How the queue `q` lies in the storage. -/
inductive Layout (b : PodCircularBuffer T) : List T → Prop where
  | straight {A q E} (store : b.mPBuf = A ++ (q ++ E)) (room : E ≠ [])
      (readPos : b.mNReadPos = A.length) (writePos : b.mNWritePos = (A ++ q).length)
      (empty : b.mBEmpty = q.isEmpty) (full : b.mBFull = false) : Layout b q
  | wrapped {D E q} (store : b.mPBuf = D ++ (E ++ q)) (data : q ≠ [])
      (writePos : b.mNWritePos = D.length) (readPos : b.mNReadPos = (D ++ E).length)
      (empty : b.mBEmpty = false) (full : b.mBFull = E.isEmpty) : Layout b (q ++ D)

/-- `b` represents the bounded queue `q`. -/
structure Rep {cap : Nat} (b : PodCircularBuffer T) (q : Queue T cap) : Prop where
  size : b.mNBufSize = cap
  alloc : b.mPBuf.length = cap
  max : cap ≤ intMax
  layout : Layout b q.items

section Spec
variable {cap : Nat} {b : PodCircularBuffer T} {q : Queue T cap}

theorem new_rep (fresh : Nat → T) (h0 : 0 < cap) (hmax : cap ≤ intMax) :
    Rep (new fresh cap) (Queue.empty : Queue T cap) where
  size := rfl
  alloc := by simp [new]
  max := hmax
  layout := .straight (A := []) (q := []) rfl (by simp; omega) rfl rfl rfl rfl

theorem clear_rep (h0 : 0 < cap) (h : Rep b q) : Rep b.clear (Queue.empty : Queue T cap) where
  size := h.size
  alloc := h.alloc
  max := h.max
  layout := by
    refine .straight (A := []) (q := []) (E := b.mPBuf) rfl ?_ rfl rfl rfl rfl
    intro hnil
    have := h.alloc
    rw [hnil, List.length_nil] at this
    omega

/-! What the queries say. -/

theorem size_spec (h : Rep b q) : b.size = .ok q.items.length := by
  have hlt : intMax < 2 ^ 31 := by decide
  have hmax := h.max
  have hlen := h.alloc
  have hsize := h.size
  obtain ⟨-, -, -, hlay⟩ := h
  generalize q.items = items at hlay ⊢
  cases hlay with
  | @straight A d E hst hroom hr hw he hf =>
    have hE := List.length_pos_of_ne_nil hroom
    rw [hst] at hlen
    simp only [List.length_append] at hlen hw
    by_cases hd : items = []
    · subst hd
      simp only [size, he]
      rfl
    · have hdpos := List.length_pos_of_ne_nil hd
      have hless : b.mNReadPos < b.mNWritePos := by omega
      have hdiff : b.mNWritePos - b.mNReadPos = items.length := by omega
      have hnotempty : b.mBEmpty = false := by rw [he, List.isEmpty_eq_false_iff]; exact hd
      simp only [size, hnotempty, hf, if_pos hless, hdiff]
      rw [cint_ok (by omega) (by omega), ok_bind, toSize_natCast (by omega)]
      rfl
  | @wrapped D E d hst hdata hw hr he hf =>
    rw [hst] at hlen
    simp only [List.length_append] at hlen hr ⊢
    by_cases hE : E = []
    · subst hE
      rw [List.length_nil] at hlen
      have hisfull : b.mBFull = true := by rw [hf]; rfl
      simp only [size, he, hisfull, hsize]
      rw [toSize_natCast (by omega)]
      simp only [if_true, pure_ok, Bool.false_eq_true, if_false, Except.ok.injEq]
      omega
    · have hEpos := List.length_pos_of_ne_nil hE
      have hno : ¬ b.mNReadPos < b.mNWritePos := by omega
      have hnotfull : b.mBFull = false := by rw [hf, List.isEmpty_eq_false_iff]; exact hE
      have hdiff : b.mNBufSize - b.mNReadPos = d.length := by omega
      have hsum : (d.length : Int) + b.mNWritePos = (d.length + D.length : Nat) := by omega
      simp only [size, he, hnotfull, if_neg hno, hdiff]
      rw [cint_ok (by omega) (by omega), ok_bind, hsum, cint_ok (by omega) (by omega), ok_bind,
        toSize_natCast (by omega)]
      rfl

theorem contents_spec (h : Rep b q) : b.contents = q.items := by
  obtain ⟨-, -, -, hlay⟩ := h
  generalize q.items = items at hlay ⊢
  unfold contents
  cases hlay with
  | @straight A d E hst _ hr hw he _ =>
    rw [he, hr, hw, hst]
    cases items with
    | nil => simp
    | cons x d =>
      have hlt : (A.length : Int) < (A ++ x :: d).length := by
        simp only [List.length_append, List.length_cons]; omega
      have hlen : (((A ++ x :: d).length : Int) - A.length).toNat = (x :: d).length := by
        simp only [List.length_append]; omega
      rw [List.isEmpty_cons, if_neg Bool.false_ne_true, if_pos hlt, hlen, Int.toNat_natCast, List.drop_left,
        List.take_left]
  | @wrapped D E d hst hdata hw hr he _ =>
    have hge : ¬ ((D ++ E).length : Int) < D.length := by
      simp only [List.length_append]; omega
    rw [he, hr, hw, hst, if_neg Bool.false_ne_true, if_neg hge, Int.toNat_natCast, Int.toNat_natCast,
      ← List.append_assoc, List.drop_left, List.append_assoc, List.take_left]

theorem empty_spec (h : Rep b q) : b.empty = q.items.isEmpty := by
  obtain ⟨-, -, -, hlay⟩ := h
  generalize q.items = items at hlay ⊢
  cases hlay with
  | straight _ _ _ _ he _ => exact he
  | @wrapped D E d _ hdata _ _ he _ =>
    rw [empty, he]
    symm
    apply List.isEmpty_eq_false_iff.2
    exact List.append_ne_nil_of_left_ne_nil hdata D

theorem full_spec (h : Rep b q) : b.full = decide (q.items.length = cap) := by
  have hlen := h.alloc
  obtain ⟨-, -, -, hlay⟩ := h
  generalize q.items = items at hlay ⊢
  cases hlay with
  | @straight A d E hst hroom _ _ _ hf =>
    have hE := List.length_pos_of_ne_nil hroom
    rw [hst] at hlen
    simp only [List.length_append] at hlen
    rw [full, hf]
    symm
    apply decide_eq_false
    omega
  | @wrapped D E d hst _ _ _ _ hf =>
    rw [hst] at hlen
    simp only [List.length_append] at hlen
    rw [full, hf, Bool.eq_iff_iff, decide_eq_true_iff, List.isEmpty_iff_length_eq_zero, List.length_append]
    omega

theorem pos_spec (h : Rep b q) :
    (0 ≤ b.mNReadPos ∧ b.mNReadPos < cap) ∧ (0 ≤ b.mNWritePos ∧ b.mNWritePos < cap) := by
  have hlen := h.alloc
  obtain ⟨-, -, -, hlay⟩ := h
  generalize q.items = items at hlay
  cases hlay with
  | @straight A d E hst hroom hr hw _ _ =>
    have hE := List.length_pos_of_ne_nil hroom
    rw [hst] at hlen
    simp only [List.length_append] at hlen hw
    omega
  | @wrapped D E d hst hdata hw hr _ _ =>
    have hd := List.length_pos_of_ne_nil hdata
    rw [hst] at hlen
    simp only [List.length_append] at hlen hr
    omega

end Spec

end PodCircularBuffer

end Uvnet

import Uvnet.CircularBuffer

/- `write` and `read` of `PodCircularBuffer`, layout by layout.

   The lemmas named after a layout evaluate the source's branches on it; `write_spec` and
   `read_spec` read the results as the queue's `put` and `get`. -/
namespace Uvnet
open CMachine BoundedQueue

namespace PodCircularBuffer
variable {T : Type}

section Spec
variable {cap : Nat} {b : PodCircularBuffer T} {q : Queue T cap}

/-! `write`. -/

section Write
variable {A E D d X Y Z buf store : List T}

/-- A copy to the end of the storage, and the rest of the source to its front. -/
theorem copy_around {i : Int} (hst : store = A ++ (d ++ E)) (hbuf : buf = X ++ (Y ++ Z))
    (hi : i = (A ++ d).length) (hX : X.length = E.length) (hY : Y.length ≤ A.length) :
    memcpy store i buf 0 X.length = .ok (A ++ (d ++ X)) ∧
    memcpy (A ++ (d ++ X)) 0 buf X.length Y.length = .ok (Y ++ (A.drop Y.length ++ (d ++ X))) := by
  have hdrop : E.drop X.length = [] := List.drop_of_length_le (Nat.le_of_eq hX.symm)
  have h₁ := memcpy_mid (d := store) (i := i) (s := buf) (j := 0) (n := X.length) (A := A ++ d) (B := E)
    (G := []) (X := X) (D := Y ++ Z) (by rw [hst]; simp) hi (by simpa using hbuf) rfl rfl (by omega)
  have h₂ := memcpy_mid (d := A ++ (d ++ X)) (i := 0) (s := buf) (j := X.length) (n := Y.length) (A := [])
    (B := A ++ (d ++ X)) (G := X) (X := Y) (D := Z) rfl rfl hbuf rfl rfl (by rw [List.length_append]; omega)
  refine ⟨?_, ?_⟩
  · rw [h₁, hdrop, List.append_nil, List.append_assoc]
  · rw [h₂, List.nil_append, List.drop_append_of_le_length hY]

theorem write_straight_fits (hsize : b.mNBufSize = b.mPBuf.length) (hmax : b.mPBuf.length ≤ intMax)
    (hst : b.mPBuf = A ++ (d ++ E)) (hr : b.mNReadPos = A.length) (hw : b.mNWritePos = (A ++ d).length)
    (hfull : b.mBFull = false) (hbuf : buf = X ++ Z) (h0 : 0 < X.length) (hX : X.length < E.length) :
    write b buf X.length = .ok ({ b with
      mBEmpty := false
      mPBuf := A ++ (d ++ X ++ E.drop X.length)
      mNWritePos := (A ++ (d ++ X)).length
      mBFull := false }, X.length) := by
  have hlt : intMax < 2 ^ 31 := by decide
  have hlen := congrArg List.length hst
  simp only [List.length_append] at hlen hw
  have hleft : cint (b.mNBufSize - b.mNWritePos) = .ok E.length := cint_nat (by omega) (by omega)
  have hcopy := memcpy_mid (d := b.mPBuf) (i := b.mNWritePos) (s := buf) (j := 0) (n := X.length) (A := A ++ d)
    (B := E) (G := []) (X := X) (D := Z) (by rw [hst]; simp) (by rw [hw, List.length_append])
    (by simpa using hbuf) rfl rfl (by omega)
  have hnext : cint (b.mNWritePos + X.length) = .ok (A ++ (d ++ X)).length :=
    cint_nat (by simp only [List.length_append]; omega) (by simp only [List.length_append]; omega)
  have hcount : ¬ ((X.length : Int) ≤ 0) := by omega
  have hfits : (X.length : Int) < E.length := by omega
  have hsizeX : toSize (X.length : Int) = X.length := toSize_natCast (by omega)
  have hassoc : A ++ d ++ (X ++ E.drop X.length) = A ++ (d ++ X ++ E.drop X.length) := by simp
  by_cases hd : d.length = 0
  · -- no data: the positions are equal
    have heq : b.mNReadPos = b.mNWritePos := by omega
    simp only [write, if_neg hcount, hfull, if_pos heq, writeEmpty, hleft, ok_bind, if_pos hfits, hsizeX, hcopy,
      hnext, hassoc]
    rfl
  · have hne : ¬ b.mNReadPos = b.mNWritePos := by omega
    have hless : b.mNReadPos < b.mNWritePos := by omega
    have hread : b.mNReadPos ≤ b.mNBufSize := by omega
    have hwrite : ((A ++ (d ++ X)).length : Int) ≤ b.mNBufSize := by
      simp only [List.length_append]; omega
    have hnotfull : decide (b.mNReadPos = ((A ++ (d ++ X)).length : Int)) = false := by
      refine decide_eq_false ?_
      simp only [List.length_append]; omega
    simp only [write, if_neg hcount, hfull, if_neg hne, if_pos hless, writeBehind, hleft, ok_bind, if_pos hfits,
      hsizeX, hcopy, hnext, assertPos, cassert_true hread, cassert_true hwrite, hnotfull, hassoc]
    rfl

/-- The data lies in one piece, and what is written goes on at the front of the storage. -/
theorem write_straight_wraps (hsize : b.mNBufSize = b.mPBuf.length) (hmax : b.mPBuf.length ≤ intMax)
    (hst : b.mPBuf = A ++ (d ++ E)) (hr : b.mNReadPos = A.length) (hw : b.mNWritePos = (A ++ d).length)
    (hfull : b.mBFull = false) {count : Nat} (hbuf : buf = X ++ (Y ++ Z)) (h0 : 0 < count) (hX : X.length = E.length)
    (hcount : E.length ≤ count) (hcmax : count ≤ intMax) (hY : Y.length = min (count - E.length) A.length) :
    write b buf count = .ok ({ b with
      mBEmpty := false
      mPBuf := Y ++ (A.drop Y.length ++ (d ++ X))
      mNWritePos := Y.length
      mBFull := (A.drop Y.length).isEmpty }, (X ++ Y).length) := by
  have hlt : intMax < 2 ^ 31 := by decide
  have hlen := congrArg List.length hst
  simp only [List.length_append] at hlen hw
  have hleft : cint (b.mNBufSize - b.mNWritePos) = .ok X.length := cint_nat (by omega) (by omega)
  have hover : cint ((count : Int) - X.length) = .ok (count - E.length : Nat) := cint_nat (by omega) (by omega)
  have hsum : cint ((X.length : Int) + Y.length) = .ok (X ++ Y).length :=
    cint_nat (by rw [List.length_append]; omega) (by rw [List.length_append]; omega)
  obtain ⟨hcopy₁, hcopy₂⟩ := copy_around hst hbuf (i := b.mNWritePos) (by rw [hw, List.length_append]) hX (by omega)
  have hpos : ¬ ((count : Int) ≤ 0) := by omega
  have hno : ¬ (count : Int) < X.length := by omega
  have hsizeX : toSize (X.length : Int) = X.length := toSize_natCast (by omega)
  have hsizeY : toSize (Y.length : Int) = Y.length := toSize_natCast (by omega)
  have hisfull : decide (b.mNReadPos = (Y.length : Int)) = (A.drop Y.length).isEmpty := by
    rw [Bool.eq_iff_iff, decide_eq_true_iff, List.isEmpty_iff_length_eq_zero, List.length_drop]
    omega
  by_cases hd : d.length = 0
  · -- no data: the positions are equal
    have heq : b.mNReadPos = b.mNWritePos := by omega
    have hend : (if ((count - E.length : Nat) : Int) < b.mNReadPos then ((count - E.length : Nat) : Int)
        else b.mNWritePos) = Y.length := by
      split <;> omega
    have hisfull' : decide ((Y.length : Int) = b.mNReadPos) = (A.drop Y.length).isEmpty := by
      rw [← hisfull, decide_eq_decide]
      exact eq_comm
    simp only [write, if_neg hpos, hfull, if_pos heq, writeEmpty, hleft, ok_bind, if_neg hno, hsizeX, hcopy₁, hover,
      hend, hsizeY, hcopy₂, hsum, hisfull']
    rfl
  · have hne : ¬ b.mNReadPos = b.mNWritePos := by omega
    have hless : b.mNReadPos < b.mNWritePos := by omega
    have hread : b.mNReadPos ≤ b.mNBufSize := by omega
    have hwrite : (Y.length : Int) ≤ b.mNBufSize := by omega
    have hend : (if ((count - E.length : Nat) : Int) ≤ b.mNReadPos then ((count - E.length : Nat) : Int)
        else b.mNReadPos) = Y.length := by
      split <;> omega
    simp only [write, if_neg hpos, hfull, if_neg hne, if_pos hless, writeBehind, hleft, ok_bind, if_neg hno, hsizeX,
      hcopy₁, hover, hend, hsizeY, hcopy₂, hsum, assertPos, cassert_true hread, cassert_true hwrite, hisfull]
    rfl

/-- The data runs around the end: what fits goes between its two pieces. -/
theorem write_wrapped (hsize : b.mNBufSize = b.mPBuf.length) (hmax : b.mPBuf.length ≤ intMax)
    (hst : b.mPBuf = D ++ (E ++ d)) (hw : b.mNWritePos = D.length) (hr : b.mNReadPos = (D ++ E).length)
    (hE : 0 < E.length) (hfull : b.mBFull = false) {count : Nat} (hbuf : buf = X ++ Z) (h0 : 0 < count)
    (hcmax : count ≤ intMax) (hX : X.length = min count E.length) :
    write b buf count = .ok ({ b with
      mBEmpty := false
      mPBuf := D ++ X ++ (E.drop X.length ++ d)
      mNWritePos := (D ++ X).length
      mBFull := (E.drop X.length).isEmpty }, X.length) := by
  have hlt : intMax < 2 ^ 31 := by decide
  have hlen := congrArg List.length hst
  simp only [List.length_append] at hlen hr
  have hpos : ¬ ((count : Int) ≤ 0) := by omega
  have hne : ¬ b.mNReadPos = b.mNWritePos := by omega
  have hno : ¬ b.mNReadPos < b.mNWritePos := by omega
  have hleft : cint (b.mNReadPos - b.mNWritePos) = .ok E.length := cint_nat (by omega) (by omega)
  have hcopy := memcpy_mid (d := b.mPBuf) (i := b.mNWritePos) (s := buf) (j := 0) (n := X.length) (A := D)
    (B := E ++ d) (G := []) (X := X) (D := Z) hst hw (by simpa using hbuf) rfl rfl
    (by rw [List.length_append]; omega)
  rw [List.drop_append_of_le_length (by omega), ← List.append_assoc] at hcopy
  have hnext : cint (b.mNWritePos + X.length) = .ok (D ++ X).length :=
    cint_nat (by rw [List.length_append]; omega) (by rw [List.length_append]; omega)
  have hisfull : decide (b.mNReadPos = ((D ++ X).length : Int)) = (E.drop X.length).isEmpty := by
    rw [Bool.eq_iff_iff, decide_eq_true_iff, List.isEmpty_iff_length_eq_zero, List.length_drop, List.length_append]
    omega
  have hread : b.mNReadPos ≤ b.mNBufSize := by omega
  have hwrite : ((D ++ X).length : Int) ≤ b.mNBufSize := by rw [List.length_append]; omega
  have hsizeX : toSize (X.length : Int) = X.length := toSize_natCast (by omega)
  by_cases hfits : (count : Int) < E.length
  · have hcX : (count : Int) = X.length := by omega
    rw [hcX] at hfits hpos ⊢
    simp only [write, if_neg hpos, hfull, if_neg hne, if_neg hno, writeBetween, hleft, ok_bind, if_pos hfits, hsizeX,
      hcopy, hnext, assertPos, cassert_true hread, cassert_true hwrite, hisfull]
    rfl
  · -- The gap is filled, and the source asserts that the buffer is full.
    have hEX : E.length = X.length := by omega
    have hassert : (E.drop X.length).isEmpty = true := by
      rw [List.isEmpty_iff_length_eq_zero, List.length_drop]
      omega
    rw [hEX] at hleft hfits
    simp only [write, if_neg hpos, hfull, if_neg hne, if_neg hno, writeBetween, hleft, ok_bind, if_neg hfits, hsizeX,
      hcopy, hnext, hisfull, cassert_true hassert, assertPos, cassert_true hread, cassert_true hwrite]
    rfl

end Write

/-- What a write of `X` to a buffer that holds `items` leaves behind. -/
structure Wrote (b b' : PodCircularBuffer T) (items X : List T) : Prop where
  size : b'.mNBufSize = b.mNBufSize
  alloc : b'.mPBuf.length = b.mPBuf.length
  layout : Layout b' (items ++ X.take (b.mPBuf.length - items.length))

section Put
variable {A D E d X Z buf : List T}

theorem write_straight (hsize : b.mNBufSize = b.mPBuf.length) (hmax : b.mPBuf.length ≤ intMax)
    (hst : b.mPBuf = A ++ (d ++ E)) (hr : b.mNReadPos = A.length) (hw : b.mNWritePos = (A ++ d).length)
    (hfull : b.mBFull = false) (hroom : E ≠ []) (hbuf : buf = X ++ Z) (h0 : 0 < X.length)
    (hXmax : X.length ≤ intMax) :
    ∃ b', write b buf X.length = .ok (b', ((X.take (b.mPBuf.length - d.length)).length : Int)) ∧ Wrote b b' d X := by
  have hlen := congrArg List.length hst
  simp only [List.length_append] at hlen
  have hE := List.length_pos_of_ne_nil hroom
  by_cases hfits : X.length < E.length
  · have hall : X.take (b.mPBuf.length - d.length) = X := List.take_of_length_le (by omega)
    refine ⟨_, (write_straight_fits hsize hmax hst hr hw hfull hbuf h0 hfits).trans (by rw [hall]), ?_⟩
    refine ⟨rfl, ?_, ?_⟩
    · simp only [List.length_append, List.length_drop]; omega
    · rw [hall]
      refine .straight rfl ?_ hr rfl ?_ rfl
      · apply List.ne_nil_of_length_pos
        rw [List.length_drop]; omega
      · symm
        apply List.isEmpty_eq_false_iff.2
        apply List.ne_nil_of_length_pos
        rw [List.length_append]; omega
  · -- What does not fit behind the data goes to the front, as far as there is room.
    have hX₁ : (X.take E.length).length = E.length := List.length_take_of_le (by omega)
    have hY : ((X.drop E.length).take A.length).length = min (X.length - E.length) A.length := by
      rw [List.length_take, List.length_drop, Nat.min_comm]
    have hcut : buf = X.take E.length ++ ((X.drop E.length).take A.length ++
        ((X.drop E.length).drop A.length ++ Z)) := by
      rw [hbuf, ← List.append_assoc ((X.drop E.length).take A.length), List.take_append_drop, ← List.append_assoc,
        List.take_append_drop]
    have hacc : X.take (b.mPBuf.length - d.length) = X.take E.length ++ (X.drop E.length).take A.length := by
      rw [← List.take_add]
      congr 1
      omega
    have hitems : d ++ X.take (b.mPBuf.length - d.length) =
        (d ++ X.take E.length) ++ (X.drop E.length).take A.length := by
      rw [hacc, List.append_assoc]
    refine ⟨_, (write_straight_wraps hsize hmax hst hr hw hfull hcut h0 hX₁ (by omega) hXmax hY).trans (by rw [hacc]),
      ?_⟩
    refine ⟨rfl, ?_, ?_⟩
    · simp only [List.length_append, List.length_drop, hX₁]; omega
    · rw [hitems]
      refine .wrapped rfl ?_ rfl ?_ rfl rfl
      · apply List.ne_nil_of_length_pos
        rw [List.length_append]; omega
      · rw [hr, List.length_append, List.length_drop]; omega

theorem write_around (hsize : b.mNBufSize = b.mPBuf.length) (hmax : b.mPBuf.length ≤ intMax)
    (hst : b.mPBuf = D ++ (E ++ d)) (hw : b.mNWritePos = D.length) (hr : b.mNReadPos = (D ++ E).length)
    (hempty : b.mBEmpty = false) (hfull : b.mBFull = E.isEmpty) (hdata : d ≠ []) (hbuf : buf = X ++ Z)
    (h0 : 0 < X.length) (hXmax : X.length ≤ intMax) :
    ∃ b', write b buf X.length = .ok (b', ((X.take (b.mPBuf.length - (d ++ D).length)).length : Int)) ∧
      Wrote b b' (d ++ D) X := by
  have hlen := congrArg List.length hst
  simp only [List.length_append] at hlen
  have hfree : b.mPBuf.length - (d ++ D).length = E.length := by rw [List.length_append]; omega
  by_cases hE : E = []
  · -- The buffer is full.
    subst hE
    have hnone : X.take (b.mPBuf.length - (d ++ D).length) = [] := by rw [hfree, List.length_nil, List.take_zero]
    refine ⟨b, ?_, rfl, rfl, ?_⟩
    · have hpos : ¬ ((X.length : Int) ≤ 0) := by omega
      have hisfull : b.mBFull = true := by rw [hfull]; rfl
      rw [hnone, write, if_neg hpos, if_pos hisfull]
      rfl
    · rw [hnone, List.append_nil]
      exact .wrapped hst hdata hw hr hempty hfull
  · have hEpos := List.length_pos_of_ne_nil hE
    have hX₁ : (X.take E.length).length = min X.length E.length := by rw [List.length_take, Nat.min_comm]
    have hcut : buf = X.take E.length ++ (X.drop E.length ++ Z) := by
      rw [← List.append_assoc, List.take_append_drop, hbuf]
    have hnotfull : b.mBFull = false := by rw [hfull, List.isEmpty_eq_false_iff]; exact hE
    refine ⟨_, (write_wrapped hsize hmax hst hw hr hEpos hnotfull hcut h0 hXmax hX₁).trans (by rw [hfree]), ?_⟩
    refine ⟨rfl, ?_, ?_⟩
    · simp only [List.length_append, List.length_drop]; omega
    · have hitems : d ++ D ++ X.take (b.mPBuf.length - (d ++ D).length) = d ++ (D ++ X.take E.length) := by
        rw [hfree, List.append_assoc]
      rw [hitems]
      refine .wrapped rfl hdata rfl ?_ rfl rfl
      rw [hr]
      simp only [List.length_append, List.length_drop]
      omega

end Put

/-- **`write` is the queue's `put`.** -/
theorem write_spec {buf : List T} {count : Int} (h : Rep b q) (hbuf : count ≤ buf.length) (hcmax : count ≤ intMax) :
    ∃ b', write b buf count = .ok (b', ((q.accepted (buf.take count.toNat)).length : Int)) ∧
      Rep b' (q.put (buf.take count.toNat)) := by
  have hsize : b.mNBufSize = b.mPBuf.length := by rw [h.size, h.alloc]
  have hmax : b.mPBuf.length ≤ intMax := by rw [h.alloc]; exact h.max
  by_cases hpos : count ≤ 0
  · have htake : buf.take count.toNat = [] := by rw [Int.toNat_of_nonpos hpos, List.take_zero]
    have hput : q.put [] = q := Queue.ext (by simp [Queue.put_items])
    refine ⟨b, ?_, ?_⟩
    · simp only [write, if_pos hpos, htake, Queue.accepted, List.take_nil, List.length_nil]
      rfl
    · rw [htake, hput]
      exact h
  · have hX : (buf.take count.toNat).length = count.toNat := List.length_take_of_le (by omega)
    have hcount : count = (buf.take count.toNat).length := by omega
    have hbuf' := (List.take_append_drop count.toNat buf).symm
    have hfree : b.mPBuf.length - q.items.length = q.free := by rw [h.alloc]; rfl
    obtain ⟨b', hrun, hw⟩ : ∃ b', write b buf (buf.take count.toNat).length =
        .ok (b', (((buf.take count.toNat).take (b.mPBuf.length - q.items.length)).length : Int)) ∧
        Wrote b b' q.items (buf.take count.toNat) := by
      obtain ⟨-, -, -, hlay⟩ := h
      generalize q.items = items at hlay ⊢
      cases hlay with
      | straight hst hroom hr hw he hf => exact write_straight hsize hmax hst hr hw hf hroom hbuf' (by omega) (by omega)
      | wrapped hst hdata hw hr he hf => exact write_around hsize hmax hst hw hr he hf hdata hbuf' (by omega) (by omega)
    have hlay := hw.layout
    rw [hfree] at hrun hlay
    rw [← hcount] at hrun
    exact ⟨b', hrun, hw.size.trans h.size, hw.alloc.trans h.alloc, h.max, hlay⟩

/-! `read`. -/

section Read
variable {A D E d Y V buf store : List T} {count : Nat}

theorem read_straight (hsize : b.mNBufSize = b.mPBuf.length) (hmax : b.mPBuf.length ≤ intMax)
    (hst : b.mPBuf = A ++ (Y ++ V ++ E)) (hr : b.mNReadPos = A.length) (hw : b.mNWritePos = (A ++ (Y ++ V)).length)
    (hempty : b.mBEmpty = false) (hY0 : 0 < Y.length) (hY : Y.length = min count (Y ++ V).length)
    (hbuf : Y.length ≤ buf.length) :
    read b buf count = .ok ({ b with
      mBFull := false
      mNReadPos := (A ++ Y).length
      mBEmpty := V.isEmpty }, Y ++ buf.drop Y.length, Y.length) := by
  have hlt : intMax < 2 ^ 31 := by decide
  have hlen := congrArg List.length hst
  simp only [List.length_append] at hlen hw hY
  have hpos : ¬ ((count : Int) ≤ 0) := by omega
  have hne : ¬ b.mNReadPos = b.mNWritePos := by omega
  have hless : b.mNReadPos < b.mNWritePos := by omega
  have hleft : cint (b.mNWritePos - b.mNReadPos) = .ok (Y.length + V.length : Nat) := cint_nat (by omega) (by omega)
  have hc : (if (count : Int) < (Y.length + V.length : Nat) then (count : Int) else (Y.length + V.length : Nat)) =
      Y.length := by
    split <;> omega
  have hcopy := memcpy_mid (d := buf) (i := 0) (s := b.mPBuf) (j := b.mNReadPos) (n := Y.length) (A := [])
    (B := buf) (G := A) (X := Y) (D := V ++ E) rfl rfl (by rw [hst]; simp) hr rfl hbuf
  rw [List.nil_append] at hcopy
  have hnext : cint (b.mNReadPos + Y.length) = .ok (A ++ Y).length :=
    cint_nat (by rw [List.length_append]; omega) (by rw [List.length_append]; omega)
  have hisempty : decide (((A ++ Y).length : Int) = b.mNWritePos) = V.isEmpty := by
    rw [Bool.eq_iff_iff, decide_eq_true_iff, List.isEmpty_iff_length_eq_zero, List.length_append]
    omega
  have hread : ((A ++ Y).length : Int) ≤ b.mNBufSize := by rw [List.length_append]; omega
  have hwrite : b.mNWritePos ≤ b.mNBufSize := by omega
  have hsizeY : toSize (Y.length : Int) = Y.length := toSize_natCast (by omega)
  simp only [read, if_neg hpos, hempty, if_neg hne, if_pos hless, readAhead, hleft, ok_bind, hc, hsizeY, hcopy, hnext,
    assertPos, cassert_true hread, cassert_true hwrite, hisempty]
  rfl

/-- The data runs around the end, and all that is wanted is before the end. -/
theorem read_wrapped_part (hsize : b.mNBufSize = b.mPBuf.length) (hmax : b.mPBuf.length ≤ intMax)
    (hst : b.mPBuf = D ++ (E ++ (Y ++ V))) (hw : b.mNWritePos = D.length) (hr : b.mNReadPos = (D ++ E).length)
    (hempty : b.mBEmpty = false) (hY0 : 0 < Y.length) (hV : 0 < V.length) (hbuf : Y.length ≤ buf.length) :
    read b buf Y.length = .ok ({ b with
      mBFull := false
      mNReadPos := (D ++ (E ++ Y)).length
      mBEmpty := false }, Y ++ buf.drop Y.length, Y.length) := by
  have hlt : intMax < 2 ^ 31 := by decide
  have hlen := congrArg List.length hst
  simp only [List.length_append] at hlen hr
  have hpos : ¬ ((Y.length : Int) ≤ 0) := by omega
  have hleft : cint (b.mNBufSize - b.mNReadPos) = .ok (Y.length + V.length : Nat) := cint_nat (by omega) (by omega)
  have hfits : (Y.length : Int) < (Y.length + V.length : Nat) := by omega
  have hcopy := memcpy_mid (d := buf) (i := 0) (s := b.mPBuf) (j := b.mNReadPos) (n := Y.length) (A := [])
    (B := buf) (G := D ++ E) (X := Y) (D := V) rfl rfl (by rw [hst]; simp) (by rw [hr, List.length_append]) rfl hbuf
  rw [List.nil_append] at hcopy
  have hnext : cint (b.mNReadPos + Y.length) = .ok (D ++ (E ++ Y)).length :=
    cint_nat (by simp only [List.length_append]; omega) (by simp only [List.length_append]; omega)
  have hnotempty : decide (((D ++ (E ++ Y)).length : Int) = b.mNWritePos) = false := by
    apply decide_eq_false
    simp only [List.length_append]; omega
  have hread : ((D ++ (E ++ Y)).length : Int) ≤ b.mNBufSize := by simp only [List.length_append]; omega
  have hwrite : b.mNWritePos ≤ b.mNBufSize := by omega
  have hsizeY : toSize (Y.length : Int) = Y.length := toSize_natCast (by omega)
  by_cases hE : E.length = 0
  · -- a full buffer: the positions are equal
    have heq : b.mNReadPos = b.mNWritePos := by omega
    simp only [read, if_neg hpos, hempty, if_pos heq, readFull, hleft, ok_bind, if_pos hfits, hsizeY, hcopy, hnext,
      hnotempty]
    rfl
  · have hne : ¬ b.mNReadPos = b.mNWritePos := by omega
    have hno : ¬ b.mNReadPos < b.mNWritePos := by omega
    simp only [read, if_neg hpos, hempty, if_neg hne, if_neg hno, readAround, hleft, ok_bind, if_pos hfits, hsizeY,
      hcopy, hnext, assertPos, cassert_true hread, cassert_true hwrite, hnotempty]
    rfl

/-- The data runs around the end, and reading goes on at the front of the storage. -/
theorem read_wrapped_around (hsize : b.mNBufSize = b.mPBuf.length) (hmax : b.mPBuf.length ≤ intMax)
    (hst : b.mPBuf = Y ++ V ++ (E ++ d)) (hw : b.mNWritePos = (Y ++ V).length)
    (hr : b.mNReadPos = (Y ++ V ++ E).length) (hempty : b.mBEmpty = false) (h0 : 0 < count)
    (hcount : d.length ≤ count) (hcmax : count ≤ intMax) (hY : Y.length = min (count - d.length) (Y ++ V).length)
    (hbuf : (d ++ Y).length ≤ buf.length) :
    read b buf count = .ok ({ b with
      mBFull := false
      mNReadPos := Y.length
      mBEmpty := V.isEmpty }, d ++ Y ++ buf.drop (d ++ Y).length, (d ++ Y).length) := by
  have hlt : intMax < 2 ^ 31 := by decide
  have hlen := congrArg List.length hst
  simp only [List.length_append] at hlen hr hw hY hbuf
  have hpos : ¬ ((count : Int) ≤ 0) := by omega
  have hleft : cint (b.mNBufSize - b.mNReadPos) = .ok d.length := cint_nat (by omega) (by omega)
  have hno : ¬ (count : Int) < d.length := by omega
  have hover : cint ((count : Int) - d.length) = .ok (count - d.length : Nat) := cint_nat (by omega) (by omega)
  have hcopy₁ := memcpy_mid (d := buf) (i := 0) (s := b.mPBuf) (j := b.mNReadPos) (n := d.length) (A := [])
    (B := buf) (G := Y ++ V ++ E) (X := d) (D := []) rfl rfl (by rw [hst]; simp)
    (by rw [hr]; simp only [List.length_append]) rfl (by omega)
  rw [List.nil_append] at hcopy₁
  have hcopy₂ := memcpy_mid (d := d ++ buf.drop d.length) (i := d.length) (s := b.mPBuf) (j := 0) (n := Y.length)
    (A := d) (B := buf.drop d.length) (G := []) (X := Y) (D := V ++ (E ++ d)) rfl rfl (by rw [hst]; simp) rfl rfl
    (by rw [List.length_drop]; omega)
  have hcopied : d ++ (Y ++ (buf.drop d.length).drop Y.length) = d ++ Y ++ buf.drop (d ++ Y).length := by
    rw [List.drop_drop, List.length_append, List.append_assoc]
  rw [hcopied] at hcopy₂
  have hsum : cint ((d.length : Int) + Y.length) = .ok (d ++ Y).length :=
    cint_nat (by rw [List.length_append]; omega) (by rw [List.length_append]; omega)
  have hisempty : decide ((Y.length : Int) = b.mNWritePos) = V.isEmpty := by
    rw [Bool.eq_iff_iff, decide_eq_true_iff, List.isEmpty_iff_length_eq_zero]
    omega
  have hread : (Y.length : Int) ≤ b.mNBufSize := by omega
  have hwrite : b.mNWritePos ≤ b.mNBufSize := by omega
  have hsized : toSize (d.length : Int) = d.length := toSize_natCast (by omega)
  have hsizeY : toSize (Y.length : Int) = Y.length := toSize_natCast (by omega)
  by_cases hE : E.length = 0
  · -- a full buffer: the positions are equal
    have heq : b.mNReadPos = b.mNWritePos := by omega
    have hend : (if ((count - d.length : Nat) : Int) < b.mNWritePos then ((count - d.length : Nat) : Int)
        else b.mNWritePos) = Y.length := by
      split <;> omega
    simp only [read, if_neg hpos, hempty, if_pos heq, readFull, hleft, ok_bind, if_neg hno, hsized, hcopy₁, hover, hend,
      hsizeY, hcopy₂, hsum, hisempty]
    rfl
  · have hne : ¬ b.mNReadPos = b.mNWritePos := by omega
    have hnot : ¬ b.mNReadPos < b.mNWritePos := by omega
    have hend : (if ((count - d.length : Nat) : Int) ≤ b.mNWritePos then ((count - d.length : Nat) : Int)
        else b.mNWritePos) = Y.length := by
      split <;> omega
    simp only [read, if_neg hpos, hempty, if_neg hne, if_neg hnot, readAround, hleft, ok_bind, if_neg hno, hsized,
      hcopy₁, hover, hend, hsizeY, hcopy₂, hsum, assertPos, cassert_true hread, cassert_true hwrite, hisempty]
    rfl

end Read

/-- What a read of `n` elements from a buffer that holds `items` leaves behind. -/
structure DidRead (b b' : PodCircularBuffer T) (items : List T) (n : Nat) : Prop where
  size : b'.mNBufSize = b.mNBufSize
  alloc : b'.mPBuf.length = b.mPBuf.length
  layout : Layout b' (items.drop n)

section Get
variable {A D E d buf : List T} {n : Nat}

theorem read_ahead (hsize : b.mNBufSize = b.mPBuf.length) (hmax : b.mPBuf.length ≤ intMax)
    (hst : b.mPBuf = A ++ (d ++ E)) (hr : b.mNReadPos = A.length) (hw : b.mNWritePos = (A ++ d).length)
    (hempty : b.mBEmpty = d.isEmpty) (hroom : E ≠ []) (hfull : b.mBFull = false) (h0 : 0 < n) (hn : n ≤ buf.length) :
    ∃ b', read b buf n = .ok (b', d.take n ++ buf.drop (d.take n).length, ((d.take n).length : Int)) ∧
      DidRead b b' d n := by
  by_cases hd : d = []
  · -- The buffer is empty.
    subst hd
    refine ⟨b, ?_, rfl, rfl, ?_⟩
    · have hpos : ¬ ((n : Int) ≤ 0) := by omega
      have hisempty : b.mBEmpty = true := by rw [hempty]; rfl
      rw [read, if_neg hpos, if_pos hisempty, List.take_nil]
      rfl
    · rw [List.drop_nil]
      exact .straight hst hroom hr hw hempty hfull
  · have hdpos := List.length_pos_of_ne_nil hd
    have hcut := List.take_append_drop n d
    have hY : (d.take n).length = min n d.length := List.length_take
    have hnotempty : b.mBEmpty = false := by rw [hempty, List.isEmpty_eq_false_iff]; exact hd
    refine ⟨_, read_straight (Y := d.take n) (V := d.drop n) (A := A) (E := E) hsize hmax (by rw [hcut]; exact hst) hr
      (by rw [hcut]; exact hw) hnotempty (by omega) (by rw [hcut]; exact hY) (by omega), rfl, rfl, ?_⟩
    refine .straight (A := A ++ d.take n) (E := E) ?_ hroom rfl ?_ rfl rfl
    · rw [hst, List.append_assoc, ← List.append_assoc (d.take n), hcut]
    · rw [hw, List.append_assoc, hcut]

theorem read_around (hsize : b.mNBufSize = b.mPBuf.length) (hmax : b.mPBuf.length ≤ intMax)
    (hst : b.mPBuf = D ++ (E ++ d)) (hw : b.mNWritePos = D.length) (hr : b.mNReadPos = (D ++ E).length)
    (hempty : b.mBEmpty = false) (hdata : d ≠ []) (h0 : 0 < n) (hn : n ≤ buf.length) (hnmax : n ≤ intMax) :
    ∃ b', read b buf n = .ok (b', (d ++ D).take n ++ buf.drop ((d ++ D).take n).length, (((d ++ D).take n).length : Int)) ∧
      DidRead b b' (d ++ D) n := by
  by_cases hpart : n < d.length
  · -- what is wanted is before the end
    have hcut := List.take_append_drop n d
    have hY : (d.take n).length = n := List.length_take_of_le (by omega)
    have hV : 0 < (d.drop n).length := by rw [List.length_drop]; omega
    have hrun : read b buf (d.take n).length = _ := read_wrapped_part (Y := d.take n) (V := d.drop n) hsize hmax
      (by rw [hcut]; exact hst) hw hr hempty (by omega) hV (by omega)
    rw [List.take_append_of_le_length (Nat.le_of_lt hpart)]
    rw [hY] at hrun ⊢
    refine ⟨_, hrun, rfl, rfl, ?_⟩
    rw [List.drop_append_of_le_length (Nat.le_of_lt hpart)]
    refine .wrapped (E := E ++ d.take n) ?_ (List.ne_nil_of_length_pos hV) hw rfl rfl ?_
    · rw [hst, List.append_assoc, hcut]
    · symm
      apply List.isEmpty_eq_false_iff.2
      apply List.ne_nil_of_length_pos
      rw [List.length_append]; omega
  · -- the piece before the end, and what is missing from the front
    have hcut := List.take_append_drop (n - d.length) D
    have hY : (D.take (n - d.length)).length = min (n - d.length) D.length := List.length_take
    have hdpos := List.length_pos_of_ne_nil hdata
    have hrun : read b buf n = _ := read_wrapped_around (Y := D.take (n - d.length)) (V := D.drop (n - d.length))
      (d := d) (E := E) hsize hmax (by rw [hcut]; exact hst) (by rw [hcut]; exact hw) (by rw [hcut]; exact hr)
      hempty h0 (by omega) hnmax (by rw [hcut]; exact hY) (by rw [List.length_append]; omega)
    have hout : (d ++ D).take n = d ++ D.take (n - d.length) := by
      rw [List.take_append, List.take_of_length_le (by omega)]
    have hleft : (d ++ D).drop n = D.drop (n - d.length) := by
      rw [List.drop_append, List.drop_of_length_le (by omega), List.nil_append]
    rw [hout]
    refine ⟨_, hrun, rfl, rfl, ?_⟩
    rw [hleft]
    refine .straight (A := D.take (n - d.length)) (E := E ++ d) ?_ ?_ rfl ?_ rfl rfl
    · rw [hst, ← List.append_assoc (D.take _), hcut]
    · apply List.ne_nil_of_length_pos
      rw [List.length_append]; omega
    · rw [hw, hcut]

end Get

/-- **`read` is the queue's `get`.** -/
theorem read_spec {buf : List T} {count : Int} (h : Rep b q) (hbuf : count ≤ buf.length) (hcmax : count ≤ intMax) :
    ∃ b', read b buf count = .ok (b', q.out count.toNat ++ buf.drop (q.out count.toNat).length,
        ((q.out count.toNat).length : Int)) ∧ Rep b' (q.get count.toNat) := by
  have hsize : b.mNBufSize = b.mPBuf.length := by rw [h.size, h.alloc]
  have hmax : b.mPBuf.length ≤ intMax := by rw [h.alloc]; exact h.max
  by_cases hpos : count ≤ 0
  · have hget : q.get 0 = q := Queue.ext rfl
    rw [Int.toNat_of_nonpos hpos, hget]
    refine ⟨b, ?_, h⟩
    rw [read, if_pos hpos]
    rfl
  · obtain ⟨n, rfl⟩ : ∃ n : Nat, count = n := ⟨count.toNat, by omega⟩
    rw [Int.toNat_natCast]
    obtain ⟨b', hrun, hr⟩ : ∃ b', read b buf n =
        .ok (b', q.items.take n ++ buf.drop (q.items.take n).length, ((q.items.take n).length : Int)) ∧
        DidRead b b' q.items n := by
      obtain ⟨-, -, -, hlay⟩ := h
      generalize q.items = items at hlay ⊢
      cases hlay with
      | straight hst hroom hr hw he hf => exact read_ahead hsize hmax hst hr hw he hroom hf (by omega) (by omega)
      | wrapped hst hdata hw hr he hf => exact read_around hsize hmax hst hw hr he hdata (by omega) (by omega) (by omega)
    exact ⟨b', hrun, hr.size.trans h.size, hr.alloc.trans h.alloc, h.max, hr.layout⟩

end Spec

end PodCircularBuffer

end Uvnet

import Mathlib.Algebra.Group.Int.Defs
import Mathlib.Algebra.Group.Nat.Defs
import Mathlib.Data.List.Basic

/- The message `CProto` of `netmessage.proto`, and the parser generated for it.

   A pass of the loop of `MergePartialFromCodedStream` reads a tag and the field behind it
   (`mergeStep`). It works on a `CodedInputStream`, which is not part of the repository: the
   stream is a `Runtime`, with what the loop relies on as its laws. No operation gives bytes
   back and a tag takes at least one, so the loop ends (`mergeStep_lt`); a body is never longer
   than the bytes it comes from (`parse_body_le`).

   Unknown fields, which nobody reads, and the log lines of the UTF-8 check are not modelled. -/
namespace Uvnet

/-- `CProto`, each field with its has-bit: a field that is not set is `none`. -/
structure CProto where
  id_ : Option (BitVec 32)
  body_ : Option (List UInt8)
  deriving DecidableEq, Repr

namespace CProto

/-- `SharedCtor`, and `Clear`. -/
def empty : CProto := ⟨none, none⟩

/-- `id()`; the default where the field is not set. -/
def id (m : CProto) : BitVec 32 := m.id_.getD 0

/-- `body()`. -/
def body (m : CProto) : List UInt8 := m.body_.getD []

/-- `IsInitialized`: both required fields are set. -/
def isInitialized (m : CProto) : Bool := m.id_.isSome && m.body_.isSome

end CProto

/-- What the generated code uses of the protobuf runtime. A stream of type `σ` has `remaining`
bytes to give; an operation that can fail says so with its first result. -/
structure Runtime (σ : Type) where
  stream : List UInt8 → σ
  remaining : σ → Nat
  readTagWithCutoff : BitVec 32 → σ → BitVec 32 × Bool × σ
  readInt32 : σ → Option (BitVec 32) × σ
  /-- `ReadString` into a string that holds `value`. -/
  readString : (value : List UInt8) → σ → Bool × List UInt8 × σ
  expectTag : BitVec 32 → σ → Bool × σ
  expectAtEnd : σ → Bool × σ
  skipField : BitVec 32 → σ → Bool × σ
  consumedEntireMessage : σ → Bool
  writeInt32 : Nat → BitVec 32 → List UInt8
  writeString : Nat → List UInt8 → List UInt8
  stream_remaining : ∀ bytes, remaining (stream bytes) = bytes.length
  /-- A tag is 0 at the end only. -/
  readTag_lt : ∀ cutoff s, (readTagWithCutoff cutoff s).1 ≠ 0 →
    remaining (readTagWithCutoff cutoff s).2.2 < remaining s
  readInt32_le : ∀ s, remaining (readInt32 s).2 ≤ remaining s
  readString_le : ∀ value s, remaining (readString value s).2.2 ≤ remaining s
  expectTag_le : ∀ tag s, remaining (expectTag tag s).2 ≤ remaining s
  expectAtEnd_le : ∀ s, remaining (expectAtEnd s).2 ≤ remaining s
  skipField_le : ∀ tag s, remaining (skipField tag s).2 ≤ remaining s
  readString_value : ∀ value s, (readString value s).2.1.length ≤ max value.length (remaining s)

/-- How a pass of the parser's loop ends: `goto success` or `goto failure`, or another pass. -/
inductive Merge (σ : Type) where
  | done (ok : Bool) (m : CProto) (s : σ)
  | more (m : CProto) (s : σ)

section Parser
variable {σ : Type} (rt : Runtime σ)

/-- `WireFormatLite::GetTagFieldNumber`. -/
def tagFieldNumber (tag : BitVec 32) : BitVec 32 := tag >>> 3

/-- Whether `WireFormatLite::GetTagWireType` is `WIRETYPE_END_GROUP`. -/
def tagEndsGroup (tag : BitVec 32) : Bool := tag &&& 7 == 4

/-- The block at `handle_unusual`. -/
def handleUnusual (tag : BitVec 32) (m : CProto) (s : σ) : Merge σ :=
  if tag = 0 ∨ tagEndsGroup tag then .done true m s
  else match rt.skipField tag s with
    | (true, s) => .more m s
    | (false, s) => .done false m s

/-- The block at `parse_body`. `mutable_body` sets the has-bit before the string is read. -/
def parseBody (m : CProto) (s : σ) : Merge σ :=
  match rt.readString m.body s with
  | (false, body, s) => .done false { m with body_ := some body } s
  | (true, body, s) =>
    match rt.expectAtEnd s with
    | (true, s) => .done true { m with body_ := some body } s
    | (false, s) => .more { m with body_ := some body } s

/-- The block for `tag == 8`. -/
def parseId (m : CProto) (s : σ) : Merge σ :=
  match rt.readInt32 s with
  | (none, s) => .done false m s
  | (some id, s) =>
    match rt.expectTag 18 s with
    | (true, s) => parseBody rt { m with id_ := some id } s
    | (false, s) => .more { m with id_ := some id } s

/-- One pass of the loop. -/
def mergeStep (m : CProto) (s : σ) : Merge σ :=
  match rt.readTagWithCutoff 127 s with
  | (tag, false, s) => handleUnusual rt tag m s
  | (tag, true, s) =>
    if tagFieldNumber tag = 1 then
      if tag = 8 then parseId rt m s else handleUnusual rt tag m s
    else if tagFieldNumber tag = 2 then
      if tag = 18 then parseBody rt m s else handleUnusual rt tag m s
    else handleUnusual rt tag m s

/-! A pass takes bytes, and a body is as long as bytes there were. -/

/-- After the pass fewer than `n` bytes are left, and the body has at most `b`. -/
def Merge.Within (n b : Nat) : Merge σ → Prop
  | .done _ m _ => m.body.length ≤ b
  | .more m s => m.body.length ≤ b ∧ rt.remaining s < n

variable {rt} {m : CProto} {s : σ} {n b : Nat}

theorem handleUnusual_within {tag : BitVec 32} (hm : m.body.length ≤ b) (hs : rt.remaining s < n) :
    (handleUnusual rt tag m s).Within rt n b := by
  have hskip := rt.skipField_le tag s
  unfold handleUnusual
  split
  · exact hm
  · split
    · next s' heq =>
      rw [heq] at hskip
      exact ⟨hm, Nat.lt_of_le_of_lt hskip hs⟩
    · exact hm

theorem parseBody_within (hm : m.body.length ≤ b) (hs : rt.remaining s < n) (hb : rt.remaining s ≤ b) :
    (parseBody rt m s).Within rt n b := by
  have hread := rt.readString_le m.body s
  have hvalue := Nat.le_trans (rt.readString_value m.body s) (Nat.max_le.2 ⟨hm, hb⟩)
  unfold parseBody
  split
  · next body s₁ heq =>
    rw [heq] at hvalue
    exact hvalue
  · next body s₁ heq =>
    rw [heq] at hread hvalue
    have hend := rt.expectAtEnd_le s₁
    split
    · exact hvalue
    · next s₂ heq' =>
      rw [heq'] at hend
      exact ⟨hvalue, Nat.lt_of_le_of_lt (Nat.le_trans hend hread) hs⟩

theorem parseId_within (hm : m.body.length ≤ b) (hs : rt.remaining s < n) (hb : rt.remaining s ≤ b) :
    (parseId rt m s).Within rt n b := by
  have hread := rt.readInt32_le s
  unfold parseId
  split
  · exact hm
  · next id s₁ heq =>
    rw [heq] at hread
    have htag := Nat.le_trans (rt.expectTag_le 18 s₁) hread
    split
    · next s₂ heq' =>
      rw [heq'] at htag
      exact parseBody_within hm (Nat.lt_of_le_of_lt htag hs) (Nat.le_trans htag hb)
    · next s₂ heq' =>
      rw [heq'] at htag
      exact ⟨hm, Nat.lt_of_le_of_lt htag hs⟩

theorem handleUnusual_zero : handleUnusual rt 0 m s = .done true m s := if_pos (.inl rfl)

theorem mergeStep_within (hm : m.body.length ≤ b) (hb : rt.remaining s ≤ b) :
    (mergeStep rt m s).Within rt (rt.remaining s) b := by
  have hlt := rt.readTag_lt 127 s
  unfold mergeStep
  split
  · next tag s₁ heq =>
    rw [heq] at hlt
    by_cases htag : tag = 0
    · rw [htag, handleUnusual_zero]
      exact hm
    · exact handleUnusual_within hm (hlt htag)
  · next tag s₁ heq =>
    rw [heq] at hlt
    by_cases htag : tag = 0
    · rw [htag, if_neg (by decide), if_neg (by decide), handleUnusual_zero]
      exact hm
    · have hs := hlt htag
      have hb' := Nat.le_trans (Nat.le_of_lt hs) hb
      split
      · split
        · exact parseId_within hm hs hb'
        · exact handleUnusual_within hm hs
      · split
        · split
          · exact parseBody_within hm hs hb'
          · exact handleUnusual_within hm hs
        · exact handleUnusual_within hm hs

theorem mergeStep_lt {m' : CProto} {s' : σ} (h : mergeStep rt m s = .more m' s') :
    rt.remaining s' < rt.remaining s := by
  have hw : (mergeStep rt m s).Within rt (rt.remaining s) (max m.body.length (rt.remaining s)) :=
    mergeStep_within (Nat.le_max_left _ _) (Nat.le_max_right _ _)
  rw [h] at hw
  exact hw.2

/-- `MergePartialFromCodedStream`. -/
def mergePartial (rt : Runtime σ) (m : CProto) (s : σ) : Bool × CProto × σ :=
  match _h : mergeStep rt m s with
  | .done ok m s => (ok, m, s)
  | .more m s => mergePartial rt m s
termination_by rt.remaining s
decreasing_by exact mergeStep_lt _h

theorem mergePartial_body_le (hm : m.body.length ≤ b) (hs : rt.remaining s ≤ b) :
    (mergePartial rt m s).2.1.body.length ≤ b := by
  induction m, s using mergePartial.induct rt with
  | case1 m s ok m' s' h =>
    have hw := mergeStep_within hm hs
    rw [h] at hw
    rw [mergePartial, h]
    exact hw
  | case2 m s m' s' h ih =>
    have hw := mergeStep_within hm hs
    rw [h] at hw
    rw [mergePartial, h]
    exact ih hw.1 (Nat.le_trans (Nat.le_of_lt hw.2) hs)

/-- `ParseFromString` and `ParseFromArray`: whether the bytes are a complete message, and the
fields read so far. -/
def parseFromArray (rt : Runtime σ) (bytes : List UInt8) : Bool × CProto :=
  match mergePartial rt .empty (rt.stream bytes) with
  | (ok, m, s) => (ok && m.isInitialized && rt.consumedEntireMessage s, m)

/-- **The body** comes from the bytes parsed. -/
theorem parse_body_le (rt : Runtime σ) (bytes : List UInt8) :
    (parseFromArray rt bytes).2.body.length ≤ bytes.length := by
  have hs : rt.remaining (rt.stream bytes) ≤ bytes.length := Nat.le_of_eq (rt.stream_remaining bytes)
  exact mergePartial_body_le (m := .empty) (Nat.zero_le _) hs

/-- `SerializeWithCachedSizes`. -/
def serialize (rt : Runtime σ) (m : CProto) : List UInt8 :=
  (m.id_.elim [] fun id => rt.writeInt32 1 id) ++ (m.body_.elim [] fun body => rt.writeString 2 body)

end Parser

/-! A runtime that reads varints and length-delimited fields, to run the parser on. -/

/-- A stream on an array, and whether it has come to its end between two fields. -/
structure ByteStream where
  bytes : List UInt8
  legitimateEnd : Bool

/-- A varint of at most the given number of bytes. -/
def readVarint : Nat → List UInt8 → Option (Nat × List UInt8)
  | 0, _ => none
  | _ + 1, [] => none
  | k + 1, byte :: rest =>
    if byte < 0x80 then some (byte.toNat, rest)
    else (readVarint k rest).map fun v => (byte.toNat - 0x80 + 0x80 * v.1, v.2)

def writeVarint : Nat → Nat → List UInt8
  | 0, _ => []
  | k + 1, n => if n < 0x80 then [UInt8.ofNat n] else UInt8.ofNat (n % 0x80 + 0x80) :: writeVarint k (n / 0x80)

theorem readVarint_lt {k : Nat} {bytes : List UInt8} {v : Nat × List UInt8} (h : readVarint k bytes = some v) :
    v.2.length < bytes.length := by
  induction k generalizing bytes v with
  | zero => cases h
  | succ k ih =>
    cases bytes with
    | nil => cases h
    | cons byte rest =>
      rw [readVarint] at h
      split at h
      · obtain rfl := Option.some.inj h
        exact Nat.lt_succ_self _
      · obtain ⟨w, hw, rfl⟩ := Option.map_eq_some_iff.1 h
        have hlt : w.2.length < rest.length := ih hw
        exact Nat.lt_succ_of_lt hlt

namespace ByteStream

def readTag (cutoff : BitVec 32) (s : ByteStream) : BitVec 32 × Bool × ByteStream :=
  match readVarint 5 s.bytes with
  | none => (0, false, ⟨[], s.bytes.isEmpty⟩)
  | some (tag, rest) => (BitVec.ofNat 32 tag, decide (0 < tag ∧ tag ≤ cutoff.toNat), ⟨rest, false⟩)

def readInt32 (s : ByteStream) : Option (BitVec 32) × ByteStream :=
  match readVarint 10 s.bytes with
  | none => (none, ⟨[], false⟩)
  | some (n, rest) => (some (BitVec.ofNat 32 n), ⟨rest, false⟩)

def readString (value : List UInt8) (s : ByteStream) : Bool × List UInt8 × ByteStream :=
  match readVarint 5 s.bytes with
  | none => (false, value, ⟨[], false⟩)
  | some (n, rest) => (decide (n ≤ rest.length), rest.take n, ⟨rest.drop n, false⟩)

def expectTag (tag : BitVec 32) (s : ByteStream) : Bool × ByteStream :=
  match s.bytes with
  | byte :: rest => if byte.toNat = tag.toNat then (true, ⟨rest, false⟩) else (false, s)
  | [] => (false, s)

def skipField (tag : BitVec 32) (s : ByteStream) : Bool × ByteStream :=
  match readVarint 10 s.bytes with
  | none => (false, ⟨[], false⟩)
  | some (n, rest) =>
    if tag &&& 7 = 0 then (true, ⟨rest, false⟩)
    else (tag &&& 7 == 2 && decide (n ≤ rest.length), ⟨rest.drop n, false⟩)

/-- The parser's runtime on these streams. -/
def runtime : Runtime ByteStream where
  stream bytes := ⟨bytes, false⟩
  remaining s := s.bytes.length
  readTagWithCutoff := readTag
  readInt32 := readInt32
  readString := readString
  expectTag := expectTag
  expectAtEnd s := (s.bytes.isEmpty, ⟨s.bytes, s.bytes.isEmpty⟩)
  skipField := skipField
  consumedEntireMessage := legitimateEnd
  writeInt32 field n := writeVarint 5 (8 * field) ++ writeVarint 10 (n.toInt % 2 ^ 64).toNat
  writeString field value := writeVarint 5 (8 * field + 2) ++ writeVarint 5 value.length ++ value
  stream_remaining _ := rfl
  readTag_lt cutoff s h := by
    unfold readTag at h ⊢
    split
    · next heq =>
      rw [heq] at h
      exact absurd rfl h
    · next heq => exact readVarint_lt heq
  readInt32_le s := by
    unfold readInt32
    split
    · exact Nat.zero_le _
    · next heq => exact Nat.le_of_lt (readVarint_lt heq)
  readString_le value s := by
    unfold readString
    split
    · exact Nat.zero_le _
    · next n rest heq =>
      have hlt := readVarint_lt heq
      show (rest.drop n).length ≤ s.bytes.length
      rw [List.length_drop]
      exact Nat.le_trans (Nat.sub_le _ _) (Nat.le_of_lt hlt)
  expectTag_le tag s := by
    unfold expectTag
    split
    · next byte rest heq =>
      split
      · rw [heq]
        exact Nat.le_succ _
      · exact Nat.le_refl _
    · exact Nat.le_refl _
  expectAtEnd_le _ := Nat.le_refl _
  skipField_le tag s := by
    unfold skipField
    split
    · exact Nat.zero_le _
    · next n rest heq =>
      have hlt := readVarint_lt heq
      split
      · exact Nat.le_of_lt hlt
      · show (rest.drop n).length ≤ s.bytes.length
        rw [List.length_drop]
        exact Nat.le_trans (Nat.sub_le _ _) (Nat.le_of_lt hlt)
  readString_value value s := by
    unfold readString
    split
    · exact Nat.le_max_left _ _
    · next n rest heq =>
      have hlt := readVarint_lt heq
      apply Nat.le_trans _ (Nat.le_max_right _ _)
      show (rest.take n).length ≤ s.bytes.length
      rw [List.length_take]
      exact Nat.le_trans (Nat.min_le_right _ _) (Nat.le_of_lt hlt)

end ByteStream

end Uvnet

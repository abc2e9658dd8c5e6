import Mathlib.Data.List.FinRange
import Uvnet.CMachine
import Uvnet.CProto

/- The messages of `netmessage.proto`, and the code that is generated for all of them.

   `CProto`, `CP1`, `CP2` and `EchoProto` have fields that are all required, numbered from 1 on,
   each of a type of its own. What is generated for a message follows from the types of its
   fields, so that there is one definition of each function, for any list of types. That
   `Uvnet.CProto`, which has its own definitions, is the message of these types is
   `CProto.mergePartial_toMessage`.

   A pass of the parser's loop reads a tag and a field. Behind a field it expects the one that
   follows in the file, and goes on there without another pass (`parseFields`).

   Unknown fields and the log lines of the UTF-8 check are not modelled, as for `CProto`. -/
namespace Uvnet
open CMachine

inductive FieldType where
  | int32
  | int64
  | string
  deriving DecidableEq, Repr

namespace FieldType

def Value : FieldType → Type
  | .int32 => BitVec 32
  | .int64 => BitVec 64
  | .string => List UInt8

/-- What a field that is not set reads as. -/
def default : (t : FieldType) → t.Value
  | .int32 => (0 : BitVec 32)
  | .int64 => (0 : BitVec 64)
  | .string => ([] : List UInt8)

/-- `WIRETYPE_VARINT` or `WIRETYPE_LENGTH_DELIMITED`. -/
def wireType : FieldType → Nat
  | .int32 | .int64 => 0
  | .string => 2

end FieldType

/-- What the code for `int64` fields and for `ByteSize` uses of the runtime as well. -/
structure MessageRuntime (σ : Type) extends Runtime σ where
  readInt64 : σ → Option (BitVec 64) × σ
  writeInt64 : Nat → BitVec 64 → List UInt8
  int32Size : BitVec 32 → Int
  int64Size : BitVec 64 → Int
  stringSize : List UInt8 → Int
  readInt64_le : ∀ s, remaining (readInt64 s).2 ≤ remaining s

/-- A message with fields of the given types; a field that is not set is `none`. -/
def Message (ts : List FieldType) : Type := (i : Fin ts.length) → Option (ts.get i).Value

namespace Message
variable {ts : List FieldType}

/-- `SharedCtor`, and `Clear`. -/
def empty : Message ts := fun _ => none

/-- `a()`. -/
def get (m : Message ts) (i : Fin ts.length) : (ts.get i).Value := (m i).getD (ts.get i).default

def put (m : Message ts) (i : Fin ts.length) (v : Option (ts.get i).Value) : Message ts := Function.update m i v

/-- `set_a`. -/
def set (m : Message ts) (i : Fin ts.length) (v : (ts.get i).Value) : Message ts := m.put i (some v)

@[simp] theorem put_same (m : Message ts) (i : Fin ts.length) (v : Option (ts.get i).Value) : m.put i v i = v := by
  apply Function.update_self

@[simp] theorem put_of_ne {i j : Fin ts.length} (h : j ≠ i) (m : Message ts) (v : Option (ts.get i).Value) : m.put i v j = m j := by
  apply Function.update_of_ne h

/-- `IsInitialized`. -/
def isInitialized (m : Message ts) : Bool := (List.finRange ts.length).all fun i => (m i).isSome

/-- `MergeFrom`. -/
def mergeFrom (m source : Message ts) : Message ts :=
  (List.finRange ts.length).foldl (fun m i => (source i).elim m fun v => m.set i v) m

/-- The tag of a field. -/
def tag (ts : List FieldType) (i : Fin ts.length) : BitVec 32 := BitVec.ofNat 32 (8 * (i + 1) + (ts.get i).wireType)

/-- The cases of the `switch` from a field number on. -/
def casesFrom (ts : List FieldType) (number : Nat) : List (Fin ts.length) :=
  if number = 0 then [] else (List.finRange ts.length).drop (number - 1)

/-- How a pass of the parser's loop ends: `goto success` or `goto failure`, or another pass. -/
inductive Pass (ts : List FieldType) (σ : Type) where
  | done (ok : Bool) (m : Message ts) (s : σ)
  | more (m : Message ts) (s : σ)

section Parser
variable {σ : Type} (rt : MessageRuntime σ)

/-- `ReadPrimitive` and `ReadString` into a field. -/
def readValue : (t : FieldType) → Option t.Value → σ → Bool × Option t.Value × σ
  | .int32, value, s =>
    match rt.readInt32 s with
    | (some v, s) => (true, some v, s)
    | (none, s) => (false, value, s)
  | .int64, value, s =>
    match rt.readInt64 s with
    | (some v, s) => (true, some v, s)
    | (none, s) => (false, value, s)
  | .string, value, s =>
    match rt.readString (value.getD []) s with
    | (ok, v, s) => (ok, some v, s)

def readField (m : Message ts) (i : Fin ts.length) (s : σ) : Bool × Message ts × σ :=
  match readValue rt (ts.get i) (m i) s with
  | (ok, v, s) => (ok, m.put i v, s)

/-- The block at `handle_unusual`. -/
def handleUnusual (tag : BitVec 32) (m : Message ts) (s : σ) : Pass ts σ :=
  if tag = 0 ∨ tagEndsGroup tag then .done true m s
  else match rt.skipField tag s with
    | (true, s) => .more m s
    | (false, s) => .done false m s

/-- The blocks at `parse_a`, `parse_b`, …: the first of these fields, and the next ones as far as
they follow. -/
def parseFields : List (Fin ts.length) → Message ts → σ → Pass ts σ
  | [], m, s => .more m s
  | i :: next, m, s =>
    match readField rt m i s with
    | (false, m, s) => .done false m s
    | (true, m, s) =>
      match next with
      | [] =>
        match rt.expectAtEnd s with
        | (true, s) => .done true m s
        | (false, s) => .more m s
      | j :: _ =>
        match rt.expectTag (tag ts j) s with
        | (true, s) => parseFields next m s
        | (false, s) => .more m s

/-- One pass of the loop, with the block for a field and those that follow it. -/
def pass (block : List (Fin ts.length) → Message ts → σ → Pass ts σ) (m : Message ts) (s : σ) : Pass ts σ :=
  match rt.readTagWithCutoff 127 s with
  | (t, false, s) => handleUnusual rt t m s
  | (t, true, s) =>
    match casesFrom ts (tagFieldNumber t).toNat with
    | [] => handleUnusual rt t m s
    | i :: next => if t = tag ts i then block (i :: next) m s else handleUnusual rt t m s

def mergeStep (m : Message ts) (s : σ) : Pass ts σ := pass rt (parseFields rt) m s

/-! A pass takes bytes. -/

/-- After the pass fewer than `n` bytes are left. -/
def Pass.Within (n : Nat) : Pass ts σ → Prop
  | .done .. => True
  | .more _ s => rt.remaining s < n

variable {rt} {m m' : Message ts} {s s' : σ} {n : Nat}

theorem readValue_string (value : Option FieldType.string.Value) (s : σ) : readValue rt .string value s =
    ((rt.readString (value.getD []) s).1, some (rt.readString (value.getD []) s).2.1, (rt.readString (value.getD []) s).2.2) := rfl

theorem readValue_le (t : FieldType) (value : Option t.Value) (s : σ) :
    rt.remaining (readValue rt t value s).2.2 ≤ rt.remaining s := by
  cases t with
  | int32 =>
    have hread := rt.readInt32_le s
    simp only [readValue]
    split <;> simpa [*] using hread
  | int64 =>
    have hread := rt.readInt64_le s
    simp only [readValue]
    split <;> simpa [*] using hread
  | string => exact rt.readString_le _ s

theorem readField_le (m : Message ts) (i : Fin ts.length) (s : σ) : rt.remaining (readField rt m i s).2.2 ≤ rt.remaining s :=
  readValue_le (ts.get i) (m i) s

theorem handleUnusual_within {t : BitVec 32} (hs : rt.remaining s < n) : (handleUnusual rt t m s).Within rt n := by
  have hskip := rt.skipField_le t s
  unfold handleUnusual
  split
  · trivial
  · split
    · next s' heq =>
      rw [heq] at hskip
      exact Nat.lt_of_le_of_lt hskip hs
    · trivial

theorem parseFields_within (cases : List (Fin ts.length)) (hs : rt.remaining s < n) : (parseFields rt cases m s).Within rt n := by
  induction cases generalizing m s with
  | nil => exact hs
  | cons i next ih =>
    have hread := Nat.lt_of_le_of_lt (readField_le m i s) hs
    unfold parseFields
    split
    · trivial
    · next m₁ s₁ heq =>
      rw [heq] at hread
      split
      · have hend := Nat.lt_of_le_of_lt (rt.expectAtEnd_le s₁) hread
        split
        · trivial
        · next s₂ heq₂ =>
          rw [heq₂] at hend
          exact hend
      · next j rest =>
        have htag := Nat.lt_of_le_of_lt (rt.expectTag_le (tag ts j) s₁) hread
        split
        · next s₂ heq₂ =>
          rw [heq₂] at htag
          exact ih htag
        · next s₂ heq₂ =>
          rw [heq₂] at htag
          exact htag

theorem handleUnusual_zero : handleUnusual rt 0 m s = .done true m s := if_pos (.inl rfl)

theorem pass_zero {block : List (Fin ts.length) → Message ts → σ → Pass ts σ} {known : Bool}
    (h : rt.readTagWithCutoff 127 s = (0, known, s')) : pass rt block m s = .done true m s' := by
  rw [pass, h]
  cases known with
  | false => exact handleUnusual_zero
  | true => exact handleUnusual_zero

theorem pass_within {block : List (Fin ts.length) → Message ts → σ → Pass ts σ}
    (hblock : ∀ cases s n, rt.remaining s < n → (block cases m s).Within rt n) : (pass rt block m s).Within rt (rt.remaining s) := by
  have hlt := rt.readTag_lt 127 s
  cases heq : rt.readTagWithCutoff 127 s with
  | mk t rest =>
  obtain ⟨known, s₁⟩ := rest
  by_cases ht : t = 0
  · subst ht
    rw [pass_zero heq]
    trivial
  · rw [heq] at hlt
    rw [pass, heq]
    cases known with
    | false => exact handleUnusual_within (hlt ht)
    | true =>
      dsimp only
      split
      · exact handleUnusual_within (hlt ht)
      · split
        · exact hblock _ _ _ (hlt ht)
        · exact handleUnusual_within (hlt ht)

theorem mergeStep_lt (h : mergeStep rt m s = .more m' s') : rt.remaining s' < rt.remaining s := by
  have hw : (mergeStep rt m s).Within rt (rt.remaining s) := pass_within fun cases _ _ hs => parseFields_within cases hs
  rw [h] at hw
  exact hw

/-- `MergePartialFromCodedStream`. -/
def mergePartial (rt : MessageRuntime σ) (m : Message ts) (s : σ) : Bool × Message ts × σ :=
  match _h : mergeStep rt m s with
  | .done ok m s => (ok, m, s)
  | .more m s => mergePartial rt m s
termination_by rt.remaining s
decreasing_by exact mergeStep_lt _h

/-- `ParsePartialFromArray`: whether the bytes are read to their end, and the fields. -/
def parsePartial (rt : MessageRuntime σ) (bytes : List UInt8) : Bool × Message ts :=
  match mergePartial rt empty (rt.stream bytes) with
  | (ok, m, s) => (ok && rt.consumedEntireMessage s, m)

/-- `ParseFromArray`, and `ParseFromString`. -/
def parseFromArray (rt : MessageRuntime σ) (bytes : List UInt8) : Bool × Message ts :=
  match mergePartial rt empty (rt.stream bytes) with
  | (ok, m, s) => (ok && m.isInitialized && rt.consumedEntireMessage s, m)

/-- `WriteInt32`, `WriteInt64` and `WriteString` for a field number. -/
def writeValue (rt : MessageRuntime σ) (number : Nat) : (t : FieldType) → t.Value → List UInt8
  | .int32, v => rt.writeInt32 number v
  | .int64, v => rt.writeInt64 number v
  | .string, v => rt.writeString number v

/-- `SerializeWithCachedSizes`. -/
def serialize (rt : MessageRuntime σ) (m : Message ts) : List UInt8 :=
  (List.finRange ts.length).flatMap fun i => (m i).elim [] (writeValue rt (i + 1) (ts.get i))

/-- `Int32Size`, `Int64Size` and `StringSize`. -/
def valueSize (rt : MessageRuntime σ) : (t : FieldType) → t.Value → Int
  | .int32, v => rt.int32Size v
  | .int64, v => rt.int64Size v
  | .string, v => rt.stringSize v

/-- `RequiredFieldsByteSizeFallback`. -/
def requiredFieldsByteSizeFallback (rt : MessageRuntime σ) (m : Message ts) : C Int :=
  (List.finRange ts.length).foldlM (fun total i =>
    if (m i).isSome then cint (total + (1 + valueSize rt (ts.get i) (m.get i))) else .ok total) 0

/-- `ByteSize`. With all required fields present it does not look at the has-bits again. -/
def byteSize (rt : MessageRuntime σ) (m : Message ts) : C Int :=
  if m.isInitialized then
    (List.finRange ts.length).foldlM (fun total i => cint (total + (1 + valueSize rt (ts.get i) (m.get i)))) 0
  else requiredFieldsByteSizeFallback rt m

end Parser
end Message

/-! The messages of the file. -/

def CP1.types : List FieldType := [.int32, .int64, .string]

abbrev CP1 := Message CP1.types

def CP2.types : List FieldType := [.string, .string, .int64]

abbrev CP2 := Message CP2.types

def EchoProto.types : List FieldType := [.string]

abbrev EchoProto := Message EchoProto.types

namespace EchoProto

def data (m : EchoProto) : List UInt8 := m.get ⟨0, by decide⟩

/-- `set_data`, on a message that is new. -/
def ofData (data : List UInt8) : EchoProto := Message.empty.set ⟨0, by decide⟩ data

end EchoProto

/-! `CProto`, which is written out in `Uvnet.CProto`. -/

def CProto.types : List FieldType := [.int32, .string]

namespace CProto
variable {σ : Type} (rt : MessageRuntime σ) (m : CProto) (s : σ)

def toMessage (m : CProto) : Message CProto.types
  | ⟨0, _⟩ => m.id_
  | ⟨1, _⟩ => m.body_

def toPass : Merge σ → Message.Pass CProto.types σ
  | .done ok m s => .done ok m.toMessage s
  | .more m s => .more m.toMessage s

def idField : Fin CProto.types.length := ⟨0, by decide⟩
def bodyField : Fin CProto.types.length := ⟨1, by decide⟩

theorem put_id (v : Option (BitVec 32)) : m.toMessage.put idField v = { m with id_ := v }.toMessage := by
  funext i
  match i with
  | ⟨0, _⟩ => rfl
  | ⟨1, _⟩ => rfl

theorem put_body (v : Option (List UInt8)) : m.toMessage.put bodyField v = { m with body_ := v }.toMessage := by
  funext i
  match i with
  | ⟨0, _⟩ => rfl
  | ⟨1, _⟩ => rfl

theorem handleUnusual_toMessage (t : BitVec 32) :
    Message.handleUnusual rt t m.toMessage s = toPass (handleUnusual rt.toRuntime t m s) := by
  unfold Message.handleUnusual handleUnusual
  split
  · rfl
  · obtain ⟨ok, s₁⟩ := rt.skipField t s
    cases ok <;> rfl

theorem readField_body : Message.readField rt m.toMessage bodyField s =
    ((rt.readString m.body s).1, { m with body_ := some (rt.readString m.body s).2.1 }.toMessage, (rt.readString m.body s).2.2) := by
  rw [← put_body m (some (rt.readString m.body s).2.1)]
  rfl

theorem readField_id : Message.readField rt m.toMessage idField s =
    match rt.readInt32 s with
    | (none, s) => (false, m.toMessage, s)
    | (some id, s) => (true, { m with id_ := some id }.toMessage, s) := by
  unfold Message.readField
  simp only [CProto.types, idField, List.get_eq_getElem, List.getElem_cons_zero, Message.readValue]
  obtain ⟨v, s₁⟩ := rt.readInt32 s
  cases v with
  | none => exact congrArg (fun m' => (false, m', s₁)) (put_id m m.id_)
  | some id => exact congrArg (fun m' => (true, m', s₁)) (put_id m (some id))

theorem parseBody_toMessage : Message.parseFields rt [bodyField] m.toMessage s = toPass (parseBody rt.toRuntime m s) := by
  unfold Message.parseFields parseBody
  rw [readField_body]
  obtain ⟨ok, body, s₁⟩ := rt.readString m.body s
  cases ok with
  | false => rfl
  | true =>
    dsimp only
    obtain ⟨hit, s₂⟩ := rt.expectAtEnd s₁
    cases hit <;> rfl

theorem parseId_toMessage :
    Message.parseFields rt [idField, bodyField] m.toMessage s = toPass (parseId rt.toRuntime m s) := by
  unfold Message.parseFields parseId
  rw [readField_id]
  obtain ⟨v, s₁⟩ := rt.readInt32 s
  cases v with
  | none => rfl
  | some id =>
    show (match rt.expectTag 18 s₁ with
      | (true, s) => Message.parseFields rt [bodyField] { m with id_ := some id }.toMessage s
      | (false, s) => .more { m with id_ := some id }.toMessage s) = toPass (match rt.expectTag 18 s₁ with
      | (true, s) => parseBody rt.toRuntime { m with id_ := some id } s
      | (false, s) => .more { m with id_ := some id } s)
    obtain ⟨hit, s₂⟩ := rt.expectTag 18 s₁
    cases hit with
    | false => rfl
    | true => exact parseBody_toMessage rt { m with id_ := some id } s₂

theorem casesFrom_other {number : Nat} (h1 : number ≠ 1) (h2 : number ≠ 2) : Message.casesFrom CProto.types number = [] := by
  unfold Message.casesFrom
  split
  · rfl
  · apply List.drop_eq_nil_of_le
    rw [List.length_finRange]
    show 2 ≤ number - 1
    omega

theorem mergeStep_toMessage : Message.mergeStep rt m.toMessage s = toPass (mergeStep rt.toRuntime m s) := by
  unfold Message.mergeStep Message.pass mergeStep
  obtain ⟨t, known, s₁⟩ := rt.readTagWithCutoff 127 s
  cases known with
  | false => exact handleUnusual_toMessage rt m s₁ t
  | true =>
    dsimp only
    by_cases h1 : tagFieldNumber t = 1
    · rw [h1, if_pos rfl]
      show (if t = 8 then Message.parseFields rt [idField, bodyField] m.toMessage s₁ else _) = _
      split
      · exact parseId_toMessage rt m s₁
      · exact handleUnusual_toMessage rt m s₁ t
    · rw [if_neg h1]
      by_cases h2 : tagFieldNumber t = 2
      · rw [h2, if_pos rfl]
        show (if t = 18 then Message.parseFields rt [bodyField] m.toMessage s₁ else _) = _
        split
        · exact parseBody_toMessage rt m s₁
        · exact handleUnusual_toMessage rt m s₁ t
      · rw [if_neg h2, casesFrom_other]
        · exact handleUnusual_toMessage rt m s₁ t
        · exact fun h => h1 (BitVec.eq_of_toNat_eq h)
        · exact fun h => h2 (BitVec.eq_of_toNat_eq h)

/-- **The parser** of `Uvnet.CProto` is the one for its fields. -/
theorem mergePartial_toMessage : Message.mergePartial rt m.toMessage s =
    ((mergePartial rt.toRuntime m s).1, (mergePartial rt.toRuntime m s).2.1.toMessage, (mergePartial rt.toRuntime m s).2.2) := by
  induction m, s using mergePartial.induct rt.toRuntime with
  | case1 m s ok m' s' h =>
    have hstep := mergeStep_toMessage rt m s
    rw [h] at hstep
    rw [mergePartial, h, Message.mergePartial, hstep]
    rfl
  | case2 m s m' s' h ih =>
    have hstep := mergeStep_toMessage rt m s
    rw [h] at hstep
    rw [mergePartial, h, Message.mergePartial, hstep]
    exact ih

omit rt s in
theorem isInitialized_toMessage : m.toMessage.isInitialized = m.isInitialized := by
  show (m.id_.isSome && (m.body_.isSome && true)) = _
  rw [Bool.and_true]
  rfl

omit rt m s in
theorem toMessage_inj {m m' : CProto} (h : m.toMessage = m'.toMessage) : m = m' := by
  obtain ⟨id, body⟩ := m
  obtain ⟨id', body'⟩ := m'
  obtain rfl : id = id' := congrFun h idField
  obtain rfl : body = body' := congrFun h bodyField
  rfl

omit m s in
theorem parseFromArray_toMessage (bytes : List UInt8) : Message.parseFromArray rt bytes =
    ((parseFromArray rt.toRuntime bytes).1, (parseFromArray rt.toRuntime bytes).2.toMessage) := by
  have hempty : (Message.empty : Message CProto.types) = CProto.empty.toMessage := by
    funext i
    match i with
    | ⟨0, _⟩ => rfl
    | ⟨1, _⟩ => rfl
  unfold Message.parseFromArray parseFromArray
  rw [hempty, mergePartial_toMessage]
  exact congrArg (fun b => (_ && b && _, _)) (isInitialized_toMessage _)

theorem serialize_toMessage : Message.serialize rt m.toMessage = serialize rt.toRuntime m := by
  show m.id_.elim [] (fun id => rt.writeInt32 1 id) ++ (m.body_.elim [] (fun body => rt.writeString 2 body) ++ []) = _
  rw [List.append_nil]
  rfl

end CProto

/-- The tags are those in the generated code. -/
example : (List.finRange 3).map (Message.tag CP1.types) = [8, 16, 26] ∧
    (List.finRange 3).map (Message.tag CP2.types) = [10, 18, 24] ∧
    (List.finRange 1).map (Message.tag EchoProto.types) = [10] := by decide

end Uvnet

import Uvnet.MessageMerge

/- The runtime on bytes, `ByteStream`, does what is documented of a runtime: it expects what it
   would read, reads no more than it takes, and reads what it has written. -/
namespace Uvnet
open CMachine

/-! Varints. -/

theorem readVarint_writeVarint (k : Nat) {n : Nat} (hn : n < 128 ^ (k + 1)) (rest : List UInt8) :
    readVarint (k + 1) (writeVarint (k + 1) n ++ rest) = some (n, rest) := by
  induction k generalizing n with
  | zero =>
    have hsmall : n < 128 := by simpa using hn
    have hbyte : (UInt8.ofNat n).toNat = n := UInt8.toNat_ofNat_of_lt' (by simp [UInt8.size]; omega)
    have hless : UInt8.ofNat n < 0x80 := UInt8.lt_iff_toNat_lt.2 (by rw [hbyte]; exact hsmall)
    rw [writeVarint, if_pos hsmall, List.singleton_append, readVarint, if_pos hless, hbyte]
  | succ k ih =>
    rw [writeVarint]
    split
    · next hsmall =>
      have hbyte : (UInt8.ofNat n).toNat = n := UInt8.toNat_ofNat_of_lt' (by simp [UInt8.size]; omega)
      have hless : UInt8.ofNat n < 0x80 := UInt8.lt_iff_toNat_lt.2 (by rw [hbyte]; exact hsmall)
      rw [List.singleton_append, readVarint, if_pos hless, hbyte]
    · have hlt := Nat.mod_lt n (show 0 < 128 by decide)
      have hbyte : (UInt8.ofNat (n % 128 + 128)).toNat = n % 128 + 128 := UInt8.toNat_ofNat_of_lt' (by simp [UInt8.size]; omega)
      have hnot : ¬ UInt8.ofNat (n % 128 + 128) < 0x80 := by
        rw [UInt8.lt_iff_toNat_lt, hbyte]
        show ¬ n % 128 + 128 < 128
        omega
      have hdiv : n / 128 < 128 ^ (k + 1) := by
        rw [Nat.div_lt_iff_lt_mul (by decide)]
        exact hn
      rw [List.cons_append, readVarint, if_neg hnot, ih hdiv, hbyte]
      show some (n % 128 + 128 - 128 + 128 * (n / 128), rest) = some (n, rest)
      rw [Nat.add_sub_cancel, Nat.mod_add_div]

theorem readVarint_append {k n : Nat} {bytes rest : List UInt8} (h : readVarint k bytes = some (n, rest)) (more : List UInt8) :
    readVarint k (bytes ++ more) = some (n, rest ++ more) := by
  induction k generalizing bytes n rest with
  | zero => cases h
  | succ k ih =>
    cases bytes with
    | nil => cases h
    | cons byte bytes =>
      rw [List.cons_append]
      rw [readVarint] at h ⊢
      split
      · next hless =>
        rw [if_pos hless] at h
        cases h
        rfl
      · next hnot =>
        rw [if_neg hnot] at h
        obtain ⟨⟨n', rest'⟩, hread, heq⟩ := Option.map_eq_some_iff.1 h
        cases heq
        rw [ih hread]
        rfl

theorem readVarint_tag {tag : Nat} (h : tag < 128) (rest : List UInt8) :
    readVarint 5 (writeVarint 5 tag ++ rest) = some (tag, rest) :=
  readVarint_writeVarint 4 (by omega) rest

namespace ByteStream

def readInt64 (s : ByteStream) : Option (BitVec 64) × ByteStream :=
  match readVarint 10 s.bytes with
  | none => (none, ⟨[], false⟩)
  | some (n, rest) => (some (BitVec.ofNat 64 n), ⟨rest, false⟩)

/-- With `int64` fields, and the sizes of what is written. -/
def messageRuntime : MessageRuntime ByteStream where
  toRuntime := runtime
  readInt64 := readInt64
  writeInt64 field n := writeVarint 5 (8 * field) ++ writeVarint 10 n.toNat
  int32Size n := (writeVarint 10 (n.toInt % 2 ^ 64).toNat).length
  int64Size n := (writeVarint 10 n.toNat).length
  stringSize value := (writeVarint 5 value.length).length + value.length
  readInt64_le s := by
    unfold readInt64
    split
    · exact Nat.zero_le _
    · next heq => exact Nat.le_of_lt (readVarint_lt heq)

theorem readTag_congr {s s' : ByteStream} (h : s.bytes = s'.bytes) (cutoff : BitVec 32) : readTag cutoff s = readTag cutoff s' := by
  unfold readTag
  rw [h]

theorem expects : runtime.Expects where
  tag_hit := by
    rintro tag ⟨bytes, atEnd⟩ s' hpos hle h
    replace h : expectTag tag ⟨bytes, atEnd⟩ = (true, s') := h
    show readTag 127 ⟨bytes, atEnd⟩ = (tag, true, s')
    cases bytes with
    | nil => cases h
    | cons byte rest =>
      unfold expectTag at h
      dsimp only at h
      split at h
      · next heq =>
        cases h
        have hless : byte < 0x80 := UInt8.lt_iff_toNat_lt.2 (by
          rw [heq]
          exact Nat.lt_succ_of_le hle)
        unfold readTag
        dsimp only
        rw [readVarint, if_pos hless, heq]
        simp [hpos, hle]
      · cases h
  tag_miss := by
    rintro tag ⟨bytes, atEnd⟩ s' h
    replace h : expectTag tag ⟨bytes, atEnd⟩ = (false, s') := h
    unfold expectTag at h
    split at h
    · split at h
      · cases h
      · cases h
        rfl
    · cases h
      rfl
  end_hit := by
    rintro ⟨bytes, atEnd⟩ s' h
    replace h : (bytes.isEmpty, (⟨bytes, bytes.isEmpty⟩ : ByteStream)) = (true, s') := h
    cases bytes with
    | nil =>
      cases h
      rfl
    | cons byte rest => cases h
  end_miss := by
    rintro ⟨bytes, atEnd⟩ s' h
    replace h : (bytes.isEmpty, (⟨bytes, bytes.isEmpty⟩ : ByteStream)) = (false, s') := h
    obtain ⟨-, rfl⟩ := Prod.mk.inj h
    exact readTag_congr rfl 127

/-- The bytes left. -/
def At (bytes : List UInt8) (s : ByteStream) : Prop := s.bytes = bytes

theorem follows_iff {more : List UInt8} {s t : ByteStream} : Follows At more s t ↔ t.bytes = s.bytes ++ more :=
  ⟨fun ⟨_, hs, ht⟩ => by rw [ht, hs], fun h => ⟨s.bytes, rfl, h⟩⟩

theorem follows_varint {k n : Nat} {rest more : List UInt8} {s t : ByteStream} (hf : Follows At more s t)
    (h : readVarint k s.bytes = some (n, rest)) : readVarint k t.bytes = some (n, rest ++ more) := by
  rw [follows_iff.1 hf]
  exact readVarint_append h more

theorem readTag_wrote {tag : Nat} (hpos : 0 < tag) (hlt : tag < 128) {rest : List UInt8} {s : ByteStream}
    (h : s.bytes = writeVarint 5 tag ++ rest) : readTag 127 s = (BitVec.ofNat 32 tag, true, ⟨rest, false⟩) := by
  unfold readTag
  rw [h, readVarint_tag hlt]
  simp [hpos, Nat.le_of_lt_succ hlt]

theorem ofNat_toInt (v : BitVec 32) : BitVec.ofNat 32 (v.toInt % 2 ^ 64).toNat = v := by
  apply BitVec.eq_of_toNat_eq
  rw [BitVec.toNat_ofNat, BitVec.toInt_eq_toNat_cond]
  have hlt := v.isLt
  split <;> omega

/-! What is read does not depend on what comes behind. -/

section Follows
variable {more : List UInt8} {s t s' : ByteStream}

theorem readTag_follows {tag : BitVec 32} {known : Bool} (hf : Follows At more s t) (h : readTag 127 s = (tag, known, s')) (hne : tag ≠ 0) :
    ∃ t', readTag 127 t = (tag, known, t') ∧ Follows At more s' t' := by
  unfold readTag at h ⊢
  split at h
  · cases h
    exact (hne rfl).elim
  · next n rest hread =>
    cases h
    rw [follows_varint hf hread]
    exact ⟨_, rfl, follows_iff.2 rfl⟩

theorem readInt32_follows {v : BitVec 32} (hf : Follows At more s t) (h : readInt32 s = (some v, s')) :
    ∃ t', readInt32 t = (some v, t') ∧ Follows At more s' t' := by
  unfold readInt32 at h ⊢
  split at h
  · cases h
  · next n rest hread =>
    cases h
    rw [follows_varint hf hread]
    exact ⟨_, rfl, follows_iff.2 rfl⟩

theorem readInt64_follows {v : BitVec 64} (hf : Follows At more s t) (h : readInt64 s = (some v, s')) :
    ∃ t', readInt64 t = (some v, t') ∧ Follows At more s' t' := by
  unfold readInt64 at h ⊢
  split at h
  · cases h
  · next n rest hread =>
    cases h
    rw [follows_varint hf hread]
    exact ⟨_, rfl, follows_iff.2 rfl⟩

theorem readString_follows {value v : List UInt8} (hf : Follows At more s t) (h : readString value s = (true, v, s')) (value' : List UInt8) :
    ∃ t', readString value' t = (true, v, t') ∧ Follows At more s' t' := by
  unfold readString at h ⊢
  split at h
  · cases h
  · next n rest hread =>
    obtain ⟨hle, hv⟩ := Prod.mk.inj h
    cases hv
    have hle : n ≤ rest.length := by simpa using hle
    have hle' : n ≤ (rest ++ more).length := by
      rw [List.length_append]
      omega
    rw [follows_varint hf hread]
    refine ⟨⟨(rest ++ more).drop n, false⟩, ?_, follows_iff.2 (List.drop_append_of_le_length hle)⟩
    simp [List.take_append_of_le_length hle]
    omega

theorem skipField_follows {tag : BitVec 32} (hf : Follows At more s t) (h : skipField tag s = (true, s')) :
    ∃ t', skipField tag t = (true, t') ∧ Follows At more s' t' := by
  unfold skipField at h ⊢
  split at h
  · cases h
  · next n rest hread =>
    rw [follows_varint hf hread]
    dsimp only
    split at h
    · next htag =>
      cases h
      rw [if_pos htag]
      exact ⟨_, rfl, follows_iff.2 rfl⟩
    · next htag =>
      obtain ⟨hle, hs⟩ := Prod.mk.inj h
      cases hs
      rw [Bool.and_eq_true, decide_eq_true_eq] at hle
      have hle' : n ≤ (rest ++ more).length := by
        rw [List.length_append]
        omega
      rw [if_neg htag]
      refine ⟨⟨(rest ++ more).drop n, false⟩, ?_, follows_iff.2 (List.drop_append_of_le_length hle.2)⟩
      rw [hle.1, decide_eq_true hle']
      rfl

end Follows

/-! The end, and what was written. -/

section Wrote
variable {s : ByteStream} {number : Nat}

theorem readTag_consumed {b : List UInt8} {s' : ByteStream} {tag : BitVec 32} {known : Bool} (hb : At b s)
    (h : readTag 127 s = (tag, known, s')) (hend : s'.legitimateEnd = true) : b = [] := by
  unfold readTag at h
  split at h
  · cases h
    rw [← hb]
    exact List.isEmpty_iff.1 hend
  · cases h
    cases hend

theorem readTag_ended (h : At [] s) : ∃ s', readTag 127 s = (0, false, s') ∧ s'.legitimateEnd = true := by
  obtain ⟨bytes, atEnd⟩ := s
  cases h
  exact ⟨⟨[], true⟩, rfl, rfl⟩

theorem readInt32_wrote {v : BitVec 32} (hpos : 0 < number) (hle : number ≤ 15) (h : At (messageRuntime.writeInt32 number v) s) :
    ∃ s₁ s₂, readTag 127 s = (BitVec.ofNat 32 (8 * number), true, s₁) ∧ readInt32 s₁ = (some v, s₂) ∧ At [] s₂ := by
  have htag := readTag_wrote (show 0 < 8 * number by omega) (by omega) h
  have hlt : (v.toInt % 2 ^ 64).toNat < 128 ^ 10 := by omega
  have hread := readVarint_writeVarint 9 hlt []
  rw [List.append_nil] at hread
  refine ⟨_, ⟨[], false⟩, htag, ?_, rfl⟩
  unfold readInt32
  rw [hread]
  exact congrArg (fun x => (some x, _)) (ofNat_toInt v)

theorem readInt64_wrote {v : BitVec 64} (hpos : 0 < number) (hle : number ≤ 15) (h : At (messageRuntime.writeInt64 number v) s) :
    ∃ s₁ s₂, readTag 127 s = (BitVec.ofNat 32 (8 * number), true, s₁) ∧ readInt64 s₁ = (some v, s₂) ∧ At [] s₂ := by
  have htag := readTag_wrote (show 0 < 8 * number by omega) (by omega) h
  have hlt : v.toNat < 128 ^ 10 := Nat.lt_trans v.isLt (by decide)
  have hread := readVarint_writeVarint 9 hlt []
  rw [List.append_nil] at hread
  refine ⟨_, ⟨[], false⟩, htag, ?_, rfl⟩
  unfold readInt64
  rw [hread]
  exact congrArg (fun x => (some x, _)) (BitVec.ofNat_toNat 64 v)

theorem readString_wrote {v : List UInt8} (hpos : 0 < number) (hle : number ≤ 15) (hv : v.length < 2 ^ 31)
    (h : At (messageRuntime.writeString number v) s) (value : List UInt8) :
    ∃ s₁ s₂, readTag 127 s = (BitVec.ofNat 32 (8 * number + 2), true, s₁) ∧ readString value s₁ = (true, v, s₂) ∧ At [] s₂ := by
  replace h : s.bytes = (writeVarint 5 (8 * number + 2) ++ writeVarint 5 v.length) ++ v := h
  rw [List.append_assoc] at h
  have htag := readTag_wrote (show 0 < 8 * number + 2 by omega) (by omega) h
  have hlt : v.length < 128 ^ 5 := Nat.lt_trans hv (by decide)
  refine ⟨_, ⟨[], false⟩, htag, ?_, rfl⟩
  unfold readString
  dsimp only
  rw [readVarint_writeVarint 4 hlt]
  simp

end Wrote

theorem wire : messageRuntime.Wire At where
  stream _ := rfl
  readTag := readTag_follows
  readInt32 := readInt32_follows
  readInt64 := readInt64_follows
  readString := readString_follows
  skipField := skipField_follows
  consumed := readTag_consumed
  ended := readTag_ended
  wroteInt32 := readInt32_wrote
  wroteInt64 := readInt64_wrote
  wroteString := readString_wrote

theorem sizes : messageRuntime.Sizes := by
  have htag : ∀ {tag : Nat}, tag < 128 → (writeVarint 5 tag).length = 1 := by
    intro tag h
    rw [writeVarint, if_pos h]
    rfl
  refine ⟨fun v hpos hle => ?_, fun v hpos hle => ?_, fun v hpos hle => ?_⟩
  · show ((writeVarint 5 _ ++ writeVarint 10 _).length : Int) = 1 + ((writeVarint 10 _).length : Int)
    rw [List.length_append, htag (by omega)]
    exact Int.natCast_add 1 _
  · show ((writeVarint 5 _ ++ writeVarint 10 _).length : Int) = 1 + ((writeVarint 10 _).length : Int)
    rw [List.length_append, htag (by omega)]
    exact Int.natCast_add 1 _
  · show (((writeVarint 5 _ ++ writeVarint 5 _) ++ v).length : Int) = 1 + (((writeVarint 5 _).length : Int) + (v.length : Int))
    rw [List.length_append, List.length_append, htag (by omega)]
    omega

end ByteStream

/-! **The same parser**: on any bytes, what is generated for a message reports and reads what the plain
parser does, which expects nothing; and so does the parser of `CProto`. -/

theorem generated_parser_plain {σ : Type} (rt : MessageRuntime σ) (hx : rt.Expects) {ts : List FieldType} (hts : ts.length ≤ 15)
    (bytes : List UInt8) :
    (Message.parseFromArray rt bytes : Bool × Message ts) = Message.plainParse rt bytes ∧
      ((parseFromArray rt.toRuntime bytes).1, (parseFromArray rt.toRuntime bytes).2.toMessage) = Message.plainParse rt bytes := by
  refine ⟨Message.parseFromArray_plain hx hts bytes, ?_⟩
  rw [← CProto.parseFromArray_toMessage]
  exact Message.parseFromArray_plain hx (by decide) bytes

/-- A `CP1` whose fields come the wrong way round, one of them twice, with an unknown field between. -/
theorem generated_parser_plain_mixed :
    (Message.parseFromArray ByteStream.messageRuntime [26, 1, 99, 40, 7, 16, 5, 16, 6, 8, 1] : Bool × CP1) =
        Message.plainParse ByteStream.messageRuntime [26, 1, 99, 40, 7, 16, 5, 16, 6, 8, 1] ∧
      ((parseFromArray ByteStream.runtime [26, 1, 99, 40, 7, 16, 5, 16, 6, 8, 1]).1,
        (parseFromArray ByteStream.runtime [26, 1, 99, 40, 7, 16, 5, 16, 6, 8, 1]).2.toMessage) =
        Message.plainParse ByteStream.messageRuntime [26, 1, 99, 40, 7, 16, 5, 16, 6, 8, 1] :=
  generated_parser_plain ByteStream.messageRuntime ByteStream.expects (by decide) _

/-! **Concatenation is merging**: of any number of byte strings that are parsed to their ends, whatever is in
them, the concatenation is parsed as the messages merged from left to right; it is a complete
message where every required field is in one of them. -/

/-- A `CP1` with these fields. -/
def someCP1 (a : Option (BitVec 32)) (b : Option (BitVec 64)) (c : Option (List UInt8)) : CP1
  | ⟨0, _⟩ => a
  | ⟨1, _⟩ => b
  | ⟨2, _⟩ => c

theorem someCP1_short (a : Option (BitVec 32)) (b : Option (BitVec 64)) (c : Option (List UInt8)) (h : ∀ v, c = some v → v.length < 2 ^ 31) :
    (someCP1 a b c).Short := by
  intro i v hv
  match i with
  | ⟨0, _⟩ => trivial
  | ⟨1, _⟩ => trivial
  | ⟨2, _⟩ => exact h v hv

theorem CProto.parse_serialize {σ : Type} {rt : MessageRuntime σ} {At : List UInt8 → σ → Prop} (hw : rt.Wire At) (hx : rt.Expects) {m : CProto}
    (hm : m.body.length < 2 ^ 31) : parseFromArray rt.toRuntime (serialize rt.toRuntime m) = (m.isInitialized, m) := by
  have hshort : m.toMessage.Short := by
    intro i v hv
    match i with
    | ⟨0, _⟩ => trivial
    | ⟨1, _⟩ =>
      replace hv : m.body_ = some v := hv
      rw [CProto.body, hv] at hm
      exact hm
  have hparse := Message.parseFromArray_of_partial (Message.parsePartial_serialize hw hx (by decide) hshort)
  rw [CProto.serialize_toMessage, CProto.parseFromArray_toMessage, CProto.isInitialized_toMessage] at hparse
  obtain ⟨hok, hsame⟩ := Prod.mk.inj hparse
  exact Prod.ext hok (CProto.toMessage_inj hsame)

/-! **Round trip**: what is serialized from a message is parsed as this message, whatever fields it has,
and reported complete where it is; and its length is what `ByteSize` says. -/

end Uvnet

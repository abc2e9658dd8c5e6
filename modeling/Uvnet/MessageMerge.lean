import Uvnet.MessagePlain

/- Messages one behind the other: what is parsed of them is one message merged into the other.

   A stream that has some bytes more than another gives the same as long as the other one has
   something to give (`Follows`), so that a parse goes on behind a message as if a new one began
   there, with the fields merged into those it has (`plainMerge_follows`). A serialized message
   is its fields one behind the other, and so it is parsed field by field
   (`parsePartial_serialize`). -/
namespace Uvnet
open CMachine

/-- `t` has what `s` has to give, and `more` behind it. -/
def Follows {σ : Type} (At : List UInt8 → σ → Prop) (more : List UInt8) (s t : σ) : Prop := ∃ b, At b s ∧ At (b ++ more) t

/-- What is documented of a stream, `At b s` where the bytes `b` are left in `s`: what it reads
does not depend on what comes behind, and what was written is what is read. -/
structure MessageRuntime.Wire {σ : Type} (rt : MessageRuntime σ) (At : List UInt8 → σ → Prop) : Prop where
  stream : ∀ bytes, At bytes (rt.stream bytes)
  readTag : ∀ {more s t tag known s'}, Follows At more s t → rt.readTagWithCutoff 127 s = (tag, known, s') → tag ≠ 0 →
    ∃ t', rt.readTagWithCutoff 127 t = (tag, known, t') ∧ Follows At more s' t'
  readInt32 : ∀ {more s t v s'}, Follows At more s t → rt.readInt32 s = (some v, s') →
    ∃ t', rt.readInt32 t = (some v, t') ∧ Follows At more s' t'
  readInt64 : ∀ {more s t v s'}, Follows At more s t → rt.readInt64 s = (some v, s') →
    ∃ t', rt.readInt64 t = (some v, t') ∧ Follows At more s' t'
  readString : ∀ {more s t value v s'}, Follows At more s t → rt.readString value s = (true, v, s') →
    ∀ value', ∃ t', rt.readString value' t = (true, v, t') ∧ Follows At more s' t'
  skipField : ∀ {more s t tag s'}, Follows At more s t → rt.skipField tag s = (true, s') →
    ∃ t', rt.skipField tag t = (true, t') ∧ Follows At more s' t'
  /-- The whole message is consumed when the last tag was looked for at the end. -/
  consumed : ∀ {b s tag known s'}, At b s → rt.readTagWithCutoff 127 s = (tag, known, s') → rt.consumedEntireMessage s' = true → b = []
  ended : ∀ {s}, At [] s → ∃ s', rt.readTagWithCutoff 127 s = (0, false, s') ∧ rt.consumedEntireMessage s' = true
  wroteInt32 : ∀ {number v s}, 0 < number → number ≤ 15 → At (rt.writeInt32 number v) s →
    ∃ s₁ s₂, rt.readTagWithCutoff 127 s = (BitVec.ofNat 32 (8 * number), true, s₁) ∧ rt.readInt32 s₁ = (some v, s₂) ∧ At [] s₂
  wroteInt64 : ∀ {number v s}, 0 < number → number ≤ 15 → At (rt.writeInt64 number v) s →
    ∃ s₁ s₂, rt.readTagWithCutoff 127 s = (BitVec.ofNat 32 (8 * number), true, s₁) ∧ rt.readInt64 s₁ = (some v, s₂) ∧ At [] s₂
  wroteString : ∀ {number v s}, 0 < number → number ≤ 15 → v.length < 2 ^ 31 → At (rt.writeString number v) s →
    ∀ value, ∃ s₁ s₂, rt.readTagWithCutoff 127 s = (BitVec.ofNat 32 (8 * number + 2), true, s₁) ∧
      rt.readString value s₁ = (true, v, s₂) ∧ At [] s₂

/-- What is documented of the sizes: those of what is written, without the tag. -/
structure MessageRuntime.Sizes {σ : Type} (rt : MessageRuntime σ) : Prop where
  int32 : ∀ {number} v, 0 < number → number ≤ 15 → ((rt.writeInt32 number v).length : Int) = 1 + rt.int32Size v
  int64 : ∀ {number} v, 0 < number → number ≤ 15 → ((rt.writeInt64 number v).length : Int) = 1 + rt.int64Size v
  string : ∀ {number} v, 0 < number → number ≤ 15 → ((rt.writeString number v).length : Int) = 1 + rt.stringSize v

/-- A string is as long as an `int` can say. -/
def FieldType.Short : (t : FieldType) → t.Value → Prop
  | .string, v => v.length < 2 ^ 31
  | _, _ => True

namespace Message

def Short {ts : List FieldType} (m : Message ts) : Prop := ∀ i v, m i = some v → (ts.get i).Short v

variable {ts : List FieldType} {σ : Type} {rt : MessageRuntime σ} {At : List UInt8 → σ → Prop}
variable {m m' m₁ m₂ : Message ts} {s s' t : σ} {more : List UInt8}

/-! Merging. -/

theorem mergeFold_apply (source m : Message ts) (l : List (Fin ts.length)) (i : Fin ts.length) :
    (l.foldl (fun m i => (source i).elim m fun v => m.set i v) m) i = if i ∈ l then (source i).or (m i) else m i := by
  induction l generalizing m with
  | nil => rfl
  | cons j l ih =>
    rw [List.foldl_cons, ih]
    by_cases hij : i = j
    · subst hij
      cases source i with
      | none => simp
      | some v => simp [set]
    · cases source j with
      | none => simp [hij]
      | some v => simp [hij, set]

@[simp] theorem mergeFrom_apply (m source : Message ts) (i : Fin ts.length) : m.mergeFrom source i = (source i).or (m i) := by
  unfold mergeFrom
  rw [mergeFold_apply, if_pos (List.mem_finRange i)]

@[simp] theorem mergeFrom_empty (m : Message ts) : m.mergeFrom empty = m := by
  funext i
  simp [empty]

@[simp] theorem empty_mergeFrom (m : Message ts) : empty.mergeFrom m = m := by
  funext i
  simp [empty]

theorem mergeFrom_put (m m' : Message ts) (i : Fin ts.length) (v : (ts.get i).Value) :
    m.mergeFrom (m'.put i (some v)) = (m.mergeFrom m').put i (some v) := by
  funext j
  by_cases hij : j = i
  · subst hij
    simp
  · simp [hij]

/-! A stream that goes on behind another. -/

section Wire
variable (hw : rt.Wire At)
include hw

theorem readValue_follows {ty : FieldType} {value v : Option ty.Value} (hf : Follows At more s t)
    (h : readValue rt ty value s = (true, v, s')) (value' : Option ty.Value) :
    v.isSome = true ∧ ∃ t', readValue rt ty value' t = (true, v, t') ∧ Follows At more s' t' := by
  cases ty with
  | int32 =>
    simp only [readValue] at h ⊢
    split at h
    · next x s₁ hread =>
      obtain ⟨t', ht, hf'⟩ := hw.readInt32 hf hread
      cases h
      exact ⟨rfl, t', by rw [ht], hf'⟩
    · cases h
  | int64 =>
    simp only [readValue] at h ⊢
    split at h
    · next x s₁ hread =>
      obtain ⟨t', ht, hf'⟩ := hw.readInt64 hf hread
      cases h
      exact ⟨rfl, t', by rw [ht], hf'⟩
    · cases h
  | string =>
    rw [readValue_string] at h
    cases hread : rt.readString (value.getD []) s with
    | mk ok rest =>
      rw [hread] at h
      cases h
      obtain ⟨t', ht, hf'⟩ := hw.readString hf hread (value'.getD [])
      refine ⟨rfl, t', ?_, hf'⟩
      rw [readValue_string, ht]
      rfl

theorem readField_follows {i : Fin ts.length} (hf : Follows At more s t) (h : readField rt m i s = (true, m', s')) (m₀ : Message ts) :
    ∃ t', readField rt (m₀.mergeFrom m) i t = (true, m₀.mergeFrom m', t') ∧ Follows At more s' t' := by
  unfold readField at h ⊢
  cases hread : readValue rt (ts.get i) (m i) s with
  | mk ok rest =>
  obtain ⟨v, s₁⟩ := rest
  rw [hread] at h
  cases h
  obtain ⟨hsome, t', ht, hf'⟩ := readValue_follows hw hf hread (m₀.mergeFrom m i)
  obtain ⟨x, rfl⟩ := Option.isSome_iff_exists.1 hsome
  refine ⟨t', ?_, hf'⟩
  rw [ht, mergeFrom_put]

theorem handleUnusual_follows {tg : BitVec 32} (hf : Follows At more s t) (h : handleUnusual rt tg m s = .more m' s') (m₀ : Message ts) :
    ∃ t', handleUnusual rt tg (m₀.mergeFrom m) t = .more (m₀.mergeFrom m') t' ∧ Follows At more s' t' := by
  unfold handleUnusual at h ⊢
  split at h
  · cases h
  · next hnot =>
    cases hskip : rt.skipField tg s with
    | mk ok s₁ =>
      rw [hskip] at h
      cases ok with
      | false => cases h
      | true =>
        cases h
        obtain ⟨t', ht, hf'⟩ := hw.skipField hf hskip
        exact ⟨t', by rw [if_neg hnot, ht], hf'⟩

/-- **A pass** behind a message. -/
theorem plainStep_follows (hf : Follows At more s t) (h : plainStep rt m s = .more m' s') (m₀ : Message ts) :
    ∃ t', plainStep rt (m₀.mergeFrom m) t = .more (m₀.mergeFrom m') t' ∧ Follows At more s' t' := by
  cases hread : rt.readTagWithCutoff 127 s with
  | mk tg rest =>
  obtain ⟨known, s₁⟩ := rest
  have hne : tg ≠ 0 := by
    rintro rfl
    rw [plainStep, pass_zero hread] at h
    cases h
  unfold plainStep pass at h ⊢
  rw [hread] at h
  obtain ⟨t₁, ht, hf₁⟩ := hw.readTag hf hread hne
  rw [ht]
  cases known with
  | false => exact handleUnusual_follows hw hf₁ h m₀
  | true =>
    dsimp only at h ⊢
    split at h
    · exact handleUnusual_follows hw hf₁ h m₀
    · next i next hcases =>
      split at h
      · next htag =>
        rw [if_pos htag]
        show ∃ t', plainField rt (m₀.mergeFrom m) i t₁ = _ ∧ _
        replace h : plainField rt m i s₁ = .more m' s' := h
        unfold plainField at h ⊢
        cases hfield : readField rt m i s₁ with
        | mk ok rest =>
          obtain ⟨m₁, s₂⟩ := rest
          rw [hfield] at h
          cases ok with
          | false => cases h
          | true =>
            cases h
            obtain ⟨t', ht', hf'⟩ := readField_follows hw hf₁ hfield m₀
            exact ⟨t', by rw [ht'], hf'⟩
      · next htag =>
        rw [if_neg htag]
        exact handleUnusual_follows hw hf₁ h m₀

omit hw in
/-- The loop ends with success at a tag that is no field's, and leaves the message alone. -/
theorem plainStep_success (h : plainStep rt m s = .done true m' s') :
    m' = m ∧ ∃ tg known, rt.readTagWithCutoff 127 s = (tg, known, s') := by
  have hunusual : ∀ {tg : BitVec 32} {s₁ : σ}, handleUnusual rt tg m s₁ = .done true m' s' → m' = m ∧ s' = s₁ := by
    intro tg s₁ h
    unfold handleUnusual at h
    split at h
    · cases h
      exact ⟨rfl, rfl⟩
    · split at h <;> cases h
  cases hread : rt.readTagWithCutoff 127 s with
  | mk tg rest =>
  obtain ⟨known, s₁⟩ := rest
  unfold plainStep pass at h
  rw [hread] at h
  suffices hsame : m' = m ∧ s' = s₁ by
    obtain ⟨rfl, rfl⟩ := hsame
    exact ⟨rfl, tg, known, rfl⟩
  cases known with
  | false => exact hunusual h
  | true =>
    dsimp only at h
    split at h
    · exact hunusual h
    · next i next hcases =>
      split at h
      · replace h : plainField rt m i s₁ = .done true m' s' := h
        unfold plainField at h
        split at h <;> cases h
      · exact hunusual h

/-- **A parse** behind a message, which merges the fields of another into its own. -/
theorem plainMerge_follows (hf : Follows At more s t) (h : plainMerge rt m s = (true, m', s'))
    (hend : rt.consumedEntireMessage s' = true) (m₀ : Message ts) :
    ∃ t', At more t' ∧ plainMerge rt (m₀.mergeFrom m) t = plainMerge rt (m₀.mergeFrom m') t' := by
  induction m, s using plainMerge.induct rt generalizing t with
  | case1 m s ok m₁ s₁ hstep =>
    rw [plainMerge_eq, hstep] at h
    cases h
    obtain ⟨rfl, tg, known, hread⟩ := plainStep_success hstep
    obtain ⟨b, hb, hmore⟩ := hf
    rw [hw.consumed hb hread hend, List.nil_append] at hmore
    exact ⟨t, hmore, rfl⟩
  | case2 m s m₁ s₁ hstep ih =>
    rw [plainMerge_eq, hstep] at h
    obtain ⟨t₁, ht, hf₁⟩ := plainStep_follows hw hf hstep m₀
    obtain ⟨t', hmore, hsame⟩ := ih hf₁ h
    refine ⟨t', hmore, ?_⟩
    rw [plainMerge_eq _ t, ht]
    exact hsame

theorem plainMerge_end (h : At [] s) (m : Message ts) : ∃ s', plainMerge rt m s = (true, m, s') ∧ rt.consumedEntireMessage s' = true := by
  obtain ⟨s', hread, hend⟩ := hw.ended h
  refine ⟨s', ?_, hend⟩
  rw [plainMerge_eq, plainStep, pass_zero hread]
  rfl

/-! The generated parser. -/

variable (hx : rt.Expects) (hts : ts.length ≤ 15)
include hx hts

omit hw in
theorem parsePartial_plain (bytes : List UInt8) (m : Message ts) : parsePartial rt bytes = (true, m) ↔
    ∃ s, plainMerge rt empty (rt.stream bytes) = (true, m, s) ∧ rt.consumedEntireMessage s = true := by
  unfold parsePartial
  rw [mergePartial_plain hx hts]
  obtain ⟨ok, m', s⟩ := plainMerge rt (empty : Message ts) (rt.stream bytes)
  simp only [Prod.mk.injEq, Bool.and_eq_true]
  constructor
  · rintro ⟨⟨rfl, hend⟩, rfl⟩
    exact ⟨s, ⟨rfl, rfl, rfl⟩, hend⟩
  · rintro ⟨s', ⟨rfl, rfl, rfl⟩, hend⟩
    exact ⟨⟨rfl, hend⟩, rfl⟩

theorem parsePartial_nil : parsePartial rt [] = (true, (empty : Message ts)) :=
  (parsePartial_plain hx hts [] empty).2 (plainMerge_end hw (hw.stream []) empty)

/-- **One behind the other**: the second message is merged into the first. -/
theorem parsePartial_append {bytes₁ bytes₂ : List UInt8} (h₁ : parsePartial rt bytes₁ = (true, m₁))
    (h₂ : parsePartial rt bytes₂ = (true, m₂)) : parsePartial rt (bytes₁ ++ bytes₂) = (true, m₁.mergeFrom m₂) := by
  obtain ⟨s₁, hparse₁, hend₁⟩ := (parsePartial_plain hx hts _ _).1 h₁
  obtain ⟨s₂, hparse₂, hend₂⟩ := (parsePartial_plain hx hts _ _).1 h₂
  have hfollows : Follows At bytes₂ (rt.stream bytes₁) (rt.stream (bytes₁ ++ bytes₂)) := ⟨bytes₁, hw.stream _, hw.stream _⟩
  obtain ⟨t₁, ht₁, hsame₁⟩ := plainMerge_follows hw hfollows hparse₁ hend₁ empty
  have hfollows' : Follows At [] (rt.stream bytes₂) t₁ := by
    refine ⟨bytes₂, hw.stream _, ?_⟩
    rw [List.append_nil]
    exact ht₁
  obtain ⟨t₂, ht₂, hsame₂⟩ := plainMerge_follows hw hfollows' hparse₂ hend₂ m₁
  rw [mergeFrom_empty, empty_mergeFrom] at hsame₁
  rw [mergeFrom_empty] at hsame₂
  apply (parsePartial_plain hx hts _ _).2
  rw [hsame₁, hsame₂]
  exact plainMerge_end hw ht₂ _

omit hw hx hts in
theorem parseFromArray_of_partial {bytes : List UInt8} (h : parsePartial rt bytes = (true, m)) :
    parseFromArray rt bytes = (m.isInitialized, m) := by
  unfold parsePartial at h
  unfold parseFromArray
  cases hmerge : mergePartial rt (empty : Message ts) (rt.stream bytes) with
  | mk ok rest =>
    rw [hmerge] at h
    obtain ⟨hok, rfl⟩ := Prod.mk.inj h
    obtain ⟨rfl, hend⟩ := Bool.and_eq_true_iff.1 hok
    dsimp only
    rw [hend, Bool.true_and, Bool.and_true]

theorem parsePartial_flatten {bytes : List UInt8} (h : parsePartial rt bytes = (true, m)) (parts : List (List UInt8 × Message ts))
    (hparts : ∀ part ∈ parts, parsePartial rt part.1 = (true, part.2)) :
    parsePartial rt (bytes ++ (parts.map Prod.fst).flatten) = (true, (parts.map Prod.snd).foldl mergeFrom m) := by
  induction parts generalizing bytes m with
  | nil =>
    rw [List.map_nil, List.flatten_nil, List.append_nil]
    exact h
  | cons part parts ih =>
    rw [List.map_cons, List.flatten_cons, ← List.append_assoc, List.map_cons, List.foldl_cons]
    apply ih
    · exact parsePartial_append hw hx hts h (hparts part List.mem_cons_self)
    · exact fun part' hpart => hparts part' (List.mem_cons_of_mem part hpart)

omit hw hx hts in
theorem foldl_mergeFrom_isSome (ms : List (Message ts)) (m : Message ts) (i : Fin ts.length) :
    (ms.foldl mergeFrom m i).isSome = true ↔ (m i).isSome = true ∨ ∃ m' ∈ ms, (m' i).isSome = true := by
  induction ms generalizing m with
  | nil => simp
  | cons m' ms ih =>
    rw [List.foldl_cons, ih, mergeFrom_apply, Option.isSome_or, Bool.or_eq_true, List.exists_mem_cons_iff]
    tauto

/-! What is serialized. -/

omit hx in
theorem readField_wrote {i : Fin ts.length} {v : (ts.get i).Value} (hv : (ts.get i).Short v) (h : At (writeValue rt (i + 1) (ts.get i) v) s)
    (m : Message ts) : ∃ s₁ s₂, rt.readTagWithCutoff 127 s = (tag ts i, true, s₁) ∧ readField rt m i s₁ = (true, m.set i v, s₂) ∧ At [] s₂ := by
  have hle : (i : Nat) + 1 ≤ 15 := Nat.le_trans i.isLt hts
  have hread : ∀ value, ∃ s₁ s₂, rt.readTagWithCutoff 127 s = (tag ts i, true, s₁) ∧
      readValue rt (ts.get i) value s₁ = (true, some v, s₂) ∧ At [] s₂ := by
    unfold tag
    revert v
    cases ts.get i with
    | int32 =>
      intro v _ h value
      obtain ⟨s₁, s₂, htag, hread, hend⟩ := hw.wroteInt32 (Nat.succ_pos i) hle h
      exact ⟨s₁, s₂, htag, by simp only [readValue, hread], hend⟩
    | int64 =>
      intro v _ h value
      obtain ⟨s₁, s₂, htag, hread, hend⟩ := hw.wroteInt64 (Nat.succ_pos i) hle h
      exact ⟨s₁, s₂, htag, by simp only [readValue, hread], hend⟩
    | string =>
      intro v hv h value
      obtain ⟨s₁, s₂, htag, hread, hend⟩ := hw.wroteString (Nat.succ_pos i) hle hv h (value.getD [])
      refine ⟨s₁, s₂, htag, ?_, hend⟩
      rw [readValue_string, hread]
      rfl
  obtain ⟨s₁, s₂, htag, hvalue, hend⟩ := hread (m i)
  refine ⟨s₁, s₂, htag, ?_, hend⟩
  unfold readField
  rw [hvalue]
  rfl

theorem parsePartial_field {i : Fin ts.length} {v : (ts.get i).Value} (hv : (ts.get i).Short v) :
    parsePartial rt (writeValue rt (i + 1) (ts.get i) v) = (true, empty.set i v) := by
  obtain ⟨s₁, s₂, htag, hread, hend⟩ := readField_wrote hw hts hv (hw.stream _) empty
  obtain ⟨s₃, hparse, hconsumed⟩ := plainMerge_end hw hend (empty.set i v)
  refine (parsePartial_plain hx hts _ _).2 ⟨s₃, ?_, hconsumed⟩
  rw [plainMerge_eq, plainStep, pass, htag]
  dsimp only
  rw [casesFrom_tag hts]
  show resume rt (if tag ts i = tag ts i then plainField rt empty i s₁ else _) = _
  rw [if_pos rfl, plainField, hread]
  exact hparse

/-- The fields of a list, and no others. -/
def only (m : Message ts) (l : List (Fin ts.length)) : Message ts := fun i => if i ∈ l then m i else none

omit hw hx hts in
theorem only_cons (m : Message ts) (i : Fin ts.length) (l : List (Fin ts.length)) :
    m.only (i :: l) = ((m i).elim empty fun v => empty.set i v).mergeFrom (m.only l) := by
  funext j
  rw [mergeFrom_apply]
  by_cases hij : j = i
  · subst hij
    by_cases hjl : j ∈ l <;> cases hj : m j <;> simp [only, set, empty, hj, hjl]
  · cases m i <;> simp [only, set, empty, hij]

/-- **Field by field**: what is serialized is parsed as what it was. -/
theorem parsePartial_serialize {m : Message ts} (hm : m.Short) : parsePartial rt (serialize rt m) = (true, m) := by
  have hfields : ∀ l : List (Fin ts.length),
      parsePartial rt (l.flatMap fun i => (m i).elim [] (writeValue rt (i + 1) (ts.get i))) = (true, m.only l) := by
    intro l
    induction l with
    | nil => exact parsePartial_nil hw hx hts
    | cons i l ih =>
      rw [List.flatMap_cons, only_cons]
      apply parsePartial_append hw hx hts _ ih
      cases hi : m i with
      | none => exact parsePartial_nil hw hx hts
      | some v => exact parsePartial_field hw hx hts (hm i v hi)
  have hall : m.only (List.finRange ts.length) = m := by
    funext i
    exact if_pos (List.mem_finRange i)
  rw [serialize, hfields, hall]

end Wire

/-! Its size. -/

theorem byteSize_fallback (rt : MessageRuntime σ) (m : Message ts) : byteSize rt m = requiredFieldsByteSizeFallback rt m := by
  unfold byteSize
  split
  · next hall =>
    have hset : ∀ i, (m i).isSome = true := fun i => List.all_eq_true.1 hall i (List.mem_finRange i)
    unfold requiredFieldsByteSizeFallback
    congr 1
    funext total i
    exact (if_pos (hset i)).symm
  · rfl

theorem length_writeValue (hsize : rt.Sizes) {number : Nat} (hpos : 0 < number) (hle : number ≤ 15) (t : FieldType) (v : t.Value) :
    ((writeValue rt number t v).length : Int) = 1 + valueSize rt t v := by
  cases t with
  | int32 => exact hsize.int32 v hpos hle
  | int64 => exact hsize.int64 v hpos hle
  | string => exact hsize.string v hpos hle

theorem foldlM_length {α : Type} {f : α → List UInt8} {g : Int → α → C Int}
    (hg : ∀ (n : Nat) a, n + (f a).length ≤ intMax → g n a = .ok ((n + (f a).length : Nat) : Int)) (l : List α) (n : Nat)
    (hfit : n + (l.flatMap f).length ≤ intMax) : l.foldlM g (n : Int) = .ok ((n + (l.flatMap f).length : Nat) : Int) := by
  induction l generalizing n with
  | nil => rfl
  | cons a l ih =>
    rw [List.flatMap_cons, List.length_append, ← Nat.add_assoc] at hfit ⊢
    rw [List.foldlM_cons, hg n a (Nat.le_trans (Nat.le_add_right _ _) hfit)]
    exact ih _ hfit

/-- **`ByteSize`** is the length of what is serialized, where that is an `int`. -/
theorem byteSize_serialize (hsize : rt.Sizes) (hts : ts.length ≤ 15) {m : Message ts} (hfit : (serialize rt m).length ≤ intMax) :
    byteSize rt m = .ok ((serialize rt m).length : Int) := by
  rw [byteSize_fallback]
  have hsum := foldlM_length (f := fun i => (m i).elim [] (writeValue rt (i + 1) (ts.get i)))
    (g := fun total i => if (m i).isSome then cint (total + (1 + valueSize rt (ts.get i) (m.get i))) else .ok total)
    (fun n i hn => ?_) (List.finRange ts.length) 0 (by rw [Nat.zero_add]; exact hfit)
  · rw [Nat.zero_add] at hsum
    exact hsum
  · cases hi : m i with
    | none => rfl
    | some v =>
      have hget : m.get i = v := by
        unfold get
        rw [hi]
        rfl
      rw [hi] at hn
      rw [hget]
      apply cint_nat _ hn
      have hlen := length_writeValue hsize (Nat.succ_pos i) (Nat.le_trans i.isLt hts) (ts.get i) v
      rw [← hlen]
      rfl

end Message
end Uvnet

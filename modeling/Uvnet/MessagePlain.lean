import Uvnet.Message

/- The generated parser against the plain one.

   The plain parser reads a tag, the field of the tag, and so on to the end, and expects nothing
   behind a field (`plainMerge`). The generated one finds the same tags, some without looking
   for them, so that it has the same result on every stream (`mergePartial_plain`). -/
namespace Uvnet

/-- What is expected is what would be read: documented of `ExpectTag` and `ExpectAtEnd`, which
take a tag of one byte and take nothing otherwise. -/
structure Runtime.Expects {σ : Type} (rt : Runtime σ) : Prop where
  tag_hit : ∀ {tag s s'}, 0 < tag.toNat → tag.toNat ≤ 127 → rt.expectTag tag s = (true, s') → rt.readTagWithCutoff 127 s = (tag, true, s')
  tag_miss : ∀ {tag s s'}, rt.expectTag tag s = (false, s') → rt.readTagWithCutoff 127 s' = rt.readTagWithCutoff 127 s
  end_hit : ∀ {s s'}, rt.expectAtEnd s = (true, s') → rt.readTagWithCutoff 127 s = (0, false, s')
  end_miss : ∀ {s s'}, rt.expectAtEnd s = (false, s') → rt.readTagWithCutoff 127 s' = rt.readTagWithCutoff 127 s

namespace Message
variable {ts : List FieldType} {σ : Type} {rt : MessageRuntime σ} {m m' : Message ts} {s s' : σ}

/-- A field, and then another pass. -/
def plainField (rt : MessageRuntime σ) (m : Message ts) (i : Fin ts.length) (s : σ) : Pass ts σ :=
  match readField rt m i s with
  | (false, m, s) => .done false m s
  | (true, m, s) => .more m s

def plainStep (rt : MessageRuntime σ) (m : Message ts) (s : σ) : Pass ts σ :=
  pass rt (fun cases m s => cases.head?.elim (.more m s) fun i => plainField rt m i s) m s

theorem plainField_within {i : Fin ts.length} {n : Nat} (hs : rt.remaining s < n) : (plainField rt m i s).Within rt n := by
  have hread := Nat.lt_of_le_of_lt (readField_le m i s) hs
  unfold plainField
  split
  · trivial
  · next m₁ s₁ heq =>
    rw [heq] at hread
    exact hread

theorem plainStep_lt (h : plainStep rt m s = .more m' s') : rt.remaining s' < rt.remaining s := by
  have hw : (plainStep rt m s).Within rt (rt.remaining s) := by
    apply pass_within
    intro cases s n hs
    cases cases with
    | nil => exact hs
    | cons i next => exact plainField_within hs
  rw [h] at hw
  exact hw

def plainMerge (rt : MessageRuntime σ) (m : Message ts) (s : σ) : Bool × Message ts × σ :=
  match _h : plainStep rt m s with
  | .done ok m s => (ok, m, s)
  | .more m s => plainMerge rt m s
termination_by rt.remaining s
decreasing_by exact plainStep_lt _h

/-- What comes of a pass. -/
def resume (rt : MessageRuntime σ) : Pass ts σ → Bool × Message ts × σ
  | .done ok m s => (ok, m, s)
  | .more m s => plainMerge rt m s

theorem plainMerge_eq (m : Message ts) (s : σ) : plainMerge rt m s = resume rt (plainStep rt m s) := by
  rw [plainMerge]
  split <;> next h => rw [h]; rfl

theorem plainMerge_congr (h : rt.readTagWithCutoff 127 s = rt.readTagWithCutoff 127 s') : plainMerge rt m s = plainMerge rt m s' := by
  rw [plainMerge_eq, plainMerge_eq]
  unfold plainStep pass
  rw [h]

/-! The tags are told apart by their field numbers. -/

section Tags
variable (hts : ts.length ≤ 15)
include hts

theorem tag_toNat (i : Fin ts.length) : (tag ts i).toNat = 8 * (i + 1) + (ts.get i).wireType := by
  have hi := i.isLt
  have hw : (ts.get i).wireType ≤ 2 := by
    cases ts.get i <;> decide
  unfold tag
  rw [BitVec.toNat_ofNat]
  apply Nat.mod_eq_of_lt
  omega

theorem tag_le (i : Fin ts.length) : 0 < (tag ts i).toNat ∧ (tag ts i).toNat ≤ 127 := by
  have hi := i.isLt
  have hw : (ts.get i).wireType ≤ 2 := by
    cases ts.get i <;> decide
  rw [tag_toNat hts]
  omega

theorem casesFrom_tag (i : Fin ts.length) :
    casesFrom ts (tagFieldNumber (tag ts i)).toNat = i :: casesFrom ts (i + 2) := by
  have hw : (ts.get i).wireType ≤ 2 := by
    cases ts.get i <;> decide
  have hnumber : (tagFieldNumber (tag ts i)).toNat = i + 1 := by
    unfold tagFieldNumber
    rw [BitVec.toNat_ushiftRight, tag_toNat hts, Nat.shiftRight_eq_div_pow]
    omega
  rw [hnumber]
  unfold casesFrom
  rw [if_neg (Nat.succ_ne_zero _), if_neg (Nat.succ_ne_zero _)]
  have hlt : (i : Nat) < (List.finRange ts.length).length := by
    rw [List.length_finRange]
    exact i.isLt
  show (List.finRange ts.length).drop i = i :: (List.finRange ts.length).drop (i + 1)
  rw [List.drop_eq_getElem_cons hlt, List.getElem_finRange]
  rfl

end Tags

/-! The same result. -/

section Same
variable (hx : rt.Expects) (hts : ts.length ≤ 15)
include hx hts

/-- Where the next field is found, the plain parser finds it in another pass. -/
theorem resume_parseFields (i : Fin ts.length) (next : List (Fin ts.length)) (m : Message ts) (s : σ) :
    resume rt (parseFields rt (i :: next) m s) = resume rt (plainField rt m i s) := by
  induction next generalizing i m s with
  | nil =>
    unfold parseFields plainField
    obtain ⟨ok, m₁, s₁⟩ := readField rt m i s
    cases ok with
    | false => rfl
    | true =>
      dsimp only
      cases hend : rt.expectAtEnd s₁ with
      | mk hit s₂ =>
        cases hit with
        | false => exact plainMerge_congr (hx.end_miss hend)
        | true =>
          show (true, m₁, s₂) = plainMerge rt m₁ s₁
          rw [plainMerge_eq, plainStep, pass_zero (hx.end_hit hend)]
          rfl
  | cons j next ih =>
    unfold parseFields plainField
    obtain ⟨ok, m₁, s₁⟩ := readField rt m i s
    cases ok with
    | false => rfl
    | true =>
      dsimp only
      cases htag : rt.expectTag (tag ts j) s₁ with
      | mk hit s₂ =>
        cases hit with
        | false => exact plainMerge_congr (hx.tag_miss htag)
        | true =>
          show resume rt (parseFields rt (j :: next) m₁ s₂) = plainMerge rt m₁ s₁
          rw [ih, plainMerge_eq, plainStep, pass, hx.tag_hit (tag_le hts j).1 (tag_le hts j).2 htag]
          dsimp only
          rw [casesFrom_tag hts]
          exact congrArg (resume rt) (if_pos rfl).symm

theorem resume_mergeStep (m : Message ts) (s : σ) : resume rt (mergeStep rt m s) = resume rt (plainStep rt m s) := by
  unfold mergeStep plainStep pass
  split
  · rfl
  · split
    · rfl
    · split
      · exact resume_parseFields hx hts _ _ _ _
      · rfl

end Same

/-- **The same** on every stream, whatever comes in it and in what order. -/
theorem mergePartial_plain {ts : List FieldType} {rt : MessageRuntime σ} (hx : rt.Expects) (hts : ts.length ≤ 15) (m : Message ts) (s : σ) :
    mergePartial rt m s = plainMerge rt m s := by
  induction m, s using mergePartial.induct rt with
  | case1 m s ok m' s' h =>
    rw [plainMerge_eq, ← resume_mergeStep hx hts, mergePartial, h]
    rfl
  | case2 m s m' s' h ih =>
    rw [plainMerge_eq, ← resume_mergeStep hx hts, mergePartial, h]
    exact ih

/-- `ParseFromArray` with the plain parser. -/
def plainParse (rt : MessageRuntime σ) (bytes : List UInt8) : Bool × Message ts :=
  match plainMerge rt empty (rt.stream bytes) with
  | (ok, m, s) => (ok && m.isInitialized && rt.consumedEntireMessage s, m)

theorem parseFromArray_plain (hx : rt.Expects) (hts : ts.length ≤ 15) (bytes : List UInt8) :
    (parseFromArray rt bytes : Bool × Message ts) = plainParse rt bytes := by
  unfold parseFromArray plainParse
  rw [mergePartial_plain hx hts]

end Message
end Uvnet

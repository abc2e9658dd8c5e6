import Mathlib.Data.List.Basic

/- Incremental scanners over a stream.

   A scanner looks at the elements in front of its cursor and either waits for
   more of them or moves the cursor, possibly emitting an output. The one law
   asked of it (`stable`) is that a decision to move is never changed by what
   comes later. From it follows that scanning does not depend on how the stream
   is cut:

   1. `Path c s os s'` says that `c` can move from `s` to its suffix `s'`,
      emitting `os`; it is stable under extension (`Path.append`) and unique up
      to how far it goes (`Path.outputs`, `Path.rest`).
   2. `outputs s` and `rest s` are what scanning `s` emits and leaves over; there is
      a path from `s` to what it leaves over (`path_rest`).
   3. `emits` gives every output with the cursor it was emitted at; a cursor is
      passed at most once (`emits_sorted`), and a position that no earlier move
      jumps over is reached (`emits_reached`). -/
namespace StreamScan

/-- What a scanner does at its cursor: wait, or move `n` elements on. -/
inductive Verdict (β : Type) where
  | wait
  | move (n : Nat) (out : Option β)
  deriving DecidableEq

structure Scanner (α β : Type) where
  verdict : List α → Verdict β
  bound : ∀ {s n o}, verdict s = .move n o → 0 < n ∧ n ≤ s.length
  stable : ∀ {s n o} (t : List α), verdict s = .move n o → verdict (s ++ t) = .move n o

/-- `c` can move from `s` to `s'` and emits `os` on the way. -/
inductive Path {α β : Type} (c : Scanner α β) : List α → List β → List α → Prop where
  | refl (s : List α) : Path c s [] s
  | move {s n o os s'} : c.verdict s = .move n o → Path c (s.drop n) os s' → Path c s (o.toList ++ os) s'

namespace Scanner
variable {α β : Type} (c : Scanner α β)

/-- The outputs from cursor `q` on, each with the cursor it was emitted at. -/
def emitsFrom : Nat → Nat → List α → List (Nat × β)
  | 0, _, _ => []
  | fuel + 1, q, s => match c.verdict s with
    | .wait => []
    | .move n o => (o.map (q, ·)).toList ++ emitsFrom fuel (q + n) (s.drop n)

/-- What is left in front of the cursor when the scanner waits. -/
def restFrom : Nat → List α → List α
  | 0, s => s
  | fuel + 1, s => match c.verdict s with
    | .wait => s
    | .move n _ => restFrom fuel (s.drop n)

/-- Everything emitted on `s` from cursor `q`; every move consumes an element,
so the length is fuel enough. -/
def emits (q : Nat) (s : List α) : List (Nat × β) := c.emitsFrom s.length q s

def rest (s : List α) : List α := c.restFrom s.length s

def outputs (s : List α) : List β := (c.emits 0 s).map Prod.snd

/-! Unfolding a scan by one move. -/

theorem verdict_nil : c.verdict [] = .wait := by
  cases h : c.verdict [] with
  | wait => rfl
  | move n o =>
    have := c.bound h
    simp at this
    omega

theorem emitsFrom_wait {s : List α} (h : c.verdict s = .wait) (fuel q : Nat) : c.emitsFrom fuel q s = [] := by
  cases fuel with
  | zero => rfl
  | succ fuel => simp only [emitsFrom, h]

theorem restFrom_wait {s : List α} (h : c.verdict s = .wait) (fuel : Nat) : c.restFrom fuel s = s := by
  cases fuel with
  | zero => rfl
  | succ fuel => simp only [restFrom, h]

theorem emitsFrom_fuel : ∀ (fuel q : Nat) (s : List α), s.length ≤ fuel →
    c.emitsFrom fuel q s = c.emits q s := by
  suffices ∀ (a b q : Nat) (s : List α), s.length ≤ a → s.length ≤ b →
      c.emitsFrom a q s = c.emitsFrom b q s from fun fuel q s h => this fuel s.length q s h (Nat.le_refl _)
  intro a
  induction a with
  | zero =>
    intro b q s ha _
    have : s = [] := List.eq_nil_of_length_eq_zero (by omega)
    subst this
    rw [emitsFrom_wait c c.verdict_nil, emitsFrom_wait c c.verdict_nil]
  | succ a ih =>
    intro b q s ha hb
    cases hv : c.verdict s with
    | wait => rw [emitsFrom_wait c hv, emitsFrom_wait c hv]
    | move n o =>
      have hn := c.bound hv
      cases b with
      | zero => omega
      | succ b =>
        simp only [emitsFrom, hv]
        rw [ih b (q + n) (s.drop n) (by rw [List.length_drop]; omega) (by rw [List.length_drop]; omega)]

theorem restFrom_fuel : ∀ (fuel : Nat) (s : List α), s.length ≤ fuel → c.restFrom fuel s = c.rest s := by
  suffices ∀ (a b : Nat) (s : List α), s.length ≤ a → s.length ≤ b →
      c.restFrom a s = c.restFrom b s from fun fuel s h => this fuel s.length s h (Nat.le_refl _)
  intro a
  induction a with
  | zero =>
    intro b s ha _
    have : s = [] := List.eq_nil_of_length_eq_zero (by omega)
    subst this
    rw [restFrom_wait c c.verdict_nil, restFrom_wait c c.verdict_nil]
  | succ a ih =>
    intro b s ha hb
    cases hv : c.verdict s with
    | wait => rw [restFrom_wait c hv, restFrom_wait c hv]
    | move n o =>
      have hn := c.bound hv
      cases b with
      | zero => omega
      | succ b =>
        simp only [restFrom, hv]
        exact ih b (s.drop n) (by rw [List.length_drop]; omega) (by rw [List.length_drop]; omega)

theorem emits_wait {s : List α} (h : c.verdict s = .wait) (q : Nat) : c.emits q s = [] :=
  c.emitsFrom_wait h _ _

theorem emits_move {s : List α} {n : Nat} {o : Option β} (h : c.verdict s = .move n o) (q : Nat) :
    c.emits q s = (o.map (q, ·)).toList ++ c.emits (q + n) (s.drop n) := by
  have hn := c.bound h
  obtain ⟨k, hk⟩ : ∃ k, s.length = k + 1 := ⟨s.length - 1, by omega⟩
  rw [emits, hk]
  simp only [emitsFrom, h]
  rw [c.emitsFrom_fuel k _ _ (by rw [List.length_drop]; omega)]

theorem rest_wait {s : List α} (h : c.verdict s = .wait) : c.rest s = s := c.restFrom_wait h _

theorem rest_move {s : List α} {n : Nat} {o : Option β} (h : c.verdict s = .move n o) :
    c.rest s = c.rest (s.drop n) := by
  have hn := c.bound h
  obtain ⟨k, hk⟩ : ∃ k, s.length = k + 1 := ⟨s.length - 1, by omega⟩
  rw [rest, hk]
  simp only [restFrom, h]
  rw [c.restFrom_fuel k _ (by rw [List.length_drop]; omega)]

/-- Induction along a scan: a scan either waits or makes a move and goes on. -/
theorem scan_induction {P : List α → Prop} (wait : ∀ s, c.verdict s = .wait → P s)
    (move : ∀ s n o, c.verdict s = .move n o → P (s.drop n) → P s) (s : List α) : P s := by
  induction hk : s.length using Nat.strongRecOn generalizing s with
  | _ k ih =>
    cases hv : c.verdict s with
    | wait => exact wait s hv
    | move n o =>
      have hn := c.bound hv
      exact move s n o hv (ih _ (by rw [List.length_drop]; omega) _ rfl)

theorem emits_snd (q : Nat) (s : List α) : (c.emits q s).map Prod.snd = c.outputs s := by
  suffices ∀ s, ∀ a b : Nat, (c.emits a s).map Prod.snd = (c.emits b s).map Prod.snd from this s q 0
  intro s
  induction s using c.scan_induction with
  | wait s hv => intro a b; rw [c.emits_wait hv, c.emits_wait hv]
  | move s n o hv ih =>
    intro a b
    rw [c.emits_move hv, c.emits_move hv, List.map_append, List.map_append, ih (a + n) (b + n)]
    cases o <;> rfl

theorem outputs_wait {s : List α} (h : c.verdict s = .wait) : c.outputs s = [] := by
  rw [outputs, c.emits_wait h]; rfl

theorem outputs_move {s : List α} {n : Nat} {o : Option β} (h : c.verdict s = .move n o) :
    c.outputs s = o.toList ++ c.outputs (s.drop n) := by
  rw [outputs, c.emits_move h, List.map_append, emits_snd]
  cases o <;> rfl

theorem verdict_rest (s : List α) : c.verdict (c.rest s) = .wait := by
  induction s using c.scan_induction with
  | wait s hv => rw [c.rest_wait hv]; exact hv
  | move s n o hv ih => rw [c.rest_move hv]; exact ih

theorem path_rest (s : List α) : Path c s (c.outputs s) (c.rest s) := by
  induction s using c.scan_induction with
  | wait s hv => rw [c.rest_wait hv, c.outputs_wait hv]; exact .refl s
  | move s n o hv ih => rw [c.rest_move hv, c.outputs_move hv]; exact .move hv ih

end Scanner

/-! Paths. -/

namespace Path
variable {α β : Type} {c : Scanner α β}

theorem trans {s s' s'' : List α} {os os' : List β} (h : Path c s os s') (h' : Path c s' os' s'') :
    Path c s (os ++ os') s'' := by
  induction h with
  | refl _ => exact h'
  | move hv _ ih => rw [List.append_assoc]; exact .move hv (ih h')

theorem skip {s s' : List α} {n : Nat} {os : List β} (hv : c.verdict s = .move n none)
    (h : Path c (s.drop n) os s') : Path c s os s' := .move hv h

theorem append {s s' : List α} {os : List β} (h : Path c s os s') (t : List α) :
    Path c (s ++ t) os (s' ++ t) := by
  induction h with
  | refl s => exact .refl _
  | @move s n o os s' hv _ ih =>
    have hn := c.bound hv
    refine .move (c.stable t hv) ?_
    rwa [List.drop_append_of_le_length hn.2]

/-- A path emits a first part of the outputs, and the rest of them are its end's. -/
theorem outputs {s s' : List α} {os : List β} (h : Path c s os s') :
    c.outputs s = os ++ c.outputs s' := by
  induction h with
  | refl _ => rfl
  | move hv _ ih => rw [c.outputs_move hv, ih, List.append_assoc]

theorem outputs_prefix {s t : List α} (h : s <+: t) : c.outputs s <+: c.outputs t := by
  obtain ⟨u, rfl⟩ := h
  rw [((c.path_rest s).append u).outputs]
  exact List.prefix_append _ _

theorem rest {s s' : List α} {os : List β} (h : Path c s os s') : c.rest s = c.rest s' := by
  induction h with
  | refl _ => rfl
  | move hv _ ih => rw [c.rest_move hv, ih]

theorem suffix {s s' : List α} {os : List β} (h : Path c s os s') : ∃ q, s' = s.drop q := by
  induction h with
  | refl s => exact ⟨0, rfl⟩
  | @move s n _ _ _ _ _ ih =>
    obtain ⟨q, rfl⟩ := ih
    exact ⟨n + q, List.drop_drop⟩

theorem length_le {s s' : List α} {os : List β} (h : Path c s os s') : s'.length ≤ s.length := by
  induction h with
  | refl _ => exact Nat.le_refl _
  | move _ _ ih => rw [List.length_drop] at ih; omega

end Path

/-- `P` holds in front of every cursor the scan of `s` visits. -/
def AllVisited {α β : Type} (c : Scanner α β) (P : List α → Prop) (s : List α) : Prop :=
  ∀ os s', Path c s os s' → P s'

namespace AllVisited
variable {α β : Type} {c : Scanner α β} {P : List α → Prop}

theorem of_wait {s : List α} (hv : c.verdict s = .wait) (hs : P s) : AllVisited c P s := by
  intro os s' p
  cases p with
  | refl => exact hs
  | move hv' _ => rw [hv] at hv'; cases hv'

theorem of_move {s : List α} {n : Nat} {o : Option β} (hv : c.verdict s = .move n o) (hs : P s)
    (h : AllVisited c P (s.drop n)) : AllVisited c P s := by
  intro os s' p
  cases p with
  | refl => exact hs
  | move hv' p' =>
    rw [hv] at hv'
    cases hv'
    exact h _ _ p'

/-- What holds in front of every cursor of a longer stream holds there for its first part. -/
theorem of_append {Q : List α → Prop} {s t : List α} (h : AllVisited c P (s ++ t))
    (hPQ : ∀ s, P (s ++ t) → Q s) : AllVisited c Q s := fun os s' p => hPQ s' (h os _ (p.append t))

theorem mono {Q : List α → Prop} {s : List α} (h : AllVisited c P s) (hPQ : ∀ s, P s → Q s) :
    AllVisited c Q s := fun os s' p => hPQ s' (h os s' p)

end AllVisited

namespace Scanner
variable {α β : Type} (c : Scanner α β)

/-! Outputs with their cursors. -/

theorem emits_ge {q : Nat} {s : List α} {x : Nat × β} (h : x ∈ c.emits q s) : q ≤ x.1 := by
  suffices ∀ s, ∀ q, ∀ x ∈ c.emits q s, q ≤ x.1 from this s q x h
  intro s
  induction s using c.scan_induction with
  | wait s hv => intro q x hx; rw [c.emits_wait hv] at hx; cases hx
  | move s n o hv ih =>
    intro q x hx
    rw [c.emits_move hv] at hx
    rcases List.mem_append.1 hx with hx | hx
    · cases o with
      | none => cases hx
      | some b => simp at hx; subst hx; exact Nat.le_refl _
    · have := ih (q + n) x hx
      omega

theorem emits_sorted (q : Nat) (s : List α) : (c.emits q s).Pairwise (fun x y => x.1 < y.1) := by
  suffices ∀ s, ∀ q, (c.emits q s).Pairwise (fun x y => x.1 < y.1) from this s q
  intro s
  induction s using c.scan_induction with
  | wait s hv => intro q; rw [c.emits_wait hv]; exact .nil
  | move s n o hv ih =>
    intro q
    have hn := c.bound hv
    rw [c.emits_move hv]
    cases o with
    | none => exact ih (q + n)
    | some b =>
      refine List.pairwise_cons.2 ⟨fun y hy => ?_, ih (q + n)⟩
      have := c.emits_ge hy
      simp only
      omega

theorem emits_once {q p : Nat} {s : List α} {b : β} (h : (p, b) ∈ c.emits q s) :
    (c.emits q s).filter (fun x => x.1 = p) = [(p, b)] := by
  have hs := c.emits_sorted q s
  generalize c.emits q s = l at h hs
  induction l with
  | nil => cases h
  | cons x l ih =>
    obtain ⟨hx, hl⟩ := List.pairwise_cons.1 hs
    rcases List.mem_cons.1 h with rfl | h
    · have hnone : l.filter (fun x => x.1 = p) = [] := by
        refine List.filter_eq_nil_iff.2 fun y hy => ?_
        have := hx y hy
        simp only [decide_eq_true_eq]
        omega
      rw [List.filter_cons_of_pos (by simp), hnone]
    · have := hx _ h
      rw [List.filter_cons_of_neg (by simp only [decide_eq_true_eq]; omega)]
      exact ih h hl

/-- A position `p` with an output in front of it is reached when no visited cursor before
`p` waits, and none moves beyond `p`. -/
theorem emits_reached {w : List α} {p n : Nat} {b : β} (hp : c.verdict (w.drop p) = .move n (some b))
    (step : ∀ q < p, (∃ os, Path c w os (w.drop q)) → ∃ m o, c.verdict (w.drop q) = .move m o ∧
      (q + m ≤ p ∨ ∃ b, o = some b ∧ (q, b) ∉ c.emits 0 w)) :
    (p, b) ∈ c.emits 0 w := by
  suffices ∀ k q, q ≤ p → p - q = k → (∃ os, Path c w os (w.drop q)) →
      (∀ x ∈ c.emits q (w.drop q), x ∈ c.emits 0 w) → (p, b) ∈ c.emits q (w.drop q) by
    simpa using this p 0 (Nat.zero_le _) rfl ⟨[], .refl _⟩ (by simp)
  intro k
  induction k using Nat.strongRecOn with
  | _ k ih =>
    intro q hq hk hpath hsub
    rcases Nat.lt_or_ge q p with hlt | hge
    · obtain ⟨m, o, hv, hm⟩ := step q hlt hpath
      obtain ⟨os, hpath⟩ := hpath
      have hpos := (c.bound hv).1
      have hem := c.emits_move hv q
      have hle : q + m ≤ p := by
        rcases hm with hm | ⟨b', rfl, hnot⟩
        · exact hm
        · exact absurd (hsub _ (by rw [hem]; simp)) hnot
      have hnext : ∃ os, Path c w os (w.drop (q + m)) :=
        ⟨_, hpath.trans (.move hv (by rw [List.drop_drop]; exact .refl _))⟩
      rw [hem, List.drop_drop]
      refine List.mem_append_right _ (ih (p - (q + m)) (by omega) (q + m) hle rfl hnext ?_)
      intro x hx
      exact hsub x (by rw [hem, List.drop_drop]; exact List.mem_append_right _ hx)
    · obtain rfl : q = p := by omega
      rw [c.emits_move hp]
      simp

end Scanner

end StreamScan

import Uvnet.BoundedQueue

/- Many writers, one reader, and the bounded queue between them.

   A writer offers some of the rest of its data as often as it likes; each time the queue
   accepts what it has room for. The reader takes from the front. What is proved, for any number of
   writers and any order of moves:
     1. `Sound.move`: what was accepted, in order, is what was read followed by what is queued,
        and from every writer exactly a prefix of its data was accepted (`Sound`);
     2. `Blocks.move`: where a writer that has begun goes on only while the last element
        accepted is its own, every writer's elements stay together (`Block`). -/
namespace SharedQueue
open BoundedQueue

structure Writer (α : Type) where
  data : List α
  sent : Nat

def Writer.rest {α : Type} (w : Writer α) : List α := w.data.drop w.sent

/-- `log` has the pieces accepted, oldest first, with the writer of each. -/
structure Line (α : Type) (cap : Nat) where
  queue : Queue α cap
  given : List α
  log : List (Nat × List α)
  writers : List (Writer α)

inductive Move (α : Type) where
  | join (data : List α)
  | offer (i n : Nat)
  | take (n : Nat)

variable {α : Type} {cap : Nat}

/-- The elements of a log, in order. -/
def elements (log : List (Nat × List α)) : List α := log.flatMap Prod.snd

/-- The elements of writer `i`. -/
def elementsOf (i : Nat) (log : List (Nat × List α)) : List α := elements (log.filter fun c => c.1 == i)

/-- The elements, each with its writer. -/
def tagged (log : List (Nat × List α)) : List (Nat × α) := log.flatMap fun c => c.2.map fun a => (c.1, a)

namespace Line

def start : Line α cap := ⟨Queue.empty, [], [], []⟩

/-- What is accepted when `w` offers `n` elements. -/
def taken (l : Line α cap) (w : Writer α) (n : Nat) : List α := l.queue.accepted (w.rest.take n)

def move (l : Line α cap) : Move α → Line α cap
  | .join data => { l with writers := l.writers ++ [⟨data, 0⟩] }
  | .offer i n =>
    match l.writers[i]? with
    | none => l
    | some w => { l with
      queue := l.queue.put (w.rest.take n)
      log := l.log ++ [(i, l.taken w n)]
      writers := l.writers.set i ⟨w.data, w.sent + (l.taken w n).length⟩ }
  | .take n => { l with queue := l.queue.get n, given := l.given ++ l.queue.out n }

def run (l : Line α cap) (moves : List (Move α)) : Line α cap := moves.foldl move l

end Line

/-! Logs. -/

section Logs
variable {log : List (Nat × List α)} {i j : Nat} {chunk : List α}

theorem elements_append (log : List (Nat × List α)) (i : Nat) (chunk : List α) :
    elements (log ++ [(i, chunk)]) = elements log ++ chunk := by
  simp [elements]

theorem elementsOf_append_self (log : List (Nat × List α)) (i : Nat) (chunk : List α) :
    elementsOf i (log ++ [(i, chunk)]) = elementsOf i log ++ chunk := by
  simp [elementsOf, elements]

theorem elementsOf_append_ne (h : i ≠ j) (log : List (Nat × List α)) (chunk : List α) :
    elementsOf j (log ++ [(i, chunk)]) = elementsOf j log := by
  simp [elementsOf, elements, h]

theorem tagged_append (log : List (Nat × List α)) (i : Nat) (chunk : List α) :
    tagged (log ++ [(i, chunk)]) = tagged log ++ chunk.map fun a => (i, a) := by
  simp [tagged]

theorem tagged_snd (log : List (Nat × List α)) : (tagged log).map Prod.snd = elements log := by
  induction log with
  | nil => rfl
  | cons c log ih =>
    simp only [tagged, elements, List.flatMap_cons, List.map_append] at ih ⊢
    rw [ih, List.map_map]
    simp [Function.comp_def]

theorem tagged_filter (i : Nat) (log : List (Nat × List α)) :
    ((tagged log).filter fun x => x.1 == i).map Prod.snd = elementsOf i log := by
  induction log with
  | nil => rfl
  | cons c log ih =>
    simp only [tagged, elementsOf, elements, List.flatMap_cons, List.filter_append, List.map_append] at ih ⊢
    rw [ih]
    by_cases hc : c.1 = i
    · simp [hc, List.filter_map, Function.comp_def]
    · simp [hc, List.filter_map, Function.comp_def]

end Logs

/-! What every order of moves keeps. -/

/-- Nothing is lost, doubled or reordered on the way in or out. -/
structure Sound (l : Line α cap) : Prop where
  conserves : Queue.Conserves l.given l.queue (elements l.log)
  accepted : ∀ i w, l.writers[i]? = some w → elementsOf i l.log = w.data.take w.sent ∧ w.sent ≤ w.data.length
  known : ∀ c ∈ l.log, c.1 < l.writers.length

theorem start_sound : Sound (Line.start : Line α cap) where
  conserves := rfl
  accepted := by simp [Line.start]
  known := by simp [Line.start]

theorem elementsOf_unknown {log : List (Nat × List α)} {i : Nat} (h : ∀ c ∈ log, c.1 < i) : elementsOf i log = [] := by
  have : log.filter (fun c => c.1 == i) = [] := by
    apply List.filter_eq_nil_iff.2
    intro c hc
    have := h c hc
    simp only [beq_iff_eq]
    omega
  rw [elementsOf, this]
  rfl

theorem taken_prefix (l : Line α cap) (w : Writer α) (n : Nat) : l.taken w n <+: w.rest :=
  (List.take_prefix _ _).trans (List.take_prefix _ _)

theorem Sound.move {l : Line α cap} (h : Sound l) (m : Move α) : Sound (l.move m) := by
  cases m with
  | take n => exact ⟨h.conserves.get n, h.accepted, h.known⟩
  | join data =>
    refine ⟨h.conserves, ?_, ?_⟩
    · intro i w hw
      rcases Nat.lt_trichotomy i l.writers.length with hi | hi | hi
      · have hw' : l.writers[i]? = some w := by rwa [Line.move, List.getElem?_append_left hi] at hw
        exact h.accepted i w hw'
      · -- The new writer has sent nothing yet.
        subst hi
        have hw' : w = ⟨data, 0⟩ := by simpa [Line.move] using hw.symm
        subst hw'
        exact ⟨elementsOf_unknown h.known, Nat.zero_le _⟩
      · rw [Line.move, List.getElem?_eq_none (by simp only [List.length_append, List.length_singleton]; omega)] at hw
        cases hw
    · intro c hc
      have := h.known c hc
      simp only [Line.move, List.length_append, List.length_singleton]
      exact Nat.lt_succ_of_lt this
  | offer i n =>
    simp only [Line.move]
    cases hw : l.writers[i]? with
    | none => exact h
    | some w =>
      obtain ⟨hlt, -⟩ := List.getElem?_eq_some_iff.1 hw
      obtain ⟨hacc, hle⟩ := h.accepted i w hw
      refine ⟨?_, ?_, ?_⟩
      · have := h.conserves.put (w.rest.take n)
        rwa [elements_append]
      · intro j v hv
        by_cases hij : i = j
        · subst hij
          simp only [List.getElem?_set_self hlt, Option.some.injEq] at hv
          subst hv
          have hpre := taken_prefix l w n
          have hlen : (l.taken w n).length ≤ w.data.length - w.sent := by
            calc (l.taken w n).length ≤ w.rest.length := hpre.length_le
              _ = w.data.length - w.sent := List.length_drop
          refine ⟨?_, by simp only; omega⟩
          calc elementsOf i (l.log ++ [(i, l.taken w n)])
              = w.data.take w.sent ++ l.taken w n := by rw [elementsOf_append_self, hacc]
            _ = w.data.take w.sent ++ w.rest.take (l.taken w n).length := by rw [← List.prefix_iff_eq_take.1 hpre]
            _ = w.data.take (w.sent + (l.taken w n).length) := List.take_add.symm
        · simp only [List.getElem?_set_ne hij] at hv
          rw [elementsOf_append_ne hij]
          exact h.accepted j v hv
      · intro c hc
        simp only [List.length_set]
        rcases List.mem_append.1 hc with hc | hc
        · exact h.known c hc
        · rw [List.mem_singleton.1 hc]
          exact hlt

/-! Elements that stay together. -/

/-- The elements of writer `i` form one block. -/
def Block (i : Nat) (xs : List (Nat × α)) : Prop :=
  ∃ A B D, xs = A ++ (B ++ D) ∧ (∀ x ∈ A, x.1 ≠ i) ∧ (∀ x ∈ B, x.1 = i) ∧ ∀ x ∈ D, x.1 ≠ i

section Blocks
variable {i j : Nat} {xs : List (Nat × α)} {chunk : List α}

theorem Block.nil (i : Nat) : Block i ([] : List (Nat × α)) := ⟨[], [], [], by simp⟩

/-- Elements of others, and elements behind its own, leave a writer's block whole. -/
theorem Block.append_ne (h : Block j xs) (hij : i ≠ j) (chunk : List α) :
    Block j (xs ++ chunk.map fun a => (i, a)) := by
  obtain ⟨A, B, D, rfl, hA, hB, hD⟩ := h
  refine ⟨A, B, D ++ chunk.map fun a => (i, a), by simp, hA, hB, ?_⟩
  intro x hx
  rcases List.mem_append.1 hx with hx | hx
  · exact hD x hx
  · obtain ⟨a, -, rfl⟩ := List.mem_map.1 hx
    exact hij

theorem Block.append_self (h : Block i xs) (hlast : ∀ x, xs.getLast? = some x → x.1 = i) (chunk : List α) :
    Block i (xs ++ chunk.map fun a => (i, a)) := by
  obtain ⟨A, B, D, rfl, hA, hB, hD⟩ := h
  have hnil : D = [] := by
    rcases List.eq_nil_or_concat D with hD' | ⟨D', x, rfl⟩
    · exact hD'
    · have hx : x.1 = i := hlast x (by simp)
      exact absurd hx (hD x (by simp))
  subst hnil
  refine ⟨A, B ++ chunk.map fun a => (i, a), [], by simp, hA, ?_, by simp⟩
  intro x hx
  rcases List.mem_append.1 hx with hx | hx
  · exact hB x hx
  · obtain ⟨a, -, rfl⟩ := List.mem_map.1 hx
    rfl

theorem Block.first (h : ∀ x ∈ xs, x.1 ≠ i) (chunk : List α) : Block i (xs ++ chunk.map fun a => (i, a)) := by
  refine ⟨xs, chunk.map fun a => (i, a), [], by simp, h, ?_, by simp⟩
  intro x hx
  obtain ⟨a, -, rfl⟩ := List.mem_map.1 hx
  rfl

theorem Block.take (h : Block i xs) (n : Nat) : Block i (xs.take n) := by
  obtain ⟨A, B, D, rfl, hA, hB, hD⟩ := h
  refine ⟨A.take n, B.take (n - A.length), D.take (n - A.length - B.length), ?_, ?_, ?_, ?_⟩
  · rw [List.take_append, List.take_append]
  · exact fun x hx => hA x (List.mem_of_mem_take hx)
  · exact fun x hx => hB x (List.mem_of_mem_take hx)
  · exact fun x hx => hD x (List.mem_of_mem_take hx)

theorem Block.not_split (h : Block i xs) {a b c : Nat × α} (ha : a.1 = i) (hb : b.1 ≠ i) (hc : c.1 = i) :
    ¬ [a, b, c].Sublist xs := by
  intro hsub
  obtain ⟨A, B, D, rfl, hA, hB, hD⟩ := h
  obtain ⟨u, v, huv, hu, hv⟩ := List.sublist_append_iff.1 hsub
  obtain rfl : u = [] := by
    cases u with
    | nil => rfl
    | cons x u =>
      obtain ⟨rfl, -⟩ := List.cons.inj huv
      exact absurd ha (hA _ (hu.subset (by simp)))
  rw [List.nil_append] at huv
  subst huv
  obtain ⟨u, w, huw, hu, hw⟩ := List.sublist_append_iff.1 hv
  have hcw : c ∈ w := by
    rcases List.append_eq_cons_iff.1 huw.symm with ⟨-, rfl⟩ | ⟨u', rfl, hrest⟩
    · simp
    · rcases List.append_eq_cons_iff.1 hrest.symm with ⟨-, rfl⟩ | ⟨u'', rfl, -⟩
      · simp
      · exact absurd (hB b (hu.subset (by simp))) hb
  exact hD c (hw.subset hcw) hc

end Blocks

/-- Writer `i` may go on: it has not begun, or it has nothing to add, or the last element
accepted is its own. -/
def MayOffer (l : Line α cap) (i n : Nat) : Prop :=
  ∀ w, l.writers[i]? = some w → 0 < w.sent → l.taken w n ≠ [] →
    ∀ x, (tagged l.log).getLast? = some x → x.1 = i

/-- Every writer's elements form one block. -/
def Blocks (l : Line α cap) : Prop := ∀ i, Block i (tagged l.log)

theorem Blocks.move {l : Line α cap} (hs : Sound l) (h : Blocks l) (m : Move α)
    (hm : ∀ i n, m = .offer i n → MayOffer l i n) : Blocks (l.move m) := by
  cases m with
  | take n => exact h
  | join data => exact h
  | offer i n =>
    have hmay := hm i n rfl
    simp only [Blocks, Line.move]
    intro j
    cases hw : l.writers[i]? with
    | none => exact h j
    | some w =>
      simp only [tagged_append]
      by_cases hij : i = j
      · subst hij
        by_cases hsent : 0 < w.sent
        · by_cases hnil : l.taken w n = []
          · rw [hnil, List.map_nil, List.append_nil]
            exact h i
          · exact (h i).append_self (hmay w hw hsent hnil) _
        · -- Its first elements: none of the earlier ones is its own.
          apply Block.first
          intro x hx hxi
          have hnone : elementsOf i l.log = [] := by
            rw [(hs.accepted i w hw).1, Nat.eq_zero_of_not_pos hsent, List.take_zero]
          rw [← tagged_filter, List.map_eq_nil_iff, List.filter_eq_nil_iff] at hnone
          exact hnone x hx (by simpa using hxi)
      · exact (h j).append_ne hij _

end SharedQueue

import Mathlib.Data.List.MinMax
import Uvnet.ActionTrace
import Uvnet.StepRun

/- Threads that run at once, each through its own list of actions, and mutexes that are not
   recursive: a thread that wants one waits until nobody has it, itself included.

   1. `Climbs`: a list of actions takes mutexes in the order of their ranks, each above all that
      are held, and gives back only what is held. It is settled piece by piece, like the
      properties of `ActionTrace`, also where the calls in a list are replaced by what is done in
      them (`Climbs.expand`).
   2. `Ordered.progress`: where all threads climb, and give everything back in the end, some
      thread that is not at its end can go on. For the thread that wants the mutex of the
      highest rank: the one that has it would want a still higher one.
   3. `Ordered.finish`: so all threads can be brought to their ends, from every state. -/
namespace LockOrder
open ActionTrace StepRun

variable {μ κ : Type} [DecidableEq μ]

/-- The mutexes a thread holds, and what it has still to do. -/
structure Thread (μ κ : Type) where
  held : List μ
  rest : List (Act μ κ)

/-- A mutex given back that is not held. -/
inductive Misuse where
  | notHeld

abbrev Threads (μ κ : Type) := List (Thread μ κ)

def free (threads : Threads μ κ) (m : μ) : Bool := threads.all fun t => m ∉ t.held

/-- The `i`th thread takes its next action, or waits. -/
def step (threads : Threads μ κ) (i : Nat) : Except Misuse (Threads μ κ) :=
  match threads[i]? with
  | none => .ok threads
  | some t =>
    match t.rest with
    | [] => .ok threads
    | .lock m :: rest => if free threads m then .ok (threads.set i ⟨m :: t.held, rest⟩) else .ok threads
    | .unlock m :: rest => if m ∈ t.held then .ok (threads.set i ⟨t.held.erase m, rest⟩) else .error .notHeld
    | _ :: rest => .ok (threads.set i ⟨t.held, rest⟩)

/-- What all threads have still to do. -/
def left : Threads μ κ → Nat
  | [] => 0
  | t :: threads => t.rest.length + left threads

/-! Actions in the order of the ranks. -/

/-- Every mutex taken is above those held, and every one given back is held. -/
def Climbs (rank : μ → Nat) (held : List μ) : List (Act μ κ) → Prop
  | [] => True
  | .lock m :: rest => (∀ m' ∈ held, rank m' < rank m) ∧ Climbs rank (m :: held) rest
  | .unlock m :: rest => m ∈ held ∧ Climbs rank (held.erase m) rest
  | .call _ :: rest => Climbs rank held rest
  | .access _ :: rest => Climbs rank held rest
  | .release _ :: rest => Climbs rank held rest

section Climbs
variable {rank : μ → Nat} {held : List μ} {acts acts' : List (Act μ κ)} {m : μ}

@[simp] theorem climbs_nil : Climbs rank held ([] : List (Act μ κ)) := trivial

@[simp] theorem climbs_lock : Climbs rank held (.lock m :: acts) ↔ (∀ m' ∈ held, rank m' < rank m) ∧ Climbs rank (m :: held) acts :=
  Iff.rfl

@[simp] theorem climbs_unlock : Climbs rank held (.unlock m :: acts) ↔ m ∈ held ∧ Climbs rank (held.erase m) acts := Iff.rfl

@[simp] theorem climbs_call {c : κ} : Climbs rank held (.call c :: acts) ↔ Climbs rank held acts := Iff.rfl

@[simp] theorem climbs_access {object : Nat} : Climbs rank held (.access object :: acts) ↔ Climbs rank held acts := Iff.rfl

@[simp] theorem climbs_release {object : Nat} : Climbs rank held (.release object :: acts) ↔ Climbs rank held acts := Iff.rfl

theorem climbs_append : Climbs rank held (acts ++ acts') ↔ Climbs rank held acts ∧ Climbs rank (heldAfter held acts) acts' := by
  induction acts generalizing held with
  | nil => simp [heldAfter]
  | cons a rest ih => cases a <;> simp [heldAfter, ih, and_assoc]

/-- A piece that gives back what it takes does not matter for the next. -/
theorem Balanced.climbs_append (h : Balanced acts) :
    Climbs rank held (acts ++ acts') ↔ Climbs rank held acts ∧ Climbs rank held acts' := by
  rw [LockOrder.climbs_append, h held]

theorem Climbs.section (hbal : Balanced acts) (hlow : ∀ m' ∈ held, rank m' < rank m) (h : Climbs rank (m :: held) acts) :
    Climbs rank held (.lock m :: (acts ++ [.unlock m])) := by
  refine ⟨hlow, (Balanced.climbs_append hbal).2 ⟨h, ?_⟩⟩
  simp

theorem climbs_flatMap {ι : Type} {f : ι → List (Act μ κ)} (l : List ι) (hbal : ∀ i ∈ l, Balanced (f i))
    (h : ∀ i ∈ l, Climbs rank held (f i)) : Climbs rank held (l.flatMap f) := by
  induction l with
  | nil => exact climbs_nil
  | cons i l ih =>
    rw [List.flatMap_cons, Balanced.climbs_append (hbal i List.mem_cons_self)]
    refine ⟨h i List.mem_cons_self, ih ?_ ?_⟩
    · exact fun j hj => hbal j (List.mem_cons_of_mem i hj)
    · exact fun j hj => h j (List.mem_cons_of_mem i hj)

/-- What is done in the calls, instead of the calls; `body` is told how many calls were before. -/
def expand (body : Nat → κ → List (Act μ κ)) : Nat → List (Act μ κ) → List (Act μ κ)
  | _, [] => []
  | n, .call c :: rest => body n c ++ expand body (n + 1) rest
  | n, a :: rest => a :: expand body n rest

theorem heldAfter_expand {body : Nat → κ → List (Act μ κ)} (hbody : ∀ n c, Balanced (body n c)) (n : Nat) :
    heldAfter held (expand body n acts) = heldAfter held acts := by
  induction acts generalizing held n with
  | nil => rfl
  | cons a rest ih =>
    cases a with
    | call c =>
      rw [expand, heldAfter_append, hbody n c held]
      exact ih (n + 1)
    | lock m => exact ih n
    | unlock m => exact ih n
    | access object => exact ih n
    | release object => exact ih n

theorem Balanced.expand {body : Nat → κ → List (Act μ κ)} (hbody : ∀ n c, Balanced (body n c)) (h : Balanced acts) (n : Nat) :
    Balanced (expand body n acts) := by
  intro held
  rw [heldAfter_expand hbody, h held]

/-- **In the calls** only mutexes may be taken that are above those held at the call. -/
theorem Climbs.expand {body : Nat → κ → List (Act μ κ)} (hbody : ∀ n c, Balanced (body n c)) (h : Climbs rank held acts)
    (hcalls : ∀ p ∈ callsUnder held acts, ∀ n, Climbs rank p.2 (body n p.1)) (n : Nat) :
    Climbs rank held (expand body n acts) := by
  induction acts generalizing held n with
  | nil => exact climbs_nil
  | cons a rest ih =>
    cases a with
    | call c =>
      rw [LockOrder.expand, Balanced.climbs_append (hbody n c)]
      exact ⟨hcalls (c, held) List.mem_cons_self n, ih h (fun p hp => hcalls p (List.mem_cons_of_mem _ hp)) (n + 1)⟩
    | lock m => exact ⟨h.1, ih h.2 hcalls n⟩
    | unlock m => exact ⟨h.1, ih h.2 hcalls n⟩
    | access object => exact ih h hcalls n
    | release object => exact ih h hcalls n

end Climbs

/-! Threads that climb. -/

/-- Every thread climbs and gives back all it holds, and no mutex is held by two. -/
structure Ordered (rank : μ → Nat) (threads : Threads μ κ) : Prop where
  climbs : ∀ t ∈ threads, Climbs rank t.held t.rest
  balanced : ∀ t ∈ threads, heldAfter t.held t.rest = []
  exclusive : ∀ (i j : Nat) (t u : Thread μ κ), threads[i]? = some t → threads[j]? = some u → i ≠ j → ∀ m ∈ t.held, m ∉ u.held

section Threads
variable {rank : μ → Nat} {threads threads' : Threads μ κ} {t : Thread μ κ} {i : Nat}

theorem Ordered.of_programs {programs : List (List (Act μ κ))} (hclimbs : ∀ acts ∈ programs, Climbs rank [] acts)
    (hbalanced : ∀ acts ∈ programs, Balanced acts) : Ordered rank (programs.map fun acts => Thread.mk [] acts) where
  climbs t ht := by
    obtain ⟨acts, hacts, rfl⟩ := List.mem_map.1 ht
    exact hclimbs acts hacts
  balanced t ht := by
    obtain ⟨acts, hacts, rfl⟩ := List.mem_map.1 ht
    exact hbalanced acts hacts []
  exclusive i j t u ht hu hij m hm := by
    obtain ⟨acts, hacts, rfl⟩ := List.mem_map.1 (List.mem_of_getElem? ht)
    cases hm

theorem Ordered.set (h : Ordered rank threads) (hi : threads[i]? = some t) {t' : Thread μ κ} (hclimbs : Climbs rank t'.held t'.rest)
    (hbalanced : heldAfter t'.held t'.rest = [])
    (hheld : ∀ m ∈ t'.held, m ∈ t.held ∨ free threads m = true) : Ordered rank (threads.set i t') := by
  have hlt := (List.getElem?_eq_some_iff.1 hi).1
  refine ⟨fun u hu => ?_, fun u hu => ?_, ?_⟩
  · rcases List.mem_or_eq_of_mem_set hu with hu | rfl
    · exact h.climbs u hu
    · exact hclimbs
  · rcases List.mem_or_eq_of_mem_set hu with hu | rfl
    · exact h.balanced u hu
    · exact hbalanced
  · -- What the thread has now it had, or nobody had.
    have hother : ∀ (j : Nat) (u : Thread μ κ), threads[j]? = some u → i ≠ j → ∀ m ∈ t'.held, m ∉ u.held := by
      intro j u hu hij m hm
      rcases hheld m hm with hm | hfree
      · exact h.exclusive i j t u hi hu hij m hm
      · have hnone := List.all_eq_true.1 hfree u (List.mem_of_getElem? hu)
        simpa using hnone
    intro j k u v hu hv hjk m hm
    by_cases hj : i = j
    · subst hj
      rw [List.getElem?_set_self hlt] at hu
      obtain rfl := Option.some.inj hu
      rw [List.getElem?_set_ne hjk] at hv
      exact hother k v hv hjk m hm
    · rw [List.getElem?_set_ne hj] at hu
      by_cases hk : i = k
      · subst hk
        rw [List.getElem?_set_self hlt] at hv
        obtain rfl := Option.some.inj hv
        exact fun hm' => hother j u hu hj m hm' hm
      · rw [List.getElem?_set_ne hk] at hv
        exact h.exclusive j k u v hu hv hjk m hm

omit [DecidableEq μ] in
theorem left_set (hi : threads[i]? = some t) {t' : Thread μ κ} (hlen : t'.rest.length < t.rest.length) :
    left (threads.set i t') < left threads := by
  induction threads generalizing i with
  | nil => cases hi
  | cons u threads ih =>
    cases i with
    | zero =>
      obtain rfl := Option.some.inj hi
      simp only [left, List.set_cons_zero]
      omega
    | succ i =>
      have hless := ih hi
      simp only [left, List.set_cons_succ]
      omega

/-- **A step**: a thread goes on, or waits for a mutex that is held. -/
theorem Ordered.step (h : Ordered rank threads) (i : Nat) :
    ∃ threads', LockOrder.step threads i = .ok threads' ∧ Ordered rank threads' ∧
      (left threads' < left threads ∨ threads' = threads ∧ ∀ t, threads[i]? = some t →
        t.rest = [] ∨ ∃ m rest, t.rest = .lock m :: rest ∧ free threads m = false) := by
  cases hi : threads[i]? with
  | none => exact ⟨threads, by simp only [LockOrder.step, hi], h, .inr ⟨rfl, nofun⟩⟩
  | some t =>
    have hmem := List.mem_of_getElem? hi
    obtain ⟨held, rest⟩ := t
    have hclimbs := h.climbs _ hmem
    have hbalanced := h.balanced _ hmem
    -- A thread that takes or gives back nothing just goes on.
    have hgo : ∀ {a : Act μ κ} {rest' : List (Act μ κ)}, rest = a :: rest' → Climbs rank held rest' → heldAfter held rest' = [] →
        Ordered rank (threads.set i ⟨held, rest'⟩) ∧ left (threads.set i ⟨held, rest'⟩) < left threads := by
      rintro a rest' rfl hc hb
      exact ⟨h.set hi hc hb fun m hm => .inl hm, left_set hi (Nat.lt_succ_self _)⟩
    cases rest with
    | nil =>
      refine ⟨threads, by simp only [LockOrder.step, hi], h, .inr ⟨rfl, fun u hu => ?_⟩⟩
      obtain rfl := Option.some.inj hu
      exact .inl rfl
    | cons a rest =>
      cases a with
      | lock m =>
        cases hfree : free threads m with
        | true =>
          refine ⟨threads.set i ⟨m :: held, rest⟩, by simp only [LockOrder.step, hi, hfree, if_true], ?_, .inl ?_⟩
          · refine h.set hi hclimbs.2 hbalanced fun m' hm' => ?_
            rcases List.mem_cons.1 hm' with rfl | hm'
            · exact .inr hfree
            · exact .inl hm'
          · exact left_set hi (Nat.lt_succ_self _)
        | false =>
          refine ⟨threads, by simp only [LockOrder.step, hi, hfree, Bool.false_eq_true, if_false], h, .inr ⟨rfl, fun u hu => ?_⟩⟩
          obtain rfl := Option.some.inj hu
          exact .inr ⟨m, rest, rfl, hfree⟩
      | unlock m =>
        refine ⟨threads.set i ⟨held.erase m, rest⟩, by simp only [LockOrder.step, hi, if_pos hclimbs.1], ?_, .inl ?_⟩
        · exact h.set hi hclimbs.2 hbalanced fun m' hm' => .inl (List.mem_of_mem_erase hm')
        · exact left_set hi (Nat.lt_succ_self _)
      | call c =>
        obtain ⟨hordered, hless⟩ := hgo rfl hclimbs hbalanced
        exact ⟨_, by simp only [LockOrder.step, hi], hordered, .inl hless⟩
      | access object =>
        obtain ⟨hordered, hless⟩ := hgo rfl hclimbs hbalanced
        exact ⟨_, by simp only [LockOrder.step, hi], hordered, .inl hless⟩
      | release object =>
        obtain ⟨hordered, hless⟩ := hgo rfl hclimbs hbalanced
        exact ⟨_, by simp only [LockOrder.step, hi], hordered, .inl hless⟩

/-- What a thread waits for. -/
def wanted (rank : μ → Nat) (t : Thread μ κ) : Nat :=
  match t.rest with
  | .lock m :: _ => rank m
  | _ => 0

/-- **Some thread can go on**, as long as one is not at its end. -/
theorem Ordered.progress (h : Ordered rank threads) (hsome : ∃ t ∈ threads, t.rest ≠ []) :
    ∃ i threads', LockOrder.step threads i = .ok threads' ∧ Ordered rank threads' ∧ left threads' < left threads := by
  by_contra hstuck
  -- Then all that are not at their end wait.
  have hwait : ∀ t ∈ threads, t.rest ≠ [] → ∃ m rest, t.rest = .lock m :: rest ∧ free threads m = false := by
    intro t ht hne
    obtain ⟨i, hi⟩ := List.mem_iff_getElem?.1 ht
    obtain ⟨threads', hs, hordered, hless | ⟨-, hwaits⟩⟩ := h.step i
    · exact (hstuck ⟨i, threads', hs, hordered, hless⟩).elim
    · exact (hwaits t hi).resolve_left hne
  -- The one that wants the mutex of the highest rank waits for another, which wants a higher one.
  obtain ⟨t₀, ht₀, hne₀⟩ := hsome
  have hne : threads.filter (fun t => t.rest ≠ []) ≠ [] := by
    apply List.ne_nil_of_mem
    exact List.mem_filter.2 ⟨ht₀, by simpa using hne₀⟩
  obtain ⟨t, ht⟩ : ∃ t, (threads.filter fun t => t.rest ≠ []).argmax (wanted rank) = some t :=
    Option.ne_none_iff_exists'.1 (mt List.argmax_eq_none.1 hne)
  obtain ⟨hmem, hrest⟩ := List.mem_filter.1 (List.argmax_mem ht)
  obtain ⟨m, rest, hlock, hheld⟩ := hwait t hmem (by simpa using hrest)
  obtain ⟨u, hu, hm⟩ : ∃ u ∈ threads, m ∈ u.held := by
    simpa [free] using hheld
  have hurest : u.rest ≠ [] := by
    intro hnil
    have hnone := h.balanced u hu
    rw [hnil] at hnone
    replace hnone : u.held = [] := hnone
    rw [hnone] at hm
    cases hm
  obtain ⟨m', rest', hlock', -⟩ := hwait u hu hurest
  have hlow : rank m < rank m' := by
    have hclimbs := h.climbs u hu
    rw [hlock'] at hclimbs
    exact hclimbs.1 m hm
  have hmax : wanted rank u ≤ wanted rank t := List.le_of_mem_argmax (List.mem_filter.2 ⟨hu, by simpa using hurest⟩) ht
  rw [wanted, wanted, hlock, hlock'] at hmax
  exact Nat.not_lt.2 hmax hlow

/-- **All threads can come to their ends.** -/
theorem Ordered.finish (h : Ordered rank threads) :
    ∃ is threads', run LockOrder.step threads is = .ok threads' ∧ ∀ t ∈ threads', t.rest = [] ∧ t.held = [] := by
  have hcloser : ∀ s : Threads μ κ, Ordered rank s → ¬(∀ t ∈ s, t.rest = []) →
      ∃ i s', True ∧ LockOrder.step s i = .ok s' ∧ Ordered rank s' ∧ left s' < left s := by
    intro s hs hgoal
    have hsome : ∃ t ∈ s, t.rest ≠ [] := by
      simpa using hgoal
    obtain ⟨i, s', hi, hordered, hless⟩ := hs.progress hsome
    exact ⟨i, s', trivial, hi, hordered, hless⟩
  obtain ⟨is, threads', -, hrun, hordered, hend⟩ := run_reaches Nat.lt_wfRel.wf left hcloser h
  refine ⟨is, threads', hrun, fun t ht => ⟨hend t ht, ?_⟩⟩
  have hnone := hordered.balanced t ht
  rw [hend t ht] at hnone
  exact hnone

/-- **Every run** keeps the order, and none gives back what is not held. -/
theorem Ordered.run (h : Ordered rank threads) (is : List Nat) : ∃ threads', run LockOrder.step threads is = .ok threads' ∧ Ordered rank threads' := by
  have hstep : ∀ (s : Threads μ κ) (i : Nat), Ordered rank s → True → ∃ s', LockOrder.step s i = .ok s' ∧ Ordered rank s' := by
    intro s i hs _
    obtain ⟨s', hi, hordered, -⟩ := hs.step i
    exact ⟨s', hi, hordered⟩
  exact run_total hstep h (Along.of_forall (fun _ _ _ => trivial) _)

end Threads

end LockOrder

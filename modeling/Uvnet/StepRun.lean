import Mathlib.Data.List.Basic

/- Runs of a machine that takes one event after another and may fault.

   The rules are the ones every safety proof about such a machine needs: what one step
   keeps, a run keeps (`run_keeps`); where one step cannot fault, no run can
   (`run_total`); where some step gets closer to a goal, some run reaches it (`run_reaches`).
   All come with a condition on the steps (`Along`), so that a property
   which holds of some schedules only can be stated for those. An endless schedule is
   followed by its finite fronts (`upTo`). -/
namespace StepRun

variable {σ ε φ : Type} (step : σ → ε → Except φ σ)

/-- The state after the events `es`. -/
def run : σ → List ε → Except φ σ
  | s, [] => .ok s
  | s, e :: es =>
    match step s e with
    | .ok s' => run s' es
    | .error f => .error f

/-- Every event of the run is taken in a state where `cond` allows it. -/
def Along (cond : σ → ε → Prop) : σ → List ε → Prop
  | _, [] => True
  | s, e :: es => cond s e ∧ ∀ s', step s e = .ok s' → Along cond s' es

variable {step} {cond : σ → ε → Prop} {s s' t : σ} {e : ε} {es : List ε}

theorem run_cons (h : step s e = .ok s') (es : List ε) : run step s (e :: es) = run step s' es := by
  rw [run, h]

theorem run_cons_ok (h : run step s (e :: es) = .ok t) : ∃ s', step s e = .ok s' ∧ run step s' es = .ok t := by
  unfold run at h
  cases hs : step s e with
  | error f => rw [hs] at h; cases h
  | ok s' => rw [hs] at h; exact ⟨s', rfl, h⟩

theorem run_append {fs : List ε} (h : run step s es = .ok t) : run step s (es ++ fs) = run step t fs := by
  induction es generalizing s with
  | nil => cases h; rfl
  | cons e es ih =>
    obtain ⟨s', hs, hrun⟩ := run_cons_ok h
    exact (run_cons hs _).trans (ih hrun)

theorem run_append_ok {fs : List ε} (h : run step s (es ++ fs) = .ok t) :
    ∃ u, run step s es = .ok u ∧ run step u fs = .ok t := by
  induction es generalizing s with
  | nil => exact ⟨s, rfl, h⟩
  | cons e es ih =>
    obtain ⟨s', hs, hrun⟩ := run_cons_ok h
    obtain ⟨u, hu, hrest⟩ := ih hrun
    exact ⟨u, (run_cons hs es).trans hu, hrest⟩

theorem Along.of_forall (h : ∀ e ∈ es, ∀ s, cond s e) (s : σ) : Along step cond s es := by
  induction es generalizing s with
  | nil => trivial
  | cons e es ih => exact ⟨h e (by simp) s, fun s' _ => ih (fun e he => h e (List.mem_cons_of_mem _ he)) s'⟩

theorem Along.and {cond' : σ → ε → Prop} (h : Along step cond s es) (h' : Along step cond' s es) :
    Along step (fun s e => cond s e ∧ cond' s e) s es := by
  induction es generalizing s with
  | nil => trivial
  | cons e es ih => exact ⟨⟨h.1, h'.1⟩, fun s' hs => ih (h.2 s' hs) (h'.2 s' hs)⟩

theorem Along.cons (hs : step s e = .ok s') (hc : cond s e) (h : Along step cond s' es) : Along step cond s (e :: es) := by
  refine ⟨hc, fun s'' hs' => ?_⟩
  obtain rfl : s' = s'' := Except.ok.inj (hs.symm.trans hs')
  exact h

theorem Along.append {fs : List ε} (h : Along step cond s es) (hrun : run step s es = .ok t)
    (h' : Along step cond t fs) : Along step cond s (es ++ fs) := by
  induction es generalizing s with
  | nil =>
    cases hrun
    exact h'
  | cons e es ih =>
    obtain ⟨s', hs, hrun⟩ := run_cons_ok hrun
    exact .cons hs h.1 (ih (h.2 s' hs) hrun)

/-- **What a step keeps, a run keeps.** -/
theorem run_keeps {inv : σ → Prop} (hstep : ∀ s e s', inv s → cond s e → step s e = .ok s' → inv s')
    (h : inv s) (halong : Along step cond s es) (hrun : run step s es = .ok t) : inv t := by
  induction es generalizing s with
  | nil => cases hrun; exact h
  | cons e es ih =>
    obtain ⟨s', hs, hrun'⟩ := run_cons_ok hrun
    exact ih (hstep s e s' h halong.1 hs) (halong.2 s' hs) hrun'

/-- A condition that says as much as another one in the states that come up. -/
theorem Along.imp {cond' : σ → ε → Prop} {inv : σ → Prop} (hstep : ∀ s e s', inv s → cond s e → step s e = .ok s' → inv s')
    (himp : ∀ s e, inv s → cond s e → cond' s e) (h : inv s) (halong : Along step cond s es) : Along step cond' s es := by
  induction es generalizing s with
  | nil => trivial
  | cons e es ih => exact ⟨himp s e h halong.1, fun s' hs => ih (hstep s e s' h halong.1 hs) (halong.2 s' hs)⟩

/-- **Where no step faults, no run does.** -/
theorem run_total {inv : σ → Prop} (hstep : ∀ s e, inv s → cond s e → ∃ s', step s e = .ok s' ∧ inv s')
    (h : inv s) (halong : Along step cond s es) : ∃ t, run step s es = .ok t ∧ inv t := by
  induction es generalizing s with
  | nil => exact ⟨s, rfl, h⟩
  | cons e es ih =>
    obtain ⟨s', hs, hinv⟩ := hstep s e h halong.1
    obtain ⟨t, hrun, ht⟩ := ih hinv (halong.2 s' hs)
    exact ⟨t, (run_cons hs es).trans hrun, ht⟩

/-- **Where some step gets closer to the goal, some run reaches it.** What is closer is told by a
well-founded relation on a measure of the states. -/
theorem run_reaches {α : Type} {r : α → α → Prop} (hwf : WellFounded r) (measure : σ → α) {inv goal : σ → Prop}
    (hstep : ∀ s, inv s → ¬goal s → ∃ e s', cond s e ∧ step s e = .ok s' ∧ inv s' ∧ r (measure s') (measure s)) (h : inv s) :
    ∃ es t, Along step cond s es ∧ run step s es = .ok t ∧ inv t ∧ goal t := by
  induction hm : measure s using hwf.induction generalizing s with
  | _ m ih =>
    by_cases hgoal : goal s
    · exact ⟨[], s, trivial, rfl, h, hgoal⟩
    · obtain ⟨e, s', hcond, hs, hinv, hless⟩ := hstep s h hgoal
      obtain ⟨es, t, halong, hrun, ht⟩ := ih (measure s') (hm ▸ hless) hinv rfl
      exact ⟨e :: es, t, .cons hs hcond halong, (run_cons hs es).trans hrun, ht⟩

/-- **Where no step ends in the fault `f`, no run does.** -/
theorem run_ne_error {inv : σ → Prop} {f : φ} (hstep : ∀ s e s', inv s → cond s e → step s e = .ok s' → inv s')
    (hne : ∀ s e, inv s → cond s e → step s e ≠ .error f) (h : inv s) (halong : Along step cond s es) :
    run step s es ≠ .error f := by
  induction es generalizing s with
  | nil => exact nofun
  | cons e es ih =>
    cases hs : step s e with
    | error f' =>
      have hf := hne s e h halong.1
      rw [hs] at hf
      rw [run, hs]
      exact hf
    | ok s' =>
      rw [run_cons hs]
      exact ih (hstep s e s' h halong.1 hs) (halong.2 s' hs)

/-- Where a condition on a step is exactly what keeps `P`, and holds of the steps that fault,
the runs that meet it at every step are those that have `P` in every state they reach. -/
theorem along_iff {inv P : σ → Prop} {valid : ε → Prop}
    (hstep : ∀ s e s', inv s → valid e → P s → step s e = .ok s' → inv s' ∧ (cond s e ↔ P s'))
    (hfault : ∀ s e f, inv s → valid e → step s e = .error f → cond s e)
    (h : inv s) (hP : P s) (hes : ∀ e ∈ es, valid e) :
    Along step cond s es ↔ ∀ pre post t, es = pre ++ post → run step s pre = .ok t → P t := by
  induction es generalizing s with
  | nil =>
    refine ⟨fun _ pre post t hcut hrun => ?_, fun _ => trivial⟩
    obtain ⟨rfl, -⟩ := List.append_eq_nil_iff.1 hcut.symm
    cases hrun
    exact hP
  | cons e es ih =>
    have he : valid e := hes e List.mem_cons_self
    have hrest : ∀ e ∈ es, valid e := fun e he => hes e (List.mem_cons_of_mem _ he)
    constructor
    · intro halong pre post t hcut hrun
      cases pre with
      | nil =>
        cases hrun
        exact hP
      | cons e' pre =>
        obtain ⟨rfl, rfl⟩ := List.cons.inj hcut
        obtain ⟨s', hs, hrun⟩ := run_cons_ok hrun
        obtain ⟨hinv, hiff⟩ := hstep s e s' h he hP hs
        exact (ih hinv (hiff.1 halong.1) hrest).1 (halong.2 s' hs) pre post t rfl hrun
    · intro hall
      have hnext : ∀ s', step s e = .ok s' → inv s' ∧ cond s e ∧ P s' := by
        intro s' hs
        obtain ⟨hinv, hiff⟩ := hstep s e s' h he hP hs
        have hP' : P s' := hall [e] es s' rfl (run_cons hs [])
        exact ⟨hinv, hiff.2 hP', hP'⟩
      constructor
      · cases hs : step s e with
        | error f => exact hfault s e f h he hs
        | ok s' => exact (hnext s' hs).2.1
      · intro s' hs
        obtain ⟨hinv, -, hP'⟩ := hnext s' hs
        apply (ih hinv hP' hrest).2
        intro pre post t hcut hrun
        exact hall (e :: pre) post t (by rw [hcut, List.cons_append]) ((run_cons hs pre).trans hrun)

/-- Where a condition on a step is exactly what avoids the fault `f`, the runs that meet it at
every step are those that do not end in `f`. -/
theorem along_iff_ne {inv : σ → Prop} {f : φ} (hkeep : ∀ s e s', inv s → step s e = .ok s' → inv s')
    (hfault : ∀ s e, inv s → (cond s e ↔ step s e ≠ .error f)) (h : inv s) :
    Along step cond s es ↔ run step s es ≠ .error f := by
  induction es generalizing s with
  | nil => exact ⟨fun _ => nofun, fun _ => trivial⟩
  | cons e es ih =>
    have hiff := hfault s e h
    cases hs : step s e with
    | error f' =>
      have hrun : run step s (e :: es) = .error f' := by rw [run, hs]
      rw [hrun, ← hs]
      exact ⟨fun halong => hiff.1 halong.1, fun hne => ⟨hiff.2 hne, fun s' hs' => by rw [hs] at hs'; cases hs'⟩⟩
    | ok s' =>
      have hc : cond s e := hiff.2 (by rw [hs]; nofun)
      rw [run_cons hs, ← ih (hkeep s e s' h hs)]
      exact ⟨fun halong => halong.2 s' hs, .cons hs hc⟩

/-! Endless schedules. -/

/-- The first `n` events of a schedule. -/
def upTo (sched : Nat → ε) (n : Nat) : List ε := (List.range n).map sched

variable {sched : Nat → ε} {n : Nat}

theorem run_upTo_before (h : run step s (upTo sched (n + 1)) = .ok t) :
    ∃ u, run step s (upTo sched n) = .ok u ∧ step u (sched n) = .ok t := by
  rw [upTo, List.range_succ, List.map_append] at h
  obtain ⟨u, hu, hlast⟩ := run_append_ok h
  obtain ⟨t', hs, ht⟩ := run_cons_ok hlast
  cases ht
  exact ⟨u, hu, hs⟩

theorem run_upTo_succ (h : run step s (upTo sched n) = .ok t) :
    run step s (upTo sched (n + 1)) = run step t [sched n] := by
  rw [upTo, List.range_succ, List.map_append]
  exact run_append h

/-- **What the schedule keeps until something happens.** Each step keeps `J` or is a step of the
kind `P`, so a state without `J` comes after a step of that kind. -/
theorem upTo_until {J : σ → Prop} {P : σ → ε → Prop}
    (hstep : ∀ n s s', J s → step s (sched n) = .ok s' → J s' ∨ P s (sched n)) (h : J s) :
    ∀ n t, run step s (upTo sched n) = .ok t →
      J t ∨ ∃ m u, run step s (upTo sched m) = .ok u ∧ P u (sched m) := by
  intro n
  induction n with
  | zero =>
    intro t hrun
    cases hrun
    exact .inl h
  | succ n ih =>
    intro t hrun
    obtain ⟨u, hu, hs⟩ := run_upTo_before hrun
    rcases ih u hu with hJ | hP
    · exact (hstep n u t hJ hs).imp_right fun hP => ⟨n, u, hu, hP⟩
    · exact .inr hP

/-- **What waits for an event is there when it comes.** -/
theorem upTo_next {J : σ → Prop} {e : ε} (hfair : ∀ n, ∃ m, n ≤ m ∧ sched m = e)
    (hstep : ∀ n s, J s → sched n ≠ e → ∃ s', step s (sched n) = .ok s' ∧ J s') {n : Nat}
    (hrun : run step s (upTo sched n) = .ok t) (h : J t) :
    ∃ m u, n ≤ m ∧ sched m = e ∧ run step s (upTo sched m) = .ok u ∧ J u := by
  obtain ⟨m, hnm, hm⟩ := hfair n
  induction k : m - n generalizing n t with
  | zero => exact ⟨n, t, Nat.le_refl n, by rwa [show n = m by omega], hrun, h⟩
  | succ k ih =>
    by_cases hn : sched n = e
    · exact ⟨n, t, Nat.le_refl n, hn, hrun, h⟩
    · obtain ⟨s', hs, h'⟩ := hstep n t h hn
      have hrun' := (run_upTo_succ hrun).trans (run_cons hs [])
      obtain ⟨m', u, hle, hm', hu⟩ := ih hrun' h' (by omega) (by omega)
      exact ⟨m', u, by omega, hm', hu⟩

end StepRun

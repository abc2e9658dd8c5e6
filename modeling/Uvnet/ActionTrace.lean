import Mathlib.Data.List.Basic

/- What a thread does, as a list of actions: mutexes taken and given back, calls of code that
   is not its own, and objects it accesses and releases.

   Two properties of such a trace are settled piece by piece. No mutex is held at a call
   (`CallsFree`) when none is at the calls of each piece, and each gives back what it takes
   (`Balanced`). No object is accessed after its release (`AccessesLive`) when each piece
   accesses only objects that no piece before has released. -/
namespace ActionTrace

inductive Act (μ κ : Type) where
  | lock (m : μ)
  | unlock (m : μ)
  | call (c : κ)
  | access (object : Nat)
  | release (object : Nat)
  deriving DecidableEq

variable {μ κ : Type} [DecidableEq μ] {acts acts' : List (Act μ κ)} {held : List μ} {dead dead' : List Nat} {m : μ}

omit [DecidableEq μ] in
theorem append_eq_cut {a : Act μ κ} {before after : List (Act μ κ)} (h : acts ++ acts' = before ++ a :: after) :
    (∃ rest, acts = before ++ a :: rest) ∨ ∃ mid, before = acts ++ mid ∧ acts' = mid ++ a :: after := by
  rcases List.append_eq_append_iff.1 h with ⟨mid, hbefore, hrest⟩ | ⟨mid, hacts, hrest⟩
  · exact .inr ⟨mid, hbefore, hrest⟩
  · cases mid with
    | nil =>
      rw [List.append_nil] at hacts
      exact .inr ⟨[], by rw [List.append_nil, hacts], hrest.symm⟩
    | cons b mid =>
      obtain ⟨rfl, -⟩ := List.cons.inj hrest
      exact .inl ⟨mid, hacts⟩

/-! Mutexes. -/

/-- The mutexes held after some actions. -/
def heldAfter (held : List μ) : List (Act μ κ) → List μ
  | [] => held
  | .lock m :: rest => heldAfter (m :: held) rest
  | .unlock m :: rest => heldAfter (held.erase m) rest
  | .call _ :: rest => heldAfter held rest
  | .access _ :: rest => heldAfter held rest
  | .release _ :: rest => heldAfter held rest

/-- No mutex is held at any call, when `held` are at the beginning. -/
def CallsFree (held : List μ) (acts : List (Act μ κ)) : Prop :=
  ∀ before c after, acts = before ++ Act.call c :: after → heldAfter held before = []

/-- Whatever is held before is held afterwards. -/
def Balanced (acts : List (Act μ κ)) : Prop := ∀ held, heldAfter held acts = held

/-- There are no calls. -/
def Quiet (acts : List (Act μ κ)) : Prop := ∀ c, Act.call c ∉ acts

theorem heldAfter_append : heldAfter held (acts ++ acts') = heldAfter (heldAfter held acts) acts' := by
  induction acts generalizing held with
  | nil => rfl
  | cons a rest ih => cases a <;> exact ih

theorem Balanced.nil : Balanced ([] : List (Act μ κ)) := fun _ => rfl

theorem Balanced.append (h : Balanced acts) (h' : Balanced acts') : Balanced (acts ++ acts') := by
  intro held
  rw [heldAfter_append, h held, h' held]

theorem Balanced.call (h : Balanced acts) (c : κ) : Balanced (.call c :: acts) := h

theorem Balanced.access (h : Balanced acts) (object : Nat) : Balanced (.access object :: acts) := h

theorem Balanced.release (h : Balanced acts) (object : Nat) : Balanced (.release object :: acts) := h

theorem Balanced.section (h : Balanced acts) (m : μ) : Balanced (.lock m :: (acts ++ [.unlock m])) := by
  intro held
  show heldAfter (m :: held) (acts ++ [.unlock m]) = held
  rw [heldAfter_append, h (m :: held)]
  exact List.erase_cons_head m held

theorem Balanced.flatMap {ι : Type} {f : ι → List (Act μ κ)} (l : List ι) (h : ∀ i ∈ l, Balanced (f i)) :
    Balanced (l.flatMap f) := by
  induction l with
  | nil => exact .nil
  | cons i rest ih =>
    rw [List.flatMap_cons]
    apply Balanced.append (h i List.mem_cons_self)
    exact ih fun j hj => h j (List.mem_cons_of_mem i hj)

theorem callsFree_append :
    CallsFree held (acts ++ acts') ↔ CallsFree held acts ∧ CallsFree (heldAfter held acts) acts' := by
  constructor
  · intro h
    refine ⟨fun before c after hcut => ?_, fun before c after hcut => ?_⟩
    · apply h before c (after ++ acts')
      rw [hcut, List.append_assoc, List.cons_append]
    · rw [← heldAfter_append]
      apply h (acts ++ before) c after
      rw [hcut, List.append_assoc]
  · intro h before c after hcut
    rcases append_eq_cut hcut with ⟨rest, hacts⟩ | ⟨mid, hbefore, hrest⟩
    · exact h.1 before c rest hacts
    · rw [hbefore, heldAfter_append]
      exact h.2 mid c after hrest

/-- A piece that gives back what it takes does not matter for the next. -/
theorem Balanced.callsFree_append (h : Balanced acts) :
    CallsFree held (acts ++ acts') ↔ CallsFree held acts ∧ CallsFree held acts' := by
  rw [ActionTrace.callsFree_append, h held]

theorem Quiet.callsFree (h : Quiet acts) (held : List μ) : CallsFree held acts := by
  intro before c after hcut
  have hmem : Act.call c ∈ acts := by
    rw [hcut]
    exact List.mem_append_right _ List.mem_cons_self
  exact absurd hmem (h c)

omit [DecidableEq μ] in
theorem Quiet.append (h : Quiet acts) (h' : Quiet acts') : Quiet (acts ++ acts') := by
  intro c hc
  rcases List.mem_append.1 hc with hc | hc
  · exact h c hc
  · exact h' c hc

omit [DecidableEq μ] in
theorem Quiet.flatMap {ι : Type} {f : ι → List (Act μ κ)} (l : List ι) (h : ∀ i ∈ l, Quiet (f i)) : Quiet (l.flatMap f) := by
  intro c hc
  obtain ⟨i, hi, hc⟩ := List.mem_flatMap.1 hc
  exact h i hi c hc

theorem callsFree_cons (a : Act μ κ) : CallsFree held (a :: acts) ↔ CallsFree held [a] ∧ CallsFree (heldAfter held [a]) acts := by
  rw [← List.singleton_append, callsFree_append]

@[simp] theorem callsFree_nil : CallsFree held ([] : List (Act μ κ)) := Quiet.callsFree (by simp [Quiet]) held

@[simp] theorem callsFree_lock : CallsFree held (.lock m :: acts) ↔ CallsFree (m :: held) acts := by
  have hquiet : Quiet [(.lock m : Act μ κ)] := by simp [Quiet]
  rw [callsFree_cons]
  exact and_iff_right (hquiet.callsFree held)

@[simp] theorem callsFree_unlock : CallsFree held (.unlock m :: acts) ↔ CallsFree (held.erase m) acts := by
  have hquiet : Quiet [(.unlock m : Act μ κ)] := by simp [Quiet]
  rw [callsFree_cons]
  exact and_iff_right (hquiet.callsFree held)

@[simp] theorem callsFree_access {object : Nat} : CallsFree held (.access object :: acts) ↔ CallsFree held acts := by
  have hquiet : Quiet [(.access object : Act μ κ)] := by simp [Quiet]
  rw [callsFree_cons]
  exact and_iff_right (hquiet.callsFree held)

@[simp] theorem callsFree_release {object : Nat} : CallsFree held (.release object :: acts) ↔ CallsFree held acts := by
  have hquiet : Quiet [(.release object : Act μ κ)] := by simp [Quiet]
  rw [callsFree_cons]
  exact and_iff_right (hquiet.callsFree held)

@[simp] theorem callsFree_call {c : κ} : CallsFree held (.call c :: acts) ↔ held = [] ∧ CallsFree held acts := by
  have hone : CallsFree held [(.call c : Act μ κ)] ↔ held = [] := by
    constructor
    · intro h
      exact h [] c [] rfl
    · intro h before c' after hcut
      cases before with
      | nil => exact h
      | cons a before => simp at hcut
  rw [callsFree_cons, hone]
  rfl

theorem callsFree_flatMap {ι : Type} {f : ι → List (Act μ κ)} (l : List ι) (hbal : ∀ i ∈ l, Balanced (f i))
    (h : ∀ i ∈ l, CallsFree held (f i)) : CallsFree held (l.flatMap f) := by
  induction l with
  | nil => exact callsFree_nil
  | cons i rest ih =>
    rw [List.flatMap_cons, (hbal i List.mem_cons_self).callsFree_append]
    refine ⟨h i List.mem_cons_self, ih ?_ ?_⟩
    · exact fun j hj => hbal j (List.mem_cons_of_mem i hj)
    · exact fun j hj => h j (List.mem_cons_of_mem i hj)

theorem Balanced.calls (calls : List κ) : Balanced (calls.map (Act.call : κ → Act μ κ)) := by
  induction calls with
  | nil => exact .nil
  | cons c rest ih => exact ih.call c

theorem callsFree_calls (calls : List κ) : CallsFree [] (calls.map (Act.call : κ → Act μ κ)) := by
  induction calls with
  | nil => exact callsFree_nil
  | cons c rest ih =>
    rw [List.map_cons, callsFree_call]
    exact ⟨rfl, ih⟩

/-- The calls, each with the mutexes held at it. -/
def callsUnder (held : List μ) : List (Act μ κ) → List (κ × List μ)
  | [] => []
  | .lock m :: rest => callsUnder (m :: held) rest
  | .unlock m :: rest => callsUnder (held.erase m) rest
  | .call c :: rest => (c, held) :: callsUnder held rest
  | .access _ :: rest => callsUnder held rest
  | .release _ :: rest => callsUnder held rest

theorem callsUnder_append :
    callsUnder held (acts ++ acts') = callsUnder held acts ++ callsUnder (heldAfter held acts) acts' := by
  induction acts generalizing held with
  | nil => rfl
  | cons a rest ih =>
    cases a with
    | call c => exact congrArg (List.cons (c, held)) ih
    | lock m => exact ih
    | unlock m => exact ih
    | access object => exact ih
    | release object => exact ih

theorem Quiet.callsUnder (h : Quiet acts) (held : List μ) : callsUnder held acts = [] := by
  induction acts generalizing held with
  | nil => rfl
  | cons a rest ih =>
    have hrest : Quiet rest := fun c hc => h c (List.mem_cons_of_mem a hc)
    cases a with
    | call c => exact absurd List.mem_cons_self (h c)
    | lock m => exact ih hrest _
    | unlock m => exact ih hrest _
    | access object => exact ih hrest _
    | release object => exact ih hrest _

theorem CallsFree.under (h : CallsFree held acts) : ∀ p ∈ callsUnder held acts, p.2 = [] := by
  induction acts generalizing held with
  | nil => exact fun p hp => by cases hp
  | cons a rest ih =>
    cases a with
    | call c =>
      obtain ⟨hnone, hrest⟩ := callsFree_call.1 h
      intro p hp
      rcases List.mem_cons.1 hp with rfl | hp
      · exact hnone
      · exact ih hrest p hp
    | lock m => exact ih (callsFree_lock.1 h)
    | unlock m => exact ih (callsFree_unlock.1 h)
    | access object => exact ih (callsFree_access.1 h)
    | release object => exact ih (callsFree_release.1 h)

theorem callsUnder_calls (calls : List κ) :
    callsUnder held (calls.map (Act.call : κ → Act μ κ)) = calls.map fun c => (c, held) := by
  induction calls with
  | nil => rfl
  | cons c rest ih => exact congrArg (List.cons (c, held)) ih

/-! Objects. -/

/-- The objects that some actions release. -/
def releasedBy (acts : List (Act μ κ)) : List Nat :=
  acts.filterMap fun
    | .release object => some object
    | _ => none

/-- No object is accessed that is one of `dead` or was released before. -/
def AccessesLive (dead : List Nat) (acts : List (Act μ κ)) : Prop :=
  ∀ before object after, acts = before ++ Act.access object :: after → object ∉ dead ++ releasedBy before

omit [DecidableEq μ]

theorem releasedBy_append : releasedBy (acts ++ acts') = releasedBy acts ++ releasedBy acts' :=
  List.filterMap_append

theorem accessesLive_append :
    AccessesLive dead (acts ++ acts') ↔ AccessesLive dead acts ∧ AccessesLive (dead ++ releasedBy acts) acts' := by
  constructor
  · intro h
    refine ⟨fun before object after hcut => ?_, fun before object after hcut => ?_⟩
    · apply h before object (after ++ acts')
      rw [hcut, List.append_assoc, List.cons_append]
    · rw [List.append_assoc, ← releasedBy_append]
      apply h (acts ++ before) object after
      rw [hcut, List.append_assoc]
  · intro h before object after hcut
    rcases append_eq_cut hcut with ⟨rest, hacts⟩ | ⟨mid, hbefore, hrest⟩
    · exact h.1 before object rest hacts
    · rw [hbefore, releasedBy_append, ← List.append_assoc]
      exact h.2 mid object after hrest

@[simp] theorem accessesLive_nil : AccessesLive dead ([] : List (Act μ κ)) := by
  intro before object after hcut
  simp at hcut

theorem accessesLive_cons (a : Act μ κ) :
    AccessesLive dead (a :: acts) ↔ AccessesLive dead [a] ∧ AccessesLive (dead ++ releasedBy [a]) acts := by
  rw [← List.singleton_append, accessesLive_append]

theorem accessesLive_other {a : Act μ κ} (h : ∀ object, a ≠ .access object) :
    AccessesLive dead (a :: acts) ↔ AccessesLive (dead ++ releasedBy [a]) acts := by
  have hone : AccessesLive dead [a] := by
    intro before object after hcut
    cases before with
    | nil => exact absurd (List.cons.inj hcut).1 (h object)
    | cons b before => simp at hcut
  rw [accessesLive_cons]
  exact and_iff_right hone

@[simp] theorem accessesLive_access {object : Nat} :
    AccessesLive dead ((.access object : Act μ κ) :: acts) ↔ object ∉ dead ∧ AccessesLive dead acts := by
  have hone : AccessesLive dead [(.access object : Act μ κ)] ↔ object ∉ dead := by
    constructor
    · intro h
      have hfirst := h [] object [] rfl
      rwa [show releasedBy ([] : List (Act μ κ)) = [] from rfl, List.append_nil] at hfirst
    · intro h before object' after hcut
      cases before with
      | nil =>
        obtain ⟨hobject, -⟩ := List.cons.inj hcut
        obtain rfl := Act.access.inj hobject
        rwa [show releasedBy ([] : List (Act μ κ)) = [] from rfl, List.append_nil]
      | cons b before => simp at hcut
  rw [accessesLive_cons, hone, show releasedBy [(.access object : Act μ κ)] = [] from rfl, List.append_nil]

@[simp] theorem accessesLive_lock : AccessesLive dead ((.lock m : Act μ κ) :: acts) ↔ AccessesLive dead acts := by
  have hne : ∀ object, (.lock m : Act μ κ) ≠ .access object := nofun
  rw [accessesLive_other hne, show releasedBy [(.lock m : Act μ κ)] = [] from rfl, List.append_nil]

@[simp] theorem accessesLive_unlock : AccessesLive dead ((.unlock m : Act μ κ) :: acts) ↔ AccessesLive dead acts := by
  have hne : ∀ object, (.unlock m : Act μ κ) ≠ .access object := nofun
  rw [accessesLive_other hne, show releasedBy [(.unlock m : Act μ κ)] = [] from rfl, List.append_nil]

@[simp] theorem accessesLive_call {c : κ} : AccessesLive dead ((.call c : Act μ κ) :: acts) ↔ AccessesLive dead acts := by
  have hne : ∀ object, (.call c : Act μ κ) ≠ .access object := nofun
  rw [accessesLive_other hne, show releasedBy [(.call c : Act μ κ)] = [] from rfl, List.append_nil]

@[simp] theorem accessesLive_release {object : Nat} :
    AccessesLive dead ((.release object : Act μ κ) :: acts) ↔ AccessesLive (dead ++ [object]) acts :=
  accessesLive_other nofun

/-- An action that releases nothing and accesses no object of `dead`. -/
@[simp] def Act.Gentle (dead : List Nat) : Act μ κ → Prop
  | .access object => object ∉ dead
  | .release _ => False
  | .lock _ => True
  | .unlock _ => True
  | .call _ => True

/-- Such actions only. -/
def Harmless (dead : List Nat) (acts : List (Act μ κ)) : Prop := ∀ a ∈ acts, a.Gentle dead

@[simp] theorem harmless_nil : Harmless dead ([] : List (Act μ κ)) := List.forall_mem_nil _

@[simp] theorem harmless_cons {a : Act μ κ} : Harmless dead (a :: acts) ↔ a.Gentle dead ∧ Harmless dead acts :=
  List.forall_mem_cons

@[simp] theorem harmless_append : Harmless dead (acts ++ acts') ↔ Harmless dead acts ∧ Harmless dead acts' :=
  List.forall_mem_append

theorem harmless_flatMap {ι : Type} {f : ι → List (Act μ κ)} (l : List ι) (h : ∀ i ∈ l, Harmless dead (f i)) :
    Harmless dead (l.flatMap f) := by
  intro a ha
  obtain ⟨i, hi, ha⟩ := List.mem_flatMap.1 ha
  exact h i hi a ha

theorem Harmless.releases (h : Harmless dead acts) : releasedBy acts = [] := by
  apply List.filterMap_eq_nil_iff.2
  intro a ha
  cases a with
  | release object => exact (h _ ha).elim
  | _ => rfl

theorem Harmless.live (h : Harmless dead acts) : AccessesLive dead acts := by
  intro before object after hcut
  have hbefore : Harmless dead before := by
    intro a ha
    apply h a
    rw [hcut]
    exact List.mem_append_left _ ha
  rw [hbefore.releases, List.append_nil]
  apply h (.access object)
  rw [hcut]
  exact List.mem_append_right _ List.mem_cons_self

end ActionTrace

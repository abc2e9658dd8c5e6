import Mathlib.Data.List.Nodup
import Mathlib.Data.List.Perm.Basic

/- Object pools: a free list in front of an allocator.

   `fetch` takes the object at the front of the free list, or allocates; `recycle` puts an
   object back, or releases it when the list is over its limit. Objects are named by the
   order of their allocation, and their contents stay where they are, whoever has them.
   `Owned` says that the free list and the objects in use are disjoint, without repetition,
   and alive; the two operations keep it, whatever the objects are used for. `Accounted` says
   that nothing is lost as well: every object ever allocated is in one place. -/
namespace ObjectPool

structure Pool (α : Type) where
  cells : List α
  avail : List Nat
  released : List Nat

namespace Pool

variable {α : Type}

def empty : Pool α := ⟨[], [], []⟩

/-- An object from the front of the free list, or a newly allocated one. -/
def fetch (p : Pool α) (fresh : α) : Pool α × Nat :=
  match p.avail with
  | [] => ({ p with cells := p.cells ++ [fresh] }, p.cells.length)
  | id :: rest => ({ p with avail := rest }, id)

/-- Put `id` at the end of the free list, or release it if the list has more than `limit`. -/
def recycle (limit : Nat) (p : Pool α) (id : Nat) : Pool α :=
  if limit < p.avail.length then { p with released := p.released ++ [id] }
  else { p with avail := p.avail ++ [id] }

/-- Store `x` in the object `id`. -/
def store (p : Pool α) (id : Nat) (x : α) : Pool α := { p with cells := p.cells.set id x }

@[simp] theorem recycle_cells (limit : Nat) (p : Pool α) (id : Nat) : (p.recycle limit id).cells = p.cells := by
  unfold recycle
  split <;> rfl

/-- The free list and the objects `held` elsewhere: no object is in two places, and all are
allocated and not released. -/
structure Owned (p : Pool α) (held : List Nat) : Prop where
  nodup : (p.avail ++ held).Nodup
  live : ∀ id ∈ p.avail ++ held, id < p.cells.length ∧ id ∉ p.released
  dead : ∀ id ∈ p.released, id < p.cells.length

section Owned
variable {p : Pool α} {held held' : List Nat} {id limit : Nat}

theorem empty_owned : Owned (empty : Pool α) [] where
  nodup := List.nodup_nil
  live := by simp [empty]
  dead := by simp [empty]

theorem Owned.perm (h : Owned p held) (hp : held.Perm held') : Owned p held' where
  nodup := (hp.append_left p.avail).nodup_iff.1 h.nodup
  live id hid := h.live id ((hp.append_left p.avail).mem_iff.2 hid)
  dead := h.dead

theorem Owned.held_live (h : Owned p held) (hid : id ∈ held) : id < p.cells.length :=
  (h.live id (List.mem_append_right _ hid)).1

theorem Owned.store (h : Owned p held) (id : Nat) (x : α) : Owned (p.store id x) held where
  nodup := h.nodup
  live k hk := by
    have := h.live k hk
    rw [Pool.store, List.length_set]
    exact this
  dead k hk := by
    have := h.dead k hk
    rw [Pool.store, List.length_set]
    exact this

theorem Owned.fetch (h : Owned p held) (fresh : α) :
    Owned (p.fetch fresh).1 ((p.fetch fresh).2 :: held) := by
  unfold Pool.fetch
  cases ha : p.avail with
  | nil =>
    -- The new object's name is one past all those in use.
    have hnew : p.cells.length ∉ held := fun hm => Nat.lt_irrefl _ (h.held_live hm)
    have hnd : held.Nodup := by
      have := h.nodup
      rwa [ha, List.nil_append] at this
    refine ⟨List.nodup_cons.2 ⟨hnew, hnd⟩, ?_, ?_⟩
    · intro k hk
      simp only [List.length_append, List.length_singleton]
      rcases List.mem_cons.1 hk with rfl | hk
      · exact ⟨Nat.lt_succ_self _, fun hd => Nat.lt_irrefl _ (h.dead _ hd)⟩
      · have := h.live k (List.mem_append_right _ hk)
        exact ⟨Nat.lt_succ_of_lt this.1, this.2⟩
    · intro k hk
      simp only [List.length_append, List.length_singleton]
      exact Nat.lt_succ_of_lt (h.dead k hk)
  | cons k rest =>
    have hperm : (rest ++ k :: held).Perm (p.avail ++ held) := by
      rw [ha]
      exact List.perm_middle
    refine ⟨hperm.nodup_iff.2 h.nodup, ?_, h.dead⟩
    intro j hj
    exact h.live j (hperm.mem_iff.1 hj)

theorem Owned.recycle (limit : Nat) (h : Owned p (id :: held)) : Owned (p.recycle limit id) held := by
  have hperm : (p.avail ++ id :: held).Perm (id :: (p.avail ++ held)) := List.perm_middle
  have hnd := List.nodup_cons.1 (hperm.nodup_iff.1 h.nodup)
  unfold Pool.recycle
  split
  · -- Released: it is held nowhere else.
    refine ⟨hnd.2, ?_, ?_⟩
    · intro k hk
      have hlive := h.live k (hperm.mem_iff.2 (List.mem_cons_of_mem _ hk))
      refine ⟨hlive.1, fun hd => ?_⟩
      rcases List.mem_append.1 hd with hd | hd
      · exact hlive.2 hd
      · exact hnd.1 (List.mem_singleton.1 hd ▸ hk)
    · intro k hk
      rcases List.mem_append.1 hk with hk | hk
      · exact h.dead k hk
      · rw [List.mem_singleton.1 hk]
        exact h.held_live (by simp)
  · have happ : p.avail ++ [id] ++ held = p.avail ++ id :: held := by simp
    refine ⟨?_, ?_, h.dead⟩
    · rw [happ]
      exact h.nodup
    · intro k hk
      rw [happ] at hk
      exact h.live k hk

/-- The free list stays at one more than the limit at most, and is within it after `fetch`. -/
theorem fetch_avail_le (fresh : α) (h : p.avail.length ≤ limit + 1) : (p.fetch fresh).1.avail.length ≤ limit := by
  unfold Pool.fetch
  cases ha : p.avail with
  | nil => exact Nat.zero_le _
  | cons k rest =>
    rw [ha, List.length_cons] at h
    exact Nat.le_of_succ_le_succ h

theorem recycle_avail_le (h : p.avail.length ≤ limit + 1) (id : Nat) :
    (p.recycle limit id).avail.length ≤ limit + 1 := by
  unfold Pool.recycle
  split
  · exact h
  · rw [List.length_append, List.length_singleton]
    omega

end Owned

/-- Every object allocated is in one place: released, on the free list, or one of those
`held` counts. -/
def Accounted (p : Pool α) (held : Nat → Nat) : Prop :=
  ∀ id, p.released.count id + p.avail.count id + held id = if id < p.cells.length then 1 else 0

section Accounted
variable {p : Pool α} {held held' : Nat → Nat} {id limit : Nat}

theorem empty_accounted : Accounted (empty : Pool α) fun _ => 0 := fun _ => rfl

theorem Accounted.congr (h : Accounted p held) (heq : ∀ id, held id = held' id) : Accounted p held' :=
  fun id => heq id ▸ h id

theorem Accounted.store (h : Accounted p held) (id : Nat) (x : α) : Accounted (p.store id x) held := by
  intro k
  rw [Pool.store, List.length_set]
  exact h k

theorem Accounted.avail_lt (h : Accounted p held) (hid : id ∈ p.avail) :
    id < p.cells.length ∧ id ∉ p.released ∧ held id = 0 := by
  have hpos := List.count_pos_iff.2 hid
  have hcount := h id
  split at hcount
  · next hlt =>
    refine ⟨hlt, fun hrel => ?_, by omega⟩
    have := List.count_pos_iff.2 hrel
    omega
  · omega

theorem Accounted.held_live (h : Accounted p held) (hid : 0 < held id) : id ∉ p.released := by
  intro hrel
  have hpos := List.count_pos_iff.2 hrel
  have hcount := h id
  split at hcount <;> omega

theorem Accounted.avail_nodup (h : Accounted p held) : p.avail.Nodup := by
  apply List.nodup_iff_count_le_one.2
  intro id
  have := h id
  split at this <;> omega

theorem Accounted.fetch (h : Accounted p held) (fresh : α) :
    Accounted (p.fetch fresh).1 fun id => held id + [(p.fetch fresh).2].count id := by
  intro k
  have hk := h k
  unfold Pool.fetch
  cases ha : p.avail with
  | nil =>
    rw [ha, List.count_nil] at hk
    simp only [List.length_append, List.length_singleton, List.count_nil, List.count_singleton, beq_iff_eq]
    by_cases hlast : p.cells.length = k
    · rw [if_neg (by omega)] at hk
      rw [if_pos hlast, if_pos (by omega)]
      omega
    · rw [if_neg hlast]
      split at hk
      · rw [if_pos (by omega)]
        omega
      · rw [if_neg (by omega)]
        omega
  | cons j rest =>
    rw [ha, List.count_cons] at hk
    simp only [List.count_singleton]
    omega

theorem Accounted.recycle (limit : Nat) (h : Accounted p fun k => held k + [id].count k) :
    Accounted (p.recycle limit id) held := by
  intro k
  have hk : _ + (held k + [id].count k) = _ := h k
  unfold Pool.recycle
  split
  · simp only [List.count_append]
    omega
  · simp only [List.count_append]
    omega

end Accounted

/-! What is on the free list, and what the objects are. -/

theorem fetch_avail {p : Pool α} {fresh : α} {j : Nat} (h : j ∈ (p.fetch fresh).1.avail) : j ∈ p.avail := by
  unfold fetch at h
  split at h
  · exact h
  · next ha =>
    rw [ha]
    exact List.mem_cons_of_mem _ h

theorem mem_recycle {p : Pool α} {limit id j : Nat} (h : j ∈ (p.recycle limit id).avail) : j ∈ p.avail ∨ j = id := by
  unfold recycle at h
  split at h
  · exact .inl h
  · exact (List.mem_append.1 h).imp_right List.mem_singleton.1

theorem recycle_mem {p : Pool α} {limit : Nat} (h : p.avail.length ≤ limit) (id : Nat) : id ∈ (p.recycle limit id).avail := by
  rw [recycle, if_neg (Nat.not_lt.2 h)]
  exact List.mem_append_right _ (List.mem_singleton.2 rfl)

theorem fetch_released (p : Pool α) (fresh : α) : (p.fetch fresh).1.released = p.released := by
  unfold fetch
  split <;> rfl

theorem recycle_released (limit : Nat) (p : Pool α) (id : Nat) :
    (p.recycle limit id).released = p.released ++ if limit < p.avail.length then [id] else [] := by
  unfold recycle
  split
  · rfl
  · rw [List.append_nil]

theorem fetch_recycle_released {p : Pool α} {limit : Nat} (h : p.avail.length ≤ limit + 1) (fresh x : α) (id : Nat) :
    (((p.fetch fresh).1.store id x).recycle limit id).released = p.released := by
  have hroom : ((p.fetch fresh).1.store id x).avail.length ≤ limit := fetch_avail_le fresh h
  rw [recycle_released, if_neg (Nat.not_lt.2 hroom), List.append_nil]
  exact fetch_released p fresh

/-- What is found after one entry was replaced: the new entry, or an old one elsewhere. -/
theorem getElem?_set_cases {l : List α} {i j : Nat} {a b : α} (h : (l.set i a)[j]? = some b) :
    (j = i ∧ b = a) ∨ (j ≠ i ∧ l[j]? = some b) := by
  by_cases hij : i = j
  · subst hij
    have hlt := (List.getElem?_eq_some_iff.1 h).1
    rw [List.length_set] at hlt
    rw [List.getElem?_set_self hlt] at h
    exact .inl ⟨rfl, (Option.some.inj h).symm⟩
  · rw [List.getElem?_set_ne hij] at h
    exact .inr ⟨fun he => hij he.symm, h⟩

section Contents
variable {p : Pool α} {q : α → Prop}

/-- The objects after `fetch` are the old ones, and perhaps a new one. -/
theorem fetch_lookup {p' : Pool α} {fresh a : α} {id j : Nat} (hf : p.fetch fresh = (p', id))
    (h : p'.cells[j]? = some a) : p.cells[j]? = some a ∨ a = fresh := by
  unfold fetch at hf
  split at hf
  · cases hf
    rcases Nat.lt_or_ge j p.cells.length with hj | hj
    · left
      rwa [List.getElem?_append_left hj] at h
    · right
      rw [List.getElem?_append_right hj] at h
      exact List.mem_singleton.1 (List.mem_of_getElem? h)
  · cases hf
    exact .inl h

theorem fetch_keeps {fresh a : α} {j : Nat} (h : p.cells[j]? = some a) : (p.fetch fresh).1.cells[j]? = some a := by
  unfold fetch
  split
  · rw [List.getElem?_append_left (List.getElem?_eq_some_iff.1 h).1]
    exact h
  · exact h

/-- The object fetched is the new one, or from the front of the free list. -/
theorem fetch_found {p' : Pool α} {fresh a : α} {id : Nat} (hf : p.fetch fresh = (p', id))
    (h : p'.cells[id]? = some a) : a = fresh ∨ ∃ rest, p.avail = id :: rest ∧ p.cells[id]? = some a := by
  unfold fetch at hf
  split at hf
  · cases hf
    left
    simpa using h.symm
  · next id rest ha =>
    cases hf
    exact .inr ⟨rest, ha, h⟩

theorem fetch_cells {fresh : α} (hf : q fresh) (h : ∀ c ∈ p.cells, q c) : ∀ c ∈ (p.fetch fresh).1.cells, q c := by
  unfold Pool.fetch
  cases p.avail with
  | nil =>
    intro c hc
    rcases List.mem_append.1 hc with hc | hc
    · exact h c hc
    · rw [List.mem_singleton.1 hc]
      exact hf
  | cons => exact h

theorem store_cells {x : α} (hx : q x) (h : ∀ c ∈ p.cells, q c) (id : Nat) : ∀ c ∈ (p.store id x).cells, q c := by
  intro c hc
  rcases List.mem_or_eq_of_mem_set hc with hc | rfl
  · exact h c hc
  · exact hx

end Contents

/-! Objects that are lent out and have to keep what they hold. -/

/-- Each object of the list has the view it was lent out with. -/
def Holds {β : Type} (p : Pool α) (view : α → β) (lent : List (Nat × β)) : Prop :=
  ∀ l ∈ lent, (p.cells[l.1]?).map view = some l.2

section Holds
variable {β : Type} {p : Pool α} {view : α → β} {lent lent' : List (Nat × β)} {id : Nat}

theorem Holds.subset (h : Holds p view lent) (hsub : ∀ l ∈ lent', l ∈ lent) : Holds p view lent' :=
  fun l hl => h l (hsub l hl)

theorem Holds.fetch (h : Holds p view lent) (fresh : α) : Holds (p.fetch fresh).1 view lent := by
  intro l hl
  have hview := h l hl
  rw [Option.map_eq_some_iff] at hview ⊢
  obtain ⟨a, ha, heq⟩ := hview
  exact ⟨a, fetch_keeps ha, heq⟩

theorem Holds.recycle (h : Holds p view lent) (limit id : Nat) : Holds (p.recycle limit id) view lent := by
  unfold Holds
  rw [recycle_cells]
  exact h

theorem Holds.store (h : Holds p view lent) (hid : id ∉ lent.map Prod.fst) (x : α) : Holds (p.store id x) view lent := by
  intro l hl
  have hne : id ≠ l.1 := by
    rintro rfl
    exact hid (List.mem_map_of_mem hl)
  rw [Pool.store, List.getElem?_set_ne hne]
  exact h l hl

theorem Holds.lend {a : α} (h : Holds p view lent) (ha : p.cells[id]? = some a) : Holds p view ((id, view a) :: lent) := by
  intro l hl
  rcases List.mem_cons.1 hl with rfl | hl
  · rw [ha]
    rfl
  · exact h l hl

end Holds

end Pool

end ObjectPool

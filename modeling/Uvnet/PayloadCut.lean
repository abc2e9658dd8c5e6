import Mathlib.Data.List.Infix

/- Streams of pieces cut from a concatenation of payloads, where pieces get lost.

   A sender hands over the payloads one after another, in pieces that have nothing to do with
   their ends, and a receiver gets some of the pieces. `Cut` says how its stream comes from
   what was handed over: some whole payloads, and then one stretch that begins where a payload
   does. The stretch goes on as long as no piece is missed (`Cut.goOn`); after a gap the
   stream stays good if both ends of the gap are ends of payloads (`Cut.restart`). -/
namespace PayloadCut

variable {α : Type} {payloads : List (List α)} {handed piece stream : List α} {reached n : Nat}

/-- The place where the payload number `m` begins. -/
def bound (payloads : List (List α)) (m : Nat) : Nat := (payloads.take m).flatten.length

/-- Where a payload begins or ends. -/
def PayloadEnd (payloads : List (List α)) (n : Nat) : Prop := ∃ m, n = bound payloads m

/-- The stream is some whole payloads in order, the last perhaps cut off. -/
def Whole (payloads : List (List α)) (stream : List α) : Prop :=
  ∃ ws : List (List α), ws.Sublist payloads ∧ stream <+: ws.flatten

/-- The stream is some of the first `m` payloads, and then what was handed over between the
beginning of the next one and `reached`. -/
structure CutAt (payloads : List (List α)) (handed stream : List α) (reached : Nat) (ws : List (List α)) (m : Nat) : Prop where
  before : ws.Sublist (payloads.take m)
  start : bound payloads m ≤ reached
  within : reached ≤ handed.length
  eq : stream = ws.flatten ++ (handed.take reached).drop (bound payloads m)

def Cut (payloads : List (List α)) (handed stream : List α) (reached : Nat) : Prop :=
  ∃ ws m, CutAt payloads handed stream reached ws m

theorem Cut.empty : Cut payloads ([] : List α) [] 0 :=
  ⟨[], 0, List.nil_sublist _, Nat.le_refl 0, Nat.le_refl 0, rfl⟩

theorem bound_append (payloads more : List (List α)) {m : Nat} (h : m ≤ payloads.length) :
    bound (payloads ++ more) m = bound payloads m := by
  rw [bound, List.take_append_of_le_length h, bound]

theorem bound_mono (payloads : List (List α)) {m m' : Nat} (h : m ≤ m') : bound payloads m ≤ bound payloads m' := by
  obtain ⟨d, rfl⟩ := Nat.exists_eq_add_of_le h
  rw [bound, bound, List.take_add, List.flatten_append, List.length_append]
  exact Nat.le_add_right _ _

theorem bound_min (payloads : List (List α)) (m : Nat) : bound payloads (min m payloads.length) = bound payloads m := by
  rw [bound, bound]
  rcases Nat.le_total m payloads.length with hle | hle
  · rw [Nat.min_eq_left hle]
  · rw [Nat.min_eq_right hle, List.take_length, List.take_of_length_le hle]

theorem Cut.extend (h : Cut payloads handed stream reached) (more : List (List α)) : Cut (payloads ++ more) handed stream reached := by
  obtain ⟨ws, m, hbefore, hstart, hwithin, heq⟩ := h
  have hbound : bound (payloads ++ more) (min m payloads.length) = bound payloads m := by
    rw [bound_append payloads more (Nat.min_le_right _ _), bound_min]
  refine ⟨ws, min m payloads.length, ?_, ?_, hwithin, ?_⟩
  · rw [List.take_append_of_le_length (Nat.min_le_right _ _)]
    rcases Nat.le_total m payloads.length with hle | hle
    · rwa [Nat.min_eq_left hle]
    · rw [Nat.min_eq_right hle, List.take_length]
      rwa [List.take_of_length_le hle] at hbefore
  · rwa [hbound]
  · rwa [hbound]

theorem Cut.skip (h : Cut payloads handed stream reached) (piece : List α) : Cut payloads (handed ++ piece) stream reached := by
  obtain ⟨ws, m, hbefore, hstart, hwithin, heq⟩ := h
  refine ⟨ws, m, hbefore, hstart, ?_, ?_⟩
  · rw [List.length_append]
    exact Nat.le_add_right_of_le hwithin
  · rw [List.take_append_of_le_length hwithin]
    exact heq

theorem Cut.goOn (h : Cut payloads handed stream handed.length) (piece : List α) :
    Cut payloads (handed ++ piece) (stream ++ piece) (handed ++ piece).length := by
  obtain ⟨ws, m, hbefore, hstart, hwithin, heq⟩ := h
  refine ⟨ws, m, hbefore, ?_, Nat.le_refl _, ?_⟩
  · rw [List.length_append]
    exact Nat.le_add_right_of_le hstart
  · rw [List.take_length] at heq ⊢
    rw [heq, List.drop_append_of_le_length hstart, List.append_assoc]

/-- What was handed over between two payload ends is the payloads there. -/
theorem drop_take_bound (hhanded : handed <+: payloads.flatten) {m m' : Nat} (hm : m ≤ m')
    (hle : bound payloads m' ≤ handed.length) :
    (handed.take (bound payloads m')).drop (bound payloads m) = ((payloads.take m').drop m).flatten := by
  have htake : handed.take (bound payloads m') = (payloads.take m').flatten := by
    calc handed.take (bound payloads m')
        = (payloads.flatten.take handed.length).take (bound payloads m') := by rw [← List.prefix_iff_eq_take.1 hhanded]
      _ = payloads.flatten.take (bound payloads m') := by rw [List.take_take, Nat.min_eq_left hle]
      _ = ((payloads.take m').flatten ++ (payloads.drop m').flatten).take (bound payloads m') := by
          rw [← List.flatten_append, List.take_append_drop]
      _ = (payloads.take m').flatten := List.take_left
  have hsplit : (payloads.take m').flatten = (payloads.take m).flatten ++ ((payloads.take m').drop m).flatten := by
    rw [← List.flatten_append]
    congr 1
    conv_lhs => rw [← List.take_append_drop m (payloads.take m')]
    rw [List.take_take, Nat.min_eq_left hm]
  rw [htake, hsplit]
  exact List.drop_left

theorem Cut.restart (h : Cut payloads handed stream reached) (hhanded : handed <+: payloads.flatten)
    (hreached : PayloadEnd payloads reached) (hnext : PayloadEnd payloads handed.length) (piece : List α) :
    Cut payloads (handed ++ piece) (stream ++ piece) (handed ++ piece).length := by
  obtain ⟨ws, m, hbefore, hstart, hwithin, heq⟩ := h
  obtain ⟨k, hk⟩ := hreached
  obtain ⟨n, hn⟩ := hnext
  -- Payloads without bytes can stand between equal places.
  have hk' : reached = bound payloads (max m k) := by
    rcases Nat.le_total m k with hmk | hkm
    · rw [Nat.max_eq_right hmk]
      exact hk
    · rw [Nat.max_eq_left hkm]
      exact Nat.le_antisymm (hk ▸ bound_mono payloads hkm) hstart
  have hn' : handed.length = bound payloads (max (max m k) n) := by
    rcases Nat.le_total (max m k) n with hle | hle
    · rw [Nat.max_eq_right hle]
      exact hn
    · rw [Nat.max_eq_left hle]
      exact Nat.le_antisymm (hn ▸ bound_mono payloads hle) (hk' ▸ hwithin)
  have hmax : bound payloads (max m k) ≤ handed.length := hk' ▸ hwithin
  have hstretch := drop_take_bound hhanded (Nat.le_max_left m k) hmax
  refine ⟨ws ++ (payloads.take (max m k)).drop m, max (max m k) n, ?_, ?_, Nat.le_refl _, ?_⟩
  · have hsub : (ws ++ (payloads.take (max m k)).drop m).Sublist (payloads.take (max m k)) := by
      have hfront : ws.Sublist ((payloads.take (max m k)).take m) := by
        rwa [List.take_take, Nat.min_eq_left (Nat.le_max_left m k)]
      have hall := hfront.append (List.Sublist.refl ((payloads.take (max m k)).drop m))
      rwa [List.take_append_drop] at hall
    refine hsub.trans ?_
    have hcut := List.take_sublist (max m k) (payloads.take (max (max m k) n))
    rwa [List.take_take, Nat.min_eq_left (Nat.le_max_left _ n)] at hcut
  · rw [← hn', List.length_append]
    exact Nat.le_add_right _ _
  · rw [List.take_length, ← hn', List.drop_left, List.flatten_append, ← hstretch, ← hk', heq]

/-- **A stream that is cut so** is whole payloads but for the end of the last. -/
theorem Cut.whole (h : Cut payloads handed stream reached) (hhanded : handed <+: payloads.flatten) :
    Whole payloads stream := by
  obtain ⟨ws, m, hbefore, hstart, hwithin, heq⟩ := h
  refine ⟨ws ++ payloads.drop m, ?_, ?_⟩
  · have hall := hbefore.append (List.Sublist.refl (payloads.drop m))
    rwa [List.take_append_drop] at hall
  · have hfront : (handed.take reached).drop (bound payloads m) <+: (payloads.drop m).flatten := by
      have hpre := ((List.take_prefix reached handed).trans hhanded).drop (bound payloads m)
      have hrest : payloads.flatten.drop (bound payloads m) = (payloads.drop m).flatten := by
        have hsplit : payloads.flatten = (payloads.take m).flatten ++ (payloads.drop m).flatten := by
          rw [← List.flatten_append, List.take_append_drop]
        rw [hsplit]
        exact List.drop_left
      rwa [hrest] at hpre
    rw [heq, List.flatten_append]
    exact (List.prefix_append_right_inj ws.flatten).2 hfront

end PayloadCut

import Mathlib.Data.List.Forall2
import Uvnet.PayloadCut

/- Several streams cut, one after another, from one concatenation of payloads.

   A sender whose receiver changes goes on with a new stream where it has got to.
   `WholeEach` says what the streams have together: whole payloads in order, none in two of
   them, and each stream perhaps cut off in its last. `CutEach` is what holds on the way: the
   streams that are closed, and the one that is open, which is `Cut` from the payloads behind
   those of the others. A stream is closed at the end of a payload, whether or not its own
   end is one (`CutEach.close`). -/
namespace PayloadCut

variable {α : Type} {payloads : List (List α)} {closed streams : List (List α)} {handed piece stream : List α}
  {reached n : Nat}

/-- The streams are some whole payloads in order, each stream perhaps cut off in its last. -/
def WholeEach (payloads streams : List (List α)) : Prop :=
  ∃ wss : List (List (List α)), wss.flatten.Sublist payloads ∧
    List.Forall₂ (fun stream ws => stream <+: ws.flatten) streams wss

theorem WholeEach.nil (payloads : List (List α)) : WholeEach payloads [] := ⟨[], List.nil_sublist _, .nil⟩

theorem WholeEach.single (h : Whole payloads stream) : WholeEach payloads [stream] := by
  obtain ⟨ws, hsub, hpre⟩ := h
  refine ⟨[ws], ?_, .cons hpre .nil⟩
  rw [List.flatten_singleton]
  exact hsub

theorem WholeEach.append {more : List (List α)} {streams' : List (List α)} (h : WholeEach payloads streams)
    (h' : WholeEach more streams') : WholeEach (payloads ++ more) (streams ++ streams') := by
  obtain ⟨wss, hsub, hpre⟩ := h
  obtain ⟨wss', hsub', hpre'⟩ := h'
  refine ⟨wss ++ wss', ?_, List.rel_append hpre hpre'⟩
  rw [List.flatten_append]
  exact hsub.append hsub'

theorem WholeEach.mono {more : List (List α)} (h : WholeEach payloads streams) (hsub : payloads.Sublist more) :
    WholeEach more streams := by
  obtain ⟨wss, hwss, hpre⟩ := h
  exact ⟨wss, hwss.trans hsub, hpre⟩

theorem WholeEach.whole (h : WholeEach payloads streams) (hmem : stream ∈ streams) : Whole payloads stream := by
  obtain ⟨wss, hsub, hpre⟩ := h
  obtain ⟨i, hi, rfl⟩ := List.getElem_of_mem hmem
  have hlt : i < wss.length := hpre.length_eq ▸ hi
  refine ⟨wss[i], ?_, List.forall₂_iff_get.1 hpre |>.2 i hi hlt⟩
  exact (List.sublist_flatten_of_mem (List.getElem_mem hlt)).trans hsub

theorem WholeEach.append_nil (h : WholeEach payloads streams) (n : Nat) :
    WholeEach payloads (streams ++ List.replicate n []) := by
  have hnil : WholeEach ([] : List (List α)) (List.replicate n []) := by
    refine ⟨List.replicate n [], ?_, ?_⟩
    · rw [List.flatten_replicate_nil]
    · induction n with
      | zero => exact .nil
      | succ n ih => exact .cons (List.prefix_refl []) ih
  have happ := h.append hnil
  rwa [List.append_nil] at happ

/-- The first `start` payloads are behind the closed streams, and the open stream is cut from
the others. -/
structure CutFrom (payloads : List (List α)) (handed : List α) (closed : List (List α)) (stream : List α)
    (reached start : Nat) : Prop where
  closed : WholeEach (payloads.take start) closed
  le : start ≤ payloads.length
  begun : bound payloads start ≤ handed.length
  passed : bound payloads start ≤ reached
  cut : Cut (payloads.drop start) (handed.drop (bound payloads start)) stream (reached - bound payloads start)

def CutEach (payloads : List (List α)) (handed : List α) (closed : List (List α)) (stream : List α) (reached : Nat) : Prop :=
  ∃ start, CutFrom payloads handed closed stream reached start

theorem CutEach.start : CutEach ([] : List (List α)) [] [] [] 0 :=
  ⟨0, .nil _, Nat.le_refl 0, Nat.le_refl 0, Nat.le_refl 0, .empty⟩

theorem bound_drop (payloads : List (List α)) (start m : Nat) :
    bound (payloads.drop start) m = bound payloads (start + m) - bound payloads start := by
  rw [bound, bound, bound, List.take_add, List.flatten_append, List.length_append, Nat.add_sub_cancel_left]

theorem PayloadEnd.drop {start : Nat} (h : PayloadEnd payloads n) (hle : bound payloads start ≤ n) :
    PayloadEnd (payloads.drop start) (n - bound payloads start) := by
  obtain ⟨m, rfl⟩ := h
  rcases Nat.le_total start m with hsm | hms
  · refine ⟨m - start, ?_⟩
    rw [bound_drop, Nat.add_sub_cancel' hsm]
  · refine ⟨0, ?_⟩
    rw [Nat.sub_eq_zero_of_le (bound_mono payloads hms)]
    rfl

/-- What was handed over behind a payload end is a part of the payloads from there on. -/
theorem handed_drop (hhanded : handed <+: payloads.flatten) (start : Nat) :
    handed.drop (bound payloads start) <+: (payloads.drop start).flatten := by
  have hrest : payloads.flatten.drop (bound payloads start) = (payloads.drop start).flatten := by
    have hsplit : payloads.flatten = (payloads.take start).flatten ++ (payloads.drop start).flatten := by
      rw [← List.flatten_append, List.take_append_drop]
    rw [hsplit]
    exact List.drop_left
  have hpre := hhanded.drop (bound payloads start)
  rwa [hrest] at hpre

theorem CutEach.extend (h : CutEach payloads handed closed stream reached) (more : List (List α)) :
    CutEach (payloads ++ more) handed closed stream reached := by
  obtain ⟨start, hclosed, hle, hbegun, hpassed, hcut⟩ := h
  have hbound : bound (payloads ++ more) start = bound payloads start := bound_append payloads more hle
  refine ⟨start, ?_, ?_, ?_, ?_, ?_⟩
  · rwa [List.take_append_of_le_length hle]
  · rw [List.length_append]
    exact Nat.le_add_right_of_le hle
  · rwa [hbound]
  · rwa [hbound]
  · rw [hbound, List.drop_append_of_le_length hle]
    exact hcut.extend more

theorem CutEach.skip (h : CutEach payloads handed closed stream reached) (piece : List α) :
    CutEach payloads (handed ++ piece) closed stream reached := by
  obtain ⟨start, hclosed, hle, hbegun, hpassed, hcut⟩ := h
  refine ⟨start, hclosed, hle, ?_, hpassed, ?_⟩
  · rw [List.length_append]
    exact Nat.le_add_right_of_le hbegun
  · rw [List.drop_append_of_le_length hbegun]
    exact hcut.skip piece

/-- A piece for the open stream, where that has got as far as what was handed over, or both are
at payload ends. -/
theorem CutEach.push (h : CutEach payloads handed closed stream reached) (hhanded : handed <+: payloads.flatten)
    (hgo : reached = handed.length ∨ (PayloadEnd payloads reached ∧ PayloadEnd payloads handed.length)) (piece : List α) :
    CutEach payloads (handed ++ piece) closed (stream ++ piece) (handed ++ piece).length := by
  obtain ⟨start, hclosed, hle, hbegun, hpassed, hcut⟩ := h
  have hdrop : (handed ++ piece).drop (bound payloads start) = handed.drop (bound payloads start) ++ piece :=
    List.drop_append_of_le_length hbegun
  have hlen : (handed ++ piece).length - bound payloads start =
      (handed.drop (bound payloads start) ++ piece).length := by
    rw [← hdrop, List.length_drop]
  have hmore : bound payloads start ≤ (handed ++ piece).length := by
    rw [List.length_append]
    exact Nat.le_add_right_of_le hbegun
  refine ⟨start, hclosed, hle, hmore, hmore, ?_⟩
  rw [hdrop, hlen]
  rcases hgo with rfl | ⟨hreached, hnext⟩
  · rw [← List.length_drop] at hcut
    exact hcut.goOn piece
  · refine hcut.restart (handed_drop hhanded start) (hreached.drop hpassed) ?_ piece
    rw [List.length_drop]
    exact hnext.drop hbegun

/-- What was handed over ends with a payload, and the stream is cut from the payloads up to it. -/
theorem Cut.upTo (h : Cut payloads handed stream reached) (hhanded : handed <+: payloads.flatten)
    (hend : PayloadEnd payloads handed.length) :
    ∃ m, m ≤ payloads.length ∧ handed.length = bound payloads m ∧ Whole (payloads.take m) stream := by
  obtain ⟨ws, m, hbefore, hstart, hwithin, heq⟩ := h
  obtain ⟨n, hn⟩ := hend
  have hn' : handed.length = bound payloads (max m n) := by
    rcases Nat.le_total m n with hmn | hnm
    · rwa [Nat.max_eq_right hmn]
    · rw [Nat.max_eq_left hnm]
      exact Nat.le_antisymm (hn ▸ bound_mono payloads hnm) (Nat.le_trans hstart hwithin)
  refine ⟨min (max m n) payloads.length, Nat.min_le_right _ _, by rw [bound_min]; exact hn', ?_⟩
  have htake : payloads.take (min (max m n) payloads.length) = payloads.take (max m n) := by
    rcases Nat.le_total (max m n) payloads.length with hle | hle
    · rw [Nat.min_eq_left hle]
    · rw [Nat.min_eq_right hle, List.take_length, List.take_of_length_le hle]
  have hmm : (payloads.take (max m n)).take m = payloads.take m := by
    rw [List.take_take, Nat.min_eq_left (Nat.le_max_left m n)]
  have hfront : handed <+: (payloads.take (max m n)).flatten := by
    have hle : handed.length ≤ (payloads.take (max m n)).flatten.length := Nat.le_of_eq hn'
    refine List.prefix_of_prefix_length_le hhanded ?_ hle
    conv_rhs => rw [← List.take_append_drop (max m n) payloads, List.flatten_append]
    exact List.prefix_append _ _
  rw [htake]
  refine Cut.whole ⟨ws, m, ?_, ?_, hwithin, ?_⟩ hfront
  · rwa [hmm]
  · rw [bound, hmm]
    exact hstart
  · rw [bound, hmm]
    exact heq

/-- **A stream is closed**, and another opened, where what was handed over ends with a payload. -/
theorem CutEach.close (h : CutEach payloads handed closed stream reached) (hhanded : handed <+: payloads.flatten)
    (hend : PayloadEnd payloads handed.length) : CutEach payloads handed (closed ++ [stream]) [] handed.length := by
  obtain ⟨start, hclosed, hle, hbegun, hpassed, hcut⟩ := h
  obtain ⟨m, hm, hbound, hwhole⟩ := hcut.upTo (handed_drop hhanded start) (by
    rw [List.length_drop]
    exact hend.drop hbegun)
  rw [List.length_drop] at hm hbound
  rw [bound_drop] at hbound
  have hmono := bound_mono payloads (Nat.le_add_right start m)
  have hlen : handed.length = bound payloads (start + m) := by omega
  refine ⟨start + m, ?_, by omega, Nat.le_of_eq hlen.symm, Nat.le_of_eq hlen.symm, ?_⟩
  · rw [List.take_add]
    exact hclosed.append (.single hwhole)
  · rw [hlen, Nat.sub_self, List.drop_of_length_le (Nat.le_of_eq hlen)]
    exact ⟨[], 0, List.nil_sublist _, Nat.le_refl 0, Nat.le_refl 0, rfl⟩

theorem CutEach.closeAll (h : CutEach payloads handed closed stream reached) (hhanded : handed <+: payloads.flatten)
    (hend : PayloadEnd payloads handed.length) (n : Nat) :
    CutEach payloads handed (closed ++ [stream] ++ List.replicate n []) [] handed.length := by
  induction n with
  | zero =>
    rw [List.replicate_zero, List.append_nil]
    exact h.close hhanded hend
  | succ n ih =>
    have hnext := ih.close hhanded hend
    rwa [List.append_assoc, ← List.replicate_succ'] at hnext

/-- **All the streams** are whole payloads, each but for the end of its last. -/
theorem CutEach.wholeEach (h : CutEach payloads handed closed stream reached) (hhanded : handed <+: payloads.flatten) :
    WholeEach payloads (closed ++ [stream]) := by
  obtain ⟨start, hclosed, hle, hbegun, hpassed, hcut⟩ := h
  have hall := hclosed.append (.single (hcut.whole (handed_drop hhanded start)))
  rwa [List.take_append_drop] at hall

end PayloadCut

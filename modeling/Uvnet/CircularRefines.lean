import Uvnet.CircularCopy

/- `PodCircularBuffer` refines a bounded queue over any sequence of calls. -/
namespace Uvnet
open CMachine BoundedQueue

namespace PodCircularBuffer
variable {T : Type}

/-! Sequences of calls. -/

inductive Call (T : Type) where
  | write (buf : List T) (count : Int)
  | read (buf : List T) (count : Int)
  | clear

/-- `count` is an `int`, and the caller's array has as many elements. -/
def Call.Valid : Call T → Prop
  | .write buf count => count ≤ buf.length ∧ count ≤ intMax
  | .read buf count => count ≤ buf.length ∧ count ≤ intMax
  | .clear => True

/-- One call: the buffer, the caller's array and the returned number after it. -/
def step (b : PodCircularBuffer T) : Call T → C (PodCircularBuffer T × List T × Int)
  | .write buf count => do
    let (b', n) ← b.write buf count
    return (b', buf, n)
  | .read buf count => b.read buf count
  | .clear => return (b.clear, [], 0)

def run (b : PodCircularBuffer T) : List (Call T) → C (PodCircularBuffer T × List (List T × Int))
  | [] => return (b, [])
  | call :: calls => do
    let (b', buf, n) ← b.step call
    let (b'', outs) ← run b' calls
    return (b'', (buf, n) :: outs)

/-- The abstract behaviour: a list of at most `cap` elements. -/
def specStep (cap : Nat) (items : List T) : Call T → List T × List T × Int
  | .write buf count =>
    let k := min count.toNat (cap - items.length)
    (items ++ buf.take k, buf, k)
  | .read buf count =>
    let k := min count.toNat items.length
    (items.drop k, items.take k ++ buf.drop k, k)
  | .clear => ([], [], 0)

def specRun (cap : Nat) (items : List T) : List (Call T) → List T × List (List T × Int)
  | [] => (items, [])
  | call :: calls =>
    let (items', buf, n) := specStep cap items call
    let (items'', outs) := specRun cap items' calls
    (items'', (buf, n) :: outs)

section Runs
variable {cap : Nat} {b : PodCircularBuffer T} {q : Queue T cap}

theorem step_refines (h0 : 0 < cap) (h : Rep b q) (call : Call T) (hv : call.Valid) :
    ∃ (b' : PodCircularBuffer T) (q' : Queue T cap), b.step call = .ok (b', (specStep cap q.items call).2) ∧ Rep b' q' ∧
      q'.items = (specStep cap q.items call).1 := by
  cases call with
  | write buf count =>
    obtain ⟨b', hrun, hrep⟩ := write_spec h hv.1 hv.2
    have hacc : q.accepted (buf.take count.toNat) = buf.take (min count.toNat (cap - q.items.length)) := by
      rw [Queue.accepted, Queue.free, List.take_take, Nat.min_comm]
    have hlen : (buf.take (min count.toNat (cap - q.items.length))).length = min count.toNat (cap - q.items.length) := by
      have := hv.1
      rw [List.length_take]; omega
    rw [hacc, hlen] at hrun
    refine ⟨b', _, ?_, hrep, ?_⟩
    · simp only [step, hrun, ok_bind, specStep]
      rfl
    · calc (q.put (buf.take count.toNat)).items = q.items ++ q.accepted (buf.take count.toNat) := rfl
        _ = _ := by rw [hacc]; rfl
  | read buf count =>
    obtain ⟨b', hrun, hrep⟩ := read_spec h hv.1 hv.2
    have hout : q.out count.toNat = q.items.take (min count.toNat q.items.length) := by
      rw [Queue.out, List.take_eq_take_min]
    have hlen : (q.items.take (min count.toNat q.items.length)).length = min count.toNat q.items.length := by
      rw [List.length_take]; omega
    rw [hout, hlen] at hrun
    refine ⟨b', _, hrun, hrep, ?_⟩
    calc (q.get count.toNat).items = q.items.drop count.toNat := rfl
      _ = _ := List.drop_eq_drop_min
  | clear => exact ⟨b.clear, Queue.empty, rfl, clear_rep h0 h, rfl⟩

theorem run_refines (h0 : 0 < cap) : ∀ (calls : List (Call T)) (b : PodCircularBuffer T) (q : Queue T cap),
    Rep b q → (∀ call ∈ calls, call.Valid) →
    ∃ (b' : PodCircularBuffer T) (q' : Queue T cap), b.run calls = .ok (b', (specRun cap q.items calls).2) ∧ Rep b' q' ∧
      q'.items = (specRun cap q.items calls).1
  | [], b, q, h, _ => ⟨b, q, rfl, h, rfl⟩
  | call :: calls, b, q, h, hv => by
    obtain ⟨b₁, q₁, hstep, hrep, hitems⟩ := step_refines h0 h call (hv call (by simp))
    obtain ⟨b₂, q₂, hrun, hrep₂, hitems₂⟩ := run_refines h0 calls b₁ q₁ hrep
      (fun c hc => hv c (List.mem_cons_of_mem _ hc))
    rw [hitems] at hrun hitems₂
    refine ⟨b₂, q₂, ?_, hrep₂, hitems₂⟩
    simp only [run, hstep, ok_bind, hrun, specRun]
    rfl

end Runs

/-- **`PodCircularBuffer` refines a bounded queue.** Over any sequence of calls it returns
what the queue returns and faults nowhere; `size`, `empty` and `full` agree with the queue,
and both positions are indices into the storage. -/
theorem circularBuffer_refines (fresh : Nat → T) (cap : Nat) (h0 : 1 ≤ cap) (hmax : cap ≤ intMax)
    (calls : List (Call T)) (hv : ∀ call ∈ calls, call.Valid) :
    ∃ b, (new fresh cap).run calls = .ok (b, (specRun cap [] calls).2) ∧
      b.size = .ok (specRun cap [] calls).1.length ∧
      b.empty = (specRun cap [] calls).1.isEmpty ∧
      b.full = decide ((specRun cap [] calls).1.length = cap) ∧
      (0 ≤ b.mNReadPos ∧ b.mNReadPos < cap) ∧ (0 ≤ b.mNWritePos ∧ b.mNWritePos < cap) := by
  obtain ⟨b, q, hrun, hrep, hitems⟩ := run_refines h0 calls _ _ (new_rep fresh h0 hmax) hv
  have hstart : (Queue.empty : Queue T cap).items = [] := rfl
  rw [hstart] at hrun hitems
  rw [← hitems]
  exact ⟨b, hrun, size_spec hrep, empty_spec hrep, full_spec hrep, pos_spec hrep⟩

theorem circularBuffer_refines_three :
    ∃ b, (new (fun _ => (0 : Nat)) 3).run [.write [1, 2] 2, .read [9] 1, .write [3, 4, 5] 3, .read [9, 9, 9, 9] 4] =
        .ok (b, [([1, 2], 2), ([1], 1), ([3, 4, 5], 2), ([2, 3, 4, 9], 3)]) ∧
      b.size = .ok 0 ∧ b.empty = true ∧ b.full = false ∧
      (0 ≤ b.mNReadPos ∧ b.mNReadPos < 3) ∧ (0 ≤ b.mNWritePos ∧ b.mNWritePos < 3) :=
  circularBuffer_refines (fun _ => 0) 3 (by decide) (by decide)
    [.write [1, 2] 2, .read [9] 1, .write [3, 4, 5] 3, .read [9, 9, 9, 9] 4] (by simp [Call.Valid, intMax])

end PodCircularBuffer

end Uvnet

import Mathlib.Data.List.Basic

/- Bounded FIFO queues, and the conservation law of a pipe.

   `put` appends as much of its argument as there is room for, `get` takes from the
   front. What a queue has accepted is, at any time, what it has given out followed by what
   it holds (`Conserves`); the law is kept by `put` and `get` and carries no other
   assumption, so it holds along any sequence of the two. -/
namespace BoundedQueue

/-- A queue that never holds more than `cap` elements. -/
structure Queue (α : Type) (cap : Nat) where
  items : List α
  bound : items.length ≤ cap

namespace Queue
variable {α : Type} {cap : Nat}

def empty : Queue α cap := ⟨[], Nat.zero_le _⟩

def free (q : Queue α cap) : Nat := cap - q.items.length

/-- The part of `xs` the queue has room for. -/
def accepted (q : Queue α cap) (xs : List α) : List α := xs.take q.free

def put (q : Queue α cap) (xs : List α) : Queue α cap where
  items := q.items ++ q.accepted xs
  bound := by
    have := q.bound
    simp only [accepted, free, List.length_append, List.length_take]
    omega

/-- The first `n` elements, or all there are. -/
def out (q : Queue α cap) (n : Nat) : List α := q.items.take n

def get (q : Queue α cap) (n : Nat) : Queue α cap where
  items := q.items.drop n
  bound := by
    have := q.bound
    rw [List.length_drop]
    omega

theorem ext {q q' : Queue α cap} (h : q.items = q'.items) : q = q' := by
  cases q
  cases q'
  cases h
  rfl

theorem put_items (q : Queue α cap) (xs : List α) : (q.put xs).items = q.items ++ xs.take (cap - q.items.length) := rfl

theorem out_append_get (q : Queue α cap) (n : Nat) : q.out n ++ (q.get n).items = q.items :=
  List.take_append_drop n q.items

/-- What was accepted is what was given out, then what is held. -/
def Conserves (given : List α) (q : Queue α cap) (taken : List α) : Prop := given ++ q.items = taken

variable {given taken : List α} {q : Queue α cap}

theorem Conserves.put (h : Conserves given q taken) (xs : List α) :
    Conserves given (q.put xs) (taken ++ q.accepted xs) := by
  calc given ++ (q.items ++ q.accepted xs)
      = (given ++ q.items) ++ q.accepted xs := (List.append_assoc ..).symm
    _ = taken ++ q.accepted xs := by rw [h]

theorem Conserves.get (h : Conserves given q taken) (n : Nat) :
    Conserves (given ++ q.out n) (q.get n) taken := by
  calc given ++ q.out n ++ (q.get n).items
      = given ++ (q.out n ++ (q.get n).items) := List.append_assoc ..
    _ = given ++ q.items := by rw [out_append_get]
    _ = taken := h

end Queue

end BoundedQueue

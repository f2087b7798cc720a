/-!
# Bounded queues

A queue of bounded capacity between a writing and a reading side, first in, first out. A full
queue refuses an item, and once the reading side has closed every item is refused; what waits can
still be taken.

* `BoundedQueue.push`: whether an item was taken, and if not, why.
* `BoundedQueue.pop`: what the reading side finds.
-/

namespace DeviceRelay

/-- The items that wait, oldest first. -/
structure BoundedQueue (α : Type) where
  capacity : Nat
  waiting : List α
  isOpen : Bool
  deriving DecidableEq, Repr

/-- What happened to an item. -/
inductive Pushed where
  | queued
  | full
  | closed
  deriving DecidableEq, Repr

/-- What the reading side finds. -/
inductive Popped (α : Type) where
  | item (a : α)
  | empty
  /-- Nothing waits and nothing will come. -/
  | disconnected
  deriving DecidableEq, Repr

namespace BoundedQueue

variable {α : Type}

def new (capacity : Nat) : BoundedQueue α := ⟨capacity, [], true⟩

def hasRoom (q : BoundedQueue α) : Bool := q.waiting.length < q.capacity

/-- Puts an item at the end. A queue that is both closed and full counts as closed. -/
def push (q : BoundedQueue α) (a : α) : Pushed × BoundedQueue α :=
  if !q.isOpen then (.closed, q)
  else if !q.hasRoom then (.full, q)
  else (.queued, { q with waiting := q.waiting ++ [a] })

/-- Takes the oldest item. -/
def pop (q : BoundedQueue α) : Popped α × BoundedQueue α :=
  match q.waiting with
  | a :: waiting => (.item a, { q with waiting := waiting })
  | [] => (if q.isOpen then .empty else .disconnected, q)

/-- The reading side goes away. -/
def close (q : BoundedQueue α) : BoundedQueue α := { q with isOpen := false }

/-! ## Lemmas -/

theorem push_eq_queued_iff {q : BoundedQueue α} {a : α} :
    (q.push a).1 = .queued ↔ q.isOpen = true ∧ q.waiting.length < q.capacity := by
  unfold push hasRoom
  cases q.isOpen <;> simp
  split <;> simp_all

theorem waiting_push (q : BoundedQueue α) (a : α) :
    (q.push a).2.waiting = if (q.push a).1 = .queued then q.waiting ++ [a] else q.waiting := by
  unfold push
  cases q.isOpen <;> simp
  split <;> simp_all

theorem push_of_ne_queued {q : BoundedQueue α} {a : α} (h : (q.push a).1 ≠ .queued) :
    (q.push a).2 = q := by
  unfold push at *
  split
  · rfl
  · split
    · rfl
    · simp_all

theorem push_cases (q : BoundedQueue α) (a : α) :
    q.push a = (.queued, { q with waiting := q.waiting ++ [a] }) ∨
      (q.push a).1 ≠ .queued ∧ (q.push a).2 = q := by
  unfold push
  split
  · exact .inr ⟨nofun, rfl⟩
  · split
    · exact .inr ⟨nofun, rfl⟩
    · exact .inl rfl

end BoundedQueue

end DeviceRelay

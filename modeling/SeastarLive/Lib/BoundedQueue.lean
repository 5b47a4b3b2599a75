/-
SeastarLive.Lib.BoundedQueue — a first-in first-out queue with a capacity.

A producer that finds the queue full waits, and so does a consumer that finds
it empty: `push` and `pop` are for the moments at which they go on. `consume`
takes elements from the front until a function on them tells it to stop.

Nothing here names a program.
-/
import Mathlib.Data.List.Basic

namespace SeastarLive

/-- At most `cap` elements, in the order in which they were pushed. -/
structure BoundedQueue (α : Type) (cap : Nat) where
  items : List α := []
  bounded : items.length ≤ cap := by exact Nat.zero_le _

namespace BoundedQueue

variable {α : Type} {cap : Nat}

def full (q : BoundedQueue α cap) : Bool := decide (cap ≤ q.items.length)

/-- Push to a queue that is not full. -/
def push (q : BoundedQueue α cap) (a : α) : BoundedQueue α cap :=
  if h : q.items.length < cap then
    { items := q.items ++ [a]
      bounded := by
        rw [List.length_append]
        exact h }
  else q

/-- The front, and the queue without it. -/
def pop (q : BoundedQueue α cap) : Option (α × BoundedQueue α cap) :=
  match h : q.items with
  | [] => none
  | a :: rest =>
      some (a, { items := rest
                 bounded := by
                   have := q.bounded
                   rw [h, List.length_cons] at this
                   omega })

/-- What `f` leaves of a list: it is given the elements from the front until it is false. -/
def consumed (f : α → Bool) : List α → List α
  | [] => []
  | a :: rest => if f a then consumed f rest else rest

theorem length_consumed_le (f : α → Bool) (l : List α) : (consumed f l).length ≤ l.length := by
  induction l with
  | nil => exact Nat.le_refl 0
  | cons a rest ih =>
      simp only [consumed, List.length_cons]
      split
      · omega
      · omega

def consume (q : BoundedQueue α cap) (f : α → Bool) : BoundedQueue α cap where
  items := consumed f q.items
  bounded := Nat.le_trans (length_consumed_le f q.items) q.bounded

/-! ## Rules -/

theorem length_lt_of_not_full {q : BoundedQueue α cap} (h : q.full = false) :
    q.items.length < cap := by
  have hlt : ¬ cap ≤ q.items.length := of_decide_eq_false h
  omega

theorem push_items {q : BoundedQueue α cap} (h : q.full = false) (a : α) :
    (q.push a).items = q.items ++ [a] := by
  simp [push, length_lt_of_not_full h]

theorem pop_eq_some {q t : BoundedQueue α cap} {a : α} :
    q.pop = some (a, t) ↔ q.items = a :: t.items := by
  obtain ⟨items, hbound⟩ := q
  obtain ⟨rest, hrest⟩ := t
  cases items with
  | nil => simp [pop]
  | cons b items => simp [pop]

theorem pop_eq_none {q : BoundedQueue α cap} : q.pop = none ↔ q.items = [] := by
  obtain ⟨items, hbound⟩ := q
  cases items with
  | nil => simp [pop]
  | cons b items => simp [pop]

/-- A function that never stops leaves nothing. -/
theorem consumed_all {f : α → Bool} (h : ∀ a, f a = true) (l : List α) : consumed f l = [] := by
  induction l with
  | nil => rfl
  | cons a rest ih => simp [consumed, h a, ih]

@[simp] theorem consume_all_items (q : BoundedQueue α cap) :
    (q.consume fun _ => true).items = [] := consumed_all (fun _ => rfl) q.items

/-- An empty queue with room for one takes an element at once. -/
theorem not_full_of_empty {q : BoundedQueue α cap} (hcap : 0 < cap) (h : q.items = []) :
    q.full = false := by
  simp only [full, h, List.length_nil, decide_eq_false_iff_not]
  omega

end BoundedQueue

end SeastarLive

/-
SeastarLive.Lib.Segments — a sequence that is cut into segments as it comes in.

* `push`: the next item goes into the last segment, or starts one.
* `flatten_push`: nothing is lost, doubled or moved.
* `sum_telescope`: where each segment starts at the stop of the one before it,
  the lengths of a run of segments add up to the length of the run.

Nothing here names a program.
-/
import Mathlib.Algebra.BigOperators.Group.List.Basic
import Mathlib.Data.List.Chain
import Mathlib.Tactic.Abel

namespace SeastarLive

namespace Segments

variable {α : Type}

/-- The segments after the next item, which starts one or not; the first item always does. -/
def push (starts : Bool) : List (List α) → α → List (List α)
  | [], x => [[x]]
  | [last], x => if starts then [last, [x]] else [last ++ [x]]
  | segment :: next :: rest, x => segment :: push starts (next :: rest) x

theorem push_start (segments : List (List α)) (x : α) :
    push true segments x = segments ++ [[x]] := by
  induction segments with
  | nil => rfl
  | cons segment rest ih =>
      cases rest with
      | nil => rfl
      | cons next rest => exact congrArg (segment :: ·) ih

theorem push_continue (front : List (List α)) (last : List α) (x : α) :
    push false (front ++ [last]) x = front ++ [last ++ [x]] := by
  induction front with
  | nil => rfl
  | cons segment front ih =>
      cases front with
      | nil => rfl
      | cons next front =>
          simp only [List.cons_append] at ih ⊢
          rw [push, ih]

/-- All items are there, once and in order. -/
theorem flatten_push (starts : Bool) (segments : List (List α)) (x : α) :
    (push starts segments x).flatten = segments.flatten ++ [x] := by
  induction segments with
  | nil => rfl
  | cons segment rest ih =>
      cases rest with
      | nil =>
          cases starts with
          | true => simp [push]
          | false => simp [push]
      | cons next rest => simp [push, ih]

/-- No segment is empty. -/
theorem ne_nil_of_mem_push (starts : Bool) {segments : List (List α)} (x : α)
    (h : ∀ segment ∈ segments, segment ≠ []) :
    ∀ segment ∈ push starts segments x, segment ≠ [] := by
  induction segments with
  | nil => simp [push]
  | cons segment rest ih =>
      cases rest with
      | nil =>
          have hsegment := h segment List.mem_cons_self
          cases starts with
          | true => simp [push, hsegment]
          | false => simp [push]
      | cons next rest =>
          intro l hl
          rw [push, List.mem_cons] at hl
          rcases hl with rfl | hl
          · exact h l List.mem_cons_self
          · exact ih (fun s hs => h s (List.mem_cons_of_mem segment hs)) l hl

/-- The lengths of segments that follow on each other. -/
theorem sum_telescope {G : Type} [AddCommGroup G] {start stop : α → G} {first last : α}
    {segments : List α} (h : segments.IsChain fun a b => start b = stop a)
    (hfirst : first ∈ segments.head?) (hlast : last ∈ segments.getLast?) :
    (segments.map fun x => stop x - start x).sum = stop last - start first := by
  induction segments generalizing first with
  | nil => cases hfirst
  | cons segment rest ih =>
      obtain rfl := Option.mem_some.mp hfirst
      cases rest with
      | nil =>
          obtain rfl := Option.mem_some.mp hlast
          simp
      | cons next rest =>
          obtain ⟨hnext, hrest⟩ := List.isChain_cons_cons.mp h
          have hsum := ih hrest rfl hlast
          rw [List.map_cons, List.sum_cons, hsum, hnext]
          abel

end Segments

end SeastarLive

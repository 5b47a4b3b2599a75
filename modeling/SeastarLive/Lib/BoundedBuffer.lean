/-
SeastarLive.Lib.BoundedBuffer — writing into a buffer of a fixed size.

A writer holds what was written so far and appends a chunk if it fits; a
sequence of writes stops at the first chunk that does not.

* `put`: one chunk. `put_bind_put`: two chunks are one.
* `put_of_guard`: a test made before a write, for no more than it needs, adds
  nothing to it.

Nothing here names a program.
-/
import Mathlib.Data.List.Basic

namespace SeastarLive.BoundedBuffer

variable {β : Type} (size : Nat)

/-- Append a chunk, if it fits. -/
def put (chunk buf : List β) : Option (List β) :=
  if size < buf.length + chunk.length then none else some (buf ++ chunk)

variable {size} {chunk buf : List β}

/-- A chunk that fits. -/
theorem put_of_fits (h : buf.length + chunk.length ≤ size) :
    put size chunk buf = some (buf ++ chunk) :=
  if_neg (Nat.not_lt.mpr h)

/-- What is written already may as well be part of the chunk. -/
theorem put_append (size : Nat) (chunk front buf : List β) :
    put size chunk (buf ++ front) = put size (front ++ chunk) buf := by
  simp only [put, List.length_append, List.append_assoc, Nat.add_assoc]

/-- Two chunks, one after the other, are one. -/
theorem put_bind_put (size : Nat) (chunk chunk' buf : List β) :
    (put size chunk buf >>= put size chunk') = put size (chunk ++ chunk') buf := by
  by_cases hfits : size < buf.length + chunk.length
  · have hnone : put size (chunk ++ chunk') buf = none := if_pos (by simp; omega)
    rw [hnone, put, if_pos hfits]
    rfl
  · rw [put, if_neg hfits, Option.bind_eq_bind, Option.bind_some, put_append]

/-- A test for no more than what is written. -/
theorem put_of_guard {n : Nat} (hn : n ≤ buf.length + chunk.length) :
    (if size < n then none else put size chunk buf) = put size chunk buf := by
  split
  · rename_i hfull
    exact (if_pos (by omega)).symm
  · rfl

end SeastarLive.BoundedBuffer

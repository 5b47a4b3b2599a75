/-
SeastarLive.Lib.FileSystem — the contents of files under their paths.

A file system says for each path what the file there contains, if there is one. `create`,
`change` and `rename` each touch the paths they name and no other: the simp lemmas say what is
found at these and at any other path. `resized` and `overwritten` are what `ftruncate` and a
`write` at the start make of a content.

Nothing here names a program.
-/
import Mathlib.Logic.Basic

namespace SeastarLive

/-- For each path the content of the file there. -/
def FileSystem (π β : Type) := π → Option (List β)

namespace FileSystem

variable {π β : Type}

/-! ## Contents -/

/-- A content cut or filled up to a length. -/
def resized (zero : β) (n : Nat) (content : List β) : List β :=
  content.take n ++ List.replicate (n - content.length) zero

/-- A content whose start is written over. -/
def overwritten (bytes content : List β) : List β := bytes ++ content.drop bytes.length

@[simp] theorem resized_nil (zero : β) (n : Nat) :
    resized zero n [] = List.replicate n zero := by
  simp [resized]

/-- A content written over a file of its length that is filled up: what was not written stays
    filled. -/
theorem overwritten_take_replicate (zero : β) {n : Nat} {content : List β}
    (hn : n ≤ content.length) :
    overwritten (content.take n) (List.replicate content.length zero)
      = content.take n ++ List.replicate (content.length - n) zero := by
  simp [overwritten, Nat.min_eq_left hn]

/-- A content is there although it was cut off exactly if the rest is what it was filled up
    with. -/
theorem take_append_replicate_eq_iff (zero : β) (n : Nat) (content : List β) :
    content.take n ++ List.replicate (content.length - n) zero = content
      ↔ ∀ b ∈ content.drop n, b = zero := by
  calc content.take n ++ List.replicate (content.length - n) zero = content
      ↔ content.take n ++ List.replicate (content.length - n) zero
          = content.take n ++ content.drop n := by rw [List.take_append_drop]
    _ ↔ content.drop n = List.replicate (content.length - n) zero := by
        rw [List.append_right_inj, eq_comm]
    _ ↔ ∀ b ∈ content.drop n, b = zero := by
        rw [List.eq_replicate_iff]
        exact and_iff_right List.length_drop

/-! ## Files -/

variable [DecidableEq π] (fs : FileSystem π β)

/-- An empty file at a path, whatever was there. -/
def create (path : π) : FileSystem π β := fun p => if p = path then some [] else fs p

/-- The file at a path, with its content changed. -/
def change (path : π) (f : List β → List β) : FileSystem π β :=
  fun p => if p = path then (fs p).map f else fs p

/-- The file at a path, under a new path. -/
def rename (path path' : π) : FileSystem π β :=
  fun p => if p = path' then fs path else if p = path then none else fs p

variable {path path' p : π} {f : List β → List β}

@[simp] theorem create_same : fs.create path path = some [] := if_pos rfl

@[simp] theorem create_other (h : p ≠ path) : fs.create path p = fs p := if_neg h

@[simp] theorem change_same : fs.change path f path = (fs path).map f := if_pos rfl

@[simp] theorem change_other (h : p ≠ path) : fs.change path f p = fs p := if_neg h

@[simp] theorem rename_new : fs.rename path path' path' = fs path := if_pos rfl

@[simp] theorem rename_other (h : p ≠ path) (h' : p ≠ path') : fs.rename path path' p = fs p := by
  simp [rename, h, h']

end FileSystem

end SeastarLive

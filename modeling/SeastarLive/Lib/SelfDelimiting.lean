/-
SeastarLive.Lib.SelfDelimiting — encodings that are read back in sequence.

A reader takes one value off the front of a list and returns the rest. Where
it inverts an encoding on the values of `P`, a concatenation of encoded values
is read back value by value.

* `Inverts`: the reader takes an encoded value, whatever follows it.
* `readAll`: one value after the other until nothing is left. Every value
  takes at least one element, so the length of the list is fuel enough.
* `readAll_flatMap`: the law for sequences of values.

Nothing here names a program.
-/
import Mathlib.Data.List.Basic

namespace SeastarLive.SelfDelimiting

variable {α β : Type}

/-- `read` takes an encoded value of `P` off the front of a list. -/
structure Inverts (P : α → Prop) (encode : α → List β)
    (read : List β → Option (α × List β)) : Prop where
  encode_ne_nil : ∀ a, P a → encode a ≠ []
  read_encode : ∀ a rest, P a → read (encode a ++ rest) = some (a, rest)

/-- Read one value after the other until nothing is left. -/
def readAll (read : List β → Option (α × List β)) : Nat → List β → Option (List α)
  | _, [] => some []
  | 0, _ :: _ => none
  | fuel + 1, b :: bs =>
      match read (b :: bs) with
      | none => none
      | some (a, rest) => (readAll read fuel rest).map (a :: ·)

section Laws

variable {P : α → Prop} {encode : α → List β} {read : List β → Option (α × List β)}

theorem readAll_encode (h : Inverts P encode read) {a : α} (ha : P a) (rest : List β)
    (fuel : Nat) :
    readAll read (fuel + 1) (encode a ++ rest) = (readAll read fuel rest).map (a :: ·) := by
  cases hcode : encode a with
  | nil => exact absurd hcode (h.encode_ne_nil a ha)
  | cons b bs =>
      have hread := h.read_encode a rest ha
      rw [hcode, List.cons_append] at hread
      simp only [List.cons_append, readAll, hread]

/-- With enough fuel a sequence of encoded values is read back. -/
theorem readAll_flatMap (h : Inverts P encode read) {as : List α} (has : ∀ a ∈ as, P a)
    {fuel : Nat} (hfuel : as.length ≤ fuel) :
    readAll read fuel (as.flatMap encode) = some as := by
  induction as generalizing fuel with
  | nil => cases fuel <;> rfl
  | cons a as ih =>
      cases fuel with
      | zero => simp at hfuel
      | succ fuel =>
          have hrest : readAll read fuel (as.flatMap encode) = some as :=
            ih (fun x hx => has x (List.mem_cons_of_mem a hx)) (by simpa using hfuel)
          rw [List.flatMap_cons, readAll_encode h (has a List.mem_cons_self), hrest]
          rfl

/-- Every value takes at least one element. -/
theorem length_le_flatMap (h : Inverts P encode read) {as : List α} (has : ∀ a ∈ as, P a) :
    as.length ≤ (as.flatMap encode).length := by
  induction as with
  | nil => simp
  | cons a as ih =>
      have hpos : 0 < (encode a).length :=
        List.length_pos_iff.mpr (h.encode_ne_nil a (has a List.mem_cons_self))
      have hrest := ih fun x hx => has x (List.mem_cons_of_mem a hx)
      simp only [List.flatMap_cons, List.length_append, List.length_cons]
      omega

end Laws

end SeastarLive.SelfDelimiting

/-
SeastarLive.Lib.Double — the values of a `double`.

A value is a number, one of the infinities, or no number. A zero has no sign here. `operator==`
is not an equivalence: what is no number is not equal to itself (`equal_self`).

Nothing here names a program.
-/
import SeastarLive.Lib.BinaryRounding

namespace SeastarLive

/-- A value of a `double`. -/
inductive Double
  | number (x : Rat)
  | infinite (negative : Bool)
  | nan
deriving DecidableEq

namespace Double

instance : NatCast Double := ⟨fun n => .number n⟩
instance : IntCast Double := ⟨fun n => .number n⟩
instance (n : Nat) : OfNat Double n := ⟨.number n⟩

/-- The value next to a number that is not smaller than the normal ones. -/
def ofRat (x : Rat) : Double :=
  let r := roundBinary 53 x
  if 2 ^ 1024 ≤ |r| then .infinite (x < 0) else .number r

/-- The value with these bits. -/
def ofBits (bits : Nat) : Double :=
  let exponent := bits / 4503599627370496 % 2048
  let fraction := bits % 4503599627370496
  let negative : Bool := 9223372036854775808 ≤ bits
  let sign : Int := if negative then -1 else 1
  if exponent = 2047 then if fraction = 0 then .infinite negative else .nan
  else if exponent = 0 then .number (mkRat (sign * fraction) (2 ^ 1074))
  else .number (mkRat (sign * (fraction + 4503599627370496) * 2 ^ exponent) (2 ^ 1075))

example : ofBits 0x3ff8000000000000 = .number (3 / 2) ∧ ofBits 0xfff0000000000000 = .infinite true
    ∧ ofBits 0x7ff8000000000000 = .nan := by
  decide +kernel

/-- `operator==`. -/
def equal : Double → Double → Bool
  | number x, number y => x == y
  | infinite b, infinite c => b == c
  | _, _ => false

/-- `0 < x`. -/
def Positive : Double → Prop
  | number x => 0 < x
  | infinite negative => negative = false
  | nan => False

instance : DecidablePred Positive
  | number _ => inferInstanceAs (Decidable (_ < _))
  | infinite _ => inferInstanceAs (Decidable (_ = _))
  | nan => inferInstanceAs (Decidable False)

/-- The product with an integer above 0. It has no place that `x` does not have, so it is rounded
    as a normal number is. -/
def times (x : Double) (n : Nat) : Double :=
  match x with
  | number x => ofRat (x * n)
  | infinite negative => .infinite negative
  | nan => .nan

/-- A value is equal to itself exactly if it is not `nan`. -/
@[simp] theorem equal_self (x : Double) : x.equal x = true ↔ x ≠ nan := by
  cases x <;> simp [equal]

theorem positive_intCast {n : Int} (h : 0 < n) : Positive (n : Double) := by
  have hpos : (0 : Rat) < n := by exact_mod_cast h
  exact hpos

end Double

end SeastarLive

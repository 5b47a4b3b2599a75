/-
SeastarLive.Lib.BinaryRounding — numbers with so many binary digits.

`roundBinary p x` is the number with `p` significant binary digits next to `x`, and of two the
one with the even last digit: the result of an operation of a binary floating-point format with
`p` digits, where exponents are not at their limits.

* `abs_roundBinary_sub_le`: the relative error is `2 ^ (-p)` at most.
* `roundBinary_intCast`: an integer with `p` digits is one of these numbers.

Nothing here names a program.
-/
import Mathlib.Algebra.Order.Field.Power
import Mathlib.Algebra.Order.Floor.Ring
import Mathlib.Data.Int.Log
import Mathlib.Data.Rat.Floor
import Mathlib.Tactic.GCongr
import Mathlib.Tactic.Linarith
import Mathlib.Tactic.NormNum
import Mathlib.Tactic.Ring

namespace SeastarLive

/-! ## Integers -/

/-- The integer next to a number; of two, the even one. -/
def roundHalfEven (x : Rat) : Int :=
  if x - ⌊x⌋ < 1 / 2 then ⌊x⌋
  else if 1 / 2 < x - ⌊x⌋ then ⌊x⌋ + 1
  else if ⌊x⌋ % 2 = 0 then ⌊x⌋
  else ⌊x⌋ + 1

theorem roundHalfEven_intCast (n : Int) : roundHalfEven n = n := by
  unfold roundHalfEven
  rw [Int.floor_intCast, sub_self, if_pos (by norm_num)]

theorem abs_roundHalfEven_sub_le (x : Rat) : |(roundHalfEven x : Rat) - x| ≤ 1 / 2 := by
  have hfloor := Int.floor_le x
  have hlt := Int.lt_floor_add_one x
  unfold roundHalfEven
  rw [abs_le]
  split
  · constructor <;> linarith
  split
  · push_cast
    constructor <;> linarith
  split
  · constructor <;> linarith
  · push_cast
    constructor <;> linarith

/-! ## Significant digits -/

/-- The exponent of the last of the `p` digits of a number. -/
def lastPlace (p : Nat) (x : Rat) : Int := Int.log 2 |x| + 1 - p

/-- A number, rounded to `p` significant digits. -/
def roundBinary (p : Nat) (x : Rat) : Rat :=
  roundHalfEven (x / 2 ^ lastPlace p x) * 2 ^ lastPlace p x

@[simp] theorem roundBinary_zero (p : Nat) : roundBinary p 0 = 0 := by
  have hzero : roundHalfEven 0 = 0 := roundHalfEven_intCast 0
  rw [roundBinary, zero_div, hzero, Int.cast_zero, zero_mul]

/-- The error is half of the last place at most. -/
theorem abs_roundBinary_sub_le_half (p : Nat) (x : Rat) :
    |roundBinary p x - x| ≤ 2 ^ lastPlace p x / 2 := by
  have hpos : (0 : Rat) < 2 ^ lastPlace p x := zpow_pos two_pos _
  have hhalf := abs_roundHalfEven_sub_le (x / 2 ^ lastPlace p x)
  have hscaled : roundBinary p x - x
      = (roundHalfEven (x / 2 ^ lastPlace p x) - x / 2 ^ lastPlace p x) * 2 ^ lastPlace p x := by
    rw [roundBinary, sub_mul, div_mul_cancel₀ x hpos.ne']
  rw [hscaled, abs_mul, abs_of_pos hpos]
  calc |(roundHalfEven (x / 2 ^ lastPlace p x) : Rat) - x / 2 ^ lastPlace p x| * 2 ^ lastPlace p x
      ≤ 1 / 2 * 2 ^ lastPlace p x := mul_le_mul_of_nonneg_right hhalf hpos.le
    _ = 2 ^ lastPlace p x / 2 := by ring

/-- The last place against the number: it has the place of the first digit. -/
theorem two_zpow_lastPlace_le (p : Nat) {x : Rat} (hx : x ≠ 0) :
    (2 : Rat) ^ lastPlace p x ≤ 2 * |x| / 2 ^ p := by
  have hlog := Int.zpow_log_le_self (b := 2) (r := |x|) (by decide) (abs_pos.mpr hx)
  have hsplit : (2 : Rat) ^ lastPlace p x = 2 * 2 ^ Int.log 2 |x| / 2 ^ p := by
    rw [lastPlace, zpow_sub₀ two_ne_zero, zpow_add_one₀ two_ne_zero, zpow_natCast, mul_comm]
  rw [hsplit]
  gcongr
  exact_mod_cast hlog

/-- The relative error of a rounding. -/
theorem abs_roundBinary_sub_le (p : Nat) (x : Rat) : |roundBinary p x - x| ≤ |x| / 2 ^ p := by
  by_cases hx : x = 0
  · subst hx
    simp
  calc |roundBinary p x - x| ≤ 2 ^ lastPlace p x / 2 := abs_roundBinary_sub_le_half p x
    _ ≤ 2 * |x| / 2 ^ p / 2 := by
        gcongr
        exact two_zpow_lastPlace_le p hx
    _ = |x| / 2 ^ p := by ring

/-- An integer with `p` digits is not changed. -/
theorem roundBinary_intCast {p : Nat} {n : Int} (hn : |n| < 2 ^ p) :
    roundBinary p n = n := by
  by_cases hzero : n = 0
  · subst hzero
    simp
  -- the last place is not above that of the ones
  have hlog : Int.log 2 |(n : Rat)| < p := by
    have hlt : |(n : Rat)| < (2 : Nat) ^ (p : Int) := by
      rw [zpow_natCast]
      exact_mod_cast hn
    exact (Int.lt_zpow_iff_log_lt (by decide) (abs_pos.mpr (by exact_mod_cast hzero))).mp hlt
  obtain ⟨k, hk⟩ : ∃ k : Nat, lastPlace p n = -k :=
    ⟨(-lastPlace p n).toNat, by unfold lastPlace; omega⟩
  have hscaled : (n : Rat) / 2 ^ lastPlace p n = ((n * 2 ^ k : Int) : Rat) := by
    rw [hk, zpow_neg, zpow_natCast, div_inv_eq_mul]
    push_cast
    rfl
  have hpos : (2 : Rat) ^ lastPlace p n ≠ 0 := zpow_ne_zero _ two_ne_zero
  rw [roundBinary, hscaled, roundHalfEven_intCast, ← hscaled, div_mul_cancel₀ _ hpos]

end SeastarLive

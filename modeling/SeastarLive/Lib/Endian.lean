/-
SeastarLive.Lib.Endian — numbers as bytes, the most significant first.

`beBytes` and `beValue` are the reverse of `leBytes` and `leValue`.

Nothing here names a program.
-/
import SeastarLive.Lib.ByteMemory

namespace SeastarLive

open ByteMemory

theorem toNat_byte {n : Nat} (hn : n < 256) : (UInt8.ofNat n).toNat = n := by
  rw [UInt8.toNat_ofNat', Nat.mod_eq_of_lt hn]

/-- The low `w` bytes of a number, the highest first. -/
def beBytes (w n : Nat) : List UInt8 := (leBytes w n).reverse

/-- The number with these bytes. -/
def beValue (bytes : List UInt8) : Nat := leValue bytes.reverse

@[simp] theorem length_beBytes (w n : Nat) : (beBytes w n).length = w := by simp [beBytes]

/-- The high bytes, and the others behind them. -/
theorem beBytes_add (v w n : Nat) :
    beBytes (v + w) n = beBytes v (n / 256 ^ w) ++ beBytes w (n % 256 ^ w) := by
  rw [beBytes, Nat.add_comm, leBytes_add, List.reverse_append, ← leBytes_mod w n]
  rfl

theorem beValue_beBytes (w n : Nat) : beValue (beBytes w n) = n % 256 ^ w := by
  rw [beValue, beBytes, List.reverse_reverse, leValue_leBytes]

/-- A number that fits is read back, whatever follows it. -/
theorem beValue_take_beBytes {w n : Nat} (hn : n < 256 ^ w) (rest : List UInt8) :
    beValue ((beBytes w n ++ rest).take w) = n := by
  rw [List.take_left' (length_beBytes w n), beValue_beBytes, Nat.mod_eq_of_lt hn]

theorem leValue_take_leBytes {w n : Nat} (hn : n < 256 ^ w) (rest : List UInt8) :
    leValue ((leBytes w n ++ rest).take w) = n := by
  rw [List.take_left' (length_leBytes w n), leValue_leBytes, Nat.mod_eq_of_lt hn]

theorem leValue_lt (bytes : List UInt8) : leValue bytes < 256 ^ bytes.length := by
  induction bytes with
  | nil => decide
  | cons b bytes ih =>
      have hcons : leValue (b :: bytes) = b.toNat + 256 * leValue bytes := rfl
      have hb := b.toNat_lt
      rw [hcons, List.length_cons, Nat.pow_succ']
      omega

theorem beValue_lt (bytes : List UInt8) : beValue bytes < 256 ^ bytes.length := by
  have hlt := leValue_lt bytes.reverse
  rwa [List.length_reverse] at hlt

end SeastarLive

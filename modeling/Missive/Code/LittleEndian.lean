/-!
# Little-endian words

A number as a fixed count of bytes, the least significant byte first.
-/

namespace Missive.LittleEndian

/-- The lowest `width` bytes of a number. -/
def bytes : (width : Nat) → Nat → List UInt8
  | 0, _ => []
  | width + 1, n => UInt8.ofNat (n % 256) :: bytes width (n / 256)

/-- The number that a sequence of bytes stands for. -/
def value : List UInt8 → Nat
  | [] => 0
  | b :: rest => b.toNat + 256 * value rest

/-- A word of the given width has as many bytes. -/
@[simp] theorem length_bytes (width n : Nat) : (bytes width n).length = width := by
  induction width generalizing n with
  | zero => rfl
  | succ width ih => simp [bytes, ih]

/-- A number that fits in the width is read back from its bytes. -/
theorem value_bytes (width n : Nat) (fits : n < Nat.pow 256 width) :
    value (bytes width n) = n := by
  induction width generalizing n with
  | zero =>
    have isZero : n = 0 := Nat.lt_one_iff.mp fits
    simp [bytes, value, isZero]
  | succ width ih =>
    have quotientFits : n / 256 < Nat.pow 256 width :=
      Nat.div_lt_of_lt_mul (Nat.lt_of_lt_of_eq fits (Nat.mul_comm _ _))
    simp only [bytes, value, ih _ quotientFits, UInt8.toNat_ofNat']
    omega

end Missive.LittleEndian

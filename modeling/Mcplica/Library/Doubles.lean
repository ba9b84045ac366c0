import Mathlib.Algebra.Order.Field.Rat
import Mathlib.Algebra.Order.Floor.Ring
import Mathlib.Data.Int.Log
import Mathlib.Data.Rat.Floor
import Mathlib.Tactic.Linarith
import Mathlib.Tactic.NormNum
import Mathlib.Tactic.Positivity
import Mathlib.Tactic.Push
import Mathlib.Tactic.Ring

/-! # Doubles

Binary floating-point numbers of 53 significant bits as rational numbers, rounding to the nearest of them, and the
division by a positive number that rounds down. Infinity is left to the caller: no number is too large here. -/

namespace Mcplica.Library.Doubles

/-! ## Rounding -/

/-- The nearest whole number, and the even one of two. -/
def roundHalfEven (number : ℚ) : ℤ :=
  if number - ⌊number⌋ < 1 / 2 then ⌊number⌋
  else if 1 / 2 < number - ⌊number⌋ then ⌊number⌋ + 1
  else if ⌊number⌋ % 2 = 0 then ⌊number⌋
  else ⌊number⌋ + 1

/-- The doubles around the number are the multiples of two to this power. -/
def unitExponent (number : ℚ) : ℤ :=
  max (Int.log 2 |number| - 52) (-1074)

def unit (number : ℚ) : ℚ :=
  2 ^ unitExponent number

def nearest (number : ℚ) : ℚ :=
  roundHalfEven (number / unit number) * unit number

/-- A number that a double holds, if it is not too large. -/
def IsDouble (number : ℚ) : Prop :=
  ∃ mantissa exponent : ℤ, |mantissa| < 2 ^ 53 ∧ -1074 ≤ exponent ∧ number = mantissa * 2 ^ exponent

/-! ## Division -/

/-- The remainder of the division that rounds towards zero (`fmod`), which is exact. -/
def remainder (number divisor : ℚ) : ℚ :=
  number - (if 0 ≤ number then ⌊number / divisor⌋ else ⌈number / divisor⌉) * divisor

/-- The quotient before it is made whole. -/
def quotient (number divisor : ℚ) : ℚ :=
  let towardsZero := nearest (nearest (number - remainder number divisor) / divisor)
  if remainder number divisor < 0 then nearest (towardsZero - 1) else towardsZero

/-- The whole number below, or the next one where that is nearer. -/
def snap (number : ℚ) : ℚ :=
  if 1 / 2 < nearest (number - ⌊number⌋) then nearest (⌊number⌋ + 1) else ⌊number⌋

def floorDiv (number divisor : ℚ) : ℚ :=
  snap (quotient number divisor)

def floorMod (number divisor : ℚ) : ℚ :=
  if remainder number divisor < 0 then nearest (remainder number divisor + divisor) else remainder number divisor

/-! ## Whole numbers -/

section

variable {number divisor : ℚ} {count : ℤ}

end

end Mcplica.Library.Doubles

import Mathlib.Algebra.Order.Field.Rat
import Mathlib.Algebra.Order.Floor.Ring
import Mathlib.Tactic.Linarith
import Mathlib.Tactic.Push
import Mcplica.Runtime.Acceptance

/-! # Sampled numbers

The number that is tried for a schema with whole bounds, and when it lies within them. The bounds are rounded to doubles, and
the multiple that is tried is found by a division that may round. -/

namespace Mcplica.Runtime.Sampling

open Mcplica.Library Mcplica.Contracts
open Doubles (nearest IsDouble)

variable {tools : Tools} {root schema : JsonObject} {step : ℚ}

/-! ## The bounds of a schema -/

theorem Tried.multiple {number : ℚ} (tried : Tried schema step number) (multiple : ℚ)
    (isMultiple : bound schema "multipleOf" = some multiple) : ∃ times : ℤ, number = times * multiple := by
  unfold Tried at tried
  rw [isMultiple] at tried
  obtain ⟨-, times, -, isProduct⟩ := tried
  exact ⟨times, isProduct⟩

theorem WithinUpper.mono {rounded : ℚ → ℚ} {number other : ℚ} (within : WithinUpper rounded schema number)
    (less : other ≤ number) : WithinUpper rounded schema other :=
  ⟨fun limit isLimit => less.trans (within.maximum limit isLimit),
    fun limit isLimit => less.trans_lt (within.exclusiveMaximum limit isLimit)⟩

theorem WithinLower.mono {number other : ℚ} (within : WithinLower schema number) (less : number ≤ other) :
    WithinLower schema other :=
  ⟨fun limit isLimit => (within.minimum limit isLimit).trans less,
    fun limit isLimit => (within.exclusiveMinimum limit isLimit).trans_le less⟩

end Mcplica.Runtime.Sampling

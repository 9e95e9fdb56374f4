import Mathlib.Data.Rat.Defs
import Mathlib.Order.Monotone.Defs
import Mathlib.Algebra.Order.Ring.Rat
import Mathlib.Algebra.Order.Field.Rat

/-!
This module contains the part of floating point arithmetic that the comparison of a computed
quotient with a constant depends on: results are rounded, and rounding is monotone.
-/

/--
How a rational is rounded to single and to double precision. The instance `Rounding.exact` keeps
every rational as it is.
-/
structure Rounding where
  float : ℚ → ℚ
  double : ℚ → ℚ
  float_mono : Monotone float
  float_half : float (1 / 2) = 1 / 2

namespace Rounding

def exact : Rounding where
  float q := q
  double q := q
  float_mono := monotone_id
  float_half := rfl

@[simp]
theorem exact_float (q : ℚ) : exact.float q = q := rfl

theorem half_le_float (r : Rounding) {q : ℚ} (h : 1 / 2 ≤ q) : 1 / 2 ≤ r.float q := by
  rw [← r.float_half]
  exact r.float_mono h

end Rounding

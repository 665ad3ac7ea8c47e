/-
# A constant-product pool in whole numbers

A pool holds `x` of what is paid in and `y` of what is paid out.  After `d` has come in, it keeps
the quotient `x y / (x + d)` of the second reserve, rounded down, and pays out the rest.  What the
rounding drops is paid out too (`paid_mul`): the product of the reserves does not fall exactly
when nothing is dropped (`mul_le_iff`).
-/

import Mathlib.Algebra.Order.Field.Rat
import Mathlib.Tactic

namespace AatsSniper
namespace ConstantProduct

/-- What the pool keeps of the second reserve. -/
def kept (x y d : ℤ) : ℤ := Int.fdiv (x * y) (x + d)

/-- What the pool pays out. -/
def paid (x y d : ℤ) : ℤ := y - kept x y d

/-- What the rounding drops, in units of `1 / (x + d)`. -/
def dropped (x y d : ℤ) : ℤ := x * y % (x + d)

section Swap

variable {x y d : ℤ}

theorem kept_eq (hin : 0 < x + d) : kept x y d = x * y / (x + d) :=
  Int.fdiv_eq_ediv_of_nonneg _ hin.le

/-- The kept reserve and what was dropped make up the old product. -/
theorem kept_mul (hin : 0 < x + d) : kept x y d * (x + d) + dropped x y d = x * y := by
  rw [kept_eq hin]
  exact Int.ediv_mul_add_emod (x * y) (x + d)

/-- The pool pays the exact share and what was dropped. -/
theorem paid_mul (hin : 0 < x + d) : paid x y d * (x + d) = y * d + dropped x y d := by
  have hkept := kept_mul (y := y) hin
  have hsub : paid x y d * (x + d) = y * (x + d) - kept x y d * (x + d) := by
    rw [paid, Int.sub_mul]
  linarith

theorem dropped_nonneg (hin : 0 < x + d) : 0 ≤ dropped x y d :=
  Int.emod_nonneg _ hin.ne'

theorem dropped_eq_zero_iff : dropped x y d = 0 ↔ x + d ∣ x * y :=
  Int.dvd_iff_emod_eq_zero.symm

/-- Whatever comes in, something is paid for it. -/
theorem paid_pos (hx : 0 < x) (hy : 0 < y) (hd : 0 < d) : 0 < paid x y d := by
  have hin : 0 < x + d := by omega
  have hpaid := paid_mul (y := y) hin
  have hdropped := dropped_nonneg (y := y) hin
  have hshare : 0 < y * d := mul_pos hy hd
  refine pos_of_mul_pos_left (b := x + d) ?_ hin.le
  omega

/-- The product of the reserves does not fall exactly when nothing is dropped. -/
theorem mul_le_iff (hin : 0 < x + d) : x * y ≤ (x + d) * kept x y d ↔ x + d ∣ x * y := by
  have hkept := kept_mul (y := y) hin
  have hdropped := dropped_nonneg (y := y) hin
  rw [← dropped_eq_zero_iff, mul_comm (x + d)]
  constructor
  · intro h
    omega
  · intro h
    omega

end Swap

/-- A quotient in whole basis points. -/
theorem floor_bps {a b : ℤ} (hb : 0 < b) : ⌊(a / b * 10000 : ℚ)⌋ = 10000 * a / b := by
  lift b to ℕ using hb.le
  have hcast : (a / (b : ℤ) * 10000 : ℚ) = ((10000 * a : ℤ) : ℚ) / (b : ℕ) := by
    push_cast
    ring
  rw [hcast, Rat.floor_intCast_div_natCast]

end ConstantProduct
end AatsSniper

/-
# Square roots, and the twisted Edwards curve, over a field where `-1` is a square

Modulo a prime `q` that is 5 modulo 8, `2 ^ ((q - 1) / 4)` is a square root of `-1`
(`sq_two_pow`), and a number with a square root has `a ^ ((q + 3) / 8)` for one, or that times
the root of `-1` (`isSquare_iff_candidate`).

On the curve `-x² + y² = 1 + d x² y²`, where `d` is not a square, `y` determines `x²`
(`onEdwards_iff`): `d y² + 1` is never zero.  So a `y` belongs to a point where one
quotient is a square (`exists_onEdwards_iff`).
-/

import Mathlib.NumberTheory.LegendreSymbol.QuadraticReciprocity
import Mathlib.Tactic.FieldSimp
import Mathlib.Tactic.LinearCombination

namespace AatsSniper
namespace Edwards

/-- Half the order, by quarters. -/
theorem quarter {q : ℕ} (hq : q % 8 = 5) : (q - 1) / 4 * 2 = q / 2 := by omega

section Root

variable {q : ℕ} [Fact q.Prime]

/-- Two is not a square there, so its power is a square root of `-1`. -/
theorem sq_two_pow (hq : q % 8 = 5) : ((2 : ZMod q) ^ ((q - 1) / 4)) ^ 2 = -1 := by
  have hodd : q ≠ 2 := by omega
  have htwo : (2 : ZMod q) ≠ 0 := by
    intro hzero
    have hdvd : q ∣ 2 := (ZMod.natCast_eq_zero_iff 2 q).1 (by exact_mod_cast hzero)
    have hle := Nat.le_of_dvd (by decide) hdvd
    omega
  rw [← pow_mul, quarter hq]
  refine (ZMod.pow_div_two_eq_neg_one_or_one q htwo).resolve_left fun hone => ?_
  have hsquare : IsSquare (2 : ZMod q) := (ZMod.euler_criterion q htwo).2 hone
  rcases (ZMod.exists_sq_eq_two_iff hodd).1 hsquare with h | h <;> omega

/-- **The candidate of a square is a root of it, or becomes one times the root of `-1`.** -/
theorem isSquare_iff_candidate (hq : q % 8 = 5) {i : ZMod q} (hi : i ^ 2 = -1) (a : ZMod q) :
    IsSquare a ↔ (a ^ ((q + 3) / 8)) ^ 2 = a ∨ (a ^ ((q + 3) / 8) * i) ^ 2 = a := by
  constructor
  · intro hsquare
    by_cases hzero : a = 0
    · left
      subst hzero
      rw [zero_pow (by omega), zero_pow (by decide)]
    · -- `a ^ ((q - 1) / 4)` squares to one, and the candidate to `a` times it
      have hsq : (a ^ ((q + 3) / 8)) ^ 2 = a * a ^ ((q - 1) / 4) := by
        rw [← pow_mul, ← pow_succ']
        congr 1
        omega
      have heuler : (a ^ ((q - 1) / 4)) ^ 2 = 1 := by
        rw [← pow_mul, quarter hq]
        exact (ZMod.euler_criterion q hzero).1 hsquare
      rcases sq_eq_one_iff.1 heuler with h | h
      · left
        rw [hsq, h, mul_one]
      · right
        rw [mul_pow, hsq, h, hi]
        ring
  · rintro (h | h)
    · exact ⟨a ^ ((q + 3) / 8), by rw [← sq, h]⟩
    · exact ⟨a ^ ((q + 3) / 8) * i, by rw [← sq, h]⟩

end Root

section Curve

variable {K : Type*} [Field K] {d i x y : K}

/-- `-x² + y² = 1 + d x² y²`. -/
def OnEdwards (d x y : K) : Prop := -x ^ 2 + y ^ 2 = 1 + d * x ^ 2 * y ^ 2

/-- Otherwise `d` is the square of `i / y`. -/
theorem denominator_ne_zero (hi : i ^ 2 = -1) (hd : ¬ IsSquare d) (y : K) :
    d * y ^ 2 + 1 ≠ 0 := by
  intro hzero
  have hy : y ≠ 0 := by
    rintro rfl
    simp at hzero
  refine hd ⟨i / y, ?_⟩
  field_simp
  linear_combination hzero - hi

/-- **The equation solved for `x²`.** -/
theorem onEdwards_iff (hi : i ^ 2 = -1) (hd : ¬ IsSquare d) :
    OnEdwards d x y ↔ x ^ 2 = (y ^ 2 - 1) / (d * y ^ 2 + 1) := by
  rw [eq_div_iff (denominator_ne_zero hi hd y), OnEdwards]
  constructor
  · intro h
    linear_combination -h
  · intro h
    linear_combination -h

/-- A `y` belongs to a point where the quotient is a square. -/
theorem exists_onEdwards_iff (hi : i ^ 2 = -1) (hd : ¬ IsSquare d) :
    (∃ x, OnEdwards d x y) ↔ IsSquare ((y ^ 2 - 1) / (d * y ^ 2 + 1)) := by
  simp only [onEdwards_iff hi hd, isSquare_iff_exists_sq, eq_comm]

end Curve

end Edwards
end AatsSniper

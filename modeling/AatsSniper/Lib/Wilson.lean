/-
# The upper end of a Wilson score interval

For a proportion `p` of `n` trials and a score `z`, the upper end `upper n p z` is the larger root
in `u` of `n (u - p)² = z² u (1 - u)`.  A `u` at which the left side is at most the right one is
at most that root (`le_upper`), so two of these bounds are compared by putting the one into the
equation of the other.  That is how the bound is seen to grow with each miss: among as many trials
(`upper_le_of_miss`), and with a trial of its own (`upper_le_of_missed_trial`).
-/

import Mathlib.Analysis.Real.Sqrt
import Mathlib.Tactic

namespace AatsSniper
namespace Wilson

/-- The midpoint of the interval, times `1 + z² / n`. -/
noncomputable def centre (n p z : ℝ) : ℝ := p + z * z / (n + n)

/-- Half its width, times `1 + z² / n`. -/
noncomputable def margin (n p z : ℝ) : ℝ := z * √(p * (1 - p) / n + (z / (n + n)) ^ 2)

/-- The upper end. -/
noncomputable def upper (n p z : ℝ) : ℝ := (centre n p z + margin n p z) / (1 + z * z / n)

section Upper

variable {n p z u : ℝ}

theorem denominator_pos (hn : 0 < n) : 0 < 1 + z * z / n := by
  have hnonneg := div_nonneg (mul_self_nonneg z) hn.le
  linarith

/-- The quadratic, completed to a square. -/
theorem completed_square (hn : 0 < n) (hp₀ : 0 ≤ p) (hp₁ : p ≤ 1) :
    ((1 + z * z / n) * u - centre n p z) ^ 2 = margin n p z ^ 2 +
      (1 + z * z / n) * ((u - p) ^ 2 - z * z / n * (u * (1 - u))) := by
  have hroot : 0 ≤ p * (1 - p) / n + (z / (n + n)) ^ 2 :=
    add_nonneg (div_nonneg (mul_nonneg hp₀ (by linarith)) hn.le) (sq_nonneg _)
  have hmargin : margin n p z ^ 2 = z ^ 2 * (p * (1 - p) / n + (z / (n + n)) ^ 2) := by
    rw [margin, mul_pow, Real.sq_sqrt hroot]
  rw [hmargin, centre, ← two_mul]
  field_simp
  ring

/-- The upper end is a root. -/
theorem upper_root (hn : 0 < n) (hp₀ : 0 ≤ p) (hp₁ : p ≤ 1) :
    n * (upper n p z - p) ^ 2 = z * z * (upper n p z * (1 - upper n p z)) := by
  have hdenom : 0 < 1 + z * z / n := denominator_pos hn
  have hsquare := completed_square (z := z) (u := upper n p z) hn hp₀ hp₁
  have hvertex : (1 + z * z / n) * upper n p z - centre n p z = margin n p z := by
    rw [upper, mul_div_cancel₀ _ hdenom.ne']
    ring
  rw [hvertex] at hsquare
  have hzero : (upper n p z - p) ^ 2 - z * z / n * (upper n p z * (1 - upper n p z)) = 0 := by
    have hprod : (1 + z * z / n) *
        ((upper n p z - p) ^ 2 - z * z / n * (upper n p z * (1 - upper n p z))) = 0 := by
      linarith
    exact (mul_eq_zero.1 hprod).resolve_left hdenom.ne'
  have hscaled := congrArg (n * ·) hzero
  simp only [mul_sub, mul_zero] at hscaled
  have hcancel : n * (z * z / n * (upper n p z * (1 - upper n p z))) =
      z * z * (upper n p z * (1 - upper n p z)) := by
    field_simp
  linarith

/-- It is the larger one. -/
theorem le_upper (hn : 0 < n) (hp₀ : 0 ≤ p) (hp₁ : p ≤ 1) (hz : 0 ≤ z)
    (h : n * (u - p) ^ 2 ≤ z * z * (u * (1 - u))) : u ≤ upper n p z := by
  have hdenom : 0 < 1 + z * z / n := denominator_pos hn
  have hsquare := completed_square (z := z) (u := u) hn hp₀ hp₁
  have hnonpos : (u - p) ^ 2 - z * z / n * (u * (1 - u)) ≤ 0 := by
    have hscaled : (u - p) ^ 2 ≤ z * z * (u * (1 - u)) / n := by
      rw [le_div_iff₀ hn]
      linarith
    have heq : z * z / n * (u * (1 - u)) = z * z * (u * (1 - u)) / n := by ring
    linarith
  have hmargin : 0 ≤ margin n p z := mul_nonneg hz (Real.sqrt_nonneg _)
  have hle : ((1 + z * z / n) * u - centre n p z) ^ 2 ≤ margin n p z ^ 2 := by
    have := mul_nonpos_of_nonneg_of_nonpos hdenom.le hnonpos
    linarith
  have habs := abs_le_of_sq_le_sq' hle hmargin
  rw [upper, le_div_iff₀ hdenom]
  linarith [habs.2]

/-- The proportion itself is below it. -/
theorem proportion_le_upper (hn : 0 < n) (hp₀ : 0 ≤ p) (hp₁ : p ≤ 1) (hz : 0 ≤ z) :
    p ≤ upper n p z := by
  refine le_upper hn hp₀ hp₁ hz ?_
  have : 0 ≤ z * z * (p * (1 - p)) :=
    mul_nonneg (mul_self_nonneg z) (mul_nonneg hp₀ (by linarith))
  simpa using this

theorem upper_nonneg (hn : 0 < n) (hp₀ : 0 ≤ p) (hp₁ : p ≤ 1) (hz : 0 ≤ z) :
    0 ≤ upper n p z :=
  hp₀.trans (proportion_le_upper hn hp₀ hp₁ hz)

/-- Past 1 the quadratic has no root. -/
theorem upper_le_one (hn : 0 < n) (hp₀ : 0 ≤ p) (hp₁ : p ≤ 1) (hz : 0 ≤ z) :
    upper n p z ≤ 1 := by
  by_contra hgt
  have hroot := upper_root (z := z) hn hp₀ hp₁
  have hgap : 0 < upper n p z - p := by linarith
  have hleft : 0 < n * (upper n p z - p) ^ 2 := mul_pos hn (pow_pos hgap 2)
  have hright : z * z * (upper n p z * (1 - upper n p z)) ≤ 0 :=
    mul_nonpos_of_nonneg_of_nonpos (mul_self_nonneg z)
      (mul_nonpos_of_nonneg_of_nonpos (upper_nonneg hn hp₀ hp₁ hz) (by linarith))
  linarith

end Upper

section Counts

variable {n m z : ℝ}

/-- A bound of `m` misses is at most one with another proportion `p` of other trials `n'`, when
it is below `p`, or no further from it in the measure of the equations. -/
theorem upper_le_upper {n' p p' : ℝ} (hn : 0 < n) (hp₀ : 0 ≤ p) (hp₁ : p ≤ 1) (hn' : 0 < n')
    (hp₀' : 0 ≤ p') (hp₁' : p' ≤ 1) (hz : 0 ≤ z)
    (h : p' ≤ upper n p z →
      n' * (upper n p z - p') ^ 2 ≤ n * (upper n p z - p) ^ 2) :
    upper n p z ≤ upper n' p' z := by
  rcases le_total (upper n p z) p' with hle | hle
  · exact hle.trans (proportion_le_upper hn' hp₀' hp₁' hz)
  · refine le_upper hn' hp₀' hp₁' hz ?_
    rw [← upper_root hn hp₀ hp₁]
    exact h hle

/-- One more miss among as many trials. -/
theorem upper_le_of_miss (hm : 0 ≤ m) (hmn : m + 1 ≤ n) (hz : 0 ≤ z) :
    upper n (m / n) z ≤ upper n ((m + 1) / n) z := by
  have hn : 0 < n := by linarith
  have hp₁ : m / n ≤ 1 := (div_le_one hn).2 (by linarith)
  have hp₁' : (m + 1) / n ≤ 1 := (div_le_one hn).2 hmn
  have hgrows : m / n ≤ (m + 1) / n := div_le_div_of_nonneg_right (by linarith) hn.le
  refine upper_le_upper hn (div_nonneg hm hn.le) hp₁ hn (div_nonneg (by linarith) hn.le) hp₁' hz
    fun hle => ?_
  exact mul_le_mul_of_nonneg_left
    (pow_le_pow_left₀ (sub_nonneg.2 hle) (sub_le_sub_left hgrows _) 2) hn.le

/-- One more trial, and it is missed. -/
theorem upper_le_of_missed_trial (hn : 0 < n) (hm : 0 ≤ m) (hmn : m ≤ n) (hz : 0 ≤ z) :
    upper n (m / n) z ≤ upper (n + 1) ((m + 1) / (n + 1)) z := by
  have hn' : 0 < n + 1 := by linarith
  have hp₀ : 0 ≤ m / n := div_nonneg hm hn.le
  have hp₁ : m / n ≤ 1 := (div_le_one hn).2 hmn
  have hp₁' : (m + 1) / (n + 1) ≤ 1 := (div_le_one hn').2 (by linarith)
  refine upper_le_upper hn hp₀ hp₁ hn' (div_nonneg (by linarith) hn'.le) hp₁' hz fun hle => ?_
  set u := upper n (m / n) z with hu
  -- the distance to the new proportion, times the trials, is the old one less `1 - u`
  have hnew : (n + 1) * (u - (m + 1) / (n + 1)) = n * (u - m / n) - (1 - u) := by
    field_simp
    ring
  have hle₁ : u ≤ 1 := upper_le_one hn hp₀ hp₁ hz
  have hnonneg : 0 ≤ (n + 1) * (u - (m + 1) / (n + 1)) :=
    mul_nonneg hn'.le (sub_nonneg.2 hle)
  have hshrinks : (n + 1) * (u - (m + 1) / (n + 1)) ≤ n * (u - m / n) := by linarith
  have hfarther : u - (m + 1) / (n + 1) ≤ u - m / n := by
    refine sub_le_sub_left ?_ u
    rw [div_le_div_iff₀ hn hn']
    linarith
  calc (n + 1) * (u - (m + 1) / (n + 1)) ^ 2
      = (n + 1) * (u - (m + 1) / (n + 1)) * (u - (m + 1) / (n + 1)) := by ring
    _ ≤ n * (u - m / n) * (u - m / n) :=
        mul_le_mul hshrinks hfarther (sub_nonneg.2 hle) (hnonneg.trans hshrinks)
    _ = n * (u - m / n) ^ 2 := by ring

end Counts

end Wilson
end AatsSniper

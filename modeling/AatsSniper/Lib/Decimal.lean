/-
# Decimal arithmetic in Python's default context

A finite `Decimal` is a rational.  An operation computes the exact result and rounds
it to 28 significant digits, ties to even (`Decimal.round`); a result that has
no more digits than that is exact (`Decimal.round_eq_self`), and rounding does not
pass a number that has no more digits than that (`Decimal.round_le`).  `int(...)` truncates
towards zero, within one of the exact result (`Decimal.truncate_round`), and so does `quantize` under `ROUND_DOWN`, which refuses a result of
more than 28 digits.

The exponent is unbounded here: the context's own limit, 10⁶ digits, is not modelled.
-/

import Mathlib.Data.Int.Log
import Mathlib.Data.Rat.Floor
import Mathlib.Tactic.FieldSimp
import Mathlib.Tactic.NormNum

namespace AatsSniper

/-- `int(q)`: towards zero. -/
def truncate (q : ℚ) : ℤ := if 0 ≤ q then ⌊q⌋ else ⌈q⌉

theorem truncate_of_nonneg {q : ℚ} (h : 0 ≤ q) : truncate q = ⌊q⌋ := if_pos h

theorem truncate_mono {x y : ℚ} (hx : 0 ≤ x) (h : x ≤ y) : truncate x ≤ truncate y := by
  rw [truncate_of_nonneg hx, truncate_of_nonneg (hx.trans h)]
  exact Int.floor_mono h

/-- What is at most a whole number truncates to at most that. -/
theorem truncate_le {q : ℚ} {n : ℤ} (h : q ≤ n) : truncate q ≤ n := by
  unfold truncate
  split_ifs
  · exact_mod_cast (Int.floor_le q).trans h
  · exact Int.ceil_le.2 h

/-- What is at least a whole number truncates to at least that. -/
theorem le_truncate {q : ℚ} {n : ℤ} (h : n ≤ q) : n ≤ truncate q := by
  unfold truncate
  split_ifs
  · exact Int.le_floor.2 h
  · exact_mod_cast h.trans (Int.le_ceil q)

/-- Truncation stays between two whole numbers. -/
theorem truncate_mem {q : ℚ} {n : ℤ} (hle : (n : ℚ) ≤ q) (hlt : q ≤ n + 1) :
    n ≤ truncate q ∧ truncate q ≤ n + 1 := by
  have hup : q ≤ ((n + 1 : ℤ) : ℚ) := by push_cast; exact hlt
  exact ⟨le_truncate hle, truncate_le hup⟩

namespace Decimal

/-- The nearest integer, ties to even. -/
def halfEven (q : ℚ) : ℤ :=
  if Int.fract q < 1 / 2 ∨ Int.fract q = 1 / 2 ∧ ⌊q⌋ % 2 = 0 then ⌊q⌋ else ⌊q⌋ + 1

theorem halfEven_intCast (n : ℤ) : halfEven (n : ℚ) = n := by
  simp [halfEven]

/-- The weight of the last of the 28 digits of `q`. -/
def unit (q : ℚ) : ℚ := 10 ^ (Int.log 10 |q| - 27)

theorem unit_pos (q : ℚ) : 0 < unit q := zpow_pos (by norm_num) _

/-- Rounding to 28 significant digits. -/
def round (q : ℚ) : ℚ := halfEven (q / unit q) * unit q

/-- `x * y`. -/
def mul (x y : ℚ) : ℚ := round (x * y)

/-- `x - y`. -/
def sub (x y : ℚ) : ℚ := round (x - y)

/-- `x / y`. -/
def div (x y : ℚ) : ℚ := round (x / y)

/-- `x.quantize(Decimal("0.1"), rounding=ROUND_DOWN)`; `none` where it raises
`InvalidOperation`. -/
def quantizeTenths (x : ℚ) : Option ℚ :=
  if |truncate (x * 10)| < 10 ^ 28 then some (truncate (x * 10) / 10) else none

/-- The rational has at most 28 significant digits. -/
def Fits (q : ℚ) : Prop := ∃ (m k : ℤ), |m| < 10 ^ 28 ∧ q = m * (10 : ℚ) ^ k

theorem Fits.div_hundred {q : ℚ} (h : Fits q) : Fits (q / 100) := by
  obtain ⟨m, k, hm, rfl⟩ := h
  refine ⟨m, k - 2, hm, ?_⟩
  rw [zpow_sub₀ (by norm_num)]
  norm_num
  ring

/-- A number that fits is a whole number of its last digit's weight. -/
theorem Fits.div_unit {q : ℚ} (h : Fits q) : ∃ n : ℤ, q / unit q = n := by
  obtain ⟨m, k, hm, hq⟩ := h
  rcases eq_or_ne q 0 with rfl | hne
  · exact ⟨0, by simp⟩
  · -- the leading digit of `q` is at most 28 places above `10 ^ k`
    have hle : (10 : ℚ) ^ Int.log 10 |q| ≤ |q| := by
      have := Int.zpow_log_le_self (b := 10) (by norm_num) (abs_pos.2 hne)
      simpa using this
    have hlt : |q| < (10 : ℚ) ^ (28 + k) := by
      have hpow : (0 : ℚ) < 10 ^ k := zpow_pos (by norm_num) _
      have hmq : |(m : ℚ)| < 10 ^ (28 : ℤ) := by exact_mod_cast hm
      rw [hq, abs_mul, abs_of_pos hpow, zpow_add₀ (by norm_num)]
      exact mul_lt_mul_of_pos_right hmq hpow
    have hlog : Int.log 10 |q| < 28 + k :=
      (zpow_lt_zpow_iff_right₀ (by norm_num : (1 : ℚ) < 10)).1 (hle.trans_lt hlt)
    obtain ⟨n, hn⟩ : ∃ n : ℕ, k - (Int.log 10 |q| - 27) = n :=
      ⟨(k - (Int.log 10 |q| - 27)).toNat, (Int.toNat_of_nonneg (by omega)).symm⟩
    have hshift : (10 : ℚ) ^ k / unit q = 10 ^ n := by
      rw [unit, ← zpow_sub₀ (by norm_num), hn, zpow_natCast]
    refine ⟨m * 10 ^ n, ?_⟩
    push_cast
    rw [← hshift, ← mul_div_assoc, ← hq]

/-- **A result that fits is exact.** -/
theorem round_eq_self {q : ℚ} (h : Fits q) : round q = q := by
  obtain ⟨n, hquot⟩ := h.div_unit
  have hpos := unit_pos q
  unfold round
  rw [hquot, halfEven_intCast, ← hquot]
  field_simp

/-- The nearest integer is at most every integer above. -/
theorem halfEven_le {q : ℚ} {n : ℤ} (h : q ≤ n) : halfEven q ≤ n := by
  have hfloor : ⌊q⌋ ≤ n := by
    have := Int.floor_le q
    exact_mod_cast this.trans h
  unfold halfEven
  split_ifs with hnear
  · exact hfloor
  · by_contra hlt
    have heq : ⌊q⌋ = n := by omega
    have hq : q = n := le_antisymm h (heq ▸ Int.floor_le q)
    exact hnear (.inl (by rw [hq, Int.fract_intCast]; norm_num))

/-- **Rounding does not pass a number that fits.** -/
theorem round_le {x y : ℚ} (hx : 0 ≤ x) (hxy : x ≤ y) (hy : Fits y) : round x ≤ y := by
  rcases hx.eq_or_lt with rfl | hpos
  · simpa [round, halfEven] using hxy
  · have hypos := hpos.trans_le hxy
    obtain ⟨n, hn⟩ := hy.div_unit
    -- `y` is a whole number of `unit y`, which is a power of ten times `unit x`
    have hlog : Int.log 10 |x| ≤ Int.log 10 |y| := by
      rw [abs_of_pos hpos, abs_of_pos hypos]
      exact Int.log_mono_right hpos hxy
    obtain ⟨k, hk⟩ : ∃ k : ℕ, Int.log 10 |y| - Int.log 10 |x| = k :=
      ⟨(Int.log 10 |y| - Int.log 10 |x|).toNat, (Int.toNat_of_nonneg (by omega)).symm⟩
    have hunits : unit y = 10 ^ k * unit x := by
      rw [unit, unit, ← zpow_natCast, ← hk, ← zpow_add₀ (by norm_num)]
      congr 1
      ring
    have hunit := unit_pos x
    have hy' : y = ((n * 10 ^ k : ℤ) : ℚ) * unit x := by
      rw [div_eq_iff (unit_pos y).ne'] at hn
      rw [hn, hunits]
      push_cast
      ring
    have hquot : x / unit x ≤ ((n * 10 ^ k : ℤ) : ℚ) := by
      rw [div_le_iff₀ hunit, ← hy']
      exact hxy
    unfold round
    rw [hy']
    gcongr
    exact_mod_cast halfEven_le hquot

theorem round_nonpos {q : ℚ} (h : q ≤ 0) : round q ≤ 0 := by
  have hquot : q / unit q ≤ ((0 : ℤ) : ℚ) := by
    rw [Int.cast_zero]
    exact div_nonpos_of_nonpos_of_nonneg h (unit_pos q).le
  have hnear : (halfEven (q / unit q) : ℚ) ≤ 0 := by exact_mod_cast halfEven_le hquot
  exact mul_nonpos_of_nonpos_of_nonneg hnear (unit_pos q).le

theorem fits_of_int {n : ℤ} (h : |n| < 10 ^ 28) : Fits n := ⟨n, 0, h, by simp⟩

/-- The nearest integer is at least every integer below. -/
theorem le_halfEven {q : ℚ} {n : ℤ} (h : (n : ℚ) ≤ q) : n ≤ halfEven q := by
  have hfloor : n ≤ ⌊q⌋ := Int.le_floor.2 h
  unfold halfEven
  split_ifs
  · exact hfloor
  · exact hfloor.trans (Int.le_add_one le_rfl)

theorem halfEven_mono {q r : ℚ} (h : q ≤ r) : halfEven q ≤ halfEven r := by
  rcases (Int.floor_mono h).eq_or_lt with heq | hlt
  · -- between the same two integers only the fraction decides
    have hfract : Int.fract q ≤ Int.fract r := by
      have := Int.floor_add_fract q
      have := Int.floor_add_fract r
      rw [heq] at *
      linarith
    unfold halfEven
    rw [heq]
    split_ifs with hq hr
    · exact le_rfl
    · exact Int.le_add_one le_rfl
    · rename_i hr
      refine absurd ?_ hq
      rcases hr with hr | ⟨hr, heven⟩
      · exact .inl (hfract.trans_lt hr)
      · rcases hfract.eq_or_lt with hsame | hless
        · exact .inr ⟨hsame.trans hr, heven⟩
        · exact .inl (hless.trans_eq hr)
    · exact le_rfl
  · have hup : q ≤ ((⌊r⌋ : ℤ) : ℚ) := by
      have hq : q < ⌊q⌋ + 1 := Int.lt_floor_add_one q
      have hr : ((⌊q⌋ : ℤ) : ℚ) + 1 ≤ (⌊r⌋ : ℤ) := by exact_mod_cast hlt
      linarith
    exact (halfEven_le hup).trans (le_halfEven (Int.floor_le r))

/-- Rounding does not fall below a power of ten. -/
theorem zpow_le_round {k : ℤ} {y : ℚ} (h : (10 : ℚ) ^ k ≤ y) : (10 : ℚ) ^ k ≤ round y := by
  have hpow : (0 : ℚ) < 10 ^ k := zpow_pos (by norm_num) _
  have hlog : k ≤ Int.log 10 |y| := by
    rw [abs_of_pos (hpow.trans_le h)]
    calc k = Int.log 10 ((10 : ℚ) ^ k) := (Int.log_zpow (by norm_num) k).symm
      _ ≤ Int.log 10 y := Int.log_mono_right hpow h
  have hle : (10 : ℚ) ^ Int.log 10 |y| ≤ y := by
    have := Int.zpow_log_le_self (b := 10) (by norm_num) (abs_pos.2 (hpow.trans_le h).ne')
    rw [abs_of_pos (hpow.trans_le h)] at this ⊢
    simpa using this
  -- `y` is at least `10 ^ 27` times the weight of its last digit
  have hquot : ((10 ^ 27 : ℤ) : ℚ) ≤ y / unit y := by
    rw [le_div_iff₀ (unit_pos y), unit, zpow_sub₀ (by norm_num)]
    refine le_trans (le_of_eq ?_) hle
    push_cast
    field_simp
  have hround : (10 : ℚ) ^ Int.log 10 |y| ≤ round y := by
    unfold round
    calc (10 : ℚ) ^ Int.log 10 |y| = ((10 ^ 27 : ℤ) : ℚ) * unit y := by
          rw [unit, zpow_sub₀ (by norm_num)]
          push_cast
          field_simp
      _ ≤ halfEven (y / unit y) * unit y := by
          refine mul_le_mul_of_nonneg_right ?_ (unit_pos y).le
          exact_mod_cast le_halfEven hquot
  exact (zpow_le_zpow_right₀ (by norm_num) hlog).trans hround

/-- **Rounding keeps the order** of numbers that are not negative. -/
theorem round_mono {x y : ℚ} (hx : 0 ≤ x) (hxy : x ≤ y) : round x ≤ round y := by
  rcases hx.eq_or_lt with rfl | hpos
  · have hnear : (0 : ℚ) ≤ halfEven (y / unit y) := by
      have : (0 : ℤ) ≤ halfEven (y / unit y) :=
        le_halfEven (by simpa using div_nonneg hxy (unit_pos y).le)
      exact_mod_cast this
    have hzero : round 0 = 0 := round_eq_self ⟨0, 0, by norm_num, by norm_num⟩
    rw [hzero]
    exact mul_nonneg hnear (unit_pos y).le
  · have hlog : Int.log 10 x ≤ Int.log 10 y := Int.log_mono_right hpos hxy
    rcases hlog.eq_or_lt with heq | hlt
    · have hunit : unit x = unit y := by
        rw [unit, unit, abs_of_pos hpos, abs_of_pos (hpos.trans_le hxy), heq]
      unfold round
      rw [hunit]
      refine mul_le_mul_of_nonneg_right ?_ (unit_pos y).le
      exact_mod_cast halfEven_mono (div_le_div_of_nonneg_right hxy (unit_pos y).le)
    · -- a power of ten lies between them
      have hbelow : x ≤ (10 : ℚ) ^ (Int.log 10 x + 1) := by
        have := (Int.lt_zpow_succ_log_self (b := 10) (by norm_num) x).le
        simpa using this
      have habove : (10 : ℚ) ^ (Int.log 10 x + 1) ≤ y := by
        have := Int.zpow_log_le_self (b := 10) (by norm_num) (hpos.trans_le hxy)
        have hstep : (10 : ℚ) ^ (Int.log 10 x + 1) ≤ 10 ^ Int.log 10 y :=
          zpow_le_zpow_right₀ (by norm_num) (by omega)
        exact hstep.trans (by simpa using this)
      have hfits : Fits ((10 : ℚ) ^ (Int.log 10 x + 1)) :=
        ⟨1, Int.log 10 x + 1, by norm_num, by simp⟩
      exact (round_le hx hbelow hfits).trans (zpow_le_round habove)

/-- Below `10 ^ 28` the last of the 28 digits is a fraction of one. -/
theorem unit_eq_inv {q : ℚ} (h : |q| < 10 ^ 28) : ∃ k : ℕ, unit q = ((10 : ℚ) ^ k)⁻¹ := by
  have hlog : Int.log 10 |q| ≤ 27 := by
    rcases eq_or_ne q 0 with rfl | hne
    · simp
    · have hle : (10 : ℚ) ^ Int.log 10 |q| ≤ |q| := by
        have := Int.zpow_log_le_self (b := 10) (by norm_num) (abs_pos.2 hne)
        simpa using this
      have hlt : (10 : ℚ) ^ Int.log 10 |q| < 10 ^ (28 : ℤ) := hle.trans_lt (by exact_mod_cast h)
      have := (zpow_lt_zpow_iff_right₀ (by norm_num : (1 : ℚ) < 10)).1 hlt
      omega
  refine ⟨(27 - Int.log 10 |q|).toNat, ?_⟩
  rw [unit, ← zpow_natCast, Int.toNat_of_nonneg (by omega), ← zpow_neg, neg_sub]

/-- **`int` of a rounded number** is within one of it. -/
theorem truncate_round {q : ℚ} (h : |q| < 10 ^ 28) : |(truncate (round q) : ℚ) - q| ≤ 1 := by
  obtain ⟨k, hk⟩ := unit_eq_inv h
  have hquot : q / unit q = q * 10 ^ k := by rw [hk, div_inv_eq_mul]
  have hpow : (0 : ℚ) < 10 ^ k := by positivity
  have hle : ((⌊q⌋ : ℤ) : ℚ) ≤ q := Int.floor_le q
  have hlt : q < (⌊q⌋ : ℤ) + 1 := Int.lt_floor_add_one q
  -- whole numbers are whole numbers of the last digit
  have hlow : ⌊q⌋ * 10 ^ k ≤ halfEven (q / unit q) := by
    refine le_halfEven ?_
    rw [hquot]
    push_cast
    exact mul_le_mul_of_nonneg_right hle hpow.le
  have hhigh : halfEven (q / unit q) ≤ (⌊q⌋ + 1) * 10 ^ k := by
    refine halfEven_le ?_
    rw [hquot]
    push_cast
    exact mul_le_mul_of_nonneg_right hlt.le hpow.le
  have hround : round q = halfEven (q / unit q) / 10 ^ k := by
    unfold round
    rw [hk]
    exact (div_eq_mul_inv _ _).symm
  have hbelow : ((⌊q⌋ : ℤ) : ℚ) ≤ round q := by
    rw [hround, le_div_iff₀ hpow]
    exact_mod_cast hlow
  have habove : round q ≤ (⌊q⌋ : ℤ) + 1 := by
    rw [hround, div_le_iff₀ hpow]
    exact_mod_cast hhigh
  obtain ⟨hfrom, hto⟩ := truncate_mem hbelow habove
  have hfrom' : ((⌊q⌋ : ℤ) : ℚ) ≤ truncate (round q) := by exact_mod_cast hfrom
  have hto' : (truncate (round q) : ℚ) ≤ (⌊q⌋ : ℤ) + 1 := by exact_mod_cast hto
  rw [abs_le]
  constructor
  · linarith
  · linarith

end Decimal

end AatsSniper

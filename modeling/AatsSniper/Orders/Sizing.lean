/-
# Fractional-Kelly sizing

`FractionalKellySizer` of `aats/risk/sizing.py`: a fraction of the per-trade cap, at
most a quarter of Kelly, clamped to the per-trade cap and to what is left of the
aggregate cap.

Probabilities and uncertainties are the rationals that `Decimal(str(x))` prints.  All
products are rounded to 28 digits, as the pinned context of the module does; a product
that is close below a whole number of lamports is rounded up to it before it is
truncated.  So the size is at most the Kelly share of the per-trade cap rounded up to
a whole lamport (`size_le_ceil`), and at most the share itself where that has at most
28 digits (`size_le_share`).
-/

import AatsSniper.Breaker.Config
import Mathlib.Data.Int.ConditionallyCompleteOrder

namespace AatsSniper
namespace Orders

open Breaker (RiskConfig)

/-- What the sizer raises. -/
inductive SizingError
  | outOfUnit (field : String) (value : ℚ)
  | netOdds (value : ℚ)
  | negativeAggregate (value : ℤ)
  | factorExceedsOne
  | kellyCapExceeded
  deriving DecidableEq

/-- `_clamp_unit(x, field)`. -/
def clampUnit (x : ℚ) (field : String) : Except SizingError ℚ := do
  require (0 ≤ x ∧ x ≤ 1) (.outOfUnit field x)
  return x

/-- `DeRiskSignals`: factors in (0, 1]. -/
structure DeRiskSignals where
  sentimentFactor : ℚ := 1
  confidenceFactor : ℚ := 1
  sentiment_range : 0 < sentimentFactor ∧ sentimentFactor ≤ 1 := by norm_num
  confidence_range : 0 < confidenceFactor ∧ confidenceFactor ≤ 1 := by norm_num

/-- `DeRiskSignals()`: no de-risk. -/
def DeRiskSignals.none : DeRiskSignals := {}

/-- `_DEFAULT_NET_ODDS`. -/
def defaultNetOdds : ℚ := 1

/-- `combined_factor()`. -/
def DeRiskSignals.combinedFactor (s : DeRiskSignals) : Except SizingError ℚ := do
  let sentiment ← clampUnit s.sentimentFactor "sentiment_factor"
  let confidence ← clampUnit s.confidenceFactor "confidence_factor"
  let f := Decimal.mul sentiment confidence
  require (f ≤ 1) .factorExceedsOne
  return f

/-- `full_kelly_fraction(p_calibrated, net_odds)`. -/
def fullKellyFraction (pCalibrated netOdds : ℚ) : Except SizingError ℚ := do
  let p ← clampUnit pCalibrated "p_calibrated"
  require (0 < netOdds) (.netOdds netOdds)
  return Decimal.sub p (Decimal.div (Decimal.sub 1 p) netOdds)

/-- `binding_constraint`. -/
inductive Constraint
  | kelly
  | perTradeCap
  | aggregateCap
  | zeroEdge
  deriving DecidableEq

/-- `SizingDecision`: a negative size is refused. -/
structure SizingDecision where
  sizeLamports : ℤ
  fullKellyFraction : ℚ
  appliedKellyFraction : ℚ
  preCapLamports : ℤ
  bindingConstraint : Constraint
  nonneg : 0 ≤ sizeLamports

/-- A decision may be for nothing. -/
theorem SizingDecision.zero_nonneg : (0 : ℤ) ≤ 0 := le_rfl

section Size

variable (config : RiskConfig)

/-- `self._kelly_cap`. -/
def kellyCap : ℚ := min config.kellyFractionCap 0.25

/-- Steps 6 and 7 of `size`: the clamps, in whole lamports. -/
def capped (currentAggregate : ℤ) (full applied : ℚ) (preCap : ℤ) : SizingDecision :=
  let perTrade := config.perTradeCapLamports
  let (size, binding) :=
    if perTrade < preCap then (perTrade, Constraint.perTradeCap) else (preCap, .kelly)
  let remaining := max (config.maxAggregateLamports - currentAggregate) 0
  let (size, binding) :=
    if remaining < size then (remaining, Constraint.aggregateCap) else (size, binding)
  ⟨max size 0, full, applied, preCap, binding, le_max_right _ _⟩

/-- `size(p_calibrated=..., uncertainty=..., current_aggregate_lamports=..., signals, net_odds)`. -/
def size (pCalibrated uncertainty : ℚ) (currentAggregate : ℤ) (signals : DeRiskSignals)
    (netOdds : ℚ) : Except SizingError SizingDecision := do
  require (0 ≤ currentAggregate) (.negativeAggregate currentAggregate)
  let unc ← clampUnit uncertainty "uncertainty"
  let full ← fullKellyFraction pCalibrated netOdds
  if full ≤ 0 then return ⟨0, full, 0, 0, .zeroEdge, SizingDecision.zero_nonneg⟩
  let capFraction := Decimal.mul (kellyCap config) full
  let certain := Decimal.mul capFraction (Decimal.sub 1 unc)
  let factor ← signals.combinedFactor
  let applied := Decimal.mul certain factor
  require (applied ≤ kellyCap config) .kellyCapExceeded
  return capped config currentAggregate full applied
    (truncate (Decimal.mul config.perTradeCapLamports applied))

end Size

variable {config : RiskConfig} {p uncertainty : ℚ} {aggregate : ℤ} {signals : DeRiskSignals}
  {netOdds : ℚ} {d : SizingDecision}

/-- A size is zero, or a fraction of at most the Kelly cap of the per-trade cap, clamped. -/
theorem size_eq_ok (h : size config p uncertainty aggregate signals netOdds = .ok d) :
    d.sizeLamports = 0 ∨ ∃ full applied, applied ≤ kellyCap config ∧
      d = capped config aggregate full applied
        (truncate (Decimal.mul config.perTradeCapLamports applied)) := by
  unfold size at h
  obtain ⟨-, h⟩ := ok_of_require h
  obtain ⟨unc, -, h⟩ := ok_of_bind h
  obtain ⟨full, -, h⟩ := ok_of_bind h
  split_ifs at h with hfull
  · obtain rfl := Except.ok.inj h
    exact .inl rfl
  · obtain ⟨factor, -, h⟩ := ok_of_bind h
    obtain ⟨hcap, h⟩ := ok_of_require h
    obtain rfl := Except.ok.inj h
    exact .inr ⟨full, _, hcap, rfl⟩

theorem capped_le {full applied : ℚ} {preCap : ℤ} :
    (capped config aggregate full applied preCap).sizeLamports ≤
        max (config.maxAggregateLamports - aggregate) 0 ∧
      (0 < (capped config aggregate full applied preCap).sizeLamports →
        (capped config aggregate full applied preCap).sizeLamports ≤ preCap ∧
          (capped config aggregate full applied preCap).sizeLamports ≤
            config.perTradeCapLamports) := by
  unfold capped
  dsimp only
  split_ifs <;> dsimp only <;> omega

/-- **A size fits in what is left of the aggregate cap.** -/
theorem size_le_remaining (h : size config p uncertainty aggregate signals netOdds = .ok d) :
    d.sizeLamports ≤ max (config.maxAggregateLamports - aggregate) 0 := by
  obtain hzero | ⟨full, applied, -, rfl⟩ := size_eq_ok h
  · rw [hzero]
    exact le_max_right _ _
  · exact capped_le.1

/-- The Kelly share of the per-trade cap. -/
def kellyShare (config : RiskConfig) : ℚ := config.perTradeCapLamports * kellyCap config

/-- A size is at most every number of 28 digits that the Kelly share does not pass. -/
theorem size_le_of_fits (h : size config p uncertainty aggregate signals netOdds = .ok d)
    (hpos : 0 < d.sizeLamports) {y : ℚ} (hy : Decimal.Fits y) (hshare : kellyShare config ≤ y) :
    (d.sizeLamports : ℚ) ≤ y := by
  obtain hzero | ⟨full, applied, hcap, rfl⟩ := size_eq_ok h
  · omega
  · obtain ⟨hpre, htrade⟩ := capped_le.2 hpos
    have htrade' : (0 : ℚ) < config.perTradeCapLamports := by exact_mod_cast hpos.trans_le htrade
    set product : ℚ := config.perTradeCapLamports * applied with hproduct
    have hpos' : 0 < Decimal.round product := by
      by_contra hneg
      have htrunc : truncate (Decimal.round product) ≤ 0 := by
        unfold truncate
        split_ifs with hzero
        · rw [le_antisymm (not_lt.1 hneg) hzero, Int.floor_zero]
        · exact Int.ceil_le.2 (by exact_mod_cast not_lt.1 hneg)
      have := hpos.trans_le (hpre.trans htrunc)
      omega
    have hproduct_pos : 0 ≤ product := by
      by_contra hneg
      exact absurd (Decimal.round_nonpos (not_le.1 hneg).le) (not_le.2 hpos')
    calc ((capped config aggregate full applied _).sizeLamports : ℚ)
        ≤ (truncate (Decimal.round product) : ℚ) := by exact_mod_cast hpre
      _ = (⌊Decimal.round product⌋ : ℚ) := by rw [truncate_of_nonneg hpos'.le]
      _ ≤ Decimal.round product := Int.floor_le _
      _ ≤ y := Decimal.round_le hproduct_pos
          ((mul_le_mul_of_nonneg_left hcap htrade'.le).trans hshare) hy

theorem kellyCap_le : kellyCap config ≤ 0.25 := min_le_right _ _

theorem perTradeCap_le : config.perTradeCapLamports ≤ 100000000 := by
  have h := config.valid
  unfold Breaker.RiskParams.floorInvariants at h
  exact (ok_of_require h).1

/-- The limits keep the Kelly share of a positive per-trade cap small. -/
theorem kellyShare_le (hpos : 0 < config.perTradeCapLamports) : kellyShare config ≤ 25000000 := by
  have hcap : (config.perTradeCapLamports : ℚ) ≤ 100000000 := by exact_mod_cast perTradeCap_le
  have hpos' : (0 : ℚ) < config.perTradeCapLamports := by exact_mod_cast hpos
  have hkelly : kellyCap config ≤ 0.25 := kellyCap_le
  unfold kellyShare
  nlinarith

/-- **A size is at most the Kelly share of the per-trade cap, rounded up to a whole lamport.** -/
theorem size_le_ceil (h : size config p uncertainty aggregate signals netOdds = .ok d)
    (hpos : 0 < d.sizeLamports) : d.sizeLamports ≤ ⌈kellyShare config⌉ := by
  have htrade : 0 < config.perTradeCapLamports := by
    obtain hzero | ⟨full, applied, -, rfl⟩ := size_eq_ok h
    · omega
    · exact hpos.trans_le (capped_le.2 hpos).2
  have hupper : ⌈kellyShare config⌉ ≤ 25000000 :=
    Int.ceil_le.2 (by exact_mod_cast kellyShare_le htrade)
  -- a share far below zero rounds up to a number of many digits, but then nothing is sized
  rcases le_or_gt (-1) ⌈kellyShare config⌉ with hlower | hneg
  · have hfits : Decimal.Fits (⌈kellyShare config⌉ : ℚ) := by
      refine Decimal.fits_of_int (abs_lt.2 ⟨?_, ?_⟩)
      · norm_num
        omega
      · norm_num
        omega
    exact_mod_cast size_le_of_fits h hpos hfits (Int.le_ceil _)
  · have hzero : kellyShare config ≤ ((0 : ℤ) : ℚ) := by
      exact (Int.le_ceil _).trans (by exact_mod_cast (by omega : ⌈kellyShare config⌉ ≤ 0))
    have hle := size_le_of_fits h hpos (Decimal.fits_of_int (by norm_num)) hzero
    have : d.sizeLamports ≤ 0 := by exact_mod_cast hle
    omega

/-- At most the share itself, where that has at most 28 digits. -/
theorem size_le_share (h : size config p uncertainty aggregate signals netOdds = .ok d)
    (hpos : 0 < d.sizeLamports) (hfits : Decimal.Fits (kellyShare config)) :
    (d.sizeLamports : ℚ) ≤ kellyShare config :=
  size_le_of_fits h hpos hfits le_rfl

end Orders
end AatsSniper

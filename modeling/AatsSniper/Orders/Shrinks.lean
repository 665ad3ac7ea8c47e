/-
# Sizing only shrinks

`FractionalKellySizer.size` multiplies the Kelly fraction by a cap, a haircut and the
de-risk factors, floors the share of the per-trade cap and clamps it twice.  Each
factor is non-negative and moves one way in each argument, so the size does too
(`lamports_mono`), across the early return for no edge; and the size is at most the
Kelly share of the per-trade cap and what is left of the aggregate cap
(`lamports_bounds`).

Both are proved for every rounding that keeps the order of non-negative numbers and
leaves 0, 1 and the Kelly cap alone: of these `id` is exact arithmetic, and
`Decimal.round` the context of the sizer, with `sizeBy_round` the model of
`Orders.Sizing`.
-/

import AatsSniper.Orders.Sizing

namespace AatsSniper
namespace Orders

open Breaker (RiskConfig)

section Sizer

variable (rnd : ℚ → ℚ)

/-- `combined_factor()`. -/
def DeRiskSignals.combinedFactorBy (s : DeRiskSignals) : Except SizingError ℚ := do
  let sentiment ← clampUnit s.sentimentFactor "sentiment_factor"
  let confidence ← clampUnit s.confidenceFactor "confidence_factor"
  let f := rnd (sentiment * confidence)
  require (f ≤ 1) .factorExceedsOne
  return f

/-- `full_kelly_fraction(p_calibrated, net_odds)`. -/
def fullKellyFractionBy (pCalibrated netOdds : ℚ) : Except SizingError ℚ := do
  let p ← clampUnit pCalibrated "p_calibrated"
  require (0 < netOdds) (.netOdds netOdds)
  return rnd (p - rnd (rnd (1 - p) / netOdds))

/-- `size(p_calibrated=..., uncertainty=..., current_aggregate_lamports=..., signals, net_odds)`. -/
def sizeBy (config : RiskConfig) (pCalibrated uncertainty : ℚ) (currentAggregate : ℤ)
    (signals : DeRiskSignals) (netOdds : ℚ) : Except SizingError SizingDecision := do
  require (0 ≤ currentAggregate) (.negativeAggregate currentAggregate)
  let unc ← clampUnit uncertainty "uncertainty"
  let full ← fullKellyFractionBy rnd pCalibrated netOdds
  if full ≤ 0 then return ⟨0, full, 0, 0, .zeroEdge, SizingDecision.zero_nonneg⟩
  let capFraction := rnd (kellyCap config * full)
  let certain := rnd (capFraction * rnd (1 - unc))
  let factor ← signals.combinedFactorBy rnd
  let applied := rnd (certain * factor)
  require (applied ≤ kellyCap config) .kellyCapExceeded
  return capped config currentAggregate full applied
    (truncate (rnd (config.perTradeCapLamports * applied)))

end Sizer

theorem sizeBy_round (config : RiskConfig) (p uncertainty : ℚ) (aggregate : ℤ)
    (signals : DeRiskSignals) (netOdds : ℚ) :
    sizeBy Decimal.round config p uncertainty aggregate signals netOdds =
      size config p uncertainty aggregate signals netOdds := rfl

/-- The arguments of `size` that it does not refuse. -/
structure SizingInputs where
  pCalibrated : ℚ
  uncertainty : ℚ
  currentAggregate : ℤ
  signals : DeRiskSignals
  netOdds : ℚ
  p_range : 0 ≤ pCalibrated ∧ pCalibrated ≤ 1
  uncertainty_range : 0 ≤ uncertainty ∧ uncertainty ≤ 1
  aggregate_nonneg : 0 ≤ currentAggregate
  odds_pos : 0 < netOdds

/-- The size for admissible arguments. -/
def SizingInputs.sizeBy (rnd : ℚ → ℚ) (config : RiskConfig) (i : SizingInputs) :
    Except SizingError SizingDecision :=
  Orders.sizeBy rnd config i.pCalibrated i.uncertainty i.currentAggregate i.signals i.netOdds

/-- No argument of `i` speaks more for the trade than that of `j`. -/
structure NoBolder (i j : SizingInputs) : Prop where
  uncertainty : j.uncertainty ≤ i.uncertainty
  aggregate : j.currentAggregate ≤ i.currentAggregate
  sentiment : i.signals.sentimentFactor ≤ j.signals.sentimentFactor
  confidence : i.signals.confidenceFactor ≤ j.signals.confidenceFactor
  p : i.pCalibrated ≤ j.pCalibrated
  odds : i.netOdds ≤ j.netOdds

/-- A rounding that keeps the order of non-negative numbers and leaves 0, 1 and `cap` alone. -/
structure Rounding (rnd : ℚ → ℚ) (cap : ℚ) : Prop where
  mono : ∀ x y, 0 ≤ x → x ≤ y → rnd x ≤ rnd y
  nonpos : ∀ x ≤ 0, rnd x ≤ 0
  zero : rnd 0 = 0
  one : rnd 1 = 1
  cap : rnd cap = cap

theorem Rounding.id (cap : ℚ) : Rounding id cap where
  mono _ _ _ h := h
  nonpos _ h := h
  zero := rfl
  one := rfl
  cap := rfl

/-- The context's rounding leaves a Kelly cap of at most 28 digits alone. -/
theorem Rounding.decimal {cap : ℚ} (h : Decimal.Fits cap) : Rounding Decimal.round cap where
  mono _ _ hx hxy := Decimal.round_mono hx hxy
  nonpos _ hx := Decimal.round_nonpos hx
  zero := Decimal.round_eq_self ⟨0, 0, by norm_num, by norm_num⟩
  one := Decimal.round_eq_self ⟨1, 0, by norm_num, by norm_num⟩
  cap := Decimal.round_eq_self h

variable {rnd : ℚ → ℚ} {cap : ℚ} {config : RiskConfig} {i j : SizingInputs}

namespace Rounding

variable (hr : Rounding rnd cap)
include hr

theorem nonneg {x : ℚ} (hx : 0 ≤ x) : 0 ≤ rnd x :=
  hr.zero.symm.le.trans (hr.mono 0 x le_rfl hx)

theorem le_one {x : ℚ} (hx : 0 ≤ x) (h : x ≤ 1) : rnd x ≤ 1 := (hr.mono x 1 hx h).trans hr.one.le

/-- A factor of at most 1 does not raise the cap. -/
theorem le_cap {x y : ℚ} (hx : 0 ≤ x) (hxcap : x ≤ cap) (hy : 0 ≤ y) (hyone : y ≤ 1) :
    rnd (x * y) ≤ cap := by
  have hxy : x * y ≤ cap := (mul_le_of_le_one_right hx hyone).trans hxcap
  exact (hr.mono _ cap (mul_nonneg hx hy) hxy).trans hr.cap.le

theorem mul_mono {x x' y y' : ℚ} (hx : 0 ≤ x) (hy : 0 ≤ y) (hxx : x ≤ x') (hyy : y ≤ y') :
    rnd (x * y) ≤ rnd (x' * y') :=
  hr.mono _ _ (mul_nonneg hx hy) (mul_le_mul hxx hyy hy (hx.trans hxx))

end Rounding

namespace SizingInputs

variable (rnd config)

/-- `f_full`. -/
def fullFraction (i : SizingInputs) : ℚ :=
  rnd (i.pCalibrated - rnd (rnd (1 - i.pCalibrated) / i.netOdds))

/-- The de-risk factors together. -/
def factor (i : SizingInputs) : ℚ :=
  rnd (i.signals.sentimentFactor * i.signals.confidenceFactor)

/-- `f_applied` where there is an edge. -/
def appliedFraction (i : SizingInputs) : ℚ :=
  rnd (rnd (rnd (kellyCap config * i.fullFraction rnd) * rnd (1 - i.uncertainty)) * i.factor rnd)

/-- `pre_cap_lamports` where there is an edge. -/
def preCap (i : SizingInputs) : ℤ :=
  truncate (rnd (config.perTradeCapLamports * i.appliedFraction rnd config))

/-- `size_lamports`. -/
def lamports (i : SizingInputs) : ℤ :=
  if i.fullFraction rnd ≤ 0 then 0
  else max (min (min (i.preCap rnd config) config.perTradeCapLamports)
    (max (config.maxAggregateLamports - i.currentAggregate) 0)) 0

end SizingInputs

theorem clampUnit_eq_ok {x : ℚ} {field : String} (h : 0 ≤ x ∧ x ≤ 1) :
    clampUnit x field = .ok x := by
  unfold clampUnit
  rw [require_bind h]
  rfl

theorem capped_sizeLamports {aggregate : ℤ} {full applied : ℚ} {preCap : ℤ} :
    (capped config aggregate full applied preCap).sizeLamports =
      max (min (min preCap config.perTradeCapLamports)
        (max (config.maxAggregateLamports - aggregate) 0)) 0 := by
  unfold capped
  dsimp only
  split_ifs <;> dsimp only <;> omega

theorem kellyCap_nonneg (hkelly : 0 ≤ config.kellyFractionCap) : 0 ≤ kellyCap config :=
  le_min hkelly (by norm_num)

section Sized

variable (hr : Rounding rnd (kellyCap config)) (hkelly : 0 ≤ config.kellyFractionCap)
include hr

theorem factor_range (i : SizingInputs) : 0 ≤ i.factor rnd ∧ i.factor rnd ≤ 1 := by
  obtain ⟨hs, hs'⟩ := i.signals.sentiment_range
  obtain ⟨hc, hc'⟩ := i.signals.confidence_range
  have hnonneg := mul_nonneg hs.le hc.le
  exact ⟨hr.nonneg hnonneg, hr.le_one hnonneg (mul_le_one₀ hs' hc.le hc')⟩

theorem haircut_range (i : SizingInputs) :
    0 ≤ rnd (1 - i.uncertainty) ∧ rnd (1 - i.uncertainty) ≤ 1 := by
  obtain ⟨hunc, hunc'⟩ := i.uncertainty_range
  exact ⟨hr.nonneg (by linarith), hr.le_one (by linarith) (by linarith)⟩

/-- An edge is of a positive fraction, and at most the whole. -/
theorem fullFraction_le_one (i : SizingInputs) : i.fullFraction rnd ≤ 1 := by
  obtain ⟨hp, hp'⟩ := i.p_range
  have hloss : 0 ≤ rnd (rnd (1 - i.pCalibrated) / i.netOdds) :=
    hr.nonneg (div_nonneg (hr.nonneg (by linarith)) i.odds_pos.le)
  unfold SizingInputs.fullFraction
  rcases le_or_gt (i.pCalibrated - rnd (rnd (1 - i.pCalibrated) / i.netOdds)) 0 with h | h
  · exact (hr.nonpos _ h).trans zero_le_one
  · exact hr.le_one h.le (by linarith)

include hkelly

/-- With an edge the applied fraction is between 0 and the Kelly cap. -/
theorem appliedFraction_range {i : SizingInputs} (hedge : 0 < i.fullFraction rnd) :
    0 ≤ i.appliedFraction rnd config ∧ i.appliedFraction rnd config ≤ kellyCap config := by
  have hcap := kellyCap_nonneg hkelly
  obtain ⟨hhaircut, hhaircut'⟩ := haircut_range hr i
  obtain ⟨hfactor, hfactor'⟩ := factor_range hr i
  have hfraction : 0 ≤ rnd (kellyCap config * i.fullFraction rnd) :=
    hr.nonneg (mul_nonneg hcap hedge.le)
  have hfraction' := hr.le_cap hcap le_rfl hedge.le (fullFraction_le_one hr i)
  have hcertain := hr.nonneg (mul_nonneg hfraction hhaircut)
  have hcertain' := hr.le_cap hfraction hfraction' hhaircut hhaircut'
  exact ⟨hr.nonneg (mul_nonneg hcertain hfactor), hr.le_cap hcertain hcertain' hfactor hfactor'⟩

/-- **What `size` returns**: the checks of the sizer itself do not fail. -/
theorem sizeBy_eq_ok (i : SizingInputs) :
    ∃ d, i.sizeBy rnd config = .ok d ∧ d.sizeLamports = i.lamports rnd config := by
  have hfactor : i.signals.combinedFactorBy rnd = .ok (i.factor rnd) := by
    obtain ⟨hs, hs'⟩ := i.signals.sentiment_range
    obtain ⟨hc, hc'⟩ := i.signals.confidence_range
    unfold DeRiskSignals.combinedFactorBy
    rw [bind_of_ok (clampUnit_eq_ok ⟨hs.le, hs'⟩), bind_of_ok (clampUnit_eq_ok ⟨hc.le, hc'⟩)]
    exact require_bind (factor_range hr i).2
  have hfull : fullKellyFractionBy rnd i.pCalibrated i.netOdds = .ok (i.fullFraction rnd) := by
    unfold fullKellyFractionBy
    rw [bind_of_ok (clampUnit_eq_ok i.p_range), require_bind i.odds_pos]
    rfl
  unfold SizingInputs.sizeBy Orders.sizeBy SizingInputs.lamports
  rw [require_bind i.aggregate_nonneg, bind_of_ok (clampUnit_eq_ok i.uncertainty_range),
    bind_of_ok hfull]
  split_ifs with hedge
  · exact ⟨_, rfl, rfl⟩
  · have hcap := (appliedFraction_range hr hkelly (not_le.1 hedge)).2
    rw [bind_of_ok hfactor]
    refine ⟨_, require_bind hcap, ?_⟩
    exact capped_sizeLamports

omit hkelly in
/-- A bolder call sees no smaller edge. -/
theorem fullFraction_mono (h : NoBolder i j) (hedge : 0 < i.fullFraction rnd) :
    i.fullFraction rnd ≤ j.fullFraction rnd := by
  obtain ⟨hp, hp'⟩ := j.p_range
  have hi := i.p_range.2
  have hloss : rnd (rnd (1 - j.pCalibrated) / j.netOdds) ≤
      rnd (rnd (1 - i.pCalibrated) / i.netOdds) := by
    have hless : rnd (1 - j.pCalibrated) ≤ rnd (1 - i.pCalibrated) :=
      hr.mono _ _ (by linarith) (by linarith [h.p])
    have hnonneg : 0 ≤ rnd (1 - i.pCalibrated) := hr.nonneg (by linarith)
    exact hr.mono _ _ (div_nonneg (hr.nonneg (by linarith)) j.odds_pos.le)
      (div_le_div₀ hnonneg hless i.odds_pos h.odds)
  unfold SizingInputs.fullFraction at hedge ⊢
  refine hr.mono _ _ ?_ (by linarith [h.p])
  by_contra hneg
  exact absurd hedge (not_lt.2 (hr.nonpos _ (not_le.1 hneg).le))

theorem appliedFraction_mono (h : NoBolder i j) (hedge : 0 < i.fullFraction rnd) :
    i.appliedFraction rnd config ≤ j.appliedFraction rnd config := by
  have hcap := kellyCap_nonneg hkelly
  have hfraction : 0 ≤ rnd (kellyCap config * i.fullFraction rnd) :=
    hr.nonneg (mul_nonneg hcap hedge.le)
  have hfraction' : rnd (kellyCap config * i.fullFraction rnd) ≤
      rnd (kellyCap config * j.fullFraction rnd) :=
    hr.mul_mono hcap hedge.le le_rfl (fullFraction_mono hr h hedge)
  have hhaircut : rnd (1 - i.uncertainty) ≤ rnd (1 - j.uncertainty) :=
    hr.mono _ _ (by linarith [i.uncertainty_range.2]) (by linarith [h.uncertainty])
  have hfactor : i.factor rnd ≤ j.factor rnd :=
    hr.mul_mono i.signals.sentiment_range.1.le i.signals.confidence_range.1.le h.sentiment
      h.confidence
  refine hr.mul_mono ?_ (factor_range hr i).1 ?_ hfactor
  · exact hr.nonneg (mul_nonneg hfraction (haircut_range hr i).1)
  · exact hr.mul_mono hfraction (haircut_range hr i).1 hfraction' hhaircut

/-- **A size moves with its arguments**: what speaks no more for the trade is sized no larger. -/
theorem lamports_mono (htrade : 0 ≤ config.perTradeCapLamports) (h : NoBolder i j) :
    i.lamports rnd config ≤ j.lamports rnd config := by
  unfold SizingInputs.lamports
  by_cases hi : i.fullFraction rnd ≤ 0
  · rw [if_pos hi]
    split_ifs
    · exact le_rfl
    · exact le_max_right _ _
  · have hedge := not_le.1 hi
    have hj : ¬ j.fullFraction rnd ≤ 0 := not_le.2 (hedge.trans_le (fullFraction_mono hr h hedge))
    have htrade' : (0 : ℚ) ≤ config.perTradeCapLamports := by exact_mod_cast htrade
    have happlied := (appliedFraction_range hr hkelly hedge).1
    have hpre : i.preCap rnd config ≤ j.preCap rnd config :=
      truncate_mono (hr.nonneg (mul_nonneg htrade' happlied))
        (hr.mul_mono htrade' happlied le_rfl (appliedFraction_mono hr hkelly h hedge))
    have haggregate := h.aggregate
    rw [if_neg hi, if_neg hj]
    omega

/-- **A size is bounded** by the Kelly share of the per-trade cap and by what is left of the
aggregate cap. -/
theorem lamports_bounds (htrade : 0 ≤ config.perTradeCapLamports) (i : SizingInputs) :
    i.lamports rnd config ≤ truncate (rnd (kellyShare config)) ∧
      i.lamports rnd config ≤ max 0 (config.maxAggregateLamports - i.currentAggregate) := by
  have htrade' : (0 : ℚ) ≤ config.perTradeCapLamports := by exact_mod_cast htrade
  have hshare : 0 ≤ rnd (kellyShare config) :=
    hr.nonneg (mul_nonneg htrade' (kellyCap_nonneg hkelly))
  have hshare' : 0 ≤ truncate (rnd (kellyShare config)) := by
    rw [truncate_of_nonneg hshare]
    exact Int.floor_nonneg.2 hshare
  unfold SizingInputs.lamports
  split_ifs with hedge
  · exact ⟨hshare', le_max_left _ _⟩
  · obtain ⟨happlied, happlied'⟩ := appliedFraction_range hr hkelly (not_le.1 hedge)
    have hpre : i.preCap rnd config ≤ truncate (rnd (kellyShare config)) :=
      truncate_mono (hr.nonneg (mul_nonneg htrade' happlied))
        (hr.mul_mono htrade' happlied le_rfl happlied')
    omega

end Sized

/-- **Sizing only shrinks.**  With exact arithmetic, and caps that are not negative, every
admissible call is sized, within the whole lamports of the Kelly share of the per-trade cap and
within what is left of the aggregate cap; and a call that is no bolder in any argument is sized no
larger. -/
theorem size_only_shrinks (config : RiskConfig) (htrade : 0 ≤ config.perTradeCapLamports)
    (hkelly : 0 ≤ config.kellyFractionCap) :
    (∀ i : SizingInputs, ∃ d, i.sizeBy id config = .ok d ∧
        d.sizeLamports ≤
          ⌊(config.perTradeCapLamports : ℚ) * min config.kellyFractionCap (1 / 4)⌋ ∧
        d.sizeLamports ≤ max 0 (config.maxAggregateLamports - i.currentAggregate)) ∧
      ∀ i j : SizingInputs, NoBolder i j → ∀ d e, i.sizeBy id config = .ok d →
        j.sizeBy id config = .ok e → d.sizeLamports ≤ e.sizeLamports := by
  have hr := Rounding.id (kellyCap config)
  have hquarter : kellyShare config =
      (config.perTradeCapLamports : ℚ) * min config.kellyFractionCap (1 / 4) := by
    rw [kellyShare, kellyCap]
    norm_num
  have hshare : 0 ≤ kellyShare config :=
    mul_nonneg (by exact_mod_cast htrade) (kellyCap_nonneg hkelly)
  constructor
  · intro i
    obtain ⟨d, hd, hlamports⟩ := sizeBy_eq_ok hr hkelly i
    have hbounds := lamports_bounds hr hkelly htrade i
    rw [id_eq, truncate_of_nonneg hshare, hquarter, ← hlamports] at hbounds
    exact ⟨d, hd, hbounds⟩
  · intro i j h d e hd he
    obtain ⟨d', hd', hlamports⟩ := sizeBy_eq_ok hr hkelly i
    obtain ⟨e', he', hlamports'⟩ := sizeBy_eq_ok hr hkelly j
    obtain rfl := Except.ok.inj (hd.symm.trans hd')
    obtain rfl := Except.ok.inj (he.symm.trans he')
    rw [hlamports, hlamports']
    exact lamports_mono hr hkelly htrade h

theorem threeQuarters_range : (0 : ℚ) ≤ 3 / 4 ∧ (3 / 4 : ℚ) ≤ 1 := by norm_num

theorem noAggregate_nonneg : (0 : ℤ) ≤ 0 := le_rfl

/-- An even bet at three in four. -/
def evenBet : SizingInputs where
  pCalibrated := 3 / 4
  uncertainty := 0
  currentAggregate := 0
  signals := .none
  netOdds := 1
  p_range := threeQuarters_range
  uncertainty_range := ⟨le_rfl, zero_le_one⟩
  aggregate_nonneg := noAggregate_nonneg
  odds_pos := one_pos

/-- The bet with half the certainty. -/
def halfSureBet : SizingInputs :=
  { evenBet with
    uncertainty := 1 / 2
    uncertainty_range := by norm_num }

/-- The two bets under the defaults. -/
theorem size_only_shrinks_default : ∃ d e,
    halfSureBet.sizeBy id Breaker.defaultConfig = .ok d ∧
      evenBet.sizeBy id Breaker.defaultConfig = .ok e ∧ d.sizeLamports ≤ e.sizeLamports ∧
      e.sizeLamports ≤ 25000000 := by
  obtain ⟨hsized, hmono⟩ := size_only_shrinks Breaker.defaultConfig (by decide) (by decide +kernel)
  obtain ⟨d, hd, -, -⟩ := hsized halfSureBet
  obtain ⟨e, he, hshare, -⟩ := hsized evenBet
  have hbolder : NoBolder halfSureBet evenBet :=
    ⟨by norm_num [halfSureBet, evenBet], le_rfl, le_rfl, le_rfl, le_rfl, le_rfl⟩
  refine ⟨d, e, hd, he, hmono _ _ hbolder d e hd he, hshare.trans ?_⟩
  norm_num [Breaker.defaultConfig]

/-- The same in the context of the sizer, for a Kelly cap of at most 28 digits: a call that is no
bolder in any argument is sized no larger. -/
theorem size_mono_decimal (htrade : 0 ≤ config.perTradeCapLamports)
    (hkelly : 0 ≤ config.kellyFractionCap) (hfits : Decimal.Fits (kellyCap config))
    (h : NoBolder i j) {d e : SizingDecision}
    (hd : size config i.pCalibrated i.uncertainty i.currentAggregate i.signals i.netOdds = .ok d)
    (he : size config j.pCalibrated j.uncertainty j.currentAggregate j.signals j.netOdds = .ok e) :
    d.sizeLamports ≤ e.sizeLamports := by
  have hr := Rounding.decimal hfits
  obtain ⟨d', hd', hlamports⟩ := sizeBy_eq_ok hr hkelly i
  obtain ⟨e', he', hlamports'⟩ := sizeBy_eq_ok hr hkelly j
  obtain rfl := Except.ok.inj (hd.symm.trans hd')
  obtain rfl := Except.ok.inj (he.symm.trans he')
  rw [hlamports, hlamports']
  exact lamports_mono hr hkelly htrade h

end Orders
end AatsSniper

/-
# The model against the baseline

`compute_gate_b_delta` of `aats/models/gate_b.py`: the net PnL per unit of risk of the trades the
model took, less that of the trades the baseline took, and a bootstrap of the difference.

The guard on the effective sample counts the trades that only one of the two took, because a trade
both took "cancels".  In the mean it does.  The other unit divides each cohort by a dispersion of
its own trades, and then a common trade counts as soon as the cohorts differ anywhere
(`agreedTradesCancel_iff`).

Ratios are real numbers here.  What the seeded generator draws is an argument: a list of index
lists, one for each resample.
-/

import AatsSniper.Lib.Except
import Mathlib.Analysis.Real.Sqrt
import Mathlib.Data.List.Sort
import Mathlib.Tactic

namespace AatsSniper
namespace Models

/-! ### Trades -/

/-- `TradeOutcome`, with what `__post_init__` has checked. -/
structure TradeOutcome where
  mint : String
  decisionSlot : ℤ
  modelSelected : Bool
  baselineSelected : Bool
  netPnlLamports : ℤ
  solAtRiskLamports : ℤ
  solAtRiskLamports_pos : 0 < solAtRiskLamports

/-- `UnitOfRisk`. -/
inductive UnitOfRisk
  | netPnlPerSol
  | netPnlPerDownsideDev
  deriving DecidableEq

/-- The selection of the model, or of the baseline. -/
def TradeOutcome.selected (model : Bool) (o : TradeOutcome) : Bool :=
  if model then o.modelSelected else o.baselineSelected

/-- The ratio of a trade in a cohort: a trade that was declined counts 0. -/
noncomputable def TradeOutcome.ratio (model : Bool) (o : TradeOutcome) : ℝ :=
  if o.selected model = true then o.netPnlLamports / o.solAtRiskLamports else 0

/-- `_cohort_per_trade_ratios(outcomes, model)`. -/
noncomputable def cohortPerTradeRatios (model : Bool) (outcomes : List TradeOutcome) : List ℝ :=
  outcomes.map (TradeOutcome.ratio model)

/-- `np.mean(ratios)`. -/
noncomputable def mean (ratios : List ℝ) : ℝ := ratios.sum / ratios.length

/-- `_per_unit_risk(ratios, unit_of_risk)`. -/
noncomputable def perUnitRisk (unitOfRisk : UnitOfRisk) (ratios : List ℝ) : ℝ :=
  if ratios = [] then 0
  else
    match unitOfRisk with
    | .netPnlPerSol => mean ratios
    | .netPnlPerDownsideDev =>
        let downside := ratios.filter fun r => decide (r < 0)
        if downside = [] then mean ratios
        else
          let dd := √(mean (downside.map fun r => r ^ 2))
          if 0 < dd then mean ratios / dd else mean ratios

/-- `ratios[idx]`. -/
noncomputable def resample (ratios : List ℝ) (idx : List ℕ) : List ℝ :=
  idx.map fun i => ratios.getD i 0

/-- What `rng.integers(0, n, size=n)` may draw. -/
def IsResample (n : ℕ) (idx : List ℕ) : Prop := idx.length = n ∧ ∀ i ∈ idx, i < n

/-- `delta`. -/
noncomputable def gateBDelta (unitOfRisk : UnitOfRisk) (outcomes : List TradeOutcome) : ℝ :=
  perUnitRisk unitOfRisk (cohortPerTradeRatios true outcomes) -
    perUnitRisk unitOfRisk (cohortPerTradeRatios false outcomes)

/-- `boot_deltas[b]`, for the indices drawn. -/
noncomputable def bootDelta (unitOfRisk : UnitOfRisk) (outcomes : List TradeOutcome)
    (idx : List ℕ) : ℝ :=
  perUnitRisk unitOfRisk (resample (cohortPerTradeRatios true outcomes) idx) -
    perUnitRisk unitOfRisk (resample (cohortPerTradeRatios false outcomes) idx)

/-- `np.percentile(values, 2.5)`: between the two values next to the rank. -/
noncomputable def lowerPercentile (values : List ℝ) : ℝ :=
  let sorted := values.insertionSort (· ≤ ·)
  let rank : ℝ := 0.025 * (values.length - 1 : ℕ)
  let low := sorted.getD ⌊rank⌋₊ 0
  let high := sorted.getD (⌊rank⌋₊ + 1) low
  low + (high - low) * (rank - ⌊rank⌋₊)

/-- `GateBResult`. -/
structure GateBResult where
  nTrades : ℕ
  unitOfRisk : UnitOfRisk
  modelNetPnlPerRisk : ℝ
  baselineNetPnlPerRisk : ℝ
  delta : ℝ
  lower95Bound : ℝ
  nBootstrap : ℕ
  minSample : ℤ
  minSampleMet : Prop
  nEffective : ℕ
  effectiveMinSample : ℤ
  effectiveSampleMet : Prop
  gateBPass : Prop

/-- `n_effective`. -/
def nEffective (outcomes : List TradeOutcome) : ℕ :=
  outcomes.countP fun o => o.modelSelected != o.baselineSelected

/-- `compute_gate_b_delta(outcomes, unit_of_risk, ..., min_sample, effective_min_sample)`, for the
index lists drawn. -/
noncomputable def computeGateBDelta (outcomes : List TradeOutcome) (unitOfRisk : UnitOfRisk)
    (draws : List (List ℕ)) (minSample effectiveMinSample : ℤ) : Except String GateBResult := do
  require (outcomes ≠ [])
    "compute_gate_b_delta: empty recorded-trade list. GATE-B is undefined with no recorded data — fail closed (no metric), never a fabricated delta."
  require (draws ≠ []) "index -1 is out of bounds for axis 0 with size 0"
  let totalMinSample := max minSample 10
  let effectiveFloor := max effectiveMinSample 21
  let lower95 := lowerPercentile (draws.map (bootDelta unitOfRisk outcomes))
  return { nTrades := outcomes.length
           unitOfRisk := unitOfRisk
           modelNetPnlPerRisk := perUnitRisk unitOfRisk (cohortPerTradeRatios true outcomes)
           baselineNetPnlPerRisk := perUnitRisk unitOfRisk (cohortPerTradeRatios false outcomes)
           delta := gateBDelta unitOfRisk outcomes
           lower95Bound := lower95
           nBootstrap := draws.length
           minSample := totalMinSample
           minSampleMet := totalMinSample ≤ outcomes.length
           nEffective := nEffective outcomes
           effectiveMinSample := effectiveFloor
           effectiveSampleMet := effectiveFloor ≤ nEffective outcomes
           gateBPass := 0 < lower95 ∧ totalMinSample ≤ outcomes.length ∧
             effectiveFloor ≤ nEffective outcomes }

/-! ### Agreed trades -/

/-- Both took the trade, or both declined it. -/
def TradeOutcome.Agreed (o : TradeOutcome) : Prop := o.modelSelected = o.baselineSelected

/-- The trade with another result. -/
def TradeOutcome.withPnl (o : TradeOutcome) (netPnlLamports : ℤ) : TradeOutcome :=
  { o with netPnlLamports := netPnlLamports }

/-- The result of an agreed trade moves neither the difference nor that of any resample. -/
def AgreedTradesCancel (unitOfRisk : UnitOfRisk) (outcomes : List TradeOutcome) : Prop :=
  ∀ before o after pnl, outcomes = before ++ o :: after → o.Agreed →
    gateBDelta unitOfRisk (before ++ o.withPnl pnl :: after) = gateBDelta unitOfRisk outcomes ∧
    ∀ idx, IsResample outcomes.length idx →
      bootDelta unitOfRisk (before ++ o.withPnl pnl :: after) idx =
        bootDelta unitOfRisk outcomes idx

/-- The trade was taken by both. -/
def TradeOutcome.TakenByBoth (o : TradeOutcome) : Prop :=
  o.modelSelected = true ∧ o.baselineSelected = true

/-- The two cohorts earn the same on the trade: it is agreed, or its result is 0. -/
def TradeOutcome.Level (o : TradeOutcome) : Prop := o.Agreed ∨ o.netPnlLamports = 0

section Cancels

variable {unitOfRisk : UnitOfRisk} {outcomes before after : List TradeOutcome} {o : TradeOutcome}
  {pnl : ℤ} {idx : List ℕ}

theorem TradeOutcome.ratio_eq_of_level (h : o.Level) : o.ratio true = o.ratio false := by
  rcases h with hagreed | hzero
  · unfold ratio selected
    rw [hagreed]
    rfl
  · unfold ratio
    rw [hzero]
    simp

theorem TradeOutcome.ratio_withPnl_of_declined {model : Bool} (h : o.selected model = false) :
    (o.withPnl pnl).ratio model = o.ratio model := by
  have hsame : (o.withPnl pnl).selected model = o.selected model := rfl
  unfold ratio
  rw [hsame, h]
  rfl

/-- A resample of the ratios is made of the ratios of a resample of the trades. -/
theorem resample_ratios {model : Bool} (hidx : ∀ i ∈ idx, i < outcomes.length) :
    resample (cohortPerTradeRatios model outcomes) idx =
      cohortPerTradeRatios model (idx.filterMap fun i => outcomes[i]?) := by
  unfold resample cohortPerTradeRatios
  induction idx with
  | nil => rfl
  | cons i idx ih =>
      have hi : i < outcomes.length := hidx i List.mem_cons_self
      rw [List.map_cons, ih fun j hj => hidx j (List.mem_cons_of_mem i hj),
        List.filterMap_cons_some (List.getElem?_eq_getElem hi), List.map_cons]
      congr 1
      rw [List.getD_eq_getElem?_getD, List.getElem?_map, List.getElem?_eq_getElem hi]
      rfl

/-- The difference of a resample is that of the trades drawn. -/
theorem bootDelta_eq (hidx : ∀ i ∈ idx, i < outcomes.length) :
    bootDelta unitOfRisk outcomes idx =
      gateBDelta unitOfRisk (idx.filterMap fun i => outcomes[i]?) := by
  rw [bootDelta, gateBDelta, resample_ratios hidx, resample_ratios hidx]

/-- The second list is the first with other results of agreed trades. -/
def Restated (o o' : TradeOutcome) : Prop := o' = o ∨ o.Agreed ∧ ∃ pnl, o' = o.withPnl pnl

theorem Restated.agreed {o' : TradeOutcome} (h : Restated o o') (hlevel : o.Level) :
    o'.Level := by
  rcases h with rfl | ⟨hagreed, pnl, rfl⟩
  · exact hlevel
  · exact Or.inl hagreed

/-- A restated trade gives the two cohorts the same difference. -/
theorem Restated.ratio_sub {o' : TradeOutcome} (h : Restated o o') :
    o'.ratio true - o'.ratio false = o.ratio true - o.ratio false := by
  rcases h with rfl | ⟨hagreed, pnl, rfl⟩
  · rfl
  · have hagreed' : (o.withPnl pnl).Agreed := hagreed
    rw [TradeOutcome.ratio_eq_of_level (Or.inl hagreed),
      TradeOutcome.ratio_eq_of_level (Or.inl hagreed'), sub_self, sub_self]

/-- In the mean, the difference of the cohorts is the mean of the differences. -/
theorem gateBDelta_perSol (outcomes : List TradeOutcome) :
    gateBDelta .netPnlPerSol outcomes =
      (outcomes.map fun o => o.ratio true - o.ratio false).sum / outcomes.length := by
  have hmean : ∀ ratios, perUnitRisk .netPnlPerSol ratios = mean ratios := by
    intro ratios
    unfold perUnitRisk
    split_ifs with hempty
    · rw [hempty]
      simp [mean]
    · rfl
  have hsum : (outcomes.map fun o => o.ratio true - o.ratio false).sum =
      (outcomes.map (TradeOutcome.ratio true)).sum -
        (outcomes.map (TradeOutcome.ratio false)).sum := by
    induction outcomes with
    | nil => simp
    | cons o outcomes ih =>
        simp only [List.map_cons, List.sum_cons, ih]
        ring
  rw [gateBDelta, hmean, hmean, hsum, mean, mean, cohortPerTradeRatios, cohortPerTradeRatios,
    List.length_map, List.length_map, sub_div]

/-- What makes agreed trades cancel: the mean as unit, no trade taken by both, or cohorts that
are level on every trade. -/
def CancelCondition (unitOfRisk : UnitOfRisk) (outcomes : List TradeOutcome) : Prop :=
  unitOfRisk = .netPnlPerSol ∨ (∀ o ∈ outcomes, ¬ o.TakenByBoth) ∨ ∀ o ∈ outcomes, o.Level

theorem CancelCondition.of_subset {outcomes' : List TradeOutcome}
    (h : CancelCondition unitOfRisk outcomes) (hsubset : ∀ o ∈ outcomes', o ∈ outcomes) :
    CancelCondition unitOfRisk outcomes' := by
  rcases h with hunit | hnone | hlevel
  · exact Or.inl hunit
  · exact Or.inr (Or.inl fun o ho => hnone o (hsubset o ho))
  · exact Or.inr (Or.inr fun o ho => hlevel o (hsubset o ho))

/-- A ratio that no cohort has does not change; nor does one that was declined. -/
theorem Restated.ratio_eq {o' : TradeOutcome} (h : Restated o o') (hnot : ¬ o.TakenByBoth)
    (model : Bool) : o'.ratio model = o.ratio model := by
  rcases h with rfl | ⟨hagreed, pnl, rfl⟩
  · rfl
  · refine TradeOutcome.ratio_withPnl_of_declined ?_
    have hdeclined : o.modelSelected = false ∧ o.baselineSelected = false := by
      unfold TradeOutcome.Agreed at hagreed
      unfold TradeOutcome.TakenByBoth at hnot
      cases hmodel : o.modelSelected with
      | false => exact ⟨rfl, hagreed ▸ hmodel⟩
      | true => exact absurd ⟨hmodel, hagreed ▸ hmodel⟩ hnot
    cases model with
    | false => exact hdeclined.2
    | true => exact hdeclined.1

/-- Cohorts that are level on every trade differ by nothing. -/
theorem gateBDelta_of_level (h : ∀ o ∈ outcomes, o.Level) :
    gateBDelta unitOfRisk outcomes = 0 := by
  have hratios : cohortPerTradeRatios true outcomes = cohortPerTradeRatios false outcomes :=
    List.map_congr_left fun o ho => TradeOutcome.ratio_eq_of_level (h o ho)
  rw [gateBDelta, hratios, sub_self]

/-- Under the condition, no restatement of agreed trades moves the difference. -/
theorem gateBDelta_restated {outcomes' : List TradeOutcome}
    (h : CancelCondition unitOfRisk outcomes) (hrestated : List.Forall₂ Restated outcomes outcomes') :
    gateBDelta unitOfRisk outcomes' = gateBDelta unitOfRisk outcomes := by
  rcases h with rfl | hnone | hlevel
  · have hdiff : (outcomes'.map fun o => o.ratio true - o.ratio false) =
        outcomes.map fun o => o.ratio true - o.ratio false := by
      induction hrestated with
      | nil => rfl
      | cons hhead _ ih => rw [List.map_cons, List.map_cons, hhead.ratio_sub, ih]
    rw [gateBDelta_perSol, gateBDelta_perSol, hdiff, hrestated.length_eq]
  · have hratios : ∀ model, cohortPerTradeRatios model outcomes' =
        cohortPerTradeRatios model outcomes := by
      intro model
      unfold cohortPerTradeRatios
      induction hrestated with
      | nil => rfl
      | cons hhead _ ih =>
          rw [List.forall_mem_cons] at hnone
          rw [List.map_cons, List.map_cons, hhead.ratio_eq hnone.1, ih hnone.2]
    rw [gateBDelta, hratios, hratios, gateBDelta]
  · have hlevel' : ∀ o ∈ outcomes', o.Level := by
      induction hrestated with
      | nil => exact hlevel
      | cons hhead _ ih =>
          rw [List.forall_mem_cons] at hlevel ⊢
          exact ⟨hhead.agreed hlevel.1, ih hlevel.2⟩
    rw [gateBDelta_of_level hlevel, gateBDelta_of_level hlevel']

/-- A resample of the restated trades is a restatement of the resample. -/
theorem forall₂_restated_draws {outcomes' : List TradeOutcome}
    (h : List.Forall₂ Restated outcomes outcomes') (idx : List ℕ) :
    List.Forall₂ Restated (idx.filterMap fun i => outcomes[i]?)
      (idx.filterMap fun i => outcomes'[i]?) := by
  induction idx with
  | nil => exact List.Forall₂.nil
  | cons i idx ih =>
      by_cases hi : i < outcomes.length
      · have hi' : i < outcomes'.length := h.length_eq ▸ hi
        rw [List.filterMap_cons_some (List.getElem?_eq_getElem hi),
          List.filterMap_cons_some (List.getElem?_eq_getElem hi')]
        exact List.Forall₂.cons (List.forall₂_iff_get.1 h |>.2 i hi hi') ih
      · have hi' : ¬ i < outcomes'.length := h.length_eq ▸ hi
        rw [List.filterMap_cons_none (List.getElem?_eq_none (not_lt.1 hi)),
          List.filterMap_cons_none (List.getElem?_eq_none (not_lt.1 hi'))]
        exact ih

theorem forall₂_restated_withPnl (before after : List TradeOutcome) (hagreed : o.Agreed)
    (pnl : ℤ) : List.Forall₂ Restated (before ++ o :: after)
      (before ++ o.withPnl pnl :: after) := by
  have hrefl : ∀ outcomes, List.Forall₂ Restated outcomes outcomes := fun outcomes =>
    List.forall₂_same.2 fun o _ => Or.inl rfl
  exact List.rel_append (hrefl before)
    (List.Forall₂.cons (Or.inr ⟨hagreed, pnl, rfl⟩) (hrefl after))

/-- The condition is enough. -/
theorem agreedTradesCancel_of_condition (h : CancelCondition unitOfRisk outcomes) :
    AgreedTradesCancel unitOfRisk outcomes := by
  rintro before o after pnl rfl hagreed
  have hrestated := forall₂_restated_withPnl before after hagreed pnl
  refine ⟨gateBDelta_restated h hrestated, fun idx hidx => ?_⟩
  rw [bootDelta_eq hidx.2, bootDelta_eq (hrestated.length_eq ▸ hidx.2)]
  refine gateBDelta_restated (h.of_subset fun o ho => ?_) (forall₂_restated_draws hrestated idx)
  obtain ⟨i, -, hi⟩ := List.mem_filterMap.1 ho
  exact List.mem_of_getElem? hi

/-- Then the verdict does not see what agreed trades earned: the difference, its lower bound, the
effective sample and the pass are the same. -/
theorem computeGateBDelta_withPnl {draws : List (List ℕ)} {minSample effectiveMinSample : ℤ}
    (h : CancelCondition unitOfRisk (before ++ o :: after)) (hagreed : o.Agreed)
    (hdraws : ∀ idx ∈ draws, IsResample (before ++ o :: after).length idx) :
    (computeGateBDelta (before ++ o.withPnl pnl :: after) unitOfRisk draws minSample
        effectiveMinSample).map
      (fun r => (r.delta, r.lower95Bound, r.nEffective, r.gateBPass)) =
    (computeGateBDelta (before ++ o :: after) unitOfRisk draws minSample effectiveMinSample).map
      fun r => (r.delta, r.lower95Bound, r.nEffective, r.gateBPass) := by
  have hcancel := agreedTradesCancel_of_condition h before o after pnl rfl hagreed
  have hboot : draws.map (bootDelta unitOfRisk (before ++ o.withPnl pnl :: after)) =
      draws.map (bootDelta unitOfRisk (before ++ o :: after)) :=
    List.map_congr_left fun idx hidx => hcancel.2 idx (hdraws idx hidx)
  have heffective : nEffective (before ++ o.withPnl pnl :: after) =
      nEffective (before ++ o :: after) := by
    simp only [nEffective, List.countP_append, List.countP_cons, TradeOutcome.withPnl]
  have hlength : (before ++ o.withPnl pnl :: after).length = (before ++ o :: after).length := by
    simp only [List.length_append, List.length_cons]
  have hne : before ++ o :: after ≠ [] := by simp
  have hne' : before ++ o.withPnl pnl :: after ≠ [] := by simp
  unfold computeGateBDelta
  rw [require_bind hne, require_bind hne']
  by_cases hempty : draws = []
  · simp only [hempty, require, ne_eq, not_true_eq_false, if_false]
    rfl
  · rw [require_bind hempty, require_bind hempty]
    simp only [hboot, heffective, hlength, hcancel.1]
    rfl

end Cancels

/-! ### A common trade that counts -/

section Counts

variable {k : ℕ} {x r t : ℝ}

/-- The downside unit of a list whose negative ratios have the given dispersion. -/
theorem perUnitRisk_of_downside {ratios : List ℝ} (downside : List ℝ) {dd : ℝ} (hdd : 0 < dd)
    (hne : downside ≠ [])
    (hfilter : (ratios.filter fun r => decide (r < 0)) = downside)
    (hsquare : mean (downside.map fun r => r ^ 2) = dd ^ 2) :
    perUnitRisk .netPnlPerDownsideDev ratios = mean ratios / dd := by
  have hratios : ratios ≠ [] := by
    rintro rfl
    exact hne (hfilter.symm.trans rfl)
  unfold perUnitRisk
  rw [if_neg hratios]
  dsimp only
  rw [hfilter, if_neg hne, hsquare, Real.sqrt_sq hdd.le, if_pos hdd]

/-- With no negative ratio it is the mean. -/
theorem perUnitRisk_of_no_downside {ratios : List ℝ} (h : ∀ r ∈ ratios, 0 ≤ r) :
    perUnitRisk .netPnlPerDownsideDev ratios = mean ratios := by
  have hfilter : (ratios.filter fun r => decide (r < 0)) = [] := by
    refine List.filter_eq_nil_iff.2 fun r hr => ?_
    simpa using h r hr
  unfold perUnitRisk
  split_ifs with hempty
  · rw [hempty]
    simp [mean]
  · dsimp only
    rw [hfilter, if_pos rfl]

/-- `k` trades of one ratio and a last one. -/
def drawn (k : ℕ) (x r : ℝ) : List ℝ := List.replicate k x ++ [r]

theorem mean_drawn (k : ℕ) (x r : ℝ) : mean (drawn k x r) = (k * x + r) / (k + 1) := by
  simp [mean, drawn]

theorem mem_drawn {y : ℝ} (h : y ∈ drawn k x r) : y = x ∨ y = r := by
  rcases List.mem_append.1 h with h | h
  · exact Or.inl (List.eq_of_mem_replicate h)
  · exact Or.inr (List.mem_singleton.1 h)

/-- No loss at all. -/
theorem perUnitRisk_drawn_gains (hx : 0 ≤ x) (hr : 0 ≤ r) :
    perUnitRisk .netPnlPerDownsideDev (drawn k x r) = (k * x + r) / (k + 1) := by
  rw [perUnitRisk_of_no_downside, mean_drawn]
  intro y hy
  rcases mem_drawn hy with rfl | rfl
  · exact hx
  · exact hr

/-- The last one is the only loss. -/
theorem perUnitRisk_drawn_last (hx : 0 ≤ x) (hr : r < 0) :
    perUnitRisk .netPnlPerDownsideDev (drawn k x r) = (k * x + r) / (k + 1) / -r := by
  rw [perUnitRisk_of_downside [r] (neg_pos.2 hr) (List.cons_ne_nil r []), mean_drawn]
  · rw [drawn, List.filter_append, List.filter_replicate_of_neg (by simpa using hx)]
    simp [hr]
  · simp [mean]

/-- The last one is the only one that is no loss. -/
theorem perUnitRisk_drawn_losses (hk : 0 < k) (ht : 0 < t) (hr : 0 ≤ r) :
    perUnitRisk .netPnlPerDownsideDev (drawn k (-t) r) = (k * -t + r) / (k + 1) / t := by
  have hk' : (k : ℝ) ≠ 0 := by exact_mod_cast hk.ne'
  rw [perUnitRisk_of_downside (List.replicate k (-t)) ht, mean_drawn]
  · exact fun h => hk.ne' ((List.replicate_eq_nil_iff _).1 h)
  · rw [drawn, List.filter_append, List.filter_replicate_of_pos (by simpa using ht)]
    simp [hr]
  · simp [mean, hk']

/-- They are all losses. -/
theorem perUnitRisk_drawn_all {dd : ℝ} (ht : 0 < t) (hr : r < 0) (hdd : 0 < dd)
    (hsquare : dd ^ 2 = (k * t ^ 2 + r ^ 2) / (k + 1)) :
    perUnitRisk .netPnlPerDownsideDev (drawn k (-t) r) = (k * -t + r) / (k + 1) / dd := by
  rw [perUnitRisk_of_downside (drawn k (-t) r) hdd, mean_drawn]
  · simp [drawn]
  · rw [drawn, List.filter_append, List.filter_replicate_of_pos (by simpa using ht)]
    simp [hr]
  · rw [hsquare]
    simp [mean, drawn]

/-- What the common trade, drawn `k` times, makes of the two cohorts: one of them also has the
last trade, the other does not. -/
noncomputable def drawnDelta (k : ℕ) (x r : ℝ) : ℝ :=
  perUnitRisk .netPnlPerDownsideDev (drawn k x r) -
    perUnitRisk .netPnlPerDownsideDev (drawn k x 0)

/-- A last trade that gains: a loss of 2 on the common one halves the difference. -/
theorem drawnDelta_of_gain (hk : 0 < k) (hr : 0 < r) : drawnDelta k (-2) r ≠ drawnDelta k 0 r := by
  have hk' : (0 : ℝ) < k + 1 := by positivity
  unfold drawnDelta
  rw [perUnitRisk_drawn_losses hk (by norm_num) hr.le,
    perUnitRisk_drawn_losses hk (by norm_num) le_rfl, perUnitRisk_drawn_gains le_rfl hr.le,
    perUnitRisk_drawn_gains le_rfl le_rfl]
  intro h
  field_simp at h
  linarith

/-- A last trade that loses: only a loss of as much on the common one keeps the difference. -/
theorem drawnDelta_of_loss (hk : 0 < k) (hr : r < 0) (ht : 0 < t) (hne : t ≠ -r) :
    drawnDelta k (-t) r ≠ drawnDelta k 0 r := by
  have hk' : (0 : ℝ) < k := by exact_mod_cast hk
  have hsquares : 0 < (k * t ^ 2 + r ^ 2) / (k + 1 : ℝ) := by positivity
  set dd := √((k * t ^ 2 + r ^ 2) / (k + 1 : ℝ)) with hdd_eq
  have hdd : 0 < dd := Real.sqrt_pos.2 hsquares
  have hsquare : dd ^ 2 = (k * t ^ 2 + r ^ 2) / (k + 1) := Real.sq_sqrt hsquares.le
  unfold drawnDelta
  rw [perUnitRisk_drawn_all ht hr hdd hsquare, perUnitRisk_drawn_losses hk ht le_rfl,
    perUnitRisk_drawn_last le_rfl hr, perUnitRisk_drawn_gains le_rfl le_rfl]
  intro h
  have hcommon : (k * -t + 0) / (k + 1 : ℝ) / t = -(k / (k + 1)) := by
    field_simp
    ring
  have hlast : (k * 0 + r) / (k + 1 : ℝ) / -r = -(1 / (k + 1)) := by
    have hr' : r ≠ 0 := hr.ne
    field_simp
    ring
  have hwhole : (k : ℝ) / (k + 1) + 1 / (k + 1) = 1 := by field_simp
  have hline : k * t - r = (k + 1) * dd := by
    rw [hcommon, hlast, mul_zero, add_zero, zero_div, sub_zero] at h
    have hneg : (k * -t + r) / (k + 1) / dd = -1 := by linarith
    rw [div_div, div_eq_iff (mul_pos (by positivity) hdd).ne'] at hneg
    linarith
  have hmass : dd ^ 2 * (k + 1) = k * t ^ 2 + r ^ 2 := by
    rw [hsquare]
    field_simp
  -- squaring leaves `k (t + r)² = 0`
  have hzero : k * (t + r) ^ 2 = 0 := by
    have hsq : (k * t - r) ^ 2 = (k + 1) * (dd ^ 2 * (k + 1)) := by
      rw [hline]
      ring
    rw [hmass] at hsq
    linarith
  have := pow_eq_zero_iff (two_ne_zero) |>.1 ((mul_eq_zero.1 hzero).resolve_left hk'.ne')
  exact hne (by linarith)

/-- Some whole loss on the common trade moves the difference. -/
theorem exists_drawnDelta_ne (hk : 0 < k) (hr : r ≠ 0) :
    ∃ t : ℕ, drawnDelta k (-(t : ℝ)) r ≠ drawnDelta k 0 r := by
  rcases lt_or_gt_of_ne hr with hloss | hgain
  · by_cases hone : -r = 1
    · exact ⟨2, drawnDelta_of_loss hk hloss (by norm_num) (by rw [hone]; norm_num)⟩
    · refine ⟨1, drawnDelta_of_loss hk hloss (by norm_num) ?_⟩
      push_cast
      exact fun h => hone h.symm
  · exact ⟨2, by exact_mod_cast drawnDelta_of_gain hk hgain⟩

variable {outcomes before after : List TradeOutcome} {o q : TradeOutcome} {pnl : ℤ}

/-- Only one cohort has the ratio of a trade that is not level, and it is not 0. -/
theorem ratio_of_not_level (h : ¬ q.Level) :
    q.ratio (!q.modelSelected) = 0 ∧ q.ratio q.modelSelected ≠ 0 := by
  unfold TradeOutcome.Level TradeOutcome.Agreed at h
  push Not at h
  obtain ⟨hdiffers, hpnl⟩ := h
  have hpnl' : (q.netPnlLamports : ℝ) ≠ 0 := by exact_mod_cast hpnl
  have hrisk : (q.solAtRiskLamports : ℝ) ≠ 0 := by exact_mod_cast q.solAtRiskLamports_pos.ne'
  unfold TradeOutcome.ratio TradeOutcome.selected
  cases hmodel : q.modelSelected with
  | false =>
      have hbaseline : q.baselineSelected = true := by
        rw [hmodel] at hdiffers
        exact Bool.eq_true_of_not_eq_false hdiffers.symm
      simp [hbaseline, hpnl', hrisk]
  | true =>
      have hbaseline : q.baselineSelected = false := by
        rw [hmodel] at hdiffers
        exact Bool.eq_false_iff.2 hdiffers.symm
      simp [hbaseline, hpnl', hrisk]

/-- A common trade with a loss of `t` times what it risked has the ratio `-t` in both cohorts. -/
theorem ratio_withPnl (h : o.TakenByBoth) (t : ℕ) (model : Bool) :
    (o.withPnl (-(t * o.solAtRiskLamports))).ratio model = -(t : ℝ) := by
  have hrisk : (o.solAtRiskLamports : ℝ) ≠ 0 := by exact_mod_cast o.solAtRiskLamports_pos.ne'
  have hselected : (o.withPnl (-(t * o.solAtRiskLamports))).selected model = true := by
    cases model with
    | false => exact h.2
    | true => exact h.1
  rw [TradeOutcome.ratio, if_pos hselected, TradeOutcome.withPnl]
  push_cast
  field_simp

/-- The difference over `k` common trades and one that is not level. -/
theorem gateBDelta_drawn (h : o.TakenByBoth) (hq : ¬ q.Level) (k t : ℕ) :
    gateBDelta .netPnlPerDownsideDev
        (List.replicate k (o.withPnl (-(t * o.solAtRiskLamports))) ++ [q]) =
      (if q.modelSelected = true then 1 else -1) *
        drawnDelta k (-(t : ℝ)) (q.ratio q.modelSelected) := by
  obtain ⟨hother, -⟩ := ratio_of_not_level hq
  have hratios : ∀ model, cohortPerTradeRatios model
      (List.replicate k (o.withPnl (-(t * o.solAtRiskLamports))) ++ [q]) =
        drawn k (-(t : ℝ)) (q.ratio model) := by
    intro model
    rw [cohortPerTradeRatios, List.map_append, List.map_replicate, ratio_withPnl h]
    rfl
  rw [gateBDelta, hratios, hratios, drawnDelta]
  cases hmodel : q.modelSelected with
  | false =>
      rw [hmodel, Bool.not_false] at hother
      rw [hother]
      simp
  | true =>
      rw [hmodel, Bool.not_true] at hother
      rw [hother]
      simp

/-- What a resample draws that takes the common trade `k` times and another one once. -/
theorem filterMap_drawn {j : ℕ} (hj : (before ++ o :: after)[j]? = some q)
    (hne : j ≠ before.length) (k : ℕ) (o' : TradeOutcome) :
    ((List.replicate k before.length ++ [j]).filterMap fun i => (before ++ o' :: after)[i]?) =
      List.replicate k o' ++ [q] := by
  have hcommon : (before ++ o' :: after)[before.length]? = some o' := by
    rw [List.getElem?_append_right le_rfl, Nat.sub_self]
    rfl
  have hlast : (before ++ o' :: after)[j]? = some q := by
    rw [← hj]
    rcases lt_or_gt_of_ne hne with hlt | hgt
    · rw [List.getElem?_append_left hlt, List.getElem?_append_left hlt]
    · obtain ⟨i, hi⟩ : ∃ i, j - before.length = i + 1 := ⟨j - before.length - 1, by omega⟩
      rw [List.getElem?_append_right hgt.le, List.getElem?_append_right hgt.le, hi]
      rfl
  rw [List.filterMap_append, List.filterMap_cons_some hlast, List.filterMap_nil]
  congr 1
  induction k with
  | zero => rfl
  | succ k ih => rw [List.replicate_succ, List.filterMap_cons_some hcommon, ih, List.replicate_succ]

/-- A common trade and one that is not level: some result of the first moves some resample. -/
theorem not_cancel_of_common (ho : o ∈ outcomes) (hboth : o.TakenByBoth) (hq : q ∈ outcomes)
    (hlevel : ¬ q.Level) : ¬ AgreedTradesCancel .netPnlPerDownsideDev outcomes := by
  intro hcancel
  obtain ⟨before, after, rfl⟩ := List.append_of_mem ho
  obtain ⟨j, hj⟩ := List.mem_iff_getElem?.1 hq
  have hagreed : o.Agreed := hboth.1.trans hboth.2.symm
  have hne : j ≠ before.length := by
    rintro rfl
    rw [List.getElem?_append_right le_rfl, Nat.sub_self] at hj
    obtain rfl : o = q := Option.some.inj hj
    exact hlevel (Or.inl hagreed)
  have hjlt : j < (before ++ o :: after).length := (List.getElem?_eq_some_iff.1 hj).1
  have hlength : (before ++ o :: after).length = before.length + after.length + 1 := by
    simp only [List.length_append, List.length_cons]
    omega
  set k := before.length + after.length with hk
  have hkpos : 0 < k := by omega
  have hidx : IsResample (before ++ o :: after).length (List.replicate k before.length ++ [j]) := by
    refine ⟨by simp [hlength], fun i hi => ?_⟩
    rcases List.mem_append.1 hi with hi | hi
    · rw [List.eq_of_mem_replicate hi]
      omega
    · rw [List.mem_singleton.1 hi]
      exact hjlt
  -- every result of the common trade gives this resample the same difference
  have hsame : ∀ t : ℕ, (if q.modelSelected = true then 1 else -1) *
      drawnDelta k (-(t : ℝ)) (q.ratio q.modelSelected) =
        bootDelta .netPnlPerDownsideDev (before ++ o :: after)
          (List.replicate k before.length ++ [j]) := by
    intro t
    rw [← (hcancel before o after (-(t * o.solAtRiskLamports)) rfl hagreed).2 _ hidx, bootDelta_eq,
      filterMap_drawn hj hne, gateBDelta_drawn hboth hlevel]
    intro i hi
    have := hidx.2 i hi
    simpa using this
  obtain ⟨t, ht⟩ := exists_drawnDelta_ne hkpos (ratio_of_not_level hlevel).2
  have hsign : (if q.modelSelected = true then (1 : ℝ) else -1) ≠ 0 := by
    split_ifs
    · norm_num
    · norm_num
  have heq := mul_left_cancel₀ hsign ((hsame t).trans (hsame 0).symm)
  rw [Nat.cast_zero, neg_zero] at heq
  exact ht heq

/-- **Agreed trades cancel** exactly in the mean, where no trade is taken by both, or where the
cohorts are level on every trade.  Under the other unit a common trade enters the dispersion of
both cohorts, and so weighs on what each of them is divided by. -/
theorem agreedTradesCancel_iff (unitOfRisk : UnitOfRisk) (outcomes : List TradeOutcome) :
    AgreedTradesCancel unitOfRisk outcomes ↔ CancelCondition unitOfRisk outcomes := by
  constructor
  · intro hcancel
    by_contra hnot
    unfold CancelCondition at hnot
    push Not at hnot
    obtain ⟨hunit, ⟨o, ho, hboth⟩, q, hq, hlevel⟩ := hnot
    cases unitOfRisk with
    | netPnlPerSol => exact hunit rfl
    | netPnlPerDownsideDev => exact not_cancel_of_common ho hboth hq hlevel hcancel
  · exact agreedTradesCancel_of_condition

/-- Two trades of the same risk: one that both took and that earned it, one that only the model
took and that earned it too. -/
def twoTrades : List TradeOutcome :=
  [⟨"A", 1, true, true, 1, 1, Int.one_pos⟩, ⟨"B", 2, true, false, 1, 1, Int.one_pos⟩]

/-- A loss of 2 on the common one halves the difference. -/
theorem common_trade_moves_delta : ¬ AgreedTradesCancel .netPnlPerDownsideDev twoTrades ∧
    gateBDelta .netPnlPerDownsideDev twoTrades = 1 / 2 ∧
    gateBDelta .netPnlPerDownsideDev
      [⟨"A", 1, true, true, -2, 1, Int.one_pos⟩, ⟨"B", 2, true, false, 1, 1, Int.one_pos⟩] =
        1 / 4 := by
  have hdelta : ∀ x : ℤ, gateBDelta .netPnlPerDownsideDev
      [⟨"A", 1, true, true, x, 1, Int.one_pos⟩, ⟨"B", 2, true, false, 1, 1, Int.one_pos⟩] =
        drawnDelta 1 x 1 := by
    intro x
    simp [gateBDelta, drawnDelta, drawn, cohortPerTradeRatios, TradeOutcome.ratio,
      TradeOutcome.selected]
  have hgain : drawnDelta 1 ((1 : ℤ) : ℝ) 1 = 1 / 2 := by
    rw [drawnDelta, perUnitRisk_drawn_gains (by norm_num) (by norm_num),
      perUnitRisk_drawn_gains (by norm_num) le_rfl]
    norm_num
  have hloss : drawnDelta 1 ((-2 : ℤ) : ℝ) 1 = 1 / 4 := by
    push_cast
    rw [drawnDelta, perUnitRisk_drawn_losses one_pos (by norm_num) (by norm_num),
      perUnitRisk_drawn_losses one_pos (by norm_num) le_rfl]
    norm_num
  refine ⟨fun h => ?_, (hdelta 1).trans hgain, (hdelta (-2)).trans hloss⟩
  have hmoved := (h [] ⟨"A", 1, true, true, 1, 1, Int.one_pos⟩ _ (-2) rfl rfl).1
  have hquarter : (1 / 4 : ℝ) = 1 / 2 :=
    ((hdelta (-2)).trans hloss).symm.trans (hmoved.trans ((hdelta 1).trans hgain))
  norm_num at hquarter

end Counts

end Models
end AatsSniper

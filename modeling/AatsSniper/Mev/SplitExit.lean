/-
# Private split exits

`ExitProtectionPlanner` of `aats/mev/split_exit.py`, with the slippage profiles of
`aats/risk/exit_engine.py` it reads: how many legs, how the fraction is shared among
them, the revert floor of each, and the modeled exposure of the plan.

Two counts meet here.  The exposure is divided by the number of legs the pool asks
for; the split then makes at most one leg for each basis point, so a small
fraction has fewer legs than that (`plan_exact_iff`).  Everything else about a plan
is exact for every input: the shares sum to the fraction, and each leg loses less than
one base unit in either of its two floors (`sum_minOut_bounds`).

The arithmetic of `Decimal` is exact here.
-/

import AatsSniper.Exit.Config
import Mathlib.Algebra.Order.BigOperators.Group.List

namespace AatsSniper
namespace Mev

open Exit (MevExitMode)

/-- What the planner and the structures it builds raise. -/
inductive PlanError
  | fractionBps
  | perLegSlippageBps
  | expectedTokensOutBase
  | splitCount
  | splitSum
  | sandwichLegs
  | legIndex
  | legFractionBps (bps : ℤ)
  | legMinOutBase (minOut : ℤ)
  | totalFractionBps (bps : ℤ)
  | noLegs
  | legSum (total legSum : ℤ)
  | publicLeg
  | sandwichPBps (bps : ℤ)
  | exposureAboveFast (modeled baseline : ℤ)
  deriving DecidableEq

/-! ### Routing -/

/-- `MevSlippageModel`. -/
structure MevSlippageModel where
  exitSlippageBps : ℤ
  sandwichPBps : ℤ
  sandwichLossBps : ℤ

/-- `FAST_SLIPPAGE`. -/
def fastSlippage : MevSlippageModel := ⟨150, 3000, 1200⟩

/-- `SECURE_SLIPPAGE`. -/
def secureSlippage : MevSlippageModel := ⟨250, 800, 400⟩

/-- `slippage_model_for(mode)`. -/
def slippageModelFor : MevExitMode → MevSlippageModel
  | .fast => fastSlippage
  | .secure => secureSlippage

/-- `mode.value`. -/
def modeValue : MevExitMode → String
  | .fast => "fast"
  | .secure => "secure"

/-! ### The plan -/

/-- `ExitLeg`. -/
structure ExitLeg where
  legIndex : ℤ
  fractionBps : ℤ
  minOutBase : ℤ
  isPrivate : Bool
  index_nonneg : 0 ≤ legIndex
  fraction_range : 1 ≤ fractionBps ∧ fractionBps ≤ 10000
  minOut_nonneg : 0 ≤ minOutBase

/-- `ExitLeg(leg_index, fraction_bps, min_out_base, private)`. -/
def ExitLeg.new (legIndex fractionBps minOutBase : ℤ) (isPrivate : Bool) :
    Except PlanError ExitLeg :=
  if hindex : 0 ≤ legIndex then
    if hfraction : 1 ≤ fractionBps ∧ fractionBps ≤ 10000 then
      if hout : 0 ≤ minOutBase then
        .ok ⟨legIndex, fractionBps, minOutBase, isPrivate, hindex, hfraction, hout⟩
      else .error (.legMinOutBase minOutBase)
    else .error (.legFractionBps fractionBps)
  else .error .legIndex

/-- The arguments of `SplitExitPlan(...)`. -/
structure PlanParams where
  mint : String
  mode : MevExitMode
  totalFractionBps : ℤ
  legs : List ExitLeg
  modeledSandwichPBps : ℤ
  fastBaselineSandwichPBps : ℤ
  reason : String

/-- `SplitExitPlan.__post_init__`. -/
def PlanParams.postInit (p : PlanParams) : Except PlanError Unit := do
  require (1 ≤ p.totalFractionBps ∧ p.totalFractionBps ≤ 10000)
    (.totalFractionBps p.totalFractionBps)
  require (p.legs ≠ []) .noLegs
  let legSum := (p.legs.map ExitLeg.fractionBps).sum
  require (legSum = p.totalFractionBps) (.legSum p.totalFractionBps legSum)
  require (∀ leg ∈ p.legs, leg.isPrivate = true) .publicLeg
  require (0 ≤ p.modeledSandwichPBps ∧ p.modeledSandwichPBps ≤ 10000)
    (.sandwichPBps p.modeledSandwichPBps)
  require (0 ≤ p.fastBaselineSandwichPBps ∧ p.fastBaselineSandwichPBps ≤ 10000)
    (.sandwichPBps p.fastBaselineSandwichPBps)
  require (p.modeledSandwichPBps ≤ p.fastBaselineSandwichPBps)
    (.exposureAboveFast p.modeledSandwichPBps p.fastBaselineSandwichPBps)

/-- `SplitExitPlan`: arguments that passed `__post_init__`. -/
structure SplitExitPlan extends PlanParams where
  valid : toPlanParams.postInit = .ok ()

/-- `SplitExitPlan(...)`. -/
def SplitExitPlan.new (p : PlanParams) : Except PlanError SplitExitPlan :=
  match h : p.postInit with
  | .ok () => .ok ⟨p, h⟩
  | .error e => .error e

theorem SplitExitPlan.new_returns {p : PlanParams} (h : p.postInit = .ok ()) :
    ∃ plan, SplitExitPlan.new p = .ok plan ∧ plan.toPlanParams = p := by
  unfold SplitExitPlan.new
  split
  · exact ⟨_, rfl, rfl⟩
  · rename_i e he
    rw [h] at he
    cases he

/-- `n_legs`. -/
def SplitExitPlan.nLegs (p : SplitExitPlan) : ℕ := p.legs.length

/-! ### The planner -/

/-- `PoolLiquidity`. -/
structure PoolLiquidity where
  quoteReserveBase : ℤ
  sellNotionalBase : ℤ
  reserve_nonneg : 0 ≤ quoteReserveBase
  notional_nonneg : 0 ≤ sellNotionalBase

/-- `sell_fraction_of_pool_bps()`. -/
def PoolLiquidity.sellFractionOfPoolBps (pool : PoolLiquidity) : ℤ :=
  if pool.quoteReserveBase ≤ 0 then 10000
  else min (pool.sellNotionalBase * 10000 / pool.quoteReserveBase) 10000

/-- `ExitProtectionPlanner`. -/
structure ExitProtectionPlanner where
  maxLegs : ℤ := 4
  splitThresholdBps : ℤ := 200
  legs_pos : 1 ≤ maxLegs := by decide
  threshold_range : 1 ≤ splitThresholdBps ∧ splitThresholdBps ≤ 10000 := by decide

/-- `_leg_count(pool)`. -/
def ExitProtectionPlanner.legCount (planner : ExitProtectionPlanner) (pool : PoolLiquidity) : ℤ :=
  let fillBps := pool.sellFractionOfPoolBps
  if fillBps < planner.splitThresholdBps then 1
  else max 1 (min planner.maxLegs (fillBps / planner.splitThresholdBps))

/-- `parts` of `_split_bps_evenly`. -/
def evenParts (base rem n : ℤ) : List ℤ :=
  (List.range n.toNat).map fun i : ℕ => base + if (i : ℤ) < rem then 1 else 0

/-- `_split_bps_evenly(total_bps, n)`. -/
def splitBpsEvenly (totalBps n : ℤ) : Except PlanError (List ℤ) := do
  require (1 ≤ n) .splitCount
  let n := min n totalBps
  let base := totalBps / n
  let rem := totalBps - base * n
  let parts := evenParts base rem n
  require (parts.sum = totalBps) .splitSum
  return parts

/-- `_modeled_split_sandwich_p_bps(mode_base_p_bps, n_legs)`. -/
def modeledSplitSandwichPBps (modeBasePBps nLegs : ℤ) : Except PlanError ℤ := do
  require (1 ≤ nLegs) .sandwichLegs
  return modeBasePBps / nLegs

/-- `_validate_exit_inputs(...)`. -/
def validateExitInputs (fractionBps perLegSlippageBps expectedTokensOutBase : ℤ) :
    Except PlanError Unit := do
  require (1 ≤ fractionBps ∧ fractionBps ≤ 10000) .fractionBps
  require (0 ≤ perLegSlippageBps ∧ perLegSlippageBps < 10000) .perLegSlippageBps
  require (0 < expectedTokensOutBase) .expectedTokensOutBase

/-- `keep`: what the slippage bound leaves. -/
def keep (perLegSlippageBps : ℤ) : ℚ := (10000 - perLegSlippageBps) / 10000

/-- `min_out` of a leg. -/
def minOut (fractionBps expectedTokensOutBase perLegSlippageBps legFrac : ℤ) : ℤ :=
  ⌊((expectedTokensOutBase * legFrac / fractionBps : ℤ) : ℚ) * keep perLegSlippageBps⌋

/-- `_build_legs(...)`, from index `idx` on. -/
def buildLegs (fractionBps expectedTokensOutBase perLegSlippageBps : ℤ) :
    List ℤ → ℤ → Except PlanError (List ExitLeg)
  | [], _ => .ok []
  | lf :: rest, idx => do
      let leg ← ExitLeg.new idx lf
        (max (minOut fractionBps expectedTokensOutBase perLegSlippageBps lf) 0) true
      let legs ← buildLegs fractionBps expectedTokensOutBase perLegSlippageBps rest (idx + 1)
      return leg :: legs

/-- The `reason` of a plan. -/
def planReason (mode : MevExitMode) (nLegs poolFill perLegSlippageBps modeledP fastBaselineP : ℤ) :
    String :=
  modeValue mode ++ s!" private split: {nLegs} leg(s); pool_fill={poolFill}bps; " ++
    s!"per_leg_slip={perLegSlippageBps}bps; modeled_sandwich_p={modeledP}bps <= " ++
    s!"fast_baseline={fastBaselineP}bps"

/-- `plan(...)`. -/
def ExitProtectionPlanner.plan (planner : ExitProtectionPlanner) (mint : String) (fractionBps : ℤ)
    (mode : MevExitMode) (pool : PoolLiquidity) (perLegSlippageBps expectedTokensOutBase : ℤ) :
    Except PlanError SplitExitPlan := do
  validateExitInputs fractionBps perLegSlippageBps expectedTokensOutBase
  let nLegs := planner.legCount pool
  let legFracs ← splitBpsEvenly fractionBps nLegs
  let fastBaselineP := fastSlippage.sandwichPBps
  let modeBaseP := (slippageModelFor mode).sandwichPBps
  let modeled ← modeledSplitSandwichPBps modeBaseP nLegs
  let modeledP := min modeled fastBaselineP
  let legs ← buildLegs fractionBps expectedTokensOutBase perLegSlippageBps legFracs 0
  SplitExitPlan.new
    { mint := mint
      mode := mode
      totalFractionBps := fractionBps
      legs := legs
      modeledSandwichPBps := modeledP
      fastBaselineSandwichPBps := fastBaselineP
      reason := planReason mode nLegs pool.sellFractionOfPoolBps perLegSlippageBps modeledP
        fastBaselineP }

/-! ### The split -/

section Split

variable {base rem totalBps n : ℤ}

theorem sum_range_parts (base rem : ℤ) (hrem : 0 ≤ rem) (n : ℕ) :
    ((List.range n).map fun i : ℕ => base + if (i : ℤ) < rem then 1 else 0).sum =
      n * base + min (n : ℤ) rem := by
  induction n with
  | zero => simp [hrem]
  | succ n ih =>
      rw [List.range_succ, List.map_append, List.sum_append, ih]
      simp only [List.map_cons, List.map_nil, List.sum_cons, List.sum_nil]
      push_cast
      split_ifs <;> grind

/-- Each part is the base, or one more. -/
theorem mem_evenParts {part : ℤ} (h : part ∈ evenParts base rem n) :
    base ≤ part ∧ part ≤ base + 1 := by
  obtain ⟨i, -, rfl⟩ := List.mem_map.1 h
  split_ifs <;> omega

theorem sum_evenParts (hn : 0 ≤ n) (hrem : 0 ≤ rem) (hlt : rem ≤ n) :
    (evenParts base rem n).sum = n * base + rem := by
  unfold evenParts
  rw [sum_range_parts base rem hrem, Int.toNat_of_nonneg hn, min_eq_right hlt]

/-- A split of at least one basis point into at least one part: as many parts as asked for, at most
one for each basis point, with the whole between them. -/
theorem splitBpsEvenly_returns (htotal : 1 ≤ totalBps) (hn : 1 ≤ n) :
    ∃ parts, splitBpsEvenly totalBps n = .ok parts ∧ parts.sum = totalBps ∧
      (parts.length : ℤ) = min n totalBps ∧
      ∃ base, 1 ≤ base ∧ ∀ part ∈ parts, base ≤ part ∧ part ≤ base + 1 := by
  have hclamp : 1 ≤ min n totalBps := le_min hn htotal
  have hle : min n totalBps ≤ totalBps := min_le_right _ _
  generalize hclamped : min n totalBps = n' at hclamp hle
  have hdivmod := Int.mul_ediv_add_emod totalBps n'
  have hmod_nonneg := Int.emod_nonneg totalBps (by omega : n' ≠ 0)
  have hmod_lt := Int.emod_lt_of_pos totalBps (by omega : 0 < n')
  have hrem : totalBps - totalBps / n' * n' = totalBps % n' := by
    rw [mul_comm]
    omega
  have hsum : (evenParts (totalBps / n') (totalBps % n') n').sum = totalBps := by
    rw [sum_evenParts (by omega) hmod_nonneg hmod_lt.le]
    exact hdivmod
  refine ⟨evenParts (totalBps / n') (totalBps % n') n', ?_, hsum, ?_, totalBps / n', ?_,
    fun part hpart => mem_evenParts hpart⟩
  · unfold splitBpsEvenly
    rw [require_bind hn]
    simp only [hclamped, hrem]
    rw [require_bind hsum]
    rfl
  · simp only [evenParts, List.length_map, List.length_range]
    omega
  · exact (Int.le_ediv_iff_mul_le (by omega)).2 (by omega)

end Split

/-! ### The floors -/

section Floors

variable {fractionBps expectedTokensOutBase perLegSlippageBps : ℤ}

theorem keep_range (hslip : 0 ≤ perLegSlippageBps ∧ perLegSlippageBps < 10000) :
    0 < keep perLegSlippageBps ∧ keep perLegSlippageBps ≤ 1 := by
  have hpos : (0 : ℚ) < 10000 - perLegSlippageBps := by
    have : (perLegSlippageBps : ℚ) < 10000 := by exact_mod_cast hslip.2
    linarith
  have hnonneg : (0 : ℚ) ≤ perLegSlippageBps := by exact_mod_cast hslip.1
  unfold keep
  constructor
  · positivity
  · rw [div_le_one (by norm_num)]
    linarith

theorem minOut_nonneg (hfraction : 1 ≤ fractionBps) (hexpected : 0 < expectedTokensOutBase)
    (hslip : 0 ≤ perLegSlippageBps ∧ perLegSlippageBps < 10000) {legFrac : ℤ} (hleg : 0 ≤ legFrac) :
    0 ≤ minOut fractionBps expectedTokensOutBase perLegSlippageBps legFrac := by
  have htokens : 0 ≤ expectedTokensOutBase * legFrac / fractionBps :=
    Int.ediv_nonneg (mul_nonneg hexpected.le hleg) (by omega)
  have htokens' : (0 : ℚ) ≤ ((expectedTokensOutBase * legFrac / fractionBps : ℤ) : ℚ) := by
    exact_mod_cast htokens
  exact Int.floor_nonneg.2 (mul_nonneg htokens' (keep_range hslip).1.le)

/-- What a leg's share is worth at the slippage bound. -/
def exactOut (fractionBps expectedTokensOutBase perLegSlippageBps legFrac : ℤ) : ℚ :=
  expectedTokensOutBase * keep perLegSlippageBps * legFrac / fractionBps

variable (expectedTokensOutBase) in
/-- A leg loses less than one base unit in each of its two floors. -/
theorem minOut_bounds (hfraction : 1 ≤ fractionBps)
    (hslip : 0 ≤ perLegSlippageBps ∧ perLegSlippageBps < 10000) (legFrac : ℤ) :
    exactOut fractionBps expectedTokensOutBase perLegSlippageBps legFrac - 2 <
        minOut fractionBps expectedTokensOutBase perLegSlippageBps legFrac ∧
      (minOut fractionBps expectedTokensOutBase perLegSlippageBps legFrac : ℚ) ≤
        exactOut fractionBps expectedTokensOutBase perLegSlippageBps legFrac := by
  obtain ⟨hkeep, hkeep_le⟩ := keep_range hslip
  have hpos : (0 : ℚ) < fractionBps := by exact_mod_cast (by omega : 0 < fractionBps)
  set share : ℚ := (expectedTokensOutBase * legFrac : ℤ) / (fractionBps : ℚ) with hshare
  have hexact : exactOut fractionBps expectedTokensOutBase perLegSlippageBps legFrac =
      share * keep perLegSlippageBps := by
    rw [exactOut, hshare]
    push_cast
    ring
  have htokens : expectedTokensOutBase * legFrac / fractionBps = ⌊share⌋ := by
    obtain ⟨d, rfl⟩ := Int.eq_ofNat_of_zero_le (by omega : 0 ≤ fractionBps)
    rw [hshare, Int.cast_natCast, Rat.floor_intCast_div_natCast]
  have hfloor := Int.floor_le share
  have hlt := Int.lt_floor_add_one share
  rw [hexact, minOut, htokens]
  have hout := Int.floor_le ((⌊share⌋ : ℚ) * keep perLegSlippageBps)
  have hout_lt := Int.lt_floor_add_one ((⌊share⌋ : ℚ) * keep perLegSlippageBps)
  constructor
  · nlinarith
  · nlinarith

variable (expectedTokensOutBase) in
/-- **The floors of a split.**  Two base units for each leg are more than is lost. -/
theorem sum_minOut_bounds (hfraction : 1 ≤ fractionBps)
    (hslip : 0 ≤ perLegSlippageBps ∧ perLegSlippageBps < 10000) :
    ∀ {fracs : List ℤ}, fracs ≠ [] →
      exactOut fractionBps expectedTokensOutBase perLegSlippageBps fracs.sum -
            2 * (fracs.length : ℚ) <
          ((fracs.map (minOut fractionBps expectedTokensOutBase perLegSlippageBps)).sum : ℤ) ∧
        (((fracs.map (minOut fractionBps expectedTokensOutBase perLegSlippageBps)).sum : ℤ) : ℚ) ≤
          exactOut fractionBps expectedTokensOutBase perLegSlippageBps fracs.sum
  | [], h => absurd rfl h
  | [lf], _ => by
      obtain ⟨hlow, hhigh⟩ := minOut_bounds expectedTokensOutBase hfraction hslip lf
      simp only [List.map_cons, List.map_nil, List.sum_cons, List.sum_nil, add_zero,
        List.length_cons, List.length_nil]
      constructor
      · push_cast
        linarith
      · exact hhigh
  | lf :: lf' :: rest, _ => by
      obtain ⟨hlow, hhigh⟩ := minOut_bounds expectedTokensOutBase hfraction hslip lf
      obtain ⟨ihlow, ihhigh⟩ := sum_minOut_bounds hfraction hslip (List.cons_ne_nil lf' rest)
      generalize lf' :: rest = tail at ihlow ihhigh ⊢
      have hexact : exactOut fractionBps expectedTokensOutBase perLegSlippageBps (lf :: tail).sum =
          exactOut fractionBps expectedTokensOutBase perLegSlippageBps lf +
            exactOut fractionBps expectedTokensOutBase perLegSlippageBps tail.sum := by
        unfold exactOut
        rw [List.sum_cons]
        push_cast
        ring
      rw [hexact, List.map_cons, List.sum_cons, List.length_cons]
      simp only [Int.cast_add, Nat.cast_add, Nat.cast_one]
      constructor
      · linarith
      · linarith

theorem exactOut_self (hfraction : 1 ≤ fractionBps) :
    exactOut fractionBps expectedTokensOutBase perLegSlippageBps fractionBps =
      expectedTokensOutBase * keep perLegSlippageBps := by
  have : (fractionBps : ℚ) ≠ 0 := by exact_mod_cast (by omega : fractionBps ≠ 0)
  unfold exactOut
  field_simp

end Floors

/-! ### The legs -/

/-- Shares in range become private legs, one each. -/
theorem buildLegs_returns {fractionBps expectedTokensOutBase perLegSlippageBps : ℤ}
    (hfraction : 1 ≤ fractionBps) (hexpected : 0 < expectedTokensOutBase)
    (hslip : 0 ≤ perLegSlippageBps ∧ perLegSlippageBps < 10000) :
    ∀ (fracs : List ℤ) (idx : ℤ), 0 ≤ idx → (∀ lf ∈ fracs, 1 ≤ lf ∧ lf ≤ 10000) →
      ∃ legs, buildLegs fractionBps expectedTokensOutBase perLegSlippageBps fracs idx = .ok legs ∧
        legs.map ExitLeg.fractionBps = fracs ∧
        legs.map ExitLeg.minOutBase =
          fracs.map (minOut fractionBps expectedTokensOutBase perLegSlippageBps) ∧
        ∀ leg ∈ legs, leg.isPrivate = true
  | [], _, _, _ => ⟨[], rfl, rfl, rfl, by simp⟩
  | lf :: rest, idx, hidx, hfracs => by
      have hlf := hfracs lf List.mem_cons_self
      have hout := minOut_nonneg hfraction hexpected hslip (by omega : 0 ≤ lf)
      have hmax := max_eq_left hout
      obtain ⟨legs, hlegs, hfractions, houts, hprivate⟩ := buildLegs_returns hfraction hexpected
        hslip rest (idx + 1) (by omega) fun lf' h => hfracs lf' (List.mem_cons_of_mem _ h)
      refine ⟨⟨idx, lf, _, true, hidx, hlf, hout⟩ :: legs, ?_, ?_, ?_, ?_⟩
      · unfold buildLegs
        rw [hmax]
        simp only [ExitLeg.new, dif_pos hidx, dif_pos hlf, dif_pos hout]
        rw [bind_of_ok rfl, bind_of_ok hlegs]
        rfl
      · rw [List.map_cons, hfractions]
      · rw [List.map_cons, List.map_cons, houts]
      · intro leg hleg
        rcases List.mem_cons.1 hleg with rfl | hleg
        · rfl
        · exact hprivate leg hleg

theorem legCount_pos (planner : ExitProtectionPlanner) (pool : PoolLiquidity) :
    1 ≤ planner.legCount pool := by
  unfold ExitProtectionPlanner.legCount
  dsimp only
  split_ifs
  · exact le_rfl
  · exact le_max_left _ _

/-- The exposure of a mode before the split. -/
theorem sandwichPBps_range (mode : MevExitMode) :
    0 ≤ (slippageModelFor mode).sandwichPBps ∧ (slippageModelFor mode).sandwichPBps ≤ 3000 := by
  cases mode <;> decide

/-! ### The plan -/

/-- Shares that sum to the fraction are shares of legs. -/
theorem share_range {fracs : List ℤ} {fractionBps base : ℤ} (hle : fractionBps ≤ 10000)
    (hsum : fracs.sum = fractionBps) (hbase : 1 ≤ base)
    (heven : ∀ part ∈ fracs, base ≤ part ∧ part ≤ base + 1) :
    ∀ lf ∈ fracs, 1 ≤ lf ∧ lf ≤ 10000 := by
  intro lf hlf
  have hrest : ∀ part ∈ fracs, 0 ≤ part := fun part h => by
    have := heven part h
    omega
  have := List.single_le_sum hrest lf hlf
  have := heven lf hlf
  omega

theorem validateExitInputs_returns {fractionBps perLegSlippageBps expectedTokensOutBase : ℤ}
    (hfraction : 1 ≤ fractionBps ∧ fractionBps ≤ 10000)
    (hslip : 0 ≤ perLegSlippageBps ∧ perLegSlippageBps < 10000)
    (hexpected : 0 < expectedTokensOutBase) :
    validateExitInputs fractionBps perLegSlippageBps expectedTokensOutBase = .ok () := by
  unfold validateExitInputs
  rw [require_bind hfraction, require_bind hslip]
  exact require_eq_ok.2 hexpected

theorem modeledSplitSandwichPBps_returns {modeBasePBps nLegs : ℤ} (hcount : 1 ≤ nLegs) :
    modeledSplitSandwichPBps modeBasePBps nLegs = .ok (modeBasePBps / nLegs) := by
  unfold modeledSplitSandwichPBps
  rw [require_bind hcount]
  rfl

/-- A share of a mode's exposure is at most the FAST baseline. -/
theorem modeled_range (mode : MevExitMode) {nLegs : ℤ} (hcount : 1 ≤ nLegs) :
    0 ≤ (slippageModelFor mode).sandwichPBps / nLegs ∧
      (slippageModelFor mode).sandwichPBps / nLegs ≤ 3000 := by
  obtain ⟨hbase_nonneg, hbase_le⟩ := sandwichPBps_range mode
  constructor
  · exact Int.ediv_nonneg hbase_nonneg (by omega)
  · exact (Int.ediv_le_self _ hbase_nonneg).trans hbase_le

/-- **What the planner returns** for an admissible exit. -/
theorem plan_returns (planner : ExitProtectionPlanner) (mint : String) {fractionBps : ℤ}
    (mode : MevExitMode) (pool : PoolLiquidity) {perLegSlippageBps expectedTokensOutBase : ℤ}
    (hfraction : 1 ≤ fractionBps ∧ fractionBps ≤ 10000)
    (hslip : 0 ≤ perLegSlippageBps ∧ perLegSlippageBps < 10000)
    (hexpected : 0 < expectedTokensOutBase) :
    ∃ p, planner.plan mint fractionBps mode pool perLegSlippageBps expectedTokensOutBase = .ok p ∧
      p.totalFractionBps = fractionBps ∧ p.mode = mode ∧
      p.modeledSandwichPBps = (slippageModelFor mode).sandwichPBps / planner.legCount pool ∧
      ∃ fracs, splitBpsEvenly fractionBps (planner.legCount pool) = .ok fracs ∧
        p.legs.map ExitLeg.fractionBps = fracs ∧
        p.legs.map ExitLeg.minOutBase =
          fracs.map (minOut fractionBps expectedTokensOutBase perLegSlippageBps) := by
  have hcount := legCount_pos planner pool
  obtain ⟨fracs, hsplit, hsum, hlength, base, hbase, heven⟩ :=
    splitBpsEvenly_returns hfraction.1 hcount
  obtain ⟨legs, hlegs, hfracs, houts, hprivate⟩ := buildLegs_returns hfraction.1 hexpected hslip
    fracs 0 le_rfl (share_range hfraction.2 hsum hbase heven)
  have hlegs_nonempty : legs ≠ [] := by
    rintro rfl
    obtain rfl : [] = fracs := hfracs
    simp only [List.length_nil, Nat.cast_zero] at hlength
    omega
  obtain ⟨hmodeled_nonneg, hmodeled_le⟩ := modeled_range mode hcount
  have hvalid : PlanParams.postInit
      { mint := mint
        mode := mode
        totalFractionBps := fractionBps
        legs := legs
        modeledSandwichPBps := (slippageModelFor mode).sandwichPBps / planner.legCount pool
        fastBaselineSandwichPBps := 3000
        reason := planReason mode (planner.legCount pool) pool.sellFractionOfPoolBps
          perLegSlippageBps ((slippageModelFor mode).sandwichPBps / planner.legCount pool) 3000 } =
      .ok () := by
    unfold PlanParams.postInit
    rw [require_bind hfraction, require_bind hlegs_nonempty]
    dsimp only
    rw [require_bind (by rw [hfracs, hsum]), require_bind hprivate,
      require_bind ⟨hmodeled_nonneg, by omega⟩, require_bind (by decide)]
    exact require_eq_ok.2 hmodeled_le
  obtain ⟨p, hp, hparams⟩ := SplitExitPlan.new_returns hvalid
  refine ⟨p, ?_, by rw [hparams], by rw [hparams], by rw [hparams], fracs, hsplit,
    by rw [hparams, hfracs], by rw [hparams, houts]⟩
  unfold ExitProtectionPlanner.plan
  rw [bind_of_ok (validateExitInputs_returns hfraction hslip hexpected)]
  dsimp only [fastSlippage]
  -- the clamp to the FAST baseline changes nothing
  rw [bind_of_ok hsplit, bind_of_ok (modeledSplitSandwichPBps_returns hcount), bind_of_ok hlegs,
    min_eq_left hmodeled_le]
  exact hp

/-- The exposure a plan should have: the mode's base shared among the legs it has. -/
def ModelsItsLegs (p : SplitExitPlan) : Prop :=
  p.modeledSandwichPBps = (slippageModelFor p.mode).sandwichPBps / (p.nLegs : ℤ)

/-- The shares of a plan sum to its fraction and differ by at most one basis point. -/
structure SharesExactly (p : SplitExitPlan) : Prop where
  sum : (p.legs.map ExitLeg.fractionBps).sum = p.totalFractionBps
  even : ∀ leg ∈ p.legs, ∀ leg' ∈ p.legs, leg.fractionBps ≤ leg'.fractionBps + 1

/-- The revert floors of a plan, against what is expected at the slippage bound. -/
structure FloorsTightly (p : SplitExitPlan) (perLegSlippageBps expectedTokensOutBase : ℤ) :
    Prop where
  above : expectedTokensOutBase * keep perLegSlippageBps - 2 * (p.nLegs : ℚ) <
    (p.legs.map ExitLeg.minOutBase).sum
  below : ((p.legs.map ExitLeg.minOutBase).sum : ℚ) ≤ expectedTokensOutBase * keep perLegSlippageBps

/-- **When a plan models the legs it has.**  For every admissible exit the planner returns a plan
that shares the fraction exactly and whose floors are within two base units a leg of the bound; its
modeled exposure is that of its legs iff the pool asks for no more legs than there are basis points
to sell, or the base divides to the same floor by both counts. -/
theorem plan_exact_iff (planner : ExitProtectionPlanner) (mint : String) (fractionBps : ℤ)
    (mode : MevExitMode) (pool : PoolLiquidity) (perLegSlippageBps expectedTokensOutBase : ℤ)
    (hfraction : 1 ≤ fractionBps ∧ fractionBps ≤ 10000)
    (hslip : 0 ≤ perLegSlippageBps ∧ perLegSlippageBps < 10000)
    (hexpected : 0 < expectedTokensOutBase) :
    ∃ p, planner.plan mint fractionBps mode pool perLegSlippageBps expectedTokensOutBase = .ok p ∧
      p.totalFractionBps = fractionBps ∧ p.mode = mode ∧ SharesExactly p ∧
      FloorsTightly p perLegSlippageBps expectedTokensOutBase ∧
      (ModelsItsLegs p ↔ planner.legCount pool ≤ fractionBps ∨
        (slippageModelFor mode).sandwichPBps / planner.legCount pool =
          (slippageModelFor mode).sandwichPBps / fractionBps) := by
  have hcount := legCount_pos planner pool
  obtain ⟨p, hplan, htotal, hmode, hmodeled, fracs, hsplit, hfracs, houts⟩ :=
    plan_returns planner mint mode pool hfraction hslip hexpected
  obtain ⟨fracs', hsplit', hsum, hlength, base, -, heven⟩ :=
    splitBpsEvenly_returns hfraction.1 hcount
  obtain rfl := Except.ok.inj (hsplit.symm.trans hsplit')
  have hlegs : p.nLegs = fracs.length := by
    rw [SplitExitPlan.nLegs, ← hfracs, List.length_map]
  refine ⟨p, hplan, htotal, hmode, ⟨?_, ?_⟩, ?_, ?_⟩
  · rw [hfracs, hsum, htotal]
  · intro leg hleg leg' hleg'
    have hrange := heven _ (hfracs ▸ List.mem_map_of_mem hleg)
    have hrange' := heven _ (hfracs ▸ List.mem_map_of_mem hleg')
    omega
  · have hnonempty : fracs ≠ [] := by
      rintro rfl
      simp only [List.length_nil, Nat.cast_zero] at hlength
      omega
    obtain ⟨habove, hbelow⟩ := sum_minOut_bounds expectedTokensOutBase hfraction.1 hslip hnonempty
    rw [hsum, exactOut_self hfraction.1, ← houts] at habove hbelow
    exact ⟨by rw [hlegs]; exact habove, hbelow⟩
  · unfold ModelsItsLegs
    rw [hmodeled, hmode, hlegs, hlength]
    rcases le_or_gt (planner.legCount pool) fractionBps with hle | hlt
    · simp [hle]
    · simp [min_eq_right hlt.le, not_le.2 hlt]

/-- A pool as large as what is sold into it: the default planner asks for four legs. -/
def thinPool : PoolLiquidity where
  quoteReserveBase := 1000000
  sellNotionalBase := 1000000
  reserve_nonneg := by decide
  notional_nonneg := by decide

/-- A full exit into the thin pool. -/
theorem plan_exact_iff_full : ∃ p : SplitExitPlan,
    ({} : ExitProtectionPlanner).plan "mint" 10000 .secure thinPool 100 1000000 = .ok p ∧
      ModelsItsLegs p := by
  obtain ⟨p, hp, -, -, -, -, hmodels⟩ := plan_exact_iff {} "mint" 10000 .secure thinPool 100 1000000
    (by decide) (by decide) (by decide)
  exact ⟨p, hp, hmodels.2 (.inl (by decide +kernel))⟩

/-- One basis point of it is one leg, with the exposure of four. -/
theorem one_bp_modeled_as_four_legs : ∃ p : SplitExitPlan,
    ({} : ExitProtectionPlanner).plan "mint" 1 .secure thinPool 100 1000000 = .ok p ∧
      p.nLegs = 1 ∧ p.modeledSandwichPBps = 200 ∧ ¬ ModelsItsLegs p := by
  obtain ⟨p, hp, htest⟩ := exists_ok_of_any
    (x := ({} : ExitProtectionPlanner).plan "mint" 1 .secure thinPool 100 1000000)
    (p := fun p => decide (p.nLegs = 1 ∧ p.modeledSandwichPBps = 200 ∧ p.mode = .secure))
    (by decide +kernel)
  obtain ⟨hlegs, hmodeled, hmode⟩ := of_decide_eq_true htest
  refine ⟨p, hp, hlegs, hmodeled, ?_⟩
  unfold ModelsItsLegs
  rw [hlegs, hmodeled, hmode]
  decide

end Mev
end AatsSniper

/-
# The realizable exit

`aats/backtest/realizable_exit.py` and the two functions that use it, `resolve_outcome` of
`aats/backtest/outcome_harness.py` and `resolve_momentum_outcome` of
`aats/backtest/momentum_harness.py`, over the paper walk.

What a walk brings at the quoted prices is cut by the slippage of the thinnest of the marks that
can be sold into, or to the residual where there is none.  The cut is never negative, so
the result is never above that of the quoted prices.  The thinnest is taken of the sellable
marks only: a mark that falls below the floor no longer counts (`multiplier_le`).

The arithmetic of `Decimal` is exact here.
-/

import AatsSniper.Backtest.PaperWalk
import AatsSniper.Lib.Sort

namespace AatsSniper
namespace Backtest

open Exit

/-! ### The frozen constants -/

/-- The `RealizableExitError`s of `_validate_ranges`. -/
inductive RealizableExitError
  | linearImpactCoeff
  | maxSlippageFraction
  | minLiquidityUsdFloor
  | honeypotResidualBps
  | solUsdFallback
  deriving DecidableEq

/-- The constants of `RealizableParams`. -/
structure RealizableConstants where
  linearImpactCoeff : ℚ
  maxSlippageFraction : ℚ
  minLiquidityUsdFloor : ℚ
  honeypotResidualBps : ℚ
  solUsdFallback : ℚ

/-- `_validate_ranges(p)`. -/
def RealizableConstants.validateRanges (p : RealizableConstants) :
    Except RealizableExitError Unit := do
  require (0 ≤ p.linearImpactCoeff) .linearImpactCoeff
  require (0 ≤ p.maxSlippageFraction ∧ p.maxSlippageFraction ≤ 1) .maxSlippageFraction
  require (0 ≤ p.minLiquidityUsdFloor) .minLiquidityUsdFloor
  require (0 ≤ p.honeypotResidualBps ∧ p.honeypotResidualBps ≤ 10000) .honeypotResidualBps
  require (0 < p.solUsdFallback) .solUsdFallback

/-- `RealizableParams`, as `load_realizable_params` returns it. -/
structure RealizableParams extends RealizableConstants where
  valid : toRealizableConstants.validateRanges = .ok ()

/-- `honeypot_residual_fraction`. -/
def RealizableParams.honeypotResidualFraction (p : RealizableParams) : ℚ :=
  p.honeypotResidualBps / 10000

/-- `REALIZABLE_PARAMS`. -/
def realizableParams : RealizableParams where
  linearImpactCoeff := 1
  maxSlippageFraction := 0.90
  minLiquidityUsdFloor := 500
  honeypotResidualBps := 0
  solUsdFallback := 150
  valid := by decide +kernel

/-! ### The adjustment -/

/-- `SellableMark`: what is read of a `ForwardObservation` or a `MomentumForwardObservation`. -/
structure SellableMark where
  priceSol : Option ℚ
  priceUsd : Option ℚ
  liquidityUsd : Option ℚ
  deriving DecidableEq

/-- `slippage_fraction(notional_usd, liquidity_usd, params)`. -/
def slippageFraction (notionalUsd liquidityUsd : ℚ) (p : RealizableParams) : ℚ :=
  if liquidityUsd ≤ 0 ∨ notionalUsd ≤ 0 then
    if liquidityUsd ≤ 0 then p.maxSlippageFraction else 0
  else
    let raw := p.linearImpactCoeff * notionalUsd / liquidityUsd
    if raw < p.maxSlippageFraction then raw else p.maxSlippageFraction

/-- `_median(values)`, of at least one. -/
def median (values : List ℚ) : ℚ :=
  let s := sortBy id values
  let mid := s.length / 2
  if s.length % 2 = 1 then s.getD mid 0 else (s.getD (mid - 1) 0 + s.getD mid 0) / 2

/-- The rate of a mark that carries both prices. -/
def SellableMark.ratio (m : SellableMark) : Option ℚ := do
  let ps ← m.priceSol
  let pu ← m.priceUsd
  if 0 < ps ∧ 0 < pu then some (pu / ps) else none

/-- `derive_sol_usd(marks, params)`. -/
def deriveSolUsd (marks : List SellableMark) (p : RealizableParams) : ℚ :=
  let ratios := marks.filterMap SellableMark.ratio
  if ratios = [] then p.solUsdFallback else median ratios

/-- `_sellable(mark, floor)`, and then its liquidity. -/
def SellableMark.sellable (m : SellableMark) (floor : ℚ) : Option ℚ := do
  let ps ← m.priceSol
  let lq ← m.liquidityUsd
  if 0 < ps ∧ floor ≤ lq then some lq else none

/-- `RealizableAdjustment`. -/
structure RealizableAdjustment where
  sellableMarketExisted : Bool
  solUsd : ℚ
  representativeLiquidityUsd : Option ℚ
  notionalUsd : ℚ
  slipFraction : ℚ
  multiplier : ℚ
  deductionLamports : ℤ

/-- The notional in USD. -/
def notionalUsd (marks : List SellableMark) (notionalLamports : ℤ) (p : RealizableParams) : ℚ :=
  notionalLamports / 1000000000 * deriveSolUsd marks p

/-- `sellable_liqs`. -/
def sellableLiqs (marks : List SellableMark) (p : RealizableParams) : List ℚ :=
  marks.filterMap (·.sellable p.minLiquidityUsdFloor)

/-- `slip`, and `multiplier` is the rest of one. -/
def slip (marks : List SellableMark) (notionalLamports : ℤ) (p : RealizableParams) : ℚ :=
  match (sellableLiqs marks p).min? with
  | none => 1 - p.honeypotResidualFraction
  | some repLiq => slippageFraction (notionalUsd marks notionalLamports p) repLiq p

/-- `multiplier`. -/
def multiplier (marks : List SellableMark) (notionalLamports : ℤ) (p : RealizableParams) : ℚ :=
  match (sellableLiqs marks p).min? with
  | none => p.honeypotResidualFraction
  | some _ => 1 - slip marks notionalLamports p

/-- `compute_realizable_adjustment(marks, notional_lamports, spot_proceeds_lamports, params)`. -/
def computeRealizableAdjustment (marks : List SellableMark) (notionalLamports : ℤ)
    (spotProceedsLamports : ℤ) (p : RealizableParams) : RealizableAdjustment :=
  let liqs := sellableLiqs marks p
  let multiplier := multiplier marks notionalLamports p
  let realizableProceeds := truncate (spotProceedsLamports * multiplier)
  let deduction := spotProceedsLamports - realizableProceeds
  { sellableMarketExisted := liqs ≠ []
    solUsd := deriveSolUsd marks p
    representativeLiquidityUsd := liqs.min?
    notionalUsd := notionalUsd marks notionalLamports p
    slipFraction := slip marks notionalLamports p
    multiplier := multiplier
    deductionLamports := if deduction < 0 then 0 else deduction }

/-- The `exit_model` strings; any other is unknown. -/
inductive ExitModel
  | spot
  | realizable
  | unknown (name : String)
  deriving DecidableEq

/-- What resolving an outcome raises. -/
inductive OutcomeError
  | corpusRecord (mint text : String)
  | unknownExitModel (name : String)
  | walk (e : WalkError)
  deriving DecidableEq

/-- `realizable_gross_pnl(...)`. -/
def realizableGrossPnl (spotGrossLamports spotProceedsLamports : ℤ) (marks : List SellableMark)
    (notionalLamports : ℤ) (exitModel : ExitModel) (p : RealizableParams) :
    Except OutcomeError (ℤ × Option RealizableAdjustment) :=
  match exitModel with
  | .spot => .ok (spotGrossLamports, none)
  | .unknown name => .error (.unknownExitModel name)
  | .realizable =>
      let adj := computeRealizableAdjustment marks notionalLamports spotProceedsLamports p
      let gross := spotGrossLamports - adj.deductionLamports
      .ok (if spotGrossLamports < gross then spotGrossLamports else gross, some adj)

/-! ### Resolving an outcome -/

/-- What is read of a `CostStack`. -/
structure CostStack where
  totalCostBps : ℤ
  exitSlippageBps : ℤ

/-- `OutcomeResult`. -/
structure OutcomeResult where
  netPnlLamports : ℤ
  grossPnlLamports : ℤ
  roundTripCostLamports : ℤ
  realizedMultiple : ℚ
  nForwardMarks : ℕ
  rugged : Bool
  exitModel : ExitModel
  spotGrossPnlLamports : ℤ
  realizableDeductionLamports : ℤ
  sellableMarketExisted : Bool
  deriving DecidableEq

/-- The mark as a multiple of the entry price; no market is worth nothing. -/
def SellableMark.multiple (m : SellableMark) (entryPrice : ℚ) : ℚ :=
  match m.priceSol with
  | none => 0
  | some price => price / entryPrice

/-- What both functions are called with: the engine, the draws of the generator seeded with the mint,
the cost stack and the constants. -/
structure Resolver where
  engine : ExitConfig
  draws : String → ℕ → ℚ
  costStack : CostStack
  params : RealizableParams := realizableParams

/-- The arguments of `walk_position` in both functions. -/
def resolveArgs (mint : String) (entryPrice : ℚ) (marks : List SellableMark)
    (blockTimeMs : ℤ) : WalkArgs where
  mint := mint
  entryFillPrice := 1
  path := marks.map (·.multiple entryPrice)
  blockTimeMsStart := blockTimeMs

/-- The body of both functions behind their checks. -/
def Resolver.resolve (R : Resolver) (mint : String) (entryPrice : ℚ) (marks : List SellableMark)
    (solAtRiskLamports blockTimeMs : ℤ) (exitModel : ExitModel) :
    Except OutcomeError OutcomeResult := do
  let args := resolveArgs mint entryPrice marks blockTimeMs
  let walk ← (walkPosition R.engine args (R.draws mint) solAtRiskLamports).mapError .walk
  let (gross, adj) ← realizableGrossPnl walk.grossPnlLamports walk.proceedsLamports marks
    solAtRiskLamports exitModel R.params
  let entrySideBps := R.costStack.totalCostBps - R.costStack.exitSlippageBps
  let roundTripCost := truncate (solAtRiskLamports * entrySideBps / 10000)
  return {
    netPnlLamports := gross - roundTripCost
    grossPnlLamports := gross
    roundTripCostLamports := roundTripCost
    realizedMultiple := args.path.getLast?.getD 0
    nForwardMarks := marks.length
    rugged := marks.any fun m => m.priceSol = none
    exitModel := exitModel
    spotGrossPnlLamports := walk.grossPnlLamports
    realizableDeductionLamports := (adj.map (·.deductionLamports)).getD 0
    sellableMarketExisted := (adj.map (·.sellableMarketExisted)).getD true }

/-- `exit_model not in EXIT_MODELS`. -/
def checkExitModel : ExitModel → Except OutcomeError Unit
  | .unknown name => .error (.unknownExitModel name)
  | _ => .ok ()

/-- What `resolve_outcome` reads of an `EntryRecord`. -/
structure LaunchEntry where
  mint : String
  decisionBlockTimeMs : ℤ
  vSolLamports : ℤ
  vTokensBase : ℚ

/-- `entry_price_sol`. -/
def LaunchEntry.entryPriceSol (entry : LaunchEntry) : Except OutcomeError ℚ := do
  require (0 < entry.vTokensBase)
    (OutcomeError.corpusRecord entry.mint "non-positive v_tokens (CENSORED)")
  return entry.vSolLamports / 1000000000 / entry.vTokensBase

/-- `resolve_outcome(entry, forward_path, ...)`. -/
def Resolver.resolveOutcome (R : Resolver) (entry : LaunchEntry) (forwardPath : List SellableMark)
    (solAtRiskLamports : ℤ) (exitModel : ExitModel) : Except OutcomeError OutcomeResult := do
  require (forwardPath ≠ [])
    (OutcomeError.corpusRecord entry.mint "no forward observations (CENSORED)")
  checkExitModel exitModel
  let entryPrice ← entry.entryPriceSol
  require (0 < entryPrice)
    (OutcomeError.corpusRecord entry.mint "non-positive entry price (CENSORED)")
  R.resolve entry.mint entryPrice forwardPath solAtRiskLamports entry.decisionBlockTimeMs exitModel

/-- `resolve_momentum_outcome(mint, entry_price_sol, post_entry_marks, ...)`. -/
def Resolver.resolveMomentumOutcome (R : Resolver) (mint : String) (entryPriceSol : ℚ)
    (postEntryMarks : List SellableMark) (solAtRiskLamports decisionBlockTimeMs : ℤ)
    (exitModel : ExitModel) : Except OutcomeError OutcomeResult := do
  require (postEntryMarks ≠ [])
    (OutcomeError.corpusRecord mint "no post-T_ENTRY marks to resolve outcome (CENSORED)")
  checkExitModel exitModel
  require (0 < entryPriceSol)
    (OutcomeError.corpusRecord mint "non-positive T_ENTRY entry price (CENSORED)")
  R.resolve mint entryPriceSol postEntryMarks solAtRiskLamports decisionBlockTimeMs exitModel

/-! ### The multiplier -/

section Multiplier

variable {p : RealizableParams} {n l l' : ℚ} {marks marks' : List SellableMark} {S : ℤ}

/-- What `_validate_ranges` checks of the slippage. -/
theorem RealizableParams.ranges (p : RealizableParams) :
    0 ≤ p.linearImpactCoeff ∧ (0 ≤ p.maxSlippageFraction ∧ p.maxSlippageFraction ≤ 1) ∧
      0 ≤ p.honeypotResidualFraction ∧ p.honeypotResidualFraction ≤ 1 := by
  have h := p.valid
  unfold RealizableConstants.validateRanges at h
  obtain ⟨hcoeff, h⟩ := ok_of_require h
  obtain ⟨hcap, h⟩ := ok_of_require h
  obtain ⟨-, h⟩ := ok_of_require h
  obtain ⟨hresidual, -⟩ := ok_of_require h
  unfold RealizableParams.honeypotResidualFraction
  exact ⟨hcoeff, hcap, by linarith, by linarith⟩

variable (p n l) in
/-- The slippage is between nothing and its cap. -/
theorem slippageFraction_range :
    0 ≤ slippageFraction n l p ∧ slippageFraction n l p ≤ p.maxSlippageFraction := by
  obtain ⟨hcoeff, ⟨hcap, -⟩, -⟩ := p.ranges
  unfold slippageFraction
  dsimp only
  split_ifs with hnone hliq hraw
  · exact ⟨hcap, le_rfl⟩
  · exact ⟨le_rfl, hcap⟩
  · rw [not_or, not_le, not_le] at hnone
    exact ⟨div_nonneg (mul_nonneg hcoeff hnone.2.le) hnone.1.le, hraw.le⟩
  · exact ⟨hcap, le_rfl⟩

variable (p n) in
/-- **A thinner book slips more.** -/
theorem slippageFraction_antitone (h : l ≤ l') :
    slippageFraction n l' p ≤ slippageFraction n l p := by
  obtain ⟨hcoeff, -, -⟩ := p.ranges
  by_cases hl : l ≤ 0
  · -- into an empty book it slips by the cap
    have hcap : slippageFraction n l p = p.maxSlippageFraction := by
      rw [slippageFraction, if_pos (.inl hl), if_pos hl]
    rw [hcap]
    exact (slippageFraction_range p n l').2
  · have hl' : ¬ l' ≤ 0 := by linarith
    by_cases hn : n ≤ 0
    · rw [slippageFraction, if_pos (.inr hn), if_neg hl', slippageFraction, if_pos (.inr hn),
        if_neg hl]
    · have hraw : p.linearImpactCoeff * n / l' ≤ p.linearImpactCoeff * n / l :=
        div_le_div_of_nonneg_left (mul_nonneg hcoeff (not_le.1 hn).le) (not_le.1 hl) h
      unfold slippageFraction
      rw [if_neg (not_or.2 ⟨hl', hn⟩), if_neg (not_or.2 ⟨hl, hn⟩)]
      dsimp only
      split_ifs with h₁ h₂ h₂
      · exact hraw
      · exact h₁.le
      · linarith
      · exact le_rfl

/-- The multiplier, as the thinnest of the sellable books gives it. -/
def multiplierOf (liqs : List ℚ) (n : ℚ) (p : RealizableParams) : ℚ :=
  match liqs.min? with
  | none => p.honeypotResidualFraction
  | some repLiq => 1 - slippageFraction n repLiq p

theorem multiplier_eq (marks : List SellableMark) (S : ℤ) (p : RealizableParams) :
    multiplier marks S p = multiplierOf (sellableLiqs marks p) (notionalUsd marks S p) p := by
  unfold multiplier multiplierOf slip
  cases (sellableLiqs marks p).min? with
  | none => rfl
  | some repLiq => rfl

theorem multiplier_range (marks : List SellableMark) (S : ℤ) (p : RealizableParams) :
    0 ≤ multiplier marks S p ∧ multiplier marks S p ≤ 1 := by
  obtain ⟨-, ⟨-, hcap⟩, hresidual⟩ := p.ranges
  rw [multiplier_eq]
  unfold multiplierOf
  cases (sellableLiqs marks p).min? with
  | none => exact hresidual
  | some repLiq =>
      obtain ⟨hlo, hhi⟩ := slippageFraction_range p (notionalUsd marks S p) repLiq
      dsimp only
      constructor
      · linarith
      · linarith

/-- Where each book has one as thin among the others, the others multiply by no more. -/
theorem multiplierOf_le {liqs liqs' : List ℚ} (hne : liqs ≠ [])
    (hthin : ∀ l ∈ liqs, ∃ l' ∈ liqs', l' ≤ l) : multiplierOf liqs' n p ≤ multiplierOf liqs n p := by
  unfold multiplierOf
  cases hmin : liqs.min? with
  | none => exact absurd (List.min?_eq_none_iff.1 hmin) hne
  | some l =>
      obtain ⟨hl, -⟩ := List.min?_eq_some_iff.1 hmin
      obtain ⟨l', hl', hle⟩ := hthin l hl
      cases hmin' : liqs'.min? with
      | none =>
          rw [List.min?_eq_none_iff.1 hmin'] at hl'
          cases hl'
      | some least =>
          have hleast := (List.min?_eq_some_iff.1 hmin').2 l' hl'
          have hslip := slippageFraction_antitone p n (hleast.trans hle)
          dsimp only
          linarith

/-! ### A thinner mark -/

/-- One of the marks with a smaller liquidity, or with none. -/
structure Thinning where
  before : List SellableMark
  mark : SellableMark
  after : List SellableMark
  liquidityUsd : Option ℚ
  smaller : ∀ l ∈ liquidityUsd, ∃ l₀ ∈ mark.liquidityUsd, l ≤ l₀

namespace Thinning

/-- The marks as they were. -/
def old (t : Thinning) : List SellableMark := t.before ++ t.mark :: t.after

/-- The mark that takes its place. -/
def thinned (t : Thinning) : SellableMark := { t.mark with liquidityUsd := t.liquidityUsd }

/-- The marks as they are then. -/
def new (t : Thinning) : List SellableMark := t.before ++ t.thinned :: t.after

/-- Where the mark could be sold into and no longer can, another sellable one is as thin, or there is
no other and the residual is at most what the slippage of the mark left. -/
def KeepsThinnest (t : Thinning) (S : ℤ) (p : RealizableParams) : Prop :=
  ∀ l ∈ t.mark.sellable p.minLiquidityUsdFloor, t.thinned.sellable p.minLiquidityUsdFloor = none →
    (∃ l' ∈ sellableLiqs (t.before ++ t.after) p, l' ≤ l) ∨
      (sellableLiqs (t.before ++ t.after) p = [] ∧
        p.honeypotResidualFraction ≤ 1 - slippageFraction (notionalUsd t.old S p) l p)

/-- The rate reads no liquidity. -/
theorem notionalUsd_new (t : Thinning) (S : ℤ) (p : RealizableParams) :
    notionalUsd t.new S p = notionalUsd t.old S p := by
  have hratio : t.thinned.ratio = t.mark.ratio := rfl
  unfold notionalUsd deriveSolUsd new old
  simp only [List.filterMap_append, List.filterMap_cons, hratio]

theorem sellableLiqs_split (before after : List SellableMark) (mark : SellableMark)
    (p : RealizableParams) :
    sellableLiqs (before ++ mark :: after) p =
      sellableLiqs before p ++ ((mark.sellable p.minLiquidityUsdFloor).toList ++
        sellableLiqs after p) := by
  unfold sellableLiqs
  rw [List.filterMap_append, List.filterMap_cons]
  cases mark.sellable p.minLiquidityUsdFloor with
  | none => rfl
  | some l => rfl

/-- A mark that can be sold into. -/
theorem sellable_eq_some {m : SellableMark} {floor l : ℚ} :
    m.sellable floor = some l ↔ (∃ ps ∈ m.priceSol, 0 < ps) ∧ m.liquidityUsd = some l ∧ floor ≤ l := by
  unfold SellableMark.sellable
  cases m.priceSol with
  | none => simp
  | some ps =>
      cases m.liquidityUsd with
      | none => simp
      | some lq =>
          simp only [Option.bind_eq_bind, Option.bind_some, Option.mem_def, Option.some.injEq,
            exists_eq_left', Option.ite_none_right_eq_some]
          grind

/-- A mark that can be sold into when it is thinner could be before, at no less. -/
theorem sellable_of_thinned (t : Thinning) {floor l : ℚ} (h : t.thinned.sellable floor = some l) :
    ∃ l₀, t.mark.sellable floor = some l₀ ∧ l ≤ l₀ := by
  obtain ⟨hprice, hliq, hfloor⟩ := sellable_eq_some.1 h
  obtain ⟨l₀, hl₀, hle⟩ := t.smaller l hliq
  exact ⟨l₀, sellable_eq_some.2 ⟨hprice, hl₀, hfloor.trans hle⟩, hle⟩

/-- **A thinner mark multiplies by no more**, where it stays sellable or leaves one as thin. -/
theorem multiplier_le (t : Thinning) {S : ℤ} {p : RealizableParams} (h : t.KeepsThinnest S p) :
    multiplier t.new S p ≤ multiplier t.old S p := by
  rw [multiplier_eq, multiplier_eq, notionalUsd_new, old, new, sellableLiqs_split,
    sellableLiqs_split]
  have hothers : sellableLiqs (t.before ++ t.after) p =
      sellableLiqs t.before p ++ sellableLiqs t.after p := List.filterMap_append
  cases hmark : t.mark.sellable p.minLiquidityUsdFloor with
  | none =>
      -- what was not sellable does not become so
      cases hthinned : t.thinned.sellable p.minLiquidityUsdFloor with
      | none => exact le_rfl
      | some l =>
          obtain ⟨l₀, hl₀, -⟩ := t.sellable_of_thinned hthinned
          cases hmark.symm.trans hl₀
  | some l =>
      cases hthinned : t.thinned.sellable p.minLiquidityUsdFloor with
      | some l' =>
          obtain ⟨l₀, hl₀, hle⟩ := t.sellable_of_thinned hthinned
          obtain rfl := Option.some.inj (hmark.symm.trans hl₀)
          refine multiplierOf_le (by simp) fun a ha => ?_
          simp only [Option.toList_some, List.mem_append, List.mem_singleton] at ha
          rcases ha with ha | rfl | ha
          · exact ⟨a, by simp [ha], le_rfl⟩
          · exact ⟨l', by simp, hle⟩
          · exact ⟨a, by simp [ha], le_rfl⟩
      | none =>
          rcases h l hmark hthinned with ⟨l', hl', hle⟩ | ⟨hnil, hresidual⟩
          · rw [hothers, List.mem_append] at hl'
            refine multiplierOf_le (by simp) fun a ha => ?_
            simp only [Option.toList_some, List.mem_append, List.mem_singleton] at ha
            rcases ha with ha | rfl | ha
            · exact ⟨a, by simp [ha], le_rfl⟩
            · exact ⟨l', by simpa using hl', hle⟩
            · exact ⟨a, by simp [ha], le_rfl⟩
          · rw [hothers, List.append_eq_nil_iff] at hnil
            rw [hnil.1, hnil.2]
            exact hresidual

end Thinning

/-! ### The result -/

/-- The gross result at a multiplier. -/
def grossAt (proceeds S : ℤ) (multiplier : ℚ) : ℤ :=
  proceeds - S - max 0 (proceeds - truncate (proceeds * multiplier))

theorem grossAt_le (proceeds S : ℤ) (multiplier : ℚ) :
    grossAt proceeds S multiplier ≤ proceeds - S := by
  unfold grossAt
  omega

/-- What brings nothing negative loses no more than the position. -/
theorem le_grossAt {proceeds : ℤ} (S : ℤ) {multiplier : ℚ} (hproceeds : 0 ≤ proceeds)
    (hmultiplier : 0 ≤ multiplier) : -S ≤ grossAt proceeds S multiplier := by
  have hcast : (0 : ℚ) ≤ proceeds := by exact_mod_cast hproceeds
  have hproduct : 0 ≤ (proceeds : ℚ) * multiplier := mul_nonneg hcast hmultiplier
  have htrunc : 0 ≤ truncate (proceeds * multiplier) := by
    rw [truncate_of_nonneg hproduct]
    exact Int.floor_nonneg.2 hproduct
  unfold grossAt
  omega

/-- A smaller multiplier gives no larger a result. -/
theorem grossAt_mono (proceeds S : ℤ) {multiplier multiplier' : ℚ} (hnonneg : 0 ≤ multiplier')
    (hle : multiplier' ≤ multiplier) (hone : multiplier ≤ 1) :
    grossAt proceeds S multiplier' ≤ grossAt proceeds S multiplier := by
  by_cases hproceeds : 0 ≤ proceeds
  · have hcast : (0 : ℚ) ≤ proceeds := by exact_mod_cast hproceeds
    have htrunc := truncate_mono (mul_nonneg hcast hnonneg) (mul_le_mul_of_nonneg_left hle hcast)
    unfold grossAt
    omega
  · -- a loss beyond the position is not cut
    have hcast : (proceeds : ℚ) < 0 := by exact_mod_cast not_le.1 hproceeds
    have huncut : ∀ m : ℚ, m ≤ 1 → proceeds ≤ truncate (proceeds * m) := by
      intro m hm
      exact le_truncate (le_mul_of_le_one_right hcast.le hm)
    have hold := huncut multiplier hone
    have hnew := huncut multiplier' (hle.trans hone)
    unfold grossAt
    omega

end Multiplier

section Resolving

variable {R : Resolver} {mint : String} {entryPrice : ℚ} {marks : List SellableMark}
  {S blockTimeMs : ℤ} {m : ExitModel} {r : OutcomeResult} {w : WalkResult}

/-- The round-trip cost. -/
def Resolver.roundTripCost (R : Resolver) (S : ℤ) : ℤ :=
  truncate (S * (R.costStack.totalCostBps - R.costStack.exitSlippageBps : ℤ) / 10000)

/-- What is resolved has walked. -/
theorem walk_of_resolve (h : R.resolve mint entryPrice marks S blockTimeMs m = .ok r) :
    ∃ w, walkPosition R.engine (resolveArgs mint entryPrice marks blockTimeMs) (R.draws mint) S =
      .ok w := by
  obtain ⟨w, hw, -⟩ := ok_of_bind h
  exact ⟨w, mapError_eq_ok.1 hw⟩

/-- The gross result of a walk is what it brings, less the position. -/
theorem gross_of_walk {config : ExitConfig} {args : WalkArgs} {draws : ℕ → ℚ}
    (h : walkPosition config args draws S = .ok w) :
    w.grossPnlLamports = w.proceedsLamports - S ∧
      ∃ w', walk config args draws S = .ok w' ∧ w'.proceeds = w.proceedsLamports := by
  obtain ⟨w', hw', rfl⟩ := map_eq_ok.1 h
  exact ⟨rfl, w', hw', rfl⟩

/-- The result at the quoted prices. -/
theorem resolve_spot
    (hw : walkPosition R.engine (resolveArgs mint entryPrice marks blockTimeMs) (R.draws mint) S =
      .ok w) :
    ∃ r, R.resolve mint entryPrice marks S blockTimeMs .spot = .ok r ∧
      r.netPnlLamports = w.proceedsLamports - S - R.roundTripCost S := by
  unfold Resolver.resolve
  dsimp only
  rw [bind_of_ok (mapError_eq_ok.2 hw)]
  exact ⟨_, rfl, congrArg (· - R.roundTripCost S) (gross_of_walk hw).1⟩

/-- The realizable result. -/
theorem resolve_realizable
    (hw : walkPosition R.engine (resolveArgs mint entryPrice marks blockTimeMs) (R.draws mint) S =
      .ok w) :
    ∃ r, R.resolve mint entryPrice marks S blockTimeMs .realizable = .ok r ∧
      r.grossPnlLamports = grossAt w.proceedsLamports S (multiplier marks S R.params) ∧
      r.netPnlLamports = r.grossPnlLamports - R.roundTripCost S := by
  unfold Resolver.resolve
  dsimp only
  rw [bind_of_ok (mapError_eq_ok.2 hw)]
  refine ⟨_, rfl, ?_, rfl⟩
  dsimp only [computeRealizableAdjustment]
  rw [(gross_of_walk hw).1, grossAt]
  -- the clamps are the maximum
  split_ifs <;> omega

/-- The path of marks that are not negative. -/
theorem resolveArgs_nonneg (hentry : 0 < entryPrice)
    (hprices : ∀ mark ∈ marks, ∀ price ∈ mark.priceSol, 0 ≤ price) :
    ∀ multiple ∈ (resolveArgs mint entryPrice marks blockTimeMs).path, 0 ≤ multiple := by
  intro multiple hmultiple
  obtain ⟨mark, hmark, rfl⟩ := List.mem_map.1 hmultiple
  unfold SellableMark.multiple
  cases hprice : mark.priceSol with
  | none => exact le_rfl
  | some price => exact div_nonneg (hprices mark hmark price hprice) hentry.le

/-- A thinner mark is at the same multiple. -/
theorem resolveArgs_thinned (t : Thinning) :
    resolveArgs mint entryPrice t.new blockTimeMs = resolveArgs mint entryPrice t.old blockTimeMs := by
  have hmultiple : t.thinned.multiple entryPrice = t.mark.multiple entryPrice := rfl
  unfold resolveArgs Thinning.new Thinning.old
  simp only [List.map_append, List.map_cons, hmultiple]

/-- **Realism lowers the result**: of whatever resolves marks by an exit model, at a position and
with constants. -/
structure RealismLowers (run : List SellableMark → ExitModel → Except OutcomeError OutcomeResult)
    (S : ℤ) (p : RealizableParams) : Prop where
  /-- The realizable net result is at most that of the quoted prices. -/
  below_spot : ∀ marks r, run marks .realizable = .ok r →
    ∃ r', run marks .spot = .ok r' ∧ r.netPnlLamports ≤ r'.netPnlLamports
  /-- Where no price is negative, no more than the position is lost. -/
  above_risk : ∀ marks, (∀ mark ∈ marks, ∀ price ∈ mark.priceSol, 0 ≤ price) →
    ∀ r, run marks .realizable = .ok r → -S ≤ r.grossPnlLamports
  /-- A thinner mark does not raise the result, where it keeps the thinnest. -/
  thinner : ∀ t : Thinning, t.KeepsThinnest S p → ∀ r, run t.old .realizable = .ok r →
    ∃ r', run t.new .realizable = .ok r' ∧ r'.netPnlLamports ≤ r.netPnlLamports

variable (R mint blockTimeMs S) in
theorem resolve_lowers (hentry : 0 < entryPrice) :
    RealismLowers (fun marks m => R.resolve mint entryPrice marks S blockTimeMs m) S R.params where
  below_spot := by
    intro marks r hr
    obtain ⟨w, hw⟩ := walk_of_resolve hr
    obtain ⟨r₀, hr₀, hgross, hnet⟩ := resolve_realizable hw
    obtain rfl := Except.ok.inj (hr.symm.trans hr₀)
    obtain ⟨r', hr', hnet'⟩ := resolve_spot hw
    have hle := grossAt_le w.proceedsLamports S (multiplier marks S R.params)
    exact ⟨r', hr', by omega⟩
  above_risk := by
    intro marks hprices r hr
    obtain ⟨w, hw⟩ := walk_of_resolve hr
    obtain ⟨r₀, hr₀, hgross, -⟩ := resolve_realizable hw
    obtain rfl := Except.ok.inj (hr.symm.trans hr₀)
    obtain ⟨-, w', hw', hproceeds⟩ := gross_of_walk hw
    have hnonneg := walk_proceeds_nonneg (resolveArgs_nonneg hentry hprices) hw'
    rw [hproceeds] at hnonneg
    rw [hgross]
    exact le_grossAt S hnonneg (multiplier_range marks S R.params).1
  thinner := by
    intro t ht r hr
    obtain ⟨w, hw⟩ := walk_of_resolve hr
    obtain ⟨r₀, hr₀, hgross, hnet⟩ := resolve_realizable hw
    obtain rfl := Except.ok.inj (hr.symm.trans hr₀)
    rw [← resolveArgs_thinned t] at hw
    obtain ⟨r', hr', hgross', hnet'⟩ := resolve_realizable hw
    have hle := grossAt_mono w.proceedsLamports S (multiplier_range t.new S R.params).1
      (t.multiplier_le ht) (multiplier_range t.old S R.params).2
    exact ⟨r', hr', by omega⟩

/-- Checks at the head of what resolves do not read a liquidity, nor which known exit model it is. -/
theorem RealismLowers.checked {p : RealizableParams} {C : Prop}
    {run run' : List SellableMark → ExitModel → Except OutcomeError OutcomeResult}
    (hrun : ∀ marks m r, run marks m = .ok r ↔
      marks ≠ [] ∧ checkExitModel m = .ok () ∧ C ∧ run' marks m = .ok r)
    (h : C → RealismLowers run' S p) : RealismLowers run S p where
  below_spot := by
    intro marks r hr
    obtain ⟨hne, -, hC, hr⟩ := (hrun _ _ _).1 hr
    obtain ⟨r', hr', hle⟩ := (h hC).below_spot marks r hr
    exact ⟨r', (hrun _ _ _).2 ⟨hne, rfl, hC, hr'⟩, hle⟩
  above_risk := by
    intro marks hprices r hr
    obtain ⟨-, -, hC, hr⟩ := (hrun _ _ _).1 hr
    exact (h hC).above_risk marks hprices r hr
  thinner := by
    intro t ht r hr
    obtain ⟨-, -, hC, hr⟩ := (hrun _ _ _).1 hr
    obtain ⟨r', hr', hle⟩ := (h hC).thinner t ht r hr
    exact ⟨r', (hrun _ _ _).2 ⟨by simp [Thinning.new], rfl, hC, hr'⟩, hle⟩

theorem resolveMomentumOutcome_eq_ok (S : ℤ) :
    R.resolveMomentumOutcome mint entryPrice marks S blockTimeMs m = .ok r ↔
      marks ≠ [] ∧ checkExitModel m = .ok () ∧ 0 < entryPrice ∧
        R.resolve mint entryPrice marks S blockTimeMs m = .ok r := by
  unfold Resolver.resolveMomentumOutcome
  constructor
  · intro h
    obtain ⟨hne, h⟩ := ok_of_require h
    obtain ⟨_, hmodel, h⟩ := ok_of_bind h
    obtain ⟨hentry, h⟩ := ok_of_require h
    exact ⟨hne, hmodel, hentry, h⟩
  · rintro ⟨hne, hmodel, hentry, h⟩
    rw [require_bind hne, bind_of_ok hmodel, require_bind hentry]
    exact h

theorem resolveOutcome_eq_ok {entry : LaunchEntry} {price : ℚ}
    (hprice : entry.entryPriceSol = .ok price) :
    R.resolveOutcome entry marks S m = .ok r ↔
      marks ≠ [] ∧ checkExitModel m = .ok () ∧ 0 < price ∧
        R.resolve entry.mint price marks S entry.decisionBlockTimeMs m = .ok r := by
  unfold Resolver.resolveOutcome
  constructor
  · intro h
    obtain ⟨hne, h⟩ := ok_of_require h
    obtain ⟨_, hmodel, h⟩ := ok_of_bind h
    obtain ⟨price', hprice', h⟩ := ok_of_bind h
    obtain rfl := Except.ok.inj (hprice.symm.trans hprice')
    obtain ⟨hentry, h⟩ := ok_of_require h
    exact ⟨hne, hmodel, hentry, h⟩
  · rintro ⟨hne, hmodel, hentry, h⟩
    rw [require_bind hne, bind_of_ok hmodel, bind_of_ok hprice, require_bind hentry]
    exact h

/-- **Realism only lowers the result** of both harnesses: a realizable result is at most that at the
quoted prices and, where no price is negative, loses no more than the position.  A thinner mark does
not raise it where it keeps the thinnest. -/
theorem realism_lowers (R : Resolver) (S : ℤ) :
    (∀ entry : LaunchEntry,
      RealismLowers (fun marks m => R.resolveOutcome entry marks S m) S R.params) ∧
    (∀ mint entryPrice blockTimeMs,
      RealismLowers (fun marks m => R.resolveMomentumOutcome mint entryPrice marks S blockTimeMs m)
        S R.params) := by
  constructor
  · intro entry
    cases hprice : entry.entryPriceSol with
    | ok price =>
        exact .checked (fun marks m r => resolveOutcome_eq_ok hprice)
          (resolve_lowers R entry.mint S entry.decisionBlockTimeMs)
    | error e =>
        -- no outcome is resolved
        have hraises : ∀ marks m r, R.resolveOutcome entry marks S m ≠ .ok r := by
          intro marks m r h
          obtain ⟨-, h⟩ := ok_of_require h
          obtain ⟨_, -, h⟩ := ok_of_bind h
          obtain ⟨price, hok, -⟩ := ok_of_bind h
          cases hprice.symm.trans hok
        exact ⟨fun marks r h => absurd h (hraises _ _ r), fun marks _ r h => absurd h (hraises _ _ r),
          fun t _ r h => absurd h (hraises _ _ r)⟩
  · intro mint entryPrice blockTimeMs
    exact .checked (fun marks m r => resolveMomentumOutcome_eq_ok S)
      (resolve_lowers R mint S blockTimeMs)

/-! ### The thinnest mark falls below the floor -/

/-- The frozen constants, the default engine and no sandwich. -/
def plainResolver : Resolver where
  engine := secureBalancedConfig
  draws := fun _ _ => 1
  costStack := ⟨600, 250⟩

/-- Two marks at the entry price, of which the thin one falls below the floor. -/
def belowFloor : Thinning where
  before := []
  mark := ⟨some 1, none, some 600⟩
  after := [⟨some 1, none, some 1000000⟩]
  liquidityUsd := some 499
  smaller := by decide +kernel

/-- The thinner book gives a better result, and at a negative price more is lost than the position. -/
theorem thinner_book_pays_more :
    (∃ r r', plainResolver.resolveMomentumOutcome "mint" 1 belowFloor.old 1000000000 0 .realizable =
        .ok r ∧
      plainResolver.resolveMomentumOutcome "mint" 1 belowFloor.new 1000000000 0 .realizable =
        .ok r' ∧ r.netPnlLamports < r'.netPnlLamports) ∧
    ∃ r, plainResolver.resolveMomentumOutcome "mint" 1 [⟨some (-1), none, none⟩] 1000000000 0
      .realizable = .ok r ∧ r.grossPnlLamports < -1000000000 := by
  constructor
  · obtain ⟨r, hr, hnet⟩ := exists_ok_of_any
      (x := plainResolver.resolveMomentumOutcome "mint" 1 belowFloor.old 1000000000 0 .realizable)
      (p := fun r => decide (r.netPnlLamports < -200000000)) (by decide +kernel)
    obtain ⟨r', hr', hnet'⟩ := exists_ok_of_any
      (x := plainResolver.resolveMomentumOutcome "mint" 1 belowFloor.new 1000000000 0 .realizable)
      (p := fun r => decide (-200000000 < r.netPnlLamports)) (by decide +kernel)
    exact ⟨r, r', hr, hr', (of_decide_eq_true hnet).trans (of_decide_eq_true hnet')⟩
  · obtain ⟨r, hr, hgross⟩ := exists_ok_of_any
      (x := plainResolver.resolveMomentumOutcome "mint" 1 [⟨some (-1), none, none⟩] 1000000000 0
        .realizable)
      (p := fun r => decide (r.grossPnlLamports < -1000000000)) (by decide +kernel)
    exact ⟨r, hr, of_decide_eq_true hgross⟩

end Resolving

end Backtest
end AatsSniper

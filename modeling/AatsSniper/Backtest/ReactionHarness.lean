/-
# The reaction harness

`build_reaction_outcomes` of `aats/backtest/reaction_harness.py` with its readers
`parse_reaction_signal` and `read_reaction_forward`, on records that are any JSON object.

The paper walk, the walk-forward reputations and the decision of the second pass are
whatever functions of what they are handed (`ReactionSteps`), as in `OutcomeHarness`;
`ReactionLevels` puts the pass of `Reputation` in their place.
-/

import AatsSniper.Backtest.MomentumHarness
import Mathlib.Data.List.Lex

namespace AatsSniper
namespace Backtest
namespace Corpus

/-- `ReactionSignal`. -/
structure ReactionSignal where
  mint : CodePoints
  sourceId : CodePoints
  signalType : CodePoints
  signalSlot : ℤ
  signalBlockTimeMs : ℤ
  signalPriceSol : PyDecimal
  signalSizeSol : Option PyDecimal
  sourcePrior : Option PyFloat
  vsolLamports : Option ℤ

/-- `VALID_SIGNAL_TYPES`. -/
def validSignalTypes : List CodePoints :=
  [codePoints "kol_call", codePoints "smart_money_buy", codePoints "whale_buy"]

/-- `raise ReactionCorpusError(f"{mint}{text}")`. -/
def unusable {α : Type} (mint : CodePoints) (text : String) : Except HarnessError α :=
  .error (.reactionCorpus (mint ++ codePoints text))

/-- `except (TypeError, ValueError)` around the anchor, `except (InvalidOperation, TypeError,
ValueError)` around the prices; the second differs from the first in `also`. -/
def rescueSignal {α : Type} (also : PyError → Bool) (text : HarnessError) :
    Except PyError α → Except HarnessError α
  | .ok a => .ok a
  | .error e =>
      if e = .typeError ∨ e = .valueError ∨ also e = true then .error text else .error (.python e)

/-- `_vsol_lamports_or_none(raw)`. -/
def vsolLamportsOrNone (raw : Json) : Option ℤ :=
  let v :=
    match raw with
    | .int n => some n
    | .str s => PyText.toInt s
    | _ => none
  v.filter fun n => decide (0 < n)

/-- `float(prior_raw) if isinstance(prior_raw, int | float) else None`. -/
def sourcePrior : Json → Except PyError (Option PyFloat)
  | .bool b => .ok (some (.finite (if b then 1 else 0)))
  | .int n =>
      match PyFloat.nearest n with
      | some q => .ok (some (.finite q))
      | none => .error .overflowError
  | .float literal => .ok (some (PyFloat.ofLiteral literal))
  | _ => .ok none

/-- `price <= 0`. -/
def nonPositive : PyDecimal → Except PyError Bool
  | .finite q => .ok (decide (q ≤ 0))
  | .infinite negative => .ok negative
  | _ => .error .invalidOperation

/-- `signal_block_time_ms` and `signal_slot`, as they stand. -/
def signalAnchor (mint : CodePoints) (obj : List (CodePoints × Json)) :
    Except HarnessError (Json × Json) := do
  let blockTime := Json.getD obj "signal_block_time_ms" .null
  if blockTime matches .null then
    unusable mint ": signal_block_time_ms is null — no on-chain anchor (T-300a, CENSORED)"
  let slot := Json.getD obj "signal_slot" .null
  if slot matches .null then unusable mint ": signal_slot is null (CENSORED)"
  return (blockTime, slot)

/-- `parse_reaction_signal(obj)`. -/
def parseReactionSignal (p : Printer) (obj : List (CodePoints × Json)) :
    Except HarnessError ReactionSignal := do
  let mint := PyText.strip (p.text (Json.getD obj "mint" (.str [])))
  if mint = [] then unusable [] "reaction record missing mint (CENSORED)"
  let sourceId := PyText.strip (p.text (Json.getD obj "source_id" (.str [])))
  if sourceId = [] then unusable mint ": reaction record missing source_id (CENSORED)"
  let signalType := PyText.strip (p.text (Json.getD obj "signal_type" (.str [])))
  if signalType ∉ validSignalTypes then
    unusable (mint ++ codePoints ": unknown/absent signal_type " ++ p.repr (.str signalType))
      " (expected one of ['kol_call', 'smart_money_buy', 'whale_buy']) (CENSORED)"
  let anchor ← signalAnchor mint obj
  let (blockTimeMs, slot) ← rescueSignal (fun _ => false)
    (.reactionCorpus (mint ++
      codePoints ": non-integer signal_slot/signal_block_time_ms (CENSORED)")) do
    let blockTimeMs ← anchor.1.toInt
    let slot ← anchor.2.toInt
    return (blockTimeMs, slot)
  let (price, size) ← rescueSignal (fun e => e matches .invalidOperation)
    (.reactionCorpus (mint ++
      codePoints ": malformed signal_price_sol/signal_size_sol (CENSORED)")) do
    let price ← (Json.getD obj "signal_price_sol" .null).decimalOrNone
    let size ← (Json.getD obj "signal_size_sol" .null).decimalOrNone
    return (price, size)
  match price with
  | none =>
      unusable mint
        ": non-positive/absent signal_price_sol — cannot price the entry (CENSORED)"
  | some price => do
      if ← convert (nonPositive price) then
        unusable mint
          ": non-positive/absent signal_price_sol — cannot price the entry (CENSORED)"
      let prior ← convert (sourcePrior (Json.getD obj "source_prior" .null))
      return {
        mint := mint
        sourceId := sourceId
        signalType := signalType
        signalSlot := slot
        signalBlockTimeMs := blockTimeMs
        signalPriceSol := price
        signalSizeSol := size
        sourcePrior := prior
        vsolLamports := vsolLamportsOrNone (Json.getD obj "vsol_lamports" .null) }

/-- `REALIZABLE_PARAMS.sol_usd_fallback`. -/
def solUsdFallback : ℚ := 150

/-- `bonding_curve_liquidity_usd(vsol_lamports)`. -/
def bondingCurveLiquidityUsd (vsolLamports : Option ℤ) : Except PyError (Option PyDecimal) :=
  match vsolLamports with
  | none => .ok none
  | some n =>
      if n ≤ 0 then .ok none
      else do
        let vsol ← PyDecimal.inContext (n / lamportsPerSol)
        let doubled ← PyDecimal.inContext (2 * vsol)
        let usd ← PyDecimal.inContext (doubled * solUsdFallback)
        return some (.finite usd)

/-- `txns` where it is a `dict`, else `txns_m5`. -/
def reactionTxns (obs : List (CodePoints × Json)) : Json :=
  match Json.getD obs "txns" .null with
  | .obj members => .obj members
  | _ => orEmpty (Json.getD obs "txns_m5" .null)

/-- One turn of `read_reaction_forward`, and whether the mark has a liquidity of its own. -/
def reactionObservation (p : Printer) (mint : CodePoints) (curveLiquidityUsd : Option PyDecimal)
    (obs : Json) : Except HarnessError (MomentumForwardObservation × Bool) := do
  let obs ← convert obs.members
  let txns ← convert (txnCounts (reactionTxns obs))
  let markLiq ← convert (Json.getD obs "liquidity_usd" .null).decimalOrNone
  let parsed ← rescueMark (.reactionCorpus (malformedText p mint obs))
    (momentumMark p obs txns (.ok (markLiq.orElse fun _ => curveLiquidityUsd)))
  return (parsed, markLiq.isSome)

/-- `read_reaction_forward(obj, curve_liquidity_usd=...)`. -/
def readReactionForward (p : Printer) (obj : List (CodePoints × Json))
    (curveLiquidityUsd : Option PyDecimal) :
    Except HarnessError (List MomentumForwardObservation) := do
  let mint := p.text (Json.getD obj "mint" (.str (codePoints "?")))
  let forward :=
    match Json.getD obj "forward" .null with
    | .arr elems => elems
    | _ => []
  if forward.isEmpty then unusable mint ": reaction record has no forward marks (CENSORED)"
  let out ← forward.mapM (reactionObservation p mint curveLiquidityUsd)
  if !out.any Prod.snd && curveLiquidityUsd.isNone then
    unusable mint (": no exit-liquidity signal — neither a per-mark liquidity_usd nor a " ++
      "bonding-curve vsol_lamports reserve. Cannot honestly price the exit; CENSORED " ++
      "(fail-closed) rather than resolve every mark to a fabricated total loss.")
  return sortBy (·.horizonS) (out.map Prod.fst)

/-- `_ResolvedReaction`. -/
structure ResolvedReaction where
  signal : ReactionSignal
  outcomeResolvedBlockTimeMs : ℤ
  netPnlLamports : ℤ
  solAtRiskLamports : ℤ
  netPnlPerSol : ℚ

/-- What `build_reaction_outcomes` reads of a `ReactionDecision`. -/
structure ReactionDecision where
  modelSelected : Bool
  baselineSelected : Bool
  onNeutralPrior : Bool
  reputationGateApplied : Bool

/-- The frozen haircut and the cap of a trade. -/
structure ReactionSettings where
  entryLatencyHaircutBps : ℤ
  perTradeCapLamports : ℤ

/-- The net result of `resolve_momentum_outcome`, `_walk_forward_reputations(resolved)` and
`decide_reaction_entry(signal)` on a reputation. -/
structure ReactionSteps (κ : Type) where
  resolveOutcome : CodePoints → PyDecimal → List MomentumForwardObservation → ℤ → ℤ →
    Except HarnessError ℤ
  walkForwardReputations : List ResolvedReaction → Except HarnessError (List κ)
  decideEntry : ReactionSignal → κ → Except HarnessError ReactionDecision

/-- `apply_entry_latency_haircut(signal_price_sol, params)`. -/
def applyEntryLatencyHaircut (settings : ReactionSettings) :
    PyDecimal → Except PyError PyDecimal
  | .finite q => do
      let fraction ← PyDecimal.inContext (settings.entryLatencyHaircutBps / 10000)
      let factor ← PyDecimal.inContext (1 + fraction)
      let price ← PyDecimal.inContext (q * factor)
      return .finite price
  | .snan => .error .invalidOperation
  | d => .ok d

/-- `Decimal(x) / Decimal(y)`. -/
def divideInts (x y : ℤ) : Except PyError ℚ :=
  if y = 0 then .error (if x = 0 then .invalidOperation else .divisionByZero)
  else PyDecimal.inContext (x / y)

/-- `_resolve_one(obj)`. -/
def resolveOne {κ : Type} (p : Printer) (settings : ReactionSettings) (steps : ReactionSteps κ)
    (obj : List (CodePoints × Json)) : Except HarnessError ResolvedReaction := do
  let signal ← parseReactionSignal p obj
  let curveLiq ← convert (bondingCurveLiquidityUsd signal.vsolLamports)
  let forward ← readReactionForward p obj curveLiq
  let entryPrice ← convert (applyEntryLatencyHaircut settings signal.signalPriceSol)
  let netPnl ← steps.resolveOutcome signal.mint entryPrice forward settings.perTradeCapLamports
    signal.signalBlockTimeMs
  let maxHorizonS := (forward.map (·.horizonS)).foldl max ((forward.map (·.horizonS)).headD 0)
  let perSol ← convert (divideInts netPnl settings.perTradeCapLamports)
  return {
    signal := signal
    outcomeResolvedBlockTimeMs := signal.signalBlockTimeMs + maxHorizonS * 1000
    netPnlLamports := netPnl
    solAtRiskLamports := settings.perTradeCapLamports
    netPnlPerSol := perSol }

/-- The order of the second pass: `(signal_block_time_ms, signal_slot, mint)`. -/
def ResolvedReaction.sortKey (r : ResolvedReaction) : ℤ ×ₗ ℤ ×ₗ CodePoints :=
  toLex (r.signal.signalBlockTimeMs, toLex (r.signal.signalSlot, r.signal.mint))

/-- `ReactionHarnessStats`. -/
structure ReactionHarnessStats extends HarnessStats where
  nSources : ℕ
  nModelSelected : ℕ
  nBaselineSelected : ℕ
  nOnNeutralPrior : ℕ
  nReputationGated : ℕ
  nDeclinedByModel : ℕ
  outcomeSourceIds : List CodePoints
  outcomeEventTimesMs : List ℤ
  outcomeLabelHorizonEndMs : List ℤ

/-- `except (ReactionCorpusError, CorpusRecordError)`. -/
def reactionCaught : HarnessError → Bool
  | .reactionCorpus _ => true
  | .corpusRecord _ => true
  | _ => false

/-- One turn of the second pass. -/
def decideReaction {κ : Type} (steps : ReactionSteps κ) (row : ResolvedReaction × κ) :
    Except HarnessError (TradeOutcome × ReactionDecision) := do
  let decision ← steps.decideEntry row.1.signal row.2
  let outcome ← TradeOutcome.new row.1.signal.mint row.1.signal.signalSlot decision.modelSelected
    decision.baselineSelected row.1.netPnlLamports row.1.solAtRiskLamports
  return (outcome, decision)

/-- The second pass: `zip(resolved, reputations, strict=True)`. -/
def decideReactions {κ : Type} (steps : ReactionSteps κ) (resolved : List ResolvedReaction) :
    Except HarnessError (List (TradeOutcome × ReactionDecision)) := do
  let reputations ← steps.walkForwardReputations resolved
  let decided ← (resolved.zip reputations).mapM (decideReaction steps)
  require (resolved.length = reputations.length) (.python .valueError)
  return decided

/-- `build_reaction_outcomes(records)`. -/
def buildReactionOutcomes {κ : Type} (p : Printer) (settings : ReactionSettings)
    (steps : ReactionSteps κ) (records : List (List (CodePoints × Json))) :
    Except HarnessError (List TradeOutcome × ReactionHarnessStats) := do
  let (resolved, censored) ← collect (resolveOne p settings steps) reactionCaught records
  let resolved := sortBy ResolvedReaction.sortKey resolved
  let decided ← decideReactions steps resolved
  return (decided.map Prod.fst, {
    nRecords := records.length
    nResolved := decided.length
    nCensored := censored.length
    censorReasons := censored.map fun c =>
      p.text (Json.getD c.1 "mint" (.str (codePoints "?"))) ++ codePoints ": " ++ c.2.text
    nSources := (resolved.map (·.signal.sourceId)).dedup.length
    nModelSelected := decided.countP (·.2.modelSelected)
    nBaselineSelected := decided.countP (·.2.baselineSelected)
    nOnNeutralPrior := decided.countP (·.2.onNeutralPrior)
    nReputationGated := decided.countP (·.2.reputationGateApplied)
    nDeclinedByModel := decided.countP fun d => d.2.baselineSelected && !d.2.modelSelected
    outcomeSourceIds := resolved.map (·.signal.sourceId)
    outcomeEventTimesMs := resolved.map (·.signal.signalBlockTimeMs)
    outcomeLabelHorizonEndMs := resolved.map (·.outcomeResolvedBlockTimeMs) })

end Corpus
end Backtest
end AatsSniper

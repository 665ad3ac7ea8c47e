/-
# The momentum harness

`build_momentum_outcomes` of `aats/backtest/momentum_harness.py` with its reader
`read_momentum_forward`, on records that are any JSON.  `decide_momentum_entry` and
`resolve_momentum_outcome` are whatever functions of what the reader returns, as
in `OutcomeHarness`.

The reader catches some of the exceptions of its conversions.  The counts of transactions are
0 where `int` refuses them; a mark any other conversion of which fails makes the record unusable.
-/

import AatsSniper.Backtest.OutcomeHarness

namespace AatsSniper
namespace Backtest
namespace Corpus

/-- `MomentumForwardObservation`. -/
structure MomentumForwardObservation where
  horizonS : ℤ
  priceSol : Option PyDecimal
  liquidityUsd : Option PyDecimal
  buys : ℤ
  sells : ℤ
  volM5 : Option PyDecimal
  note : CodePoints
  obsWallMs : ℤ
  priceUsd : Option PyDecimal

/-- `int(txns.get(key, 0) or 0)`. -/
def txnCount (txns : Json) (key : String) : Except PyError ℤ := do
  let members ← txns.members
  let count := Json.getD members key (.int 0)
  (if count.truthy then count else .int 0).toInt

/-- `buys` and `sells`, both 0 under `except (TypeError, ValueError)`. -/
def txnCounts (txns : Json) : Except PyError (ℤ × ℤ) :=
  let counts := do
    let buys ← txnCount txns "buys"
    let sells ← txnCount txns "sells"
    return (buys, sells)
  match counts with
  | .error .typeError => .ok (0, 0)
  | .error .valueError => .ok (0, 0)
  | counts => counts

/-- The mark of an observation, with its transactions and its liquidity. -/
def momentumMark (p : Printer) (obs : List (CodePoints × Json)) (txns : ℤ × ℤ)
    (liquidityUsd : Except PyError (Option PyDecimal)) :
    Except PyError MomentumForwardObservation := do
  let horizonS ← (← Json.item obs "horizon_s").toInt
  let priceSol ← (Json.getD obs "price_sol" .null).decimalOrNone
  let liquidityUsd ← liquidityUsd
  let volM5 ← (Json.getD obs "vol_m5" .null).decimalOrNone
  let obsWallMs ← (Json.getD obs "obs_wall_ms" (.int 0)).toInt
  let priceUsd ← (Json.getD obs "price_usd" .null).decimalOrNone
  return {
    horizonS := horizonS
    priceSol := priceSol
    liquidityUsd := liquidityUsd
    buys := txns.1
    sells := txns.2
    volM5 := volM5
    note := p.text (Json.getD obs "note" (.str []))
    obsWallMs := obsWallMs
    priceUsd := priceUsd }

/-- The text of a malformed mark. -/
def malformedText (p : Printer) (mint : CodePoints) (obs : List (CodePoints × Json)) : CodePoints :=
  mint ++ codePoints ": malformed forward observation (horizon_s=" ++
    p.repr (Json.getD obs "horizon_s" .null) ++ codePoints ", price_sol=" ++
    p.repr (Json.getD obs "price_sol" .null) ++ codePoints ") (CENSORED)"

/-- `except (KeyError, TypeError, ValueError, InvalidOperation)`, raising `unusable` instead. -/
def rescueMark {α : Type} (unusable : HarnessError) : Except PyError α → Except HarnessError α
  | .ok a => .ok a
  | .error .keyError => .error unusable
  | .error .typeError => .error unusable
  | .error .valueError => .error unusable
  | .error .invalidOperation => .error unusable
  | .error e => .error (.python e)

/-- `x or {}`. -/
def orEmpty (v : Json) : Json := if v.truthy then v else .obj []

/-- One turn of `read_momentum_forward`. -/
def momentumObservation (p : Printer) (record : CorpusRecord) (obs : Json) :
    Except HarnessError MomentumForwardObservation := do
  let obs ← convert obs.members
  let txns ← convert (txnCounts (orEmpty (Json.getD obs "txns_m5" .null)))
  let liquidityUsd := (Json.getD obs "liquidity_usd" .null).decimalOrNone
  rescueMark (.corpusRecord (malformedText p (orUnknown (record.mint p)) obs))
    (momentumMark p obs txns liquidityUsd)

/-- `read_momentum_forward(record)`. -/
def readMomentumForward (p : Printer) (record : CorpusRecord) :
    Except HarnessError (List MomentumForwardObservation) := do
  let out ← record.forward.mapM (momentumObservation p record)
  return sortBy (·.horizonS) out

/-- What `build_momentum_outcomes` reads of a `MomentumDecision`; the price is `None` where the
launch is not tradeable. -/
structure MomentumDecision where
  modelSelected : Bool
  baselineSelected : Bool
  tradeableAtEntry : Bool
  entryPriceSol : Option PyDecimal
  solAtRiskLamports : ℤ

/-- `decide_momentum_entry(entry, pre_entry)` and the net result of
`resolve_momentum_outcome(mint, entry_price_sol, post_entry)`, at some lamports of risk and
some time of the decision. -/
structure MomentumSteps where
  decideEntry : EntryRecord → List MomentumForwardObservation → Except HarnessError MomentumDecision
  resolveOutcome : CodePoints → PyDecimal → List MomentumForwardObservation → ℤ → ℤ →
    Except HarnessError ℤ

/-- `MomentumHarnessStats`. -/
structure MomentumHarnessStats extends HarnessStats where
  entryHorizonS : ℤ
  nTradeable : ℕ
  nSkippedUntradeable : ℕ

/-- The body of the loop of `build_momentum_outcomes`, and whether it was tradeable. -/
def momentumOutcome (p : Printer) (resolver : BlockTimeResolver) (steps : MomentumSteps)
    (entryHorizonS : ℤ) (record : CorpusRecord) : Except HarnessError (TradeOutcome × Bool) := do
  let blockTime ← (resolver (record.signature p)).mapError .blockTimeUnavailable
  let entry ← toEntryRecord p record blockTime
  let path ← readMomentumForward p record
  let preEntry := path.filter fun o => decide (o.horizonS ≤ entryHorizonS)
  let postEntry := path.filter fun o => decide (entryHorizonS < o.horizonS)
  let decision ← steps.decideEntry entry preEntry
  match decision.tradeableAtEntry, decision.entryPriceSol with
  | true, some entryPrice => do
      let netPnl ← steps.resolveOutcome entry.mint entryPrice postEntry
        decision.solAtRiskLamports (entry.decisionBlockTimeMs + entryHorizonS * 1000)
      let outcome ← TradeOutcome.new entry.mint entry.decisionSlot decision.modelSelected
        decision.baselineSelected netPnl decision.solAtRiskLamports
      return (outcome, true)
  | _, _ => do
      let outcome ← TradeOutcome.new entry.mint entry.decisionSlot false false 0
        decision.solAtRiskLamports
      return (outcome, false)

/-- `build_momentum_outcomes(records)`, at a horizon on the grid. -/
def buildMomentumOutcomes (p : Printer) (resolver : BlockTimeResolver) (steps : MomentumSteps)
    (entryHorizonS : ℤ) (records : List CorpusRecord) :
    Except HarnessError (List TradeOutcome × MomentumHarnessStats) := do
  let (outcomes, censored) ←
    collect (momentumOutcome p resolver steps entryHorizonS) launchCaught records
  return (outcomes.map Prod.fst, {
    nRecords := records.length
    nResolved := outcomes.length
    nCensored := censored.length
    censorReasons := censored.map fun c => censorReason p c.1 c.2
    entryHorizonS := entryHorizonS
    nTradeable := outcomes.countP Prod.snd
    nSkippedUntradeable := outcomes.countP fun o => !o.2 })

end Corpus
end Backtest
end AatsSniper

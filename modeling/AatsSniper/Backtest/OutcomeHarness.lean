/-
# The launch harness

`build_trade_outcomes` of `aats/backtest/outcome_harness.py` with the readers it calls,
`to_entry_record` and `EmbeddedForwardPriceSource.forward_path`, on records that are any JSON.

The decision and the paper walk of a record, `decide_entry` and `resolve_outcome`, are whatever
functions of what the readers return (`LaunchSteps`): they may return anything and raise
anything.  So are the texts of `str` and `repr` of values other than strings (`Printer`).
-/

import AatsSniper.Lib.Collect
import AatsSniper.Lib.Except
import AatsSniper.Lib.PyValue
import AatsSniper.Lib.Sort

namespace AatsSniper
namespace Backtest
namespace Corpus

/-- What a harness raises; `other` is any exception not named here. -/
inductive HarnessError
  | blockTimeUnavailable (text : CodePoints)
  | corpusRecord (text : CodePoints)
  | reactionCorpus (text : CodePoints)
  | python (e : PyError)
  | other (name : String)
  deriving DecidableEq

/-- `str(exc)` of the exceptions a harness catches. -/
def HarnessError.text : HarnessError → CodePoints
  | .blockTimeUnavailable text => text
  | .corpusRecord text => text
  | .reactionCorpus text => text
  | _ => []

/-- A conversion in a reader. -/
def convert {α : Type} (x : Except PyError α) : Except HarnessError α := x.mapError .python

/-- `str(x)` and `repr(x)`, of a value that is no string in the first case. -/
structure Printer where
  str : Json → CodePoints
  repr : Json → CodePoints

/-- `str(x)`. -/
def Printer.text (p : Printer) : Json → CodePoints
  | .str s => s
  | v => p.str v

/-- `x or '?'`. -/
def orUnknown (s : CodePoints) : CodePoints := if s = [] then codePoints "?" else s

/-- `LAMPORTS_PER_SOL`. -/
def lamportsPerSol : ℚ := 1000000000

/-- `BlockTime`. -/
structure BlockTime where
  slot : ℤ
  blockTimeMs : ℤ

/-- `BlockTimeResolver.resolve`: a block time, or the text of a `BlockTimeUnavailable`. -/
abbrev BlockTimeResolver := CodePoints → Except CodePoints BlockTime

/-- `CorpusRecord`. -/
structure CorpusRecord where
  entry : List (CodePoints × Json)
  forward : List Json

/-- `record.mint`. -/
def CorpusRecord.mint (p : Printer) (record : CorpusRecord) : CodePoints :=
  p.text (Json.getD record.entry "mint" (.str []))

/-- `record.signature`. -/
def CorpusRecord.signature (p : Printer) (record : CorpusRecord) : CodePoints :=
  p.text (Json.getD record.entry "signature" (.str []))

/-- `EntryRecord`. -/
structure EntryRecord where
  mint : CodePoints
  decisionSlot : ℤ
  decisionBlockTimeMs : ℤ
  solAmountLamports : ℤ
  vSolLamports : ℤ
  vTokensBase : PyDecimal
  marketCapLamports : ℤ
  initialBuyTokens : PyDecimal
  pool : CodePoints
  recvWallMs : ℤ

/-- `ForwardObservation`. -/
structure ForwardObservation where
  horizonS : ℤ
  priceSol : Option PyDecimal
  liquidityUsd : Option PyDecimal
  dex : CodePoints
  note : CodePoints
  obsWallMs : ℤ
  priceUsd : Option PyDecimal

/-- `TradeOutcome`: what its `__post_init__` lets pass. -/
structure TradeOutcome where
  mint : CodePoints
  decisionSlot : ℤ
  modelSelected : Bool
  baselineSelected : Bool
  netPnlLamports : ℤ
  solAtRiskLamports : ℤ
  risk_pos : 0 < solAtRiskLamports

/-- `TradeOutcome(...)`. -/
def TradeOutcome.new (mint : CodePoints) (decisionSlot : ℤ) (modelSelected baselineSelected : Bool)
    (netPnlLamports solAtRiskLamports : ℤ) : Except HarnessError TradeOutcome :=
  if h : 0 < solAtRiskLamports then
    .ok ⟨mint, decisionSlot, modelSelected, baselineSelected, netPnlLamports, solAtRiskLamports, h⟩
  else .error (.python .valueError)

/-- `_decimal_from(entry, key)`. -/
def decimalFrom (entry : List (CodePoints × Json)) (key : String) :
    Except HarnessError PyDecimal :=
  match Json.getD entry key .null with
  | .null =>
      .error (.corpusRecord (codePoints s!"entry missing numeric field '{key}' (CENSORED)"))
  | v => convert v.toDecimal

/-- `int((x * Decimal(LAMPORTS_PER_SOL)).to_integral_value())`. -/
def toLamports : PyDecimal → Except PyError ℤ
  | .finite q => (PyDecimal.inContext (q * lamportsPerSol)).map Decimal.halfEven
  | .infinite _ => .error .overflowError
  | .nan => .error .valueError
  | .snan => .error .invalidOperation

/-- `to_entry_record(record, block_time)`. -/
def toEntryRecord (p : Printer) (record : CorpusRecord) (blockTime : BlockTime) :
    Except HarnessError EntryRecord := do
  let e := record.entry
  require (record.mint p ≠ []) (.corpusRecord (codePoints "entry missing mint (CENSORED)"))
  let solAmount ← decimalFrom e "solAmount"
  let vSol ← decimalFrom e "vSolInBondingCurve"
  let vTokens ← decimalFrom e "vTokensInBondingCurve"
  let marketCap ← decimalFrom e "marketCapSol"
  let initialBuy ← decimalFrom e "initialBuy"
  let solAmountLamports ← convert (toLamports solAmount)
  let vSolLamports ← convert (toLamports vSol)
  let marketCapLamports ← convert (toLamports marketCap)
  let recvWallMs ← convert (Json.getD e "recv_wall_ms" (.int 0)).toInt
  return {
    mint := record.mint p
    decisionSlot := blockTime.slot
    decisionBlockTimeMs := blockTime.blockTimeMs
    solAmountLamports := solAmountLamports
    vSolLamports := vSolLamports
    vTokensBase := vTokens
    marketCapLamports := marketCapLamports
    initialBuyTokens := initialBuy
    pool := p.text (Json.getD e "pool" (.str []))
    recvWallMs := recvWallMs }

/-- One turn of `forward_path`. -/
def forwardObservation (p : Printer) (obs : Json) : Except PyError ForwardObservation := do
  let obs ← obs.members
  let horizonS ← (← Json.item obs "horizon_s").toInt
  let priceSol ← (Json.getD obs "price_sol" .null).decimalOrNone
  let liquidityUsd ← (Json.getD obs "liquidity_usd" .null).decimalOrNone
  let obsWallMs ← (Json.getD obs "obs_wall_ms" (.int 0)).toInt
  let priceUsd ← (Json.getD obs "price_usd" .null).decimalOrNone
  return {
    horizonS := horizonS
    priceSol := priceSol
    liquidityUsd := liquidityUsd
    dex := p.text (Json.getD obs "dex" (.str []))
    note := p.text (Json.getD obs "note" (.str []))
    obsWallMs := obsWallMs
    priceUsd := priceUsd }

/-- `EmbeddedForwardPriceSource.forward_path(record)`. -/
def forwardPath (p : Printer) (record : CorpusRecord) :
    Except HarnessError (List ForwardObservation) := do
  let out ← convert (record.forward.mapM (forwardObservation p))
  return sortBy (·.horizonS) out

/-- What `build_trade_outcomes` reads of a `DecisionResult`. -/
structure DecisionResult where
  modelSelected : Bool
  baselineSelected : Bool
  solAtRiskLamports : ℤ

/-- `decide_entry(entry)`, and the net result of `resolve_outcome(entry, forward_path)` at some
lamports of risk. -/
structure LaunchSteps where
  decideEntry : EntryRecord → Except HarnessError DecisionResult
  resolveOutcome : EntryRecord → List ForwardObservation → ℤ → Except HarnessError ℤ

/-- `HarnessStats`. -/
structure HarnessStats where
  nRecords : ℕ
  nResolved : ℕ
  nCensored : ℕ
  censorReasons : List CodePoints

/-- `except (BlockTimeUnavailable, CorpusRecordError)`; a `ReactionCorpusError` is one. -/
def launchCaught : HarnessError → Bool
  | .blockTimeUnavailable _ => true
  | .corpusRecord _ => true
  | .reactionCorpus _ => true
  | _ => false

/-- `f"{record.mint or '?'}: {exc}"`. -/
def censorReason (p : Printer) (record : CorpusRecord) (e : HarnessError) : CodePoints :=
  orUnknown (record.mint p) ++ codePoints ": " ++ e.text

/-- The body of the loop of `build_trade_outcomes`. -/
def tradeOutcome (p : Printer) (resolver : BlockTimeResolver) (steps : LaunchSteps)
    (record : CorpusRecord) : Except HarnessError TradeOutcome := do
  let blockTime ← (resolver (record.signature p)).mapError .blockTimeUnavailable
  let entry ← toEntryRecord p record blockTime
  let path ← forwardPath p record
  let decision ← steps.decideEntry entry
  let netPnl ← steps.resolveOutcome entry path decision.solAtRiskLamports
  TradeOutcome.new entry.mint entry.decisionSlot decision.modelSelected decision.baselineSelected
    netPnl decision.solAtRiskLamports

/-- `build_trade_outcomes(records)`. -/
def buildTradeOutcomes (p : Printer) (resolver : BlockTimeResolver) (steps : LaunchSteps)
    (records : List CorpusRecord) : Except HarnessError (List TradeOutcome × HarnessStats) := do
  let (outcomes, censored) ← collect (tradeOutcome p resolver steps) launchCaught records
  return (outcomes, {
    nRecords := records.length
    nResolved := outcomes.length
    nCensored := censored.length
    censorReasons := censored.map fun c => censorReason p c.1 c.2 })

end Corpus
end Backtest
end AatsSniper

/-
# Risk limits and the persisted breaker state

`RiskConfig` and `BreakerState` of `aats/contracts/risk.py`, with the two inputs of
`aats/risk/circuit_breaker.py`, `PnLEvent` and `OperatorResetToken`.

A value a validator would refuse cannot be built.  Of `RiskConfig` the fields
that its validator or the breaker reads are kept; of `PnLEvent` the two that move
the breaker.

A UTC day is its number since the epoch and a moment its milliseconds: the code
keeps their texts, `YYYY-MM-DD` and ISO-8601, which are equal exactly where these are.
A threshold keeps the numbers its text prints.
-/

import AatsSniper.Lib.Decimal
import AatsSniper.Lib.Except

namespace AatsSniper
namespace Breaker

/-- What the breaker's operations raise. -/
inductive BreakerError
  | perTradeCapLamports (value : ℤ)
  | maxAggregateLamports (value : ℤ)
  | dailyLossLimitPct (value : ℚ)
  | kellyFractionCap (value : ℚ)
  | jitoTipCapFrac (value : ℚ)
  | preCalibrationHaircutBps (value : ℤ)
  | softRatio (ratio : ℚ)
  | yearOutOfRange
  | invalidOperation
  | softTierNotCrossed
  | dayKeyMissing
  | corruptState
  | breakerNotTripped
  | flattenHandler
  deriving DecidableEq

/-- The arguments of `RiskConfig(...)`, with their defaults. -/
structure RiskParams where
  perTradeCapLamports : ℤ := 100000000
  maxAggregateLamports : ℤ := 500000000
  dailyRiskTrancheLamports : ℤ := 500000000
  dailyLossLimitPct : ℚ := 3
  dailyLossFloorLamports : ℤ := 300000000
  jitoTipCapFrac : ℚ := 0.30
  kellyFractionCap : ℚ := 0.25
  preCalibrationHaircutBps : ℤ := 150

/-- `RiskConfig._floor_invariants`. -/
def RiskParams.floorInvariants (p : RiskParams) : Except BreakerError Unit := do
  require (p.perTradeCapLamports ≤ 100000000) (.perTradeCapLamports p.perTradeCapLamports)
  require (p.maxAggregateLamports ≤ 500000000) (.maxAggregateLamports p.maxAggregateLamports)
  require (p.dailyLossLimitPct ≤ 3) (.dailyLossLimitPct p.dailyLossLimitPct)
  require (p.kellyFractionCap ≤ 0.25) (.kellyFractionCap p.kellyFractionCap)
  require (p.jitoTipCapFrac ≤ 0.30) (.jitoTipCapFrac p.jitoTipCapFrac)
  require (150 ≤ p.preCalibrationHaircutBps) (.preCalibrationHaircutBps p.preCalibrationHaircutBps)

/-- `RiskConfig`: arguments that passed the validator. -/
structure RiskConfig extends RiskParams where
  valid : toRiskParams.floorInvariants = .ok ()

/-- The defaults pass the validator. -/
def defaultConfig : RiskConfig := ⟨{}, by decide +kernel⟩

/-- `soft_ratio`, in (0, 1). -/
structure SoftRatio where
  ratio : ℚ
  inRange : 0 < ratio ∧ ratio < 1

/-- The check of `CircuitBreaker.__init__`. -/
def SoftRatio.new (ratio : ℚ) : Except BreakerError SoftRatio :=
  if h : 0 < ratio ∧ ratio < 1 then .ok ⟨ratio, h⟩ else .error (.softRatio ratio)

/-- `DEFAULT_SOFT_RATIO`. -/
def defaultSoftRatio : SoftRatio := ⟨0.6667, by norm_num⟩

/-- `PnLEvent`: `__post_init__` refuses a negative `block_time_ms`. -/
structure PnLEvent where
  blockTimeMs : ℤ
  deltaLamports : ℤ
  time_nonneg : 0 ≤ blockTimeMs

/-- `LLMDeRiskSignal`. -/
structure LLMDeRiskSignal where
  reason : String

/-- `OperatorResetToken`: only `mint_operator_reset_token` makes one. -/
structure OperatorResetToken where
  operatorId : String
  nonempty : operatorId ≠ ""

/-- The last millisecond `datetime` can represent is the one before this. -/
def endOfYear9999 : ℤ := 253402300800000

/-- The first millisecond of year 1. -/
def startOfYear1 : ℤ := -62135596800000

/-- `_utc_iso(block_time_ms)`: the moment, where `datetime` has it. -/
def utcIso (blockTimeMs : ℤ) : Except BreakerError ℤ := do
  require (startOfYear1 ≤ blockTimeMs ∧ blockTimeMs < endOfYear9999) .yearOutOfRange
  return blockTimeMs

/-- The UTC day of a moment. -/
def utcDay (blockTimeMs : ℤ) : ℤ := blockTimeMs / 86400000

/-- `_utc_day_key(block_time_ms)`. -/
def utcDayKey (blockTimeMs : ℤ) : Except BreakerError ℤ := do
  require (startOfYear1 ≤ blockTimeMs ∧ blockTimeMs < endOfYear9999) .yearOutOfRange
  return utcDay blockTimeMs

/-- `ARMED` or `TRIPPED`. -/
inductive Latch
  | armed
  | tripped
  deriving DecidableEq

/-- `threshold_breached`, with the numbers it prints. -/
inductive Threshold
  | pct (dailyLossLimitPct : ℚ)
  | floor (dailyLossFloorLamports : ℤ)
  | soft (softLimitPct : ℚ)
  | llmNarrativeFailure (reason : String)
  | limitBreached
  deriving DecidableEq

/-- `BreakerState`. -/
structure BreakerState where
  state : Latch
  trippedAtUtc : Option ℤ
  dailyNetPnlLamports : ℤ
  dailyNetPnlDayUtc : Option ℤ
  thresholdBreached : Option Threshold
  tripped_invariant : state = .tripped → trippedAtUtc.isSome ∧ thresholdBreached.isSome
  day_key_invariant : dailyNetPnlLamports ≠ 0 → dailyNetPnlDayUtc.isSome

namespace BreakerState

/-- The state at first boot and after a reset. -/
def fresh : BreakerState where
  state := .armed
  trippedAtUtc := none
  dailyNetPnlLamports := 0
  dailyNetPnlDayUtc := none
  thresholdBreached := none
  tripped_invariant := by simp
  day_key_invariant := by simp

/-- `day if net != 0 else None`. -/
def dayIfNet (net : ℤ) (day : Option ℤ) : Option ℤ := if net ≠ 0 then day else none

/-- `model_copy(update={net, day})`, with an established day. -/
def withNet (s : BreakerState) (net day : ℤ) : BreakerState :=
  { s with
    dailyNetPnlLamports := net
    dailyNetPnlDayUtc := dayIfNet net (some day)
    day_key_invariant := fun h => by simp [dayIfNet, h] }

/-- `BreakerState(state="TRIPPED", ...)`: refused without a day for a net. -/
def newTripped (trippedAt net : ℤ) (day : Option ℤ) (threshold : Threshold) :
    Except BreakerError BreakerState :=
  if h : net ≠ 0 → (dayIfNet net day).isSome then
    .ok
      { state := .tripped
        trippedAtUtc := some trippedAt
        dailyNetPnlLamports := net
        dailyNetPnlDayUtc := dayIfNet net day
        thresholdBreached := some threshold
        tripped_invariant := by simp
        day_key_invariant := h }
  else .error .dayKeyMissing

end BreakerState

end Breaker
end AatsSniper

/-
# The daily-loss circuit breaker

`CircuitBreaker` of `aats/risk/circuit_breaker.py`: `record_pnl`, `trip_from_llm`,
`reset` and the restart path of `__init__`.

An operation that raises keeps what it had already assigned, so it returns its
outcome beside the breaker it leaves.  The store does not raise; the flatten handler
raises where the caller of the model says so, and its calls are recorded.  The
optional telemetry sink is left out.

`next` is the breaker under its caller: an exception of an operation goes to the
caller and the breaker lives on, but a restart that raises leaves no breaker.
-/

import AatsSniper.Breaker.Config
import AatsSniper.Lib.Run
import Mathlib.Data.Finset.Insert

namespace AatsSniper
namespace Breaker

/-- `_TripDecision`. -/
structure TripDecision where
  tripped : Bool
  thresholdBreached : Option Threshold := none
  softBreached : Bool := false
  softThresholdBreached : Option Threshold := none
  deriving DecidableEq

/-- The breaker, what its store holds and what was handed to the flatten handler. -/
structure CircuitBreaker where
  dayPnl : ℤ → ℤ
  softReducedDays : Finset ℤ
  currentDay : Option ℤ
  state : BreakerState
  store : Option BreakerState
  flattened : List (Option Threshold)

section Operations

variable (config : RiskConfig) (soft : SoftRatio)

/-- `_soft_limit_pct()`. -/
def softLimitPct : Except BreakerError ℚ :=
  let exact := Decimal.mul config.dailyLossLimitPct soft.ratio
  match Decimal.quantizeTenths exact with
  | some tenths => .ok (if 0 < tenths then tenths else exact)
  | none => .error .invalidOperation

/-- `int((Decimal(tranche) * pct) / Decimal(100))`. -/
def trancheLamports (pct : ℚ) : ℤ :=
  truncate (Decimal.div (Decimal.mul config.dailyRiskTrancheLamports pct) 100)

/-- `_evaluate(net_lamports)`. -/
def evaluate (net : ℤ) : Except BreakerError TripDecision := do
  let pctLimit := -trancheLamports config config.dailyLossLimitPct
  let floorLimit := -config.dailyLossFloorLamports
  let softPct ← softLimitPct config soft
  let softLimit := -trancheLamports config softPct
  let crossedSoft := decide (net ≤ softLimit)
  let softDesc := if crossedSoft = true then some (Threshold.soft softPct) else none
  let crossedPct := decide (net ≤ pctLimit)
  let crossedFloor := decide (net ≤ floorLimit)
  if (crossedPct || crossedFloor) = true then
    let breached :=
      if (crossedFloor && (!crossedPct || decide (pctLimit ≤ floorLimit))) = true then
        Threshold.floor config.dailyLossFloorLamports
      else Threshold.pct config.dailyLossLimitPct
    require (crossedSoft = true) .softTierNotCrossed
    return ⟨true, some breached, true, softDesc⟩
  else return ⟨false, none, crossedSoft, softDesc⟩

/-- `_posture() == "REDUCED"`. -/
def CircuitBreaker.reduced (b : CircuitBreaker) : Bool :=
  decide (b.state.state = .tripped) ||
    b.currentDay.any fun day => decide (day ∈ b.softReducedDays)

/-- `entries_allowed()`. -/
def CircuitBreaker.entriesAllowed (b : CircuitBreaker) : Bool :=
  decide (b.state.state = .armed) && !b.reduced

/-- `_trip(net_lamports, threshold_breached, block_time_ms, day_utc)`. -/
def trip (b : CircuitBreaker) (net : ℤ) (threshold : Option Threshold) (blockTimeMs : ℤ)
    (day : Option ℤ) (flattenRaises : Bool) : Except BreakerError Unit × CircuitBreaker :=
  match utcIso blockTimeMs with
  | .error e => (.error e, b)
  | .ok trippedAt =>
      let marked := { b with softReducedDays := day.elim b.softReducedDays (insert · b.softReducedDays) }
      match BreakerState.newTripped trippedAt net day (threshold.getD .limitBreached) with
      | .error e => (.error e, marked)
      | .ok s =>
          let latched :=
            { marked with
              state := s
              store := some s
              flattened := b.flattened ++ [threshold] }
          (if flattenRaises = true then .error .flattenHandler else .ok (), latched)

/-- `record_pnl(event)`, from the event's day on. -/
def recordOn (b : CircuitBreaker) (event : PnLEvent) (day : ℤ) (flattenRaises : Bool) :
    Except BreakerError BreakerState × CircuitBreaker :=
  let net := b.dayPnl day + event.deltaLamports
  let booked := { b with currentDay := some day, dayPnl := Function.update b.dayPnl day net }
  match evaluate config soft net with
  | .error e => (.error e, booked)
  | .ok decision =>
      let marked :=
        if decision.softBreached = true then
          { booked with softReducedDays := insert day booked.softReducedDays }
        else booked
      if decision.tripped = true ∧ marked.state.state = .armed then
        let tripped :=
          trip marked net decision.thresholdBreached event.blockTimeMs (some day) flattenRaises
        (tripped.1.map fun _ => tripped.2.state, tripped.2)
      else
        let s := marked.state.withNet net day
        (.ok s, { marked with state := s, store := some s })

/-- `record_pnl(event)`. -/
def recordPnl (b : CircuitBreaker) (event : PnLEvent) (flattenRaises : Bool) :
    Except BreakerError BreakerState × CircuitBreaker :=
  match utcDayKey event.blockTimeMs with
  | .error e => (.error e, b)
  | .ok day => recordOn config soft b event day flattenRaises

/-- `trip_from_llm(signal, block_time_ms=...)`. -/
def tripFromLlm (b : CircuitBreaker) (signal : LLMDeRiskSignal) (blockTimeMs : ℤ)
    (flattenRaises : Bool) : Except BreakerError BreakerState × CircuitBreaker :=
  if b.state.state = .armed then
    let net := b.state.dailyNetPnlLamports
    match (if net ≠ 0 then .ok b.state.dailyNetPnlDayUtc else (utcDayKey blockTimeMs).map some) with
    | .error e => (.error e, b)
    | .ok day =>
        let reason := Threshold.llmNarrativeFailure (String.ofList (signal.reason.toList.take 80))
        let tripped :=
          trip { b with currentDay := day } net (some reason) blockTimeMs day flattenRaises
        (tripped.1.map fun _ => tripped.2.state, tripped.2)
  else (.ok b.state, b)

/-- `reset(token)`. -/
def reset (b : CircuitBreaker) (_token : OperatorResetToken) :
    Except BreakerError BreakerState × CircuitBreaker :=
  if b.state.state = .tripped then
    (.ok .fresh,
      { b with
        dayPnl := fun _ => 0
        softReducedDays := ∅
        currentDay := none
        state := .fresh
        store := some .fresh })
  else (.error .breakerNotTripped, b)

/-- The restart path of `__init__`: the accumulator and the posture from what was persisted. -/
def restore (s : BreakerState) (flattened : List (Option Threshold)) :
    Except BreakerError CircuitBreaker := do
  let dayPnl ←
    if s.dailyNetPnlLamports ≠ 0 then
      match s.dailyNetPnlDayUtc with
      | some day => .ok (Function.update (fun _ => 0) day s.dailyNetPnlLamports)
      | none => .error .corruptState
    else .ok fun _ => 0
  let softReducedDays ←
    match s.dailyNetPnlDayUtc with
    | none => .ok ∅
    | some day => do
        let reduced ←
          if s.state = .tripped then .ok true
          else (evaluate config soft s.dailyNetPnlLamports).map TripDecision.softBreached
        .ok (if reduced = true then {day} else ∅)
  return {
    dayPnl := dayPnl
    softReducedDays := softReducedDays
    currentDay := s.dailyNetPnlDayUtc
    state := s
    store := some s
    flattened := flattened }

/-- A breaker on an empty store. -/
def firstBoot (flattened : List (Option Threshold)) : CircuitBreaker where
  dayPnl := fun _ => 0
  softReducedDays := ∅
  currentDay := none
  state := .fresh
  store := some .fresh
  flattened := flattened

/-- `CircuitBreaker(config, store, flatten_handler)`. -/
def boot (store : Option BreakerState) (flattened : List (Option Threshold)) :
    Except BreakerError CircuitBreaker :=
  match store with
  | some s => restore config soft s flattened
  | none => .ok (firstBoot flattened)

/-- What can happen to a breaker. -/
inductive Op
  | recordPnl (event : PnLEvent) (flattenRaises : Bool)
  | tripFromLlm (signal : LLMDeRiskSignal) (blockTimeMs : ℤ) (flattenRaises : Bool)
  | reset (token : OperatorResetToken)
  | restart

/-- The breaker after an operation. -/
def next (b : CircuitBreaker) : Op → Except BreakerError CircuitBreaker
  | .recordPnl event flattenRaises => .ok (recordPnl config soft b event flattenRaises).2
  | .tripFromLlm signal blockTimeMs flattenRaises =>
      .ok (tripFromLlm b signal blockTimeMs flattenRaises).2
  | .reset token => .ok (reset b token).2
  | .restart => boot config soft b.store b.flattened

/-- The breaker was reached from a first boot on an empty store. -/
def Reachable (b : CircuitBreaker) : Prop :=
  ∃ b₀ ops, boot config soft none [] = .ok b₀ ∧ runSteps (next config soft) b₀ ops = .ok b

end Operations

end Breaker
end AatsSniper

/-
# The SNIPE loop

`SnipeLoop.process_event` of `aats/controller/snipe_loop.py`, with the validators of
`EntryIntent` in `aats/contracts/intents.py`.

The gate, the sizer and the cost model are the protocols of the source: functions the
loop is built with.  What the SLOW loop has staged, the clocks and the answer of the
venue are part of the call.  The candidate queue, a log for the operator, is left out.
-/

import AatsSniper.Controller.State

namespace AatsSniper
namespace Controller

open Breaker (RiskConfig)

/-- `LaunchEvent`; `detail` is what only the gate and the cost model read. -/
structure LaunchEvent (E : Type) where
  mint : String
  slot : ℤ
  dataStalenessMs : ℤ
  detail : E

/-- `DecisionSignal`. -/
structure DecisionSignal where
  pCalibrated : ℚ
  uncertainty : ℚ

/-- `CostStack`. -/
structure CostStack where
  expectedEdgeBps : ℤ
  totalCostBps : ℤ

/-- `SnipeSkipReason`, with the two reasons the loop spells out. -/
inductive SnipeSkipReason
  | breakerTripped
  | inCooldown
  | noSignal
  | belowThreshold
  | staleSignal
  | vetoActive
  | safetyGateFail
  | sizeZero
  | duplicateIntent
  | fsmConflict
  | costGateFail
  | intentValidationFail
  | budgetBlown
  deriving DecidableEq

/-- What `process_event` returns. -/
inductive SnipeResult
  | skipped (reason : SnipeSkipReason)
  | filled (fill : FillResult)
  deriving DecidableEq

/-- `SnipeLoop`; `snipeThreshold` is the one of its `RiskConfig`. -/
structure SnipeLoop (E : Type) where
  config : RiskConfig
  snipeThreshold : ℚ
  gate : Option (LaunchEvent E → Bool)
  sizing : Option (ℚ → ℚ → ℤ → RiskConfig → ℤ)
  costModel : Option (LaunchEvent E → ℤ → ℤ → Option CostStack)
  defaultTipLamports : ℤ := 200000
  latencyBudgetMs : Option ℤ := some 150
  minSolLamports : ℤ := 10000000

/-- A call of `process_event`: the event, the clock of the store, what the SLOW loop has staged for
the mint, the milliseconds until the budget check, and what the venue would answer. -/
structure SnipeCall (E : Type) where
  event : LaunchEvent E
  now : ℤ
  signal : Option DecisionSignal
  vetoFlag : Bool
  elapsedMs : ℤ
  fill : FillResult

variable {E : Type}

namespace SnipeLoop

/-- The size, from the sizer or the fallback. -/
def size (loop : SnipeLoop E) (signal : DecisionSignal) (currentAgg : ℤ) : ℤ :=
  match loop.sizing with
  | some compute => compute signal.pCalibrated signal.uncertainty currentAgg loop.config
  | none =>
      min (min loop.minSolLamports loop.config.perTradeCapLamports)
        (max 0 (loop.config.maxAggregateLamports - currentAgg))

/-- Steps 1 to 5: the checks that read the store and change nothing, and the size. -/
def screen (loop : SnipeLoop E) (st : StateStore) (call : SnipeCall E) :
    Except SnipeSkipReason ℤ := do
  require (∀ state ∈ st.breaker, state.state ≠ .tripped) .breakerTripped
  require (st.inCooldown call.now call.event.mint = false) .inCooldown
  match call.signal with
  | none => .error .noSignal
  | some signal =>
      require (loop.snipeThreshold ≤ signal.pCalibrated) .belowThreshold
      require (call.event.dataStalenessMs ≤ 5000) .staleSignal
      require (call.vetoFlag = false) .vetoActive
      require (∀ gate ∈ loop.gate, gate call.event = true) .safetyGateFail
      let solIn := loop.size signal st.getAggregateOpenLamports
      require (0 < solIn) .sizeZero
      return solIn

/-- `_make_default_cost_stack(sol_in, tip_lamports)`. -/
def makeDefaultCostStack (loop : SnipeLoop E) (solIn : ℤ) : CostStack :=
  let jitoTipBps := max 1 (loop.defaultTipLamports * 10000 / max 1 solIn)
  let total := 50 + 50 + loop.config.preCalibrationHaircutBps + jitoTipBps + 10
  ⟨total + 100, total⟩

/-- Step 7: the cost stack of the model, or the fallback. -/
def costStack (loop : SnipeLoop E) (event : LaunchEvent E) (solIn : ℤ) : Option CostStack :=
  match loop.costModel with
  | some compute => compute event solIn loop.defaultTipLamports
  | none => some (loop.makeDefaultCostStack solIn)

/-- Step 10: the latency budget is blown. -/
def overBudget (loop : SnipeLoop E) (call : SnipeCall E) : Bool :=
  loop.latencyBudgetMs.any fun budget => decide (budget < call.elapsedMs)

/-- `process_event(event)`. -/
def processEvent (loop : SnipeLoop E) (st : StateStore) (call : SnipeCall E) :
    SnipeResult × StateStore :=
  match loop.screen st call with
  | .error reason => (.skipped reason, st)
  | .ok solIn =>
      let mint := call.event.mint
      let intentId := makeClientIntentId mint call.event.slot "ENTRY"
      match st.markIntentSeen call.now intentId with
      | (false, seen) => (.skipped .duplicateIntent, seen)
      | (true, seen) =>
          match seen.claimEntering call.now mint intentId 30 with
          | (false, seen) => (.skipped .fsmConflict, seen)
          | (true, claimed) =>
              match loop.costStack call.event solIn with
              | none => (.skipped .costGateFail, claimed.releaseEntering mint)
              | some cost =>
                  if cost.expectedEdgeBps ≤ cost.totalCostBps then
                    (.skipped .intentValidationFail, claimed.releaseEntering mint)
                  else
                    let entering := PositionFSM.createEntering claimed mint call.event.slot solIn
                    if loop.overBudget call = true then
                      (.skipped .budgetBlown,
                        (entering.releaseEntering mint).deletePosition mint)
                    else (.filled call.fill, entering)

end SnipeLoop

end Controller
end AatsSniper

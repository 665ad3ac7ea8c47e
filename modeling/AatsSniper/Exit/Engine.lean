/-
# The exit engine

`ExitState` and `ExitEngine.on_tick` of `aats/risk/exit_engine.py`, with the
intents of `aats/contracts/intents.py` it emits.

`on_tick` first advances the lifecycle state (peak, held steps, trailing arm,
ratchet, flat clock: `advance`) and then walks the prioritised branches on the
advanced state (`decideTick`).  Every new state goes through `_replace`, which
refuses a growing position or a falling floor and runs `__post_init__` again.

The arithmetic of `Decimal` is exact here.  `int(remaining * bps / 10000)` divides
two integers of at most 10⁴ as floats; the quotient is nearer to the exact one
than to any other integer, so it truncates as the exact one does.

The texts of an intent print `Decimal`s; the intent keeps what they print.
-/

import AatsSniper.Exit.Config
import Mathlib.Data.Finset.Insert

namespace AatsSniper
namespace Exit

/-- `ExitState`. -/
structure ExitState where
  mint : String
  entryFillPrice : ℚ
  stop : StopState
  remainingBps : ℤ := 10000
  firedRungs : Finset ℕ := ∅
  peakR : ℚ := 1
  armed : Bool := false
  stepsHeld : ℤ := 0
  lockedFloorR : ℚ := 0
  firedRatchetRungs : Finset ℕ := ∅
  entryBlockTimeMs : ℤ := -1
  lastActiveBlockTimeMs : ℤ := -1

namespace ExitState

/-- `ExitState.__post_init__`. -/
def postInit (s : ExitState) : Except ExitError Unit := do
  require (0 < s.entryFillPrice) .stateEntryFillPrice
  require (0 ≤ s.remainingBps ∧ s.remainingBps ≤ 10000) .remainingBps
  require (s.stop.mint = s.mint) (.stopMint s.stop.mint s.mint)
  require (0 ≤ s.stepsHeld) .stepsHeld
  require (0 ≤ s.lockedFloorR) .lockedFloorR
  require (-1 ≤ s.entryBlockTimeMs) .entryBlockTimeMs
  require (-1 ≤ s.lastActiveBlockTimeMs) .lastActiveBlockTimeMs

/-- `ExitState.at_entry(mint, entry_fill_price, config)`. -/
def atEntry (mint : String) (entry : ℚ) (config : ExitConfig) : Except ExitError ExitState := do
  let thresholds ← config.stopThresholds
  let stop ← StopState.atEntry mint entry thresholds
  let s : ExitState := { mint := mint, entryFillPrice := entry, stop := stop }
  s.postInit
  return s

/-- `realized_r(mark_price)`. -/
def realizedR (s : ExitState) (mark : ℚ) : ℚ := mark / s.entryFillPrice

/-- `_replace(**changes)`: `s'` is the state with the changes merged in. -/
def replace (s s' : ExitState) : Except ExitError ExitState := do
  require (s'.remainingBps ≤ s.remainingBps) (.remainingIncrease s.remainingBps s'.remainingBps)
  require (s.lockedFloorR ≤ s'.lockedFloorR) (.lockedFloorDecrease s.lockedFloorR s'.lockedFloorR)
  s'.postInit
  return s'

end ExitState

/-- `ExitReason`. -/
inductive ExitReason
  | none
  | narrativeFailure
  | insiderDump
  | sellabilityDegraded
  | lpUnlockApproaching
  | hardStop
  | ratchetStop
  | trailingStop
  | timeout
  | staleNarrativeTimeStop
  | takeProfit
  deriving DecidableEq

/-- `client_intent_id`: what `exit_eng:<reason>:<mint>:<block_time_ms>` and
`exit_eng:tp:<mint>:<block_time_ms>:<trigger_r>` are made of. -/
inductive ClientIntentId
  | forced (reason : ExitReason) (mint : String) (blockTimeMs : ℤ)
  | tp (mint : String) (blockTimeMs : ℤ) (triggerR : ℚ)
  deriving DecidableEq

/-- The `detail` of an exit, with the numbers it prints. -/
inductive Detail
  | flag
  | hardStop (mark trigger : ℚ)
  | ratchet (r lockedFloorR : ℚ)
  | trailing (r trailFloorR peakR : ℚ) (trailDrawdownBps : ℤ)
  | timeout (maxHoldSteps : ℤ)
  | timeStop (flatHours : ℚ) (hours flatBandBps : ℤ) (score cooledAt : ℚ)
  | takeProfit (triggerR : ℚ) (reduceBps : ℤ) (mode : MevExitMode) (consumed : Bool)
  deriving DecidableEq

/-- `ExitIntent` and `ReduceIntent`. -/
inductive Intent
  | exit (clientIntentId : ClientIntentId) (mint : String) (fractionBps : ℤ)
      (exitMode : MevExitMode) (detail : Detail)
  | reduce (clientIntentId : ClientIntentId) (mint : String) (fractionBps : ℤ) (detail : Detail)
  deriving DecidableEq

/-- `DeRiskIntentFactory.exit`, with the validator of `ExitIntent`. -/
def Intent.newExit (id : ClientIntentId) (mint : String) (fractionBps : ℤ) (mode : MevExitMode)
    (detail : Detail) : Except ExitError Intent := do
  require (0 ≤ fractionBps ∧ fractionBps ≤ 10000) (.exitFractionBps fractionBps)
  return .exit id mint fractionBps mode detail

/-- `DeRiskIntentFactory.reduce`, with the validator of `ReduceIntent`. -/
def Intent.newReduce (id : ClientIntentId) (mint : String) (fractionBps : ℤ) (detail : Detail) :
    Except ExitError Intent := do
  require (1 ≤ fractionBps ∧ fractionBps ≤ 10000) (.reduceFractionBps fractionBps)
  return .reduce id mint fractionBps detail

/-- `ExitDecision`. -/
structure ExitDecision where
  reason : ExitReason
  intent : Option Intent
  nextState : ExitState
  fractionBps : ℤ
  exitMode : Option MevExitMode

/-- The arguments of one `on_tick` call. -/
structure Tick where
  markPrice : ℚ
  blockTimeMs : ℤ
  narrativeFailureFlag : Bool := false
  insiderDumpFlag : Bool := false
  sellabilityDegradedFlag : Bool := false
  lpUnlockApproachingFlag : Bool := false
  narrativeScore : Option ℚ := none

section Engine

variable (config : ExitConfig)

/-- The loop of `_advance_ratchet`: the floor and the rungs engaged, from index `idx` on. -/
def ratchetLoop (peakR : ℚ) : List RatchetRung → ℕ → ℚ → Finset ℕ → ℚ × Finset ℕ
  | [], _, floor, engaged => (floor, engaged)
  | rung :: rest, idx, floor, engaged =>
      if rung.atR ≤ peakR then
        ratchetLoop peakR rest (idx + 1) (if floor < rung.lockR then rung.lockR else floor)
          (insert idx engaged)
      else ratchetLoop peakR rest (idx + 1) floor engaged

/-- `_advance_ratchet(state)`. -/
def advanceRatchet (s : ExitState) : Except ExitError ExitState :=
  if config.ratchetLadder = [] then .ok s
  else
    let engaged := ratchetLoop s.peakR config.ratchetLadder 0 s.lockedFloorR s.firedRatchetRungs
    if engaged.1 = s.lockedFloorR ∧ engaged.2 = s.firedRatchetRungs then .ok s
    else s.replace { s with lockedFloorR := engaged.1, firedRatchetRungs := engaged.2 }

/-- `_advance_flat_clock(state, r, block_time_ms)`. -/
def advanceFlatClock (s : ExitState) (r : ℚ) (blockTimeMs : ℤ) : Except ExitError ExitState :=
  if s.entryBlockTimeMs < 0 then
    s.replace { s with entryBlockTimeMs := blockTimeMs, lastActiveBlockTimeMs := blockTimeMs }
  else if (config.timeStopFlatBandBps : ℚ) < |r - 1| * 10000 then
    s.replace { s with lastActiveBlockTimeMs := blockTimeMs }
  else .ok s

/-- The new peak and the step count. -/
def advancePeak (s : ExitState) (r : ℚ) : Except ExitError ExitState :=
  s.replace { s with peakR := if s.peakR < r then r else s.peakR, stepsHeld := s.stepsHeld + 1 }

/-- Arm the trailing stop once `r` crosses `trail_arm_r`. -/
def advanceArm (s : ExitState) (r : ℚ) : Except ExitError ExitState :=
  if s.armed = false ∧ config.trailArmR ≤ r then s.replace { s with armed := true } else .ok s

/-- The part of `on_tick` before the branches: peak, held steps, arm, ratchet, clock. -/
def advance (s : ExitState) (r : ℚ) (blockTimeMs : ℤ) : Except ExitError ExitState := do
  let stepped ← advancePeak s r
  let stepped ← advanceArm config stepped r
  let stepped ← advanceRatchet config stepped
  advanceFlatClock config stepped r blockTimeMs

/-- `_hold(state)`. -/
def hold (s : ExitState) : ExitDecision := ⟨.none, none, s, 0, none⟩

/-- `_full_exit(state, ...)`: everything that remains, routed secure. -/
def fullExit (s : ExitState) (blockTimeMs : ℤ) (reason : ExitReason) (detail : Detail) :
    Except ExitError ExitDecision := do
  let intent ← Intent.newExit (.forced reason s.mint blockTimeMs) s.mint 10000 .secure detail
  let next ← s.replace { s with remainingBps := 0 }
  return ⟨reason, some intent, next, 10000, some .secure⟩

/-- `trail_floor_r`. -/
def trailFloorR (s : ExitState) : ℚ := s.peakR * (10000 - config.trailDrawdownBps) / 10000

/-- `_time_stop_detail(state, narrative_score, block_time_ms)`. -/
def timeStopDetail (s : ExitState) (narrativeScore : Option ℚ) (blockTimeMs : ℤ) :
    Option Detail := do
  let hours ← config.timeStopHours
  let score ← narrativeScore
  let flatMs := blockTimeMs - s.lastActiveBlockTimeMs
  if config.timeStopNarrativeCooledAt < score ∨ s.lastActiveBlockTimeMs < 0 ∨ flatMs < 0 ∨
      flatMs < hours * 3600000 then none
  else
    some (.timeStop (flatMs / 3600000) hours config.timeStopFlatBandBps score
      config.timeStopNarrativeCooledAt)

/-- The loop of `_highest_hit_rung`, from index `idx` on; the rung is kept beside its index. -/
def highestHitRungLoop (fired : Finset ℕ) (r : ℚ) :
    List TpRung → ℕ → Option (ℕ × TpRung) → ℚ → Option (ℕ × TpRung)
  | [], _, best, _ => best
  | rung :: rest, idx, best, bestTrigger =>
      if idx ∉ fired ∧ rung.triggerR ≤ r ∧ bestTrigger < rung.triggerR then
        highestHitRungLoop fired r rest (idx + 1) (some (idx, rung)) rung.triggerR
      else highestHitRungLoop fired r rest (idx + 1) best bestTrigger

/-- `_highest_hit_rung(state, r)`. -/
def highestHitRung (s : ExitState) (r : ℚ) : Option (ℕ × TpRung) :=
  highestHitRungLoop s.firedRungs r config.tpLadder 0 none 0

/-- `_scale_out(state, block_time_ms, rung_idx)`. -/
def scaleOut (s : ExitState) (blockTimeMs : ℤ) (rungIdx : ℕ) (rung : TpRung) :
    Except ExitError ExitDecision := do
  let reduceBps := min rung.fractionBps s.remainingBps
  let mode := config.defaultExitMode
  let id := ClientIntentId.tp s.mint blockTimeMs rung.triggerR
  let soldOfOriginal := s.remainingBps * reduceBps / 10000
  let newRemaining := s.remainingBps - soldOfOriginal
  let fired := insert rungIdx s.firedRungs
  let next ← s.replace { s with remainingBps := newRemaining, firedRungs := fired }
  if newRemaining ≤ 0 then
    let intent ← Intent.newExit id s.mint 10000 mode (.takeProfit rung.triggerR reduceBps mode true)
    let next ← s.replace { s with remainingBps := 0, firedRungs := fired }
    return ⟨.takeProfit, some intent, next, 10000, some mode⟩
  else
    let intent ← Intent.newReduce id s.mint reduceBps (.takeProfit rung.triggerR reduceBps mode false)
    return ⟨.takeProfit, some intent, next, reduceBps, some mode⟩

/-- The forced exits, highest priority first: why, and what the text prints. -/
def forcedExit (s : ExitState) (r : ℚ) (tick : Tick) : Option (ExitReason × Detail) :=
  if tick.narrativeFailureFlag then some (.narrativeFailure, .flag)
  else if tick.insiderDumpFlag then some (.insiderDump, .flag)
  else if tick.sellabilityDegradedFlag then some (.sellabilityDegraded, .flag)
  else if tick.lpUnlockApproachingFlag then some (.lpUnlockApproaching, .flag)
  else if s.stop.isBreached tick.markPrice then
    some (.hardStop, .hardStop tick.markPrice s.stop.triggerPrice)
  else if 0 < s.lockedFloorR ∧ r ≤ s.lockedFloorR then
    some (.ratchetStop, .ratchet r s.lockedFloorR)
  else if s.armed = true ∧ r ≤ trailFloorR config s then
    some (.trailingStop, .trailing r (trailFloorR config s) s.peakR config.trailDrawdownBps)
  else if config.maxHoldSteps ≤ s.stepsHeld then
    some (.timeout, .timeout config.maxHoldSteps)
  else
    (timeStopDetail config s tick.narrativeScore tick.blockTimeMs).map
      fun detail => (.staleNarrativeTimeStop, detail)

/-- The branches of `on_tick`, on the advanced state. -/
def decideTick (s : ExitState) (r : ℚ) (tick : Tick) : Except ExitError ExitDecision :=
  match forcedExit config s r tick with
  | some (reason, detail) => fullExit s tick.blockTimeMs reason detail
  | none =>
      match highestHitRung config s r with
      | some (rungIdx, rung) => scaleOut config s tick.blockTimeMs rungIdx rung
      | none => .ok (hold s)

/-- `on_tick(state, ...)`. -/
def onTick (s : ExitState) (tick : Tick) : Except ExitError ExitDecision := do
  require (0 ≤ tick.blockTimeMs) .blockTimeMs
  require (∀ score ∈ tick.narrativeScore, 0 ≤ score ∧ score ≤ 1)
    (.narrativeScore (tick.narrativeScore.getD 0))
  if s.remainingBps ≤ 0 then return hold s
  else
    let r := s.realizedR tick.markPrice
    let stepped ← advance config s r tick.blockTimeMs
    decideTick config stepped r tick

/-- The caller's loop: thread `next_state` to the next tick. -/
def step (s : ExitState) (tick : Tick) : Except ExitError ExitState :=
  (onTick config s tick).map ExitDecision.nextState

end Engine

end Exit
end AatsSniper

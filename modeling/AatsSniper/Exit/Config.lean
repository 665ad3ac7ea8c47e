/-
# The exit strategy, frozen at entry

`StopThresholds` and `StopState` of `aats/risk/survivable_stop.py`; `TpRung`,
`RatchetRung`, `ExitConfig` and its presets of `aats/risk/exit_engine.py`.

A `Decimal` is a rational; a `float` or a `bool` where a number belongs is
excluded by the types.  A value that `__post_init__` would refuse cannot be
built: the checks are fields of the structures, and the constructors that run
them return the error.  An error keeps the numbers its text prints, not the
text, which depends on how a `Decimal` was written.
-/

import AatsSniper.Lib.Decimal
import AatsSniper.Lib.Except
import Mathlib.Algebra.BigOperators.Group.List.Basic
import Mathlib.Data.List.Sort

namespace AatsSniper
namespace Exit

/-- The `ValueError`s of the exit engine, one for each check. -/
inductive ExitError
  | hardStopDrawdownBps (bps : ℤ)
  | entryFillPrice (entry : ℚ)
  | triggerPriceNotPositive
  | triggerPriceAboveEntry (trigger entry : ℚ)
  | tightenRefused (proposed trigger : ℚ)
  | tightenAboveEntry (proposed entry : ℚ)
  | tpTriggerR
  | tpFractionBps (bps : ℤ)
  | ratchetAtR (atR : ℚ)
  | ratchetLockR (lockR : ℚ)
  | ratchetLockAboveAt (lockR atR : ℚ)
  | label
  | hardStopR (hardStopR : ℚ)
  | trailArmR (trailArmR : ℚ)
  | trailDrawdownBps (bps : ℤ)
  | maxHoldSteps
  | timeStopHours (hours : ℤ)
  | timeStopFlatBandBps (bps : ℤ)
  | timeStopNarrativeCooledAt (score : ℚ)
  | tpLadderEmpty
  | tpLadderOrder (triggerR previous : ℚ)
  | tpLadderTotal (cumulative : ℤ)
  | ratchetOrderAt (atR previous : ℚ)
  | ratchetOrderLock (lockR previous : ℚ)
  | unknownPreset (label : String)
  | stateEntryFillPrice
  | remainingBps
  | stopMint (stopMint mint : String)
  | stepsHeld
  | lockedFloorR
  | entryBlockTimeMs
  | lastActiveBlockTimeMs
  | remainingIncrease (before after : ℤ)
  | lockedFloorDecrease (before after : ℚ)
  | blockTimeMs
  | narrativeScore (score : ℚ)
  | exitFractionBps (bps : ℤ)
  | reduceFractionBps (bps : ℤ)
  deriving DecidableEq

/-- `StopThresholds`. -/
structure StopThresholds where
  hardStopDrawdownBps : ℤ
  inRange : 0 < hardStopDrawdownBps ∧ hardStopDrawdownBps ≤ 10000

/-- `StopThresholds(hard_stop_drawdown_bps)`. -/
def StopThresholds.new (bps : ℤ) : Except ExitError StopThresholds :=
  if h : 0 < bps ∧ bps ≤ 10000 then .ok ⟨bps, h⟩ else .error (.hardStopDrawdownBps bps)

/-- `derive_stop_trigger_price(entry_fill_price, thresholds)`. -/
def deriveStopTriggerPrice (entry : ℚ) (thresholds : StopThresholds) : Except ExitError ℚ := do
  require (0 < entry) (.entryFillPrice entry)
  return entry * ((10000 - thresholds.hardStopDrawdownBps) / 10000)

/-- `StopState`. -/
structure StopState where
  mint : String
  entryFillPrice : ℚ
  triggerPrice : ℚ
  thresholds : StopThresholds
  trigger_pos : 0 < triggerPrice
  trigger_le_entry : triggerPrice ≤ entryFillPrice

namespace StopState

/-- `StopState(mint, entry_fill_price, trigger_price, thresholds)`. -/
def new (mint : String) (entry trigger : ℚ) (thresholds : StopThresholds) :
    Except ExitError StopState :=
  if hpos : 0 < trigger then
    if hle : trigger ≤ entry then .ok ⟨mint, entry, trigger, thresholds, hpos, hle⟩
    else .error (.triggerPriceAboveEntry trigger entry)
  else .error .triggerPriceNotPositive

/-- `StopState.at_entry(mint, entry_fill_price, thresholds)`. -/
def atEntry (mint : String) (entry : ℚ) (thresholds : StopThresholds) :
    Except ExitError StopState := do
  let trigger ← deriveStopTriggerPrice entry thresholds
  new mint entry trigger thresholds

/-- `is_breached(mark_price)`. -/
def isBreached (stop : StopState) (mark : ℚ) : Bool := decide (mark ≤ stop.triggerPrice)

/-- `tighten(proposed_trigger)`. -/
def tighten (stop : StopState) (proposed : ℚ) : Except ExitError StopState := do
  require (stop.triggerPrice ≤ proposed) (.tightenRefused proposed stop.triggerPrice)
  if proposed = stop.triggerPrice then return stop
  else
    require (proposed ≤ stop.entryFillPrice) (.tightenAboveEntry proposed stop.entryFillPrice)
    new stop.mint stop.entryFillPrice proposed stop.thresholds

end StopState

/-- `TpRung`: at or above `triggerR`, scale out `fractionBps`. -/
structure TpRung where
  triggerR : ℚ
  fractionBps : ℤ
  trigger_pos : 0 < triggerR := by norm_num
  fraction_range : 1 ≤ fractionBps ∧ fractionBps ≤ 9999 := by norm_num

/-- `TpRung(trigger_r, fraction_bps)`. -/
def TpRung.new (triggerR : ℚ) (fractionBps : ℤ) : Except ExitError TpRung :=
  if htrigger : 0 < triggerR then
    if hfraction : 1 ≤ fractionBps ∧ fractionBps ≤ 9999 then
      .ok ⟨triggerR, fractionBps, htrigger, hfraction⟩
    else .error (.tpFractionBps fractionBps)
  else .error .tpTriggerR

/-- `RatchetRung`: once the peak reaches `atR`, the floor is locked at `lockR`. -/
structure RatchetRung where
  atR : ℚ
  lockR : ℚ
  one_lt_at : 1 < atR := by norm_num
  lock_pos : 0 < lockR := by norm_num
  lock_lt_at : lockR < atR := by norm_num

/-- `RatchetRung(at_r, lock_r)`. -/
def RatchetRung.new (atR lockR : ℚ) : Except ExitError RatchetRung :=
  if hat : 1 < atR then
    if hlock : 0 < lockR then
      if hlt : lockR < atR then .ok ⟨atR, lockR, hat, hlock, hlt⟩
      else .error (.ratchetLockAboveAt lockR atR)
    else .error (.ratchetLockR lockR)
  else .error (.ratchetAtR atR)

/-- `MevExitMode`. -/
inductive MevExitMode
  | fast
  | secure
  deriving DecidableEq

/-- The arguments of `ExitConfig(...)`. -/
structure ExitParams where
  label : String
  tpLadder : List TpRung
  hardStopR : ℚ
  trailArmR : ℚ
  trailDrawdownBps : ℤ
  maxHoldSteps : ℤ
  ratchetLadder : List RatchetRung := []
  timeStopHours : Option ℤ := none
  timeStopFlatBandBps : ℤ := 1500
  timeStopNarrativeCooledAt : ℚ := 0
  defaultExitMode : MevExitMode := .secure

/-- The loop over `tp_ladder`: ascending in `trigger_r`; the cumulative fraction. -/
def checkTpLadder : List TpRung → ℚ → ℤ → Except ExitError ℤ
  | [], _, cumulative => .ok cumulative
  | rung :: rest, previous, cumulative => do
      require (previous < rung.triggerR) (.tpLadderOrder rung.triggerR previous)
      checkTpLadder rest rung.triggerR (cumulative + rung.fractionBps)

/-- The loop over `ratchet_ladder`: ascending in `at_r` and in `lock_r`. -/
def checkRatchetLadder : List RatchetRung → ℚ → ℚ → Except ExitError Unit
  | [], _, _ => .ok ()
  | rung :: rest, previousAt, previousLock => do
      require (previousAt < rung.atR) (.ratchetOrderAt rung.atR previousAt)
      require (previousLock < rung.lockR) (.ratchetOrderLock rung.lockR previousLock)
      checkRatchetLadder rest rung.atR rung.lockR

/-- `ExitConfig.__post_init__`. -/
def ExitParams.postInit (p : ExitParams) : Except ExitError Unit := do
  require (p.label ≠ "") .label
  require (0 < p.hardStopR ∧ p.hardStopR < 1) (.hardStopR p.hardStopR)
  require (1 < p.trailArmR) (.trailArmR p.trailArmR)
  require (0 < p.trailDrawdownBps ∧ p.trailDrawdownBps < 10000)
    (.trailDrawdownBps p.trailDrawdownBps)
  require (0 < p.maxHoldSteps) .maxHoldSteps
  require (∀ hours ∈ p.timeStopHours, 0 < hours) (.timeStopHours (p.timeStopHours.getD 0))
  require (0 < p.timeStopFlatBandBps ∧ p.timeStopFlatBandBps ≤ 10000)
    (.timeStopFlatBandBps p.timeStopFlatBandBps)
  require (0 ≤ p.timeStopNarrativeCooledAt ∧ p.timeStopNarrativeCooledAt ≤ 1)
    (.timeStopNarrativeCooledAt p.timeStopNarrativeCooledAt)
  require (p.tpLadder ≠ []) .tpLadderEmpty
  let cumulative ← checkTpLadder p.tpLadder 0 0
  require (cumulative ≤ 10000) (.tpLadderTotal cumulative)
  checkRatchetLadder p.ratchetLadder 0 0

/-- `ExitConfig`: arguments that passed `__post_init__`. -/
structure ExitConfig extends ExitParams where
  valid : toExitParams.postInit = .ok ()

/-- `ExitConfig(...)`. -/
def ExitConfig.new (p : ExitParams) : Except ExitError ExitConfig :=
  match h : p.postInit with
  | .ok () => .ok ⟨p, h⟩
  | .error e => .error e

/-- `stop_thresholds()`. -/
def ExitConfig.stopThresholds (config : ExitConfig) : Except ExitError StopThresholds :=
  StopThresholds.new (truncate ((1 - config.hardStopR) * 10000))

/-- The ladder ascends from `previous`, and the cumulative fraction is the sum of the fractions. -/
theorem checkTpLadder_eq_ok : ∀ {ladder : List TpRung} {previous : ℚ} {cumulative total : ℤ},
    checkTpLadder ladder previous cumulative = .ok total →
    (previous :: ladder.map TpRung.triggerR).IsChain (· < ·) ∧
      total = cumulative + (ladder.map TpRung.fractionBps).sum
  | [], previous, cumulative, total, h => by
      obtain rfl : cumulative = total := Except.ok.inj h
      exact ⟨.singleton previous, by simp⟩
  | rung :: rest, previous, cumulative, total, h => by
      obtain ⟨hlt, hrest⟩ := ok_of_require h
      obtain ⟨hchain, htotal⟩ := checkTpLadder_eq_ok hrest
      refine ⟨List.isChain_cons_cons.2 ⟨hlt, hchain⟩, ?_⟩
      rw [htotal, List.map_cons, List.sum_cons, add_assoc]

/-- The checks of `__post_init__` that the engine relies on. -/
structure ExitParams.Sound (p : ExitParams) : Prop where
  hardStop : 0 < p.hardStopR ∧ p.hardStopR < 1
  trailArm : 1 < p.trailArmR
  trailDrawdown : 0 < p.trailDrawdownBps ∧ p.trailDrawdownBps < 10000
  maxHold : 0 < p.maxHoldSteps
  ascending : (p.tpLadder.map TpRung.triggerR).SortedLT
  fractions : (p.tpLadder.map TpRung.fractionBps).sum ≤ 10000

theorem ExitConfig.sound (config : ExitConfig) : config.toExitParams.Sound := by
  have h := config.valid
  unfold ExitParams.postInit at h
  obtain ⟨-, h⟩ := ok_of_require h
  obtain ⟨hardStop, h⟩ := ok_of_require h
  obtain ⟨trailArm, h⟩ := ok_of_require h
  obtain ⟨trailDrawdown, h⟩ := ok_of_require h
  obtain ⟨maxHold, h⟩ := ok_of_require h
  obtain ⟨-, h⟩ := ok_of_require h
  obtain ⟨-, h⟩ := ok_of_require h
  obtain ⟨-, h⟩ := ok_of_require h
  obtain ⟨-, h⟩ := ok_of_require h
  obtain ⟨cumulative, hladder, h⟩ := ok_of_bind h
  obtain ⟨htotal, -⟩ := ok_of_require h
  obtain ⟨hchain, rfl⟩ := checkTpLadder_eq_ok hladder
  rw [zero_add] at htotal
  exact ⟨hardStop, trailArm, trailDrawdown, maxHold, hchain.of_cons.sortedLT, htotal⟩

/-- `_BALANCED_LADDER`. -/
def balancedLadder : List TpRung :=
  [{ triggerR := 1.5, fractionBps := 3000 }, { triggerR := 3, fractionBps := 3000 },
    { triggerR := 6, fractionBps := 2000 }]

/-- `_BALANCED_RATCHET`. -/
def balancedRatchet : List RatchetRung :=
  [{ atR := 1.5, lockR := 0.9 }, { atR := 2, lockR := 1 }, { atR := 3, lockR := 2 },
    { atR := 6, lockR := 4 }]

/-- `secure_balanced`. -/
def secureBalanced : ExitParams where
  label := "secure_balanced"
  tpLadder := balancedLadder
  hardStopR := 0.60
  trailArmR := 2
  trailDrawdownBps := 3000
  maxHoldSteps := 24
  ratchetLadder := balancedRatchet

/-- `AUTO_STRAT_PRESETS`. -/
def autoStratPresets : List ExitParams :=
  [secureBalanced,
    { secureBalanced with label := "fast_balanced", defaultExitMode := .fast },
    { label := "secure_conservative"
      tpLadder := [{ triggerR := 1.3, fractionBps := 4000 }, { triggerR := 2, fractionBps := 3500 },
        { triggerR := 4, fractionBps := 2000 }]
      hardStopR := 0.70
      trailArmR := 1.5
      trailDrawdownBps := 2000
      maxHoldSteps := 16
      ratchetLadder := [{ atR := 1.3, lockR := 0.95 }, { atR := 1.5, lockR := 1 },
        { atR := 2, lockR := 1.4 }, { atR := 4, lockR := 3 }] },
    { secureBalanced with
      label := "secure_balanced_timestop"
      timeStopHours := some 6
      timeStopNarrativeCooledAt := 0.2 },
    { label := "secure_runner"
      tpLadder := [{ triggerR := 2, fractionBps := 2000 }, { triggerR := 5, fractionBps := 2500 },
        { triggerR := 10, fractionBps := 2500 }]
      hardStopR := 0.55
      trailArmR := 3
      trailDrawdownBps := 3500
      maxHoldSteps := 30
      ratchetLadder := [{ atR := 2, lockR := 0.9 }, { atR := 3, lockR := 1 },
        { atR := 5, lockR := 2.5 }, { atR := 10, lockR := 6 }] }]

/-- `preset(label)`; the default is `secure_balanced`. -/
def preset (label : String := "secure_balanced") : Except ExitError ExitConfig :=
  match autoStratPresets.find? fun p => p.label == label with
  | some p => ExitConfig.new p
  | none => .error (.unknownPreset label)

/-- Every preset passes its own checks. -/
theorem postInit_of_mem_autoStratPresets :
    ∀ p ∈ autoStratPresets, p.postInit = .ok () := by
  decide +kernel

/-- The default strategy. -/
def secureBalancedConfig : ExitConfig :=
  ⟨secureBalanced, postInit_of_mem_autoStratPresets _ List.mem_cons_self⟩

end Exit
end AatsSniper

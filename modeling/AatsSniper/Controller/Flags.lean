/-
# What the SLOW loop stages

The keys of `InMemoryStateStore` (`aats/controller/state.py`) that expire and that the other loops
only read: the score of a mint, its veto and the four flags that force an exit.  Then two that
write them, `SlowLoop` of `aats/controller/slow_loop.py` and `SlowLoopRegimeWiring` of
`aats/controller/regime_wiring.py`.

A read that finds a key expired deletes it; here it stays, unread, as the clock of the store does
not go back.  `clear_veto_flag` has no caller.  The classifier, the reasoner and the survivor
model are called with their answers; the counters are left out.

`Keeps` is what a writer leaves of a flag: one that is held until a time stays so, where the writer
writes for longer.  A veto may be cut short by a `REDUCE_SIZE` after it, which writes for half as
long, so that `FlagTtl` takes the shortest.
-/

import AatsSniper.Controller.SnipeLoop
import AatsSniper.Gate.LpUnlock
import AatsSniper.Lib.Lease
import AatsSniper.Models.LabelJoin
import AatsSniper.Reasoning.Schema
import AatsSniper.Execution.SellSim

namespace AatsSniper
namespace Controller

open Gate (LpUnlockExitReason)
open Reasoning (ReasoningAction)

/-- `SellabilityReprobeReason`. -/
inductive SellabilityReprobeReason
  | healthy
  | degradedSimRevert
  | degradedZeroOutput
  | degradedHighSellTax
  | degradedAccountCloseTrap
  | degradedOther
  | inconclusive
  deriving DecidableEq

/-- The flags with a time to live. -/
inductive StagedFlag
  | veto
  | narrativeFailure
  | insiderDump
  | sellabilityDegraded
  | lpUnlockApproaching
  deriving DecidableEq

/-- The flag makes the FAST loop leave the position. -/
def StagedFlag.forcesExit (flag : StagedFlag) : Bool := decide (flag ≠ .veto)

/-- The keys of the store that expire, with what is written beside the flags. -/
structure FlagStore where
  signals : Leases String DecisionSignal ℤ
  vetoFlags : Leases String Unit ℤ
  narrativeFlags : Leases String Unit ℤ
  insiderDumpFlags : Leases String (ℕ × ℕ) ℤ
  sellabilityDegradedFlags : Leases String (SellabilityReprobeReason × ℕ) ℤ
  lpUnlockApproachingFlags : Leases String (LpUnlockExitReason × ℕ) ℤ

namespace FlagStore

/-- Nothing is staged. -/
def empty : FlagStore where
  signals := fun _ => none
  vetoFlags := fun _ => none
  narrativeFlags := fun _ => none
  insiderDumpFlags := fun _ => none
  sellabilityDegradedFlags := fun _ => none
  lpUnlockApproachingFlags := fun _ => none

/-- When a key written now expires. -/
def expiry (now ttlSeconds : ℤ) : ℤ := now + ttlSeconds * 1000

/-- `set_decision_signal(signal, ttl_seconds)`, of a signal of the mint. -/
def setDecisionSignal (flags : FlagStore) (now : ℤ) (mint : String) (signal : DecisionSignal)
    (ttlSeconds : ℤ) : FlagStore :=
  { flags with signals := flags.signals.grant mint signal (expiry now ttlSeconds) }

/-- `get_decision_signal(mint)`. -/
def getDecisionSignal (flags : FlagStore) (now : ℤ) (mint : String) : Option DecisionSignal :=
  flags.signals.read now mint

/-- `set_veto_flag(mint, ttl_seconds)`. -/
def setVetoFlag (flags : FlagStore) (now : ℤ) (mint : String) (ttlSeconds : ℤ) : FlagStore :=
  { flags with vetoFlags := flags.vetoFlags.grant mint () (expiry now ttlSeconds) }

/-- `set_narrative_failure_flag(mint, ttl_seconds)`. -/
def setNarrativeFailureFlag (flags : FlagStore) (now : ℤ) (mint : String) (ttlSeconds : ℤ) :
    FlagStore :=
  { flags with narrativeFlags := flags.narrativeFlags.grant mint () (expiry now ttlSeconds) }

/-- `set_insider_dump_flag(mint, fraction_sold_bps, event_slot, ttl_seconds)`. -/
def setInsiderDumpFlag (flags : FlagStore) (now : ℤ) (mint : String)
    (fractionSoldBps eventSlot : ℕ) (ttlSeconds : ℤ) : FlagStore :=
  { flags with
    insiderDumpFlags :=
      flags.insiderDumpFlags.grant mint (fractionSoldBps, eventSlot) (expiry now ttlSeconds) }

/-- `set_sellability_degraded_flag(mint, reason, event_slot, ttl_seconds)`. -/
def setSellabilityDegradedFlag (flags : FlagStore) (now : ℤ) (mint : String)
    (reason : SellabilityReprobeReason) (eventSlot : ℕ) (ttlSeconds : ℤ) : FlagStore :=
  { flags with
    sellabilityDegradedFlags :=
      flags.sellabilityDegradedFlags.grant mint (reason, eventSlot) (expiry now ttlSeconds) }

/-- `set_lp_unlock_approaching_flag(mint, reason, event_slot, ttl_seconds)`. -/
def setLpUnlockApproachingFlag (flags : FlagStore) (now : ℤ) (mint : String)
    (reason : LpUnlockExitReason) (eventSlot : ℕ) (ttlSeconds : ℤ) : FlagStore :=
  { flags with
    lpUnlockApproachingFlags :=
      flags.lpUnlockApproachingFlags.grant mint (reason, eventSlot) (expiry now ttlSeconds) }

/-- `get_veto_flag(mint)` and the getters of the other flags. -/
def getFlag (flags : FlagStore) (now : ℤ) (flag : StagedFlag) (mint : String) : Bool :=
  match flag with
  | .veto => (flags.vetoFlags.read now mint).isSome
  | .narrativeFailure => (flags.narrativeFlags.read now mint).isSome
  | .insiderDump => (flags.insiderDumpFlags.read now mint).isSome
  | .sellabilityDegraded => (flags.sellabilityDegradedFlags.read now mint).isSome
  | .lpUnlockApproaching => (flags.lpUnlockApproachingFlags.read now mint).isSome

/-- The flag of a mint is written until `t` or later. -/
def HeldUntil (flags : FlagStore) (flag : StagedFlag) (mint : String) (t : ℤ) : Prop :=
  match flag with
  | .veto => flags.vetoFlags.HeldUntil mint t
  | .narrativeFailure => flags.narrativeFlags.HeldUntil mint t
  | .insiderDump => flags.insiderDumpFlags.HeldUntil mint t
  | .sellabilityDegraded => flags.sellabilityDegradedFlags.HeldUntil mint t
  | .lpUnlockApproaching => flags.lpUnlockApproachingFlags.HeldUntil mint t

variable {flags : FlagStore} {flag : StagedFlag} {mint : String} {t now : ℤ}

theorem HeldUntil.mono {t' : ℤ} (h : flags.HeldUntil flag mint t') (ht : t ≤ t') :
    flags.HeldUntil flag mint t := by
  cases flag with
  | veto => exact Leases.HeldUntil.mono h ht
  | narrativeFailure => exact Leases.HeldUntil.mono h ht
  | insiderDump => exact Leases.HeldUntil.mono h ht
  | sellabilityDegraded => exact Leases.HeldUntil.mono h ht
  | lpUnlockApproaching => exact Leases.HeldUntil.mono h ht

/-- **A flag that is held** is read until its time. -/
theorem HeldUntil.read (h : flags.HeldUntil flag mint t) (hnow : now < t) :
    flags.getFlag now flag mint = true := by
  cases flag with
  | veto => exact Leases.HeldUntil.read h hnow
  | narrativeFailure => exact Leases.HeldUntil.read h hnow
  | insiderDump => exact Leases.HeldUntil.read h hnow
  | sellabilityDegraded => exact Leases.HeldUntil.read h hnow
  | lpUnlockApproaching => exact Leases.HeldUntil.read h hnow

end FlagStore

/-- For how many seconds each flag is written, at least. -/
abbrev FlagTtl := StagedFlag → ℤ

/-- A writer that writes no flag before `now`, nor for fewer seconds than `ttl`: what is held until a
time that it reaches is still held, and the scores are left alone. -/
structure Keeps (ttl : FlagTtl) (now : ℤ) (flags flags' : FlagStore) : Prop where
  held : ∀ flag mint t, t ≤ FlagStore.expiry now (ttl flag) → flags.HeldUntil flag mint t →
    flags'.HeldUntil flag mint t
  signals : flags'.signals = flags.signals

namespace Keeps

variable {ttl : FlagTtl} {now now' : ℤ} {flags flags' flags'' : FlagStore} {mint : String}

theorem refl (ttl : FlagTtl) (now : ℤ) (flags : FlagStore) : Keeps ttl now flags flags :=
  ⟨fun _ _ _ _ h => h, rfl⟩

theorem trans (h : Keeps ttl now flags flags') (h' : Keeps ttl now flags' flags'') :
    Keeps ttl now flags flags'' :=
  ⟨fun flag mint t ht held => h'.held flag mint t ht (h.held flag mint t ht held),
    h'.signals.trans h.signals⟩

/-- A writer that is later. -/
theorem mono (h : Keeps ttl now' flags flags') (hnow : now ≤ now') : Keeps ttl now flags flags' := by
  refine ⟨fun flag mint t ht => h.held flag mint t ?_, h.signals⟩
  unfold FlagStore.expiry at ht ⊢
  omega

/-- A loop of writers. -/
theorem foldl {α : Type} {writer : FlagStore → α → FlagStore}
    (hwriter : ∀ flags a, Keeps ttl now flags (writer flags a)) (flags : FlagStore) (l : List α) :
    Keeps ttl now flags (l.foldl writer flags) := by
  refine List.foldlRecOn l writer (motive := fun flags' => Keeps ttl now flags flags')
    (refl ttl now flags) ?_
  intro flags' h a _
  exact h.trans (hwriter flags' a)

section Setters

variable {t ttlSeconds : ℤ} {flag : StagedFlag} {mint' : String}

theorem expiry_le (h : t ≤ FlagStore.expiry now (ttl flag)) (hlonger : ttl flag ≤ ttlSeconds) :
    t ≤ FlagStore.expiry now ttlSeconds := by
  unfold FlagStore.expiry at *
  omega

theorem setVetoFlag (h : ttl .veto ≤ ttlSeconds) :
    Keeps ttl now flags (flags.setVetoFlag now mint ttlSeconds) := by
  refine ⟨fun flag mint' t ht held => ?_, rfl⟩
  cases flag with
  | veto => exact Leases.HeldUntil.grant held fun _ => expiry_le ht h
  | _ => exact held

theorem setNarrativeFailureFlag (h : ttl .narrativeFailure ≤ ttlSeconds) :
    Keeps ttl now flags (flags.setNarrativeFailureFlag now mint ttlSeconds) := by
  refine ⟨fun flag mint' t ht held => ?_, rfl⟩
  cases flag with
  | narrativeFailure => exact Leases.HeldUntil.grant held fun _ => expiry_le ht h
  | _ => exact held

theorem setInsiderDumpFlag {fractionSoldBps eventSlot : ℕ} (h : ttl .insiderDump ≤ ttlSeconds) :
    Keeps ttl now flags
      (flags.setInsiderDumpFlag now mint fractionSoldBps eventSlot ttlSeconds) := by
  refine ⟨fun flag mint' t ht held => ?_, rfl⟩
  cases flag with
  | insiderDump => exact Leases.HeldUntil.grant held fun _ => expiry_le ht h
  | _ => exact held

theorem setSellabilityDegradedFlag {reason : SellabilityReprobeReason} {eventSlot : ℕ}
    (h : ttl .sellabilityDegraded ≤ ttlSeconds) :
    Keeps ttl now flags
      (flags.setSellabilityDegradedFlag now mint reason eventSlot ttlSeconds) := by
  refine ⟨fun flag mint' t ht held => ?_, rfl⟩
  cases flag with
  | sellabilityDegraded => exact Leases.HeldUntil.grant held fun _ => expiry_le ht h
  | _ => exact held

theorem setLpUnlockApproachingFlag {reason : LpUnlockExitReason} {eventSlot : ℕ}
    (h : ttl .lpUnlockApproaching ≤ ttlSeconds) :
    Keeps ttl now flags
      (flags.setLpUnlockApproachingFlag now mint reason eventSlot ttlSeconds) := by
  refine ⟨fun flag mint' t ht held => ?_, rfl⟩
  cases flag with
  | lpUnlockApproaching => exact Leases.HeldUntil.grant held fun _ => expiry_le ht h
  | _ => exact held

end Setters

end Keeps

/-- `SlowLoop`, for how long it stages. -/
structure SlowLoop where
  signalTtlSeconds : ℤ := 30
  vetoTtlSeconds : ℤ := 60
  narrativeTtlSeconds : ℤ := 120

/-- What a call of `process_event` is answered: the signal of the classifier with its mint, when it
was staged, the verdict of the reasoner if there is one, and when it came. -/
structure SlowAnswers where
  predicted : Option (String × DecisionSignal)
  stagedAt : ℤ
  verdict : Option ReasoningAction
  reasonedAt : ℤ

namespace SlowLoop

variable (loop : SlowLoop)

/-- `_apply_reasoning_verdict(mint, verdict)`. -/
def applyReasoningVerdict (flags : FlagStore) (now : ℤ) (mint : String) :
    ReasoningAction → FlagStore
  | .hold => flags
  | .vetoEntry => flags.setVetoFlag now mint loop.vetoTtlSeconds
  | .reduceSize => flags.setVetoFlag now mint (loop.vetoTtlSeconds / 2)
  | .forceExit => flags.setNarrativeFailureFlag now mint loop.narrativeTtlSeconds

/-- `process_event(event)`, for an event of the mint. -/
def processEvent (flags : FlagStore) (mint : String) (answers : SlowAnswers) :
    Option DecisionSignal × FlagStore :=
  match answers.predicted with
  | none => (none, flags)
  | some (signalMint, signal) =>
      let staged :=
        flags.setDecisionSignal answers.stagedAt signalMint signal loop.signalTtlSeconds
      match answers.verdict with
      | none => (some signal, staged)
      | some action =>
          (some signal, loop.applyReasoningVerdict staged answers.reasonedAt mint action)

end SlowLoop

/-- `RegimeState`, whose values are those of `RegimeLabel`. -/
abbrev RegimeState := Models.RegimeLabel

/-- `RegimeDeRiskDirective`; `inert` is `NONE`. -/
inductive RegimeDeRiskDirective
  | inert
  | reduce
  | forceExit
  | vetoEntry
  deriving DecidableEq

/-- The flag that a directive is carried out by. -/
def RegimeDeRiskDirective.flag : RegimeDeRiskDirective → Option StagedFlag
  | .inert => none
  | .reduce => some .veto
  | .forceExit => some .narrativeFailure
  | .vetoEntry => some .veto

/-- `regime_derisk_directive(state)`. -/
def regimeDeriskDirective : RegimeState → RegimeDeRiskDirective
  | .accumulation => .inert
  | .neutral => .inert
  | .distribution => .reduce
  | .rugInProgress => .forceExit

/-- `SurvivorPrediction`, of what the wiring reads. -/
structure SurvivorPrediction where
  mint : String
  pCalibrated : ℚ
  uncertainty : ℚ

/-- `SlowLoopRegimeWiring`: what its `__init__` lets pass. -/
structure RegimeWiring where
  forceExitSurvivalBelow : ℚ := 0.15
  reduceSurvivalBelow : ℚ := 0.35
  highUncertaintyReduceAt : ℚ := 0.85
  vetoTtlSeconds : ℤ := 60
  narrativeTtlSeconds : ℤ := 120
  thresholds_bounds : 0 ≤ forceExitSurvivalBelow ∧ forceExitSurvivalBelow ≤ reduceSurvivalBelow ∧
    reduceSurvivalBelow ≤ 1
  uncertainty_bounds : 0 ≤ highUncertaintyReduceAt ∧ highUncertaintyReduceAt ≤ 1

namespace RegimeWiring

variable (wiring : RegimeWiring)

/-- `_apply_directive(mint, directive)`. -/
def applyDirective (flags : FlagStore) (now : ℤ) (mint : String) :
    RegimeDeRiskDirective → FlagStore
  | .inert => flags
  | .reduce => flags.setVetoFlag now mint (wiring.vetoTtlSeconds / 2)
  | .vetoEntry => flags.setVetoFlag now mint wiring.vetoTtlSeconds
  | .forceExit => flags.setNarrativeFailureFlag now mint wiring.narrativeTtlSeconds

/-- `apply_regime_signal(signal)`, of a signal of the mint. -/
def applyRegimeSignal (flags : FlagStore) (now : ℤ) (mint : String) (regime : RegimeState) :
    FlagStore :=
  wiring.applyDirective flags now mint (regimeDeriskDirective regime)

/-- `survivor_directive(pred)`. -/
def survivorDirective (pred : SurvivorPrediction) : RegimeDeRiskDirective :=
  if pred.pCalibrated ≤ wiring.forceExitSurvivalBelow then .forceExit
  else if pred.pCalibrated ≤ wiring.reduceSurvivalBelow ∨
      wiring.highUncertaintyReduceAt ≤ pred.uncertainty then .reduce
  else .inert

/-- `apply_survivor_prediction(pred)`. -/
def applySurvivorPrediction (flags : FlagStore) (now : ℤ) (pred : SurvivorPrediction) : FlagStore :=
  wiring.applyDirective flags now pred.mint (wiring.survivorDirective pred)

/-- `run_survivor_derisk(event_slot)` over the open mints; the model has no prediction for a mint
whose features are absent. -/
def runSurvivorDerisk (flags : FlagStore) (now : ℤ) (predict : String → Option SurvivorPrediction)
    (mints : List String) : FlagStore :=
  (mints.filterMap predict).foldl (fun flags pred => wiring.applySurvivorPrediction flags now pred)
    flags

end RegimeWiring

section Writers

variable {ttl : FlagTtl} {flags : FlagStore} {now : ℤ} {mint : String}

theorem applyReasoningVerdict_keeps {loop : SlowLoop}
    (hveto : ttl .veto ≤ loop.vetoTtlSeconds ∧ ttl .veto ≤ loop.vetoTtlSeconds / 2)
    (hnarrative : ttl .narrativeFailure ≤ loop.narrativeTtlSeconds) (action : ReasoningAction) :
    Keeps ttl now flags (loop.applyReasoningVerdict flags now mint action) := by
  cases action with
  | hold => exact .refl ttl now flags
  | vetoEntry => exact .setVetoFlag hveto.1
  | reduceSize => exact .setVetoFlag hveto.2
  | forceExit => exact .setNarrativeFailureFlag hnarrative

theorem applyDirective_keeps {wiring : RegimeWiring}
    (hveto : ttl .veto ≤ wiring.vetoTtlSeconds ∧ ttl .veto ≤ wiring.vetoTtlSeconds / 2)
    (hnarrative : ttl .narrativeFailure ≤ wiring.narrativeTtlSeconds)
    (directive : RegimeDeRiskDirective) :
    Keeps ttl now flags (wiring.applyDirective flags now mint directive) := by
  cases directive with
  | inert => exact .refl ttl now flags
  | reduce => exact .setVetoFlag hveto.2
  | vetoEntry => exact .setVetoFlag hveto.1
  | forceExit => exact .setNarrativeFailureFlag hnarrative

/-- **A directive that is carried out** by a flag writes it. -/
theorem applyDirective_raised {wiring : RegimeWiring}
    (hveto : ttl .veto ≤ wiring.vetoTtlSeconds ∧ ttl .veto ≤ wiring.vetoTtlSeconds / 2)
    (hnarrative : ttl .narrativeFailure ≤ wiring.narrativeTtlSeconds)
    {directive : RegimeDeRiskDirective} {flag : StagedFlag} (hflag : directive.flag = some flag) :
    (wiring.applyDirective flags now mint directive).HeldUntil flag mint
      (FlagStore.expiry now (ttl flag)) := by
  cases directive with
  | inert => cases hflag
  | reduce =>
      obtain rfl := Option.some.inj hflag
      exact Leases.heldUntil_grant (Keeps.expiry_le (le_refl _) hveto.2)
  | vetoEntry =>
      obtain rfl := Option.some.inj hflag
      exact Leases.heldUntil_grant (Keeps.expiry_le (le_refl _) hveto.1)
  | forceExit =>
      obtain rfl := Option.some.inj hflag
      exact Leases.heldUntil_grant (Keeps.expiry_le (le_refl _) hnarrative)

end Writers

end Controller
end AatsSniper

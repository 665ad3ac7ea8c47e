/-
# The orchestrator

`ControllerOrchestrator` of `aats/controller/loops.py`: the three loops, the reconciler, the
enrichment and the regime wiring over one store, with the kill switch of
`aats/controller/control_api.py`.

An `OrchestratorOp` is a call of one of its methods, or what the control plane does to the kill
switch, the breaker and the flatten handler it shares.  `orchestrate` is what such a call leaves,
whether it returned or raised, and `returned` what it raised.  Nothing runs between two calls, but
they come in any order.

What is staged is read from the flags at the time of the store's clock.  The calls of
`venue.execute` are recorded.
-/

import AatsSniper.Controller.Enrichment
import AatsSniper.Controller.Reconcile

namespace AatsSniper
namespace Controller

open Breaker (OperatorResetToken)
open Ingestion (Detector DetectorCall InsiderDumpSignal SellObservation)

variable {E : Type}

/-- `ControllerOrchestrator`, of what it is built with. -/
structure OrchestratorConfig (E : Type) where
  controller : ControllerConfig E
  slow : SlowLoop
  enrichment : Option EnrichmentWiring
  regime : Option RegimeWiring

/-- A call of `venue.execute`: the mint and the slot of the event, the signal that was read for it,
and when. -/
structure VenueEntry where
  mint : String
  slot : ℤ
  signal : DecisionSignal
  now : ℤ

/-- The loops and what they share. -/
structure Orchestrator where
  loop : FastLoop
  flags : FlagStore
  detector : Detector
  killed : Bool
  started : Bool
  entries : List VenueEntry

/-- An orchestrator that was not started yet. -/
def Orchestrator.start (loop : FastLoop) : Orchestrator where
  loop := loop
  flags := .empty
  detector := {}
  killed := false
  started := false
  entries := []

/-- A call of `on_launch_event`: the event and its creator, what the SLOW loop is answered, and the
clock, the duration and the fill of the SNIPE loop. -/
structure LaunchCall (E : Type) where
  event : LaunchEvent E
  creatorWallet : String
  slow : SlowAnswers
  now : ℤ
  elapsedMs : ℤ
  fill : FillResult

/-- A call of `tick`: what the FAST loop reads besides the flags, and the slot. -/
structure TickCall where
  now : ℤ
  blockTimeMs : ℤ
  currentSlot : ℤ
  marks : String → Option ℚ
  lands : Answers

/-- What a call raises. -/
inductive OrchestratorError
  | notStarted
  | fast (e : FastError)
  | enrichment (e : EnrichmentError)

namespace Orchestrator

/-- The mints of `load_all_positions()`. -/
def openMints (o : Orchestrator) : List String := o.loop.store.positions.rows.map Position.mint

/-- What the FAST loop reads in a tick. -/
def tickInput (o : Orchestrator) (call : TickCall) : TickInput where
  now := call.now
  blockTimeMs := call.blockTimeMs
  marks := call.marks
  narrativeFailureFlag := o.flags.getFlag call.now .narrativeFailure
  insiderDumpFlag := o.flags.getFlag call.now .insiderDump
  sellabilityDegradedFlag := o.flags.getFlag call.now .sellabilityDegraded
  lpUnlockApproachingFlag := o.flags.getFlag call.now .lpUnlockApproaching
  lands := call.lands

/-- What the SNIPE loop reads for an event. -/
def snipeCall (flags : FlagStore) (call : LaunchCall E) : SnipeCall E where
  event := call.event
  now := call.now
  signal := flags.getDecisionSignal call.now call.event.mint
  vetoFlag := flags.getFlag call.now .veto call.event.mint
  elapsedMs := call.elapsedMs
  fill := call.fill

section Methods

variable (cfg : OrchestratorConfig E)

/-- `startup(block_time_ms)`. -/
def startup (o : Orchestrator) (now : ℤ) (venue : VenueState) :
    Except OrchestratorError Unit × Orchestrator :=
  match startupReconcile cfg.controller now venue o.loop.reboot with
  | (.error e, left) => (.error (.fast e), { o with loop := left })
  | (.ok _, left) => (.ok (), { o with loop := left, started := true })

/-- The SNIPE half of `on_launch_event(event)`. -/
def snipe (o : Orchestrator) (call : LaunchCall E) : Orchestrator :=
  if o.killed = true then o
  else
    let sniped := cfg.controller.snipe.processEvent o.loop.store (snipeCall o.flags call)
    let left := { o with loop := { o.loop with store := sniped.2 } }
    match sniped.1, (snipeCall o.flags call).signal with
    | .filled _, some signal =>
        { left with
          entries := o.entries ++ [⟨call.event.mint, call.event.slot, signal, call.now⟩]
          detector :=
            match cfg.enrichment with
            | none => o.detector
            | some wiring => wiring.registerCreator o.detector call.event.mint call.creatorWallet }
    | _, _ => left

/-- `on_launch_event(event)`. -/
def onLaunchEvent (o : Orchestrator) (call : LaunchCall E) :
    Except OrchestratorError Unit × Orchestrator :=
  if o.started = false then (.error .notStarted, o)
  else
    let staged := (cfg.slow.processEvent o.flags call.event.mint call.slow).2
    (.ok (), snipe cfg { o with flags := staged } call)

/-- `tick(block_time_ms, current_slot)`. -/
def tick (o : Orchestrator) (call : TickCall) : Except OrchestratorError Unit × Orchestrator :=
  if o.started = false then (.error .notStarted, o)
  else
    match o.loop.tick cfg.controller.fast (o.tickInput call) with
    | (.error e, left) => (.error (.fast e), { o with loop := left })
    | (.ok _, left) =>
        (.ok (),
          { o with loop := continuousReconcileTick cfg.controller call.now call.currentSlot left })

/-- `on_fill(mint, fill, block_time_ms)`. -/
def onFill (o : Orchestrator) (now : ℤ) (mint : String) (fill : FillResult) :
    Except OrchestratorError Unit × Orchestrator :=
  match o.loop.reconcileFill cfg.controller.fast now mint fill with
  | (.error e, left) => (.error (.fast e), { o with loop := left })
  | (.ok _, left) => (.ok (), { o with loop := left })

/-- `on_decoded_sell(obs)`. -/
def onDecodedSell (o : Orchestrator) (now : ℤ) (obs : SellObservation) :
    Option InsiderDumpSignal × Orchestrator :=
  match cfg.enrichment with
  | none => (none, o)
  | some wiring =>
      let isOpen := (o.loop.store.loadPosition obs.mint).isSome
      let served := wiring.onDecodedSell o.flags o.detector now obs isOpen
      (served.1, { o with flags := served.2.1, detector := served.2.2 })

/-- `run_slow_enrichment_tick(event_slot)`. -/
def runSlowEnrichmentTick (o : Orchestrator) (answers : EnrichmentAnswers) (eventSlot : ℕ) :
    Except OrchestratorError Unit × Orchestrator :=
  match cfg.enrichment with
  | none => (.ok (), o)
  | some wiring =>
      match wiring.runSellabilityReprobe o.flags answers eventSlot o.openMints with
      | (.error e, flags) => (.error (.enrichment e), { o with flags := flags })
      | (.ok _, flags) =>
          (.ok (),
            { o with flags := wiring.runLpUnlockWatch flags answers eventSlot o.openMints })

/-- `apply_regime_signal(signal)`, of a signal of the mint. -/
def applyRegimeSignal (o : Orchestrator) (now : ℤ) (mint : String) (regime : RegimeState) :
    Orchestrator :=
  match cfg.regime with
  | none => o
  | some wiring => { o with flags := wiring.applyRegimeSignal o.flags now mint regime }

/-- `apply_survivor_prediction(pred)`. -/
def applySurvivorPrediction (o : Orchestrator) (now : ℤ) (pred : SurvivorPrediction) :
    Orchestrator :=
  match cfg.regime with
  | none => o
  | some wiring => { o with flags := wiring.applySurvivorPrediction o.flags now pred }

/-- `run_slow_regime_tick(event_slot)`, with the predictions of the survivor model if it is wired. -/
def runSlowRegimeTick (o : Orchestrator) (now : ℤ) (predict : String → Option SurvivorPrediction) :
    Orchestrator :=
  match cfg.regime with
  | none => o
  | some wiring => { o with flags := wiring.runSurvivorDerisk o.flags now predict o.openMints }

end Methods

end Orchestrator

/-! ### Calls -/

/-- The calls of an orchestrator. -/
inductive OrchestratorOp (E : Type)
  | startup (now : ℤ) (venue : VenueState)
  | launch (call : LaunchCall E)
  | tick (call : TickCall)
  | fill (now : ℤ) (mint : String) (fill : FillResult)
  | decodedSell (now : ℤ) (obs : SellObservation)
  | slowEnrichmentTick (answers : EnrichmentAnswers) (eventSlot : ℕ)
  | regimeSignal (now : ℤ) (mint : String) (regime : RegimeState)
  | survivorPrediction (now : ℤ) (pred : SurvivorPrediction)
  | slowRegimeTick (now : ℤ) (predict : String → Option SurvivorPrediction)
  /-- A registration with the detector, a reset of a mint, or a change of the held supplies. -/
  | watch (call : DetectorCall)
  /-- `kill_switch.kill()`. -/
  | kill
  /-- `flatten_handler.emergency_flatten_all(reason)`. -/
  | flattenAll (lands : Answers)
  /-- `flatten_handler.flatten_one(mint, reason)`. -/
  | flattenOne (lands : Answers) (mint : String)
  /-- `breaker.reset(token)`. -/
  | breakerReset (token : OperatorResetToken)

section Calls

variable (cfg : OrchestratorConfig E) (o : Orchestrator)

/-- What a call leaves. -/
def orchestrate : OrchestratorOp E → Orchestrator
  | .startup now venue => (o.startup cfg now venue).2
  | .launch call => (o.onLaunchEvent cfg call).2
  | .tick call => (o.tick cfg call).2
  | .fill now mint fill => (o.onFill cfg now mint fill).2
  | .decodedSell now obs => (o.onDecodedSell cfg now obs).2
  | .slowEnrichmentTick answers eventSlot => (o.runSlowEnrichmentTick cfg answers eventSlot).2
  | .regimeSignal now mint regime => o.applyRegimeSignal cfg now mint regime
  | .survivorPrediction now pred => o.applySurvivorPrediction cfg now pred
  | .slowRegimeTick now predict => o.runSlowRegimeTick cfg now predict
  | .watch call =>
      { o with
        detector :=
          match call with
          | .resetMint mint => o.detector.resetMint mint
          | call => { o.detector with toWatchlist := o.detector.toWatchlist.serve call } }
  | .kill => { o with killed := true }
  | .flattenAll lands => { o with loop := o.loop.emergencyFlattenAll lands }
  | .flattenOne lands mint => { o with loop := (o.loop.flattenOne lands mint).2 }
  | .breakerReset token =>
      { o with loop := { o.loop with breaker := (Breaker.reset o.loop.breaker token).2 } }

/-- Some calls, one after the other. -/
def orchestrateAll (o : Orchestrator) (ops : List (OrchestratorOp E)) : Orchestrator :=
  ops.foldl (orchestrate cfg) o

/-- The readings of the store's clock in a call. -/
def OrchestratorOp.readings : OrchestratorOp E → List ℤ
  | .startup now _ => [now]
  | .launch call => [call.slow.stagedAt, call.slow.reasonedAt, call.now]
  | .tick call => [call.now]
  | .fill now _ _ => [now]
  | .decodedSell now _ => [now]
  | .slowEnrichmentTick answers _ => [answers.now]
  | .regimeSignal now _ _ => [now]
  | .survivorPrediction now _ => [now]
  | .slowRegimeTick now _ => [now]
  | _ => []

end Calls

/-! ### The loop of the controller -/

section Loop

variable (cfg : OrchestratorConfig E) (o : Orchestrator)

/-- The calls on the controller that a call makes, but for the reset of the breaker. -/
def OrchestratorOp.controllerOps : OrchestratorOp E → List (ControllerOp E)
  | .startup now venue => [.startup now venue]
  | .launch call =>
      if o.started = true ∧ o.killed = false then
        [.processEvent
          (Orchestrator.snipeCall (cfg.slow.processEvent o.flags call.event.mint call.slow).2 call)]
      else []
  | .tick call =>
      if o.started = false then []
      else
        match (o.loop.tick cfg.controller.fast (o.tickInput call)).1 with
        | .error _ => [.tick (o.tickInput call)]
        | .ok _ => [.tick (o.tickInput call), .continuousReconcileTick call.now call.currentSlot]
  | .fill now mint result => [.reconcileFill now mint result]
  | .flattenAll lands => [.emergencyFlattenAll lands]
  | .flattenOne lands mint => [.flattenOne lands mint]
  | _ => []

/-- The loop of the SNIPE half is the one of `process_event`, if it runs. -/
theorem loop_snipe (call : LaunchCall E) : (o.snipe cfg call).loop =
    if o.killed = true then o.loop
    else { o.loop with
      store := (cfg.controller.snipe.processEvent o.loop.store
        (Orchestrator.snipeCall o.flags call)).2 } := by
  unfold Orchestrator.snipe
  split_ifs
  · rfl
  · dsimp only
    split <;> rfl

/-- **The loop under an orchestrator** goes through calls on a controller. -/
theorem loop_orchestrate (op : OrchestratorOp E) (hop : ∀ token, op ≠ .breakerReset token) :
    (orchestrate cfg o op).loop = (op.controllerOps cfg o).foldl (next cfg.controller) o.loop := by
  cases op with
  | startup now venue =>
      show (o.startup cfg now venue).2.loop = (startupReconcile cfg.controller now venue _).2
      unfold Orchestrator.startup
      rcases startupReconcile cfg.controller now venue o.loop.reboot with ⟨e | _, left⟩ <;> rfl
  | launch call =>
      show (o.onLaunchEvent cfg call).2.loop = _
      unfold Orchestrator.onLaunchEvent OrchestratorOp.controllerOps
      cases o.started with
      | false => rfl
      | true =>
          rw [if_neg nofun, loop_snipe]
          cases o.killed with
          | true => rfl
          | false => rfl
  | tick call =>
      show (o.tick cfg call).2.loop = _
      unfold Orchestrator.tick OrchestratorOp.controllerOps
      cases o.started with
      | false => rfl
      | true =>
          rw [if_neg Bool.noConfusion]
          dsimp only
          rw [if_neg Bool.noConfusion]
          rcases htick : o.loop.tick cfg.controller.fast (o.tickInput call) with ⟨e | _, left⟩
          · exact (congrArg Prod.snd htick).symm
          · show continuousReconcileTick _ _ _ left =
              continuousReconcileTick _ _ _ (o.loop.tick cfg.controller.fast (o.tickInput call)).2
            rw [htick]
  | fill now mint fill =>
      show (o.onFill cfg now mint fill).2.loop = (o.loop.reconcileFill _ now mint fill).2
      unfold Orchestrator.onFill
      rcases o.loop.reconcileFill cfg.controller.fast now mint fill with ⟨e | _, left⟩ <;> rfl
  | decodedSell now obs =>
      show (o.onDecodedSell cfg now obs).2.loop = o.loop
      unfold Orchestrator.onDecodedSell
      split <;> rfl
  | slowEnrichmentTick answers eventSlot =>
      show (o.runSlowEnrichmentTick cfg answers eventSlot).2.loop = o.loop
      unfold Orchestrator.runSlowEnrichmentTick
      split
      · rfl
      · split <;> rfl
  | regimeSignal now mint regime =>
      show (o.applyRegimeSignal cfg now mint regime).loop = o.loop
      unfold Orchestrator.applyRegimeSignal
      split <;> rfl
  | survivorPrediction now pred =>
      show (o.applySurvivorPrediction cfg now pred).loop = o.loop
      unfold Orchestrator.applySurvivorPrediction
      split <;> rfl
  | slowRegimeTick now predict =>
      show (o.runSlowRegimeTick cfg now predict).loop = o.loop
      unfold Orchestrator.runSlowRegimeTick
      split <;> rfl
  | watch call => rfl
  | kill => rfl
  | flattenAll lands => rfl
  | flattenOne lands mint => rfl
  | breakerReset token => exact absurd rfl (hop token)

end Loop

/-! ### What a call leaves of the flags -/

/-- For how long every writer of the orchestrator writes a flag, at least. -/
def OrchestratorConfig.flagTtl (cfg : OrchestratorConfig E) : FlagTtl
  | .veto =>
      let slow := min cfg.slow.vetoTtlSeconds (cfg.slow.vetoTtlSeconds / 2)
      cfg.regime.elim slow fun wiring =>
        min slow (min wiring.vetoTtlSeconds (wiring.vetoTtlSeconds / 2))
  | .narrativeFailure =>
      cfg.regime.elim cfg.slow.narrativeTtlSeconds fun wiring =>
        min cfg.slow.narrativeTtlSeconds wiring.narrativeTtlSeconds
  | .insiderDump => cfg.enrichment.elim 0 EnrichmentWiring.insiderDumpTtlSeconds
  | .sellabilityDegraded => cfg.enrichment.elim 0 EnrichmentWiring.sellabilityTtlSeconds
  | .lpUnlockApproaching => cfg.enrichment.elim 0 EnrichmentWiring.lpUnlockTtlSeconds

section Ttl

variable {cfg : OrchestratorConfig E} {o : Orchestrator} {t : ℤ}

theorem flagTtl_slow (cfg : OrchestratorConfig E) : cfg.flagTtl .veto ≤ cfg.slow.vetoTtlSeconds ∧
    cfg.flagTtl .veto ≤ cfg.slow.vetoTtlSeconds / 2 ∧
      cfg.flagTtl .narrativeFailure ≤ cfg.slow.narrativeTtlSeconds := by
  unfold OrchestratorConfig.flagTtl
  cases cfg.regime with
  | none => simp only [Option.elim_none]; omega
  | some wiring => simp only [Option.elim_some]; omega

theorem flagTtl_regime {wiring : RegimeWiring} (h : cfg.regime = some wiring) :
    cfg.flagTtl .veto ≤ wiring.vetoTtlSeconds ∧ cfg.flagTtl .veto ≤ wiring.vetoTtlSeconds / 2 ∧
      cfg.flagTtl .narrativeFailure ≤ wiring.narrativeTtlSeconds := by
  unfold OrchestratorConfig.flagTtl
  rw [h]
  simp only [Option.elim_some]
  omega

theorem flagTtl_enrichment {wiring : EnrichmentWiring} (h : cfg.enrichment = some wiring) :
    cfg.flagTtl .insiderDump = wiring.insiderDumpTtlSeconds ∧
      cfg.flagTtl .sellabilityDegraded = wiring.sellabilityTtlSeconds ∧
        cfg.flagTtl .lpUnlockApproaching = wiring.lpUnlockTtlSeconds := by
  unfold OrchestratorConfig.flagTtl
  rw [h]
  exact ⟨rfl, rfl, rfl⟩

/-- The SNIPE half leaves the flags alone. -/
theorem flags_snipe (cfg : OrchestratorConfig E) (o : Orchestrator) (call : LaunchCall E) :
    (o.snipe cfg call).flags = o.flags ∧ (o.snipe cfg call).killed = o.killed ∧
      (o.snipe cfg call).started = o.started := by
  unfold Orchestrator.snipe
  split_ifs
  · exact ⟨rfl, rfl, rfl⟩
  · dsimp only
    split
    · exact ⟨rfl, rfl, rfl⟩
    · exact ⟨rfl, rfl, rfl⟩

/-- A directive of the wiring. -/
theorem regime_keeps {wiring : RegimeWiring} {flags : FlagStore} {now : ℤ} {mint : String}
    (h : cfg.regime = some wiring) (directive : RegimeDeRiskDirective) :
    Keeps cfg.flagTtl now flags (wiring.applyDirective flags now mint directive) := by
  obtain ⟨hveto, hhalf, hnarrative⟩ := flagTtl_regime h
  exact applyDirective_keeps ⟨hveto, hhalf⟩ hnarrative directive

/-- What is kept of the flags alone, where the scores may be staged anew. -/
def KeepsHeld (ttl : FlagTtl) (now : ℤ) (flags flags' : FlagStore) : Prop :=
  ∀ flag mint t, t ≤ FlagStore.expiry now (ttl flag) → flags.HeldUntil flag mint t →
    flags'.HeldUntil flag mint t

theorem slow_keeps {flags : FlagStore} {mint : String} {answers : SlowAnswers}
    (hnow : t ≤ answers.reasonedAt) :
    KeepsHeld cfg.flagTtl t flags (cfg.slow.processEvent flags mint answers).2 := by
  obtain ⟨hveto, hhalf, hnarrative⟩ := flagTtl_slow cfg
  unfold SlowLoop.processEvent
  cases answers.predicted with
  | none => exact fun _ _ _ _ h => h
  | some predicted =>
      obtain ⟨signalMint, signal⟩ := predicted
      let staged :=
        flags.setDecisionSignal answers.stagedAt signalMint signal cfg.slow.signalTtlSeconds
      have hstaged : KeepsHeld cfg.flagTtl t flags staged := by
        intro flag _ _ _ h
        cases flag <;> exact h
      cases answers.verdict with
      | none => exact hstaged
      | some action =>
          have happlied : Keeps cfg.flagTtl answers.reasonedAt staged
              (cfg.slow.applyReasoningVerdict staged answers.reasonedAt mint action) :=
            applyReasoningVerdict_keeps ⟨hveto, hhalf⟩ hnarrative action
          intro flag m t' ht h
          exact (happlied.mono hnow).held flag m t' ht (hstaged flag m t' ht h)

/-- A call that is no launch keeps the flags and the scores, where it reads the clock no earlier
than `t`. -/
theorem orchestrate_keeps (op : OrchestratorOp E) (hnow : ∀ now ∈ op.readings, t ≤ now)
    (hop : ∀ call, op ≠ .launch call) :
    Keeps cfg.flagTtl t o.flags (orchestrate cfg o op).flags := by
  have hsame : ∀ {flags : FlagStore}, flags = o.flags → Keeps cfg.flagTtl t o.flags flags := by
    rintro flags rfl
    exact .refl cfg.flagTtl t o.flags
  cases op with
  | startup now venue =>
      refine hsame ?_
      show (o.startup cfg now venue).2.flags = o.flags
      unfold Orchestrator.startup
      split <;> rfl
  | launch call => exact absurd rfl (hop call)
  | tick call =>
      refine hsame ?_
      show (o.tick cfg call).2.flags = o.flags
      unfold Orchestrator.tick
      split_ifs
      · rfl
      · split <;> rfl
  | fill now mint fill =>
      refine hsame ?_
      show (o.onFill cfg now mint fill).2.flags = o.flags
      unfold Orchestrator.onFill
      split <;> rfl
  | decodedSell now obs =>
      show Keeps cfg.flagTtl t o.flags (o.onDecodedSell cfg now obs).2.flags
      unfold Orchestrator.onDecodedSell
      split
      · exact hsame rfl
      · rename_i wiring hwiring
        exact (onDecodedSell_keeps (flagTtl_enrichment hwiring).1.le).mono
          (hnow now (by simp [OrchestratorOp.readings]))
  | slowEnrichmentTick answers eventSlot =>
      show Keeps cfg.flagTtl t o.flags (o.runSlowEnrichmentTick cfg answers eventSlot).2.flags
      have hle := hnow answers.now (by simp [OrchestratorOp.readings])
      unfold Orchestrator.runSlowEnrichmentTick
      split
      · exact hsame rfl
      · rename_i wiring hwiring
        obtain ⟨-, hsellability, hlp⟩ := flagTtl_enrichment hwiring
        have hreprobe : Keeps cfg.flagTtl answers.now o.flags
            (wiring.runSellabilityReprobe o.flags answers eventSlot o.openMints).2 :=
          runSellabilityReprobe_keeps hsellability.le
        split
        · rename_i hraised
          rw [hraised] at hreprobe
          exact hreprobe.mono hle
        · rename_i flags hran
          rw [hran] at hreprobe
          exact (hreprobe.trans (runLpUnlockWatch_keeps hlp.le)).mono hle
  | regimeSignal now mint regime =>
      show Keeps cfg.flagTtl t o.flags (o.applyRegimeSignal cfg now mint regime).flags
      unfold Orchestrator.applyRegimeSignal
      split
      · exact hsame rfl
      · rename_i wiring hwiring
        exact (regime_keeps hwiring _).mono (hnow now (by simp [OrchestratorOp.readings]))
  | survivorPrediction now pred =>
      show Keeps cfg.flagTtl t o.flags (o.applySurvivorPrediction cfg now pred).flags
      unfold Orchestrator.applySurvivorPrediction
      split
      · exact hsame rfl
      · rename_i wiring hwiring
        exact (regime_keeps hwiring _).mono (hnow now (by simp [OrchestratorOp.readings]))
  | slowRegimeTick now predict =>
      show Keeps cfg.flagTtl t o.flags (o.runSlowRegimeTick cfg now predict).flags
      unfold Orchestrator.runSlowRegimeTick
      split
      · exact hsame rfl
      · rename_i wiring hwiring
        exact (Keeps.foldl (fun _ _ => regime_keeps hwiring _) o.flags _).mono
          (hnow now (by simp [OrchestratorOp.readings]))
  | watch call => exact hsame rfl
  | kill => exact hsame rfl
  | flattenAll lands => exact hsame rfl
  | flattenOne lands mint => exact hsame rfl
  | breakerReset token => exact hsame rfl

/-- **A call keeps** what is held of the flags, where it reads the clock no earlier than `t`. -/
theorem orchestrate_keepsHeld (op : OrchestratorOp E) (hnow : ∀ now ∈ op.readings, t ≤ now) :
    KeepsHeld cfg.flagTtl t o.flags (orchestrate cfg o op).flags := by
  by_cases hop : ∃ call, op = .launch call
  · obtain ⟨call, rfl⟩ := hop
    show KeepsHeld cfg.flagTtl t o.flags (o.onLaunchEvent cfg call).2.flags
    unfold Orchestrator.onLaunchEvent
    split_ifs
    · exact fun _ _ _ _ h => h
    · dsimp only
      rw [(flags_snipe cfg _ call).1]
      exact slow_keeps (hnow _ (by simp [OrchestratorOp.readings]))
  · exact (orchestrate_keeps op hnow fun call h => hop ⟨call, h⟩).held

/-- **A run keeps** what is held of the flags. -/
theorem orchestrateAll_keeps (ops : List (OrchestratorOp E))
    (hnow : ∀ op ∈ ops, ∀ now ∈ op.readings, t ≤ now) :
    KeepsHeld cfg.flagTtl t o.flags (orchestrateAll cfg o ops).flags := by
  induction ops generalizing o with
  | nil => exact fun _ _ _ _ h => h
  | cons op ops ih =>
      have hfirst : KeepsHeld cfg.flagTtl t o.flags (orchestrate cfg o op).flags :=
        orchestrate_keepsHeld op (hnow op List.mem_cons_self)
      have hrest := ih (o := orchestrate cfg o op) fun op' h => hnow op' (List.mem_cons_of_mem op h)
      exact fun flag mint t' ht held => hrest flag mint t' ht (hfirst flag mint t' ht held)

end Ttl

end Controller
end AatsSniper

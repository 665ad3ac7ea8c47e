/-
# What is raised is sold

Runs of the orchestrator, of any calls in any order.  A flag that a call raises (`Raises`) is held
for its time to live whatever comes after (`raised_held`), so that a tick in that time that returns
sells the position (`raised_flag_sells`).

An open position is always registered as it is stored, or not taken up since the last restart
(`Holding.Known`).  What the engine has left of it is not invariant: a tick that raises between the
decision and the sale leaves a position of which the engine believes nothing is left.
-/

import AatsSniper.Controller.ForcedExit
import AatsSniper.Controller.Orchestrator

namespace AatsSniper
namespace Controller

open Exit (ExitState)
open Gate (LpUnlockSchedule LpUnlockThresholds)
open Ingestion (InsiderDumpSignal SellObservation)
open Reasoning (ReasoningAction)

variable {E : Type} {c c' : FastLoop} {q pos : Position} {m mint : String}

/-- An open position is registered as it is stored, or not taken up yet. -/
def Holding.Known (v : Holding) : Prop :=
  ∀ p, v.position = some p → p.fsmState = .opened →
    v.registered = some p ∨ (v.registered = none ∧ v.exitState = none)

/-- Where an entry is given up, nothing is open. -/
theorem not_open_of_abandoned {v : Holding} {p p' q : Position} (hpos : v.position = some p')
    (hentering : p'.fsmState = .entering) (hp : (v.abandoned q).position = some p)
    (hopen : p.fsmState = .opened) : False := by
  have hp' : (if q.fsmState = .entering then none else v.position) = some p := hp
  split_ifs at hp'
  obtain rfl := Option.some.inj (hpos.symm.trans hp')
  rw [hentering] at hopen
  cases hopen

theorem HoldingMove.known {cfg : FastConfig} {t : Touch} {v v' : Holding}
    (h : HoldingMove cfg m t v v') (hv : v.Known) : v'.Known := by
  intro p hp hopen
  cases h with
  | adopt hpos hnew =>
      obtain rfl := Option.some.inj (hpos.symm.trans hp)
      exact .inl rfl
  | drop hnone =>
      rw [show v.position = some p from hp] at hnone
      cases hnone
  | @step _ q exitState tick decision hq _ _ _ =>
      rcases hv p hp hopen with hsame | ⟨hnone, -⟩
      · exact .inl hsame
      · rw [hq] at hnone
        cases hnone
  | value _ _ _ => exact .inl hp
  | scaleOut _ _ => exact .inl hp
  | @exit _ q hq =>
      have hp' : (if q.fsmState = .opened then none else v.position) = some p := hp
      by_cases hstate : q.fsmState = .opened
      · rw [if_pos hstate] at hp'
        cases hp'
      · rw [if_neg hstate] at hp'
        rcases hv p hp' hopen with hsame | ⟨hnone, -⟩
        · obtain rfl := Option.some.inj (hq.symm.trans hsame)
          exact absurd hopen hstate
        · rw [hq] at hnone
          cases hnone
  | disarm hnone => exact hv p hp hopen
  | closing _ _ =>
      obtain rfl := Option.some.inj hp
      cases hopen
  | closed _ _ => cases hp
  | abandon hpos hentering _ => exact (not_open_of_abandoned hpos hentering hp hopen).elim
  | fail hpos hentering _ => exact (not_open_of_abandoned hpos hentering hp hopen).elim
  | fill _ _ _ _ _ =>
      left
      rw [(Holding.tracked_eq cfg m _ _ _).1] at hp
      rw [(Holding.tracked_eq cfg m _ _ _).2]
      exact hp
  | reboot => exact .inr ⟨rfl, rfl⟩
  | vanish _ => cases hp
  | enter hentering =>
      obtain rfl := Option.some.inj hp
      rw [hentering] at hopen
      cases hopen
  | blown => cases hp

section Runs

variable {cfg : OrchestratorConfig E} {o : Orchestrator} {t : ℤ}

theorem next_known {cfg : ControllerConfig E} (op : ControllerOp E)
    (h : (c.holding m).Known) : ((next cfg c op).holding m).Known :=
  (next_holdings cfg c op m).invariant h fun _ _ _ hv _ hmove => hmove.known hv

/-- A call on the orchestrator leaves the open positions known. -/
theorem orchestrate_known (op : OrchestratorOp E) (h : (o.loop.holding m).Known) :
    ((orchestrate cfg o op).loop.holding m).Known := by
  by_cases hop : ∃ token, op = .breakerReset token
  · obtain ⟨token, rfl⟩ := hop
    exact h
  · rw [loop_orchestrate cfg o op fun token heq => hop ⟨token, heq⟩]
    refine List.foldlRecOn _ (next cfg.controller)
      (motive := fun c : FastLoop => (c.holding m).Known) h ?_
    exact fun c hc call _ => next_known call hc

/-- **Open positions are known** in every run. -/
theorem orchestrateAll_known (ops : List (OrchestratorOp E)) (h : (o.loop.holding m).Known) :
    ((orchestrateAll cfg o ops).loop.holding m).Known :=
  List.foldlRecOn ops (orchestrate cfg) (motive := fun o : Orchestrator => (o.loop.holding m).Known)
    h fun _ ho op _ => orchestrate_known op ho

/-- A call raises a flag of a mint, at a time. -/
inductive Raises (cfg : OrchestratorConfig E) (o : Orchestrator) :
    OrchestratorOp E → StagedFlag → String → ℤ → Prop
  /-- The reasoner no longer believes in the narrative. -/
  | forceExit {call : LaunchCall E} (hstarted : o.started = true)
      (hpredicted : call.slow.predicted.isSome = true)
      (hverdict : call.slow.verdict = some .forceExit) :
      Raises cfg o (.launch call) .narrativeFailure call.event.mint call.slow.reasonedAt
  /-- The reasoner is against the entry, or for a smaller one. -/
  | vetoEntry {call : LaunchCall E} (hstarted : o.started = true)
      (hpredicted : call.slow.predicted.isSome = true)
      (hverdict : call.slow.verdict = some .vetoEntry ∨ call.slow.verdict = some .reduceSize) :
      Raises cfg o (.launch call) .veto call.event.mint call.slow.reasonedAt
  /-- The detector has seen an insider dump. -/
  | insiderDump {now : ℤ} {obs : SellObservation} {signal : InsiderDumpSignal}
      (hsignal : (o.onDecodedSell cfg now obs).1 = some signal) :
      Raises cfg o (.decodedSell now obs) .insiderDump signal.mint now
  /-- A position does not probe healthy. -/
  | degraded {answers : EnrichmentAnswers} {eventSlot : ℕ} {wiring : EnrichmentWiring} {mint : String}
      (hwiring : cfg.enrichment = some wiring) (hwired : wiring.sellability = true)
      (hmint : mint ∈ o.openMints) (hprobe : runProbe answers.probe mint eventSlot ≠ .healthy)
      (hran : (o.runSlowEnrichmentTick cfg answers eventSlot).1 = .ok ()) :
      Raises cfg o (.slowEnrichmentTick answers eventSlot) .sellabilityDegraded mint answers.now
  /-- The liquidity of a position is about to be unlocked. -/
  | lpUnlock {answers : EnrichmentAnswers} {eventSlot : ℕ} {wiring : EnrichmentWiring}
      {t : LpUnlockThresholds} {schedules : String → Option LpUnlockSchedule}
      {schedule : LpUnlockSchedule} {mint : String} (hwiring : cfg.enrichment = some wiring)
      (hwatcher : wiring.lpUnlockWatcher = some t) (hsource : answers.schedules = some schedules)
      (hmint : mint ∈ o.openMints) (hschedule : schedules mint = some schedule)
      (hraise : (t.watch schedule eventSlot).raiseFlag = true)
      (hran : (o.runSlowEnrichmentTick cfg answers eventSlot).1 = .ok ()) :
      Raises cfg o (.slowEnrichmentTick answers eventSlot) .lpUnlockApproaching schedule.mint
        answers.now
  /-- The market is in another regime. -/
  | regime {now : ℤ} {mint : String} {regime : RegimeState} {wiring : RegimeWiring}
      {flag : StagedFlag} (hwiring : cfg.regime = some wiring)
      (hflag : (regimeDeriskDirective regime).flag = some flag) :
      Raises cfg o (.regimeSignal now mint regime) flag mint now
  /-- The model does not expect the mint to survive. -/
  | survivor {now : ℤ} {pred : SurvivorPrediction} {wiring : RegimeWiring} {flag : StagedFlag}
      (hwiring : cfg.regime = some wiring)
      (hflag : (wiring.survivorDirective pred).flag = some flag) :
      Raises cfg o (.survivorPrediction now pred) flag pred.mint now
  /-- The model does not expect a position to survive. -/
  | slowRegime {now : ℤ} {predict : String → Option SurvivorPrediction} {pred : SurvivorPrediction}
      {wiring : RegimeWiring} {flag : StagedFlag} {mint : String}
      (hwiring : cfg.regime = some wiring) (hmint : mint ∈ o.openMints)
      (hpred : predict mint = some pred)
      (hflag : (wiring.survivorDirective pred).flag = some flag) :
      Raises cfg o (.slowRegimeTick now predict) flag pred.mint now

end Runs

section Held

variable {cfg : OrchestratorConfig E} {o : Orchestrator} {op : OrchestratorOp E} {t : ℤ}
  {flag : StagedFlag}

theorem launch_held {call : LaunchCall E} {action : ReasoningAction} (hstarted : o.started = true)
    (hpredicted : call.slow.predicted.isSome = true) (hverdict : call.slow.verdict = some action)
    (happlied : ∀ flags : FlagStore,
      (cfg.slow.applyReasoningVerdict flags call.slow.reasonedAt call.event.mint action).HeldUntil
        flag call.event.mint t) :
    (orchestrate cfg o (.launch call)).flags.HeldUntil flag call.event.mint t := by
  show (o.onLaunchEvent cfg call).2.flags.HeldUntil flag call.event.mint t
  unfold Orchestrator.onLaunchEvent
  rw [if_neg (by simp [hstarted])]
  dsimp only
  rw [(flags_snipe cfg _ call).1]
  unfold SlowLoop.processEvent
  obtain ⟨⟨signalMint, signal⟩, hsignal⟩ := Option.isSome_iff_exists.1 hpredicted
  rw [hsignal, hverdict]
  exact happlied _

/-- **What a call raises is held** for the shortest time to live that a wired writer gives the
flag. -/
theorem raised_held (h : Raises cfg o op flag m t) :
    (orchestrate cfg o op).flags.HeldUntil flag m (FlagStore.expiry t (cfg.flagTtl flag)) := by
  obtain ⟨hveto, hhalf, hnarrative⟩ := flagTtl_slow cfg
  cases h with
  | forceExit hstarted hpredicted hverdict =>
      refine launch_held hstarted hpredicted hverdict fun flags => ?_
      exact Leases.heldUntil_grant (Keeps.expiry_le (le_refl _) hnarrative)
  | vetoEntry hstarted hpredicted hverdict =>
      rcases hverdict with hverdict | hverdict
      · refine launch_held hstarted hpredicted hverdict fun flags => ?_
        exact Leases.heldUntil_grant (Keeps.expiry_le (le_refl _) hveto)
      · refine launch_held hstarted hpredicted hverdict fun flags => ?_
        exact Leases.heldUntil_grant (Keeps.expiry_le (le_refl _) hhalf)
  | insiderDump hsignal =>
      show (o.onDecodedSell cfg t _).2.flags.HeldUntil .insiderDump _ _
      unfold Orchestrator.onDecodedSell at hsignal ⊢
      cases hwiring : cfg.enrichment with
      | none =>
          rw [hwiring] at hsignal
          cases hsignal
      | some wiring =>
          rw [hwiring] at hsignal
          rw [(flagTtl_enrichment hwiring).1]
          exact onDecodedSell_raised hsignal
  | @degraded answers eventSlot wiring _ hwiring hwired hmint hprobe hran =>
      show (o.runSlowEnrichmentTick cfg answers eventSlot).2.flags.HeldUntil _ _ _
      obtain ⟨-, hsellability, hlp⟩ := flagTtl_enrichment hwiring
      rcases hreprobe : wiring.runSellabilityReprobe o.flags answers eventSlot o.openMints
        with ⟨e | _, flags⟩
      · unfold Orchestrator.runSlowEnrichmentTick at hran
        simp only [hwiring, hreprobe] at hran
        cases hran
      · have hflagged := runSellabilityReprobe_raised hwired hmint hprobe
          (congrArg Prod.fst hreprobe)
        rw [hreprobe] at hflagged
        -- the watch of the locks comes after the probes
        have hkeeps : Keeps cfg.flagTtl answers.now flags
            (wiring.runLpUnlockWatch flags answers eventSlot o.openMints) :=
          runLpUnlockWatch_keeps hlp.le
        unfold Orchestrator.runSlowEnrichmentTick
        simp only [hwiring, hreprobe]
        exact hkeeps.held _ _ _ (le_refl _) (hsellability ▸ hflagged)
  | @lpUnlock answers eventSlot wiring t schedules schedule mint hwiring hwatcher hsource hmint
      hschedule hraise hran =>
      show (o.runSlowEnrichmentTick cfg answers eventSlot).2.flags.HeldUntil _ _ _
      obtain ⟨-, -, hlp⟩ := flagTtl_enrichment hwiring
      rcases hreprobe : wiring.runSellabilityReprobe o.flags answers eventSlot o.openMints
        with ⟨e | _, flags⟩
      · unfold Orchestrator.runSlowEnrichmentTick at hran
        simp only [hwiring, hreprobe] at hran
        cases hran
      · unfold Orchestrator.runSlowEnrichmentTick
        simp only [hwiring, hreprobe]
        rw [hlp]
        exact runLpUnlockWatch_raised hwatcher hsource hmint hschedule hraise
  | @regime _ _ regime wiring _ hwiring hflag =>
      obtain ⟨hveto', hhalf', hnarrative'⟩ := flagTtl_regime hwiring
      show (o.applyRegimeSignal cfg t m regime).flags.HeldUntil flag m _
      unfold Orchestrator.applyRegimeSignal
      rw [hwiring]
      exact applyDirective_raised ⟨hveto', hhalf'⟩ hnarrative' hflag
  | @survivor _ pred wiring _ hwiring hflag =>
      obtain ⟨hveto', hhalf', hnarrative'⟩ := flagTtl_regime hwiring
      show (o.applySurvivorPrediction cfg t pred).flags.HeldUntil flag pred.mint _
      unfold Orchestrator.applySurvivorPrediction
      rw [hwiring]
      exact applyDirective_raised ⟨hveto', hhalf'⟩ hnarrative' hflag
  | @slowRegime _ predict pred wiring _ mint hwiring hmint hpred hflag =>
      obtain ⟨hveto', hhalf', hnarrative'⟩ := flagTtl_regime hwiring
      show (o.runSlowRegimeTick cfg t predict).flags.HeldUntil flag pred.mint _
      unfold Orchestrator.runSlowRegimeTick
      rw [hwiring]
      obtain ⟨before, after, hsplit⟩ := List.append_of_mem
        (List.mem_filterMap.2 ⟨mint, hmint, hpred⟩)
      show (wiring.runSurvivorDerisk o.flags t predict o.openMints).HeldUntil flag pred.mint _
      unfold RegimeWiring.runSurvivorDerisk
      rw [hsplit, List.foldl_append, List.foldl_cons]
      -- the predictions that come after write flags for as long
      refine (Keeps.foldl (fun _ _ => regime_keeps hwiring _) _ after).held _ _ _ (le_refl _) ?_
      exact applyDirective_raised ⟨hveto', hhalf'⟩ hnarrative' hflag

end Held

/-- A fill makes no call of the venue. -/
theorem reconcileFill_exits (cfg : FastConfig) (c : FastLoop) (now : ℤ) (mint : String)
    (fill : FillResult) : (c.reconcileFill cfg now mint fill).2.exits = c.exits := by
  have htrack : ∀ (c : FastLoop) (q : Position), (c.track cfg q fill).2.exits = c.exits := by
    intro c q
    unfold FastLoop.track
    split
    · rfl
    · split
      · rfl
      · dsimp only
        split
        · rfl
        · split <;> rfl
  unfold FastLoop.reconcileFill
  split
  · rfl
  · split_ifs
    · dsimp only
      split
      · rfl
      · exact htrack _ _
    · rfl
    · rfl

theorem continuousReconcileTick_exits (cfg : ControllerConfig E) (c : FastLoop)
    (now currentSlot : ℤ) : (continuousReconcileTick cfg now currentSlot c).exits = c.exits := by
  unfold continuousReconcileTick
  refine List.foldlRecOn _ _ (motive := fun c' : FastLoop => c'.exits = c.exits) rfl ?_
  intro c' hsame pos _
  unfold reconcileTimeout
  split_ifs
  · exact (reconcileFill_exits cfg.fast c' now pos.mint _).trans hsame
  · exact hsame

section Acted

variable {cfg : OrchestratorConfig E} {o o₀ : Orchestrator} {op : OrchestratorOp E} {t : ℤ}
  {flag : StagedFlag}

/-- A tick of the orchestrator that returns is one of the FAST loop, and a reconciliation. -/
theorem tick_returned {call : TickCall} (hran : (o.tick cfg call).1 = .ok ()) :
    (o.loop.tick cfg.controller.fast (o.tickInput call)).1 = .ok () ∧
      (o.tick cfg call).2.loop = continuousReconcileTick cfg.controller call.now call.currentSlot
        (o.loop.tick cfg.controller.fast (o.tickInput call)).2 := by
  unfold Orchestrator.tick at hran ⊢
  split_ifs at hran ⊢
  rcases htick : o.loop.tick cfg.controller.fast (o.tickInput call) with ⟨e | _, left⟩
  · rw [htick] at hran
    cases hran
  · exact ⟨rfl, rfl⟩

/-- A flag that is read is up. -/
theorem flagUp_of_getFlag {call : TickCall} (hforces : flag.forcesExit = true)
    (hread : o.flags.getFlag call.now flag m = true) (mark : ℚ) :
    FlagUp ((o.tickInput call).tick m mark) := by
  cases flag with
  | veto => exact absurd hforces (by decide)
  | narrativeFailure => exact .inl hread
  | insiderDump => exact .inr (.inl hread)
  | sellabilityDegraded => exact .inr (.inr (.inl hread))
  | lpUnlockApproaching => exact .inr (.inr (.inr hread))

/-- **What is raised is sold.**  In any run from a new loop, whatever is called after a flag was
raised, a tick that returns within the shortest time to live that a wired writer gives the flag sells
the open position whole: if the loop has taken it up since the last restart, as long as the engine has
something of it left. -/
theorem raised_flag_sells {before ops : List (OrchestratorOp E)} {call : TickCall}
    (hnew : (o₀.loop.holding m).Known) (hforces : flag.forcesExit = true)
    (hraises : Raises cfg (orchestrateAll cfg o₀ before) op flag m t)
    (hlater : ∀ op' ∈ ops, ∀ now ∈ op'.readings, t ≤ now)
    (hrun : orchestrateAll cfg o₀ (before ++ op :: ops) = o)
    (hheld : o.loop.store.loadPosition m = some q) (hopen : q.fsmState = .opened)
    (hleft : ∀ p, o.loop.fsmRegistry.get? m = some p →
      ∃ exitState, o.loop.exitStates m = some exitState ∧ 0 < exitState.remainingBps)
    (hnow : call.now < FlagStore.expiry t (cfg.flagTtl flag))
    (hran : (o.tick cfg call).1 = .ok ()) : Sells m o.loop (o.tick cfg call).2.loop := by
  have hknown : (o.loop.holding m).Known := hrun ▸ orchestrateAll_known _ hnew
  have hmanageable : (o.loop.holding m).Manageable q := by
    refine ⟨hheld, hopen, ?_⟩
    rcases hknown q hheld hopen with hregistered | hnone
    · exact .inl ⟨hregistered, hleft q hregistered⟩
    · exact .inr hnone
  have hread : o.flags.getFlag call.now flag m = true := by
    refine FlagStore.HeldUntil.read ?_ hnow
    rw [← hrun]
    unfold orchestrateAll
    rw [List.foldl_append, List.foldl_cons]
    exact orchestrateAll_keeps ops hlater flag m _ (le_refl _) (raised_held hraises)
  obtain ⟨hreturned, hloop⟩ := tick_returned hran
  obtain ⟨calls, hexits, hsold⟩ := tick_sells cfg.controller.fast (o.tickInput call) hmanageable
    (fun mark _ => flagUp_of_getFlag hforces hread mark) hreturned
  refine ⟨calls, ?_, hsold⟩
  rw [hloop, continuousReconcileTick_exits, hexits]

end Acted

/-- The loops of `plainController`, with the re-probe of the sellability. -/
def plainOrchestrator : OrchestratorConfig Unit where
  controller := plainController
  slow := {}
  enrichment := some { insiderDump := none, sellability := true, lpUnlockWatcher := none }
  regime := none

/-- A venue that says nothing of what it holds. -/
def silentVenue : VenueState where
  getFillForMint := fun _ _ => none
  getOpenMints := []

/-- A probe of a sell that reverts. -/
def revertingProbe (now : ℤ) : EnrichmentAnswers where
  now := now
  probe := fun mint eventSlot => .ok
    { mint := mint
      eventSlot := eventSlot
      sellable := false
      reason := .simRevert
      dustAmountIn := 1
      detail := "" }
  schedules := none

/-- A launch of another mint, which the classifier knows nothing about. -/
def otherLaunch (now : ℤ) : LaunchCall Unit where
  event := ⟨"n", 6, 0, ()⟩
  creatorWallet := "w"
  slow := ⟨none, now, none, now⟩
  now := now
  elapsedMs := 0
  fill := sampleFill

/-- The process restarts over an open position that no longer sells.  Half a minute later, with a
launch of another mint in between, it is sold. -/
theorem raised_flag_sells_sample :
    let o := orchestrateAll plainOrchestrator (.start sampleLoop)
      ([.startup 0 silentVenue] ++ .slowEnrichmentTick (revertingProbe 1000) 5 ::
        [.launch (otherLaunch 2000)])
    Sells "m" o.loop (o.tick plainOrchestrator
      { now := 31000, blockTimeMs := 0, currentSlot := 7, marks := fun _ => some 1,
        lands := fun _ _ _ => true }).2.loop := by
  intro o
  have hraises : Raises plainOrchestrator
      (orchestrateAll plainOrchestrator (.start sampleLoop) [.startup 0 silentVenue])
      (.slowEnrichmentTick (revertingProbe 1000) 5) .sellabilityDegraded "m" 1000 :=
    .degraded rfl rfl (by decide +kernel) (by decide) rfl
  have hheld : o.loop.store.loadPosition "m" = some (samplePosition "m" .opened) := by
    decide +kernel
  have hnone : o.loop.fsmRegistry.get? "m" = none := by decide +kernel
  obtain ⟨_, hran, -⟩ := exists_ok_of_any
    (x := (o.tick plainOrchestrator
      { now := 31000, blockTimeMs := 0, currentSlot := 7, marks := fun _ => some 1,
        lands := fun _ _ _ => true }).1) (p := fun _ => true) (by decide +kernel)
  refine raised_flag_sells (fun p _ _ => .inr ⟨rfl, rfl⟩) rfl hraises (by decide) rfl hheld rfl ?_
    (by decide) hran
  intro p hp
  rw [hnone] at hp
  cases hp

end Controller
end AatsSniper

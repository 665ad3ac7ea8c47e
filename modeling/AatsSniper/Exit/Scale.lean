/-
# The engine counts in multiples of the entry price

Two positions that differ in their entry price, with the stop of each at the same
multiple of it (`Rescaled`), go through the same states along the same path of
multiples: they fire the same rungs and exit in the same ticks (`onTick_rescaled`).

So what a run of the engine has done, a new state at entry can do again (`refires`).
-/

import AatsSniper.Exit.Ladder

namespace AatsSniper
namespace Exit

variable {config : ExitConfig} {s s' : ExitState} {r : ℚ} {tick : Tick} {d : ExitDecision}

/-- The same state of a position with another entry price. -/
structure Rescaled (s s' : ExitState) : Prop where
  same : s' = { s with mint := s'.mint, entryFillPrice := s'.entryFillPrice, stop := s'.stop }
  trigger : s'.stop.triggerPrice * s.entryFillPrice = s.stop.triggerPrice * s'.entryFillPrice

/-- The tick with its mark at the same multiple of another entry price. -/
def Tick.rescaled (tick : Tick) (entry entry' : ℚ) : Tick :=
  { tick with markPrice := tick.markPrice / entry * entry' }

/-- What does not read a price is the same. -/
theorem Rescaled.congr {β : Type*} (h : Rescaled s s') (f : ExitState → β)
    (hf : ∀ mint entry stop, f { s with mint := mint, entryFillPrice := entry, stop := stop } = f s) :
    f s' = f s :=
  (congrArg f h.same).trans (hf _ _ _)

theorem realizedR_rescaled (h' : s'.WellFormed) :
    s'.realizedR (tick.rescaled s.entryFillPrice s'.entryFillPrice).markPrice =
      s.realizedR tick.markPrice :=
  mul_div_cancel_right₀ _ h'.entry.ne'

theorem Rescaled.advanced (h : Rescaled s s') (blockTimeMs : ℤ) :
    Rescaled (advanced config s r blockTimeMs) (advanced config s' r blockTimeMs) := by
  refine ⟨?_, h.trigger⟩
  have hsame := h.same
  generalize s'.mint = mint, s'.entryFillPrice = entry, s'.stop = stop at hsame
  subst hsame
  rfl

/-- A mark breaches the stop iff the same multiple of the other entry price breaches the other. -/
theorem Rescaled.isBreached (h : Rescaled s s') (hentry : 0 < s.entryFillPrice)
    (hentry' : 0 < s'.entryFillPrice) (mark : ℚ) :
    s'.stop.isBreached (mark / s.entryFillPrice * s'.entryFillPrice) = s.stop.isBreached mark := by
  have htrigger : s'.stop.triggerPrice = s.stop.triggerPrice / s.entryFillPrice * s'.entryFillPrice := by
    rw [div_mul_eq_mul_div, ← h.trigger, mul_div_cancel_right₀ _ hentry.ne']
  unfold StopState.isBreached
  rw [htrigger, decide_eq_decide, mul_le_mul_iff_left₀ hentry', div_le_div_iff_of_pos_right hentry]

/-- A branch under the same condition and with the same reason. -/
theorem map_fst_branch {c : Prop} [Decidable c] {reason : ExitReason} {detail detail' : Detail}
    {rest rest' : Option (ExitReason × Detail)} (h : rest.map Prod.fst = rest'.map Prod.fst) :
    (if c then some (reason, detail) else rest).map Prod.fst =
      (if c then some (reason, detail') else rest').map Prod.fst := by
  by_cases hc : c
  · rw [if_pos hc, if_pos hc]
    rfl
  · rw [if_neg hc, if_neg hc, h]

/-- The same branch is taken; only the prices it prints differ. -/
theorem Rescaled.forcedExit (h : Rescaled s s') (hentry : 0 < s.entryFillPrice)
    (hentry' : 0 < s'.entryFillPrice) :
    (forcedExit config s' r (tick.rescaled s.entryFillPrice s'.entryFillPrice)).map Prod.fst =
      (forcedExit config s r tick).map Prod.fst := by
  have hbreached : s'.stop.isBreached (tick.rescaled s.entryFillPrice s'.entryFillPrice).markPrice =
      s.stop.isBreached tick.markPrice := h.isBreached hentry hentry' tick.markPrice
  have hlocked : s'.lockedFloorR = s.lockedFloorR := h.congr _ fun _ _ _ => rfl
  have harmed : s'.armed = s.armed := h.congr _ fun _ _ _ => rfl
  have hsteps : s'.stepsHeld = s.stepsHeld := h.congr _ fun _ _ _ => rfl
  have htrail : trailFloorR config s' = trailFloorR config s :=
    h.congr (trailFloorR config) fun _ _ _ => rfl
  have hactive : s'.lastActiveBlockTimeMs = s.lastActiveBlockTimeMs :=
    h.congr _ fun _ _ _ => rfl
  have htime : timeStopDetail config s' tick.narrativeScore tick.blockTimeMs =
      timeStopDetail config s tick.narrativeScore tick.blockTimeMs := by
    unfold timeStopDetail
    rw [hactive]
  unfold Exit.forcedExit
  rw [hbreached, hlocked, harmed, hsteps, htrail]
  unfold Tick.rescaled
  dsimp only
  rw [htime]
  iterate 8 refine map_fst_branch ?_
  rfl

/-- The same rung is sold. -/
theorem Rescaled.scaleOut (h : Rescaled s s') {blockTimeMs : ℤ} {hit : ℕ × TpRung} :
    Rescaled (scaleOutDecision config s blockTimeMs hit.1 hit.2).nextState
      (scaleOutDecision config s' blockTimeMs hit.1 hit.2).nextState := by
  refine ⟨?_, h.trigger⟩
  have hsame := h.same
  generalize s'.mint = mint, s'.entryFillPrice = entry, s'.stop = stop at hsame
  subst hsame
  rfl

/-- An open position is decided on once it is advanced. -/
theorem onTick_of_open (h : s.WellFormed) (hopen : 0 < s.remainingBps) (htime : 0 ≤ tick.blockTimeMs)
    (hscore : ∀ score ∈ tick.narrativeScore, 0 ≤ score ∧ score ≤ 1) :
    onTick config s tick =
      decideTick config (advanced config s (s.realizedR tick.markPrice) tick.blockTimeMs)
        (s.realizedR tick.markPrice) tick := by
  unfold onTick
  rw [require_bind htime, require_bind hscore, if_neg (not_le.2 hopen)]
  dsimp only
  rw [advance_eq_ok h htime]
  rfl

/-- What a tick does to two positions that differ in their entry price. -/
structure Alike (config : ExitConfig) (s s' : ExitState) (tick tick' : Tick) (d d' : ExitDecision) :
    Prop where
  next : Rescaled d.nextState d'.nextState
  entry : d.nextState.entryFillPrice = s.entryFillPrice
  entry' : d'.nextState.entryFillPrice = s'.entryFillPrice
  fires : ∀ rungIdx, FiresRung config s tick d rungIdx → FiresRung config s' tick' d' rungIdx

theorem FiresRung.reason {rungIdx : ℕ} (h : FiresRung config s tick d rungIdx) :
    d.reason = .takeProfit := by
  obtain ⟨_, -, hreason, -⟩ := h
  exact hreason

/-- The same branch on the advanced states. -/
theorem decideTick_rescaled (h : s.WellFormed) (h' : s'.WellFormed) (hopen : 0 < s.remainingBps)
    (hscaled : Rescaled s s') (hd : decideTick config s r tick = .ok d) :
    ∃ d', decideTick config s' r (tick.rescaled s.entryFillPrice s'.entryFillPrice) = .ok d' ∧
      Alike config s s' tick (tick.rescaled s.entryFillPrice s'.entryFillPrice) d d' := by
  have hforced : (forcedExit config s' r (tick.rescaled s.entryFillPrice s'.entryFillPrice)).map
      Prod.fst = (forcedExit config s r tick).map Prod.fst := hscaled.forcedExit h.entry h'.entry
  have hremaining : s'.remainingBps = s.remainingBps := hscaled.congr _ fun _ _ _ => rfl
  have hhit : highestHitRung config s' r = highestHitRung config s r :=
    hscaled.congr (fun a => highestHitRung config a r) fun _ _ _ => rfl
  unfold decideTick at hd ⊢
  cases hexit : forcedExit config s r tick with
  | some forced =>
      rw [hexit] at hforced hd
      obtain ⟨forced', hexit', hreason⟩ := Option.map_eq_some_iff.1 hforced
      rw [hexit']
      dsimp only at hd ⊢
      rw [fullExit_eq_ok h] at hd
      obtain rfl := Except.ok.inj hd
      refine ⟨_, fullExit_eq_ok h' _ _, ⟨?_, hscaled.trigger⟩, rfl, rfl, fun rungIdx hfires => ?_⟩
      · exact congrArg (fun a : ExitState => { a with remainingBps := 0 }) hscaled.same
      · exact absurd hfires.reason (forcedExit_reason_ne hexit)
  | none =>
      rw [hexit] at hforced hd
      rw [Option.map_eq_none_iff.1 hforced, hhit]
      dsimp only at hd ⊢
      cases hrung : highestHitRung config s r with
      | none =>
          rw [hrung] at hd
          obtain rfl := Except.ok.inj hd
          exact ⟨_, rfl, hscaled, rfl, rfl, fun rungIdx hfires => nomatch hfires.reason⟩
      | some hit =>
          rw [hrung] at hd
          dsimp only at hd ⊢
          rw [scaleOut_eq_ok h hopen] at hd
          obtain rfl := Except.ok.inj hd
          refine ⟨_, scaleOut_eq_ok h' (hremaining ▸ hopen) _ _, hscaled.scaleOut, rfl, rfl, ?_⟩
          rintro rungIdx ⟨rung, hget, hreason, hintent, hfraction, hleft⟩
          have hmin : min hit.2.fractionBps s.remainingBps = rung.fractionBps := hfraction
          have htrigger : hit.2.triggerR = rung.triggerR := by
            unfold scaleOutDecision at hintent
            simp_all
          have hmin' : min hit.2.fractionBps s'.remainingBps = rung.fractionBps := by
            rw [hremaining, hmin]
          refine ⟨rung, hget, rfl, ?_, hmin', ?_⟩
          · unfold scaleOutDecision
            rw [hmin', htrigger]
          · rw [hremaining]
            change remainingAfter s'.remainingBps hit.2.fractionBps = _
            rw [hremaining]
            exact hleft

/-- **One tick**, at the same multiple of each entry price. -/
theorem onTick_rescaled (h : s.WellFormed) (h' : s'.WellFormed) (hscaled : Rescaled s s')
    (hd : onTick config s tick = .ok d) :
    ∃ d', onTick config s' (tick.rescaled s.entryFillPrice s'.entryFillPrice) = .ok d' ∧
      Alike config s s' tick (tick.rescaled s.entryFillPrice s'.entryFillPrice) d d' := by
  have hargs : 0 ≤ tick.blockTimeMs ∧ ∀ score ∈ tick.narrativeScore, 0 ≤ score ∧ score ≤ 1 := by
    unfold onTick at hd
    obtain ⟨htime, hd⟩ := ok_of_require hd
    exact ⟨htime, (ok_of_require hd).1⟩
  obtain ⟨htime, hscore⟩ := hargs
  have htime' : 0 ≤ (tick.rescaled s.entryFillPrice s'.entryFillPrice).blockTimeMs := htime
  have hscore' : ∀ score ∈ (tick.rescaled s.entryFillPrice s'.entryFillPrice).narrativeScore,
      0 ≤ score ∧ score ≤ 1 := hscore
  have hremaining : s'.remainingBps = s.remainingBps := hscaled.congr _ fun _ _ _ => rfl
  by_cases hopen : 0 < s.remainingBps
  · rw [onTick_of_open h hopen htime hscore] at hd
    rw [onTick_of_open h' (hremaining ▸ hopen) htime' hscore', realizedR_rescaled h']
    have ha : Rescaled (advanced config s (s.realizedR tick.markPrice) tick.blockTimeMs)
        (advanced config s' (s.realizedR tick.markPrice) tick.blockTimeMs) :=
      hscaled.advanced tick.blockTimeMs
    have hentry : ∀ t : ExitState, (advanced config t (s.realizedR tick.markPrice)
        tick.blockTimeMs).entryFillPrice = t.entryFillPrice := fun t => rfl
    obtain ⟨d', hd', halike⟩ := decideTick_rescaled (advanced_wellFormed h htime)
      (advanced_wellFormed h' htime) hopen ha hd
    rw [hentry, hentry] at hd' halike
    exact ⟨d', hd', halike.next, halike.entry, halike.entry', halike.fires⟩
  · obtain ⟨-, ⟨-, rfl⟩ | ⟨hopen', -⟩⟩ := onTick_cases h hd
    · refine ⟨hold s', ?_, hscaled, rfl, rfl, fun rungIdx hfires => nomatch hfires.reason⟩
      unfold onTick
      rw [require_bind htime', require_bind hscore', if_pos (hremaining ▸ not_lt.1 hopen)]
      rfl
    · exact absurd hopen' hopen

/-- **A run**, at the same multiples of each entry price. -/
theorem run_rescaled {s₀ s₀' : ExitState} (h : s₀.WellFormed) (h' : s₀'.WellFormed)
    (hscaled : Rescaled s₀ s₀') {ticks : List Tick} (hrun : runSteps (step config) s₀ ticks = .ok s) :
    ∃ s', runSteps (step config) s₀'
        (ticks.map fun tick => tick.rescaled s₀.entryFillPrice s₀'.entryFillPrice) = .ok s' ∧
      Rescaled s s' ∧ s.entryFillPrice = s₀.entryFillPrice ∧
      s'.entryFillPrice = s₀'.entryFillPrice ∧ s.WellFormed ∧ s'.WellFormed := by
  refine runSteps_history (P := fun ticks s => ∃ s', runSteps (step config) s₀'
      (ticks.map fun tick => tick.rescaled s₀.entryFillPrice s₀'.entryFillPrice) = .ok s' ∧
    Rescaled s s' ∧ s.entryFillPrice = s₀.entryFillPrice ∧
    s'.entryFillPrice = s₀'.entryFillPrice ∧ s.WellFormed ∧ s'.WellFormed)
    ⟨s₀', rfl, hscaled, rfl, rfl, h, h'⟩ ?_ hrun
  rintro ticks s tick t ⟨s', hrun', hss', hentry, hentry', hs, hs'⟩ hstep
  obtain ⟨d, hd, rfl⟩ := step_eq_ok hstep
  obtain ⟨d', hd', halike⟩ := onTick_rescaled hs hs' hss' hd
  rw [hentry, hentry'] at hd'
  have hstep' : step config s' (tick.rescaled s₀.entryFillPrice s₀'.entryFillPrice) =
      .ok d'.nextState := by
    unfold step
    rw [hd']
    rfl
  refine ⟨d'.nextState, ?_, halike.next, halike.entry.trans hentry, halike.entry'.trans hentry',
    step_wellFormed hs hstep, step_wellFormed hs' hstep'⟩
  rw [List.map_append, List.map_singleton, runSteps_snoc, hrun']
  exact hstep'

/-- The hard stop of a position entered at a price. -/
def ExitConfig.hardStopPrice (config : ExitConfig) (entry : ℚ) : ℚ :=
  entry * ((10000 - (truncate ((1 - config.hardStopR) * 10000) : ℤ)) / 10000)

/-- A stop at entry is below the price by the drawdown of the thresholds. -/
theorem stop_atEntry_eq_ok {mint : String} {entry : ℚ} {thresholds : StopThresholds}
    {stop : StopState} (h : StopState.atEntry mint entry thresholds = .ok stop) :
    stop.triggerPrice = entry * ((10000 - thresholds.hardStopDrawdownBps) / 10000) ∧ 0 < entry := by
  unfold StopState.atEntry at h
  obtain ⟨trigger, htrigger, hnew⟩ := ok_of_bind h
  unfold deriveStopTriggerPrice at htrigger
  obtain ⟨hentry, htrigger⟩ := ok_of_require htrigger
  obtain rfl := Except.ok.inj htrigger
  unfold StopState.new at hnew
  split_ifs at hnew
  obtain rfl := Except.ok.inj hnew
  exact ⟨rfl, hentry⟩

theorem atEntry_trigger {mint : String} {entry : ℚ} (h : ExitState.atEntry mint entry config = .ok s) :
    s.stop.triggerPrice = config.hardStopPrice entry := by
  unfold ExitState.atEntry at h
  obtain ⟨thresholds, hthresholds, h⟩ := ok_of_bind h
  obtain ⟨stop, hstop, h⟩ := ok_of_bind h
  obtain ⟨-, -, h⟩ := ok_of_bind h
  obtain rfl := Except.ok.inj h
  unfold ExitConfig.stopThresholds StopThresholds.new at hthresholds
  split_ifs at hthresholds
  obtain rfl := Except.ok.inj hthresholds
  exact (stop_atEntry_eq_ok hstop).1

/-- Positions that are entered under one configuration differ in their entry price only. -/
theorem atEntry_rescaled {mint mint' : String} {entry entry' : ℚ}
    (h : ExitState.atEntry mint entry config = .ok s)
    (h' : ExitState.atEntry mint' entry' config = .ok s') : Rescaled s s' := by
  have htrigger := atEntry_trigger h
  have htrigger' := atEntry_trigger h'
  obtain ⟨-, stop, rfl⟩ := ExitState.atEntry_eq_ok h
  obtain ⟨-, stop', rfl⟩ := ExitState.atEntry_eq_ok h'
  refine ⟨rfl, ?_⟩
  rw [htrigger, htrigger']
  unfold ExitConfig.hardStopPrice
  ring

/-- A rung that has fired since entry fired in some tick. -/
theorem fired_in_tick {s₀ : ExitState} (h : s₀.WellFormed) (hcovers : Covers config s₀)
    (hfresh : s₀.firedRungs = ∅) {ticks : List Tick} (hrun : runSteps (step config) s₀ ticks = .ok s)
    {rungIdx : ℕ} (hfired : rungIdx ∈ s.firedRungs) :
    ∃ before t tick d, runSteps (step config) s₀ before = .ok t ∧ onTick config t tick = .ok d ∧
      FiresRung config t tick d rungIdx := by
  refine (runSteps_history (P := fun ticks s => runSteps (step config) s₀ ticks = .ok s ∧
    ∀ rungIdx ∈ s.firedRungs, ∃ before t tick d, runSteps (step config) s₀ before = .ok t ∧
      onTick config t tick = .ok d ∧ FiresRung config t tick d rungIdx) ⟨rfl, ?_⟩ ?_ hrun).2 _ hfired
  · rw [hfresh]
    exact fun rungIdx hnone => absurd hnone (Finset.notMem_empty rungIdx)
  rintro ticks t tick t' ⟨hran, hbefore⟩ hstep
  refine ⟨?_, fun rungIdx hmem => ?_⟩
  · rw [runSteps_snoc, hran]
    exact hstep
  obtain ⟨d, hd, rfl⟩ := step_eq_ok hstep
  obtain ⟨ht, htcovers, -⟩ := run_covers h hcovers hran
  by_cases hreason : d.reason = .takeProfit
  · obtain ⟨rungIdx', hfires, -, hinsert⟩ := onTick_takeProfit ht htcovers hd hreason
    rw [hinsert, Finset.mem_insert] at hmem
    rcases hmem with rfl | hmem
    · exact ⟨ticks, t, tick, d, hran, hd, hfires⟩
    · exact hbefore rungIdx hmem
  · refine hbefore rungIdx ?_
    obtain ⟨-, ⟨-, rfl⟩ | ⟨-, ⟨reason, detail, -, rfl⟩ | ⟨-, ⟨rungIdx', rung, -, rfl⟩ | rfl⟩⟩⟩ :=
      onTick_cases ht hd
    · exact hmem
    · exact hmem
    · exact absurd rfl hreason
    · exact hmem

/-- **What has fired can fire again** where the position is entered anew, at whatever price. -/
theorem refires {mint mint' : String} {entry entry' : ℚ} {s₀ s₀' : ExitState}
    (hentry : ExitState.atEntry mint entry config = .ok s₀)
    (hentry' : ExitState.atEntry mint' entry' config = .ok s₀') {ticks : List Tick}
    (hrun : runSteps (step config) s₀ ticks = .ok s) {rungIdx : ℕ}
    (hfired : rungIdx ∈ s.firedRungs) :
    ∃ ticks' s' tick' d', runSteps (step config) s₀' ticks' = .ok s' ∧
      onTick config s' tick' = .ok d' ∧ FiresRung config s' tick' d' rungIdx := by
  obtain ⟨hwell, stop, hfresh⟩ := ExitState.atEntry_eq_ok hentry
  obtain ⟨hwell', -⟩ := ExitState.atEntry_eq_ok hentry'
  obtain ⟨before, t, tick, d, hbefore, hd, hfires⟩ := fired_in_tick hwell (atEntry_covers hentry)
    (by rw [hfresh]) hrun hfired
  obtain ⟨t', hrun', hscaled, -, -, ht, ht'⟩ := run_rescaled hwell hwell'
    (atEntry_rescaled hentry hentry') hbefore
  obtain ⟨d', hd', halike⟩ := onTick_rescaled ht ht' hscaled hd
  exact ⟨_, t', _, d', hrun', hd', halike.fires rungIdx hfires⟩

end Exit
end AatsSniper

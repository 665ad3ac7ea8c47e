/-
# The protective floor never widens

Three stops protect an open position: the hard stop fixed at entry, the floor
the ratchet has locked, and, once armed, the trail below the peak.  The
protective floor is the highest of the three, as a price.

A tick advances the state before it looks at the mark, and advancing can only
raise the floor (`protectiveFloor_le_advanced`).  If none of the forced exits
fires, the mark is above the raised floor (`floor_lt_mark`).  So a mark at or
below the floor a tick finds is at or below the floor it looks at, and is exited.
-/

import AatsSniper.Exit.Step

namespace AatsSniper
namespace Exit

variable (config : ExitConfig)

/-- The highest price at which a stop of the state exits. -/
def protectiveFloor (s : ExitState) : ℚ :=
  let fixed := max s.stop.triggerPrice (s.lockedFloorR * s.entryFillPrice)
  if s.armed = true then
    max fixed (s.peakR * (1 - config.trailDrawdownBps / 10000) * s.entryFillPrice)
  else fixed

variable {config} {s : ExitState} {r : ℚ} {blockTimeMs : ℤ}

theorem trail_factor_pos (config : ExitConfig) : 0 < 1 - (config.trailDrawdownBps : ℚ) / 10000 := by
  have hlt : (config.trailDrawdownBps : ℚ) < 10000 := by
    exact_mod_cast config.sound.trailDrawdown.2
  linarith

/-- Advancing raises the floor or leaves it. -/
theorem protectiveFloor_le_advanced (h : s.WellFormed) :
    protectiveFloor config s ≤ protectiveFloor config (advanced config s r blockTimeMs) := by
  have hentry := h.entry
  have hlocked : s.lockedFloorR ≤ (advanced config s r blockTimeMs).lockedFloorR :=
    le_ratchetLoop_floor _ _ _ _ _
  have hpeak : s.peakR ≤ (advanced config s r blockTimeMs).peakR := le_max_left _ _
  have hfixed : max s.stop.triggerPrice (s.lockedFloorR * s.entryFillPrice) ≤
      max s.stop.triggerPrice
        ((advanced config s r blockTimeMs).lockedFloorR * s.entryFillPrice) :=
    max_le_max le_rfl (mul_le_mul_of_nonneg_right hlocked hentry.le)
  have htrail : s.peakR * (1 - config.trailDrawdownBps / 10000) * s.entryFillPrice ≤
      (advanced config s r blockTimeMs).peakR * (1 - config.trailDrawdownBps / 10000) *
        s.entryFillPrice := by
    have := trail_factor_pos config
    gcongr
  cases harmed : s.armed with
  | true =>
      have harmed' : (advanced config s r blockTimeMs).armed = true := by
        simp [advanced, clocked, ratcheted, rearmed, peaked, harmed]
      unfold protectiveFloor
      rw [harmed, harmed']
      exact max_le_max hfixed htrail
  | false =>
      unfold protectiveFloor
      rw [harmed]
      simp only [Bool.false_eq_true, if_false]
      split_ifs
      · exact hfixed.trans (le_max_left _ _)
      · exact hfixed

/-- A mark that no stop exits is above the floor. -/
theorem floor_lt_mark (h : s.WellFormed) {tick : Tick}
    (hforced : forcedExit config s (s.realizedR tick.markPrice) tick = none) :
    protectiveFloor config s < tick.markPrice := by
  have hentry := h.entry
  unfold forcedExit at hforced
  split_ifs at hforced with _ _ _ _ hstop hratchet htrail _
  have htrigger : s.stop.triggerPrice < tick.markPrice := by
    simpa [StopState.isBreached] using hstop
  have hmark : s.realizedR tick.markPrice * s.entryFillPrice = tick.markPrice := by
    unfold ExitState.realizedR
    field_simp
  have hlocked : s.lockedFloorR * s.entryFillPrice < tick.markPrice := by
    rcases h.floor.eq_or_lt with hzero | hpos
    · rw [← hzero, zero_mul]
      exact s.stop.trigger_pos.trans htrigger
    · have hr : s.lockedFloorR < s.realizedR tick.markPrice :=
        not_le.1 fun hle => hratchet ⟨hpos, hle⟩
      rw [← hmark]
      gcongr
  have hfixed := max_lt htrigger hlocked
  unfold protectiveFloor
  dsimp only
  split_ifs with harmed
  · refine max_lt hfixed ?_
    have hr : trailFloorR config s < s.realizedR tick.markPrice :=
      not_le.1 fun hle => htrail ⟨harmed, hle⟩
    have hfloor : s.peakR * (1 - config.trailDrawdownBps / 10000) = trailFloorR config s := by
      unfold trailFloorR
      ring
    rw [hfloor, ← hmark]
    gcongr
  · exact hfixed

/-- The decision is a full exit of the position, routed secure. -/
def IsFullSecureExit (s : ExitState) (d : ExitDecision) : Prop :=
  (∃ id detail, d.intent = some (.exit id s.mint 10000 .secure detail)) ∧
    d.fractionBps = 10000 ∧ d.exitMode = some .secure

/-- One tick and the floor. -/
theorem onTick_floor (h : s.WellFormed) {tick : Tick} {d : ExitDecision}
    (hd : onTick config s tick = .ok d) :
    protectiveFloor config s ≤ protectiveFloor config d.nextState ∧
      (0 < d.nextState.remainingBps → protectiveFloor config d.nextState < tick.markPrice) ∧
      (0 < s.remainingBps → tick.markPrice ≤ protectiveFloor config s →
        IsFullSecureExit s d ∧ d.nextState.remainingBps = 0) := by
  obtain ⟨htime, ⟨hflat, rfl⟩ | ⟨hopen, hcase⟩⟩ := onTick_cases h hd
  · refine ⟨le_rfl, fun hpos => ?_, fun hpos => ?_⟩
    · exact absurd (show 0 < s.remainingBps from hpos) (by omega)
    · omega
  · have ha : (advanced config s (s.realizedR tick.markPrice) tick.blockTimeMs).WellFormed :=
      advanced_wellFormed h htime
    have hraise : protectiveFloor config s ≤ protectiveFloor config
        (advanced config s (s.realizedR tick.markPrice) tick.blockTimeMs) :=
      protectiveFloor_le_advanced h
    have hstays : forcedExit config
        (advanced config s (s.realizedR tick.markPrice) tick.blockTimeMs)
        (s.realizedR tick.markPrice) tick = none → protectiveFloor config
          (advanced config s (s.realizedR tick.markPrice) tick.blockTimeMs) < tick.markPrice :=
      fun hforced => floor_lt_mark ha hforced
    rcases hcase with ⟨reason, detail, -, rfl⟩ | ⟨hforced, ⟨rungIdx, rung, -, rfl⟩ | rfl⟩
    · refine ⟨hraise, fun hpos => ?_, fun _ _ => ⟨⟨⟨_, _, rfl⟩, rfl, rfl⟩, rfl⟩⟩
      exact absurd (show (0 : ℤ) < 0 from hpos) (lt_irrefl 0)
    · refine ⟨hraise, fun _ => hstays hforced, fun _ hbelow => ?_⟩
      exact absurd (hbelow.trans hraise) (not_le.2 (hstays hforced))
    · refine ⟨hraise, fun _ => hstays hforced, fun _ hbelow => ?_⟩
      exact absurd (hbelow.trans hraise) (not_le.2 (hstays hforced))

/-- The floor rises along a run. -/
theorem run_floor_mono (h : s.WellFormed) {ticks : List Tick} {s' : ExitState}
    (hrun : runSteps (step config) s ticks = .ok s') :
    protectiveFloor config s ≤ protectiveFloor config s' := by
  have hboth : s'.WellFormed ∧ protectiveFloor config s ≤ protectiveFloor config s' := by
    refine runSteps_invariant (P := fun t => t.WellFormed ∧ protectiveFloor config s ≤
      protectiveFloor config t) ⟨h, le_rfl⟩ ?_ hrun
    rintro t tick t' ⟨ht, hle⟩ hstep
    obtain ⟨d, hd, rfl⟩ := step_eq_ok hstep
    exact ⟨step_wellFormed ht hstep, hle.trans (onTick_floor ht hd).1⟩
  exact hboth.2

/-- **The floor never widens.**  In every state reached from entry, whatever the
marks, times and flags: the floor only rises from there on; every tick whose
arguments are accepted returns, and if it leaves the position open its mark is
above the floor it leaves; a tick on an open position with a mark at or below the
floor exits all of it, routed secure. -/
theorem floor_never_widens (config : ExitConfig) (mint : String) (entry : ℚ) (s₀ : ExitState)
    (hentry : ExitState.atEntry mint entry config = .ok s₀) (ticks : List Tick) (s : ExitState)
    (hrun : runSteps (step config) s₀ ticks = .ok s) :
    (∀ later s', runSteps (step config) s later = .ok s' →
      protectiveFloor config s ≤ protectiveFloor config s') ∧
    ∀ tick, 0 ≤ tick.blockTimeMs → (∀ score ∈ tick.narrativeScore, 0 ≤ score ∧ score ≤ 1) →
      ∃ d, onTick config s tick = .ok d ∧
        protectiveFloor config s ≤ protectiveFloor config d.nextState ∧
        (0 < d.nextState.remainingBps → protectiveFloor config d.nextState < tick.markPrice) ∧
        (0 < s.remainingBps → tick.markPrice ≤ protectiveFloor config s →
          IsFullSecureExit s d ∧ d.nextState.remainingBps = 0) := by
  have h : s.WellFormed := run_wellFormed (ExitState.atEntry_eq_ok hentry).1 hrun
  refine ⟨fun later s' hlater => run_floor_mono h hlater, fun tick htime hscore => ?_⟩
  obtain ⟨d, hd⟩ := onTick_returns h htime hscore
  exact ⟨d, hd, onTick_floor h hd⟩

/-- From an entry at 100 the mark runs to 320; a fall to 200 is then exited. -/
theorem floor_never_widens_sample :
    ∃ s₀ s d, ExitState.atEntry "M" 100 secureBalancedConfig = .ok s₀ ∧
      runSteps (step secureBalancedConfig) s₀ [⟨140, 1, false, false, false, false, none⟩,
        ⟨320, 2, false, false, false, false, none⟩] = .ok s ∧
      onTick secureBalancedConfig s ⟨200, 3, false, false, false, false, none⟩ = .ok d ∧
      IsFullSecureExit s d ∧ d.nextState.remainingBps = 0 := by
  obtain ⟨s, hrun, hs⟩ := exists_ok_of_any
    (x := ExitState.atEntry "M" 100 secureBalancedConfig >>= fun s₀ =>
      runSteps (step secureBalancedConfig) s₀ [⟨140, 1, false, false, false, false, none⟩,
        ⟨320, 2, false, false, false, false, none⟩])
    (p := fun s => decide (0 < s.remainingBps ∧ 200 ≤ protectiveFloor secureBalancedConfig s))
    (by decide +kernel)
  obtain ⟨hopen, hbelow⟩ := of_decide_eq_true hs
  obtain ⟨s₀, hentry, hrun⟩ := ok_of_bind hrun
  obtain ⟨d, hd, -, -, hexit⟩ := (floor_never_widens secureBalancedConfig "M" 100 s₀ hentry _ s
    hrun).2 ⟨200, 3, false, false, false, false, none⟩ (by decide) (by simp)
  exact ⟨s₀, s, d, hentry, hrun, hd, hexit hopen hbelow⟩

end Exit
end AatsSniper

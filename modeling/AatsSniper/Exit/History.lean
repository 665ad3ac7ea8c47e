/-
# The exit state is a function of the price history

`on_tick` moves the peak, the arm, the ratchet, the step count and the flat clock
one tick at a time, each in a helper of its own with its own early return.
`Tracks` states what they amount to: each field of an open state in closed form,
over the ticks since entry.

`advanced_tracks` is the step; `run_tracks` carries it along a run.  A closed
position stays closed, so an open one was open at every tick before.
-/

import AatsSniper.Exit.Step
import Mathlib.Order.Bounds.Basic

namespace AatsSniper
namespace Exit

/-- What the floor of the ratchet may be at a peak: the locks of the rungs it has reached. -/
def engagedLocks (ladder : List RatchetRung) (peakR : ℚ) : Set ℚ :=
  {lock | ∃ rung ∈ ladder, rung.atR ≤ peakR ∧ lock = rung.lockR}

theorem engagedLocks_cons_of_le {rung : RatchetRung} {rest : List RatchetRung} {peakR : ℚ}
    (h : rung.atR ≤ peakR) :
    engagedLocks (rung :: rest) peakR = insert rung.lockR (engagedLocks rest peakR) := by
  ext lock
  simp [engagedLocks, h]

theorem engagedLocks_cons_of_lt {rung : RatchetRung} {rest : List RatchetRung} {peakR : ℚ}
    (h : ¬ rung.atR ≤ peakR) : engagedLocks (rung :: rest) peakR = engagedLocks rest peakR := by
  ext lock
  simp [engagedLocks, h]

theorem engagedLocks_mono {ladder : List RatchetRung} {peakR peakR' : ℚ} (h : peakR ≤ peakR') :
    engagedLocks ladder peakR ⊆ engagedLocks ladder peakR' := by
  rintro lock ⟨rung, hmem, hat, rfl⟩
  exact ⟨rung, hmem, hat.trans h, rfl⟩

/-- The loop raises the floor to the highest engaged lock. -/
theorem ratchetLoop_floor (peakR : ℚ) (ladder : List RatchetRung) :
    ∀ (idx : ℕ) (floor : ℚ) (engaged : Finset ℕ),
      IsGreatest (insert floor (engagedLocks ladder peakR))
        (ratchetLoop peakR ladder idx floor engaged).1 := by
  induction ladder with
  | nil =>
      intro idx floor engaged
      have hnone : engagedLocks [] peakR = ∅ := by simp [engagedLocks]
      rw [hnone, insert_empty_eq]
      exact isGreatest_singleton
  | cons rung rest ih =>
      intro idx floor engaged
      unfold ratchetLoop
      split_ifs with hat hlock
      · rw [engagedLocks_cons_of_le hat]
        have hrest := ih (idx + 1) rung.lockR (insert idx engaged)
        refine ⟨Set.mem_insert_of_mem _ hrest.1, ?_⟩
        rintro lock (rfl | hlock')
        · exact hlock.le.trans (hrest.2 (Set.mem_insert _ _))
        · exact hrest.2 hlock'
      · rw [engagedLocks_cons_of_le hat, Set.insert_comm]
        have hrest := ih (idx + 1) floor (insert idx engaged)
        refine ⟨Set.mem_insert_of_mem _ hrest.1, ?_⟩
        rintro lock (rfl | hlock')
        · exact (not_lt.1 hlock).trans (hrest.2 (Set.mem_insert _ _))
        · exact hrest.2 hlock'
      · rw [engagedLocks_cons_of_lt hat]
        exact ih (idx + 1) floor engaged

/-- The loop adds the rungs the peak has reached. -/
theorem mem_ratchetLoop (peakR : ℚ) (ladder : List RatchetRung) (i : ℕ) :
    ∀ (idx : ℕ) (floor : ℚ) (engaged : Finset ℕ),
      i ∈ (ratchetLoop peakR ladder idx floor engaged).2 ↔
        i ∈ engaged ∨ ∃ k rung, i = idx + k ∧ ladder[k]? = some rung ∧ rung.atR ≤ peakR := by
  induction ladder with
  | nil =>
      intro idx floor engaged
      simp [ratchetLoop]
  | cons rung rest ih =>
      intro idx floor engaged
      -- index 0 is the head, index `k + 1` is index `k` of the rest
      have hsplit : (∃ k rung', i = idx + k ∧ (rung :: rest)[k]? = some rung' ∧ rung'.atR ≤ peakR) ↔
          (i = idx ∧ rung.atR ≤ peakR) ∨
            ∃ k rung', i = idx + 1 + k ∧ rest[k]? = some rung' ∧ rung'.atR ≤ peakR := by
        constructor
        · rintro ⟨k, rung', rfl, hrung, hat⟩
          cases k with
          | zero =>
              obtain rfl : rung = rung' := by simpa using hrung
              exact .inl ⟨rfl, hat⟩
          | succ k => exact .inr ⟨k, rung', by omega, hrung, hat⟩
        · rintro (⟨rfl, hat⟩ | ⟨k, rung', rfl, hrung, hat⟩)
          · exact ⟨0, rung, rfl, rfl, hat⟩
          · exact ⟨k + 1, rung', by omega, hrung, hat⟩
      rw [hsplit]
      unfold ratchetLoop
      by_cases hat : rung.atR ≤ peakR
      · rw [if_pos hat, ih, Finset.mem_insert, and_iff_left hat, or_assoc, or_left_comm]
      · rw [if_neg hat, ih, or_iff_right (a := i = idx ∧ _) fun h => hat h.2]

section Raise

variable {ladder : List RatchetRung} {peakR peakR' floor : ℚ} {engaged : Finset ℕ}

/-- From the rungs an earlier peak has reached the loop gets to those the peak has reached. -/
theorem mem_ratchetLoop_of_engaged (hle : peakR ≤ peakR') (h : ∀ i, i ∈ engaged ↔
      ∃ rung, ladder[i]? = some rung ∧ rung.atR ≤ peakR) (i : ℕ) :
    i ∈ (ratchetLoop peakR' ladder 0 floor engaged).2 ↔
      ∃ rung, ladder[i]? = some rung ∧ rung.atR ≤ peakR' := by
  rw [mem_ratchetLoop, h]
  constructor
  · rintro (⟨rung, hrung, hat⟩ | ⟨k, rung, rfl, hrung, hat⟩)
    · exact ⟨rung, hrung, hat.trans hle⟩
    · rw [Nat.zero_add]
      exact ⟨rung, hrung, hat⟩
  · rintro ⟨rung, hrung, hat⟩
    exact .inr ⟨i, rung, (Nat.zero_add i).symm, hrung, hat⟩

/-- From the floor of an earlier peak the loop gets to the floor of the peak. -/
theorem ratchetLoop_floor_of_locked (hle : peakR ≤ peakR')
    (h : IsGreatest (insert 0 (engagedLocks ladder peakR)) floor) :
    IsGreatest (insert 0 (engagedLocks ladder peakR'))
      (ratchetLoop peakR' ladder 0 floor engaged).1 := by
  obtain ⟨hmem, hupper⟩ := ratchetLoop_floor peakR' ladder 0 floor engaged
  constructor
  · rcases hmem with heq | hmem
    · rw [heq]
      exact Set.insert_subset_insert (engagedLocks_mono hle) h.1
    · exact Set.mem_insert_of_mem _ hmem
  · rintro lock (rfl | hlock)
    · exact (h.2 (Set.mem_insert _ _)).trans (hupper (Set.mem_insert _ _))
    · exact hupper (Set.mem_insert_of_mem _ hlock)

end Raise

section Tracks

variable (config : ExitConfig) (entry : ℚ)

/-- The mark of the tick is outside the flat band around the entry. -/
def OutOfBand (tick : Tick) : Prop :=
  (config.timeStopFlatBandBps : ℚ) < |tick.markPrice / entry - 1| * 10000

/-- `time` is that of the latest tick that was the first or out of the band. -/
def LastActive (ticks : List Tick) (time : ℤ) : Prop :=
  ∃ before tick after, ticks = before ++ tick :: after ∧ time = tick.blockTimeMs ∧
    (before = [] ∨ OutOfBand config entry tick) ∧ ∀ later ∈ after, ¬ OutOfBand config entry later

/-- The state in terms of the ticks since entry. -/
structure Tracks (ticks : List Tick) (s : ExitState) : Prop where
  peak : IsGreatest (insert 1 {r | ∃ tick ∈ ticks, r = tick.markPrice / entry}) s.peakR
  arm : s.armed = true ↔ config.trailArmR ≤ s.peakR
  ratchet : ∀ i, i ∈ s.firedRatchetRungs ↔
    ∃ rung, config.ratchetLadder[i]? = some rung ∧ rung.atR ≤ s.peakR
  floor : IsGreatest (insert 0 (engagedLocks config.ratchetLadder s.peakR)) s.lockedFloorR
  steps : s.stepsHeld = ticks.length
  anchor : s.entryBlockTimeMs < 0 ↔ ticks = []
  active : ticks ≠ [] → LastActive config entry ticks s.lastActiveBlockTimeMs

end Tracks

variable {config : ExitConfig} {entry : ℚ} {ticks : List Tick} {s : ExitState}

/-- At entry. -/
theorem atEntry_tracks {mint : String} (hentry : ExitState.atEntry mint entry config = .ok s) :
    s.entryFillPrice = entry ∧ Tracks config entry [] s := by
  obtain ⟨-, stop, rfl⟩ := ExitState.atEntry_eq_ok hentry
  refine ⟨rfl, ?_, ?_, ?_, ?_, rfl, ?_, fun hne => absurd rfl hne⟩
  · simp
  · have harm := config.sound.trailArm
    simpa using harm
  · -- every rung engages above 1, and the peak is 1
    intro i
    constructor
    · intro hi
      exact absurd hi (Finset.notMem_empty i)
    · rintro ⟨rung, -, hat⟩
      exact absurd hat (not_le.2 rung.one_lt_at)
  · have hnone : engagedLocks config.ratchetLadder 1 = ∅ := by
      refine Set.eq_empty_of_forall_notMem ?_
      rintro lock ⟨rung, -, hat, -⟩
      exact absurd hat (not_le.2 rung.one_lt_at)
    dsimp only
    rw [hnone, insert_empty_eq]
    exact isGreatest_singleton
  · simp

/-- The latest active tick, after one more. -/
theorem LastActive.snoc {tick : Tick} {time : ℤ} (h : ticks ≠ [] → LastActive config entry ticks time)
    {time' : ℤ} (hactive : (ticks = [] ∨ OutOfBand config entry tick) → time' = tick.blockTimeMs)
    (hquiet : ¬ (ticks = [] ∨ OutOfBand config entry tick) → time' = time) :
    LastActive config entry (ticks ++ [tick]) time' := by
  by_cases hmoves : ticks = [] ∨ OutOfBand config entry tick
  · exact ⟨ticks, tick, [], rfl, hactive hmoves, hmoves, by simp⟩
  · obtain ⟨hne, hband⟩ := not_or.1 hmoves
    obtain ⟨before, last, after, rfl, rfl, hfirst, hafter⟩ := h hne
    refine ⟨before, last, after ++ [tick], by simp, hquiet hmoves, hfirst, ?_⟩
    intro later hlater
    rcases List.mem_append.1 hlater with hmem | hmem
    · exact hafter later hmem
    · rwa [List.mem_singleton.1 hmem]

/-- The multiples seen, after one more tick. -/
theorem seen_snoc (ticks : List Tick) (tick : Tick) (entry : ℚ) :
    (insert 1 {r | ∃ t ∈ ticks ++ [tick], r = t.markPrice / entry} : Set ℚ) =
      insert (tick.markPrice / entry) (insert 1 {r | ∃ t ∈ ticks, r = t.markPrice / entry}) := by
  ext r
  simp only [Set.mem_insert_iff, Set.mem_ofPred_eq, List.mem_append, List.mem_singleton,
    or_and_right, exists_or, exists_eq_left]
  rw [or_comm (a := ∃ _, _), or_left_comm]

/-- **One tick of the closed form.** -/
theorem advanced_tracks (h : Tracks config entry ticks s) {tick : Tick}
    (htime : 0 ≤ tick.blockTimeMs) :
    Tracks config entry (ticks ++ [tick])
      (advanced config s (tick.markPrice / entry) tick.blockTimeMs) := by
  set r := tick.markPrice / entry with hr
  have hpeak : s.peakR ≤ max s.peakR r := le_max_left _ _
  refine ⟨?_, ?_, mem_ratchetLoop_of_engaged hpeak h.ratchet,
    ratchetLoop_floor_of_locked hpeak h.floor, ?_, ?_, ?_⟩
  · change IsGreatest _ (max s.peakR r)
    rw [seen_snoc, max_comm]
    exact h.peak.insert r
  · change (s.armed || decide (config.trailArmR ≤ r)) = true ↔ config.trailArmR ≤ max s.peakR r
    rw [Bool.or_eq_true, h.arm, decide_eq_true_iff, le_max_iff]
  · change s.stepsHeld + 1 = _
    rw [h.steps, List.length_append, List.length_singleton]
    push_cast
    rfl
  · change (if s.entryBlockTimeMs < 0 then tick.blockTimeMs else s.entryBlockTimeMs) < 0 ↔ _
    have hne : ticks ++ [tick] ≠ [] := by simp
    split_ifs with hfirst
    · exact ⟨fun hneg => absurd hneg (not_lt.2 htime), fun hnil => absurd hnil hne⟩
    · exact ⟨fun hneg => absurd hneg hfirst, fun hnil => absurd hnil hne⟩
  · intro _
    have hmoves : (ticks = [] ∨ OutOfBand config entry tick) ↔ Moves config s r := by
      rw [← h.anchor]
      rfl
    refine LastActive.snoc h.active (fun hactive => ?_) (fun hquiet => ?_)
    · exact if_pos (hmoves.1 hactive)
    · exact if_neg fun hm => hquiet (hmoves.2 hm)

/-- A tick that forces no exit finds the position younger than `max_hold_steps`. -/
theorem steps_lt_of_not_forced {r : ℚ} {tick : Tick} (h : forcedExit config s r tick = none) :
    s.stepsHeld < config.maxHoldSteps := by
  unfold forcedExit at h
  split_ifs at h with _ _ _ _ _ _ _ htimeout
  exact not_le.1 htimeout

/-- Along a run from entry, a state tracks the ticks as long as it is open. -/
theorem run_tracks {mint : String} {s₀ : ExitState}
    (hentry : ExitState.atEntry mint entry config = .ok s₀)
    (hrun : runSteps (step config) s₀ ticks = .ok s) :
    s.WellFormed ∧ s.entryFillPrice = entry ∧ (0 < s.remainingBps →
      Tracks config entry ticks s ∧ (ticks.length : ℤ) < config.maxHoldSteps) := by
  refine runSteps_history (P := fun ticks s => s.WellFormed ∧ s.entryFillPrice = entry ∧
    (0 < s.remainingBps → Tracks config entry ticks s ∧
      (ticks.length : ℤ) < config.maxHoldSteps)) ?_ ?_ hrun
  · obtain ⟨hprice, htracks⟩ := atEntry_tracks hentry
    exact ⟨(ExitState.atEntry_eq_ok hentry).1, hprice, fun _ => ⟨htracks, config.sound.maxHold⟩⟩
  · rintro past t tick t' ⟨h, rfl, htracks⟩ hstep
    refine ⟨step_wellFormed h hstep, ?_⟩
    obtain ⟨d, hd, rfl⟩ := step_eq_ok hstep
    obtain ⟨htime, ⟨hflat, rfl⟩ | ⟨hopen, hcase⟩⟩ := onTick_cases h hd
    · exact ⟨rfl, fun hpos => absurd hpos (not_lt.2 hflat.le)⟩
    · have hprice : (advanced config t (t.realizedR tick.markPrice)
          tick.blockTimeMs).entryFillPrice = t.entryFillPrice := advanced_entryFillPrice
      have hnext := advanced_tracks (htracks hopen).1 htime
      have hyoung : forcedExit config (advanced config t (t.realizedR tick.markPrice)
          tick.blockTimeMs) (t.realizedR tick.markPrice) tick = none →
          ((past ++ [tick]).length : ℤ) < config.maxHoldSteps := by
        intro hforced
        rw [← hnext.steps]
        exact steps_lt_of_not_forced hforced
      rcases hcase with ⟨reason, detail, -, rfl⟩ | ⟨hforced, ⟨rungIdx, rung, -, rfl⟩ | rfl⟩
      · refine ⟨hprice, fun hpos => ?_⟩
        exact absurd (show (0 : ℤ) < 0 from hpos) (lt_irrefl 0)
      · exact ⟨hprice, fun _ => ⟨⟨hnext.peak, hnext.arm, hnext.ratchet, hnext.floor, hnext.steps,
          hnext.anchor, hnext.active⟩, hyoung hforced⟩⟩
      · exact ⟨hprice, fun _ => ⟨hnext, hyoung hforced⟩⟩

/-- **The state is a function of the price history.**  Whatever the ticks since entry, if the
position is still open: the peak is the highest of 1 and the multiples seen; the trail is armed
iff the peak has reached `trail_arm_r`; the rungs engaged are those the peak has reached and the
floor is the highest of their locks, or 0; the steps held are the ticks, and fewer than
`max_hold_steps`; and the flat clock was last reset by the latest tick that was the first or
out of the band. -/
theorem open_state_tracks_history (config : ExitConfig) (mint : String) (entry : ℚ)
    (s₀ : ExitState) (hentry : ExitState.atEntry mint entry config = .ok s₀) (ticks : List Tick)
    (s : ExitState) (hrun : runSteps (step config) s₀ ticks = .ok s)
    (hopen : 0 < s.remainingBps) :
    Tracks config entry ticks s ∧ (ticks.length : ℤ) < config.maxHoldSteps :=
  (run_tracks hentry hrun).2.2 hopen

/-- The mark runs to 210 and comes back to 190. -/
theorem open_state_tracks_history_sample :
    ∃ s₀ s, ExitState.atEntry "M" 100 secureBalancedConfig = .ok s₀ ∧
      runSteps (step secureBalancedConfig) s₀ [⟨140, 1, false, false, false, false, none⟩,
        ⟨210, 2, false, false, false, false, none⟩,
        ⟨190, 3, false, false, false, false, none⟩] = .ok s ∧
      0 < s.remainingBps ∧ Tracks secureBalancedConfig 100
        [⟨140, 1, false, false, false, false, none⟩, ⟨210, 2, false, false, false, false, none⟩,
          ⟨190, 3, false, false, false, false, none⟩] s := by
  obtain ⟨s, hrun, hs⟩ := exists_ok_of_any
    (x := ExitState.atEntry "M" 100 secureBalancedConfig >>= fun s₀ =>
      runSteps (step secureBalancedConfig) s₀ [⟨140, 1, false, false, false, false, none⟩,
        ⟨210, 2, false, false, false, false, none⟩, ⟨190, 3, false, false, false, false, none⟩])
    (p := fun s => decide (0 < s.remainingBps)) (by decide +kernel)
  obtain ⟨s₀, hentry, hrun⟩ := ok_of_bind hrun
  have hopen := of_decide_eq_true hs
  exact ⟨s₀, s, hentry, hrun, hopen,
    (open_state_tracks_history secureBalancedConfig "M" 100 s₀ hentry _ s hrun hopen).1⟩

end Exit
end AatsSniper

/-
# Marks on the same sides of the levels

The engine compares a mark with the levels of its configuration and, once the trailing stop is
armed, with a share of the peak.  Two positions whose marks are in one proportion, each
mark on the same side of every level as the other, are decided alike (`onTick_lockstep`).

The one other comparison is that of the flat clock; without a narrative score it decides nothing.
-/

import AatsSniper.Exit.Scale
import AatsSniper.Exit.History

namespace AatsSniper
namespace Exit

variable {config : ExitConfig} {s s' : ExitState} {r r' c : ℚ} {tick : Tick} {d : ExitDecision}

/-- No level of the configuration lies between two multiples of the entry price. -/
structure SameSides (config : ExitConfig) (r r' : ℚ) : Prop where
  stop : r' ≤ config.hardStopPrice 1 ↔ r ≤ config.hardStopPrice 1
  arm : config.trailArmR ≤ r' ↔ config.trailArmR ≤ r
  trigger : ∀ rung ∈ config.tpLadder, (rung.triggerR ≤ r' ↔ rung.triggerR ≤ r)
  ratchet : ∀ rung ∈ config.ratchetLadder, (rung.atR ≤ r' ↔ rung.atR ≤ r)
  lock : ∀ rung ∈ config.ratchetLadder, (r' ≤ rung.lockR ↔ r ≤ rung.lockR)

/-- A peak on the same sides engages the same rungs. -/
theorem ratchetLoop_congr {peakR peakR' : ℚ} : ∀ {ladder : List RatchetRung} {idx : ℕ} {floor : ℚ}
    {engaged : Finset ℕ}, (∀ rung ∈ ladder, (rung.atR ≤ peakR' ↔ rung.atR ≤ peakR)) →
    ratchetLoop peakR' ladder idx floor engaged = ratchetLoop peakR ladder idx floor engaged
  | [], _, _, _, _ => rfl
  | rung :: rest, idx, floor, engaged, h => by
      have hrung := h rung List.mem_cons_self
      have hrest : ∀ rung ∈ rest, (rung.atR ≤ peakR' ↔ rung.atR ≤ peakR) :=
        fun rung' hmem => h rung' (List.mem_cons_of_mem _ hmem)
      unfold ratchetLoop
      by_cases hat : rung.atR ≤ peakR
      · rw [if_pos hat, if_pos (hrung.2 hat)]
        exact ratchetLoop_congr hrest
      · rw [if_neg hat, if_neg (hat ∘ hrung.1)]
        exact ratchetLoop_congr hrest

/-- Multiples on the same sides hit the same rungs. -/
theorem highestHitRungLoop_congr {fired : Finset ℕ} : ∀ {ladder : List TpRung} {idx : ℕ}
    {best : Option (ℕ × TpRung)} {bestTrigger : ℚ},
    (∀ rung ∈ ladder, (rung.triggerR ≤ r' ↔ rung.triggerR ≤ r)) →
    highestHitRungLoop fired r' ladder idx best bestTrigger =
      highestHitRungLoop fired r ladder idx best bestTrigger
  | [], _, _, _, _ => rfl
  | rung :: rest, idx, best, bestTrigger, h => by
      have hrung := h rung List.mem_cons_self
      have hrest : ∀ rung ∈ rest, (rung.triggerR ≤ r' ↔ rung.triggerR ≤ r) :=
        fun rung' hmem => h rung' (List.mem_cons_of_mem _ hmem)
      unfold highestHitRungLoop
      rw [highestHitRungLoop_congr hrest, highestHitRungLoop_congr hrest]
      by_cases hhit : idx ∉ fired ∧ rung.triggerR ≤ r ∧ bestTrigger < rung.triggerR
      · rw [if_pos hhit, if_pos ⟨hhit.1, hrung.2 hhit.2.1, hhit.2.2⟩]
      · rw [if_neg hhit, if_neg fun h => hhit ⟨h.1, hrung.1 h.2.1, h.2.2⟩]

/-- Two positions entered at one, decided alike so far, the marks of the second `c` times those of
the first. -/
structure Lockstep (config : ExitConfig) (c : ℚ) (s s' : ExitState) : Prop where
  entry : s.entryFillPrice = 1
  entry' : s'.entryFillPrice = 1
  trigger : s.stop.triggerPrice = config.hardStopPrice 1
  trigger' : s'.stop.triggerPrice = config.hardStopPrice 1
  remaining : s'.remainingBps = s.remainingBps
  fired : s'.firedRungs = s.firedRungs
  armed : s'.armed = s.armed
  steps : s'.stepsHeld = s.stepsHeld
  locked : s'.lockedFloorR = s.lockedFloorR
  engaged : s'.firedRatchetRungs = s.firedRatchetRungs
  floor : s.lockedFloorR = 0 ∨ ∃ rung ∈ config.ratchetLadder, s.lockedFloorR = rung.lockR
  ratchet : ∀ rung ∈ config.ratchetLadder, (rung.atR ≤ s'.peakR ↔ rung.atR ≤ s.peakR)
  peak : s.armed = true → s'.peakR = c * s.peakR
  below : s.armed = false → s.peakR < config.trailArmR ∧ s'.peakR < config.trailArmR

/-- At entry nothing has moved. -/
theorem lockstep_atEntry {mint : String} (h : ExitState.atEntry mint 1 config = .ok s) :
    Lockstep config c s s := by
  have htrigger := atEntry_trigger h
  obtain ⟨-, stop, rfl⟩ := ExitState.atEntry_eq_ok h
  exact {
    entry := rfl
    entry' := rfl
    trigger := htrigger
    trigger' := htrigger
    remaining := rfl
    fired := rfl
    armed := rfl
    steps := rfl
    locked := rfl
    engaged := rfl
    floor := .inl rfl
    ratchet := fun _ _ => Iff.rfl
    peak := fun h => nomatch h
    below := fun _ => ⟨config.sound.trailArm, config.sound.trailArm⟩ }

/-- The peak, advanced. -/
theorem le_max_iff_of_sides {level peakR peakR' : ℚ} (hpeak : level ≤ peakR' ↔ level ≤ peakR)
    (hr : level ≤ r' ↔ level ≤ r) : level ≤ max peakR' r' ↔ level ≤ max peakR r := by
  rw [le_max_iff, le_max_iff, hpeak, hr]

/-- An armed peak is in proportion: it was, or the mark that arms the stop is the peak. -/
theorem Lockstep.peak_of_armed (h : Lockstep config c s s') (hc : 0 < c)
    (hsides : SameSides config r (c * r)) (harmed : s.armed = true ∨ config.trailArmR ≤ r) :
    max s'.peakR (c * r) = c * max s.peakR r := by
  cases hbefore : s.armed with
  | true => rw [h.peak hbefore, mul_max_of_nonneg _ _ hc.le]
  | false =>
      have hreached : config.trailArmR ≤ r := harmed.resolve_left (by rw [hbefore]; decide)
      obtain ⟨hpeak, hpeak'⟩ := h.below hbefore
      rw [max_eq_right (hpeak'.le.trans (hsides.arm.2 hreached)), max_eq_right (hpeak.le.trans hreached)]

/-- **Advancing keeps the proportion.** -/
theorem Lockstep.advanced (h : Lockstep config c s s') (hc : 0 < c) (hsides : SameSides config r (c * r))
    (blockTimeMs : ℤ) :
    Lockstep config c (advanced config s r blockTimeMs) (advanced config s' (c * r) blockTimeMs) := by
  have hratchet : ∀ rung ∈ config.ratchetLadder,
      (rung.atR ≤ max s'.peakR (c * r) ↔ rung.atR ≤ max s.peakR r) := fun rung hrung =>
    le_max_iff_of_sides (h.ratchet rung hrung) (hsides.ratchet rung hrung)
  have harm : decide (config.trailArmR ≤ c * r) = decide (config.trailArmR ≤ r) :=
    decide_eq_decide.2 hsides.arm
  have hloop : ratchetLoop (max s'.peakR (c * r)) config.ratchetLadder 0 s'.lockedFloorR
      s'.firedRatchetRungs = ratchetLoop (max s.peakR r) config.ratchetLadder 0 s.lockedFloorR
        s.firedRatchetRungs := by
    rw [h.locked, h.engaged]
    exact ratchetLoop_congr hratchet
  refine {
    entry := h.entry
    entry' := h.entry'
    trigger := h.trigger
    trigger' := h.trigger'
    remaining := h.remaining
    fired := h.fired
    armed := ?armed
    steps := congrArg (· + 1) h.steps
    locked := congrArg Prod.fst hloop
    engaged := congrArg Prod.snd hloop
    floor := ?floor
    ratchet := hratchet
    peak := ?peak
    below := ?below }
  case armed =>
    change (s'.armed || decide (config.trailArmR ≤ c * r)) = (s.armed || decide (config.trailArmR ≤ r))
    rw [h.armed, harm]
  case floor =>
    have hgreatest := ratchetLoop_floor (max s.peakR r) config.ratchetLadder 0 s.lockedFloorR
      s.firedRatchetRungs
    rcases hgreatest.1 with hkept | ⟨rung, hrung, -, hlock⟩
    · exact h.floor.imp hkept.trans fun ⟨rung, hrung, hlock⟩ => ⟨rung, hrung, hkept.trans hlock⟩
    · exact .inr ⟨rung, hrung, hlock⟩
  case peak =>
    intro harmed
    exact h.peak_of_armed hc hsides ((Bool.or_eq_true_iff.1 harmed).imp_right of_decide_eq_true)
  case below =>
    intro hunarmed
    obtain ⟨hbefore, hreached⟩ := Bool.or_eq_false_iff.1 hunarmed
    obtain ⟨hpeak, hpeak'⟩ := h.below hbefore
    have hr : r < config.trailArmR := not_le.1 (of_decide_eq_false hreached)
    have hr' : c * r < config.trailArmR := not_le.1 (of_decide_eq_false (harm.trans hreached))
    exact ⟨max_lt hpeak hr, max_lt hpeak' hr'⟩

/-- A branch under conditions that agree and with the same reason. -/
theorem map_fst_branch_iff {p q : Prop} [Decidable p] [Decidable q] {reason : ExitReason}
    {detail detail' : Detail} {rest rest' : Option (ExitReason × Detail)} (hiff : p ↔ q)
    (h : rest.map Prod.fst = rest'.map Prod.fst) :
    (if p then some (reason, detail) else rest).map Prod.fst =
      (if q then some (reason, detail') else rest').map Prod.fst := by
  by_cases hp : p
  · rw [if_pos hp, if_pos (hiff.1 hp)]
    rfl
  · rw [if_neg hp, if_neg (hp ∘ hiff.2), h]

/-- Without a narrative score the flat clock stops nothing. -/
theorem timeStopDetail_none (blockTimeMs : ℤ) : timeStopDetail config s none blockTimeMs = none := by
  unfold timeStopDetail
  cases config.timeStopHours <;> rfl

/-- The tick with its mark in proportion. -/
def Tick.scaledBy (tick : Tick) (c : ℚ) : Tick := { tick with markPrice := c * tick.markPrice }

/-- **The same branch is taken**; only the prices it prints differ. -/
theorem Lockstep.forcedExit (h : Lockstep config c s s') (hc : 0 < c)
    (hsides : SameSides config tick.markPrice (c * tick.markPrice)) (hscore : tick.narrativeScore = none) :
    (forcedExit config s' (c * tick.markPrice) (tick.scaledBy c)).map Prod.fst =
      (forcedExit config s tick.markPrice tick).map Prod.fst := by
  have hstop : s'.stop.isBreached (c * tick.markPrice) = s.stop.isBreached tick.markPrice := by
    unfold StopState.isBreached
    rw [h.trigger, h.trigger', decide_eq_decide]
    exact hsides.stop
  have hratchet : 0 < s.lockedFloorR ∧ c * tick.markPrice ≤ s.lockedFloorR ↔
      0 < s.lockedFloorR ∧ tick.markPrice ≤ s.lockedFloorR := by
    refine and_congr_right fun hpos => ?_
    rcases h.floor with hzero | ⟨rung, hrung, hlock⟩
    · exact absurd hzero hpos.ne'
    · rw [hlock]
      exact hsides.lock rung hrung
  have htrail : s.armed = true ∧ c * tick.markPrice ≤ trailFloorR config s' ↔
      s.armed = true ∧ tick.markPrice ≤ trailFloorR config s := by
    refine and_congr_right fun harmed => ?_
    unfold trailFloorR
    rw [h.peak harmed, mul_assoc, mul_div_assoc, mul_le_mul_iff_right₀ hc]
  unfold Exit.forcedExit Tick.scaledBy
  dsimp only
  rw [hscore, timeStopDetail_none, timeStopDetail_none, hstop, h.locked, h.armed, h.steps]
  iterate 5 refine map_fst_branch ?_
  refine map_fst_branch_iff hratchet ?_
  refine map_fst_branch_iff htrail ?_
  refine map_fst_branch ?_
  rfl

/-- A sale of the same shares keeps the proportion. -/
theorem Lockstep.sold (h : Lockstep config c s s') (remainingBps : ℤ) {fired fired' : Finset ℕ}
    (hfired : fired' = fired) :
    Lockstep config c { s with remainingBps := remainingBps, firedRungs := fired }
      { s' with remainingBps := remainingBps, firedRungs := fired' } where
  entry := h.entry
  entry' := h.entry'
  trigger := h.trigger
  trigger' := h.trigger'
  remaining := rfl
  fired := hfired
  armed := h.armed
  steps := h.steps
  locked := h.locked
  engaged := h.engaged
  floor := h.floor
  ratchet := h.ratchet
  peak := h.peak
  below := h.below

/-- The same is decided, and the proportion is kept. -/
structure SameDecision (config : ExitConfig) (c : ℚ) (d d' : ExitDecision) : Prop where
  reason : d'.reason = d.reason
  fraction : d'.fractionBps = d.fractionBps
  mode : d'.exitMode = d.exitMode
  next : Lockstep config c d.nextState d'.nextState

/-- The same branch on the advanced states. -/
theorem decideTick_lockstep (h : s.WellFormed) (h' : s'.WellFormed) (hopen : 0 < s.remainingBps)
    (hstep : Lockstep config c s s') (hc : 0 < c)
    (hsides : SameSides config tick.markPrice (c * tick.markPrice)) (hscore : tick.narrativeScore = none)
    (hd : decideTick config s tick.markPrice tick = .ok d) :
    ∃ d', decideTick config s' (c * tick.markPrice) (tick.scaledBy c) = .ok d' ∧
      SameDecision config c d d' := by
  have hforced := hstep.forcedExit hc hsides hscore
  have hhit : highestHitRung config s' (c * tick.markPrice) =
      highestHitRung config s tick.markPrice := by
    unfold highestHitRung
    rw [hstep.fired]
    exact highestHitRungLoop_congr hsides.trigger
  unfold decideTick at hd ⊢
  cases hexit : forcedExit config s tick.markPrice tick with
  | some forced =>
      rw [hexit] at hforced hd
      obtain ⟨forced', hexit', hreason⟩ := Option.map_eq_some_iff.1 hforced
      rw [hexit']
      dsimp only at hd ⊢
      rw [fullExit_eq_ok h] at hd
      obtain rfl := Except.ok.inj hd
      exact ⟨_, fullExit_eq_ok h' _ _, hreason, rfl, rfl, hstep.sold 0 hstep.fired⟩
  | none =>
      rw [hexit] at hforced hd
      rw [Option.map_eq_none_iff.1 hforced, hhit]
      dsimp only at hd ⊢
      cases hrung : highestHitRung config s tick.markPrice with
      | none =>
          rw [hrung] at hd
          obtain rfl := Except.ok.inj hd
          exact ⟨_, rfl, rfl, rfl, rfl, hstep⟩
      | some hit =>
          rw [hrung] at hd
          dsimp only at hd ⊢
          rw [scaleOut_eq_ok h hopen] at hd
          obtain rfl := Except.ok.inj hd
          refine ⟨_, scaleOut_eq_ok h' (hstep.remaining ▸ hopen) _ _, rfl, ?_, rfl, ?_⟩
          · exact congrArg (min hit.2.fractionBps) hstep.remaining
          · unfold scaleOutDecision
            dsimp only
            rw [hstep.remaining, hstep.fired]
            exact hstep.sold _ rfl

/-- **One tick**, the marks in proportion and on the same sides. -/
theorem onTick_lockstep (h : s.WellFormed) (h' : s'.WellFormed) (hstep : Lockstep config c s s')
    (hc : 0 < c) (hsides : SameSides config tick.markPrice (c * tick.markPrice))
    (hscore : tick.narrativeScore = none) (hopen : 0 < s.remainingBps)
    (hd : onTick config s tick = .ok d) :
    ∃ d', onTick config s' (tick.scaledBy c) = .ok d' ∧ SameDecision config c d d' := by
  have htime : 0 ≤ tick.blockTimeMs := by
    unfold onTick at hd
    exact (ok_of_require hd).1
  have hnone : ∀ score ∈ tick.narrativeScore, 0 ≤ score ∧ score ≤ 1 := by
    rw [hscore]
    exact fun score hmem => nomatch hmem
  have hmark : s.realizedR tick.markPrice = tick.markPrice := by
    unfold ExitState.realizedR
    rw [hstep.entry, div_one]
  have hmark' : s'.realizedR (tick.scaledBy c).markPrice = c * tick.markPrice := by
    unfold ExitState.realizedR
    rw [hstep.entry', div_one]
    rfl
  rw [onTick_of_open h hopen htime hnone, hmark] at hd
  have hopen' : 0 < s'.remainingBps := hstep.remaining ▸ hopen
  rw [show onTick config s' (tick.scaledBy c) = _ from onTick_of_open h' hopen' htime hnone, hmark']
  exact decideTick_lockstep (advanced_wellFormed h htime) (advanced_wellFormed h' htime) hopen
    (hstep.advanced hc hsides tick.blockTimeMs) hc hsides hscore hd

end Exit
end AatsSniper

/-
# The accounting of the take-profit ladder

`ExitConfig` checks the fractions of the rungs as shares of the original
position: they sum to at most 10000.  `_scale_out` applies them as shares of
what remains, rounded down.  What remains therefore never falls below the
fractions still to fire (`Covers`): a rung of fraction `f` takes
`⌊remaining · f / 10000⌋ ≤ f`, and it leaves the sum of the others.

So the clamp `min(fraction_bps, remaining_bps)` never clamps, and the branch for
a rung that sells everything is never taken.
-/

import AatsSniper.Exit.Step
import Mathlib.Algebra.Order.BigOperators.Group.Finset
import Mathlib.Algebra.BigOperators.Fin

namespace AatsSniper
namespace Exit

/-- The rung the loop returns is the one it was given, or an unfired rung of the ladder that
the mark has reached. -/
theorem highestHitRungLoop_eq_some {fired : Finset ℕ} {r : ℚ} {rungIdx : ℕ} {rung : TpRung} :
    ∀ {ladder : List TpRung} {idx : ℕ} {best : Option (ℕ × TpRung)} {bestTrigger : ℚ},
      highestHitRungLoop fired r ladder idx best bestTrigger = some (rungIdx, rung) →
      best = some (rungIdx, rung) ∨
        ∃ k, rungIdx = idx + k ∧ ladder[k]? = some rung ∧ rungIdx ∉ fired ∧ rung.triggerR ≤ r
  | [], _, _, _, h => .inl h
  | head :: rest, idx, best, bestTrigger, h => by
      unfold highestHitRungLoop at h
      split_ifs at h with hhit
      · rcases highestHitRungLoop_eq_some h with hbest | ⟨k, rfl, hrung, hrest⟩
        · obtain ⟨rfl, rfl⟩ : idx = rungIdx ∧ head = rung := by simpa using hbest
          exact .inr ⟨0, rfl, rfl, hhit.1, hhit.2.1⟩
        · exact .inr ⟨k + 1, by omega, hrung, hrest⟩
      · rcases highestHitRungLoop_eq_some h with hbest | ⟨k, rfl, hrung, hrest⟩
        · exact .inl hbest
        · exact .inr ⟨k + 1, by omega, hrung, hrest⟩

variable {config : ExitConfig} {s : ExitState} {r : ℚ} {rungIdx : ℕ} {rung : TpRung}

theorem highestHitRung_eq_some (h : highestHitRung config s r = some (rungIdx, rung)) :
    config.tpLadder[rungIdx]? = some rung ∧ rungIdx ∉ s.firedRungs ∧ rung.triggerR ≤ r := by
  rcases highestHitRungLoop_eq_some h with hnone | ⟨k, rfl, hrung, hrest⟩
  · cases hnone
  · rw [Nat.zero_add] at hrest ⊢
    exact ⟨hrung, hrest⟩

/-- The triggers ascend, so a rung is known by its trigger. -/
theorem rungIdx_unique {rungIdx' : ℕ} {rung' : TpRung}
    (h : config.tpLadder[rungIdx]? = some rung) (h' : config.tpLadder[rungIdx']? = some rung')
    (htrigger : rung.triggerR = rung'.triggerR) : rungIdx = rungIdx' := by
  have hnodup : (config.tpLadder.map TpRung.triggerR).Nodup := config.sound.ascending.nodup
  have hlt : rungIdx < (config.tpLadder.map TpRung.triggerR).length := by
    rw [List.length_map]
    exact (List.getElem?_eq_some_iff.1 h).1
  refine (List.getElem?_inj hlt hnodup).1 ?_
  rw [List.getElem?_map, List.getElem?_map, h, h', Option.map_some, Option.map_some, htrigger]

variable (config) in
/-- The indices of the rungs not yet fired. -/
def unfiredRungs (s : ExitState) : Finset (Fin config.tpLadder.length) :=
  Finset.univ.filter fun i => (i : ℕ) ∉ s.firedRungs

variable (config) in
/-- The sum of `fraction_bps` over the rungs not yet fired. -/
def unfiredBps (s : ExitState) : ℤ :=
  ∑ i ∈ unfiredRungs config s, (config.tpLadder.get i).fractionBps

/-- Before any rung has fired the sum is that of the ladder. -/
theorem unfiredBps_of_fresh (h : s.firedRungs = ∅) : unfiredBps config s ≤ 10000 := by
  have hall : unfiredRungs config s = Finset.univ := by
    simp [unfiredRungs, h]
  have hsum : unfiredBps config s = (config.tpLadder.map TpRung.fractionBps).sum := by
    rw [unfiredBps, hall]
    exact Fin.sum_univ_fun_getElem config.tpLadder TpRung.fractionBps
  rw [hsum]
  exact config.sound.fractions

/-- A rung that fires leaves the sum of the others. -/
theorem unfiredBps_insert (hrung : config.tpLadder[rungIdx]? = some rung)
    (hunfired : rungIdx ∉ s.firedRungs) {s' : ExitState}
    (hfired : s'.firedRungs = insert rungIdx s.firedRungs) :
    rung.fractionBps + unfiredBps config s' = unfiredBps config s := by
  obtain ⟨hlt, rfl⟩ := List.getElem?_eq_some_iff.1 hrung
  have hmem : (⟨rungIdx, hlt⟩ : Fin config.tpLadder.length) ∈ unfiredRungs config s := by
    simpa [unfiredRungs] using hunfired
  have herase : unfiredRungs config s' = (unfiredRungs config s).erase ⟨rungIdx, hlt⟩ := by
    ext i
    simp [unfiredRungs, hfired, Fin.ext_iff]
  unfold unfiredBps
  rw [herase]
  exact Finset.add_sum_erase _ (fun i => (config.tpLadder.get i).fractionBps) hmem

theorem unfiredBps_nonneg (config : ExitConfig) (s : ExitState) : 0 ≤ unfiredBps config s := by
  refine Finset.sum_nonneg fun i _ => ?_
  have := (config.tpLadder.get i).fraction_range
  omega

variable (config) in
/-- An open position holds what the unfired rungs may still sell. -/
def Covers (s : ExitState) : Prop := 0 < s.remainingBps → unfiredBps config s ≤ s.remainingBps

/-- A rung takes at most its fraction of the original position. -/
theorem sub_le_remainingAfter {remainingBps fractionBps : ℤ} (hfraction : 0 ≤ fractionBps)
    (hle : fractionBps ≤ remainingBps) (hfull : remainingBps ≤ 10000) :
    remainingBps - fractionBps ≤ remainingAfter remainingBps fractionBps := by
  have hsold : remainingBps * fractionBps / 10000 ≤ fractionBps := by
    have hmul : remainingBps * fractionBps ≤ 10000 * fractionBps :=
      Int.mul_le_mul_of_nonneg_right hfull hfraction
    omega
  unfold remainingAfter
  rw [min_eq_left hle]
  omega

theorem fraction_le_remaining (hcovers : Covers config s) (hopen : 0 < s.remainingBps)
    (hrung : config.tpLadder[rungIdx]? = some rung) (hunfired : rungIdx ∉ s.firedRungs) :
    rung.fractionBps ≤ s.remainingBps := by
  have hothers : rung.fractionBps +
      unfiredBps config { s with firedRungs := insert rungIdx s.firedRungs } =
        unfiredBps config s := unfiredBps_insert hrung hunfired rfl
  have hnonneg := unfiredBps_nonneg config
    { s with firedRungs := insert rungIdx s.firedRungs }
  have := hcovers hopen
  omega

/-- One tick keeps the invariant. -/
theorem step_covers (h : s.WellFormed) (hcovers : Covers config s) {tick : Tick} {s' : ExitState}
    (hstep : step config s tick = .ok s') : Covers config s' := by
  obtain ⟨d, hd, rfl⟩ := step_eq_ok hstep
  obtain ⟨-, ⟨-, rfl⟩ | ⟨hopen, hcase⟩⟩ := onTick_cases h hd
  · exact hcovers
  · rcases hcase with ⟨reason, detail, -, rfl⟩ | ⟨-, ⟨rungIdx, rung, hhit, rfl⟩ | rfl⟩
    · exact fun hpos => absurd hpos (lt_irrefl 0)
    · intro _
      obtain ⟨hrung, hunfired, -⟩ := highestHitRung_eq_some hhit
      have hothers : rung.fractionBps + unfiredBps config (scaleOutDecision config
          (advanced config s (s.realizedR tick.markPrice) tick.blockTimeMs) tick.blockTimeMs
          rungIdx rung).nextState = unfiredBps config s := unfiredBps_insert hrung hunfired rfl
      have hsum := hcovers hopen
      have hle : rung.fractionBps ≤ s.remainingBps :=
        fraction_le_remaining hcovers hopen hrung hunfired
      have hleft : s.remainingBps - rung.fractionBps ≤
          remainingAfter s.remainingBps rung.fractionBps :=
        sub_le_remainingAfter (by have := rung.fraction_range; omega) hle h.remaining.2
      change _ ≤ remainingAfter s.remainingBps rung.fractionBps
      omega
    · exact hcovers

variable (config) in
/-- The decision fires the rung at `rungIdx`: it sells exactly the rung's fraction of what
remains, rounded down, by a `ReduceIntent`. -/
def FiresRung (s : ExitState) (tick : Tick) (d : ExitDecision) (rungIdx : ℕ) : Prop :=
  ∃ rung, config.tpLadder[rungIdx]? = some rung ∧
    d.reason = .takeProfit ∧
    d.intent = some (.reduce (.tp s.mint tick.blockTimeMs rung.triggerR) s.mint rung.fractionBps
      (.takeProfit rung.triggerR rung.fractionBps config.defaultExitMode false)) ∧
    d.fractionBps = rung.fractionBps ∧
    d.nextState.remainingBps = s.remainingBps - s.remainingBps * rung.fractionBps / 10000

/-- No forced exit is a take-profit. -/
theorem forcedExit_reason_ne {tick : Tick} {reason : ExitReason} {detail : Detail}
    (h : forcedExit config s r tick = some (reason, detail)) : reason ≠ .takeProfit := by
  rintro rfl
  unfold forcedExit at h
  split_ifs at h <;> simp_all

/-- A take-profit fires a rung that had not fired. -/
theorem onTick_takeProfit (h : s.WellFormed) (hcovers : Covers config s) {tick : Tick}
    {d : ExitDecision} (hd : onTick config s tick = .ok d) (hreason : d.reason = .takeProfit) :
    ∃ rungIdx, FiresRung config s tick d rungIdx ∧ rungIdx ∉ s.firedRungs ∧
      d.nextState.firedRungs = insert rungIdx s.firedRungs := by
  obtain ⟨-, ⟨-, rfl⟩ | ⟨hopen, hcase⟩⟩ := onTick_cases h hd
  · cases hreason
  · rcases hcase with ⟨reason, detail, hforced, rfl⟩ | ⟨-, ⟨rungIdx, rung, hhit, rfl⟩ | rfl⟩
    · exact absurd hreason (forcedExit_reason_ne hforced)
    · obtain ⟨hrung, hunfired, -⟩ := highestHitRung_eq_some hhit
      have hmin : min rung.fractionBps s.remainingBps = rung.fractionBps :=
        min_eq_left (fraction_le_remaining hcovers hopen hrung hunfired)
      have hclamp : min rung.fractionBps (advanced config s (s.realizedR tick.markPrice)
          tick.blockTimeMs).remainingBps = rung.fractionBps := hmin
      refine ⟨rungIdx, ⟨rung, hrung, rfl, ?_, hmin, ?_⟩, hunfired, rfl⟩
      · unfold scaleOutDecision
        rw [hclamp]
        rfl
      · change remainingAfter s.remainingBps rung.fractionBps = _
        rw [remainingAfter, hmin]
    · cases hreason

/-- The intent names the rung, so the rung it names is the one recorded. -/
theorem onTick_firesRung (h : s.WellFormed) (hcovers : Covers config s) {tick : Tick}
    {d : ExitDecision} (hd : onTick config s tick = .ok d)
    (hfires : FiresRung config s tick d rungIdx) :
    rungIdx ∉ s.firedRungs ∧ d.nextState.firedRungs = insert rungIdx s.firedRungs := by
  obtain ⟨rung, hrung, hreason, hintent, -⟩ := hfires
  obtain ⟨rungIdx', ⟨rung', hrung', -, hintent', -⟩, hrest⟩ :=
    onTick_takeProfit h hcovers hd hreason
  have htrigger : rung.triggerR = rung'.triggerR := by
    rw [hintent] at hintent'
    simp_all
  obtain rfl : rungIdx = rungIdx' := rungIdx_unique hrung hrung' htrigger
  exact hrest

/-- A rung that has fired stays fired. -/
theorem step_firedRungs (h : s.WellFormed) {tick : Tick} {s' : ExitState}
    (hstep : step config s tick = .ok s') : s.firedRungs ⊆ s'.firedRungs := by
  obtain ⟨d, hd, rfl⟩ := step_eq_ok hstep
  obtain ⟨-, ⟨-, rfl⟩ | ⟨-, hcase⟩⟩ := onTick_cases h hd
  · exact subset_rfl
  · rcases hcase with ⟨reason, detail, -, rfl⟩ | ⟨-, ⟨rungIdx, rung, -, rfl⟩ | rfl⟩
    · exact subset_rfl
    · exact Finset.subset_insert _ _
    · exact subset_rfl

/-- A run keeps the invariant and the rungs fired. -/
theorem run_covers (h : s.WellFormed) (hcovers : Covers config s) {ticks : List Tick}
    {s' : ExitState} (hrun : runSteps (step config) s ticks = .ok s') :
    s'.WellFormed ∧ Covers config s' ∧ s.firedRungs ⊆ s'.firedRungs := by
  refine runSteps_invariant (P := fun t => t.WellFormed ∧ Covers config t ∧
    s.firedRungs ⊆ t.firedRungs) ⟨h, hcovers, subset_rfl⟩ ?_ hrun
  rintro t tick t' ⟨ht, htcovers, hfired⟩ hstep
  exact ⟨step_wellFormed ht hstep, step_covers ht htcovers hstep,
    hfired.trans (step_firedRungs ht hstep)⟩

/-- At entry everything is held and no rung has fired. -/
theorem atEntry_covers {mint : String} {entry : ℚ}
    (hentry : ExitState.atEntry mint entry config = .ok s) : Covers config s := by
  obtain ⟨-, stop, rfl⟩ := ExitState.atEntry_eq_ok hentry
  exact fun _ => unfiredBps_of_fresh rfl

/-- **The ladder's accounting.**  In every state reached from entry: an open position
holds at least the fractions of the rungs not yet fired, and at least 1; a take-profit
fires a rung, by a `ReduceIntent` of exactly its fraction, and leaves what remains less
that share of it rounded down; a rung that fires is not fired by any later tick. -/
theorem take_profit_accounting (config : ExitConfig) (mint : String) (entry : ℚ) (s₀ : ExitState)
    (hentry : ExitState.atEntry mint entry config = .ok s₀) (ticks : List Tick) (s : ExitState)
    (hrun : runSteps (step config) s₀ ticks = .ok s) :
    (0 < s.remainingBps → unfiredBps config s ≤ s.remainingBps ∧ 1 ≤ s.remainingBps) ∧
    ∀ tick d, onTick config s tick = .ok d →
      (d.reason = .takeProfit → ∃ rungIdx, FiresRung config s tick d rungIdx) ∧
      ∀ rungIdx, FiresRung config s tick d rungIdx →
        ∀ later s' tick' d', runSteps (step config) d.nextState later = .ok s' →
          onTick config s' tick' = .ok d' → ¬ FiresRung config s' tick' d' rungIdx := by
  obtain ⟨h, hcovers, -⟩ := run_covers (ExitState.atEntry_eq_ok hentry).1 (atEntry_covers hentry)
    hrun
  refine ⟨fun hopen => ⟨hcovers hopen, hopen⟩, fun tick d hd => ⟨fun hreason => ?_, ?_⟩⟩
  · obtain ⟨rungIdx, hfires, -⟩ := onTick_takeProfit h hcovers hd hreason
    exact ⟨rungIdx, hfires⟩
  · intro rungIdx hfires later s' tick' d' hlater hd' hagain
    have hstep : step config s tick = .ok d.nextState := by
      rw [step, hd]
      rfl
    obtain ⟨h', hcovers', hkept⟩ := run_covers (step_wellFormed h hstep)
      (step_covers h hcovers hstep) hlater
    have hfired : rungIdx ∈ d.nextState.firedRungs := by
      rw [(onTick_firesRung h hcovers hd hfires).2]
      exact Finset.mem_insert_self _ _
    exact (onTick_firesRung h' hcovers' hd' hagain).1 (hkept hfired)

/-- From an entry at 100, a jump to 320 fires a rung of `secure_balanced`. -/
theorem take_profit_accounting_sample :
    ∃ s₀ s d, ExitState.atEntry "M" 100 secureBalancedConfig = .ok s₀ ∧
      runSteps (step secureBalancedConfig) s₀ [⟨140, 1, false, false, false, false, none⟩] = .ok s ∧
      unfiredBps secureBalancedConfig s ≤ s.remainingBps ∧
      onTick secureBalancedConfig s ⟨320, 2, false, false, false, false, none⟩ = .ok d ∧
      ∃ rungIdx, FiresRung secureBalancedConfig s ⟨320, 2, false, false, false, false, none⟩ d
        rungIdx := by
  obtain ⟨p, hp, hs⟩ := exists_ok_of_any
    (x := do
      let s₀ ← ExitState.atEntry "M" 100 secureBalancedConfig
      let s ← runSteps (step secureBalancedConfig) s₀ [⟨140, 1, false, false, false, false, none⟩]
      let d ← onTick secureBalancedConfig s ⟨320, 2, false, false, false, false, none⟩
      return (s, d))
    (p := fun p => decide (0 < p.1.remainingBps ∧ p.2.reason = .takeProfit)) (by decide +kernel)
  obtain ⟨s₀, hentry, hp⟩ := ok_of_bind hp
  obtain ⟨s, hrun, hp⟩ := ok_of_bind hp
  obtain ⟨d, hd, hp⟩ := ok_of_bind hp
  obtain rfl := Except.ok.inj hp
  obtain ⟨hopen, hreason⟩ := of_decide_eq_true hs
  obtain ⟨hcovers, hticks⟩ := take_profit_accounting secureBalancedConfig "M" 100 s₀ hentry _ s hrun
  exact ⟨s₀, s, d, hentry, hrun, (hcovers hopen).1, hd, (hticks _ d hd).1 hreason⟩

end Exit
end AatsSniper

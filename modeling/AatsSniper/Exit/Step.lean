/-
# What one tick does

`onTick` on a state that passed `__post_init__` raises only where its arguments
are refused, and then does one of four things (`onTick_cases`): nothing, if the
position is flat; a full secure exit; a scale-out; a hold.  The last three leave
the state `advanced`, up to the share of the position that is left.

The facts about the engine are derived from these two lemmas; nothing below
unfolds `onTick`.
-/

import AatsSniper.Exit.Engine
import AatsSniper.Lib.Run

namespace AatsSniper
namespace Exit

/-- What `ExitState.__post_init__` checks. -/
structure ExitState.WellFormed (s : ExitState) : Prop where
  entry : 0 < s.entryFillPrice
  remaining : 0 ≤ s.remainingBps ∧ s.remainingBps ≤ 10000
  mint : s.stop.mint = s.mint
  steps : 0 ≤ s.stepsHeld
  floor : 0 ≤ s.lockedFloorR
  entryTime : -1 ≤ s.entryBlockTimeMs
  activeTime : -1 ≤ s.lastActiveBlockTimeMs

namespace ExitState

theorem WellFormed.postInit {s : ExitState} (h : s.WellFormed) : s.postInit = .ok () := by
  unfold ExitState.postInit
  rw [require_bind h.entry, require_bind h.remaining, require_bind h.mint, require_bind h.steps,
    require_bind h.floor, require_bind h.entryTime]
  exact require_eq_ok.2 h.activeTime

/-- `_replace` accepts a well-formed state that does not grow and does not loosen. -/
theorem replace_eq_ok {s s' : ExitState} (h : s'.WellFormed) (hremaining : s'.remainingBps ≤ s.remainingBps)
    (hfloor : s.lockedFloorR ≤ s'.lockedFloorR) : s.replace s' = .ok s' := by
  unfold replace
  rw [require_bind hremaining, require_bind hfloor, h.postInit]
  rfl

/-- The state at entry. -/
theorem atEntry_eq_ok {mint : String} {entry : ℚ} {config : ExitConfig} {s : ExitState}
    (h : atEntry mint entry config = .ok s) :
    s.WellFormed ∧ ∃ stop, s = { mint := mint, entryFillPrice := entry, stop := stop } := by
  unfold atEntry at h
  obtain ⟨thresholds, -, h⟩ := ok_of_bind h
  obtain ⟨stop, -, h⟩ := ok_of_bind h
  obtain ⟨_, hpost, h⟩ := ok_of_bind h
  obtain rfl := Except.ok.inj h
  refine ⟨?_, stop, rfl⟩
  unfold postInit at hpost
  obtain ⟨hentry, hpost⟩ := ok_of_require hpost
  obtain ⟨hremaining, hpost⟩ := ok_of_require hpost
  obtain ⟨hmint, hpost⟩ := ok_of_require hpost
  exact ⟨hentry, hremaining, hmint, le_rfl, le_rfl, le_rfl, le_rfl⟩

end ExitState

section Step

variable (config : ExitConfig)

theorem le_ratchetLoop_floor (peakR : ℚ) : ∀ (ladder : List RatchetRung) (idx : ℕ) (floor : ℚ)
    (engaged : Finset ℕ), floor ≤ (ratchetLoop peakR ladder idx floor engaged).1
  | [], _, _, _ => le_rfl
  | rung :: rest, idx, floor, engaged => by
      unfold ratchetLoop
      split_ifs with hat hlock
      · exact hlock.le.trans (le_ratchetLoop_floor peakR rest _ _ _)
      · exact le_ratchetLoop_floor peakR rest _ _ _
      · exact le_ratchetLoop_floor peakR rest _ _ _

/-- `advancePeak`, where it does not raise. -/
def peaked (s : ExitState) (r : ℚ) : ExitState :=
  { s with peakR := max s.peakR r, stepsHeld := s.stepsHeld + 1 }

/-- `advanceArm`, where it does not raise. -/
def rearmed (s : ExitState) (r : ℚ) : ExitState :=
  { s with armed := s.armed || decide (config.trailArmR ≤ r) }

/-- `advanceRatchet`, where it does not raise. -/
def ratcheted (s : ExitState) : ExitState :=
  let engaged := ratchetLoop s.peakR config.ratchetLadder 0 s.lockedFloorR s.firedRatchetRungs
  { s with lockedFloorR := engaged.1, firedRatchetRungs := engaged.2 }

/-- The tick resets the flat clock: it is the first, or its mark is out of the band. -/
def Moves (s : ExitState) (r : ℚ) : Prop :=
  s.entryBlockTimeMs < 0 ∨ (config.timeStopFlatBandBps : ℚ) < |r - 1| * 10000

instance (s : ExitState) (r : ℚ) : Decidable (Moves config s r) :=
  inferInstanceAs (Decidable (_ ∨ _))

/-- `advanceFlatClock`, where it does not raise. -/
def clocked (s : ExitState) (r : ℚ) (blockTimeMs : ℤ) : ExitState :=
  { s with
    entryBlockTimeMs := if s.entryBlockTimeMs < 0 then blockTimeMs else s.entryBlockTimeMs
    lastActiveBlockTimeMs :=
      if Moves config s r then blockTimeMs else s.lastActiveBlockTimeMs }

/-- The state the branches are decided on. -/
def advanced (s : ExitState) (r : ℚ) (blockTimeMs : ℤ) : ExitState :=
  clocked config (ratcheted config (rearmed config (peaked s r) r)) r blockTimeMs

variable {config} {s : ExitState} {r : ℚ} {blockTimeMs : ℤ}

theorem advanced_entryFillPrice :
    (advanced config s r blockTimeMs).entryFillPrice = s.entryFillPrice := by
  simp only [advanced, clocked, ratcheted, rearmed, peaked]

theorem peaked_wellFormed (h : s.WellFormed) : (peaked s r).WellFormed :=
  ⟨h.entry, h.remaining, h.mint, by have := h.steps; simp only [peaked]; omega, h.floor,
    h.entryTime, h.activeTime⟩

theorem rearmed_wellFormed (h : s.WellFormed) : (rearmed config s r).WellFormed :=
  ⟨h.entry, h.remaining, h.mint, h.steps, h.floor, h.entryTime, h.activeTime⟩

theorem ratcheted_wellFormed (h : s.WellFormed) : (ratcheted config s).WellFormed :=
  ⟨h.entry, h.remaining, h.mint, h.steps, h.floor.trans (le_ratchetLoop_floor _ _ _ _ _),
    h.entryTime, h.activeTime⟩

theorem clocked_wellFormed (h : s.WellFormed) (htime : 0 ≤ blockTimeMs) :
    (clocked config s r blockTimeMs).WellFormed := by
  have hentry := h.entryTime
  have hactive := h.activeTime
  refine ⟨h.entry, h.remaining, h.mint, h.steps, h.floor, ?_, ?_⟩
  · unfold clocked
    dsimp only
    split_ifs <;> omega
  · unfold clocked
    dsimp only
    split_ifs <;> omega

theorem advanced_wellFormed (h : s.WellFormed) (htime : 0 ≤ blockTimeMs) :
    (advanced config s r blockTimeMs).WellFormed :=
  clocked_wellFormed (ratcheted_wellFormed (rearmed_wellFormed (peaked_wellFormed h))) htime

theorem advancePeak_eq_ok (h : s.WellFormed) : advancePeak s r = .ok (peaked s r) := by
  unfold advancePeak
  rw [← max_def_lt]
  exact ExitState.replace_eq_ok (peaked_wellFormed h) le_rfl le_rfl

theorem advanceArm_eq_ok (h : s.WellFormed) : advanceArm config s r = .ok (rearmed config s r) := by
  unfold advanceArm
  split_ifs with harm
  · have heq : rearmed config s r = { s with armed := true } := by simp [rearmed, harm.2]
    rw [← heq]
    exact ExitState.replace_eq_ok (rearmed_wellFormed h) le_rfl le_rfl
  · have heq : (s.armed || decide (config.trailArmR ≤ r)) = s.armed := by
      cases harmed : s.armed with
      | true => rfl
      | false => exact decide_eq_false fun hreached => harm ⟨harmed, hreached⟩
    rw [rearmed, heq]

theorem advanceRatchet_eq_ok (h : s.WellFormed) :
    advanceRatchet config s = .ok (ratcheted config s) := by
  unfold advanceRatchet
  dsimp only
  split_ifs with hempty hsame
  · rw [ratcheted, hempty]
    rfl
  · rw [ratcheted, hsame.1, hsame.2]
  · exact ExitState.replace_eq_ok (ratcheted_wellFormed h) le_rfl (le_ratchetLoop_floor _ _ _ _ _)

theorem advanceFlatClock_eq_ok (h : s.WellFormed) (htime : 0 ≤ blockTimeMs) :
    advanceFlatClock config s r blockTimeMs = .ok (clocked config s r blockTimeMs) := by
  have hwell : (clocked config s r blockTimeMs).WellFormed := clocked_wellFormed h htime
  unfold advanceFlatClock
  split_ifs with hfirst hmove
  · have heq : clocked config s r blockTimeMs =
        { s with entryBlockTimeMs := blockTimeMs, lastActiveBlockTimeMs := blockTimeMs } := by
      simp [clocked, Moves, hfirst]
    rw [← heq]
    exact ExitState.replace_eq_ok hwell le_rfl le_rfl
  · have heq : clocked config s r blockTimeMs = { s with lastActiveBlockTimeMs := blockTimeMs } := by
      simp [clocked, Moves, hfirst, hmove]
    rw [← heq]
    exact ExitState.replace_eq_ok hwell le_rfl le_rfl
  · have heq : clocked config s r blockTimeMs = s := by
      simp [clocked, Moves, hfirst, hmove]
    rw [heq]

/-- **Advancing never raises.** -/
theorem advance_eq_ok (h : s.WellFormed) (htime : 0 ≤ blockTimeMs) :
    advance config s r blockTimeMs = .ok (advanced config s r blockTimeMs) := by
  have h₁ : (peaked s r).WellFormed := peaked_wellFormed h
  have h₂ : (rearmed config (peaked s r) r).WellFormed := rearmed_wellFormed h₁
  have h₃ : (ratcheted config (rearmed config (peaked s r) r)).WellFormed := ratcheted_wellFormed h₂
  unfold advance
  rw [advancePeak_eq_ok h]
  change (advanceArm config (peaked s r) r >>= _) = _
  rw [advanceArm_eq_ok h₁]
  change (advanceRatchet config (rearmed config (peaked s r) r) >>= _) = _
  rw [advanceRatchet_eq_ok h₂]
  exact advanceFlatClock_eq_ok h₃ htime

/-- A full exit, routed secure. -/
def exitDecision (s : ExitState) (blockTimeMs : ℤ) (reason : ExitReason) (detail : Detail) :
    ExitDecision where
  reason := reason
  intent := some (.exit (.forced reason s.mint blockTimeMs) s.mint 10000 .secure detail)
  nextState := { s with remainingBps := 0 }
  fractionBps := 10000
  exitMode := some .secure

/-- What a scale-out at a rung leaves of the position. -/
def remainingAfter (remainingBps fractionBps : ℤ) : ℤ :=
  remainingBps - remainingBps * min fractionBps remainingBps / 10000

variable (config) in
/-- A scale-out at a rung. -/
def scaleOutDecision (s : ExitState) (blockTimeMs : ℤ) (rungIdx : ℕ) (rung : TpRung) :
    ExitDecision where
  reason := .takeProfit
  intent := some (.reduce (.tp s.mint blockTimeMs rung.triggerR) s.mint
    (min rung.fractionBps s.remainingBps)
    (.takeProfit rung.triggerR (min rung.fractionBps s.remainingBps) config.defaultExitMode false))
  nextState :=
    { s with
      remainingBps := remainingAfter s.remainingBps rung.fractionBps
      firedRungs := insert rungIdx s.firedRungs }
  fractionBps := min rung.fractionBps s.remainingBps
  exitMode := some config.defaultExitMode

/-- A rung takes a part of an open position and leaves a part. -/
theorem remainingAfter_range {remainingBps : ℤ} (hopen : 0 < remainingBps) (rung : TpRung) :
    0 < remainingAfter remainingBps rung.fractionBps ∧
      remainingAfter remainingBps rung.fractionBps ≤ remainingBps := by
  obtain ⟨hlo, hhi⟩ := rung.fraction_range
  have hmin : 0 ≤ min rung.fractionBps remainingBps := by omega
  have hle : remainingBps * min rung.fractionBps remainingBps ≤ remainingBps * 9999 :=
    Int.mul_le_mul_of_nonneg_left (by omega) hopen.le
  have hnonneg : 0 ≤ remainingBps * min rung.fractionBps remainingBps :=
    Int.mul_nonneg hopen.le hmin
  unfold remainingAfter
  omega

theorem fullExit_eq_ok (h : s.WellFormed) (reason : ExitReason) (detail : Detail) :
    fullExit s blockTimeMs reason detail = .ok (exitDecision s blockTimeMs reason detail) := by
  have hreplace : s.replace { s with remainingBps := 0 } = .ok { s with remainingBps := 0 } :=
    ExitState.replace_eq_ok ⟨h.entry, by simp, h.mint, h.steps, h.floor, h.entryTime, h.activeTime⟩
      h.remaining.1 le_rfl
  unfold fullExit Intent.newExit
  rw [require_bind (by omega), hreplace]
  rfl

theorem scaleOut_eq_ok (h : s.WellFormed) (hopen : 0 < s.remainingBps) (rungIdx : ℕ)
    (rung : TpRung) :
    scaleOut config s blockTimeMs rungIdx rung =
      .ok (scaleOutDecision config s blockTimeMs rungIdx rung) := by
  obtain ⟨hpos, hle⟩ := remainingAfter_range hopen rung
  obtain ⟨hlo, hhi⟩ := rung.fraction_range
  have hremaining := h.remaining
  have hreplace : s.replace { s with
      remainingBps := remainingAfter s.remainingBps rung.fractionBps
      firedRungs := insert rungIdx s.firedRungs } =
      .ok (scaleOutDecision config s blockTimeMs rungIdx rung).nextState :=
    ExitState.replace_eq_ok ⟨h.entry, by dsimp only; omega, h.mint, h.steps, h.floor, h.entryTime,
      h.activeTime⟩ hle le_rfl
  unfold remainingAfter at hreplace hpos
  unfold scaleOut Intent.newReduce
  dsimp only
  rw [hreplace]
  simp only [bind, Except.bind]
  rw [if_neg (by omega), require, if_pos (by omega)]
  rfl

theorem newExit_eq_ok {id : ClientIntentId} {mint : String} {fractionBps : ℤ} {mode : MevExitMode}
    {detail : Detail} {intent : Intent}
    (h : Intent.newExit id mint fractionBps mode detail = .ok intent) :
    intent = .exit id mint fractionBps mode detail := by
  unfold Intent.newExit at h
  obtain ⟨-, h⟩ := ok_of_require h
  exact (Except.ok.inj h).symm

theorem newReduce_eq_ok {id : ClientIntentId} {mint : String} {fractionBps : ℤ} {detail : Detail}
    {intent : Intent} (h : Intent.newReduce id mint fractionBps detail = .ok intent) :
    intent = .reduce id mint fractionBps detail := by
  unfold Intent.newReduce at h
  obtain ⟨-, h⟩ := ok_of_require h
  exact (Except.ok.inj h).symm

/-- An `ExitIntent` sells everything that is left; what sells less is a `ReduceIntent`. -/
theorem fractionBps_of_exit {tick : Tick} {d : ExitDecision} (hd : onTick config s tick = .ok d)
    {id : ClientIntentId} {mint : String} {fractionBps : ℤ} {mode : MevExitMode} {detail : Detail}
    (hintent : d.intent = some (.exit id mint fractionBps mode detail)) : fractionBps = 10000 := by
  unfold onTick at hd
  obtain ⟨-, hd⟩ := ok_of_require hd
  obtain ⟨-, hd⟩ := ok_of_require hd
  split_ifs at hd
  · obtain rfl := Except.ok.inj hd
    cases hintent
  · obtain ⟨a, -, hd⟩ := ok_of_bind hd
    unfold decideTick at hd
    split at hd
    · unfold fullExit at hd
      obtain ⟨intent, hnew, hd⟩ := ok_of_bind hd
      obtain rfl := newExit_eq_ok hnew
      obtain ⟨_, -, hd⟩ := ok_of_bind hd
      obtain rfl := Except.ok.inj hd
      cases hintent
      rfl
    · split at hd
      · unfold scaleOut at hd
        obtain ⟨_, -, hd⟩ := ok_of_bind hd
        split_ifs at hd
        · obtain ⟨intent, hnew, hd⟩ := ok_of_bind hd
          obtain rfl := newExit_eq_ok hnew
          obtain ⟨_, -, hd⟩ := ok_of_bind hd
          obtain rfl := Except.ok.inj hd
          cases hintent
          rfl
        · obtain ⟨intent, hnew, hd⟩ := ok_of_bind hd
          obtain rfl := newReduce_eq_ok hnew
          obtain rfl := Except.ok.inj hd
          cases hintent
      · obtain rfl := Except.ok.inj hd
        cases hintent

/-- **What a tick does.**  From a state that passed `__post_init__`: the arguments
were accepted, and a flat position holds; an open one is advanced and then exited,
scaled out or held. -/
theorem onTick_cases (h : s.WellFormed) {tick : Tick} {d : ExitDecision}
    (hd : onTick config s tick = .ok d) :
    let a := advanced config s (s.realizedR tick.markPrice) tick.blockTimeMs
    0 ≤ tick.blockTimeMs ∧
      ((s.remainingBps = 0 ∧ d = hold s) ∨
        (0 < s.remainingBps ∧
          ((∃ reason detail, forcedExit config a (s.realizedR tick.markPrice) tick =
              some (reason, detail) ∧ d = exitDecision a tick.blockTimeMs reason detail) ∨
            (forcedExit config a (s.realizedR tick.markPrice) tick = none ∧
              ((∃ rungIdx rung, highestHitRung config a (s.realizedR tick.markPrice) =
                  some (rungIdx, rung) ∧
                  d = scaleOutDecision config a tick.blockTimeMs rungIdx rung) ∨
                d = hold a))))) := by
  intro a
  unfold onTick at hd
  obtain ⟨htime, hd⟩ := ok_of_require hd
  obtain ⟨-, hd⟩ := ok_of_require hd
  refine ⟨htime, ?_⟩
  split_ifs at hd with hflat
  · exact .inl ⟨le_antisymm hflat h.remaining.1, (Except.ok.inj hd).symm⟩
  · have hopen : 0 < s.remainingBps := not_le.1 hflat
    have ha : a.WellFormed := advanced_wellFormed h htime
    refine .inr ⟨hopen, ?_⟩
    dsimp only at hd
    rw [advance_eq_ok h htime] at hd
    change decideTick config a (s.realizedR tick.markPrice) tick = .ok d at hd
    unfold decideTick at hd
    cases hforced : forcedExit config a (s.realizedR tick.markPrice) tick with
    | some forced =>
        rw [hforced] at hd
        dsimp only at hd
        rw [fullExit_eq_ok ha] at hd
        exact .inl ⟨forced.1, forced.2, rfl, (Except.ok.inj hd).symm⟩
    | none =>
        rw [hforced] at hd
        dsimp only at hd
        refine .inr ⟨rfl, ?_⟩
        cases hhit : highestHitRung config a (s.realizedR tick.markPrice) with
        | some hit =>
            rw [hhit] at hd
            dsimp only at hd
            rw [scaleOut_eq_ok ha hopen] at hd
            exact .inl ⟨hit.1, hit.2, rfl, (Except.ok.inj hd).symm⟩
        | none =>
            rw [hhit] at hd
            exact .inr (Except.ok.inj hd).symm

/-- A tick whose arguments are accepted returns. -/
theorem onTick_returns (h : s.WellFormed) {tick : Tick} (htime : 0 ≤ tick.blockTimeMs)
    (hscore : ∀ score ∈ tick.narrativeScore, 0 ≤ score ∧ score ≤ 1) :
    ∃ d, onTick config s tick = .ok d := by
  unfold onTick
  rw [require_bind htime, require_bind hscore]
  split_ifs with hflat
  · exact ⟨_, rfl⟩
  · have ha : (advanced config s (s.realizedR tick.markPrice) tick.blockTimeMs).WellFormed :=
      advanced_wellFormed h htime
    dsimp only
    rw [advance_eq_ok h htime]
    change ∃ d, decideTick config _ _ tick = .ok d
    unfold decideTick
    split
    · exact ⟨_, fullExit_eq_ok ha _ _⟩
    · split
      · exact ⟨_, scaleOut_eq_ok ha (not_le.1 hflat) _ _⟩
      · exact ⟨_, rfl⟩

theorem step_eq_ok {tick : Tick} {s' : ExitState} (h : step config s tick = .ok s') :
    ∃ d, onTick config s tick = .ok d ∧ d.nextState = s' := by
  unfold step at h
  cases hd : onTick config s tick with
  | error e => simp [hd, Except.map] at h
  | ok d => exact ⟨d, rfl, by simpa [hd, Except.map] using h⟩

/-- A decision leaves a state that passes `__post_init__`. -/
theorem onTick_wellFormed (h : s.WellFormed) {tick : Tick} {d : ExitDecision}
    (hd : onTick config s tick = .ok d) : d.nextState.WellFormed := by
  obtain ⟨htime, ⟨-, rfl⟩ | ⟨hopen, hcase⟩⟩ := onTick_cases h hd
  · exact h
  · have ha : (advanced config s (s.realizedR tick.markPrice) tick.blockTimeMs).WellFormed :=
      advanced_wellFormed h htime
    rcases hcase with ⟨reason, detail, -, rfl⟩ | ⟨-, ⟨rungIdx, rung, -, rfl⟩ | rfl⟩
    · exact ⟨ha.entry, by simp [exitDecision], ha.mint, ha.steps, ha.floor, ha.entryTime,
        ha.activeTime⟩
    · obtain ⟨hpos, hle⟩ := remainingAfter_range hopen rung
      have hremaining := h.remaining
      exact ⟨ha.entry, ⟨hpos.le, hle.trans hremaining.2⟩, ha.mint, ha.steps, ha.floor,
        ha.entryTime, ha.activeTime⟩
    · exact ha

/-- So does a tick. -/
theorem step_wellFormed (h : s.WellFormed) {tick : Tick} {s' : ExitState}
    (hstep : step config s tick = .ok s') : s'.WellFormed := by
  obtain ⟨d, hd, rfl⟩ := step_eq_ok hstep
  exact onTick_wellFormed h hd

/-- Every state of a run passed `__post_init__`. -/
theorem run_wellFormed {s₀ : ExitState} (h₀ : s₀.WellFormed) {ticks : List Tick}
    (hrun : runSteps (step config) s₀ ticks = .ok s) : s.WellFormed :=
  runSteps_invariant h₀ (fun _ _ _ h hstep => step_wellFormed h hstep) hrun

/-- The entry price and the hard stop are the ones of the entry. -/
structure ExitState.SameEntry (s s' : ExitState) : Prop where
  entryFillPrice : s'.entryFillPrice = s.entryFillPrice
  stop : s'.stop = s.stop

namespace ExitState.SameEntry

variable {s' s'' : ExitState}

theorem refl (s : ExitState) : s.SameEntry s := ⟨rfl, rfl⟩

theorem trans (h : s.SameEntry s') (h' : s'.SameEntry s'') : s.SameEntry s'' :=
  ⟨h'.entryFillPrice.trans h.entryFillPrice, h'.stop.trans h.stop⟩

theorem of_replace {t : ExitState} (h : s.replace t = .ok s') (ht : s.SameEntry t) :
    s.SameEntry s' := by
  unfold ExitState.replace at h
  obtain ⟨-, h⟩ := ok_of_require h
  obtain ⟨-, h⟩ := ok_of_require h
  obtain ⟨-, -, h⟩ := ok_of_bind h
  obtain rfl := Except.ok.inj h
  exact ht

end ExitState.SameEntry

theorem advance_sameEntry {r : ℚ} {blockTimeMs : ℤ} {s' : ExitState}
    (h : advance config s r blockTimeMs = .ok s') : s.SameEntry s' := by
  unfold advance at h
  obtain ⟨peak, hpeak, h⟩ := ok_of_bind h
  obtain ⟨armed, harm, h⟩ := ok_of_bind h
  obtain ⟨engaged, hratchet, h⟩ := ok_of_bind h
  have hpeak' : s.SameEntry peak := .of_replace hpeak ⟨rfl, rfl⟩
  have harm' : peak.SameEntry armed := by
    unfold advanceArm at harm
    split_ifs at harm
    · exact .of_replace harm ⟨rfl, rfl⟩
    · obtain rfl := Except.ok.inj harm
      exact .refl _
  have hratchet' : armed.SameEntry engaged := by
    unfold advanceRatchet at hratchet
    dsimp only at hratchet
    split_ifs at hratchet
    · obtain rfl := Except.ok.inj hratchet
      exact .refl _
    · obtain rfl := Except.ok.inj hratchet
      exact .refl _
    · exact .of_replace hratchet ⟨rfl, rfl⟩
  have hclock : engaged.SameEntry s' := by
    unfold advanceFlatClock at h
    split_ifs at h
    · exact .of_replace h ⟨rfl, rfl⟩
    · exact .of_replace h ⟨rfl, rfl⟩
    · obtain rfl := Except.ok.inj h
      exact .refl _
  exact ((hpeak'.trans harm').trans hratchet').trans hclock

/-- **A tick keeps the entry price and the hard stop.** -/
theorem onTick_sameEntry {tick : Tick} {d : ExitDecision} (h : onTick config s tick = .ok d) :
    s.SameEntry d.nextState := by
  unfold onTick at h
  obtain ⟨-, h⟩ := ok_of_require h
  obtain ⟨-, h⟩ := ok_of_require h
  split_ifs at h
  · obtain rfl := Except.ok.inj h
    exact .refl s
  · obtain ⟨stepped, hstepped, h⟩ := ok_of_bind h
    refine (advance_sameEntry hstepped).trans ?_
    unfold decideTick at h
    split at h
    · unfold fullExit at h
      obtain ⟨_, -, h⟩ := ok_of_bind h
      obtain ⟨next, hnext, h⟩ := ok_of_bind h
      obtain rfl := Except.ok.inj h
      exact .of_replace hnext ⟨rfl, rfl⟩
    · split at h
      · unfold scaleOut at h
        dsimp only at h
        obtain ⟨next, hnext, h⟩ := ok_of_bind h
        split_ifs at h
        · obtain ⟨_, -, h⟩ := ok_of_bind h
          obtain ⟨next', hnext', h⟩ := ok_of_bind h
          obtain rfl := Except.ok.inj h
          exact .of_replace hnext' ⟨rfl, rfl⟩
        · obtain ⟨_, -, h⟩ := ok_of_bind h
          obtain rfl := Except.ok.inj h
          exact .of_replace hnext ⟨rfl, rfl⟩
      · obtain rfl := Except.ok.inj h
        exact .refl stepped

end Step

end Exit
end AatsSniper

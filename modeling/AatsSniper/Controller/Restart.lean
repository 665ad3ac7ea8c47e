/-
# What a restart keeps

A new `FastLoop` over the old store enters every open position anew: `_sync_registry` makes
its exit state from an entry price that it estimates from the stored position, and arms no
stop.  What the engine had ratcheted, trailed and sold is not in the store.

`restart_keeps_protection_iff` says when nothing is lost by that.  Where a rung had fired
it can fire again, as the new state can go through all that the old one went through
(`refires`).
-/

import AatsSniper.Controller.Holding
import AatsSniper.Controller.MidTick
import AatsSniper.Exit.Floor
import AatsSniper.Exit.Scale

namespace AatsSniper
namespace Controller

open Breaker (CircuitBreaker)
open Exit (ExitConfig ExitState FiresRung protectiveFloor)

variable {c c' : FastLoop} {pos q : Position} {m mint : String}

/-- A state that the engine comes to from an entry. -/
def Engaged (config : ExitConfig) (mint : String) (s : ExitState) : Prop :=
  ∃ entry s₀ ticks, ExitState.atEntry mint entry config = .ok s₀ ∧
    runSteps (Exit.step config) s₀ ticks = .ok s

theorem engaged_atEntry {config : ExitConfig} {entry : ℚ} {s : ExitState}
    (h : ExitState.atEntry mint entry config = .ok s) : Engaged config mint s :=
  ⟨entry, s, [], h, rfl⟩

theorem Engaged.tick {config : ExitConfig} {s : ExitState} {tick : Exit.Tick}
    {decision : Exit.ExitDecision} (h : Engaged config mint s)
    (hd : Exit.onTick config s tick = .ok decision) : Engaged config mint decision.nextState := by
  obtain ⟨entry, s₀, ticks, hentry, hrun⟩ := h
  refine ⟨entry, s₀, ticks ++ [tick], hentry, ?_⟩
  rw [runSteps_snoc, hrun]
  show Exit.step config s tick = _
  unfold Exit.step
  rw [hd]
  rfl

/-- The exit state of a mint, if it has one, is such a state. -/
def Holding.Engaged (config : ExitConfig) (mint : String) (v : Holding) : Prop :=
  ∀ s, v.exitState = some s → Controller.Engaged config mint s

theorem engaged_of_none {config : ExitConfig} {v : Holding} (h : v.exitState = none) :
    v.Engaged config mint := by
  intro s hs
  rw [h] at hs
  cases hs

section Moves

variable {cfg : FastConfig} {v v' : Holding} {t : Touch}

theorem adoptedState_engaged (hv : v.Engaged cfg.exitConfig m) {p : Position} {s : ExitState}
    (h : v.adoptedState cfg m p = some s) : Engaged cfg.exitConfig m s := by
  unfold Holding.adoptedState at h
  split_ifs at h
  · split at h
    · exact hv s h
    · rename_i s' hentry
      obtain rfl := Option.some.inj h
      exact engaged_atEntry hentry
  · exact hv s h

theorem tracked_engaged (hv : v.Engaged cfg.exitConfig m) (q : Position) (fill : FillResult) :
    (v.tracked cfg m q fill).Engaged cfg.exitConfig m := by
  unfold Holding.tracked
  split
  · exact hv
  · split
    · exact hv
    · rename_i s hentry
      have hs : ∀ s', some s = some s' → Engaged cfg.exitConfig m s' := by
        intro s' hs'
        obtain rfl := Option.some.inj hs'
        exact engaged_atEntry hentry
      split
      · exact hs
      · exact hs

/-- The engine and the entries make all exit states. -/
theorem HoldingMove.engaged (h : HoldingMove cfg m t v v') (hv : v.Engaged cfg.exitConfig m) :
    v'.Engaged cfg.exitConfig m := by
  cases h with
  | adopt _ _ => exact fun s hs => adoptedState_engaged hv hs
  | drop _ => exact engaged_of_none rfl
  | step _ _ hstate hdecision =>
      intro s hs
      obtain rfl := Option.some.inj hs
      exact (hv _ hstate).tick hdecision
  | value _ _ _ => exact hv
  | scaleOut _ _ => exact hv
  | exit _ => exact engaged_of_none rfl
  | disarm _ => exact hv
  | closing _ _ => exact hv
  | closed _ _ => exact hv
  | abandon _ _ _ => exact hv
  | fail _ _ _ => exact engaged_of_none rfl
  | fill _ _ _ _ _ => exact tracked_engaged (v := v.saved _) hv _ _
  | reboot _ => exact engaged_of_none rfl
  | vanish _ => exact hv
  | enter _ => exact hv
  | blown _ => exact hv

theorem HoldingMoves.engaged {T : Touch → Holding → Prop} (h : HoldingMoves cfg m T v v')
    (hv : v.Engaged cfg.exitConfig m) : v'.Engaged cfg.exitConfig m :=
  h.invariant hv fun _ _ _ hv _ hmove => hmove.engaged hv

end Moves

section Runs

variable {E : Type} (cfg : ControllerConfig E)

/-- The states of a run in which the process can stop: after a call, or in a tick between two
turns. -/
inductive StopsIn (c₀ : FastLoop) : FastLoop → Prop
  | afterCall {ops : List (ControllerOp E)} {c : FastLoop}
      (hrun : runSteps (step cfg) c₀ ops = .ok c) : StopsIn c₀ c
  | inTick {ops : List (ControllerOp E)} {c : FastLoop} {input : TickInput} {mints : List String}
      {s : FastLoop.Ticking} (hrun : runSteps (step cfg) c₀ ops = .ok c)
      (hmints : mints <+: (c.synced cfg.fast).fsmRegistry.rows.map Position.mint)
      (hturns : runLeaving (FastLoop.turn cfg.fast input) ⟨c.synced cfg.fast, []⟩ mints = (.ok (), s)) :
      StopsIn c₀ s.loop

variable {cfg}

theorem engaged_of_run {c₀ : FastLoop} {ops : List (ControllerOp E)}
    (hrun : runSteps (step cfg) c₀.reboot ops = .ok c) :
    (c.holding m).Engaged cfg.fast.exitConfig m := by
  refine runSteps_invariant (P := fun c : FastLoop => (c.holding m).Engaged cfg.fast.exitConfig m)
    ?_ ?_ hrun
  · rw [holding_reboot]
    exact engaged_of_none rfl
  intro c op c' hc hstep
  obtain rfl := Except.ok.inj hstep
  exact (next_holdings cfg c op m).engaged hc

/-- Wherever the process stops, the engine has come to the exit states from their entries. -/
theorem StopsIn.engaged {c₀ : FastLoop} (h : StopsIn cfg c₀.reboot c) :
    (c.holding m).Engaged cfg.fast.exitConfig m := by
  cases h with
  | afterCall hrun => exact engaged_of_run hrun
  | @inTick ops c input mints s hrun _ hturns =>
      have hsynced : HoldingMoves cfg.fast m (fun _ _ => True) (c.holding m)
          ((c.synced cfg.fast).holding m) := syncRegistry_holdings (fun _ => trivial) c m
      have hloop : ((runLeaving (FastLoop.turn cfg.fast input) ⟨c.synced cfg.fast, []⟩
          mints).2.loop.holding m).Engaged cfg.fast.exitConfig m := by
        refine runLeaving_invariant (P := fun s : FastLoop.Ticking =>
          (s.loop.holding m).Engaged cfg.fast.exitConfig m) (hsynced.engaged (engaged_of_run hrun)) ?_
        intro s mint _ hs
        have hturn : HoldingMoves cfg.fast m (fun _ _ => True) (s.loop.holding m) _ :=
          turn_holdings cfg.fast input s mint (fun _ _ => ⟨trivial, trivial⟩) fun _ _ => ⟨trivial, trivial⟩
        exact hturn.engaged hs
      rw [hturns] at hloop
      exact hloop

end Runs

section Sync

variable {cfg : FastConfig}

/-- Adopting the positions of other mints. -/
theorem adopt_others {rows : List Position} (hother : ∀ pos ∈ rows, m ≠ pos.mint) (c : FastLoop) :
    (runLeaving (FastLoop.adopt cfg) c rows).2.holding m = c.holding m := by
  refine runLeaving_invariant (P := fun c' : FastLoop => c'.holding m = c.holding m) rfl ?_
  intro c' pos hpos hc'
  by_cases hregistered : (c'.fsmRegistry.get? pos.mint).isSome = true
  · unfold FastLoop.adopt
    rw [if_pos hregistered]
    exact hc'
  · have hnew : c'.fsmRegistry.get? pos.mint = none := by simpa using hregistered
    rw [holding_adopt cfg c' pos m hnew, if_neg (hother pos hpos)]
    exact hc'

/-- An open position that is adopted has been entered at the price estimated for it. -/
theorem adopt_enters (hnew : c.fsmRegistry.get? pos.mint = none)
    (hfresh : c.exitStates pos.mint = none) (hopen : pos.fsmState = .opened)
    (hran : FastLoop.adopt cfg c pos = (.ok (), c')) :
    ∃ s, ExitState.atEntry pos.mint (FastLoop.estimateEntryPrice pos) cfg.exitConfig = .ok s ∧
      c'.exitStates pos.mint = some s := by
  unfold FastLoop.adopt at hran
  rw [hnew, Option.isSome_none, if_neg Bool.false_ne_true, hfresh] at hran
  dsimp only at hran
  rw [if_pos ⟨hopen, rfl⟩] at hran
  split at hran
  · cases hran
  · rename_i s hentry
    obtain ⟨-, rfl⟩ := Prod.mk.inj hran
    exact ⟨s, hentry, Function.update_self _ _ _⟩

/-- **All positions are adopted.** -/
theorem adoptions_enter {rows : List Position} (hdistinct : (rows.map Position.mint).Nodup)
    (hnew : ∀ pos ∈ rows, c.fsmRegistry.get? pos.mint = none ∧ c.exitStates pos.mint = none)
    (hran : runLeaving (FastLoop.adopt cfg) c rows = (.ok (), c')) :
    ∀ pos ∈ rows, pos.fsmState = .opened →
      ∃ s, ExitState.atEntry pos.mint (FastLoop.estimateEntryPrice pos) cfg.exitConfig = .ok s ∧
        c'.exitStates pos.mint = some s := by
  induction rows generalizing c with
  | nil => exact fun pos hpos => absurd hpos List.not_mem_nil
  | cons first rows ih =>
      rw [List.map_cons, List.nodup_cons] at hdistinct
      have hothers : ∀ pos ∈ rows, pos.mint ≠ first.mint := fun pos hpos heq =>
        hdistinct.1 (heq ▸ List.mem_map_of_mem hpos)
      obtain ⟨hfirst, hstate⟩ := hnew first List.mem_cons_self
      rcases hadopt : FastLoop.adopt cfg c first with ⟨e | _, c₁⟩
      · rw [runLeaving_cons_error hadopt] at hran
        cases hran
      · rw [runLeaving_cons_ok hadopt] at hran
        intro pos hpos hopen
        rcases List.mem_cons.1 hpos with rfl | hpos
        · obtain ⟨s, hentry, hs⟩ := adopt_enters hfirst hstate hopen hadopt
          have hkept : (runLeaving (FastLoop.adopt cfg) c₁ rows).2.holding pos.mint =
              c₁.holding pos.mint :=
            adopt_others (fun other hother => (hothers other hother).symm) c₁
          rw [hran] at hkept
          exact ⟨s, hentry, (congrArg Holding.exitState hkept).trans hs⟩
        · refine ih hdistinct.2 (fun other hother => ?_) hran pos hpos hopen
          have hkept := holding_adopt cfg c first other.mint hfirst
          rw [hadopt, if_neg (hothers other hother)] at hkept
          obtain ⟨hother', hstate'⟩ := hnew other (List.mem_cons_of_mem first hother)
          exact ⟨(congrArg Holding.registered hkept).trans hother',
            (congrArg Holding.exitState hkept).trans hstate'⟩

/-- What the store holds is not stale. -/
theorem holding_dropStale_of_ne (stale : List Position) (hother : ∀ q ∈ stale, m ≠ q.mint)
    (c : FastLoop) : (stale.foldl FastLoop.dropStale c).holding m = c.holding m := by
  induction stale generalizing c with
  | nil => rfl
  | cons q stale ih =>
      rw [List.foldl_cons, ih fun p hp => hother p (List.mem_cons_of_mem q hp)]
      have hm := hother q List.mem_cons_self
      exact holding_of_get? rfl (Table.get?_remove_of_ne hm) (Function.update_of_ne hm _ _) rfl

/-- **After a restart** an open position is entered anew, and no stop is armed. -/
theorem restarted (hpos : c.store.positions.get? pos.mint = some pos) (hopen : pos.fsmState = .opened)
    (hsync : (c.reboot.syncRegistry cfg).1 = .ok ()) :
    ∃ s, ExitState.atEntry pos.mint (FastLoop.estimateEntryPrice pos) cfg.exitConfig = .ok s ∧
      (c.reboot.synced cfg).exitStates pos.mint = some s := by
  have hrows : ∀ pos ∈ c.reboot.store.positions.rows, c.reboot.fsmRegistry.get? pos.mint = none ∧
      c.reboot.exitStates pos.mint = none := fun _ _ => ⟨rfl, rfl⟩
  have hstore : (runLeaving (FastLoop.adopt cfg) c.reboot c.reboot.store.positions.rows).2.store =
      c.reboot.store := by
    refine runLeaving_invariant (P := fun c' : FastLoop => c'.store = c.reboot.store) rfl ?_
    intro c' pos hpos hc'
    have hget : c'.store.positions.get? pos.mint = some pos := hc' ▸ get?_of_mem hpos
    exact (adopt_moves cfg hget).2.trans hc'
  unfold FastLoop.synced
  unfold FastLoop.syncRegistry at hsync ⊢
  rcases hran : runLeaving (FastLoop.adopt cfg) c.reboot c.reboot.store.positions.rows with
    ⟨e | _, c₁⟩
  · rw [hran] at hsync
    cases hsync
  · rw [hran] at hstore
    obtain ⟨s, hentry, hs⟩ := adoptions_enter c.reboot.store.positions.distinct hrows hran pos
      (Table.mem_of_get? hpos).1 hopen
    refine ⟨s, hentry, ?_⟩
    have hkept := holding_dropStale_of_ne (m := pos.mint) (c₁.fsmRegistry.rows.filter
      fun q => (c₁.store.loadPosition q.mint).isNone) (fun q hq heq => ?_) c₁
    · exact (congrArg Holding.exitState hkept).trans hs
    · have hnone := Option.isNone_iff_eq_none.1 (List.mem_filter.1 hq).2
      rw [show c₁.store.loadPosition q.mint = c.store.positions.get? q.mint from
        congrArg (fun st => StateStore.loadPosition st q.mint) hstore, ← heq, hpos] at hnone
      cases hnone

theorem restarted_disarmed (c : FastLoop) (m : String) : (c.reboot.synced cfg).stopOf m = none := by
  have hmoves : HoldingMoves cfg m (fun t _ => t = .sync) (c.reboot.holding m)
      ((c.reboot.synced cfg).holding m) := syncRegistry_holdings (fun _ => rfl) c.reboot m
  refine hmoves.invariant (P := fun v => v.stop = none) ?_ ?_
  · rw [holding_reboot]
  · rintro t v v' hv rfl hmove
    cases hmove with
    | adopt _ _ => exact hv
    | drop _ => exact hv

end Sync

/-- The protection of a mint is kept: its floor is not lower, no rung that has fired fires again, and
its stop is armed if the enforcer is wired. -/
structure KeepsProtection (config : ExitConfig) (mint : String) (c c' : FastLoop) : Prop where
  floor : ∀ s, c.exitStates mint = some s →
    ∃ s', c'.exitStates mint = some s' ∧ protectiveFloor config s ≤ protectiveFloor config s'
  rungs : ∀ s s', c.exitStates mint = some s → c'.exitStates mint = some s' →
    ∀ rungIdx ∈ s.firedRungs, ∀ ticks t tick d, runSteps (Exit.step config) s' ticks = .ok t →
      Exit.onTick config t tick = .ok d → ¬ FiresRung config t tick d rungIdx
  armed : c.stops.isSome = true → (c'.stopOf mint).isSome = true

/-- There is nothing to lose: no enforcer is wired, the floor is not above the hard stop of the
estimated entry, and no rung has fired. -/
structure NothingToLose (cfg : FastConfig) (c : FastLoop) (pos : Position) : Prop where
  floor : ∀ s, c.exitStates pos.mint = some s → protectiveFloor cfg.exitConfig s ≤
    cfg.exitConfig.hardStopPrice (FastLoop.estimateEntryPrice pos)
  rungs : ∀ s, c.exitStates pos.mint = some s → s.firedRungs = ∅
  unwired : c.stops = none

/-- At entry the hard stop is the floor. -/
theorem protectiveFloor_atEntry {config : ExitConfig} {entry : ℚ} {s : ExitState}
    (h : ExitState.atEntry mint entry config = .ok s) :
    protectiveFloor config s = config.hardStopPrice entry := by
  have htrigger := Exit.atEntry_trigger h
  obtain ⟨-, stop, rfl⟩ := ExitState.atEntry_eq_ok h
  unfold protectiveFloor
  dsimp only
  rw [if_neg Bool.false_ne_true, zero_mul, max_eq_left stop.trigger_pos.le]
  exact htrigger

/-- **A restart keeps the protection of an open position** iff there is nothing to lose; with an
enforcer there always is. -/
theorem restart_keeps_protection_iff {E : Type} (cfg : ControllerConfig E) (c₀ c : FastLoop)
    (hstops : StopsIn cfg c₀.reboot c) (pos : Position)
    (hpos : c.store.loadPosition pos.mint = some pos) (hopen : pos.fsmState = .opened)
    (hsync : (c.reboot.syncRegistry cfg.fast).1 = .ok ()) :
    KeepsProtection cfg.fast.exitConfig pos.mint c (c.reboot.synced cfg.fast) ↔
      NothingToLose cfg.fast c pos := by
  obtain ⟨s', hentry', hs'⟩ := restarted hpos hopen hsync
  have hfloor' := protectiveFloor_atEntry hentry'
  have hdisarmed : (c.reboot.synced cfg.fast).stopOf pos.mint = none :=
    restarted_disarmed c pos.mint
  constructor
  · intro h
    refine ⟨fun s hs => ?_, fun s hs => ?_, ?_⟩
    · obtain ⟨s'', hs'', hle⟩ := h.floor s hs
      obtain rfl := Option.some.inj (hs'.symm.trans hs'')
      exact hfloor' ▸ hle
    · obtain ⟨entry, s₀, ticks, hentry, hrun⟩ := hstops.engaged s hs
      refine Finset.eq_empty_of_forall_notMem fun rungIdx hfired => ?_
      obtain ⟨ticks', t, tick, d, hrun', hd, hfires⟩ := Exit.refires hentry hentry' hrun hfired
      exact h.rungs s s' hs hs' rungIdx hfired ticks' t tick d hrun' hd hfires
    · cases hwired : c.stops with
      | none => rfl
      | some stops =>
          have harmed := h.armed (by rw [hwired]; rfl)
          rw [hdisarmed] at harmed
          cases harmed
  · intro h
    refine ⟨fun s hs => ⟨s', hs', ?_⟩, fun s _ hs _ rungIdx hfired => ?_, fun hwired => ?_⟩
    · rw [hfloor']
      exact h.floor s hs
    · rw [h.rungs s hs] at hfired
      exact absurd hfired (Finset.notMem_empty rungIdx)
    · rw [h.unwired] at hwired
      cases hwired

/-- A loop over a store that holds an entry. -/
def waiting (stops : Option (String → Option RegisteredStop)) : FastLoop :=
  { FastLoop.start (Breaker.firstBoot []) stops with
    store := StateStore.empty.savePosition (samplePosition "m" .entering) }

/-- The loop once the entry has filled, at the price that is estimated for it. -/
def entered (stops : Option (String → Option RegisteredStop)) : FastLoop :=
  next plainController (waiting stops).reboot (.reconcileFill 100 "m" sampleFill)

theorem restart_keeps_protection_unwired :
    ∃ pos, (entered none).store.loadPosition "m" = some pos ∧ pos.fsmState = .opened ∧
      KeepsProtection plainController.fast.exitConfig "m" (entered none)
        ((entered none).reboot.synced plainController.fast) := by
  have hfound : ((entered none).store.loadPosition "m").any (fun pos => pos.mint = "m" ∧
      pos.fsmState = .opened ∧ FastLoop.estimateEntryPrice pos = 1) = true := by decide +kernel
  obtain ⟨pos, hpos, hmint⟩ := (Option.any_eq_true _ _).1 hfound
  obtain ⟨hmint, hopen, hprice⟩ := of_decide_eq_true hmint
  have hstates : ∀ s, (entered none).exitStates "m" = some s →
      protectiveFloor plainController.fast.exitConfig s ≤
        plainController.fast.exitConfig.hardStopPrice 1 ∧ s.firedRungs = ∅ := by
    intro s hs
    have hall : ((entered none).exitStates "m").all (fun s =>
        protectiveFloor plainController.fast.exitConfig s ≤
          plainController.fast.exitConfig.hardStopPrice 1 ∧ s.firedRungs = ∅) = true := by
      decide +kernel
    rw [hs] at hall
    exact of_decide_eq_true hall
  refine ⟨pos, hpos, hopen, ?_⟩
  have hrun : runSteps (step plainController) (waiting none).reboot
      [.reconcileFill 100 "m" sampleFill] = .ok (entered none) := rfl
  rw [← hmint] at hpos hstates ⊢
  have hwired : (entered none).stops.isSome = false := by decide +kernel
  obtain ⟨_, hsync, -⟩ := exists_ok_of_any
    (x := ((entered none).reboot.syncRegistry plainController.fast).1) (p := fun _ => true)
    (by decide +kernel)
  refine (restart_keeps_protection_iff plainController _ (entered none) (.afterCall hrun) pos hpos hopen
    hsync).2 ⟨fun s hs => ?_, fun s hs => (hstates s hs).2, ?_⟩
  · rw [hprice]
    exact (hstates s hs).1
  · exact Option.isNone_iff_eq_none.1 (Option.isSome_eq_false_iff.1 hwired)

/-- The position peaks at 1.5 and a rung fires; then the process restarts. -/
theorem restart_loses_protection :
    ∃ c s s', runSteps (step plainController) (waiting (some fun _ => none)).reboot
        [.reconcileFill 100 "m" sampleFill, .tick (markedTick (3 / 2))] = .ok c ∧
      c.exitStates "m" = some s ∧ (c.reboot.synced plainController.fast).exitStates "m" = some s' ∧
      protectiveFloor plainController.fast.exitConfig s' <
        protectiveFloor plainController.fast.exitConfig s ∧
      s.firedRungs ≠ ∅ ∧ s'.firedRungs = ∅ ∧ (c.stopOf "m").isSome = true ∧
      ((c.reboot.synced plainController.fast).stopOf "m").isSome = false ∧
      ¬ KeepsProtection plainController.fast.exitConfig "m" c
        (c.reboot.synced plainController.fast) := by
  let c := next plainController (entered (some fun _ => none)) (.tick (markedTick (3 / 2)))
  have hstates : (c.exitStates "m").any (fun s =>
      ((c.reboot.synced plainController.fast).exitStates "m").any fun s' =>
        decide (protectiveFloor plainController.fast.exitConfig s' <
          protectiveFloor plainController.fast.exitConfig s ∧ s.firedRungs ≠ ∅ ∧
          s'.firedRungs = ∅)) = true := by
    decide +kernel
  obtain ⟨s, hs, hstates⟩ := (Option.any_eq_true _ _).1 hstates
  obtain ⟨s', hs', hstates⟩ := (Option.any_eq_true _ _).1 hstates
  obtain ⟨hlower, hfired, hfresh⟩ := of_decide_eq_true hstates
  refine ⟨c, s, s', rfl, hs, hs', hlower, hfired, hfresh, by decide +kernel, by decide +kernel, ?_⟩
  intro hkeeps
  obtain ⟨s'', hs'', hle⟩ := hkeeps.floor s hs
  obtain rfl := Option.some.inj (hs'.symm.trans hs'')
  exact absurd hle (not_le.2 hlower)

end Controller
end AatsSniper

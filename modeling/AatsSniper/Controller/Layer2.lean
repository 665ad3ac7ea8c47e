/-
# What Layer 2 watches

Layer 2 should watch exactly the open positions, at the hard stop of the engine
(`Watches`).  A fill arms the stop and an exit of the tick disarms it, but the flatten
handler does not, an entry over an open position does not, and a restart arms nothing.
The stop is armed with the default thresholds, whatever the configuration of the engine.

`watches_open_positions` says that there is nothing else: the invariant of one mint
(`Watched`) is kept by every move that is none of these.
-/

import AatsSniper.Controller.Restart

namespace AatsSniper
namespace Controller

open Exit (ExitConfig ExitState StopState)

variable {c c' : FastLoop} {pos q : Position} {m mint : String} {fill : FillResult}

/-- The position is open. -/
def Holding.Open (v : Holding) : Prop := ∃ p, v.position = some p ∧ p.fsmState = .opened

/-- The enforcer is wired, and the stop of the mint is armed iff the position is open; then it is
registered and at the hard stop of the engine. -/
structure Watched (v : Holding) : Prop where
  wired : v.wired = true
  armed : v.stop.isSome = true ↔ v.Open
  registered : ∀ p, v.position = some p → p.fsmState = .opened → v.registered = some p
  stored : ∀ q, v.registered = some q → q.fsmState = .opened → v.position = some q
  line : ∀ r, v.stop = some r →
    ∃ s, v.exitState = some s ∧ r.stop.triggerPrice = s.stop.triggerPrice

/-- The stop that a fill arms is the hard stop of the engine: the price of the fill is one, and the
drawdown of the engine the default. -/
def Arms (cfg : FastConfig) (fill : FillResult) : Prop :=
  (∃ price, FastLoop.entryPrice fill = .ok price ∧ 0 < price) ∧
    cfg.exitConfig.stopThresholds = .ok FastLoop.defaultThresholds

/-- The touches that keep a mint watched. -/
def Spared (cfg : FastConfig) : Touch → Holding → Prop
  | .flatten, v => ¬ v.Open
  | .fill fill, _ => Arms cfg fill
  | .reboot, v => ¬ v.Open
  | .enter, v => ¬ v.Open
  | _, _ => True

section Moves

variable {cfg : FastConfig} {v v' : Holding} {t : Touch}

/-- A mint that is not open, before and after. -/
theorem Watched.of_not_open (hwired : v.wired = true) (hopen : ¬ v.Open) (hstop : v.stop = none)
    (hregistered : ∀ q, v.registered = some q → q.fsmState ≠ .opened) : Watched v where
  wired := hwired
  armed := by
    rw [hstop]
    exact ⟨nofun, fun h => absurd h hopen⟩
  registered := fun p hpos hstate => absurd ⟨p, hpos, hstate⟩ hopen
  stored := fun q hq hstate => absurd hstate (hregistered q hq)
  line := fun r hr => by
    rw [hstop] at hr
    cases hr

theorem Watched.stop_of_not_open (h : Watched v) (hopen : ¬ v.Open) : v.stop = none :=
  Option.not_isSome_iff_eq_none.1 fun hsome => hopen (h.armed.1 hsome)

theorem Watched.not_opened (h : Watched v) (hopen : ¬ v.Open) :
    ∀ q, v.registered = some q → q.fsmState ≠ .opened :=
  fun q hq hstate => hopen ⟨q, h.stored q hq hstate, hstate⟩

theorem not_open_of_none (h : v.position = none) : ¬ v.Open := by
  rintro ⟨p, hp, -⟩
  rw [h] at hp
  cases hp

theorem not_open_of_state {p : Position} (h : v.position = some p) (hstate : p.fsmState ≠ .opened) :
    ¬ v.Open := by
  rintro ⟨p', hp', hopen⟩
  obtain rfl := Option.some.inj (h.symm.trans hp')
  exact hstate hopen

/-- A registered position that is not open is not open in the store. -/
theorem Watched.not_open_of_registered (h : Watched v) (hq : v.registered = some q)
    (hstate : q.fsmState ≠ .opened) : ¬ v.Open := by
  rintro ⟨p, hp, hopen⟩
  obtain rfl := Option.some.inj (hq.symm.trans (h.registered p hp hopen))
  exact hstate hopen

theorem Watched.not_open_of_unregistered (h : Watched v) (hnew : v.registered = none) :
    ¬ v.Open := by
  rintro ⟨p, hp, hopen⟩
  have hregistered := h.registered p hp hopen
  rw [hnew] at hregistered
  cases hregistered

/-- An open position is saved as open. -/
theorem Watched.saved (h : Watched v) (hq : v.registered = some q) {q' : Position}
    (hstate : q'.fsmState = q.fsmState) : Watched (v.saved q') := by
  by_cases hopen : q.fsmState = .opened
  · have hopen' : (v.saved q').Open := ⟨q', rfl, hstate.trans hopen⟩
    refine ⟨h.wired, ⟨fun _ => hopen', fun _ => ?_⟩, fun p hp _ => hp, fun p hp _ => hp, h.line⟩
    exact h.armed.2 ⟨q, h.stored q hq hopen, hopen⟩
  · have hnot := h.not_open_of_registered hq hopen
    refine .of_not_open h.wired (not_open_of_state rfl (hstate ▸ hopen)) (h.stop_of_not_open hnot) ?_
    intro p hp
    obtain rfl := Option.some.inj hp
    exact hstate ▸ hopen

/-- Under the default thresholds a price has a stop, and the engine the same one. -/
theorem atEntry_of_default (hthresholds : cfg.exitConfig.stopThresholds = .ok FastLoop.defaultThresholds)
    {price : ℚ} (hprice : 0 < price) (m : String) :
    ∃ s, ExitState.atEntry m price cfg.exitConfig = .ok s ∧
      StopState.atEntry m price FastLoop.defaultThresholds = .ok s.stop := by
  have hfactor : ((10000 : ℚ) - FastLoop.defaultThresholds.hardStopDrawdownBps) / 10000 = 3 / 5 := by
    norm_num [FastLoop.defaultThresholds]
  have hstop : ∃ stop, StopState.atEntry m price FastLoop.defaultThresholds = .ok stop ∧
      stop.mint = m := by
    unfold StopState.atEntry Exit.deriveStopTriggerPrice
    rw [require_bind hprice, hfactor]
    simp only [bind, Except.bind, pure, Except.pure]
    unfold StopState.new
    rw [dif_pos (by linarith), dif_pos (by linarith)]
    exact ⟨_, rfl, rfl⟩
  obtain ⟨stop, hstop, hmint⟩ := hstop
  have hwell : ({ mint := m, entryFillPrice := price, stop := stop } : ExitState).WellFormed :=
    ⟨hprice, by norm_num, hmint, le_rfl, le_rfl, le_rfl, le_rfl⟩
  refine ⟨{ mint := m, entryFillPrice := price, stop := stop }, ?_, hstop⟩
  unfold ExitState.atEntry
  rw [hthresholds]
  simp only [bind, Except.bind]
  rw [hstop]
  dsimp only
  rw [hwell.postInit]
  rfl

/-- A fill that arms. -/
theorem watched_tracked (harms : Arms cfg fill) (hwired : v.wired = true) (hq : q.fsmState = .opened) :
    Watched ((v.saved q).tracked cfg m q fill) := by
  obtain ⟨⟨price, hprice, hpos⟩, hthresholds⟩ := harms
  obtain ⟨s, hs, hstop⟩ := atEntry_of_default hthresholds hpos m
  have htracked : (v.saved q).tracked cfg m q fill =
      { v.saved q with exitState := some s, stop := some ⟨s.stop, q⟩ } := by
    unfold Holding.tracked
    rw [hprice]
    dsimp only
    rw [hs]
    dsimp only
    rw [hstop]
    dsimp only
    rw [if_pos (show (v.saved q).wired = true from hwired)]
  rw [htracked]
  refine ⟨hwired, ⟨fun _ => ⟨q, rfl, hq⟩, fun _ => rfl⟩, fun p hp _ => hp, fun p hp _ => hp, ?_⟩
  intro r hr
  obtain rfl := Option.some.inj hr
  exact ⟨s, rfl, rfl⟩

/-- Giving up an entry. -/
theorem Watched.abandoned (h : Watched v) {p : Position} (hpos : v.position = some p)
    (hentering : p.fsmState = .entering) (q : Position) {v' : Holding}
    (hposition : v'.position = (v.abandoned q).position) (hregistered : v'.registered = none)
    (hstop : v'.stop = v.stop) (hwired : v'.wired = v.wired) : Watched v' := by
  have hstate : p.fsmState ≠ .opened := by
    rw [hentering]
    exact nofun
  have hnone := h.stop_of_not_open (not_open_of_state hpos hstate)
  refine .of_not_open (hwired.trans h.wired) ?_ (hstop.trans hnone) fun q hq => ?_
  · unfold Holding.abandoned at hposition
    dsimp only at hposition
    split_ifs at hposition
    · exact not_open_of_none hposition
    · exact not_open_of_state (hposition.trans hpos) hstate
  · rw [hregistered] at hq
    cases hq

/-- **The touches that are spared keep the mint watched.** -/
theorem HoldingMove.watched (h : HoldingMove cfg m t v v') (ht : Spared cfg t v) (hv : Watched v) :
    Watched v' := by
  cases h with
  | @adopt _ p hpos hnew =>
      have hnot := hv.not_open_of_unregistered hnew
      refine .of_not_open hv.wired hnot (hv.stop_of_not_open hnot) fun q hq hopen => ?_
      obtain rfl := Option.some.inj hq
      exact hnot ⟨p, hpos, hopen⟩
  | drop hnone =>
      have hnot := not_open_of_none hnone
      exact .of_not_open hv.wired hnot (hv.stop_of_not_open hnot) of_none_eq_some
  | step hq hopen hstate hdecision =>
      refine ⟨hv.wired, hv.armed, hv.registered, hv.stored, fun r hr => ?_⟩
      obtain ⟨s, hs, hline⟩ := hv.line r hr
      obtain rfl := Option.some.inj (hstate.symm.trans hs)
      exact ⟨_, rfl, hline.trans (congrArg StopState.triggerPrice
        (Exit.onTick_sameEntry hdecision).stop.symm)⟩
  | value unrealized hq hopen => exact hv.saved hq rfl
  | scaleOut hq hentered => exact hv.saved hq rfl
  | @exit _ q hq =>
      refine .of_not_open hv.wired ?_ rfl of_none_eq_some
      unfold Holding.closed
      by_cases hopen : q.fsmState = .opened
      · exact not_open_of_none (if_pos hopen)
      · rw [if_neg hopen]
        exact hv.not_open_of_registered hq hopen
  | disarm hnone =>
      have hnot := hv.not_open_of_unregistered hnone
      exact .of_not_open hv.wired hnot rfl (hv.not_opened hnot)
  | closing hq hopen => exact absurd ⟨_, hv.stored _ hq hopen, hopen⟩ ht
  | @closed _ q hq hstate =>
      refine .of_not_open hv.wired (not_open_of_none rfl) (hv.stop_of_not_open ht) fun p hp => ?_
      obtain rfl := Option.some.inj hp
      exact nofun
  | abandon hpos hentering hq => exact hv.abandoned hpos hentering _ rfl rfl rfl rfl
  | fail hpos hentering hq => exact hv.abandoned hpos hentering _ rfl rfl rfl rfl
  | fill hpos hentering hq hstate hlanded => exact watched_tracked ht hv.wired rfl
  | reboot => exact .of_not_open hv.wired ht rfl of_none_eq_some
  | vanish hnew =>
      have hnot := hv.not_open_of_unregistered hnew
      exact .of_not_open hv.wired (not_open_of_none rfl) (hv.stop_of_not_open hnot)
        (hv.not_opened hnot)
  | enter hentering =>
      refine .of_not_open hv.wired (not_open_of_state rfl ?_) (hv.stop_of_not_open ht)
        (hv.not_opened ht)
      rw [hentering]
      exact nofun
  | blown =>
      exact .of_not_open hv.wired (not_open_of_none rfl) (hv.stop_of_not_open ht) (hv.not_opened ht)

theorem HoldingMoves.watched (h : HoldingMoves cfg m (Spared cfg) v v') (hv : Watched v) :
    Watched v' :=
  h.invariant hv fun _ _ _ hv ht hmove => hmove.watched ht hv

end Moves

/-- The mint is open in the store. -/
def FastLoop.Opened (c : FastLoop) (mint : String) : Prop :=
  ∃ pos, c.store.loadPosition mint = some pos ∧ pos.fsmState = .opened

/-- The armed mints are the open ones, and Layer 2 and the engine have one line. -/
structure Watches (c : FastLoop) : Prop where
  armed : ∀ mint, (c.stopOf mint).isSome = true ↔ c.Opened mint
  line : ∀ mint r, c.stopOf mint = some r → ∃ s, c.exitStates mint = some s ∧
    ∀ mark, r.stop.isBreached mark = s.stop.isBreached mark

theorem Watches.of_watched (h : ∀ mint, Watched (c.holding mint)) : Watches c where
  armed := fun mint => (h mint).armed
  line := by
    intro mint r hr
    obtain ⟨s, hs, hline⟩ := (h mint).line r hr
    refine ⟨s, hs, fun mark => ?_⟩
    unfold StopState.isBreached
    rw [hline]

section Runs

variable {E : Type} (cfg : ControllerConfig E)

/-- A call that leaves no open position with an armed stop, and opens none without one at the line of
the engine. -/
def KeepsWatch (c : FastLoop) : ControllerOp E → Prop
  | .processEvent call => cfg.snipe.PassesChecks c.store call →
      c.store.lockHeld call.now call.event.mint = false → ¬ c.Opened call.event.mint
  | .reconcileFill _ mint fill => fill.landed = true → Arms cfg.fast fill ∨
      ∀ pos, c.store.loadPosition mint = some pos → pos.fsmState ≠ .entering
  | .tick input => ¬ TickTrips cfg.fast input c
  | .continuousReconcileTick _ _ => True
  | .startup _ venue => (∀ mint, ¬ c.Opened mint) ∧
      ∀ mint fill, venue.Filled mint fill → Arms cfg.fast fill
  | .flattenOne _ mint => ¬ c.Opened mint
  | .emergencyFlattenAll _ => ∀ mint, ¬ c.Opened mint

variable {cfg}

/-- **One call.** -/
theorem next_watched {op : ControllerOp E} (hkeeps : KeepsWatch cfg c op) {mint : String}
    (h : Watched (c.holding mint)) : Watched ((next cfg c op).holding mint) := by
  cases op with
  | processEvent call =>
      refine HoldingMoves.watched (processEvent_holdings cfg c call ?_) h
      rintro rfl hpasses hlock
      exact hkeeps hpasses hlock
  | reconcileFill now mint' fill =>
      have hreconciled := reconciled cfg.fast now fill c mint'
      by_cases hentering : ∀ pos, c.store.loadPosition mint' = some pos → pos.fsmState ≠ .entering
      · rw [show next cfg c (.reconcileFill now mint' fill) = c from reconcileFill_ignored hentering]
        exact h
      · refine HoldingMoves.watched (hreconciled.holdings (fun _ _ => trivial) fun _ hlanded => ?_) h
        exact (hkeeps hlanded).resolve_right hentering
  | tick input =>
      exact HoldingMoves.watched (tick_holdings cfg.fast input c (fun _ => trivial)
        (fun _ => ⟨trivial, trivial⟩)
        fun htrips => absurd htrips hkeeps) h
  | continuousReconcileTick now currentSlot =>
      exact HoldingMoves.watched
        (continuousReconcileTick_holdings cfg now currentSlot c fun _ => trivial) h
  | startup now venue =>
      exact HoldingMoves.watched (startupReconcile_holdings cfg now venue c (hkeeps.1 mint)
        (fun _ => trivial) (fun _ => trivial) fun fill _ => hkeeps.2 mint fill) h
  | flattenOne lands mint' =>
      have hmoves : HoldingMoves cfg.fast mint (Spared cfg.fast) (c.holding mint)
          ((c.flattenOne lands mint').2.holding mint) := by
        refine flattenOne_holdings lands c mint' ?_
        rintro rfl
        exact ⟨hkeeps, trivial⟩
      exact hmoves.watched h
  | emergencyFlattenAll lands =>
      have hmoves : HoldingMoves cfg.fast mint (Spared cfg.fast) (c.holding mint)
          ((c.emergencyFlattenAll lands).holding mint) :=
        emergencyFlattenAll_holdings lands c ⟨hkeeps mint, trivial⟩
      exact hmoves.watched h

/-- **Layer 2 watches the open positions** after every call of a run of a new loop with an enforcer,
if it starts with none open, no position is flattened, entered over or restarted while it is open,
and every fill has a price and the hard stop of the engine is the default one. -/
theorem watches_open_positions (cfg : ControllerConfig E) (c₀ : FastLoop)
    (hwired : c₀.stops.isSome = true) (hstart : ∀ mint, ¬ c₀.Opened mint)
    (ops : List (ControllerOp E))
    (h : EveryStep (step cfg) (fun _ c op => KeepsWatch cfg c op) c₀.reboot ops) :
    EveryState (step cfg) (fun _ c => Watches c) c₀.reboot ops := by
  have hall : EveryState (step cfg) (fun _ c => ∀ mint, Watched (c.holding mint)) c₀.reboot ops := by
    refine h.everyState (fun mint => ?_) fun _ c op c' hc hkeeps hstep mint => ?_
    · rw [holding_reboot]
      exact .of_not_open hwired (hstart mint) rfl of_none_eq_some
    · obtain rfl := Except.ok.inj hstep
      exact next_watched hkeeps (hc mint)
  exact fun before after c hsplit hrun => .of_watched (hall before after c hsplit hrun)

end Runs

/-- A wired loop over a store that holds an entry. -/
def watched : FastLoop := waiting (some fun _ => none)

theorem watches_open_positions_filled :
    EveryState (step plainController) (fun _ c => Watches c) watched.reboot
      [.reconcileFill 100 "m" sampleFill] := by
  refine watches_open_positions plainController watched rfl ?_ _ (everyStep_singleton.2 fun _ => ?_)
  · rintro mint ⟨pos, hpos, hopen⟩
    obtain rfl | hnone := List.mem_singleton.1 (Table.mem_of_get? hpos).1
    cases hopen
  · have hbps : truncate ((1 - plainController.fast.exitConfig.hardStopR) * 10000) = 4000 := by
      decide +kernel
    refine .inl ⟨⟨1, rfl, one_pos⟩, ?_⟩
    show Exit.StopThresholds.new _ = _
    rw [hbps]
    rfl

/-- The controller under the preset `secure_conservative`. -/
def conservativeController : ControllerConfig Unit where
  fast :=
    { defaultFastConfig with
      exitConfig := (Exit.preset "secure_conservative").toOption.getD defaultFastConfig.exitConfig }
  snipe := plainController.snipe

/-- A position that the operator flattens stays armed; and one under `secure_conservative` falls to
0.65, below the stop of the engine and above that of Layer 2. -/
theorem layer2_misses_the_line :
    (∃ c, runSteps (step plainController) watched.reboot
        [.reconcileFill 100 "m" sampleFill, .flattenOne (fun _ _ _ => true) "m"] = .ok c ∧
      (c.stopOf "m").isSome = true ∧ c.store.loadPosition "m" = none ∧ ¬ Watches c) ∧
    ∃ c r s, runSteps (step conservativeController) watched.reboot
        [.reconcileFill 100 "m" sampleFill] = .ok c ∧
      c.stopOf "m" = some r ∧ c.exitStates "m" = some s ∧
      s.stop.isBreached (13 / 20) = true ∧ r.stop.isBreached (13 / 20) = false ∧ ¬ Watches c := by
  constructor
  · let c := next plainController
      (next plainController watched.reboot (.reconcileFill 100 "m" sampleFill))
      (.flattenOne (fun _ _ _ => true) "m")
    have harmed : (c.stopOf "m").isSome = true := by decide +kernel
    have hgone : c.store.loadPosition "m" = none := by decide +kernel
    refine ⟨c, rfl, harmed, hgone, fun hwatches => ?_⟩
    obtain ⟨pos, hpos, -⟩ := (hwatches.armed "m").1 harmed
    rw [hgone] at hpos
    cases hpos
  · let c := next conservativeController watched.reboot (.reconcileFill 100 "m" sampleFill)
    have hlines : (c.stopOf "m").any (fun r => (c.exitStates "m").any fun s =>
        s.stop.isBreached (13 / 20) && !r.stop.isBreached (13 / 20)) = true := by
      decide +kernel
    obtain ⟨r, hr, hlines⟩ := (Option.any_eq_true _ _).1 hlines
    obtain ⟨s, hs, hlines⟩ := (Option.any_eq_true _ _).1 hlines
    obtain ⟨hengine, hlayer2⟩ := Bool.and_eq_true_iff.1 hlines
    rw [Bool.not_eq_true'] at hlayer2
    refine ⟨c, r, s, rfl, hr, hs, hengine, hlayer2, fun hwatches => ?_⟩
    obtain ⟨s', hs', hline⟩ := hwatches.line "m" r hr
    obtain rfl := Option.some.inj (hs.symm.trans hs')
    rw [hline, hengine] at hlayer2
    cases hlayer2

end Controller
end AatsSniper

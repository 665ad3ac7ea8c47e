/-
# The breaker's state in the store

`process_event` does not ask the breaker whether entries are allowed.  It reads the
state that the FAST tick projected into the store when it last recorded a PnL event.
That copy tells a trip, once an event is recorded, and never the soft pause.

`entries_only_if_allowed_iff` says which runs come to no entry against the breaker: the
calls that pass every check find it in the normal posture, and no trip hidden from the
store (`HiddenTrip`).  The invariant behind it is that a call which changes the state of
the breaker leaves the store with that state (`Projects`); `trip_from_llm` does not.
-/

import AatsSniper.Breaker.Latch
import AatsSniper.Controller.Entries

namespace AatsSniper
namespace Controller

open Breaker (BreakerError BreakerState CircuitBreaker LLMDeRiskSignal OperatorResetToken)

variable {E : Type}

/-! ### Signals, resets and restarts of the breaker -/

/-- `breaker.trip_from_llm(signal, block_time_ms=...)` with the flatten it may call. -/
def FastLoop.tripFromLlm (c : FastLoop) (signal : LLMDeRiskSignal) (blockTimeMs : ℤ)
    (lands : Answers) : FastLoop :=
  let result := Breaker.tripFromLlm c.breaker signal blockTimeMs false
  let tripped := { c with breaker := result.2 }
  if c.breaker.flattened.length < result.2.flattened.length then tripped.emergencyFlattenAll lands
  else tripped

variable (E) in
/-- The calls on a controller and on its breaker. -/
inductive BreakerOp
  | call (op : ControllerOp E)
  | tripFromLlm (signal : LLMDeRiskSignal) (blockTimeMs : ℤ) (lands : Answers)
  | reset (token : OperatorResetToken)
  /-- A new breaker over the store of the old one. -/
  | restart

section Ops

variable (cfg : ControllerConfig E)

/-- The controller after a call. -/
def breakerStep (c : FastLoop) : BreakerOp E → Except BreakerError FastLoop
  | .call op => .ok (next cfg c op)
  | .tripFromLlm signal blockTimeMs lands => .ok (c.tripFromLlm signal blockTimeMs lands)
  | .reset token => .ok { c with breaker := (Breaker.reset c.breaker token).2 }
  | .restart =>
      (Breaker.boot cfg.fast.riskConfig cfg.fast.soft c.breaker.store c.breaker.flattened).map
        fun b => { c with breaker := b }

end Ops

/-! ### What the store is told -/

/-- The breaker is tripped. -/
def FastLoop.tripped (c : FastLoop) : Prop := c.breaker.state.state = .tripped

/-- The store says that the breaker is tripped. -/
def FastLoop.saysTripped (c : FastLoop) : Prop := ∃ s, c.store.breaker = some s ∧ s.state = .tripped

/-- The state of the breaker and its copy stay as they are, or the copy is made anew; a breaker that is
tripped stays so, and one that is sound. -/
structure Projects (cfg : FastConfig) (c c' : FastLoop) : Prop where
  told : (c'.breaker.state = c.breaker.state ∧ c'.store.breaker = c.store.breaker) ∨
    c'.store.breaker = some c'.breaker.state
  stays : c.tripped → c'.tripped
  sound : Breaker.Sound cfg.riskConfig cfg.soft c.breaker →
    Breaker.Sound cfg.riskConfig cfg.soft c'.breaker

/-- Neither the breaker nor its copy is touched. -/
structure Apart (c c' : FastLoop) : Prop where
  breaker : c'.breaker = c.breaker
  copy : c'.store.breaker = c.store.breaker

section Projects

variable {cfg : FastConfig} {c c' c'' : FastLoop}

theorem Apart.refl (c : FastLoop) : Apart c c := ⟨rfl, rfl⟩

theorem Apart.trans (h : Apart c c') (h' : Apart c' c'') : Apart c c'' :=
  ⟨h'.breaker.trans h.breaker, h'.copy.trans h.copy⟩

theorem Apart.projects (h : Apart c c') : Projects cfg c c' where
  told := .inl ⟨by rw [h.breaker], h.copy⟩
  stays := fun htripped => by
    unfold FastLoop.tripped
    rw [h.breaker]
    exact htripped
  sound := fun hsound => h.breaker ▸ hsound

theorem Projects.refl (c : FastLoop) : Projects cfg c c := (Apart.refl c).projects

theorem Projects.trans (h : Projects cfg c c') (h' : Projects cfg c' c'') : Projects cfg c c'' where
  told := by
    rcases h'.told with ⟨hstate', hcopy'⟩ | htold'
    · rcases h.told with ⟨hstate, hcopy⟩ | htold
      · exact .inl ⟨hstate'.trans hstate, hcopy'.trans hcopy⟩
      · exact .inr (by rw [hcopy', htold, hstate'])
    · exact .inr htold'
  stays := fun htripped => h'.stays (h.stays htripped)
  sound := fun hsound => h'.sound (h.sound hsound)

/-! ### Transitions of a position -/

theorem suppress_breaker {st : StateStore} {q : Position}
    {result : Except IllegalTransition (StateStore × Position)}
    (h : ∀ moved, result = .ok moved → moved.1.breaker = st.breaker) :
    (FastLoop.suppress st q result).1.breaker = st.breaker := by
  unfold FastLoop.suppress
  cases result with
  | error e => rfl
  | ok moved => exact h moved rfl

theorem toVetoed_breaker {st : StateStore} {q : Position} {moved : StateStore × Position}
    (h : PositionFSM.transitionToVetoed st q = .ok moved) : moved.1.breaker = st.breaker := by
  obtain ⟨_, -, hmoved⟩ := ok_of_bind h
  obtain rfl := Except.ok.inj hmoved
  rfl

theorem toClosing_breaker {st : StateStore} {q : Position} {moved : StateStore × Position}
    (h : PositionFSM.transitionToClosing st q = .ok moved) : moved.1.breaker = st.breaker := by
  obtain ⟨_, -, hmoved⟩ := ok_of_bind h
  obtain rfl := Except.ok.inj hmoved
  rfl

theorem toClosed_breaker {st : StateStore} {q : Position} {realized : ℤ}
    {moved : StateStore × Position}
    (h : PositionFSM.transitionToClosed st q realized = .ok moved) :
    moved.1.breaker = st.breaker := by
  obtain ⟨_, -, hmoved⟩ := ok_of_bind h
  obtain rfl := Except.ok.inj hmoved
  rfl

theorem closeFsm_breaker (st : StateStore) (q : Position) :
    (FastLoop.closeFsm st q).1.breaker = st.breaker := by
  unfold FastLoop.closeFsm
  split
  · rfl
  · rename_i st' q' hclosing
    rw [suppress_breaker fun _ => toClosed_breaker]
    exact toClosing_breaker hclosing

/-! ### The flatten handler -/

theorem abandon_apart (c : FastLoop) (pos : Position) : Apart c (c.abandon pos) where
  breaker := rfl
  copy := suppress_breaker fun _ => toVetoed_breaker

theorem flattenPosition_apart (lands : Answers) (c : FastLoop) (pos : Position) :
    Apart c (c.flattenPosition lands pos) := by
  have hsell : Apart c (c.sellAll lands pos) := by
    unfold FastLoop.sellAll
    dsimp only
    split
    · exact ⟨rfl, rfl⟩
    · rename_i q hq
      refine ⟨rfl, ?_⟩
      have hclosing : (if pos.fsmState = .opened then
          FastLoop.suppress c.store q (PositionFSM.transitionToClosing c.store q)
          else (c.store, q)).1.breaker = c.store.breaker := by
        split_ifs
        · exact suppress_breaker fun _ => toClosing_breaker
        · rfl
      dsimp only [FastLoop.withFsm]
      generalize (if pos.fsmState = .opened then
        FastLoop.suppress c.store q (PositionFSM.transitionToClosing c.store q)
        else (c.store, q)) = closing at hclosing ⊢
      split_ifs
      · rw [suppress_breaker fun _ => toClosed_breaker]
        exact hclosing
      · exact hclosing
  unfold FastLoop.flattenPosition
  cases pos.fsmState with
  | entering => exact abandon_apart c pos
  | opened => exact hsell
  | closing => exact hsell
  | _ => exact .refl c

/-- The parts of a loop over positions. -/
theorem foldl_apart {ι : Type*} {f : FastLoop → ι → FastLoop} (hf : ∀ c i, Apart c (f c i))
    (c : FastLoop) (items : List ι) : Apart c (items.foldl f c) := by
  induction items generalizing c with
  | nil => exact .refl c
  | cons i items ih => exact (hf c i).trans (ih (f c i))

theorem emergencyFlattenAll_apart (lands : Answers) (c : FastLoop) :
    Apart c (c.emergencyFlattenAll lands) :=
  foldl_apart (flattenPosition_apart lands) c _

theorem flattenOne_apart (lands : Answers) (c : FastLoop) (mint : String) :
    Apart c (c.flattenOne lands mint).2 := by
  unfold FastLoop.flattenOne
  split
  · exact .refl c
  · exact flattenPosition_apart lands c _

/-! ### Fills and the reconciler -/

theorem track_apart (c : FastLoop) (q : Position) (fill : FillResult) :
    Apart c (c.track cfg q fill).2 := by
  refine ⟨?_, congrArg StateStore.breaker (track_store cfg fill c q).1⟩
  unfold FastLoop.track
  split
  · rfl
  · split
    · rfl
    · split
      · rfl
      · split
        · rfl
        · rfl

theorem reconcileFill_apart (now : ℤ) (c : FastLoop) (mint : String) (fill : FillResult) :
    Apart c (c.reconcileFill cfg now mint fill).2 := by
  have hfill := reconciled cfg now fill c mint
  generalize (c.reconcileFill cfg now mint fill).2 = c' at hfill
  cases hfill with
  | ignored _ => exact .refl c
  | @opened pos q _ _ _ _ _ _ =>
      have hfilled : Apart c (c.filled q fill) := ⟨rfl, rfl⟩
      exact hfilled.trans (track_apart _ _ fill)
  | @abandoned pos _ _ _ _ => exact (abandon_apart c pos).trans ⟨rfl, rfl⟩

theorem continuousReconcileTick_apart (cfg : ControllerConfig E) (now currentSlot : ℤ)
    (c : FastLoop) : Apart c (continuousReconcileTick cfg now currentSlot c) := by
  refine foldl_apart (fun c pos => ?_) c _
  unfold reconcileTimeout
  split_ifs
  · exact reconcileFill_apart now c pos.mint _
  · exact .refl c

theorem reconcileAtStartup_apart (cfg : ControllerConfig E) (now : ℤ) (venue : VenueState)
    (c : FastLoop) (pos : Position) : Apart c (reconcileAtStartup cfg now venue c pos).2 := by
  unfold reconcileAtStartup
  cases pos.fsmState with
  | idle => exact .refl c
  | entering => exact reconcileFill_apart now c pos.mint _
  | opened =>
      dsimp only
      split_ifs
      · exact ⟨rfl, closeFsm_breaker c.store pos⟩
      · exact .refl c
  | closing =>
      dsimp only
      split_ifs
      · exact ⟨rfl, suppress_breaker fun _ => toClosed_breaker⟩
      · exact .refl c
  | closed => exact ⟨rfl, rfl⟩
  | vetoed => exact ⟨rfl, rfl⟩

theorem startupReconcile_apart (cfg : ControllerConfig E) (now : ℤ) (venue : VenueState)
    (c : FastLoop) : Apart c (startupReconcile cfg now venue c).2 :=
  runLeaving_invariant (P := Apart c) (.refl c)
    fun c' pos _ h => h.trans (reconcileAtStartup_apart cfg now venue c' pos)

theorem processEvent_apart (cfg : ControllerConfig E) (c : FastLoop) (call : SnipeCall E) :
    Apart c { c with store := (cfg.snipe.processEvent c.store call).2 } := by
  refine ⟨rfl, ?_⟩
  have hseen : ∀ intentId, (c.store.markIntentSeen call.now intentId).2.breaker = c.store.breaker := by
    intro intentId
    unfold StateStore.markIntentSeen
    split_ifs
    · rfl
    · rfl
  show (cfg.snipe.processEvent c.store call).2.breaker = c.store.breaker
  unfold SnipeLoop.processEvent
  split
  · rfl
  · rename_i solIn hscreen
    have hseen' := hseen (makeClientIntentId call.event.mint call.event.slot "ENTRY")
    dsimp only
    split
    · rename_i seen hmark
      rw [hmark] at hseen'
      exact hseen'
    · rename_i seen hmark
      rw [hmark] at hseen'
      rw [SnipeLoop.claimEntering_eq]
      by_cases hlock : seen.lockHeld call.now call.event.mint = true
      · rw [if_pos hlock]
        exact hseen'
      · rw [if_neg hlock]
        dsimp only
        split
        · exact hseen'
        · split_ifs
          · exact hseen'
          · exact hseen'
          · exact hseen'

/-! ### The tick -/

theorem syncRegistry_apart (c : FastLoop) : Apart c (c.syncRegistry cfg).2 := by
  have hadopt : ∀ c pos, Apart c (FastLoop.adopt cfg c pos).2 := by
    intro c pos
    unfold FastLoop.adopt
    split_ifs
    · exact .refl c
    · dsimp only
      split
      · exact ⟨rfl, rfl⟩
      · exact ⟨rfl, rfl⟩
    · exact ⟨rfl, rfl⟩
  have hloop : Apart c (runLeaving (FastLoop.adopt cfg) c c.store.positions.rows).2 :=
    runLeaving_invariant (P := Apart c) (.refl c) fun c' pos _ h => h.trans (hadopt c' pos)
  unfold FastLoop.syncRegistry
  split
  · rename_i hraised
    rw [hraised] at hloop
    exact hloop
  · rename_i hran
    rw [hran] at hloop
    have hdrop : ∀ c q, Apart c (FastLoop.dropStale c q) := fun c q => ⟨rfl, rfl⟩
    exact hloop.trans (foldl_apart hdrop _ _)

/-- **What the breaker returns is its state**; where it raises, the state is the old one. -/
theorem recordPnl_told {config : Breaker.RiskConfig} {soft : Breaker.SoftRatio} (b : CircuitBreaker)
    (event : Breaker.PnLEvent) :
    (Breaker.recordPnl config soft b event false).1 =
        .ok (Breaker.recordPnl config soft b event false).2.state ∨
      (∃ e, (Breaker.recordPnl config soft b event false).1 = .error e) ∧
        (Breaker.recordPnl config soft b event false).2.state = b.state := by
  unfold Breaker.recordPnl
  split
  · exact .inr ⟨⟨_, rfl⟩, rfl⟩
  · rename_i day _
    unfold Breaker.recordOn
    dsimp only
    split
    · exact .inr ⟨⟨_, rfl⟩, rfl⟩
    · rename_i decision _
      have htrip : ∀ marked : CircuitBreaker, marked.state = b.state →
          let tripped := Breaker.trip marked (b.dayPnl day + event.deltaLamports)
            decision.thresholdBreached event.blockTimeMs (some day) false
          (tripped.1.map fun _ => tripped.2.state) = .ok tripped.2.state ∨
            (∃ e, (tripped.1.map fun _ => tripped.2.state) = .error e) ∧
              tripped.2.state = b.state := by
        intro marked hstate
        unfold Breaker.trip
        split
        · exact .inr ⟨⟨_, rfl⟩, hstate⟩
        · dsimp only
          split
          · exact .inr ⟨⟨_, rfl⟩, hstate⟩
          · exact .inl rfl
      split_ifs
      · refine htrip _ ?_
        rfl
      · exact .inl rfl
      · refine htrip _ ?_
        rfl
      · exact .inl rfl

theorem recordPnl_stays {config : Breaker.RiskConfig} {soft : Breaker.SoftRatio} {b : CircuitBreaker}
    (event : Breaker.PnLEvent) (h : b.state.state = .tripped) :
    (Breaker.recordPnl config soft b event false).2.state.state = .tripped := by
  by_cases htime : event.blockTimeMs < Breaker.endOfYear9999
  · exact (Breaker.recorded_of_recordPnl false htime).stays_tripped h
  · rw [Breaker.recordPnl_snd_of_late htime]
    exact h

/-- **A PnL event.** -/
theorem recordPnl_projects (input : TickInput) (c : FastLoop) (deltaLamports : ℤ) :
    Projects cfg c (c.recordPnl cfg input deltaLamports).2 := by
  unfold FastLoop.recordPnl
  by_cases htime : 0 ≤ input.blockTimeMs
  · rw [dif_pos htime]
    have htold := @recordPnl_told cfg.riskConfig cfg.soft c.breaker
      ⟨input.blockTimeMs, deltaLamports, htime⟩
    have hstays := @recordPnl_stays cfg.riskConfig cfg.soft c.breaker
      ⟨input.blockTimeMs, deltaLamports, htime⟩
    have hsound : Breaker.Sound cfg.riskConfig cfg.soft c.breaker →
        Breaker.Sound cfg.riskConfig cfg.soft (Breaker.recordPnl cfg.riskConfig cfg.soft c.breaker
          ⟨input.blockTimeMs, deltaLamports, htime⟩ false).2 := by
      intro h
      obtain ⟨b', hb', hsound'⟩ := Breaker.sound_next h
        (.recordPnl ⟨input.blockTimeMs, deltaLamports, htime⟩ false)
      obtain rfl := Except.ok.inj hb'
      exact hsound'
    dsimp only
    generalize Breaker.recordPnl cfg.riskConfig cfg.soft c.breaker
      ⟨input.blockTimeMs, deltaLamports, htime⟩ false = result at htold hstays hsound ⊢
    have hflattened : Apart { c with breaker := result.2 }
        (if c.breaker.flattened.length < result.2.flattened.length then
          ({ c with breaker := result.2 } : FastLoop).emergencyFlattenAll input.lands
        else { c with breaker := result.2 }) := by
      split_ifs
      · exact emergencyFlattenAll_apart input.lands _
      · exact .refl _
    generalize (if c.breaker.flattened.length < result.2.flattened.length then
        ({ c with breaker := result.2 } : FastLoop).emergencyFlattenAll input.lands
      else { c with breaker := result.2 }) = flattened at hflattened ⊢
    obtain ⟨hbreaker, hcopy⟩ := hflattened
    have hstays' : c.tripped → flattened.tripped := by
      intro h
      unfold FastLoop.tripped
      rw [hbreaker]
      exact hstays h
    have hsound' : Breaker.Sound cfg.riskConfig cfg.soft c.breaker →
        Breaker.Sound cfg.riskConfig cfg.soft flattened.breaker := fun h => hbreaker ▸ hsound h
    rcases htold with hok | ⟨⟨e, herror⟩, hstate⟩
    · rw [hok]
      exact ⟨.inr (by rw [hbreaker]; rfl), hstays', hsound'⟩
    · rw [herror]
      exact ⟨.inl ⟨by rw [hbreaker]; exact hstate, hcopy⟩, hstays', hsound'⟩
  · rw [dif_neg htime]
    exact .refl c

theorem withFsm_apart (c : FastLoop) {st : StateStore} (q : Position)
    (h : st.breaker = c.store.breaker) : Apart c (c.withFsm st q) := ⟨rfl, h⟩

theorem markToMarket_projects (input : TickInput) (c : FastLoop) (q : Position)
    (exitState : Exit.ExitState) (mark : ℚ) :
    Projects cfg c (c.markToMarket cfg input q exitState mark).2 := by
  unfold FastLoop.markToMarket
  split_ifs
  · refine Projects.trans (Apart.projects ?_) (recordPnl_projects input _ _)
    exact withFsm_apart c _ rfl
  · exact .refl c

theorem exitAndClose_apart (input : TickInput) (c : FastLoop) (q : Position) (path : ExitPath)
    (fractionBps : ℤ) : Apart c (c.exitAndClose cfg input q path fractionBps) :=
  ⟨rfl, closeFsm_breaker _ q⟩

theorem act_apart (input : TickInput) (c : FastLoop) (q : Position) (decision : Exit.ExitDecision) :
    Apart c (c.act cfg input q decision) := by
  unfold FastLoop.act
  split
  · exact .refl c
  · exact exitAndClose_apart input c q _ _
  · exact ⟨rfl, rfl⟩

theorem turn_projects (input : TickInput) (s : FastLoop.Ticking) (mint : String) :
    Projects cfg s.loop (FastLoop.turn cfg input s mint).2.loop := by
  have hturn := turned cfg input s mint
  generalize FastLoop.turn cfg input s mint = result at hturn
  cases hturn with
  | skipped _ => exact .refl _
  | unmarked _ _ _ _ =>
      have hderegister : ∀ m, Apart s.loop (s.loop.deregister m) := fun m => ⟨rfl, rfl⟩
      exact ((hderegister _).trans (exitAndClose_apart input _ _ _ _)).projects
  | collected _ _ _ _ _ =>
      dsimp only
      rw [collect_loop]
      exact .refl _
  | @raised q mark exitState decision _ _ _ hjudged hmarked =>
      have hstepped : Apart s.loop (s.loop.stepped q.mint decision.nextState) := ⟨rfl, rfl⟩
      have hmark := @markToMarket_projects cfg input (s.loop.stepped q.mint decision.nextState) q
        exitState mark
      have hmarks := hstepped.projects.trans hmark
      unfold FastLoop.judgedThenMarked at hmarked
      rw [hmarked] at hmarks
      exact hmarks
  | @acted q fsm mark exitState decision _ _ hjudged hmarked hfsm _ hentered =>
      have hstepped : Apart s.loop (s.loop.stepped q.mint decision.nextState) := ⟨rfl, rfl⟩
      have hmark := @markToMarket_projects cfg input (s.loop.stepped q.mint decision.nextState) q
        exitState mark
      have hmarks := hstepped.projects.trans hmark
      unfold FastLoop.judgedThenMarked at hmarked
      rw [hmarked] at hmarks
      exact hmarks.trans (act_apart input _ fsm decision).projects

theorem layer2_apart (input : TickInput) (s : FastLoop.Ticking) :
    Apart s.loop (FastLoop.layer2 cfg input s).2 := by
  unfold FastLoop.layer2
  split
  · exact .refl _
  · dsimp only
    refine Apart.trans ?_ (foldl_apart (fun c mint => ?_) _ _)
    · refine List.foldlRecOn s.enforcerTicks (FastLoop.enforcerOnTick input.lands)
        (motive := fun fired => Apart s.loop fired.1) ?_ ?_
      · exact .refl s.loop
      rintro ⟨c, mints⟩ h ⟨mint, mark⟩ -
      unfold FastLoop.enforcerOnTick
      split
      · exact h
      · split_ifs
        · exact h.trans ⟨rfl, rfl⟩
        · exact h
    · unfold FastLoop.closeFired
      split
      · exact .refl _
      · exact ⟨rfl, closeFsm_breaker _ _⟩

/-- **A FAST tick** leaves the breaker's state as it was, or the store with a new copy of it. -/
theorem tick_projects (input : TickInput) (c : FastLoop) :
    Projects cfg c (c.tick cfg input).2 := by
  have hsync : Projects cfg c (c.syncRegistry cfg).2 := (syncRegistry_apart c).projects
  unfold FastLoop.tick
  split
  · rename_i hraised
    rw [hraised] at hsync
    exact hsync
  · rename_i synced hsynced
    rw [hsynced] at hsync
    refine hsync.trans ?_
    have hturns : Projects cfg synced (runLeaving (FastLoop.turn cfg input) ⟨synced, []⟩
        (synced.fsmRegistry.rows.map Position.mint)).2.loop :=
      runLeaving_invariant (P := fun s : FastLoop.Ticking => Projects cfg synced s.loop)
        (.refl _) fun s mint _ hs => hs.trans (turn_projects input s mint)
    split
    · rename_i hraised
      rw [hraised] at hturns
      exact hturns
    · rename_i hran
      rw [hran] at hturns
      exact hturns.trans (layer2_apart input _).projects

/-- **Every call on a controller.** -/
theorem next_projects (cfg : ControllerConfig E) (c : FastLoop) (op : ControllerOp E) :
    Projects cfg.fast c (next cfg c op) := by
  cases op with
  | processEvent call => exact (processEvent_apart cfg c call).projects
  | reconcileFill now mint fill => exact (reconcileFill_apart now c mint fill).projects
  | tick input => exact tick_projects input c
  | continuousReconcileTick now currentSlot =>
      exact (continuousReconcileTick_apart cfg now currentSlot c).projects
  | startup now venue =>
      have hreboot : Apart c c.reboot := ⟨rfl, rfl⟩
      exact (hreboot.trans (startupReconcile_apart cfg now venue c.reboot)).projects
  | flattenOne lands mint => exact (flattenOne_apart lands c mint).projects
  | emergencyFlattenAll lands => exact (emergencyFlattenAll_apart lands c).projects

theorem tripFromLlm_apart (c : FastLoop) (signal : LLMDeRiskSignal) (blockTimeMs : ℤ)
    (lands : Answers) :
    Apart { c with breaker := (Breaker.tripFromLlm c.breaker signal blockTimeMs false).2 }
      (c.tripFromLlm signal blockTimeMs lands) := by
  unfold FastLoop.tripFromLlm
  dsimp only
  split_ifs
  · exact emergencyFlattenAll_apart lands _
  · exact .refl _

end Projects

/-! ### Entries -/

namespace SnipeLoop

variable (loop : SnipeLoop E) (st : StateStore) (call : SnipeCall E)

/-- The call reaches `venue.execute`. -/
def Executes : Prop := ∃ fill, (loop.processEvent st call).1 = .filled fill

/-- Every check of the call passes. -/
def Admits : Prop :=
  loop.PassesChecks st call ∧ st.lockHeld call.now call.event.mint = false ∧
    loop.overBudget call = false

variable {loop st call}

/-- The budget tells a call that is filled from one that is given up. -/
theorem budget_of_enters (henters : loop.Enters st call) :
    (loop.Executes st call ↔ loop.overBudget call = false) := by
  obtain ⟨⟨solIn, hscreen, hnew, cost, hcost, hedge⟩, hlock⟩ := enters_iff.1 henters
  unfold Executes processEvent
  rw [hscreen]
  dsimp only
  unfold IsNewIntent at hnew
  rcases hseen : st.markIntentSeen call.now
    (makeClientIntentId call.event.mint call.event.slot "ENTRY") with ⟨isNew, seen⟩
  rw [hseen] at hnew
  obtain rfl : isNew = true := hnew
  have hlocks := (markIntentSeen_snd st call.now
    (makeClientIntentId call.event.mint call.event.slot "ENTRY")).1
  rw [hseen] at hlocks
  have hfree : ¬ seen.lockHeld call.now call.event.mint = true := by
    unfold StateStore.lockHeld at hlock ⊢
    rw [hlocks, hlock]
    exact Bool.false_ne_true
  dsimp only
  rw [claimEntering_eq, if_neg hfree]
  dsimp only
  rw [hcost]
  dsimp only
  rw [if_neg (not_le.2 hedge)]
  by_cases hbudget : loop.overBudget call = true
  · rw [if_pos hbudget, hbudget]
    refine iff_of_false ?_ nofun
    rintro ⟨fill, hfill⟩
    cases hfill
  · rw [if_neg hbudget]
    exact iff_of_true ⟨_, rfl⟩ (Bool.eq_false_iff.2 hbudget)

theorem executes_iff : loop.Executes st call ↔ loop.Admits st call := by
  constructor
  · rintro ⟨fill, hfill⟩
    have henters : loop.Enters st call := .inr ⟨fill, hfill⟩
    obtain ⟨hpasses, hlock⟩ := enters_iff.1 henters
    exact ⟨hpasses, hlock, (budget_of_enters henters).1 ⟨fill, hfill⟩⟩
  · rintro ⟨hpasses, hlock, hbudget⟩
    exact (budget_of_enters (enters_iff.2 ⟨hpasses, hlock⟩)).2 hbudget

/-- A call that passes every check has been told of no trip. -/
theorem not_tripped_of_admits (h : loop.Admits st call) :
    ∀ s ∈ st.breaker, s.state ≠ .tripped := by
  obtain ⟨⟨solIn, hscreen, -⟩, -⟩ := h
  unfold screen at hscreen
  obtain ⟨_, hrequire, -⟩ := ok_of_bind hscreen
  exact require_eq_ok.1 hrequire

end SnipeLoop

/-! ### Hidden trips -/

section Hidden

variable (cfg : ControllerConfig E) (c₀ : FastLoop)

/-- The breaker is tripped and the store was not told: it was so from the start, or a signal tripped
it; and since then it was not reset and no PnL event was recorded that made the copy anew. -/
inductive HiddenTrip : List (BreakerOp E) → Prop
  | start (htripped : c₀.tripped) (hcopy : ¬ c₀.saysTripped) : HiddenTrip []
  | signal {ops : List (BreakerOp E)} {c : FastLoop} {signal : LLMDeRiskSignal} {blockTimeMs : ℤ}
      {lands : Answers} (hrun : runSteps (breakerStep cfg) c₀ ops = .ok c) (harmed : ¬ c.tripped)
      (hcopy : ¬ c.saysTripped) (htrips : (c.tripFromLlm signal blockTimeMs lands).tripped) :
      HiddenTrip (ops ++ [.tripFromLlm signal blockTimeMs lands])
  | stays {ops : List (BreakerOp E)} {c c' : FastLoop} {op : BreakerOp E} (h : HiddenTrip ops)
      (hrun : runSteps (breakerStep cfg) c₀ ops = .ok c) (hstep : breakerStep cfg c op = .ok c')
      (hreset : ∀ token, op ≠ .reset token) (hcopy : c'.store.breaker = c.store.breaker) :
      HiddenTrip (ops ++ [op])

/-- No entry against the breaker. -/
def EntersAllowed (c : FastLoop) : BreakerOp E → Prop
  | .call (.processEvent call) => cfg.snipe.Executes c.store call → c.breaker.entriesAllowed = true
  | _ => True

/-- A call that passes every check finds the breaker in the normal posture, with no trip hidden from
the store. -/
def FindsNormal (ops : List (BreakerOp E)) (c : FastLoop) : BreakerOp E → Prop
  | .call (.processEvent call) => cfg.snipe.Admits c.store call →
      ¬ (c.breaker.state.state = .armed ∧ c.breaker.reduced = true) ∧ ¬ HiddenTrip cfg c₀ ops
  | _ => True

variable {cfg c₀}

/-- What a run carries. -/
structure Tells (cfg : ControllerConfig E) (c₀ : FastLoop) (ops : List (BreakerOp E)) (c : FastLoop) :
    Prop where
  sound : Breaker.Sound cfg.fast.riskConfig cfg.fast.soft c.breaker
  hidden : HiddenTrip cfg c₀ ops ↔ c.tripped ∧ ¬ c.saysTripped

theorem tells_start (hsound : Breaker.Sound cfg.fast.riskConfig cfg.fast.soft c₀.breaker) :
    Tells cfg c₀ [] c₀ := by
  refine ⟨hsound, fun h => ?_, fun ⟨htripped, hcopy⟩ => .start htripped hcopy⟩
  generalize hops : ([] : List (BreakerOp E)) = ops at h
  cases h with
  | start htripped hcopy => exact ⟨htripped, hcopy⟩
  | signal _ _ _ _ => exact absurd hops.symm (by simp)
  | stays _ _ _ _ _ => exact absurd hops.symm (by simp)

/-- The last step of a hidden trip. -/
theorem hiddenTrip_snoc {ops : List (BreakerOp E)} {c c' : FastLoop} {op : BreakerOp E}
    (hrun : runSteps (breakerStep cfg) c₀ ops = .ok c) (hstep : breakerStep cfg c op = .ok c') :
    HiddenTrip cfg c₀ (ops ++ [op]) ↔
      (∃ signal blockTimeMs lands, op = .tripFromLlm signal blockTimeMs lands ∧ ¬ c.tripped ∧
        ¬ c.saysTripped ∧ c'.tripped) ∨
      (HiddenTrip cfg c₀ ops ∧ (∀ token, op ≠ .reset token) ∧
        c'.store.breaker = c.store.breaker) := by
  constructor
  · intro h
    generalize hall : ops ++ [op] = all at h
    cases h with
    | start _ _ => exact absurd hall (by simp)
    | @signal ops' c₁ signal blockTimeMs lands hrun' harmed hcopy htrips =>
        obtain ⟨rfl, hop⟩ := List.append_inj' hall rfl
        obtain rfl := List.singleton_inj.1 hop
        obtain rfl : c = c₁ := Except.ok.inj (hrun.symm.trans hrun')
        obtain rfl := Except.ok.inj hstep
        exact .inl ⟨signal, blockTimeMs, lands, rfl, harmed, hcopy, htrips⟩
    | @stays ops' c₁ c₁' op' h' hrun' hstep' hreset hcopy =>
        obtain ⟨rfl, hop⟩ := List.append_inj' hall rfl
        obtain rfl := List.singleton_inj.1 hop
        obtain rfl : c = c₁ := Except.ok.inj (hrun.symm.trans hrun')
        obtain rfl : c' = c₁' := Except.ok.inj (hstep.symm.trans hstep')
        exact .inr ⟨h', hreset, hcopy⟩
  · rintro (⟨signal, blockTimeMs, lands, rfl, harmed, hcopy, htrips⟩ | ⟨h, hreset, hcopy⟩)
    · obtain rfl := Except.ok.inj hstep
      exact .signal hrun harmed hcopy htrips
    · exact .stays h hrun hstep hreset hcopy

theorem saysTripped_congr {c c' : FastLoop} (h : c'.store.breaker = c.store.breaker) :
    c'.saysTripped ↔ c.saysTripped := by
  unfold FastLoop.saysTripped
  rw [h]

/-- A call that is no signal and no reset. -/
theorem tells_of_projects {ops : List (BreakerOp E)} {c c' : FastLoop} {op : BreakerOp E}
    (hrun : runSteps (breakerStep cfg) c₀ ops = .ok c) (h : Tells cfg c₀ ops c)
    (hstep : breakerStep cfg c op = .ok c') (hprojects : Projects cfg.fast c c')
    (hsignal : ∀ signal blockTimeMs lands, op ≠ .tripFromLlm signal blockTimeMs lands)
    (hreset : ∀ token, op ≠ .reset token) : Tells cfg c₀ (ops ++ [op]) c' := by
  refine ⟨hprojects.sound h.sound, (hiddenTrip_snoc hrun hstep).trans ?_⟩
  rw [or_iff_right fun ⟨signal, blockTimeMs, lands, hop, _⟩ => hsignal _ _ _ hop, h.hidden]
  rcases hprojects.told with ⟨hstate, hcopy⟩ | htold
  · have htripped : c'.tripped ↔ c.tripped := by
      unfold FastLoop.tripped
      rw [hstate]
    rw [htripped, saysTripped_congr hcopy]
    exact ⟨fun hh => hh.1, fun hh => ⟨hh, hreset, hcopy⟩⟩
  · -- the new copy says what the breaker is
    have hcopied : c'.tripped → c'.saysTripped := fun htripped => ⟨_, htold, htripped⟩
    constructor
    · rintro ⟨⟨htripped, hnot⟩, -, hcopy⟩
      exact absurd ((saysTripped_congr hcopy).1 (hcopied (hprojects.stays htripped))) hnot
    · rintro ⟨htripped, hnot⟩
      exact absurd (hcopied htripped) hnot

/-- **One more call.** -/
theorem tells_step {ops : List (BreakerOp E)} {c c' : FastLoop} {op : BreakerOp E}
    (hrun : runSteps (breakerStep cfg) c₀ ops = .ok c) (h : Tells cfg c₀ ops c)
    (hstep : breakerStep cfg c op = .ok c') : Tells cfg c₀ (ops ++ [op]) c' := by
  cases op with
  | call op =>
      obtain rfl := Except.ok.inj hstep
      exact tells_of_projects hrun h rfl (next_projects cfg c op) nofun nofun
  | tripFromLlm signal blockTimeMs lands =>
      obtain rfl := Except.ok.inj hstep
      obtain ⟨hbreaker, hcopy⟩ := tripFromLlm_apart c signal blockTimeMs lands
      have htrip := Breaker.llmTripped_of_tripFromLlm c.breaker signal blockTimeMs false
      have hstays : c.tripped → (c.tripFromLlm signal blockTimeMs lands).tripped := by
        intro htripped
        unfold FastLoop.tripped
        rw [hbreaker]
        exact htrip.stays_tripped htripped
      refine ⟨by rw [hbreaker]; exact htrip.sound h.sound, (hiddenTrip_snoc hrun hstep).trans ?_⟩
      rw [h.hidden, saysTripped_congr hcopy]
      constructor
      · rintro (⟨_, _, _, -, -, hnot, htripped⟩ | ⟨⟨htripped, hnot⟩, -, -⟩)
        · exact ⟨htripped, hnot⟩
        · exact ⟨hstays htripped, hnot⟩
      · rintro ⟨htripped, hnot⟩
        by_cases hbefore : c.tripped
        · exact .inr ⟨⟨hbefore, hnot⟩, nofun, hcopy⟩
        · exact .inl ⟨signal, blockTimeMs, lands, rfl, hbefore, hnot, htripped⟩
  | reset token =>
      obtain rfl := Except.ok.inj hstep
      have hsound : Breaker.Sound cfg.fast.riskConfig cfg.fast.soft (Breaker.reset c.breaker token).2 := by
        obtain ⟨b', hb', hsound'⟩ := Breaker.sound_next h.sound (.reset token)
        obtain rfl := Except.ok.inj hb'
        exact hsound'
      refine ⟨hsound, (hiddenTrip_snoc hrun hstep).trans (iff_of_false ?_ ?_)⟩
      · rintro (⟨_, _, _, hop, -⟩ | ⟨-, hreset, -⟩)
        · cases hop
        · exact hreset token rfl
      · rintro ⟨htripped, -⟩
        unfold FastLoop.tripped Breaker.reset at htripped
        dsimp only at htripped
        split_ifs at htripped with hbefore
        · cases htripped
        · exact hbefore htripped
  | restart =>
      have hboot := Breaker.restart_eq_restored h.sound
      unfold breakerStep at hstep
      rw [show Breaker.boot cfg.fast.riskConfig cfg.fast.soft c.breaker.store c.breaker.flattened = _
        from hboot] at hstep
      obtain rfl := Except.ok.inj hstep
      refine tells_of_projects hrun h ?_ ⟨.inl ⟨rfl, rfl⟩, id, fun hsound => ⟨rfl, hsound.persistable⟩⟩
        nofun nofun
      unfold breakerStep
      rw [show Breaker.boot cfg.fast.riskConfig cfg.fast.soft c.breaker.store c.breaker.flattened = _
        from hboot]
      rfl

theorem entriesAllowed_iff (b : CircuitBreaker) :
    b.entriesAllowed = true ↔
      b.state.state ≠ .tripped ∧ ¬ (b.state.state = .armed ∧ b.reduced = true) := by
  unfold CircuitBreaker.entriesAllowed
  cases hstate : b.state.state with
  | armed => simp
  | tripped => simp

theorem entersAllowed_iff {ops : List (BreakerOp E)} {c : FastLoop} (h : Tells cfg c₀ ops c)
    (op : BreakerOp E) : EntersAllowed cfg c op ↔ FindsNormal cfg c₀ ops c op := by
  cases op with
  | call op =>
      cases op with
      | processEvent call =>
          unfold EntersAllowed FindsNormal
          dsimp only
          rw [SnipeLoop.executes_iff]
          refine forall_congr' fun hadmits => ?_
          have hnot : ¬ c.saysTripped := by
            rintro ⟨s, hs, htripped⟩
            exact SnipeLoop.not_tripped_of_admits hadmits s hs htripped
          rw [entriesAllowed_iff, h.hidden, and_iff_left hnot, and_comm]
          rfl
      | _ => rfl
  | _ => rfl

end Hidden

/-- **No entry while the breaker pauses entries**, iff every call of `process_event` that passes its
checks finds the breaker in the normal posture and no trip hidden from the store. -/
theorem entries_only_if_allowed_iff (cfg : ControllerConfig E) (c₀ : FastLoop)
    (hreachable : Breaker.Reachable cfg.fast.riskConfig cfg.fast.soft c₀.breaker)
    (ops : List (BreakerOp E)) :
    EveryStep (breakerStep cfg) (fun _ c op => EntersAllowed cfg c op) c₀ ops ↔
      EveryStep (breakerStep cfg) (FindsNormal cfg c₀) c₀ ops := by
  have htells : ∀ {ops : List (BreakerOp E)} {c : FastLoop},
      runSteps (breakerStep cfg) c₀ ops = .ok c → Tells cfg c₀ ops c := by
    intro ops c hrun
    refine (runSteps_history (P := fun ops c => runSteps (breakerStep cfg) c₀ ops = .ok c ∧
      Tells cfg c₀ ops c) ⟨rfl, tells_start hreachable.sound⟩ ?_ hrun).2
    rintro ops c op c' ⟨hran, htells⟩ hstep
    refine ⟨?_, tells_step hran htells hstep⟩
    rw [runSteps_snoc, hran]
    exact hstep
  constructor
  · intro h before op after c hsplit hrun
    exact (entersAllowed_iff (htells hrun) op).1 (h before op after c hsplit hrun)
  · intro h before op after c hsplit hrun
    exact (entersAllowed_iff (htells hrun) op).2 (h before op after c hsplit hrun)

/-- The first event of a new controller. -/
theorem entries_only_if_allowed_first :
    EveryStep (breakerStep plainController) (fun _ c op => EntersAllowed plainController c op)
      (.start (Breaker.firstBoot []) none) [.call (.processEvent (launch 1 0))] := by
  refine (entries_only_if_allowed_iff plainController _ ⟨_, [], rfl, rfl⟩ _).2 ?_
  refine everyStep_singleton.2 fun _ => ⟨?_, fun hhidden => ?_⟩
  · decide
  · generalize hops : ([] : List (BreakerOp Unit)) = ops at hhidden
    cases hhidden with
    | start htripped _ =>
        have harmed : (Breaker.firstBoot []).state.state ≠ .tripped := by decide
        exact absurd htripped harmed
    | signal _ _ _ _ => exact absurd hops.symm (by simp)
    | stays _ _ _ _ _ => exact absurd hops.symm (by simp)

/-- A fill that falls by 2.5 % of the tranche where its price falls by a quarter. -/
def largeFill : FillResult :=
  { landed := true, tokensOut := 50000000, effectivePriceDecimal := .decimal 1 }

/-- The call is executed against the breaker. -/
theorem not_entersAllowed {c : FastLoop} {call : SnipeCall Unit}
    (hfilled : (plainController.snipe.processEvent c.store call).1 = .filled call.fill)
    (hpaused : c.breaker.entriesAllowed = false) :
    ¬ EntersAllowed plainController c (.call (.processEvent call)) := by
  intro hallowed
  have hentries : c.breaker.entriesAllowed = true := hallowed ⟨_, hfilled⟩
  rw [hpaused] at hentries
  cases hentries

/-- The tick of a mint that has lost a part of its price. -/
def fallenTick (mark : ℚ) : TickInput where
  now := 200
  blockTimeMs := 1000
  marks := fun _ => some mark
  lands := fun _ _ _ => true

/-- An event is executed in the soft pause, and one after a signal has tripped the breaker. -/
theorem entry_while_paused :
    ¬ EveryStep (breakerStep plainController) (fun _ c op => EntersAllowed plainController c op)
        (.start (Breaker.firstBoot []) none)
        [.call (.processEvent (launch 1 0)), .call (.reconcileFill 100 "m" largeFill),
          .call (.tick (fallenTick (3 / 4))), .call (.processEvent (launch 2 1000))] ∧
      ¬ EveryStep (breakerStep plainController) (fun _ c op => EntersAllowed plainController c op)
        (.start (Breaker.firstBoot []) none)
        [.tripFromLlm ⟨"narrative"⟩ 1000 fun _ _ _ => true, .call (.processEvent (launch 1 2000))] := by
  constructor
  · intro h
    refine not_entersAllowed ?_ ?_
      (h [.call (.processEvent (launch 1 0)), .call (.reconcileFill 100 "m" largeFill),
          .call (.tick (fallenTick (3 / 4)))] _ [] _ rfl rfl)
    · decide +kernel
    · decide +kernel
  · intro h
    refine not_entersAllowed ?_ ?_
      (h [.tripFromLlm ⟨"narrative"⟩ 1000 fun _ _ _ => true] _ [] _ rfl rfl)
    · decide +kernel
    · decide +kernel

end Controller
end AatsSniper

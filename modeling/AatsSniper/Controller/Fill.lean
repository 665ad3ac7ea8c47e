/-
# Fills and restarts

What `reconcile_fill` does to an entry (`Reconciled`), and with it the reconciler.  Every call
but `process_event` is a sequence of moves (`next_moves`).
-/

import AatsSniper.Controller.Reconcile
import AatsSniper.Controller.Tick

namespace AatsSniper
namespace Controller

variable {c : FastLoop} {pos q : Position} {mint : String}

/-- The position once its entry has filled. -/
def Position.filled (q : Position) (fill : FillResult) : Position :=
  { q with
    fsmState := .opened
    tokensOutBase := fill.tokensOut
    entrySlippageBps := fill.entrySlippageBps
    unrealizedPnlNetLamports := 0 }

theorem toOpen_eq (st : StateStore) (q : Position) (fill : FillResult) :
    PositionFSM.transitionToOpen st q fill =
      if q.fsmState = .entering then
        .ok ((st.savePosition (q.filled fill)).releaseEntering q.mint, q.filled fill)
      else .error ⟨q.fsmState, .opened⟩ := by
  obtain ⟨mint, state, _, _, _, _, _, _, _⟩ := q
  cases state <;> rfl

/-- The loop with a position that has just opened. -/
def FastLoop.filled (c : FastLoop) (q : Position) (fill : FillResult) : FastLoop :=
  { c with
    store := (c.store.savePosition (q.filled fill)).releaseEntering q.mint
    fsmRegistry := c.fsmRegistry.upsert (q.filled fill) }

section Fill

variable (cfg : FastConfig) (now : ℤ) (fill : FillResult)

/-- Tracking arms the stop, if anything. -/
theorem track_ledger (c : FastLoop) (q : Position) :
    (FastLoop.track cfg c q fill).2.ledger = c.ledger ∨
      (FastLoop.track cfg c q fill).2.ledger =
        { c.ledger with armed := Function.update c.ledger.armed q.mint true } := by
  unfold FastLoop.track
  split
  · exact .inl rfl
  · split
    · exact .inl rfl
    · split
      · exact .inl rfl
      · rename_i stops hstops
        split
        · exact .inl rfl
        · refine .inr ?_
          unfold FastLoop.ledger
          dsimp only
          congr 1
          funext m
          by_cases hm : m = q.mint <;> simp [hstops, hm]

theorem track_store (c : FastLoop) (q : Position) :
    (FastLoop.track cfg c q fill).2.store = c.store ∧
      (FastLoop.track cfg c q fill).2.fsmRegistry = c.fsmRegistry := by
  unfold FastLoop.track
  split
  · exact ⟨rfl, rfl⟩
  · split
    · exact ⟨rfl, rfl⟩
    · split
      · exact ⟨rfl, rfl⟩
      · split
        · exact ⟨rfl, rfl⟩
        · exact ⟨rfl, rfl⟩

/-- What a fill does to the entry it is for. -/
inductive Reconciled (c : FastLoop) (mint : String) : FastLoop → Prop
  /-- There is no entry, or its `PositionFSM` refuses. -/
  | ignored (h : ∀ pos, c.store.positions.get? mint = some pos → pos.fsmState = .entering →
      fill.landed = true ∧ ∃ q, c.fsmRegistry.get? mint = some q ∧ q.fsmState ≠ .entering) :
      Reconciled c mint c
  /-- The position opens. -/
  | opened {pos q : Position} (hpos : c.store.positions.get? q.mint = some pos)
      (hentering : pos.fsmState = .entering) (hmint : q.mint = mint)
      (hq : (c.fsmRegistry.get? q.mint).getD pos = q) (hstate : q.fsmState = .entering)
      (hlanded : fill.landed = true) :
      Reconciled c mint (FastLoop.track cfg (c.filled q fill) (q.filled fill) fill).2
  /-- The entry is given up. -/
  | abandoned {pos : Position} (hpos : c.store.positions.get? pos.mint = some pos)
      (hentering : pos.fsmState = .entering) (hmint : pos.mint = mint)
      (hlanded : fill.landed = false) :
      Reconciled c mint ((c.abandon pos).untrack now cfg.cooldownSeconds pos.mint)

/-- **What `reconcile_fill` does.** -/
theorem reconciled (c : FastLoop) (mint : String) :
    Reconciled cfg now fill c mint (c.reconcileFill cfg now mint fill).2 := by
  unfold FastLoop.reconcileFill
  split
  · rename_i hnone
    refine .ignored fun pos hpos _ => ?_
    rw [show c.store.positions.get? mint = none from hnone] at hpos
    cases hpos
  · rename_i pos hpos
    obtain rfl := mint_of_get? hpos
    split_ifs with hentering hlanded
    · dsimp only
      rw [toOpen_eq]
      by_cases hstate : ((c.fsmRegistry.get? pos.mint).getD pos).fsmState = .entering
      · rw [if_pos hstate]
        have hmint := mint_of_getD c pos
        have hq : (c.fsmRegistry.get? ((c.fsmRegistry.get? pos.mint).getD pos).mint).getD pos =
            (c.fsmRegistry.get? pos.mint).getD pos := by rw [hmint]
        exact .opened (hmint.symm ▸ hpos) hentering hmint hq hstate hlanded
      · rw [if_neg hstate]
        refine .ignored fun pos' hpos' hentering' => ⟨hlanded, ?_⟩
        cases hget : c.fsmRegistry.get? pos.mint with
        | none =>
            rw [hget] at hstate
            exact absurd hentering hstate
        | some q =>
            rw [hget] at hstate
            exact ⟨q, rfl, hstate⟩
    · exact .abandoned hpos hentering rfl (Bool.eq_false_iff.2 hlanded)
    · refine .ignored fun pos' hpos' hentering' => ?_
      obtain rfl : pos = pos' := Option.some.inj (hpos.symm.trans hpos')
      exact absurd hentering' hentering

theorem Reconciled.moves {c' : FastLoop} (h : Reconciled cfg now fill c mint c') :
    Moves c.ledger c'.ledger := by
  cases h with
  | ignored _ => exact .refl
  | @opened pos q hpos hentering _ _ _ _ =>
      have hfill : Move c.ledger (c.filled q fill).ledger :=
        .fill (q := q.filled fill) hpos hentering rfl
      refine .head hfill ?_
      rcases track_ledger cfg fill (c.filled q fill) (q.filled fill) with hsame | harmed
      · rw [hsame]
      · rw [harmed]
        exact .single (.arm _ _)
  | @abandoned pos hpos hentering _ _ =>
      have habandon := (abandon_moves hpos hentering).moves
      exact habandon.tail (.exit (.unregister (c.abandon pos).ledger pos.mint))

theorem Reconciled.untouched {c' : FastLoop} (h : Reconciled cfg now fill c mint c') {m : String}
    (hne : m ≠ mint) : Untouched m c c' := by
  cases h with
  | ignored _ => exact ⟨rfl, rfl⟩
  | @opened pos q _ _ hmint _ _ _ =>
      have hne' : m ≠ (q.filled fill).mint := hmint.symm ▸ hne
      obtain ⟨hstore, hregistry⟩ := track_store cfg fill (c.filled q fill) (q.filled fill)
      refine ⟨?_, ?_⟩
      · rw [hstore]
        exact Table.get?_upsert_of_ne hne'
      · rw [hregistry]
        exact Table.get?_upsert_of_ne hne'
  | @abandoned pos _ _ hmint _ =>
      have hne' : m ≠ pos.mint := hmint.symm ▸ hne
      obtain ⟨hposition, hregistered⟩ := abandon_untouched (c := c) hne'
      exact ⟨hposition, (Table.get?_remove_of_ne hne').trans hregistered⟩

end Fill

section Reconciler

variable {E : Type} (cfg : ControllerConfig E)

theorem continuousReconcileTick_moves (now currentSlot : ℤ) (c : FastLoop) :
    Moves c.ledger (continuousReconcileTick cfg now currentSlot c).ledger := by
  unfold continuousReconcileTick
  refine List.foldlRecOn c.store.positions.rows (reconcileTimeout cfg now currentSlot)
    (motive := fun c' => Moves c.ledger c'.ledger) .refl ?_
  intro c' hmoves pos _
  unfold reconcileTimeout
  split_ifs
  · exact hmoves.trans (reconciled cfg.fast now _ c' pos.mint).moves
  · exact hmoves

/-- What the startup does to a position that is not registered. -/
theorem reconcileAtStartup_moves (now : ℤ) (venue : VenueState)
    (hnew : c.fsmRegistry.get? pos.mint = none) :
    Moves c.ledger (reconcileAtStartup cfg now venue c pos).2.ledger := by
  have hvanish : Move c.ledger { c.ledger with positions := c.store.positions.remove pos.mint } :=
    .vanish hnew
  unfold reconcileAtStartup
  dsimp only
  split
  · exact (reconciled cfg.fast now _ c pos.mint).moves
  · split_ifs
    · unfold disappeared
      rw [closeFsm_store, if_pos (by assumption)]
      exact .single hvanish
    · exact .refl
  · split_ifs
    · unfold closingFilled
      rw [toClosed_eq, if_pos (by assumption)]
      exact .single hvanish
    · exact .refl
  · exact .single hvanish
  · exact .single hvanish
  · exact .refl

theorem reconcileAtStartup_untouched (now : ℤ) (venue : VenueState) {m : String}
    (h : m ≠ pos.mint) : Untouched m c (reconcileAtStartup cfg now venue c pos).2 := by
  unfold reconcileAtStartup
  dsimp only
  split
  · exact (reconciled cfg.fast now _ c pos.mint).untouched cfg.fast now _ h
  · split_ifs
    · unfold disappeared
      rw [closeFsm_store, if_pos (by assumption)]
      exact ⟨Table.get?_remove_of_ne h, rfl⟩
    · exact ⟨rfl, rfl⟩
  · split_ifs
    · unfold closingFilled
      rw [toClosed_eq, if_pos (by assumption)]
      exact ⟨Table.get?_remove_of_ne h, rfl⟩
    · exact ⟨rfl, rfl⟩
  · exact ⟨Table.get?_remove_of_ne h, rfl⟩
  · exact ⟨Table.get?_remove_of_ne h, rfl⟩
  · exact ⟨rfl, rfl⟩

/-- The startup of a new loop. -/
theorem startupReconcile_moves (now : ℤ) (venue : VenueState) (c : FastLoop) :
    Moves c.ledger (startupReconcile cfg now venue c.reboot).2.ledger := by
  have hreboot : Move c.ledger c.reboot.ledger := by
    have harmed : c.reboot.ledger.armed = fun _ => false := by
      funext m
      cases hstops : c.stops <;> simp [FastLoop.ledger, FastLoop.reboot, hstops]
    have hmove := Move.reboot c.ledger
    rw [← harmed] at hmove
    exact hmove
  refine .head hreboot ?_
  unfold startupReconcile
  have hrows : ∀ pos ∈ c.reboot.store.positions.rows, c.reboot.fsmRegistry.get? pos.mint = none :=
    fun _ _ => rfl
  have hdistinct := c.reboot.store.positions.distinct
  generalize c.reboot.store.positions.rows = rows at hrows hdistinct
  generalize c.reboot = c' at hrows
  -- the mints still to come are not registered
  induction rows generalizing c' with
  | nil => exact .refl
  | cons first rows ih =>
      rw [List.map_cons, List.nodup_cons] at hdistinct
      have hfirst := reconcileAtStartup_moves cfg now venue (hrows first List.mem_cons_self)
      refine runLeaving_cons (P := fun c'' : FastLoop => Moves c'.ledger c''.ledger) hfirst fun _ => ?_
      refine hfirst.trans (ih hdistinct.2 _ fun pos hpos => ?_)
      have hne : pos.mint ≠ first.mint := by
        intro heq
        exact hdistinct.1 (heq ▸ List.mem_map_of_mem hpos)
      rw [(reconcileAtStartup_untouched cfg now venue hne).registered]
      exact hrows pos (List.mem_cons_of_mem first hpos)

/-- **Every call but `process_event`** is a sequence of moves. -/
theorem next_moves {op : ControllerOp E} (hop : ∀ call, op ≠ .processEvent call) (c : FastLoop) :
    Moves c.ledger (next cfg c op).ledger := by
  cases op with
  | processEvent call => exact absurd rfl (hop call)
  | reconcileFill now mint fill => exact (reconciled cfg.fast now fill c mint).moves
  | tick input => exact (tick_moves cfg.fast input c).moves
  | continuousReconcileTick now currentSlot =>
      exact continuousReconcileTick_moves cfg now currentSlot c
  | startup now venue => exact startupReconcile_moves cfg now venue c
  | flattenOne lands mint => exact (flattenOne_moves lands c mint).moves
  | emergencyFlattenAll lands => exact (emergencyFlattenAll_moves lands c).moves

end Reconciler

end Controller
end AatsSniper

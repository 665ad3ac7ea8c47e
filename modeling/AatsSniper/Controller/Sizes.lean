/-
# The sizes of the positions

`create_entering` writes down for how many lamports a position is entered, and no other
call changes that: after a call the store holds a mint with the size it had, or not at
all, so the aggregate does not grow (`aggregate_le`).

A `PositionFSM` that was closed in the registry may be of an earlier position of the mint.
It is written back only by a scale-out in the turn that closed it, which is why a turn of
an open position is taken as a whole (`tick_induction`).
-/

import AatsSniper.Controller.Holding

namespace AatsSniper
namespace Controller

variable {E : Type} {cfg : FastConfig} {c : FastLoop} {p q : Position} {m mint : String}
  {t : Touch} {v v' : Holding} {solIn : Option ℤ}

/-- The size of the position in the store. -/
def Holding.size (v : Holding) : Option ℤ := v.position.map Position.solInLamports

/-- The store holds the mint with this size or not at all, and what the registry holds live is the
position of the store. -/
structure Holding.Sized (solIn : Option ℤ) (v : Holding) : Prop where
  position : ∀ p, v.position = some p → solIn = some p.solInLamports
  agrees : ∀ q, v.registered = some q → q.fsmState.live = true → v.position = some q

/-- Nor does the registry hold it with another size. -/
structure Holding.Fixed (solIn : Option ℤ) (v : Holding) : Prop extends Holding.Sized solIn v where
  registered : ∀ q, v.registered = some q → solIn = some q.solInLamports

theorem Holding.Sized.of_agrees
    (h : ∀ q, v.registered = some q → q.fsmState.live = true → v.position = some q) :
    v.Sized v.size where
  position p hp := by
    unfold Holding.size
    rw [hp, Option.map_some]
  agrees := h

/-- Nothing is registered, and no position is new. -/
theorem Holding.Sized.unregistered (h : v.Sized solIn)
    (hposition : v'.position = v.position ∨ v'.position = none) (hregistered : v'.registered = none) :
    v'.Sized solIn where
  position p hp := by
    rcases hposition with heq | hnone
    · exact h.position p (heq.symm.trans hp)
    · rw [hnone] at hp
      cases hp
  agrees q hq := by
    rw [hregistered] at hq
    cases hq

/-- A position is written to the store and the registry. -/
theorem Holding.Fixed.of_saved (hposition : v.position = some p) (hregistered : v.registered = some p)
    (hsize : solIn = some p.solInLamports) : v.Fixed solIn where
  position p' hp' := by
    obtain rfl := Option.some.inj (hposition.symm.trans hp')
    exact hsize
  agrees q hq _ := by
    obtain rfl := Option.some.inj (hregistered.symm.trans hq)
    exact hposition
  registered q hq := by
    obtain rfl := Option.some.inj (hregistered.symm.trans hq)
    exact hsize

theorem Holding.Fixed.unregistered (h : v.Sized solIn)
    (hposition : v'.position = v.position ∨ v'.position = none) (hregistered : v'.registered = none) :
    v'.Fixed solIn where
  toSized := h.unregistered hposition hregistered
  registered q hq := by
    rw [hregistered] at hq
    cases hq

/-- What the registry holds live has the size. -/
theorem Holding.Sized.of_live (h : v.Sized solIn) (hq : v.registered = some q)
    (hlive : q.fsmState.live = true) : solIn = some q.solInLamports :=
  h.position q (h.agrees q hq hlive)

theorem live_of_opened (h : q.fsmState = .opened) : q.fsmState.live = true := by
  rw [h]
  rfl

/-- With a live position registered nothing else is. -/
theorem Holding.Sized.fixed (h : v.Sized solIn) (hq : v.registered = some q)
    (hlive : q.fsmState.live = true) : v.Fixed solIn where
  toSized := h
  registered q' hq' := by
    obtain rfl := Option.some.inj (hq.symm.trans hq')
    exact h.of_live hq hlive

theorem Holding.closed_position (v : Holding) (q : Position) :
    (v.closed q).position = v.position ∨ (v.closed q).position = none := by
  unfold Holding.closed
  split_ifs
  · exact .inr rfl
  · exact .inl rfl

theorem Holding.abandoned_position (v : Holding) (q : Position) :
    (v.abandoned q).position = v.position ∨ (v.abandoned q).position = none := by
  unfold Holding.abandoned
  split_ifs
  · exact .inr rfl
  · exact .inl rfl

/-- **A move** other than an entry or a scale-out of a closed position keeps the size. -/
theorem HoldingMove.sized (h : HoldingMove cfg m t v v') (henter : t ≠ .enter) (hjudge : t ≠ .judge)
    (hv : v.Sized solIn) : v'.Sized solIn := by
  cases h with
  | @adopt _ p hpos hnew =>
      refine ⟨hv.position, fun q hq _ => ?_⟩
      obtain rfl := Option.some.inj hq
      exact hpos
  | drop _ => exact hv.unregistered (.inl rfl) rfl
  | step _ _ _ _ => exact absurd rfl hjudge
  | @value _ q unrealized hq hopen =>
      have hsize := hv.of_live hq (live_of_opened hopen)
      exact (Holding.Fixed.of_saved (p := q.valued unrealized) rfl rfl hsize).toSized
  | scaleOut _ _ => exact absurd rfl hjudge
  | exit _ => exact absurd rfl hjudge
  | disarm _ => exact absurd rfl hjudge
  | @closing _ q hq hopen =>
      have hsize := hv.of_live hq (live_of_opened hopen)
      exact (Holding.Fixed.of_saved (p := q.asClosing) rfl rfl hsize).toSized
  | @closed _ q hq _ =>
      refine ⟨of_none_eq_some, fun q' hq' hlive => ?_⟩
      obtain rfl := Option.some.inj hq'
      cases hlive
  | @abandon _ p q _ _ _ => exact hv.unregistered (v.abandoned_position q) rfl
  | @fail _ p q _ _ _ => exact hv.unregistered (v.abandoned_position q) rfl
  | @fill _ p q fill hpos hentering hq hstate hlanded =>
      have hposition : v.position = some q := by
        cases hget : v.registered with
        | none =>
            rw [hget] at hq
            obtain rfl : p = q := hq
            exact hpos
        | some q' =>
            rw [hget] at hq
            obtain rfl : q' = q := hq
            exact hv.agrees q' hget (live_iff.2 (.inl hstate))
      obtain ⟨hsaved, hregistered⟩ := Holding.tracked_eq cfg m (v.saved (q.filled fill))
        (q.filled fill) fill
      exact (Holding.Fixed.of_saved hsaved hregistered (hv.position q hposition)).toSized
  | reboot _ => exact hv.unregistered (.inl rfl) rfl
  | vanish hnew => exact hv.unregistered (.inr rfl) hnew
  | enter _ => exact absurd rfl henter
  | blown _ => exact absurd rfl henter

/-- In the turn of the mint every registered position is the one it began with. -/
def Touch.InTurn : Touch → Prop
  | .judge | .mark | .flatten | .giveUp => True
  | _ => False

/-- **A move of a turn** keeps the size where the registry has it as well. -/
theorem HoldingMove.fixed (h : HoldingMove cfg m t v v') (hturn : t.InTurn) (hv : v.Fixed solIn) :
    v'.Fixed solIn := by
  cases h with
  | step _ _ _ _ => exact ⟨⟨hv.position, hv.agrees⟩, hv.registered⟩
  | @value _ q unrealized hq _ => exact .of_saved rfl rfl (hv.registered q hq)
  | @scaleOut _ q hq _ => exact .of_saved rfl rfl (hv.registered q hq)
  | @exit _ q hq => exact .unregistered hv.toSized (v.closed_position q) rfl
  | disarm _ => exact ⟨⟨hv.position, hv.agrees⟩, hv.registered⟩
  | @closing _ q hq _ => exact .of_saved rfl rfl (hv.registered q hq)
  | @closed _ q hq _ =>
      refine ⟨⟨of_none_eq_some, fun q' hq' hlive => ?_⟩, fun q' hq' => ?_⟩
      · obtain rfl := Option.some.inj hq'
        cases hlive
      · obtain rfl := Option.some.inj hq'
        exact hv.registered q hq
  | @abandon _ p q _ _ _ => exact .unregistered hv.toSized (v.abandoned_position q) rfl
  | @fail _ p q _ _ _ => exact .unregistered hv.toSized (v.abandoned_position q) rfl
  | adopt _ _ => exact hturn.elim
  | drop _ => exact hturn.elim
  | fill _ _ _ _ _ => exact hturn.elim
  | reboot _ => exact hturn.elim
  | vanish _ => exact hturn.elim
  | enter _ => exact hturn.elim
  | blown _ => exact hturn.elim

theorem HoldingMoves.sized {T : Touch → Holding → Prop} (h : HoldingMoves cfg m T v v')
    (hT : ∀ t v, T t v → t ≠ .enter ∧ t ≠ .judge) (hv : v.Sized solIn) : v'.Sized solIn :=
  h.invariant hv fun t v _ hsized ht hmove => hmove.sized (hT t v ht).1 (hT t v ht).2 hsized

theorem HoldingMoves.fixed (h : HoldingMoves cfg m (fun t _ => t.InTurn) v v')
    (hv : v.Fixed solIn) : v'.Fixed solIn :=
  h.invariant hv fun _ _ _ hfixed ht hmove => hmove.fixed ht hfixed

section Tick

variable (cfg) (input : TickInput)

/-- A mint that is not open has no turn. -/
theorem turn_skipped {s : FastLoop.Ticking}
    (h : ∀ q, s.loop.fsmRegistry.get? mint = some q → q.fsmState ≠ .opened) :
    (FastLoop.turn cfg input s mint).2 = s := by
  unfold FastLoop.turn
  split
  · rfl
  · rename_i q hq
    rw [if_neg (h q hq)]

/-- What the Layer-2 pass does to a mint. -/
theorem layer2_holding (s : FastLoop.Ticking) (m : String) :
    (FastLoop.layer2 cfg input s).2.holding m = s.loop.holding m ∨
      (FastLoop.layer2 cfg input s).2.holding m = { s.loop.holding m with stop := none } ∨
      ∃ q, (s.loop.holding m).registered = some q ∧ (FastLoop.layer2 cfg input s).2.holding m =
        { ((s.loop.holding m).closed q).forgotten with stop := none } := by
  unfold FastLoop.layer2
  split
  · exact .inl rfl
  · have hfired := holding_enforcer input.lands s.loop s.enforcerTicks m
    dsimp only at hfired ⊢
    rw [holding_sweep, hfired]
    split_ifs
    · refine .inr ?_
      unfold Holding.swept
      dsimp only
      obtain hget | ⟨q, hget⟩ := Option.eq_none_or_eq_some (s.loop.holding m).registered
      · rw [hget]
        exact .inl rfl
      · rw [hget]
        exact .inr ⟨q, rfl, rfl⟩
    · exact .inl rfl

/-- **Invariants of a mint over a tick**: kept by the sync, by a flatten in the turn of another mint,
by the turn of the mint if it is open, and by the Layer-2 pass. -/
theorem tick_induction {P : Holding → Prop} (c : FastLoop) (hc : P (c.holding m))
    (hsync : ∀ v v', P v → HoldingMove cfg m .sync v v' → P v')
    (hflatten : TickTrips cfg input c → ∀ t v v', t = .flatten ∨ t = .giveUp → P v →
      HoldingMove cfg m t v v' → P v')
    (hturn : ∀ v v' q, P v → v.registered = some q → q.fsmState = .opened →
      HoldingMoves cfg m (fun t _ => t.InTurn) v v' → P v')
    (hdisarm : ∀ v, P v → P { v with stop := none })
    (hclose : ∀ v q, P v → v.registered = some q → P { (v.closed q).forgotten with stop := none }) :
    P ((c.tick cfg input).2.holding m) := by
  have hmoves : HoldingMoves cfg m (fun t _ => t = .sync) (c.holding m) ((c.synced cfg).holding m) :=
    syncRegistry_holdings (fun _ => rfl) c m
  have hsynced : P ((c.synced cfg).holding m) := by
    refine hmoves.invariant hc ?_
    rintro _ v v' hv rfl hmove
    exact hsync v v' hv hmove
  unfold FastLoop.tick
  split
  · rename_i left hraised
    obtain rfl : c.synced cfg = left := congrArg Prod.snd hraised
    exact hsynced
  · rename_i synced hran
    obtain rfl : c.synced cfg = synced := congrArg Prod.snd hran
    have hturns : P ((runLeaving (FastLoop.turn cfg input) ⟨c.synced cfg, []⟩
        ((c.synced cfg).fsmRegistry.rows.map Position.mint)).2.loop.holding m) := by
      refine runLeaving_invariant_of_turns (P := fun s : FastLoop.Ticking => P (s.loop.holding m))
        (T := fun s mint => TurnTrips cfg input s mint → TickTrips cfg input c) hsynced
        (fun before mint after s hsplit hran htrips => ⟨before, mint, after, s, hsplit, hran, htrips⟩)
        fun s mint hs htrips => ?_
      by_cases hopen : ∃ q, s.loop.fsmRegistry.get? mint = some q ∧ q.fsmState = .opened
      · by_cases hm : m = mint
        · subst hm
          obtain ⟨q, hq, hopen⟩ := hopen
          exact hturn _ _ q hs hq hopen (turn_holdings cfg input s m
            (fun _ _ => ⟨trivial, trivial⟩) fun _ _ => ⟨trivial, trivial⟩)
        · have hother : HoldingMoves cfg m
              (fun t _ => (t = .flatten ∨ t = .giveUp) ∧ TickTrips cfg input c) (s.loop.holding m)
              ((FastLoop.turn cfg input s mint).2.loop.holding m) :=
            turn_holdings cfg input s mint (fun heq => absurd heq hm) fun h _ =>
              ⟨⟨.inl rfl, htrips h⟩, .inr rfl, htrips h⟩
          exact hother.invariant hs fun t v v' hv ht hmove => hflatten ht.2 t v v' ht.1 hv hmove
      · rw [turn_skipped cfg input fun q hq hstate => hopen ⟨q, hq, hstate⟩]
        exact hs
    split
    · rename_i hraised
      rw [hraised] at hturns
      exact hturns
    · rename_i left hreturned
      rw [hreturned] at hturns
      obtain heq | heq | ⟨q, hq, heq⟩ := layer2_holding cfg input left m
      · rw [heq]
        exact hturns
      · rw [heq]
        exact hdisarm _ hturns
      · rw [heq]
        exact hclose _ q hturns hq

/-- **A tick** keeps the size of a mint. -/
theorem tick_sized (hc : (c.holding m).Sized solIn) :
    ((c.tick cfg input).2.holding m).Sized solIn := by
  refine tick_induction cfg input c hc ?_ ?_ ?_ ?_ ?_
  · exact fun v v' hv hmove => hmove.sized nofun nofun hv
  · rintro - t v v' (rfl | rfl) hv hmove
    · exact hmove.sized nofun nofun hv
    · exact hmove.sized nofun nofun hv
  · exact fun v v' q hv hq hopen hmoves =>
      (hmoves.fixed (hv.fixed hq (live_of_opened hopen))).toSized
  · exact fun v hv => ⟨hv.position, hv.agrees⟩
  · exact fun v q hv _ => hv.unregistered (v.closed_position q) rfl

/-- **A tick leaves an entry in flight alone**, unless it trips the breaker. -/
theorem tick_entering (htrips : ¬ TickTrips cfg input c) (hc : (c.holding m).Sized solIn)
    (hpos : c.store.positions.get? m = some p) (hentering : p.fsmState = .entering) :
    (c.tick cfg input).2.store.positions.get? m = some p := by
  -- what is registered open would be the entry
  have hnot : ∀ {v : Holding} {q : Position}, v.Sized solIn ∧ v.position = some p →
      v.registered = some q → q.fsmState ≠ .opened := by
    rintro v q ⟨hv, hp⟩ hq hopen
    obtain rfl := Option.some.inj (hp.symm.trans (hv.agrees q hq (live_of_opened hopen)))
    rw [hentering] at hopen
    cases hopen
  refine (tick_induction cfg input (P := fun v => v.Sized solIn ∧ v.position = some p) c ⟨hc, hpos⟩
    ?_ ?_ ?_ ?_ ?_).2
  · rintro v v' ⟨hv, hp⟩ hmove
    refine ⟨hmove.sized nofun nofun hv, ?_⟩
    cases hmove with
    | adopt _ _ => exact hp
    | drop _ => exact hp
  · exact fun h => absurd h htrips
  · exact fun v v' q hv hq hopen => absurd hopen (hnot hv hq)
  · exact fun v ⟨hv, hp⟩ => ⟨⟨hv.position, hv.agrees⟩, hp⟩
  · rintro v q hv hq
    refine ⟨hv.1.unregistered (v.closed_position q) rfl, ?_⟩
    show (v.closed q).position = some p
    unfold Holding.closed
    rw [if_neg (hnot hv hq)]
    exact hv.2

end Tick

section Calls

variable {cfg' : ControllerConfig E}

theorem flattenOne_sized (lands : Answers) (mint : String) (hc : (c.holding m).Sized solIn) :
    ((c.flattenOne lands mint).2.holding m).Sized solIn := by
  have hmoves : HoldingMoves defaultFastConfig m (fun t _ => t = .flatten ∨ t = .giveUp)
      (c.holding m) ((c.flattenOne lands mint).2.holding m) :=
    flattenOne_holdings lands c mint fun _ => ⟨.inl rfl, .inr rfl⟩
  refine hmoves.sized ?_ hc
  rintro t v (rfl | rfl)
  · exact ⟨nofun, nofun⟩
  · exact ⟨nofun, nofun⟩

theorem emergencyFlattenAll_sized (lands : Answers) (hc : (c.holding m).Sized solIn) :
    ((c.emergencyFlattenAll lands).holding m).Sized solIn := by
  have hmoves : HoldingMoves defaultFastConfig m (fun t _ => t = .flatten ∨ t = .giveUp)
      (c.holding m) ((c.emergencyFlattenAll lands).holding m) :=
    emergencyFlattenAll_holdings lands c ⟨.inl rfl, .inr rfl⟩
  refine hmoves.sized ?_ hc
  rintro t v (rfl | rfl)
  · exact ⟨nofun, nofun⟩
  · exact ⟨nofun, nofun⟩

theorem reconcileFill_sized (now : ℤ) (mint : String) (fill : FillResult)
    (hc : (c.holding m).Sized solIn) :
    ((c.reconcileFill cfg now mint fill).2.holding m).Sized solIn := by
  have hmoves : HoldingMoves cfg m (fun t _ => t = .giveUp ∨ t = .fill fill)
      (c.holding m) ((c.reconcileFill cfg now mint fill).2.holding m) :=
    (reconciled cfg now fill c mint).holdings (fun _ _ => .inl rfl) fun _ _ => .inr rfl
  refine hmoves.sized ?_ hc
  rintro t v (rfl | rfl)
  · exact ⟨nofun, nofun⟩
  · exact ⟨nofun, nofun⟩

theorem continuousReconcileTick_sized (now currentSlot : ℤ) (hc : (c.holding m).Sized solIn) :
    ((continuousReconcileTick cfg' now currentSlot c).holding m).Sized solIn := by
  have hmoves : HoldingMoves cfg'.fast m (fun t _ => t = .giveUp) (c.holding m)
      ((continuousReconcileTick cfg' now currentSlot c).holding m) :=
    continuousReconcileTick_holdings cfg' now currentSlot c fun _ => rfl
  refine hmoves.sized ?_ hc
  rintro t v rfl
  exact ⟨nofun, nofun⟩

end Calls

/-- **Where no position is new or resized** the aggregate does not grow. -/
theorem aggregate_le {c c' : FastLoop} (hnonneg : ∀ p ∈ c.store.positions.rows, 0 ≤ p.solInLamports)
    (hsized : ∀ m, (c'.holding m).Sized (c.holding m).size) :
    c'.store.getAggregateOpenLamports ≤ c.store.getAggregateOpenLamports := by
  refine Table.sum_le_sum hnonneg fun p' hp' => ?_
  have hsize := (hsized p'.mint).position p' (get?_of_mem hp')
  obtain ⟨p, hp, heq⟩ := Option.map_eq_some_iff.1 hsize
  exact ⟨p, hp, heq⟩

end Controller
end AatsSniper

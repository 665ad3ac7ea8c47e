/-
# What a loop holds of one mint

The `Holding` of a mint is its position in the store and in the registry, its exit state and
its Layer-2 stop.  A call on a controller changes it by a sequence of `HoldingMove`s
(`next_holdings`), each with the `Touch` it comes from: what one mint goes through is a
case analysis on the moves, and a call that makes no touch of a kind makes no move of it.
-/

import AatsSniper.Controller.Entries
import AatsSniper.Controller.Tidy

namespace AatsSniper
namespace Controller

open Exit (ExitConfig ExitDecision ExitState StopState)

variable {c c' : FastLoop} {pos q : Position} {m mint : String}

theorem of_none_eq_some {P : Position → Prop} (p : Position) (h : none = some p) : P p :=
  (Option.some_ne_none p h.symm).elim

/-- The position of a mint, stored and registered, its exit state, its stop, and whether the enforcer
is wired. -/
@[ext]
structure Holding where
  position : Option Position
  registered : Option Position
  exitState : Option ExitState
  stop : Option RegisteredStop
  wired : Bool

/-- What a loop holds of a mint. -/
def FastLoop.holding (c : FastLoop) (mint : String) : Holding where
  position := c.store.positions.get? mint
  registered := c.fsmRegistry.get? mint
  exitState := c.exitStates mint
  stop := c.stopOf mint
  wired := c.stops.isSome

/-! ### Moves -/

/-- What a move comes from. -/
inductive Touch
  | sync
  | judge
  | mark
  | flatten
  | giveUp
  | fill (fill : FillResult)
  | reboot
  | vanish
  | enter

namespace Holding

/-- The position as both the store and the registry hold it. -/
def saved (v : Holding) (q : Position) : Holding :=
  { v with position := some q, registered := some q }

/-- The loop forgets the mint. -/
def forgotten (v : Holding) : Holding := { v with registered := none, exitState := none }

/-- The exit state of a position that is adopted. -/
def adoptedState (cfg : FastConfig) (m : String) (v : Holding) (p : Position) : Option ExitState :=
  if p.fsmState = .opened ∧ v.exitState.isNone then
    match ExitState.atEntry m (FastLoop.estimateEntryPrice p) cfg.exitConfig with
    | .error _ => v.exitState
    | .ok exitState => some exitState
  else v.exitState

/-- An open position leaves the store; the transitions refuse any other. -/
def closed (v : Holding) (q : Position) : Holding :=
  { v with position := if q.fsmState = .opened then none else v.position }

/-- A position that has just opened is tracked. -/
def tracked (cfg : FastConfig) (m : String) (v : Holding) (q : Position) (fill : FillResult) :
    Holding :=
  match FastLoop.entryPrice fill with
  | .error _ => v
  | .ok price =>
      match ExitState.atEntry m price cfg.exitConfig with
      | .error _ => v
      | .ok exitState =>
          match StopState.atEntry m price FastLoop.defaultThresholds with
          | .error _ => { v with exitState := some exitState }
          | .ok stop =>
              { v with
                exitState := some exitState
                stop := if v.wired = true then some ⟨stop, q⟩ else v.stop }

/-- Tracking a mint moves neither of its positions. -/
theorem tracked_eq (cfg : FastConfig) (m : String) (v : Holding) (q : Position)
    (fill : FillResult) :
    (v.tracked cfg m q fill).position = v.position ∧
      (v.tracked cfg m q fill).registered = v.registered := by
  unfold tracked
  split
  · exact ⟨rfl, rfl⟩
  · split
    · exact ⟨rfl, rfl⟩
    · split
      · exact ⟨rfl, rfl⟩
      · exact ⟨rfl, rfl⟩

/-- An entry is given up. -/
def abandoned (v : Holding) (q : Position) : Holding :=
  { v with
    position := if q.fsmState = .entering then none else v.position
    registered := none }

end Holding

/-- What may happen to a mint. -/
inductive HoldingMove (cfg : FastConfig) (m : String) : Touch → Holding → Holding → Prop
  | adopt {v : Holding} {p : Position} (hpos : v.position = some p) (hnew : v.registered = none) :
      HoldingMove cfg m .sync v
        { v with registered := some p, exitState := v.adoptedState cfg m p }
  | drop {v : Holding} (hnone : v.position = none) : HoldingMove cfg m .sync v v.forgotten
  /-- The engine judges an open position. -/
  | step {v : Holding} {q : Position} {exitState : ExitState} {tick : Exit.Tick}
      {decision : ExitDecision} (hq : v.registered = some q) (hopen : q.fsmState = .opened)
      (hstate : v.exitState = some exitState)
      (hdecision : Exit.onTick cfg.exitConfig exitState tick = .ok decision) :
      HoldingMove cfg m .judge v { v with exitState := some decision.nextState }
  | value {v : Holding} {q : Position} (unrealized : ℤ) (hq : v.registered = some q)
      (hopen : q.fsmState = .opened) : HoldingMove cfg m .mark v (v.saved (q.valued unrealized))
  | scaleOut {v : Holding} {q : Position} (hq : v.registered = some q)
      (hentered : q.fsmState ≠ .entering) : HoldingMove cfg m .judge v (v.saved q.hit)
  /-- Sold and closed, by the engine, without a mark or by the stop. -/
  | exit {v : Holding} {q : Position} (hq : v.registered = some q) :
      HoldingMove cfg m .judge v { (v.closed q).forgotten with stop := none }
  /-- A stop fires for a mint that is not registered. -/
  | disarm {v : Holding} (hnone : v.registered = none) :
      HoldingMove cfg m .judge v { v with stop := none }
  | closing {v : Holding} {q : Position} (hq : v.registered = some q) (hopen : q.fsmState = .opened) :
      HoldingMove cfg m .flatten v (v.saved q.asClosing)
  | closed {v : Holding} {q : Position} (hq : v.registered = some q)
      (hstate : q.fsmState = .opened ∨ q.fsmState = .closing) :
      HoldingMove cfg m .flatten v { v with position := none, registered := some q.asClosed }
  | abandon {v : Holding} {p q : Position} (hpos : v.position = some p)
      (hentering : p.fsmState = .entering) (hq : v.registered.getD p = q) :
      HoldingMove cfg m .giveUp v (v.abandoned q)
  | fail {v : Holding} {p q : Position} (hpos : v.position = some p)
      (hentering : p.fsmState = .entering) (hq : v.registered.getD p = q) :
      HoldingMove cfg m .giveUp v (v.abandoned q).forgotten
  | fill {v : Holding} {p q : Position} {fill : FillResult} (hpos : v.position = some p)
      (hentering : p.fsmState = .entering) (hq : v.registered.getD p = q)
      (hstate : q.fsmState = .entering) (hlanded : fill.landed = true) :
      HoldingMove cfg m (.fill fill) v
        ((v.saved (q.filled fill)).tracked cfg m (q.filled fill) fill)
  /-- A new `FastLoop`. -/
  | reboot (v : Holding) : HoldingMove cfg m .reboot v { v.forgotten with stop := none }
  /-- The startup drops a position that is not registered. -/
  | vanish {v : Holding} (hnew : v.registered = none) :
      HoldingMove cfg m .vanish v { v with position := none }
  /-- An entry is submitted, or given up over the budget. -/
  | enter {v : Holding} {p : Position} (hentering : p.fsmState = .entering) :
      HoldingMove cfg m .enter v { v with position := some p }
  | blown (v : Holding) : HoldingMove cfg m .enter v { v with position := none }

/-- Some moves, each allowed where it is made. -/
def HoldingMoves (cfg : FastConfig) (m : String) (T : Touch → Holding → Prop) :
    Holding → Holding → Prop :=
  Relation.ReflTransGen fun v v' => ∃ t, T t v ∧ HoldingMove cfg m t v v'

section Moves

variable {cfg : FastConfig} {T : Touch → Holding → Prop} {v v' v'' : Holding}

theorem HoldingMoves.refl (v : Holding) : HoldingMoves cfg m T v v := Relation.ReflTransGen.refl

theorem HoldingMoves.of_eq (h : v' = v) : HoldingMoves cfg m T v v' := by
  subst h
  exact .refl v'

theorem HoldingMoves.single {t : Touch} (ht : T t v) (h : HoldingMove cfg m t v v') :
    HoldingMoves cfg m T v v' :=
  Relation.ReflTransGen.single ⟨t, ht, h⟩

theorem HoldingMoves.trans (h : HoldingMoves cfg m T v v') (h' : HoldingMoves cfg m T v' v'') :
    HoldingMoves cfg m T v v'' :=
  Relation.ReflTransGen.trans h h'

/-- Where nothing is allowed, nothing happens. -/
theorem HoldingMoves.eq (h : HoldingMoves cfg m (fun _ _ => False) v v') : v' = v := by
  induction h with
  | refl => rfl
  | tail _ hlast ih =>
      obtain ⟨_, hfalse, -⟩ := hlast
      exact hfalse.elim

/-- **Invariants of a mint.** -/
theorem HoldingMoves.invariant {P : Holding → Prop} (h : HoldingMoves cfg m T v v') (hv : P v)
    (hmove : ∀ t v v', P v → T t v → HoldingMove cfg m t v v' → P v') : P v' := by
  induction h with
  | refl => exact hv
  | tail _ hlast ih =>
      obtain ⟨t, ht, hmove'⟩ := hlast
      exact hmove t _ _ ih ht hmove'

end Moves

section Calls

variable {cfg : FastConfig} {T : Touch → Holding → Prop}

/-! ### The sync -/

theorem holding_adopt (cfg : FastConfig) (c : FastLoop) (pos : Position) (m : String)
    (hnew : c.fsmRegistry.get? pos.mint = none) :
    (FastLoop.adopt cfg c pos).2.holding m =
      if m = pos.mint then
        { c.holding m with
          registered := some pos
          exitState := (c.holding m).adoptedState cfg m pos }
      else c.holding m := by
  have hregistered : (c.fsmRegistry.upsert pos).get? m =
      if m = pos.mint then some pos else c.fsmRegistry.get? m := Table.get?_upsert _ _ _
  unfold FastLoop.adopt
  rw [hnew, Option.isSome_none, if_neg Bool.false_ne_true]
  by_cases hm : m = pos.mint
  · subst hm
    rw [if_pos rfl] at hregistered
    rw [if_pos rfl]
    unfold Holding.adoptedState
    dsimp only
    split
    · rename_i hopen
      have hopen' : pos.fsmState = .opened ∧ (c.holding pos.mint).exitState.isNone = true := hopen
      rw [if_pos hopen']
      cases ExitState.atEntry pos.mint (FastLoop.estimateEntryPrice pos) cfg.exitConfig with
      | error e => exact Holding.ext rfl hregistered rfl rfl rfl
      | ok exitState =>
          exact Holding.ext rfl hregistered (Function.update_self _ _ _) rfl rfl
    · rename_i hnot
      have hnot' : ¬ (pos.fsmState = .opened ∧ (c.holding pos.mint).exitState.isNone = true) := hnot
      rw [if_neg hnot']
      exact Holding.ext rfl hregistered rfl rfl rfl
  · rw [if_neg hm] at hregistered
    rw [if_neg hm]
    dsimp only
    split
    · split
      · exact Holding.ext rfl hregistered rfl rfl rfl
      · exact Holding.ext rfl hregistered (Function.update_of_ne hm _ _) rfl rfl
    · exact Holding.ext rfl hregistered rfl rfl rfl

theorem adopt_holdings (hsync : ∀ v, T .sync v) (m : String)
    (hpos : c.store.positions.get? pos.mint = some pos) :
    HoldingMoves cfg m T (c.holding m) ((FastLoop.adopt cfg c pos).2.holding m) := by
  by_cases hregistered : (c.fsmRegistry.get? pos.mint).isSome = true
  · refine .of_eq ?_
    unfold FastLoop.adopt
    rw [if_pos hregistered]
  · have hnew : c.fsmRegistry.get? pos.mint = none := by simpa using hregistered
    rw [holding_adopt cfg c pos m hnew]
    split_ifs with hm
    · subst hm
      exact .single (hsync _) (.adopt hpos hnew)
    · exact .refl _

theorem dropStale_holdings (hsync : ∀ v, T .sync v) (m : String)
    (hnone : c.store.positions.get? q.mint = none) :
    HoldingMoves cfg m T (c.holding m) ((c.dropStale q).holding m) := by
  by_cases hm : m = q.mint
  · subst hm
    refine .trans (.single (hsync _) (.drop hnone)) (.of_eq ?_)
    exact Holding.ext rfl (Table.get?_remove_self _ _)
      (Function.update_self _ _ _) rfl rfl
  · refine .of_eq ?_
    exact Holding.ext rfl (Table.get?_remove_of_ne hm) (Function.update_of_ne hm _ _) rfl rfl

/-- **The sync.** -/
theorem syncRegistry_holdings (hsync : ∀ v, T .sync v) (c : FastLoop) (m : String) :
    HoldingMoves cfg m T (c.holding m) ((c.syncRegistry cfg).2.holding m) := by
  have hloop : HoldingMoves cfg m T (c.holding m)
        ((runLeaving (FastLoop.adopt cfg) c c.store.positions.rows).2.holding m) ∧
      (runLeaving (FastLoop.adopt cfg) c c.store.positions.rows).2.store = c.store := by
    refine runLeaving_invariant (P := fun c' : FastLoop =>
      HoldingMoves cfg m T (c.holding m) (c'.holding m) ∧ c'.store = c.store) ⟨.refl _, rfl⟩ ?_
    rintro c' pos hpos ⟨hmoves, hstore⟩
    have hget : c'.store.positions.get? pos.mint = some pos := hstore ▸ get?_of_mem hpos
    exact ⟨hmoves.trans (adopt_holdings hsync m hget), (adopt_moves cfg hget).2.trans hstore⟩
  unfold FastLoop.syncRegistry
  split
  · rename_i hraised
    rw [hraised] at hloop
    exact hloop.1
  · rename_i synced hsynced
    rw [hsynced] at hloop
    have hstale : ∀ q ∈ synced.fsmRegistry.rows.filter
        (fun q => (synced.store.loadPosition q.mint).isNone),
        synced.store.positions.get? q.mint = none :=
      fun q hq => Option.isNone_iff_eq_none.1 (List.mem_filter.1 hq).2
    refine hloop.1.trans (List.foldlRecOn (motive := fun c' : FastLoop =>
      HoldingMoves cfg m T (synced.holding m) (c'.holding m) ∧ c'.store = synced.store) _ _
      ⟨.refl _, rfl⟩ ?_).1
    rintro c' ⟨hmoves, hstore⟩ q hq
    exact ⟨hmoves.trans (dropStale_holdings hsync m (hstore ▸ hstale q hq)), hstore⟩

/-! ### The flatten handler -/

theorem holding_abandon (c : FastLoop) (pos : Position) (m : String) :
    (c.abandon pos).holding m =
      if m = pos.mint then (c.holding m).abandoned ((c.fsmRegistry.get? pos.mint).getD pos)
      else c.holding m := by
  have hmint := mint_of_getD c pos
  unfold FastLoop.abandon
  dsimp only
  rw [vetoed_store, hmint]
  by_cases hm : m = pos.mint
  · subst hm
    rw [if_pos rfl]
    refine Holding.ext ?_ (Table.get?_remove_self _ _) rfl rfl rfl
    unfold Holding.abandoned FastLoop.holding
    dsimp only
    split_ifs
    · exact Table.get?_remove_self _ _
    · rfl
  · rw [if_neg hm]
    refine Holding.ext ?_ (Table.get?_remove_of_ne hm) rfl rfl rfl
    unfold FastLoop.holding
    dsimp only
    split_ifs
    · exact Table.get?_remove_of_ne hm
    · rfl

theorem holding_untrack (c : FastLoop) (now cooldownSeconds : ℤ) (mint m : String) :
    (c.untrack now cooldownSeconds mint).holding m =
      if m = mint then (c.holding m).forgotten else c.holding m := by
  split_ifs with hm
  · subst hm
    exact Holding.ext rfl (Table.get?_remove_self _ _) (Function.update_self _ _ _)
      rfl rfl
  · exact Holding.ext rfl (Table.get?_remove_of_ne hm) (Function.update_of_ne hm _ _) rfl rfl

theorem abandon_holdings (hgiveUp : m = pos.mint → T .giveUp (c.holding m))
    (hpos : c.store.positions.get? pos.mint = some pos) (hentering : pos.fsmState = .entering) :
    HoldingMoves cfg m T (c.holding m) ((c.abandon pos).holding m) := by
  rw [holding_abandon]
  split_ifs with hm
  · subst hm
    exact .single (hgiveUp rfl) (.abandon hpos hentering rfl)
  · exact .refl _

theorem Sold.holdings {lands : Answers} (h : Sold lands c pos c')
    (hflatten : m = pos.mint → T .flatten (c.holding m)) :
    HoldingMoves cfg m T (c.holding m) (c'.holding m) := by
  cases h with
  | called _ => exact .refl _
  | @closing q hq hmint hopen _ =>
      by_cases hm : m = q.mint
      · subst hm
        refine .trans (.single (hflatten hmint) (.closing hq hopen)) (.of_eq ?_)
        have hself : ∀ t : Table Position.mint, (t.upsert q.asClosing).get? q.mint = some q.asClosing :=
          fun t => Table.get?_upsert_self _ _
        exact Holding.ext (hself _) (hself _) rfl rfl rfl
      · have hother : ∀ t : Table Position.mint, (t.upsert q.asClosing).get? m = t.get? m :=
          fun t => Table.get?_upsert_of_ne (a := q.asClosing) hm
        exact .of_eq (Holding.ext (hother _) (hother _) rfl rfl rfl)
  | @closed q hq hmint hstate _ =>
      by_cases hm : m = q.mint
      · subst hm
        refine .trans (.single (hflatten hmint) (.closed hq hstate)) (.of_eq ?_)
        exact Holding.ext (Table.get?_remove_self _ _)
          (Table.get?_upsert_self c.fsmRegistry q.asClosed) rfl rfl rfl
      · exact .of_eq (Holding.ext (Table.get?_remove_of_ne hm)
          (Table.get?_upsert_of_ne (a := q.asClosed) hm) rfl rfl rfl)

/-- **Flattening one position.** -/
theorem flattenPosition_holdings (lands : Answers)
    (hpos : c.store.positions.get? pos.mint = some pos)
    (hflatten : m = pos.mint → T .flatten (c.holding m) ∧ T .giveUp (c.holding m)) :
    HoldingMoves cfg m T (c.holding m) ((c.flattenPosition lands pos).holding m) := by
  have hsold : m = pos.mint → T .flatten (c.holding m) := fun hm => (hflatten hm).1
  have hgiveUp : m = pos.mint → T .giveUp (c.holding m) := fun hm => (hflatten hm).2
  unfold FastLoop.flattenPosition
  split
  · exact abandon_holdings hgiveUp hpos (by assumption)
  · exact (sold lands (.inl (by assumption))).holdings hsold
  · exact (sold lands (.inr (by assumption))).holdings hsold
  · exact .refl _

theorem flattenPosition_holding_of_ne (lands : Answers)
    (hpos : c.store.positions.get? pos.mint = some pos) (hm : m ≠ pos.mint) :
    (c.flattenPosition lands pos).holding m = c.holding m := by
  have hmoves : HoldingMoves defaultFastConfig m (fun _ _ => False) (c.holding m)
      ((c.flattenPosition lands pos).holding m) :=
    flattenPosition_holdings lands hpos fun heq => absurd heq hm
  exact hmoves.eq

/-- **Flattening all positions**: each once, as it was found. -/
theorem emergencyFlattenAll_holdings (lands : Answers) (c : FastLoop)
    (hflatten : T .flatten (c.holding m) ∧ T .giveUp (c.holding m)) :
    HoldingMoves cfg m T (c.holding m) ((c.emergencyFlattenAll lands).holding m) := by
  have hrows : ∀ pos ∈ c.store.positions.rows, c.store.positions.get? pos.mint = some pos :=
    fun pos hpos => get?_of_mem hpos
  have hdistinct := c.store.positions.distinct
  unfold FastLoop.emergencyFlattenAll
  generalize c.store.positions.rows = rows at hrows hdistinct
  -- the positions before the one of the mint leave it, and so do those after
  suffices h : ∀ {c' : FastLoop}, (∀ pos ∈ rows, c'.store.positions.get? pos.mint = some pos) →
      (m ∈ rows.map Position.mint → c'.holding m = c.holding m) →
      HoldingMoves cfg m T (c'.holding m)
        ((rows.foldl (FastLoop.flattenPosition lands) c').holding m) from
    h hrows fun _ => rfl
  clear hrows
  induction rows with
  | nil => exact fun _ _ => .refl _
  | cons first rows ih =>
      intro c' hrows hheld
      rw [List.map_cons, List.nodup_cons] at hdistinct
      have hfirst := hrows first List.mem_cons_self
      have hnext : ∀ pos ∈ rows,
          (c'.flattenPosition lands first).store.positions.get? pos.mint = some pos := by
        intro pos hpos
        have hne : pos.mint ≠ first.mint := fun heq => hdistinct.1 (heq ▸ List.mem_map_of_mem hpos)
        rw [(flattenPosition_untouched lands hne).position]
        exact hrows pos (List.mem_cons_of_mem first hpos)
      by_cases hm : m = first.mint
      · refine (flattenPosition_holdings lands hfirst fun _ => ?_).trans
          (ih hdistinct.2 hnext fun hmem => absurd (hm ▸ hmem) hdistinct.1)
        rw [hheld (by simp [hm])]
        exact hflatten
      · have hsame := flattenPosition_holding_of_ne lands hfirst hm
        refine .trans (.of_eq hsame) (ih hdistinct.2 hnext fun hmem => hsame.trans (hheld ?_))
        exact List.mem_cons_of_mem _ hmem

theorem flattenOne_holdings (lands : Answers) (c : FastLoop) (mint : String)
    (hflatten : m = mint → T .flatten (c.holding m) ∧ T .giveUp (c.holding m)) :
    HoldingMoves cfg m T (c.holding m) ((c.flattenOne lands mint).2.holding m) := by
  unfold FastLoop.flattenOne
  split
  · exact .refl _
  · rename_i pos hload
    obtain rfl := mint_of_get? hload
    exact flattenPosition_holdings lands hload hflatten

/-! ### The tick -/

variable (cfg) (input : TickInput)

/-- Telling the breaker flattens, or leaves every mint alone. -/
theorem recordPnl_holdings (c : FastLoop) (deltaLamports : ℤ)
    (hflatten : Trips cfg input c deltaLamports → T .flatten (c.holding m) ∧ T .giveUp (c.holding m)) :
    HoldingMoves cfg m T (c.holding m) ((c.recordPnl cfg input deltaLamports).2.holding m) := by
  obtain ⟨b, projected, ⟨htrips, heq⟩ | ⟨-, heq⟩⟩ := recordPnl_eq cfg input c deltaLamports
  · rw [heq]
    exact emergencyFlattenAll_holdings input.lands { c with breaker := b } (hflatten htrips)
  · rw [heq]
    exact .of_eq rfl

theorem holding_of_get? {t t' : FastLoop} (hpositions : t'.store.positions.get? m = t.store.positions.get? m)
    (hregistered : t'.fsmRegistry.get? m = t.fsmRegistry.get? m)
    (hstates : t'.exitStates m = t.exitStates m) (hstops : t'.stops = t.stops) :
    t'.holding m = t.holding m := by
  refine Holding.ext hpositions hregistered hstates ?_ (congrArg Option.isSome hstops)
  unfold FastLoop.holding FastLoop.stopOf
  rw [hstops]

/-- **The engine's judgement**: a step, the mark, and what the breaker flattens. -/
theorem judgedThenMarked_holdings {mark : ℚ} {exitState : ExitState} {decision : ExitDecision}
    (hjudge : m = q.mint → ∀ v, T .judge v ∧ T .mark v)
    (hjudged : Judged cfg input c q mark exitState decision)
    (hflatten : TripsOn cfg input c q mark exitState decision → ∀ v, T .flatten v ∧ T .giveUp v) :
    HoldingMoves cfg m T (c.holding m)
      ((c.judgedThenMarked cfg input q mark exitState decision).2.holding m) := by
  have hstepped : HoldingMoves cfg m T (c.holding m)
      ((c.stepped q.mint decision.nextState).holding m) := by
    by_cases hm : m = q.mint
    · subst hm
      refine .trans (.single (hjudge rfl _).1
        (.step hjudged.registered hjudged.opened hjudged.tracked hjudged.judged)) (.of_eq ?_)
      exact Holding.ext rfl rfl (Function.update_self _ _ _) rfl rfl
    · exact .of_eq (holding_of_get? rfl rfl (Function.update_of_ne hm _ _) rfl)
  unfold FastLoop.judgedThenMarked TripsOn at *
  rw [markToMarket_eq cfg input exitState mark
    (c := c.stepped q.mint decision.nextState) hjudged.registered]
  split_ifs with hpriced
  · let unrealized := FastLoop.unrealizedPnl q exitState mark
    have hvalued : HoldingMoves cfg m T ((c.stepped q.mint decision.nextState).holding m)
        (((c.stepped q.mint decision.nextState).valuedAt q unrealized).holding m) := by
      by_cases hm : m = q.mint
      · subst hm
        refine .trans (.single (hjudge rfl _).2
          (.value unrealized hjudged.registered hjudged.opened)) (.of_eq ?_)
        have hself : ∀ t : Table Position.mint,
            (t.upsert (q.valued unrealized)).get? q.mint = some (q.valued unrealized) :=
          fun t => Table.get?_upsert_self _ _
        exact Holding.ext (hself _) (hself _) rfl rfl rfl
      · exact .of_eq (holding_of_get? (Table.get?_upsert_of_ne (a := q.valued unrealized) hm)
          (Table.get?_upsert_of_ne (a := q.valued unrealized) hm) rfl rfl)
    exact (hstepped.trans hvalued).trans
      (recordPnl_holdings cfg input _ _ fun htrips => hflatten ⟨hpriced, htrips⟩ _)
  · exact hstepped

theorem holding_deregister (c : FastLoop) (mint m : String) :
    (c.deregister mint).holding m =
      if m = mint then { c.holding m with stop := none } else c.holding m := by
  have hstop := stopOf_deregister c mint m
  have hwired : (c.deregister mint).stops.isSome = c.stops.isSome := by
    unfold FastLoop.deregister
    exact Option.isSome_map
  split_ifs with hm
  · rw [if_pos hm] at hstop
    exact Holding.ext rfl rfl rfl hstop hwired
  · rw [if_neg hm] at hstop
    exact Holding.ext rfl rfl rfl hstop hwired

/-- An open position of the registry is closed in the store. -/
theorem holding_closeFsm (c : FastLoop) (q : Position) (m : String) :
    ({ c with store := (FastLoop.closeFsm c.store q).1 } : FastLoop).holding m =
      if m = q.mint then (c.holding m).closed q else c.holding m := by
  rw [closeFsm_store]
  split_ifs with hopen hm hm
  · subst hm
    refine Holding.ext ?_ rfl rfl rfl rfl
    unfold Holding.closed
    rw [if_pos hopen]
    exact Table.get?_remove_self _ _
  · exact holding_of_get? (Table.get?_remove_of_ne hm) rfl rfl rfl
  · refine Holding.ext ?_ rfl rfl rfl rfl
    unfold Holding.closed
    rw [if_neg hopen]
  · rfl

theorem holding_exitAndClose (c : FastLoop) (q : Position) (path : ExitPath) (fractionBps : ℤ)
    (m : String) :
    (c.exitAndClose cfg input q path fractionBps).holding m =
      if m = q.mint then { ((c.holding m).closed q).forgotten with stop := none }
      else c.holding m := by
  have hclosed := holding_closeFsm (c.venueExit input.lands path q.mint fractionBps).2 q m
  unfold FastLoop.exitAndClose
  dsimp only
  rw [holding_deregister, holding_untrack]
  split_ifs with hm
  · rw [if_pos hm] at hclosed
    exact congrArg (fun v : Holding => { v.forgotten with stop := none }) hclosed
  · rw [if_neg hm] at hclosed
    exact hclosed

/-- Acting on a decision. -/
theorem act_holdings (hjudge : m = q.mint → ∀ v, T .judge v) (decision : ExitDecision)
    (hq : c.fsmRegistry.get? q.mint = some q) (hentered : q.fsmState ≠ .entering) :
    HoldingMoves cfg m T (c.holding m) ((c.act cfg input q decision).holding m) := by
  unfold FastLoop.act
  split
  · exact .refl _
  · unfold FastLoop.doFullExit
    rw [holding_exitAndClose]
    split_ifs with hm
    · subst hm
      exact .single (hjudge rfl _) (.exit hq)
    · exact .refl _
  · rename_i fractionBps _ _
    rw [doScaleOut_eq input fractionBps hq]
    by_cases hm : m = q.mint
    · subst hm
      refine .trans (.single (hjudge rfl _) (.scaleOut hq hentered)) (.of_eq ?_)
      have hself : ∀ t : Table Position.mint, (t.upsert q.hit).get? q.mint = some q.hit :=
        fun t => Table.get?_upsert_self _ _
      exact Holding.ext (hself _) (hself _) rfl rfl rfl
    · exact .of_eq (holding_of_get? (Table.get?_upsert_of_ne (a := q.hit) hm)
        (Table.get?_upsert_of_ne (a := q.hit) hm) rfl rfl)

/-- The turn of the mint trips the breaker. -/
def TurnTrips (s : FastLoop.Ticking) (mint : String) : Prop :=
  ∃ q mark exitState decision, q.mint = mint ∧ Judged cfg input s.loop q mark exitState decision ∧
    TripsOn cfg input s.loop q mark exitState decision

/-- **One turn.** -/
theorem turn_holdings (s : FastLoop.Ticking) (mint : String)
    (hjudge : m = mint → ∀ v, T .judge v ∧ T .mark v)
    (hflatten : TurnTrips cfg input s mint → ∀ v, T .flatten v ∧ T .giveUp v) :
    HoldingMoves cfg m T (s.loop.holding m)
      ((FastLoop.turn cfg input s mint).2.loop.holding m) := by
  have hturn := turned cfg input s mint
  generalize FastLoop.turn cfg input s mint = result at hturn
  cases hturn with
  | skipped _ => exact .refl _
  | @unmarked q hmint hq _ _ =>
      unfold FastLoop.forceExit
      dsimp only
      rw [holding_exitAndClose, holding_deregister]
      split_ifs with hm
      · subst hm
        exact .single (hjudge hmint _).1 (.exit hq)
      · exact .refl _
  | collected _ _ _ _ _ =>
      dsimp only
      rw [collect_loop]
      exact .refl _
  | @raised q mark exitState decision _ _ hmint hjudged hmarked =>
      have hmoves := judgedThenMarked_holdings (m := m) cfg input
        (fun hm => hjudge (hm.trans hmint)) hjudged
        fun htrips => hflatten ⟨q, mark, exitState, decision, hmint, hjudged, htrips⟩
      rw [hmarked] at hmoves
      exact hmoves
  | @acted q fsm mark exitState decision _ hmint hjudged hmarked hfsm hsame hentered =>
      have hmoves := judgedThenMarked_holdings (m := m) cfg input
        (fun hm => hjudge (hm.trans hmint)) hjudged
        fun htrips => hflatten ⟨q, mark, exitState, decision, hmint, hjudged, htrips⟩
      rw [hmarked] at hmoves
      exact hmoves.trans (act_holdings cfg input (fun hm v => (hjudge (hm.trans (hsame.trans hmint)) v).1) decision
        hfsm hentered)

/-- The bookkeeping for a mint whose stop has fired. -/
def Holding.swept (v : Holding) : Holding :=
  match v.registered with
  | none => v
  | some q => (v.closed q).forgotten

theorem holding_closeFired (now : ℤ) (c : FastLoop) (mint m : String) :
    (c.closeFired cfg now mint).holding m =
      if m = mint then (c.holding m).swept else c.holding m := by
  unfold FastLoop.closeFired
  cases hget : c.fsmRegistry.get? mint with
  | none =>
      dsimp only
      split_ifs with hm
      · subst hm
        unfold Holding.swept
        rw [show (c.holding m).registered = none from hget]
      · rfl
  | some q =>
      obtain rfl := mint_of_get? hget
      have hclosed := holding_closeFsm c q m
      dsimp only
      rw [holding_untrack]
      split_ifs with hm
      · rw [if_pos hm] at hclosed
        subst hm
        unfold Holding.swept
        rw [show (c.holding q.mint).registered = some q from hget]
        exact congrArg Holding.forgotten hclosed
      · rw [if_neg hm] at hclosed
        exact hclosed

theorem Holding.swept_swept (v : Holding) : v.swept.swept = v.swept := by
  obtain ⟨position, registered, exitState, stop, wired⟩ := v
  cases registered <;> rfl

/-- The sweep goes over the mints that have fired, once or more often. -/
theorem holding_sweep (now : ℤ) (mints : List String) (c : FastLoop) (m : String) :
    (mints.foldl (FastLoop.closeFired cfg now) c).holding m =
      if m ∈ mints then (c.holding m).swept else c.holding m := by
  induction mints generalizing c with
  | nil => rfl
  | cons mint mints ih =>
      rw [List.foldl_cons, ih, holding_closeFired]
      by_cases hm : m = mint
      · subst hm
        rw [if_pos rfl, if_pos List.mem_cons_self, Holding.swept_swept, ite_self]
      · simp [hm]

/-- The enforcer disarms the stops that it fires. -/
theorem holding_enforcer (lands : Answers) (c : FastLoop) (ticks : List (String × ℚ)) (m : String) :
    let fired := ticks.foldl (FastLoop.enforcerOnTick lands) (c, [])
    fired.1.holding m = if m ∈ fired.2 then { c.holding m with stop := none } else c.holding m := by
  refine List.foldlRecOn ticks (FastLoop.enforcerOnTick lands)
    (motive := fun s => s.1.holding m =
      if m ∈ s.2 then { c.holding m with stop := none } else c.holding m) ?_ ?_
  · exact (if_neg List.not_mem_nil).symm
  rintro ⟨c', mints⟩ hheld ⟨mint, mark⟩ -
  unfold FastLoop.enforcerOnTick
  split
  · exact hheld
  · rename_i registered _
    by_cases hbreached : registered.stop.isBreached mark = true
    · rw [if_pos hbreached]
      dsimp only at hheld ⊢
      rw [holding_deregister]
      change (if m = mint then { c'.holding m with stop := none } else c'.holding m) = _
      rw [hheld]
      by_cases hm : m = mint
      · have hlast : m ∈ mints ++ [mint] := by simp [hm]
        rw [if_pos hm, if_pos hlast]
        split_ifs
        · rfl
        · rfl
      · simp only [hm, if_false, List.mem_append, List.mem_singleton, or_false]
    · rw [if_neg hbreached]
      exact hheld

/-- **The Layer-2 pass**: the mints it fires are sold and closed. -/
theorem layer2_holdings (hjudge : ∀ v, T .judge v) (s : FastLoop.Ticking) :
    HoldingMoves cfg m T (s.loop.holding m) ((FastLoop.layer2 cfg input s).2.holding m) := by
  unfold FastLoop.layer2
  split
  · exact .refl _
  · have hfired := holding_enforcer input.lands s.loop s.enforcerTicks m
    dsimp only at hfired ⊢
    rw [holding_sweep, hfired]
    split_ifs
    · cases hget : (s.loop.holding m).registered with
      | none =>
          refine .trans (.single (hjudge _) (.disarm hget)) (.of_eq ?_)
          unfold Holding.swept
          rw [hget]
      | some q =>
          refine .trans (.single (hjudge _) (.exit hget)) (.of_eq ?_)
          rfl
    · exact .refl _

/-- Some turn of the tick trips the breaker. -/
def TickTrips (c : FastLoop) : Prop :=
  ∃ before mint after s, (c.synced cfg).fsmRegistry.rows.map Position.mint = before ++ mint :: after ∧
    runLeaving (FastLoop.turn cfg input) ⟨c.synced cfg, []⟩ before = (.ok (), s) ∧
    TurnTrips cfg input s mint

/-- **A FAST tick**, whether it returns or raises. -/
theorem tick_holdings (c : FastLoop) (hsync : ∀ v, T .sync v)
    (hjudge : ∀ v, T .judge v ∧ T .mark v)
    (hflatten : TickTrips cfg input c → ∀ v, T .flatten v ∧ T .giveUp v) :
    HoldingMoves cfg m T (c.holding m) ((c.tick cfg input).2.holding m) := by
  have hsynced : HoldingMoves cfg m T (c.holding m) ((c.synced cfg).holding m) :=
    syncRegistry_holdings hsync c m
  refine hsynced.trans ?_
  unfold FastLoop.tick
  split
  · rename_i left hraised
    obtain rfl : c.synced cfg = left := congrArg Prod.snd hraised
    exact .refl _
  · rename_i synced hran
    obtain rfl : c.synced cfg = synced := congrArg Prod.snd hran
    have hturns : HoldingMoves cfg m T ((c.synced cfg).holding m)
        ((runLeaving (FastLoop.turn cfg input) ⟨c.synced cfg, []⟩
          ((c.synced cfg).fsmRegistry.rows.map Position.mint)).2.loop.holding m) :=
      runLeaving_invariant_of_turns (P := fun s : FastLoop.Ticking =>
          HoldingMoves cfg m T ((c.synced cfg).holding m) (s.loop.holding m))
        (T := fun s mint => TurnTrips cfg input s mint → ∀ v, T .flatten v ∧ T .giveUp v) (.refl _)
        (fun before mint after s hsplit hran htrips =>
          hflatten ⟨before, mint, after, s, hsplit, hran, htrips⟩)
        fun s mint hmoves htrips =>
          hmoves.trans (turn_holdings cfg input s mint (fun _ => hjudge) htrips)
    split
    · rename_i hraised
      rw [hraised] at hturns
      exact hturns
    · rename_i hran
      rw [hran] at hturns
      exact hturns.trans (layer2_holdings cfg input (fun v => (hjudge v).1) _)

end Calls

section Reconciler

variable {cfg : FastConfig} {T : Touch → Holding → Prop}

/-! ### Fills and the reconciler -/

theorem holding_track (cfg : FastConfig) (c : FastLoop) (q : Position) (fill : FillResult)
    (m : String) :
    (FastLoop.track cfg c q fill).2.holding m =
      if m = q.mint then (c.holding m).tracked cfg m q fill else c.holding m := by
  unfold FastLoop.track Holding.tracked
  cases FastLoop.entryPrice fill with
  | error e => simp
  | ok price =>
      by_cases hm : m = q.mint
      · subst hm
        rw [if_pos rfl]
        dsimp only
        cases ExitState.atEntry q.mint price cfg.exitConfig with
        | error e => rfl
        | ok exitState =>
            have hstate : Function.update c.exitStates q.mint (some exitState) q.mint =
                some exitState := Function.update_self _ _ _
            dsimp only
            cases hstops : c.stops with
            | none =>
                have hwired : (c.holding q.mint).wired = false := congrArg Option.isSome hstops
                have hstop : (c.holding q.mint).stop = none :=
                  congrArg (fun s : Option (String → Option RegisteredStop) => s.bind (· q.mint)) hstops
                rw [hwired]
                cases StopState.atEntry q.mint price FastLoop.defaultThresholds with
                | error e => exact Holding.ext rfl rfl hstate hstop.symm rfl
                | ok stop => exact Holding.ext rfl rfl hstate hstop.symm rfl
            | some stops =>
                have hwired : (c.holding q.mint).wired = true := congrArg Option.isSome hstops
                have hstop : (c.holding q.mint).stop = stops q.mint :=
                  congrArg (fun s : Option (String → Option RegisteredStop) => s.bind (· q.mint)) hstops
                rw [hwired]
                dsimp only
                cases StopState.atEntry q.mint price FastLoop.defaultThresholds with
                | error e => exact Holding.ext rfl rfl hstate hstop.symm rfl
                | ok stop => exact Holding.ext rfl rfl hstate (Function.update_self _ _ _) rfl
      · rw [if_neg hm]
        dsimp only
        split
        · rfl
        · have hstate : ∀ exitState, Function.update c.exitStates q.mint (some exitState) m =
              c.exitStates m := fun exitState => Function.update_of_ne hm _ _
          split
          · exact Holding.ext rfl rfl (hstate _) rfl rfl
          · rename_i stops hstops
            split
            · exact Holding.ext rfl rfl (hstate _) rfl rfl
            · refine Holding.ext rfl rfl (hstate _) ?_ (congrArg Option.isSome hstops).symm
              unfold FastLoop.holding FastLoop.stopOf
              rw [hstops]
              exact Function.update_of_ne hm _ _

theorem Reconciled.holdings {now : ℤ} {fill : FillResult} (h : Reconciled cfg now fill c mint c')
    (hgiveUp : m = mint → fill.landed = false → T .giveUp (c.holding m))
    (hfill : m = mint → fill.landed = true → T (.fill fill) (c.holding m)) :
    HoldingMoves cfg m T (c.holding m) (c'.holding m) := by
  cases h with
  | ignored _ => exact .refl _
  | @opened pos q hpos hentering hmint hq hstate hlanded =>
      rw [holding_track]
      change HoldingMoves cfg m T (c.holding m) (if m = q.mint then _ else _)
      by_cases hm : m = q.mint
      · subst hm
        rw [if_pos rfl]
        refine .trans (.single (hfill hmint hlanded) (.fill hpos hentering hq hstate hlanded))
          (.of_eq ?_)
        have hself : ∀ t : Table Position.mint, (t.upsert (q.filled fill)).get? q.mint =
            some (q.filled fill) := fun t => Table.get?_upsert_self _ _
        have hsaved : (c.filled q fill).holding q.mint = (c.holding q.mint).saved (q.filled fill) :=
          Holding.ext (hself _) (hself _) rfl rfl rfl
        rw [hsaved]
      · rw [if_neg hm]
        have hother : ∀ t : Table Position.mint, (t.upsert (q.filled fill)).get? m = t.get? m :=
          fun t => Table.get?_upsert_of_ne (a := q.filled fill) hm
        exact .of_eq (Holding.ext (hother _) (hother _) rfl rfl rfl)
  | @abandoned pos hpos hentering hmint hlanded =>
      rw [holding_untrack, holding_abandon]
      split_ifs with hm
      · subst hm
        exact .single (hgiveUp hmint hlanded) (.fail hpos hentering rfl)
      · exact .refl _

/-- A fill of a mint that is not being entered is ignored. -/
theorem reconcileFill_ignored {now : ℤ} {fill : FillResult}
    (h : ∀ pos, c.store.loadPosition mint = some pos → pos.fsmState ≠ .entering) :
    (c.reconcileFill cfg now mint fill).2 = c := by
  unfold FastLoop.reconcileFill
  split
  · rfl
  · rename_i pos hpos
    rw [if_neg (h pos hpos)]

variable {E : Type} (cfg' : ControllerConfig E)

theorem continuousReconcileTick_holdings (now currentSlot : ℤ) (c : FastLoop)
    (hgiveUp : ∀ v, T .giveUp v) :
    HoldingMoves cfg'.fast m T (c.holding m)
      ((continuousReconcileTick cfg' now currentSlot c).holding m) := by
  unfold continuousReconcileTick
  refine List.foldlRecOn c.store.positions.rows (reconcileTimeout cfg' now currentSlot)
    (motive := fun c' => HoldingMoves cfg'.fast m T (c.holding m) (c'.holding m)) (.refl _) ?_
  intro c' hmoves pos _
  unfold reconcileTimeout
  split_ifs
  · exact hmoves.trans ((reconciled cfg'.fast now _ c' pos.mint).holdings (fun _ _ => hgiveUp _) nofun)
  · exact hmoves

/-- The venue has the fill of an entry of the mint. -/
def VenueState.Filled (venue : VenueState) (mint : String) (fill : FillResult) : Prop :=
  fill.landed = true ∧
    ∃ slot, venue.getFillForMint mint (makeClientIntentId mint slot "ENTRY") = some fill

/-- A position of the startup, which is not registered. -/
theorem reconcileAtStartup_holdings (now : ℤ) (venue : VenueState) {c : FastLoop}
    (hnew : c.fsmRegistry.get? pos.mint = none) (hgiveUp : ∀ v, T .giveUp v) (hvanish : ∀ v, T .vanish v)
    (hfill : ∀ fill v, venue.Filled m fill → T (.fill fill) v) :
    HoldingMoves cfg'.fast m T (c.holding m)
      ((reconcileAtStartup cfg' now venue c pos).2.holding m) := by
  have hgone : HoldingMoves cfg'.fast m T (c.holding m)
      (({ c with store := c.store.deletePosition pos.mint } : FastLoop).holding m) := by
    by_cases hm : m = pos.mint
    · subst hm
      refine .trans (.single (hvanish _) (.vanish hnew)) (.of_eq ?_)
      exact Holding.ext (Table.get?_remove_self _ _) rfl rfl rfl rfl
    · exact .of_eq (holding_of_get? (Table.get?_remove_of_ne hm) rfl rfl rfl)
  unfold reconcileAtStartup
  dsimp only
  split
  · refine (reconciled cfg'.fast now _ c pos.mint).holdings (fun _ _ => hgiveUp _) ?_
    rintro rfl hlanded
    refine hfill _ _ ⟨hlanded, pos.entrySlot, ?_⟩
    cases hfound : (venue.getFillForMint pos.mint
        (makeClientIntentId pos.mint pos.entrySlot "ENTRY")).filter fun fill => fill.landed with
    | none =>
        rw [hfound] at hlanded
        cases hlanded
    | some fill =>
        obtain ⟨hfill', -⟩ := Option.filter_eq_some_iff.1 hfound
        exact hfill'
  · split_ifs
    · unfold disappeared
      rw [closeFsm_store, if_pos (by assumption)]
      exact hgone
    · exact .refl _
  · split_ifs
    · unfold closingFilled
      rw [toClosed_eq, if_pos (by assumption)]
      exact hgone
    · exact .refl _
  · exact hgone
  · exact hgone
  · exact .refl _

theorem holding_reboot (c : FastLoop) (m : String) :
    c.reboot.holding m = { (c.holding m).forgotten with stop := none } := by
  refine Holding.ext rfl rfl rfl ?_ ?_
  · unfold FastLoop.holding FastLoop.stopOf FastLoop.reboot
    cases c.stops <;> rfl
  · exact Option.isSome_map

/-- **A restart**, reconciled with the venue. -/
theorem startupReconcile_holdings (now : ℤ) (venue : VenueState) (c : FastLoop)
    (hreboot : T .reboot (c.holding m)) (hgiveUp : ∀ v, T .giveUp v) (hvanish : ∀ v, T .vanish v)
    (hfill : ∀ fill v, venue.Filled m fill → T (.fill fill) v) :
    HoldingMoves cfg'.fast m T (c.holding m)
      ((startupReconcile cfg' now venue c.reboot).2.holding m) := by
  have hstart : HoldingMoves cfg'.fast m T (c.holding m) (c.reboot.holding m) :=
    .trans (.single hreboot (.reboot _)) (.of_eq (holding_reboot c m))
  refine hstart.trans ?_
  unfold startupReconcile
  have hrows : ∀ pos ∈ c.reboot.store.positions.rows,
      c.reboot.fsmRegistry.get? pos.mint = none := fun _ _ => rfl
  have hdistinct := c.reboot.store.positions.distinct
  generalize c.reboot.store.positions.rows = rows at hrows hdistinct
  generalize c.reboot = c' at hrows
  -- the mints still to come are not registered
  induction rows generalizing c' with
  | nil => exact .refl _
  | cons first rows ih =>
      rw [List.map_cons, List.nodup_cons] at hdistinct
      have hnew := hrows first List.mem_cons_self
      have hfirst := reconcileAtStartup_holdings cfg' now venue hnew hgiveUp hvanish hfill
      refine runLeaving_cons (P := fun c'' : FastLoop =>
        HoldingMoves cfg'.fast m T (c'.holding m) (c''.holding m)) hfirst fun _ => ?_
      refine hfirst.trans (ih hdistinct.2 _ fun pos hpos => ?_)
      have hne : pos.mint ≠ first.mint := by
        intro heq
        exact hdistinct.1 (heq ▸ List.mem_map_of_mem hpos)
      rw [(reconcileAtStartup_untouched cfg' now venue hne).registered]
      exact hrows pos (List.mem_cons_of_mem first hpos)

/-- **`process_event`.** -/
theorem processEvent_holdings (c : FastLoop) (call : SnipeCall E)
    (henter : m = call.event.mint → cfg'.snipe.PassesChecks c.store call →
      c.store.lockHeld call.now call.event.mint = false → T .enter (c.holding m)) :
    HoldingMoves cfg'.fast m T (c.holding m)
      (({ c with store := (cfg'.snipe.processEvent c.store call).2 } : FastLoop).holding m) := by
  have hprocessed := SnipeLoop.processed cfg'.snipe c.store call
  generalize cfg'.snipe.processEvent c.store call = result at hprocessed
  have hkept : ∀ st' : StateStore, st'.positions = c.store.positions →
      ({ c with store := st' } : FastLoop).holding m = c.holding m := by
    intro st' hpositions
    exact holding_of_get? (congrArg (fun t => Table.get? t m) hpositions) rfl rfl rfl
  cases hprocessed with
  | dropped _ _ hpositions _ => exact .of_eq (hkept _ hpositions)
  | released _ _ hpositions _ => exact .of_eq (hkept _ hpositions)
  | @aborted st' _ hpositions hpasses hlock =>
      have hget := congrArg (fun t => Table.get? t m) hpositions
      by_cases hm : m = call.event.mint
      · subst hm
        refine .trans (.single (henter rfl hpasses hlock) (.blown _)) (.of_eq ?_)
        exact Holding.ext (hget.trans (Table.get?_remove_self _ _)) rfl rfl rfl rfl
      · exact .of_eq (holding_of_get? (hget.trans (Table.get?_remove_of_ne hm)) rfl rfl rfl)
  | @entered pos lock st' hmint hstate _ hpositions hpasses hlock =>
      have hget := congrArg (fun t => Table.get? t m) hpositions
      by_cases hm : m = pos.mint
      · have hself : (c.store.positions.upsert pos).get? m = some pos :=
          (Table.get?_upsert _ _ _).trans (if_pos hm)
        refine .trans (.single (henter (hm.trans hmint) hpasses hlock) (.enter hstate)) (.of_eq ?_)
        exact Holding.ext (hget.trans hself) rfl rfl rfl rfl
      · exact .of_eq (holding_of_get? (hget.trans (Table.get?_upsert_of_ne hm)) rfl rfl rfl)

/-- **Every call on a controller** is a sequence of moves for every mint. -/
theorem next_holdings (c : FastLoop) (op : ControllerOp E) (m : String) :
    HoldingMoves cfg'.fast m (fun _ _ => True) (c.holding m) ((next cfg' c op).holding m) := by
  cases op with
  | processEvent call => exact processEvent_holdings cfg' c call fun _ _ _ => trivial
  | reconcileFill now mint fill =>
      exact (reconciled cfg'.fast now fill c mint).holdings (fun _ _ => trivial) fun _ _ => trivial
  | tick input =>
      exact tick_holdings cfg'.fast input c (fun _ => trivial) (fun _ => ⟨trivial, trivial⟩)
        fun _ _ => ⟨trivial, trivial⟩
  | continuousReconcileTick now currentSlot =>
      exact continuousReconcileTick_holdings cfg' now currentSlot c fun _ => trivial
  | startup now venue =>
      exact startupReconcile_holdings cfg' now venue c trivial (fun _ => trivial) (fun _ => trivial)
        fun _ _ _ => trivial
  | flattenOne lands mint => exact flattenOne_holdings lands c mint fun _ => ⟨trivial, trivial⟩
  | emergencyFlattenAll lands => exact emergencyFlattenAll_holdings lands c ⟨trivial, trivial⟩

end Reconciler

end Controller
end AatsSniper

/-
# The FAST tick

The parts of `FastLoop.tick` in order: the registry is synced, every registered mint has its
turn, and the Layer-2 pass follows.  Every part is a sequence of exit moves, also where
the tick raises (`tick_moves`).
-/

import AatsSniper.Breaker.Outcome
import AatsSniper.Controller.Flatten
import AatsSniper.Exit.Step

namespace AatsSniper
namespace Controller

open Breaker (CircuitBreaker)
open Exit (ExitDecision ExitState)

variable {l : Ledger} {c : FastLoop} {pos q : Position} {mint : String}

section Tick

variable (cfg : FastConfig) (input : TickInput)

/-- Adopting a position of the store. -/
theorem adopt_moves (hpos : c.store.positions.get? pos.mint = some pos) :
    ExitMoves c.ledger (FastLoop.adopt cfg c pos).2.ledger ∧
      (FastLoop.adopt cfg c pos).2.store = c.store := by
  unfold FastLoop.adopt
  by_cases hregistered : (c.fsmRegistry.get? pos.mint).isSome = true
  · rw [if_pos hregistered]
    exact ⟨.refl, rfl⟩
  · rw [if_neg hregistered]
    have hnew : c.fsmRegistry.get? pos.mint = none := by simpa using hregistered
    have hmove : ExitMove c.ledger { c.ledger with registry := c.fsmRegistry.upsert pos } :=
      .adopt hpos hnew
    dsimp only
    split
    · split
      · exact ⟨.single hmove, rfl⟩
      · exact ⟨.single hmove, rfl⟩
    · exact ⟨.single hmove, rfl⟩

theorem dropStale_moves (stale : List Position) (c : FastLoop) :
    ExitMoves c.ledger (stale.foldl FastLoop.dropStale c).ledger := by
  induction stale generalizing c with
  | nil => exact .refl
  | cons q stale ih => exact .head (.unregister c.ledger q.mint) (ih (c.dropStale q))

theorem syncRegistry_moves (c : FastLoop) :
    ExitMoves c.ledger (c.syncRegistry cfg).2.ledger := by
  have hloop : ExitMoves c.ledger
        (runLeaving (FastLoop.adopt cfg) c c.store.positions.rows).2.ledger ∧
      (runLeaving (FastLoop.adopt cfg) c c.store.positions.rows).2.store = c.store := by
    refine runLeaving_invariant (P := fun c' : FastLoop => ExitMoves c.ledger c'.ledger ∧
      c'.store = c.store) ⟨.refl, rfl⟩ ?_
    rintro c' pos hpos ⟨hmoves, hstore⟩
    have hget : c'.store.positions.get? pos.mint = some pos := hstore ▸ get?_of_mem hpos
    obtain ⟨hadopt, hkeeps⟩ := adopt_moves cfg hget
    exact ⟨hmoves.trans hadopt, hkeeps.trans hstore⟩
  unfold FastLoop.syncRegistry
  split
  · rename_i hraised
    rw [hraised] at hloop
    exact hloop.1
  · rename_i hsynced
    rw [hsynced] at hloop
    exact hloop.1.trans (dropStale_moves _ _)

/-- The breaker calls the flatten handler when it is told of the change. -/
def Trips (c : FastLoop) (deltaLamports : ℤ) : Prop :=
  ∃ htime : 0 ≤ input.blockTimeMs, c.breaker.flattened.length <
    (Breaker.recordPnl cfg.riskConfig cfg.soft c.breaker ⟨input.blockTimeMs, deltaLamports, htime⟩
      false).2.flattened.length

/-- The loop once the breaker was told: flattened if it tripped, and else as it was but for the
breaker and its projection. -/
theorem recordPnl_eq (c : FastLoop) (deltaLamports : ℤ) :
    ∃ b projected, (Trips cfg input c deltaLamports ∧
        (c.recordPnl cfg input deltaLamports).2 =
          { FastLoop.emergencyFlattenAll input.lands { c with breaker := b } with
            store := { (FastLoop.emergencyFlattenAll input.lands { c with breaker := b }).store with
              breaker := projected } }) ∨
      (¬ Trips cfg input c deltaLamports ∧
        (c.recordPnl cfg input deltaLamports).2 =
          { c with breaker := b, store := { c.store with breaker := projected } }) := by
  unfold FastLoop.recordPnl
  by_cases htime : 0 ≤ input.blockTimeMs
  · rw [dif_pos htime]
    dsimp only
    rcases hresult : Breaker.recordPnl cfg.riskConfig cfg.soft c.breaker
      ⟨input.blockTimeMs, deltaLamports, htime⟩ false with ⟨result, b⟩
    have hiff : Trips cfg input c deltaLamports ↔
        c.breaker.flattened.length < b.flattened.length := by
      have hlength := congrArg (fun r => List.length (CircuitBreaker.flattened r.2)) hresult
      exact ⟨fun ⟨_, h⟩ => hlength ▸ h, fun h => ⟨htime, hlength.symm ▸ h⟩⟩
    dsimp only
    by_cases htrips : c.breaker.flattened.length < b.flattened.length
    · simp only [if_pos htrips]
      cases result with
      | error e => exact ⟨b, _, .inl ⟨hiff.2 htrips, rfl⟩⟩
      | ok state => exact ⟨b, some state, .inl ⟨hiff.2 htrips, rfl⟩⟩
    · simp only [if_neg htrips]
      cases result with
      | error e => exact ⟨b, _, .inr ⟨mt hiff.1 htrips, rfl⟩⟩
      | ok state => exact ⟨b, some state, .inr ⟨mt hiff.1 htrips, rfl⟩⟩
  · rw [dif_neg htime]
    exact ⟨c.breaker, c.store.breaker, .inr ⟨fun h => htime h.1, rfl⟩⟩

/-- A trip does not raise. -/
theorem recordPnl_returns_of_trips {deltaLamports : ℤ} (h : Trips cfg input c deltaLamports) :
    (c.recordPnl cfg input deltaLamports).1 = .ok () := by
  obtain ⟨htime, hgrown⟩ := h
  obtain ⟨state, hstate⟩ := Breaker.recordPnl_returns_of_flattened hgrown
  unfold FastLoop.recordPnl
  rw [dif_pos htime]
  dsimp only
  rw [hstate]

/-- The breaker is told, and may flatten. -/
theorem recordPnl_moves (c : FastLoop) (deltaLamports : ℤ) :
    ExitMoves c.ledger (c.recordPnl cfg input deltaLamports).2.ledger := by
  obtain ⟨b, projected, ⟨-, heq⟩ | ⟨-, heq⟩⟩ := recordPnl_eq cfg input c deltaLamports
  · rw [heq]
    exact emergencyFlattenAll_moves input.lands { c with breaker := b }
  · rw [heq]
    exact .refl

theorem recordPnl_registered {m : String} (deltaLamports : ℤ) (hm : Registered m c)
    (hpos : ∀ pos, c.store.positions.get? m = some pos → pos.fsmState ≠ .entering) :
    Registered m (c.recordPnl cfg input deltaLamports).2 := by
  obtain ⟨b, projected, ⟨-, heq⟩ | ⟨-, heq⟩⟩ := recordPnl_eq cfg input c deltaLamports
  · rw [heq]
    exact emergencyFlattenAll_registered (c := { c with breaker := b }) input.lands hm hpos
  · rw [heq]
    exact hm

/-- The position with the pnl it would realize at the mark. -/
def Position.valued (q : Position) (unrealized : ℤ) : Position :=
  { q with unrealizedPnlNetLamports := unrealized }

/-- The registered position with its mark. -/
def FastLoop.valuedAt (c : FastLoop) (q : Position) (unrealized : ℤ) : FastLoop :=
  { c with
    store := c.store.savePosition (q.valued unrealized)
    fsmRegistry := c.fsmRegistry.upsert (q.valued unrealized) }

/-- A registered position is marked, and the breaker told of the change. -/
theorem markToMarket_eq (exitState : ExitState) (mark : ℚ)
    (hq : c.fsmRegistry.get? q.mint = some q) :
    c.markToMarket cfg input q exitState mark =
      if 0 < exitState.entryFillPrice ∧ 0 < q.tokensOutBase then
        (c.valuedAt q (FastLoop.unrealizedPnl q exitState mark)).recordPnl cfg input
          (FastLoop.unrealizedPnl q exitState mark - q.unrealizedPnlNetLamports)
      else (.ok (), c) := by
  have hvalued := withFsm_eq (q := q.valued (FastLoop.unrealizedPnl q exitState mark)) hq
    (c.store.savePosition (q.valued (FastLoop.unrealizedPnl q exitState mark)))
  unfold FastLoop.markToMarket
  split
  · exact congrArg (fun c' => FastLoop.recordPnl cfg input c' _) hvalued
  · rfl

/-- Marking an open position to market; it stays registered. -/
theorem markToMarket_moves (exitState : ExitState) (mark : ℚ)
    (hq : c.fsmRegistry.get? q.mint = some q) (hopen : q.fsmState = .opened) :
    ExitMoves c.ledger (c.markToMarket cfg input q exitState mark).2.ledger ∧
      Registered q.mint (c.markToMarket cfg input q exitState mark).2 := by
  have hentered : q.fsmState ≠ .entering := by
    rw [hopen]
    exact nofun
  rw [markToMarket_eq cfg input exitState mark hq]
  split
  · let unrealized := FastLoop.unrealizedPnl q exitState mark
    have hmove : ExitMove c.ledger (c.valuedAt q unrealized).ledger := .value unrealized hq hopen
    refine ⟨.head hmove (recordPnl_moves cfg input _ _), ?_⟩
    refine recordPnl_registered cfg input _ ⟨q.valued unrealized, ?_, hentered⟩ fun pos hpos => ?_
    · exact Table.get?_upsert_self _ _
    · have hself := (Table.get?_upsert c.store.positions (q.valued unrealized) q.mint).trans
        (if_pos rfl)
      obtain rfl : q.valued unrealized = pos := Option.some.inj (hself.symm.trans hpos)
      exact hentered
  · exact ⟨.refl, q, hq, hentered⟩

/-- Selling everything, and closing whatever the venue answers. -/
theorem exitAndClose_ledger (path : ExitPath) (fractionBps : ℤ) :
    (c.exitAndClose cfg input q path fractionBps).ledger =
      (((c.ledger.log path q.mint fractionBps (input.lands path q.mint c.exits.length)).close q).unregister
        q.mint).disarm q.mint := by
  unfold FastLoop.exitAndClose
  dsimp only
  rw [ledger_deregister, ledger_untrack, closeFsm_store]
  congr 2
  unfold Ledger.close
  split_ifs
  · rfl
  · rfl

/-- The stop may have been disarmed before. -/
theorem disarm_exitAndClose (l : Ledger) (q : Position) (path : ExitPath) (landed : Bool) :
    ((((l.disarm q.mint).log path q.mint 10000 landed).close q).unregister q.mint).disarm q.mint =
      (((l.log path q.mint 10000 landed).close q).unregister q.mint).disarm q.mint := by
  unfold Ledger.close
  split_ifs
  · simp [Ledger.disarm, Ledger.unregister, Ledger.log]
  · simp [Ledger.disarm, Ledger.unregister, Ledger.log]

theorem exitAndClose_moves {path : ExitPath} (hpath : path = .engine ∨ path = .markUnavailable)
    (hq : c.fsmRegistry.get? q.mint = some q) :
    ExitMove c.ledger (c.exitAndClose cfg input q path 10000).ledger := by
  rw [exitAndClose_ledger]
  exact .exitAndClose path _ hpath hq

/-- Without a mark the stop goes first. -/
theorem forceExit_moves (hq : c.fsmRegistry.get? q.mint = some q) :
    ExitMove c.ledger (FastLoop.forceExit cfg input (c.deregister q.mint) q).ledger := by
  unfold FastLoop.forceExit
  rw [exitAndClose_ledger, ledger_deregister, disarm_exitAndClose]
  exact .exitAndClose .markUnavailable _ (.inr rfl) hq

/-- The position with one more rung sold. -/
def Position.hit (q : Position) : Position := { q with tpHit := q.tpHit + 1 }

/-- A rung is sold and recorded in the store. -/
theorem doScaleOut_eq (fractionBps : ℤ) (hq : c.fsmRegistry.get? q.mint = some q) :
    c.doScaleOut input q fractionBps =
      { (c.venueExit input.lands .scaleOut q.mint fractionBps).2 with
        store := c.store.savePosition q.hit
        fsmRegistry := c.fsmRegistry.upsert q.hit } :=
  withFsm_eq (c := (c.venueExit input.lands .scaleOut q.mint fractionBps).2) (q := q.hit) hq _

/-- Acting on a decision of the engine: its full exits sell everything. -/
theorem act_moves {exitState : ExitState} {t : Exit.Tick} {decision : ExitDecision}
    (hdecision : Exit.onTick cfg.exitConfig exitState t = .ok decision)
    (hq : c.fsmRegistry.get? q.mint = some q) (hentered : q.fsmState ≠ .entering) :
    ExitMoves c.ledger (c.act cfg input q decision).ledger := by
  unfold FastLoop.act
  split
  · exact .refl
  · rename_i hintent
    obtain rfl := Exit.fractionBps_of_exit hdecision hintent
    exact .single (exitAndClose_moves cfg input (.inl rfl) hq)
  · rename_i fractionBps _ _
    rw [doScaleOut_eq input fractionBps hq]
    exact .single (.scaleOut fractionBps (input.lands .scaleOut q.mint c.exits.length) hq hentered)

theorem collect_loop (s : FastLoop.Ticking) (mint : String) (mark : ℚ) :
    (FastLoop.collect s mint mark).loop = s.loop := by
  unfold FastLoop.collect
  split
  · rfl
  · rfl

/-- The loop with the state of a mint after the engine's step. -/
def FastLoop.stepped (c : FastLoop) (mint : String) (exitState : ExitState) : FastLoop :=
  { c with exitStates := Function.update c.exitStates mint (some exitState) }

/-- The engine has judged an open position at its mark. -/
structure Judged (c : FastLoop) (q : Position) (mark : ℚ) (exitState : ExitState)
    (decision : ExitDecision) : Prop where
  registered : c.fsmRegistry.get? q.mint = some q
  opened : q.fsmState = .opened
  marked : input.marks q.mint = some mark
  tracked : c.exitStates q.mint = some exitState
  judged : Exit.onTick cfg.exitConfig exitState (input.tick q.mint mark) = .ok decision

/-- The position is marked to market once the engine has judged it. -/
def FastLoop.judgedThenMarked (c : FastLoop) (q : Position) (mark : ℚ) (exitState : ExitState)
    (decision : ExitDecision) : Except FastError Unit × FastLoop :=
  (c.stepped q.mint decision.nextState).markToMarket cfg input q exitState mark

/-- What the turn of a mint can do. -/
inductive Turned (s : FastLoop.Ticking) (mint : String) :
    Except FastError Unit × FastLoop.Ticking → Prop
  | skipped (h : ∀ q, s.loop.fsmRegistry.get? mint = some q → q.fsmState ≠ .opened) :
      Turned s mint (.ok (), s)
  /-- Without a mark the position is sold. -/
  | unmarked {q : Position} (hmint : q.mint = mint) (hq : s.loop.fsmRegistry.get? q.mint = some q)
      (hopen : q.fsmState = .opened) (hmark : input.marks q.mint = none) :
      Turned s mint
        (.ok (), { s with loop := FastLoop.forceExit cfg input (s.loop.deregister q.mint) q })
  /-- The mark is only collected: the engine has no state of the mint, or raises. -/
  | collected {q : Position} {mark : ℚ} {result : Except FastError Unit} (hmint : q.mint = mint)
      (hq : s.loop.fsmRegistry.get? q.mint = some q) (hopen : q.fsmState = .opened)
      (hmark : input.marks q.mint = some mark)
      (h : ∀ exitState decision, ¬ Judged cfg input s.loop q mark exitState decision) :
      Turned s mint (result, FastLoop.collect s q.mint mark)
  /-- The breaker raises. -/
  | raised {q : Position} {mark : ℚ} {exitState : ExitState} {decision : ExitDecision}
      {e : FastError} {left : FastLoop} (hmint : q.mint = mint)
      (hjudged : Judged cfg input s.loop q mark exitState decision)
      (hmarked : s.loop.judgedThenMarked cfg input q mark exitState decision = (.error e, left)) :
      Turned s mint (.error e, { FastLoop.collect s q.mint mark with loop := left })
  /-- The decision is acted on, with what the breaker left of the position. -/
  | acted {q fsm : Position} {mark : ℚ} {exitState : ExitState} {decision : ExitDecision}
      {marked : FastLoop} (hmint : q.mint = mint)
      (hjudged : Judged cfg input s.loop q mark exitState decision)
      (hmarked : s.loop.judgedThenMarked cfg input q mark exitState decision = (.ok (), marked))
      (hfsm : marked.fsmRegistry.get? fsm.mint = some fsm) (hsame : fsm.mint = q.mint)
      (hentered : fsm.fsmState ≠ .entering) :
      Turned s mint
        (.ok (), { FastLoop.collect s q.mint mark with loop := marked.act cfg input fsm decision })

/-- **What a turn does.** -/
theorem turned (s : FastLoop.Ticking) (mint : String) :
    Turned cfg input s mint (FastLoop.turn cfg input s mint) := by
  unfold FastLoop.turn
  split
  · rename_i hnone
    refine .skipped fun q hq => ?_
    rw [hnone] at hq
    cases hq
  · rename_i q hget
    obtain rfl := mint_of_get? hget
    split_ifs with hopen
    · split
      · exact .unmarked rfl hget hopen (by assumption)
      · rename_i mark hmark
        have hloop := collect_loop s q.mint mark
        dsimp only
        rw [hloop]
        split
        · rename_i hnone
          refine .collected rfl hget hopen hmark fun exitState decision hjudged => ?_
          have htracked := hjudged.tracked
          rw [hnone] at htracked
          cases htracked
        · rename_i exitState hexit
          split
          · rename_i e herror
            refine .collected rfl hget hopen hmark fun exitState' decision hjudged => ?_
            obtain rfl := Option.some.inj (hexit.symm.trans hjudged.tracked)
            have hjudges := hjudged.judged
            rw [herror] at hjudges
            cases hjudges
          · rename_i decision hdecision
            have hjudged : Judged cfg input s.loop q mark exitState decision :=
              ⟨hget, hopen, hmark, hexit, hdecision⟩
            split
            · rename_i hraised
              exact .raised rfl hjudged hraised
            · rename_i marked hmarked
              obtain ⟨-, fsm, hfsm, hentered⟩ := markToMarket_moves cfg input exitState mark
                (c := s.loop.stepped q.mint decision.nextState) hget hopen
              rw [show FastLoop.markToMarket cfg input (s.loop.stepped q.mint decision.nextState) q
                exitState mark = _ from hmarked] at hfsm
              have hsame := mint_of_get? hfsm
              rw [hfsm]
              exact .acted rfl hjudged hmarked (hsame.symm ▸ hfsm) hsame hentered
    · refine .skipped fun q' hq' => ?_
      obtain rfl : q = q' := Option.some.inj (hget.symm.trans hq')
      exact hopen

/-- The turn of one mint. -/
theorem turn_moves (s : FastLoop.Ticking) (mint : String) :
    ExitMoves s.loop.ledger (FastLoop.turn cfg input s mint).2.loop.ledger := by
  have hturn := turned cfg input s mint
  generalize FastLoop.turn cfg input s mint = result at hturn
  cases hturn with
  | skipped _ => exact .refl
  | unmarked _ hq _ _ => exact .single (forceExit_moves cfg input hq)
  | collected _ _ _ _ _ =>
      dsimp only
      rw [collect_loop]
  | @raised q mark exitState decision _ _ _ hjudged hmarked =>
      obtain ⟨hmoves, -⟩ := markToMarket_moves cfg input exitState mark
        (c := s.loop.stepped q.mint decision.nextState) hjudged.registered hjudged.opened
      unfold FastLoop.judgedThenMarked at hmarked
      rw [hmarked] at hmoves
      exact hmoves
  | @acted q fsm mark exitState decision _ _ hjudged hmarked hfsm _ hentered =>
      obtain ⟨hmoves, -⟩ := markToMarket_moves cfg input exitState mark
        (c := s.loop.stepped q.mint decision.nextState) hjudged.registered hjudged.opened
      unfold FastLoop.judgedThenMarked at hmarked
      rw [hmarked] at hmoves
      exact hmoves.trans (act_moves cfg input hjudged.judged hfsm hentered)

/-- The enforcer, over the collected marks: every stop that it reports has been sold. -/
theorem enforcer_moves (lands : Answers) (c : FastLoop) (ticks : List (String × ℚ)) :
    let fired := ticks.foldl (FastLoop.enforcerOnTick lands) (c, [])
    ExitMoves c.ledger fired.1.ledger ∧ ∀ m ∈ fired.2, Called fired.1.ledger .layer2 m false := by
  refine List.foldlRecOn ticks (FastLoop.enforcerOnTick lands)
    (motive := fun s => ExitMoves c.ledger s.1.ledger ∧ ∀ m ∈ s.2, Called s.1.ledger .layer2 m false)
    ?_ ?_
  · refine ⟨.refl, ?_⟩
    intro m hm
    cases hm
  rintro ⟨c', mints⟩ ⟨hmoves, hcalled⟩ ⟨mint, mark⟩ -
  unfold FastLoop.enforcerOnTick
  split
  · exact ⟨hmoves, hcalled⟩
  · split_ifs
    · dsimp only at hmoves hcalled ⊢
      rw [ledger_deregister, ledger_venueExit]
      refine ⟨hmoves.tail (.stop c'.ledger mint _), fun m hm => ?_⟩
      rcases List.mem_append.1 hm with hm | hm
      · exact (hcalled m hm).of_exits (List.prefix_append _ _)
      · obtain rfl := List.mem_singleton.1 hm
        exact (called_log c'.ledger .layer2 m _).weaken
    · exact ⟨hmoves, hcalled⟩

theorem closeFired_moves (now : ℤ) (hcalled : Called c.ledger .layer2 mint false) :
    ExitMoves c.ledger (c.closeFired cfg now mint).ledger ∧
      (c.closeFired cfg now mint).ledger.exits = c.ledger.exits := by
  unfold FastLoop.closeFired
  split
  · exact ⟨.refl, rfl⟩
  · rename_i q hget
    obtain rfl := mint_of_get? hget
    refine ⟨.single ?_, rfl⟩
    have hmove := ExitMove.closeFired hget hcalled
    rw [ledger_untrack, closeFsm_store]
    unfold Ledger.close at hmove
    split_ifs at hmove ⊢
    · exact hmove
    · exact hmove

/-- The Layer-2 pass. -/
theorem layer2_moves (s : FastLoop.Ticking) :
    ExitMoves s.loop.ledger (FastLoop.layer2 cfg input s).2.ledger := by
  unfold FastLoop.layer2
  split
  · exact .refl
  · obtain ⟨hmoves, hcalled⟩ := enforcer_moves input.lands s.loop s.enforcerTicks
    refine hmoves.trans ?_
    dsimp only
    generalize s.enforcerTicks.foldl (FastLoop.enforcerOnTick input.lands) (s.loop, []) = fired
      at hcalled
    obtain ⟨c, mints⟩ := fired
    dsimp only at hcalled ⊢
    induction mints generalizing c with
    | nil => exact .refl
    | cons mint mints ih =>
        obtain ⟨hmove, hexits⟩ := closeFired_moves cfg input.now (hcalled mint List.mem_cons_self)
        refine hmove.trans (ih (c.closeFired cfg input.now mint) fun m hm => ?_)
        exact (hcalled m (List.mem_cons_of_mem mint hm)).of_exits (hexits ▸ List.prefix_refl _)

/-- **A FAST tick**, whether it returns or raises. -/
theorem tick_moves (c : FastLoop) : ExitMoves c.ledger (c.tick cfg input).2.ledger := by
  have hsync := syncRegistry_moves cfg c
  unfold FastLoop.tick
  split
  · rename_i hraised
    rw [hraised] at hsync
    exact hsync
  · rename_i synced hsynced
    rw [hsynced] at hsync
    refine hsync.trans ?_
    have hturns : ExitMoves synced.ledger (runLeaving (FastLoop.turn cfg input) ⟨synced, []⟩
        (synced.fsmRegistry.rows.map Position.mint)).2.loop.ledger :=
      runLeaving_invariant (P := fun s : FastLoop.Ticking => ExitMoves synced.ledger s.loop.ledger)
        .refl fun s mint _ hs => hs.trans (turn_moves cfg input s mint)
    split
    · rename_i hraised
      rw [hraised] at hturns
      exact hturns
    · rename_i hran
      rw [hran] at hturns
      exact hturns.trans (layer2_moves cfg input _)

end Tick

end Controller
end AatsSniper

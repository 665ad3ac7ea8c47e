/-
# What a tick tells the breaker

`record_pnl` is told, for every position that a tick values, the change of its unrealized
PnL since the last one.  `recordedByTick` is the list of these changes, with their mints,
that the breaker takes: `tick_dayPnl` says that they are what its net of the day moves by.

The position carries the figure to which the next change is the difference.  So the
changes of one mint telescope: whatever else happens to it, the position shows their sum
(`tick_shows`).
-/

import AatsSniper.Controller.Holding
import AatsSniper.Controller.Projection

namespace AatsSniper
namespace Controller

open Breaker (CircuitBreaker)
open Exit (ExitState ExitDecision)

variable {c : FastLoop} {q : Position} {m mint : String}

section Told

variable (cfg : FastConfig) (input : TickInput)

/-! ### The changes -/

/-- The change that the turn of a mint tells the breaker. -/
def FastLoop.told (c : FastLoop) (mint : String) : Option ℤ :=
  match c.fsmRegistry.get? mint, input.marks mint, c.exitStates mint with
  | some q, some mark, some exitState =>
      match Exit.onTick cfg.exitConfig exitState (input.tick mint mark) with
      | .error _ => none
      | .ok _ =>
          if q.fsmState = .opened ∧ 0 < exitState.entryFillPrice ∧ 0 < q.tokensOutBase then
            some (FastLoop.unrealizedPnl q exitState mark - q.unrealizedPnlNetLamports)
          else none
  | _, _, _ => none

/-- What of it the breaker takes: an event has no day after the year 9999. -/
def FastLoop.recorded (c : FastLoop) (mint : String) : List (String × ℤ) :=
  if input.blockTimeMs < Breaker.endOfYear9999 then
    ((c.told cfg input mint).map fun delta => (mint, delta)).toList
  else []

/-- What the breaker takes in some turns. -/
def FastLoop.recordedIn : FastLoop.Ticking → List String → List (String × ℤ)
  | _, [] => []
  | s, mint :: mints =>
      match FastLoop.turn cfg input s mint with
      | (.error _, _) => s.loop.recorded cfg input mint
      | (.ok _, s') => s.loop.recorded cfg input mint ++ recordedIn s' mints

/-- What the breaker takes in a tick. -/
def FastLoop.recordedByTick (c : FastLoop) : List (String × ℤ) :=
  match c.syncRegistry cfg with
  | (.error _, _) => []
  | (.ok _, synced) =>
      FastLoop.recordedIn cfg input ⟨synced, []⟩ (synced.fsmRegistry.rows.map Position.mint)

/-- The sum of the changes of one mint. -/
def totalOf (mint : String) (changes : List (String × ℤ)) : ℤ :=
  ((changes.filter fun change => change.1 = mint).map Prod.snd).sum

/-- The turn of the position values it. -/
structure Valued (c : FastLoop) (q : Position) (mark : ℚ) (exitState : ExitState) : Prop where
  judged : ∃ decision, Judged cfg input c q mark exitState decision
  priced : 0 < exitState.entryFillPrice
  bought : 0 < q.tokensOutBase

variable {cfg input}

theorem Valued.told {mark : ℚ} {exitState : ExitState} (h : Valued cfg input c q mark exitState) :
    c.told cfg input q.mint =
      some (FastLoop.unrealizedPnl q exitState mark - q.unrealizedPnlNetLamports) := by
  obtain ⟨⟨decision, hjudged⟩, hpriced, hbought⟩ := h
  unfold FastLoop.told
  rw [hjudged.registered, hjudged.marked, hjudged.tracked]
  dsimp only
  rw [hjudged.judged]
  exact if_pos ⟨hjudged.opened, hpriced, hbought⟩

theorem valued_of_told {delta : ℤ} (h : c.told cfg input mint = some delta) :
    ∃ q mark exitState, q.mint = mint ∧ Valued cfg input c q mark exitState ∧
      delta = FastLoop.unrealizedPnl q exitState mark - q.unrealizedPnlNetLamports := by
  unfold FastLoop.told at h
  split at h
  · rename_i q mark exitState hget hmark hstate
    obtain rfl := mint_of_get? hget
    split at h
    · cases h
    · rename_i decision hdecision
      split_ifs at h with hvalued
      obtain rfl := Option.some.inj h
      obtain ⟨hopen, hpriced, hbought⟩ := hvalued
      exact ⟨q, mark, exitState, rfl,
        ⟨⟨decision, hget, hopen, hmark, hstate, hdecision⟩, hpriced, hbought⟩, rfl⟩
  · cases h

/-- A judged position is valued, or told the breaker nothing of. -/
theorem told_eq_none {mark : ℚ} {exitState : ExitState} {decision : ExitDecision}
    (hjudged : Judged cfg input c q mark exitState decision)
    (hnot : ¬ (0 < exitState.entryFillPrice ∧ 0 < q.tokensOutBase)) :
    c.told cfg input q.mint = none := by
  unfold FastLoop.told
  rw [hjudged.registered, hjudged.marked, hjudged.tracked]
  dsimp only
  rw [hjudged.judged]
  exact if_neg fun h => hnot h.2

/-! ### The net of the day -/

/-- The breaker books a change on its day. -/
theorem recordPnl_dayPnl {config : Breaker.RiskConfig} {soft : Breaker.SoftRatio} (b : CircuitBreaker)
    (event : Breaker.PnLEvent) (raises : Bool) (day : ℤ) :
    (Breaker.recordPnl config soft b event raises).2.dayPnl day = b.dayPnl day +
      if event.blockTimeMs < Breaker.endOfYear9999 ∧ Breaker.utcDay event.blockTimeMs = day then
        event.deltaLamports
      else 0 := by
  by_cases htime : event.blockTimeMs < Breaker.endOfYear9999
  · have hrecorded : Breaker.Recorded config soft b event _ _ :=
      Breaker.recorded_of_recordPnl raises htime
    have hpnl : (Breaker.recordPnl config soft b event raises).2.dayPnl =
        Function.update b.dayPnl (Breaker.utcDay event.blockTimeMs)
          (b.dayPnl (Breaker.utcDay event.blockTimeMs) + event.deltaLamports) := by
      generalize (Breaker.recordPnl config soft b event raises).2 = b' at hrecorded
      cases hrecorded with
      | raised _ => rfl
      | tripped _ _ _ _ => rfl
      | kept _ _ => rfl
    rw [hpnl, Function.update_apply]
    by_cases hday : day = Breaker.utcDay event.blockTimeMs
    · rw [if_pos hday, if_pos ⟨htime, hday.symm⟩, hday]
    · rw [if_neg hday, if_neg fun h => hday h.2.symm, add_zero]
  · rw [Breaker.recordPnl_snd_of_late htime, if_neg fun h => htime h.1, add_zero]

variable (cfg input)

/-- `record_pnl` of the loop books its change, whatever it flattens. -/
theorem recordPnl_booked (htime : 0 ≤ input.blockTimeMs) (c : FastLoop) (deltaLamports day : ℤ) :
    (c.recordPnl cfg input deltaLamports).2.breaker.dayPnl day = c.breaker.dayPnl day +
      if input.blockTimeMs < Breaker.endOfYear9999 ∧ Breaker.utcDay input.blockTimeMs = day then
        deltaLamports
      else 0 := by
  rw [← recordPnl_dayPnl c.breaker ⟨input.blockTimeMs, deltaLamports, htime⟩ false day]
  unfold FastLoop.recordPnl
  rw [dif_pos htime]
  dsimp only
  generalize Breaker.recordPnl cfg.riskConfig cfg.soft c.breaker
    ⟨input.blockTimeMs, deltaLamports, htime⟩ false = result
  have hflattened : (if c.breaker.flattened.length < result.2.flattened.length then
      ({ c with breaker := result.2 } : FastLoop).emergencyFlattenAll input.lands
      else { c with breaker := result.2 }).breaker = result.2 := by
    split_ifs
    · exact (emergencyFlattenAll_apart input.lands _).breaker
    · rfl
  split
  · rw [hflattened]
  · exact congrArg (fun b : CircuitBreaker => b.dayPnl day) hflattened

theorem dated_of_judged {mark : ℚ} {exitState : ExitState} {decision : ExitDecision}
    (h : Judged cfg input c q mark exitState decision) : 0 ≤ input.blockTimeMs := by
  have hdecision := h.judged
  unfold Exit.onTick at hdecision
  exact (ok_of_require hdecision).1

/-- Marking a judged position to market books what the breaker is told. -/
theorem judgedThenMarked_booked {mark : ℚ} {exitState : ExitState} {decision : ExitDecision}
    (hjudged : Judged cfg input c q mark exitState decision) (day : ℤ) :
    (c.judgedThenMarked cfg input q mark exitState decision).2.breaker.dayPnl day =
      c.breaker.dayPnl day +
        if Breaker.utcDay input.blockTimeMs = day then
          ((c.recorded cfg input q.mint).map Prod.snd).sum
        else 0 := by
  unfold FastLoop.judgedThenMarked FastLoop.recorded
  rw [markToMarket_eq cfg input exitState mark
    (c := c.stepped q.mint decision.nextState) hjudged.registered]
  by_cases hvalued : 0 < exitState.entryFillPrice ∧ 0 < q.tokensOutBase
  · have htold : c.told cfg input q.mint = some _ :=
      Valued.told ⟨⟨decision, hjudged⟩, hvalued.1, hvalued.2⟩
    rw [if_pos hvalued, recordPnl_booked cfg input (dated_of_judged cfg input hjudged), htold]
    refine congrArg (c.breaker.dayPnl day + ·) ?_
    split_ifs <;> simp_all
  · rw [if_neg hvalued, told_eq_none hjudged hvalued]
    simp
    rfl

theorem told_skipped (h : ∀ q, c.fsmRegistry.get? mint = some q → q.fsmState ≠ .opened) :
    c.told cfg input mint = none := by
  refine Option.eq_none_iff_forall_ne_some.2 fun delta htold => ?_
  obtain ⟨q, mark, exitState, rfl, ⟨⟨decision, hjudged⟩, -, -⟩, -⟩ := valued_of_told htold
  exact h q hjudged.registered hjudged.opened

theorem told_unmarked (h : input.marks mint = none) : c.told cfg input mint = none := by
  refine Option.eq_none_iff_forall_ne_some.2 fun delta htold => ?_
  obtain ⟨q, mark, exitState, rfl, ⟨⟨decision, hjudged⟩, -, -⟩, -⟩ := valued_of_told htold
  have hmarked := hjudged.marked
  rw [h] at hmarked
  cases hmarked

theorem told_collected {mark : ℚ} (hq : c.fsmRegistry.get? q.mint = some q)
    (hmark : input.marks q.mint = some mark)
    (h : ∀ exitState decision, ¬ Judged cfg input c q mark exitState decision) :
    c.told cfg input q.mint = none := by
  refine Option.eq_none_iff_forall_ne_some.2 fun delta htold => ?_
  obtain ⟨q', mark', exitState, hmint, ⟨⟨decision, hjudged⟩, -, -⟩, -⟩ := valued_of_told htold
  obtain rfl : q' = q := Option.some.inj (hjudged.registered.symm.trans (hmint ▸ hq))
  obtain rfl := Option.some.inj (hmark.symm.trans hjudged.marked)
  exact h exitState decision hjudged

theorem recorded_of_none (h : c.told cfg input mint = none) : c.recorded cfg input mint = [] := by
  unfold FastLoop.recorded
  rw [h]
  exact ite_self []

/-- **One turn** books what it tells the breaker. -/
theorem turn_dayPnl (s : FastLoop.Ticking) (mint : String) (day : ℤ) :
    (FastLoop.turn cfg input s mint).2.loop.breaker.dayPnl day = s.loop.breaker.dayPnl day +
      if Breaker.utcDay input.blockTimeMs = day then
        ((s.loop.recorded cfg input mint).map Prod.snd).sum
      else 0 := by
  have hquiet : s.loop.told cfg input mint = none → s.loop.breaker.dayPnl day =
      s.loop.breaker.dayPnl day + if Breaker.utcDay input.blockTimeMs = day then
        ((s.loop.recorded cfg input mint).map Prod.snd).sum else 0 := by
    intro htold
    rw [recorded_of_none cfg input htold]
    simp
  have hturn := turned cfg input s mint
  generalize FastLoop.turn cfg input s mint = result at hturn
  cases hturn with
  | skipped hskip => exact hquiet (told_skipped cfg input hskip)
  | unmarked hmint _ _ hmark => exact hquiet (told_unmarked cfg input (hmint ▸ hmark))
  | collected hmint hq _ hmark hnot =>
      dsimp only
      rw [collect_loop]
      exact hquiet (hmint ▸ told_collected cfg input hq hmark hnot)
  | @raised q mark exitState decision _ _ hmint hjudged hmarked =>
      have hbooked := judgedThenMarked_booked cfg input hjudged day
      rw [hmarked, hmint] at hbooked
      exact hbooked
  | @acted q fsm mark exitState decision _ hmint hjudged hmarked _ _ _ =>
      have hbooked := judgedThenMarked_booked cfg input hjudged day
      rw [hmarked, hmint] at hbooked
      rw [← hbooked]
      exact congrArg (fun b : CircuitBreaker => b.dayPnl day) (act_apart input _ fsm decision).breaker

/-- Some turns book what they tell the breaker. -/
theorem recordedIn_dayPnl (mints : List String) (s : FastLoop.Ticking) (day : ℤ) :
    (runLeaving (FastLoop.turn cfg input) s mints).2.loop.breaker.dayPnl day =
      s.loop.breaker.dayPnl day + if Breaker.utcDay input.blockTimeMs = day then
        ((FastLoop.recordedIn cfg input s mints).map Prod.snd).sum
      else 0 := by
  induction mints generalizing s with
  | nil => exact (add_eq_left.2 (ite_self 0)).symm
  | cons mint mints ih =>
      have hfirst := turn_dayPnl cfg input s mint day
      unfold FastLoop.recordedIn
      rcases hturn : FastLoop.turn cfg input s mint with ⟨e | _, s'⟩
      · rw [runLeaving_cons_error hturn]
        rw [hturn] at hfirst
        exact hfirst
      · rw [runLeaving_cons_ok hturn, ih]
        rw [hturn] at hfirst
        rw [hfirst, List.map_append, List.sum_append]
        split_ifs
        · exact add_assoc _ _ _
        · rw [add_zero]

/-- **What a tick tells the breaker** is what its net of the day moves by. -/
theorem tick_dayPnl (c : FastLoop) (day : ℤ) :
    (c.tick cfg input).2.breaker.dayPnl day = c.breaker.dayPnl day +
      if Breaker.utcDay input.blockTimeMs = day then
        ((c.recordedByTick cfg input).map Prod.snd).sum
      else 0 := by
  have hsync : (c.syncRegistry cfg).2.breaker = c.breaker := (syncRegistry_apart c).breaker
  unfold FastLoop.tick FastLoop.recordedByTick
  rcases hran : c.syncRegistry cfg with ⟨e | _, synced⟩
  · rw [hran] at hsync
    rw [show synced.breaker = c.breaker from hsync]
    exact (add_eq_left.2 (ite_self 0)).symm
  · have hturns := recordedIn_dayPnl cfg input (synced.fsmRegistry.rows.map Position.mint)
      ⟨synced, []⟩ day
    rw [hran] at hsync
    rw [show synced.breaker = c.breaker from hsync] at hturns
    dsimp only
    rw [← hturns]
    split
    · rename_i hturned
      rw [hturned]
    · rename_i hturned
      rw [hturned]
      exact congrArg (fun b : CircuitBreaker => b.dayPnl day) (layer2_apart input _).breaker

/-! ### One mint -/

variable {cfg input}

theorem totalOf_append (mint : String) (xs ys : List (String × ℤ)) :
    totalOf mint (xs ++ ys) = totalOf mint xs + totalOf mint ys := by
  unfold totalOf
  rw [List.filter_append, List.map_append, List.sum_append]

theorem totalOf_recorded_of_ne (h : m ≠ mint) : totalOf m (c.recorded cfg input mint) = 0 := by
  unfold totalOf FastLoop.recorded
  split_ifs
  · cases c.told cfg input mint with
    | none => rfl
    | some delta =>
        simp [h.symm]
  · rfl

theorem totalOf_recorded {delta : ℤ} (htold : c.told cfg input mint = some delta)
    (hdated : input.blockTimeMs < Breaker.endOfYear9999) :
    totalOf mint (c.recorded cfg input mint) = delta := by
  unfold totalOf FastLoop.recorded
  rw [if_pos hdated, htold]
  simp

theorem totalOf_recorded_of_none (htold : c.told cfg input mint = none) :
    totalOf m (c.recorded cfg input mint) = 0 := by
  rw [recorded_of_none cfg input htold]
  rfl

theorem recordedIn_append_ok {s s' : FastLoop.Ticking} {before after : List String}
    (h : runLeaving (FastLoop.turn cfg input) s before = (.ok (), s')) :
    FastLoop.recordedIn cfg input s (before ++ after) =
      FastLoop.recordedIn cfg input s before ++ FastLoop.recordedIn cfg input s' after := by
  induction before generalizing s with
  | nil =>
      cases h
      rfl
  | cons mint before ih =>
      rcases hturn : FastLoop.turn cfg input s mint with ⟨e | _, s₁⟩
      · rw [runLeaving_cons_error hturn] at h
        cases h
      · rw [runLeaving_cons_ok hturn] at h
        rw [List.cons_append, FastLoop.recordedIn, FastLoop.recordedIn, hturn]
        dsimp only
        rw [ih h, List.append_assoc]

/-- A mint whose turns tell the breaker nothing. -/
theorem totalOf_recordedIn_of_none {mints : List String} {s : FastLoop.Ticking}
    (h : ∀ before after s', mints = before ++ m :: after →
      runLeaving (FastLoop.turn cfg input) s before = (.ok (), s') →
      s'.loop.told cfg input m = none) :
    totalOf m (FastLoop.recordedIn cfg input s mints) = 0 := by
  induction mints generalizing s with
  | nil => rfl
  | cons mint mints ih =>
      have hfirst : totalOf m (s.loop.recorded cfg input mint) = 0 := by
        by_cases hm : m = mint
        · subst hm
          exact totalOf_recorded_of_none (h [] mints s rfl rfl)
        · exact totalOf_recorded_of_ne hm
      unfold FastLoop.recordedIn
      rcases hturn : FastLoop.turn cfg input s mint with ⟨e | _, s₁⟩
      · exact hfirst
      · dsimp only
        rw [totalOf_append, hfirst, zero_add]
        refine ih fun before after s' hsplit hrun => ?_
        refine h (mint :: before) after s' (by rw [hsplit, List.cons_append]) ?_
        rw [runLeaving_cons_ok hturn]
        exact hrun

theorem totalOf_recordedIn_of_notMem {mints : List String} (h : m ∉ mints) (s : FastLoop.Ticking) :
    totalOf m (FastLoop.recordedIn cfg input s mints) = 0 := by
  refine totalOf_recordedIn_of_none fun before after s' hsplit _ => absurd ?_ h
  rw [hsplit]
  exact List.mem_append_right before List.mem_cons_self

/-! ### What the position shows -/

/-- The position has these tokens, and its unrealized PnL is this. -/
def Position.Shows (p : Position) (tokens unrealized : ℤ) : Prop :=
  p.tokensOutBase = tokens ∧ p.unrealizedPnlNetLamports = unrealized

/-- The open position of a mint does. -/
structure Holding.Shows (tokens unrealized : ℤ) (v : Holding) : Prop where
  stored : ∀ p, v.position = some p → p.fsmState = .opened → p.Shows tokens unrealized
  registered : ∀ q, v.registered = some q → q.fsmState = .opened → q.Shows tokens unrealized

theorem Position.Shows.hit {p : Position} {tokens unrealized : ℤ} (h : p.Shows tokens unrealized) :
    p.hit.Shows tokens unrealized := ⟨h.1, h.2⟩

/-- The touches that neither value a position nor open one. -/
def Touch.Quiet : Touch → Prop
  | .mark => False
  | .fill _ => False
  | _ => True

section Moves

variable {tokens unrealized : ℤ} {v v' : Holding} {t : Touch}

theorem Holding.Shows.of_position {p : Position} (hposition : v.position = some p)
    (hregistered : v.registered = some p) (h : p.Shows tokens unrealized) :
    v.Shows tokens unrealized where
  stored q hq _ := by
    obtain rfl := Option.some.inj (hposition.symm.trans hq)
    exact h
  registered q hq _ := by
    obtain rfl := Option.some.inj (hregistered.symm.trans hq)
    exact h

theorem Holding.Shows.saved {p : Position} (h : p.fsmState = .opened → p.Shows tokens unrealized) :
    (v.saved p).Shows tokens unrealized where
  stored q hq hopen := by
    obtain rfl := Option.some.inj hq
    exact h hopen
  registered q hq hopen := by
    obtain rfl := Option.some.inj hq
    exact h hopen

/-- Tracking leaves the position. -/
theorem Holding.Shows.tracked (h : v.Shows tokens unrealized) (cfg : FastConfig) (m : String)
    (q : Position) (fill : FillResult) : (v.tracked cfg m q fill).Shows tokens unrealized := by
  unfold Holding.tracked
  split
  · exact h
  · split
    · exact h
    · split
      · exact ⟨h.stored, h.registered⟩
      · exact ⟨h.stored, h.registered⟩

/-- What an abandoned entry leaves in the store. -/
theorem Holding.Shows.abandoned (h : v.Shows tokens unrealized) (q : Position)
    (hposition : v'.position = (v.abandoned q).position) (hregistered : v'.registered = none) :
    v'.Shows tokens unrealized where
  stored p hp hopen := by
    unfold Holding.abandoned at hposition
    dsimp only at hposition
    split_ifs at hposition
    · rw [hposition] at hp
      cases hp
    · exact h.stored p (hposition.symm.trans hp) hopen
  registered q' hq' := by
    rw [hregistered] at hq'
    cases hq'

/-- **The quiet touches leave what the position shows.** -/
theorem HoldingMove.shows (h : HoldingMove cfg m t v v') (ht : t.Quiet)
    (hv : v.Shows tokens unrealized) : v'.Shows tokens unrealized := by
  cases h with
  | @adopt _ p hpos hnew =>
      refine ⟨hv.stored, fun q hq => ?_⟩
      obtain rfl := Option.some.inj hq
      exact hv.stored p hpos
  | drop _ => exact ⟨hv.stored, of_none_eq_some⟩
  | step _ _ _ _ => exact ⟨hv.stored, hv.registered⟩
  | value _ _ _ => exact ht.elim
  | @scaleOut _ q hq _ => exact .saved fun hopen => (hv.registered q hq hopen).hit
  | @exit _ q hq =>
      refine ⟨fun p hp hopen => ?_, of_none_eq_some⟩
      unfold Holding.closed at hp
      split_ifs at hp
      · cases hp
      · exact hv.stored p hp hopen
  | disarm _ => exact ⟨hv.stored, hv.registered⟩
  | closing _ _ => exact .saved nofun
  | closed _ _ =>
      refine ⟨of_none_eq_some, fun p hp => ?_⟩
      obtain rfl := Option.some.inj hp
      exact nofun
  | abandon _ _ _ => exact hv.abandoned _ rfl rfl
  | fail _ _ _ => exact hv.abandoned _ rfl rfl
  | fill _ _ _ _ _ => exact ht.elim
  | reboot => exact ⟨hv.stored, of_none_eq_some⟩
  | vanish _ => exact ⟨of_none_eq_some, hv.registered⟩
  | enter hentering =>
      refine ⟨fun p hp hopen => ?_, hv.registered⟩
      obtain rfl := Option.some.inj hp
      rw [hentering] at hopen
      cases hopen
  | blown => exact ⟨of_none_eq_some, hv.registered⟩

theorem HoldingMoves.shows (h : HoldingMoves cfg m (fun t _ => t.Quiet) v v')
    (hv : v.Shows tokens unrealized) : v'.Shows tokens unrealized :=
  h.invariant hv fun _ _ _ hv ht hmove => hmove.shows ht hv

end Moves

section Turns

variable {tokens unrealized : ℤ}

/-- **A judged position** shows what the breaker was told. -/
theorem judgedThenMarked_shows {mark : ℚ} {exitState : ExitState} {decision : ExitDecision}
    (hjudged : Judged cfg input c q mark exitState decision)
    (hdated : Valued cfg input c q mark exitState → input.blockTimeMs < Breaker.endOfYear9999)
    (h : (c.holding q.mint).Shows tokens unrealized) :
    ((c.judgedThenMarked cfg input q mark exitState decision).2.holding q.mint).Shows tokens
      (unrealized + totalOf q.mint (c.recorded cfg input q.mint)) := by
  have hq := h.registered q hjudged.registered hjudged.opened
  unfold FastLoop.judgedThenMarked
  rw [markToMarket_eq cfg input exitState mark
    (c := c.stepped q.mint decision.nextState) hjudged.registered]
  by_cases hpriced : 0 < exitState.entryFillPrice ∧ 0 < q.tokensOutBase
  · have hvalued : Valued cfg input c q mark exitState :=
      ⟨⟨decision, hjudged⟩, hpriced.1, hpriced.2⟩
    rw [if_pos hpriced, totalOf_recorded hvalued.told (hdated hvalued), ← hq.2, add_sub_cancel]
    let stepped := c.stepped q.mint decision.nextState
    let value := FastLoop.unrealizedPnl q exitState mark
    have hself : ∀ t : Table Position.mint, (t.upsert (q.valued value)).get? q.mint =
        some (q.valued value) := fun t => Table.get?_upsert_self _ _
    have hmarked : (stepped.valuedAt q value).holding q.mint =
        (stepped.holding q.mint).saved (q.valued value) :=
      Holding.ext (hself _) (hself _) rfl rfl rfl
    have hshows : ((stepped.valuedAt q value).holding q.mint).Shows tokens value := by
      rw [hmarked]
      exact .saved fun _ => ⟨hq.1, rfl⟩
    have hmoves : HoldingMoves cfg q.mint (fun t _ => t.Quiet) _ _ :=
      recordPnl_holdings cfg input (stepped.valuedAt q value) (value - q.unrealizedPnlNetLamports)
        fun _ => ⟨trivial, trivial⟩
    exact hmoves.shows hshows
  · rw [if_neg hpriced, totalOf_recorded_of_none (told_eq_none hjudged hpriced), add_zero]
    exact ⟨h.stored, h.registered⟩

/-- **One turn.** -/
theorem turn_shows (s : FastLoop.Ticking) (mint : String)
    (hdated : m = mint → (s.loop.told cfg input m).isSome = true →
      input.blockTimeMs < Breaker.endOfYear9999)
    (h : (s.loop.holding m).Shows tokens unrealized) :
    ((FastLoop.turn cfg input s mint).2.loop.holding m).Shows tokens
      (unrealized + totalOf m (s.loop.recorded cfg input mint)) := by
  by_cases hm : m = mint
  · subst hm
    have hquiet : s.loop.told cfg input m = none → (s.loop.holding m).Shows tokens
        (unrealized + totalOf m (s.loop.recorded cfg input m)) := by
      intro htold
      rw [totalOf_recorded_of_none htold, add_zero]
      exact h
    have hturn := turned cfg input s m
    generalize FastLoop.turn cfg input s m = result at hturn
    cases hturn with
    | skipped hskip => exact hquiet (told_skipped cfg input hskip)
    | @unmarked q hmint hq _ hmark =>
        subst hmint
        have hshows := hquiet (told_unmarked cfg input hmark)
        have hmoves : HoldingMoves cfg q.mint (fun t _ => t.Quiet) (s.loop.holding q.mint)
            ((FastLoop.forceExit cfg input (s.loop.deregister q.mint) q).holding q.mint) := by
          unfold FastLoop.forceExit
          rw [holding_exitAndClose, holding_deregister, if_pos rfl, if_pos rfl]
          exact .single (t := .judge) trivial (.exit hq)
        exact hmoves.shows hshows
    | collected hmint hq _ hmark hnot =>
        dsimp only
        rw [collect_loop]
        exact hquiet (hmint ▸ told_collected cfg input hq hmark hnot)
    | @raised q mark exitState decision _ _ hmint hjudged hmarked =>
        subst hmint
        have hshows := judgedThenMarked_shows hjudged
          (fun hvalued => hdated rfl (by rw [hvalued.told]; rfl)) h
        rw [hmarked] at hshows
        exact hshows
    | @acted q fsm mark exitState decision _ hmint hjudged hmarked hfsm _ hentered =>
        subst hmint
        have hshows := judgedThenMarked_shows hjudged
          (fun hvalued => hdated rfl (by rw [hvalued.told]; rfl)) h
        rw [hmarked] at hshows
        have hmoves : HoldingMoves cfg q.mint (fun t _ => t.Quiet) _ _ :=
          act_holdings cfg input (fun _ _ => trivial) decision hfsm hentered
        exact hmoves.shows hshows
  · have hmoves : HoldingMoves cfg m (fun t _ => t.Quiet) (s.loop.holding m) _ :=
      turn_holdings cfg input s mint (fun heq => absurd heq hm) fun _ _ => ⟨trivial, trivial⟩
    rw [totalOf_recorded_of_ne hm, add_zero]
    exact hmoves.shows h

/-- Some turns. -/
theorem recordedIn_shows {mints : List String} {s : FastLoop.Ticking}
    (hdated : ∀ before after s', mints = before ++ m :: after →
      runLeaving (FastLoop.turn cfg input) s before = (.ok (), s') →
      (s'.loop.told cfg input m).isSome = true → input.blockTimeMs < Breaker.endOfYear9999)
    (h : (s.loop.holding m).Shows tokens unrealized) :
    ((runLeaving (FastLoop.turn cfg input) s mints).2.loop.holding m).Shows tokens
      (unrealized + totalOf m (FastLoop.recordedIn cfg input s mints)) := by
  induction mints generalizing s unrealized with
  | nil =>
      rw [show totalOf m (FastLoop.recordedIn cfg input s []) = 0 from rfl, add_zero]
      exact h
  | cons mint mints ih =>
      have hfirst := turn_shows s mint (fun hm => hdated [] mints s (hm ▸ rfl) rfl) h
      unfold FastLoop.recordedIn
      rcases hturn : FastLoop.turn cfg input s mint with ⟨e | _, s₁⟩
      · rw [hturn] at hfirst
        rw [runLeaving_cons_error hturn]
        exact hfirst
      · rw [hturn] at hfirst
        rw [runLeaving_cons_ok hturn]
        dsimp only
        rw [totalOf_append, ← add_assoc]
        refine ih (fun before after s' hsplit hrun => ?_) hfirst
        refine hdated (mint :: before) after s' (by rw [hsplit, List.cons_append]) ?_
        rw [runLeaving_cons_ok hturn]
        exact hrun

end Turns

/-! ### A tick -/

section Tick

variable (cfg input)

/-- The tick comes to the turn of a mint. -/
def ComesTo (c : FastLoop) (mint : String) (s : FastLoop.Ticking) : Prop :=
  (c.syncRegistry cfg).1 = .ok () ∧
    ∃ before after, (c.synced cfg).fsmRegistry.rows.map Position.mint = before ++ mint :: after ∧
      runLeaving (FastLoop.turn cfg input) ⟨c.synced cfg, []⟩ before = (.ok (), s)

/-- The tick values a position. -/
def Values (c : FastLoop) (q : Position) (mark : ℚ) (exitState : ExitState) : Prop :=
  ∃ s, ComesTo cfg input c q.mint s ∧ Valued cfg input s.loop q mark exitState

variable {cfg input} {tokens unrealized : ℤ}

theorem recordedByTick_of_ok (hsync : (c.syncRegistry cfg).1 = .ok ()) :
    c.recordedByTick cfg input = FastLoop.recordedIn cfg input ⟨c.synced cfg, []⟩
      ((c.synced cfg).fsmRegistry.rows.map Position.mint) := by
  unfold FastLoop.recordedByTick FastLoop.synced
  rcases hran : c.syncRegistry cfg with ⟨e | _, synced⟩
  · rw [hran] at hsync
    cases hsync
  · rfl

theorem recordedByTick_of_error {e : FastError} (hsync : (c.syncRegistry cfg).1 = .error e) :
    c.recordedByTick cfg input = [] := by
  unfold FastLoop.recordedByTick
  rcases hran : c.syncRegistry cfg with ⟨e' | _, synced⟩
  · rfl
  · rw [hran] at hsync
    cases hsync

theorem synced_shows (h : (c.holding m).Shows tokens unrealized) :
    ((c.synced cfg).holding m).Shows tokens unrealized := by
  have hmoves : HoldingMoves cfg m (fun t _ => t.Quiet) (c.holding m) ((c.synced cfg).holding m) :=
    syncRegistry_holdings (fun _ => trivial) c m
  exact hmoves.shows h

/-- **A tick**: the position shows the sum of what the breaker has taken. -/
theorem tick_shows (hdated : ∀ q mark exitState, q.mint = m → Values cfg input c q mark exitState →
      input.blockTimeMs < Breaker.endOfYear9999)
    (h : (c.holding m).Shows tokens unrealized) :
    ((c.tick cfg input).2.holding m).Shows tokens
      (unrealized + totalOf m (c.recordedByTick cfg input)) := by
  have hsynced : ((c.synced cfg).holding m).Shows tokens unrealized := synced_shows h
  unfold FastLoop.tick
  split
  · rename_i left hraised
    obtain rfl : c.synced cfg = left := congrArg Prod.snd hraised
    rw [recordedByTick_of_error (congrArg Prod.fst hraised),
      show totalOf m ([] : List (String × ℤ)) = 0 from rfl, add_zero]
    exact hsynced
  · rename_i synced hran
    obtain rfl : c.synced cfg = synced := congrArg Prod.snd hran
    have hsync : (c.syncRegistry cfg).1 = .ok () := congrArg Prod.fst hran
    have hturns : ((runLeaving (FastLoop.turn cfg input) ⟨c.synced cfg, []⟩
        ((c.synced cfg).fsmRegistry.rows.map Position.mint)).2.loop.holding m).Shows tokens
        (unrealized + totalOf m (c.recordedByTick cfg input)) := by
      rw [recordedByTick_of_ok hsync]
      refine recordedIn_shows (fun before after s hsplit hrun htold => ?_) hsynced
      obtain ⟨delta, hdelta⟩ := Option.isSome_iff_exists.1 htold
      obtain ⟨q, mark, exitState, rfl, hvalued, -⟩ := valued_of_told hdelta
      exact hdated q mark exitState rfl ⟨s, ⟨hsync, before, after, hsplit, hrun⟩, hvalued⟩
    split
    · rename_i hraised
      rw [hraised] at hturns
      exact hturns
    · rename_i left hreturned
      rw [hreturned] at hturns
      have hmoves : HoldingMoves cfg m (fun t _ => t.Quiet) (left.loop.holding m) _ :=
        layer2_holdings cfg input (fun _ => trivial) left
      exact hmoves.shows hturns

/-- What a tick records of a position that it values. -/
theorem Values.recorded {mark : ℚ} {exitState : ExitState} (hvalues : Values cfg input c q mark exitState)
    (hdated : input.blockTimeMs < Breaker.endOfYear9999)
    (h : (c.holding q.mint).Shows tokens unrealized) :
    q.tokensOutBase = tokens ∧ unrealized + totalOf q.mint (c.recordedByTick cfg input) =
      FastLoop.unrealizedPnl q exitState mark := by
  obtain ⟨s, ⟨hsync, before, after, hsplit, hrun⟩, hvalued⟩ := hvalues
  have hdistinct := (c.synced cfg).fsmRegistry.distinct
  rw [hsplit] at hdistinct
  have hbefore : q.mint ∉ before := by
    intro hmem
    exact (List.nodup_append.1 hdistinct).2.2 _ hmem _ List.mem_cons_self rfl
  have hafter : q.mint ∉ after :=
    (List.nodup_cons.1 (List.nodup_append.1 hdistinct).2.1).1
  have hshows : (s.loop.holding q.mint).Shows tokens unrealized := by
    have hturns : ((runLeaving (FastLoop.turn cfg input) ⟨c.synced cfg, []⟩ before).2.loop.holding
        q.mint).Shows tokens
        (unrealized + totalOf q.mint (FastLoop.recordedIn cfg input ⟨c.synced cfg, []⟩ before)) := by
      refine recordedIn_shows (fun before' after' _ hsplit' _ _ => absurd ?_ hbefore) (synced_shows h)
      rw [hsplit']
      exact List.mem_append_right before' List.mem_cons_self
    rw [hrun, totalOf_recordedIn_of_notMem hbefore, add_zero] at hturns
    exact hturns
  obtain ⟨decision, hjudged⟩ := hvalued.judged
  obtain ⟨htokens, hstored⟩ := hshows.registered q hjudged.registered hjudged.opened
  refine ⟨htokens, ?_⟩
  have hrecorded : totalOf q.mint (c.recordedByTick cfg input) =
      FastLoop.unrealizedPnl q exitState mark - q.unrealizedPnlNetLamports := by
    rw [recordedByTick_of_ok hsync, hsplit, recordedIn_append_ok hrun, totalOf_append,
      totalOf_recordedIn_of_notMem hbefore, zero_add]
    unfold FastLoop.recordedIn
    have hown := totalOf_recorded hvalued.told hdated
    rcases hturn : FastLoop.turn cfg input s q.mint with ⟨e | _, s₁⟩
    · exact hown
    · dsimp only
      rw [totalOf_append, hown, totalOf_recordedIn_of_notMem hafter, add_zero]
  rw [hrecorded, hstored, add_sub_cancel]

theorem totalOf_recordedByTick_of_not (h : ∀ q mark exitState, q.mint = m →
    ¬ Values cfg input c q mark exitState) : totalOf m (c.recordedByTick cfg input) = 0 := by
  cases hsync : (c.syncRegistry cfg).1 with
  | error e =>
      rw [recordedByTick_of_error hsync]
      rfl
  | ok _ =>
      rw [recordedByTick_of_ok hsync]
      refine totalOf_recordedIn_of_none fun before after s hsplit hrun => ?_
      refine Option.eq_none_iff_forall_ne_some.2 fun delta htold => ?_
      obtain ⟨q, mark, exitState, rfl, hvalued, -⟩ := valued_of_told htold
      exact h q mark exitState rfl ⟨s, ⟨hsync, before, after, hsplit, hrun⟩, hvalued⟩

end Tick

end Told

end Controller
end AatsSniper

/-
# A tick that is told to leave a position

A mint whose position is open and managed by the engine, with one of the four flags up, is sold
whole by every tick that returns (`tick_sells`): at its turn by the engine, or before it by the
flatten of the breaker that another mint trips, or without a mark at once.  What happens to it
until its turn is nothing or that flatten (`turn_of_another`).
-/

import AatsSniper.Controller.Holding
import AatsSniper.Controller.MidTick

namespace AatsSniper
namespace Controller

open Exit (ExitConfig ExitDecision ExitError ExitState)

variable {c c' c'' : FastLoop} {q pos : Position} {m mint : String}

/-- Since then the venue was called to sell the whole of the mint. -/
def Sells (m : String) (c c' : FastLoop) : Prop :=
  ∃ calls, c'.exits = c.exits ++ calls ∧ ∃ call ∈ calls, call.mint = m ∧ call.fractionBps = 10000

/-- Calls were only added. -/
abbrev Grows (c c' : FastLoop) : Prop := Adds (fun _ => True) c c'

theorem Sells.one {call : ExitCall} (h : c'.exits = c.exits ++ [call]) (hmint : call.mint = m)
    (hfull : call.fractionBps = 10000) : Sells m c c' :=
  ⟨[call], h, call, List.mem_singleton_self call, hmint, hfull⟩

theorem Sells.then (h : Sells m c c') (h' : Grows c' c'') : Sells m c c'' := by
  obtain ⟨calls, hexits, call, hcall, hsold⟩ := h
  obtain ⟨calls', hexits', -⟩ := h'
  exact ⟨calls ++ calls', by rw [hexits', hexits, List.append_assoc], call,
    List.mem_append_left calls' hcall, hsold⟩

theorem Grows.thenSells (h : Grows c c') (h' : Sells m c' c'') : Sells m c c'' := by
  obtain ⟨calls, hexits, -⟩ := h
  obtain ⟨calls', hexits', call, hcall, hsold⟩ := h'
  exact ⟨calls ++ calls', by rw [hexits', hexits, List.append_assoc], call,
    List.mem_append_right calls hcall, hsold⟩

theorem flattenPosition_grows (lands : Answers) (c : FastLoop) (pos : Position) :
    Grows c (c.flattenPosition lands pos) :=
  (flattenPosition_adds lands c pos).mono fun _ _ => trivial

theorem flattenPosition_sells (lands : Answers) (c : FastLoop)
    (hstate : pos.fsmState = .opened ∨ pos.fsmState = .closing) :
    Sells pos.mint c (c.flattenPosition lands pos) := by
  have hsold : Sells pos.mint c (c.sellAll lands pos) := by
    have hsold := sold lands hstate (c := c)
    generalize c.sellAll lands pos = c' at hsold
    cases hsold with
    | called _ => exact .one rfl rfl rfl
    | closing _ _ _ _ => exact .one rfl rfl rfl
    | closed _ _ _ _ => exact .one rfl rfl rfl
  unfold FastLoop.flattenPosition
  rcases hstate with hstate | hstate
  · rw [hstate]
    exact hsold
  · rw [hstate]
    exact hsold

/-- **The flatten** sells every position that the store holds open or closing. -/
theorem emergencyFlattenAll_sells (lands : Answers) (hpos : c.store.positions.get? m = some pos)
    (hstate : pos.fsmState = .opened ∨ pos.fsmState = .closing) :
    Sells m c (c.emergencyFlattenAll lands) := by
  have hgrows : ∀ (rows : List Position) c,
      Grows c (rows.foldl (FastLoop.flattenPosition lands) c) := by
    intro rows c
    refine List.foldlRecOn rows (FastLoop.flattenPosition lands)
      (motive := fun c' => Grows c c') (.none rfl) ?_
    intro c' hgrows row _
    exact hgrows.trans (flattenPosition_grows lands c' row)
  obtain ⟨hrow, rfl⟩ := Table.mem_of_get? hpos
  obtain ⟨before, after, hsplit⟩ := List.append_of_mem hrow
  unfold FastLoop.emergencyFlattenAll
  rw [hsplit, List.foldl_append, List.foldl_cons]
  exact ((hgrows before c).thenSells (flattenPosition_sells lands _ hstate)).then (hgrows after _)

/-- One of the four flags is up. -/
def FlagUp (tick : Exit.Tick) : Prop :=
  tick.narrativeFailureFlag = true ∨ tick.insiderDumpFlag = true ∨
    tick.sellabilityDegradedFlag = true ∨ tick.lpUnlockApproachingFlag = true

/-- A flag comes before everything else. -/
theorem forcedExit_of_flagUp {config : ExitConfig} {s : ExitState} {r : ℚ} {tick : Exit.Tick}
    (h : FlagUp tick) : ∃ forced, Exit.forcedExit config s r tick = some forced := by
  unfold Exit.forcedExit
  by_cases hnarrative : tick.narrativeFailureFlag = true
  · exact ⟨_, if_pos hnarrative⟩
  rw [if_neg hnarrative]
  by_cases hdump : tick.insiderDumpFlag = true
  · exact ⟨_, if_pos hdump⟩
  rw [if_neg hdump]
  by_cases hdegraded : tick.sellabilityDegradedFlag = true
  · exact ⟨_, if_pos hdegraded⟩
  rw [if_neg hdegraded]
  have hlp := ((h.resolve_left hnarrative).resolve_left hdump).resolve_left hdegraded
  exact ⟨_, if_pos hlp⟩

/-- **The engine** sells everything where a flag is up and something is left. -/
theorem sellsAll_of_flagUp {config : ExitConfig} {s : ExitState} {tick : Exit.Tick}
    {decision : ExitDecision} (h : FlagUp tick) (hleft : 0 < s.remainingBps)
    (hdecision : Exit.onTick config s tick = .ok decision) :
    ∃ id mint mode detail, decision.intent = some (.exit id mint 10000 mode detail) := by
  unfold Exit.onTick at hdecision
  obtain ⟨-, hdecision⟩ := ok_of_require hdecision
  obtain ⟨-, hdecision⟩ := ok_of_require hdecision
  rw [if_neg (not_le.2 hleft)] at hdecision
  obtain ⟨stepped, -, hdecision⟩ := ok_of_bind hdecision
  obtain ⟨forced, hforced⟩ : ∃ forced,
      Exit.forcedExit config stepped (s.realizedR tick.markPrice) tick = some forced :=
    forcedExit_of_flagUp h
  unfold Exit.decideTick at hdecision
  rw [hforced] at hdecision
  obtain ⟨intent, hintent, hdecision⟩ := ok_of_bind hdecision
  obtain ⟨next, -, hdecision⟩ := ok_of_bind hdecision
  obtain rfl := Except.ok.inj hdecision
  obtain ⟨-, hintent⟩ := ok_of_require hintent
  obtain rfl := Except.ok.inj hintent
  exact ⟨_, _, _, _, rfl⟩

/-- The mint is open, registered as it is stored, and the engine has something of it left to sell. -/
structure Holding.Managed (v : Holding) (q : Position) : Prop where
  held : v.position = some q
  opened : q.fsmState = .opened
  registered : v.registered = some q
  tracked : ∃ exitState, v.exitState = some exitState ∧ 0 < exitState.remainingBps

section Turn

variable (cfg : FastConfig) (input : TickInput) {s s' : FastLoop.Ticking}

theorem turn_grows (s : FastLoop.Ticking) (mint : String) :
    Grows s.loop (FastLoop.turn cfg input s mint).2.loop :=
  (turn_adds cfg input s mint).mono fun _ _ => trivial

theorem turns_grow (mints : List String) (s : FastLoop.Ticking) :
    Grows s.loop (runLeaving (FastLoop.turn cfg input) s mints).2.loop := by
  refine runLeaving_invariant (P := fun s' : FastLoop.Ticking => Grows s.loop s'.loop)
    (.none rfl) ?_
  intro s' mint _ hgrows
  exact hgrows.trans (turn_grows cfg input s' mint)

theorem exitAndClose_grows (c : FastLoop) (q : Position) (path : ExitPath) (fractionBps : ℤ) :
    Grows c (c.exitAndClose cfg input q path fractionBps) := .one rfl trivial

theorem act_grows (c : FastLoop) (q : Position) (decision : ExitDecision) :
    Grows c (c.act cfg input q decision) := by
  unfold FastLoop.act
  split
  · exact .none rfl
  · exact exitAndClose_grows cfg input c q .engine _
  · exact .one rfl trivial

/-- A trip sells what the store holds open. -/
theorem judgedThenMarked_sells {mark : ℚ} {exitState : ExitState} {decision : ExitDecision}
    (hjudged : Judged cfg input c q mark exitState decision)
    (htrips : TripsOn cfg input c q mark exitState decision)
    (hpos : c.store.positions.get? m = some pos) (hopen : pos.fsmState = .opened)
    (hne : m ≠ q.mint) :
    Sells m c (c.judgedThenMarked cfg input q mark exitState decision).2 := by
  obtain ⟨hpriced, htrips⟩ := htrips
  unfold FastLoop.judgedThenMarked
  rw [markToMarket_eq cfg input exitState mark
    (c := c.stepped q.mint decision.nextState) hjudged.registered, if_pos hpriced]
  obtain ⟨b, projected, ⟨-, heq⟩ | ⟨hnot, -⟩⟩ := recordPnl_eq cfg input
    ((c.stepped q.mint decision.nextState).valuedAt q (FastLoop.unrealizedPnl q exitState mark))
    (FastLoop.unrealizedPnl q exitState mark - q.unrealizedPnlNetLamports)
  · rw [heq]
    have hkept : ((c.stepped q.mint decision.nextState).valuedAt q
        (FastLoop.unrealizedPnl q exitState mark)).store.positions.get? m = some pos :=
      (Table.get?_upsert_of_ne (a := q.valued (FastLoop.unrealizedPnl q exitState mark)) hne).trans
        hpos
    obtain ⟨calls, hexits, hsold⟩ := emergencyFlattenAll_sells input.lands
      (c := { (c.stepped q.mint decision.nextState).valuedAt q
        (FastLoop.unrealizedPnl q exitState mark) with breaker := b }) hkept (.inl hopen)
    exact ⟨calls, hexits, hsold⟩
  · exact absurd htrips hnot

/-- **The turn of another mint** leaves this one alone, or trips the breaker and so sells it. -/
theorem turn_of_another (hpos : s.loop.store.positions.get? m = some pos)
    (hopen : pos.fsmState = .opened) (hne : m ≠ mint) :
    (FastLoop.turn cfg input s mint).2.loop.holding m = s.loop.holding m ∨
      Sells m s.loop (FastLoop.turn cfg input s mint).2.loop := by
  by_cases htrips : TurnTrips cfg input s mint
  · right
    obtain ⟨q, mark, exitState, decision, rfl, hjudged, htrips⟩ := htrips
    obtain ⟨fsm, -, hturn⟩ := turn_of_judged cfg input hjudged (by
      unfold FastLoop.judgedThenMarked
      rw [markToMarket_eq cfg input exitState mark
        (c := s.loop.stepped q.mint decision.nextState) hjudged.registered, if_pos htrips.1]
      exact recordPnl_returns_of_trips cfg input htrips.2)
    rw [hturn]
    exact (judgedThenMarked_sells cfg input hjudged htrips hpos hopen hne).then
      (act_grows cfg input _ fsm decision)
  · left
    exact HoldingMoves.eq (turn_holdings cfg input s mint (fun hm => absurd hm hne)
      fun h => absurd h htrips)

/-- **The turn of a managed mint** sells it, where a flag is up or there is no mark. -/
theorem turn_sells (hmanaged : (s.loop.holding m).Managed q)
    (hflag : ∀ mark, input.marks m = some mark → FlagUp (input.tick m mark))
    (hturn : FastLoop.turn cfg input s m = (.ok (), s')) : Sells m s.loop s'.loop := by
  have hregistered : s.loop.fsmRegistry.get? m = some q := hmanaged.registered
  obtain rfl := mint_of_get? hregistered
  obtain ⟨exitState, hstate, hleft⟩ := hmanaged.tracked
  have htracked : s.loop.exitStates q.mint = some exitState := hstate
  have hturned := turned cfg input s q.mint
  rw [hturn] at hturned
  cases hturned with
  | skipped hclosed => exact absurd hmanaged.opened (hclosed q hregistered)
  | @unmarked q' hmint hq _ _ => exact .one rfl hmint rfl
  | @collected q' mark _ hmint hq _ hmark hnot =>
      -- the engine has a state of the mint, so that it raised
      exfalso
      have hmark' : input.marks q.mint = some mark := hmint ▸ hmark
      unfold FastLoop.turn at hturn
      simp only [hregistered, if_pos hmanaged.opened, hmark', collect_loop, htracked] at hturn
      cases hdecision : Exit.onTick cfg.exitConfig exitState (input.tick q.mint mark) with
      | error e =>
          rw [hdecision] at hturn
          cases hturn
      | ok decision =>
          obtain rfl : q' = q := Option.some.inj ((hmint ▸ hq).symm.trans hregistered)
          exact hnot exitState decision ⟨hregistered, hmanaged.opened, hmark, htracked, hdecision⟩
  | @acted q' fsm mark exitState' decision marked hmint hjudged hmarked hfsm hsame _ =>
      have hsame' : s.loop.exitStates q'.mint = some exitState := hmint.symm ▸ htracked
      obtain rfl := Option.some.inj (hsame'.symm.trans hjudged.tracked)
      obtain ⟨id, mint, mode, detail, hintent⟩ := sellsAll_of_flagUp
        (hmint.symm ▸ hflag mark (hmint ▸ hjudged.marked)) hleft hjudged.judged
      have hgrows : Grows s.loop marked := by
        have hadds := judgedThenMarked_adds cfg input hjudged
        rw [hmarked] at hadds
        exact hadds.mono fun _ _ => trivial
      refine hgrows.thenSells ?_
      show Sells q.mint marked (marked.act cfg input fsm decision)
      unfold FastLoop.act
      rw [hintent]
      exact .one rfl (hsame.trans hmint) rfl

/-- The turns up to the one of a managed mint. -/
theorem turns_sell {mints : List String} (hmem : m ∈ mints)
    (hmanaged : (s.loop.holding m).Managed q)
    (hflag : ∀ mark, input.marks m = some mark → FlagUp (input.tick m mark))
    (hran : runLeaving (FastLoop.turn cfg input) s mints = (.ok (), s')) :
    Sells m s.loop s'.loop := by
  induction mints generalizing s with
  | nil => cases hmem
  | cons mint mints ih =>
      have hgrows : ∀ s₁, runLeaving (FastLoop.turn cfg input) s₁ mints = (.ok (), s') →
          Grows s₁.loop s'.loop := by
        intro s₁ hrest
        have hgrows := turns_grow cfg input mints s₁
        rw [hrest] at hgrows
        exact hgrows
      rcases hturn : FastLoop.turn cfg input s mint with ⟨e | _, s₁⟩
      · rw [runLeaving_cons_error hturn] at hran
        cases hran
      · rw [runLeaving_cons_ok hturn] at hran
        by_cases hm : m = mint
        · subst hm
          exact (turn_sells cfg input hmanaged hflag hturn).then (hgrows s₁ hran)
        · have hother := turn_of_another cfg input (s := s) hmanaged.held hmanaged.opened hm
          have hturnGrows := turn_grows cfg input s mint
          rw [hturn] at hother hturnGrows
          rcases hother with hsame | hsells
          · refine hturnGrows.thenSells (ih ((List.mem_cons.1 hmem).resolve_left hm) ?_ hran)
            show (s₁.loop.holding m).Managed q
            rw [hsame]
            exact hmanaged
          · exact hsells.then (hgrows s₁ hran)

/-- Before a tick: the mint is open, and registered as it is stored with something left to sell, or
not taken up yet. -/
structure Holding.Manageable (v : Holding) (q : Position) : Prop where
  held : v.position = some q
  opened : q.fsmState = .opened
  tracked : (v.registered = some q ∧
      ∃ exitState, v.exitState = some exitState ∧ 0 < exitState.remainingBps) ∨
    (v.registered = none ∧ v.exitState = none)

theorem remainingBps_atEntry {mint : String} {entry : ℚ} {config : ExitConfig}
    {exitState : ExitState} (h : ExitState.atEntry mint entry config = .ok exitState) :
    0 < exitState.remainingBps := by
  unfold ExitState.atEntry at h
  obtain ⟨thresholds, -, h⟩ := ok_of_bind h
  obtain ⟨stop, -, h⟩ := ok_of_bind h
  obtain ⟨_, -, h⟩ := ok_of_bind h
  obtain rfl := Except.ok.inj h
  show (0 : ℤ) < 10000
  omega

/-- A manageable mint that is registered is managed. -/
theorem Holding.Manageable.managed {v : Holding} (h : v.Manageable q)
    (hregistered : v.registered.isSome = true) : v.Managed q := by
  rcases h.tracked with ⟨hq, hstate⟩ | ⟨hnone, -⟩
  · exact ⟨h.held, h.opened, hq, hstate⟩
  · rw [hnone] at hregistered
    cases hregistered

/-- An open position that the loop does not know is adopted with a state of the engine. -/
theorem adopt_tracks (hnew : c.fsmRegistry.get? q.mint = none) (hopen : q.fsmState = .opened)
    (hnone : c.exitStates q.mint = none) (hran : FastLoop.adopt cfg c q = (.ok (), c')) :
    ∃ exitState, (c'.holding q.mint).exitState = some exitState ∧ 0 < exitState.remainingBps := by
  unfold FastLoop.adopt at hran
  rw [hnew, hnone, Option.isSome_none, if_neg Bool.false_ne_true] at hran
  dsimp only at hran
  rw [if_pos ⟨hopen, rfl⟩] at hran
  split at hran
  · cases hran
  · rename_i exitState hentry
    obtain ⟨-, rfl⟩ := Prod.mk.inj hran
    exact ⟨exitState, Function.update_self .., remainingBps_atEntry hentry⟩

/-- Adopting a position leaves a manageable mint so. -/
theorem adopt_manageable (hmanageable : (c.holding m).Manageable q)
    (hrow : pos.mint = m → pos = q) (hran : FastLoop.adopt cfg c pos = (.ok (), c')) :
    (c'.holding m).Manageable q := by
  by_cases hregistered : (c.fsmRegistry.get? pos.mint).isSome = true
  · obtain rfl : c = c' := by
      unfold FastLoop.adopt at hran
      rw [if_pos hregistered] at hran
      exact (Prod.mk.inj hran).2
    exact hmanageable
  · have hnew : c.fsmRegistry.get? pos.mint = none := by simpa using hregistered
    have hholding := holding_adopt cfg c pos m hnew
    rw [hran] at hholding
    by_cases hm : m = pos.mint
    · obtain rfl := hrow hm.symm
      subst hm
      have hnone : c.exitStates pos.mint = none := by
        rcases hmanageable.tracked with ⟨hq, -⟩ | ⟨-, hnone⟩
        · rw [show c.fsmRegistry.get? pos.mint = some pos from hq] at hnew
          cases hnew
        · exact hnone
      have htracks := adopt_tracks cfg hnew hmanageable.opened hnone hran
      rw [if_pos rfl] at hholding
      have hheld : (c'.holding pos.mint).position = some pos := by
        rw [hholding]
        exact hmanageable.held
      have hknown : (c'.holding pos.mint).registered = some pos := by rw [hholding]
      exact ⟨hheld, hmanageable.opened, .inl ⟨hknown, htracks⟩⟩
    · rw [if_neg hm] at hholding
      rw [hholding]
      exact hmanageable

theorem adoptions_manageable {rows : List Position} (hmanageable : (c.holding m).Manageable q)
    (hrows : ∀ pos ∈ rows, pos.mint = m → pos = q)
    (hran : runLeaving (FastLoop.adopt cfg) c rows = (.ok (), c')) :
    (c'.holding m).Manageable q := by
  induction rows generalizing c with
  | nil =>
      obtain ⟨-, rfl⟩ := Prod.mk.inj hran
      exact hmanageable
  | cons pos rows ih =>
      rcases hadopt : FastLoop.adopt cfg c pos with ⟨e | _, c₁⟩
      · rw [runLeaving_cons_error hadopt] at hran
        cases hran
      · rw [runLeaving_cons_ok hadopt] at hran
        exact ih (adopt_manageable cfg hmanageable (hrows pos List.mem_cons_self) hadopt)
          (fun p hp => hrows p (List.mem_cons_of_mem pos hp)) hran

/-- The sync drops no mint that the store holds. -/
theorem dropStale_holding {stale : List Position} (c : FastLoop)
    (hstale : ∀ p ∈ stale, p.mint ≠ m) :
    (stale.foldl FastLoop.dropStale c).holding m = c.holding m := by
  refine List.foldlRecOn stale FastLoop.dropStale
    (motive := fun c' : FastLoop => c'.holding m = c.holding m) rfl ?_
  intro c' hsame p hp
  have hne : m ≠ p.mint := (hstale p hp).symm
  rw [← hsame]
  exact Holding.ext rfl (Table.get?_remove_of_ne hne) (Function.update_of_ne hne _ _) rfl rfl

/-- **After the sync** a manageable mint is managed. -/
theorem synced_managed (hmanageable : (c.holding m).Manageable q)
    (hran : (c.syncRegistry cfg).1 = .ok ()) : ((c.synced cfg).holding m).Managed q := by
  have hheld : c.store.positions.get? m = some q := hmanageable.held
  obtain ⟨hrow, rfl⟩ := Table.mem_of_get? hheld
  unfold FastLoop.synced
  unfold FastLoop.syncRegistry at hran ⊢
  rcases hsynced : runLeaving (FastLoop.adopt cfg) c c.store.positions.rows with ⟨e | _, synced⟩
  · rw [hsynced] at hran
    cases hran
  · have hrows : ∀ pos ∈ c.store.positions.rows, pos.mint = q.mint → pos = q := by
      intro pos hpos hmint
      exact Option.some.inj ((hmint ▸ get?_of_mem hpos).symm.trans hheld)
    have hstill := adoptions_manageable cfg hmanageable hrows hsynced
    have hregistered := adoptions_register cfg hsynced q hrow
    have hstale : ∀ p ∈ synced.fsmRegistry.rows.filter
        (fun p => (synced.store.loadPosition p.mint).isNone), p.mint ≠ q.mint := by
      intro p hp hmint
      have hnone := Option.isNone_iff_eq_none.1 (List.mem_filter.1 hp).2
      rw [hmint, show synced.store.loadPosition q.mint = some q from hstill.held] at hnone
      cases hnone
    dsimp only
    rw [dropStale_holding synced hstale]
    exact hstill.managed hregistered

theorem layer2_grows (s : FastLoop.Ticking) : Grows s.loop (FastLoop.layer2 cfg input s).2 := by
  obtain ⟨calls, hcalls⟩ := layer2_prefix cfg input s
  exact ⟨calls, hcalls.symm, fun _ _ => trivial⟩

/-- **A tick that returns** sells every manageable mint that has a flag up, or no mark. -/
theorem tick_sells (hmanageable : (c.holding m).Manageable q)
    (hflag : ∀ mark, input.marks m = some mark → FlagUp (input.tick m mark))
    (hran : (c.tick cfg input).1 = .ok ()) : Sells m c (c.tick cfg input).2 := by
  have hsync : Grows c (c.synced cfg) := .none (synced_exits cfg c)
  unfold FastLoop.tick at hran ⊢
  rcases hsynced : c.syncRegistry cfg with ⟨e | _, synced⟩
  · rw [hsynced] at hran
    cases hran
  · obtain rfl : c.synced cfg = synced := congrArg Prod.snd hsynced
    rw [hsynced] at hran
    dsimp only at hran ⊢
    have hmanaged := synced_managed cfg hmanageable (congrArg Prod.fst hsynced)
    have hregistered : (c.synced cfg).fsmRegistry.get? m = some q := hmanaged.registered
    obtain ⟨hrow, rfl⟩ := Table.mem_of_get? hregistered
    rcases hturns : runLeaving (FastLoop.turn cfg input) ⟨c.synced cfg, []⟩
      ((c.synced cfg).fsmRegistry.rows.map Position.mint) with ⟨e | _, s⟩
    · rw [hturns] at hran
      cases hran
    · have hsells := turns_sell cfg input (s := ⟨c.synced cfg, []⟩) (List.mem_map_of_mem hrow)
        hmanaged hflag hturns
      exact (hsync.thenSells hsells).then (layer2_grows cfg input s)

end Turn

end Controller
end AatsSniper

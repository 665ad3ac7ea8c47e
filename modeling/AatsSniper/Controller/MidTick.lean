/-
# A trip in the middle of a tick

Marking a position to market may trip the breaker, whose handler then flattens every
position while the turn is still going on: the decision of the engine, made before, is
acted on afterwards, and the Layer-2 pass runs over the marks collected before the
trip.  Both reach positions that are `CLOSED` by then.

`clean_tick_iff_quiet_trip` says when the tick does not come to that, from the loop
after the sync.
-/

import AatsSniper.Controller.Exits
import AatsSniper.Controller.Tidy

namespace AatsSniper
namespace Controller

open Exit (ExitDecision ExitState)

variable {c c' : FastLoop} {q : Position} {m mint : String}

section Turn

variable (cfg : FastConfig) (input : TickInput)

/-- The turn of a position that the engine has judged and the breaker returned on. -/
theorem turn_of_judged {s : FastLoop.Ticking} {mark : ℚ} {exitState : ExitState}
    {decision : ExitDecision} (hjudged : Judged cfg input s.loop q mark exitState decision)
    (hreturns : (s.loop.judgedThenMarked cfg input q mark exitState decision).1 = .ok ()) :
    ∃ fsm, (s.loop.judgedThenMarked cfg input q mark exitState decision).2.fsmRegistry.get?
        fsm.mint = some fsm ∧
      FastLoop.turn cfg input s q.mint = (.ok (),
        { FastLoop.collect s q.mint mark with
          loop := (s.loop.judgedThenMarked cfg input q mark exitState decision).2.act cfg input fsm
            decision }) := by
  have hturned := turned cfg input s q.mint
  generalize FastLoop.turn cfg input s q.mint = result at hturned
  cases hturned with
  | skipped hskip => exact absurd hjudged.opened (hskip q hjudged.registered)
  | unmarked hmint _ _ hmark =>
      rw [hmint, hjudged.marked] at hmark
      cases hmark
  | @collected q' mark' _ hmint hq _ hmark hnot =>
      rw [hmint, hjudged.registered] at hq
      rw [hmint, hjudged.marked] at hmark
      obtain rfl := Option.some.inj hq
      obtain rfl := Option.some.inj hmark
      exact absurd hjudged (hnot exitState decision)
  | raised hmint hjudged' hmarked =>
      obtain ⟨rfl, rfl, rfl, rfl⟩ := hjudged.unique cfg input hjudged' hmint
      rw [hmarked] at hreturns
      cases hreturns
  | @acted q' fsm _ _ _ _ hmint hjudged' hmarked hfsm _ _ =>
      obtain ⟨rfl, rfl, rfl, rfl⟩ := hjudged.unique cfg input hjudged' hmint
      rw [hmarked]
      exact ⟨fsm, hfsm, rfl⟩

/-- The marks are collected of the mints that have had their turn. -/
theorem turns_ticks {mints : List String} {s : FastLoop.Ticking} {tick : String × ℚ}
    (h : tick ∈ (runLeaving (FastLoop.turn cfg input) s mints).2.enforcerTicks) :
    tick ∈ s.enforcerTicks ∨ tick.1 ∈ mints := by
  revert h
  refine runLeaving_invariant (P := fun s' : FastLoop.Ticking => tick ∈ s'.enforcerTicks →
    tick ∈ s.enforcerTicks ∨ tick.1 ∈ mints) .inl fun s' mint hmint hs' htick => ?_
  rcases turn_ticks cfg input s' mint htick with htick | ⟨rfl, -, -⟩
  · exact hs' htick
  · exact .inr hmint

/-- A mark that breaches no armed stop. -/
theorem enforcerOnTick_of_quiet {lands : Answers} {fired : List String} {tick : String × ℚ}
    (h : ∀ r, c.stopOf tick.1 = some r → r.stop.isBreached tick.2 = false) :
    FastLoop.enforcerOnTick lands (c, fired) tick = (c, fired) := by
  unfold FastLoop.enforcerOnTick
  split
  · rfl
  · rename_i r hr
    rw [h r hr]
    rfl

/-- The enforcer finds no stop to fire. -/
theorem enforcer_quiet {lands : Answers} {ticks : List (String × ℚ)}
    (h : ∀ tick ∈ ticks, ∀ r, c.stopOf tick.1 = some r → r.stop.isBreached tick.2 = false) :
    ticks.foldl (FastLoop.enforcerOnTick lands) (c, []) = (c, []) := by
  induction ticks with
  | nil => rfl
  | cons tick ticks ih =>
      rw [List.foldl_cons, enforcerOnTick_of_quiet (h tick List.mem_cons_self)]
      exact ih fun tick' htick' => h tick' (List.mem_cons_of_mem tick htick')

theorem enforcer_prefix (lands : Answers) (ticks : List (String × ℚ)) (s : FastLoop × List String) :
    s.1.exits <+: (ticks.foldl (FastLoop.enforcerOnTick lands) s).1.exits := by
  refine List.foldlRecOn ticks (FastLoop.enforcerOnTick lands)
    (motive := fun s' => s.1.exits <+: s'.1.exits) (List.prefix_refl _) ?_
  intro s' hs' tick _
  unfold FastLoop.enforcerOnTick
  split
  · exact hs'
  · split_ifs
    · exact hs'.trans (List.prefix_append _ _)
    · exact hs'

/-- A stop that fires where the store holds nothing is a call for a position that is gone. -/
theorem enforcer_fires (lands : Answers) {ticks : List (String × ℚ)} {tick : String × ℚ}
    {r : RegisteredStop} (fired : List String) (hempty : ∀ m, c.store.positions.get? m = none)
    (htick : tick ∈ ticks) (hr : c.stopOf tick.1 = some r)
    (hbreached : r.stop.isBreached tick.2 = true) :
    ∃ call, c.exits ++ [call] <+: (ticks.foldl (FastLoop.enforcerOnTick lands) (c, fired)).1.exits ∧
      call.held = none := by
  induction ticks with
  | nil => cases htick
  | cons first ticks ih =>
      rw [List.foldl_cons]
      by_cases hquiet : ∀ r', c.stopOf first.1 = some r' → r'.stop.isBreached first.2 = false
      · rw [enforcerOnTick_of_quiet hquiet]
        refine ih ((List.mem_cons.1 htick).resolve_left ?_)
        rintro rfl
        rw [hquiet r hr] at hbreached
        cases hbreached
      · -- the first stop that fires will do
        push Not at hquiet
        obtain ⟨r', hr', hbreached'⟩ := hquiet
        let call : ExitCall := ⟨.layer2, first.1, 10000, lands .layer2 first.1 c.exits.length, none⟩
        have hfires : (FastLoop.enforcerOnTick lands (c, fired) first).1.exits =
            c.exits ++ [call] := by
          unfold FastLoop.stopOf at hr'
          unfold FastLoop.enforcerOnTick
          rw [hr']
          dsimp only
          rw [if_pos (Bool.eq_true_of_not_eq_false hbreached')]
          show c.exits ++ [ExitCall.mk _ _ _ _ (Option.map _ (c.store.positions.get? first.1))] = _
          rw [hempty]
          rfl
        refine ⟨call, ?_, rfl⟩
        rw [← hfires]
        exact enforcer_prefix lands ticks _

/-- The breaker trips in the turn of the mint of `q`, after the turns of the mints before. -/
structure TripsAt (c : FastLoop) (before : List String) (q : Position) (mark : ℚ)
    (exitState : ExitState) (decision : ExitDecision) : Prop where
  synced : (c.syncRegistry cfg).1 = .ok ()
  order : ∃ after, (c.synced cfg).fsmRegistry.rows.map Position.mint = before ++ q.mint :: after
  trips : ∃ s, runLeaving (FastLoop.turn cfg input) ⟨c.synced cfg, []⟩ before = (.ok (), s) ∧
    Judged cfg input s.loop q mark exitState decision ∧
    TripsOn cfg input s.loop q mark exitState decision

/-- No zombie and no double exit: every exit of the tick is of a position that the store held live,
no mint is sold whole twice, and afterwards the store holds nothing terminal and nothing that was
flattened. -/
structure CleanTick (c c' : FastLoop) : Prop where
  held : ∀ call ∈ c'.exits.drop c.exits.length, call.heldLive = true
  once : (fullExits (c'.exits.drop c.exits.length)).Nodup
  settled : ∀ pos ∈ c'.store.positions.rows, pos.fsmState.terminal = false
  released : ∀ call ∈ c'.exits.drop c.exits.length, call.path = .flatten →
    c'.store.loadPosition call.mint = none

/-- The engine has no intent for the tripping position, and up to it every open position whose mark
breaches its armed stop is one that the engine sells. -/
def QuietTrip (c₀ : FastLoop) (mints : List String) (decision : ExitDecision) : Prop :=
  decision.intent = none ∧ ∀ m ∈ mints, ∀ q mark r, c₀.fsmRegistry.get? m = some q →
    q.fsmState = .opened → input.marks m = some mark → c₀.stopOf m = some r →
    r.stop.isBreached mark = true → Asks cfg input c₀ .engine m

/-- A call for a position that is gone. -/
theorem not_cleanTick {call : ExitCall} {calls : List ExitCall} (hgrown : c.exits <+: calls)
    (hcalls : calls ++ [call] <+: c'.exits) (hheld : call.held = none) : ¬ CleanTick c c' := by
  intro hclean
  obtain ⟨older, rfl⟩ := hgrown
  obtain ⟨later, hexits⟩ := hcalls
  have hmem : call ∈ c'.exits.drop c.exits.length := by
    rw [← hexits, List.append_assoc, List.append_assoc, List.drop_left]
    simp
  have hlive := hclean.held call hmem
  unfold ExitCall.heldLive at hlive
  rw [hheld] at hlive
  cases hlive

/-- The loop at the trip: `s` is where the tripping turn starts, `marked` what the flatten leaves and
`fsm` what it has made of the position. -/
structure AtTrip (c : FastLoop) (before : List String) (q : Position) (mark : ℚ)
    (decision : ExitDecision) (s : FastLoop.Ticking) (marked : FastLoop) (fsm : Position) : Prop where
  tidy : Tidy (c.synced cfg) marked
  empty : ∀ m, marked.store.positions.get? m = none
  registered : marked.fsmRegistry.get? fsm.mint = some fsm
  stops : ∀ m, marked.stopOf m = s.loop.stopOf m
  passed : ∀ m ∈ before, Passed cfg input (c.synced cfg) s m
  aside : Aside q.mint (c.synced cfg) s.loop
  asked : TurnsAsked cfg input (c.synced cfg) s
  ticks : ∀ tick ∈ s.enforcerTicks, tick.1 ∈ before
  time : 0 ≤ input.blockTimeMs
  tick : (c.tick cfg input).2 = (FastLoop.layer2 cfg input
    { FastLoop.collect s q.mint mark with loop := marked.act cfg input fsm decision }).2

theorem exists_atTrip (hstep : InStep c) (hlands : ∀ m n, input.lands .flatten m n = true)
    {before : List String} {mark : ℚ} {exitState : ExitState} {decision : ExitDecision}
    (htrip : TripsAt cfg input c before q mark exitState decision) :
    ∃ s marked fsm, AtTrip cfg input c before q mark decision s marked fsm ∧
      Judged cfg input (c.synced cfg) q mark exitState decision := by
  obtain ⟨hsynced, ⟨after, horder⟩, s, hrun, hjudged, htrips⟩ := htrip
  have hdistinct : (before ++ q.mint :: after).Nodup :=
    horder ▸ (c.synced cfg).fsmRegistry.distinct
  obtain ⟨hbefore, hrest, hdisjoint⟩ := List.nodup_append.1 hdistinct
  have hnew : q.mint ∉ before := fun hmem => hdisjoint _ hmem _ List.mem_cons_self rfl
  have htidy := synced_tidy cfg hstep hsynced
  rcases turns_tidy cfg input hlands hbefore htidy (fun m _ => .refl m _) hrun with
    hhalted | ⟨htidy, hpassed, -, hothers⟩
  · exact absurd hjudged.opened (hhalted q.mint q hjudged.registered)
  have haside := hothers q.mint hnew
  obtain ⟨hmarked, hempty, -⟩ := judgedThenMarked_tidy cfg input hlands htidy hjudged
  have hreturns := judgedThenMarked_returns cfg input hjudged htrips
  obtain ⟨fsm, hfsm, hturn⟩ := turn_of_judged cfg input hjudged hreturns
  have hasked := turns_asked cfg input hbefore (s := ⟨c.synced cfg, []⟩)
    ⟨.none rfl, fun _ _ hr => hr, by simp⟩ fun m _ => .refl m _
  rw [hrun] at hasked
  have hticks : ∀ tick ∈ s.enforcerTicks, tick.1 ∈ before := by
    intro tick htick
    have hcollected : tick ∈ (runLeaving (FastLoop.turn cfg input) ⟨c.synced cfg, []⟩
        before).2.enforcerTicks := by
      rw [hrun]
      exact htick
    exact (turns_ticks cfg input hcollected).resolve_left List.not_mem_nil
  refine ⟨s, _, fsm, ⟨hmarked, hempty htrips, hfsm,
    fun m => judgedThenMarked_stopOf cfg input hjudged m, hpassed, haside, hasked, hticks,
    htrips.2.1, ?_⟩,
    hjudged.of_frame cfg input haside.frame⟩
  -- the turns after the trip do nothing
  have hhalted := act_halted cfg input decision (hmarked.halted (hempty htrips)) hfsm
  have hturns := turns_of_halted cfg input (s := { FastLoop.collect s q.mint mark with
    loop := (s.loop.judgedThenMarked cfg input q mark exitState decision).2.act cfg input fsm
      decision }) hhalted after
  rw [← runLeaving_cons_ok hturn, ← runLeaving_append_ok hrun, ← horder] at hturns
  have hsync : c.syncRegistry cfg = (.ok (), c.synced cfg) := Prod.ext hsynced rfl
  unfold FastLoop.tick
  rw [hsync]
  dsimp only
  rw [hturns]

theorem layer2_prefix (s : FastLoop.Ticking) :
    s.loop.exits <+: (FastLoop.layer2 cfg input s).2.exits := by
  unfold FastLoop.layer2
  split
  · exact List.prefix_refl _
  · dsimp only
    rw [closeFired_exits]
    exact enforcer_prefix input.lands s.enforcerTicks (s.loop, [])

section AtTrip

variable {cfg input} {before : List String} {mark : ℚ} {decision : ExitDecision}
  {s : FastLoop.Ticking} {marked : FastLoop} {fsm : Position}

theorem AtTrip.grown (h : AtTrip cfg input c before q mark decision s marked fsm) :
    c.exits <+: marked.exits := by
  rw [← synced_exits cfg c]
  exact h.tidy.sound.grown

/-- An intent of the engine reaches the venue after the position is gone. -/
theorem AtTrip.intent_none (h : AtTrip cfg input c before q mark decision s marked fsm)
    (hclean : CleanTick c (c.tick cfg input).2) : decision.intent = none := by
  by_contra hintent
  obtain ⟨call, hexits, hheld⟩ : ∃ call,
      (marked.act cfg input fsm decision).exits = marked.exits ++ [call] ∧ call.held = none := by
    have hnone : Option.map Position.fsmState (marked.store.loadPosition fsm.mint) = none := by
      rw [show marked.store.loadPosition fsm.mint = none from h.empty fsm.mint]
      rfl
    unfold FastLoop.act
    split
    · exact absurd (by assumption) hintent
    · exact ⟨_, rfl, hnone⟩
    · exact ⟨_, rfl, hnone⟩
  refine not_cleanTick h.grown ?_ hheld hclean
  rw [h.tick, ← hexits]
  exact layer2_prefix cfg input { FastLoop.collect s q.mint mark with
    loop := marked.act cfg input fsm decision }

/-- The tick where the engine has no intent. -/
theorem AtTrip.tick_of_intent_none (h : AtTrip cfg input c before q mark decision s marked fsm)
    (hnone : decision.intent = none) :
    (c.tick cfg input).2 =
      let fired := (FastLoop.collect s q.mint mark).enforcerTicks.foldl
        (FastLoop.enforcerOnTick input.lands) (marked, [])
      fired.2.foldl (FastLoop.closeFired cfg input.now) fired.1 := by
  have hact : marked.act cfg input fsm decision = marked := by
    unfold FastLoop.act
    rw [hnone]
  rw [h.tick, hact]
  unfold FastLoop.layer2
  rw [if_neg fun hlate => absurd h.time (not_le.2 hlate.2)]

/-- A stop that is armed at the trip and breached is of a position that the engine did not sell. -/
theorem AtTrip.quiet_ticks (h : AtTrip cfg input c before q mark decision s marked fsm)
    {exitState : ExitState} (hjudged : Judged cfg input (c.synced cfg) q mark exitState decision)
    (hquiet : QuietTrip cfg input (c.synced cfg) (before ++ [q.mint]) decision) :
    ∀ tick ∈ (FastLoop.collect s q.mint mark).enforcerTicks, ∀ r,
      marked.stopOf tick.1 = some r → r.stop.isBreached tick.2 = false := by
  obtain ⟨hnone, hsold⟩ := hquiet
  intro tick htick r hr
  rw [h.stops] at hr
  rw [Bool.eq_false_iff]
  intro hbreached
  rcases mem_collect htick with htick | rfl
  · obtain ⟨hmark, p, hp, hopen⟩ := h.asked.ticks tick htick
    have hmem := h.ticks tick htick
    have hasks := hsold tick.1 (List.mem_append_left _ hmem) p tick.2 r hp hopen hmark
      (h.asked.stops tick.1 r hr) hbreached
    rw [(h.passed tick.1 hmem).sold hasks] at hr
    cases hr
  · have hasks := hsold q.mint (List.mem_append_right _ (List.mem_singleton_self _)) q mark r
      hjudged.registered hjudged.opened hjudged.marked (h.aside.stop.symm.trans hr) hbreached
    have hsells := (asks_engine_iff cfg input hjudged).1 hasks
    unfold sellsAll at hsells
    rw [hnone] at hsells
    cases hsells

theorem AtTrip.clean (h : AtTrip cfg input c before q mark decision s marked fsm)
    {exitState : ExitState} (hjudged : Judged cfg input (c.synced cfg) q mark exitState decision)
    (hquiet : QuietTrip cfg input (c.synced cfg) (before ++ [q.mint]) decision) :
    CleanTick c (c.tick cfg input).2 := by
  have hmarked : (c.tick cfg input).2 = marked := by
    rw [h.tick_of_intent_none hquiet.1, enforcer_quiet (h.quiet_ticks hjudged hquiet)]
    rfl
  have hlength : c.exits.length = (c.synced cfg).exits.length := by rw [synced_exits]
  rw [hmarked]
  refine ⟨?_, ?_, fun pos hpos => ?_, fun call _ _ => h.empty call.mint⟩
  · rw [hlength]
    exact h.tidy.sound.held
  · rw [hlength]
    exact h.tidy.sound.once
  · have hget := get?_of_mem hpos
    rw [h.empty] at hget
    cases hget

/-- A stop that is armed and breached at the trip fires at a position that is gone. -/
theorem AtTrip.quiet (h : AtTrip cfg input c before q mark decision s marked fsm)
    {exitState : ExitState} (hjudged : Judged cfg input (c.synced cfg) q mark exitState decision)
    (hclean : CleanTick c (c.tick cfg input).2) :
    QuietTrip cfg input (c.synced cfg) (before ++ [q.mint]) decision := by
  have hnone := h.intent_none hclean
  refine ⟨hnone, fun m hm p mark' r hp hopen hmark hr hbreached => ?_⟩
  by_contra hunsold
  obtain ⟨htick, hstop⟩ : (m, mark') ∈ (FastLoop.collect s q.mint mark).enforcerTicks ∧
      s.loop.stopOf m = some r := by
    rcases List.mem_append.1 hm with hm | hm
    · obtain ⟨htick, hstop⟩ := (h.passed m hm).kept p mark' r hp hopen hmark hr hunsold
      exact ⟨subset_collect s q.mint mark htick, hstop⟩
    · obtain rfl := List.mem_singleton.1 hm
      obtain rfl := Option.some.inj (hmark.symm.trans hjudged.marked)
      have hstop := h.aside.stop.trans hr
      exact ⟨mem_collect_of_stop hstop mark', hstop⟩
  obtain ⟨call, hcalls, hheld⟩ := enforcer_fires input.lands [] h.empty htick
    ((h.stops m).trans hstop) hbreached
  refine not_cleanTick h.grown ?_ hheld hclean
  rw [h.tick_of_intent_none hnone]
  dsimp only
  rw [closeFired_exits]
  exact hcalls

end AtTrip

/-- **A trip in the middle of a tick.**  Where the flatten lands, the tick leaves no zombie and exits
nothing twice iff the engine has no intent for the tripping position, and every open position up to
it whose mark breaches its armed stop is one that the engine sells in its own turn. -/
theorem clean_tick_iff_quiet_trip (hstep : InStep c)
    (hlands : ∀ m n, input.lands .flatten m n = true) {before : List String} {mark : ℚ}
    {exitState : ExitState} {decision : ExitDecision}
    (htrip : TripsAt cfg input c before q mark exitState decision) :
    CleanTick c (c.tick cfg input).2 ↔
      QuietTrip cfg input (c.synced cfg) (before ++ [q.mint]) decision := by
  obtain ⟨s, marked, fsm, hattrip, hjudged⟩ := exists_atTrip cfg input hstep hlands htrip
  exact ⟨hattrip.quiet hjudged, hattrip.clean hjudged⟩

instance (c : FastLoop) (deltaLamports : ℤ) : Decidable (Trips cfg input c deltaLamports) :=
  inferInstanceAs (Decidable (∃ _, _))

instance (c : FastLoop) (q : Position) (mark : ℚ) (exitState : ExitState)
    (decision : ExitDecision) : Decidable (TripsOn cfg input c q mark exitState decision) :=
  inferInstanceAs (Decidable (_ ∧ _))

/-- A trip that can be evaluated, in the first turn. -/
theorem exists_tripsAt {mark : ℚ} {p : ExitDecision → Bool}
    (hsynced : (c.syncRegistry cfg).1.isOk = true)
    (horder : (c.synced cfg).fsmRegistry.rows.map Position.mint = [q.mint])
    (hq : (c.synced cfg).fsmRegistry.get? q.mint = some q) (hopen : q.fsmState = .opened)
    (hmark : input.marks q.mint = some mark)
    (htrips : ((c.synced cfg).exitStates q.mint).any (fun exitState =>
      (Exit.onTick cfg.exitConfig exitState (input.tick q.mint mark)).toOption.any fun decision =>
        decide (TripsOn cfg input (c.synced cfg) q mark exitState decision) && p decision) = true) :
    ∃ exitState decision, TripsAt cfg input c [] q mark exitState decision ∧ p decision = true := by
  obtain ⟨exitState, htracked, hany⟩ := (Option.any_eq_true _ _).1 htrips
  obtain ⟨decision, hjudged, htest⟩ := exists_ok_of_any hany
  rw [Bool.and_eq_true, decide_eq_true_iff] at htest
  refine ⟨exitState, decision, ⟨?_, ⟨[], horder⟩, ⟨c.synced cfg, []⟩, rfl, ?_, htest.1⟩, htest.2⟩
  · cases hsync : (c.syncRegistry cfg).1 with
    | error e =>
        rw [hsync] at hsynced
        cases hsynced
    | ok u => rfl
  · exact ⟨hq, hopen, hmark, htracked, hjudged⟩

end Turn

/-- A position of 1 SOL, at 1 lamport a token. -/
def solPosition (unrealized : ℤ) : Position :=
  { samplePosition "m" .opened with
    solInLamports := 1000000000
    tokensOutBase := 1000000000
    unrealizedPnlNetLamports := unrealized }

/-- A loop over a store that holds it. -/
def solLoop (unrealized : ℤ) : FastLoop :=
  { FastLoop.start (Breaker.firstBoot []) none with
    store := StateStore.empty.savePosition (solPosition unrealized) }

/-- A tick at a mark, where every exit lands. -/
def markedTick (mark : ℚ) : TickInput where
  now := 0
  blockTimeMs := 0
  marks := fun _ => some mark
  lands := fun _ _ _ => true

theorem solLoop_inStep (unrealized : ℤ) : InStep (solLoop unrealized) where
  live pos hpos := by
    obtain rfl := List.mem_singleton.1 hpos
    rfl
  registered m pos q _ hq := by cases hq

/-- The position falls by 2 %: the breaker trips, and the engine keeps still. -/
theorem clean_tick_iff_quiet_trip_sample :
    CleanTick (solLoop 0) ((solLoop 0).tick defaultFastConfig (markedTick (49 / 50))).2 ∧
      ((solLoop 0).tick defaultFastConfig (markedTick (49 / 50))).2.exits.map ExitCall.path =
        [.flatten] := by
  refine ⟨?_, by decide +kernel⟩
  obtain ⟨exitState, decision, htrip, hnone⟩ := exists_tripsAt defaultFastConfig
    (markedTick (49 / 50)) (c := solLoop 0) (q := solPosition 0)
    (p := fun decision => decision.intent.isNone) (by decide +kernel) (by decide +kernel)
    (by decide +kernel) rfl rfl (by decide +kernel)
  refine (clean_tick_iff_quiet_trip defaultFastConfig (markedTick (49 / 50)) (solLoop_inStep 0)
    (fun _ _ => rfl) htrip).2 ⟨Option.isNone_iff_eq_none.1 hnone, fun m _ q mark r _ _ _ hr => ?_⟩
  have hunwired : ((solLoop 0).synced defaultFastConfig).stops.isNone = true := by decide +kernel
  unfold FastLoop.stopOf at hr
  rw [Option.isNone_iff_eq_none.1 hunwired] at hr
  cases hr

/-- The position falls to a half: the breaker trips, the flatten sells it, and the engine's stop sells
it again.  And one whose mark has come down to twice the price: the rung that is sold after the trip
writes the closed position back. -/
theorem double_exit_and_zombie :
    (∃ exitState decision, TripsAt defaultFastConfig (markedTick (1 / 2)) (solLoop 0) []
        (solPosition 0) (1 / 2) exitState decision ∧ ¬ CleanTick (solLoop 0)
          ((solLoop 0).tick defaultFastConfig (markedTick (1 / 2))).2) ∧
      ∃ exitState decision, TripsAt defaultFastConfig (markedTick 2) (solLoop 2000000000) []
        (solPosition 2000000000) 2 exitState decision ∧ ¬ CleanTick (solLoop 2000000000)
          ((solLoop 2000000000).tick defaultFastConfig (markedTick 2)).2 := by
  constructor
  · obtain ⟨exitState, decision, htrip, -⟩ := exists_tripsAt defaultFastConfig
      (markedTick (1 / 2)) (c := solLoop 0) (q := solPosition 0) (p := fun _ => true)
      (by decide +kernel) (by decide +kernel) (by decide +kernel) rfl rfl (by decide +kernel)
    refine ⟨exitState, decision, htrip, fun hclean => ?_⟩
    have htwice : fullExits (((solLoop 0).tick defaultFastConfig (markedTick (1 / 2))).2.exits.drop 0) =
        ["m", "m"] := by decide +kernel
    exact absurd (htwice ▸ hclean.once) (by decide)
  · obtain ⟨exitState, decision, htrip, -⟩ := exists_tripsAt defaultFastConfig
      (markedTick 2) (c := solLoop 2000000000) (q := solPosition 2000000000) (p := fun _ => true)
      (by decide +kernel) (by decide +kernel) (by decide +kernel) rfl rfl (by decide +kernel)
    refine ⟨exitState, decision, htrip, fun hclean => ?_⟩
    have hzombie : ∃ pos ∈ ((solLoop 2000000000).tick defaultFastConfig
        (markedTick 2)).2.store.positions.rows, pos.fsmState.terminal = true := by decide +kernel
    obtain ⟨pos, hpos, hterminal⟩ := hzombie
    rw [hclean.settled pos hpos] at hterminal
    cases hterminal

end Controller
end AatsSniper

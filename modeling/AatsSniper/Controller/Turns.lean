/-
# Turns of different mints

A turn leaves the exit state and the stop of every other mint alone, and opens none
(`Frame`); it may flatten them.  So what a tick asks the venue for is decided, mint by
mint, by the loop after the sync: `Asks` lists the exits on the paths that close
whatever the venue answers, and `tick_asks` says that there are no others.
-/

import AatsSniper.Controller.Tick

namespace AatsSniper
namespace Controller

open Exit (ExitDecision ExitState)

variable {c c' c'' : FastLoop} {pos q : Position} {m mint : String}

/-- The armed stop of a mint. -/
def FastLoop.stopOf (c : FastLoop) (mint : String) : Option RegisteredStop :=
  c.stops.bind fun stops => stops mint

theorem stopOf_deregister (c : FastLoop) (mint m : String) :
    (c.deregister mint).stopOf m = if m = mint then none else c.stopOf m := by
  unfold FastLoop.stopOf FastLoop.deregister
  cases c.stops with
  | none => simp
  | some stops => by_cases hm : m = mint <;> simp [hm]

/-- The exit state and the stop of the mint are as they were, and it is open only if it was. -/
structure Frame (m : String) (c c' : FastLoop) : Prop where
  exitState : c'.exitStates m = c.exitStates m
  stop : c'.stopOf m = c.stopOf m
  opened : ∀ q, c'.fsmRegistry.get? m = some q → q.fsmState = .opened →
    c.fsmRegistry.get? m = some q

theorem Frame.refl (m : String) (c : FastLoop) : Frame m c c := ⟨rfl, rfl, fun _ hq _ => hq⟩

theorem Frame.trans (h : Frame m c c') (h' : Frame m c' c'') : Frame m c c'' where
  exitState := h'.exitState.trans h.exitState
  stop := h'.stop.trans h.stop
  opened q hq hopen := h.opened q (h'.opened q hq hopen) hopen

theorem opened_of_remove {t : Table Position.mint} (h : (t.remove mint).get? m = some q) :
    t.get? m = some q := by
  rw [Table.get?_remove] at h
  split_ifs at h
  exact h

theorem opened_of_upsert {t : Table Position.mint} {p : Position} (hp : p.fsmState ≠ .opened)
    (h : (t.upsert p).get? m = some q) (hopen : q.fsmState = .opened) : t.get? m = some q := by
  rw [Table.get?_upsert] at h
  split_ifs at h
  · obtain rfl := Option.some.inj h
    exact absurd hopen hp
  · exact h

theorem Sold.frame {lands : Answers} (h : Sold lands c pos c') : Frame m c c' := by
  cases h with
  | called _ => exact ⟨rfl, rfl, fun _ hq _ => hq⟩
  | closing _ _ _ _ => exact ⟨rfl, rfl, fun _ => opened_of_upsert nofun⟩
  | closed _ _ _ _ => exact ⟨rfl, rfl, fun _ => opened_of_upsert nofun⟩

theorem flattenPosition_frame (lands : Answers) (c : FastLoop) (pos : Position) :
    Frame m c (c.flattenPosition lands pos) := by
  unfold FastLoop.flattenPosition
  split
  · exact ⟨rfl, rfl, fun _ hq _ => opened_of_remove hq⟩
  · exact (sold lands (.inl (by assumption))).frame
  · exact (sold lands (.inr (by assumption))).frame
  · exact .refl m c

theorem emergencyFlattenAll_frame (lands : Answers) (c : FastLoop) :
    Frame m c (c.emergencyFlattenAll lands) := by
  unfold FastLoop.emergencyFlattenAll
  refine List.foldlRecOn c.store.positions.rows (FastLoop.flattenPosition lands)
    (motive := fun c' => Frame m c c') (.refl m c) ?_
  intro c' hframe pos _
  exact hframe.trans (flattenPosition_frame lands c' pos)

section Turn

variable (cfg : FastConfig) (input : TickInput)

theorem recordPnl_frame (c : FastLoop) (deltaLamports : ℤ) :
    Frame m c (c.recordPnl cfg input deltaLamports).2 := by
  obtain ⟨b, projected, ⟨-, heq⟩ | ⟨-, heq⟩⟩ := recordPnl_eq cfg input c deltaLamports
  · rw [heq]
    have hframe : Frame m { c with breaker := b } _ := emergencyFlattenAll_frame input.lands _
    exact ⟨hframe.exitState, hframe.stop, hframe.opened⟩
  · rw [heq]
    exact ⟨rfl, rfl, fun _ hq _ => hq⟩

/-- Marking to market, and the state of the engine, are of one mint. -/
theorem judgedThenMarked_frame {mark : ℚ} {exitState : ExitState} {decision : ExitDecision}
    (hjudged : Judged cfg input c q mark exitState decision) (hne : m ≠ q.mint) :
    Frame m c (c.judgedThenMarked cfg input q mark exitState decision).2 := by
  have hstepped : Frame m c (c.stepped q.mint decision.nextState) :=
    ⟨Function.update_of_ne hne _ _, rfl, fun _ hq _ => hq⟩
  unfold FastLoop.judgedThenMarked
  rw [markToMarket_eq cfg input exitState mark
    (c := c.stepped q.mint decision.nextState) hjudged.registered]
  split
  · let unrealized := FastLoop.unrealizedPnl q exitState mark
    have hvalued : Frame m (c.stepped q.mint decision.nextState)
        ((c.stepped q.mint decision.nextState).valuedAt q unrealized) :=
      ⟨rfl, rfl, fun _ hp _ =>
        (Table.get?_upsert_of_ne (a := q.valued unrealized) hne).symm.trans hp⟩
    exact (hstepped.trans hvalued).trans (recordPnl_frame cfg input _ _)
  · exact hstepped

theorem exitAndClose_frame (path : ExitPath) (fractionBps : ℤ) (hne : m ≠ q.mint) :
    Frame m c (c.exitAndClose cfg input q path fractionBps) where
  exitState := Function.update_of_ne hne _ _
  stop := (stopOf_deregister _ _ _).trans (if_neg hne)
  opened _ hp _ := opened_of_remove hp

theorem act_frame (decision : ExitDecision) (hq : c.fsmRegistry.get? q.mint = some q)
    (hne : m ≠ q.mint) : Frame m c (c.act cfg input q decision) := by
  unfold FastLoop.act
  split
  · exact .refl m c
  · exact exitAndClose_frame cfg input _ _ hne
  · rename_i fractionBps _ _
    rw [doScaleOut_eq input fractionBps hq]
    exact ⟨rfl, rfl, fun p hp _ => (Table.get?_upsert_of_ne (a := q.hit) hne).symm.trans hp⟩

/-- **The turn of another mint.** -/
theorem turn_frame (s : FastLoop.Ticking) (hne : m ≠ mint) :
    Frame m s.loop (FastLoop.turn cfg input s mint).2.loop := by
  have hturn := turned cfg input s mint
  generalize FastLoop.turn cfg input s mint = result at hturn
  cases hturn with
  | skipped _ => exact .refl m s.loop
  | @unmarked q hmint hq _ _ =>
      have hne' : m ≠ q.mint := hmint.symm ▸ hne
      have hderegister : Frame m s.loop (s.loop.deregister q.mint) :=
        ⟨rfl, (stopOf_deregister _ _ _).trans (if_neg hne'), fun _ hq _ => hq⟩
      exact hderegister.trans (exitAndClose_frame cfg input .markUnavailable 10000 hne')
  | collected _ _ _ _ _ =>
      dsimp only
      rw [collect_loop]
      exact .refl m s.loop
  | raised hmint hjudged hmarked =>
      have hframe := judgedThenMarked_frame cfg input hjudged (hmint.symm ▸ hne)
      rw [hmarked] at hframe
      exact hframe
  | acted hmint hjudged hmarked hfsm hsame _ =>
      have hframe := judgedThenMarked_frame cfg input hjudged (hmint.symm ▸ hne)
      rw [hmarked] at hframe
      exact hframe.trans (act_frame cfg input _ hfsm (hsame.symm ▸ hmint.symm ▸ hne))

end Turn

/-- The calls of the venue since then. -/
def Adds (P : ExitCall → Prop) (c c' : FastLoop) : Prop :=
  ∃ calls, c'.exits = c.exits ++ calls ∧ ∀ call ∈ calls, P call

variable {P R : ExitCall → Prop}

theorem Adds.none (h : c'.exits = c.exits) : Adds P c c' :=
  ⟨[], by rw [h, List.append_nil], by simp⟩

theorem Adds.one {call : ExitCall} (h : c'.exits = c.exits ++ [call]) (hcall : P call) :
    Adds P c c' :=
  ⟨[call], h, by simpa using hcall⟩

theorem Adds.mono (h : Adds P c c') (hP : ∀ call, P call → R call) : Adds R c c' := by
  obtain ⟨calls, hexits, hcalls⟩ := h
  exact ⟨calls, hexits, fun call hcall => hP call (hcalls call hcall)⟩

theorem Adds.trans (h : Adds P c c') (h' : Adds P c' c'') : Adds P c c'' := by
  obtain ⟨calls, hexits, hcalls⟩ := h
  obtain ⟨calls', hexits', hcalls'⟩ := h'
  refine ⟨calls ++ calls', by rw [hexits', hexits, List.append_assoc], fun call hcall => ?_⟩
  rcases List.mem_append.1 hcall with hcall | hcall
  · exact hcalls call hcall
  · exact hcalls' call hcall

theorem flattenPosition_adds (lands : Answers) (c : FastLoop) (pos : Position) :
    Adds (fun call => call.path = .flatten) c (c.flattenPosition lands pos) := by
  have hsold : pos.fsmState = .opened ∨ pos.fsmState = .closing →
      Adds (fun call => call.path = .flatten) c (c.sellAll lands pos) := by
    intro hstate
    have hsold := sold lands hstate (c := c)
    generalize c.sellAll lands pos = c' at hsold
    cases hsold with
    | called _ => exact .one rfl rfl
    | closing _ _ _ _ => exact .one rfl rfl
    | closed _ _ _ _ => exact .one rfl rfl
  unfold FastLoop.flattenPosition
  split
  · exact .none rfl
  · exact hsold (.inl (by assumption))
  · exact hsold (.inr (by assumption))
  · exact .none rfl

theorem emergencyFlattenAll_adds (lands : Answers) (c : FastLoop) :
    Adds (fun call => call.path = .flatten) c (c.emergencyFlattenAll lands) := by
  unfold FastLoop.emergencyFlattenAll
  refine List.foldlRecOn c.store.positions.rows (FastLoop.flattenPosition lands)
    (motive := fun c' => Adds (fun call => call.path = .flatten) c c') (.none rfl) ?_
  intro c' hadds pos _
  exact hadds.trans (flattenPosition_adds lands c' pos)

section Asks

variable (cfg : FastConfig) (input : TickInput)

theorem judgedThenMarked_adds {mark : ℚ} {exitState : ExitState} {decision : ExitDecision}
    (hjudged : Judged cfg input c q mark exitState decision) :
    Adds (fun call => call.path = .flatten) c
      (c.judgedThenMarked cfg input q mark exitState decision).2 := by
  unfold FastLoop.judgedThenMarked
  rw [markToMarket_eq cfg input exitState mark
    (c := c.stepped q.mint decision.nextState) hjudged.registered]
  split
  · have hvalued : Adds (fun call => call.path = .flatten) c
        ((c.stepped q.mint decision.nextState).valuedAt q
          (FastLoop.unrealizedPnl q exitState mark)) := .none rfl
    refine hvalued.trans ?_
    obtain ⟨b, projected, ⟨-, heq⟩ | ⟨-, heq⟩⟩ := recordPnl_eq cfg input _ _
    · rw [heq]
      exact emergencyFlattenAll_adds input.lands _
    · rw [heq]
      exact .none rfl
  · exact .none rfl

/-- A path that closes whatever the venue answers. -/
def ExitPath.unchecked : ExitPath → Bool
  | .engine => true
  | .markUnavailable => true
  | .layer2 => true
  | _ => false

/-- The decision is to sell everything. -/
def sellsAll (decision : ExitDecision) : Bool :=
  match decision.intent with
  | some (.exit _ _ _ _ _) => true
  | _ => false

/-- What the loop has of a mint makes a tick ask for an exit that closes in any case. -/
inductive Asks (c : FastLoop) : ExitPath → String → Prop
  /-- An open position has no mark. -/
  | markUnavailable {q : Position} (hq : c.fsmRegistry.get? q.mint = some q)
      (hopen : q.fsmState = .opened) (hmark : input.marks q.mint = none) :
      Asks c .markUnavailable q.mint
  /-- The engine decides on a full exit. -/
  | engine {q : Position} {mark : ℚ} {exitState : ExitState} {decision : ExitDecision}
      (hjudged : Judged cfg input c q mark exitState decision)
      (hexit : sellsAll decision = true) : Asks c .engine q.mint
  /-- The mark breaches the armed stop. -/
  | layer2 {q : Position} {mark : ℚ} {r : RegisteredStop}
      (hq : c.fsmRegistry.get? q.mint = some q) (hopen : q.fsmState = .opened)
      (hmark : input.marks q.mint = some mark) (hstop : c.stopOf q.mint = some r)
      (hbreached : r.stop.isBreached mark = true) : Asks c .layer2 q.mint

/-- The engine judges as it would have before. -/
theorem Judged.of_frame {mark : ℚ} {exitState : ExitState} {decision : ExitDecision}
    (h : Judged cfg input c' q mark exitState decision) (hframe : Frame q.mint c c') :
    Judged cfg input c q mark exitState decision where
  registered := hframe.opened q h.registered h.opened
  opened := h.opened
  marked := h.marked
  tracked := hframe.exitState.symm.trans h.tracked
  judged := h.judged

theorem Asks.of_frame {path : ExitPath} (h : Asks cfg input c' path m) (hframe : Frame m c c') :
    Asks cfg input c path m := by
  cases h with
  | markUnavailable hq hopen hmark => exact .markUnavailable (hframe.opened _ hq hopen) hopen hmark
  | engine hjudged hexit => exact .engine (hjudged.of_frame cfg input hframe) hexit
  | layer2 hq hopen hmark hstop hbreached =>
      exact .layer2 (hframe.opened _ hq hopen) hopen hmark (hframe.stop.symm.trans hstop) hbreached

/-- A call on an unchecked path that the loop asked for, with the answer of the venue. -/
def Asked (c : FastLoop) (call : ExitCall) : Prop :=
  call.path.unchecked = true → Asks cfg input c call.path call.mint ∧
    ∃ n, call.landed = input.lands call.path call.mint n

/-- A call of the flatten handler is on a checked path. -/
theorem checked_of_flatten {call : ExitCall} (h : call.path = .flatten) :
    call.path.unchecked = false := by
  rw [h]
  rfl

/-- **The calls of a turn**, on the unchecked paths, are exits of its mint that the loop asks for. -/
theorem turn_adds (s : FastLoop.Ticking) (mint : String) :
    Adds (fun call => call.path.unchecked = true → call.mint = mint ∧
        Asks cfg input s.loop call.path mint ∧ ∃ n, call.landed = input.lands call.path mint n)
      s.loop (FastLoop.turn cfg input s mint).2.loop := by
  have hflatten : ∀ call : ExitCall, call.path = .flatten → call.path.unchecked = true →
      call.mint = mint ∧ Asks cfg input s.loop call.path mint ∧
        ∃ n, call.landed = input.lands call.path mint n := by
    intro call hpath hunchecked
    rw [checked_of_flatten hpath] at hunchecked
    cases hunchecked
  have hturn := turned cfg input s mint
  generalize FastLoop.turn cfg input s mint = result at hturn
  cases hturn with
  | skipped _ => exact .none rfl
  | unmarked hmint hq hopen hmark =>
      subst hmint
      exact .one rfl fun _ => ⟨rfl, .markUnavailable hq hopen hmark, _, rfl⟩
  | collected _ _ _ _ _ =>
      dsimp only
      rw [collect_loop]
      exact .none rfl
  | raised _ hjudged hmarked =>
      have hadds := judgedThenMarked_adds cfg input hjudged
      rw [hmarked] at hadds
      exact hadds.mono hflatten
  | @acted q fsm mark exitState decision marked hmint hjudged hmarked _ hsame _ =>
      have hadds := judgedThenMarked_adds cfg input hjudged
      rw [hmarked] at hadds
      refine (hadds.mono hflatten).trans ?_
      subst hmint
      show Adds _ marked (marked.act cfg input fsm decision)
      unfold FastLoop.act
      split
      · exact .none rfl
      · rename_i hintent
        have hexit : sellsAll decision = true := by
          unfold sellsAll
          rw [hintent]
        rw [← hsame]
        exact .one rfl fun _ => ⟨rfl, hsame ▸ .engine hjudged hexit, _, rfl⟩
      · exact .one rfl nofun

theorem judgedThenMarked_stopOf {mark : ℚ} {exitState : ExitState} {decision : ExitDecision}
    (hjudged : Judged cfg input c q mark exitState decision) (m : String) :
    (c.judgedThenMarked cfg input q mark exitState decision).2.stopOf m = c.stopOf m := by
  unfold FastLoop.judgedThenMarked
  rw [markToMarket_eq cfg input exitState mark
    (c := c.stepped q.mint decision.nextState) hjudged.registered]
  split
  · exact (recordPnl_frame cfg input _ _).stop
  · rfl

theorem stopOf_of_deregister {r : RegisteredStop} (h : (c.deregister mint).stopOf m = some r) :
    c.stopOf m = some r := by
  rw [stopOf_deregister] at h
  split_ifs at h
  exact h

theorem act_stopOf (q : Position) (decision : ExitDecision) {r : RegisteredStop}
    (h : (c.act cfg input q decision).stopOf m = some r) : c.stopOf m = some r := by
  unfold FastLoop.act at h
  split at h
  · exact h
  · have hleft := stopOf_of_deregister h
    exact hleft
  · exact h

/-- A stop that is armed was armed before. -/
theorem turn_stopOf (s : FastLoop.Ticking) (mint : String) {r : RegisteredStop}
    (h : (FastLoop.turn cfg input s mint).2.loop.stopOf m = some r) : s.loop.stopOf m = some r := by
  have hturn := turned cfg input s mint
  generalize FastLoop.turn cfg input s mint = result at hturn h
  cases hturn with
  | skipped _ => exact h
  | @unmarked q _ _ _ _ =>
      have hleft := stopOf_of_deregister h
      exact stopOf_of_deregister hleft
  | collected _ _ _ _ _ =>
      dsimp only at h
      rw [collect_loop] at h
      exact h
  | raised _ hjudged hmarked =>
      have hsame := judgedThenMarked_stopOf cfg input hjudged m
      rw [hmarked] at hsame
      exact hsame.symm.trans h
  | acted _ hjudged hmarked _ _ _ =>
      have hsame := judgedThenMarked_stopOf cfg input hjudged m
      rw [hmarked] at hsame
      exact hsame.symm.trans (act_stopOf cfg input _ _ h)

theorem mem_collect {s : FastLoop.Ticking} {mark : ℚ} {tick : String × ℚ}
    (h : tick ∈ (FastLoop.collect s mint mark).enforcerTicks) :
    tick ∈ s.enforcerTicks ∨ tick = (mint, mark) := by
  unfold FastLoop.collect at h
  split_ifs at h
  · rcases List.mem_append.1 h with h | h
    · exact .inl h
    · exact .inr (List.mem_singleton.1 h)
  · exact .inl h

/-- A mark that is collected is the one of an open position. -/
theorem turn_ticks (s : FastLoop.Ticking) (mint : String) {tick : String × ℚ}
    (h : tick ∈ (FastLoop.turn cfg input s mint).2.enforcerTicks) :
    tick ∈ s.enforcerTicks ∨ (tick.1 = mint ∧ input.marks mint = some tick.2 ∧
      ∃ q, s.loop.fsmRegistry.get? mint = some q ∧ q.fsmState = .opened) := by
  have hturn := turned cfg input s mint
  generalize FastLoop.turn cfg input s mint = result at hturn h
  cases hturn with
  | skipped _ => exact .inl h
  | unmarked _ _ _ _ => exact .inl h
  | collected hmint hq hopen hmark _ =>
      subst hmint
      refine (mem_collect h).imp_right ?_
      rintro rfl
      exact ⟨rfl, hmark, _, hq, hopen⟩
  | raised hmint hjudged _ =>
      subst hmint
      refine (mem_collect h).imp_right ?_
      rintro rfl
      exact ⟨rfl, hjudged.marked, _, hjudged.registered, hjudged.opened⟩
  | acted hmint hjudged _ _ _ _ =>
      subst hmint
      refine (mem_collect h).imp_right ?_
      rintro rfl
      exact ⟨rfl, hjudged.marked, _, hjudged.registered, hjudged.opened⟩

/-- What the turns so far have asked for and collected, with the loop they started from. -/
structure TurnsAsked (c₀ : FastLoop) (s : FastLoop.Ticking) : Prop where
  calls : Adds (Asked cfg input c₀) c₀ s.loop
  stops : ∀ m r, s.loop.stopOf m = some r → c₀.stopOf m = some r
  ticks : ∀ tick ∈ s.enforcerTicks, input.marks tick.1 = some tick.2 ∧
    ∃ q, c₀.fsmRegistry.get? tick.1 = some q ∧ q.fsmState = .opened

/-- The turns of distinct mints, with the loop they started from. -/
theorem turns_asked {c₀ : FastLoop} {mints : List String} (hdistinct : mints.Nodup)
    {s : FastLoop.Ticking} (hs : TurnsAsked cfg input c₀ s)
    (hframe : ∀ m ∈ mints, Frame m c₀ s.loop) :
    TurnsAsked cfg input c₀ (runLeaving (FastLoop.turn cfg input) s mints).2 := by
  induction mints generalizing s with
  | nil => exact hs
  | cons mint mints ih =>
      rw [List.nodup_cons] at hdistinct
      have hmint := hframe mint List.mem_cons_self
      have hturn : TurnsAsked cfg input c₀ (FastLoop.turn cfg input s mint).2 := by
        refine ⟨hs.calls.trans ((turn_adds cfg input s mint).mono fun call hcall hpath => ?_),
          fun m r hr => hs.stops m r (turn_stopOf cfg input s mint hr), fun tick htick => ?_⟩
        · obtain ⟨rfl, hasks, hlanded⟩ := hcall hpath
          exact ⟨hasks.of_frame cfg input hmint, hlanded⟩
        · rcases turn_ticks cfg input s mint htick with htick | ⟨rfl, hmark, q, hq, hopen⟩
          · exact hs.ticks tick htick
          · exact ⟨hmark, q, hmint.opened q hq hopen, hopen⟩
      refine runLeaving_cons (P := TurnsAsked cfg input c₀) hturn fun _ => ih hdistinct.2 hturn ?_
      intro m hm
      have hne : m ≠ mint := fun heq => hdistinct.1 (heq ▸ hm)
      exact (hframe m (List.mem_cons_of_mem mint hm)).trans (turn_frame cfg input s hne)

/-- The enforcer fires the stops that the loop asks for. -/
theorem enforcer_asked {c₀ : FastLoop} {s : FastLoop.Ticking} (hs : TurnsAsked cfg input c₀ s) :
    Adds (Asked cfg input c₀) c₀
      (s.enforcerTicks.foldl (FastLoop.enforcerOnTick input.lands) (s.loop, [])).1 := by
  have hfold := List.foldlRecOn s.enforcerTicks (FastLoop.enforcerOnTick input.lands)
    (motive := fun fired : FastLoop × List String => Adds (Asked cfg input c₀) c₀ fired.1 ∧
      ∀ m r, fired.1.stopOf m = some r → c₀.stopOf m = some r)
    (b := (s.loop, [])) ⟨hs.calls, hs.stops⟩ ?_
  · exact hfold.1
  rintro ⟨c, mints⟩ ⟨hcalls, hstops⟩ ⟨mint, mark⟩ htick
  obtain ⟨hmark, q, hq, hopen⟩ := hs.ticks (mint, mark) htick
  obtain rfl : q.mint = mint := mint_of_get? hq
  unfold FastLoop.enforcerOnTick
  split
  · exact ⟨hcalls, hstops⟩
  · rename_i r hr
    split_ifs with hbreached
    · refine ⟨hcalls.trans (.one rfl fun _ => ⟨?_, _, rfl⟩), fun m r' hr' => ?_⟩
      · exact .layer2 hq hopen hmark (hstops _ r hr) hbreached
      · exact hstops m r' (stopOf_of_deregister hr')
    · exact ⟨hcalls, hstops⟩

theorem closeFired_exits (now : ℤ) (mints : List String) (c : FastLoop) :
    (mints.foldl (FastLoop.closeFired cfg now) c).exits = c.exits := by
  induction mints generalizing c with
  | nil => rfl
  | cons mint mints ih =>
      rw [List.foldl_cons, ih]
      unfold FastLoop.closeFired
      split
      · rfl
      · rfl

/-- The loop after the sync. -/
def FastLoop.synced (c : FastLoop) : FastLoop := (c.syncRegistry cfg).2

/-- The sync asks for nothing. -/
theorem synced_exits (c : FastLoop) : (c.synced cfg).exits = c.exits := by
  have hloop : (runLeaving (FastLoop.adopt cfg) c c.store.positions.rows).2.exits = c.exits := by
    refine runLeaving_invariant (P := fun c' : FastLoop => c'.exits = c.exits) rfl ?_
    intro c' pos _ hc'
    rw [← hc']
    unfold FastLoop.adopt
    dsimp only
    split_ifs
    · rfl
    · split
      · rfl
      · rfl
    · rfl
  have hstale : ∀ (stale : List Position) (c' : FastLoop),
      (stale.foldl FastLoop.dropStale c').exits = c'.exits := by
    intro stale
    induction stale with
    | nil => exact fun _ => rfl
    | cons q stale ih => exact fun c' => ih (c'.dropStale q)
  unfold FastLoop.synced FastLoop.syncRegistry
  split
  · rename_i hraised
    rw [hraised] at hloop
    exact hloop
  · rename_i hran
    rw [hran] at hloop
    exact (hstale _ _).trans hloop

/-- **The calls of a tick** on the unchecked paths are the ones that the loop asks for after the
sync. -/
theorem tick_asks (c : FastLoop) : Adds (Asked cfg input (c.synced cfg)) c (c.tick cfg input).2 := by
  have hsync : Adds (Asked cfg input (c.synced cfg)) c (c.synced cfg) :=
    .none (synced_exits cfg c)
  refine hsync.trans ?_
  unfold FastLoop.tick
  split
  · rename_i left hraised
    have hleft : c.synced cfg = left := congrArg Prod.snd hraised
    rw [hleft]
    exact .none rfl
  · rename_i synced hran
    obtain rfl : c.synced cfg = synced := congrArg Prod.snd hran
    have hturns := turns_asked cfg input (c.synced cfg).fsmRegistry.distinct
      (s := ⟨c.synced cfg, []⟩) ⟨.none rfl, fun _ _ hr => hr, by simp⟩ fun m _ => .refl m _
    split
    · rename_i hraised
      rw [hraised] at hturns
      exact hturns.calls
    · rename_i s hran
      rw [hran] at hturns
      unfold FastLoop.layer2
      split_ifs
      · exact hturns.calls
      · refine (enforcer_asked cfg input hturns).trans (.none ?_)
        exact closeFired_exits cfg input.now _ _

end Asks

end Controller
end AatsSniper

/-
# Turns of a tidy loop

A loop is `Tidy` while the registry agrees with the store and every exit so far was of
a position that the store held, and that it does not hold any more if it was sold whole.
The sync makes it so (`synced_tidy`), a flatten that lands keeps it so and empties
the store (`emergencyFlattenAll_tidy`), and so does a turn in which the breaker does not
trip (`turn_tidy`).  `Passed` is what a turn leaves of the mark and the stop of its mint.
-/

import AatsSniper.Controller.Turns

namespace AatsSniper
namespace Controller

open Exit (ExitDecision ExitState)

variable {c₀ c c' : FastLoop} {pos q : Position} {m mint : String}

/-! ### Exits of a tick -/

/-- An exit that sells everything. -/
def ExitCall.full (call : ExitCall) : Bool := decide (call.path ≠ .scaleOut)

/-- The store held the mint in a live state when the venue was called. -/
def ExitCall.heldLive (call : ExitCall) : Bool := call.held.any FSMState.live

/-- The full exits of a list of calls, by their mints. -/
def fullExits (calls : List ExitCall) : List String := (calls.filter ExitCall.full).map ExitCall.mint

/-- The exits since then were of positions that the store held, and it holds none any more that was
sold whole. -/
structure Sound (c₀ c : FastLoop) : Prop where
  grown : c₀.exits <+: c.exits
  held : ∀ call ∈ c.exits.drop c₀.exits.length, call.heldLive = true
  once : (fullExits (c.exits.drop c₀.exits.length)).Nodup
  gone : ∀ m ∈ fullExits (c.exits.drop c₀.exits.length), c.store.positions.get? m = none

theorem Sound.refl (c : FastLoop) : Sound c c := by
  have hdrop : c.exits.drop c.exits.length = [] := List.drop_length
  refine ⟨List.prefix_refl _, ?_, ?_, ?_⟩ <;> rw [hdrop]
  · exact fun call hcall => absurd hcall List.not_mem_nil
  · exact List.nodup_nil
  · exact fun m hm => absurd hm List.not_mem_nil

/-- No call, and no position that was not there. -/
theorem Sound.same (h : Sound c₀ c) (hexits : c'.exits = c.exits)
    (hnone : ∀ m, c.store.positions.get? m = none → c'.store.positions.get? m = none) :
    Sound c₀ c' where
  grown := hexits ▸ h.grown
  held := hexits ▸ h.held
  once := hexits ▸ h.once
  gone m hm := hnone m (h.gone m (hexits ▸ hm))

theorem drop_append_one {calls calls₀ : List ExitCall} (h : calls₀ <+: calls) (call : ExitCall) :
    (calls ++ [call]).drop calls₀.length = calls.drop calls₀.length ++ [call] :=
  List.drop_append_of_le_length h.length_le

theorem fullExits_append_one (calls : List ExitCall) (call : ExitCall) :
    fullExits (calls ++ [call]) = fullExits calls ++ if call.full = true then [call.mint] else [] := by
  unfold fullExits
  rw [List.filter_append, List.map_append]
  by_cases hfull : call.full = true
  · simp [hfull]
  · simp [hfull]

/-- A call for a live position, which leaves the store if it was sold whole. -/
theorem Sound.call (h : Sound c₀ c) {call : ExitCall} (hexits : c'.exits = c.exits ++ [call])
    (hheld : call.heldLive = true)
    (hpos : call.full = true → c.store.positions.get? call.mint ≠ none ∧
      c'.store.positions.get? call.mint = none)
    (hnone : ∀ m, c.store.positions.get? m = none → c'.store.positions.get? m = none) :
    Sound c₀ c' := by
  have hdrop := drop_append_one h.grown call
  refine ⟨?_, ?_, ?_, ?_⟩
  · rw [hexits]
    exact h.grown.trans (List.prefix_append _ _)
  · rw [hexits, hdrop]
    intro call' hcall'
    rcases List.mem_append.1 hcall' with hcall' | hcall'
    · exact h.held call' hcall'
    · obtain rfl := List.mem_singleton.1 hcall'
      exact hheld
  · rw [hexits, hdrop, fullExits_append_one]
    split_ifs with hfull
    · -- what was sold whole before is not in the store any more
      have hnew : call.mint ∉ fullExits (c.exits.drop c₀.exits.length) :=
        fun hmem => (hpos hfull).1 (h.gone call.mint hmem)
      rw [List.nodup_append]
      refine ⟨h.once, List.nodup_singleton _, fun m hm m' hm' => ?_⟩
      rintro rfl
      exact hnew (List.mem_singleton.1 hm' ▸ hm)
    · rw [List.append_nil]
      exact h.once
  · rw [hexits, hdrop, fullExits_append_one]
    intro m hm
    rcases List.mem_append.1 hm with hm | hm
    · exact hnone m (h.gone m hm)
    · split_ifs at hm with hfull
      · obtain rfl := List.mem_singleton.1 hm
        exact (hpos hfull).2
      · cases hm

/-! ### The registry and the store -/

/-- Sound so far; what the store holds is live and registered as it is, and nothing else is open. -/
structure Tidy (c₀ c : FastLoop) : Prop where
  sound : Sound c₀ c
  held : ∀ m pos, c.store.positions.get? m = some pos →
    c.fsmRegistry.get? m = some pos ∧ pos.fsmState.live = true
  stale : ∀ m q, c.store.positions.get? m = none → c.fsmRegistry.get? m = some q →
    q.fsmState ≠ .opened

/-- A registered open position is in the store. -/
theorem Tidy.position (h : Tidy c₀ c) (hq : c.fsmRegistry.get? m = some q)
    (hopen : q.fsmState = .opened) : c.store.positions.get? m = some q := by
  cases hpos : c.store.positions.get? m with
  | none => exact absurd hopen (h.stale m q hpos hq)
  | some pos => exact (h.held m pos hpos).1.symm.trans hq

theorem none_of_remove {t : Table Position.mint} (h : t.get? m = none) :
    (t.remove mint).get? m = none := by
  rw [Table.get?_remove, h, ite_self]

/-- A mint leaves the store, after a call for it or without one; what is registered of it is not
open. -/
theorem Tidy.leave (h : Tidy c₀ c) (mint : String) (hsound : Sound c₀ c')
    (hpositions : ∀ m, c'.store.positions.get? m =
      if m = mint then none else c.store.positions.get? m)
    (hregistry : ∀ m, m ≠ mint → c'.fsmRegistry.get? m = c.fsmRegistry.get? m)
    (hstale : ∀ q, c'.fsmRegistry.get? mint = some q → q.fsmState ≠ .opened) : Tidy c₀ c' where
  sound := hsound
  held m pos hpos := by
    rw [hpositions] at hpos
    split_ifs at hpos with hm
    rw [hregistry m hm]
    exact h.held m pos hpos
  stale m q hpos hq := by
    by_cases hm : m = mint
    · subst hm
      exact hstale q hq
    · rw [hpositions, if_neg hm] at hpos
      exact h.stale m q hpos (hregistry m hm ▸ hq)

/-- A live position is written through. -/
theorem Tidy.write (h : Tidy c₀ c) (hsound : Sound c₀ c') (hlive : q.fsmState.live = true)
    (hpositions : c'.store.positions = c.store.positions.upsert q)
    (hregistry : c'.fsmRegistry = c.fsmRegistry.upsert q) : Tidy c₀ c' where
  sound := hsound
  held m pos hpos := by
    rw [hpositions, Table.get?_upsert] at hpos
    rw [hregistry, Table.get?_upsert]
    split_ifs at hpos ⊢
    · obtain rfl := Option.some.inj hpos
      exact ⟨rfl, hlive⟩
    · exact h.held m pos hpos
  stale m p hpos hp := by
    rw [hpositions, Table.get?_upsert] at hpos
    rw [hregistry, Table.get?_upsert] at hp
    split_ifs at hpos hp
    exact h.stale m p hpos hp

/-! ### The flatten -/

section Flatten

variable {lands : Answers}

/-- What becomes of a position that is registered as it is, where the flatten lands. -/
theorem Sold.tidy (hlands : ∀ m n, lands .flatten m n = true) (h : Tidy c₀ c)
    (hpos : c.store.positions.get? pos.mint = some pos) (hsold : Sold lands c pos c') :
    Tidy c₀ c' ∧ ∀ m, c'.store.positions.get? m =
      if m = pos.mint then none else c.store.positions.get? m := by
  obtain ⟨hregistered, hlive⟩ := h.held pos.mint pos hpos
  cases hsold with
  | called hrefused =>
      have hlanded := hrefused hregistered
      rw [hlands] at hlanded
      cases hlanded
  | closing _ _ _ hlanded =>
      rw [hlands] at hlanded
      cases hlanded
  | @closed q hq hmint _ _ =>
      have hpositions : ∀ m, (c.store.positions.remove q.mint).get? m =
          if m = pos.mint then none else c.store.positions.get? m := by
        intro m
        rw [Table.get?_remove, hmint]
      refine ⟨h.leave pos.mint ?_ hpositions (fun m hm => ?_) fun p hp => ?_, hpositions⟩
      · refine h.sound.call rfl ?_ (fun _ => ⟨?_, ?_⟩) fun m hm => none_of_remove hm
        · show (Option.map _ (c.store.positions.get? pos.mint)).any _ = true
          rw [hpos]
          exact hlive
        · show c.store.positions.get? pos.mint ≠ none
          rw [hpos]
          exact nofun
        · exact (hpositions pos.mint).trans (if_pos rfl)
      · exact Table.get?_upsert_of_ne (a := q.asClosed) (hmint.symm ▸ hm)
      · have hself : (c.fsmRegistry.upsert q.asClosed).get? pos.mint = some q.asClosed :=
          (Table.get?_upsert _ _ _).trans (if_pos hmint.symm)
        obtain rfl : q.asClosed = p := Option.some.inj (hself.symm.trans hp)
        exact nofun

theorem abandon_tidy (h : Tidy c₀ c) (hpos : c.store.positions.get? pos.mint = some pos)
    (hentering : pos.fsmState = .entering) :
    Tidy c₀ (c.abandon pos) ∧ ∀ m, (c.abandon pos).store.positions.get? m =
      if m = pos.mint then none else c.store.positions.get? m := by
  have hregistered := (h.held pos.mint pos hpos).1
  have hpositions : ∀ m, (c.abandon pos).store.positions.get? m =
      if m = pos.mint then none else c.store.positions.get? m := by
    intro m
    unfold FastLoop.abandon
    dsimp only
    rw [vetoed_store, mint_of_getD, hregistered, Option.getD_some, if_pos hentering]
    exact Table.get?_remove _ _ _
  refine ⟨h.leave pos.mint ?_ hpositions (fun m hm => Table.get?_remove_of_ne hm)
    fun p hp => ?_, hpositions⟩
  · refine h.sound.same rfl fun m hm => ?_
    rw [hpositions, hm, ite_self]
  · have hself : (c.fsmRegistry.remove pos.mint).get? pos.mint = none :=
      Table.get?_remove_self _ _
    cases hself.symm.trans hp

theorem flattenPosition_tidy (hlands : ∀ m n, lands .flatten m n = true) (h : Tidy c₀ c)
    (hpos : c.store.positions.get? pos.mint = some pos) :
    Tidy c₀ (c.flattenPosition lands pos) ∧ ∀ m,
      (c.flattenPosition lands pos).store.positions.get? m =
        if m = pos.mint then none else c.store.positions.get? m := by
  have hlive := (h.held pos.mint pos hpos).2
  unfold FastLoop.flattenPosition
  split
  · exact abandon_tidy h hpos (by assumption)
  · exact (sold lands (.inl (by assumption))).tidy hlands h hpos
  · exact (sold lands (.inr (by assumption))).tidy hlands h hpos
  · -- the other states are not live
    rename_i hentering hopened hclosing
    rcases live_iff.1 hlive with hstate | hstate | hstate
    · exact absurd hstate hentering
    · exact absurd hstate hopened
    · exact absurd hstate hclosing

/-- **A flatten that lands empties the store.** -/
theorem emergencyFlattenAll_tidy (hlands : ∀ m n, lands .flatten m n = true) (h : Tidy c₀ c) :
    Tidy c₀ (c.emergencyFlattenAll lands) ∧
      ∀ m, (c.emergencyFlattenAll lands).store.positions.get? m = none := by
  have hrows : ∀ m pos, c.store.positions.get? m = some pos → pos ∈ c.store.positions.rows :=
    fun m pos hpos => (Table.mem_of_get? hpos).1
  have hheld : ∀ pos ∈ c.store.positions.rows, c.store.positions.get? pos.mint = some pos :=
    fun pos hpos => get?_of_mem hpos
  have hdistinct := c.store.positions.distinct
  unfold FastLoop.emergencyFlattenAll
  generalize c.store.positions.rows = rows at hrows hheld hdistinct
  induction rows generalizing c with
  | nil =>
      refine ⟨h, fun m => ?_⟩
      cases hpos : c.store.positions.get? m with
      | none => exact hpos
      | some pos => cases hrows m pos hpos
  | cons first rows ih =>
      rw [List.map_cons, List.nodup_cons] at hdistinct
      obtain ⟨htidy, hpositions⟩ := flattenPosition_tidy hlands h (hheld first List.mem_cons_self)
      refine ih htidy (fun m pos hpos => ?_) (fun pos hpos => ?_) hdistinct.2
      · rw [hpositions] at hpos
        split_ifs at hpos with hm
        refine (List.mem_cons.1 (hrows m pos hpos)).resolve_left ?_
        rintro rfl
        exact hm (mint_of_get? hpos).symm
      · have hne : pos.mint ≠ first.mint := by
          intro heq
          exact hdistinct.1 (heq ▸ List.mem_map_of_mem hpos)
        rw [hpositions, if_neg hne]
        exact hheld pos (List.mem_cons_of_mem first hpos)

end Flatten

/-! ### Turns before the trip -/

section Turn

variable (cfg : FastConfig) (input : TickInput)

/-- What the exit states, the stops and the breaker are does not matter. -/
theorem Tidy.congr (h : Tidy c₀ c) (hexits : c'.exits = c.exits)
    (hpositions : c'.store.positions = c.store.positions)
    (hregistry : c'.fsmRegistry = c.fsmRegistry) : Tidy c₀ c' where
  sound := h.sound.same hexits fun m hm => hpositions ▸ hm
  held := by
    rw [hpositions, hregistry]
    exact h.held
  stale := by
    rw [hpositions, hregistry]
    exact h.stale

theorem exitAndClose_tidy (path : ExitPath) (fractionBps : ℤ) (h : Tidy c₀ c)
    (hq : c.fsmRegistry.get? q.mint = some q) (hopen : q.fsmState = .opened) :
    Tidy c₀ (c.exitAndClose cfg input q path fractionBps) := by
  have hpos := h.position hq hopen
  have hstore : (c.exitAndClose cfg input q path fractionBps).store.positions =
      c.store.positions.remove q.mint := by
    have hclosed := closeFsm_store c.store q
    rw [if_pos hopen] at hclosed
    exact congrArg StateStore.positions hclosed
  have hpositions : ∀ m, (c.exitAndClose cfg input q path fractionBps).store.positions.get? m =
      if m = q.mint then none else c.store.positions.get? m := by
    intro m
    rw [hstore, Table.get?_remove]
  refine h.leave q.mint ?_ hpositions (fun m hm => Table.get?_remove_of_ne hm) fun p hp => ?_
  · refine h.sound.call rfl ?_ (fun _ => ⟨?_, (hpositions q.mint).trans (if_pos rfl)⟩) fun m hm => ?_
    · show (Option.map _ (c.store.positions.get? q.mint)).any _ = true
      rw [hpos, Option.map_some, hopen]
      rfl
    · show c.store.positions.get? q.mint ≠ none
      rw [hpos]
      exact nofun
    · rw [hpositions, hm, ite_self]
  · have hself : (c.fsmRegistry.remove q.mint).get? q.mint = none :=
      Table.get?_remove_self _ _
    cases hself.symm.trans hp

theorem none_of_upsert {t : Table Position.mint} {p : Position} (hp : t.get? p.mint ≠ none)
    (h : t.get? m = none) : (t.upsert p).get? m = none := by
  rw [Table.get?_upsert]
  split_ifs with hm
  · subst hm
    exact absurd h hp
  · exact h

theorem act_tidy (decision : ExitDecision) (h : Tidy c₀ c)
    (hq : c.fsmRegistry.get? q.mint = some q) (hopen : q.fsmState = .opened) :
    Tidy c₀ (c.act cfg input q decision) := by
  have hpos := h.position hq hopen
  unfold FastLoop.act
  split
  · exact h
  · exact exitAndClose_tidy cfg input .engine _ h hq hopen
  · rename_i fractionBps _ _
    rw [doScaleOut_eq input fractionBps hq]
    have hlive : q.hit.fsmState.live = true := by
      show q.fsmState.live = true
      rw [hopen]
      rfl
    refine h.write ?_ hlive rfl rfl
    refine h.sound.call rfl ?_ (fun hfull => ?_) fun m hm => none_of_upsert (p := q.hit) ?_ hm
    · show (Option.map _ (c.store.positions.get? q.mint)).any _ = true
      rw [hpos, Option.map_some, hopen]
      rfl
    · cases hfull
    · show c.store.positions.get? q.mint ≠ none
      rw [hpos]
      exact nofun

/-- Telling the breaker of the mark trips it. -/
def TripsOn (c : FastLoop) (q : Position) (mark : ℚ) (exitState : ExitState)
    (decision : ExitDecision) : Prop :=
  (0 < exitState.entryFillPrice ∧ 0 < q.tokensOutBase) ∧
    Trips cfg input
      ((c.stepped q.mint decision.nextState).valuedAt q (FastLoop.unrealizedPnl q exitState mark))
      (FastLoop.unrealizedPnl q exitState mark - q.unrealizedPnlNetLamports)

/-- **Marking to market**: tidy, and nothing is held any more if the breaker tripped; else the
position is still open. -/
theorem judgedThenMarked_tidy (hlands : ∀ m n, input.lands .flatten m n = true) {mark : ℚ}
    {exitState : ExitState} {decision : ExitDecision} (h : Tidy c₀ c)
    (hjudged : Judged cfg input c q mark exitState decision) :
    Tidy c₀ (c.judgedThenMarked cfg input q mark exitState decision).2 ∧
      (TripsOn cfg input c q mark exitState decision →
        ∀ m, (c.judgedThenMarked cfg input q mark exitState decision).2.store.positions.get? m =
          none) ∧
      (¬ TripsOn cfg input c q mark exitState decision → ∃ fsm, fsm.fsmState = .opened ∧
        (c.judgedThenMarked cfg input q mark exitState decision).2.fsmRegistry.get? q.mint =
          some fsm) := by
  have hstepped : Tidy c₀ (c.stepped q.mint decision.nextState) := h.congr rfl rfl rfl
  have hpos := h.position hjudged.registered hjudged.opened
  unfold FastLoop.judgedThenMarked TripsOn
  rw [markToMarket_eq cfg input exitState mark
    (c := c.stepped q.mint decision.nextState) hjudged.registered]
  by_cases hpriced : 0 < exitState.entryFillPrice ∧ 0 < q.tokensOutBase
  · rw [if_pos hpriced]
    let unrealized := FastLoop.unrealizedPnl q exitState mark
    let valued := (c.stepped q.mint decision.nextState).valuedAt q unrealized
    have hvalued : Tidy c₀ valued := by
      have hlive : (q.valued unrealized).fsmState.live = true := by
        show q.fsmState.live = true
        rw [hjudged.opened]
        rfl
      refine hstepped.write ?_ hlive rfl rfl
      refine hstepped.sound.same rfl fun m hm => none_of_upsert (p := q.valued unrealized) ?_ hm
      show c.store.positions.get? q.mint ≠ none
      rw [hpos]
      exact nofun
    obtain ⟨b, projected, ⟨htrips, heq⟩ | ⟨hkeeps, heq⟩⟩ := recordPnl_eq cfg input valued
      (unrealized - q.unrealizedPnlNetLamports)
    · have hbreaker : Tidy c₀ { valued with breaker := b } := hvalued.congr rfl rfl rfl
      obtain ⟨htidy, hempty⟩ := emergencyFlattenAll_tidy hlands hbreaker
      rw [heq]
      exact ⟨htidy.congr rfl rfl rfl, fun _ => hempty, fun hnot => absurd ⟨hpriced, htrips⟩ hnot⟩
    · rw [heq]
      refine ⟨hvalued.congr rfl rfl rfl, fun htrips => absurd htrips.2 hkeeps, fun _ => ?_⟩
      exact ⟨q.valued unrealized, hjudged.opened, Table.get?_upsert_self _ _⟩
  · rw [if_neg hpriced]
    exact ⟨hstepped, fun htrips => absurd htrips.1 hpriced,
      fun _ => ⟨q, hjudged.opened, hjudged.registered⟩⟩

theorem judgedThenMarked_returns {mark : ℚ} {exitState : ExitState} {decision : ExitDecision}
    (hjudged : Judged cfg input c q mark exitState decision)
    (htrips : TripsOn cfg input c q mark exitState decision) :
    (c.judgedThenMarked cfg input q mark exitState decision).1 = .ok () := by
  unfold FastLoop.judgedThenMarked
  rw [markToMarket_eq cfg input exitState mark
    (c := c.stepped q.mint decision.nextState) hjudged.registered, if_pos htrips.1]
  exact recordPnl_returns_of_trips cfg input htrips.2

/-! ### Nothing open -/

/-- Nothing that is registered is open. -/
def Halted (c : FastLoop) : Prop := ∀ m q, c.fsmRegistry.get? m = some q → q.fsmState ≠ .opened

theorem Tidy.halted (h : Tidy c₀ c) (hempty : ∀ m, c.store.positions.get? m = none) : Halted c :=
  fun m q hq => h.stale m q (hempty m) hq

/-- Then the turns do nothing. -/
theorem turn_of_halted {s : FastLoop.Ticking} (h : Halted s.loop) (mint : String) :
    FastLoop.turn cfg input s mint = (.ok (), s) := by
  unfold FastLoop.turn
  split
  · rfl
  · rename_i q hq
    rw [if_neg (h mint q hq)]

theorem turns_of_halted {s : FastLoop.Ticking} (h : Halted s.loop) (mints : List String) :
    runLeaving (FastLoop.turn cfg input) s mints = (.ok (), s) := by
  induction mints with
  | nil => rfl
  | cons mint mints ih => rw [runLeaving_cons_ok (turn_of_halted cfg input h mint), ih]

theorem act_halted (decision : ExitDecision) (h : Halted c)
    (hq : c.fsmRegistry.get? q.mint = some q) : Halted (c.act cfg input q decision) := by
  unfold FastLoop.act
  split
  · exact h
  · exact fun m p hp => h m p (opened_of_remove hp)
  · rename_i fractionBps _ _
    rw [doScaleOut_eq input fractionBps hq]
    intro m p hp hopen
    have hp : (c.fsmRegistry.upsert q.hit).get? m = some p := hp
    exact h m p (opened_of_upsert (p := q.hit) (h q.mint q hq) hp hopen) hopen

/-! ### What a turn without a trip leaves of another mint -/

/-- All that the loop has of the mint is as it was. -/
structure Aside (m : String) (c c' : FastLoop) : Prop where
  exitState : c'.exitStates m = c.exitStates m
  stop : c'.stopOf m = c.stopOf m
  registered : c'.fsmRegistry.get? m = c.fsmRegistry.get? m

theorem Aside.refl (m : String) (c : FastLoop) : Aside m c c := ⟨rfl, rfl, rfl⟩

theorem Aside.symm (h : Aside m c c') : Aside m c' c :=
  ⟨h.exitState.symm, h.stop.symm, h.registered.symm⟩

theorem Aside.trans {c'' : FastLoop} (h : Aside m c c') (h' : Aside m c' c'') : Aside m c c'' :=
  ⟨h'.exitState.trans h.exitState, h'.stop.trans h.stop, h'.registered.trans h.registered⟩

theorem Aside.frame (h : Aside m c c') : Frame m c c' :=
  ⟨h.exitState, h.stop, fun _ hq _ => h.registered.symm.trans hq⟩

theorem judgedThenMarked_registered {mark : ℚ} {exitState : ExitState} {decision : ExitDecision}
    (hjudged : Judged cfg input c q mark exitState decision)
    (hkeeps : ¬ TripsOn cfg input c q mark exitState decision) (hne : m ≠ q.mint) :
    (c.judgedThenMarked cfg input q mark exitState decision).2.fsmRegistry.get? m =
      c.fsmRegistry.get? m := by
  unfold FastLoop.judgedThenMarked
  unfold TripsOn at hkeeps
  rw [markToMarket_eq cfg input exitState mark
    (c := c.stepped q.mint decision.nextState) hjudged.registered]
  by_cases hpriced : 0 < exitState.entryFillPrice ∧ 0 < q.tokensOutBase
  · rw [if_pos hpriced]
    obtain ⟨b, projected, ⟨htrips, _⟩ | ⟨_, heq⟩⟩ := recordPnl_eq cfg input
      ((c.stepped q.mint decision.nextState).valuedAt q (FastLoop.unrealizedPnl q exitState mark))
      (FastLoop.unrealizedPnl q exitState mark - q.unrealizedPnlNetLamports)
    · exact absurd ⟨hpriced, htrips⟩ hkeeps
    · rw [heq]
      exact Table.get?_upsert_of_ne (a := q.valued (FastLoop.unrealizedPnl q exitState mark)) hne
  · rw [if_neg hpriced]
    rfl

theorem act_registered (decision : ExitDecision) (hq : c.fsmRegistry.get? q.mint = some q)
    (hne : m ≠ q.mint) :
    (c.act cfg input q decision).fsmRegistry.get? m = c.fsmRegistry.get? m := by
  unfold FastLoop.act
  split
  · rfl
  · exact Table.get?_remove_of_ne hne
  · rename_i fractionBps _ _
    rw [doScaleOut_eq input fractionBps hq]
    exact Table.get?_upsert_of_ne (a := q.hit) hne

/-! ### Stops that are armed after a turn -/

/-- The mint has had its turn: its stop is gone if the engine sold it, and else its mark was
collected and its stop is armed as before. -/
structure Passed (c₀ : FastLoop) (s : FastLoop.Ticking) (m : String) : Prop where
  sold : Asks cfg input c₀ .engine m → s.loop.stopOf m = none
  kept : ∀ q mark r, c₀.fsmRegistry.get? m = some q → q.fsmState = .opened →
    input.marks m = some mark → c₀.stopOf m = some r → ¬ Asks cfg input c₀ .engine m →
    (m, mark) ∈ s.enforcerTicks ∧ s.loop.stopOf m = some r

theorem Passed.mono {s s' : FastLoop.Ticking} (h : Passed cfg input c₀ s m)
    (hstop : s'.loop.stopOf m = s.loop.stopOf m)
    (hticks : s.enforcerTicks ⊆ s'.enforcerTicks) : Passed cfg input c₀ s' m where
  sold hasks := hstop.trans (h.sold hasks)
  kept q mark r hq hopen hmark hr hunsold := by
    obtain ⟨htick, hstopped⟩ := h.kept q mark r hq hopen hmark hr hunsold
    exact ⟨hticks htick, hstop.trans hstopped⟩

theorem subset_collect (s : FastLoop.Ticking) (mint : String) (mark : ℚ) :
    s.enforcerTicks ⊆ (FastLoop.collect s mint mark).enforcerTicks := by
  unfold FastLoop.collect
  split_ifs
  · exact List.subset_append_left _ _
  · exact List.Subset.refl _

/-- Where a stop is armed the enforcer is wired. -/
theorem mem_collect_of_stop {s : FastLoop.Ticking} {r : RegisteredStop}
    (h : s.loop.stopOf m = some r) (mark : ℚ) :
    (mint, mark) ∈ (FastLoop.collect s mint mark).enforcerTicks := by
  unfold FastLoop.collect
  have hwired : s.loop.stops.isSome = true := by
    unfold FastLoop.stopOf at h
    cases hstops : s.loop.stops with
    | none =>
        rw [hstops] at h
        cases h
    | some stops => rfl
  rw [if_pos hwired]
  exact List.mem_append_right _ (List.mem_singleton_self _)

/-- The engine judges a mint in one way. -/
theorem Judged.unique {q' : Position} {mark mark' : ℚ} {exitState exitState' : ExitState}
    {decision decision' : ExitDecision} (h : Judged cfg input c q mark exitState decision)
    (h' : Judged cfg input c q' mark' exitState' decision') (hmint : q'.mint = q.mint) :
    q' = q ∧ mark' = mark ∧ exitState' = exitState ∧ decision' = decision := by
  have hregistered := h'.registered
  have hmark := h'.marked
  have htracked := h'.tracked
  have hjudged := h'.judged
  rw [hmint] at hregistered hmark htracked hjudged
  obtain rfl := Option.some.inj (hregistered.symm.trans h.registered)
  obtain rfl := Option.some.inj (hmark.symm.trans h.marked)
  obtain rfl := Option.some.inj (htracked.symm.trans h.tracked)
  exact ⟨rfl, rfl, rfl, Except.ok.inj (hjudged.symm.trans h.judged)⟩

/-- The engine sells the mint iff its decision is a full exit. -/
theorem asks_engine_iff {mark : ℚ} {exitState : ExitState} {decision : ExitDecision}
    (h : Judged cfg input c q mark exitState decision) :
    Asks cfg input c .engine q.mint ↔ sellsAll decision = true := by
  refine ⟨fun hasks => ?_, fun hsells => .engine h hsells⟩
  generalize hmint : q.mint = mint at hasks
  cases hasks with
  | engine hjudged hsells =>
      obtain ⟨-, -, -, rfl⟩ := h.unique cfg input hjudged hmint.symm
      exact hsells

/-- A decision that is not a full exit leaves the stop armed. -/
theorem act_stopOf_of_not_sellsAll (q : Position) {decision : ExitDecision}
    (h : sellsAll decision = false) : (c.act cfg input q decision).stopOf m = c.stopOf m := by
  unfold FastLoop.act
  unfold sellsAll at h
  split
  · rfl
  · rename_i hintent
    rw [hintent] at h
    cases h
  · rfl

theorem act_stopOf_of_sellsAll (q : Position) {decision : ExitDecision}
    (h : sellsAll decision = true) : (c.act cfg input q decision).stopOf q.mint = none := by
  unfold FastLoop.act
  unfold sellsAll at h
  split
  · rename_i hintent
    rw [hintent] at h
    cases h
  · exact (stopOf_deregister _ _ _).trans (if_pos rfl)
  · rename_i hintent
    rw [hintent] at h
    cases h

/-- A mint that the engine did not judge in its turn. -/
theorem passed_of_not_judged {s : FastLoop.Ticking}
    (h : ∀ q mark exitState decision, q.mint = m → ¬ Judged cfg input c₀ q mark exitState decision)
    (hkept : ∀ q mark r, c₀.fsmRegistry.get? m = some q → q.fsmState = .opened →
      input.marks m = some mark → c₀.stopOf m = some r →
      (m, mark) ∈ s.enforcerTicks ∧ s.loop.stopOf m = some r) : Passed cfg input c₀ s m where
  sold hasks := by
    cases hasks with
    | engine hjudged _ => exact absurd hjudged (h _ _ _ _ rfl)
  kept q mark r hq hopen hmark hr _ := hkept q mark r hq hopen hmark hr

/-- A turn that only collects the mark: the engine does not judge the mint. -/
theorem collected_passed {s : FastLoop.Ticking} {mark : ℚ} (haside : Aside q.mint c₀ s.loop)
    (hq : s.loop.fsmRegistry.get? q.mint = some q) (hmark : input.marks q.mint = some mark)
    (hnot : ∀ exitState decision, ¬ Judged cfg input s.loop q mark exitState decision) :
    Passed cfg input c₀ (FastLoop.collect s q.mint mark) q.mint := by
  refine passed_of_not_judged cfg input ?_ ?_
  · intro q' mark' exitState decision hmint hjudged
    have hjudged' := hjudged.of_frame cfg input (hmint.symm ▸ haside.symm.frame)
    obtain rfl : q = q' := by
      have hq' := hjudged'.registered
      rw [hmint, hq] at hq'
      exact Option.some.inj hq'
    obtain rfl := Option.some.inj (hmark.symm.trans hjudged'.marked)
    exact hnot exitState decision hjudged'
  · intro q' mark' r _ _ hmark' hr
    obtain rfl := Option.some.inj (hmark.symm.trans hmark')
    have hr' := haside.stop.trans hr
    rw [collect_loop]
    exact ⟨mem_collect_of_stop hr' mark, hr'⟩

/-- A turn that acts on the decision of the engine. -/
theorem acted_passed {s : FastLoop.Ticking} {fsm : Position} {mark : ℚ} {exitState : ExitState}
    {decision : ExitDecision} {marked : FastLoop} (haside : Aside q.mint c₀ s.loop)
    (hjudged : Judged cfg input s.loop q mark exitState decision)
    (hmarked : s.loop.judgedThenMarked cfg input q mark exitState decision = (.ok (), marked))
    (hsame : fsm.mint = q.mint) :
    Passed cfg input c₀
      { FastLoop.collect s q.mint mark with loop := marked.act cfg input fsm decision } q.mint := by
  have hiff := asks_engine_iff cfg input (hjudged.of_frame cfg input haside.frame)
  have hstops := judgedThenMarked_stopOf cfg input hjudged q.mint
  rw [hmarked] at hstops
  refine ⟨fun hasks => ?_, ?_⟩
  · have hsold := act_stopOf_of_sellsAll cfg input (c := marked) fsm (hiff.1 hasks)
    rw [hsame] at hsold
    exact hsold
  · intro q' mark' r _ _ hmark' hr hunsold
    obtain rfl := Option.some.inj (hjudged.marked.symm.trans hmark')
    have hr' := haside.stop.trans hr
    have hkept := act_stopOf_of_not_sellsAll cfg input (c := marked) (m := q.mint) fsm
      (Bool.eq_false_iff.2 (mt hiff.2 hunsold))
    exact ⟨mem_collect_of_stop hr' mark, hkept.trans (hstops.trans hr')⟩

/-- **A turn of a tidy loop**: nothing is open any more, as the breaker tripped; or the loop is tidy
still, the mint has passed, and the others are aside. -/
theorem turn_tidy (hlands : ∀ m n, input.lands .flatten m n = true) {s s' : FastLoop.Ticking}
    (h : Tidy c₀ s.loop) (haside : Aside mint c₀ s.loop)
    (hturn : FastLoop.turn cfg input s mint = (.ok (), s')) :
    Halted s'.loop ∨ (Tidy c₀ s'.loop ∧ Passed cfg input c₀ s' mint ∧
      s.enforcerTicks ⊆ s'.enforcerTicks ∧ ∀ m, m ≠ mint → Aside m s.loop s'.loop) := by
  have hframe : ∀ m, m ≠ mint → Frame m s.loop s'.loop := by
    intro m hne
    have hframe := turn_frame cfg input s hne
    rw [hturn] at hframe
    exact hframe
  have hturned := turned cfg input s mint
  rw [hturn] at hturned
  cases hturned with
  | skipped hskip =>
      refine .inr ⟨h, passed_of_not_judged cfg input ?_ ?_, List.Subset.refl _,
        fun m _ => .refl m _⟩
      · rintro q mark exitState decision rfl hjudged
        exact hskip q (haside.registered.trans hjudged.registered) hjudged.opened
      · intro q mark r hq hopen
        exact absurd hopen (hskip q (haside.registered.trans hq))
  | @unmarked q hmint hq hopen hmark =>
      subst hmint
      have hderegister : Tidy c₀ (s.loop.deregister q.mint) := h.congr rfl rfl rfl
      refine .inr ⟨exitAndClose_tidy cfg input .markUnavailable 10000 hderegister hq hopen,
        passed_of_not_judged cfg input ?_ ?_, List.Subset.refl _, fun m hne => ?_⟩
      · intro q' mark exitState decision hmint hjudged
        have hmark' := hjudged.marked
        rw [hmint, hmark] at hmark'
        cases hmark'
      · intro q' mark r _ _ hmark'
        rw [hmark] at hmark'
        cases hmark'
      · exact ⟨(hframe m hne).exitState, (hframe m hne).stop, Table.get?_remove_of_ne hne⟩
  | @collected q mark _ hmint hq hopen hmark hnot =>
      subst hmint
      have hloop := collect_loop s q.mint mark
      refine .inr ⟨hloop.symm ▸ h, collected_passed cfg input haside hq hmark hnot,
        subset_collect s q.mint mark, fun m hne => ?_⟩
      rw [hloop]
      exact .refl m _
  | @acted q fsm mark exitState decision marked hmint hjudged hmarked hfsm hsame hentered =>
      subst hmint
      have hpassed := acted_passed cfg input haside hjudged hmarked hsame
      obtain ⟨htidy, hempty, hopen⟩ := judgedThenMarked_tidy cfg input hlands h hjudged
      rw [hmarked] at htidy hempty hopen
      by_cases htrips : TripsOn cfg input s.loop q mark exitState decision
      · exact .inl (act_halted cfg input decision (htidy.halted (hempty htrips)) hfsm)
      · obtain ⟨fsm', hopened, hfsm'⟩ := hopen htrips
        obtain rfl : fsm = fsm' := by
          rw [← hsame, hfsm] at hfsm'
          exact Option.some.inj hfsm'
        refine .inr ⟨act_tidy cfg input decision htidy hfsm hopened, hpassed,
          subset_collect s q.mint mark, fun m hne => ?_⟩
        have hregistered := judgedThenMarked_registered cfg input hjudged htrips hne
        rw [hmarked] at hregistered
        exact ⟨(hframe m hne).exitState, (hframe m hne).stop,
          (act_registered cfg input decision hfsm (hsame.symm ▸ hne)).trans hregistered⟩

/-- **The turns of distinct mints.** -/
theorem turns_tidy (hlands : ∀ m n, input.lands .flatten m n = true) {mints : List String}
    (hdistinct : mints.Nodup) {s s' : FastLoop.Ticking} (h : Tidy c₀ s.loop)
    (haside : ∀ m ∈ mints, Aside m c₀ s.loop)
    (hrun : runLeaving (FastLoop.turn cfg input) s mints = (.ok (), s')) :
    Halted s'.loop ∨ (Tidy c₀ s'.loop ∧ (∀ m ∈ mints, Passed cfg input c₀ s' m) ∧
      s.enforcerTicks ⊆ s'.enforcerTicks ∧ ∀ m ∉ mints, Aside m s.loop s'.loop) := by
  induction mints generalizing s with
  | nil =>
      cases hrun
      exact .inr ⟨h, fun m hm => absurd hm List.not_mem_nil, List.Subset.refl _, fun m _ => .refl m _⟩
  | cons mint mints ih =>
      rw [List.nodup_cons] at hdistinct
      rcases hturn : FastLoop.turn cfg input s mint with ⟨e | _, s₁⟩
      · rw [runLeaving_cons_error hturn] at hrun
        cases hrun
      · rw [runLeaving_cons_ok hturn] at hrun
        rcases turn_tidy cfg input hlands h (haside mint List.mem_cons_self) hturn with
          hhalted | ⟨htidy, hpassed, hticks, hothers⟩
        · rw [turns_of_halted cfg input hhalted] at hrun
          cases hrun
          exact .inl hhalted
        · have haside' : ∀ m ∈ mints, Aside m c₀ s₁.loop := fun m hm =>
            (haside m (List.mem_cons_of_mem mint hm)).trans
              (hothers m fun heq => hdistinct.1 (heq ▸ hm))
          rcases ih hdistinct.2 htidy haside' hrun with
            hhalted | ⟨htidy', hpassed', hticks', hothers'⟩
          · exact .inl hhalted
          · refine .inr ⟨htidy', fun m hm => ?_, List.Subset.trans hticks hticks', fun m hm => ?_⟩
            · rcases List.mem_cons.1 hm with rfl | hm
              · exact hpassed.mono cfg input (hothers' m hdistinct.1).stop hticks'
              · exact hpassed' m hm
            · rw [List.mem_cons, not_or] at hm
              exact (hothers m hm.1).trans (hothers' m hm.2)

/-! ### The sync -/

/-- Before the tick: what the store holds is live, and registered as it is if at all. -/
structure InStep (c : FastLoop) : Prop where
  live : ∀ pos ∈ c.store.positions.rows, pos.fsmState.live = true
  registered : ∀ m pos q, c.store.positions.get? m = some pos → c.fsmRegistry.get? m = some q →
    q = pos

theorem get?_dropStale (stale : List Position) (c : FastLoop) (m : String) :
    (stale.foldl FastLoop.dropStale c).fsmRegistry.get? m =
        (if m ∈ stale.map Position.mint then none else c.fsmRegistry.get? m) ∧
      (stale.foldl FastLoop.dropStale c).store = c.store := by
  induction stale generalizing c with
  | nil => exact ⟨by simp, rfl⟩
  | cons q stale ih =>
      obtain ⟨hget, hstore⟩ := ih (c.dropStale q)
      refine ⟨?_, hstore⟩
      rw [List.foldl_cons, hget]
      show (if m ∈ stale.map Position.mint then none else (c.fsmRegistry.remove q.mint).get? m) = _
      rw [Table.get?_remove]
      by_cases hm : m = q.mint
      · simp [hm]
      · simp [hm]

/-- Adopting registers the position, if its mint is not registered. -/
theorem adopt_registry (c : FastLoop) (pos : Position) (m : String) :
    (FastLoop.adopt cfg c pos).2.fsmRegistry.get? m =
      if m = pos.mint then some ((c.fsmRegistry.get? m).getD pos) else c.fsmRegistry.get? m := by
  unfold FastLoop.adopt
  by_cases hregistered : (c.fsmRegistry.get? pos.mint).isSome = true
  · rw [if_pos hregistered]
    obtain ⟨q, hq⟩ := Option.isSome_iff_exists.1 hregistered
    split_ifs with hm
    · subst hm
      show c.fsmRegistry.get? pos.mint = _
      rw [hq]
      rfl
    · rfl
  · have hnone : c.fsmRegistry.get? pos.mint = none := by simpa using hregistered
    have hupsert : (c.fsmRegistry.upsert pos).get? m =
        if m = pos.mint then some ((c.fsmRegistry.get? m).getD pos)
        else c.fsmRegistry.get? m := by
      rw [Table.get?_upsert]
      split_ifs with hm
      · rw [hm, hnone]
        rfl
      · rfl
    rw [if_neg hregistered]
    dsimp only
    split
    · split
      · exact hupsert
      · exact hupsert
    · exact hupsert

/-- The adoptions leave the store, and what they register is what it holds. -/
theorem adoptions_agree (h : InStep c) :
    (runLeaving (FastLoop.adopt cfg) c c.store.positions.rows).2.store = c.store ∧
      ∀ m pos q, c.store.positions.get? m = some pos →
        (runLeaving (FastLoop.adopt cfg) c c.store.positions.rows).2.fsmRegistry.get? m = some q →
        q = pos := by
  refine runLeaving_invariant (P := fun c' : FastLoop => c'.store = c.store ∧ ∀ m pos q,
    c.store.positions.get? m = some pos → c'.fsmRegistry.get? m = some q → q = pos)
    ⟨rfl, h.registered⟩ ?_
  rintro c' row hrow ⟨hstore, hregistered⟩
  have hget : c'.store.positions.get? row.mint = some row := hstore ▸ get?_of_mem hrow
  refine ⟨(adopt_moves cfg hget).2.trans hstore, fun m pos q hpos hq => ?_⟩
  rw [adopt_registry] at hq
  split_ifs at hq with hm
  · subst hm
    obtain rfl : row = pos := Option.some.inj ((hstore ▸ hget).symm.trans hpos)
    cases hold : c'.fsmRegistry.get? row.mint with
    | none =>
        rw [hold] at hq
        exact (Option.some.inj hq).symm
    | some p =>
        rw [hold] at hq
        obtain rfl : p = q := Option.some.inj hq
        exact hregistered row.mint row p hpos hold
  · exact hregistered m pos q hpos hq

/-- Every position has been adopted. -/
theorem adoptions_register {rows : List Position}
    (hran : runLeaving (FastLoop.adopt cfg) c rows = (.ok (), c')) :
    ∀ pos ∈ rows, (c'.fsmRegistry.get? pos.mint).isSome = true := by
  refine runLeaving_forall (R := fun pos (c' : FastLoop) =>
    (c'.fsmRegistry.get? pos.mint).isSome = true) ?_ ?_ hran
  · intro c' pos c'' hadopt
    have hget := adopt_registry cfg c' pos pos.mint
    rw [hadopt, if_pos rfl] at hget
    rw [hget]
    rfl
  · intro c' pos other hother
    rw [adopt_registry]
    split_ifs
    · rfl
    · exact hother

/-- The registered mints that the store does not hold. -/
theorem mem_stale : m ∈ (c.fsmRegistry.rows.filter
      fun q => (c.store.loadPosition q.mint).isNone).map Position.mint ↔
    (∃ q, c.fsmRegistry.get? m = some q) ∧ c.store.positions.get? m = none := by
  rw [List.mem_map]
  constructor
  · rintro ⟨q, hq, rfl⟩
    obtain ⟨hrow, hnone⟩ := List.mem_filter.1 hq
    exact ⟨⟨q, get?_of_mem hrow⟩, Option.isNone_iff_eq_none.1 hnone⟩
  · rintro ⟨⟨q, hq⟩, hnone⟩
    obtain ⟨hrow, rfl⟩ := Table.mem_of_get? hq
    exact ⟨q, List.mem_filter.2 ⟨hrow, Option.isNone_iff_eq_none.2 hnone⟩, rfl⟩

/-- **After the sync** the registry agrees with the store. -/
theorem synced_tidy (h : InStep c) (hran : (c.syncRegistry cfg).1 = .ok ()) :
    Tidy (c.synced cfg) (c.synced cfg) := by
  have hinv := adoptions_agree cfg h
  unfold FastLoop.synced
  unfold FastLoop.syncRegistry at hran ⊢
  rcases hsynced : runLeaving (FastLoop.adopt cfg) c c.store.positions.rows with ⟨e | _, synced⟩
  · rw [hsynced] at hran
    cases hran
  · rw [hsynced] at hinv
    obtain ⟨hstore, hregistered⟩ := hinv
    have hadopted := adoptions_register cfg hsynced
    have hmem := fun m => mem_stale (c := synced) (m := m)
    dsimp only
    generalize synced.fsmRegistry.rows.filter
      (fun q => (synced.store.loadPosition q.mint).isNone) = stale at hmem ⊢
    have hget := get?_dropStale stale synced
    refine ⟨.refl _, fun m pos hpos => ?_, fun m q hnone hq => ?_⟩
    · rw [(hget m).2] at hpos
      have hkeeps : m ∉ stale.map Position.mint := by
        rw [hmem, hpos]
        exact fun hstale => nomatch hstale.2
      rw [(hget m).1, if_neg hkeeps]
      rw [hstore] at hpos
      obtain ⟨hrow, rfl⟩ := Table.mem_of_get? hpos
      obtain ⟨q, hq⟩ := Option.isSome_iff_exists.1 (hadopted pos hrow)
      obtain rfl := hregistered pos.mint pos q hpos hq
      exact ⟨hq, h.live q hrow⟩
    · rw [(hget m).2] at hnone
      rw [(hget m).1] at hq
      split_ifs at hq with hstale
      exact absurd ((hmem m).2 ⟨⟨q, hq⟩, hnone⟩) hstale

end Turn

end Controller
end AatsSniper

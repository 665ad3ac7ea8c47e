/-
# One live entry per mint

`process_event` guards an entry by the lock of the mint, which `transition_to_open`
releases and which expires after 30 s; it does not look at the positions.  So an event
of a mint that is held goes through as soon as the lock is gone, and `create_entering`
overwrites the position.

`entries_find_no_live_position_iff` says when a run does not come to that.  The
invariant behind it is `Unlocked`: a position that is `OPEN` or `CLOSING` has no lock,
and the registry holds no other `OPEN` or `CLOSING` position than the store.
-/

import AatsSniper.Controller.Fill

namespace AatsSniper
namespace Controller

open Breaker (CircuitBreaker)

variable {E : Type} {l l' : Ledger} {c : FastLoop}

namespace SnipeLoop

variable (loop : SnipeLoop E) (st : StateStore) (call : SnipeCall E)

/-- The call comes to `create_entering`: it is filled, or given up over the budget. -/
def Enters : Prop :=
  (loop.processEvent st call).1 = .skipped .budgetBlown ∨
    ∃ fill, (loop.processEvent st call).1 = .filled fill

/-- The id of the intent is not one of the last two minutes. -/
def IsNewIntent : Prop :=
  (st.markIntentSeen call.now (makeClientIntentId call.event.mint call.event.slot "ENTRY")).1 = true

/-- Every check passes but the one of the lock. -/
def PassesChecks : Prop :=
  ∃ solIn, loop.screen st call = .ok solIn ∧ IsNewIntent st call ∧
    ∃ cost, loop.costStack call.event solIn = some cost ∧ cost.totalCostBps < cost.expectedEdgeBps

variable {loop st call}

theorem markIntentSeen_snd (st : StateStore) (now : ℤ) (intentId : String) :
    (st.markIntentSeen now intentId).2.fsmLocks = st.fsmLocks ∧
      (st.markIntentSeen now intentId).2.positions = st.positions := by
  unfold StateStore.markIntentSeen
  split_ifs
  · exact ⟨rfl, rfl⟩
  · exact ⟨rfl, rfl⟩

/-- What `process_event` does to the locks and the positions. -/
inductive Processed (loop : SnipeLoop E) (st : StateStore) (call : SnipeCall E) :
    SnipeResult × StateStore → Prop
  /-- It is dropped before the claim, or as the lock is held. -/
  | dropped {reason : SnipeSkipReason} {st' : StateStore} (hreason : reason ≠ .budgetBlown)
      (hlocks : st'.fsmLocks = st.fsmLocks) (hpositions : st'.positions = st.positions)
      (h : loop.PassesChecks st call → st.lockHeld call.now call.event.mint = true) :
      Processed loop st call (.skipped reason, st')
  /-- It is dropped over the costs, and the lock released. -/
  | released {reason : SnipeSkipReason} {st' : StateStore} (hreason : reason ≠ .budgetBlown)
      (hlocks : st'.fsmLocks = Function.update st.fsmLocks call.event.mint none)
      (hpositions : st'.positions = st.positions) (h : ¬ loop.PassesChecks st call) :
      Processed loop st call (.skipped reason, st')
  /-- It is given up over the budget. -/
  | aborted {st' : StateStore}
      (hlocks : st'.fsmLocks = Function.update st.fsmLocks call.event.mint none)
      (hpositions : st'.positions = st.positions.remove call.event.mint)
      (h : loop.PassesChecks st call) (hlock : st.lockHeld call.now call.event.mint = false) :
      Processed loop st call (.skipped .budgetBlown, st')
  /-- It is handed to the venue. -/
  | entered {pos : Position} {lock : String × ℤ} {st' : StateStore}
      (hmint : pos.mint = call.event.mint) (hstate : pos.fsmState = .entering)
      (hlocks : st'.fsmLocks = Function.update st.fsmLocks call.event.mint (some lock))
      (hpositions : st'.positions = st.positions.upsert pos) (h : loop.PassesChecks st call)
      (hlock : st.lockHeld call.now call.event.mint = false) :
      Processed loop st call (.filled call.fill, st')

/-- The budget is checked last. -/
theorem screen_ne_budgetBlown (loop : SnipeLoop E) (st : StateStore) (call : SnipeCall E) :
    loop.screen st call ≠ .error .budgetBlown := by
  unfold screen
  refine require_bind_ne_error nofun (require_bind_ne_error nofun ?_)
  split
  · exact nofun
  · refine require_bind_ne_error nofun (require_bind_ne_error nofun (require_bind_ne_error nofun ?_))
    exact require_bind_ne_error nofun (require_bind_ne_error nofun nofun)

theorem claimEntering_eq (st : StateStore) (now : ℤ) (mint intentId : String) (ttlSeconds : ℤ) :
    st.claimEntering now mint intentId ttlSeconds =
      if st.lockHeld now mint = true then (false, st)
      else
        (true,
          { st with
            fsmLocks := Function.update st.fsmLocks mint
              (some (intentId, now + ttlSeconds * 1000)) }) :=
  rfl

/-- **What `process_event` does.** -/
theorem processed (loop : SnipeLoop E) (st : StateStore) (call : SnipeCall E) :
    Processed loop st call (loop.processEvent st call) := by
  unfold processEvent
  cases hscreen : loop.screen st call with
  | error reason =>
      refine .dropped ?_ rfl rfl fun hpasses => ?_
      · rintro rfl
        exact screen_ne_budgetBlown loop st call hscreen
      · obtain ⟨solIn, hok, -⟩ := hpasses
        rw [hscreen] at hok
        cases hok
  | ok solIn =>
      dsimp only
      obtain ⟨hlocks, hpositions⟩ := markIntentSeen_snd st call.now
        (makeClientIntentId call.event.mint call.event.slot "ENTRY")
      rcases hseen : st.markIntentSeen call.now
        (makeClientIntentId call.event.mint call.event.slot "ENTRY") with ⟨_ | _, seen⟩
      · rw [hseen] at hlocks hpositions
        refine .dropped nofun hlocks hpositions fun hpasses => ?_
        obtain ⟨_, _, hnew, _⟩ := hpasses
        unfold IsNewIntent at hnew
        rw [hseen] at hnew
        cases hnew
      · have hnew : IsNewIntent st call := by
          unfold IsNewIntent
          rw [hseen]
        rw [hseen] at hlocks hpositions
        have hheld : seen.lockHeld call.now call.event.mint =
            st.lockHeld call.now call.event.mint := by
          unfold StateStore.lockHeld
          rw [hlocks]
        dsimp only
        rw [claimEntering_eq, hheld]
        by_cases hlock : st.lockHeld call.now call.event.mint = true
        · rw [if_pos hlock]
          exact .dropped nofun hlocks hpositions fun _ => hlock
        · have hfree := Bool.eq_false_iff.2 hlock
          have hreleased : ∀ lock, Function.update (Function.update seen.fsmLocks call.event.mint lock)
              call.event.mint none = Function.update st.fsmLocks call.event.mint none := by
            intro lock
            rw [Function.update_idem, hlocks]
          rw [if_neg hlock]
          dsimp only
          cases hcost : loop.costStack call.event solIn with
          | none =>
              refine .released nofun (hreleased _) hpositions fun hpasses => ?_
              obtain ⟨_, hok, _, _, hsome, _⟩ := hpasses
              obtain rfl := Except.ok.inj (hscreen.symm.trans hok)
              rw [hcost] at hsome
              cases hsome
          | some cost =>
              dsimp only
              split_ifs with hedge hbudget
              · refine .released nofun (hreleased _) hpositions fun hpasses => ?_
                obtain ⟨_, hok, _, _, hsome, hlt⟩ := hpasses
                obtain rfl := Except.ok.inj (hscreen.symm.trans hok)
                rw [hcost] at hsome
                obtain rfl := Option.some.inj hsome
                exact absurd hedge (not_le.2 hlt)
              · have hpasses : loop.PassesChecks st call :=
                  ⟨solIn, hscreen, hnew, cost, hcost, not_le.1 hedge⟩
                refine .aborted (hreleased _) ?_ hpasses hfree
                show (seen.positions.upsert _).remove call.event.mint = _
                rw [hpositions]
                exact Table.remove_upsert _ _
              · have hpasses : loop.PassesChecks st call :=
                  ⟨solIn, hscreen, hnew, cost, hcost, not_le.1 hedge⟩
                refine .entered ?_ ?_ (congrArg (Function.update · _ _) hlocks)
                  (congrArg (Table.upsert · _) hpositions) hpasses hfree
                · rfl
                · rfl

theorem enters_iff :
    loop.Enters st call ↔
      loop.PassesChecks st call ∧ st.lockHeld call.now call.event.mint = false := by
  have hcall := processed loop st call
  unfold Enters
  generalize loop.processEvent st call = result at hcall
  cases hcall with
  | @dropped reason _ hreason _ _ h =>
      simp only [SnipeResult.skipped.injEq, hreason, reduceCtorEq, exists_false, or_false,
        false_iff, not_and, Bool.not_eq_false]
      exact h
  | @released reason _ hreason _ _ h =>
      simp only [SnipeResult.skipped.injEq, hreason, reduceCtorEq, exists_false, or_false,
        false_iff, not_and]
      exact fun hpasses => absurd hpasses h
  | aborted _ _ h hlock => exact ⟨fun _ => ⟨h, hlock⟩, fun _ => .inl rfl⟩
  | entered _ _ _ _ h hlock => exact ⟨fun _ => ⟨h, hlock⟩, fun _ => .inr ⟨_, rfl⟩⟩

end SnipeLoop

/-- At a mint: a bought position has no lock, and the registry holds none but the one of the
store. -/
structure UnlockedAt (l : Ledger) (m : String) : Prop where
  unlocked : ∀ pos, l.positions.get? m = some pos → pos.fsmState.bought → l.locks m = none
  registered : ∀ q, l.registry.get? m = some q → q.fsmState.bought → l.positions.get? m = some q

/-- At every mint. -/
def Unlocked (l : Ledger) : Prop := ∀ m, UnlockedAt l m

/-- What the ledger holds of a mint decides. -/
theorem UnlockedAt.congr {m : String} (h : UnlockedAt l m)
    (hpositions : l'.positions.get? m = l.positions.get? m) (hlocks : l'.locks m = l.locks m)
    (hregistry : l'.registry.get? m = l.registry.get? m) : UnlockedAt l' m where
  unlocked pos hpos hbought := hlocks.trans (h.unlocked pos (hpositions ▸ hpos) hbought)
  registered q hq hbought := hpositions.trans (h.registered q (hregistry ▸ hq) hbought)

/-- A position that is in the registry and the store alike, with no lock. -/
theorem UnlockedAt.of_same {m : String} {q : Position} (hpositions : l.positions.get? m = some q)
    (hregistry : l.registry.get? m = some q) (hlocks : l.locks m = none) : UnlockedAt l m where
  unlocked _ _ _ := hlocks
  registered q' hq' _ := by
    rw [hregistry] at hq'
    rw [hpositions]
    exact hq'

/-- A position that is not bought, in the registry or nowhere. -/
theorem UnlockedAt.of_not_bought {m : String}
    (hpositions : ∀ pos, l.positions.get? m = some pos → ¬ pos.fsmState.bought)
    (hregistry : ∀ q, l.registry.get? m = some q → ¬ q.fsmState.bought) : UnlockedAt l m where
  unlocked pos hpos hbought := absurd hbought (hpositions pos hpos)
  registered q hq hbought := absurd hbought (hregistry q hq)

theorem not_bought_of_get?_remove {t : Table Position.mint} {m : String} (pos : Position)
    (h : (t.remove m).get? m = some pos) : ¬ pos.fsmState.bought := by
  rw [Table.get?_remove_self] at h
  cases h

theorem not_bought_of_get?_upsert {t : Table Position.mint} {q : Position}
    (hq : ¬ q.fsmState.bought) (pos : Position) (h : (t.upsert q).get? q.mint = some pos) :
    ¬ pos.fsmState.bought := by
  rw [Table.get?_upsert_self] at h
  obtain rfl := Option.some.inj h
  exact hq

/-- Writing a registered position through, if it was bought before or is not now. -/
theorem UnlockedAt.save {q p : Position} (h : UnlockedAt l q.mint)
    (hq : l.registry.get? q.mint = some q) (hmint : p.mint = q.mint)
    (hbought : p.fsmState.bought → q.fsmState.bought) : UnlockedAt (l.save p) q.mint := by
  have hget : ∀ t : Table Position.mint, (t.upsert p).get? q.mint = some p := by
    intro t
    rw [Table.get?_upsert, if_pos hmint.symm]
  by_cases hp : p.fsmState.bought
  · have hpos := h.registered q hq (hbought hp)
    exact .of_same (hget _) (hget _) (h.unlocked q hpos (hbought hp))
  · rw [← hmint]
    exact .of_not_bought (not_bought_of_get?_upsert hp) (not_bought_of_get?_upsert hp)

/-- Closing a position and forgetting it. -/
theorem Unlocked.close (hl : Unlocked l) (q : Position) :
    Unlocked ((l.close q).unregister q.mint) := by
  intro m
  rw [Ledger.close_eq]
  by_cases hm : m = q.mint
  · subst hm
    exact ⟨fun pos hpos => (hl _).unlocked pos (Ledger.get?_of_close hpos),
      fun p hp hbought => absurd hbought (not_bought_of_get?_remove p hp)⟩
  · exact (hl m).congr (Ledger.close_positions_of_ne l hm) rfl (Table.get?_remove_of_ne hm)

/-- An exit move unlocks nothing and registers nothing but what is in the store. -/
theorem ExitMove.unlocked (h : ExitMove l l') (hl : Unlocked l) : Unlocked l' := by
  intro m
  cases h with
  | @adopt pos hpos _ =>
      by_cases hm : m = pos.mint
      · subst hm
        refine ⟨(hl _).unlocked, fun q hq _ => ?_⟩
        rw [Table.get?_upsert_self] at hq
        exact hpos.trans hq
      · exact (hl m).congr rfl rfl (Table.get?_upsert_of_ne hm)
  | unregister mint =>
      by_cases hm : m = mint
      · subst hm
        exact ⟨(hl _).unlocked, fun q hq hbought => absurd hbought (not_bought_of_get?_remove q hq)⟩
      · exact (hl m).congr rfl rfl (Table.get?_remove_of_ne hm)
  | @value q unrealized hq _ =>
      by_cases hm : m = q.mint
      · subst hm
        exact (hl q.mint).save hq rfl id
      · exact (hl m).congr (Table.get?_upsert_of_ne hm) rfl (Table.get?_upsert_of_ne hm)
  | @scaleOut q fractionBps landed hq _ =>
      by_cases hm : m = q.mint
      · subst hm
        have hlog : UnlockedAt (l.log .scaleOut q.mint fractionBps landed) q.mint :=
          (hl q.mint).congr rfl rfl rfl
        exact hlog.save hq rfl id
      · exact (hl m).congr (Table.get?_upsert_of_ne hm) rfl (Table.get?_upsert_of_ne hm)
  | @exitAndClose q path landed _ _ =>
      have hlog : Unlocked (l.log path q.mint 10000 landed) := fun m => (hl m).congr rfl rfl rfl
      exact (hlog.close q m).congr rfl rfl rfl
  | stop mint landed => exact (hl m).congr rfl rfl rfl
  | @closeFired q _ _ => exact hl.close q m
  | flatten landed _ _ => exact (hl m).congr rfl rfl rfl
  | @closing q hq hopen =>
      by_cases hm : m = q.mint
      · subst hm
        exact (hl q.mint).save (p := q.asClosing) hq rfl fun _ => .inl hopen
      · exact (hl m).congr (Table.get?_upsert_of_ne hm) rfl (Table.get?_upsert_of_ne hm)
  | @closed q _ _ _ =>
      by_cases hm : m = q.mint
      · subst hm
        exact .of_not_bought not_bought_of_get?_remove
          (not_bought_of_get?_upsert (q := q.asClosed) nofun)
      · exact (hl m).congr (Table.get?_remove_of_ne hm) rfl (Table.get?_upsert_of_ne hm)
  | @veto pos _ _ =>
      by_cases hm : m = pos.mint
      · subst hm
        exact .of_not_bought not_bought_of_get?_remove not_bought_of_get?_remove
      · exact (hl m).congr (Table.get?_remove_of_ne hm) (Function.update_of_ne hm _ _)
          (Table.get?_remove_of_ne hm)

theorem Move.unlocked (h : Move l l') (hl : Unlocked l) : Unlocked l' := by
  cases h with
  | exit h => exact h.unlocked hl
  | @fill pos q _ _ _ =>
      intro m
      by_cases hm : m = q.mint
      · subst hm
        have hget : ∀ t : Table Position.mint, (t.upsert q).get? q.mint = some q := by
          intro t
          rw [Table.get?_upsert_self]
        exact .of_same (hget _) (hget _) (Function.update_self ..)
      · exact (hl m).congr (Table.get?_upsert_of_ne hm) (Function.update_of_ne hm _ _)
          (Table.get?_upsert_of_ne hm)
  | arm mint => exact fun m => (hl m).congr rfl rfl rfl
  | reboot =>
      intro m
      refine ⟨(hl m).unlocked, fun q hq _ => ?_⟩
      cases hq
  | @vanish mint hnew =>
      intro m
      by_cases hm : m = mint
      · subst hm
        refine .of_not_bought not_bought_of_get?_remove fun q hq => ?_
        rw [hnew] at hq
        cases hq
      · exact (hl m).congr (Table.get?_remove_of_ne hm) rfl rfl

/-- Every call but `process_event` keeps what is unlocked. -/
theorem Moves.unlocked (h : Moves l l') (hl : Unlocked l) : Unlocked l' := by
  induction h with
  | refl => exact hl
  | tail _ hmove ih => exact hmove.unlocked ih

section Runs

variable (cfg : ControllerConfig E)

/-- An entry finds no live position of its mint, and overwrites none. -/
def EntersUnheld (c : FastLoop) : ControllerOp E → Prop
  | .processEvent call => cfg.snipe.Enters c.store call →
      ∀ pos, c.store.loadPosition call.event.mint = some pos → pos.fsmState.live = false
  | _ => True

/-- An event that passes every other check finds no live position of its mint but one that is
`ENTERING`, within the time of its lock. -/
def LockGuards (c : FastLoop) : ControllerOp E → Prop
  | .processEvent call => cfg.snipe.PassesChecks c.store call →
      ∀ pos, c.store.loadPosition call.event.mint = some pos → pos.fsmState.live = true →
        pos.fsmState = .entering ∧ c.store.lockHeld call.now call.event.mint = true
  | _ => True

theorem entersUnheld_iff_lockGuards (hl : Unlocked c.ledger) (op : ControllerOp E) :
    EntersUnheld cfg c op ↔ LockGuards cfg c op := by
  cases op with
  | processEvent call =>
      unfold EntersUnheld LockGuards
      dsimp only
      rw [SnipeLoop.enters_iff]
      constructor
      · intro hunheld hpasses pos hpos hlive
        have hheld : c.store.lockHeld call.now call.event.mint = true := by
          by_contra hfree
          have hdead := hunheld ⟨hpasses, Bool.eq_false_iff.2 hfree⟩ pos hpos
          rw [hlive] at hdead
          cases hdead
        refine ⟨(live_iff.1 hlive).resolve_right fun hbought => ?_, hheld⟩
        -- the lock was released when the position opened
        have hnone : c.store.fsmLocks call.event.mint = none :=
          (hl call.event.mint).unlocked pos hpos hbought
        unfold StateStore.lockHeld at hheld
        rw [hnone] at hheld
        cases hheld
      · rintro hguards ⟨hpasses, hfree⟩ pos hpos
        rw [Bool.eq_false_iff]
        intro hlive
        rw [(hguards hpasses pos hpos hlive).2] at hfree
        cases hfree
  | _ => rfl

/-- An entry that finds no live position unlocks none. -/
theorem processEvent_unlocked {call : SnipeCall E} (hl : Unlocked c.ledger)
    (hunheld : EntersUnheld cfg c (.processEvent call)) :
    Unlocked (next cfg c (.processEvent call)).ledger := by
  intro m
  have hcall := SnipeLoop.processed cfg.snipe c.store call
  unfold EntersUnheld at hunheld
  dsimp only at hunheld
  have hnotBought : cfg.snipe.Enters c.store call →
      ∀ q, c.fsmRegistry.get? call.event.mint = some q → ¬ q.fsmState.bought := by
    intro henters q hq hbought
    have hpos := (hl call.event.mint).registered q hq hbought
    have hdead := hunheld henters q hpos
    rw [live_iff.2 (.inr hbought)] at hdead
    cases hdead
  unfold next
  dsimp only
  generalize cfg.snipe.processEvent c.store call = result at hcall
  cases hcall with
  | @dropped _ st' _ hlocks hpositions _ =>
      exact (hl m).congr (congrArg (Table.get? · m) hpositions) (congrFun hlocks m) rfl
  | @released _ st' _ hlocks hpositions _ =>
      have hpositions : st'.positions.get? m = c.store.positions.get? m := by rw [hpositions]
      by_cases hm : m = call.event.mint
      · subst hm
        have hnone : st'.fsmLocks call.event.mint = none := by
          rw [hlocks, Function.update_self]
        exact ⟨fun _ _ _ => hnone, fun q hq hbought =>
          hpositions.trans ((hl call.event.mint).registered q hq hbought)⟩
      · have hlocks : st'.fsmLocks m = c.store.fsmLocks m := by
          rw [hlocks, Function.update_of_ne hm]
        exact (hl m).congr hpositions hlocks rfl
  | @aborted st' hlocks hpositions h hlock =>
      have hnone : (c.store.positions.remove call.event.mint).get? m = st'.positions.get? m := by
        rw [hpositions]
      by_cases hm : m = call.event.mint
      · subst hm
        exact .of_not_bought (fun pos hpos => not_bought_of_get?_remove pos (hnone.trans hpos))
          (hnotBought (SnipeLoop.enters_iff.2 ⟨h, hlock⟩))
      · have hlocks : st'.fsmLocks m = c.store.fsmLocks m := by
          rw [hlocks, Function.update_of_ne hm]
        exact (hl m).congr (hnone.symm.trans (Table.get?_remove_of_ne hm)) hlocks rfl
  | @entered pos lock st' hmint hstate hlocks hpositions h hlock =>
      have hentering : ¬ pos.fsmState.bought := by
        unfold FSMState.bought
        rw [hstate]
        exact nofun
      have hput : (c.store.positions.upsert pos).get? m = st'.positions.get? m := by
        rw [hpositions]
      by_cases hm : m = pos.mint
      · subst hm
        refine .of_not_bought (fun p hp => not_bought_of_get?_upsert hentering p (hput.trans hp)) ?_
        rw [hmint]
        exact hnotBought (SnipeLoop.enters_iff.2 ⟨h, hlock⟩)
      · have hlocks : st'.fsmLocks m = c.store.fsmLocks m := by
          rw [hlocks, Function.update_of_ne (hmint ▸ hm)]
        exact (hl m).congr (hput.symm.trans (Table.get?_upsert_of_ne hm)) hlocks rfl

/-- **One live entry per mint.**  In a run of a new controller, no entry finds a live position of its
mint iff every event that passes the other checks finds none but an `ENTERING` one whose lock has
not expired: nothing else keeps the event out, and the lock goes when the position opens. -/
theorem entries_find_no_live_position_iff (breaker : CircuitBreaker)
    (stops : Option (String → Option RegisteredStop)) (ops : List (ControllerOp E)) :
    EveryStep (step cfg) (fun _ c op => EntersUnheld cfg c op) (.start breaker stops) ops ↔
      EveryStep (step cfg) (fun _ c op => LockGuards cfg c op) (.start breaker stops) ops := by
  refine everyStep_congr (J := fun c : FastLoop => Unlocked c.ledger) ?_
    (fun _ c op hl => entersUnheld_iff_lockGuards cfg hl op) ?_ ops
  · intro m
    exact .of_not_bought (fun pos hpos => by cases hpos) (fun q hq => by cases hq)
  · intro _ c op c' hl hguards hstep
    obtain rfl := Except.ok.inj hstep
    by_cases hop : ∃ call, op = .processEvent call
    · obtain ⟨call, rfl⟩ := hop
      exact processEvent_unlocked cfg hl ((entersUnheld_iff_lockGuards cfg hl _).2 hguards)
    · exact (next_moves cfg (fun call heq => hop ⟨call, heq⟩) c).unlocked hl

end Runs

/-- The default configuration, with no gate, sizer or cost model wired. -/
def plainController : ControllerConfig Unit where
  fast := defaultFastConfig
  snipe :=
    { config := Breaker.defaultConfig
      snipeThreshold := 1 / 2
      gate := none
      sizing := none
      costModel := none }

/-- A fill at price 1. -/
def sampleFill : FillResult :=
  { landed := true, tokensOut := 1000, effectivePriceDecimal := .decimal 1 }

/-- A launch event of one mint that every check lets through. -/
def launch (slot now : ℤ) : SnipeCall Unit where
  event := ⟨"m", slot, 0, ()⟩
  now := now
  signal := some ⟨9 / 10, 0⟩
  vetoFlag := false
  elapsedMs := 0
  fill := sampleFill

/-- The call is executed although the store holds the mint in a live state. -/
theorem not_entersUnheld (state : FSMState) {c : FastLoop} {call : SnipeCall Unit}
    (hfilled : (plainController.snipe.processEvent c.store call).1 = .filled call.fill)
    (hheld : (c.store.loadPosition call.event.mint).map Position.fsmState = some state)
    (hlive : state.live = true) : ¬ EntersUnheld plainController c (.processEvent call) := by
  intro hunheld
  obtain ⟨pos, hpos, rfl⟩ := Option.map_eq_some_iff.1 hheld
  have hdead := hunheld (.inr ⟨_, hfilled⟩) pos hpos
  rw [hlive] at hdead
  cases hdead

/-- A second event of a mint that is `OPEN`, and one of a mint whose entry is 30 s old, are executed
and overwrite the position. -/
theorem second_entry_overwrites_live_position :
    ¬ EveryStep (step plainController) (fun _ c op => EntersUnheld plainController c op)
        (.start (Breaker.firstBoot []) none)
        [.processEvent (launch 1 0), .reconcileFill 100 "m" sampleFill,
          .processEvent (launch 2 1000)] ∧
      ¬ EveryStep (step plainController) (fun _ c op => EntersUnheld plainController c op)
        (.start (Breaker.firstBoot []) none)
        [.processEvent (launch 1 0), .processEvent (launch 2 30000)] := by
  constructor
  · intro h
    refine not_entersUnheld .opened ?_ ?_ rfl
      (h [.processEvent (launch 1 0), .reconcileFill 100 "m" sampleFill] _ [] _ rfl rfl)
    · decide +kernel
    · decide +kernel
  · intro h
    refine not_entersUnheld .entering ?_ ?_ rfl
      (h [.processEvent (launch 1 0)] _ [] _ rfl rfl)
    · decide +kernel
    · decide +kernel

end Controller
end AatsSniper

/-
# The latency of the entry

`apply_entry_latency_haircut` and `_resolve_one` of `aats/backtest/reaction_harness.py` on what the
readers return of a record.

A haircut raises the entry price and so lowers every multiple of the path by one factor.  As long
as the engine sells the same shares in the same ticks, each sale brings less
(`walk_behind`).  But the engine looks at the multiples too: a lower one may miss the level that
would have sold the position, which is then sold later at a better one.

The arithmetic of `Decimal` is exact here.
-/

import AatsSniper.Backtest.RealizableExit
import AatsSniper.Backtest.Reputation
import AatsSniper.Exit.Levels

namespace AatsSniper
namespace Backtest

open Exit

/-! ### Resolving a reaction -/

/-- What is read of a `MomentumForwardObservation`. -/
structure ReactionMark extends SellableMark where
  horizonS : ℤ

/-- A signal with the marks behind it; one whose price is not positive is censored before. -/
structure Reaction where
  signal : ReactionSignal
  forward : List ReactionMark
  price_pos : 0 < signal.signalPriceSol := by decide +kernel

/-- The marks as the exit reads them. -/
def Reaction.marks (reaction : Reaction) : List SellableMark :=
  reaction.forward.map (·.toSellableMark)

/-- `_resolve_one(obj, params=..., risk_config=..., exit_model=...)`, behind the readers. -/
def Resolver.resolveOne (R : Resolver) (riskConfig : Breaker.RiskConfig) (exitModel : ExitModel)
    (params : ReactionParams) (reaction : Reaction) : Except OutcomeError ResolvedReaction := do
  let signal := reaction.signal
  let entryPrice := applyEntryLatencyHaircut signal.signalPriceSol params
  let solAtRisk := riskConfig.perTradeCapLamports
  let outcome ← R.resolveMomentumOutcome signal.mint entryPrice reaction.marks solAtRisk
    signal.signalBlockTimeMs exitModel
  let horizons := reaction.forward.map (·.horizonS)
  let maxHorizonS := horizons.foldl max (horizons.headD 0)
  return {
    signal := signal
    outcomeResolvedBlockTimeMs := signal.signalBlockTimeMs + maxHorizonS * 1000
    netPnlLamports := outcome.netPnlLamports
    solAtRiskLamports := solAtRisk
    netPnlPerSol := outcome.netPnlLamports / solAtRisk }

/-! ### What the engine decides -/

section Schedules

variable (config : ExitConfig) (args : WalkArgs)

/-- The decisions of the engine along the path, until nothing remains: the share sold in a tick, and
how it is routed. -/
def decisions : ℕ → List ℚ → ExitState → Except ExitError (List (ℤ × MevExitMode))
  | _, [], _ => .ok []
  | step, multiple :: rest, s =>
      if s.remainingBps ≤ 0 then .ok []
      else do
        let decision ← onTick config s (args.tick step multiple)
        let later ← decisions (step + 1) rest decision.nextState
        return (decision.fractionBps, decision.exitMode.getD .secure) :: later

/-- The decisions from the entry on. -/
def schedule : Except ExitError (List (ℤ × MevExitMode)) := do
  let s ← ExitState.atEntry args.mint args.entryFillPrice config
  decisions config args 0 args.path s

variable {config args} {s : ExitState} {tick : Tick} {d : ExitDecision}

/-- **What a decision does to the position**, by its fraction. -/
theorem onTick_sale (h : s.WellFormed) (hopen : 0 < s.remainingBps)
    (hd : onTick config s tick = .ok d) :
    d.nextState.remainingBps = s.remainingBps - s.remainingBps * d.fractionBps / 10000 ∧
      0 ≤ d.fractionBps ∧ (d.intent = none ↔ d.fractionBps = 0) := by
  obtain ⟨-, ⟨hflat, -⟩ | ⟨-, ⟨reason, detail, -, rfl⟩ | ⟨-, ⟨idx, rung, -, rfl⟩ | rfl⟩⟩⟩ :=
    onTick_cases h hd
  · omega
  · have hall : s.remainingBps * 10000 / 10000 = s.remainingBps :=
      Int.mul_ediv_cancel _ (show (10000 : ℤ) ≠ 0 by decide)
    refine ⟨?_, show (0 : ℤ) ≤ 10000 by decide, fun hnone => (nomatch hnone), fun hzero => ?_⟩
    · change 0 = s.remainingBps - s.remainingBps * 10000 / 10000
      omega
    · exact absurd hzero (show (10000 : ℤ) ≠ 0 by decide)
  · obtain ⟨hlo, -⟩ := rung.fraction_range
    have hpos : 0 < min rung.fractionBps s.remainingBps := lt_min (by omega) hopen
    exact ⟨rfl, hpos.le, fun hnone => (nomatch hnone), fun hzero => absurd hzero hpos.ne'⟩
  · exact ⟨by simp [hold, advanced, clocked, ratcheted, rearmed, peaked], le_rfl,
      fun _ => rfl, fun _ => rfl⟩

/-- **Marks in proportion and on the same sides** of the levels are decided alike. -/
theorem decisions_lockstep {args' : WalkArgs} {c : ℚ} {step : ℕ} {path : List ℚ} {s' : ExitState}
    {ds : List (ℤ × MevExitMode)} (hone : args.entryFillPrice = 1)
    (htick : ∀ step multiple, args'.tick step multiple = args.tick step multiple)
    (h : s.WellFormed) (h' : s'.WellFormed) (hstep : Lockstep config c s s') (hc : 0 < c)
    (hsides : ∀ r ∈ path, SameSides config r (c * r))
    (hds : decisions config args step path s = .ok ds) :
    decisions config args' step (path.map (c * ·)) s' = .ok ds := by
  induction path generalizing step s s' ds with
  | nil => exact hds
  | cons multiple rest ih =>
      rw [decisions] at hds
      rw [List.map_cons, decisions]
      by_cases hflat : s.remainingBps ≤ 0
      · rw [if_pos hflat] at hds
        rw [if_pos (hstep.remaining ▸ hflat), hds]
      · rw [if_neg hflat] at hds
        rw [if_neg (hstep.remaining ▸ hflat)]
        obtain ⟨d, hd, hds⟩ := ok_of_bind hds
        obtain ⟨later, hlater, hds⟩ := ok_of_bind hds
        obtain rfl := Except.ok.inj hds
        have hmark : (args.tick step multiple).markPrice = multiple := by
          rw [WalkArgs.tick, hone, one_mul]
        have hscaled : args'.tick step (c * multiple) = (args.tick step multiple).scaledBy c := by
          rw [htick]
          unfold WalkArgs.tick Tick.scaledBy
          rw [hone, one_mul, one_mul]
        have hside : SameSides config (args.tick step multiple).markPrice
            (c * (args.tick step multiple).markPrice) := by
          rw [hmark]
          exact hsides multiple List.mem_cons_self
        obtain ⟨d', hd', -, hfraction, hmode, hnext⟩ :=
          onTick_lockstep h h' hstep hc hside rfl (not_le.1 hflat) hd
        have hrest := ih (onTick_wellFormed h hd) (onTick_wellFormed h' hd') hnext
          (fun r hr => hsides r (List.mem_cons_of_mem _ hr)) hlater
        rw [hscaled, bind_of_ok hd', bind_of_ok hrest, hfraction, hmode]
        rfl

end Schedules

/-! ### The same shares at lower marks -/

section Behind

variable {config : ExitConfig} {args args' : WalkArgs} {draws : ℕ → ℚ} {S : ℤ}
  {w w' v v' : PaperWalk} {α : Type} {marks : List α} {f f' : α → ℚ}

/-- Of a positive notional, a sale at a lower mark brings less. -/
theorem sellProceeds_mono {notional : ℤ} {r r' : ℚ} (hnotional : 0 ≤ notional) (hr' : 0 ≤ r')
    (hle : r' ≤ r) (mode : MevExitMode) (draw : ℚ) :
    sellProceedsLamports notional r' mode draw ≤ sellProceedsLamports notional r mode draw := by
  have hcast : (0 : ℚ) ≤ notional := by exact_mod_cast hnotional
  have hkeep := (keep_range mode draw).1
  exact truncate_mono (mul_nonneg (mul_nonneg hcast hr') hkeep)
    (mul_le_mul_of_nonneg_right (mul_le_mul_of_nonneg_left hle hcast) hkeep)

/-- The same position, sold in the same sales for no more. -/
structure Behind (w w' : PaperWalk) : Prop where
  remaining : w'.state.remainingBps = w.state.remainingBps
  exits : w'.exits.length = w.exits.length
  proceeds : w'.proceeds ≤ w.proceeds

/-- One more sale of each. -/
theorem Behind.sell (h : Behind w w') {notional : ℤ} {r r' : ℚ} (hnotional : 0 ≤ notional)
    (hr' : 0 ≤ r') (hle : r' ≤ r) (mode : MevExitMode) (reason reason' : ExitReason)
    (fractionBps fractionBps' : ℤ) {s s' : ExitState} (hs : s'.remainingBps = s.remainingBps) :
    Behind { w.sell draws notional r mode reason fractionBps with state := s }
      { w'.sell draws notional r' mode reason' fractionBps' with state := s' } where
  remaining := hs
  exits := by simp [PaperWalk.sell, h.exits]
  proceeds := by
    dsimp only [PaperWalk.sell]
    rw [h.exits]
    exact add_le_add h.proceeds (sellProceeds_mono hnotional hr' hle mode _)

/-- **A tick with the same decision**, at a lower mark. -/
theorem walkTick_behind (h : w.state.WellFormed) (h' : w'.state.WellFormed)
    (hopen : 0 < w.state.remainingBps) (hS : 0 < S) (hb : Behind w w') {tick tick' : Tick}
    {d d' : ExitDecision} (hd : onTick config w.state tick = .ok d)
    (hd' : onTick config w'.state tick' = .ok d') (hfraction : d'.fractionBps = d.fractionBps)
    (hmode : d'.exitMode.getD .secure = d.exitMode.getD .secure)
    (hnonneg : 0 ≤ w'.state.realizedR tick'.markPrice)
    (hle : w'.state.realizedR tick'.markPrice ≤ w.state.realizedR tick.markPrice)
    (hv : walkTick config draws S w tick = .ok v) (hv' : walkTick config draws S w' tick' = .ok v') :
    Behind v v' ∧ v.state = d.nextState ∧ v'.state = d'.nextState := by
  obtain ⟨hleft, hfrac, hintent⟩ := onTick_sale h hopen hd
  obtain ⟨hleft', -, hintent'⟩ := onTick_sale h' (hb.remaining ▸ hopen) hd'
  have hstate : d'.nextState.remainingBps = d.nextState.remainingBps := by
    rw [hleft, hleft', hb.remaining, hfraction]
  have hheld : 0 ≤ S * w.state.remainingBps / 10000 :=
    Int.ediv_nonneg (Int.mul_nonneg hS.le hopen.le) (by decide)
  unfold walkTick at hv hv'
  dsimp only at hv hv'
  rw [bind_of_ok hd] at hv
  rw [bind_of_ok hd'] at hv'
  obtain rfl := (Except.ok.inj hv).symm
  obtain rfl := (Except.ok.inj hv').symm
  refine ⟨?_, rfl, rfl⟩
  cases hi : d.intent with
  | none =>
      have hi' : d'.intent = none := hintent'.2 (hfraction.trans (hintent.1 hi))
      rw [hi']
      exact ⟨hstate, hb.exits, hb.proceeds⟩
  | some intent =>
      cases hi' : d'.intent with
      | none =>
          have hnone := hintent.2 (hfraction.symm.trans (hintent'.1 hi'))
          cases hi.symm.trans hnone
      | some intent' =>
          dsimp only
          rw [hmode, hfraction, hb.remaining]
          exact hb.sell (Int.ediv_nonneg (Int.mul_nonneg hheld hfrac) (by decide)) hnonneg hle _ _ _ _ _
            hstate

/-- **The walk along lower marks** with the same decisions brings no more. -/
theorem walkLoop_behind {step : ℕ} {ds : List (ℤ × MevExitMode)}
    (htick : ∀ step multiple, args'.tick step multiple = args.tick step multiple)
    (hmarks : ∀ a ∈ marks, 0 ≤ f' a ∧ f' a ≤ f a) (hS : 0 < S) (h : w.state.WellFormed)
    (h' : w'.state.WellFormed) (hentry : w.state.entryFillPrice = args.entryFillPrice)
    (hentry' : w'.state.entryFillPrice = args.entryFillPrice) (hb : Behind w w')
    (hds : decisions config args step (marks.map f) w.state = .ok ds)
    (hds' : decisions config args' step (marks.map f') w'.state = .ok ds)
    (hv : walkLoop config args draws S step (marks.map f) w = .ok v)
    (hv' : walkLoop config args' draws S step (marks.map f') w' = .ok v') : Behind v v' := by
  induction marks generalizing step w w' ds with
  | nil =>
      obtain rfl := Except.ok.inj hv
      obtain rfl := Except.ok.inj hv'
      exact hb
  | cons a rest ih =>
      rw [List.map_cons, walkLoop] at hv hv'
      rw [List.map_cons, decisions] at hds hds'
      by_cases hflat : w.state.remainingBps ≤ 0
      · rw [if_pos hflat] at hv
        rw [if_pos (hb.remaining ▸ hflat)] at hv'
        obtain rfl := Except.ok.inj hv
        obtain rfl := Except.ok.inj hv'
        exact hb
      · rw [if_neg hflat] at hv hds
        rw [if_neg (hb.remaining ▸ hflat)] at hv' hds'
        obtain ⟨d, hd, hds⟩ := ok_of_bind hds
        obtain ⟨later, hlater, hds⟩ := ok_of_bind hds
        obtain rfl := Except.ok.inj hds
        obtain ⟨d', hd', hds'⟩ := ok_of_bind hds'
        obtain ⟨later', hlater', hds'⟩ := ok_of_bind hds'
        obtain ⟨hdecision, rfl⟩ := List.cons.inj (Except.ok.inj hds')
        obtain ⟨hfraction, hmode⟩ := Prod.mk.inj hdecision
        obtain ⟨u, hu, hv⟩ := ok_of_bind hv
        obtain ⟨u', hu', hv'⟩ := ok_of_bind hv'
        rw [htick] at hd' hu'
        obtain ⟨hnonneg, hle⟩ := hmarks a List.mem_cons_self
        have hmark : w.state.realizedR (args.tick step (f a)).markPrice = f a :=
          realizedR_mark h hentry _
        have hmark' : w'.state.realizedR (args.tick step (f' a)).markPrice = f' a :=
          realizedR_mark h' hentry' _
        obtain ⟨hbu, hstate, hstate'⟩ := walkTick_behind h h' (not_le.1 hflat) hS hb hd hd' hfraction
          hmode (hmark'.symm ▸ hnonneg) (by rw [hmark, hmark']; exact hle) hu hu'
        refine ih (fun a ha => hmarks a (List.mem_cons_of_mem _ ha))
          (hstate ▸ onTick_wellFormed h hd) (hstate' ▸ onTick_wellFormed h' hd') ?_ ?_ hbu
          (hstate ▸ hlater) (hstate' ▸ hlater') hv hv'
        · rw [hstate, (onTick_sameEntry hd).entryFillPrice, hentry]
        · rw [hstate', (onTick_sameEntry hd').entryFillPrice, hentry']

/-- Where the walk went, the engine has decided. -/
theorem decisions_of_walkLoop {step : ℕ} {path : List ℚ}
    (h : walkLoop config args draws S step path w = .ok v) :
    ∃ ds, decisions config args step path w.state = .ok ds := by
  induction path generalizing step w with
  | nil => exact ⟨[], rfl⟩
  | cons multiple rest ih =>
      rw [walkLoop] at h
      rw [decisions]
      by_cases hflat : w.state.remainingBps ≤ 0
      · exact ⟨[], if_pos hflat⟩
      · rw [if_neg hflat] at h ⊢
        obtain ⟨u, hu, h⟩ := ok_of_bind h
        unfold walkTick at hu
        dsimp only at hu
        obtain ⟨d, hd, hu⟩ := ok_of_bind hu
        obtain rfl := Except.ok.inj hu
        obtain ⟨later, hlater⟩ := ih h
        rw [bind_of_ok hd, bind_of_ok hlater]
        exact ⟨_, rfl⟩

/-- As many decisions are taken along the marks at which something is held. -/
theorem decisions_take {step : ℕ} {path : List ℚ} {s : ExitState} {ds : List (ℤ × MevExitMode)}
    (hds : decisions config args step path s = .ok ds) :
    decisions config args step (path.take ds.length) s = .ok ds := by
  induction path generalizing step s ds with
  | nil =>
      obtain rfl := Except.ok.inj hds
      rfl
  | cons multiple rest ih =>
      rw [decisions] at hds
      by_cases hflat : s.remainingBps ≤ 0
      · rw [if_pos hflat] at hds
        obtain rfl := Except.ok.inj hds
        rfl
      · rw [if_neg hflat] at hds
        obtain ⟨d, hd, hds⟩ := ok_of_bind hds
        obtain ⟨later, hlater, hds⟩ := ok_of_bind hds
        obtain rfl := Except.ok.inj hds
        rw [List.length_cons, List.take_succ_cons, decisions, if_neg hflat, bind_of_ok hd,
          bind_of_ok (ih hlater)]
        rfl

/-- The walk looks at no mark after the position is sold. -/
theorem walkLoop_take {step : ℕ} {path : List ℚ} {ds : List (ℤ × MevExitMode)}
    (hds : decisions config args step path w.state = .ok ds)
    (hv : walkLoop config args draws S step path w = .ok v) :
    walkLoop config args draws S step (path.take ds.length) w = .ok v ∧
      (0 < v.state.remainingBps → path.take ds.length = path) := by
  induction path generalizing step w ds with
  | nil =>
      rw [List.take_nil]
      exact ⟨hv, fun _ => rfl⟩
  | cons multiple rest ih =>
      rw [decisions] at hds
      rw [walkLoop] at hv
      by_cases hflat : w.state.remainingBps ≤ 0
      · rw [if_pos hflat] at hds hv
        obtain rfl := Except.ok.inj hds
        obtain rfl := Except.ok.inj hv
        exact ⟨rfl, fun hopen => absurd hopen (not_lt.2 hflat)⟩
      · rw [if_neg hflat] at hds hv
        obtain ⟨d, hd, hds⟩ := ok_of_bind hds
        obtain ⟨later, hlater, hds⟩ := ok_of_bind hds
        obtain rfl := Except.ok.inj hds
        obtain ⟨u, hu, hv⟩ := ok_of_bind hv
        have hstate : u.state = d.nextState := by
          unfold walkTick at hu
          dsimp only at hu
          rw [bind_of_ok hd] at hu
          obtain rfl := Except.ok.inj hu
          rfl
        obtain ⟨hwalk, hall⟩ := ih (hstate ▸ hlater) hv
        rw [List.length_cons, List.take_succ_cons, walkLoop, if_neg hflat, bind_of_ok hu]
        exact ⟨hwalk, fun hopen => by rw [hall hopen]⟩

/-- The loop reads of its arguments what a tick is made of. -/
theorem walkLoop_congr
    (htick : ∀ step multiple, args'.tick step multiple = args.tick step multiple) {step : ℕ}
    {path : List ℚ} {w : PaperWalk} : walkLoop config args' draws S step path w =
      walkLoop config args draws S step path w := by
  induction path generalizing step w with
  | nil => rfl
  | cons multiple rest ih =>
      rw [walkLoop, walkLoop, htick]
      exact if_congr Iff.rfl rfl (congrArg _ (funext fun w => ih))

theorem decisions_congr
    (htick : ∀ step multiple, args'.tick step multiple = args.tick step multiple) {step : ℕ}
    {path : List ℚ} {s : ExitState} :
    decisions config args' step path s = decisions config args step path s := by
  induction path generalizing step s with
  | nil => rfl
  | cons multiple rest ih =>
      rw [decisions, decisions, htick]
      simp only [ih]

/-- **A walk is one along the marks at which something is held.** -/
theorem walk_take {ds : List (ℤ × MevExitMode)} (hds : schedule config args = .ok ds)
    (hv : walk config args draws S = .ok v) :
    walk config { args with path := args.path.take ds.length } draws S = .ok v ∧
      schedule config { args with path := args.path.take ds.length } = .ok ds := by
  obtain ⟨hS, s, hs, u, hloop, hforce⟩ := walk_eq_ok.1 hv
  unfold schedule at hds
  rw [bind_of_ok hs] at hds
  obtain ⟨hwalk, hall⟩ := walkLoop_take (w := { state := s }) hds hloop
  have htick : ∀ step multiple,
      ({ args with path := args.path.take ds.length } : WalkArgs).tick step multiple =
        args.tick step multiple := fun _ _ => rfl
  constructor
  · refine walk_eq_ok.2 ⟨hS, s, hs, u, (walkLoop_congr htick).trans hwalk, ?_⟩
    by_cases hopen : 0 < u.state.remainingBps
    · rw [hall hopen]
      exact hforce
    · -- nothing is left to force out on either path
      have hclosed : ∀ path, forceExit { args with path := path } draws S u = .ok u := by
        intro path
        unfold forceExit
        cases path.getLast? with
        | none => rfl
        | some last => exact if_neg hopen
      exact (hclosed _).trans ((hclosed args.path).symm.trans hforce)
  · unfold schedule
    rw [bind_of_ok hs, decisions_congr htick]
    exact decisions_take hds

/-- The state a walk leaves passes its checks and keeps the entry price. -/
theorem walkLoop_state {step : ℕ} {path : List ℚ}
    (hloop : walkLoop config args draws S step path w = .ok v) (hS : 0 < S)
    (h : w.state.WellFormed) (hentry : w.state.entryFillPrice = args.entryFillPrice) :
    v.state.WellFormed ∧ v.state.entryFillPrice = args.entryFillPrice := by
  have hkept : ∀ m ∈ path, KeptBySale (fun _ _ => True) m :=
    fun _ _ _ _ _ _ _ _ _ => trivial
  exact (walkLoop_keeps h hS hentry hkept trivial hloop).2

variable (args) in
/-- The remainder, sold at the last of the marks. -/
theorem forceExit_behind (hmarks : ∀ a ∈ marks, 0 ≤ f' a ∧ f' a ≤ f a) (hS : 0 < S)
    (h : w.state.WellFormed) (h' : w'.state.WellFormed)
    (hentry : w.state.entryFillPrice = args.entryFillPrice)
    (hentry' : w'.state.entryFillPrice = args.entryFillPrice) (hb : Behind w w')
    (hv : forceExit { args with path := marks.map f } draws S w = .ok v)
    (hv' : forceExit { args with path := marks.map f' } draws S w' = .ok v') :
    v'.proceeds ≤ v.proceeds := by
  obtain ⟨t, ht, hcase⟩ := forceExit_eq_ok { args with path := marks.map f } draws S h
  obtain rfl := Except.ok.inj (hv.symm.trans ht)
  obtain ⟨t', ht', hcase'⟩ := forceExit_eq_ok { args with path := marks.map f' } draws S h'
  obtain rfl := Except.ok.inj (hv'.symm.trans ht')
  have hremaining := hb.remaining
  -- there is something left to sell in both or in neither
  rcases hcase with ⟨rfl, hend⟩ | ⟨last, hlast, hopen, rfl⟩
  · rcases hcase' with ⟨rfl, -⟩ | ⟨last', hlast', hopen', rfl⟩
    · exact hb.proceeds
    · rcases hend with hnil | hzero
      · obtain rfl := List.map_eq_nil_iff.1 hnil
        cases hlast'
      · omega
  · rcases hcase' with ⟨rfl, hnil | hzero⟩ | ⟨last', hlast', hopen', rfl⟩
    · obtain rfl := List.map_eq_nil_iff.1 hnil
      cases hlast
    · omega
    · dsimp only at hlast hlast'
      rw [List.getLast?_map] at hlast hlast'
      obtain ⟨a, ha, rfl⟩ := Option.map_eq_some_iff.1 hlast
      obtain ⟨a', ha', rfl⟩ := Option.map_eq_some_iff.1 hlast'
      obtain rfl := Option.some.inj (ha.symm.trans ha')
      obtain ⟨hnonneg, hle⟩ := hmarks a (List.mem_of_getLast? ha)
      have hheld : 0 ≤ S * w.state.remainingBps / 10000 :=
        Int.ediv_nonneg (Int.mul_nonneg hS.le hopen.le) (by decide)
      dsimp only
      rw [realizedR_mark h hentry, realizedR_mark h' hentry', hremaining]
      have hzero : ({ w'.state with remainingBps := 0 } : ExitState).remainingBps =
          ({ w.state with remainingBps := 0 } : ExitState).remainingBps := rfl
      exact (hb.sell hheld hnonneg hle .secure .timeout .timeout 10000 10000 hzero).proceeds

variable (args) in
/-- **Two walks with the same decisions**, one at lower marks: it brings no more. -/
theorem walk_behind (hmarks : ∀ a ∈ marks, 0 ≤ f' a ∧ f' a ≤ f a)
    (hsame : schedule config { args with path := marks.map f' } =
      schedule config { args with path := marks.map f })
    (hv : walk config { args with path := marks.map f } draws S = .ok v)
    (hv' : walk config { args with path := marks.map f' } draws S = .ok v') :
    v'.proceeds ≤ v.proceeds := by
  obtain ⟨hS, s, hs, u, hloop, hforce⟩ := walk_eq_ok.1 hv
  obtain ⟨-, s', hs', u', hloop', hforce'⟩ := walk_eq_ok.1 hv'
  obtain rfl := Except.ok.inj (hs.symm.trans hs')
  obtain ⟨hwell, stop, hstate⟩ := ExitState.atEntry_eq_ok hs
  have hentry : s.entryFillPrice = args.entryFillPrice := by rw [hstate]
  -- the engine decides the same on both paths
  obtain ⟨ds, hds⟩ := decisions_of_walkLoop hloop
  obtain ⟨ds', hds'⟩ := decisions_of_walkLoop hloop'
  unfold schedule at hsame
  rw [bind_of_ok hs, bind_of_ok hs'] at hsame
  obtain rfl := Except.ok.inj (hds'.symm.trans (hsame.trans hds))
  have htick : ∀ step multiple, ({ args with path := marks.map f' } : WalkArgs).tick step multiple =
      ({ args with path := marks.map f } : WalkArgs).tick step multiple := fun _ _ => rfl
  have hstart : Behind ({ state := s } : PaperWalk) { state := s } := ⟨rfl, rfl, le_rfl⟩
  have hb : Behind u u' :=
    walkLoop_behind htick hmarks hS hwell hwell hentry hentry hstart hds hds' hloop hloop'
  obtain ⟨hwellu, hentryu⟩ := walkLoop_state hloop hS hwell hentry
  obtain ⟨hwellu', hentryu'⟩ := walkLoop_state hloop' hS hwell hentry
  exact forceExit_behind args hmarks hS hwellu hwellu' hentryu hentryu' hb hforce hforce'

/-! ### The result of a reaction -/

/-- A walk that brings less gives no better a result. -/
theorem grossAt_mono_proceeds {proceeds proceeds' : ℤ} (S : ℤ) {multiplier : ℚ} (hnonneg : 0 ≤ proceeds')
    (hle : proceeds' ≤ proceeds) (hmultiplier : 0 ≤ multiplier) :
    grossAt proceeds' S multiplier ≤ grossAt proceeds S multiplier := by
  have hcast : (0 : ℚ) ≤ proceeds' := by exact_mod_cast hnonneg
  have hcast' : (proceeds' : ℚ) ≤ proceeds := by exact_mod_cast hle
  have htrunc := truncate_mono (mul_nonneg hcast hmultiplier)
    (mul_le_mul_of_nonneg_right hcast' hmultiplier)
  unfold grossAt
  omega

end Behind

section Haircuts

variable {R : Resolver} {riskConfig : Breaker.RiskConfig} {m : ExitModel} {reaction : Reaction}
  {params params₁ params₂ : ReactionParams}

/-- The entry price under a haircut. -/
def Reaction.entryPrice (reaction : Reaction) (params : ReactionParams) : ℚ :=
  applyEntryLatencyHaircut reaction.signal.signalPriceSol params

/-- The arguments of the walk under a haircut. -/
def Reaction.walkArgs (reaction : Reaction) (params : ReactionParams) : WalkArgs :=
  resolveArgs reaction.signal.mint (reaction.entryPrice params) reaction.marks
    reaction.signal.signalBlockTimeMs

/-- No mark at which something of the position is still held has a negative price. -/
def Reaction.NoNegativePrice (config : ExitConfig) (reaction : Reaction) (params : ReactionParams) :
    Prop :=
  ∀ ds, schedule config (reaction.walkArgs params) = .ok ds →
    ∀ mark ∈ reaction.marks.take ds.length, ∀ price ∈ mark.priceSol, 0 ≤ price

/-- The engine decides the same on the two paths. -/
def SameSchedule (config : ExitConfig) (reaction : Reaction) (params₁ params₂ : ReactionParams) : Prop :=
  schedule config (reaction.walkArgs params₂) = schedule config (reaction.walkArgs params₁)

/-- A larger haircut raises the entry price. -/
theorem entryPrice_mono (reaction : Reaction) (hzero : 0 ≤ params₁.entryLatencyHaircutBps)
    (hle : params₁.entryLatencyHaircutBps ≤ params₂.entryLatencyHaircutBps) :
    0 < reaction.entryPrice params₁ ∧ reaction.entryPrice params₁ ≤ reaction.entryPrice params₂ := by
  have hzero : (0 : ℚ) ≤ params₁.entryLatencyHaircutBps := by exact_mod_cast hzero
  have hcast : (params₁.entryLatencyHaircutBps : ℚ) ≤ params₂.entryLatencyHaircutBps := by
    exact_mod_cast hle
  unfold Reaction.entryPrice applyEntryLatencyHaircut
  constructor
  · exact mul_pos reaction.price_pos (by linarith)
  · exact mul_le_mul_of_nonneg_left (by linarith) reaction.price_pos.le

/-- At a higher entry price a mark is a smaller multiple of it. -/
theorem multiple_antitone {mark : SellableMark} {entryPrice entryPrice' : ℚ} (hpos : 0 < entryPrice)
    (hle : entryPrice ≤ entryPrice') (hprice : ∀ price ∈ mark.priceSol, 0 ≤ price) :
    0 ≤ mark.multiple entryPrice' ∧ mark.multiple entryPrice' ≤ mark.multiple entryPrice := by
  unfold SellableMark.multiple
  cases hmark : mark.priceSol with
  | none => exact ⟨le_rfl, le_rfl⟩
  | some price =>
      have hprice := hprice price hmark
      exact ⟨div_nonneg hprice (hpos.le.trans hle), div_le_div_of_nonneg_left hprice hpos hle⟩

/-- Of two walks over the same marks, the one that brings less has no better a net result. -/
theorem resolve_net_le {S : ℤ} {mint : String} {entryPrice entryPrice' : ℚ} {marks : List SellableMark}
    {blockTimeMs : ℤ} {r r' : OutcomeResult} {w w' : WalkResult}
    (hw : walkPosition R.engine (resolveArgs mint entryPrice marks blockTimeMs) (R.draws mint) S =
      .ok w)
    (hw' : walkPosition R.engine (resolveArgs mint entryPrice' marks blockTimeMs) (R.draws mint) S =
      .ok w')
    (hnonneg : 0 ≤ w'.proceedsLamports) (hle : w'.proceedsLamports ≤ w.proceedsLamports)
    (hr : R.resolve mint entryPrice marks S blockTimeMs m = .ok r)
    (hr' : R.resolve mint entryPrice' marks S blockTimeMs m = .ok r') :
    r'.netPnlLamports ≤ r.netPnlLamports := by
  cases m with
  | spot =>
      obtain ⟨r₀, hr₀, hnet⟩ := resolve_spot hw
      obtain ⟨r₀', hr₀', hnet'⟩ := resolve_spot hw'
      obtain rfl := Except.ok.inj (hr.symm.trans hr₀)
      obtain rfl := Except.ok.inj (hr'.symm.trans hr₀')
      omega
  | realizable =>
      obtain ⟨r₀, hr₀, hgross, hnet⟩ := resolve_realizable hw
      obtain ⟨r₀', hr₀', hgross', hnet'⟩ := resolve_realizable hw'
      obtain rfl := Except.ok.inj (hr.symm.trans hr₀)
      obtain rfl := Except.ok.inj (hr'.symm.trans hr₀')
      have hmono := grossAt_mono_proceeds S hnonneg hle (multiplier_range marks S R.params).1
      omega
  | unknown name =>
      obtain ⟨w₀, -, hr⟩ := ok_of_bind hr
      cases hr

/-- What is resolved has walked under its haircut. -/
theorem of_resolveOne {r : ResolvedReaction}
    (hr : R.resolveOne riskConfig m params reaction = .ok r) :
    ∃ outcome w, R.resolve reaction.signal.mint (reaction.entryPrice params) reaction.marks
        riskConfig.perTradeCapLamports reaction.signal.signalBlockTimeMs m = .ok outcome ∧
      walkPosition R.engine (reaction.walkArgs params) (R.draws reaction.signal.mint)
        riskConfig.perTradeCapLamports = .ok w ∧ r.netPnlLamports = outcome.netPnlLamports := by
  obtain ⟨outcome, houtcome, hr⟩ := ok_of_bind hr
  obtain ⟨-, -, -, hresolve⟩ := (resolveMomentumOutcome_eq_ok _).1 houtcome
  obtain ⟨w, hw⟩ := walk_of_resolve hresolve
  obtain rfl := Except.ok.inj hr
  exact ⟨outcome, w, hresolve, hw, rfl⟩

/-- A mark at the other entry price is in proportion. -/
theorem multiple_in_proportion {mark : SellableMark} {entryPrice entryPrice' : ℚ}
    (hpos : 0 < entryPrice) :
    mark.multiple entryPrice' = entryPrice / entryPrice' * mark.multiple entryPrice := by
  unfold SellableMark.multiple
  cases mark.priceSol with
  | none => exact (mul_zero _).symm
  | some price =>
      change price / entryPrice' = entryPrice / entryPrice' * (price / entryPrice)
      rw [div_mul_div_comm, mul_comm entryPrice price, mul_div_mul_right _ _ hpos.ne']

/-- **Where no level lies between a mark's two multiples**, the engine decides the same. -/
theorem sameSchedule_of_sides (hzero : 0 ≤ params₁.entryLatencyHaircutBps)
    (hle : params₁.entryLatencyHaircutBps ≤ params₂.entryLatencyHaircutBps)
    (hsides : ∀ mark ∈ reaction.marks, SameSides R.engine
      (mark.multiple (reaction.entryPrice params₁)) (mark.multiple (reaction.entryPrice params₂)))
    {r₁ : ResolvedReaction} (hr₁ : R.resolveOne riskConfig m params₁ reaction = .ok r₁) :
    SameSchedule R.engine reaction params₁ params₂ := by
  obtain ⟨-, w₁, -, hw₁, -⟩ := of_resolveOne hr₁
  obtain ⟨hpos, hentry⟩ := entryPrice_mono reaction hzero hle
  obtain ⟨-, v₁, hv₁, -⟩ := gross_of_walk hw₁
  obtain ⟨-, s, hs, u, hloop, -⟩ := walk_eq_ok.1 hv₁
  have hwell := (ExitState.atEntry_eq_ok hs).1
  obtain ⟨ds, hds⟩ := decisions_of_walkLoop hloop
  have hc : 0 < reaction.entryPrice params₁ / reaction.entryPrice params₂ :=
    div_pos hpos (hpos.trans_le hentry)
  have hpath : (reaction.walkArgs params₂).path = (reaction.walkArgs params₁).path.map
      (reaction.entryPrice params₁ / reaction.entryPrice params₂ * ·) := by
    unfold Reaction.walkArgs resolveArgs
    rw [List.map_map]
    exact List.map_congr_left fun mark _ => multiple_in_proportion hpos
  have hlevels : ∀ r ∈ (reaction.walkArgs params₁).path, SameSides R.engine r
      (reaction.entryPrice params₁ / reaction.entryPrice params₂ * r) := by
    intro r hr
    obtain ⟨mark, hmark, rfl⟩ := List.mem_map.1 hr
    rw [← multiple_in_proportion hpos]
    exact hsides mark hmark
  have htick : ∀ step multiple, (reaction.walkArgs params₂).tick step multiple =
      (reaction.walkArgs params₁).tick step multiple := fun _ _ => rfl
  have hds₂ := decisions_lockstep rfl htick hwell hwell (lockstep_atEntry hs) hc hlevels hds
  have hs₂ : ExitState.atEntry (reaction.walkArgs params₂).mint
      (reaction.walkArgs params₂).entryFillPrice R.engine = .ok s := hs
  unfold SameSchedule schedule
  rw [bind_of_ok hs, bind_of_ok hs₂, hds, hpath, hds₂]

/-- The walk of a reaction along the marks at which something is held. -/
theorem walkArgs_take {ds : List (ℤ × MevExitMode)} {draws : ℕ → ℚ} {S : ℤ} {v : PaperWalk}
    {config : ExitConfig} (hds : schedule config (reaction.walkArgs params) = .ok ds)
    (hv : walk config (reaction.walkArgs params) draws S = .ok v) :
    let held : WalkArgs := { reaction.walkArgs params with
      path := (reaction.marks.take ds.length).map (·.multiple (reaction.entryPrice params)) }
    walk config held draws S = .ok v ∧ schedule config held = .ok ds := by
  intro held
  have hpath : (reaction.walkArgs params).path.take ds.length = held.path :=
    (List.map_take ..).symm
  have hheld : ({ reaction.walkArgs params with
      path := (reaction.walkArgs params).path.take ds.length } : WalkArgs) = held := by
    rw [hpath]
  exact hheld ▸ walk_take hds hv

/-- **A larger haircut does not help where the engine decides the same** on the two paths, and no mark
at which something is still held has a negative price: every share is sold in the same tick at a
multiple no larger, so the walk brings no more, and neither exit model makes more of it. -/
theorem haircut_never_helps (R : Resolver) (riskConfig : Breaker.RiskConfig) (m : ExitModel)
    (params₁ params₂ : ReactionParams) (reaction : Reaction)
    (hzero : 0 ≤ params₁.entryLatencyHaircutBps)
    (hle : params₁.entryLatencyHaircutBps ≤ params₂.entryLatencyHaircutBps)
    (hprices : reaction.NoNegativePrice R.engine params₁)
    (hsame : SameSchedule R.engine reaction params₁ params₂)
    {r₁ r₂ : ResolvedReaction} (hr₁ : R.resolveOne riskConfig m params₁ reaction = .ok r₁)
    (hr₂ : R.resolveOne riskConfig m params₂ reaction = .ok r₂) :
    r₂.netPnlLamports ≤ r₁.netPnlLamports := by
  obtain ⟨outcome₁, w₁, hresolve₁, hw₁, hnet₁⟩ := of_resolveOne hr₁
  obtain ⟨outcome₂, w₂, hresolve₂, hw₂, hnet₂⟩ := of_resolveOne hr₂
  obtain ⟨hpos, hentry⟩ := entryPrice_mono reaction hzero hle
  obtain ⟨-, v₁, hv₁, hproceeds₁⟩ := gross_of_walk hw₁
  obtain ⟨-, v₂, hv₂, hproceeds₂⟩ := gross_of_walk hw₂
  -- the decisions the two walks have in common
  obtain ⟨-, s, hs, u, hloop, -⟩ := walk_eq_ok.1 hv₁
  obtain ⟨ds, hds⟩ := decisions_of_walkLoop hloop
  have hschedule : schedule R.engine (reaction.walkArgs params₁) = .ok ds := (bind_of_ok hs).trans hds
  obtain ⟨hheld₁, hds₁⟩ := walkArgs_take hschedule hv₁
  obtain ⟨hheld₂, hds₂⟩ := walkArgs_take (hsame.trans hschedule) hv₂
  have hmarks : ∀ mark ∈ reaction.marks.take ds.length,
      0 ≤ mark.multiple (reaction.entryPrice params₂) ∧
        mark.multiple (reaction.entryPrice params₂) ≤ mark.multiple (reaction.entryPrice params₁) :=
    fun mark hmark => multiple_antitone hpos hentry (hprices ds hschedule mark hmark)
  have hwalk : v₂.proceeds ≤ v₁.proceeds :=
    walk_behind (reaction.walkArgs params₁) hmarks (hds₂.trans hds₁.symm) hheld₁ hheld₂
  have hnonneg : 0 ≤ v₂.proceeds := by
    refine walk_proceeds_nonneg (fun multiple hmultiple => ?_) hheld₂
    obtain ⟨mark, hmark, rfl⟩ := List.mem_map.1 hmultiple
    exact (hmarks mark hmark).1
  rw [hproceeds₁, hproceeds₂] at hwalk
  rw [hproceeds₂] at hnonneg
  rw [hnet₁, hnet₂]
  exact resolve_net_le hw₁ hw₂ hnonneg hwalk hresolve₁ hresolve₂

/-- The parameters with a haircut. -/
def haircutParams (bps : ℤ) : ReactionParams where
  reputationThreshold := 0
  minPriorSignals := 3
  neutralPriorSelects := true
  entryLatencyHaircutBps := bps

/-- A mark in a deep market. -/
def deepMark (priceSol : ℚ) (horizonS : ℤ) : ReactionMark where
  priceSol := some priceSol
  priceUsd := none
  liquidityUsd := some 1000000000
  horizonS := horizonS

/-- A price that rises by a fifth and falls by half, through the hard stop at either entry, before a
mark that makes no sense. -/
def stoppedReaction : Reaction where
  signal := ⟨"mint", "source", 1, 1000, 1⟩
  forward := [deepMark 1.2 1, deepMark 0.5 2, deepMark (-1) 3]

theorem haircut_never_helps_stopped : ∃ r₁ r₂,
    plainResolver.resolveOne Breaker.defaultConfig .realizable (haircutParams 0) stoppedReaction =
        .ok r₁ ∧
      plainResolver.resolveOne Breaker.defaultConfig .realizable (haircutParams 100) stoppedReaction =
        .ok r₂ ∧
      r₂.netPnlLamports ≤ r₁.netPnlLamports := by
  obtain ⟨r₁, hr₁, -⟩ := exists_ok_of_any
    (x := plainResolver.resolveOne Breaker.defaultConfig .realizable (haircutParams 0) stoppedReaction)
    (p := fun _ => true) (by decide +kernel)
  obtain ⟨r₂, hr₂, -⟩ := exists_ok_of_any
    (x := plainResolver.resolveOne Breaker.defaultConfig .realizable (haircutParams 100)
      stoppedReaction)
    (p := fun _ => true) (by decide +kernel)
  obtain ⟨ds₁, hds₁, hstop₁⟩ := exists_ok_of_any
    (x := schedule plainResolver.engine (stoppedReaction.walkArgs (haircutParams 0)))
    (p := fun ds => decide (ds = [(0, .secure), (10000, .secure)])) (by decide +kernel)
  obtain ⟨ds₂, hds₂, hstop₂⟩ := exists_ok_of_any
    (x := schedule plainResolver.engine (stoppedReaction.walkArgs (haircutParams 100)))
    (p := fun ds => decide (ds = [(0, .secure), (10000, .secure)])) (by decide +kernel)
  have hprices : stoppedReaction.NoNegativePrice plainResolver.engine (haircutParams 0) := by
    intro ds hds
    obtain rfl := Except.ok.inj (hds₁.symm.trans hds)
    obtain rfl := of_decide_eq_true hstop₁
    decide +kernel
  have hsame : SameSchedule plainResolver.engine stoppedReaction (haircutParams 0)
      (haircutParams 100) := by
    unfold SameSchedule
    rw [hds₁, hds₂, of_decide_eq_true hstop₁, of_decide_eq_true hstop₂]
  exact ⟨r₁, r₂, hr₁, hr₂, haircut_never_helps plainResolver Breaker.defaultConfig .realizable
    (haircutParams 0) (haircutParams 100) stoppedReaction (by decide) (by decide) hprices hsame
    hr₁ hr₂⟩

/-- A price that doubles, falls back and then runs away. -/
def runawayReaction : Reaction where
  signal := ⟨"mint", "source", 1, 1000, 1⟩
  forward := [deepMark 2 1, deepMark 1.4 2, deepMark 100 3]

/-- **A larger haircut can help**: the first mark no longer arms the trailing stop, and what it would
have sold at the second is sold at the third. -/
theorem haircut_helps : ∃ r₁ r₂,
    plainResolver.resolveOne Breaker.defaultConfig .realizable (haircutParams 0) runawayReaction =
        .ok r₁ ∧
      plainResolver.resolveOne Breaker.defaultConfig .realizable (haircutParams 100) runawayReaction =
        .ok r₂ ∧
      r₁.netPnlLamports < r₂.netPnlLamports := by
  obtain ⟨r₁, hr₁, hnet₁⟩ := exists_ok_of_any
    (x := plainResolver.resolveOne Breaker.defaultConfig .realizable (haircutParams 0) runawayReaction)
    (p := fun r => decide (r.netPnlLamports < 100000000)) (by decide +kernel)
  obtain ⟨r₂, hr₂, hnet₂⟩ := exists_ok_of_any
    (x := plainResolver.resolveOne Breaker.defaultConfig .realizable (haircutParams 100)
      runawayReaction)
    (p := fun r => decide (100000000 < r.netPnlLamports)) (by decide +kernel)
  exact ⟨r₁, r₂, hr₁, hr₂, (of_decide_eq_true hnet₁).trans (of_decide_eq_true hnet₂)⟩

end Haircuts

end Backtest
end AatsSniper

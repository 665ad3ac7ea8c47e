/-
# The paper walk

`walk_position` of `aats/risk/exit_sim.py`: a path of marks through the exit engine, with
the integer proceeds of what is sold on the way and of what is left at its end.

What a rung sells is a floor of a floor of the position in lamports; what it leaves is kept in
whole basis points of the original.  The two meet where the rung's share of what is
left is a whole number of basis points.  Where it is not, the part of a
basis point that was sold stays on the book and is sold again: `carry`.

The arithmetic of `Decimal` is exact here.  The draws are what `rng.random()` returns, one for
each sale; none lies between a probability in basis points and its quotient as a float.
-/

import AatsSniper.Exit.Ladder
import AatsSniper.Mev.SplitExit

namespace AatsSniper
namespace Backtest

open Exit
open Mev (slippageModelFor)

/-! ### The walk -/

/-- What `walk_position` raises. -/
inductive WalkError
  | solInLamports
  | engine (e : ExitError)
  deriving DecidableEq

/-- The arguments of `walk_position(...)` beside the engine, the notional and the draws. -/
structure WalkArgs where
  mint : String
  entryFillPrice : ℚ
  path : List ℚ
  blockTimeMsStart : ℤ := 1700000000000
  blockTimeStepMs : ℤ := 400
  narrativeFailureAt : Option ℤ := none

/-- The call of `on_tick` at a step. -/
def WalkArgs.tick (args : WalkArgs) (step : ℕ) (multiple : ℚ) : Tick where
  markPrice := args.entryFillPrice * multiple
  blockTimeMs := args.blockTimeMsStart + step * args.blockTimeStepMs
  narrativeFailureFlag := args.narrativeFailureAt = some (step : ℤ)

/-- The haircut of a sale, in basis points. -/
def haircutBps (mode : MevExitMode) (draw : ℚ) : ℤ :=
  let model := slippageModelFor mode
  if draw < (model.sandwichPBps : ℚ) / 10000 then model.exitSlippageBps + model.sandwichLossBps
  else model.exitSlippageBps

/-- `_sell_proceeds_lamports(notional_lamports, r, mode, rng)`. -/
def sellProceedsLamports (notionalLamports : ℤ) (r : ℚ) (mode : MevExitMode) (draw : ℚ) : ℤ :=
  truncate (notionalLamports * r * ((10000 - haircutBps mode draw) / 10000))

/-- The variables of the walk, with the notionals that were sold. -/
structure PaperWalk where
  state : ExitState
  proceeds : ℤ := 0
  exits : List (ExitReason × ℤ) := []
  sold : List ℤ := []

/-- A sale. -/
def PaperWalk.sell (w : PaperWalk) (draws : ℕ → ℚ) (notional : ℤ) (r : ℚ) (mode : MevExitMode)
    (reason : ExitReason) (fractionBps : ℤ) : PaperWalk :=
  { w with
    proceeds := w.proceeds + sellProceedsLamports notional r mode (draws w.exits.length)
    exits := w.exits ++ [(reason, fractionBps)]
    sold := w.sold ++ [notional] }

section Walking

variable (config : ExitConfig) (args : WalkArgs) (draws : ℕ → ℚ) (solInLamports : ℤ)

/-- The body of the loop. -/
def walkTick (w : PaperWalk) (tick : Tick) : Except ExitError PaperWalk := do
  let notionalBefore := solInLamports * w.state.remainingBps / 10000
  let decision ← onTick config w.state tick
  let w :=
    match decision.intent with
    | none => w
    | some _ =>
        w.sell draws (notionalBefore * decision.fractionBps / 10000)
          (w.state.realizedR tick.markPrice) (decision.exitMode.getD .secure) decision.reason
          decision.fractionBps
  return { w with state := decision.nextState }

/-- The loop over the path, from a step on. -/
def walkLoop : ℕ → List ℚ → PaperWalk → Except ExitError PaperWalk
  | _, [], w => .ok w
  | step, multiple :: rest, w =>
      if w.state.remainingBps ≤ 0 then .ok w
      else do
        let w ← walkTick config draws solInLamports w (args.tick step multiple)
        walkLoop (step + 1) rest w

/-- The forced exit of the remainder at the last mark. -/
def forceExit (w : PaperWalk) : Except ExitError PaperWalk :=
  match args.path.getLast? with
  | none => .ok w
  | some last =>
      if 0 < w.state.remainingBps then do
        let sold := w.sell draws (solInLamports * w.state.remainingBps / 10000)
          (w.state.realizedR (args.entryFillPrice * last)) .secure .timeout 10000
        let state ← w.state.replace { w.state with remainingBps := 0 }
        return { sold with state := state }
      else .ok w

/-- The walk, to its end. -/
def walk : Except WalkError PaperWalk := do
  require (0 < solInLamports) .solInLamports
  let state ← (ExitState.atEntry args.mint args.entryFillPrice config).mapError .engine
  let w ← (walkLoop config args draws solInLamports 0 args.path { state := state }).mapError .engine
  (forceExit args draws solInLamports w).mapError .engine

/-- `WalkResult`. -/
structure WalkResult where
  mint : String
  solInLamports : ℤ
  grossPnlLamports : ℤ
  proceedsLamports : ℤ
  exits : List (ExitReason × ℤ)
  finalRemainingBps : ℤ
  deriving DecidableEq

/-- `walk_position(...)`. -/
def walkPosition : Except WalkError WalkResult :=
  (walk config args draws solInLamports).map fun w =>
    { mint := args.mint
      solInLamports := solInLamports
      grossPnlLamports := w.proceeds - solInLamports
      proceedsLamports := w.proceeds
      exits := w.exits
      finalRemainingBps := w.state.remainingBps }

/-- The scale-outs of the engine on the path: what remained, and the fraction of it that went. -/
def scaleOuts : ℕ → List ℚ → ExitState → Except ExitError (List (ℤ × ℤ))
  | _, [], _ => .ok []
  | step, multiple :: rest, s =>
      if s.remainingBps ≤ 0 then .ok []
      else do
        let decision ← onTick config s (args.tick step multiple)
        let later ← scaleOuts (step + 1) rest decision.nextState
        return if decision.reason = .takeProfit then (s.remainingBps, decision.fractionBps) :: later
          else later

end Walking

/-- What the floor in basis points leaves on the book of what was sold, in 10⁻⁸ of the position. -/
def carry (outs : List (ℤ × ℤ)) : ℤ := (outs.map fun out => out.1 * out.2 % 10000).sum

/-! ### A sale -/

theorem haircutBps_range (mode : MevExitMode) (draw : ℚ) :
    0 ≤ haircutBps mode draw ∧ haircutBps mode draw ≤ 10000 := by
  unfold haircutBps
  cases mode with
  | fast =>
      dsimp only [slippageModelFor, Mev.fastSlippage]
      split_ifs <;> omega
  | secure =>
      dsimp only [slippageModelFor, Mev.secureSlippage]
      split_ifs <;> omega

/-- What is left of the proceeds after the haircut. -/
theorem keep_range (mode : MevExitMode) (draw : ℚ) :
    0 ≤ (10000 - (haircutBps mode draw : ℚ)) / 10000 ∧
      (10000 - (haircutBps mode draw : ℚ)) / 10000 ≤ 1 := by
  obtain ⟨hlo, hhi⟩ := haircutBps_range mode draw
  have hlo : (0 : ℚ) ≤ haircutBps mode draw := by exact_mod_cast hlo
  have hhi : (haircutBps mode draw : ℚ) ≤ 10000 := by exact_mod_cast hhi
  constructor
  · linarith
  · linarith

/-- At a loss, a sale brings at most what it sold. -/
theorem sellProceeds_le {notional : ℤ} {r : ℚ} (hnotional : 0 ≤ notional) (hr : r ≤ 1)
    (mode : MevExitMode) (draw : ℚ) : sellProceedsLamports notional r mode draw ≤ notional := by
  have hcast : (0 : ℚ) ≤ notional := by exact_mod_cast hnotional
  obtain ⟨hkeep, hkeep'⟩ := keep_range mode draw
  apply truncate_le
  have hle : (notional : ℚ) * r ≤ notional := mul_le_of_le_one_right hcast hr
  calc (notional : ℚ) * r * ((10000 - haircutBps mode draw) / 10000)
      ≤ notional * ((10000 - haircutBps mode draw) / 10000) := mul_le_mul_of_nonneg_right hle hkeep
    _ ≤ notional := mul_le_of_le_one_right hcast hkeep'

/-- At a mark that is not negative, a sale brings nothing negative. -/
theorem sellProceeds_nonneg {notional : ℤ} {r : ℚ} (hnotional : 0 ≤ notional) (hr : 0 ≤ r)
    (mode : MevExitMode) (draw : ℚ) : 0 ≤ sellProceedsLamports notional r mode draw := by
  have hcast : (0 : ℚ) ≤ notional := by exact_mod_cast hnotional
  have hproduct : 0 ≤ (notional : ℚ) * r * ((10000 - haircutBps mode draw) / 10000) :=
    mul_nonneg (mul_nonneg hcast hr) (keep_range mode draw).1
  rw [sellProceedsLamports, truncate_of_nonneg hproduct]
  exact Int.floor_nonneg.2 hproduct

/-! ### A tick -/

section Ticks

variable {config : ExitConfig} {args : WalkArgs} {draws : ℕ → ℚ} {S : ℤ} {w w' : PaperWalk}
  {tick : Tick} {d : ExitDecision}

/-- **What a tick of the walk does**: it keeps the position, sells all of it, or sells the share of
a rung. -/
theorem walkTick_cases (h : w.state.WellFormed) (hopen : 0 < w.state.remainingBps)
    (ht : walkTick config draws S w tick = .ok w') :
    ∃ d, onTick config w.state tick = .ok d ∧ w'.state = d.nextState ∧
      ((d.reason ≠ .takeProfit ∧ d.nextState.remainingBps = w.state.remainingBps ∧
          w' = { w with state := d.nextState }) ∨
        ∃ notional mode,
          w' = { w.sell draws notional (w.state.realizedR tick.markPrice) mode d.reason
            d.fractionBps with state := d.nextState } ∧
          ((d.reason ≠ .takeProfit ∧ d.nextState.remainingBps = 0 ∧
              notional = S * w.state.remainingBps / 10000) ∨
            (d.reason = .takeProfit ∧ 0 ≤ d.fractionBps ∧ d.fractionBps ≤ 10000 ∧
              d.nextState.remainingBps =
                w.state.remainingBps - w.state.remainingBps * d.fractionBps / 10000 ∧
              notional = S * w.state.remainingBps / 10000 * d.fractionBps / 10000))) := by
  unfold walkTick at ht
  dsimp only at ht
  obtain ⟨d, hd, ht⟩ := ok_of_bind ht
  refine ⟨d, hd, ?_⟩
  obtain rfl := (Except.ok.inj ht).symm
  refine ⟨rfl, ?_⟩
  obtain ⟨-, ⟨hflat, -⟩ | ⟨-, ⟨reason, detail, hforced, rfl⟩ | ⟨-, ⟨idx, rung, -, rfl⟩ | rfl⟩⟩⟩ :=
    onTick_cases h hd
  · omega
  · refine .inr ⟨_, .secure, rfl, .inl ⟨forcedExit_reason_ne hforced, rfl, ?_⟩⟩
    exact Int.mul_ediv_cancel _ (show (10000 : ℤ) ≠ 0 by decide)
  · obtain ⟨hlo, hhi⟩ := rung.fraction_range
    have hremaining := h.remaining
    exact .inr ⟨_, config.defaultExitMode, rfl,
      .inr ⟨rfl, le_min (by omega) hopen.le, (min_le_left _ _).trans (by omega), rfl, rfl⟩⟩
  · exact .inl ⟨ExitReason.noConfusion, rfl, rfl⟩

/-! ### What the roundings do -/

/-- What was sold and what is still on the book, in 10⁻⁸ lamports. -/
def PaperWalk.booked (S : ℤ) (w : PaperWalk) : ℤ :=
  10 ^ 8 * w.sold.sum + 10 ^ 4 * (S * w.state.remainingBps)

/-- From one walk to the next: what is booked grows by the carry of the scale-outs, less than two
lamports a sale short of it. -/
structure Drifts (S : ℤ) (outs : List (ℤ × ℤ)) (w w' : PaperWalk) : Prop where
  high : w'.booked S - w.booked S ≤ S * carry outs
  low : S * carry outs - 2 * 10 ^ 8 * (w'.exits.length - w.exits.length) ≤
    w'.booked S - w.booked S

theorem carry_append (outs outs' : List (ℤ × ℤ)) :
    carry (outs ++ outs') = carry outs + carry outs' := by
  simp [carry]

theorem Drifts.trans {outs outs' : List (ℤ × ℤ)} {w'' : PaperWalk} (h : Drifts S outs w w')
    (h' : Drifts S outs' w' w'') : Drifts S (outs ++ outs') w w'' := by
  have hcarry : S * carry (outs ++ outs') = S * carry outs + S * carry outs' := by
    rw [carry_append, mul_add]
  have hhigh := h.high
  have hhigh' := h'.high
  have hlow := h.low
  have hlow' := h'.low
  constructor
  · omega
  · omega

/-- What keeps the position and sells nothing. -/
theorem Drifts.of_kept (hremaining : w'.state.remainingBps = w.state.remainingBps)
    (hsold : w'.sold = w.sold) (hexits : w'.exits = w.exits) : Drifts S [] w w' := by
  have hbooked : w'.booked S = w.booked S := by
    unfold PaperWalk.booked
    rw [hremaining, hsold]
  have hcarry : carry [] = 0 := rfl
  have hlength : w'.exits.length = w.exits.length := congrArg List.length hexits
  constructor
  · rw [hbooked, hcarry]
    omega
  · rw [hbooked, hcarry]
    omega

/-- A sale of everything that remains. -/
theorem Drifts.of_sold_out (hzero : w'.state.remainingBps = 0)
    (hsold : w'.sold = w.sold ++ [S * w.state.remainingBps / 10000])
    (hexits : w'.exits.length = w.exits.length + 1) : Drifts S [] w w' := by
  have hcarry : carry [] = 0 := rfl
  have hbefore : w.booked S = 10 ^ 8 * w.sold.sum + 10 ^ 4 * (S * w.state.remainingBps) := rfl
  have hafter : w'.booked S = 10 ^ 8 * (w.sold.sum + S * w.state.remainingBps / 10000) := by
    rw [PaperWalk.booked, hzero, hsold, List.sum_append, List.sum_singleton, mul_zero, mul_zero,
      add_zero]
  constructor
  · rw [hcarry]
    omega
  · rw [hcarry]
    omega

variable (S) in
/-- **The share of a rung**: the floors of the lamports fall short of it by less than two, and the
floor of the basis points leaves the carry on the book. -/
theorem share_bounds (remaining : ℤ) {fraction : ℤ} (hfraction : 0 ≤ fraction ∧ fraction ≤ 10000) :
    let short := 10 ^ 8 * (S * remaining / 10000 * fraction / 10000) -
      10 ^ 4 * (S * (remaining * fraction / 10000)) - S * (remaining * fraction % 10000)
    short ≤ 0 ∧ -(2 * 10 ^ 8) ≤ short := by
  intro short
  have hsplit : S * (remaining * fraction) =
      10 ^ 4 * (S * (remaining * fraction / 10000)) + S * (remaining * fraction % 10000) := by
    conv_lhs => rw [← Int.mul_ediv_add_emod (remaining * fraction) 10000]
    ring
  -- what is held, and the share of it, each a floor
  have hheld := Int.mul_ediv_add_emod (S * remaining) 10000
  have hheld_lt := Int.emod_lt_of_pos (S * remaining) (show (0 : ℤ) < 10000 by decide)
  have hheld_nonneg := Int.emod_nonneg (S * remaining) (show (10000 : ℤ) ≠ 0 by decide)
  have hmul : S * (remaining * fraction) =
      10000 * (S * remaining / 10000 * fraction) + S * remaining % 10000 * fraction := by
    calc S * (remaining * fraction) = S * remaining * fraction := by ring
      _ = (10000 * (S * remaining / 10000) + S * remaining % 10000) * fraction := by rw [hheld]
      _ = _ := by ring
  have hrest : 0 ≤ S * remaining % 10000 * fraction := Int.mul_nonneg hheld_nonneg hfraction.1
  have hrest' : S * remaining % 10000 * fraction ≤ 10000 * 10000 :=
    Int.mul_le_mul hheld_lt.le hfraction.2 hfraction.1 (by decide)
  constructor
  · omega
  · omega

/-- The sale of a rung. -/
theorem Drifts.of_scaled_out {fraction : ℤ} (hfraction : 0 ≤ fraction ∧ fraction ≤ 10000)
    (hleft : w'.state.remainingBps =
      w.state.remainingBps - w.state.remainingBps * fraction / 10000)
    (hsold : w'.sold = w.sold ++ [S * w.state.remainingBps / 10000 * fraction / 10000])
    (hexits : w'.exits.length = w.exits.length + 1) :
    Drifts S [(w.state.remainingBps, fraction)] w w' := by
  obtain ⟨hhigh, hlow⟩ := share_bounds S w.state.remainingBps hfraction
  have hcarry : carry [(w.state.remainingBps, fraction)] =
      w.state.remainingBps * fraction % 10000 := by simp [carry]
  have hbefore : w.booked S = 10 ^ 8 * w.sold.sum + 10 ^ 4 * (S * w.state.remainingBps) := rfl
  have hafter : w'.booked S =
      10 ^ 8 * (w.sold.sum + S * w.state.remainingBps / 10000 * fraction / 10000) +
        10 ^ 4 * (S * w.state.remainingBps - S * (w.state.remainingBps * fraction / 10000)) := by
    rw [PaperWalk.booked, hleft, hsold, List.sum_append, List.sum_singleton, mul_sub S]
  constructor
  · rw [hcarry]
    omega
  · rw [hcarry]
    omega

/-- A tick, and the scale-out it makes. -/
theorem walkTick_drifts (h : w.state.WellFormed) (hopen : 0 < w.state.remainingBps)
    (ht : walkTick config draws S w tick = .ok w') :
    ∃ d, onTick config w.state tick = .ok d ∧ w'.state = d.nextState ∧
      w'.exits.length ≤ w.exits.length + 1 ∧
      Drifts S (if d.reason = .takeProfit then [(w.state.remainingBps, d.fractionBps)] else [])
        w w' := by
  obtain ⟨d, hd, hstate, hcase⟩ := walkTick_cases h hopen ht
  refine ⟨d, hd, hstate, ?_⟩
  rcases hcase with ⟨hreason, hremaining, rfl⟩ | ⟨notional, mode, rfl, hsale⟩
  · rw [if_neg hreason]
    exact ⟨Nat.le_succ _, .of_kept hremaining rfl rfl⟩
  · have hexits : (w.exits ++ [(d.reason, d.fractionBps)]).length = w.exits.length + 1 := by simp
    refine ⟨hexits.le, ?_⟩
    rcases hsale with ⟨hreason, hzero, rfl⟩ | ⟨hreason, hlo, hhi, hleft, rfl⟩
    · rw [if_neg hreason]
      exact .of_sold_out hzero rfl hexits
    · rw [if_pos hreason]
      exact .of_scaled_out ⟨hlo, hhi⟩ hleft rfl hexits

variable (draws S) in
/-- The walk goes where the engine goes. -/
theorem walkTick_returns (hd : onTick config w.state tick = .ok d) :
    ∃ w', walkTick config draws S w tick = .ok w' ∧ w'.state = d.nextState := by
  unfold walkTick
  rw [hd]
  exact ⟨_, rfl, rfl⟩

/-! ### The loop -/

/-- **The walk along the path**: the scale-outs are the engine's, and what is booked drifts by their
carry. -/
theorem walkLoop_drifts {step : ℕ} {path : List ℚ} (h : w.state.WellFormed)
    (hloop : walkLoop config args draws S step path w = .ok w') :
    ∃ outs, scaleOuts config args step path w.state = .ok outs ∧ w'.state.WellFormed ∧
      w'.exits.length ≤ w.exits.length + path.length ∧ Drifts S outs w w' := by
  induction path generalizing step w with
  | nil =>
      obtain rfl := Except.ok.inj hloop
      exact ⟨[], rfl, h, le_rfl, .of_kept rfl rfl rfl⟩
  | cons multiple rest ih =>
      rw [walkLoop] at hloop
      rw [scaleOuts]
      by_cases hflat : w.state.remainingBps ≤ 0
      · rw [if_pos hflat] at hloop ⊢
        obtain rfl := Except.ok.inj hloop
        exact ⟨[], rfl, h, Nat.le_add_right _ _, .of_kept rfl rfl rfl⟩
      · rw [if_neg hflat] at hloop ⊢
        obtain ⟨w₁, htick, hrest⟩ := ok_of_bind hloop
        obtain ⟨d, hd, hstate, hexits, hdrifts⟩ := walkTick_drifts h (by omega) htick
        have h₁ : w₁.state.WellFormed := hstate ▸ onTick_wellFormed h hd
        obtain ⟨later, hlater, hw', hexits', hdrifts'⟩ := ih h₁ hrest
        rw [hstate] at hlater
        rw [bind_of_ok hd, bind_of_ok hlater]
        refine ⟨_, rfl, hw', ?_, ?_⟩
        · rw [List.length_cons]
          omega
        · have hall := hdrifts.trans hdrifts'
          split_ifs at hall ⊢ with hreason
          · exact hall
          · exact hall

variable (draws S) in
/-- Where the engine takes every tick, the walk returns. -/
theorem walkLoop_returns {step : ℕ} {path : List ℚ} {outs : List (ℤ × ℤ)}
    (houts : scaleOuts config args step path w.state = .ok outs) :
    ∃ w', walkLoop config args draws S step path w = .ok w' := by
  induction path generalizing step w outs with
  | nil => exact ⟨w, rfl⟩
  | cons multiple rest ih =>
      rw [walkLoop]
      rw [scaleOuts] at houts
      by_cases hflat : w.state.remainingBps ≤ 0
      · exact ⟨w, if_pos hflat⟩
      · rw [if_neg hflat] at houts ⊢
        obtain ⟨d, hd, houts⟩ := ok_of_bind houts
        obtain ⟨later, hlater, -⟩ := ok_of_bind houts
        obtain ⟨w₁, htick, hstate⟩ := walkTick_returns draws S hd
        rw [bind_of_ok htick]
        exact ih (hstate ▸ hlater)

/-- What holds of the proceeds and the sum of what was sold, and is kept by a sale at a multiple. -/
def KeptBySale (P : ℤ → ℤ → Prop) (multiple : ℚ) : Prop :=
  ∀ proceeds sold notional mode draw, 0 ≤ notional → P proceeds sold →
    P (proceeds + sellProceedsLamports notional multiple mode draw) (sold + notional)

theorem KeptBySale.sell {P : ℤ → ℤ → Prop} {r : ℚ} (h : KeptBySale P r)
    (hw : P w.proceeds w.sold.sum) {notional : ℤ} (hnotional : 0 ≤ notional) (mode : MevExitMode)
    (reason : ExitReason) (fractionBps : ℤ) :
    let sold := w.sell draws notional r mode reason fractionBps
    P sold.proceeds sold.sold.sum := by
  dsimp only [PaperWalk.sell]
  rw [List.sum_append, List.sum_singleton]
  exact h _ _ _ _ _ hnotional hw

theorem walkTick_keeps {P : ℤ → ℤ → Prop} (h : w.state.WellFormed)
    (hopen : 0 < w.state.remainingBps) (hS : 0 < S)
    (hkept : KeptBySale P (w.state.realizedR tick.markPrice)) (hw : P w.proceeds w.sold.sum)
    (ht : walkTick config draws S w tick = .ok w') : P w'.proceeds w'.sold.sum := by
  have hheld : 0 ≤ S * w.state.remainingBps / 10000 :=
    Int.ediv_nonneg (Int.mul_nonneg hS.le hopen.le) (by decide)
  obtain ⟨d, -, -, ⟨-, -, rfl⟩ | ⟨notional, mode, rfl, hsale⟩⟩ := walkTick_cases h hopen ht
  · exact hw
  · have hnotional : 0 ≤ notional := by
      rcases hsale with ⟨-, -, rfl⟩ | ⟨-, hlo, -, -, rfl⟩
      · exact hheld
      · exact Int.ediv_nonneg (Int.mul_nonneg hheld hlo) (by decide)
    exact hkept.sell hw hnotional mode d.reason d.fractionBps

/-- The multiple of a mark is what it is of the entry price. -/
theorem realizedR_mark (h : w.state.WellFormed)
    (hentry : w.state.entryFillPrice = args.entryFillPrice) (multiple : ℚ) :
    w.state.realizedR (args.entryFillPrice * multiple) = multiple := by
  have hpos := h.entry
  rw [ExitState.realizedR, hentry]
  exact mul_div_cancel_left₀ _ (hentry ▸ hpos.ne')

/-- **What every sale keeps holds along the path.** -/
theorem walkLoop_keeps {P : ℤ → ℤ → Prop} {step : ℕ} {path : List ℚ} (h : w.state.WellFormed)
    (hS : 0 < S) (hentry : w.state.entryFillPrice = args.entryFillPrice)
    (hkept : ∀ m ∈ path, KeptBySale P m) (hw : P w.proceeds w.sold.sum)
    (hloop : walkLoop config args draws S step path w = .ok w') :
    P w'.proceeds w'.sold.sum ∧ w'.state.WellFormed ∧
      w'.state.entryFillPrice = args.entryFillPrice := by
  induction path generalizing step w with
  | nil =>
      obtain rfl := Except.ok.inj hloop
      exact ⟨hw, h, hentry⟩
  | cons multiple rest ih =>
      rw [walkLoop] at hloop
      by_cases hflat : w.state.remainingBps ≤ 0
      · rw [if_pos hflat] at hloop
        obtain rfl := Except.ok.inj hloop
        exact ⟨hw, h, hentry⟩
      · rw [if_neg hflat] at hloop
        obtain ⟨w₁, htick, hrest⟩ := ok_of_bind hloop
        obtain ⟨d, hd, hstate, -⟩ := walkTick_cases h (by omega) htick
        have hmark : KeptBySale P (w.state.realizedR (args.tick step multiple).markPrice) := by
          rw [WalkArgs.tick, realizedR_mark h hentry]
          exact hkept multiple List.mem_cons_self
        have h₁ : w₁.state.WellFormed := hstate ▸ onTick_wellFormed h hd
        have hentry₁ : w₁.state.entryFillPrice = args.entryFillPrice := by
          rw [hstate, (onTick_sameEntry hd).entryFillPrice, hentry]
        exact ih h₁ hentry₁ (fun m hm => hkept m (List.mem_cons_of_mem _ hm))
          (walkTick_keeps h (by omega) hS hmark hw htick) hrest

/-! ### The end of the path -/

variable (args draws S) in
/-- The remainder is sold at the last mark, if there is one. -/
theorem forceExit_eq_ok (h : w.state.WellFormed) :
    ∃ w', forceExit args draws S w = .ok w' ∧
      (w' = w ∧ (args.path = [] ∨ w.state.remainingBps = 0) ∨
        ∃ last, args.path.getLast? = some last ∧ 0 < w.state.remainingBps ∧
          w' = { w.sell draws (S * w.state.remainingBps / 10000)
            (w.state.realizedR (args.entryFillPrice * last)) .secure .timeout 10000 with
              state := { w.state with remainingBps := 0 } }) := by
  unfold forceExit
  cases hlast : args.path.getLast? with
  | none => exact ⟨w, rfl, .inl ⟨rfl, .inl (List.getLast?_eq_none_iff.1 hlast)⟩⟩
  | some last =>
      dsimp only
      by_cases hopen : 0 < w.state.remainingBps
      · have hreplace : w.state.replace { w.state with remainingBps := 0 } =
            .ok { w.state with remainingBps := 0 } :=
          ExitState.replace_eq_ok ⟨h.entry, by simp, h.mint, h.steps, h.floor, h.entryTime,
            h.activeTime⟩ hopen.le le_rfl
        rw [if_pos hopen, bind_of_ok hreplace]
        exact ⟨_, rfl, .inr ⟨last, rfl, hopen, rfl⟩⟩
      · rw [if_neg hopen]
        have hremaining := h.remaining
        exact ⟨w, rfl, .inl ⟨rfl, .inr (by omega)⟩⟩

end Ticks

section Conservation

variable (config : ExitConfig) (args : WalkArgs) (draws : ℕ → ℚ)

/-- The walk of a position conserves it: what is sold is at most the position, short of it by at
most two lamports a sale; and at no mark above the entry price it brings at most that. -/
def Conserves (S : ℤ) : Prop :=
  ∀ w, walk config args draws S = .ok w →
    w.sold.sum ≤ S ∧ S - w.sold.sum ≤ 2 * w.exits.length ∧
      ((∀ m ∈ args.path, args.entryFillPrice * m ≤ args.entryFillPrice) → w.proceeds ≤ S)

/-- There is a mark to sell the remainder at, and every rung on the path takes a whole number of
basis points. -/
def WholeRungs : Prop :=
  ∀ s outs, ExitState.atEntry args.mint args.entryFillPrice config = .ok s →
    scaleOuts config args 0 args.path s = .ok outs →
      args.path ≠ [] ∧ ∀ out ∈ outs, (10000 : ℤ) ∣ out.1 * out.2

variable {config args draws} {S : ℤ}

theorem mapError_eq_ok {ε ε' α : Type} {x : Except ε α} {f : ε → ε'} {a : α} :
    x.mapError f = .ok a ↔ x = .ok a := by
  cases x with
  | error e => simp [Except.mapError]
  | ok b => simp [Except.mapError]

/-- A walk that returned, taken apart. -/
theorem walk_eq_ok {w : PaperWalk} : walk config args draws S = .ok w ↔
    0 < S ∧ ∃ s, ExitState.atEntry args.mint args.entryFillPrice config = .ok s ∧
      ∃ w₁, walkLoop config args draws S 0 args.path { state := s } = .ok w₁ ∧
        forceExit args draws S w₁ = .ok w := by
  constructor
  · intro h
    obtain ⟨hS, h⟩ := ok_of_require h
    obtain ⟨s, hs, h⟩ := ok_of_bind h
    obtain ⟨w₁, hw₁, h⟩ := ok_of_bind h
    exact ⟨hS, s, mapError_eq_ok.1 hs, w₁, mapError_eq_ok.1 hw₁, mapError_eq_ok.1 h⟩
  · rintro ⟨hS, s, hs, w₁, hw₁, h⟩
    unfold walk
    rw [require_bind hS, bind_of_ok (mapError_eq_ok.2 hs), bind_of_ok (mapError_eq_ok.2 hw₁)]
    exact mapError_eq_ok.2 h

/-- **What a walk sells** is the position and the carry of its scale-outs, less than two lamports a
sale short of it. -/
theorem walk_sold {w : PaperWalk} (hpath : args.path ≠ []) (h : walk config args draws S = .ok w) :
    ∃ s outs, ExitState.atEntry args.mint args.entryFillPrice config = .ok s ∧
      scaleOuts config args 0 args.path s = .ok outs ∧ w.exits.length ≤ args.path.length + 1 ∧
      10 ^ 8 * (w.sold.sum - S) ≤ S * carry outs ∧
      S * carry outs - 2 * 10 ^ 8 * w.exits.length ≤ 10 ^ 8 * (w.sold.sum - S) := by
  obtain ⟨-, s, hs, w₁, hloop, hforce⟩ := walk_eq_ok.1 h
  obtain ⟨hwell, stop, hstate⟩ := ExitState.atEntry_eq_ok hs
  obtain ⟨outs, houts, hwell₁, hexits, hdrifts⟩ := walkLoop_drifts (w := { state := s }) hwell hloop
  refine ⟨s, outs, hs, houts, ?_⟩
  have hbefore : ({ state := s } : PaperWalk).booked S = 10 ^ 8 * S := by
    rw [hstate, PaperWalk.booked]
    simp only [List.sum_nil]
    ring
  -- nothing remains after the forced exit
  have hend : w.state.remainingBps = 0 ∧ w.exits.length ≤ w₁.exits.length + 1 ∧
      Drifts S [] w₁ w := by
    obtain ⟨w', hw', hcase⟩ := forceExit_eq_ok args draws S hwell₁
    obtain rfl := Except.ok.inj (hforce.symm.trans hw')
    rcases hcase with ⟨rfl, hnil | hzero⟩ | ⟨last, -, hopen, rfl⟩
    · exact absurd hnil hpath
    · exact ⟨hzero, Nat.le_succ _, .of_kept rfl rfl rfl⟩
    · have hone : (w₁.exits ++ [(ExitReason.timeout, 10000)]).length = w₁.exits.length + 1 := by
        simp
      exact ⟨rfl, hone.le, .of_sold_out rfl rfl hone⟩
  obtain ⟨hzero, hlength, hlast⟩ := hend
  have hall := hdrifts.trans hlast
  rw [List.append_nil] at hall
  have hafter : w.booked S = 10 ^ 8 * w.sold.sum := by
    rw [PaperWalk.booked, hzero, mul_zero, mul_zero, add_zero]
  have hhigh := hall.high
  have hlow := hall.low
  simp only [List.length_nil] at hlow hexits
  rw [hbefore, hafter] at hhigh hlow
  exact ⟨by omega, by omega, by omega⟩

/-- **What every sale keeps holds of a walk.** -/
theorem walk_keeps {P : ℤ → ℤ → Prop} {w : PaperWalk} (hkept : ∀ m ∈ args.path, KeptBySale P m)
    (hzero : P 0 0) (h : walk config args draws S = .ok w) : P w.proceeds w.sold.sum := by
  obtain ⟨hS, s, hs, w₁, hloop, hforce⟩ := walk_eq_ok.1 h
  obtain ⟨hwell, stop, hstate⟩ := ExitState.atEntry_eq_ok hs
  obtain ⟨hw₁, hwell₁, hentry⟩ := walkLoop_keeps (w := { state := s }) hwell hS (by rw [hstate])
    hkept hzero hloop
  obtain ⟨w', hw', hcase⟩ := forceExit_eq_ok args draws S hwell₁
  obtain rfl := Except.ok.inj (hforce.symm.trans hw')
  rcases hcase with ⟨rfl, -⟩ | ⟨last, hlast, hopen, rfl⟩
  · exact hw₁
  · have hheld : 0 ≤ S * w₁.state.remainingBps / 10000 :=
      Int.ediv_nonneg (Int.mul_nonneg hS.le hopen.le) (by decide)
    rw [realizedR_mark hwell₁ hentry]
    exact (hkept last (List.mem_of_getLast? hlast)).sell hw₁ hheld .secure .timeout 10000

/-- On a path with no mark above the entry price a walk brings at most what it sells. -/
theorem walk_proceeds_le {w : PaperWalk}
    (hmarks : ∀ m ∈ args.path, args.entryFillPrice * m ≤ args.entryFillPrice)
    (h : walk config args draws S = .ok w) : w.proceeds ≤ w.sold.sum := by
  obtain ⟨-, s, hs, -⟩ := walk_eq_ok.1 h
  obtain ⟨hwell, stop, rfl⟩ := ExitState.atEntry_eq_ok hs
  refine walk_keeps (P := fun proceeds sold => proceeds ≤ sold) (fun m hm => ?_) le_rfl h
  intro proceeds sold notional mode draw hnotional hle
  have hone : m ≤ 1 := by
    have hm := hmarks m hm
    rwa [mul_le_iff_le_one_right hwell.entry] at hm
  exact add_le_add hle (sellProceeds_le hnotional hone mode draw)

/-- Where no mark is negative, a walk brings no loss beyond the position. -/
theorem walk_proceeds_nonneg {w : PaperWalk} (hmarks : ∀ m ∈ args.path, 0 ≤ m)
    (h : walk config args draws S = .ok w) : 0 ≤ w.proceeds := by
  refine walk_keeps (P := fun proceeds _ => 0 ≤ proceeds) (fun m hm => ?_) le_rfl h
  intro proceeds sold notional mode draw hnotional hle
  exact add_nonneg hle (sellProceeds_nonneg hnotional (hmarks m hm) mode draw)

theorem carry_nonneg (outs : List (ℤ × ℤ)) : 0 ≤ carry outs := by
  induction outs with
  | nil => exact le_rfl
  | cons out outs ih =>
      have hone := Int.emod_nonneg (out.1 * out.2) (show (10000 : ℤ) ≠ 0 by decide)
      rw [carry, List.map_cons, List.sum_cons]
      exact add_nonneg hone ih

theorem carry_eq_zero_iff {outs : List (ℤ × ℤ)} :
    carry outs = 0 ↔ ∀ out ∈ outs, (10000 : ℤ) ∣ out.1 * out.2 := by
  induction outs with
  | nil => simp [carry]
  | cons out outs ih =>
      have hone := Int.emod_nonneg (out.1 * out.2) (show (10000 : ℤ) ≠ 0 by decide)
      have hrest := carry_nonneg outs
      have hcons : carry (out :: outs) = out.1 * out.2 % 10000 + carry outs := by simp [carry]
      rw [hcons, List.forall_mem_cons, ← ih, Int.dvd_iff_emod_eq_zero]
      omega

/-- Where the engine takes the path, every walk along it returns. -/
theorem walk_returns {s : ExitState} {outs : List (ℤ × ℤ)} (draws : ℕ → ℚ) (hS : 0 < S)
    (hs : ExitState.atEntry args.mint args.entryFillPrice config = .ok s)
    (houts : scaleOuts config args 0 args.path s = .ok outs) :
    ∃ w, walk config args draws S = .ok w := by
  obtain ⟨w₁, hloop⟩ := walkLoop_returns draws S (w := { state := s }) houts
  obtain ⟨-, -, hwell₁, -⟩ :=
    walkLoop_drifts (w := { state := s }) (ExitState.atEntry_eq_ok hs).1 hloop
  obtain ⟨w, hw, -⟩ := forceExit_eq_ok args draws S hwell₁
  exact ⟨w, walk_eq_ok.2 ⟨hS, s, hs, w₁, hloop, hw⟩⟩

/-- **The paper walk conserves every position** exactly where the rungs it fires take whole basis
points.  A rung that does not leaves part of a basis point on the book, where a large enough
position sells it again. -/
theorem conserves_iff (config : ExitConfig) (args : WalkArgs) (draws : ℕ → ℚ) :
    (∀ S, 0 < S → Conserves config args draws S) ↔ WholeRungs config args := by
  constructor
  · intro hconserves s outs hs houts
    have hpath : args.path ≠ [] := by
      intro hnil
      -- nothing is sold along no path
      obtain ⟨w, hw⟩ := walk_returns (S := 1) draws one_pos hs houts
      obtain ⟨-, s', -, w₁, hloop, hforce⟩ := walk_eq_ok.1 hw
      rw [hnil] at hloop
      obtain rfl := Except.ok.inj hloop
      rw [forceExit, hnil] at hforce
      obtain rfl := Except.ok.inj hforce
      have hshort := (hconserves 1 one_pos _ hw).2.1
      simp at hshort
    refine ⟨hpath, carry_eq_zero_iff.1 ?_⟩
    -- a carry outweighs the floors of a large enough position
    have hS : (0 : ℤ) < 2 * 10 ^ 8 * (args.path.length + 1) + 1 := by omega
    obtain ⟨w, hw⟩ := walk_returns draws hS hs houts
    obtain ⟨s', outs', hs', houts', hexits, -, hlow⟩ := walk_sold hpath hw
    obtain rfl := Except.ok.inj (hs.symm.trans hs')
    obtain rfl := Except.ok.inj (houts.symm.trans houts')
    have hle := (hconserves _ hS w hw).1
    have hnonneg := carry_nonneg outs
    by_contra hne
    have hone : 1 ≤ carry outs := by omega
    have hmul : (2 * 10 ^ 8 * (args.path.length + 1) + 1 : ℤ) * 1 ≤
        (2 * 10 ^ 8 * (args.path.length + 1) + 1) * carry outs :=
      Int.mul_le_mul_of_nonneg_left hone hS.le
    omega
  · intro hwhole S hS w hw
    obtain ⟨-, s, hs, w₁, hloop, -⟩ := walk_eq_ok.1 hw
    obtain ⟨outs, houts, -⟩ :=
      walkLoop_drifts (w := { state := s }) (ExitState.atEntry_eq_ok hs).1 hloop
    obtain ⟨hpath, hdvd⟩ := hwhole s outs hs houts
    obtain ⟨s', outs', hs', houts', -, hhigh, hlow⟩ := walk_sold hpath hw
    obtain rfl := Except.ok.inj (hs.symm.trans hs')
    obtain rfl := Except.ok.inj (houts.symm.trans houts')
    rw [carry_eq_zero_iff.2 hdvd, mul_zero] at hhigh hlow
    have hsold : w.sold.sum ≤ S := by omega
    exact ⟨hsold, by omega, fun hmarks => (walk_proceeds_le hmarks hw).trans hsold⟩

theorem firstTrigger_pos : (0 : ℚ) < 2 := by norm_num

theorem secondTrigger_pos : (0 : ℚ) < 3 := by norm_num

theorem third_range : 1 ≤ (3333 : ℤ) ∧ (3333 : ℤ) ≤ 9999 := by decide

/-- Two rungs of a third. -/
def thirds : ExitConfig where
  toExitParams := { secureBalanced with
    tpLadder := [⟨2, 3333, firstTrigger_pos, third_range⟩, ⟨3, 3333, secondTrigger_pos, third_range⟩]
    ratchetLadder := [] }
  valid := by decide +kernel

/-- The path to the first rung and on to the second. -/
def upThroughBoth : WalkArgs where
  mint := "mint"
  entryFillPrice := 1
  path := [2, 3]

/-- A position of one SOL is sold for 11110 lamports more than there are. -/
theorem thirds_oversell : ¬ Conserves thirds upThroughBoth (fun _ => 1) 1000000000 := by
  intro h
  obtain ⟨w, hw, hsold⟩ := exists_ok_of_any (x := walk thirds upThroughBoth (fun _ => 1) 1000000000)
    (p := fun w => decide (w.sold.sum = 1000011110)) (by decide +kernel)
  have hle := (h w hw).1
  have hsold := of_decide_eq_true hsold
  omega

end Conservation

end Backtest
end AatsSniper

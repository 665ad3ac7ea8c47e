/-
# The remains-sellable gate

`simulate_exit_slippage_bps`, `remains_sellable_at_size`, `classify_regime` and
`build_regime_outcome` of `aats/models/regime_labels.py`: a coin is a rug in progress as soon as
a position could not be sold into one of the later pools.

The pool keeps the quotient `k // new_reserve_tok` of its SOL, so the seller is also paid what the
rounding drops.  The sale is refused where the dropped part brings the price back to the spot
(`simulateExitSlippageBps_eq_none`), and is otherwise reported below its exact slippage where the
dropped part is worth more than the fraction of a basis point that is cut off anyway
(`exact_le_slipBps_iff`).

Ratios and prices are floats in the source and rationals here.
-/

import AatsSniper.Lib.ConstantProduct
import AatsSniper.Lib.Decimal
import AatsSniper.Models.LabelJoin

namespace AatsSniper
namespace Models

/-! ### The simulated exit -/

/-- `sol_out` of `simulate_exit_slippage_bps`. -/
def solOut (solReserveLamports tokenReserveBase tokensInBase : ℤ) : ℤ :=
  let k := solReserveLamports * tokenReserveBase
  let newReserveTok := tokenReserveBase + tokensInBase
  let newReserveSol := k.fdiv newReserveTok
  solReserveLamports - newReserveSol

/-- `simulate_exit_slippage_bps(sol_reserve_lamports, token_reserve_base, tokens_in_base)`. -/
def simulateExitSlippageBps (solReserveLamports tokenReserveBase tokensInBase : ℤ) : Option ℤ :=
  if solReserveLamports ≤ 0 ∨ tokenReserveBase ≤ 0 ∨ tokensInBase ≤ 0 then none
  else
    let out := solOut solReserveLamports tokenReserveBase tokensInBase
    if out ≤ 0 then none
    else
      let spotPrice : ℚ := solReserveLamports / tokenReserveBase
      let effPrice : ℚ := out / tokensInBase
      if spotPrice ≤ 0 then none
      else if spotPrice ≤ effPrice then none
      else
        let slipFraction := (spotPrice - effPrice) / spotPrice
        let slipBps := truncate (slipFraction * 10000)
        some (max 0 slipBps)

/-- `RegimeOutcomeSample`. -/
structure RegimeOutcomeSample where
  outcomeSlot : ℕ
  solReserveLamports : ℤ
  tokenReserveBase : ℤ
  holderCount : ℤ
  spotPriceRatio : ℚ

/-- The loop of `remains_sellable_at_size`. -/
def sellableLoop (decisionRelevantSizeBase maxSlippageBps : ℤ) :
    List RegimeOutcomeSample → Bool × Option ℕ
  | [] => (true, none)
  | s :: samples =>
      match simulateExitSlippageBps s.solReserveLamports s.tokenReserveBase
          decisionRelevantSizeBase with
      | none => (false, some s.outcomeSlot)
      | some slip =>
          if maxSlippageBps < slip then (false, some s.outcomeSlot)
          else sellableLoop decisionRelevantSizeBase maxSlippageBps samples

/-- `remains_sellable_at_size(samples, decision_relevant_size_base, max_slippage_bps)`. -/
def remainsSellableAtSize (samples : List RegimeOutcomeSample)
    (decisionRelevantSizeBase maxSlippageBps : ℤ) : Except String (Bool × Option ℕ) := do
  require (0 < decisionRelevantSizeBase)
    s!"decision_relevant_size_base must be > 0 (a real exit size), got {decisionRelevantSizeBase}"
  if samples = [] then return (false, none)
  return sellableLoop decisionRelevantSizeBase maxSlippageBps samples

/-! ### The classifier -/

/-- `assert_slow_loop_only(loop)`. -/
def assertSlowLoopOnly (loop : String) : Except String Unit :=
  require (loop = "slow")
    s!"survivor model is SLOW-loop only (loop='slow'); refused to run on loop='{loop}'. The survivor brain never runs on the FAST/SNIPE path (BLUEPRINT triple-loop boundary; metrics tft_survivor budget = 500ms slow-loop)."

/-- `classify_regime(...)`. -/
def classifyRegime (remainedSellable : Bool)
    (netReturnRatio maxDrawdownRatio holderDeltaRatio : ℚ) (loop : String) :
    Except String RegimeLabel := do
  assertSlowLoopOnly loop
  if remainedSellable = false then return .rugInProgress
  if netReturnRatio ≤ -0.25 ∨ 0.50 ≤ maxDrawdownRatio ∧ netReturnRatio < 0 ∨
      holderDeltaRatio ≤ -0.20 then return .distribution
  if 0.20 ≤ netReturnRatio ∧ 0.10 ≤ holderDeltaRatio ∧ maxDrawdownRatio ≤ 0.40 then
    return .accumulation
  return .neutral

/-! ### The label row -/

/-- The forward-window gate of `build_regime_outcome`, from the slot before. -/
def forwardWindowGate (dSlot rSlot : ℕ) : Option ℕ → List RegimeOutcomeSample → Except String Unit
  | _, [] => .ok ()
  | prevSlot, s :: samples => do
      require (dSlot < s.outcomeSlot)
        s!"outcome sample slot {s.outcomeSlot} is <= the decision slot {dSlot}. The label may only read the STRICTLY-forward outcome window; a sample at/before the decision is a leak."
      require (s.outcomeSlot ≤ rSlot)
        s!"outcome sample slot {s.outcomeSlot} is beyond the resolution slot {rSlot}. The label may not read past its declared horizon."
      require (∀ prev ∈ prevSlot, prev < s.outcomeSlot)
        s!"outcome samples out of order: slot {s.outcomeSlot} <= previous {prevSlot.getD 0}. Forward samples must be strictly increasing in slot."
      forwardWindowGate dSlot rSlot (some s.outcomeSlot) samples

/-- One turn of the drawdown loop, over the running peak and the worst drawdown. -/
def drawdownStep (acc : ℚ × ℚ) (s : RegimeOutcomeSample) : ℚ × ℚ :=
  let runningPeak := if acc.1 < s.spotPriceRatio then s.spotPriceRatio else acc.1
  let dd := (runningPeak - s.spotPriceRatio) / runningPeak
  (runningPeak, if 0 < runningPeak ∧ acc.2 < dd then dd else acc.2)

/-- `RegimeOutcome(...)` with its `__post_init__`. -/
def RegimeOutcome.new (mint : String) (eventTime : EventTime) (labelHorizonHSlots : ℕ)
    (resolutionEventTime : EventTime) (label : RegimeLabel) (remainedSellable : Bool)
    (firstUnsellableSlot : Option ℕ) : Except String RegimeOutcome :=
  if hhorizon : 0 < labelHorizonHSlots then
    if hslot : resolutionEventTime.slot = eventTime.slot + labelHorizonHSlots then
      if htime : eventTime.blockTimeMs < resolutionEventTime.blockTimeMs then
        if hunsellable : remainedSellable = true ↔ firstUnsellableSlot = none then
          .ok ⟨mint, eventTime, labelHorizonHSlots, resolutionEventTime, label, remainedSellable,
            firstUnsellableSlot, hhorizon, hslot, htime, hunsellable⟩
        else if remainedSellable = true then
          .error s!"remained_sellable=True is inconsistent with a first_unsellable_slot; got {firstUnsellableSlot.getD 0}."
        else
          .error "remained_sellable=False requires a first_unsellable_slot (the slot it collapsed); got None."
      else
        .error s!"resolution_event_time (slot={resolutionEventTime.slot}, bt={resolutionEventTime.blockTimeMs}) is NOT strictly after the decision anchor (slot={eventTime.slot}, bt={eventTime.blockTimeMs}). A regime label MUST resolve forward; a non-forward resolution is a leak."
    else
      .error s!"resolution slot {resolutionEventTime.slot} != decision slot {eventTime.slot} + horizon {labelHorizonHSlots}. The stamped horizon does not match the declared one — the label's forward-resolution proof is inconsistent."
  else
    .error s!"label_horizon_h_slots must be > 0 (a real forward horizon), got {labelHorizonHSlots}"

/-- `build_regime_outcome(...)`. -/
def buildRegimeOutcome (mint : String) (decisionEventTime resolutionEventTime : EventTime)
    (labelHorizonHSlots : ℕ) (decisionReferencePriceRatio : ℚ)
    (decisionReferenceHolderCount : ℤ) (outcomeSamples : List RegimeOutcomeSample)
    (decisionRelevantSizeBase maxSlippageBps : ℤ) (loop : String) :
    Except String RegimeOutcome := do
  assertSlowLoopOnly loop
  require (0 < decisionReferencePriceRatio) "decision_reference_price_ratio must be > 0"
  require (0 < decisionReferenceHolderCount)
    s!"decision_reference_holder_count must be > 0, got {decisionReferenceHolderCount}"
  match outcomeSamples.getLast? with
  | none =>
      .error "outcome_samples is empty — a regime label needs a strictly-forward outcome window to resolve; refuse-by-default (never fabricate one)."
  | some last =>
      forwardWindowGate decisionEventTime.slot resolutionEventTime.slot none outcomeSamples
      let (remainedSellable, firstUnsellableSlot) ←
        remainsSellableAtSize outcomeSamples decisionRelevantSizeBase maxSlippageBps
      let netReturnRatio := last.spotPriceRatio / decisionReferencePriceRatio - 1
      let holderDeltaRatio : ℚ :=
        (last.holderCount - decisionReferenceHolderCount) / decisionReferenceHolderCount
      let maxDrawdownRatio :=
        (outcomeSamples.foldl drawdownStep (decisionReferencePriceRatio, 0)).2
      let label ← classifyRegime remainedSellable netReturnRatio maxDrawdownRatio
        holderDeltaRatio loop
      RegimeOutcome.new mint decisionEventTime labelHorizonHSlots resolutionEventTime label
        remainedSellable firstUnsellableSlot

/-! ### The slippage against that of the exact pool -/

/-- A sale the simulation refuses: a reserve is gone, or the dropped part brings the price back
to the spot. -/
def SaleRefused (x y d : ℤ) : Prop := x ≤ 0 ∨ y ≤ 0 ∨ d * d * x ≤ y * (y * x % (y + d))

/-- What the rounding drops is worth no more than the fraction of a basis point that is cut off
anyway. -/
def RoundingHidden (x y d : ℤ) : Prop :=
  10000 * (y * (y * x % (y + d))) ≤ d * x * (10000 * d % (y + d))

instance (x y d : ℤ) : Decidable (SaleRefused x y d) :=
  inferInstanceAs (Decidable (_ ∨ _ ∨ _))

instance (x y d : ℤ) : Decidable (RoundingHidden x y d) :=
  inferInstanceAs (Decidable (_ ≤ _))

section Slippage

variable {x y d d' : ℤ}

theorem solOut_eq (x y d : ℤ) : solOut x y d = ConstantProduct.paid y x d := by
  rw [solOut, ConstantProduct.paid, ConstantProduct.kept, mul_comm x y]

/-- What the seller is paid: the exact share and what was dropped. -/
theorem solOut_mul (hy : 0 < y) (hd : 0 < d) :
    solOut x y d * (y + d) = x * d + y * x % (y + d) := by
  rw [solOut_eq]
  exact ConstantProduct.paid_mul (by omega)

theorem solOut_pos (hx : 0 < x) (hy : 0 < y) (hd : 0 < d) : 0 < solOut x y d := by
  rw [solOut_eq]
  exact ConstantProduct.paid_pos hy hx hd

/-- How far the price of the sale is below the spot. -/
def exitFraction (x y d : ℤ) : ℚ := (x / y - solOut x y d / d) / (x / y)

/-- The exact slippage less what was dropped. -/
theorem exitFraction_eq (hx : 0 < x) (hy : 0 < y) (hd : 0 < d) :
    exitFraction x y d =
      (d * d * x - y * (y * x % (y + d) : ℤ)) / (d * x * (y + d)) := by
  have hx' : (0 : ℚ) < x := by exact_mod_cast hx
  have hy' : (0 : ℚ) < y := by exact_mod_cast hy
  have hd' : (0 : ℚ) < d := by exact_mod_cast hd
  have hout : (solOut x y d * (y + d) : ℚ) = x * d + (y * x % (y + d) : ℤ) := by
    exact_mod_cast solOut_mul (x := x) hy hd
  have hsum : (y + d : ℚ) ≠ 0 := (add_pos hy' hd').ne'
  unfold exitFraction
  field_simp
  linear_combination -y * hout

/-- The price reaches the spot exactly where the dropped part makes up for the impact. -/
theorem spot_le_effPrice_iff (hy : 0 < y) (hd : 0 < d) :
    (x / y : ℚ) ≤ solOut x y d / d ↔ d * d * x ≤ y * (y * x % (y + d)) := by
  have hy' : (0 : ℚ) < y := by exact_mod_cast hy
  have hd' : (0 : ℚ) < d := by exact_mod_cast hd
  have hout := solOut_mul (x := x) hy hd
  have hsum : 0 < y + d := by omega
  rw [div_le_div_iff₀ hy' hd']
  have hcast : (x * d : ℚ) ≤ solOut x y d * y ↔ x * d ≤ solOut x y d * y := by
    exact_mod_cast Iff.rfl
  rw [hcast, ← mul_le_mul_iff_left₀ hsum]
  have hleft : x * d * (y + d) = x * d * y + d * d * x := by ring
  have hright : solOut x y d * y * (y + d) = x * d * y + y * (y * x % (y + d)) := by
    linear_combination y * hout
  rw [hleft, hright]
  exact Int.add_le_add_iff_left _

theorem simulateExitSlippageBps_eq_none (hd : 0 < d) :
    simulateExitSlippageBps x y d = none ↔ SaleRefused x y d := by
  unfold simulateExitSlippageBps SaleRefused
  by_cases hx : 0 < x
  · by_cases hy : 0 < y
    · have hout := solOut_pos hx hy hd
      have hspot : (0 : ℚ) < x / y := div_pos (by exact_mod_cast hx) (by exact_mod_cast hy)
      dsimp only
      rw [if_neg (by omega), if_neg (by omega), if_neg (not_le.2 hspot)]
      have hlt := spot_le_effPrice_iff (x := x) hy hd
      split_ifs with heff
      · exact iff_of_true rfl (Or.inr (Or.inr (hlt.1 heff)))
      · refine iff_of_false (by simp) ?_
        rintro (hx' | hy' | hdrained)
        · omega
        · omega
        · exact heff (hlt.2 hdrained)
    · rw [if_pos (by omega)]
      exact iff_of_true rfl (Or.inr (Or.inl (by omega)))
  · rw [if_pos (by omega)]
    exact iff_of_true rfl (Or.inl (by omega))

theorem exitFraction_pos (hd : 0 < d) (h : ¬ SaleRefused x y d) : 0 < exitFraction x y d := by
  unfold SaleRefused at h
  push Not at h
  obtain ⟨hx, hy, hlt⟩ := h
  have hx' : (0 : ℚ) < x := by exact_mod_cast hx
  have hy' : (0 : ℚ) < y := by exact_mod_cast hy
  have hd' : (0 : ℚ) < d := by exact_mod_cast hd
  rw [exitFraction_eq hx hy hd]
  refine div_pos (sub_pos.2 ?_) (mul_pos (mul_pos hd' hx') (add_pos hy' hd'))
  exact_mod_cast hlt

/-- A sale that is not refused is reported in whole basis points. -/
theorem simulateExitSlippageBps_eq (hd : 0 < d) (h : ¬ SaleRefused x y d) :
    simulateExitSlippageBps x y d = some ⌊exitFraction x y d * 10000⌋ := by
  have hpos := exitFraction_pos hd h
  unfold SaleRefused at h
  push Not at h
  obtain ⟨hx, hy, hlt⟩ := h
  have hout := solOut_pos hx hy hd
  have hspot : (0 : ℚ) < x / y := div_pos (by exact_mod_cast hx) (by exact_mod_cast hy)
  have heff : ¬ (x / y : ℚ) ≤ solOut x y d / d :=
    fun hle => absurd ((spot_le_effPrice_iff hy hd).1 hle) (not_le.2 hlt)
  have hnonneg : 0 ≤ exitFraction x y d * 10000 := by positivity
  unfold simulateExitSlippageBps
  dsimp only
  rw [if_neg (by omega), if_neg (by omega), if_neg (not_le.2 hspot), if_neg heff]
  rw [show ((x / y - solOut x y d / d) / (x / y) : ℚ) = exitFraction x y d from rfl,
    truncate_of_nonneg hnonneg, max_eq_right (Int.floor_nonneg.2 hnonneg)]

/-- The report is never above the exact slippage. -/
theorem slipBps_le_exact (hx : 0 < x) (hy : 0 < y) (hd : 0 < d) :
    ⌊exitFraction x y d * 10000⌋ ≤ 10000 * d / (y + d) := by
  have hx' : (0 : ℚ) < x := by exact_mod_cast hx
  have hy' : (0 : ℚ) < y := by exact_mod_cast hy
  have hd' : (0 : ℚ) < d := by exact_mod_cast hd
  have hdropped : (0 : ℚ) ≤ (y * x % (y + d) : ℤ) := by
    exact_mod_cast Int.emod_nonneg _ (show y + d ≠ 0 by omega)
  rw [← ConstantProduct.floor_bps (show 0 < y + d by omega)]
  refine Int.floor_mono (mul_le_mul_of_nonneg_right ?_ (by norm_num))
  push_cast
  rw [exitFraction_eq hx hy hd, div_le_div_iff₀ (by positivity) (by positivity)]
  have hcut : 0 ≤ y * ((y * x % (y + d) : ℤ) : ℚ) * (y + d) := by positivity
  linarith

/-- It is at least the exact one exactly where the rounding does not show. -/
theorem exact_le_slipBps_iff (hx : 0 < x) (hy : 0 < y) (hd : 0 < d) :
    10000 * d / (y + d) ≤ ⌊exitFraction x y d * 10000⌋ ↔ RoundingHidden x y d := by
  have hx' : (0 : ℚ) < x := by exact_mod_cast hx
  have hy' : (0 : ℚ) < y := by exact_mod_cast hy
  have hd' : (0 : ℚ) < d := by exact_mod_cast hd
  have hdenom : (0 : ℚ) < d * x * (y + d) := by positivity
  have hdiv := Int.ediv_mul_add_emod (10000 * d) (y + d)
  set q := 10000 * d / (y + d) with hq
  set m := 10000 * d % (y + d) with hm
  set r := y * x % (y + d) with hr
  have hfraction : exitFraction x y d * 10000 =
      ((10000 * (d * d * x - y * r) : ℤ) : ℚ) / (d * x * (y + d)) := by
    rw [exitFraction_eq hx hy hd, ← hr]
    push_cast
    ring
  rw [Int.le_floor, hfraction, le_div_iff₀ hdenom]
  have hcast : (q * (d * x * (y + d)) : ℚ) ≤ ((10000 * (d * d * x - y * r) : ℤ) : ℚ) ↔
      q * (d * x * (y + d)) ≤ 10000 * (d * d * x - y * r) := by
    exact_mod_cast Iff.rfl
  have hshare : q * (d * x * (y + d)) = 10000 * (d * d * x) - d * x * m := by
    linear_combination d * x * hdiv
  rw [hcast, hshare, RoundingHidden, ← hr, ← hm]
  constructor
  · intro h
    linarith
  · intro h
    linarith

/-- The exact slippage grows with the size. -/
theorem exact_mono (hy : 0 < y) (hd' : 0 < d') (hle : d' ≤ d) :
    10000 * d' / (y + d') ≤ 10000 * d / (y + d) := by
  have hy' : (0 : ℚ) < y := by exact_mod_cast hy
  have hsmall : (0 : ℚ) < d' := by exact_mod_cast hd'
  have hle' : (d' : ℚ) ≤ d := by exact_mod_cast hle
  rw [← ConstantProduct.floor_bps (show 0 < y + d' by omega),
    ← ConstantProduct.floor_bps (show 0 < y + d by omega)]
  refine Int.floor_mono (mul_le_mul_of_nonneg_right ?_ (by norm_num))
  push_cast
  rw [div_le_div_iff₀ (by linarith) (by linarith)]
  have := mul_le_mul_of_nonneg_right hle' hy'.le
  linarith

end Slippage

/-! ### The gate over the samples -/

/-- `remains_sellable_at_size` reports `(True, None)`. -/
def Sellable (samples : List RegimeOutcomeSample) (size maxSlippageBps : ℤ) : Prop :=
  remainsSellableAtSize samples size maxSlippageBps = .ok (true, none)

/-- The sample refuses a sale of the size. -/
def RegimeOutcomeSample.Refuses (s : RegimeOutcomeSample) (size : ℤ) : Prop :=
  SaleRefused s.solReserveLamports s.tokenReserveBase size

section Gate

variable {samples : List RegimeOutcomeSample} {size size' maxSlippageBps : ℤ}

theorem sellableLoop_eq (size maxSlippageBps : ℤ) (samples : List RegimeOutcomeSample) :
    sellableLoop size maxSlippageBps samples = (true, none) ↔
      ∀ s ∈ samples, ∃ slip, simulateExitSlippageBps s.solReserveLamports s.tokenReserveBase
        size = some slip ∧ slip ≤ maxSlippageBps := by
  induction samples with
  | nil => simp [sellableLoop]
  | cons s samples ih =>
      rw [sellableLoop, List.forall_mem_cons, ← ih]
      cases simulateExitSlippageBps s.solReserveLamports s.tokenReserveBase size with
      | none => simp
      | some slip =>
          dsimp only
          split_ifs with hslip
          · simp [hslip]
          · simp [not_lt.1 hslip]

/-- Sellable at a size: no sample refuses it and none reports more than the bound. -/
theorem sellable_iff (hsize : 0 < size) : Sellable samples size maxSlippageBps ↔
    samples ≠ [] ∧ ∀ s ∈ samples, ¬ s.Refuses size ∧
      ⌊exitFraction s.solReserveLamports s.tokenReserveBase size * 10000⌋ ≤ maxSlippageBps := by
  have hsample : ∀ s : RegimeOutcomeSample,
      (∃ slip, simulateExitSlippageBps s.solReserveLamports s.tokenReserveBase size = some slip ∧
        slip ≤ maxSlippageBps) ↔ ¬ s.Refuses size ∧
      ⌊exitFraction s.solReserveLamports s.tokenReserveBase size * 10000⌋ ≤ maxSlippageBps := by
    intro s
    by_cases hrefuses : s.Refuses size
    · rw [(simulateExitSlippageBps_eq_none hsize).2 hrefuses]
      simp [hrefuses]
    · rw [simulateExitSlippageBps_eq hsize hrefuses]
      simp [hrefuses]
  unfold Sellable remainsSellableAtSize
  rw [require_bind hsize]
  by_cases hempty : samples = []
  · rw [if_pos hempty]
    simp [hempty, pure, Except.pure]
  · rw [if_neg hempty]
    simp only [pure, Except.pure, Except.ok.injEq, sellableLoop_eq, hsample, ne_eq, hempty,
      not_false_eq_true, true_and]

/-- What the gate is to say of a size: the slippage of no sale is understated, a sellable size
has an exact slippage below the next basis point at every sample, and it leaves every smaller
size sellable. -/
structure SellabilityHonest (samples : List RegimeOutcomeSample) (size : ℤ) : Prop where
  slippage : ∀ s ∈ samples, 0 < s.solReserveLamports → 0 < s.tokenReserveBase →
    ∀ bps, simulateExitSlippageBps s.solReserveLamports s.tokenReserveBase size = some bps →
      10000 * size / (s.tokenReserveBase + size) ≤ bps
  sellable : ∀ maxSlippageBps, Sellable samples size maxSlippageBps → ∀ s ∈ samples,
    0 < s.solReserveLamports ∧ 0 < s.tokenReserveBase ∧
      (10000 * size / (s.tokenReserveBase + size) : ℚ) < maxSlippageBps + 1
  smaller : ∀ maxSlippageBps size', 0 < size' → size' ≤ size →
    Sellable samples size maxSlippageBps → Sellable samples size' maxSlippageBps

/-- A sample that does not refuse a size has both reserves. -/
theorem reserves_pos {s : RegimeOutcomeSample} (hkept : ¬ s.Refuses size) :
    0 < s.solReserveLamports ∧ 0 < s.tokenReserveBase := by
  unfold RegimeOutcomeSample.Refuses SaleRefused at hkept
  push Not at hkept
  exact ⟨hkept.1, hkept.2.1⟩

/-- No exit is reported above 10000, so a size that no sample refuses is sellable at that bound. -/
theorem sellable_at_full (hsize : 0 < size) (hnonempty : samples ≠ [])
    (hkept : ∀ s ∈ samples, ¬ s.Refuses size) : Sellable samples size 10000 := by
  refine (sellable_iff hsize).2 ⟨hnonempty, fun s hs => ⟨hkept s hs, ?_⟩⟩
  obtain ⟨hx, hy⟩ := reserves_pos (hkept s hs)
  calc _ ≤ 10000 * size / (s.tokenReserveBase + size) := slipBps_le_exact hx hy hsize
    _ ≤ 10000 := Int.ediv_le_of_le_mul (by omega) (by omega)

/-- Where the rounding does not show, a sellable size has the slippage it reports. -/
theorem exact_le_of_sellable (hsize : 0 < size) {s : RegimeOutcomeSample}
    (hhidden : s.Refuses size ∨ RoundingHidden s.solReserveLamports s.tokenReserveBase size)
    (hkept : ¬ s.Refuses size)
    (hmax : ⌊exitFraction s.solReserveLamports s.tokenReserveBase size * 10000⌋ ≤
      maxSlippageBps) :
    10000 * size / (s.tokenReserveBase + size) ≤ maxSlippageBps := by
  obtain ⟨hx, hy⟩ := reserves_pos hkept
  exact ((exact_le_slipBps_iff hx hy hsize).2 (hhidden.resolve_left hkept)).trans hmax

/-- Where the rounding does not show and no smaller size is refused, sellable at a size is
sellable at every smaller one. -/
theorem sellable_smaller (hsize' : 0 < size') (hlt : size' < size)
    (hhidden : ∀ s ∈ samples, s.Refuses size ∨
      RoundingHidden s.solReserveLamports s.tokenReserveBase size)
    (hfree : ∀ s ∈ samples, ∀ size', 0 < size' → size' < size → ¬ s.Refuses size')
    (h : Sellable samples size maxSlippageBps) : Sellable samples size' maxSlippageBps := by
  have hsize : 0 < size := hsize'.trans hlt
  obtain ⟨hnonempty, hsamples⟩ := (sellable_iff hsize).1 h
  refine (sellable_iff hsize').2 ⟨hnonempty, fun s hs => ⟨hfree s hs size' hsize' hlt, ?_⟩⟩
  obtain ⟨hkept, hmax⟩ := hsamples s hs
  obtain ⟨hx, hy⟩ := reserves_pos hkept
  calc _ ≤ 10000 * size' / (s.tokenReserveBase + size') := slipBps_le_exact hx hy hsize'
    _ ≤ 10000 * size / (s.tokenReserveBase + size) := exact_mono hy hsize' hlt.le
    _ ≤ maxSlippageBps := exact_le_of_sellable hsize (hhidden s hs) hkept hmax

/-- **The label flatters no pool** exactly where the rounding shows at no sample, and either some
sample refuses the size or none refuses a smaller one.  A sample refuses a size where a reserve is
gone, or where what the rounding drops brings the price back to the spot. -/
theorem sellabilityHonest_iff (hsize : 0 < size) : SellabilityHonest samples size ↔
    (∀ s ∈ samples, s.Refuses size ∨
      RoundingHidden s.solReserveLamports s.tokenReserveBase size) ∧
    ((∃ s ∈ samples, s.Refuses size) ∨
      ∀ s ∈ samples, ∀ size', 0 < size' → size' < size → ¬ s.Refuses size') := by
  constructor
  · intro h
    constructor
    · intro s hs
      by_cases hrefuses : s.Refuses size
      · exact Or.inl hrefuses
      · obtain ⟨hx, hy⟩ := reserves_pos hrefuses
        exact Or.inr ((exact_le_slipBps_iff hx hy hsize).1
          (h.slippage s hs hx hy _ (simulateExitSlippageBps_eq hsize hrefuses)))
    · by_cases hrefused : ∃ s ∈ samples, s.Refuses size
      · exact Or.inl hrefused
      · push Not at hrefused
        refine Or.inr fun s hs size' hsize' hlt => ?_
        have hsellable := sellable_at_full hsize (List.ne_nil_of_mem hs) hrefused
        have hsmall := h.smaller 10000 size' hsize' hlt.le hsellable
        exact (((sellable_iff hsize').1 hsmall).2 s hs).1
  · rintro ⟨hhidden, hsmaller⟩
    refine ⟨fun s hs hx hy bps hbps => ?_, fun maxSlippageBps hsellable s hs => ?_,
      fun maxSlippageBps size' hsize' hle hsellable => ?_⟩
    · have hkept : ¬ s.Refuses size := by
        intro hrefuses
        rw [(simulateExitSlippageBps_eq_none hsize).2 hrefuses] at hbps
        cases hbps
      rw [simulateExitSlippageBps_eq hsize hkept] at hbps
      obtain rfl := Option.some.inj hbps
      exact (exact_le_slipBps_iff hx hy hsize).2 ((hhidden s hs).resolve_left hkept)
    · obtain ⟨hkept, hmax⟩ := ((sellable_iff hsize).1 hsellable).2 s hs
      obtain ⟨hx, hy⟩ := reserves_pos hkept
      have hle := exact_le_of_sellable hsize (hhidden s hs) hkept hmax
      rw [← ConstantProduct.floor_bps (by omega), Int.floor_le_iff] at hle
      push_cast at hle
      refine ⟨hx, hy, ?_⟩
      calc (10000 * size / (s.tokenReserveBase + size) : ℚ)
          = size / (s.tokenReserveBase + size) * 10000 := by ring
        _ < maxSlippageBps + 1 := hle
    · rcases hle.eq_or_lt with rfl | hlt
      · exact hsellable
      · rcases hsmaller with ⟨s, hs, hrefuses⟩ | hfree
        · exact absurd hrefuses (((sellable_iff hsize).1 hsellable).2 s hs).1
        · exact sellable_smaller hsize' hlt hhidden hfree hsellable

/-- A pool of 10 and 1 loses nothing of a sale of 1 but the size itself. -/
theorem sellabilityHonest_sample : SellabilityHonest [⟨1, 10, 1, 100, 1⟩] 1 := by
  refine (sellabilityHonest_iff (by decide)).2 ⟨fun s hs => Or.inr ?_, Or.inr ?_⟩
  · obtain rfl := List.mem_singleton.1 hs
    decide
  · intro s _ size' hsize' hlt
    omega

/-- Selling 4 into a pool of 10 and 10 reads 2500 for an exact 2857; selling 5 reads 2000 and is
sellable at that bound, selling 4 is not. -/
theorem sellability_flattered_ten_ten : ¬ SellabilityHonest [⟨1, 10, 10, 100, 1⟩] 4 ∧
    simulateExitSlippageBps 10 10 4 = some 2500 ∧ (10000 * 4 / (10 + 4) : ℤ) = 2857 ∧
    Sellable [⟨1, 10, 10, 100, 1⟩] 5 2000 ∧ ¬ Sellable [⟨1, 10, 10, 100, 1⟩] 4 2000 := by
  have hfour : simulateExitSlippageBps 10 10 4 = some 2500 := by decide +kernel
  have hfive : simulateExitSlippageBps 10 10 5 = some 2000 := by decide +kernel
  refine ⟨fun h => ?_, hfour, by decide, ?_, ?_⟩
  · have hbound := h.slippage _ List.mem_cons_self (by decide) (by decide) _ hfour
    exact absurd hbound (by decide)
  · unfold Sellable remainsSellableAtSize sellableLoop
    dsimp only
    rw [hfive]
    rfl
  · unfold Sellable remainsSellableAtSize sellableLoop
    dsimp only
    rw [hfour]
    exact fun h => Bool.false_ne_true (congrArg Prod.fst (Except.ok.inj h))

end Gate

/-! ### The label -/

section Label

variable {mint : String} {decisionEventTime resolutionEventTime : EventTime}
  {labelHorizonHSlots : ℕ} {decisionReferencePriceRatio : ℚ}
  {decisionReferenceHolderCount : ℤ} {outcomeSamples : List RegimeOutcomeSample}
  {decisionRelevantSizeBase maxSlippageBps : ℤ} {loop : String} {outcome : RegimeOutcome}

/-- Only an unsellable path is a rug in progress. -/
theorem classifyRegime_eq_rug {remainedSellable : Bool} {net drawdown holders : ℚ}
    {label : RegimeLabel}
    (h : classifyRegime remainedSellable net drawdown holders loop = .ok label) :
    label = .rugInProgress ↔ remainedSellable = false := by
  obtain ⟨_, -, h⟩ := ok_of_bind h
  cases remainedSellable with
  | false =>
      cases h
      simp
  | true =>
      simp only [Bool.true_eq_false, if_false] at h
      split_ifs at h with hdistribution haccumulation
      all_goals
        cases h
        simp

/-- What a returned outcome records. -/
theorem RegimeOutcome.of_new {mint : String} {eventTime resolution : EventTime} {horizon : ℕ}
    {label : RegimeLabel} {remained : Bool} {first : Option ℕ}
    (h : RegimeOutcome.new mint eventTime horizon resolution label remained first =
      .ok outcome) :
    outcome.label = label ∧ outcome.remainedSellable = remained ∧
      outcome.firstUnsellableSlot = first := by
  unfold RegimeOutcome.new at h
  split_ifs at h
  cases h
  exact ⟨rfl, rfl, rfl⟩

/-- A label is a rug in progress exactly where the gate found the path unsellable, so what the
gate says of a size is what the label says of it. -/
theorem buildRegimeOutcome_rug_iff
    (h : buildRegimeOutcome mint decisionEventTime resolutionEventTime labelHorizonHSlots
      decisionReferencePriceRatio decisionReferenceHolderCount outcomeSamples
      decisionRelevantSizeBase maxSlippageBps loop = .ok outcome) :
    outcome.label ≠ .rugInProgress ↔
      Sellable outcomeSamples decisionRelevantSizeBase maxSlippageBps := by
  unfold buildRegimeOutcome at h
  obtain ⟨_, -, h⟩ := ok_of_bind h
  obtain ⟨-, h⟩ := ok_of_require h
  obtain ⟨-, h⟩ := ok_of_require h
  split at h
  · cases h
  · obtain ⟨_, -, h⟩ := ok_of_bind h
    obtain ⟨⟨remained, first⟩, hgate, h⟩ := ok_of_bind h
    obtain ⟨label, hlabel, h⟩ := ok_of_bind h
    obtain ⟨rfl, rfl, rfl⟩ := RegimeOutcome.of_new h
    rw [Ne, classifyRegime_eq_rug hlabel, Bool.not_eq_false, Sellable, hgate]
    constructor
    · intro hremained
      rw [outcome.unsellable_iff.1 hremained, hremained]
    · intro hsellable
      exact congrArg Prod.fst (Except.ok.inj hsellable)

end Label

end Models
end AatsSniper

/-
# The liquidity-sanity gate

`aats/risk/liquidity_sanity.py` and `SimulationVenue._simulate_amm_entry` of
`aats/contracts/venue.py`: a candidate is refused when its pool is too thin for the position.

Both functions keep the quotient `k // new_reserve_sol` of the token reserve, so both pay the
tokens that the rounding drops.  The slippage they report is then at most that of the exact pool
(`slipFraction_le`), and the two agree with it where nothing is dropped.

The arithmetic of `Decimal` is exact here.  The text of the effective price and the telemetry sink
are left out.
-/

import AatsSniper.Lib.ConstantProduct
import AatsSniper.Lib.Decimal
import AatsSniper.Lib.Except

namespace AatsSniper
namespace Gate

/-- `tokens_out`, as both functions compute it. -/
def tokensOut (solReserveLamports tokenReserveBase solInLamports : ℤ) : ℤ :=
  let k := solReserveLamports * tokenReserveBase
  let newReserveSol := solReserveLamports + solInLamports
  let newReserveTok := k.fdiv newReserveSol
  tokenReserveBase - newReserveTok

/-- `slip_fraction`: how far the effective price is above the spot price. -/
def slipFraction (solReserveLamports tokenReserveBase solInLamports : ℤ) : ℚ :=
  let spotPrice : ℚ := solReserveLamports / tokenReserveBase
  let effPrice : ℚ :=
    solInLamports / tokensOut solReserveLamports tokenReserveBase solInLamports
  (effPrice - spotPrice) / spotPrice

/-- `simulate_entry_slippage_bps(sol_reserve_lamports, token_reserve_base, sol_in_lamports)`. -/
def simulateEntrySlippageBps (solReserveLamports tokenReserveBase solInLamports : ℤ) :
    Option ℤ :=
  if solReserveLamports ≤ 0 ∨ tokenReserveBase ≤ 0 ∨ solInLamports ≤ 0 then none
  else if tokensOut solReserveLamports tokenReserveBase solInLamports ≤ 0 then none
  else if (solReserveLamports / tokenReserveBase : ℚ) ≤ 0 then none
  else
    let slipBps :=
      truncate (slipFraction solReserveLamports tokenReserveBase solInLamports * 10000)
    some (max 0 slipBps)

/-- What `_simulate_amm_entry` returns. -/
structure AmmEntry where
  tokensOut : ℤ
  effPrice : ℚ
  entrySlippageBps : ℤ

/-- `_simulate_amm_entry(...)` of a venue with `ahead_size_lamports`. -/
def simulateAmmEntry (aheadSizeLamports solReserveLamports tokenReserveBase solInLamports
    buyersAhead : ℤ) : AmmEntry :=
  let effectiveReserveSol := solReserveLamports + buyersAhead * aheadSizeLamports
  let effectiveReserveTok := tokenReserveBase
  if effectiveReserveSol + solInLamports = 0 then ⟨0, 0, 0⟩
  else
    let out := Gate.tokensOut effectiveReserveSol effectiveReserveTok solInLamports
    if out ≤ 0 then ⟨0, 0, 0⟩
    else
      let spotPrice : ℚ := effectiveReserveSol / effectiveReserveTok
      let entrySlippageBps :=
        if 0 < spotPrice then
          truncate (slipFraction effectiveReserveSol effectiveReserveTok solInLamports * 10000)
        else 0
      ⟨out, solInLamports / out, max 0 entrySlippageBps⟩

/-- The `ValueError`s of the gate's records. -/
inductive LiquidityError
  | maxSimSlippageBps
  | maxStalenessMs
  | minVolumeMultiple
  | eventBlockTimeMs
  | dataStalenessMs
  | intendedPositionLamports
  deriving DecidableEq

/-- The arguments of `LiquidityThresholds(...)`, with their defaults. -/
structure LiquidityParams where
  minVolumeMultiple : ℚ := 10
  maxSimSlippageBps : ℤ := 300
  maxStalenessMs : ℤ := 2000

/-- `LiquidityThresholds.__post_init__`. -/
def LiquidityParams.postInit (p : LiquidityParams) : Except LiquidityError Unit := do
  require (0 ≤ p.maxSimSlippageBps) .maxSimSlippageBps
  require (0 ≤ p.maxStalenessMs) .maxStalenessMs
  require (1 ≤ p.minVolumeMultiple) .minVolumeMultiple

/-- `LiquidityThresholds`: arguments that passed `__post_init__`. -/
structure LiquidityThresholds extends LiquidityParams where
  valid : toLiquidityParams.postInit = .ok ()

/-- The arguments of `LiquidityInputs(...)`. -/
structure LiquidityFacts where
  mint : String
  eventSlot : ℤ
  eventBlockTimeMs : ℤ
  dataStalenessMs : ℤ
  intendedPositionLamports : ℤ
  volume24hLamports : Option ℤ
  solReserveLamports : Option ℤ
  tokenReserveBase : Option ℤ

/-- `LiquidityInputs.__post_init__`. -/
def LiquidityFacts.postInit (f : LiquidityFacts) : Except LiquidityError Unit := do
  require (0 < f.eventBlockTimeMs) .eventBlockTimeMs
  require (0 ≤ f.dataStalenessMs) .dataStalenessMs
  require (0 < f.intendedPositionLamports) .intendedPositionLamports

/-- `LiquidityInputs`: arguments that passed `__post_init__`. -/
structure LiquidityInputs extends LiquidityFacts where
  valid : toLiquidityFacts.postInit = .ok ()

/-- `LiquidityReject`. -/
inductive LiquidityReject
  | volumeBelowMultiple
  | simSlippageTooHigh
  | inputIncomplete
  | inputStale
  deriving DecidableEq

/-- `LiquidityRejectHit`. -/
structure LiquidityRejectHit where
  reason : LiquidityReject
  measured : Option ℤ
  threshold : Option ℤ
  measuredRatio : Option ℚ := none

/-- `LiquidityVerdict`. -/
inductive LiquidityVerdict
  | pass
  | reject
  deriving DecidableEq

/-- `LiquidityDecision`. -/
structure LiquidityDecision where
  mint : String
  verdict : LiquidityVerdict
  rejects : List LiquidityRejectHit
  eventSlot : ℤ
  eventBlockTimeMs : ℤ

/-- `passed`. -/
def LiquidityDecision.passed (d : LiquidityDecision) : Prop := d.verdict = .pass

instance (d : LiquidityDecision) : Decidable d.passed :=
  inferInstanceAs (Decidable (d.verdict = .pass))

section Checks

variable (t : LiquidityThresholds) (inputs : LiquidityInputs)

/-- `required_int`: the multiple of the position, rounded up. -/
def requiredInt : ℤ :=
  let required : ℚ := t.minVolumeMultiple * inputs.intendedPositionLamports
  truncate required + if required ≠ truncate required then 1 else 0

/-- `_check_volume(inputs)`. -/
def checkVolume : Option LiquidityRejectHit :=
  match inputs.volume24hLamports with
  | none => some ⟨.inputIncomplete, none, none, none⟩
  | some vol =>
      if vol < requiredInt t inputs then
        some ⟨.volumeBelowMultiple, some vol, some (requiredInt t inputs),
          some (vol / inputs.intendedPositionLamports)⟩
      else none

/-- `_check_slippage(inputs)`. -/
def checkSlippage : Option LiquidityRejectHit :=
  match inputs.solReserveLamports, inputs.tokenReserveBase with
  | some sol, some tok =>
      match simulateEntrySlippageBps sol tok inputs.intendedPositionLamports with
      | none => some ⟨.inputIncomplete, none, none, none⟩
      | some slip =>
          if t.maxSimSlippageBps < slip then
            some ⟨.simSlippageTooHigh, some slip, some t.maxSimSlippageBps, none⟩
          else none
  | _, _ => some ⟨.inputIncomplete, none, none, none⟩

/-- The hit of data over the freshness budget. -/
def checkStale : Option LiquidityRejectHit :=
  if t.maxStalenessMs < inputs.dataStalenessMs then
    some ⟨.inputStale, some inputs.dataStalenessMs, some t.maxStalenessMs, none⟩
  else none

/-- `_reject(inputs, hits)`. -/
def LiquidityInputs.reject (hits : List LiquidityRejectHit) : LiquidityDecision where
  mint := inputs.mint
  verdict := .reject
  rejects := hits
  eventSlot := inputs.eventSlot
  eventBlockTimeMs := inputs.eventBlockTimeMs

/-- `_pass(inputs)`. -/
def LiquidityInputs.pass : LiquidityDecision where
  mint := inputs.mint
  verdict := .pass
  rejects := []
  eventSlot := inputs.eventSlot
  eventBlockTimeMs := inputs.eventBlockTimeMs

/-- `evaluate(inputs)`: the first hit refuses. -/
def evaluateLiquidity : LiquidityDecision :=
  match checkStale t inputs with
  | some hit => inputs.reject [hit]
  | none =>
      match checkVolume t inputs with
      | some hit => inputs.reject [hit]
      | none =>
          match checkSlippage t inputs with
          | some hit => inputs.reject [hit]
          | none => inputs.pass

/-- `scan_all(inputs)`: every hit is reported. -/
def scanAllLiquidity : LiquidityDecision :=
  let hits := (checkStale t inputs).toList ++ (checkVolume t inputs).toList ++
    (checkSlippage t inputs).toList
  if hits = [] then inputs.pass else inputs.reject hits

/-- `require_enabled_for_entry(decision)` of a gate with `enabled`. -/
def requireEnabledForEntry (enabled : Bool) (decision : LiquidityDecision) : Prop :=
  enabled = true ∧ decision.passed

end Checks

section Slippage

variable {x y d d' : ℤ}

theorem tokensOut_eq (x y d : ℤ) : tokensOut x y d = ConstantProduct.paid x y d := rfl

/-- The quotient of the two prices. -/
theorem slipFraction_eq (hx : 0 < x) (hy : 0 < y) (hd : 0 < d) :
    slipFraction x y d = (d * y - x * tokensOut x y d) / (x * tokensOut x y d) := by
  have hout : (0 : ℚ) < tokensOut x y d := by exact_mod_cast ConstantProduct.paid_pos hx hy hd
  have hx' : (0 : ℚ) < x := by exact_mod_cast hx
  have hy' : (0 : ℚ) < y := by exact_mod_cast hy
  unfold slipFraction
  dsimp only
  field_simp

/-- The tokens that the rounding drops are paid too, so the slippage is never above the exact
one. -/
theorem slipFraction_le (hx : 0 < x) (hy : 0 < y) (hd : 0 < d) :
    slipFraction x y d ≤ d / x := by
  have hout : (0 : ℚ) < tokensOut x y d := by exact_mod_cast ConstantProduct.paid_pos hx hy hd
  have hx' : (0 : ℚ) < x := by exact_mod_cast hx
  have hshare : (y * d : ℚ) ≤ tokensOut x y d * (x + d) := by
    have hpaid := ConstantProduct.paid_mul (y := y) (show 0 < x + d by omega)
    have hdropped := ConstantProduct.dropped_nonneg (y := y) (show 0 < x + d by omega)
    rw [← tokensOut_eq] at hpaid
    exact_mod_cast (show y * d ≤ tokensOut x y d * (x + d) by omega)
  rw [slipFraction_eq hx hy hd, div_le_div_iff₀ (mul_pos hx' hout) hx']
  have := mul_le_mul_of_nonneg_left hshare hx'.le
  linarith

/-- Where nothing is dropped the slippage is the exact one. -/
theorem slipFraction_eq_of_dvd (hx : 0 < x) (hy : 0 < y) (hd : 0 < d) (h : x + d ∣ x * y) :
    slipFraction x y d = d / x := by
  have hout : (0 : ℚ) < tokensOut x y d := by exact_mod_cast ConstantProduct.paid_pos hx hy hd
  have hx' : (0 : ℚ) < x := by exact_mod_cast hx
  have hshare : (y * d : ℚ) = tokensOut x y d * (x + d) := by
    have hpaid := ConstantProduct.paid_mul (y := y) (show 0 < x + d by omega)
    rw [← tokensOut_eq, ConstantProduct.dropped_eq_zero_iff.2 h] at hpaid
    exact_mod_cast (show y * d = tokensOut x y d * (x + d) by omega)
  rw [slipFraction_eq hx hy hd, div_eq_div_iff (mul_pos hx' hout).ne' hx'.ne']
  linear_combination x * hshare

/-- The slippage in whole basis points is at most the exact one. -/
theorem slipBps_le (hx : 0 < x) (hy : 0 < y) (hd : 0 < d) :
    max 0 (truncate (slipFraction x y d * 10000)) ≤ 10000 * d / x := by
  have hexact : (0 : ℚ) ≤ d / x * 10000 := by
    have : (0 : ℚ) < x := by exact_mod_cast hx
    have : (0 : ℚ) < d := by exact_mod_cast hd
    positivity
  rw [← ConstantProduct.floor_bps hx]
  refine max_le (Int.floor_nonneg.2 hexact) ?_
  by_cases hnonneg : 0 ≤ slipFraction x y d * 10000
  · rw [truncate_of_nonneg hnonneg]
    exact Int.floor_mono (mul_le_mul_of_nonneg_right (slipFraction_le hx hy hd) (by norm_num))
  · have hneg : slipFraction x y d * 10000 ≤ ((0 : ℤ) : ℚ) := by
      push_cast
      exact (not_le.1 hnonneg).le
    exact (truncate_le hneg).trans (Int.floor_nonneg.2 hexact)

theorem slipBps_eq_of_dvd (hx : 0 < x) (hy : 0 < y) (hd : 0 < d) (h : x + d ∣ x * y) :
    max 0 (truncate (slipFraction x y d * 10000)) = 10000 * d / x := by
  have hexact : (0 : ℚ) ≤ d / x * 10000 := by
    have : (0 : ℚ) < x := by exact_mod_cast hx
    have : (0 : ℚ) < d := by exact_mod_cast hd
    positivity
  rw [slipFraction_eq_of_dvd hx hy hd h, truncate_of_nonneg hexact,
    max_eq_right (Int.floor_nonneg.2 hexact), ConstantProduct.floor_bps hx]

theorem simulateEntrySlippageBps_eq (hx : 0 < x) (hy : 0 < y) (hd : 0 < d) :
    simulateEntrySlippageBps x y d =
      some (max 0 (truncate (slipFraction x y d * 10000))) := by
  have hout : 0 < tokensOut x y d := ConstantProduct.paid_pos hx hy hd
  have hx' : (0 : ℚ) < x := by exact_mod_cast hx
  have hy' : (0 : ℚ) < y := by exact_mod_cast hy
  unfold simulateEntrySlippageBps
  rw [if_neg (by omega), if_neg (by omega), if_neg (not_le.2 (div_pos hx' hy'))]

/-- With no buyers ahead, the venue fills as the probe simulates. -/
theorem simulateAmmEntry_eq (ahead : ℤ) (hx : 0 < x) (hy : 0 < y) (hd : 0 < d) :
    simulateAmmEntry ahead x y d 0 =
      ⟨tokensOut x y d, d / tokensOut x y d,
        max 0 (truncate (slipFraction x y d * 10000))⟩ := by
  have hout : 0 < tokensOut x y d := ConstantProduct.paid_pos hx hy hd
  have hx' : (0 : ℚ) < x := by exact_mod_cast hx
  have hy' : (0 : ℚ) < y := by exact_mod_cast hy
  unfold simulateAmmEntry
  dsimp only
  rw [zero_mul, add_zero, if_neg (by omega), if_neg (by omega), if_pos (div_pos hx' hy')]

end Slippage

section Passes

variable {t : LiquidityThresholds} {inputs smaller : LiquidityInputs}

theorem LiquidityThresholds.sound (t : LiquidityThresholds) :
    0 ≤ t.maxSimSlippageBps ∧ 0 ≤ t.maxStalenessMs ∧ 1 ≤ t.minVolumeMultiple := by
  have h := t.valid
  unfold LiquidityParams.postInit at h
  obtain ⟨hslippage, h⟩ := ok_of_require h
  obtain ⟨hstaleness, h⟩ := ok_of_require h
  exact ⟨hslippage, hstaleness, require_eq_ok.1 h⟩

theorem LiquidityInputs.position_pos (inputs : LiquidityInputs) :
    0 < inputs.intendedPositionLamports := by
  have h := inputs.valid
  unfold LiquidityFacts.postInit at h
  obtain ⟨-, h⟩ := ok_of_require h
  obtain ⟨-, h⟩ := ok_of_require h
  exact require_eq_ok.1 h

/-- The requirement is the multiple of the position, rounded up. -/
theorem requiredInt_eq (t : LiquidityThresholds) (inputs : LiquidityInputs) :
    requiredInt t inputs = ⌈t.minVolumeMultiple * inputs.intendedPositionLamports⌉ := by
  obtain ⟨-, -, hmultiple⟩ := t.sound
  have hposition : (0 : ℚ) < inputs.intendedPositionLamports := by
    exact_mod_cast inputs.position_pos
  set required : ℚ := t.minVolumeMultiple * inputs.intendedPositionLamports with hrequired
  have hnonneg : 0 ≤ required := mul_nonneg (by linarith) hposition.le
  unfold requiredInt
  dsimp only
  rw [← hrequired, truncate_of_nonneg hnonneg]
  split_ifs with hwhole
  · refine (Int.ceil_eq_iff.2 ⟨?_, ?_⟩).symm
    · push_cast
      have := lt_of_le_of_ne (Int.floor_le required) (Ne.symm hwhole)
      linarith
    · push_cast
      exact (Int.lt_floor_add_one required).le
  · have hwhole' : required = ⌊required⌋ := not_not.1 hwhole
    rw [add_zero]
    conv_rhs => rw [hwhole']
    exact (Int.ceil_intCast _).symm

/-- The volume needed grows with the position. -/
theorem requiredInt_mono
    (h : smaller.intendedPositionLamports ≤ inputs.intendedPositionLamports) :
    requiredInt t smaller ≤ requiredInt t inputs := by
  obtain ⟨-, -, hmultiple⟩ := t.sound
  have hle : (smaller.intendedPositionLamports : ℚ) ≤ inputs.intendedPositionLamports := by
    exact_mod_cast h
  rw [requiredInt_eq, requiredInt_eq]
  exact Int.ceil_mono (mul_le_mul_of_nonneg_left hle (by linarith))

theorem checkStale_eq_none :
    checkStale t inputs = none ↔ inputs.dataStalenessMs ≤ t.maxStalenessMs := by
  unfold checkStale
  split_ifs with h
  · simp [h]
  · simp [not_lt.1 h]

theorem checkVolume_eq_none : checkVolume t inputs = none ↔
    ∃ vol, inputs.volume24hLamports = some vol ∧ requiredInt t inputs ≤ vol := by
  unfold checkVolume
  cases inputs.volume24hLamports with
  | none => simp
  | some vol =>
      dsimp only
      split_ifs with h
      · simp [h]
      · simp [not_lt.1 h]

theorem checkSlippage_eq_none : checkSlippage t inputs = none ↔
    ∃ sol tok slip, inputs.solReserveLamports = some sol ∧ inputs.tokenReserveBase = some tok ∧
      simulateEntrySlippageBps sol tok inputs.intendedPositionLamports = some slip ∧
        slip ≤ t.maxSimSlippageBps := by
  unfold checkSlippage
  cases inputs.solReserveLamports with
  | none => simp
  | some sol =>
      cases inputs.tokenReserveBase with
      | none => simp
      | some tok =>
          cases hslip : simulateEntrySlippageBps sol tok inputs.intendedPositionLamports with
          | none => simp [hslip]
          | some slip =>
              dsimp only
              rw [hslip]
              dsimp only
              split_ifs with h
              · simp [h, hslip]
              · simp [not_lt.1 h, hslip]

/-- A pass is a pass of every check. -/
theorem evaluateLiquidity_passed : (evaluateLiquidity t inputs).passed ↔
    checkStale t inputs = none ∧ checkVolume t inputs = none ∧ checkSlippage t inputs = none := by
  unfold evaluateLiquidity LiquidityDecision.passed
  cases checkStale t inputs with
  | some hit => simp [LiquidityInputs.reject]
  | none =>
      cases checkVolume t inputs with
      | some hit => simp [LiquidityInputs.reject]
      | none =>
          cases checkSlippage t inputs with
          | some hit => simp [LiquidityInputs.reject]
          | none => simp [LiquidityInputs.pass]

/-- The dashboard's scan has the verdict of the hot path. -/
theorem scanAllLiquidity_passed :
    (scanAllLiquidity t inputs).passed ↔ (evaluateLiquidity t inputs).passed := by
  rw [evaluateLiquidity_passed]
  unfold scanAllLiquidity LiquidityDecision.passed
  dsimp only
  split_ifs with h
  · rw [List.append_eq_nil_iff, List.append_eq_nil_iff] at h
    simp only [Option.toList_eq_nil_iff] at h
    simp [LiquidityInputs.pass, h]
  · rw [List.append_eq_nil_iff, List.append_eq_nil_iff] at h
    simp only [Option.toList_eq_nil_iff] at h
    simp only [LiquidityInputs.reject, reduceCtorEq, false_iff]
    tauto

end Passes

/-- What the gate and the venue are to say of an entry of `d` into the reserves `x` and `y`: the
product of the reserves does not fall, the slippage is at least the exact one and the same in
both, and a position that passes does so at every smaller size. -/
structure ImpactNotUnderstated (x y d : ℤ) : Prop where
  reserves : x * y ≤ (x + d) * (y - tokensOut x y d)
  venueReserves : ∀ ahead, x * y ≤ (x + d) * (y - (simulateAmmEntry ahead x y d 0).tokensOut)
  slippage : ∃ bps, simulateEntrySlippageBps x y d = some bps ∧ 10000 * d / x ≤ bps ∧
    ∀ ahead, (simulateAmmEntry ahead x y d 0).entrySlippageBps = bps
  passes : ∀ (t : LiquidityThresholds) (inputs smaller : LiquidityInputs),
    inputs.solReserveLamports = some x → inputs.tokenReserveBase = some y →
    inputs.intendedPositionLamports = d → smaller.intendedPositionLamports ≤ d →
    smaller.toLiquidityFacts =
      { inputs.toLiquidityFacts with
        intendedPositionLamports := smaller.intendedPositionLamports } →
    (evaluateLiquidity t inputs).passed → (evaluateLiquidity t smaller).passed

section Impact

variable {x y d : ℤ}

/-- An exact size passes nothing that a smaller one would not. -/
theorem passes_smaller_of_dvd (hx : 0 < x) (hy : 0 < y) (hdvd : x + d ∣ x * y)
    {t : LiquidityThresholds} {inputs smaller : LiquidityInputs}
    (hsol : inputs.solReserveLamports = some x) (htok : inputs.tokenReserveBase = some y)
    (hposition : inputs.intendedPositionLamports = d)
    (hle : smaller.intendedPositionLamports ≤ d)
    (hsame : smaller.toLiquidityFacts =
      { inputs.toLiquidityFacts with
        intendedPositionLamports := smaller.intendedPositionLamports })
    (h : (evaluateLiquidity t inputs).passed) : (evaluateLiquidity t smaller).passed := by
  have hd : 0 < d := hposition ▸ inputs.position_pos
  have hd' := smaller.position_pos
  obtain ⟨hstale, hvolume, hslippage⟩ := evaluateLiquidity_passed.1 h
  refine evaluateLiquidity_passed.2 ⟨?_, ?_, ?_⟩
  · rw [checkStale_eq_none] at hstale ⊢
    rw [hsame]
    exact hstale
  · obtain ⟨vol, hvol, henough⟩ := checkVolume_eq_none.1 hvolume
    refine checkVolume_eq_none.2 ⟨vol, ?_, (requiredInt_mono (hposition ▸ hle)).trans henough⟩
    rw [hsame]
    exact hvol
  · obtain ⟨sol, tok, slip, hsol', htok', hslip, hmax⟩ := checkSlippage_eq_none.1 hslippage
    obtain rfl : x = sol := Option.some.inj (hsol.symm.trans hsol')
    obtain rfl : y = tok := Option.some.inj (htok.symm.trans htok')
    rw [hposition, simulateEntrySlippageBps_eq hx hy hd, slipBps_eq_of_dvd hx hy hd hdvd] at hslip
    have hbound : 10000 * smaller.intendedPositionLamports / x ≤ 10000 * d / x :=
      Int.ediv_le_ediv hx (by omega)
    refine checkSlippage_eq_none.2 ⟨x, y, _, ?_, ?_, simulateEntrySlippageBps_eq hx hy hd', ?_⟩
    · rw [hsame]
      exact hsol
    · rw [hsame]
      exact htok
    · calc _ ≤ 10000 * smaller.intendedPositionLamports / x := slipBps_le hx hy hd'
        _ ≤ 10000 * d / x := hbound
        _ = slip := Option.some.inj hslip
        _ ≤ t.maxSimSlippageBps := hmax

/-- **The simulated impact is never understated** exactly where the pool divides without a rest.
Where it does, the gate and the venue report the exact slippage and pass every smaller position;
where it does not, the tokens paid out are more than the product of the reserves allows. -/
theorem impactNotUnderstated_iff (hx : 0 < x) (hy : 0 < y) (hd : 0 < d) :
    ImpactNotUnderstated x y d ↔ x + d ∣ x * y := by
  have hkept : y - tokensOut x y d = ConstantProduct.kept x y d := by
    rw [tokensOut_eq, ConstantProduct.paid]
    omega
  have hreserves := ConstantProduct.mul_le_iff (y := y) (show 0 < x + d by omega)
  constructor
  · intro h
    exact hreserves.1 (hkept ▸ h.reserves)
  · intro hdvd
    refine ⟨?_, fun ahead => ?_, ⟨_, simulateEntrySlippageBps_eq hx hy hd, ?_, fun ahead => ?_⟩,
      fun t inputs smaller hsol htok hposition hle hsame =>
        passes_smaller_of_dvd hx hy hdvd hsol htok hposition hle hsame⟩
    · rw [hkept]
      exact hreserves.2 hdvd
    · rw [simulateAmmEntry_eq ahead hx hy hd, hkept]
      exact hreserves.2 hdvd
    · exact (slipBps_eq_of_dvd hx hy hd hdvd).ge
    · rw [simulateAmmEntry_eq ahead hx hy hd]

/-- A pool of 6 and 4 pays 1 for 2 without a rest. -/
theorem impactNotUnderstated_six_four : (6 : ℤ) + 2 ∣ 6 * 4 ∧ ImpactNotUnderstated 6 4 2 :=
  ⟨by decide, (impactNotUnderstated_iff (by decide) (by decide) (by decide)).2 (by decide)⟩

/-- A pool of 10 and 10 pays 4 for 5, where the exact share is 10 / 3: the product falls to 90 and
the slippage reads 2500 for 5000, less than the 3333 of the smaller size 4. -/
theorem impact_understated_ten_ten : ¬ ImpactNotUnderstated 10 10 5 ∧
    (10 + 5) * (10 - tokensOut 10 10 5) = 90 ∧
    simulateEntrySlippageBps 10 10 5 = some 2500 ∧
    simulateEntrySlippageBps 10 10 4 = some 3333 :=
  ⟨fun h => absurd h.reserves (by decide), by decide, by decide +kernel, by decide +kernel⟩

end Impact

end Gate
end AatsSniper

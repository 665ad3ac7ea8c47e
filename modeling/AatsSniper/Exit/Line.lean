/-
# The line of the survivable stop

The ladder stops out where `R ≤ hard_stop_r`; the stop that survives the process is
derived from it at entry, by way of a drawdown in whole basis points
(`stop_thresholds`, `derive_stop_trigger_price`).  The two are one line iff
`hard_stop_r` is a whole number of basis points: a finer ratio is truncated, and one
within a basis point of 0 or 1 passes the checks of `ExitConfig` and is refused at
entry.

The derivation is given for a rounding of its results: `id` is the exact
arithmetic of `Exit.Config`, `Decimal.round` the 28 digits of the context, where the
price times the ratio must have no more digits than that either.
-/

import AatsSniper.Exit.Engine

namespace AatsSniper
namespace Exit

section Derivation

variable (rnd : ℚ → ℚ)

/-- `stop_thresholds()`. -/
def ExitConfig.stopThresholdsBy (config : ExitConfig) : Except ExitError StopThresholds :=
  StopThresholds.new (truncate (rnd (rnd (1 - config.hardStopR) * 10000)))

/-- `derive_stop_trigger_price(entry_fill_price, thresholds)`. -/
def deriveStopTriggerPriceBy (entry : ℚ) (thresholds : StopThresholds) : Except ExitError ℚ := do
  require (0 < entry) (.entryFillPrice entry)
  return rnd (entry * rnd (rnd (10000 - thresholds.hardStopDrawdownBps) / 10000))

/-- `StopState.at_entry(mint, entry_fill_price, thresholds)`. -/
def StopState.atEntryBy (mint : String) (entry : ℚ) (thresholds : StopThresholds) :
    Except ExitError StopState := do
  let trigger ← deriveStopTriggerPriceBy rnd entry thresholds
  new mint entry trigger thresholds

/-- `ExitState.at_entry(mint, entry_fill_price, config)`. -/
def ExitState.atEntryBy (mint : String) (entry : ℚ) (config : ExitConfig) :
    Except ExitError ExitState := do
  let thresholds ← config.stopThresholdsBy rnd
  let stop ← StopState.atEntryBy rnd mint entry thresholds
  let s : ExitState := { mint := mint, entryFillPrice := entry, stop := stop }
  s.postInit
  return s

end Derivation

theorem atEntryBy_id (mint : String) (entry : ℚ) (config : ExitConfig) :
    ExitState.atEntryBy id mint entry config = ExitState.atEntry mint entry config := rfl

variable {rnd : ℚ → ℚ} {config : ExitConfig} {mint : String} {entry : ℚ}

/-- The entry succeeds, and its hard stop is breached exactly at and below the ratio. -/
def SharesLine (atEntry : Except ExitError ExitState) (config : ExitConfig) (entry : ℚ) : Prop :=
  ∃ s, atEntry = .ok s ∧
    ∀ mark, s.stop.isBreached mark = true ↔ mark / entry ≤ config.hardStopR

/-- The drawdown that the stop is derived with. -/
def drawdownBps (rnd : ℚ → ℚ) (config : ExitConfig) : ℤ :=
  truncate (rnd (rnd (1 - config.hardStopR) * 10000))

/-- The trigger price that the stop is derived with. -/
def triggerAt (rnd : ℚ → ℚ) (config : ExitConfig) (entry : ℚ) : ℚ :=
  rnd (entry * rnd (rnd (10000 - drawdownBps rnd config) / 10000))

/-- The drawdown is one of a stop, and its trigger is the ratio times the entry price. -/
def OnLine (rnd : ℚ → ℚ) (config : ExitConfig) (entry : ℚ) : Prop :=
  (0 < drawdownBps rnd config ∧ drawdownBps rnd config ≤ 10000) ∧
    triggerAt rnd config entry = entry * config.hardStopR

/-- `hard_stop_r` is a whole number of basis points. -/
def WholeBps (config : ExitConfig) : Prop := ∃ n : ℤ, config.hardStopR * 10000 = n

/-- What an entry that succeeds has derived. -/
theorem atEntryBy_eq_ok {s : ExitState} (h : ExitState.atEntryBy rnd mint entry config = .ok s) :
    (0 < drawdownBps rnd config ∧ drawdownBps rnd config ≤ 10000) ∧
      s.stop.triggerPrice = triggerAt rnd config entry := by
  unfold ExitState.atEntryBy at h
  obtain ⟨thresholds, hthresholds, h⟩ := ok_of_bind h
  obtain ⟨stop, hstop, h⟩ := ok_of_bind h
  obtain ⟨_, -, h⟩ := ok_of_bind h
  obtain rfl := Except.ok.inj h
  unfold ExitConfig.stopThresholdsBy StopThresholds.new at hthresholds
  split_ifs at hthresholds with hrange
  obtain rfl := Except.ok.inj hthresholds
  unfold StopState.atEntryBy deriveStopTriggerPriceBy at hstop
  obtain ⟨trigger, htrigger, hstop⟩ := ok_of_bind hstop
  obtain ⟨-, htrigger⟩ := ok_of_require htrigger
  obtain rfl := Except.ok.inj htrigger
  unfold StopState.new at hstop
  split_ifs at hstop
  obtain rfl := Except.ok.inj hstop
  exact ⟨hrange, rfl⟩

/-- The state of an entry passes its checks. -/
theorem postInit_of_fresh {stop : StopState} (hentry : 0 < entry) (hmint : stop.mint = mint) :
    ({ mint := mint, entryFillPrice := entry, stop := stop } : ExitState).postInit = .ok () := by
  unfold ExitState.postInit
  rw [require_bind hentry, require_bind (by norm_num), require_bind hmint,
    require_bind (by norm_num), require_bind (by norm_num), require_bind (by norm_num)]
  exact require_eq_ok.2 (by norm_num)

/-- An entry at a positive price whose trigger lies between 0 and the price succeeds. -/
theorem exists_atEntryBy (mint : String)
    (hdrawdown : 0 < drawdownBps rnd config ∧ drawdownBps rnd config ≤ 10000)
    (hpos : 0 < triggerAt rnd config entry) (hle : triggerAt rnd config entry ≤ entry) :
    ∃ s, ExitState.atEntryBy rnd mint entry config = .ok s := by
  have hentry : 0 < entry := hpos.trans_le hle
  have hthresholds : config.stopThresholdsBy rnd = .ok ⟨drawdownBps rnd config, hdrawdown⟩ :=
    dif_pos hdrawdown
  have hderive : deriveStopTriggerPriceBy rnd entry ⟨drawdownBps rnd config, hdrawdown⟩ =
      .ok (triggerAt rnd config entry) := by
    unfold deriveStopTriggerPriceBy
    rw [require_bind hentry]
    rfl
  obtain ⟨stop, hmint, hstop⟩ : ∃ stop : StopState, stop.mint = mint ∧
      StopState.atEntryBy rnd mint entry ⟨drawdownBps rnd config, hdrawdown⟩ = .ok stop := by
    refine ⟨⟨mint, entry, triggerAt rnd config entry, ⟨_, hdrawdown⟩, hpos, hle⟩, rfl, ?_⟩
    unfold StopState.atEntryBy
    rw [bind_of_ok hderive, StopState.new, dif_pos hpos, dif_pos hle]
  refine ⟨{ mint := mint, entryFillPrice := entry, stop := stop }, ?_⟩
  unfold ExitState.atEntryBy
  rw [bind_of_ok hthresholds, bind_of_ok hstop]
  exact bind_of_ok (postInit_of_fresh hentry hmint)

/-- **When the ladder and the stop share one line**, at an entry price. -/
theorem sharesLine_iff_onLine (mint : String) (hentry : 0 < entry) :
    SharesLine (ExitState.atEntryBy rnd mint entry config) config entry ↔
      OnLine rnd config entry := by
  have hratio := config.sound.hardStop
  have hline : ∀ mark, mark / entry ≤ config.hardStopR ↔ mark ≤ entry * config.hardStopR := by
    intro mark
    rw [div_le_iff₀ hentry, mul_comm]
  constructor
  · rintro ⟨s, hs, hbreached⟩
    obtain ⟨hdrawdown, htrigger⟩ := atEntryBy_eq_ok hs
    have hsame : ∀ mark, mark ≤ triggerAt rnd config entry ↔ mark ≤ entry * config.hardStopR := by
      intro mark
      rw [← hline, ← hbreached, ← htrigger]
      simp [StopState.isBreached]
    exact ⟨hdrawdown, le_antisymm ((hsame _).1 le_rfl) ((hsame _).2 le_rfl)⟩
  · rintro ⟨hdrawdown, htrigger⟩
    have hpos : 0 < entry * config.hardStopR := mul_pos hentry hratio.1
    have hle : entry * config.hardStopR ≤ entry := by nlinarith [hratio.2]
    obtain ⟨s, hs⟩ := exists_atEntryBy mint hdrawdown (htrigger ▸ hpos) (htrigger ▸ hle)
    refine ⟨s, hs, fun mark => ?_⟩
    obtain ⟨-, hstop⟩ := atEntryBy_eq_ok hs
    rw [hline, ← htrigger, ← hstop]
    simp [StopState.isBreached]

theorem drawdownBps_id (config : ExitConfig) :
    drawdownBps id config = 10000 - ⌈config.hardStopR * 10000⌉ := by
  have hratio := config.sound.hardStop
  have hnonneg : 0 ≤ (1 - config.hardStopR) * 10000 := by nlinarith
  have hshift : (1 - config.hardStopR) * 10000 = (10000 : ℤ) + -(config.hardStopR * 10000) := by
    push_cast
    ring
  simp only [drawdownBps, id_eq]
  rw [truncate_of_nonneg hnonneg, hshift, Int.floor_intCast_add, Int.floor_neg, sub_eq_add_neg]

/-- The basis points of a ratio that is a whole number of them. -/
theorem WholeBps.range (h : WholeBps config) :
    ∃ n : ℤ, 0 < n ∧ n < 10000 ∧ config.hardStopR = n / 10000 := by
  obtain ⟨hpos, hlt⟩ := config.sound.hardStop
  obtain ⟨n, hn⟩ := h
  refine ⟨n, ?_, ?_, ?_⟩
  · have hn' : (0 : ℚ) < n := by rw [← hn]; linarith
    exact_mod_cast hn'
  · have hn' : (n : ℚ) < 10000 := by rw [← hn]; linarith
    exact_mod_cast hn'
  · rw [← hn]
    ring

/-- With exact arithmetic the price does not matter. -/
theorem onLine_id_iff (hentry : 0 < entry) : OnLine id config entry ↔ WholeBps config := by
  unfold OnLine triggerAt
  simp only [id_eq]
  constructor
  · rintro ⟨-, htrigger⟩
    have hratio := mul_left_cancel₀ hentry.ne' htrigger
    refine ⟨10000 - drawdownBps id config, ?_⟩
    rw [← hratio]
    push_cast
    ring
  · intro hwhole
    obtain ⟨n, hpos, hlt, hn⟩ := hwhole.range
    have hceil : ⌈config.hardStopR * 10000⌉ = n := by
      rw [hn, div_mul_cancel₀ _ (by norm_num), Int.ceil_intCast]
    rw [drawdownBps_id, hceil]
    refine ⟨by omega, ?_⟩
    rw [hn]
    push_cast
    ring

theorem fits_bps {n : ℤ} (h : |n| < 10 ^ 28) : Decimal.Fits ((n : ℚ) / 10000) := by
  refine ⟨n, -4, h, ?_⟩
  norm_num [zpow_neg]
  ring

theorem triggerAt_round (hdrawdown : 0 < drawdownBps Decimal.round config ∧
      drawdownBps Decimal.round config ≤ 10000) :
    triggerAt Decimal.round config entry =
      Decimal.round (entry * ((10000 - drawdownBps Decimal.round config : ℤ) / 10000)) := by
  have hsmall : |10000 - drawdownBps Decimal.round config| < 10 ^ 28 := by
    rw [abs_lt]
    omega
  have hfactor := Decimal.round_eq_self (fits_bps hsmall)
  have hcomplement := Decimal.round_eq_self (Decimal.fits_of_int hsmall)
  push_cast at hfactor hcomplement ⊢
  rw [triggerAt, hcomplement, hfactor]

/-- A whole number of basis points reaches the drawdown unrounded. -/
theorem drawdownBps_round {n : ℤ} (hpos : 0 < n) (hlt : n < 10000)
    (hn : config.hardStopR = n / 10000) : drawdownBps Decimal.round config = 10000 - n := by
  have hsmall : |10000 - n| < 10 ^ 28 := by
    rw [abs_lt]
    omega
  have hcomplement : 1 - config.hardStopR = ((10000 - n : ℤ) : ℚ) / 10000 := by
    rw [hn]
    push_cast
    ring
  have hnonneg : (0 : ℚ) ≤ ((10000 - n : ℤ) : ℚ) := by
    have : 0 ≤ 10000 - n := by omega
    exact_mod_cast this
  rw [drawdownBps, hcomplement, Decimal.round_eq_self (fits_bps hsmall),
    div_mul_cancel₀ _ (by norm_num), Decimal.round_eq_self (Decimal.fits_of_int hsmall),
    truncate_of_nonneg hnonneg, Int.floor_intCast]

/-- A whole number of basis points is the line iff the context leaves the price times the ratio as
it is. -/
theorem onLine_round_of_wholeBps (hwhole : WholeBps config) :
    OnLine Decimal.round config entry ↔
      Decimal.round (entry * config.hardStopR) = entry * config.hardStopR := by
  obtain ⟨n, hpos, hlt, hn⟩ := hwhole.range
  have hdrawdown := drawdownBps_round hpos hlt hn
  have hrange : 0 < drawdownBps Decimal.round config ∧
      drawdownBps Decimal.round config ≤ 10000 := by omega
  rw [OnLine, and_iff_right hrange, triggerAt_round hrange, hdrawdown, sub_sub_cancel, ← hn]

/-- The price has at most 24 significant digits. -/
def Fits24 (entry : ℚ) : Prop := ∃ m k : ℤ, |m| < 10 ^ 24 ∧ entry = m * (10 : ℚ) ^ k

/-- Four digits more are no more than 28. -/
theorem Fits24.mul_bps (h : Fits24 entry) {n : ℤ} (hn : |n| ≤ 10000) :
    Decimal.Fits (entry * ((n : ℚ) / 10000)) := by
  obtain ⟨m, k, hm, rfl⟩ := h
  refine ⟨m * n, k - 4, ?_, ?_⟩
  · rw [abs_mul]
    calc |m| * |n| ≤ |m| * 10000 := mul_le_mul_of_nonneg_left hn (abs_nonneg m)
      _ < 10 ^ 24 * 10000 := mul_lt_mul_of_pos_right hm (by norm_num)
      _ = 10 ^ 28 := by norm_num
  · rw [zpow_sub₀ (by norm_num)]
    push_cast
    ring

/-- At a price of at most 24 digits nothing is rounded. -/
theorem onLine_round_of_fits24 (hentry : 0 < entry) (hfits : Fits24 entry) :
    OnLine Decimal.round config entry ↔ WholeBps config := by
  constructor
  · rintro ⟨hrange, htrigger⟩
    have hsmall : |10000 - drawdownBps Decimal.round config| ≤ 10000 := by
      rw [abs_le]
      omega
    rw [triggerAt_round hrange, Decimal.round_eq_self (hfits.mul_bps hsmall)] at htrigger
    refine ⟨10000 - drawdownBps Decimal.round config, ?_⟩
    rw [← mul_left_cancel₀ hentry.ne' htrigger]
    ring
  · intro hwhole
    obtain ⟨n, hpos, hlt, hn⟩ := hwhole.range
    have hsmall : |n| ≤ 10000 := by
      rw [abs_le]
      omega
    rw [onLine_round_of_wholeBps hwhole, hn]
    exact Decimal.round_eq_self (hfits.mul_bps hsmall)

/-- **When the ladder and the survivable stop share one line.**  With exact arithmetic, iff the
ratio is a whole number of basis points.  With the 28 digits of the context, iff the ratio in whole
basis points, times the price and rounded, is the ratio times the price: for a whole number of basis
points iff that product is not rounded, and for a price of at most 24 digits iff the ratio is a
whole number of basis points. -/
theorem ladder_shares_line_iff (config : ExitConfig) (mint : String) (entry : ℚ)
    (hentry : 0 < entry) :
    (SharesLine (ExitState.atEntry mint entry config) config entry ↔ WholeBps config) ∧
      (SharesLine (ExitState.atEntryBy Decimal.round mint entry config) config entry ↔
        OnLine Decimal.round config entry) ∧
      (WholeBps config → (OnLine Decimal.round config entry ↔
        Decimal.round (entry * config.hardStopR) = entry * config.hardStopR)) ∧
      (Fits24 entry → (OnLine Decimal.round config entry ↔ WholeBps config)) := by
  refine ⟨?_, sharesLine_iff_onLine mint hentry, onLine_round_of_wholeBps,
    onLine_round_of_fits24 hentry⟩
  rw [← atEntryBy_id, sharesLine_iff_onLine mint hentry]
  exact onLine_id_iff hentry

/-- The line of `secure_balanced` at a price of 100. -/
theorem ladder_shares_line_iff_balanced :
    SharesLine (ExitState.atEntry "mint" 100 secureBalancedConfig) secureBalancedConfig 100 ∧
      SharesLine (ExitState.atEntryBy Decimal.round "mint" 100 secureBalancedConfig)
        secureBalancedConfig 100 := by
  obtain ⟨hexact, hrounded, -, hfits⟩ :=
    ladder_shares_line_iff secureBalancedConfig "mint" 100 (by norm_num)
  have hwhole : WholeBps secureBalancedConfig := ⟨6000, by norm_num [secureBalancedConfig, secureBalanced]⟩
  exact ⟨hexact.2 hwhole, hrounded.2 ((hfits ⟨100, 0, by norm_num, by norm_num⟩).2 hwhole)⟩

/-- A configuration that differs from `secure_balanced` in its hard stop. -/
def withHardStop (hardStopR : ℚ) : ExitParams := { secureBalanced with hardStopR := hardStopR }

/-- A ratio half a basis point above 0.6. -/
def fineStop : ExitConfig := ⟨withHardStop (60005 / 100000), by decide +kernel⟩

/-- A ratio half a basis point below 1. -/
def tightStop : ExitConfig := ⟨withHardStop (99995 / 100000), by decide +kernel⟩

/-- The first stops out at 60.01 what was bought at 100, the second refuses every entry. -/
theorem fine_ratio_shifts_line :
    (∃ s, ExitState.atEntryBy Decimal.round "mint" 100 fineStop = .ok s ∧
        s.stop.isBreached 60.007 = true ∧ ¬ (60.007 : ℚ) / 100 ≤ fineStop.hardStopR) ∧
      ExitState.atEntryBy Decimal.round "mint" 100 tightStop = .error (.hardStopDrawdownBps 0) ∧
      ¬ SharesLine (ExitState.atEntryBy Decimal.round "mint" 100 fineStop) fineStop 100 ∧
      ¬ SharesLine (ExitState.atEntryBy Decimal.round "mint" 100 tightStop) tightStop 100 := by
  obtain ⟨s, hs, hbreached⟩ : ∃ s, ExitState.atEntryBy Decimal.round "mint" 100 fineStop = .ok s ∧
      s.stop.isBreached 60.007 = true := exists_ok_of_any (by decide +kernel)
  have hratio : ¬ (60.007 : ℚ) / 100 ≤ fineStop.hardStopR := by
    norm_num [fineStop, withHardStop]
  have hrefused : ExitState.atEntryBy Decimal.round "mint" 100 tightStop =
      .error (.hardStopDrawdownBps 0) := by
    have hdrawdown : drawdownBps Decimal.round tightStop = 0 := by decide +kernel
    refine bind_of_error ?_
    show StopThresholds.new (drawdownBps Decimal.round tightStop) = _
    rw [hdrawdown]
    rfl
  refine ⟨⟨s, hs, hbreached, hratio⟩, hrefused, ?_, ?_⟩
  · rintro ⟨s', hs', hline⟩
    obtain rfl := Except.ok.inj (hs.symm.trans hs')
    exact hratio ((hline _).1 hbreached)
  · rintro ⟨s', hs', -⟩
    rw [hrefused] at hs'
    cases hs'

end Exit
end AatsSniper

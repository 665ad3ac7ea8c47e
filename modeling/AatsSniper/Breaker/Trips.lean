/-
# When a breach trips the breaker

`_evaluate` compares the net of the day with three limits: the hard limit, a
percentage of the tranche; the hard floor, absolute; and the soft limit, a smaller
percentage of the tranche.  It trips past either hard one, and asserts that the
soft one is then passed too.  Nothing relates the soft limit to the floor:
`RiskConfig` does not bound `daily_loss_floor_lamports` from below, and a floor
under the soft limit makes the assertion fail on a net between the two, with the
breaker left armed.

`trips_on_breach_iff_tiersOrdered` says for which configurations and times the
breaker trips on every breach and only then.
-/

import AatsSniper.Breaker.CircuitBreaker
import Mathlib.Data.Int.ConditionallyCompleteOrder

namespace AatsSniper
namespace Breaker

variable (config : RiskConfig) (soft : SoftRatio)

/-- ⌊tranche · pct / 100⌋, exactly. -/
def pctOfTranche : ℤ :=
  ⌊(config.dailyRiskTrancheLamports : ℚ) * config.dailyLossLimitPct / 100⌋

/-- The tighter of the two hard limits, as the net at which a day is a breach. -/
def breachLimit : ℤ := max (-pctOfTranche config) (-config.dailyLossFloorLamports)

/-- The soft limit is computed and no larger than either hard limit, and the percentage of the
tranche is computed as its floor, unless the absolute floor is tighter than both. -/
def TiersOrdered : Prop :=
  ∃ softPct, softLimitPct config soft = .ok softPct ∧
    trancheLamports config softPct ≤ trancheLamports config config.dailyLossLimitPct ∧
    trancheLamports config softPct ≤ config.dailyLossFloorLamports ∧
    (trancheLamports config config.dailyLossLimitPct = pctOfTranche config ∨
      config.dailyLossFloorLamports ≤ trancheLamports config config.dailyLossLimitPct ∧
        config.dailyLossFloorLamports ≤ pctOfTranche config)

variable {config soft}

/-- Where no product has more than 28 digits the soft limit is below the hard one. -/
theorem softLimitPct_le (hpct : 0 ≤ config.dailyLossLimitPct)
    (hfits : Decimal.Fits (config.dailyLossLimitPct * soft.ratio)) {softPct : ℚ}
    (h : softLimitPct config soft = .ok softPct) :
    0 ≤ softPct ∧ softPct ≤ config.dailyLossLimitPct := by
  obtain ⟨hlo, hhi⟩ := soft.inRange
  have hnonneg : 0 ≤ config.dailyLossLimitPct * soft.ratio := by positivity
  have hle : config.dailyLossLimitPct * soft.ratio ≤ config.dailyLossLimitPct :=
    mul_le_of_le_one_right hpct hhi.le
  unfold softLimitPct at h
  dsimp only at h
  rw [Decimal.mul, Decimal.round_eq_self hfits] at h
  unfold Decimal.quantizeTenths at h
  split_ifs at h with hdigits
  dsimp only at h
  obtain rfl := Except.ok.inj h
  split_ifs with hpos
  · refine ⟨hpos.le, le_trans ?_ hle⟩
    rw [truncate_of_nonneg (by positivity)]
    have hfloor := Int.floor_le (config.dailyLossLimitPct * soft.ratio * 10)
    linarith
  · exact ⟨hnonneg, hle⟩

theorem trancheLamports_eq_floor {pct : ℚ} (htranche : 0 ≤ config.dailyRiskTrancheLamports)
    (hpct : 0 ≤ pct) (hfits : Decimal.Fits (config.dailyRiskTrancheLamports * pct)) :
    trancheLamports config pct = ⌊(config.dailyRiskTrancheLamports : ℚ) * pct / 100⌋ := by
  have htranche' : (0 : ℚ) ≤ config.dailyRiskTrancheLamports := by exact_mod_cast htranche
  unfold trancheLamports Decimal.mul Decimal.div
  rw [Decimal.round_eq_self hfits, Decimal.round_eq_self hfits.div_hundred]
  exact truncate_of_nonneg (by positivity)

/-- **The tiers of an ordinary configuration.**  With a tranche and a percentage that are not
negative, and products of at most 28 digits, the tiers are ordered iff the soft limit is no larger
than the floor. -/
theorem tiersOrdered_iff_soft_le_floor (htranche : 0 ≤ config.dailyRiskTrancheLamports)
    (hpct : 0 ≤ config.dailyLossLimitPct)
    (hratio : Decimal.Fits (config.dailyLossLimitPct * soft.ratio))
    (hhard : Decimal.Fits (config.dailyRiskTrancheLamports * config.dailyLossLimitPct))
    {softPct : ℚ} (h : softLimitPct config soft = .ok softPct)
    (hsoft : Decimal.Fits (config.dailyRiskTrancheLamports * softPct)) :
    TiersOrdered config soft ↔
      ⌊(config.dailyRiskTrancheLamports : ℚ) * softPct / 100⌋ ≤ config.dailyLossFloorLamports := by
  obtain ⟨hnonneg, hle⟩ := softLimitPct_le hpct hratio h
  have hlimit := trancheLamports_eq_floor htranche hnonneg hsoft
  constructor
  · rintro ⟨softPct', h', -, hfloor, -⟩
    rw [h] at h'
    obtain rfl := Except.ok.inj h'
    rwa [← hlimit]
  · intro hfloor
    have hpctLimit : trancheLamports config config.dailyLossLimitPct = pctOfTranche config :=
      trancheLamports_eq_floor htranche hpct hhard
    refine ⟨softPct, h, ?_, by rwa [hlimit], .inl hpctLimit⟩
    have htranche' : (0 : ℚ) ≤ config.dailyRiskTrancheLamports := by exact_mod_cast htranche
    rw [hlimit, hpctLimit]
    unfold pctOfTranche
    gcongr

/-- Past a hard limit, as `_evaluate` computes them. -/
def PastHard (config : RiskConfig) (net : ℤ) : Prop :=
  net ≤ -trancheLamports config config.dailyLossLimitPct ∨ net ≤ -config.dailyLossFloorLamports

/-- `_evaluate` returns iff the soft limit is computed and passed wherever a hard one is; it then
trips past a hard limit. -/
theorem evaluate_returns_iff {net : ℤ} :
    (∃ d, evaluate config soft net = .ok d) ↔
      ∃ softPct, softLimitPct config soft = .ok softPct ∧
        (PastHard config net → net ≤ -trancheLamports config softPct) := by
  unfold evaluate PastHard
  cases hsoft : softLimitPct config soft with
  | error e => simp [bind, Except.bind]
  | ok softPct =>
      by_cases hhard : net ≤ -trancheLamports config config.dailyLossLimitPct ∨
        net ≤ -config.dailyLossFloorLamports
      · by_cases hcrossed : net ≤ -trancheLamports config softPct
        · simp [bind, Except.bind, hhard, hcrossed, require, pure, Except.pure]
        · simp [bind, Except.bind, hhard, hcrossed, require]
      · simp [bind, Except.bind, hhard, pure, Except.pure]

theorem evaluate_tripped_iff {net : ℤ} {d : TripDecision} (h : evaluate config soft net = .ok d) :
    d.tripped = true ↔ PastHard config net := by
  unfold evaluate at h
  obtain ⟨softPct, -, h⟩ := ok_of_bind h
  dsimp only at h
  by_cases hhard : PastHard config net
  · rw [if_pos (by simpa [PastHard] using hhard)] at h
    obtain ⟨-, h⟩ := ok_of_require h
    obtain rfl := Except.ok.inj h
    exact ⟨fun _ => hhard, fun _ => rfl⟩
  · rw [if_neg (by simpa [PastHard] using hhard)] at h
    obtain rfl := Except.ok.inj h
    exact ⟨fun htripped => absurd htripped (by simp), fun hpast => absurd hpast hhard⟩

variable {b : CircuitBreaker} {event : PnLEvent}

/-- `datetime` has every time from the epoch to the end of year 9999. -/
theorem inYears (h : event.blockTimeMs < endOfYear9999) :
    startOfYear1 ≤ event.blockTimeMs ∧ event.blockTimeMs < endOfYear9999 := by
  have htime := event.time_nonneg
  refine ⟨?_, h⟩
  unfold startOfYear1
  omega

theorem utcDayKey_eq_ok {time : ℤ} (h : startOfYear1 ≤ time ∧ time < endOfYear9999) :
    utcDayKey time = .ok (utcDay time) := by
  unfold utcDayKey
  exact require_bind h

theorem utcDayKey_eq_error {time : ℤ} (h : ¬ (startOfYear1 ≤ time ∧ time < endOfYear9999)) :
    utcDayKey time = .error .yearOutOfRange := by
  unfold utcDayKey
  rw [require, if_neg h]
  rfl

theorem utcIso_eq_ok {time : ℤ} (h : startOfYear1 ≤ time ∧ time < endOfYear9999) :
    utcIso time = .ok time := by
  unfold utcIso
  exact require_bind h

/-- A trip at a time in range, of an established day, latches. -/
theorem trip_latches (b : CircuitBreaker) (net : ℤ) (threshold : Option Threshold) {time : ℤ}
    (h : startOfYear1 ≤ time ∧ time < endOfYear9999) (day : ℤ) :
    ∃ b', trip b net threshold time (some day) false = (.ok (), b') ∧
      b'.state.state = .tripped := by
  have hday : net ≠ 0 → (BreakerState.dayIfNet net (some day)).isSome := by
    intro hne
    simp [BreakerState.dayIfNet, hne]
  unfold trip
  rw [utcIso_eq_ok h]
  dsimp only
  rw [BreakerState.newTripped, dif_pos hday]
  exact ⟨_, rfl, rfl⟩

/-- The net of the event's day, once the event is booked. -/
def netAfter (b : CircuitBreaker) (event : PnLEvent) : ℤ :=
  b.dayPnl (utcDay event.blockTimeMs) + event.deltaLamports

theorem recordPnl_eq_recordOn (h : event.blockTimeMs < endOfYear9999) :
    recordPnl config soft b event false =
      recordOn config soft b event (utcDay event.blockTimeMs) false := by
  unfold recordPnl
  rw [utcDayKey_eq_ok (inYears h)]

/-- Past the end of year 9999 `record_pnl` raises. -/
theorem recordPnl_of_late (h : ¬ event.blockTimeMs < endOfYear9999) :
    recordPnl config soft b event false = (.error .yearOutOfRange, b) := by
  unfold recordPnl
  rw [utcDayKey_eq_error fun hyears => h hyears.2]

/-- `record_pnl` raises where the decision does. -/
theorem recordOn_of_error {e : BreakerError}
    (he : evaluate config soft (netAfter b event) = .error e) :
    (recordOn config soft b event (utcDay event.blockTimeMs) false).1 = .error e := by
  unfold netAfter at he
  unfold recordOn
  dsimp only
  rw [he]

/-- `record_pnl` returns where the decision does, and then latches what the decision trips. -/
theorem recordOn_of_ok (h : event.blockTimeMs < endOfYear9999) {d : TripDecision}
    (hd : evaluate config soft (netAfter b event) = .ok d) :
    (∃ s, (recordOn config soft b event (utcDay event.blockTimeMs) false).1 = .ok s) ∧
      ((recordOn config soft b event (utcDay event.blockTimeMs) false).2.state.state = .tripped ↔
        b.state.state = .tripped ∨ d.tripped = true) := by
  unfold netAfter at hd
  unfold recordOn
  dsimp only
  rw [hd]
  dsimp only
  -- marking the day leaves the latch as it was
  set marked : CircuitBreaker := if d.softBreached = true then _ else _ with hmarked
  have hlatch : marked.state = b.state := by
    rw [hmarked]
    split_ifs <;> rfl
  rw [hlatch]
  cases htripped : d.tripped with
  | true =>
      cases hstate : b.state.state with
      | armed =>
          obtain ⟨b', htrip, hlatched⟩ := trip_latches marked
            (b.dayPnl (utcDay event.blockTimeMs) + event.deltaLamports)
            d.thresholdBreached (inYears h) (utcDay event.blockTimeMs)
          rw [if_pos ⟨rfl, rfl⟩, htrip]
          exact ⟨⟨_, rfl⟩, fun _ => .inr rfl, fun _ => hlatched⟩
      | tripped =>
          rw [if_neg (by simp)]
          exact ⟨⟨_, rfl⟩, fun _ => .inl rfl, fun _ => hstate⟩
  | false =>
      rw [if_neg (by simp)]
      exact ⟨⟨_, rfl⟩, fun hstate => .inl hstate, fun hor => hor.resolve_right (by simp)⟩

variable (config soft b event) in
/-- `record_pnl` returns, and the breaker is then tripped iff it was, or the event's day is a
breach. -/
def TripsOnBreach : Prop :=
  (∃ s, (recordPnl config soft b event false).1 = .ok s) ∧
    ((recordPnl config soft b event false).2.state.state = .tripped ↔
      b.state.state = .tripped ∨ netAfter b event ≤ breachLimit config)

/-- In terms of the limits `_evaluate` computes. -/
theorem tripsOnBreach_iff (h : event.blockTimeMs < endOfYear9999) :
    TripsOnBreach config soft b event ↔
      (∃ softPct, softLimitPct config soft = .ok softPct ∧
        (PastHard config (netAfter b event) →
          netAfter b event ≤ -trancheLamports config softPct)) ∧
      ((b.state.state = .tripped ∨ PastHard config (netAfter b event)) ↔
        (b.state.state = .tripped ∨ netAfter b event ≤ breachLimit config)) := by
  unfold TripsOnBreach
  rw [recordPnl_eq_recordOn h, ← evaluate_returns_iff]
  cases hevaluate : evaluate config soft (netAfter b event) with
  | error e =>
      rw [recordOn_of_error hevaluate]
      simp
  | ok d =>
      obtain ⟨hreturns, hlatch⟩ := recordOn_of_ok h hevaluate
      rw [evaluate_tripped_iff hevaluate] at hlatch
      rw [hlatch]
      exact ⟨fun hmeets => ⟨⟨d, rfl⟩, hmeets.2⟩, fun hmeets => ⟨hreturns, hmeets.2⟩⟩

theorem reachable_firstBoot (config : RiskConfig) (soft : SoftRatio) :
    Reachable config soft (firstBoot []) :=
  ⟨firstBoot [], [], rfl, rfl⟩

/-- **When a breach trips the breaker.**  At a given time, whatever happened before and whatever
the event is, `record_pnl` returns and trips exactly on a breach, iff the time is before the end
of year 9999 and the tiers are ordered. -/
theorem trips_on_breach_iff_tiersOrdered (config : RiskConfig) (soft : SoftRatio) (time : ℤ)
    (htime : 0 ≤ time) :
    (∀ b, Reachable config soft b → ∀ event : PnLEvent, event.blockTimeMs = time →
      TripsOnBreach config soft b event) ↔
    time < endOfYear9999 ∧ TiersOrdered config soft := by
  constructor
  · intro hall
    have hnet : ∀ net, netAfter (firstBoot []) ⟨time, net, htime⟩ = net := fun net => zero_add net
    have harmed : (firstBoot []).state.state = .armed := rfl
    have hmeets : ∀ net, TripsOnBreach config soft (firstBoot []) ⟨time, net, htime⟩ :=
      fun net => hall _ (reachable_firstBoot config soft) ⟨time, net, htime⟩ rfl
    have hend : time < endOfYear9999 := by
      by_contra hlate
      obtain ⟨⟨s, hs⟩, -⟩ := hmeets 0
      rw [recordPnl_of_late hlate] at hs
      cases hs
    refine ⟨hend, ?_⟩
    -- a first event may bring the net to any value, so both conditions hold of every net
    have hiff : ∀ net, (∃ softPct, softLimitPct config soft = .ok softPct ∧
        (PastHard config net → net ≤ -trancheLamports config softPct)) ∧
        (PastHard config net ↔ net ≤ breachLimit config) := by
      intro net
      have h := (tripsOnBreach_iff hend).1 (hmeets net)
      rw [hnet, harmed] at h
      simpa using h
    obtain ⟨softPct, hsoft, -⟩ := (hiff 0).1
    have hcross : ∀ net, PastHard config net → net ≤ -trancheLamports config softPct := by
      intro net hpast
      obtain ⟨softPct', hsoft', hcross⟩ := (hiff net).1
      rw [hsoft] at hsoft'
      obtain rfl := Except.ok.inj hsoft'
      exact hcross hpast
    have hpct := hcross (-trancheLamports config config.dailyLossLimitPct) (.inl le_rfl)
    have hfloor := hcross (-config.dailyLossFloorLamports) (.inr le_rfl)
    have hbreach := (hiff (breachLimit config)).2.2 le_rfl
    have hpctBreach := (hiff (-trancheLamports config config.dailyLossLimitPct)).2.1 (.inl le_rfl)
    refine ⟨softPct, hsoft, by omega, by omega, ?_⟩
    unfold PastHard breachLimit at hbreach
    unfold breachLimit at hpctBreach
    omega
  · rintro ⟨hend, softPct, hsoft, hpct, hfloor, hhard⟩ b - event rfl
    refine (tripsOnBreach_iff hend).2 ⟨⟨softPct, hsoft, ?_⟩, or_congr_right ?_⟩
    · rintro (hpast | hpast)
      · omega
      · omega
    · unfold PastHard breachLimit
      omega

theorem tiersOrdered_default : TiersOrdered defaultConfig defaultSoftRatio :=
  ⟨2, by decide +kernel, by decide +kernel, by decide +kernel, .inl (by decide +kernel)⟩

/-- The default limits are ordered: a first loss of 0.02 SOL trips. -/
theorem trips_on_breach_iff_tiersOrdered_sample :
    TiersOrdered defaultConfig defaultSoftRatio ∧
      TripsOnBreach defaultConfig defaultSoftRatio (firstBoot []) ⟨0, -20000000, le_rfl⟩ ∧
      netAfter (firstBoot []) ⟨0, -20000000, le_rfl⟩ ≤ breachLimit defaultConfig := by
  refine ⟨tiersOrdered_default, ?_, by decide +kernel⟩
  exact (trips_on_breach_iff_tiersOrdered defaultConfig defaultSoftRatio 0 le_rfl).2
    ⟨by decide, tiersOrdered_default⟩ _ (reachable_firstBoot _ _) _ rfl

/-- A floor of 0.005 SOL, under the soft limit of 0.01 SOL. -/
def lowFloorConfig : RiskConfig := ⟨{ dailyLossFloorLamports := 5000000 }, by decide +kernel⟩

/-- A loss between the two is a breach: `record_pnl` raises and the breaker stays armed. -/
theorem floor_under_soft_limit_raises :
    Reachable lowFloorConfig defaultSoftRatio (firstBoot []) ∧
      netAfter (firstBoot []) ⟨0, -7000000, le_rfl⟩ ≤ breachLimit lowFloorConfig ∧
      (recordPnl lowFloorConfig defaultSoftRatio (firstBoot []) ⟨0, -7000000, le_rfl⟩ false).1 =
        .error .softTierNotCrossed ∧
      (recordPnl lowFloorConfig defaultSoftRatio (firstBoot []) ⟨0, -7000000, le_rfl⟩
        false).2.state.state = .armed ∧
      ¬ TripsOnBreach lowFloorConfig defaultSoftRatio (firstBoot []) ⟨0, -7000000, le_rfl⟩ := by
  have hraises : (recordPnl lowFloorConfig defaultSoftRatio (firstBoot [])
      ⟨0, -7000000, le_rfl⟩ false).1 = .error .softTierNotCrossed := by
    rw [recordPnl_eq_recordOn (by decide)]
    exact recordOn_of_error (by decide +kernel)
  refine ⟨reachable_firstBoot _ _, by decide +kernel, hraises, by decide +kernel, ?_⟩
  rintro ⟨⟨s, hs⟩, -⟩
  rw [hraises] at hs
  cases hs

end Breaker
end AatsSniper

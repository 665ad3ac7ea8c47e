/-
# The pre-trade safety gate

`PreTradeSafetyGate` of `aats/risk/pretrade_gate.py`, and the MICRO preset of
`aats/risk/presets.py`, which runs the same gate with tighter thresholds and adds
three checks of its own.

`evaluate_fast` stops at the first check that trips, `scan_all` goes through all of
them.  What a check trips on shrinks as its threshold is loosened (`Stricter.checkOne_eq_none`), so a
decision that passes under strict thresholds passes under looser ones.

The telemetry sink is left out.
-/

import AatsSniper.Lib.Except
import Mathlib.Algebra.Order.Ring.Int
import Mathlib.Tactic.Basic

namespace AatsSniper
namespace Gate

/-- The `ValueError`s of the gate's records. -/
inductive GateError
  | negativeThreshold (field : String) (value : ℤ)
  | minLpLockedBps
  | negativeHolderCount
  | eventBlockTimeMs
  | dataStalenessMs
  | negativeFact (field : String) (value : ℤ)
  deriving DecidableEq

/-- `RedFlag`. -/
inductive RedFlag
  | freezeAuthoritySet
  | mintAuthorityNotRenounced
  | lpNotLockedOrBurned
  | devOrBundleCluster
  | holderConcentrationHigh
  | holderCountTooLow
  | sellTaxTooHigh
  | buyTaxTooHigh
  | creatorDenylisted
  | mintDenylisted
  | serialDeployerRugged
  | devFundedJustBeforeLaunch
  | devFundingUndecodable
  | lpUnlockImminent
  | lpUnlockScheduleUnknown
  | inputStale
  | inputIncomplete
  | notSellable
  deriving DecidableEq

/-- `HOT_CHECK_ORDER`. -/
def hotCheckOrder : List RedFlag :=
  [.freezeAuthoritySet, .mintAuthorityNotRenounced, .lpNotLockedOrBurned, .devOrBundleCluster,
    .holderConcentrationHigh, .holderCountTooLow, .sellTaxTooHigh, .buyTaxTooHigh]

/-! ### Thresholds and facts -/

/-- The arguments of `SafetyThresholds(...)`, with their defaults. -/
structure SafetyThresholdParams where
  minLpLockedBps : ℤ := 9500
  maxHolderConcentrationTop10Bps : ℤ := 3500
  minDistinctHolders : ℤ := 10
  maxDevBundleClusterBps : ℤ := 2000
  maxSellTaxBps : ℤ := 1000
  maxBuyTaxBps : ℤ := 1000
  maxStalenessMs : ℤ := 2000

/-- `SafetyThresholds.__post_init__`. -/
def SafetyThresholdParams.postInit (p : SafetyThresholdParams) : Except GateError Unit := do
  require (0 ≤ p.minLpLockedBps) (.negativeThreshold "min_lp_locked_bps" p.minLpLockedBps)
  require (0 ≤ p.maxHolderConcentrationTop10Bps)
    (.negativeThreshold "max_holder_concentration_top10_bps" p.maxHolderConcentrationTop10Bps)
  require (0 ≤ p.minDistinctHolders) (.negativeThreshold "min_distinct_holders" p.minDistinctHolders)
  require (0 ≤ p.maxDevBundleClusterBps)
    (.negativeThreshold "max_dev_bundle_cluster_bps" p.maxDevBundleClusterBps)
  require (0 ≤ p.maxSellTaxBps) (.negativeThreshold "max_sell_tax_bps" p.maxSellTaxBps)
  require (0 ≤ p.maxBuyTaxBps) (.negativeThreshold "max_buy_tax_bps" p.maxBuyTaxBps)
  require (0 ≤ p.maxStalenessMs) (.negativeThreshold "max_staleness_ms" p.maxStalenessMs)
  require (p.minLpLockedBps ≤ 10000) .minLpLockedBps

/-- `SafetyThresholds`: arguments that passed `__post_init__`. -/
structure SafetyThresholds extends SafetyThresholdParams where
  valid : toSafetyThresholdParams.postInit = .ok ()

/-- `SafetyThresholds()`. -/
def SafetyThresholds.default : SafetyThresholds := ⟨{}, by decide⟩

/-- The arguments of `SafetyInputs(...)`; `None` is what could not be decoded. -/
structure SafetyFacts where
  mint : String
  eventSlot : ℤ
  eventBlockTimeMs : ℤ
  dataStalenessMs : ℤ
  freezeAuthority : Option String
  mintAuthority : Option String
  lpLockedOrBurnedBps : Option ℤ
  devBundleClusterBps : Option ℤ
  holderConcentrationTop10Bps : Option ℤ
  sellTaxBps : Option ℤ
  buyTaxBps : Option ℤ
  authoritiesDecoded : Bool := true
  holderCount : Option ℤ := none

/-- `SafetyInputs.__post_init__`. -/
def SafetyFacts.postInit (f : SafetyFacts) : Except GateError Unit := do
  require (∀ count ∈ f.holderCount, 0 ≤ count) .negativeHolderCount
  require (0 < f.eventBlockTimeMs) .eventBlockTimeMs
  require (0 ≤ f.dataStalenessMs) .dataStalenessMs

/-- `SafetyInputs`: arguments that passed `__post_init__`. -/
structure SafetyInputs extends SafetyFacts where
  valid : toSafetyFacts.postInit = .ok ()

/-! ### Decisions -/

/-- `MicroRedFlag`. -/
inductive MicroRedFlag
  | notVerified
  | lpLockTooShort
  | top5ConcentrationHigh
  deriving DecidableEq

/-- `RedFlagHit`, with the `micro_code` of a `_MicroRedFlagHit`. -/
structure RedFlagHit where
  flag : RedFlag
  measured : Option ℤ := none
  threshold : Option ℤ := none
  microCode : Option MicroRedFlag := none
  deriving DecidableEq

/-- `GateVerdict`. -/
inductive GateVerdict
  | pass
  | reject
  deriving DecidableEq

/-- `GateDecision`. -/
structure GateDecision where
  mint : String
  verdict : GateVerdict
  redFlags : List RedFlagHit
  eventSlot : ℤ
  eventBlockTimeMs : ℤ
  deriving DecidableEq

/-- `passed`. -/
def GateDecision.passed (d : GateDecision) : Bool := decide (d.verdict = .pass)

/-- A decision on the facts: a pass where nothing tripped, else the `_reject` with all that did. -/
def SafetyInputs.decision (inputs : SafetyInputs) (hits : List RedFlagHit) : GateDecision where
  mint := inputs.mint
  verdict := if hits = [] then .pass else .reject
  redFlags := hits
  eventSlot := inputs.eventSlot
  eventBlockTimeMs := inputs.eventBlockTimeMs

/-- What every check returns on a fact that is not known. -/
def incomplete : RedFlagHit := { flag := .inputIncomplete }

/-! ### The checks -/

/-- The check of an authority, which is renounced if it is `None` or empty. -/
def authorityCheck (decoded : Bool) (flag : RedFlag) (authority : Option String) :
    Option RedFlagHit :=
  if decoded = false then some incomplete
  else if authority.any (· ≠ "") then some { flag := flag }
  else none

/-- The check of a fact that must be at least a threshold. -/
def floorCheck (flag : RedFlag) (threshold : ℤ) : Option ℤ → Option RedFlagHit
  | none => some incomplete
  | some v =>
      if v < threshold then some { flag := flag, measured := some v, threshold := some threshold }
      else none

/-- The check of a fact that must be at most a threshold. -/
def ceilingCheck (flag : RedFlag) (threshold : ℤ) : Option ℤ → Option RedFlagHit
  | none => some incomplete
  | some v =>
      if threshold < v then some { flag := flag, measured := some v, threshold := some threshold }
      else none

/-- `_check_one(flag, inputs)`. -/
def SafetyThresholds.checkOne (t : SafetyThresholds) (inputs : SafetyInputs) :
    RedFlag → Option RedFlagHit
  | .freezeAuthoritySet =>
      authorityCheck inputs.authoritiesDecoded .freezeAuthoritySet inputs.freezeAuthority
  | .mintAuthorityNotRenounced =>
      authorityCheck inputs.authoritiesDecoded .mintAuthorityNotRenounced inputs.mintAuthority
  | .lpNotLockedOrBurned =>
      floorCheck .lpNotLockedOrBurned t.minLpLockedBps inputs.lpLockedOrBurnedBps
  | .devOrBundleCluster =>
      ceilingCheck .devOrBundleCluster t.maxDevBundleClusterBps inputs.devBundleClusterBps
  | .holderConcentrationHigh =>
      ceilingCheck .holderConcentrationHigh t.maxHolderConcentrationTop10Bps
        inputs.holderConcentrationTop10Bps
  | .holderCountTooLow => floorCheck .holderCountTooLow t.minDistinctHolders inputs.holderCount
  | .sellTaxTooHigh => ceilingCheck .sellTaxTooHigh t.maxSellTaxBps inputs.sellTaxBps
  | .buyTaxTooHigh => ceilingCheck .buyTaxTooHigh t.maxBuyTaxBps inputs.buyTaxBps
  | _ => some incomplete

/-- The refusal of facts older than the staleness budget. -/
def SafetyThresholds.stale (t : SafetyThresholds) (inputs : SafetyInputs) : Option RedFlagHit :=
  if t.maxStalenessMs < inputs.dataStalenessMs then
    some
      { flag := .inputStale
        measured := some inputs.dataStalenessMs
        threshold := some t.maxStalenessMs }
  else none

/-! ### The gate -/

/-- `PreTradeSafetyGate`. -/
structure PreTradeSafetyGate where
  thresholds : SafetyThresholds := .default
  enabled : Bool := true

namespace PreTradeSafetyGate

/-- The loop of `evaluate_fast` over `HOT_CHECK_ORDER`: the first hit. -/
def firstHit (check : RedFlag → Option RedFlagHit) : List RedFlag → Option RedFlagHit
  | [] => none
  | flag :: rest =>
      match check flag with
      | some hit => some hit
      | none => firstHit check rest

/-- `evaluate_fast(inputs)`. -/
def evaluateFast (gate : PreTradeSafetyGate) (inputs : SafetyInputs) : GateDecision :=
  match gate.thresholds.stale inputs with
  | some hit => inputs.decision [hit]
  | none =>
      match firstHit (gate.thresholds.checkOne inputs) hotCheckOrder with
      | some hit => inputs.decision [hit]
      | none => inputs.decision []

/-- `scan_all(inputs)`. -/
def scanAll (gate : PreTradeSafetyGate) (inputs : SafetyInputs) : GateDecision :=
  inputs.decision ((gate.thresholds.stale inputs).toList ++
    hotCheckOrder.filterMap (gate.thresholds.checkOne inputs))

/-- `require_enabled_for_entry(decision)`. -/
def requireEnabledForEntry (gate : PreTradeSafetyGate) (d : GateDecision) : Bool :=
  gate.enabled && d.passed

/-- `check_sellability(inputs, probe)`; the answer of the probe, where there is one. -/
def checkSellability (probe : Option Bool) : Option RedFlagHit :=
  if probe = some true then none else some { flag := .notSellable }

end PreTradeSafetyGate

/-! ### The MICRO preset -/

/-- `MICRO_SAFETY_THRESHOLDS`. -/
def microSafetyThresholds : SafetyThresholds where
  minLpLockedBps := 10000
  maxHolderConcentrationTop10Bps := 2000
  maxDevBundleClusterBps := 2000
  maxSellTaxBps := 500
  maxBuyTaxBps := 500
  maxStalenessMs := 2000
  valid := by decide

/-- The arguments of `MicroSafetyFacts(...)`. -/
structure MicroFacts where
  verified : Option Bool
  lpLockAgeDays : Option ℤ
  holderConcentrationTop5Bps : Option ℤ

/-- `MicroSafetyFacts.__post_init__`. -/
def MicroFacts.postInit (f : MicroFacts) : Except GateError Unit := do
  require (∀ days ∈ f.lpLockAgeDays, 0 ≤ days)
    (.negativeFact "lp_lock_age_days" (f.lpLockAgeDays.getD 0))
  require (∀ bps ∈ f.holderConcentrationTop5Bps, 0 ≤ bps)
    (.negativeFact "holder_concentration_top5_bps" (f.holderConcentrationTop5Bps.getD 0))

/-- `MicroSafetyFacts`: arguments that passed `__post_init__`. -/
structure MicroSafetyFacts extends MicroFacts where
  valid : toMicroFacts.postInit = .ok ()

/-- `_micro_hit(code, measured, threshold)`. -/
def microHit (code : MicroRedFlag) (measured threshold : Option ℤ) : RedFlagHit :=
  ⟨.inputIncomplete, measured, threshold, some code⟩

/-- `verified`. -/
def verifiedFlag : Option Bool → Option RedFlagHit
  | none => some incomplete
  | some verified => if verified = true then none else some (microHit .notVerified none none)

/-- The LP lock of at least `MICRO_MIN_LP_LOCK_DAYS`. -/
def lpLockAgeFlag : Option ℤ → Option RedFlagHit
  | none => some incomplete
  | some days =>
      if days < 30 then some (microHit .lpLockTooShort (some days) (some 30)) else none

/-- The top-5 concentration below `MICRO_TOP5_CONCENTRATION_MAX_BPS`. -/
def top5Flag : Option ℤ → Option RedFlagHit
  | none => some incomplete
  | some bps =>
      if 2000 ≤ bps then some (microHit .top5ConcentrationHigh (some bps) (some 2000)) else none

/-- `_micro_extra_flags(facts)`. -/
def microExtraFlags (facts : MicroSafetyFacts) : List RedFlagHit :=
  (verifiedFlag facts.verified).toList ++ (lpLockAgeFlag facts.lpLockAgeDays).toList ++
    (top5Flag facts.holderConcentrationTop5Bps).toList

/-- `MicroPreset`, as far as `evaluate_safety` reads it. -/
structure MicroPreset where
  safetyThresholds : SafetyThresholds := microSafetyThresholds

/-- `MicroPreset.gate()`. -/
def MicroPreset.gate (preset : MicroPreset) : PreTradeSafetyGate :=
  { thresholds := preset.safetyThresholds }

/-- `MicroPreset.evaluate_safety(inputs, facts, probe)`. -/
def MicroPreset.evaluateSafety (preset : MicroPreset) (inputs : SafetyInputs)
    (facts : MicroSafetyFacts) (probe : Option Bool) : GateDecision :=
  inputs.decision ((preset.gate.scanAll inputs).redFlags ++ microExtraFlags facts ++
    (PreTradeSafetyGate.checkSellability probe).toList)

/-- `MICRO_PRESET`. -/
def microPreset : MicroPreset := {}

/-! ### The fast gate and the scan -/

section Agreement

variable {gate : PreTradeSafetyGate} {inputs : SafetyInputs} {hits : List RedFlagHit}

theorem passed_decision : (inputs.decision hits).passed = true ↔ hits = [] := by
  unfold GateDecision.passed SafetyInputs.decision
  by_cases h : hits = []
  · simp [h]
  · simp [h]

/-- The loop that stops at the first hit finds the first of all hits. -/
theorem firstHit_eq_head? (check : RedFlag → Option RedFlagHit) (flags : List RedFlag) :
    PreTradeSafetyGate.firstHit check flags = (flags.filterMap check).head? := by
  induction flags with
  | nil => rfl
  | cons flag rest ih =>
      rw [PreTradeSafetyGate.firstHit, List.filterMap_cons]
      cases check flag with
      | some hit => rfl
      | none => exact ih

theorem decision_head? :
    (match hits.head? with
      | some hit => inputs.decision [hit]
      | none => inputs.decision []) = inputs.decision hits.head?.toList := by
  cases hits.head? with
  | some hit => rfl
  | none => rfl

/-- **The fast gate decides on the first flag of the scan.** -/
theorem evaluateFast_eq (gate : PreTradeSafetyGate) (inputs : SafetyInputs) :
    gate.evaluateFast inputs = inputs.decision (gate.scanAll inputs).redFlags.head?.toList := by
  unfold PreTradeSafetyGate.evaluateFast PreTradeSafetyGate.scanAll SafetyInputs.decision
  cases gate.thresholds.stale inputs with
  | some hit => rfl
  | none =>
      rw [firstHit_eq_head?]
      exact decision_head?

theorem passed_scanAll :
    (gate.scanAll inputs).passed = true ↔ (gate.scanAll inputs).redFlags = [] := passed_decision

theorem passed_evaluateFast :
    (gate.evaluateFast inputs).passed = true ↔ (gate.scanAll inputs).passed = true := by
  rw [evaluateFast_eq, passed_decision, passed_scanAll]
  cases (gate.scanAll inputs).redFlags with
  | nil => simp
  | cons hit rest => simp

/-- What a pass says of every check. -/
theorem passed_scanAll_iff : (gate.scanAll inputs).passed = true ↔
    gate.thresholds.stale inputs = none ∧
      ∀ flag ∈ hotCheckOrder, gate.thresholds.checkOne inputs flag = none := by
  unfold PreTradeSafetyGate.scanAll
  rw [passed_decision, List.append_eq_nil_iff, Option.toList_eq_nil_iff, List.filterMap_eq_nil_iff]

end Agreement

/-! ### Known facts -/

/-- Every fact the checks read is known. -/
structure SafetyInputs.Known (inputs : SafetyInputs) : Prop where
  authorities : inputs.authoritiesDecoded = true
  lpLockedOrBurned : inputs.lpLockedOrBurnedBps.isSome
  devBundleCluster : inputs.devBundleClusterBps.isSome
  holderConcentration : inputs.holderConcentrationTop10Bps.isSome
  holderCount : inputs.holderCount.isSome
  sellTax : inputs.sellTaxBps.isSome
  buyTax : inputs.buyTaxBps.isSome

section Known

variable {flag : RedFlag} {threshold : ℤ} {fact : Option ℤ}

theorem floorCheck_eq_none :
    floorCheck flag threshold fact = none ↔ ∃ v, fact = some v ∧ threshold ≤ v := by
  cases fact with
  | none => simp [floorCheck]
  | some v => simp [floorCheck]

theorem ceilingCheck_eq_none :
    ceilingCheck flag threshold fact = none ↔ ∃ v, fact = some v ∧ v ≤ threshold := by
  cases fact with
  | none => simp [ceilingCheck]
  | some v => simp [ceilingCheck]

theorem authorityCheck_eq_none {decoded : Bool} {authority : Option String} :
    authorityCheck decoded flag authority = none ↔
      decoded = true ∧ ∀ a ∈ authority, a = "" := by
  unfold authorityCheck
  cases decoded with
  | false => simp
  | true => cases authority <;> simp

/-- **A pass is over known facts.** -/
theorem known_of_passed {gate : PreTradeSafetyGate} {inputs : SafetyInputs}
    (h : (gate.scanAll inputs).passed = true) : inputs.Known := by
  obtain ⟨-, hchecks⟩ := passed_scanAll_iff.1 h
  have hfreeze := hchecks .freezeAuthoritySet (by decide)
  have hlp := hchecks .lpNotLockedOrBurned (by decide)
  have hcluster := hchecks .devOrBundleCluster (by decide)
  have hconcentration := hchecks .holderConcentrationHigh (by decide)
  have hcount := hchecks .holderCountTooLow (by decide)
  have hsell := hchecks .sellTaxTooHigh (by decide)
  have hbuy := hchecks .buyTaxTooHigh (by decide)
  obtain ⟨lp, hlp, -⟩ := floorCheck_eq_none.1 hlp
  obtain ⟨cluster, hcluster, -⟩ := ceilingCheck_eq_none.1 hcluster
  obtain ⟨concentration, hconcentration, -⟩ := ceilingCheck_eq_none.1 hconcentration
  obtain ⟨count, hcount, -⟩ := floorCheck_eq_none.1 hcount
  obtain ⟨sell, hsell, -⟩ := ceilingCheck_eq_none.1 hsell
  obtain ⟨buy, hbuy, -⟩ := ceilingCheck_eq_none.1 hbuy
  exact
    { authorities := (authorityCheck_eq_none.1 hfreeze).1
      lpLockedOrBurned := by rw [hlp]; rfl
      devBundleCluster := by rw [hcluster]; rfl
      holderConcentration := by rw [hconcentration]; rfl
      holderCount := by rw [hcount]; rfl
      sellTax := by rw [hsell]; rfl
      buyTax := by rw [hbuy]; rfl }

end Known

/-! ### Tighter thresholds -/

/-- `t` is at least as strict as `t'` in every field. -/
structure Stricter (t t' : SafetyThresholds) : Prop where
  minLpLocked : t'.minLpLockedBps ≤ t.minLpLockedBps
  maxHolderConcentration : t.maxHolderConcentrationTop10Bps ≤ t'.maxHolderConcentrationTop10Bps
  minDistinctHolders : t'.minDistinctHolders ≤ t.minDistinctHolders
  maxDevBundleCluster : t.maxDevBundleClusterBps ≤ t'.maxDevBundleClusterBps
  maxSellTax : t.maxSellTaxBps ≤ t'.maxSellTaxBps
  maxBuyTax : t.maxBuyTaxBps ≤ t'.maxBuyTaxBps
  maxStaleness : t.maxStalenessMs ≤ t'.maxStalenessMs

section Stricter

variable {t t' : SafetyThresholds} {inputs : SafetyInputs} {flag : RedFlag}
  {threshold threshold' : ℤ} {fact : Option ℤ}

theorem floorCheck_loosened (h : threshold' ≤ threshold)
    (hnone : floorCheck flag threshold fact = none) : floorCheck flag threshold' fact = none := by
  obtain ⟨v, hv, hle⟩ := floorCheck_eq_none.1 hnone
  exact floorCheck_eq_none.2 ⟨v, hv, h.trans hle⟩

theorem ceilingCheck_loosened (h : threshold ≤ threshold')
    (hnone : ceilingCheck flag threshold fact = none) :
    ceilingCheck flag threshold' fact = none := by
  obtain ⟨v, hv, hle⟩ := ceilingCheck_eq_none.1 hnone
  exact ceilingCheck_eq_none.2 ⟨v, hv, hle.trans h⟩

/-- A check that does not trip does not trip under looser thresholds. -/
theorem Stricter.checkOne_eq_none (h : Stricter t t') (hnone : t.checkOne inputs flag = none) :
    t'.checkOne inputs flag = none := by
  cases flag with
  | lpNotLockedOrBurned => exact floorCheck_loosened h.minLpLocked hnone
  | devOrBundleCluster => exact ceilingCheck_loosened h.maxDevBundleCluster hnone
  | holderConcentrationHigh => exact ceilingCheck_loosened h.maxHolderConcentration hnone
  | holderCountTooLow => exact floorCheck_loosened h.minDistinctHolders hnone
  | sellTaxTooHigh => exact ceilingCheck_loosened h.maxSellTax hnone
  | buyTaxTooHigh => exact ceilingCheck_loosened h.maxBuyTax hnone
  | _ => exact hnone

theorem stale_eq_none : t.stale inputs = none ↔ inputs.dataStalenessMs ≤ t.maxStalenessMs := by
  simp [SafetyThresholds.stale]

/-- **Tightening only rejects more.** -/
theorem Stricter.passed (h : Stricter t t') {enabled enabled' : Bool}
    (hpass : (PreTradeSafetyGate.scanAll ⟨t, enabled⟩ inputs).passed = true) :
    (PreTradeSafetyGate.scanAll ⟨t', enabled'⟩ inputs).passed = true := by
  obtain ⟨hfresh, hchecks⟩ := passed_scanAll_iff.1 hpass
  refine passed_scanAll_iff.2 ⟨?_, fun flag hflag => h.checkOne_eq_none (hchecks flag hflag)⟩
  exact stale_eq_none.2 ((stale_eq_none.1 hfresh).trans h.maxStaleness)

end Stricter

/-- The MICRO thresholds are at least as strict as the defaults. -/
theorem micro_stricter : Stricter microSafetyThresholds .default := by
  constructor <;> decide

/-- The MICRO preset passes only what its gate passes. -/
theorem scanAll_passed_of_evaluateSafety {preset : MicroPreset} {inputs : SafetyInputs}
    {facts : MicroSafetyFacts} {probe : Option Bool}
    (h : (preset.evaluateSafety inputs facts probe).passed = true) :
    (preset.gate.scanAll inputs).passed = true := by
  unfold MicroPreset.evaluateSafety at h
  rw [passed_decision, List.append_eq_nil_iff, List.append_eq_nil_iff] at h
  exact passed_scanAll.2 h.1.1

/-- **The fast gate agrees with the scan, and tightening only rejects more.**  Both pass the same
records and the one reason of the fast gate is the first of the scan; a pass is over known
facts; and what passes under stricter thresholds, or under the MICRO preset, passes the
looser gate. -/
theorem fast_gate_agrees_and_tightens :
    (∀ (gate : PreTradeSafetyGate) (inputs : SafetyInputs),
      ((gate.evaluateFast inputs).passed = true ↔ (gate.scanAll inputs).passed = true) ∧
        (gate.evaluateFast inputs).redFlags = (gate.scanAll inputs).redFlags.head?.toList ∧
        ((gate.evaluateFast inputs).passed = true → inputs.Known)) ∧
      (∀ (gate gate' : PreTradeSafetyGate) (inputs : SafetyInputs),
        Stricter gate.thresholds gate'.thresholds →
          (gate.evaluateFast inputs).passed = true → (gate'.evaluateFast inputs).passed = true) ∧
      ∀ (inputs : SafetyInputs) (facts : MicroSafetyFacts) (probe : Option Bool),
        (microPreset.evaluateSafety inputs facts probe).passed = true →
          (PreTradeSafetyGate.evaluateFast {} inputs).passed = true := by
  refine ⟨fun gate inputs => ⟨passed_evaluateFast, ?_, fun h => ?_⟩, fun gate gate' inputs h hpass => ?_,
    fun inputs facts probe hpass => ?_⟩
  · rw [evaluateFast_eq]
    rfl
  · exact known_of_passed (passed_evaluateFast.1 h)
  · exact passed_evaluateFast.2 (h.passed (passed_evaluateFast.1 hpass))
  · exact passed_evaluateFast.2 (micro_stricter.passed (scanAll_passed_of_evaluateSafety hpass))

/-- A mint without authorities, all of its liquidity burned, with few taxes. -/
def cleanInputs : SafetyInputs where
  mint := "m"
  eventSlot := 1
  eventBlockTimeMs := 1
  dataStalenessMs := 0
  freezeAuthority := none
  mintAuthority := none
  lpLockedOrBurnedBps := some 10000
  devBundleClusterBps := some 500
  holderConcentrationTop10Bps := some 1500
  sellTaxBps := some 100
  buyTaxBps := some 100
  holderCount := some 40
  valid := by decide

/-- Lower taxes than the default. -/
def lowTaxThresholds : SafetyThresholds := ⟨{ maxSellTaxBps := 200, maxBuyTaxBps := 200 }, by decide⟩

/-- The mint passes the MICRO preset and a gate of lower taxes; so it passes the default gate, by
either way, and all of its facts are known. -/
theorem fast_gate_agrees_and_tightens_sample :
    let facts : MicroSafetyFacts := ⟨⟨some true, some 90, some 800⟩, by decide⟩
    ((microPreset.evaluateSafety cleanInputs facts (some true)).passed = true ∧
        (PreTradeSafetyGate.evaluateFast { thresholds := lowTaxThresholds } cleanInputs).passed =
          true) ∧
      (PreTradeSafetyGate.evaluateFast {} cleanInputs).passed = true ∧ cleanInputs.Known := by
  intro facts
  obtain ⟨hagrees, htightens, hmicro⟩ := fast_gate_agrees_and_tightens
  have hpreset : (microPreset.evaluateSafety cleanInputs facts (some true)).passed = true := by
    decide +kernel
  have hlowTax : (PreTradeSafetyGate.evaluateFast { thresholds := lowTaxThresholds }
      cleanInputs).passed = true := by decide +kernel
  have hstricter : Stricter lowTaxThresholds .default := by constructor <;> decide
  have hpass := hmicro cleanInputs facts (some true) hpreset
  exact ⟨⟨hpreset, hlowTax⟩, htightens _ {} cleanInputs hstricter hlowTax,
    (hagrees {} cleanInputs).2.2 hpass⟩

end Gate
end AatsSniper

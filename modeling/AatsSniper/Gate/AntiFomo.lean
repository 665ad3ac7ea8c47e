/-
# The anti-FOMO filter

`AntiFomoFilter` of `aats/risk/anti_fomo.py`: a candidate that has already run up, or that the
mainstream has noticed, is rejected or scaled down.

`evaluate` collects reasons and makes a multiplier of them.  Here the multiplier is the product of
one factor for the run-up and one for each distinct tier of the mentions, all
between 0 and 1 and 0 for an exclusion (`multiplier_eq`); each factor shrinks as its input
becomes more extreme or its threshold tighter.

Fewer samples are the tighter `min_price_samples`: below it the filter has no opinion.  The lower
case of a text is that of its ASCII letters; no other letter has one of a tier's name.  The
telemetry sink is left out.
-/

import AatsSniper.Lib.Except
import AatsSniper.Lib.Factors
import AatsSniper.Lib.PyValue

namespace AatsSniper
namespace Gate

open Factors (InUnit)

/-- The `ValueError`s of the filter's records. -/
inductive FomoError
  | warmPumpRatio
  | hardPumpRatio (hard warm : ℚ)
  | maxWarmPumpHaircut
  | softMentionMultiplier
  | maxStalenessMs
  | minPriceSamples
  | eventBlockTimeMs
  | dataStalenessMs
  | priceHistory
  | convictionMultiplier
  | rejectMultiplier
  | passMultiplier
  | downWeightMultiplier
  | cappedSize
  deriving DecidableEq

/-! ### Mentions -/

/-- `MentionTier`. -/
inductive MentionTier
  | mainstreamPress
  | majorCexListing
  | minorCexListing
  | mainstreamInfluencer
  deriving DecidableEq

/-- The value of a tier. -/
def MentionTier.value : MentionTier → String
  | .mainstreamPress => "mainstream_press"
  | .majorCexListing => "major_cex_listing"
  | .minorCexListing => "minor_cex_listing"
  | .mainstreamInfluencer => "mainstream_influencer"

/-- `tier in _HARD_MENTION_TIERS`; the others are soft. -/
def MentionTier.isHard : MentionTier → Bool
  | .mainstreamPress => true
  | .majorCexListing => true
  | .minorCexListing => false
  | .mainstreamInfluencer => false

/-- `parse_mention_tier(raw)`. -/
def parseMentionTier (raw : CodePoints) : Option MentionTier :=
  let s := PyDecimal.lower (PyText.strip raw)
  [MentionTier.mainstreamPress, .majorCexListing, .minorCexListing, .mainstreamInfluencer].find?
    fun tier => codePoints tier.value = s

/-! ### Thresholds and inputs -/

/-- The arguments of `AntiFomoThresholds(...)`, with their defaults. -/
structure AntiFomoParams where
  hardPumpRatio : ℚ := 4
  warmPumpRatio : ℚ := 2
  maxWarmPumpHaircut : ℚ := 0.50
  softMentionMultiplier : ℚ := 0.50
  maxStalenessMs : ℤ := 60000
  minPriceSamples : ℤ := 2

/-- `AntiFomoThresholds.__post_init__`. -/
def AntiFomoParams.postInit (p : AntiFomoParams) : Except FomoError Unit := do
  require (1 ≤ p.warmPumpRatio) .warmPumpRatio
  require (p.warmPumpRatio ≤ p.hardPumpRatio) (.hardPumpRatio p.hardPumpRatio p.warmPumpRatio)
  require (0 ≤ p.maxWarmPumpHaircut ∧ p.maxWarmPumpHaircut ≤ 1) .maxWarmPumpHaircut
  require (0 ≤ p.softMentionMultiplier ∧ p.softMentionMultiplier ≤ 1) .softMentionMultiplier
  require (0 ≤ p.maxStalenessMs) .maxStalenessMs
  require (2 ≤ p.minPriceSamples) .minPriceSamples

/-- `AntiFomoThresholds`: arguments that passed `__post_init__`. -/
structure AntiFomoThresholds extends AntiFomoParams where
  valid : toAntiFomoParams.postInit = .ok ()

/-- `AntiFomoThresholds()`. -/
def AntiFomoThresholds.default : AntiFomoThresholds := ⟨{}, by decide +kernel⟩

/-- The arguments of `AntiFomoInputs(...)`. -/
structure AntiFomoFacts where
  mint : String
  eventSlot : ℤ
  eventBlockTimeMs : ℤ
  dataStalenessMs : ℤ
  priceHistoryLamports : List ℤ := []
  mentionTiers : List CodePoints := []

/-- `AntiFomoInputs.__post_init__`. -/
def AntiFomoFacts.postInit (f : AntiFomoFacts) : Except FomoError Unit := do
  require (0 < f.eventBlockTimeMs) .eventBlockTimeMs
  require (0 ≤ f.dataStalenessMs) .dataStalenessMs
  require (∀ px ∈ f.priceHistoryLamports, 0 ≤ px) .priceHistory

/-- `AntiFomoInputs`: arguments that passed `__post_init__`. -/
structure AntiFomoInputs extends AntiFomoFacts where
  valid : toAntiFomoFacts.postInit = .ok ()

/-! ### Reasons and decisions -/

/-- `FomoReason`. -/
inductive FomoReason
  | fomoAlreadyPumped
  | fomoMainstreamMention
  | inputStale
  | fomoPumpDownweight
  | fomoSoftMention
  | noPumpHistory
  deriving DecidableEq

/-- `FomoReasonHit`. -/
structure FomoReasonHit where
  reason : FomoReason
  measured : Option ℚ := none
  threshold : Option ℚ := none
  detail : String := ""

/-- `reason in _EXCLUSION_REASONS`. -/
def FomoReasonHit.isExclusion (hit : FomoReasonHit) : Bool :=
  match hit.reason with
  | .fomoAlreadyPumped => true
  | .fomoMainstreamMention => true
  | .inputStale => true
  | _ => false

/-- `FomoVerdict`. -/
inductive FomoVerdict
  | pass
  | downWeight
  | reject
  deriving DecidableEq

/-- The arguments of `FomoDecision(...)`. -/
structure FomoReport where
  mint : String
  verdict : FomoVerdict
  convictionMultiplier : ℚ
  reasons : List FomoReasonHit
  eventSlot : ℤ
  eventBlockTimeMs : ℤ

/-- `FomoDecision.__post_init__`. -/
def FomoReport.postInit (d : FomoReport) : Except FomoError Unit := do
  require (0 ≤ d.convictionMultiplier ∧ d.convictionMultiplier ≤ 1) .convictionMultiplier
  require (d.verdict = .reject → d.convictionMultiplier = 0) .rejectMultiplier
  require (d.verdict = .pass → d.convictionMultiplier = 1) .passMultiplier
  require (d.verdict = .downWeight → d.convictionMultiplier < 1) .downWeightMultiplier

/-- `FomoDecision`: arguments that passed `__post_init__`. -/
structure FomoDecision extends FomoReport where
  valid : toFomoReport.postInit = .ok ()

/-- `FomoDecision(...)`. -/
def FomoDecision.new (d : FomoReport) : Except FomoError FomoDecision :=
  match h : d.postInit with
  | .ok () => .ok ⟨d, h⟩
  | .error e => .error e

/-- `apply(capped_size)`. -/
def FomoDecision.apply (d : FomoDecision) (cappedSize : ℤ) : Except FomoError ℤ := do
  require (0 ≤ cappedSize) .cappedSize
  return min ⌊(cappedSize : ℚ) * d.convictionMultiplier⌋ cappedSize

/-! ### The filter -/

section Filter

variable (t : AntiFomoThresholds)

/-- `_eval_pump(inputs, reasons)`: the reason it appends, if any. -/
def evalPump (history : List ℤ) : List FomoReasonHit :=
  if (history.length : ℤ) < t.minPriceSamples then [{ reason := .noPumpHistory }]
  else
    match history.min?, history.getLast? with
    | some anchor, some current =>
        if anchor ≤ 0 then [{ reason := .noPumpHistory }]
        else
          let ratio : ℚ := current / anchor
          if t.hardPumpRatio ≤ ratio then
            [{ reason := .fomoAlreadyPumped
               measured := some ratio
               threshold := some t.hardPumpRatio }]
          else if t.warmPumpRatio ≤ ratio then
            [{ reason := .fomoPumpDownweight
               measured := some ratio
               threshold := some t.warmPumpRatio }]
          else []
    | _, _ => [{ reason := .noPumpHistory }]

/-- The loop of `_eval_mentions`: the tiers it takes up, each once. -/
def distinctTiers : List CodePoints → List MentionTier → List MentionTier
  | [], _ => []
  | raw :: rest, seen =>
      match parseMentionTier raw with
      | none => distinctTiers rest seen
      | some tier =>
          if tier ∈ seen then distinctTiers rest seen
          else tier :: distinctTiers rest (tier :: seen)

/-- The reason of a tier. -/
def MentionTier.hit (tier : MentionTier) : FomoReasonHit where
  reason := if tier.isHard then .fomoMainstreamMention else .fomoSoftMention
  detail := tier.value

/-- `_eval_mentions(inputs, reasons)`: the reasons it appends. -/
def evalMentions (mentions : List CodePoints) : List FomoReasonHit :=
  (distinctTiers mentions []).map MentionTier.hit

/-- `_warm_pump_haircut(ratio)`. -/
def warmPumpHaircut (ratio : ℚ) : ℚ :=
  let span := t.hardPumpRatio - t.warmPumpRatio
  if span ≤ 0 then t.maxWarmPumpHaircut
  else
    let clamped := if ratio < t.warmPumpRatio then t.warmPumpRatio else ratio
    let clamped := if t.hardPumpRatio < clamped then t.hardPumpRatio else clamped
    let haircut := (clamped - t.warmPumpRatio) / span * t.maxWarmPumpHaircut
    if haircut < 0 then 0
    else if t.maxWarmPumpHaircut < haircut then t.maxWarmPumpHaircut
    else haircut

/-- One turn of `_compute_multiplier`. -/
def applyHit (multiplier : ℚ) (hit : FomoReasonHit) : ℚ :=
  match hit.reason, hit.measured with
  | .fomoSoftMention, _ => multiplier * t.softMentionMultiplier
  | .fomoPumpDownweight, some ratio => multiplier * (1 - warmPumpHaircut t ratio)
  | _, _ => multiplier

/-- `_compute_multiplier(reasons)`. -/
def computeMultiplier (reasons : List FomoReasonHit) : ℚ :=
  let multiplier := reasons.foldl (applyHit t) 1
  if multiplier < 0 then 0 else if 1 < multiplier then 1 else multiplier

/-- The report of a verdict on the inputs. -/
def AntiFomoInputs.report (inputs : AntiFomoInputs) (reasons : List FomoReasonHit)
    (verdict : FomoVerdict) (multiplier : ℚ) : FomoReport where
  mint := inputs.mint
  verdict := verdict
  convictionMultiplier := multiplier
  reasons := reasons
  eventSlot := inputs.eventSlot
  eventBlockTimeMs := inputs.eventBlockTimeMs

/-- `_finalize(inputs, reasons)`. -/
def finalize (inputs : AntiFomoInputs) (reasons : List FomoReasonHit) :
    Except FomoError FomoDecision :=
  if reasons.any FomoReasonHit.isExclusion then FomoDecision.new (inputs.report reasons .reject 0)
  else
    let multiplier := computeMultiplier t reasons
    if multiplier < 1 then FomoDecision.new (inputs.report reasons .downWeight multiplier)
    else FomoDecision.new (inputs.report reasons .pass 1)

/-- The reasons `evaluate` collects. -/
def reasonsOf (inputs : AntiFomoInputs) : List FomoReasonHit :=
  if t.maxStalenessMs < inputs.dataStalenessMs then
    [{ reason := .inputStale
       measured := some inputs.dataStalenessMs
       threshold := some t.maxStalenessMs }]
  else evalPump t inputs.priceHistoryLamports ++ evalMentions inputs.mentionTiers

/-- `evaluate(inputs)`. -/
def evaluate (inputs : AntiFomoInputs) : Except FomoError FomoDecision :=
  finalize t inputs (reasonsOf t inputs)

/-- `evaluate(inputs).apply(capped_size)`. -/
def evaluateAndApply (inputs : AntiFomoInputs) (cappedSize : ℤ) : Except FomoError ℤ := do
  (← evaluate t inputs).apply cappedSize

end Filter

/-! ### The multiplier as a product -/

/-- What a reason multiplies a conviction by; an exclusion by 0. -/
def FomoReasonHit.factor (t : AntiFomoThresholds) (hit : FomoReasonHit) : ℚ :=
  if hit.isExclusion then 0 else applyHit t 1 hit

section Product

variable {t : AntiFomoThresholds} {inputs : AntiFomoInputs} {reasons : List FomoReasonHit}
  {ratio : ℚ}

theorem AntiFomoThresholds.sound (t : AntiFomoThresholds) : 1 ≤ t.warmPumpRatio ∧
    t.warmPumpRatio ≤ t.hardPumpRatio ∧ InUnit t.maxWarmPumpHaircut ∧
      InUnit t.softMentionMultiplier := by
  have h := t.valid
  unfold AntiFomoParams.postInit at h
  obtain ⟨hwarm, h⟩ := ok_of_require h
  obtain ⟨hhard, h⟩ := ok_of_require h
  obtain ⟨hhaircut, h⟩ := ok_of_require h
  obtain ⟨hsoft, -⟩ := ok_of_require h
  exact ⟨hwarm, hhard, hhaircut, hsoft⟩

/-- The haircut needs no clamp. -/
theorem warmPumpHaircut_eq (hwarm : t.warmPumpRatio ≤ ratio) (hhard : ratio < t.hardPumpRatio) :
    warmPumpHaircut t ratio = (ratio - t.warmPumpRatio) / (t.hardPumpRatio - t.warmPumpRatio) *
      t.maxWarmPumpHaircut := by
  obtain ⟨-, -, hhaircut, -⟩ := t.sound
  have hspan : 0 < t.hardPumpRatio - t.warmPumpRatio := by linarith
  have hfrac : InUnit ((ratio - t.warmPumpRatio) / (t.hardPumpRatio - t.warmPumpRatio)) :=
    ⟨div_nonneg (by linarith) hspan.le, (div_le_one hspan).2 (by linarith)⟩
  have hle := mul_le_of_le_one_left hhaircut.1 hfrac.2
  unfold warmPumpHaircut
  dsimp only
  rw [if_neg (not_le.2 hspan), if_neg (not_lt.2 hwarm), if_neg (not_lt.2 hhard.le),
    if_neg (not_lt.2 (hfrac.mul hhaircut).1), if_neg (not_lt.2 hle)]

theorem warmPumpHaircut_inUnit (t : AntiFomoThresholds) (ratio : ℚ) :
    InUnit (warmPumpHaircut t ratio) := by
  obtain ⟨-, -, hhaircut, -⟩ := t.sound
  unfold warmPumpHaircut
  dsimp only
  split_ifs with hspan hclamp hnegative habove hnegative habove
  all_goals first
    | exact hhaircut
    | exact InUnit.zero
    | exact ⟨not_lt.1 ‹_›, (not_lt.1 ‹_›).trans hhaircut.2⟩

theorem applyHit_eq (t : AntiFomoThresholds) (multiplier : ℚ) (hit : FomoReasonHit) :
    applyHit t multiplier hit = multiplier * applyHit t 1 hit := by
  unfold applyHit
  split <;> ring

theorem foldl_applyHit (t : AntiFomoThresholds) (reasons : List FomoReasonHit) (multiplier : ℚ) :
    reasons.foldl (applyHit t) multiplier = multiplier * (reasons.map (applyHit t 1)).prod := by
  induction reasons generalizing multiplier with
  | nil => simp
  | cons hit rest ih =>
      rw [List.foldl_cons, ih, applyHit_eq, List.map_cons, List.prod_cons, mul_assoc]

theorem applyHit_inUnit (t : AntiFomoThresholds) (hit : FomoReasonHit) :
    InUnit (applyHit t 1 hit) := by
  obtain ⟨-, -, -, hsoft⟩ := t.sound
  unfold applyHit
  split
  · rw [one_mul]
    exact hsoft
  · obtain ⟨hnonneg, hle⟩ := warmPumpHaircut_inUnit t ‹_›
    exact ⟨by linarith, by linarith⟩
  · exact InUnit.one

theorem factor_inUnit (t : AntiFomoThresholds) (hit : FomoReasonHit) : InUnit (hit.factor t) := by
  unfold FomoReasonHit.factor
  split_ifs
  · exact InUnit.zero
  · exact applyHit_inUnit t hit

/-- The product of the factors of the reasons. -/
def convictionFactor (t : AntiFomoThresholds) (reasons : List FomoReasonHit) : ℚ :=
  (reasons.map (FomoReasonHit.factor t)).prod

theorem convictionFactor_inUnit (t : AntiFomoThresholds) (reasons : List FomoReasonHit) :
    InUnit (convictionFactor t reasons) := by
  refine InUnit.list_prod fun x hx => ?_
  obtain ⟨hit, -, rfl⟩ := List.mem_map.1 hx
  exact factor_inUnit t hit

/-- Without an exclusion the multiplier is the product as it stands. -/
theorem computeMultiplier_eq (h : reasons.any FomoReasonHit.isExclusion = false) :
    computeMultiplier t reasons = convictionFactor t reasons := by
  have hmap : reasons.map (applyHit t 1) = reasons.map (FomoReasonHit.factor t) := by
    refine List.map_congr_left fun hit hhit => ?_
    have hkeeps : hit.isExclusion = false := by
      simpa using List.any_eq_false.1 h hit hhit
    rw [FomoReasonHit.factor, hkeeps]
    rfl
  obtain ⟨hnonneg, hle⟩ := convictionFactor_inUnit t reasons
  unfold computeMultiplier
  dsimp only
  rw [foldl_applyHit, one_mul, hmap]
  unfold convictionFactor at hnonneg hle ⊢
  rw [if_neg (not_lt.2 hnonneg), if_neg (not_lt.2 hle)]

/-- An exclusion makes the product 0. -/
theorem convictionFactor_eq_zero (h : reasons.any FomoReasonHit.isExclusion = true) :
    convictionFactor t reasons = 0 := by
  obtain ⟨hit, hhit, hexcludes⟩ := List.any_eq_true.1 h
  refine List.prod_eq_zero (List.mem_map.2 ⟨hit, hhit, ?_⟩)
  rw [FomoReasonHit.factor, if_pos hexcludes]

theorem new_eq_ok {report : FomoReport} (h : report.postInit = .ok ()) :
    FomoDecision.new report = .ok ⟨report, h⟩ := by
  unfold FomoDecision.new
  split
  · rfl
  · rename_i e herror
    rw [h] at herror
    cases herror

/-- A report whose verdict fits its multiplier is a decision. -/
theorem new_report {verdict : FomoVerdict} {multiplier : ℚ} (hunit : InUnit multiplier)
    (hreject : verdict = .reject → multiplier = 0) (hpass : verdict = .pass → multiplier = 1)
    (hdown : verdict = .downWeight → multiplier < 1) :
    ∃ d, FomoDecision.new (inputs.report reasons verdict multiplier) = .ok d ∧
      d.convictionMultiplier = multiplier := by
  have hvalid : (inputs.report reasons verdict multiplier).postInit = .ok () := by
    unfold FomoReport.postInit AntiFomoInputs.report
    dsimp only
    rw [require_bind (show 0 ≤ multiplier ∧ multiplier ≤ 1 from hunit), require_bind hreject,
      require_bind hpass]
    exact require_eq_ok.2 hdown
  exact ⟨_, new_eq_ok hvalid, rfl⟩

/-- **What a decision multiplies by:** the product of the factors of its reasons. -/
theorem multiplier_eq (t : AntiFomoThresholds) (inputs : AntiFomoInputs) :
    ∃ d, evaluate t inputs = .ok d ∧
      d.convictionMultiplier = convictionFactor t (reasonsOf t inputs) := by
  have hunit := convictionFactor_inUnit t (reasonsOf t inputs)
  unfold evaluate finalize
  cases hany : (reasonsOf t inputs).any FomoReasonHit.isExclusion with
  | true =>
      rw [convictionFactor_eq_zero hany, if_pos rfl]
      exact new_report InUnit.zero (fun _ => rfl) nofun nofun
  | false =>
      rw [← computeMultiplier_eq hany] at hunit ⊢
      rw [if_neg Bool.false_ne_true]
      dsimp only
      by_cases hlt : computeMultiplier t (reasonsOf t inputs) < 1
      · rw [if_pos hlt]
        exact new_report hunit nofun nofun fun _ => hlt
      · rw [if_neg hlt, le_antisymm hunit.2 (not_lt.1 hlt)]
        exact new_report InUnit.one nofun (fun _ => rfl) nofun

end Product

/-! ### The factor of the run-up -/

/-- The run-up over the window, where the filter has an opinion on it. -/
def runUp (t : AntiFomoThresholds) (history : List ℤ) : Option ℚ :=
  if (history.length : ℤ) < t.minPriceSamples then none
  else
    match history.min?, history.getLast? with
    | some anchor, some current => if anchor ≤ 0 then none else some (current / anchor)
    | _, _ => none

/-- The factor of a run-up. -/
def pumpFactor (t : AntiFomoThresholds) (ratio : ℚ) : ℚ :=
  if t.hardPumpRatio ≤ ratio then 0
  else if t.warmPumpRatio ≤ ratio then 1 - warmPumpHaircut t ratio
  else 1

/-- `t'` is at least as tight as `t` in every field. -/
structure Tighter (t' t : AntiFomoThresholds) : Prop where
  hardPumpRatio : t'.hardPumpRatio ≤ t.hardPumpRatio
  warmPumpRatio : t'.warmPumpRatio ≤ t.warmPumpRatio
  maxWarmPumpHaircut : t.maxWarmPumpHaircut ≤ t'.maxWarmPumpHaircut
  softMentionMultiplier : t'.softMentionMultiplier ≤ t.softMentionMultiplier
  maxStalenessMs : t'.maxStalenessMs ≤ t.maxStalenessMs
  minPriceSamples : t'.minPriceSamples ≤ t.minPriceSamples

/-- The same samples with the latest as high or higher and the earlier ones as low or lower. -/
def Steeper (history' history : List ℤ) : Prop :=
  (history = [] ∧ history' = []) ∨ ∃ earlier latest earlier' latest',
    history = earlier ++ [latest] ∧ history' = earlier' ++ [latest'] ∧ latest ≤ latest' ∧
      List.Forall₂ (· ≤ ·) earlier' earlier

section RunUp

variable {t t' : AntiFomoThresholds} {history history' : List ℤ} {ratio ratio' : ℚ}

theorem convictionFactor_evalPump : convictionFactor t (evalPump t history) =
    (runUp t history).elim 1 (pumpFactor t) := by
  have hnone (reason : FomoReason) (hreason : reason = .noPumpHistory) :
      convictionFactor t [{ reason := reason }] = 1 := by
    subst hreason
    simp [convictionFactor, FomoReasonHit.factor, FomoReasonHit.isExclusion, applyHit]
  unfold evalPump runUp
  split_ifs with hfew
  · exact hnone _ rfl
  · cases history.min? with
    | none => exact hnone _ rfl
    | some anchor =>
        cases history.getLast? with
        | none => exact hnone _ rfl
        | some current =>
            dsimp only
            split_ifs with hanchor hhard hwarm
            · exact hnone _ rfl
            · simp [convictionFactor, FomoReasonHit.factor, FomoReasonHit.isExclusion, pumpFactor,
                hhard]
            · simp [convictionFactor, FomoReasonHit.factor, FomoReasonHit.isExclusion, applyHit,
                pumpFactor, hhard, hwarm]
            · simp [convictionFactor, pumpFactor, hhard, hwarm]

theorem runUp_eq_some : runUp t history = some ratio ↔ t.minPriceSamples ≤ history.length ∧
    ∃ anchor current, history.min? = some anchor ∧ history.getLast? = some current ∧
      0 < anchor ∧ (current : ℚ) / anchor = ratio := by
  unfold runUp
  split_ifs with hfew
  · simp [not_le.2 hfew]
  · cases history.min? with
    | none => simp
    | some anchor =>
        cases history.getLast? with
        | none => simp
        | some current =>
            dsimp only
            split_ifs with hanchor
            · simp [not_lt.2 hanchor]
            · simp [not_lt.1 hfew, not_le.1 hanchor]

/-- A steeper history runs up at least as far. -/
theorem Steeper.runUp (hsteeper : Steeper history' history) (htight : Tighter t' t)
    (hpos : ∀ price ∈ history', 0 < price) (h : runUp t history = some ratio) :
    ∃ ratio', Gate.runUp t' history' = some ratio' ∧ ratio ≤ ratio' := by
  obtain ⟨henough, anchor, current, hmin, hlast, hanchor, rfl⟩ := runUp_eq_some.1 h
  rcases hsteeper with ⟨rfl, rfl⟩ | ⟨earlier, latest, earlier', latest', rfl, rfl, hlatest, hle⟩
  · cases hmin
  obtain rfl : latest = current := by simpa using hlast
  obtain ⟨anchor', hmin'⟩ : ∃ anchor', (earlier' ++ [latest']).min? = some anchor' :=
    Option.isSome_iff_exists.1 (by simp)
  obtain ⟨hmem, hleast⟩ := List.min?_eq_some_iff.1 hmin
  obtain ⟨hmem', hleast'⟩ := List.min?_eq_some_iff.1 hmin'
  have hanchor' : 0 < anchor' := hpos anchor' hmem'
  have hone : anchor' ≤ latest' := hleast' latest' (by simp)
  refine ⟨latest' / anchor', runUp_eq_some.2 ⟨?_, anchor', latest', hmin', by simp, hanchor', rfl⟩,
    ?_⟩
  · have hlength := hle.length_eq
    simp only [List.length_append] at henough ⊢
    rw [hlength]
    exact htight.minPriceSamples.trans henough
  rcases List.mem_append.1 hmem with hearlier | hcurrent
  · -- the lowest price was an earlier one, which has fallen or stayed
    obtain ⟨i, hi, rfl⟩ := List.mem_iff_getElem.1 hearlier
    have hi' : i < earlier'.length := hle.length_eq ▸ hi
    have hfall : earlier'[i] ≤ earlier[i] := hle.get hi' hi
    have hlow : anchor' ≤ earlier[i] :=
      (hleast' _ (List.mem_append_left _ (List.getElem_mem hi'))).trans hfall
    have hlatest_nonneg : 0 ≤ latest' := (hanchor'.trans_le hone).le
    exact div_le_div₀ (by exact_mod_cast hlatest_nonneg) (by exact_mod_cast hlatest)
      (by exact_mod_cast hanchor') (by exact_mod_cast hlow)
  · -- the lowest price was the latest, so there was no run-up at all
    rw [List.mem_singleton.1 hcurrent, div_self]
    · exact (one_le_div (by exact_mod_cast hanchor')).2 (by exact_mod_cast hone)
    · rw [List.mem_singleton.1 hcurrent] at hanchor
      exact_mod_cast hanchor.ne'

theorem pumpFactor_inUnit (t : AntiFomoThresholds) (ratio : ℚ) : InUnit (pumpFactor t ratio) := by
  obtain ⟨hnonneg, hle⟩ := warmPumpHaircut_inUnit t ratio
  unfold pumpFactor
  split_ifs
  · exact InUnit.zero
  · exact ⟨by linarith, by linarith⟩
  · exact InUnit.one

/-- A run-up lies further up in a lower band. -/
theorem band_mono {warm hard warm' hard' : ℚ} (hwarm : warm' ≤ warm) (hhard : hard' ≤ hard)
    (hratio : ratio ≤ ratio') (hin : warm ≤ ratio) (hlt : ratio' < hard') :
    (ratio - warm) / (hard - warm) ≤ (ratio' - warm') / (hard' - warm') := by
  calc (ratio - warm) / (hard - warm) ≤ (ratio - warm') / (hard - warm') := by
        rw [div_le_div_iff₀ (by linarith) (by linarith)]
        nlinarith
    _ ≤ (ratio' - warm') / (hard' - warm') :=
        div_le_div₀ (by linarith) (by linarith) (by linarith) (by linarith)

theorem Tighter.pumpFactor (h : Tighter t' t) (hratio : ratio ≤ ratio') :
    Gate.pumpFactor t' ratio' ≤ Gate.pumpFactor t ratio := by
  obtain ⟨-, -, hhaircut, -⟩ := t.sound
  by_cases hhard' : t'.hardPumpRatio ≤ ratio'
  · rw [Gate.pumpFactor, if_pos hhard']
    exact (pumpFactor_inUnit t ratio).1
  have hhard : ratio < t.hardPumpRatio := by
    have := h.hardPumpRatio
    linarith [not_le.1 hhard']
  by_cases hwarm : t.warmPumpRatio ≤ ratio
  · have hwarm' : t'.warmPumpRatio ≤ ratio' := h.warmPumpRatio.trans (hwarm.trans hratio)
    have hband := band_mono h.warmPumpRatio h.hardPumpRatio hratio hwarm (not_le.1 hhard')
    have hfrac : 0 ≤ (ratio' - t'.warmPumpRatio) / (t'.hardPumpRatio - t'.warmPumpRatio) :=
      div_nonneg (by linarith) (by linarith [not_le.1 hhard'])
    rw [Gate.pumpFactor, Gate.pumpFactor, if_neg hhard', if_pos hwarm', if_neg (not_le.2 hhard),
      if_pos hwarm, warmPumpHaircut_eq hwarm' (not_le.1 hhard'), warmPumpHaircut_eq hwarm hhard]
    exact sub_le_sub_left (mul_le_mul hband h.maxWarmPumpHaircut hhaircut.1 hfrac) 1
  · rw [Gate.pumpFactor.eq_1 t, if_neg (not_le.2 hhard), if_neg hwarm]
    exact (pumpFactor_inUnit t' ratio').2

end RunUp

/-! ### The factor of the mentions -/

/-- The factor of a tier. -/
def tierFactor (t : AntiFomoThresholds) (tier : MentionTier) : ℚ :=
  if tier.isHard then 0 else t.softMentionMultiplier

/-- The tiers among the mentions. -/
def tiersOf (mentions : List CodePoints) : Finset MentionTier :=
  (mentions.filterMap parseMentionTier).toFinset

section Mentions

variable {t t' : AntiFomoThresholds} {mentions mentions' : List CodePoints}
  {seen : List MentionTier} {tier : MentionTier}

theorem mem_distinctTiers : tier ∈ distinctTiers mentions seen ↔
    tier ∈ mentions.filterMap parseMentionTier ∧ tier ∉ seen := by
  induction mentions generalizing seen with
  | nil => simp [distinctTiers]
  | cons raw rest ih =>
      rw [distinctTiers, List.filterMap_cons]
      cases parseMentionTier raw with
      | none => exact ih
      | some found =>
          dsimp only
          split_ifs with hseen
          · rw [ih, List.mem_cons]
            constructor
            · rintro ⟨hrest, hnew⟩
              exact ⟨.inr hrest, hnew⟩
            · rintro ⟨rfl | hrest, hnew⟩
              · exact absurd hseen hnew
              · exact ⟨hrest, hnew⟩
          · rw [List.mem_cons, ih, List.mem_cons, List.mem_cons]
            by_cases heq : tier = found
            · simp [heq, hseen]
            · simp [heq]

theorem nodup_distinctTiers (mentions : List CodePoints) (seen : List MentionTier) :
    (distinctTiers mentions seen).Nodup := by
  induction mentions generalizing seen with
  | nil => exact List.nodup_nil
  | cons raw rest ih =>
      rw [distinctTiers]
      cases parseMentionTier raw with
      | none => exact ih seen
      | some found =>
          dsimp only
          split_ifs
          · exact ih seen
          · refine List.nodup_cons.2 ⟨fun hmem => ?_, ih _⟩
            exact (mem_distinctTiers.1 hmem).2 List.mem_cons_self

theorem factor_hit (t : AntiFomoThresholds) (tier : MentionTier) :
    tier.hit.factor t = tierFactor t tier := by
  cases tier with
  | mainstreamPress => rfl
  | majorCexListing => rfl
  | minorCexListing => exact one_mul t.softMentionMultiplier
  | mainstreamInfluencer => exact one_mul t.softMentionMultiplier

theorem convictionFactor_evalMentions :
    convictionFactor t (evalMentions mentions) = ∏ tier ∈ tiersOf mentions, tierFactor t tier := by
  have htiers : (distinctTiers mentions []).toFinset = tiersOf mentions := by
    ext tier
    simp [tiersOf, mem_distinctTiers]
  unfold convictionFactor evalMentions
  rw [List.map_map, ← htiers, List.prod_toFinset _ (nodup_distinctTiers mentions [])]
  exact congrArg List.prod (List.map_congr_left fun tier _ => factor_hit t tier)

theorem tierFactor_inUnit (t : AntiFomoThresholds) (tier : MentionTier) :
    InUnit (tierFactor t tier) := by
  obtain ⟨-, -, -, hsoft⟩ := t.sound
  unfold tierFactor
  split_ifs
  · exact InUnit.zero
  · exact hsoft

/-- More mentions multiply by less. -/
theorem Tighter.prod_tierFactor (h : Tighter t' t) (hmentions : mentions ⊆ mentions') :
    ∏ tier ∈ tiersOf mentions', tierFactor t' tier ≤ ∏ tier ∈ tiersOf mentions, tierFactor t tier := by
  refine Factors.prod_le_prod_of_subset (fun tier htier => ?_) (fun tier _ => tierFactor_inUnit t' tier)
    fun tier _ => ?_
  · obtain ⟨raw, hraw, hparse⟩ := List.mem_filterMap.1 (List.mem_toFinset.1 htier)
    exact List.mem_toFinset.2 (List.mem_filterMap.2 ⟨raw, hmentions hraw, hparse⟩)
  · unfold tierFactor
    split_ifs
    · exact le_refl 0
    · exact h.softMentionMultiplier

end Mentions

/-! ### What a decision leaves of a size -/

/-- `inputs'` is in every respect as `inputs` or more extreme. -/
structure MoreExtreme (inputs' inputs : AntiFomoInputs) : Prop where
  steeper : Steeper inputs'.priceHistoryLamports inputs.priceHistoryLamports
  mentions : inputs.mentionTiers ⊆ inputs'.mentionTiers
  staleness : inputs.dataStalenessMs ≤ inputs'.dataStalenessMs

section Apply

variable {t t' : AntiFomoThresholds} {inputs inputs' : AntiFomoInputs}

theorem convictionFactor_reasonsOf : convictionFactor t (reasonsOf t inputs) =
    if t.maxStalenessMs < inputs.dataStalenessMs then 0
    else (runUp t inputs.priceHistoryLamports).elim 1 (pumpFactor t) *
      ∏ tier ∈ tiersOf inputs.mentionTiers, tierFactor t tier := by
  unfold reasonsOf
  split_ifs
  · exact convictionFactor_eq_zero rfl
  · rw [← convictionFactor_evalPump, ← convictionFactor_evalMentions]
    exact (congrArg List.prod List.map_append).trans List.prod_append

/-- **The multiplier shrinks** as the inputs become more extreme and the thresholds tighter. -/
theorem MoreExtreme.convictionFactor (h : MoreExtreme inputs' inputs) (htight : Tighter t' t)
    (hpos : ∀ price ∈ inputs'.priceHistoryLamports, 0 < price) :
    Gate.convictionFactor t' (reasonsOf t' inputs') ≤
      Gate.convictionFactor t (reasonsOf t inputs) := by
  by_cases hstale' : t'.maxStalenessMs < inputs'.dataStalenessMs
  · rw [convictionFactor_reasonsOf, if_pos hstale']
    exact (convictionFactor_inUnit t _).1
  have hstale : ¬t.maxStalenessMs < inputs.dataStalenessMs := by
    have hbudget := htight.maxStalenessMs
    have hage := h.staleness
    omega
  have hmentions := htight.prod_tierFactor h.mentions
  have hmentions_nonneg : 0 ≤ ∏ tier ∈ tiersOf inputs'.mentionTiers, tierFactor t' tier :=
    Finset.prod_nonneg fun tier _ => (tierFactor_inUnit t' tier).1
  rw [convictionFactor_reasonsOf, convictionFactor_reasonsOf, if_neg hstale', if_neg hstale]
  cases hrun : runUp t inputs.priceHistoryLamports with
  | none =>
      refine mul_le_mul ?_ hmentions hmentions_nonneg zero_le_one
      cases runUp t' inputs'.priceHistoryLamports with
      | none => exact le_refl 1
      | some ratio' => exact (pumpFactor_inUnit t' ratio').2
  | some ratio =>
      obtain ⟨ratio', hrun', hratio⟩ := h.steeper.runUp htight hpos hrun
      rw [hrun']
      exact mul_le_mul (htight.pumpFactor hratio) hmentions hmentions_nonneg
        (pumpFactor_inUnit t ratio).1

/-- What `apply` returns for a size. -/
theorem evaluateAndApply_eq (t : AntiFomoThresholds) (inputs : AntiFomoInputs) (size : ℕ) :
    evaluateAndApply t inputs size =
      .ok (min ⌊(size : ℚ) * convictionFactor t (reasonsOf t inputs)⌋ size) := by
  obtain ⟨d, hd, hmultiplier⟩ := multiplier_eq t inputs
  unfold evaluateAndApply FomoDecision.apply
  rw [bind_of_ok hd, require_bind (Int.natCast_nonneg size), hmultiplier]
  rfl

end Apply

/-- **Anti-FOMO only shrinks.**  Every evaluation returns and leaves of a size at most the size; and it
leaves no more of it where the latest price is higher, earlier prices lower, mentions more, the data
older or the thresholds tighter. -/
theorem anti_fomo_only_shrinks :
    (∀ (t : AntiFomoThresholds) (inputs : AntiFomoInputs) (size : ℕ),
      ∃ left, evaluateAndApply t inputs size = .ok left ∧ 0 ≤ left ∧ left ≤ size) ∧
      ∀ (t t' : AntiFomoThresholds) (inputs inputs' : AntiFomoInputs), Tighter t' t →
        MoreExtreme inputs' inputs → (∀ price ∈ inputs'.priceHistoryLamports, 0 < price) →
          ∀ (size : ℕ) (left left' : ℤ), evaluateAndApply t inputs size = .ok left →
            evaluateAndApply t' inputs' size = .ok left' → left' ≤ left := by
  constructor
  · intro t inputs size
    obtain ⟨hnonneg, -⟩ := convictionFactor_inUnit t (reasonsOf t inputs)
    refine ⟨_, evaluateAndApply_eq t inputs size, ?_, min_le_right _ _⟩
    exact le_min (Int.floor_nonneg.2 (mul_nonneg (Nat.cast_nonneg size) hnonneg))
      (Int.natCast_nonneg size)
  · intro t t' inputs inputs' htight hextreme hpos size left left' hleft hleft'
    rw [evaluateAndApply_eq] at hleft hleft'
    obtain rfl := Except.ok.inj hleft
    obtain rfl := Except.ok.inj hleft'
    have hfactor := hextreme.convictionFactor htight hpos
    exact min_le_min_right _
      (Int.floor_le_floor (mul_le_mul_of_nonneg_left hfactor (Nat.cast_nonneg size)))

/-- A mint whose price went from the one to the other, with some mentions. -/
def runUpInputs (earlier latest : ℕ) (mentionTiers : List CodePoints) : AntiFomoInputs where
  mint := "m"
  eventSlot := 1
  eventBlockTimeMs := 1
  dataStalenessMs := 0
  priceHistoryLamports := [earlier, latest]
  mentionTiers := mentionTiers
  valid := by
    have hprices : ∀ px ∈ [(earlier : ℤ), latest], 0 ≤ px := by simp
    rw [AntiFomoFacts.postInit, require_bind zero_lt_one, require_bind le_rfl, require,
      if_pos hprices]

/-- A larger haircut and a smaller multiplier of a soft mention than the defaults. -/
def cautiousThresholds : AntiFomoThresholds :=
  ⟨{ maxWarmPumpHaircut := 0.80, softMentionMultiplier := 0.25 }, by decide +kernel⟩

/-- A price that doubled leaves all of the size under the defaults.  From a lower earlier price, with
a soft mention and under tighter thresholds, 200 of 1000 are left. -/
theorem anti_fomo_only_shrinks_sample : ∃ left left' : ℤ,
    evaluateAndApply .default (runUpInputs 100 200 []) 1000 = .ok left ∧
      evaluateAndApply cautiousThresholds
        (runUpInputs 80 200 [codePoints " Minor_CEX_listing"]) 1000 = .ok left' ∧
      left' ≤ left := by
  have hone := anti_fomo_only_shrinks.1 .default (runUpInputs 100 200 []) 1000
  have hother := anti_fomo_only_shrinks.1 cautiousThresholds
    (runUpInputs 80 200 [codePoints " Minor_CEX_listing"]) 1000
  obtain ⟨left, hleft, -⟩ := hone
  obtain ⟨left', hleft', -⟩ := hother
  have htighter : Tighter cautiousThresholds .default := by constructor <;> decide +kernel
  have hextreme : MoreExtreme (runUpInputs 80 200 [codePoints " Minor_CEX_listing"])
      (runUpInputs 100 200 []) := by
    refine ⟨.inr ⟨[100], 200, [80], 200, rfl, rfl, le_rfl, ?_⟩, List.nil_subset _, le_rfl⟩
    exact .cons (by decide) .nil
  exact ⟨left, left', hleft, hleft', anti_fomo_only_shrinks.2 .default cautiousThresholds _ _ htighter
    hextreme (by decide) 1000 left left' hleft hleft'⟩

example : (evaluateAndApply cautiousThresholds
    (runUpInputs 80 200 [codePoints " Minor_CEX_listing"]) 1000).toOption = some 200 := by
  decide +kernel

end Gate
end AatsSniper

/-
# The social velocity penalty

`VelocitySignalComputer.compute` of `aats/sentiment/velocity.py` and the three components of its
penalty: the share of the posts that come from bots, the share of the accounts that are bots, and
the share of the accounts whose ages are within a day of each other.

Each component is a function of one share, which counts the events or the accounts and no longer
says how they were found: `computeBotVelocityPenalty_eq`, `computeGrowthRatioPenalty_eq`, and for
the cohort, which the source finds with two indices over the sorted ages,
`computeHolderGrowthPenalty_eq`.  The clamps never bite, so the penalty is the sum of the three
(`mcsPenalty_compute`).

Rates, ages and penalties are floats in the source and rationals here.
-/

import AatsSniper.Lib.LastJoin
import AatsSniper.Lib.SlidingWindow
import AatsSniper.Lib.Sort
import Mathlib.Algebra.Order.Field.Rat
import Mathlib.Data.Finset.Card
import Mathlib.Data.Rat.Floor
import Mathlib.Tactic.Linarith
import Mathlib.Tactic.FieldSimp
import Mathlib.Tactic.NormNum
import Mathlib.Tactic.Ring

namespace AatsSniper
namespace Sentiment

def defaultVelocityWindowMs : ℤ := 900000
def botVelocityWeight : ℚ := 45 / 100
def growthRatioWeight : ℚ := 35 / 100
def holderGrowthWeight : ℚ := 20 / 100
def botAgeThresholdDays : ℚ := 7
def accountCreationCohortWindowS : ℚ := 86400
def botFractionFullPenalty : ℚ := 70 / 100
def burstVelocityPostsPerMinute : ℚ := 2
def holderGrowthCohortThreshold : ℚ := 50 / 100

/-- `VelocityEvent`. -/
structure VelocityEvent where
  eventId : String
  accountId : String
  source : String
  eventTimeMs : ℤ
  fetchTimeMs : ℤ
  accountAgeDays : ℚ
  isBotScored : Bool
  deriving DecidableEq

/-- `VelocitySource.get_events(asset, as_of_ms, window_ms)`. -/
abbrev VelocitySource := String → ℤ → ℤ → List VelocityEvent

/-- `InMemoryVelocitySource.get_events`. -/
def inMemoryVelocitySource (events : List VelocityEvent) : VelocitySource :=
  fun _ asOfMs windowMs => events.filter fun e => decide (asOfMs - windowMs ≤ e.eventTimeMs)

/-- The condition of `bot_events`. -/
def VelocityEvent.isBot (e : VelocityEvent) : Bool :=
  e.isBotScored || decide (e.accountAgeDays < botAgeThresholdDays)

/-- The condition of `organic_events`. -/
def VelocityEvent.isOrganic (e : VelocityEvent) : Bool :=
  !e.isBotScored && decide (botAgeThresholdDays ≤ e.accountAgeDays)

/-- `_compute_bot_velocity_penalty(bot_events, organic_events, window_minutes)`. -/
def computeBotVelocityPenalty (botEvents organicEvents : List VelocityEvent)
    (windowMinutes : ℚ) : ℚ :=
  if windowMinutes ≤ 0 then 0
  else
    let botPerMin := botEvents.length / windowMinutes
    let organicPerMin := organicEvents.length / windowMinutes
    let totalPerMin := botPerMin + organicPerMin
    if totalPerMin < 1 / 1000000000 then 0
    else botPerMin / totalPerMin * botVelocityWeight

/-- `_compute_growth_ratio_penalty(bot_account_fraction, total_events)`. -/
def computeGrowthRatioPenalty (botAccountFraction : ℚ) (totalEvents : ℕ) : ℚ :=
  if totalEvents = 0 then 0
  else if botFractionFullPenalty ≤ botAccountFraction then growthRatioWeight
  else botAccountFraction / botFractionFullPenalty * growthRatioWeight

/-- `cohort_window_days`, added to an age. -/
def cohortReach (ageDays : ℚ) : ℚ := ageDays + accountCreationCohortWindowS / 86400

/-- `max_cohort_fraction`: the loop over `ages_sorted` with its two indices. -/
def maxCohortFraction (agesDays : List ℚ) : ℚ :=
  let n := agesDays.length
  let agesSorted := sortBy id agesDays
  (SlidingWindow.slide cohortReach 0 agesSorted 0 agesSorted).foldl
    (fun (best : ℚ) (inside : ℕ) => if best < inside / n then inside / n else best) 0

/-- `_compute_holder_growth_penalty(events)`. -/
def computeHolderGrowthPenalty (events : List VelocityEvent) : ℚ × Bool :=
  if events = [] then (0, false)
  else
    let uniqueAccounts := (LastJoin.index VelocityEvent.accountId events).rows
    if uniqueAccounts.length < 2 then (0, false)
    else
      let fraction := maxCohortFraction (uniqueAccounts.map VelocityEvent.accountAgeDays)
      if fraction < holderGrowthCohortThreshold then (0, false)
      else
        let scale := (fraction - holderGrowthCohortThreshold) /
          (1 - holderGrowthCohortThreshold + 1 / 1000000000)
        let penalty := holderGrowthWeight * (1 / 2 + 1 / 2 * scale)
        (min holderGrowthWeight penalty, true)

/-- `_detect_red_flags`. -/
def detectRedFlags (botVelocityPerMin botAccountFraction : ℚ) (cohortFlag : Bool)
    (organicBotRatio penalty : ℚ) : List String :=
  (if burstVelocityPostsPerMinute ≤ botVelocityPerMin then ["bot_velocity_burst"] else []) ++
  (if botFractionFullPenalty ≤ botAccountFraction then ["bot_dominant_growth"]
    else if 4 / 10 ≤ botAccountFraction then ["high_bot_fraction"] else []) ++
  (if cohortFlag then ["factory_account_cohort"] else []) ++
  (if organicBotRatio < 2 / 10 then ["very_low_organic_ratio"]
    else if organicBotRatio < 4 / 10 then ["low_organic_ratio"] else []) ++
  (if 5 / 10 < penalty then ["strong_velocity_de_risk"] else [])

/-- `VelocitySignal.penalty_breakdown`. -/
structure PenaltyBreakdown where
  botVelocityComponent : ℚ
  growthRatioComponent : ℚ
  holderGrowthComponent : ℚ
  total : ℚ

/-- `VelocitySignal`. -/
structure VelocitySignal where
  asset : String
  decisionTimeMs : ℤ
  mcsPenalty : ℚ
  organicVelocityPerMin : ℚ
  botVelocityPerMin : ℚ
  organicBotRatio : ℚ
  uniqueAccountCount : ℕ
  botAccountFraction : ℚ
  accountAgeCohortFlag : Bool
  postsExcludedFuture : ℕ
  totalEventsInWindow : ℕ
  penaltyBreakdown : PenaltyBreakdown
  redFlags : List String

/-- `_empty_signal(asset, decision_time_ms, posts_excluded_future)`. -/
def emptySignal (asset : String) (decisionTimeMs : ℤ) (postsExcludedFuture : ℕ) :
    VelocitySignal where
  asset := asset
  decisionTimeMs := decisionTimeMs
  mcsPenalty := 0
  organicVelocityPerMin := 0
  botVelocityPerMin := 0
  organicBotRatio := 1
  uniqueAccountCount := 0
  botAccountFraction := 0
  accountAgeCohortFlag := false
  postsExcludedFuture := postsExcludedFuture
  totalEventsInWindow := 0
  penaltyBreakdown := ⟨0, 0, 0, 0⟩
  redFlags := []

/-- `VelocitySignalComputer`. -/
structure VelocitySignalComputer where
  source : VelocitySource
  velocityWindowMs : ℤ := defaultVelocityWindowMs

/-- The distinct accounts of some events. -/
def accountsOf (events : List VelocityEvent) : Finset String :=
  (events.map VelocityEvent.accountId).toFinset

/-- The events that `compute` keeps: `event_time_ms <= decision_time_ms`. -/
def VelocitySignalComputer.inTime (computer : VelocitySignalComputer) (asset : String)
    (decisionTimeMs : ℤ) : List VelocityEvent :=
  (computer.source asset decisionTimeMs computer.velocityWindowMs).filter fun e =>
    decide (e.eventTimeMs ≤ decisionTimeMs)

/-- `VelocitySignalComputer.compute(asset, decision_time_ms)`. -/
def VelocitySignalComputer.compute (computer : VelocitySignalComputer) (asset : String)
    (decisionTimeMs : ℤ) : VelocitySignal :=
  let rawEvents := computer.source asset decisionTimeMs computer.velocityWindowMs
  let postsExcludedFuture := rawEvents.countP fun e => decide (decisionTimeMs < e.eventTimeMs)
  let events := computer.inTime asset decisionTimeMs
  if events = [] then emptySignal asset decisionTimeMs postsExcludedFuture
  else
    let botEvents := events.filter VelocityEvent.isBot
    let organicEvents := events.filter VelocityEvent.isOrganic
    let windowMinutes : ℚ := computer.velocityWindowMs / 60000
    let organicVelocityPerMin : ℚ :=
      if 0 < windowMinutes then organicEvents.length / windowMinutes else 0
    let botVelocityPerMin : ℚ :=
      if 0 < windowMinutes then botEvents.length / windowMinutes else 0
    let uniqueAccountCount := (accountsOf events).card
    let botAccountFraction : ℚ :=
      if 0 < uniqueAccountCount then (accountsOf botEvents).card / uniqueAccountCount else 0
    let total := events.length
    let organicBotRatio : ℚ := if 0 < total then organicEvents.length / total else 1
    let pBotVelocity := computeBotVelocityPenalty botEvents organicEvents windowMinutes
    let pGrowthRatio := computeGrowthRatioPenalty botAccountFraction total
    let holder := computeHolderGrowthPenalty events
    let totalPenalty := min 1 (pBotVelocity + pGrowthRatio + holder.1)
    { asset := asset
      decisionTimeMs := decisionTimeMs
      mcsPenalty := totalPenalty
      organicVelocityPerMin := organicVelocityPerMin
      botVelocityPerMin := botVelocityPerMin
      organicBotRatio := organicBotRatio
      uniqueAccountCount := uniqueAccountCount
      botAccountFraction := botAccountFraction
      accountAgeCohortFlag := holder.2
      postsExcludedFuture := postsExcludedFuture
      totalEventsInWindow := total
      penaltyBreakdown := ⟨pBotVelocity, pGrowthRatio, holder.1, totalPenalty⟩
      redFlags := detectRedFlags botVelocityPerMin botAccountFraction holder.2 organicBotRatio
        totalPenalty }

/-- The rate of the events is not taken for zero. -/
def RateSeen (windowMs : ℤ) (events : List VelocityEvent) : Prop :=
  0 < windowMs ∧ windowMs ≤ 60000 * 1000000000 * events.length

instance (windowMs : ℤ) (events : List VelocityEvent) : Decidable (RateSeen windowMs events) :=
  inferInstanceAs (Decidable (_ ∧ _))

/-- The share of the events that come from bots, as far as there is a rate. -/
def velocityShare (windowMs : ℤ) (events : List VelocityEvent) : ℚ :=
  if RateSeen windowMs events then events.countP VelocityEvent.isBot / events.length else 0

/-- The share of the accounts that are bots. -/
def accountShare (events : List VelocityEvent) : ℚ :=
  (accountsOf (events.filter VelocityEvent.isBot)).card / (accountsOf events).card

/-- The age of each account, as its last event has it. -/
def accountAges (events : List VelocityEvent) : List ℚ :=
  (LastJoin.index VelocityEvent.accountId events).rows.map VelocityEvent.accountAgeDays

/-- The largest share of the accounts whose ages are within a day of each other. -/
def cohortShare (events : List VelocityEvent) : ℚ :=
  if (accountAges events).length < 2 then 0
  else SlidingWindow.widest cohortReach (accountAges events) / (accountAges events).length

/-- What a cohort of that share costs: nothing below one half. -/
def cohortCost (share : ℚ) : ℚ :=
  if share < 1 / 2 then 0
  else 1 / 5 * (1 / 2 + 1 / 2 * ((share - 1 / 2) / (1 / 2 + 1 / 1000000000)))

section Shares

variable {events : List VelocityEvent} {windowMs : ℤ}

theorem isOrganic_eq (e : VelocityEvent) : e.isOrganic = !e.isBot := by
  rw [VelocityEvent.isOrganic, VelocityEvent.isBot, Bool.not_or, ← decide_not]
  simp only [not_lt]

theorem countP_isBot_add (events : List VelocityEvent) :
    (events.filter VelocityEvent.isBot).length + (events.filter VelocityEvent.isOrganic).length =
      events.length := by
  induction events with
  | nil => rfl
  | cons e events ih =>
      cases hbot : e.isBot
      · rw [List.filter_cons_of_neg (by simp [hbot]),
          List.filter_cons_of_pos (by simp [isOrganic_eq, hbot])]
        simp only [List.length_cons]
        omega
      · rw [List.filter_cons_of_pos hbot,
          List.filter_cons_of_neg (by simp [isOrganic_eq, hbot])]
        simp only [List.length_cons]
        omega

/-- The first component is the bots' share of the events. -/
theorem computeBotVelocityPenalty_eq (windowMs : ℤ) (events : List VelocityEvent) :
    computeBotVelocityPenalty (events.filter VelocityEvent.isBot)
      (events.filter VelocityEvent.isOrganic) (windowMs / 60000) =
        9 / 20 * velocityShare windowMs events := by
  have hcount : ((events.filter VelocityEvent.isBot).length : ℚ) +
      (events.filter VelocityEvent.isOrganic).length = events.length := by
    exact_mod_cast countP_isBot_add events
  unfold computeBotVelocityPenalty velocityShare
  rw [List.countP_eq_length_filter]
  by_cases hwindow : windowMs ≤ 0
  · have hw : (windowMs : ℚ) / 60000 ≤ 0 := by
      have : (windowMs : ℚ) ≤ 0 := by exact_mod_cast hwindow
      linarith
    have hunseen : ¬ RateSeen windowMs events := fun h => absurd h.1 (not_lt.2 hwindow)
    rw [if_pos hw, if_neg hunseen, mul_zero]
  · have hpos : (0 : ℚ) < windowMs := by exact_mod_cast not_le.1 hwindow
    have hw : (0 : ℚ) < windowMs / 60000 := by linarith
    have hrate : ((events.filter VelocityEvent.isBot).length : ℚ) / (windowMs / 60000) +
        (events.filter VelocityEvent.isOrganic).length / (windowMs / 60000) =
          events.length / (windowMs / 60000) := by
      rw [← add_div, hcount]
    have hseen : (events.length : ℚ) / (windowMs / 60000) < 1 / 1000000000 ↔
        ¬ windowMs ≤ 60000 * 1000000000 * events.length := by
      rw [div_lt_iff₀ hw, not_le, ← @Int.cast_lt ℚ]
      push_cast
      constructor <;> intro h <;> linarith
    rw [if_neg (not_le.2 hw)]
    simp only [hrate, hseen]
    by_cases hle : windowMs ≤ 60000 * 1000000000 * events.length
    · have hrateSeen : RateSeen windowMs events := ⟨not_le.1 hwindow, hle⟩
      rw [if_neg (not_not.2 hle), if_pos hrateSeen, botVelocityWeight,
        div_div_div_cancel_right₀ hw.ne']
      ring
    · have hunseen : ¬ RateSeen windowMs events := fun h => hle h.2
      rw [if_pos hle, if_neg hunseen, mul_zero]

/-- The second component is the bots' share of the accounts, full from seven tenths on. -/
theorem computeGrowthRatioPenalty_eq (h : events ≠ []) :
    computeGrowthRatioPenalty (accountShare events) events.length =
      7 / 20 * min 1 (10 / 7 * accountShare events) := by
  unfold computeGrowthRatioPenalty botFractionFullPenalty growthRatioWeight
  rw [if_neg (by simpa using h)]
  split_ifs with hfull
  · rw [min_eq_left (by linarith)]
    norm_num
  · rw [min_eq_right (by linarith)]
    ring

/-- Keeping the larger fraction is keeping the larger number. -/
theorem foldl_fraction_eq (n : ℕ) (insides : List ℕ) (w : ℕ) :
    insides.foldl (fun (best : ℚ) (inside : ℕ) => if best < inside / n then inside / n else best)
      (w / n) = (max w (insides.foldr max 0) : ℕ) / n := by
  induction insides generalizing w with
  | nil => simp
  | cons inside insides ih =>
      have hstep : (if (w : ℚ) / n < inside / n then (inside : ℚ) / n else w / n) =
          (max w inside : ℕ) / n := by
        rcases le_total inside w with hle | hle
        · have : (inside : ℚ) / n ≤ w / n := by gcongr
          rw [if_neg (not_lt.2 this), max_eq_left hle]
        · have : (w : ℚ) / n ≤ inside / n := by gcongr
          rw [max_eq_right hle]
          split_ifs with hlt
          · rfl
          · exact le_antisymm this (not_lt.1 hlt)
      rw [List.foldl_cons, hstep, ih, List.foldr_cons, max_assoc]

theorem maxCohortFraction_eq (agesDays : List ℚ) :
    maxCohortFraction agesDays = SlidingWindow.widest cohortReach agesDays / agesDays.length := by
  have hmono : Monotone cohortReach := fun a b hab => add_le_add_left hab _
  have hself : ∀ a, a ≤ cohortReach a := by
    intro a
    norm_num [cohortReach, accountCreationCohortWindowS]
  have hfold := foldl_fraction_eq agesDays.length
    (SlidingWindow.slide cohortReach 0 (sortBy id agesDays) 0 (sortBy id agesDays)) 0
  rw [Nat.cast_zero, zero_div, Nat.zero_max,
    SlidingWindow.foldr_max_slide hmono hself (pairwise_sortBy id agesDays),
    SlidingWindow.widest_perm (sortBy_perm id agesDays)] at hfold
  exact hfold

theorem cohortShare_nonneg (events : List VelocityEvent) : 0 ≤ cohortShare events := by
  unfold cohortShare
  split_ifs
  · exact le_rfl
  · positivity

theorem cohortShare_le_one (events : List VelocityEvent) : cohortShare events ≤ 1 := by
  unfold cohortShare
  split_ifs
  · exact zero_le_one
  · refine div_le_one_of_le₀ ?_ (Nat.cast_nonneg _)
    exact_mod_cast SlidingWindow.widest_le_length _ _

theorem cohortCost_le {share : ℚ} (h : share ≤ 1) : cohortCost share ≤ 1 / 5 := by
  unfold cohortCost
  split_ifs
  · norm_num
  · have hscale : (share - 1 / 2) / (1 / 2 + 1 / 1000000000) ≤ 1 :=
      div_le_one_of_le₀ (by linarith) (by norm_num)
    linarith

/-- The third component is the share of the largest cohort. -/
theorem computeHolderGrowthPenalty_eq (events : List VelocityEvent) :
    computeHolderGrowthPenalty events =
      (cohortCost (cohortShare events), decide (1 / 2 ≤ cohortShare events)) := by
  have hlength : (LastJoin.index VelocityEvent.accountId events).rows.length =
      (accountAges events).length := by
    rw [accountAges, List.length_map]
  have hthreshold : holderGrowthCohortThreshold = 1 / 2 := by norm_num [holderGrowthCohortThreshold]
  have hcost := cohortCost_le (cohortShare_le_one events)
  unfold computeHolderGrowthPenalty
  simp only [hlength, hthreshold]
  by_cases hfew : (accountAges events).length < 2
  · have hzero : cohortShare events = 0 := if_pos hfew
    rw [if_pos hfew, ite_self, hzero]
    norm_num [cohortCost]
  · have hsome : events ≠ [] := by
      rintro rfl
      exact hfew (by decide)
    have hfraction : maxCohortFraction ((LastJoin.index VelocityEvent.accountId events).rows.map
        VelocityEvent.accountAgeDays) = cohortShare events := by
      rw [maxCohortFraction_eq, cohortShare, if_neg hfew]
      rfl
    rw [if_neg hsome, if_neg hfew]
    simp only [hfraction]
    by_cases hflag : cohortShare events < 1 / 2
    · rw [if_pos hflag, decide_eq_false (not_le.2 hflag), cohortCost, if_pos hflag]
    · have hpenalty : holderGrowthWeight * (1 / 2 + 1 / 2 *
          ((cohortShare events - 1 / 2) / (1 - 1 / 2 + 1 / 1000000000))) =
            cohortCost (cohortShare events) := by
        rw [cohortCost, if_neg hflag]
        norm_num [holderGrowthWeight]
      rw [if_neg hflag, decide_eq_true (not_lt.1 hflag), hpenalty, min_eq_right]
      rw [holderGrowthWeight]
      linarith

theorem velocityShare_le_one (windowMs : ℤ) (events : List VelocityEvent) :
    velocityShare windowMs events ≤ 1 := by
  unfold velocityShare
  split_ifs
  · refine div_le_one_of_le₀ ?_ (Nat.cast_nonneg _)
    exact_mod_cast List.countP_le_length
  · exact zero_le_one

/-- What some events cost: the three components. -/
def sharesCost (windowMs : ℤ) (events : List VelocityEvent) : ℚ :=
  9 / 20 * velocityShare windowMs events + 7 / 20 * min 1 (10 / 7 * accountShare events) +
    cohortCost (cohortShare events)

theorem sharesCost_nil (windowMs : ℤ) : sharesCost windowMs [] = 0 := by
  have hvelocity : velocityShare windowMs [] = 0 := by
    unfold velocityShare
    split_ifs <;> simp
  have haccount : accountShare [] = 0 := by simp [accountShare, accountsOf]
  have hcohort : cohortShare [] = 0 := rfl
  rw [sharesCost, hvelocity, haccount, hcohort]
  norm_num [cohortCost]

theorem sharesCost_le_one (windowMs : ℤ) (events : List VelocityEvent) :
    sharesCost windowMs events ≤ 1 := by
  have hvelocity := velocityShare_le_one windowMs events
  have hgrowth : min 1 (10 / 7 * accountShare events) ≤ 1 := min_le_left _ _
  have hcohort := cohortCost_le (cohortShare_le_one events)
  unfold sharesCost
  linarith

/-- The penalty is the sum of what the three shares cost. -/
theorem mcsPenalty_compute (computer : VelocitySignalComputer) (asset : String)
    (decisionTimeMs : ℤ) :
    (computer.compute asset decisionTimeMs).mcsPenalty =
      sharesCost computer.velocityWindowMs (computer.inTime asset decisionTimeMs) := by
  unfold VelocitySignalComputer.compute
  by_cases hempty : computer.inTime asset decisionTimeMs = []
  · simp only [hempty, if_true, sharesCost_nil]
    rfl
  · obtain ⟨e, he⟩ := List.exists_mem_of_ne_nil _ hempty
    have haccounts : 0 < (accountsOf (computer.inTime asset decisionTimeMs)).card :=
      Finset.card_pos.2 ⟨e.accountId, List.mem_toFinset.2 (List.mem_map_of_mem he)⟩
    have hgrowth := computeGrowthRatioPenalty_eq hempty
    rw [accountShare] at hgrowth
    simp only [if_neg hempty, if_pos haccounts, computeBotVelocityPenalty_eq, hgrowth,
      computeHolderGrowthPenalty_eq]
    exact min_eq_right (sharesCost_le_one _ _)

end Shares

end Sentiment
end AatsSniper

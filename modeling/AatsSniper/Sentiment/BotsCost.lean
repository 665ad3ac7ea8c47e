/-
# What more bots cost

Further bots, and fewer organic events, raise the later share of the events and their share of the
accounts (`MoreBots.velocityShare_le`, `MoreBots.accountShare_le`).  The cohort counts the ages of
bots and of organic accounts together: a bot of another age, or one that posts from an account of
the cohort, makes the cohort's share smaller, and below one half the component goes out.

So the penalty is never lowered as long as a cohort that counts keeps its share
(`MoreBots.sharesCost_le`).  In a mixed population the two other components may gain what the cohort
loses.  Where they are full before, or empty after, nothing is left to gain, and keeping the share is
necessary too (`sharesCost_le_iff_of_bots`, `sharesCost_le_iff_of_organic`).
-/

import AatsSniper.Sentiment.Velocity

namespace AatsSniper
namespace Sentiment

/-- `after` is `before` and further bots, in any order. -/
def BotsAdded (before after : List VelocityEvent) : Prop :=
  ∃ bots, (∀ e ∈ bots, e.isBot = true) ∧ after.Perm (before ++ bots)

/-- `after` is `before` without some organic events, in any order. -/
def OrganicRemoved (before after : List VelocityEvent) : Prop :=
  ∃ organic, (∀ e ∈ organic, e.isBot = false) ∧ before.Perm (after ++ organic)

/-- What both changes come to. -/
structure MoreBots (before after : List VelocityEvent) : Prop where
  bots_le : before.countP VelocityEvent.isBot ≤ after.countP VelocityEvent.isBot
  length_le : after.length + before.countP VelocityEvent.isBot ≤
    before.length + after.countP VelocityEvent.isBot
  botAccounts_subset : accountsOf (before.filter VelocityEvent.isBot) ⊆
    accountsOf (after.filter VelocityEvent.isBot)
  accounts_subset : accountsOf after ⊆
    accountsOf before ∪ accountsOf (after.filter VelocityEvent.isBot)

/-- The rate of the events is not taken for zero after the change unless it was before, or there
was no bot. -/
def RateKept (windowMs : ℤ) (before after : List VelocityEvent) : Prop :=
  RateSeen windowMs before → RateSeen windowMs after ∨ before.countP VelocityEvent.isBot = 0

/-- A cohort that counts keeps its share. -/
def CohortKept (before after : List VelocityEvent) : Prop :=
  1 / 2 ≤ cohortShare before → cohortShare before ≤ cohortShare after

section Changes

variable {before after : List VelocityEvent} {windowMs : ℤ}

theorem accountsOf_perm {events events' : List VelocityEvent} (h : events.Perm events') :
    accountsOf events = accountsOf events' :=
  List.toFinset_eq_of_perm _ _ (h.map _)

theorem accountsOf_append (events events' : List VelocityEvent) :
    accountsOf (events ++ events') = accountsOf events ∪ accountsOf events' := by
  rw [accountsOf, List.map_append, List.toFinset_append]
  rfl

theorem BotsAdded.moreBots (h : BotsAdded before after) : MoreBots before after := by
  obtain ⟨bots, hbots, hperm⟩ := h
  have hcount : after.countP VelocityEvent.isBot =
      before.countP VelocityEvent.isBot + bots.length := by
    rw [hperm.countP_eq, List.countP_append, List.countP_eq_length.2 hbots]
  have hlength : after.length = before.length + bots.length := by
    rw [hperm.length_eq, List.length_append]
  have haccounts : accountsOf (after.filter VelocityEvent.isBot) =
      accountsOf (before.filter VelocityEvent.isBot) ∪ accountsOf bots := by
    rw [accountsOf_perm (hperm.filter _), List.filter_append, accountsOf_append,
      List.filter_eq_self.2 hbots]
  refine ⟨by omega, by omega, ?_, ?_⟩
  · rw [haccounts]
    exact Finset.subset_union_left
  · rw [haccounts, accountsOf_perm hperm, accountsOf_append]
    exact Finset.union_subset_union_right Finset.subset_union_right

theorem OrganicRemoved.moreBots (h : OrganicRemoved before after) : MoreBots before after := by
  obtain ⟨organic, horganic, hperm⟩ := h
  have hnone : organic.filter VelocityEvent.isBot = [] := by
    rw [List.filter_eq_nil_iff]
    intro e he
    rw [horganic e he]
    exact Bool.false_ne_true
  have hcount : before.countP VelocityEvent.isBot = after.countP VelocityEvent.isBot := by
    rw [hperm.countP_eq, List.countP_append, List.countP_eq_length_filter (l := organic), hnone,
      List.length_nil, Nat.add_zero]
  have hlength : before.length = after.length + organic.length := by
    rw [hperm.length_eq, List.length_append]
  refine ⟨hcount.le, by omega, ?_, ?_⟩
  · rw [accountsOf_perm (hperm.filter _), List.filter_append, hnone, List.append_nil]
  · rw [accountsOf_perm hperm, accountsOf_append]
    exact Finset.subset_union_left.trans Finset.subset_union_left

/-- A share grows when the part grows by at least as much as the whole. -/
theorem share_le_share {m n m' n' : ℕ} (hn : m ≤ n) (hn' : m' ≤ n') (hm : m ≤ m')
    (hgain : n' + m ≤ n + m') : (m : ℚ) / n ≤ m' / n' := by
  rcases Nat.eq_zero_or_pos n' with hzero | hpos
  · have : m = 0 := by omega
    simp [this, hzero]
  · rcases Nat.eq_zero_or_pos n with hzero | hpos'
    · rw [hzero, Nat.cast_zero, div_zero]
      positivity
    · rw [div_le_div_iff₀ (by exact_mod_cast hpos') (by exact_mod_cast hpos)]
      have hn : (m : ℚ) ≤ n := by exact_mod_cast hn
      have hm : (m : ℚ) ≤ m' := by exact_mod_cast hm
      have hgain : (n' : ℚ) + m ≤ n + m' := by exact_mod_cast hgain
      have hpart : (m : ℚ) * n' ≤ m * (n + m' - m) :=
        mul_le_mul_of_nonneg_left (by linarith) (Nat.cast_nonneg m)
      have hslack : 0 ≤ ((m' : ℚ) - m) * (n - m) := mul_nonneg (by linarith) (by linarith)
      linarith

theorem MoreBots.velocityShare_le (h : MoreBots before after)
    (hrate : RateKept windowMs before after) :
    velocityShare windowMs before ≤ velocityShare windowMs after := by
  have hnonneg : 0 ≤ velocityShare windowMs after := by
    unfold velocityShare
    split_ifs
    · positivity
    · exact le_rfl
  by_cases hseen : RateSeen windowMs before
  · rcases hrate hseen with hseen' | hnone
    · rw [velocityShare, velocityShare, if_pos hseen, if_pos hseen']
      exact share_le_share List.countP_le_length List.countP_le_length h.bots_le h.length_le
    · rw [velocityShare, if_pos hseen, hnone, Nat.cast_zero, zero_div]
      exact hnonneg
  · rw [velocityShare, if_neg hseen]
    exact hnonneg

theorem accountsOf_filter_subset (events : List VelocityEvent) :
    accountsOf (events.filter VelocityEvent.isBot) ⊆ accountsOf events := by
  intro account haccount
  obtain ⟨e, he, rfl⟩ := List.mem_map.1 (List.mem_toFinset.1 haccount)
  exact List.mem_toFinset.2 (List.mem_map_of_mem (List.mem_of_mem_filter he))

theorem MoreBots.accountShare_le (h : MoreBots before after) :
    accountShare before ≤ accountShare after := by
  set bots := accountsOf (before.filter VelocityEvent.isBot) with hbots
  set later := accountsOf (after.filter VelocityEvent.isBot) with hlater
  have hbefore : bots ⊆ accountsOf before := accountsOf_filter_subset before
  have hnew : (accountsOf after).card ≤ (accountsOf before).card + (later \ bots).card := by
    refine (Finset.card_le_card fun account haccount => ?_).trans (Finset.card_union_le _ _)
    rcases Finset.mem_union.1 (h.accounts_subset haccount) with hmem | hmem
    · exact Finset.mem_union_left _ hmem
    · by_cases hold : account ∈ bots
      · exact Finset.mem_union_left _ (hbefore hold)
      · exact Finset.mem_union_right _ (Finset.mem_sdiff.2 ⟨hmem, hold⟩)
  have hcard := Finset.card_sdiff_add_card_eq_card h.botAccounts_subset
  refine share_le_share (Finset.card_le_card hbefore)
    (Finset.card_le_card (accountsOf_filter_subset after))
    (Finset.card_le_card h.botAccounts_subset) ?_
  simp only [← hbots, ← hlater] at hcard ⊢
  omega

/-- A larger cohort costs more. -/
theorem cohortCost_mono : Monotone cohortCost := by
  intro share share' hle
  have hscale : (0 : ℚ) < 1 / 2 + 1 / 1000000000 := by norm_num
  unfold cohortCost
  split_ifs with hflag hflag' hflag'
  · exact le_rfl
  · have : 0 ≤ (share' - 1 / 2) / (1 / 2 + 1 / 1000000000) :=
      div_nonneg (by linarith) hscale.le
    linarith
  · linarith
  · have : (share - 1 / 2) / (1 / 2 + 1 / 1000000000) ≤
        (share' - 1 / 2) / (1 / 2 + 1 / 1000000000) :=
      div_le_div_of_nonneg_right (by linarith) hscale.le
    linarith

theorem cohortCost_lt {share share' : ℚ} (hflag : 1 / 2 ≤ share') (hlt : share < share') :
    cohortCost share < cohortCost share' := by
  have hscale : (0 : ℚ) < 1 / 2 + 1 / 1000000000 := by norm_num
  rw [cohortCost, cohortCost, if_neg (not_lt.2 hflag)]
  split_ifs with hunflagged
  · have : 0 ≤ (share' - 1 / 2) / (1 / 2 + 1 / 1000000000) :=
      div_nonneg (by linarith) hscale.le
    linarith
  · have : (share - 1 / 2) / (1 / 2 + 1 / 1000000000) <
        (share' - 1 / 2) / (1 / 2 + 1 / 1000000000) :=
      div_lt_div_of_pos_right (by linarith) hscale
    linarith

/-- With its cohort kept, a change to more bots costs no less. -/
theorem MoreBots.sharesCost_le (h : MoreBots before after) (hrate : RateKept windowMs before after)
    (hcohort : CohortKept before after) :
    sharesCost windowMs before ≤ sharesCost windowMs after := by
  have hvelocity := h.velocityShare_le hrate
  have hgrowth : min 1 (10 / 7 * accountShare before) ≤ min 1 (10 / 7 * accountShare after) :=
    min_le_min_left 1 (by linarith [h.accountShare_le])
  have hcost : cohortCost (cohortShare before) ≤ cohortCost (cohortShare after) := by
    by_cases hflag : 1 / 2 ≤ cohortShare before
    · exact cohortCost_mono (hcohort hflag)
    · have hzero : cohortCost (cohortShare before) = cohortCost 0 := by
        rw [cohortCost, if_pos (not_le.1 hflag), cohortCost, if_pos (by norm_num)]
      rw [hzero]
      exact cohortCost_mono (cohortShare_nonneg after)
  unfold sharesCost
  linarith

/-- A cohort that counts and costs no less has kept its share. -/
theorem cohortKept_of_cohortCost_le
    (hcost : cohortCost (cohortShare before) ≤ cohortCost (cohortShare after)) :
    CohortKept before after := by
  intro hflag
  by_contra hlt
  exact absurd hcost (not_le.2 (cohortCost_lt hflag (not_le.1 hlt)))

/-- From bots alone no change takes an event away. -/
theorem MoreBots.rateKept_of_bots (h : MoreBots before after)
    (hbots : ∀ e ∈ before, e.isBot = true) : RateKept windowMs before after := by
  intro hseen
  have hcount := List.countP_eq_length.2 hbots
  have hlength : before.length ≤ after.length :=
    (hcount.symm.le.trans h.bots_le).trans List.countP_le_length
  refine Or.inl ⟨hseen.1, hseen.2.trans ?_⟩
  have : (before.length : ℤ) ≤ after.length := by exact_mod_cast hlength
  linarith

/-- Where every event before is a bot, the bots' shares are full and gain nothing. -/
theorem sharesCost_le_iff_of_bots (h : MoreBots before after) (hseen : RateSeen windowMs before)
    (hrate : RateKept windowMs before after) (hbots : ∀ e ∈ before, e.isBot = true) :
    sharesCost windowMs before ≤ sharesCost windowMs after ↔ CohortKept before after := by
  refine ⟨fun hle => ?_, h.sharesCost_le hrate⟩
  have hsome : before ≠ [] := by
    rintro rfl
    exact absurd hseen.2 (not_le.2 (by simpa using hseen.1))
  obtain ⟨e, he⟩ := List.exists_mem_of_ne_nil _ hsome
  have hvelocity : velocityShare windowMs before = 1 := by
    have hlength : (before.length : ℚ) ≠ 0 := by
      exact_mod_cast (List.length_pos_iff.2 hsome).ne'
    rw [velocityShare, if_pos hseen, List.countP_eq_length.2 hbots, div_self hlength]
  have haccount : accountShare before = 1 := by
    have hcard : ((accountsOf before).card : ℚ) ≠ 0 := by
      have : 0 < (accountsOf before).card :=
        Finset.card_pos.2 ⟨e.accountId, List.mem_toFinset.2 (List.mem_map_of_mem he)⟩
      exact_mod_cast this.ne'
    rw [accountShare, List.filter_eq_self.2 hbots, div_self hcard]
  have hvelocityAfter := velocityShare_le_one windowMs after
  have hgrowthAfter : min 1 (10 / 7 * accountShare after) ≤ 1 := min_le_left _ _
  have hgrowth : min 1 (10 / 7 * accountShare before) = 1 := by
    rw [haccount]
    norm_num
  rw [sharesCost, sharesCost, hvelocity, hgrowth] at hle
  exact cohortKept_of_cohortCost_le (by linarith)

/-- Without a bot, the cohort is all that costs. -/
theorem sharesCost_of_organic (horganic : ∀ e ∈ before, e.isBot = false) :
    sharesCost windowMs before = cohortCost (cohortShare before) := by
  have hnone : before.filter VelocityEvent.isBot = [] := by
    rw [List.filter_eq_nil_iff]
    intro e he
    rw [horganic e he]
    exact Bool.false_ne_true
  have hvelocity : velocityShare windowMs before = 0 := by
    unfold velocityShare
    rw [List.countP_eq_length_filter, hnone, List.length_nil, Nat.cast_zero, zero_div, ite_self]
  have haccount : accountShare before = 0 := by
    rw [accountShare, hnone, accountsOf, List.map_nil, List.toFinset_nil, Finset.card_empty,
      Nat.cast_zero, zero_div]
  rw [sharesCost, hvelocity, haccount, mul_zero, mul_zero, min_eq_right zero_le_one, mul_zero,
    zero_add, zero_add]

/-- Where no event after is a bot, there was none before, and the bots' shares stay empty. -/
theorem sharesCost_le_iff_of_organic (h : MoreBots before after)
    (horganic : ∀ e ∈ after, e.isBot = false) :
    sharesCost windowMs before ≤ sharesCost windowMs after ↔ CohortKept before after := by
  have hafter : after.countP VelocityEvent.isBot = 0 := by
    rw [List.countP_eq_zero]
    intro e he
    rw [horganic e he]
    exact Bool.false_ne_true
  have hbefore : before.countP VelocityEvent.isBot = 0 :=
    Nat.le_zero.1 (hafter ▸ h.bots_le)
  have hnone : ∀ e ∈ before, e.isBot = false := fun e he =>
    Bool.eq_false_iff.2 (List.countP_eq_zero.1 hbefore e he)
  refine ⟨fun hle => ?_, h.sharesCost_le fun _ => Or.inr hbefore⟩
  rw [sharesCost_of_organic hnone, sharesCost_of_organic horganic] at hle
  exact cohortKept_of_cohortCost_le hle

end Changes

/-- The penalty that a source comes to. -/
def penaltyOf (source : VelocitySource) (windowMs : ℤ) (asset : String) (decisionTimeMs : ℤ) : ℚ :=
  (VelocitySignalComputer.compute ⟨source, windowMs⟩ asset decisionTimeMs).mcsPenalty

/-- The events of a source that `compute` keeps. -/
def eventsOf (source : VelocitySource) (windowMs : ℤ) (asset : String) (decisionTimeMs : ℤ) :
    List VelocityEvent :=
  VelocitySignalComputer.inTime ⟨source, windowMs⟩ asset decisionTimeMs

/-- The source without the events after the decision. -/
def VelocitySource.untilDecision (source : VelocitySource) : VelocitySource :=
  fun asset asOfMs windowMs =>
    (source asset asOfMs windowMs).filter fun e => decide (e.eventTimeMs ≤ asOfMs)

/-- **More bots never cost less while the cohort keeps its share.**  Events after the decision never
matter.  With further bots, or fewer organic events, the penalty is not lowered where the rate is not
lost and a cohort of half the accounts or more keeps its share; and where every event before is a
bot, or none after, it is lowered exactly where that cohort loses. -/
theorem penalty_le_of_cohortKept (before after : VelocitySource) (windowMs : ℤ) (asset : String)
    (decisionTimeMs : ℤ)
    (h : BotsAdded (eventsOf before windowMs asset decisionTimeMs)
        (eventsOf after windowMs asset decisionTimeMs) ∨
      OrganicRemoved (eventsOf before windowMs asset decisionTimeMs)
        (eventsOf after windowMs asset decisionTimeMs)) :
    (∀ source : VelocitySource, penaltyOf source.untilDecision windowMs asset decisionTimeMs =
      penaltyOf source windowMs asset decisionTimeMs) ∧
    (RateKept windowMs (eventsOf before windowMs asset decisionTimeMs)
        (eventsOf after windowMs asset decisionTimeMs) →
      CohortKept (eventsOf before windowMs asset decisionTimeMs)
        (eventsOf after windowMs asset decisionTimeMs) →
      penaltyOf before windowMs asset decisionTimeMs ≤
        penaltyOf after windowMs asset decisionTimeMs) ∧
    ((RateSeen windowMs (eventsOf before windowMs asset decisionTimeMs) ∧
          ∀ e ∈ eventsOf before windowMs asset decisionTimeMs, e.isBot = true) ∨
        (∀ e ∈ eventsOf after windowMs asset decisionTimeMs, e.isBot = false) →
      (penaltyOf before windowMs asset decisionTimeMs ≤
          penaltyOf after windowMs asset decisionTimeMs ↔
        CohortKept (eventsOf before windowMs asset decisionTimeMs)
          (eventsOf after windowMs asset decisionTimeMs))) := by
  have hmore : MoreBots (eventsOf before windowMs asset decisionTimeMs)
      (eventsOf after windowMs asset decisionTimeMs) :=
    h.elim BotsAdded.moreBots OrganicRemoved.moreBots
  refine ⟨fun source => ?_, fun hrate hcohort => ?_, fun hpure => ?_⟩
  · have hkept : eventsOf source.untilDecision windowMs asset decisionTimeMs =
        eventsOf source windowMs asset decisionTimeMs := by
      simp [eventsOf, VelocitySignalComputer.inTime, VelocitySource.untilDecision]
    rw [penaltyOf, penaltyOf, mcsPenalty_compute, mcsPenalty_compute]
    exact congrArg (sharesCost windowMs) hkept
  · rw [penaltyOf, penaltyOf, mcsPenalty_compute, mcsPenalty_compute]
    exact hmore.sharesCost_le hrate hcohort
  · rw [penaltyOf, penaltyOf, mcsPenalty_compute, mcsPenalty_compute]
    rcases hpure with ⟨hseen, hbots⟩ | horganic
    · exact sharesCost_le_iff_of_bots hmore hseen (hmore.rateKept_of_bots hbots) hbots
    · exact sharesCost_le_iff_of_organic hmore horganic

/-- A bot of that age, at time 0. -/
def botOfAge (account : String) (ageDays : ℚ) : VelocityEvent :=
  ⟨account, account, "x", 0, 100, ageDays, true⟩

/-- An organic account of a hundred days, at time 0. -/
def organicAccount (account : String) : VelocityEvent := ⟨account, account, "x", 0, 100, 100, false⟩

/-- A third bot of the age of the two before costs no less, and one of another age does. -/
theorem penalty_kept_three :
    penaltyOf (inMemoryVelocitySource [botOfAge "a" 1, botOfAge "b" 1]) 900000 "mint" 0 ≤
        penaltyOf (inMemoryVelocitySource [botOfAge "a" 1, botOfAge "b" 1, botOfAge "c" 1])
          900000 "mint" 0 ∧
      ¬ penaltyOf (inMemoryVelocitySource [botOfAge "a" 1, botOfAge "b" 1]) 900000 "mint" 0 ≤
        penaltyOf (inMemoryVelocitySource [botOfAge "a" 1, botOfAge "b" 1, botOfAge "c" 100])
          900000 "mint" 0 := by
  constructor
  · have hadded := penalty_le_of_cohortKept
      (inMemoryVelocitySource [botOfAge "a" 1, botOfAge "b" 1])
      (inMemoryVelocitySource [botOfAge "a" 1, botOfAge "b" 1, botOfAge "c" 1]) 900000 "mint" 0
      (Or.inl ⟨[botOfAge "c" 1], by decide, by decide⟩)
    refine hadded.2.1 (fun _ => Or.inl (by decide)) fun _ => ?_
    decide +kernel
  · have hadded := penalty_le_of_cohortKept
      (inMemoryVelocitySource [botOfAge "a" 1, botOfAge "b" 1])
      (inMemoryVelocitySource [botOfAge "a" 1, botOfAge "b" 1, botOfAge "c" 100]) 900000 "mint" 0
      (Or.inl ⟨[botOfAge "c" 100], by decide, by decide⟩)
    rw [hadded.2.2 (Or.inl ⟨by decide, by decide⟩)]
    intro hkept
    exact absurd (hkept (by decide +kernel)) (by decide +kernel)

/-- Two bots of one age, and a third of another age; and two organic accounts of one age that are
removed. -/
theorem penalty_lowered_three :
    (BotsAdded
        (eventsOf (inMemoryVelocitySource [botOfAge "a" 1, botOfAge "b" 1]) 900000 "mint" 0)
        (eventsOf (inMemoryVelocitySource [botOfAge "a" 1, botOfAge "b" 1, botOfAge "c" 100])
          900000 "mint" 0) ∧
      ¬ penaltyOf (inMemoryVelocitySource [botOfAge "a" 1, botOfAge "b" 1]) 900000 "mint" 0 ≤
        penaltyOf (inMemoryVelocitySource [botOfAge "a" 1, botOfAge "b" 1, botOfAge "c" 100])
          900000 "mint" 0) ∧
    OrganicRemoved
        (eventsOf (inMemoryVelocitySource [organicAccount "a", organicAccount "b"]) 900000 "mint" 0)
        (eventsOf (inMemoryVelocitySource []) 900000 "mint" 0) ∧
      ¬ penaltyOf (inMemoryVelocitySource [organicAccount "a", organicAccount "b"])
          900000 "mint" 0 ≤ penaltyOf (inMemoryVelocitySource []) 900000 "mint" 0 := by
  exact ⟨⟨⟨[botOfAge "c" 100], by decide, by decide⟩, by decide +kernel⟩,
    ⟨[organicAccount "a", organicAccount "b"], by decide, by decide⟩, by decide +kernel⟩

end Sentiment
end AatsSniper

/-
# The gate of the completeness audit

The bound that `CompletenessAuditor.reconcile` compares with the declared maximum: `upper` of
`Lib/Wilson`, capped at 1.  It grows with each launch that becomes censored and with each
censored launch that is added (`wilsonUpperBound_mono`), so an audit that fails does so with fewer
snapshots as well, or with more launches and no more snapshots.
-/

import AatsSniper.Ingestion.Completeness

namespace AatsSniper
namespace Ingestion

section Bound

variable {m n m' n' : ℕ} {confidence : ℚ}

theorem zScore_nonneg (confidence : ℚ) : (0 : ℝ) ≤ zScore confidence := by
  have h : (0 : ℚ) ≤ zScore confidence := by
    unfold zScore
    split_ifs
    all_goals norm_num
  exact_mod_cast h

theorem wilsonUpperBound_eq (hn : 0 < n) : wilsonUpperBound m n confidence =
    min 1 (Wilson.upper n (m / n) (zScore confidence)) := by
  have hsquare : ∀ n z : ℝ, (z / (n + n)) ^ 2 = z * z / (4 * n * n) := by
    intro n z
    rw [← two_mul, div_pow]
    ring
  unfold wilsonUpperBound Wilson.upper Wilson.centre Wilson.margin
  rw [if_neg hn.ne', hsquare, ← two_mul]

theorem wilsonUpperBound_le_one (m n : ℕ) (confidence : ℚ) :
    wilsonUpperBound m n confidence ≤ 1 := by
  rcases n.eq_zero_or_pos with rfl | hn
  · exact le_of_eq (if_pos rfl)
  · rw [wilsonUpperBound_eq hn]
    exact min_le_left _ _

/-- The bound is no estimate from below. -/
theorem rate_le_wilsonUpperBound (hn : 0 < n) (hmn : m ≤ n) :
    (m / n : ℝ) ≤ wilsonUpperBound m n confidence := by
  have hn' : (0 : ℝ) < n := by exact_mod_cast hn
  have hrate : (m / n : ℝ) ≤ 1 := (div_le_one hn').2 (by exact_mod_cast hmn)
  rw [wilsonUpperBound_eq hn]
  exact le_min hrate (Wilson.proportion_le_upper hn' (by positivity) hrate (zScore_nonneg _))

/-- A complete launch becomes censored. -/
theorem wilsonUpperBound_le_of_censored (hmn : m + 1 ≤ n) :
    wilsonUpperBound m n confidence ≤ wilsonUpperBound (m + 1) n confidence := by
  have hn : 0 < n := by omega
  have hmn' : (m + 1 : ℝ) ≤ n := by exact_mod_cast hmn
  rw [wilsonUpperBound_eq hn, wilsonUpperBound_eq hn]
  push_cast
  exact min_le_min_left 1
    (Wilson.upper_le_of_miss (Nat.cast_nonneg m) hmn' (zScore_nonneg confidence))

/-- A censored launch is added. -/
theorem wilsonUpperBound_le_of_added (hn : 0 < n) (hmn : m ≤ n) :
    wilsonUpperBound m n confidence ≤ wilsonUpperBound (m + 1) (n + 1) confidence := by
  have hn' : (0 : ℝ) < n := by exact_mod_cast hn
  have hmn' : (m : ℝ) ≤ n := by exact_mod_cast hmn
  rw [wilsonUpperBound_eq hn, wilsonUpperBound_eq (Nat.succ_pos n)]
  push_cast
  exact min_le_min_left 1
    (Wilson.upper_le_of_missed_trial hn' (Nat.cast_nonneg m) hmn' (zScore_nonneg confidence))

/-- Any number of launches becomes censored. -/
theorem wilsonUpperBound_le_add (j : ℕ) (hmn : m + j ≤ n) :
    wilsonUpperBound m n confidence ≤ wilsonUpperBound (m + j) n confidence := by
  induction j with
  | zero => exact le_rfl
  | succ j ih => exact (ih (by omega)).trans (wilsonUpperBound_le_of_censored hmn)

/-- Any number of censored launches is added. -/
theorem wilsonUpperBound_le_add_add (k : ℕ) (hn : 0 < n) (hmn : m ≤ n) :
    wilsonUpperBound m n confidence ≤ wilsonUpperBound (m + k) (n + k) confidence := by
  induction k with
  | zero => exact le_rfl
  | succ k ih => exact ih.trans (wilsonUpperBound_le_of_added (by omega) (by omega))

/-- No fewer launches, and no more of them complete. -/
theorem wilsonUpperBound_mono {c c' : ℕ} (hn : 0 < n) (hcount : c + m = n)
    (hcount' : c' + m' = n') (hnn' : n ≤ n') (hcc' : c' ≤ c) :
    wilsonUpperBound m n confidence ≤ wilsonUpperBound m' n' confidence := by
  obtain ⟨k, rfl⟩ := Nat.exists_eq_add_of_le hnn'
  obtain ⟨j, rfl⟩ := Nat.exists_eq_add_of_le hcc'
  obtain rfl : m' = m + j + k := by omega
  calc wilsonUpperBound m n confidence
      ≤ wilsonUpperBound (m + j) n confidence := wilsonUpperBound_le_add j (by omega)
    _ ≤ wilsonUpperBound (m + j + k) (n + k) confidence :=
        wilsonUpperBound_le_add_add k hn (by omega)

end Bound

section Gate

variable {a a' : CompletenessAuditor} {snapshotRows snapshotRows' : List SnapshotDict}
  {slotRangeStart slotRangeEnd nowMs slotRangeStart' slotRangeEnd' nowMs' : ℤ}
  {report report' : AuditReport}

theorem report_missRateUpperBound (a : CompletenessAuditor) (index : SnapIndex)
    (slotRangeStart slotRangeEnd nowMs : ℤ) :
    (a.report index slotRangeStart slotRangeEnd nowMs).missRateUpperBound =
      if (a.poolCreatesInSlotRange slotRangeStart slotRangeEnd).length = 0 then 0
      else wilsonUpperBound (a.report index slotRangeStart slotRangeEnd nowMs).censoredCount
        (a.poolCreatesInSlotRange slotRangeStart slotRangeEnd).length a.confidenceLevel := rfl

/-- The bound of a report is no negative number. -/
theorem missRateUpperBound_nonneg (a : CompletenessAuditor) (index : SnapIndex)
    (slotRangeStart slotRangeEnd nowMs : ℤ) :
    0 ≤ (a.report index slotRangeStart slotRangeEnd nowMs).missRateUpperBound := by
  have hcount := report_counts a index slotRangeStart slotRangeEnd nowMs
  rw [report_missRateUpperBound]
  split_ifs with hzero
  · exact le_rfl
  · refine le_trans ?_ (rate_le_wilsonUpperBound (Nat.pos_of_ne_zero hzero) (by omega))
    positivity

/-- Losing launches or snapshots turns no gate to a pass. -/
theorem gatePasses_of_lost
    (h : a.reconcile snapshotRows slotRangeStart slotRangeEnd nowMs = .ok report)
    (h' : a'.reconcile snapshotRows' slotRangeStart' slotRangeEnd' nowMs' = .ok report')
    (hdeclared : a'.declaredMaxMissRate = a.declaredMaxMissRate)
    (hconfidence : a'.confidenceLevel = a.confidenceLevel)
    (htotal : report.censusTotal ≤ report'.censusTotal)
    (hcomplete : report'.recordedComplete ≤ report.recordedComplete)
    (hpasses : report'.gatePasses) : report.gatePasses := by
  obtain ⟨index, -, rfl⟩ := ok_of_reconcile h
  obtain ⟨index', -, rfl⟩ := ok_of_reconcile h'
  have hcount := report_counts a index slotRangeStart slotRangeEnd nowMs
  have hcount' := report_counts a' index' slotRangeStart' slotRangeEnd' nowMs'
  have hbound : (a'.report index' slotRangeStart' slotRangeEnd' nowMs').missRateUpperBound ≤
      a.declaredMaxMissRate := hdeclared ▸ hpasses
  have hle : (a.poolCreatesInSlotRange slotRangeStart slotRangeEnd).length ≤
      (a'.poolCreatesInSlotRange slotRangeStart' slotRangeEnd').length := htotal
  refine le_trans (report_missRateUpperBound a index slotRangeStart slotRangeEnd nowMs).le
    (le_trans ?_ hbound)
  split_ifs with hzero
  · exact missRateUpperBound_nonneg a' index' slotRangeStart' slotRangeEnd' nowMs'
  · rw [report_missRateUpperBound a', hconfidence, if_neg (by omega)]
    exact wilsonUpperBound_mono (Nat.pos_of_ne_zero hzero) hcount hcount' hle hcomplete

/-- With fewer snapshot rows no more launches are complete. -/
theorem recordedComplete_le_of_subset
    (h : a.reconcile snapshotRows slotRangeStart slotRangeEnd nowMs = .ok report)
    (h' : a.reconcile snapshotRows' slotRangeStart slotRangeEnd nowMs = .ok report')
    (hsubset : ∀ r ∈ snapshotRows', r ∈ snapshotRows) :
    report'.censusTotal = report.censusTotal ∧
      report'.recordedComplete ≤ report.recordedComplete := by
  obtain ⟨index, hindexed, rfl⟩ := ok_of_reconcile h
  obtain ⟨index', hindexed', rfl⟩ := ok_of_reconcile h'
  refine ⟨rfl, ?_⟩
  simp only [CompletenessAuditor.report, List.countP_map]
  refine List.countP_mono_left fun cr _ hcomplete => ?_
  simp only [Function.comp_apply, decide_eq_true_eq] at hcomplete ⊢
  obtain ⟨row, hrow, hmint, hstatus⟩ := (hindexed'.complete_iff cr).1 hcomplete
  refine (hindexed.complete_iff cr).2 ⟨row, ?_, hmint, hstatus⟩
  obtain ⟨raw, hraw, rfl⟩ := List.mem_map.1 hrow
  exact List.mem_map_of_mem (hsubset raw hraw)

end Gate

/-- **Missing one more launch never helps the gate.**  The bound is no less than the miss rate and no
more than 1, and grows with a launch that becomes censored and with a censored launch that is added.
So of two audits under one declared maximum the one of at least as many launches, no more of them
complete, fails where the other does; and so does an audit that is left with fewer snapshot rows. -/
theorem missing_never_helps (confidence : ℚ) :
    (∀ m n : ℕ, 1 ≤ n → m ≤ n →
      (m / n : ℝ) ≤ wilsonUpperBound m n confidence ∧ wilsonUpperBound m n confidence ≤ 1 ∧
      (m + 1 ≤ n →
        wilsonUpperBound m n confidence ≤ wilsonUpperBound (m + 1) n confidence) ∧
      wilsonUpperBound m n confidence ≤ wilsonUpperBound (m + 1) (n + 1) confidence) ∧
    (∀ (a a' : CompletenessAuditor) (snapshotRows snapshotRows' : List SnapshotDict)
      (slotRangeStart slotRangeEnd nowMs slotRangeStart' slotRangeEnd' nowMs' : ℤ)
      (report report' : AuditReport),
      a.reconcile snapshotRows slotRangeStart slotRangeEnd nowMs = .ok report →
      a'.reconcile snapshotRows' slotRangeStart' slotRangeEnd' nowMs' = .ok report' →
      a.confidenceLevel = confidence → a'.confidenceLevel = confidence →
      a'.declaredMaxMissRate = a.declaredMaxMissRate →
      report.censusTotal ≤ report'.censusTotal →
      report'.recordedComplete ≤ report.recordedComplete →
      ¬ report.gatePasses → ¬ report'.gatePasses) ∧
    ∀ (a : CompletenessAuditor) (snapshotRows snapshotRows' : List SnapshotDict)
      (slotRangeStart slotRangeEnd nowMs : ℤ) (report report' : AuditReport),
      a.confidenceLevel = confidence →
      a.reconcile snapshotRows slotRangeStart slotRangeEnd nowMs = .ok report →
      a.reconcile snapshotRows' slotRangeStart slotRangeEnd nowMs = .ok report' →
      (∀ r ∈ snapshotRows', r ∈ snapshotRows) →
      ¬ report.gatePasses → ¬ report'.gatePasses := by
  refine ⟨?_, ?_, ?_⟩
  · intro m n hn hmn
    exact ⟨rate_le_wilsonUpperBound hn hmn, wilsonUpperBound_le_one m n confidence,
      wilsonUpperBound_le_of_censored, wilsonUpperBound_le_of_added hn hmn⟩
  · intro a a' snapshotRows snapshotRows' start stop now start' stop' now' report report'
      h h' hconfidence hconfidence' hdeclared htotal hcomplete hfails hpasses
    exact hfails (gatePasses_of_lost h h' hdeclared (hconfidence'.trans hconfidence.symm) htotal
      hcomplete hpasses)
  · intro a snapshotRows snapshotRows' start stop now report report' _ h h' hsubset hfails hpasses
    obtain ⟨htotal, hcomplete⟩ := recordedComplete_le_of_subset h h' hsubset
    exact hfails (gatePasses_of_lost h h' rfl rfl htotal.ge hcomplete hpasses)

/-- A census of two of which one is recorded fails under a declared maximum of 5 %.  It fails too
without the one, and with its second row dropped. -/
theorem missing_never_helps_sample :
    wilsonUpperBound 1 2 0.95 ≤ wilsonUpperBound 2 2 0.95 ∧
    (∃ report, (auditorOf twoLaunches 0.05).reconcile [] 0 9 0 = .ok report ∧
      ¬ report.gatePasses) ∧
    ∃ report, (auditorOf twoLaunches 0.05).reconcile [completeRow "A" 3] 0 9 0 = .ok report ∧
      ¬ report.gatePasses := by
  have hnever := missing_never_helps 0.95
  have hhalf := (hnever.1 1 2 (by decide) (by decide)).1
  have hupper : ¬ wilsonUpperBound 1 2 0.95 ≤ 0.05 := by
    norm_num at hhalf ⊢
    linarith
  refine ⟨(hnever.1 1 2 (by decide) (by decide)).2.2.1 (by decide), ⟨_, rfl, ?_⟩, _, rfl, ?_⟩
  · exact hnever.2.1 (auditorOf twoLaunches 0.05) (auditorOf twoLaunches 0.05)
      [completeRow "A" 3] [] 0 9 0 0 9 0 _ _ rfl rfl rfl rfl rfl (by decide) (by decide) hupper
  · exact hnever.2.2 (auditorOf twoLaunches 0.05) [completeRow "A" 4, completeRow "A" 3]
      [completeRow "A" 3] 0 9 0 _ _ rfl rfl rfl (by simp) hupper

end Ingestion
end AatsSniper

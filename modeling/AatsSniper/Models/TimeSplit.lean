/-
# The time-forward split

`time_forward_split` of `aats/models/training.py`: the examples in the order of their event times,
cut by count into a training part, a calibration part and a test part.

The cut by count falls where it falls.  Examples of one event time may be on both sides of it, and
an example before it may have a label that resolves after a decision behind it; the audit looks at
the rows one by one and at neither.  Nothing leaks forward exactly where both cuts by count are cuts
by time that no label reaches across (`splitsForward_iff`).
-/

import AatsSniper.Lib.Decimal
import AatsSniper.Lib.Sort
import AatsSniper.Models.LabelJoin

namespace AatsSniper
namespace Models

variable {ρ : Type}

/-- `TimeForwardSplit`. -/
structure TimeForwardSplit (ρ : Type) where
  train : List (JoinedExample ρ)
  calib : List (JoinedExample ρ)
  test : List (JoinedExample ρ)

/-- `event_time_key(et)`, in the order of the keys. -/
def EventTime.stamp (et : EventTime) : ℕ ×ₗ ℕ := toLex (eventTimeKey et)

/-- `int(n * frac)`, for a fraction that is not negative. -/
def cutCount (n : ℕ) (frac : ℚ) : ℕ := (truncate (n * frac)).toNat

/-- `time_forward_split(examples, train_frac, calib_frac)`. -/
def timeForwardSplit (examples : List (JoinedExample ρ)) (trainFrac calibFrac : ℚ) :
    TimeForwardSplit ρ :=
  let ordered := sortBy (fun e => e.featureEventTime.stamp) examples
  let n := ordered.length
  let nTrain := cutCount n trainFrac
  let nCalib := cutCount n calibFrac
  { train := ordered.take nTrain
    calib := (ordered.take (nTrain + nCalib)).drop nTrain
    test := ordered.drop (nTrain + nCalib) }

/-- Every event time of the first part is before every one of the second, and no label of the
first resolves after a decision of the second. -/
def Forward (before behind : List (JoinedExample ρ)) : Prop :=
  ∀ a ∈ before, ∀ b ∈ behind, a.featureEventTime.stamp < b.featureEventTime.stamp ∧
    a.resolutionEventTime.stamp ≤ b.decisionEventTime.stamp

/-- What the split is to be: a partition of the examples that leaks nothing forward. -/
structure SplitsForward (examples : List (JoinedExample ρ)) (split : TimeForwardSplit ρ) :
    Prop where
  partition : (split.train ++ split.calib ++ split.test).Perm examples
  train_calib : Forward split.train split.calib
  train_test : Forward split.train split.test
  calib_test : Forward split.calib split.test

/-- A cut of `k` examples by time that no label reaches across: `k` of them are before some time
`t`, and none of these resolves after a decision of one that is not. -/
def CleanCut (examples : List (JoinedExample ρ)) (k : ℕ) : Prop :=
  ∃ t, (examples.countP fun e => decide (e.featureEventTime.stamp < t)) = k ∧
    ∀ a ∈ examples, ∀ b ∈ examples, a.featureEventTime.stamp < t →
      t ≤ b.featureEventTime.stamp → a.resolutionEventTime.stamp ≤ b.decisionEventTime.stamp

section Split

variable {examples ordered : List (JoinedExample ρ)} {trainFrac calibFrac : ℚ} {k : ℕ}

theorem cutCount_add_le (n : ℕ) (htrain : 0 ≤ trainFrac) (hcalib : 0 ≤ calibFrac)
    (hsum : trainFrac + calibFrac ≤ 1) : cutCount n trainFrac + cutCount n calibFrac ≤ n := by
  have hn : (0 : ℚ) ≤ n := Nat.cast_nonneg n
  have hfloor : ∀ frac : ℚ, 0 ≤ frac → ((cutCount n frac : ℕ) : ℚ) ≤ n * frac := by
    intro frac hfrac
    have hnonneg : 0 ≤ (n : ℚ) * frac := mul_nonneg hn hfrac
    have hcast : ((cutCount n frac : ℕ) : ℤ) = ⌊(n : ℚ) * frac⌋ := by
      rw [cutCount, truncate_of_nonneg hnonneg]
      exact Int.toNat_of_nonneg (Int.floor_nonneg.2 hnonneg)
    have hle := Int.floor_le ((n : ℚ) * frac)
    rw [← hcast] at hle
    exact_mod_cast hle
  have hshare : (n : ℚ) * (trainFrac + calibFrac) ≤ n * 1 := mul_le_mul_of_nonneg_left hsum hn
  have hlt := hfloor trainFrac htrain
  have hlc := hfloor calibFrac hcalib
  have : ((cutCount n trainFrac + cutCount n calibFrac : ℕ) : ℚ) ≤ n := by
    push_cast
    linarith
  exact_mod_cast this

/-- The two sides of a cut of the ordered examples, and a clean cut. -/
theorem forward_take_drop (hperm : ordered.Perm examples)
    (hsorted : ordered.Pairwise fun a b =>
      a.featureEventTime.stamp ≤ b.featureEventTime.stamp) (hk : k ≤ ordered.length) :
    Forward (ordered.take k) (ordered.drop k) ↔ CleanCut examples k := by
  constructor
  · intro hforward
    obtain ⟨t, ht⟩ := exists_cut_key hk hsorted fun a ha b hb => (hforward a ha b hb).1
    refine ⟨t, (hperm.countP_eq _).symm.trans ht, fun a ha b hb hat htb => ?_⟩
    have htake := take_countP hsorted t
    have hdrop := drop_countP hsorted t
    rw [ht] at htake hdrop
    refine (hforward a ?_ b ?_).2
    · rw [htake]
      exact List.mem_filter.2 ⟨hperm.mem_iff.2 ha, decide_eq_true hat⟩
    · rw [hdrop]
      exact List.mem_filter.2 ⟨hperm.mem_iff.2 hb, decide_eq_true htb⟩
  · rintro ⟨t, ht, hclean⟩ a ha b hb
    have hcount := (hperm.countP_eq fun e => decide (e.featureEventTime.stamp < t)).trans ht
    rw [← hcount, take_countP hsorted t] at ha
    rw [← hcount, drop_countP hsorted t] at hb
    obtain ⟨ha, hat⟩ := List.mem_filter.1 ha
    obtain ⟨hb, htb⟩ := List.mem_filter.1 hb
    have hat' := of_decide_eq_true hat
    have htb' := of_decide_eq_true htb
    exact ⟨hat'.trans_le htb',
      hclean a (hperm.mem_iff.1 ha) b (hperm.mem_iff.1 hb) hat' htb'⟩

/-- The parts put together again. -/
theorem split_append (ordered : List (JoinedExample ρ)) (k c : ℕ) :
    ordered.take k ++ (ordered.take (k + c)).drop k = ordered.take (k + c) ∧
      (ordered.take (k + c)).drop k ++ ordered.drop (k + c) = ordered.drop k := by
  constructor
  · have hfront : ordered.take k = (ordered.take (k + c)).take k := by
      rw [List.take_take, min_eq_left (Nat.le_add_right k c)]
    rw [hfront, List.take_append_drop]
  · rw [List.drop_take, Nat.add_sub_cancel_left, ← List.drop_drop, List.take_append_drop]

/-- **The split leaks nothing forward** exactly where both of its cuts are clean cuts by time: the
examples that a cut by count puts in front of it are those before some time, and no label of theirs
resolves after a decision behind it. -/
theorem splitsForward_iff (examples : List (JoinedExample ρ)) (htrain : 0 ≤ trainFrac)
    (hcalib : 0 ≤ calibFrac) (hsum : trainFrac + calibFrac ≤ 1) :
    SplitsForward examples (timeForwardSplit examples trainFrac calibFrac) ↔
      CleanCut examples (cutCount examples.length trainFrac) ∧
      CleanCut examples
        (cutCount examples.length trainFrac + cutCount examples.length calibFrac) := by
  set ordered := sortBy (fun e => e.featureEventTime.stamp) examples with hordered
  have hperm : ordered.Perm examples := sortBy_perm _ examples
  have hsorted := pairwise_sortBy (fun e : JoinedExample ρ => e.featureEventTime.stamp) examples
  have hcounts := cutCount_add_le examples.length htrain hcalib hsum
  set k := cutCount examples.length trainFrac with hk
  set c := cutCount examples.length calibFrac with hc
  have hparts := split_append ordered k c
  have hsplit : timeForwardSplit examples trainFrac calibFrac =
      ⟨ordered.take k, (ordered.take (k + c)).drop k, ordered.drop (k + c)⟩ := by
    simp only [timeForwardSplit, ← hordered, hperm.length_eq, ← hk, ← hc]
  have hlength := hperm.length_eq
  rw [hsplit, ← forward_take_drop hperm hsorted (by omega),
    ← forward_take_drop hperm hsorted (by omega)]
  constructor
  · intro h
    constructor
    · intro a ha b hb
      rw [← hparts.2] at hb
      rcases List.mem_append.1 hb with hb | hb
      · exact h.train_calib a ha b hb
      · exact h.train_test a ha b hb
    · intro a ha b hb
      rw [← hparts.1] at ha
      rcases List.mem_append.1 ha with ha | ha
      · exact h.train_test a ha b hb
      · exact h.calib_test a ha b hb
  · rintro ⟨hfirst, hsecond⟩
    refine ⟨?_, fun a ha b hb => ?_, fun a ha b hb => ?_, fun a ha b hb => ?_⟩
    · dsimp only
      rw [hparts.1, List.take_append_drop]
      exact hperm
    · refine hfirst a ha b ?_
      rw [← hparts.2]
      exact List.mem_append_left _ hb
    · refine hfirst a ha b ?_
      rw [← hparts.2]
      exact List.mem_append_right _ hb
    · refine hsecond a ?_ b hb
      rw [← hparts.1]
      exact List.mem_append_right _ ha

/-- An event time of a slot. -/
def atSlot (slot : ℕ) : EventTime := ⟨slot, slot + 1, 0, Nat.succ_pos slot⟩

/-- An example of a slot whose label resolves `horizon` slots later. -/
def exampleAt (slot horizon : ℕ) : JoinedExample Unit :=
  ⟨(), 0, atSlot slot, atSlot slot, atSlot (slot + horizon)⟩

/-- Two examples, the label of the first resolved when the second is decided, in halves. -/
theorem splitsForward_halves :
    SplitsForward [exampleAt 1 1, exampleAt 2 1]
      (timeForwardSplit [exampleAt 1 1, exampleAt 2 1] (1 / 2) (1 / 2)) := by
  have hcounts : cutCount [exampleAt 1 1, exampleAt 2 1].length (1 / 2) = 1 := by decide +kernel
  refine (splitsForward_iff _ (by norm_num) (by norm_num) (by norm_num)).2 ?_
  rw [hcounts]
  exact ⟨⟨(atSlot 2).stamp, by decide, by decide⟩, ⟨(atSlot 3).stamp, by decide, by decide⟩⟩

/-- Two examples that pass the audit and leak forward in halves: at one event time, and with a
label of the first that resolves after the second is decided. -/
theorem split_leaks_forward :
    ((∃ summary, assertEventTimeLeqDecision [exampleAt 1 1, exampleAt 1 1] = .ok summary) ∧
      ¬ SplitsForward [exampleAt 1 1, exampleAt 1 1]
        (timeForwardSplit [exampleAt 1 1, exampleAt 1 1] (1 / 2) (1 / 2))) ∧
    (∃ summary, assertEventTimeLeqDecision [exampleAt 1 5, exampleAt 2 1] = .ok summary) ∧
      ¬ SplitsForward [exampleAt 1 5, exampleAt 2 1]
        (timeForwardSplit [exampleAt 1 5, exampleAt 2 1] (1 / 2) (1 / 2)) := by
  refine ⟨⟨exists_audit_eq_ok (by simp) ?_, fun h => ?_⟩,
    exists_audit_eq_ok (by simp) ?_, fun h => ?_⟩
  · decide
  · have hleaks := h.train_calib (exampleAt 1 1) (by decide +kernel) (exampleAt 1 1)
      (by decide +kernel)
    exact lt_irrefl _ hleaks.1
  · decide
  · have hleaks := h.train_calib (exampleAt 1 5) (by decide +kernel) (exampleAt 2 1)
      (by decide +kernel)
    exact absurd hleaks.2 (by decide)

end Split

end Models
end AatsSniper

/-
# How long the soft pause holds

Once the net of a day has crossed the soft limit, new entries are to stay paused until an
event of a later day is recorded.  The breaker derives the pause from the days it
marked and from the day of the last event, and a restart derives the marks from the
one net that was persisted.  So an event of an earlier day lifts the pause, and so
does a restart after the net has recovered.

`pauseHolds_iff_keepsPause` says which steps of a run do not: `Owes` are the days that
owe a pause, on the events alone, and `KeepsPause` is what a step has to meet for the
breaker to be paused after it wherever a day owes one.
-/

import AatsSniper.Breaker.Outcome

namespace AatsSniper
namespace Breaker

/-- `record_pnl` and restarts: no signal and no operator. -/
inductive DayOp
  | record (event : PnLEvent) (flattenRaises : Bool)
  | restart

namespace DayOp

/-- As an operation of the breaker. -/
def toOp : DayOp → Op
  | .record event flattenRaises => .recordPnl event flattenRaises
  | .restart => .restart

/-- The UTC day of the event, where `datetime` has it. -/
def day : DayOp → Option ℤ
  | .record event _ =>
      if event.blockTimeMs < endOfYear9999 then some (utcDay event.blockTimeMs) else none
  | .restart => none

/-- The event's PnL. -/
def delta : DayOp → ℤ
  | .record event _ => event.deltaLamports
  | .restart => 0

end DayOp

/-- The breaker after an event or a restart. -/
def dayNext (config : RiskConfig) (soft : SoftRatio) (b : CircuitBreaker) (op : DayOp) :
    Except BreakerError CircuitBreaker :=
  next config soft b op.toOp

/-- The net of a day, over the events recorded so far. -/
def dayNet (ops : List DayOp) (day : ℤ) : ℤ :=
  ((ops.filter fun op => decide (op.day = some day)).map DayOp.delta).sum

theorem dayNet_snoc {ops : List DayOp} {op : DayOp} {day : ℤ} (h : op.day = some day) :
    dayNet (ops ++ [op]) day = dayNet ops day + op.delta := by
  unfold dayNet
  rw [List.filter_append, List.filter_cons_of_pos (by simpa using h), List.filter_nil,
    List.map_append, List.sum_append]
  simp

variable (config : RiskConfig) (soft : SoftRatio)

/-- The net of the day has crossed the soft limit and no event of a later day was recorded
since. -/
def Owes (ops : List DayOp) (day : ℤ) : Prop :=
  ∃ before op after, ops = before ++ op :: after ∧ op.day = some day ∧
    Crosses config soft (dayNet (before ++ [op]) day) ∧
    ∀ op' ∈ after, ∀ later, op'.day = some later → later ≤ day

/-- While a day owes a pause, no entry is allowed. -/
def PauseHolds (ops : List DayOp) (b : CircuitBreaker) : Prop :=
  ∀ day, Owes config soft ops day → b.entriesAllowed = false

/-- What keeps the pause.  An event: the breaker is tripped, the event's day is marked or the net
the breaker has of it crosses the soft limit, or nothing is owed from that day on.  A
restart: the breaker is tripped, the persisted net crosses the soft limit, or nothing is owed. -/
def KeepsPause (ops : List DayOp) (b : CircuitBreaker) : DayOp → Prop
  | .record event _ =>
      event.blockTimeMs < endOfYear9999 →
        b.state.state = .tripped ∨ utcDay event.blockTimeMs ∈ b.softReducedDays ∨
          Crosses config soft (netAfter b event) ∨
          (¬ Crosses config soft
              (dayNet ops (utcDay event.blockTimeMs) + event.deltaLamports) ∧
            ∀ day, Owes config soft ops day → day < utcDay event.blockTimeMs)
  | .restart =>
      b.state.state = .tripped ∨
        (b.state.dailyNetPnlDayUtc.isSome ∧ Crosses config soft b.state.dailyNetPnlLamports) ∨
        ∀ day, ¬ Owes config soft ops day

variable {config soft} {b b' : CircuitBreaker}

theorem owes_nil {day : ℤ} : ¬ Owes config soft [] day := by
  rintro ⟨before, op, after, h, -⟩
  simp at h

/-- One more step ends what is owed by the days before its own, and may add its own. -/
theorem owes_snoc {ops : List DayOp} {op : DayOp} {day : ℤ} :
    Owes config soft (ops ++ [op]) day ↔
      (Owes config soft ops day ∧ ∀ later, op.day = some later → later ≤ day) ∨
        (op.day = some day ∧ Crosses config soft (dayNet ops day + op.delta)) := by
  constructor
  · rintro ⟨before, first, after, hsplit, hday, hcrosses, hlater⟩
    obtain ⟨rfl, rfl, rfl⟩ | ⟨after', rfl, rfl⟩ := snoc_split hsplit
    · rw [dayNet_snoc hday] at hcrosses
      exact .inr ⟨hday, hcrosses⟩
    · refine .inl ⟨⟨before, first, after', rfl, hday, hcrosses, fun op' hop' => ?_⟩, ?_⟩
      · exact hlater op' (List.mem_append_left _ hop')
      · exact hlater op (List.mem_append_right _ (List.mem_singleton_self op))
  · rintro (⟨⟨before, first, after, rfl, hday, hcrosses, hlater⟩, hlast⟩ | ⟨hday, hcrosses⟩)
    · refine ⟨before, first, after ++ [op], by simp, hday, hcrosses, fun op' hop' => ?_⟩
      rcases List.mem_append.1 hop' with hmem | hmem
      · exact hlater op' hmem
      · obtain rfl := List.mem_singleton.1 hmem
        exact hlast
    · refine ⟨ops, op, [], rfl, hday, ?_, by simp⟩
      rwa [dayNet_snoc hday]

/-- A step with no event of its own leaves what is owed. -/
theorem owes_snoc_of_no_day {ops : List DayOp} {op : DayOp} {day : ℤ} (h : op.day = none) :
    Owes config soft (ops ++ [op]) day ↔ Owes config soft ops day := by
  rw [owes_snoc, h]
  simp

theorem entriesAllowed_iff : b.entriesAllowed = true ↔
    b.state.state = .armed ∧ ∀ day, b.currentDay = some day → day ∉ b.softReducedDays := by
  unfold CircuitBreaker.entriesAllowed CircuitBreaker.reduced
  cases hstate : b.state.state with
  | armed =>
      cases hday : b.currentDay with
      | none => simp
      | some day => simp
  | tripped => simp

/-- After an event: iff the breaker was armed, and its day neither was marked nor crosses. -/
theorem Recorded.entriesAllowed_iff {event : PnLEvent} {day : ℤ}
    (h : Recorded config soft b event day b') :
    b'.entriesAllowed = true ↔
      b.state.state = .armed ∧ day ∉ b.softReducedDays ∧
        ¬ Crosses config soft (b.dayPnl day + event.deltaLamports) := by
  rw [Breaker.entriesAllowed_iff]
  cases h with
  | raised hevaluate =>
      have hcrosses := not_crosses_of_error hevaluate
      simp [booked, hcrosses]
  | tripped hevaluate htripped harmed hs =>
      have hcrosses := (crosses_of_ok hevaluate).2 (evaluate_soft_of_tripped hevaluate htripped)
      simp [latched, (newTripped_spec hs).1, hcrosses]
  | kept hevaluate hkeeps =>
      rw [crosses_of_ok hevaluate]
      show b.state.state = .armed ∧ _ ↔ _
      refine and_congr_right fun _ => ?_
      split_ifs with hsoft
      · simp [booked, hsoft]
      · simp [booked, hsoft]

/-- After a restart: iff the breaker was armed and the persisted net does not cross. -/
theorem restored_entriesAllowed_iff {s : BreakerState} {flattened : List (Option Threshold)} :
    (restored config soft s flattened).entriesAllowed = true ↔
      s.state = .armed ∧
        ¬ (s.dailyNetPnlDayUtc.isSome ∧ Crosses config soft s.dailyNetPnlLamports) := by
  rw [entriesAllowed_iff]
  show s.state = .armed ∧ (∀ day, s.dailyNetPnlDayUtc = some day → day ∉ restoredDays config soft s) ↔ _
  refine and_congr_right fun harmed => ?_
  unfold restoredDays
  cases hday : s.dailyNetPnlDayUtc with
  | none => simp
  | some day =>
      by_cases hcrosses : Crosses config soft s.dailyNetPnlLamports
      · simp [hcrosses]
      · simp [hcrosses, harmed]

theorem armed_of_not_tripped {s : BreakerState} (h : s.state ≠ .tripped) : s.state = .armed := by
  cases hstate : s.state with
  | armed => rfl
  | tripped => exact absurd hstate h

theorem pauseHolds_iff {ops : List DayOp} :
    PauseHolds config soft ops b ↔
      b.entriesAllowed = true → ∀ day, ¬ Owes config soft ops day := by
  unfold PauseHolds
  constructor
  · intro h hallowed day howes
    rw [h day howes] at hallowed
    exact Bool.false_ne_true hallowed
  · intro h day howes
    by_contra hallowed
    exact h (Bool.not_eq_false _ ▸ hallowed) day howes

/-- Nothing is owed after an event iff its own day does not cross and all that was owed is earlier. -/
theorem not_owes_snoc_iff {ops : List DayOp} {op : DayOp} {day : ℤ} (h : op.day = some day) :
    (∀ day', ¬ Owes config soft (ops ++ [op]) day') ↔
      ¬ Crosses config soft (dayNet ops day + op.delta) ∧
        ∀ day', Owes config soft ops day' → day' < day := by
  simp only [owes_snoc, h]
  constructor
  · intro hnone
    refine ⟨fun hcrosses => hnone day (.inr ⟨rfl, hcrosses⟩), fun day' howes => ?_⟩
    by_contra hlate
    refine hnone day' (.inl ⟨howes, fun later hlater => ?_⟩)
    obtain rfl := Option.some.inj hlater
    omega
  · rintro ⟨hcrosses, hearlier⟩ day' (⟨howes, hlater⟩ | ⟨hday, hcrosses'⟩)
    · have hlt := hearlier day' howes
      have hle := hlater day rfl
      omega
    · obtain rfl := Option.some.inj hday
      exact hcrosses hcrosses'

/-- An event of a representable day keeps the pause iff it meets the condition. -/
theorem pauseHolds_record_iff {ops : List DayOp} {event : PnLEvent} {raises : Bool}
    (htime : event.blockTimeMs < endOfYear9999) :
    PauseHolds config soft (ops ++ [.record event raises]) (recordPnl config soft b event raises).2 ↔
      KeepsPause config soft ops b (.record event raises) := by
  have hday : (DayOp.record event raises).day = some (utcDay event.blockTimeMs) := if_pos htime
  have hrecorded : Recorded config soft b event (utcDay event.blockTimeMs)
      (recordPnl config soft b event raises).2 := recorded_of_recordPnl raises htime
  rw [pauseHolds_iff, hrecorded.entriesAllowed_iff, not_owes_snoc_iff hday]
  unfold KeepsPause netAfter
  constructor
  · intro hholds _
    by_contra hnot
    push Not at hnot
    obtain ⟨harmed, hunmarked, hcrosses, howes⟩ := hnot
    obtain ⟨htrue, hearlier⟩ := hholds ⟨armed_of_not_tripped harmed, hunmarked, hcrosses⟩
    obtain ⟨day, howed, hlate⟩ := howes htrue
    exact absurd (hearlier day howed) (not_lt.2 hlate)
  · rintro hkeeps ⟨harmed, hunmarked, hcrosses⟩
    obtain htripped | hmarked | hcrosses' | howes := hkeeps htime
    · rw [harmed] at htripped
      cases htripped
    · exact absurd hmarked hunmarked
    · exact absurd hcrosses' hcrosses
    · exact howes

/-- A restart keeps the pause iff it meets the condition. -/
theorem pauseHolds_restart_iff {ops : List DayOp} :
    PauseHolds config soft (ops ++ [.restart]) (restored config soft b.state b.flattened) ↔
      KeepsPause config soft ops b .restart := by
  have hnone : (∀ day, ¬ Owes config soft (ops ++ [.restart]) day) ↔
      ∀ day, ¬ Owes config soft ops day :=
    forall_congr' fun day => not_congr (owes_snoc_of_no_day rfl)
  rw [pauseHolds_iff, restored_entriesAllowed_iff, hnone]
  unfold KeepsPause
  constructor
  · intro hholds
    by_contra hnot
    push Not at hnot
    obtain ⟨harmed, hcrosses, day, howes⟩ := hnot
    exact hholds ⟨armed_of_not_tripped harmed, fun h => hcrosses h.1 h.2⟩ day howes
  · rintro (htripped | hcrosses | hnone) ⟨harmed, hcrosses'⟩
    · rw [harmed] at htripped
      cases htripped
    · exact absurd hcrosses hcrosses'
    · exact hnone

/-- **How long the soft pause holds.**  Over any events in any order and any restarts, entries are
paused in every state in which a day owes a pause iff every step keeps the pause. -/
theorem pauseHolds_iff_keepsPause (config : RiskConfig) (soft : SoftRatio) (ops : List DayOp) :
    EveryState (dayNext config soft) (PauseHolds config soft) (firstBoot []) ops ↔
      EveryStep (dayNext config soft) (KeepsPause config soft) (firstBoot []) ops := by
  refine everyState_iff_everyStep (J := Sound config soft) (fun day howes => absurd howes owes_nil)
    sound_firstBoot ?_ ops
  intro inputs b op hsound hholds
  obtain ⟨b', hnext, hsound'⟩ := sound_next hsound op.toOp
  refine ⟨b', hnext, ?_, fun _ => hsound'⟩
  cases op with
  | record event raises =>
      obtain rfl := Except.ok.inj hnext
      by_cases htime : event.blockTimeMs < endOfYear9999
      · exact pauseHolds_record_iff htime
      · have hday : (DayOp.record event raises).day = none := if_neg htime
        rw [recordPnl_snd_of_late htime]
        refine ⟨fun _ hin => absurd hin htime, fun _ day howes => ?_⟩
        exact hholds day ((owes_snoc_of_no_day hday).1 howes)
  | restart =>
      obtain rfl := Except.ok.inj ((restart_eq_restored hsound).symm.trans hnext)
      exact pauseHolds_restart_iff

/-- A loss of 0.01 SOL on a day crosses the default soft limit. -/
def softLoss (time : ℤ) (h : 0 ≤ time) : DayOp := .record ⟨time, -10000000, h⟩ false

/-- The loss is made good the same day, then the process restarts. -/
def recoveredThenRestarted : List DayOp :=
  [softLoss 0 le_rfl, .record ⟨1, 10000000, by decide⟩ false, .restart]

/-- The loss of the second day is followed by a gain of the first. -/
def lateGain : List DayOp :=
  [softLoss 86400000 (by decide), .record ⟨0, 1, le_rfl⟩ false]

/-- No event of a later day is recorded, and entries are allowed again. -/
theorem pause_lost_on_restart_and_on_late_event :
    (Owes defaultConfig defaultSoftRatio recoveredThenRestarted 0 ∧
      ¬ EveryState (dayNext defaultConfig defaultSoftRatio)
        (PauseHolds defaultConfig defaultSoftRatio) (firstBoot []) recoveredThenRestarted) ∧
    (Owes defaultConfig defaultSoftRatio lateGain 1 ∧
      ¬ EveryState (dayNext defaultConfig defaultSoftRatio)
        (PauseHolds defaultConfig defaultSoftRatio) (firstBoot []) lateGain) := by
  have hrecovered : Owes defaultConfig defaultSoftRatio recoveredThenRestarted 0 :=
    ⟨[], _, _, rfl, by decide +kernel, by decide +kernel, by decide +kernel⟩
  have hlate : Owes defaultConfig defaultSoftRatio lateGain 1 :=
    ⟨[], _, _, rfl, by decide +kernel, by decide +kernel, by decide +kernel⟩
  refine ⟨⟨hrecovered, fun hholds => ?_⟩, hlate, fun hholds => ?_⟩
  · obtain ⟨b, hrun, hallowed⟩ := exists_ok_of_any
      (x := runSteps (dayNext defaultConfig defaultSoftRatio) (firstBoot []) recoveredThenRestarted)
      (p := CircuitBreaker.entriesAllowed) (by decide +kernel)
    have hpaused := hholds _ [] b (List.append_nil _).symm hrun 0 hrecovered
    rw [hallowed] at hpaused
    cases hpaused
  · obtain ⟨b, hrun, hallowed⟩ := exists_ok_of_any
      (x := runSteps (dayNext defaultConfig defaultSoftRatio) (firstBoot []) lateGain)
      (p := CircuitBreaker.entriesAllowed) (by decide +kernel)
    have hpaused := hholds _ [] b (List.append_nil _).symm hrun 1 hlate
    rw [hallowed] at hpaused
    cases hpaused

end Breaker
end AatsSniper

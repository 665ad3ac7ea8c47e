/-
# What one operation does to the breaker

One inversion lemma for each operation, with its exceptions: `Recorded` lists what
`record_pnl` can leave behind, `LlmTripped` what `trip_from_llm` can, and
`restart_eq_restored` says what a restart rebuilds.  Every invariant of the breaker is a
case analysis on these.

`Sound` is the invariant they share: what is held in memory is what was persisted, and
the net persisted by an armed breaker passed `_evaluate`, so a restart never raises.
-/

import AatsSniper.Breaker.Trips

namespace AatsSniper
namespace Breaker

variable {config : RiskConfig} {soft : SoftRatio} {b b' : CircuitBreaker}

/-- The breaker with the event's day current and its net booked. -/
def booked (b : CircuitBreaker) (day net : ℤ) : CircuitBreaker :=
  { b with currentDay := some day, dayPnl := Function.update b.dayPnl day net }

/-- The breaker with the tripped state held, persisted and handed to the flatten handler. -/
def latched (b : CircuitBreaker) (days : Finset ℤ) (s : BreakerState)
    (threshold : Option Threshold) : CircuitBreaker :=
  { b with
    softReducedDays := days
    state := s
    store := some s
    flattened := b.flattened ++ [threshold] }

/-- A day for every net that is not zero is all `BreakerState` asks for. -/
theorem newTripped_returns {time net : ℤ} {day : Option ℤ} {threshold : Threshold}
    (h : net ≠ 0 → day.isSome) :
    ∃ s, BreakerState.newTripped time net day threshold = .ok s := by
  have hday : net ≠ 0 → (BreakerState.dayIfNet net day).isSome := by
    intro hne
    rw [BreakerState.dayIfNet, if_pos hne]
    exact h hne
  rw [BreakerState.newTripped, dif_pos hday]
  exact ⟨_, rfl⟩

theorem newTripped_spec {time net : ℤ} {day : Option ℤ} {threshold : Threshold} {s : BreakerState}
    (h : BreakerState.newTripped time net day threshold = .ok s) :
    s.state = .tripped ∧ s.dailyNetPnlLamports = net ∧
      s.dailyNetPnlDayUtc = BreakerState.dayIfNet net day := by
  unfold BreakerState.newTripped at h
  split_ifs at h
  obtain rfl := Except.ok.inj h
  exact ⟨rfl, rfl, rfl⟩

/-- `_trip` at a time in range latches whether the handler raises or not. -/
theorem trip_eq_latched {net : ℤ} {threshold : Option Threshold} {time : ℤ} {day : Option ℤ}
    {s : BreakerState} (raises : Bool) (htime : startOfYear1 ≤ time ∧ time < endOfYear9999)
    (hs : BreakerState.newTripped time net day (threshold.getD .limitBreached) = .ok s) :
    (trip b net threshold time day raises).2 =
      latched b (day.elim b.softReducedDays (insert · b.softReducedDays)) s threshold := by
  unfold trip
  rw [utcIso_eq_ok htime]
  dsimp only
  rw [hs]
  rfl

/-- Out of range it raises before anything is touched. -/
theorem trip_eq_self {net : ℤ} {threshold : Option Threshold} {time : ℤ} {day : Option ℤ}
    {raises : Bool} (htime : ¬ (startOfYear1 ≤ time ∧ time < endOfYear9999)) :
    (trip b net threshold time day raises).2 = b := by
  unfold trip utcIso
  rw [require, if_neg htime]
  rfl

/-- The soft tier is crossed: `_evaluate` returns and says so. -/
def Crosses (config : RiskConfig) (soft : SoftRatio) (net : ℤ) : Prop :=
  (evaluate config soft net).toOption.any TripDecision.softBreached = true

instance (net : ℤ) : Decidable (Crosses config soft net) :=
  inferInstanceAs (Decidable (_ = true))

theorem crosses_of_ok {net : ℤ} {d : TripDecision} (hd : evaluate config soft net = .ok d) :
    Crosses config soft net ↔ d.softBreached = true := by
  rw [Crosses, hd]
  rfl

theorem not_crosses_of_error {net : ℤ} {e : BreakerError}
    (he : evaluate config soft net = .error e) : ¬ Crosses config soft net := by
  rw [Crosses, he]
  exact Bool.false_ne_true

/-- A decision to trip crosses the soft tier. -/
theorem evaluate_soft_of_tripped {net : ℤ} {d : TripDecision}
    (hd : evaluate config soft net = .ok d) (htripped : d.tripped = true) :
    d.softBreached = true := by
  have hpast := (evaluate_tripped_iff hd).1 htripped
  unfold evaluate at hd
  obtain ⟨softPct, -, hd⟩ := ok_of_bind hd
  dsimp only at hd
  rw [if_pos (by simpa [PastHard] using hpast)] at hd
  obtain ⟨-, hd⟩ := ok_of_require hd
  obtain rfl := Except.ok.inj hd
  rfl

/-- A handler that returns is the last thing that could raise. -/
theorem trip_returns_of_flattened {net time : ℤ}
    {threshold : Option Threshold} {day : Option ℤ}
    (h : b.flattened.length < (trip b net threshold time day false).2.flattened.length) :
    (trip b net threshold time day false).1 = .ok () := by
  unfold trip at h ⊢
  cases htime : utcIso time with
  | error e =>
      rw [htime] at h
      exact absurd h (lt_irrefl _)
  | ok trippedAt =>
      rw [htime] at h
      dsimp only at h ⊢
      cases hnew : BreakerState.newTripped trippedAt net day
        (threshold.getD .limitBreached) with
      | error e =>
          rw [hnew] at h
          exact absurd h (lt_irrefl _)
      | ok state => rfl

theorem recordOn_returns_of_flattened {event : PnLEvent} {day : ℤ}
    (h : b.flattened.length <
      (recordOn config soft b event day false).2.flattened.length) :
    ∃ state, (recordOn config soft b event day false).1 = .ok state := by
  unfold recordOn at h ⊢
  dsimp only at h ⊢
  cases hevaluate : evaluate config soft
    (b.dayPnl day + event.deltaLamports) with
  | error e =>
      rw [hevaluate] at h
      exact absurd h (lt_irrefl _)
  | ok decision =>
      rw [hevaluate] at h
      dsimp only at h ⊢
      split_ifs at h ⊢
      · dsimp only at h ⊢
        rw [trip_returns_of_flattened h]
        exact ⟨_, rfl⟩
      · exact ⟨_, rfl⟩
      · dsimp only at h ⊢
        rw [trip_returns_of_flattened h]
        exact ⟨_, rfl⟩
      · exact ⟨_, rfl⟩

theorem recordPnl_returns_of_flattened {event : PnLEvent}
    (h : b.flattened.length < (recordPnl config soft b event false).2.flattened.length) :
    ∃ state, (recordPnl config soft b event false).1 = .ok state := by
  unfold recordPnl at h ⊢
  cases hday : utcDayKey event.blockTimeMs with
  | error e =>
      rw [hday] at h
      exact absurd h (lt_irrefl _)
  | ok day =>
      rw [hday] at h
      exact recordOn_returns_of_flattened h

/-- What `record_pnl` can leave behind, for an event of the given day. -/
inductive Recorded (config : RiskConfig) (soft : SoftRatio) (b : CircuitBreaker) (event : PnLEvent)
    (day : ℤ) : CircuitBreaker → Prop
  /-- `_evaluate` raised: the net is booked, nothing is persisted. -/
  | raised {e : BreakerError}
      (hevaluate : evaluate config soft (b.dayPnl day + event.deltaLamports) = .error e) :
      Recorded config soft b event day (booked b day (b.dayPnl day + event.deltaLamports))
  /-- An armed breaker tripped. -/
  | tripped {d : TripDecision} {s : BreakerState}
      (hevaluate : evaluate config soft (b.dayPnl day + event.deltaLamports) = .ok d)
      (htripped : d.tripped = true) (harmed : b.state.state = .armed)
      (hs : BreakerState.newTripped event.blockTimeMs (b.dayPnl day + event.deltaLamports)
        (some day) (d.thresholdBreached.getD .limitBreached) = .ok s) :
      Recorded config soft b event day
        (latched (booked b day (b.dayPnl day + event.deltaLamports))
          (insert day b.softReducedDays) s d.thresholdBreached)
  /-- The latch stays as it was and the net is persisted. -/
  | kept {d : TripDecision}
      (hevaluate : evaluate config soft (b.dayPnl day + event.deltaLamports) = .ok d)
      (hkeeps : d.tripped = true → b.state.state = .tripped) :
      Recorded config soft b event day
        { booked b day (b.dayPnl day + event.deltaLamports) with
          softReducedDays :=
            if d.softBreached = true then insert day b.softReducedDays else b.softReducedDays
          state := b.state.withNet (b.dayPnl day + event.deltaLamports) day
          store := some (b.state.withNet (b.dayPnl day + event.deltaLamports) day) }

/-- **What `record_pnl` can do** with an event of a representable day. -/
theorem recorded_of_recordPnl {event : PnLEvent} (raises : Bool)
    (htime : event.blockTimeMs < endOfYear9999) :
    Recorded config soft b event (utcDay event.blockTimeMs)
      (recordPnl config soft b event raises).2 := by
  have hyears := inYears htime
  unfold recordPnl
  rw [utcDayKey_eq_ok hyears]
  dsimp only
  generalize hday : utcDay event.blockTimeMs = day
  generalize hnet : b.dayPnl day + event.deltaLamports = net
  unfold recordOn
  dsimp only
  rw [hnet]
  cases hevaluate : evaluate config soft net with
  | error e =>
      subst hnet
      exact .raised hevaluate
  | ok d =>
      dsimp only
      by_cases htrips : d.tripped = true ∧ b.state.state = .armed
      · have hsoft := evaluate_soft_of_tripped hevaluate htrips.1
        obtain ⟨s, hs⟩ : ∃ s, BreakerState.newTripped event.blockTimeMs net (some day)
            (d.thresholdBreached.getD .limitBreached) = .ok s :=
          newTripped_returns fun _ => rfl
        rw [hsoft, if_pos rfl, if_pos htrips]
        dsimp only
        rw [trip_eq_latched raises hyears hs]
        subst hnet
        have hmarked := Recorded.tripped hevaluate htrips.1 htrips.2 hs
        simpa [latched, booked] using hmarked
      · have hkeeps : d.tripped = true → b.state.state = .tripped := by
          intro htripped
          cases hstate : b.state.state with
          | armed => exact absurd ⟨htripped, hstate⟩ htrips
          | tripped => rfl
        subst hnet
        have hkept : Recorded config soft b event day _ := .kept hevaluate hkeeps
        cases hsoft : d.softBreached with
        | true =>
            rw [hsoft] at hkept
            rw [if_pos rfl, if_neg htrips]
            exact hkept
        | false =>
            rw [hsoft] at hkept
            rw [if_neg Bool.false_ne_true, if_neg htrips]
            exact hkept

/-- An event after year 9999 raises and leaves the breaker alone. -/
theorem recordPnl_snd_of_late {event : PnLEvent} {raises : Bool}
    (htime : ¬ event.blockTimeMs < endOfYear9999) :
    (recordPnl config soft b event raises).2 = b := by
  unfold recordPnl
  rw [utcDayKey_eq_error fun hyears => htime hyears.2]

/-- The text `trip_from_llm` hands to `_trip`. -/
def llmThreshold (signal : LLMDeRiskSignal) : Threshold :=
  .llmNarrativeFailure (String.ofList (signal.reason.toList.take 80))

/-- What `trip_from_llm` can leave behind. -/
inductive LlmTripped (b : CircuitBreaker) (signal : LLMDeRiskSignal) (time : ℤ) :
    CircuitBreaker → Prop
  /-- Already tripped, or no day for the signal. -/
  | unchanged (h : b.state.state = .armed → ¬ (startOfYear1 ≤ time ∧ time < endOfYear9999)) :
      LlmTripped b signal time b
  /-- The day of the net is made current, then the time is refused. -/
  | raised (harmed : b.state.state = .armed)
      (htime : ¬ (startOfYear1 ≤ time ∧ time < endOfYear9999)) :
      LlmTripped b signal time { b with currentDay := b.state.dailyNetPnlDayUtc }
  /-- An armed breaker tripped on the net it holds. -/
  | tripped {day : Option ℤ} {s : BreakerState} (harmed : b.state.state = .armed)
      (htime : startOfYear1 ≤ time ∧ time < endOfYear9999)
      (hday : day = if b.state.dailyNetPnlLamports ≠ 0 then b.state.dailyNetPnlDayUtc
        else some (utcDay time))
      (hs : BreakerState.newTripped time b.state.dailyNetPnlLamports day (llmThreshold signal) =
        .ok s) :
      LlmTripped b signal time
        (latched { b with currentDay := day }
          (day.elim b.softReducedDays (insert · b.softReducedDays)) s (some (llmThreshold signal)))

/-- **What `trip_from_llm` can do.** -/
theorem llmTripped_of_tripFromLlm (b : CircuitBreaker) (signal : LLMDeRiskSignal) (time : ℤ)
    (raises : Bool) : LlmTripped b signal time (tripFromLlm b signal time raises).2 := by
  unfold tripFromLlm
  by_cases harmed : b.state.state = .armed
  · rw [if_pos harmed]
    dsimp only
    by_cases htime : startOfYear1 ≤ time ∧ time < endOfYear9999
    · generalize hday : (if b.state.dailyNetPnlLamports ≠ 0 then b.state.dailyNetPnlDayUtc
        else some (utcDay time)) = day
      have hok : (if b.state.dailyNetPnlLamports ≠ 0 then .ok b.state.dailyNetPnlDayUtc
          else (utcDayKey time).map some) = (.ok day : Except BreakerError (Option ℤ)) := by
        rw [utcDayKey_eq_ok htime, ← hday]
        split_ifs <;> rfl
      rw [hok]
      dsimp only
      have hsome : b.state.dailyNetPnlLamports ≠ 0 → day.isSome := by
        intro hne
        rw [← hday, if_pos hne]
        exact b.state.day_key_invariant hne
      obtain ⟨s, hs⟩ : ∃ s, BreakerState.newTripped time b.state.dailyNetPnlLamports day
          ((some (llmThreshold signal)).getD .limitBreached) = .ok s :=
        newTripped_returns hsome
      have heq := trip_eq_latched (b := { b with currentDay := day }) raises htime hs
      unfold llmThreshold at heq
      rw [heq]
      exact .tripped harmed htime hday.symm hs
    · by_cases hne : b.state.dailyNetPnlLamports ≠ 0
      · rw [if_pos hne]
        dsimp only
        rw [trip_eq_self htime]
        exact .raised harmed htime
      · rw [if_neg hne, utcDayKey_eq_error htime]
        exact .unchanged fun _ => htime
  · rw [if_neg harmed]
    exact .unchanged fun h => absurd h harmed

/-- The days a restart marks: the persisted one, where the state or its net says so. -/
def restoredDays (config : RiskConfig) (soft : SoftRatio) (s : BreakerState) : Finset ℤ :=
  match s.dailyNetPnlDayUtc with
  | none => ∅
  | some day =>
      if s.state = .tripped ∨ Crosses config soft s.dailyNetPnlLamports then {day} else ∅

/-- The breaker a restart rebuilds from what was persisted. -/
def restored (config : RiskConfig) (soft : SoftRatio) (s : BreakerState)
    (flattened : List (Option Threshold)) : CircuitBreaker where
  dayPnl := s.dailyNetPnlDayUtc.elim (fun _ => 0) fun day =>
    Function.update (fun _ => 0) day s.dailyNetPnlLamports
  softReducedDays := restoredDays config soft s
  currentDay := s.dailyNetPnlDayUtc
  state := s
  store := some s
  flattened := flattened

/-- The net an armed breaker persisted passes `_evaluate`, and no day is kept for a net of zero. -/
structure Persistable (config : RiskConfig) (soft : SoftRatio) (s : BreakerState) : Prop where
  evaluates : s.state = .armed → s.dailyNetPnlLamports ≠ 0 →
    ∃ d, evaluate config soft s.dailyNetPnlLamports = .ok d
  day_of_net : s.dailyNetPnlLamports = 0 → s.dailyNetPnlDayUtc = none

/-- **What a restart rebuilds.** -/
theorem restore_eq_restored {s : BreakerState} (h : Persistable config soft s)
    (flattened : List (Option Threshold)) :
    restore config soft s flattened = .ok (restored config soft s flattened) := by
  unfold restore restored restoredDays
  by_cases hne : s.dailyNetPnlLamports ≠ 0
  · obtain ⟨day, hday⟩ := Option.isSome_iff_exists.1 (s.day_key_invariant hne)
    rw [if_pos hne, hday]
    cases hstate : s.state with
    | tripped => rfl
    | armed =>
        obtain ⟨d, hd⟩ := h.evaluates hstate hne
        rw [hd]
        simp only [crosses_of_ok hd]
        cases hsoft : d.softBreached with
        | true => simp [bind, Except.bind, pure, Except.pure, Except.map, hsoft]
        | false => simp [bind, Except.bind, pure, Except.pure, Except.map, hsoft]
  · rw [if_neg hne, h.day_of_net (not_not.1 hne)]
    rfl

/-- The state is persisted, and a restart can read it. -/
structure Sound (config : RiskConfig) (soft : SoftRatio) (b : CircuitBreaker) : Prop where
  durable : b.store = some b.state
  persistable : Persistable config soft b.state

theorem persistable_fresh : Persistable config soft .fresh where
  evaluates _ hne := absurd rfl hne
  day_of_net _ := rfl

theorem persistable_tripped {time net : ℤ} {day : Option ℤ} {threshold : Threshold}
    {s : BreakerState} (hs : BreakerState.newTripped time net day threshold = .ok s) :
    Persistable config soft s := by
  obtain ⟨hstate, hnet, hday⟩ := newTripped_spec hs
  constructor
  · intro harmed
    rw [hstate] at harmed
    cases harmed
  · intro hzero
    rw [hday, BreakerState.dayIfNet, if_neg]
    rw [← hnet]
    exact not_not.2 hzero

theorem persistable_withNet {s : BreakerState} {net day : ℤ} {d : TripDecision}
    (hevaluate : evaluate config soft net = .ok d) : Persistable config soft (s.withNet net day) where
  evaluates _ _ := ⟨d, hevaluate⟩
  day_of_net hzero := by
    show BreakerState.dayIfNet net (some day) = none
    rw [BreakerState.dayIfNet, if_neg]
    exact not_not.2 hzero

theorem Recorded.sound {event : PnLEvent} {day : ℤ} (h : Recorded config soft b event day b')
    (hb : Sound config soft b) : Sound config soft b' := by
  cases h with
  | raised _ => exact ⟨hb.durable, hb.persistable⟩
  | tripped _ _ _ hs => exact ⟨rfl, persistable_tripped hs⟩
  | kept hevaluate _ => exact ⟨rfl, persistable_withNet hevaluate⟩

theorem LlmTripped.sound {signal : LLMDeRiskSignal} {time : ℤ} (h : LlmTripped b signal time b')
    (hb : Sound config soft b) : Sound config soft b' := by
  cases h with
  | unchanged _ => exact hb
  | raised _ _ => exact ⟨hb.durable, hb.persistable⟩
  | tripped _ _ _ hs => exact ⟨rfl, persistable_tripped hs⟩

theorem restart_eq_restored (hb : Sound config soft b) :
    next config soft b .restart = .ok (restored config soft b.state b.flattened) := by
  show boot config soft b.store b.flattened = _
  rw [hb.durable]
  exact restore_eq_restored hb.persistable b.flattened

/-- **No operation of a sound breaker ends it**, a restart included. -/
theorem sound_next (hb : Sound config soft b) (op : Op) :
    ∃ b', next config soft b op = .ok b' ∧ Sound config soft b' := by
  cases op with
  | recordPnl event raises =>
      refine ⟨_, rfl, ?_⟩
      by_cases htime : event.blockTimeMs < endOfYear9999
      · exact (recorded_of_recordPnl raises htime).sound hb
      · rw [recordPnl_snd_of_late htime]
        exact hb
  | tripFromLlm signal time raises =>
      exact ⟨_, rfl, (llmTripped_of_tripFromLlm b signal time raises).sound hb⟩
  | reset token =>
      refine ⟨_, rfl, ?_⟩
      unfold reset
      split_ifs
      · exact ⟨rfl, persistable_fresh⟩
      · exact hb
  | restart => exact ⟨_, restart_eq_restored hb, rfl, hb.persistable⟩

theorem sound_firstBoot : Sound config soft (firstBoot []) := ⟨rfl, persistable_fresh⟩

/-- Every run from a sound breaker reaches one. -/
theorem runSteps_sound (hb : Sound config soft b) (ops : List Op) :
    ∃ b', runSteps (next config soft) b ops = .ok b' ∧ Sound config soft b' := by
  induction ops generalizing b with
  | nil => exact ⟨b, rfl, hb⟩
  | cons op ops ih =>
      obtain ⟨b₁, hnext, hb₁⟩ := sound_next hb op
      obtain ⟨b₂, hrun, hb₂⟩ := ih hb₁
      refine ⟨b₂, ?_, hb₂⟩
      unfold runSteps at hrun ⊢
      rw [List.foldlM_cons, hnext]
      exact hrun

theorem Reachable.sound (h : Reachable config soft b) : Sound config soft b := by
  obtain ⟨b₀, ops, hboot, hrun⟩ := h
  obtain rfl := Except.ok.inj hboot
  obtain ⟨b', hrun', hb'⟩ := runSteps_sound sound_firstBoot ops
  rw [hrun] at hrun'
  obtain rfl := Except.ok.inj hrun'
  exact hb'

end Breaker
end AatsSniper

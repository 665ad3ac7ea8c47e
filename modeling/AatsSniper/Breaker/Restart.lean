/-
# Restarts do not change what trips

A live breaker keeps the net of every day it has seen; the store keeps one net with
its day.  While events come in order of their days, the days still to come are the
last one seen and those after it, and of these the store knows the net: zero, or what
it holds (`UpToDate`).  So a breaker restarted any number of times holds the same
state as one that never was (`restart_invariant`).

That needs every net to be persisted once it is booked.  Where `_evaluate` raises,
the net is booked and not persisted, and a restart forgets it.
-/

import AatsSniper.Breaker.Outcome

namespace AatsSniper
namespace Breaker

namespace Op

/-- A restart of the process. -/
def isRestart : Op → Bool
  | .restart => true
  | _ => false

/-- The UTC day of an event, where `datetime` has it. -/
def day : Op → Option ℤ
  | .recordPnl event _ =>
      if event.blockTimeMs < endOfYear9999 then some (utcDay event.blockTimeMs) else none
  | _ => none

end Op

/-- The operations without the restarts. -/
def live (ops : List Op) : List Op := ops.filter fun op => !op.isRestart

/-- The days of the events, in order of arrival. -/
def days (ops : List Op) : List ℤ := ops.filterMap Op.day

/-- The decision is taken on the net of the event's day: `_evaluate` does not raise. -/
def Evaluates (config : RiskConfig) (soft : SoftRatio) (b : CircuitBreaker) : Op → Prop
  | .recordPnl event _ =>
      event.blockTimeMs < endOfYear9999 → ∃ d, evaluate config soft (netAfter b event) = .ok d
  | _ => True

variable {config : RiskConfig} {soft : SoftRatio} {b r b' r' : CircuitBreaker}

/-- Where the tiers are ordered it never raises. -/
theorem evaluates_of_tiersOrdered (h : TiersOrdered config soft) (b : CircuitBreaker) (op : Op) :
    Evaluates config soft b op := by
  cases op with
  | recordPnl event raises =>
      intro _
      obtain ⟨softPct, hsoft, hpct, hfloor, -⟩ := h
      refine evaluate_returns_iff.2 ⟨softPct, hsoft, ?_⟩
      rintro (hpast | hpast)
      · omega
      · omega
  | tripFromLlm signal time raises => trivial
  | reset token => trivial
  | restart => trivial

/-- The net of a day, as far as the persisted state tells. -/
def persistedNet (s : BreakerState) (day : ℤ) : ℤ :=
  if s.dailyNetPnlDayUtc = some day then s.dailyNetPnlLamports else 0

/-- From the last day seen on, the store knows the net of every day. -/
structure UpToDate (config : RiskConfig) (soft : SoftRatio) (seen : List ℤ) (b : CircuitBreaker) :
    Prop where
  sound : Sound config soft b
  seen_day : ∀ day, b.state.dailyNetPnlDayUtc = some day → day ∈ seen
  known : ∀ day, (∀ d ∈ seen, d ≤ day) → b.dayPnl day = persistedNet b.state day

theorem upToDate_firstBoot : UpToDate config soft [] (firstBoot []) where
  sound := sound_firstBoot
  seen_day _ h := by cases h
  known _ _ := rfl

/-- The event's net and its day, persisted, are all there is to know. -/
theorem persistedNet_dayIfNet {s : BreakerState} {net day day' : ℤ}
    (hnet : s.dailyNetPnlLamports = net)
    (hday : s.dailyNetPnlDayUtc = BreakerState.dayIfNet net (some day)) :
    persistedNet s day' = if day' = day then net else 0 := by
  unfold persistedNet BreakerState.dayIfNet at *
  rw [hday, hnet]
  by_cases hne : net ≠ 0
  · rw [if_pos hne]
    simp only [Option.some.injEq, eq_comm]
  · rw [if_neg hne, not_not.1 hne]
    simp

theorem dayIfNet_eq_some {net day day' : ℤ}
    (h : BreakerState.dayIfNet net (some day) = some day') : day' = day := by
  unfold BreakerState.dayIfNet at h
  split_ifs at h
  exact (Option.some.inj h).symm

/-- A booked and persisted event of a day no earlier than all seen keeps the store up to date. -/
theorem UpToDate.persist {seen : List ℤ} (hb : UpToDate config soft seen b) {day net : ℤ}
    (hlast : ∀ d ∈ seen, d ≤ day) (hsound : Sound config soft b')
    (hpnl : b'.dayPnl = Function.update b.dayPnl day net)
    (hnet : b'.state.dailyNetPnlLamports = net)
    (hday : b'.state.dailyNetPnlDayUtc = BreakerState.dayIfNet net (some day)) :
    UpToDate config soft (seen ++ [day]) b' := by
  refine ⟨hsound, fun day' hday' => ?_, fun day' hlater => ?_⟩
  · rw [hday] at hday'
    rw [dayIfNet_eq_some hday']
    exact List.mem_append_right _ (List.mem_singleton_self day)
  · have hle : day ≤ day' := hlater day (List.mem_append_right _ (List.mem_singleton_self day))
    rw [hpnl, persistedNet_dayIfNet hnet hday]
    by_cases heq : day' = day
    · rw [if_pos heq, heq, Function.update_self]
    · rw [if_neg heq, Function.update_of_ne heq,
        hb.known day' fun d hd => (hlast d hd).trans hle]
      refine if_neg fun hstale => ?_
      have := hlast day' (hb.seen_day day' hstale)
      omega

theorem Recorded.upToDate {seen : List ℤ} {event : PnLEvent} {day : ℤ}
    (h : Recorded config soft b event day b') (hb : UpToDate config soft seen b)
    (hlast : ∀ d ∈ seen, d ≤ day)
    (hevaluates : ∃ d, evaluate config soft (b.dayPnl day + event.deltaLamports) = .ok d) :
    UpToDate config soft (seen ++ [day]) b' := by
  have hsound := h.sound hb.sound
  cases h with
  | raised hevaluate =>
      obtain ⟨d, hd⟩ := hevaluates
      rw [hevaluate] at hd
      cases hd
  | tripped _ _ _ hs =>
      obtain ⟨-, hnet, hday⟩ := newTripped_spec hs
      exact hb.persist hlast hsound rfl hnet hday
  | kept _ _ => exact hb.persist hlast hsound rfl rfl rfl

/-- A trip on the net held leaves the net and its day. -/
theorem LlmTripped.upToDate {seen : List ℤ} {signal : LLMDeRiskSignal} {time : ℤ}
    (h : LlmTripped b signal time b') (hb : UpToDate config soft seen b) :
    UpToDate config soft seen b' := by
  have hsound := h.sound hb.sound
  cases h with
  | unchanged _ => exact hb
  | raised _ _ => exact ⟨hsound, hb.seen_day, hb.known⟩
  | @tripped day s _ _ hday hs =>
      obtain ⟨-, hnet, hday'⟩ := newTripped_spec hs
      have hsame : s.dailyNetPnlDayUtc = b.state.dailyNetPnlDayUtc := by
        rw [hday', BreakerState.dayIfNet]
        by_cases hne : b.state.dailyNetPnlLamports ≠ 0
        · rw [if_pos hne, hday, if_pos hne]
        · rw [if_neg hne, hb.sound.persistable.day_of_net (not_not.1 hne)]
      refine ⟨hsound, fun d hd => hb.seen_day d (hsame ▸ hd), fun d hlater => ?_⟩
      show b.dayPnl d = persistedNet s d
      unfold persistedNet
      rw [hsame, hnet]
      exact hb.known d hlater

/-- After a reset there is nothing to know. -/
theorem upToDate_fresh {seen : List ℤ} (hstate : b.state = .fresh) (hstore : b.store = some .fresh)
    (hpnl : b.dayPnl = fun _ => 0) : UpToDate config soft seen b := by
  refine ⟨⟨by rw [hstate, hstore], hstate ▸ persistable_fresh⟩, fun day hday => ?_, fun day _ => ?_⟩
  · rw [hstate] at hday
    cases hday
  · rw [hstate, hpnl]
    rfl

theorem restored_upToDate {seen : List ℤ} (hb : UpToDate config soft seen b) :
    UpToDate config soft seen (restored config soft b.state b.flattened) where
  sound := ⟨rfl, hb.sound.persistable⟩
  seen_day := hb.seen_day
  known day _ := by
    show b.state.dailyNetPnlDayUtc.elim (fun _ => 0)
      (fun d => Function.update (fun _ => 0) d b.state.dailyNetPnlLamports) day =
        persistedNet b.state day
    unfold persistedNet
    cases hday : b.state.dailyNetPnlDayUtc with
    | none => simp
    | some d =>
        by_cases heq : day = d
        · subst heq
          simp
        · simp [Function.update_of_ne heq, Ne.symm heq]

/-- The same event on the same state and net gives the same state. -/
theorem Recorded.state_eq {event : PnLEvent} {day : ℤ} (hb : Recorded config soft b event day b')
    (hr : Recorded config soft r event day r') (hstate : r.state = b.state)
    (hnet : r.dayPnl day = b.dayPnl day) : r'.state = b'.state := by
  cases hb with
  | raised hevaluate =>
      cases hr with
      | raised _ => exact hstate
      | tripped hevaluate' _ _ _ =>
          rw [hnet, hevaluate] at hevaluate'
          cases hevaluate'
      | kept hevaluate' _ =>
          rw [hnet, hevaluate] at hevaluate'
          cases hevaluate'
  | tripped hevaluate htripped harmed hs =>
      cases hr with
      | raised hevaluate' =>
          rw [hnet, hevaluate] at hevaluate'
          cases hevaluate'
      | tripped hevaluate' _ _ hs' =>
          rw [hnet, hevaluate] at hevaluate'
          obtain rfl := Except.ok.inj hevaluate'
          rw [hnet, hs] at hs'
          exact (Except.ok.inj hs').symm
      | kept hevaluate' hkeeps =>
          rw [hnet, hevaluate] at hevaluate'
          obtain rfl := Except.ok.inj hevaluate'
          have htripped' := hkeeps htripped
          rw [hstate, harmed] at htripped'
          cases htripped'
  | kept hevaluate hkeeps =>
      cases hr with
      | raised hevaluate' =>
          rw [hnet, hevaluate] at hevaluate'
          cases hevaluate'
      | tripped hevaluate' htripped harmed _ =>
          rw [hnet, hevaluate] at hevaluate'
          obtain rfl := Except.ok.inj hevaluate'
          rw [hstate, hkeeps htripped] at harmed
          cases harmed
      | kept _ _ =>
          show r.state.withNet _ day = b.state.withNet _ day
          rw [hstate, hnet]

/-- The same signal on the same state gives the same state. -/
theorem LlmTripped.state_eq {signal : LLMDeRiskSignal} {time : ℤ}
    (hb : LlmTripped b signal time b') (hr : LlmTripped r signal time r')
    (hstate : r.state = b.state) : r'.state = b'.state := by
  cases hb with
  | unchanged hlate =>
      cases hr with
      | unchanged _ => exact hstate
      | raised _ _ => exact hstate
      | tripped harmed htime _ _ => exact absurd htime (hlate (hstate ▸ harmed))
  | raised _ hlate =>
      cases hr with
      | unchanged _ => exact hstate
      | raised _ _ => exact hstate
      | tripped _ htime _ _ => exact absurd htime hlate
  | tripped harmed htime hday hs =>
      cases hr with
      | unchanged hlate => exact absurd htime (hlate (hstate ▸ harmed))
      | raised _ hlate => exact absurd htime hlate
      | tripped _ _ hday' hs' =>
          rw [hstate] at hday'
          rw [hstate, hday', ← hday, hs] at hs'
          exact (Except.ok.inj hs').symm

/-- A breaker that never restarted beside one that did. -/
structure Sim (config : RiskConfig) (soft : SoftRatio) (seen : List ℤ) (b r : CircuitBreaker) :
    Prop where
  live : UpToDate config soft seen b
  restarted : UpToDate config soft seen r
  same : r.state = b.state

/-- A restart of the one is not seen by the other. -/
theorem Sim.restart {seen : List ℤ} (h : Sim config soft seen b r) :
    ∃ r', next config soft r .restart = .ok r' ∧ Sim config soft seen b r' :=
  ⟨_, restart_eq_restored h.restarted.sound, h.live, restored_upToDate h.restarted, h.same⟩

/-- **One operation on both** keeps them alike, if its event is not of an earlier day. -/
theorem Sim.next {seen : List ℤ} (h : Sim config soft seen b r) {op : Op}
    (hop : op.isRestart = false) (hlast : ∀ day, op.day = some day → ∀ d ∈ seen, d ≤ day)
    (hevaluates : Evaluates config soft b op) :
    ∃ b' r', Breaker.next config soft b op = .ok b' ∧ Breaker.next config soft r op = .ok r' ∧
      Sim config soft (seen ++ op.day.toList) b' r' := by
  cases op with
  | recordPnl event raises =>
      refine ⟨_, _, rfl, rfl, ?_⟩
      by_cases htime : event.blockTimeMs < endOfYear9999
      · have hday : (Op.recordPnl event raises).day = some (utcDay event.blockTimeMs) :=
          if_pos htime
        have hearlier := hlast _ hday
        have hb : Recorded config soft b event _ (recordPnl config soft b event raises).2 :=
          recorded_of_recordPnl raises htime
        have hr : Recorded config soft r event _ (recordPnl config soft r event raises).2 :=
          recorded_of_recordPnl raises htime
        have hnet : r.dayPnl (utcDay event.blockTimeMs) = b.dayPnl (utcDay event.blockTimeMs) := by
          rw [h.live.known _ hearlier, h.restarted.known _ hearlier, h.same]
        rw [hday]
        refine ⟨hb.upToDate h.live hearlier (hevaluates htime),
          hr.upToDate h.restarted hearlier ?_, hb.state_eq hr h.same hnet⟩
        rw [hnet]
        exact hevaluates htime
      · have hday : (Op.recordPnl event raises).day = none := if_neg htime
        rw [hday, recordPnl_snd_of_late htime, recordPnl_snd_of_late htime, Option.toList_none,
          List.append_nil]
        exact h
  | tripFromLlm signal time raises =>
      have hb := llmTripped_of_tripFromLlm b signal time raises
      have hr := llmTripped_of_tripFromLlm r signal time raises
      refine ⟨_, _, rfl, rfl, ?_⟩
      rw [show (Op.tripFromLlm signal time raises).day = none from rfl, Option.toList_none,
        List.append_nil]
      exact ⟨hb.upToDate h.live, hr.upToDate h.restarted, hb.state_eq hr h.same⟩
  | reset token =>
      refine ⟨_, _, rfl, rfl, ?_⟩
      rw [show (Op.reset token).day = none from rfl, Option.toList_none, List.append_nil]
      unfold reset
      rw [h.same]
      by_cases htripped : b.state.state = .tripped
      · rw [if_pos htripped, if_pos htripped]
        exact ⟨upToDate_fresh rfl rfl rfl, upToDate_fresh rfl rfl rfl, rfl⟩
      · rw [if_neg htripped, if_neg htripped]
        exact h
  | restart => cases hop

theorem days_snoc (ops : List Op) (op : Op) : days (ops ++ [op]) = days ops ++ op.day.toList := by
  unfold days
  rw [List.filterMap_append]
  cases hday : op.day <;> simp [hday]

theorem live_snoc (ops : List Op) {op : Op} (hop : op.isRestart = false) :
    live (ops ++ [op]) = live ops ++ [op] := by
  unfold live
  rw [List.filter_append, List.filter_cons_of_pos (by simp [hop]), List.filter_nil]

theorem live_snoc_restart (ops : List Op) : live (ops ++ [.restart]) = live ops := by
  unfold live
  rw [List.filter_append, List.filter_cons_of_neg (by simp [Op.isRestart]), List.filter_nil,
    List.append_nil]

theorem runSteps_sim {ops : List Op} (hdays : (days ops).Pairwise (· ≤ ·))
    (hsteps : EveryStep (next config soft) (fun _ => Evaluates config soft) (firstBoot [])
      (live ops)) :
    ∃ b r, runSteps (next config soft) (firstBoot []) (live ops) = .ok b ∧
      runSteps (next config soft) (firstBoot []) ops = .ok r ∧ Sim config soft (days ops) b r := by
  induction ops using List.reverseRecOn with
  | nil =>
      exact ⟨firstBoot [], firstBoot [], rfl, rfl, upToDate_firstBoot, upToDate_firstBoot, rfl⟩
  | append_singleton ops op ih =>
      rw [days_snoc, List.pairwise_append] at hdays
      obtain ⟨hbefore, -, hlast⟩ := hdays
      by_cases hop : op = .restart
      · subst hop
        rw [live_snoc_restart] at hsteps ⊢
        obtain ⟨b, r, hb, hr, hsim⟩ := ih hbefore hsteps
        obtain ⟨r', hrestart, hsim'⟩ := hsim.restart
        refine ⟨b, r', hb, ?_, ?_⟩
        · rw [runSteps_snoc, hr]
          exact hrestart
        · rw [days_snoc]
          exact (List.append_nil (days ops)).symm ▸ hsim'
      · have hlive : op.isRestart = false := by
          cases op with
          | restart => exact absurd rfl hop
          | recordPnl event raises => rfl
          | tripFromLlm signal time raises => rfl
          | reset token => rfl
        rw [live_snoc ops hlive] at hsteps ⊢
        obtain ⟨hsteps', hevaluates⟩ := everyStep_snoc.1 hsteps
        obtain ⟨b, r, hb, hr, hsim⟩ := ih hbefore hsteps'
        have hlater : ∀ day, op.day = some day → ∀ d ∈ days ops, d ≤ day :=
          fun day hday d hd => hlast d hd day (by simp [hday])
        obtain ⟨b', r', hb', hr', hsim'⟩ := hsim.next hlive hlater (hevaluates b hb)
        refine ⟨b', r', ?_, ?_, ?_⟩
        · rw [runSteps_snoc, hb]
          exact hb'
        · rw [runSteps_snoc, hr]
          exact hr'
        · rw [days_snoc]
          exact hsim'

/-- **Restarts do not change what trips.**  Events of days that do not decrease, signals and
resets, with restarts anywhere: if `_evaluate` raises on no event, the restarted breaker is in the
state of the one that never restarted, in memory and in the store. -/
theorem restart_invariant (config : RiskConfig) (soft : SoftRatio) (ops : List Op)
    (hdays : (days ops).Pairwise (· ≤ ·))
    (hsteps : EveryStep (next config soft) (fun _ => Evaluates config soft) (firstBoot [])
      (live ops)) :
    ∃ b r, runSteps (next config soft) (firstBoot []) (live ops) = .ok b ∧
      runSteps (next config soft) (firstBoot []) ops = .ok r ∧
      r.state = b.state ∧ r.store = b.store := by
  obtain ⟨b, r, hb, hr, hsim⟩ := runSteps_sim hdays hsteps
  refine ⟨b, r, hb, hr, hsim.same, ?_⟩
  rw [hsim.restarted.sound.durable, hsim.live.sound.durable, hsim.same]

/-- An event at a time after the epoch. -/
def PnLEvent.atMs (time : ℕ) (deltaLamports : ℤ) : PnLEvent :=
  ⟨time, deltaLamports, Int.natCast_nonneg time⟩

/-- Two losses of one day with a restart between them. -/
def restartBetween (first second : ℤ) : List Op :=
  [.recordPnl (.atMs 0 first) false, .restart, .recordPnl (.atMs 1 second) false]

/-- Under the default limits the two losses trip with the restart as without it. -/
theorem restart_invariant_sample :
    ∃ b r, runSteps (next defaultConfig defaultSoftRatio) (firstBoot [])
        (live (restartBetween (-7000000) (-9000000))) = .ok b ∧
      runSteps (next defaultConfig defaultSoftRatio) (firstBoot [])
        (restartBetween (-7000000) (-9000000)) = .ok r ∧
      b.state.state = .tripped ∧ r.state.state = .tripped := by
  obtain ⟨b, r, hb, hr, hstate, -⟩ :=
    restart_invariant defaultConfig defaultSoftRatio (restartBetween (-7000000) (-9000000))
      (by decide +kernel)
      fun _ op _ b _ _ => evaluates_of_tiersOrdered tiersOrdered_default b op
  obtain ⟨b₁, hb₁, htripped⟩ := exists_ok_of_any
    (x := runSteps (next defaultConfig defaultSoftRatio) (firstBoot [])
      (live (restartBetween (-7000000) (-9000000))))
    (p := fun b => decide (b.state.state = .tripped)) (by decide +kernel)
  rw [hb] at hb₁
  obtain rfl := Except.ok.inj hb₁
  rw [decide_eq_true_iff] at htripped
  exact ⟨b, r, hb, hr, htripped, hstate ▸ htripped⟩

/-- With a floor under the soft limit the first loss is booked and not persisted: the live breaker
trips on the second, the restarted one does not. -/
theorem unpersisted_net_lost_on_restart :
    (days (restartBetween (-7000000) (-4000000))).Pairwise (· ≤ ·) ∧
      ∃ b r, runSteps (next lowFloorConfig defaultSoftRatio) (firstBoot [])
          (live (restartBetween (-7000000) (-4000000))) = .ok b ∧
        runSteps (next lowFloorConfig defaultSoftRatio) (firstBoot [])
          (restartBetween (-7000000) (-4000000)) = .ok r ∧
        b.state.state = .tripped ∧ r.state.state = .armed := by
  refine ⟨by decide +kernel, ?_⟩
  obtain ⟨b, hb, htripped⟩ := exists_ok_of_any
    (x := runSteps (next lowFloorConfig defaultSoftRatio) (firstBoot [])
      (live (restartBetween (-7000000) (-4000000))))
    (p := fun b => decide (b.state.state = .tripped)) (by decide +kernel)
  obtain ⟨r, hr, harmed⟩ := exists_ok_of_any
    (x := runSteps (next lowFloorConfig defaultSoftRatio) (firstBoot [])
      (restartBetween (-7000000) (-4000000)))
    (p := fun b => decide (b.state.state = .armed)) (by decide +kernel)
  exact ⟨b, r, hb, hr, of_decide_eq_true htripped, of_decide_eq_true harmed⟩

end Breaker
end AatsSniper

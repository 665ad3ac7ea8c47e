/-
# The latch and the one flatten of a trip

`_trip` saves the tripped state and only then calls the flatten handler.  The order of
the two is not visible in the state an operation leaves, so this file writes down
what each operation does to the outside, in the order of the source (`effects`),
and connects it with the operation itself: `effected_next` says what the breaker,
its store and the effects of one step have to do with each other.

`latched_until_reset` assembles from it, over runs: whenever the handler is called
the store holds a tripped state, the handler is called once for each passage from
armed to tripped, and a tripped breaker stays so, restarts and raising handlers included,
until an operator resets it.
-/

import AatsSniper.Breaker.Outcome

namespace AatsSniper
namespace Breaker

/-- `store.save(state)` or `flatten_handler.emergency_flatten_all(...)`. -/
inductive Effect
  | save (s : BreakerState)
  | flatten (threshold : Option Threshold)

namespace Effect

/-- What the store holds after it. -/
def stored (store : Option BreakerState) : Effect → Option BreakerState
  | .save s => some s
  | .flatten _ => store

/-- What a call of the flatten handler is handed. -/
def handed : Effect → Option (Option Threshold)
  | .save _ => none
  | .flatten threshold => some threshold

end Effect

/-- What the store holds after the effects. -/
def storedAfter (store : Option BreakerState) (log : List Effect) : Option BreakerState :=
  log.foldl Effect.stored store

/-- The calls of the handler. -/
def flattens (log : List Effect) : List (Option Threshold) := log.filterMap Effect.handed

/-- `_trip`: save, then flatten. -/
def tripEffects (net : ℤ) (threshold : Option Threshold) (blockTimeMs : ℤ) (day : Option ℤ) :
    List Effect :=
  match utcIso blockTimeMs with
  | .error _ => []
  | .ok trippedAt =>
      match BreakerState.newTripped trippedAt net day (threshold.getD .limitBreached) with
      | .error _ => []
      | .ok s => [.save s, .flatten threshold]

section Effects

variable (config : RiskConfig) (soft : SoftRatio)

/-- `record_pnl`. -/
def recordEffects (b : CircuitBreaker) (event : PnLEvent) : List Effect :=
  match utcDayKey event.blockTimeMs with
  | .error _ => []
  | .ok day =>
      let net := b.dayPnl day + event.deltaLamports
      match evaluate config soft net with
      | .error _ => []
      | .ok decision =>
          if decision.tripped = true ∧ b.state.state = .armed then
            tripEffects net decision.thresholdBreached event.blockTimeMs (some day)
          else [.save (b.state.withNet net day)]

/-- `trip_from_llm`. -/
def llmEffects (b : CircuitBreaker) (signal : LLMDeRiskSignal) (blockTimeMs : ℤ) : List Effect :=
  if b.state.state = .armed then
    let net := b.state.dailyNetPnlLamports
    match (if net ≠ 0 then .ok b.state.dailyNetPnlDayUtc else (utcDayKey blockTimeMs).map some) with
    | .error _ => []
    | .ok day => tripEffects net (some (llmThreshold signal)) blockTimeMs day
  else []

/-- What an operation does to the store and the handler, in order.  `__init__` saves only on an
empty store. -/
def effects (b : CircuitBreaker) : Op → List Effect
  | .recordPnl event _ => recordEffects config soft b event
  | .tripFromLlm signal blockTimeMs _ => llmEffects b signal blockTimeMs
  | .reset _ => if b.state.state = .tripped then [.save .fresh] else []
  | .restart => if b.store.isNone then [.save .fresh] else []

end Effects

variable {config : RiskConfig} {soft : SoftRatio} {b b' : CircuitBreaker}

theorem tripEffects_of_ok {net : ℤ} {threshold : Option Threshold} {time : ℤ} {day : Option ℤ}
    {s : BreakerState} (htime : startOfYear1 ≤ time ∧ time < endOfYear9999)
    (hs : BreakerState.newTripped time net day (threshold.getD .limitBreached) = .ok s) :
    tripEffects net threshold time day = [.save s, .flatten threshold] := by
  unfold tripEffects
  rw [utcIso_eq_ok htime]
  dsimp only
  rw [hs]

theorem tripEffects_of_late {net : ℤ} {threshold : Option Threshold} {time : ℤ} {day : Option ℤ}
    (htime : ¬ (startOfYear1 ≤ time ∧ time < endOfYear9999)) :
    tripEffects net threshold time day = [] := by
  unfold tripEffects utcIso
  rw [require, if_neg htime]
  rfl

/-- How the effects of a step go with the breaker before and after it. -/
inductive Effected (b b' : CircuitBreaker) : List Effect → Prop
  /-- Nothing is saved and the state stays. -/
  | quiet (hstate : b'.state = b.state) (hstore : b'.store = b.store)
      (hhanded : b'.flattened = b.flattened) : Effected b b' []
  /-- The state is saved, with the latch as it was. -/
  | saved (hstore : b'.store = some b'.state) (hlatch : b'.state.state = b.state.state)
      (hhanded : b'.flattened = b.flattened) : Effected b b' [.save b'.state]
  /-- An armed breaker trips: the tripped state is saved, then the handler is called. -/
  | tripped {threshold : Option Threshold} (hstore : b'.store = some b'.state)
      (harmed : b.state.state = .armed) (htripped : b'.state.state = .tripped)
      (hhanded : b'.flattened = b.flattened ++ [threshold]) :
      Effected b b' [.save b'.state, .flatten threshold]
  /-- A tripped breaker is armed again. -/
  | rearmed (hstore : b'.store = some b'.state) (htripped : b.state.state = .tripped)
      (harmed : b'.state.state = .armed) (hhanded : b'.flattened = b.flattened) :
      Effected b b' [.save b'.state]

theorem Recorded.effected {event : PnLEvent} (htime : event.blockTimeMs < endOfYear9999)
    (h : Recorded config soft b event (utcDay event.blockTimeMs) b') :
    Effected b b' (recordEffects config soft b event) := by
  unfold recordEffects
  rw [utcDayKey_eq_ok (inYears htime)]
  dsimp only
  cases h with
  | raised hevaluate =>
      rw [hevaluate]
      exact .quiet rfl rfl rfl
  | tripped hevaluate htripped harmed hs =>
      rw [hevaluate]
      dsimp only
      rw [if_pos ⟨htripped, harmed⟩, tripEffects_of_ok (inYears htime) hs]
      exact .tripped rfl harmed (newTripped_spec hs).1 rfl
  | @kept d hevaluate hkeeps =>
      have hnot : ¬ (d.tripped = true ∧ b.state.state = .armed) := by
        rintro ⟨htripped, harmed⟩
        rw [hkeeps htripped] at harmed
        cases harmed
      rw [hevaluate]
      dsimp only
      rw [if_neg hnot]
      exact .saved rfl rfl rfl

/-- A signal at a time out of range does nothing to the outside. -/
theorem llmEffects_of_late {signal : LLMDeRiskSignal} {time : ℤ}
    (htime : ¬ (startOfYear1 ≤ time ∧ time < endOfYear9999)) : llmEffects b signal time = [] := by
  unfold llmEffects
  dsimp only
  rw [utcDayKey_eq_error htime]
  by_cases harmed : b.state.state = .armed
  · rw [if_pos harmed]
    by_cases hne : b.state.dailyNetPnlLamports ≠ 0
    · rw [if_pos hne]
      exact tripEffects_of_late htime
    · rw [if_neg hne]
      rfl
  · exact if_neg harmed

theorem LlmTripped.effected {signal : LLMDeRiskSignal} {time : ℤ}
    (h : LlmTripped b signal time b') : Effected b b' (llmEffects b signal time) := by
  cases h with
  | unchanged hlate =>
      by_cases harmed : b.state.state = .armed
      · rw [llmEffects_of_late (hlate harmed)]
        exact .quiet rfl rfl rfl
      · rw [llmEffects, if_neg harmed]
        exact .quiet rfl rfl rfl
  | raised harmed hlate =>
      rw [llmEffects_of_late hlate]
      exact .quiet rfl rfl rfl
  | @tripped day s harmed htime hday hs =>
      have hok : (if b.state.dailyNetPnlLamports ≠ 0 then .ok b.state.dailyNetPnlDayUtc
          else (utcDayKey time).map some) = (.ok day : Except BreakerError (Option ℤ)) := by
        rw [utcDayKey_eq_ok htime, hday]
        split_ifs <;> rfl
      rw [llmEffects, if_pos harmed]
      dsimp only
      rw [hok]
      dsimp only
      rw [tripEffects_of_ok htime hs]
      exact .tripped rfl harmed (newTripped_spec hs).1 rfl

/-- **What one step does.**  Only a passage from armed to tripped calls the handler, once, and
after the tripped state was saved; only a reset goes back. -/
theorem effected_next {op : Op} (hb : Sound config soft b) (h : next config soft b op = .ok b') :
    Effected b b' (effects config soft b op) := by
  cases op with
  | recordPnl event raises =>
      obtain rfl := Except.ok.inj h
      by_cases htime : event.blockTimeMs < endOfYear9999
      · exact (recorded_of_recordPnl raises htime).effected htime
      · have hnone : recordEffects config soft b event = [] := by
          unfold recordEffects
          rw [utcDayKey_eq_error fun hyears => htime hyears.2]
        show Effected b _ (recordEffects config soft b event)
        rw [hnone, recordPnl_snd_of_late htime]
        exact .quiet rfl rfl rfl
  | tripFromLlm signal time raises =>
      obtain rfl := Except.ok.inj h
      exact (llmTripped_of_tripFromLlm b signal time raises).effected
  | reset token =>
      obtain rfl := Except.ok.inj h
      unfold effects reset
      by_cases htripped : b.state.state = .tripped
      · rw [if_pos htripped, if_pos htripped]
        exact .rearmed rfl htripped rfl rfl
      · rw [if_neg htripped, if_neg htripped]
        exact .quiet rfl rfl rfl
  | restart =>
      rw [restart_eq_restored hb] at h
      obtain rfl := Except.ok.inj h
      unfold effects
      rw [hb.durable]
      exact .quiet rfl hb.durable.symm rfl

/-- A breaker with all its effects so far and the number of its passages from armed to tripped. -/
structure Logged where
  breaker : CircuitBreaker
  log : List Effect
  trips : ℕ

/-- A first boot saves the state it starts with. -/
def Logged.start : Logged := ⟨firstBoot [], [.save .fresh], 0⟩

/-- The effects of a step appended and its passage counted. -/
def Logged.after (r : Logged) (effs : List Effect) (b' : CircuitBreaker) : Logged where
  breaker := b'
  log := r.log ++ effs
  trips :=
    r.trips + if r.breaker.state.state = .armed ∧ b'.state.state = .tripped then 1 else 0

/-- `next`, with its effects. -/
def logNext (config : RiskConfig) (soft : SoftRatio) (r : Logged) (op : Op) :
    Except BreakerError Logged :=
  (next config soft r.breaker op).map (r.after (effects config soft r.breaker op))

/-- Whenever the handler was called, the store held a tripped state. -/
def DurableFlattens (log : List Effect) : Prop :=
  ∀ before threshold after, log = before ++ .flatten threshold :: after →
    ∃ s, storedAfter none before = some s ∧ s.state = .tripped

theorem storedAfter_append (store : Option BreakerState) (log log' : List Effect) :
    storedAfter store (log ++ log') = storedAfter (storedAfter store log) log' :=
  List.foldl_append

theorem flattens_append (log log' : List Effect) :
    flattens (log ++ log') = flattens log ++ flattens log' :=
  List.filterMap_append

theorem durableFlattens_save {log : List Effect} {s : BreakerState} (h : DurableFlattens log) :
    DurableFlattens (log ++ [.save s]) := by
  intro before threshold after hsplit
  obtain ⟨-, hflatten, -⟩ | ⟨after', -, hlog⟩ := snoc_split hsplit
  · cases hflatten
  · exact h before threshold after' hlog

theorem durableFlattens_flatten {log : List Effect} {threshold : Option Threshold}
    {s : BreakerState} (h : DurableFlattens log) (hstored : storedAfter none log = some s)
    (htripped : s.state = .tripped) : DurableFlattens (log ++ [.flatten threshold]) := by
  intro before threshold' after hsplit
  obtain ⟨rfl, -, -⟩ | ⟨after', -, hlog⟩ := snoc_split hsplit
  · exact ⟨s, hstored, htripped⟩
  · exact h before threshold' after' hlog

/-- What a log has to do with the breaker it belongs to. -/
structure Logs (config : RiskConfig) (soft : SoftRatio) (r : Logged) : Prop where
  sound : Sound config soft r.breaker
  stored : storedAfter none r.log = r.breaker.store
  durable : DurableFlattens r.log
  handed : flattens r.log = r.breaker.flattened
  counted : r.breaker.flattened.length = r.trips

theorem logs_start : Logs config soft .start where
  sound := sound_firstBoot
  stored := rfl
  durable := by
    intro before threshold after hsplit
    have hsplit' : [] ++ [Effect.save .fresh] = before ++ .flatten threshold :: after := hsplit
    obtain ⟨-, hflatten, -⟩ | ⟨after', -, hlog⟩ := snoc_split hsplit'
    · cases hflatten
    · simp at hlog
  handed := rfl
  counted := rfl

/-- A save by which the breaker does not trip. -/
theorem Logs.after_save {r : Logged} (hr : Logs config soft r) (hsound : Sound config soft b')
    (hstore : b'.store = some b'.state) (hhanded : b'.flattened = r.breaker.flattened)
    (hpasses : ¬ (r.breaker.state.state = .armed ∧ b'.state.state = .tripped)) :
    Logs config soft (r.after [.save b'.state] b') := by
  unfold Logged.after
  refine ⟨hsound, ?_, durableFlattens_save hr.durable, ?_, ?_⟩
  · rw [storedAfter_append]
    exact hstore.symm
  · rw [flattens_append, hr.handed, hhanded]
    exact List.append_nil _
  · rw [hhanded, hr.counted, if_neg hpasses]
    rfl

/-- **One step keeps the log true.** -/
theorem Effected.logs {r : Logged} {effs : List Effect} (h : Effected r.breaker b' effs)
    (hr : Logs config soft r) (hsound : Sound config soft b') :
    Logs config soft (r.after effs b') := by
  cases h with
  | quiet hstate hstore hhanded =>
      unfold Logged.after
      refine ⟨hsound, ?_, ?_, ?_, ?_⟩
      · rw [storedAfter_append, hr.stored]
        exact hstore.symm
      · rw [List.append_nil]
        exact hr.durable
      · rw [List.append_nil, hr.handed, hhanded]
      · rw [hhanded, hr.counted, hstate]
        cases r.breaker.state.state <;> rfl
  | saved hstore hlatch hhanded =>
      refine hr.after_save hsound hstore hhanded ?_
      rw [hlatch]
      rintro ⟨harmed, htripped⟩
      rw [harmed] at htripped
      cases htripped
  | @tripped threshold hstore harmed htripped hhanded =>
      have hsaved : storedAfter none (r.log ++ [.save b'.state]) = some b'.state := by
        rw [storedAfter_append]
        rfl
      have hsplit : r.log ++ [.save b'.state, .flatten threshold] =
          (r.log ++ [.save b'.state]) ++ [.flatten threshold] := by simp
      unfold Logged.after
      refine ⟨hsound, ?_, ?_, ?_, ?_⟩
      · rw [storedAfter_append]
        exact hstore.symm
      · rw [hsplit]
        exact durableFlattens_flatten (durableFlattens_save hr.durable) hsaved htripped
      · rw [flattens_append, hr.handed, hhanded]
        rfl
      · rw [hhanded, List.length_append, hr.counted, if_pos ⟨harmed, htripped⟩]
        rfl
  | rearmed hstore htripped harmed hhanded =>
      refine hr.after_save hsound hstore hhanded ?_
      rw [htripped]
      exact fun hpasses => nomatch hpasses.1

/-- No step ends a log. -/
theorem logs_next {r : Logged} (hr : Logs config soft r) (op : Op) :
    ∃ b', next config soft r.breaker op = .ok b' ∧
      logNext config soft r op = .ok (r.after (effects config soft r.breaker op) b') ∧
      Logs config soft (r.after (effects config soft r.breaker op) b') := by
  obtain ⟨b', hnext, hsound⟩ := sound_next hr.sound op
  refine ⟨b', hnext, ?_, (effected_next hr.sound hnext).logs hr hsound⟩
  unfold logNext
  rw [hnext]
  rfl

theorem runSteps_logs {r : Logged} (hr : Logs config soft r) (ops : List Op) :
    ∃ r', runSteps (logNext config soft) r ops = .ok r' ∧ Logs config soft r' := by
  induction ops generalizing r with
  | nil => exact ⟨r, rfl, hr⟩
  | cons op ops ih =>
      obtain ⟨b', -, hlogged, hr'⟩ := logs_next hr op
      obtain ⟨r₂, hrun, hr₂⟩ := ih hr'
      refine ⟨r₂, ?_, hr₂⟩
      unfold runSteps at hrun ⊢
      rw [List.foldlM_cons, hlogged]
      exact hrun

/-- An operator's reset. -/
def Op.isReset : Op → Bool
  | .reset _ => true
  | _ => false

theorem Recorded.stays_tripped {event : PnLEvent} {day : ℤ}
    (h : Recorded config soft b event day b') (htripped : b.state.state = .tripped) :
    b'.state.state = .tripped := by
  cases h with
  | raised _ => exact htripped
  | tripped _ _ _ hs => exact (newTripped_spec hs).1
  | kept _ _ => exact htripped

theorem LlmTripped.stays_tripped {signal : LLMDeRiskSignal} {time : ℤ}
    (h : LlmTripped b signal time b') (htripped : b.state.state = .tripped) :
    b'.state.state = .tripped := by
  cases h with
  | unchanged _ => exact htripped
  | raised _ _ => exact htripped
  | tripped _ _ _ hs => exact (newTripped_spec hs).1

/-- Only a reset unlatches. -/
theorem tripped_next {op : Op} (hb : Sound config soft b) (h : next config soft b op = .ok b')
    (htripped : b.state.state = .tripped) (hop : op.isReset = false) :
    b'.state.state = .tripped := by
  cases op with
  | reset token => cases hop
  | recordPnl event raises =>
      obtain rfl := Except.ok.inj h
      by_cases htime : event.blockTimeMs < endOfYear9999
      · exact (recorded_of_recordPnl raises htime).stays_tripped htripped
      · rw [recordPnl_snd_of_late htime]
        exact htripped
  | tripFromLlm signal time raises =>
      obtain rfl := Except.ok.inj h
      exact (llmTripped_of_tripFromLlm b signal time raises).stays_tripped htripped
  | restart =>
      rw [restart_eq_restored hb] at h
      obtain rfl := Except.ok.inj h
      exact htripped

/-- A tripped breaker stays so over every operation but a reset, with no further passage. -/
theorem runSteps_stays_tripped {r : Logged} (hr : Logs config soft r)
    (htripped : r.breaker.state.state = .tripped) {ops : List Op}
    (hops : ∀ op ∈ ops, op.isReset = false) :
    ∃ r', runSteps (logNext config soft) r ops = .ok r' ∧ Logs config soft r' ∧
      r'.breaker.state.state = .tripped ∧ r'.trips = r.trips := by
  induction ops generalizing r with
  | nil => exact ⟨r, rfl, hr, htripped, rfl⟩
  | cons op ops ih =>
      obtain ⟨b', hnext, hlogged, hr'⟩ := logs_next hr op
      have htripped' := tripped_next hr.sound hnext htripped (hops op List.mem_cons_self)
      obtain ⟨r₂, hrun, hr₂, hlatched, htrips⟩ :=
        ih hr' htripped' fun op' hop' => hops op' (List.mem_cons_of_mem op hop')
      refine ⟨r₂, ?_, hr₂, hlatched, ?_⟩
      · unfold runSteps at hrun ⊢
        rw [List.foldlM_cons, hlogged]
        exact hrun
      · rw [htrips]
        show r.trips + _ = r.trips
        rw [htripped, if_neg (by simp), Nat.add_zero]

/-- **The latch and the one flatten of a trip.**  After any operations, whichever calls of the
handler raise: the effects are those of the breaker (what they stored is its store, what they handed
to the handler is what the handler was given); the store held a tripped state at every call, there
was one call for each passage from armed to tripped; and if the breaker is tripped it stays so, in
memory and in the store and with no further call, whatever comes until an operator resets it. -/
theorem latched_until_reset (config : RiskConfig) (soft : SoftRatio) (ops : List Op) :
    ∃ r, runSteps (logNext config soft) .start ops = .ok r ∧
      storedAfter none r.log = r.breaker.store ∧ flattens r.log = r.breaker.flattened ∧
      DurableFlattens r.log ∧
      (flattens r.log).length = r.trips ∧
      (r.breaker.state.state = .tripped → ∀ later : List Op, (∀ op ∈ later, op.isReset = false) →
        ∃ r', runSteps (logNext config soft) r later = .ok r' ∧
          r'.breaker.state.state = .tripped ∧ r'.breaker.store = some r'.breaker.state ∧
          storedAfter none r'.log = r'.breaker.store ∧ flattens r'.log = r'.breaker.flattened ∧
          (flattens r'.log).length = (flattens r.log).length) := by
  obtain ⟨r, hrun, hr⟩ := runSteps_logs logs_start ops
  have hcount : ∀ {r}, Logs config soft r → (flattens r.log).length = r.trips :=
    fun h => by rw [h.handed, h.counted]
  refine ⟨r, hrun, hr.stored, hr.handed, hr.durable, hcount hr, fun htripped later hlater => ?_⟩
  obtain ⟨r', hrun', hr', htripped', htrips⟩ := runSteps_stays_tripped hr htripped hlater
  refine ⟨r', hrun', htripped', hr'.sound.durable, hr'.stored, hr'.handed, ?_⟩
  rw [hcount hr', hcount hr, htrips]

/-- A loss of 0.02 SOL trips, and the handler raises; after a restart a second loss comes.  The state
is tripped and there was one call of the handler. -/
theorem latched_until_reset_sample :
    ∃ r, runSteps (logNext defaultConfig defaultSoftRatio) .start
        [.recordPnl ⟨0, -20000000, le_rfl⟩ true] = .ok r ∧ (flattens r.log).length = 1 ∧
      ∃ r', runSteps (logNext defaultConfig defaultSoftRatio) r
          [.restart, .recordPnl ⟨1, -20000000, zero_le_one⟩ false] = .ok r' ∧
        r'.breaker.state.state = .tripped ∧ r'.breaker.store = some r'.breaker.state ∧
          (flattens r'.log).length = 1 := by
  obtain ⟨r, hrun, -, -, -, hcount, hlatched⟩ := latched_until_reset defaultConfig defaultSoftRatio
    [.recordPnl ⟨0, -20000000, le_rfl⟩ true]
  obtain ⟨r₁, hrun₁, hstate⟩ := exists_ok_of_any
    (x := runSteps (logNext defaultConfig defaultSoftRatio) .start
      [.recordPnl ⟨0, -20000000, le_rfl⟩ true])
    (p := fun r => decide (r.breaker.state.state = .tripped ∧ r.trips = 1)) (by decide +kernel)
  rw [hrun] at hrun₁
  obtain rfl := Except.ok.inj hrun₁
  rw [decide_eq_true_iff] at hstate
  obtain ⟨r', hrun', htripped, hstored, -, -, hcalls⟩ := hlatched hstate.1
    [.restart, .recordPnl ⟨1, -20000000, zero_le_one⟩ false] (by decide)
  have hone : (flattens r.log).length = 1 := hcount.trans hstate.2
  exact ⟨r, hrun, hone, r', hrun', htripped, hstored, hcalls.trans hone⟩

end Breaker
end AatsSniper

/-
# What is entered

Runs of the orchestrator, of any calls in any order.  A call of `venue.execute` comes from a launch
event that was `Admitted`: by an orchestrator that was started and never killed, for a score that
the SLOW loop staged for the mint not long before (`entry_admitted`), and never within the time to
live of a veto that was raised before (`vetoed_mint_not_entered`).
-/

import AatsSniper.Controller.Staged

namespace AatsSniper
namespace Controller

variable {E : Type} {cfg : OrchestratorConfig E} {o o₀ : Orchestrator} {op : OrchestratorOp E}
  {m : String} {t : ℤ}

/-- Everything that an event has to pass before it is handed to the venue, the score being the one
that is read for it. -/
structure Admitted (cfg : OrchestratorConfig E) (o : Orchestrator) (call : LaunchCall E)
    (signal : DecisionSignal) : Prop where
  started : o.started = true
  alive : o.killed = false
  staged : (cfg.slow.processEvent o.flags call.event.mint call.slow).2.getDecisionSignal call.now
    call.event.mint = some signal
  untripped : ∀ state ∈ o.loop.store.breaker, state.state ≠ .tripped
  cooled : o.loop.store.inCooldown call.now call.event.mint = false
  confident : cfg.controller.snipe.snipeThreshold ≤ signal.pCalibrated
  fresh : call.event.dataStalenessMs ≤ 5000
  unvetoed : (cfg.slow.processEvent o.flags call.event.mint call.slow).2.getFlag call.now .veto
    call.event.mint = false
  gated : ∀ gate ∈ cfg.controller.snipe.gate, gate call.event = true

/-- What passes the screen. -/
theorem screen_ok {loop : SnipeLoop E} {st : StateStore} {call : SnipeCall E} {solIn : ℤ}
    (h : loop.screen st call = .ok solIn) : (∀ state ∈ st.breaker, state.state ≠ .tripped) ∧
      st.inCooldown call.now call.event.mint = false ∧
      ∃ signal, call.signal = some signal ∧ loop.snipeThreshold ≤ signal.pCalibrated ∧
        call.event.dataStalenessMs ≤ 5000 ∧ call.vetoFlag = false ∧
        ∀ gate ∈ loop.gate, gate call.event = true := by
  unfold SnipeLoop.screen at h
  obtain ⟨huntripped, h⟩ := ok_of_require h
  obtain ⟨hcooled, h⟩ := ok_of_require h
  cases hsignal : call.signal with
  | none =>
      rw [hsignal] at h
      cases h
  | some signal =>
      rw [hsignal] at h
      obtain ⟨hconfident, h⟩ := ok_of_require h
      obtain ⟨hfresh, h⟩ := ok_of_require h
      obtain ⟨hunvetoed, h⟩ := ok_of_require h
      obtain ⟨hgated, -⟩ := ok_of_require h
      exact ⟨huntripped, hcooled, signal, rfl, hconfident, hfresh, hunvetoed, hgated⟩

/-- **The SNIPE half** enters nothing, or what passes the screen. -/
theorem entries_snipe (cfg : OrchestratorConfig E) (o : Orchestrator) (call : LaunchCall E) :
    (o.snipe cfg call).entries = o.entries ∨
      ∃ signal solIn, o.killed = false ∧ (Orchestrator.snipeCall o.flags call).signal = some signal ∧
        cfg.controller.snipe.screen o.loop.store (Orchestrator.snipeCall o.flags call) = .ok solIn ∧
        (o.snipe cfg call).entries =
          o.entries ++ [⟨call.event.mint, call.event.slot, signal, call.now⟩] := by
  unfold Orchestrator.snipe
  split_ifs with hkilled
  · exact .inl rfl
  · have hprocessed := cfg.controller.snipe.processed o.loop.store
      (Orchestrator.snipeCall o.flags call)
    dsimp only
    split
    · rename_i fill signal hfilled hsignal
      right
      generalize cfg.controller.snipe.processEvent o.loop.store
        (Orchestrator.snipeCall o.flags call) = processed at hprocessed hfilled
      cases hprocessed with
      | dropped _ _ _ _ => cases hfilled
      | released _ _ _ _ => cases hfilled
      | aborted _ _ _ _ => cases hfilled
      | entered _ _ _ _ hpasses _ =>
          obtain ⟨solIn, hscreen, -⟩ := hpasses
          exact ⟨signal, solIn, Bool.eq_false_iff.2 hkilled, hsignal, hscreen, rfl⟩
    · exact .inl rfl

/-- What is not the loop, the flags or the detector. -/
def Orchestrator.outside (o : Orchestrator) : List VenueEntry × Bool × Bool :=
  (o.entries, o.killed, o.started)

/-- What a call does to it. -/
inductive Outside (cfg : OrchestratorConfig E) (o : Orchestrator) :
    OrchestratorOp E → List VenueEntry × Bool × Bool → Prop
  | same {op : OrchestratorOp E} (hkill : op ≠ .kill) : Outside cfg o op o.outside
  | entered {call : LaunchCall E} {signal : DecisionSignal} (h : Admitted cfg o call signal) :
      Outside cfg o (.launch call)
        (o.entries ++ [⟨call.event.mint, call.event.slot, signal, call.now⟩], o.killed, o.started)
  | started {now : ℤ} {venue : VenueState} :
      Outside cfg o (.startup now venue) (o.entries, o.killed, true)
  | killed : Outside cfg o .kill (o.entries, true, o.started)

/-- **A launch** enters nothing, or the event if it is admitted. -/
theorem outside_launch (cfg : OrchestratorConfig E) (o : Orchestrator) (call : LaunchCall E) :
    Outside cfg o (.launch call) (o.onLaunchEvent cfg call).2.outside := by
  unfold Orchestrator.onLaunchEvent
  split_ifs with hstarted
  · exact .same nofun
  · let o' : Orchestrator :=
      { o with flags := (cfg.slow.processEvent o.flags call.event.mint call.slow).2 }
    obtain ⟨-, hkilled, hstarted'⟩ := flags_snipe cfg o' call
    have houtside : (o'.snipe cfg call).outside =
        ((o'.snipe cfg call).entries, o.killed, o.started) := by
      unfold Orchestrator.outside
      rw [hkilled, hstarted']
    show Outside cfg o (.launch call) (o'.snipe cfg call).outside
    rw [houtside]
    rcases entries_snipe cfg o' call with hsame | ⟨signal, solIn, halive, hsignal, hscreen, hadded⟩
    · rw [hsame]
      exact .same nofun
    · rw [hadded]
      obtain ⟨huntripped, hcooled, signal', hsignal', hconfident, hfresh, hunvetoed, hgated⟩ :=
        screen_ok hscreen
      obtain rfl := Option.some.inj (hsignal.symm.trans hsignal')
      exact .entered ⟨Bool.not_eq_false _ ▸ hstarted, halive, hsignal, huntripped, hcooled,
        hconfident, hfresh, hunvetoed, hgated⟩

/-- **A call** reaches there by a launch, a startup or the kill switch. -/
theorem outside_orchestrate (op : OrchestratorOp E) :
    Outside cfg o op (orchestrate cfg o op).outside := by
  have hsame : ∀ {o' : Orchestrator}, o'.outside = o.outside → op ≠ .kill →
      Outside cfg o op o'.outside := by
    intro o' heq hkill
    rw [heq]
    exact .same hkill
  cases op with
  | startup now venue =>
      show Outside cfg o _ (o.startup cfg now venue).2.outside
      unfold Orchestrator.startup
      split
      · exact .same nofun
      · exact .started
  | launch call => exact outside_launch cfg o call
  | tick call =>
      refine hsame ?_ nofun
      show (o.tick cfg call).2.outside = o.outside
      unfold Orchestrator.tick
      split_ifs
      · rfl
      · split <;> rfl
  | fill now mint fill =>
      refine hsame ?_ nofun
      show (o.onFill cfg now mint fill).2.outside = o.outside
      unfold Orchestrator.onFill
      split <;> rfl
  | decodedSell now obs =>
      refine hsame ?_ nofun
      show (o.onDecodedSell cfg now obs).2.outside = o.outside
      unfold Orchestrator.onDecodedSell
      split <;> rfl
  | slowEnrichmentTick answers eventSlot =>
      refine hsame ?_ nofun
      show (o.runSlowEnrichmentTick cfg answers eventSlot).2.outside = o.outside
      unfold Orchestrator.runSlowEnrichmentTick
      split
      · rfl
      · split <;> rfl
  | regimeSignal now mint regime =>
      refine hsame ?_ nofun
      show (o.applyRegimeSignal cfg now mint regime).outside = o.outside
      unfold Orchestrator.applyRegimeSignal
      split <;> rfl
  | survivorPrediction now pred =>
      refine hsame ?_ nofun
      show (o.applySurvivorPrediction cfg now pred).outside = o.outside
      unfold Orchestrator.applySurvivorPrediction
      split <;> rfl
  | slowRegimeTick now predict =>
      refine hsame ?_ nofun
      show (o.runSlowRegimeTick cfg now predict).outside = o.outside
      unfold Orchestrator.runSlowRegimeTick
      split <;> rfl
  | watch call => exact .same nofun
  | kill => exact .killed
  | flattenAll lands => exact .same nofun
  | flattenOne lands mint => exact .same nofun
  | breakerReset token => exact .same nofun

/-- The SLOW loop stages one score at most, the one of the classifier. -/
theorem signals_slow {flags : FlagStore} {mint : String} {answers : SlowAnswers}
    {lease : DecisionSignal × ℤ}
    (h : (cfg.slow.processEvent flags mint answers).2.signals m = some lease) :
    flags.signals m = some lease ∨ (answers.predicted = some (m, lease.1) ∧
      lease.2 = FlagStore.expiry answers.stagedAt cfg.slow.signalTtlSeconds) := by
  unfold SlowLoop.processEvent at h
  cases hpredicted : answers.predicted with
  | none =>
      rw [hpredicted] at h
      exact .inl h
  | some predicted =>
      obtain ⟨signalMint, signal⟩ := predicted
      let staged :=
        flags.setDecisionSignal answers.stagedAt signalMint signal cfg.slow.signalTtlSeconds
      have hstaged : staged.signals m = some lease := by
        rw [hpredicted] at h
        cases hverdict : answers.verdict with
        | none =>
            rw [hverdict] at h
            exact h
        | some action =>
            obtain ⟨hveto, hhalf, hnarrative⟩ := flagTtl_slow cfg
            have happlied : Keeps cfg.flagTtl answers.reasonedAt staged
                (cfg.slow.applyReasoningVerdict staged answers.reasonedAt mint action) :=
              applyReasoningVerdict_keeps ⟨hveto, hhalf⟩ hnarrative action
            rw [hverdict] at h
            rw [← happlied.signals]
            exact h
      by_cases hm : m = signalMint
      · subst hm
        obtain rfl := Option.some.inj (Leases.grant_self.symm.trans hstaged)
        exact .inr ⟨rfl, rfl⟩
      · exact .inl ((Leases.grant_of_ne hm).symm.trans hstaged)

/-- The score was staged for the mint in one of the calls, and has not expired. -/
def StagedIn (cfg : OrchestratorConfig E) (ops : List (OrchestratorOp E)) (m : String)
    (signal : DecisionSignal) (expiry : ℤ) : Prop :=
  ∃ call, .launch call ∈ ops ∧ call.slow.predicted = some (m, signal) ∧
    expiry = FlagStore.expiry call.slow.stagedAt cfg.slow.signalTtlSeconds

/-- A call stages the score of its own launch only. -/
theorem signals_orchestrate (op : OrchestratorOp E) {lease : DecisionSignal × ℤ}
    (h : (orchestrate cfg o op).flags.signals m = some lease) :
    o.flags.signals m = some lease ∨ StagedIn cfg [op] m lease.1 lease.2 := by
  by_cases hlaunch : ∃ call, op = .launch call
  · obtain ⟨call, rfl⟩ := hlaunch
    change (o.onLaunchEvent cfg call).2.flags.signals m = some lease at h
    unfold Orchestrator.onLaunchEvent at h
    split_ifs at h
    · exact .inl h
    · dsimp only at h
      rw [(flags_snipe cfg _ call).1] at h
      rcases signals_slow h with hsame | ⟨hpredicted, hexpiry⟩
      · exact .inl hsame
      · exact .inr ⟨call, List.mem_singleton_self _, hpredicted, hexpiry⟩
  · left
    obtain ⟨t, ht⟩ := (List.finite_toSet op.readings).bddBelow
    have hkeeps : Keeps cfg.flagTtl t o.flags (orchestrate cfg o op).flags :=
      orchestrate_keeps op (fun now hnow => ht hnow) fun call hcall => hlaunch ⟨call, hcall⟩
    rw [← hkeeps.signals]
    exact h

theorem orchestrateAll_snoc (cfg : OrchestratorConfig E) (o : Orchestrator)
    (ops : List (OrchestratorOp E)) (op : OrchestratorOp E) :
    orchestrateAll cfg o (ops ++ [op]) = orchestrate cfg (orchestrateAll cfg o ops) op := by
  unfold orchestrateAll
  rw [List.foldl_append]
  rfl

/-- What is staged was staged in the run. -/
theorem signals_orchestrateAll {loop : FastLoop} (ops : List (OrchestratorOp E))
    {lease : DecisionSignal × ℤ}
    (h : (orchestrateAll cfg (.start loop) ops).flags.signals m = some lease) :
    StagedIn cfg ops m lease.1 lease.2 := by
  induction ops using List.reverseRecOn with
  | nil => cases h
  | append_singleton ops op ih =>
      rw [orchestrateAll_snoc] at h
      rcases signals_orchestrate op h with hbefore | ⟨call, hcall, hstaged⟩
      · obtain ⟨call, hcall, hstaged⟩ := ih hbefore
        exact ⟨call, List.mem_append_left [op] hcall, hstaged⟩
      · exact ⟨call, List.mem_append_right ops hcall, hstaged⟩

/-- The kill switch stays pulled, and only a startup starts the loops. -/
theorem switches_orchestrate (cfg : OrchestratorConfig E) (o : Orchestrator)
    (op : OrchestratorOp E) :
    (o.killed = true ∨ op = .kill → (orchestrate cfg o op).killed = true) ∧
      ((orchestrate cfg o op).started = true →
        o.started = true ∨ ∃ now venue, op = .startup now venue) := by
  have houtside : Outside cfg o op (orchestrate cfg o op).outside := outside_orchestrate op
  show (_ → (orchestrate cfg o op).outside.2.1 = true) ∧
    ((orchestrate cfg o op).outside.2.2 = true → _)
  generalize (orchestrate cfg o op).outside = outside at houtside
  cases houtside with
  | same hkill => exact ⟨fun h => h.resolve_right hkill, .inl⟩
  | entered hadmitted => exact ⟨fun h => h.resolve_right nofun, .inl⟩
  | @started now venue => exact ⟨fun h => h.resolve_right nofun, fun _ => .inr ⟨now, venue, rfl⟩⟩
  | killed => exact ⟨fun _ => rfl, .inl⟩

/-- The kill switch is pulled by its call, and the loops are started by a startup. -/
theorem switches_orchestrateAll (cfg : OrchestratorConfig E) (loop : FastLoop)
    (ops : List (OrchestratorOp E)) :
    (.kill ∈ ops → (orchestrateAll cfg (.start loop) ops).killed = true) ∧
      ((orchestrateAll cfg (.start loop) ops).started = true →
        ∃ now venue, .startup now venue ∈ ops) := by
  induction ops using List.reverseRecOn with
  | nil => exact ⟨nofun, nofun⟩
  | append_singleton ops op ih =>
      rw [orchestrateAll_snoc]
      obtain ⟨hkilled, hstarted⟩ := ih
      obtain ⟨hkill, hstart⟩ := switches_orchestrate cfg (orchestrateAll cfg (.start loop) ops) op
      constructor
      · intro h
        rcases List.mem_append.1 h with h | h
        · exact hkill (.inl (hkilled h))
        · exact hkill (.inr (List.mem_singleton.1 h).symm)
      · intro h
        rcases hstart h with h | ⟨now, venue, rfl⟩
        · obtain ⟨now, venue, hmem⟩ := hstarted h
          exact ⟨now, venue, List.mem_append_left [op] hmem⟩
        · exact ⟨now, venue, List.mem_append_right ops (List.mem_singleton_self _)⟩

/-- A call of the venue comes from a launch event that passed everything at its time: after a
startup, with no kill before it, and for a score that the SLOW loop staged for the mint in the run
and that has not expired. -/
def AdmittedIn (cfg : OrchestratorConfig E) (loop : FastLoop) (ops : List (OrchestratorOp E))
    (e : VenueEntry) : Prop :=
  ∃ before call after, ops = before ++ .launch call :: after ∧
    e = ⟨call.event.mint, call.event.slot, e.signal, call.now⟩ ∧
    Admitted cfg (orchestrateAll cfg (.start loop) before) call e.signal ∧
    .kill ∉ before ∧ (∃ now venue, .startup now venue ∈ before) ∧
    ∃ expiry, call.now < expiry ∧
      StagedIn cfg (before ++ [.launch call]) call.event.mint e.signal expiry

theorem AdmittedIn.snoc {loop : FastLoop} {ops : List (OrchestratorOp E)} {e : VenueEntry}
    (h : AdmittedIn cfg loop ops e) (op : OrchestratorOp E) :
    AdmittedIn cfg loop (ops ++ [op]) e := by
  obtain ⟨before, call, after, rfl, hrest⟩ := h
  exact ⟨before, call, after ++ [op], by rw [List.append_assoc, List.cons_append], hrest⟩

/-- The score of an event that is admitted was staged in the run. -/
theorem Admitted.stagedIn {loop : FastLoop} {ops : List (OrchestratorOp E)} {call : LaunchCall E}
    {signal : DecisionSignal}
    (h : Admitted cfg (orchestrateAll cfg (.start loop) ops) call signal) :
    ∃ expiry, call.now < expiry ∧
      StagedIn cfg (ops ++ [.launch call]) call.event.mint signal expiry := by
  obtain ⟨expiry, hlease, hlive⟩ := Leases.read_eq_some.1 h.staged
  refine ⟨expiry, hlive, ?_⟩
  rcases signals_slow hlease with hbefore | ⟨hpredicted, hexpiry⟩
  · obtain ⟨call', hcall', hstaged⟩ := signals_orchestrateAll ops hbefore
    exact ⟨call', List.mem_append_left _ hcall', hstaged⟩
  · exact ⟨call, List.mem_append_right _ (List.mem_singleton_self _), hpredicted, hexpiry⟩

/-- **What is entered was admitted.**  In a run of any calls from a new process, every call of the
venue comes from a launch event that passed everything at its time. -/
theorem entry_admitted (cfg : OrchestratorConfig E) (loop : FastLoop)
    (ops : List (OrchestratorOp E)) :
    ∀ e ∈ (orchestrateAll cfg (.start loop) ops).entries, AdmittedIn cfg loop ops e := by
  induction ops using List.reverseRecOn with
  | nil => exact nofun
  | append_singleton ops op ih =>
      intro e he
      rw [orchestrateAll_snoc] at he
      have houtside : Outside cfg (orchestrateAll cfg (.start loop) ops) op
        (orchestrate cfg (orchestrateAll cfg (.start loop) ops) op).outside := outside_orchestrate op
      change e ∈ (orchestrate cfg (orchestrateAll cfg (.start loop) ops) op).outside.1 at he
      generalize (orchestrate cfg (orchestrateAll cfg (.start loop) ops) op).outside = outside
        at houtside he
      cases houtside with
      | same _ => exact (ih e he).snoc op
      | started => exact (ih e he).snoc _
      | killed => exact (ih e he).snoc _
      | @entered call signal hadmitted =>
          rcases List.mem_append.1 he with he | he
          · exact (ih e he).snoc _
          · obtain rfl := List.mem_singleton.1 he
            obtain ⟨hkilled, hstarted⟩ := switches_orchestrateAll cfg loop ops
            refine ⟨ops, call, [], rfl, rfl, hadmitted, fun hkill => ?_,
              hstarted hadmitted.started, hadmitted.stagedIn⟩
            have halive := hadmitted.alive
            rw [hkilled hkill] at halive
            cases halive

deriving instance DecidableEq for DecisionSignal, VenueEntry

/-- A mint is staged a score and handed to the venue in the same launch. -/
theorem entry_admitted_sample :
    let call : LaunchCall Unit :=
      { event := ⟨"m", 5, 0, ()⟩, creatorWallet := "w",
        slow := ⟨some ("m", ⟨9 / 10, 0⟩), 1000, none, 1000⟩, now := 1000, elapsedMs := 0,
        fill := sampleFill }
    AdmittedIn plainOrchestrator (FastLoop.start (Breaker.firstBoot []) none)
      [.startup 0 silentVenue, .launch call] ⟨"m", 5, ⟨9 / 10, 0⟩, 1000⟩ := by
  intro call
  refine entry_admitted plainOrchestrator (FastLoop.start (Breaker.firstBoot []) none)
    [.startup 0 silentVenue, .launch call] ⟨"m", 5, ⟨9 / 10, 0⟩, 1000⟩ ?_
  have hentries : (orchestrateAll plainOrchestrator
      (.start (FastLoop.start (Breaker.firstBoot []) none))
      [.startup 0 silentVenue, .launch call]).entries = [⟨"m", 5, ⟨9 / 10, 0⟩, 1000⟩] := by
    decide +kernel
  rw [hentries]
  exact List.mem_singleton_self _

/-- A launch reads the flags that its own call leaves. -/
theorem flags_launch {call : LaunchCall E} (hstarted : o.started = true) :
    (orchestrate cfg o (.launch call)).flags =
      (cfg.slow.processEvent o.flags call.event.mint call.slow).2 := by
  show (o.onLaunchEvent cfg call).2.flags = _
  unfold Orchestrator.onLaunchEvent
  rw [if_neg (by simp [hstarted])]
  exact (flags_snipe cfg _ call).1

/-- A call that leaves a veto held does not enter the mint in the time of it. -/
theorem not_entered_of_held (hheld : (orchestrate cfg o op).flags.HeldUntil .veto m t) :
    ∀ e ∈ (orchestrate cfg o op).entries, e.mint = m → e.now < t → e ∈ o.entries := by
  intro e he hm hnow
  have houtside : Outside cfg o op (orchestrate cfg o op).outside := outside_orchestrate op
  change e ∈ (orchestrate cfg o op).outside.1 at he
  generalize (orchestrate cfg o op).outside = outside at houtside he
  cases houtside with
  | same _ => exact he
  | started => exact he
  | killed => exact he
  | @entered call signal hadmitted =>
      rcases List.mem_append.1 he with he | he
      · exact he
      · obtain rfl := List.mem_singleton.1 he
        obtain rfl : call.event.mint = m := hm
        have hread := hheld.read hnow
        rw [flags_launch hadmitted.started, hadmitted.unvetoed] at hread
        cases hread

/-- A veto that is held keeps the mint out of a run. -/
theorem not_entered_of_vetoed {t' : ℤ} {ops : List (OrchestratorOp E)}
    (hheld : o.flags.HeldUntil .veto m t') (ht : t' ≤ FlagStore.expiry t (cfg.flagTtl .veto))
    (hlater : ∀ op' ∈ ops, ∀ now ∈ op'.readings, t ≤ now) :
    ∀ e ∈ (orchestrateAll cfg o ops).entries, e.mint = m → e.now < t' → e ∈ o.entries := by
  induction ops generalizing o with
  | nil => exact fun e he _ _ => he
  | cons op ops ih =>
      intro e he hm hnow
      have hkept : (orchestrate cfg o op).flags.HeldUntil .veto m t' :=
        orchestrate_keepsHeld op (hlater op List.mem_cons_self) .veto m t' ht hheld
      have hentered : e ∈ (orchestrate cfg o op).entries :=
        ih hkept (fun op' h => hlater op' (List.mem_cons_of_mem op h)) e he hm hnow
      exact not_entered_of_held hkept e hentered hm hnow

/-- **A veto keeps a mint out.**  Whatever is called after a veto of the mint was raised, and in the
call that raised it, no event of the mint is handed to the venue within the shortest time to live
that a wired writer gives a veto.  A veto raised for longer is held for no more than that: a writer
with a shorter one moves the expiry forward. -/
theorem vetoed_mint_not_entered {ops : List (OrchestratorOp E)}
    (hraises : Raises cfg o op .veto m t) (hlater : ∀ op' ∈ ops, ∀ now ∈ op'.readings, t ≤ now) :
    ∀ e ∈ (orchestrateAll cfg o (op :: ops)).entries, e.mint = m →
      e.now < FlagStore.expiry t (cfg.flagTtl .veto) → e ∈ o.entries := by
  intro e he hm hnow
  have hheld := raised_held hraises
  have hentered : e ∈ (orchestrate cfg o op).entries :=
    not_entered_of_vetoed hheld (le_refl _) hlater e he hm hnow
  exact not_entered_of_held hheld e hentered hm hnow

/-- The reasoner vetoes a mint; an event of it twenty seconds later is staged a score and not
entered. -/
theorem vetoed_mint_not_entered_sample :
    let launch (now : ℤ) (verdict : Option Reasoning.ReasoningAction) : LaunchCall Unit :=
      { event := ⟨"m", now, 0, ()⟩, creatorWallet := "w",
        slow := ⟨some ("m", ⟨9 / 10, 0⟩), now, verdict, now⟩, now := now, elapsedMs := 0,
        fill := sampleFill }
    let o := orchestrate plainOrchestrator
      (.start (FastLoop.start (Breaker.firstBoot []) none)) (.startup 0 silentVenue)
    (∀ e ∈ (orchestrateAll plainOrchestrator o
      [.launch (launch 1000 (some .vetoEntry)), .launch (launch 21000 none)]).entries,
        e.mint = "m" → e.now < FlagStore.expiry 1000 30 → e ∈ o.entries) ∧ o.entries = [] := by
  intro launch o
  refine ⟨?_, rfl⟩
  have hraises : Raises plainOrchestrator o (.launch (launch 1000 (some .vetoEntry))) .veto "m"
      1000 := .vetoEntry rfl rfl (.inl rfl)
  exact vetoed_mint_not_entered hraises (by decide)

end Controller
end AatsSniper

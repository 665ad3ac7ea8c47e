/-
# One emergency flatten until a re-arm

`DmsWatchdog.check` and `DeadMansSwitch.check` set their latch before they call
`emergency_flatten`, and an open latch is what a check needs to call it.  So a flatten
is called at most once until an operator arms the switch again, whether it returned or
raised and however long the heartbeat stays lost: a venue that fails is not hammered, and
a flatten that failed waits for the operator.

A run is endless; whether the venue would raise is given with each check.
-/

import AatsSniper.Dms.DeadMansSwitch
import AatsSniper.Dms.Watchdog

namespace AatsSniper
namespace Dms

open OneShot (CallsNoMore RetriesFailures StaysDue Turn)

/-- `DmsWatchdog.check()`, and the watchdog it leaves. -/
def DmsWatchdog.checkFlattening (w : DmsWatchdog) (read : Option Heartbeat) (r : Reading)
    (raises : Bool) : Except FlattenError Bool × DmsWatchdog :=
  let (age, w') := w.ageLocked read r
  if w'.armed = false ∨ w'.fired = true then (.ok false, w')
  else if age ≤ w'.tDms then (.ok false, w')
  else (emergencyFlatten raises, { w' with fired := true })

variable {w : DmsWatchdog} {read : Option Heartbeat} {r : Reading} {raises : Bool}

/-- The venue has no part in what a check leaves. -/
theorem checkFlattening_snd : (w.checkFlattening read r raises).2 = (w.check read r).2 := by
  unfold DmsWatchdog.checkFlattening DmsWatchdog.check
  dsimp only
  split_ifs
  · rfl
  · rfl
  · rfl

/-- A check calls the venue iff it fires. -/
theorem checkFlattening_calls_iff : (callOf (w.checkFlattening read r raises).1).isSome = true ↔
    (w.check read r).1 = true := by
  unfold DmsWatchdog.checkFlattening DmsWatchdog.check
  dsimp only
  split_ifs
  · simp [callOf]
  · simp [callOf]
  · simp [callOf_emergencyFlatten]

/-- A watchdog that fires leaves its latch set. -/
theorem check_fired (h : (w.check read r).1 = true) : (w.check read r).2.fired = true := by
  revert h
  unfold DmsWatchdog.check
  dsimp only
  split_ifs
  · simp
  · simp
  · simp

/-- No check opens the latch. -/
theorem check_stays_fired (h : w.fired = true) : (w.check read r).2.fired = true := by
  have hkeeps := (ageLocked_keeps (r := r) w read).2.1
  unfold DmsWatchdog.check
  dsimp only
  rw [if_pos (.inr (hkeeps.trans h))]
  exact hkeeps.trans h

/-- The system after an event, with whether the venue would raise at it. -/
def DmsSystem.nextFlattening (s : DmsSystem) : DmsEvent × Bool → DmsSystem
  | (.check r, raises) => { s with watchdog := (s.watchdog.checkFlattening (s.read r) r raises).2 }
  | (e, _) => s.next e

/-- The venue has no part in the states of a run. -/
theorem nextFlattening_eq (s : DmsSystem) (e : DmsEvent × Bool) : s.nextFlattening e = s.next e.1 := by
  obtain ⟨e, raises⟩ := e
  cases e with
  | check r => exact congrArg (fun w => { s with watchdog := w }) checkFlattening_snd
  | beat process epochMs mono stored => rfl
  | heartbeatAgeSeconds r => rfl
  | standDown => rfl
  | rearm mono => rfl

/-- What an event is to the watchdog: a check finds the heartbeat lost if the age it reads is more
than `tDms`. -/
def DmsSystem.turn (s : DmsSystem) : DmsEvent × Bool → Turn
  | (.check r, raises) =>
      .poll (decide (s.watchdog.tDms < (s.watchdog.ageLocked (s.read r) r).1))
        (callOf (s.watchdog.checkFlattening (s.read r) r raises).1)
  | (.standDown, _) => .disarm
  | (.rearm _, _) => .rearm
  | (.beat _ _ _ _, _) => .other
  | (.heartbeatAgeSeconds _, _) => .other

/-- The turns of an endless run. -/
def DmsSystem.turns (s₀ : DmsSystem) (events : ℕ → DmsEvent × Bool) (n : ℕ) : Turn :=
  (OneShot.trajectory DmsSystem.nextFlattening s₀ events n).turn (events n)

/-- **The watchdog latches before it calls.** -/
theorem DmsSystem.latched (s₀ : DmsSystem) (events : ℕ → DmsEvent × Bool) :
    OneShot.Latched (s₀.turns events)
      fun n => (OneShot.trajectory DmsSystem.nextFlattening s₀ events n).watchdog.fired := by
  refine @OneShot.latched_of_step _ _ _ DmsSystem.turn (fun s => s.watchdog.fired)
    (fun s e hcall => ?_) (fun s e hset hrearm => ?_) s₀ events
  · obtain ⟨e, raises⟩ := e
    cases e with
    | check r =>
        have hfires := checkFlattening_calls_iff.1 hcall
        refine ⟨((check_fst_iff _ _).1 hfires).2.1, ?_⟩
        rw [nextFlattening_eq]
        exact check_fired hfires
    | beat _ _ _ _ => cases hcall
    | heartbeatAgeSeconds _ => cases hcall
    | standDown => cases hcall
    | rearm _ => cases hcall
  · obtain ⟨e, raises⟩ := e
    rw [nextFlattening_eq]
    cases e with
    | check r => exact check_stays_fired hset
    | beat _ _ _ _ => exact hset
    | heartbeatAgeSeconds r => exact (ageLocked_keeps _ _).2.1.trans hset
    | standDown => exact hset
    | rearm _ => exact absurd rfl hrearm

/-- **One flatten until a re-arm.**  In every run of a new watchdog, and of a new switch, a flatten
that was called, whether it returned or raised, is followed by no other before a re-arm.  So one that
raised is followed by another only in the runs that have none to retry: whenever one raised, the
switch is taken down or armed again later, or a check finds the heartbeat back, or the checks end. -/
theorem failed_flatten_retried_iff (tDms : {t : ℚ // 0 < t}) :
    (∀ (mono : ℚ) (seqs : ℕ → ℕ) (stored : Option Heartbeat) (events : ℕ → DmsEvent × Bool),
      let turns := (DmsSystem.start tDms tDms.2 mono seqs stored).turns events
      CallsNoMore turns ∧
        (RetriesFailures turns ↔ ∀ n, (turns n).called = some .raised → ¬ StaysDue turns n)) ∧
      ∀ (clock : ℚ) (events : ℕ → SwitchEvent),
        let turns := (DeadMansSwitch.new tDms tDms.2 clock).turns events
        CallsNoMore turns ∧
          (RetriesFailures turns ↔ ∀ n, (turns n).called = some .raised → ¬ StaysDue turns n) := by
  constructor
  · intro mono seqs stored events
    have hlatched := DmsSystem.latched (.start tDms tDms.2 mono seqs stored) events
    exact ⟨hlatched.callsNoMore, hlatched.retriesFailures_iff⟩
  · intro clock events
    have hlatched := DeadMansSwitch.latched (.new tDms tDms.2 clock) events
    exact ⟨hlatched.callsNoMore, hlatched.retriesFailures_iff⟩

/-- Every check a second after the other, none before 61 seconds, at a store that cannot be reached;
the venue raises the first time. -/
def darkChecks (n : ℕ) : DmsEvent × Bool := (.check ⟨61000 + n, 61 + n, false⟩, decide (n = 0))

/-- The same checks of the switch. -/
def silentChecks (n : ℕ) : SwitchEvent := .check (61 + n) (decide (n = 0))

/-- What the checks leave as it was. -/
theorem dark_trajectory (n : ℕ) :
    let s := OneShot.trajectory DmsSystem.nextFlattening sampleSystem darkChecks n
    s.watchdog.lastFreshMono = 0 ∧ s.watchdog.tDms = 60 := by
  induction n with
  | zero => exact ⟨rfl, rfl⟩
  | succ n ih =>
      obtain ⟨hfresh, htDms⟩ := ih
      rw [OneShot.trajectory, nextFlattening_eq]
      obtain ⟨-, hmono, ht⟩ := check_snd (r := ⟨61000 + n, 61 + n, false⟩)
        (OneShot.trajectory DmsSystem.nextFlattening sampleSystem darkChecks n).watchdog none
      exact ⟨hmono.trans hfresh, ht.trans htDms⟩

/-- The same of the switch. -/
theorem silent_trajectory (n : ℕ) :
    let s := OneShot.trajectory DeadMansSwitch.next (.new 60 sixty_pos 0) silentChecks n
    s.lastBeat = 0 ∧ s.tDms = 60 := by
  induction n with
  | zero => exact ⟨rfl, rfl⟩
  | succ n ih =>
      rw [OneShot.trajectory]
      unfold silentChecks DeadMansSwitch.next DeadMansSwitch.check
      dsimp only
      split_ifs
      · exact ih
      · exact ih
      · exact ih

/-- A flatten that raises once is never tried again. -/
theorem failed_flatten_abandoned :
    ¬ RetriesFailures (sampleSystem.turns darkChecks) ∧
      ¬ RetriesFailures ((DeadMansSwitch.new 60 sixty_pos 0).turns silentChecks) := by
  have hage (m : ℕ) : (60 : ℚ) < 61 + m - 0 := by
    have : (0 : ℚ) ≤ m := Nat.cast_nonneg m
    linarith
  rw [(DmsSystem.latched _ _).retriesFailures_iff, (DeadMansSwitch.latched _ _).retriesFailures_iff]
  refine ⟨fun h => h 0 (by decide +kernel) ?_, fun h => h 0 (by decide +kernel) ?_⟩
  · refine ⟨fun m _ => ⟨nofun, nofun⟩, fun m _ due call hturn => ?_,
      fun k => ⟨k, le_rfl, _, _, rfl⟩⟩
    obtain ⟨hfresh, htDms⟩ := dark_trajectory m
    rw [← (Turn.poll.inj hturn).1]
    refine decide_eq_true ?_
    show DmsWatchdog.tDms _ < 61 + m - DmsWatchdog.lastFreshMono _
    rw [hfresh, htDms]
    exact hage m
  · refine ⟨fun m _ => ⟨nofun, nofun⟩, fun m _ due call hturn => ?_,
      fun k => ⟨k, le_rfl, _, _, rfl⟩⟩
    obtain ⟨hbeat, htDms⟩ := silent_trajectory m
    rw [← (Turn.poll.inj hturn).1]
    refine decide_eq_true ?_
    show DeadMansSwitch.tDms _ < 61 + m - DeadMansSwitch.lastBeat _
    rw [hbeat, htDms]
    exact hage m

end Dms
end AatsSniper

/-
# The dead-man's switch of the process itself

`DeadMansSwitch` of `aats/risk/deadman.py`: the FAST loop beats, another thread
checks, and what the monotonic clock shows is given with each call.  Whether the
venue raises is given with each check; the latch is set before it is called.

A check calls the venue iff the switch is armed, has not fired, and the last beat is
more than `tDms` old (`check_calls_iff`).
-/

import AatsSniper.Lib.OneShot
import Mathlib.Algebra.Order.Field.Rat
import Mathlib.Tactic.Linarith

namespace AatsSniper
namespace Dms

open OneShot (Turn)

/-- What `emergency_flatten` raises. -/
inductive FlattenError
  | venue
  deriving DecidableEq

/-- `self._venue.emergency_flatten(reason=reason)` and the `return True` after it. -/
def emergencyFlatten (raises : Bool) : Except FlattenError Bool :=
  if raises = true then .error .venue else .ok true

/-- The call that a check made, from what the check came to. -/
def callOf : Except FlattenError Bool → Option OneShot.Outcome
  | .error _ => some .raised
  | .ok true => some .returned
  | .ok false => none

theorem callOf_emergencyFlatten (raises : Bool) :
    callOf (emergencyFlatten raises) = some (if raises = true then .raised else .returned) := by
  cases raises with
  | true => rfl
  | false => rfl

/-- `DeadMansSwitch`. -/
structure DeadMansSwitch where
  tDms : ℚ
  t_pos : 0 < tDms
  lastBeat : ℚ
  fired : Bool
  armed : Bool

namespace DeadMansSwitch

/-- `DeadMansSwitch(venue, t_dms_seconds=...)`. -/
def new (tDms : ℚ) (t_pos : 0 < tDms) (clock : ℚ) : DeadMansSwitch where
  tDms := tDms
  t_pos := t_pos
  lastBeat := clock
  fired := false
  armed := true

/-- `heartbeat()`. -/
def heartbeat (s : DeadMansSwitch) (clock : ℚ) : DeadMansSwitch := { s with lastBeat := clock }

/-- `_age_locked()`. -/
def ageLocked (s : DeadMansSwitch) (clock : ℚ) : ℚ := clock - s.lastBeat

/-- `check()`, and the switch it leaves. -/
def check (s : DeadMansSwitch) (clock : ℚ) (raises : Bool) :
    Except FlattenError Bool × DeadMansSwitch :=
  if s.armed = false ∨ s.fired = true then (.ok false, s)
  else if s.ageLocked clock ≤ s.tDms then (.ok false, s)
  else (emergencyFlatten raises, { s with fired := true })

/-- `stand_down(token)`. -/
def standDown (s : DeadMansSwitch) : DeadMansSwitch := { s with armed := false }

/-- `rearm(token)`. -/
def rearm (s : DeadMansSwitch) (clock : ℚ) : DeadMansSwitch :=
  { s with armed := true, fired := false, lastBeat := clock }

variable {s : DeadMansSwitch} {clock : ℚ} {raises : Bool}

/-- **When a check calls the venue.** -/
theorem check_calls_iff : (callOf (s.check clock raises).1).isSome = true ↔
    s.armed = true ∧ s.fired = false ∧ s.tDms < s.ageLocked clock := by
  unfold check
  split_ifs with hlatched hage
  · rcases hlatched with h | h
    · simp [callOf, h]
    · simp [callOf, h]
  · simp [callOf, hage]
  · rw [callOf_emergencyFlatten]
    simpa [not_le.1 hage] using hlatched

/-- A check that calls the venue leaves the latch set, whatever the venue does. -/
theorem check_fired (h : (callOf (s.check clock raises).1).isSome = true) :
    (s.check clock raises).2.fired = true := by
  obtain ⟨harmed, hfired, hage⟩ := check_calls_iff.1 h
  unfold check
  rw [if_neg (by simp [harmed, hfired]), if_neg (not_le.2 hage)]

/-- No check opens the latch. -/
theorem check_stays_fired (h : s.fired = true) : (s.check clock raises).2.fired = true := by
  unfold check
  rw [if_pos (.inr h)]
  exact h

end DeadMansSwitch

/-- What happens to the switch: the loop beats, the watching thread checks, the operator takes it
down and arms it again. -/
inductive SwitchEvent
  | heartbeat (clock : ℚ)
  | check (clock : ℚ) (raises : Bool)
  | standDown
  | rearm (clock : ℚ)

/-- The switch after an event. -/
def DeadMansSwitch.next (s : DeadMansSwitch) : SwitchEvent → DeadMansSwitch
  | .heartbeat clock => s.heartbeat clock
  | .check clock raises => (s.check clock raises).2
  | .standDown => s.standDown
  | .rearm clock => s.rearm clock

/-- What an event is to the switch: a check finds the heartbeat lost if it is more than `tDms`
old. -/
def DeadMansSwitch.turn (s : DeadMansSwitch) : SwitchEvent → Turn
  | .heartbeat _ => .other
  | .check clock raises =>
      .poll (decide (s.tDms < s.ageLocked clock)) (callOf (s.check clock raises).1)
  | .standDown => .disarm
  | .rearm _ => .rearm

/-- The turns of an endless run. -/
def DeadMansSwitch.turns (s₀ : DeadMansSwitch) (events : ℕ → SwitchEvent) (n : ℕ) : Turn :=
  (OneShot.trajectory DeadMansSwitch.next s₀ events n).turn (events n)

/-- **The switch latches before it calls.** -/
theorem DeadMansSwitch.latched (s₀ : DeadMansSwitch) (events : ℕ → SwitchEvent) :
    OneShot.Latched (s₀.turns events)
      fun n => (OneShot.trajectory DeadMansSwitch.next s₀ events n).fired := by
  refine OneShot.latched_of_step (fun s e hcall => ?_) (fun s e hset hrearm => ?_) s₀ events
  · cases e with
    | check clock raises => exact ⟨(check_calls_iff.1 hcall).2.1, check_fired hcall⟩
    | heartbeat _ => cases hcall
    | standDown => cases hcall
    | rearm _ => cases hcall
  · cases e with
    | check clock raises => exact check_stays_fired hset
    | heartbeat _ => exact hset
    | standDown => exact hset
    | rearm _ => exact absurd rfl hrearm

end Dms
end AatsSniper

/-
# LP locks that run out

`LpUnlockGate` and `LpUnlockExitWatcher` of `aats/risk/lp_unlock_gate.py`: how far a liquidity lock
is from its release decides whether a mint may be entered, and whether an open position has to be
left.

A schedule that was decoded keeps its invariant in a field, and so do the thresholds and the
decision; what their `__post_init__` refuses cannot be built, so that `evaluate` raises nothing.
A time lock whose release is not readable counts as undecoded.  The telemetry sinks and the
texts of the watcher's `detail` are left out.

Slots only pass: at a later slot the multiplier is no greater (`evaluate_antitone`), and what raised
the flag raises it again (`watch_mono`).
-/

import AatsSniper.Gate.PretradeGate
import AatsSniper.Lib.Factors
import Mathlib.Data.Rat.Floor

namespace AatsSniper
namespace Gate

open Factors (InUnit)

/-- `LpLockStatus`. -/
inductive LpLockStatus
  | burned
  | timeLocked
  | unknown
  deriving DecidableEq

/-- `LpUnlockSchedule`: what its `__post_init__` lets pass. -/
structure LpUnlockSchedule where
  mint : String
  asOfEventSlot : ℕ
  status : LpLockStatus
  unlockSlot : Option ℕ := none
  mint_nonempty : mint ≠ ""
  unlock_none : status ≠ .timeLocked → unlockSlot = none

/-- `LpUnlockThresholds`: what its `__post_init__` lets pass. -/
structure LpUnlockThresholds where
  rejectWithinSlots : ℕ := 216000
  downweightWithinSlots : ℕ := 648000
  downweightMultiplier : ℚ := 0.25
  exitRaiseWithinSlots : ℕ := 216000
  reject_le_downweight : rejectWithinSlots ≤ downweightWithinSlots
  multiplier_bounds : 0 ≤ downweightMultiplier ∧ downweightMultiplier < 1

/-- `LpUnlockThresholds()`. -/
def LpUnlockThresholds.default : LpUnlockThresholds where
  reject_le_downweight := by norm_num
  multiplier_bounds := by norm_num

/-- Where a lock stands at a slot: it never releases, nobody knows, or it releases so many slots
later. -/
inductive LockDistance
  | never
  | unreadable
  | slots (toUnlock : ℤ)
  deriving DecidableEq

/-- `unlock_slot - event_slot`, where there is one. -/
def LpUnlockSchedule.distance (s : LpUnlockSchedule) (eventSlot : ℕ) : LockDistance :=
  match s.status, s.unlockSlot with
  | .burned, _ => .never
  | .unknown, _ => .unreadable
  | .timeLocked, none => .unreadable
  | .timeLocked, some unlockSlot => .slots (unlockSlot - eventSlot)

/-- `slots_to_unlock`. -/
def LockDistance.toUnlock : LockDistance → Option ℤ
  | .slots toUnlock => some toUnlock
  | _ => none

/-- `LpUnlockVerdict`. -/
inductive LpUnlockVerdict
  | pass
  | downWeight
  | reject
  deriving DecidableEq

/-- `LpUnlockReason`, of those that are given. -/
inductive LpUnlockReason
  | lpUnlockImminent
  | lpUnlockApproaching
  | lpUnlockScheduleUnknown
  deriving DecidableEq

/-- `LpUnlockDecision`: what its `__post_init__` lets pass. -/
structure LpUnlockDecision where
  mint : String
  verdict : LpUnlockVerdict
  convictionMultiplier : ℚ
  reasonCodes : List LpUnlockReason
  slotsToUnlock : Option ℤ
  unlockSlot : Option ℕ
  asOfEventSlot : ℕ
  eventBlockTimeMs : ℤ
  redFlagHit : Option RedFlagHit
  inUnit : InUnit convictionMultiplier
  of_reject : verdict = .reject → convictionMultiplier = 0 ∧ ∃ hit, redFlagHit = some hit ∧
    (hit.flag = .lpUnlockImminent ∨ hit.flag = .lpUnlockScheduleUnknown)
  of_pass : verdict = .pass → convictionMultiplier = 1 ∧ redFlagHit = none
  of_downWeight : verdict = .downWeight → convictionMultiplier < 1 ∧ redFlagHit = none

namespace LpUnlockSchedule

variable (s : LpUnlockSchedule) (eventBlockTimeMs : ℤ)

/-- `_pass(schedule, ...)`. -/
def passed (slotsToUnlock : Option ℤ) : LpUnlockDecision where
  mint := s.mint
  verdict := .pass
  convictionMultiplier := 1
  reasonCodes := []
  slotsToUnlock := slotsToUnlock
  unlockSlot := s.unlockSlot
  asOfEventSlot := s.asOfEventSlot
  eventBlockTimeMs := eventBlockTimeMs
  redFlagHit := none
  inUnit := InUnit.one
  of_reject := nofun
  of_pass _ := ⟨rfl, rfl⟩
  of_downWeight := nofun

/-- `_reject(schedule, ...)` of a schedule that nobody could read. -/
def rejectedUnknown : LpUnlockDecision where
  mint := s.mint
  verdict := .reject
  convictionMultiplier := 0
  reasonCodes := [.lpUnlockScheduleUnknown]
  slotsToUnlock := none
  unlockSlot := s.unlockSlot
  asOfEventSlot := s.asOfEventSlot
  eventBlockTimeMs := eventBlockTimeMs
  redFlagHit := some { flag := .lpUnlockScheduleUnknown }
  inUnit := InUnit.zero
  of_reject _ := ⟨rfl, _, rfl, .inr rfl⟩
  of_pass := nofun
  of_downWeight := nofun

/-- `_reject(schedule, ...)` of an imminent release. -/
def rejectedImminent (slotsToUnlock threshold : ℤ) : LpUnlockDecision where
  mint := s.mint
  verdict := .reject
  convictionMultiplier := 0
  reasonCodes := [.lpUnlockImminent]
  slotsToUnlock := some slotsToUnlock
  unlockSlot := s.unlockSlot
  asOfEventSlot := s.asOfEventSlot
  eventBlockTimeMs := eventBlockTimeMs
  redFlagHit :=
    some { flag := .lpUnlockImminent, measured := some slotsToUnlock, threshold := some threshold }
  inUnit := InUnit.zero
  of_reject _ := ⟨rfl, _, rfl, .inl rfl⟩
  of_pass := nofun
  of_downWeight := nofun

/-- The decision in the band where conviction is cut. -/
def downWeighted (t : LpUnlockThresholds) (slotsToUnlock : ℤ) : LpUnlockDecision where
  mint := s.mint
  verdict := .downWeight
  convictionMultiplier := t.downweightMultiplier
  reasonCodes := [.lpUnlockApproaching]
  slotsToUnlock := some slotsToUnlock
  unlockSlot := s.unlockSlot
  asOfEventSlot := s.asOfEventSlot
  eventBlockTimeMs := eventBlockTimeMs
  redFlagHit := none
  inUnit := ⟨t.multiplier_bounds.1, t.multiplier_bounds.2.le⟩
  of_reject := nofun
  of_pass := nofun
  of_downWeight _ := ⟨t.multiplier_bounds.2, rfl⟩

end LpUnlockSchedule

/-- `LpUnlockGate.evaluate(schedule, event_block_time_ms)`. -/
def LpUnlockThresholds.evaluate (t : LpUnlockThresholds) (s : LpUnlockSchedule)
    (eventBlockTimeMs : ℤ) : LpUnlockDecision :=
  match s.distance s.asOfEventSlot with
  | .never => s.passed eventBlockTimeMs none
  | .unreadable => s.rejectedUnknown eventBlockTimeMs
  | .slots toUnlock =>
      if toUnlock ≤ t.rejectWithinSlots then
        s.rejectedImminent eventBlockTimeMs toUnlock t.rejectWithinSlots
      else if toUnlock ≤ t.downweightWithinSlots then s.downWeighted eventBlockTimeMs t toUnlock
      else s.passed eventBlockTimeMs (some toUnlock)

/-- `LpUnlockDecision.apply(capped_size)`. -/
def LpUnlockDecision.apply (d : LpUnlockDecision) (cappedSize : ℕ) : ℤ :=
  min ⌊(cappedSize : ℚ) * d.convictionMultiplier⌋ cappedSize

/-- `LpUnlockExitReason`. -/
inductive LpUnlockExitReason
  | healthy
  | approaching
  | scheduleUnknown
  deriving DecidableEq

/-- `should_raise`. -/
def LpUnlockExitReason.shouldRaise (reason : LpUnlockExitReason) : Bool :=
  decide (reason ≠ .healthy)

/-- `classify_open_position_unlock(schedule, event_slot, thresholds)`. -/
def classifyOpenPositionUnlock (t : LpUnlockThresholds) (s : LpUnlockSchedule) (eventSlot : ℕ) :
    LpUnlockExitReason × Option ℤ :=
  match s.distance eventSlot with
  | .never => (.healthy, none)
  | .unreadable => (.scheduleUnknown, none)
  | .slots toUnlock =>
      if toUnlock ≤ t.exitRaiseWithinSlots then (.approaching, some toUnlock)
      else (.healthy, some toUnlock)

/-- `LpUnlockExitDecision`. -/
structure LpUnlockExitDecision where
  mint : String
  eventSlot : ℕ
  reason : LpUnlockExitReason
  raiseFlag : Bool
  slotsToUnlock : Option ℤ

/-- `LpUnlockExitWatcher.watch(schedule, event_slot)`, before its flag is set. -/
def LpUnlockThresholds.watch (t : LpUnlockThresholds) (s : LpUnlockSchedule) (eventSlot : ℕ) :
    LpUnlockExitDecision :=
  let classified := classifyOpenPositionUnlock t s eventSlot
  { mint := s.mint
    eventSlot := eventSlot
    reason := classified.1
    raiseFlag := classified.1.shouldRaise
    slotsToUnlock := classified.2 }

/-- The lock is no farther from its release: not at all, or by fewer slots. -/
inductive LockDistance.Closer : LockDistance → LockDistance → Prop
  | never : Closer .never .never
  | unreadable : Closer .unreadable .unreadable
  | slots {n n' : ℤ} (h : n' ≤ n) : Closer (.slots n) (.slots n')

variable {t : LpUnlockThresholds} {s : LpUnlockSchedule} {slot slot' : ℕ}
  {distance distance' : LockDistance}

/-- A schedule comes closer to its release. -/
theorem distance_closer (s : LpUnlockSchedule) (h : slot ≤ slot') :
    (s.distance slot).Closer (s.distance slot') := by
  have hslot : (slot : ℤ) ≤ slot' := Int.ofNat_le.2 h
  unfold LpUnlockSchedule.distance
  split
  · exact .never
  · exact .unreadable
  · exact .unreadable
  · exact .slots (by omega)

/-- The multiplier at a distance. -/
def LpUnlockThresholds.multiplier (t : LpUnlockThresholds) : LockDistance → ℚ
  | .never => 1
  | .unreadable => 0
  | .slots toUnlock =>
      if toUnlock ≤ t.rejectWithinSlots then 0
      else if toUnlock ≤ t.downweightWithinSlots then t.downweightMultiplier
      else 1

theorem convictionMultiplier_evaluate (eventBlockTimeMs : ℤ) :
    (t.evaluate s eventBlockTimeMs).convictionMultiplier =
      t.multiplier (s.distance s.asOfEventSlot) := by
  unfold LpUnlockThresholds.evaluate LpUnlockThresholds.multiplier
  split
  · rfl
  · rfl
  · split_ifs <;> rfl

theorem multiplier_antitone (t : LpUnlockThresholds) (h : distance.Closer distance') :
    t.multiplier distance' ≤ t.multiplier distance := by
  obtain ⟨hnonneg, hlt⟩ := t.multiplier_bounds
  have hbands : (t.rejectWithinSlots : ℤ) ≤ t.downweightWithinSlots :=
    Int.ofNat_le.2 t.reject_le_downweight
  cases h with
  | never => exact le_refl _
  | unreadable => exact le_refl _
  | slots hslots =>
      unfold LpUnlockThresholds.multiplier
      dsimp only
      split_ifs
      -- the nearer one is in a wider band only if the bands overlap
      all_goals first | exact le_refl _ | exact hnonneg | exact hlt.le | exact zero_le_one | omega

/-- **The same lock at a later slot** is worth no more. -/
theorem evaluate_antitone {s' : LpUnlockSchedule} {blockTimeMs blockTimeMs' : ℤ}
    (hlock : s'.status = s.status ∧ s'.unlockSlot = s.unlockSlot)
    (hslot : s.asOfEventSlot ≤ s'.asOfEventSlot) :
    (t.evaluate s' blockTimeMs').convictionMultiplier ≤
      (t.evaluate s blockTimeMs).convictionMultiplier := by
  have hsame : s'.distance s'.asOfEventSlot = s.distance s'.asOfEventSlot := by
    unfold LpUnlockSchedule.distance
    rw [hlock.1, hlock.2]
  rw [convictionMultiplier_evaluate, convictionMultiplier_evaluate, hsame]
  exact multiplier_antitone t (distance_closer s hslot)

theorem watch_raiseFlag : (t.watch s slot).raiseFlag = true ↔
    s.distance slot = .unreadable ∨
      ∃ toUnlock, s.distance slot = .slots toUnlock ∧ toUnlock ≤ t.exitRaiseWithinSlots := by
  unfold LpUnlockThresholds.watch classifyOpenPositionUnlock LpUnlockExitReason.shouldRaise
  dsimp only
  split
  · rename_i hdistance
    simp [hdistance]
  · rename_i hdistance
    simp [hdistance]
  · rename_i hdistance
    split_ifs with hwithin
    · simp [hdistance, hwithin]
    · simp [hdistance, hwithin]

/-- **What raised the flag** raises it at every later slot. -/
theorem watch_mono (h : slot ≤ slot') (hraise : (t.watch s slot).raiseFlag = true) :
    (t.watch s slot').raiseFlag = true := by
  have hcloser := distance_closer s h
  rw [watch_raiseFlag] at hraise ⊢
  rcases hraise with hunreadable | ⟨toUnlock, hdistance, hwithin⟩
  · rw [hunreadable] at hcloser
    left
    generalize s.distance slot' = distance' at hcloser
    cases hcloser
    rfl
  · rw [hdistance] at hcloser
    right
    generalize s.distance slot' = distance' at hcloser
    cases hcloser with
    | slots hle => exact ⟨_, rfl, hle.trans hwithin⟩

/-- **What is refused at entry** is left at every later slot, where the watcher looks as far ahead
as the gate. -/
theorem watch_of_reject {eventBlockTimeMs : ℤ}
    (hahead : t.rejectWithinSlots ≤ t.exitRaiseWithinSlots)
    (hreject : (t.evaluate s eventBlockTimeMs).verdict = .reject) (h : s.asOfEventSlot ≤ slot) :
    (t.watch s slot).raiseFlag = true := by
  refine watch_mono h (watch_raiseFlag.2 ?_)
  unfold LpUnlockThresholds.evaluate at hreject
  split at hreject
  · cases hreject
  · left
    assumption
  · rename_i toUnlock hdistance
    split_ifs at hreject with hwithin
    · exact .inr ⟨toUnlock, hdistance, hwithin.trans (Int.ofNat_le.2 hahead)⟩
    · cases hreject
    · cases hreject

/-- The decision never makes a size larger. -/
theorem apply_bounds (d : LpUnlockDecision) (cappedSize : ℕ) :
    0 ≤ d.apply cappedSize ∧ d.apply cappedSize ≤ cappedSize := by
  have hsize : (0 : ℚ) ≤ cappedSize := Nat.cast_nonneg _
  have hscaled : (0 : ℚ) ≤ cappedSize * d.convictionMultiplier := mul_nonneg hsize d.inUnit.1
  exact ⟨le_min (Int.floor_nonneg.2 hscaled) (Int.natCast_nonneg _), min_le_right _ _⟩

end Gate
end AatsSniper

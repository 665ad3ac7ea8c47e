/-
# The enrichment that watches open positions

`SlowLoopEnrichmentWiring` of `aats/controller/enrichment_wiring.py` with its three producers of
flags: the insider dump detector, the `SellabilityReprober` of `aats/risk/sellability_reprobe.py`
and the LP unlock watcher.  Each may be left unwired.

A probe of the sellability answers or raises; a mint without a schedule is skipped, and one whose
schedule nobody could read is flagged.  The watcher flags the mint of the schedule.

What a producer raises is held for its time to live: `onDecodedSell_raised`,
`runSellabilityReprobe_raised` and `runLpUnlockWatch_raised`.  Healthy is only what was simulated to
sell (`runProbe_healthy_iff`).
-/

import AatsSniper.Controller.Flags
import AatsSniper.Ingestion.InsiderDump

namespace AatsSniper
namespace Controller

open Execution (SellSimReason SellSimResult SellSimVenue)
open Gate (LpUnlockSchedule LpUnlockThresholds)
open Ingestion (Detector InsiderDumpConfig InsiderDumpSignal SellKey SellObservation)

/-- `_DEGRADED_REASON_MAP`, with the reason of all others. -/
def degradedReason : SellSimReason → SellabilityReprobeReason
  | .simRevert => .degradedSimRevert
  | .zeroOutput => .degradedZeroOutput
  | .highSellTax => .degradedHighSellTax
  | .accountCloseTrap => .degradedAccountCloseTrap
  | _ => .degradedOther

/-- `_classify(result)`. -/
def classifyProbe (result : SellSimResult) : SellabilityReprobeReason :=
  if result.sellable = false then degradedReason result.reason
  else if result.reason = .sellable then .healthy
  else .inconclusive

/-- A probe: the result of `simulate_sell(mint, event_slot)`, or the name of what it raised. -/
abbrev SellProbe := String → ℕ → Except String SellSimResult

/-- The probe that a `SellSimVenue` is. -/
def SellProbe.ofVenue {Signed : Type} (venue : SellSimVenue Signed) : SellProbe :=
  fun mint eventSlot => .ok (venue.simulateSell mint eventSlot)

/-- `_run_probe(mint, event_slot)`, for the reason. -/
def runProbe (probe : SellProbe) (mint : String) (eventSlot : ℕ) : SellabilityReprobeReason :=
  match probe mint eventSlot with
  | .error _ => .inconclusive
  | .ok result => classifyProbe result

/-- A mint that is not a text. -/
inductive EnrichmentError
  | emptyMint

/-- `reprobe(mint, event_slot, is_open_position)` of an open position. -/
def reprobe (ttlSeconds now : ℤ) (probe : SellProbe) (eventSlot : ℕ) (flags : FlagStore)
    (mint : String) : Except EnrichmentError Unit × FlagStore :=
  if mint = "" then (.error .emptyMint, flags)
  else
    let reason := runProbe probe mint eventSlot
    if reason = .healthy then (.ok (), flags)
    else (.ok (), flags.setSellabilityDegradedFlag now mint reason eventSlot ttlSeconds)

/-- `SlowLoopEnrichmentWiring`: its detector with when it forgets, its reprober and its watcher, and
for how long each flag is written. -/
structure EnrichmentWiring where
  insiderDump : Option (SeenPolicy SellKey × InsiderDumpConfig)
  insiderDumpTtlSeconds : ℤ := 120
  sellability : Bool
  sellabilityTtlSeconds : ℤ := 120
  lpUnlockWatcher : Option LpUnlockThresholds
  lpUnlockTtlSeconds : ℤ := 120

/-- What a slow tick is answered: the clock of the store, the probe, and the schedules if their
source is wired. -/
structure EnrichmentAnswers where
  now : ℤ
  probe : SellProbe
  schedules : Option (String → Option LpUnlockSchedule)

namespace EnrichmentWiring

variable (wiring : EnrichmentWiring)

/-- `register_creator(mint, creator_wallet)`. -/
def registerCreator (detector : Detector) (mint creatorWallet : String) : Detector :=
  match wiring.insiderDump with
  | none => detector
  | some _ =>
      { detector with
        toWatchlist := (detector.registerCreator mint creatorWallet).toOption.getD
          detector.toWatchlist }

/-- `on_decoded_sell(obs)`, with what the store holds of the mint. -/
def onDecodedSell (flags : FlagStore) (detector : Detector) (now : ℤ) (obs : SellObservation)
    (isOpen : Bool) : Option InsiderDumpSignal × FlagStore × Detector :=
  match wiring.insiderDump with
  | none => (none, flags, detector)
  | some (policy, config) =>
      match detector.onSell policy config obs isOpen with
      | (none, detector') => (none, flags, detector')
      | (some signal, detector') =>
          (some signal,
            flags.setInsiderDumpFlag now signal.mint signal.fractionSoldBps signal.eventSlot
              wiring.insiderDumpTtlSeconds,
            detector')

/-- `run_sellability_reprobe(event_slot)` over the open mints. -/
def runSellabilityReprobe (flags : FlagStore) (answers : EnrichmentAnswers) (eventSlot : ℕ)
    (mints : List String) : Except EnrichmentError Unit × FlagStore :=
  if wiring.sellability = false then (.ok (), flags)
  else
    runLeaving (reprobe wiring.sellabilityTtlSeconds answers.now answers.probe eventSlot) flags mints

/-- The body of the loop of `run_lp_unlock_watch`. -/
def watchLpUnlock (t : LpUnlockThresholds) (schedules : String → Option LpUnlockSchedule) (now : ℤ)
    (eventSlot : ℕ) (flags : FlagStore) (mint : String) : FlagStore :=
  match schedules mint with
  | none => flags
  | some schedule =>
      let decision := t.watch schedule eventSlot
      if decision.raiseFlag = true then
        flags.setLpUnlockApproachingFlag now decision.mint decision.reason eventSlot
          wiring.lpUnlockTtlSeconds
      else flags

/-- `run_lp_unlock_watch(event_slot)` over the open mints. -/
def runLpUnlockWatch (flags : FlagStore) (answers : EnrichmentAnswers) (eventSlot : ℕ)
    (mints : List String) : FlagStore :=
  match wiring.lpUnlockWatcher, answers.schedules with
  | some t, some schedules =>
      mints.foldl (wiring.watchLpUnlock t schedules answers.now eventSlot) flags
  | _, _ => flags

end EnrichmentWiring

variable {probe : SellProbe} {mint : String} {eventSlot : ℕ}

theorem classifyProbe_healthy {result : SellSimResult} : classifyProbe result = .healthy ↔
    result.sellable = true ∧ result.reason = .sellable := by
  unfold classifyProbe degradedReason
  split_ifs with hsellable hreason
  · rw [hsellable]
    split <;> simp
  · simp [Bool.not_eq_false _ ▸ hsellable, hreason]
  · simp [hreason]

/-- **Healthy is what was simulated to sell.** -/
theorem runProbe_healthy_iff : runProbe probe mint eventSlot = .healthy ↔
    ∃ result, probe mint eventSlot = .ok result ∧ result.sellable = true ∧
      result.reason = .sellable := by
  unfold runProbe
  cases hprobe : probe mint eventSlot with
  | error e => simp
  | ok result => simp [classifyProbe_healthy]

/-- A venue that is probed finds healthy what passes every step of its sell. -/
theorem runProbe_ofVenue {Signed : Type} {venue : SellSimVenue Signed} :
    runProbe (.ofVenue venue) mint eventSlot = .healthy ↔ venue.Sells mint eventSlot := by
  rw [runProbe_healthy_iff, ← SellSimVenue.sellable_iff]
  constructor
  · rintro ⟨result, hresult, hsellable, -⟩
    obtain rfl := Except.ok.inj hresult
    exact hsellable
  · exact fun h => ⟨_, rfl, h, SellSimVenue.simulateSell_reason.1 h⟩

section Producers

variable {wiring : EnrichmentWiring} {ttl : FlagTtl} {flags : FlagStore} {detector : Detector}
  {answers : EnrichmentAnswers} {mints : List String} {now : ℤ}

theorem onDecodedSell_keeps {obs : SellObservation} {isOpen : Bool}
    (h : ttl .insiderDump ≤ wiring.insiderDumpTtlSeconds) :
    Keeps ttl now flags (wiring.onDecodedSell flags detector now obs isOpen).2.1 := by
  unfold EnrichmentWiring.onDecodedSell
  split
  · exact .refl ttl now flags
  · split
    · exact .refl ttl now flags
    · exact .setInsiderDumpFlag h

theorem reprobe_keeps {ttlSeconds : ℤ} (h : ttl .sellabilityDegraded ≤ ttlSeconds) :
    Keeps ttl now flags (reprobe ttlSeconds now probe eventSlot flags mint).2 := by
  unfold reprobe
  dsimp only
  split_ifs
  · exact .refl ttl now flags
  · exact .refl ttl now flags
  · exact .setSellabilityDegradedFlag h

theorem runSellabilityReprobe_keeps (h : ttl .sellabilityDegraded ≤ wiring.sellabilityTtlSeconds) :
    Keeps ttl answers.now flags (wiring.runSellabilityReprobe flags answers eventSlot mints).2 := by
  unfold EnrichmentWiring.runSellabilityReprobe
  split_ifs
  · exact .refl ttl answers.now flags
  · refine runLeaving_invariant (P := Keeps ttl answers.now flags) (.refl ttl answers.now flags) ?_
    intro flags' mint _ hkeeps
    exact hkeeps.trans (reprobe_keeps h)

theorem watchLpUnlock_keeps {t : LpUnlockThresholds} {schedules : String → Option LpUnlockSchedule}
    (h : ttl .lpUnlockApproaching ≤ wiring.lpUnlockTtlSeconds) :
    Keeps ttl now flags (wiring.watchLpUnlock t schedules now eventSlot flags mint) := by
  unfold EnrichmentWiring.watchLpUnlock
  split
  · exact .refl ttl now flags
  · dsimp only
    split_ifs
    · exact .setLpUnlockApproachingFlag h
    · exact .refl ttl now flags

theorem runLpUnlockWatch_keeps (h : ttl .lpUnlockApproaching ≤ wiring.lpUnlockTtlSeconds) :
    Keeps ttl answers.now flags (wiring.runLpUnlockWatch flags answers eventSlot mints) := by
  unfold EnrichmentWiring.runLpUnlockWatch
  split
  · exact .foldl (fun _ _ => watchLpUnlock_keeps h) flags mints
  · exact .refl ttl answers.now flags

/-- A signal of the detector is flagged. -/
theorem onDecodedSell_raised {obs : SellObservation} {isOpen : Bool} {signal : InsiderDumpSignal}
    (h : (wiring.onDecodedSell flags detector now obs isOpen).1 = some signal) :
    (wiring.onDecodedSell flags detector now obs isOpen).2.1.HeldUntil .insiderDump signal.mint
      (FlagStore.expiry now wiring.insiderDumpTtlSeconds) := by
  unfold EnrichmentWiring.onDecodedSell at h ⊢
  split
  · rename_i hnone
    rw [hnone] at h
    cases h
  · rename_i policy config hsome
    rw [hsome] at h
    dsimp only at h
    split
    · rename_i hraised
      rw [hraised] at h
      cases h
    · rename_i signal' detector' hraised
      rw [hraised] at h
      obtain rfl := Option.some.inj h
      exact Leases.heldUntil_grant (le_refl _)

/-- **Every open mint that does not probe healthy is flagged.** -/
theorem runSellabilityReprobe_raised (hwired : wiring.sellability = true) (hmint : mint ∈ mints)
    (hprobe : runProbe answers.probe mint eventSlot ≠ .healthy)
    (hran : (wiring.runSellabilityReprobe flags answers eventSlot mints).1 = .ok ()) :
    (wiring.runSellabilityReprobe flags answers eventSlot mints).2.HeldUntil .sellabilityDegraded
      mint (FlagStore.expiry answers.now wiring.sellabilityTtlSeconds) := by
  have hkeeps : ∀ flags mints, Keeps (fun _ => wiring.sellabilityTtlSeconds) answers.now flags
      (runLeaving (reprobe wiring.sellabilityTtlSeconds answers.now answers.probe eventSlot) flags
        mints).2 := by
    intro flags mints
    refine runLeaving_invariant (P := Keeps (fun _ => wiring.sellabilityTtlSeconds) answers.now flags)
      (.refl _ answers.now flags) ?_
    intro flags' mint _ h
    exact h.trans (reprobe_keeps (le_refl _))
  unfold EnrichmentWiring.runSellabilityReprobe at hran ⊢
  rw [if_neg (by simp [hwired])] at hran ⊢
  induction mints generalizing flags with
  | nil => cases hmint
  | cons first rest ih =>
      unfold runLeaving at hran ⊢
      cases hfirst : reprobe wiring.sellabilityTtlSeconds answers.now answers.probe eventSlot flags
        first with
      | mk result flags' =>
          cases result with
          | error e =>
              rw [hfirst] at hran
              cases hran
          | ok _ =>
              rw [hfirst] at hran
              rcases List.mem_cons.1 hmint with rfl | hrest
              · have hflagged : flags'.HeldUntil .sellabilityDegraded mint
                    (FlagStore.expiry answers.now wiring.sellabilityTtlSeconds) := by
                  unfold reprobe at hfirst
                  dsimp only at hfirst
                  split_ifs at hfirst
                  · cases hfirst
                  · obtain ⟨-, rfl⟩ := Prod.mk.inj hfirst
                    exact Leases.heldUntil_grant (le_refl _)
                exact (hkeeps flags' rest).held _ _ _ (le_refl _) hflagged
              · exact ih hrest hran

/-- **Every open mint whose lock is about to be released**, or whose schedule nobody could read, is
flagged. -/
theorem runLpUnlockWatch_raised {t : LpUnlockThresholds}
    {schedules : String → Option LpUnlockSchedule} {schedule : LpUnlockSchedule}
    (hwatcher : wiring.lpUnlockWatcher = some t) (hsource : answers.schedules = some schedules)
    (hmint : mint ∈ mints) (hschedule : schedules mint = some schedule)
    (hraise : (t.watch schedule eventSlot).raiseFlag = true) :
    (wiring.runLpUnlockWatch flags answers eventSlot mints).HeldUntil .lpUnlockApproaching
      schedule.mint (FlagStore.expiry answers.now wiring.lpUnlockTtlSeconds) := by
  have hkeeps : ∀ flags (mints : List String),
      Keeps (fun _ => wiring.lpUnlockTtlSeconds) answers.now flags
        (mints.foldl (wiring.watchLpUnlock t schedules answers.now eventSlot) flags) :=
    fun flags mints => .foldl (fun _ _ => watchLpUnlock_keeps (le_refl _)) flags mints
  unfold EnrichmentWiring.runLpUnlockWatch
  rw [hwatcher, hsource]
  dsimp only
  obtain ⟨before, after, rfl⟩ := List.append_of_mem hmint
  rw [List.foldl_append, List.foldl_cons]
  refine (hkeeps _ after).held _ _ _ (le_refl _) ?_
  unfold EnrichmentWiring.watchLpUnlock
  rw [hschedule]
  dsimp only
  rw [if_pos hraise]
  exact Leases.heldUntil_grant (le_refl _)

end Producers

end Controller
end AatsSniper

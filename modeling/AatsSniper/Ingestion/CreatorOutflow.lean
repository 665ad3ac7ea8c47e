/-
# Creator outflow velocity

`CreatorOutflowVelocityTracker` of `aats/ingestion/creator_outflow_velocity.py`: balance readings of
a mint's creator after the migration, of which each slot's last write counts.

The readings may arrive in any order and repeatedly, and the set of those already seen forgets
arbitrary ones.  A reading that comes again after it was forgotten is written over itself, so
the table of slots always holds the closing reading of each slot (`Tracker.Follows`), and
the latest feature is a function of that table.

The counters and the log lines are left out.  The three dictionaries by slot are one
table: they are written together.
-/

import AatsSniper.Lib.Latest
import AatsSniper.Lib.Run
import AatsSniper.Lib.Seen
import Mathlib.Tactic.Linarith

namespace AatsSniper
namespace Ingestion

/-- What the tracker's constructors and its arithmetic raise. -/
inductive OutflowError
  | emptyText
  | blockTimeMs (value : ℤ)
  | baselineNotPositive (value : ℕ)
  | slotsSinceMigration (value : ℤ)
  | fractionSoldBps (value : ℕ)
  | outflowVelocityBps (value : ℕ)
  | anchor (eventSlot migrationSlot : ℕ) (slotsSinceMigration : ℤ)
  deriving DecidableEq

/-- `CreatorOutflowObservation`: what its `__post_init__` lets pass. -/
structure CreatorOutflowObservation where
  mint : String
  creatorWallet : String
  eventSlot : ℕ
  blockTimeMs : Option ℤ
  currentBalanceBase : ℕ
  writeVersion : ℕ
  mint_nonempty : mint ≠ ""
  wallet_nonempty : creatorWallet ≠ ""
  blockTime_pos : ∀ t ∈ blockTimeMs, 1 ≤ t
  deriving DecidableEq

/-- `BPS_DENOM`. -/
def bpsDenom : ℕ := 10000

/-- `VELOCITY_NORMALIZATION_SLOTS`. -/
def velocityNormalizationSlots : ℕ := 1000

/-- `compute_outflow_velocity_bps(...)`: `(fraction_sold_bps, outflow_velocity_bps)`.  An outflow is
never negative. -/
def computeOutflowVelocityBps (cumulativeOutflowBase baselinePostMigrationBase : ℕ)
    (slotsSinceMigration : ℤ) : Except OutflowError (ℕ × ℕ) := do
  require (0 < baselinePostMigrationBase) (.baselineNotPositive baselinePostMigrationBase)
  require (0 < slotsSinceMigration) (.slotsSinceMigration slotsSinceMigration)
  let fractionBps := min bpsDenom (cumulativeOutflowBase * bpsDenom / baselinePostMigrationBase)
  let velocityBps :=
    min bpsDenom (fractionBps * velocityNormalizationSlots / slotsSinceMigration.toNat)
  return (fractionBps, velocityBps)

/-- The values of a feature, but for the wall clock. -/
structure FeatureValues where
  mint : String
  creatorWallet : String
  eventSlot : ℕ
  blockTimeMs : ℤ
  migrationSlot : ℕ
  slotsSinceMigration : ℤ
  cumulativeOutflowBase : ℕ
  baselinePostMigrationBase : ℕ
  fractionSoldBps : ℕ
  outflowVelocityBps : ℕ
  deriving DecidableEq

/-- `CreatorOutflowVelocityFeature`; `computed_wall_ms` is for monitoring only. -/
structure CreatorOutflowVelocityFeature extends FeatureValues where
  computedWallMs : ℤ
  deriving DecidableEq

/-- `CreatorOutflowVelocityFeature.__post_init__`. -/
def FeatureValues.check (f : FeatureValues) : Except OutflowError Unit := do
  require (f.mint ≠ "" ∧ f.creatorWallet ≠ "") .emptyText
  require (1 ≤ f.blockTimeMs) (.blockTimeMs f.blockTimeMs)
  require (1 ≤ f.slotsSinceMigration) (.slotsSinceMigration f.slotsSinceMigration)
  require (1 ≤ f.baselinePostMigrationBase) (.baselineNotPositive f.baselinePostMigrationBase)
  require (f.fractionSoldBps ≤ bpsDenom) (.fractionSoldBps f.fractionSoldBps)
  require (f.outflowVelocityBps ≤ bpsDenom) (.outflowVelocityBps f.outflowVelocityBps)
  require ((f.eventSlot : ℤ) = f.migrationSlot + f.slotsSinceMigration)
    (.anchor f.eventSlot f.migrationSlot f.slotsSinceMigration)

/-! ### The tracker -/

/-- The entries of a slot in `_balances_by_slot`, `_write_version_by_slot` and
`_block_time_by_slot`. -/
structure SlotReading where
  slot : ℕ
  balance : ℕ
  writeVersion : ℕ
  blockTimeMs : ℤ
  deriving DecidableEq

/-- `_creator_wallet[mint]` and `_migration_slot[mint]`. -/
structure Migration where
  creatorWallet : String
  migrationSlot : ℕ

/-- `(mint, creator_wallet, event_slot, write_version)`. -/
abbrev ReadingKey := String × String × ℕ × ℕ

/-- `CreatorOutflowVelocityTracker`. -/
structure Tracker where
  migrations : String → Option Migration := fun _ => none
  bySlot : String → Table SlotReading.slot := fun _ => Table.empty
  baselineBase : String → Option ℕ := fun _ => none
  cumulativeOutflowBase : String → Option ℕ := fun _ => none
  latest : String → Option CreatorOutflowVelocityFeature := fun _ => none
  seen : List ReadingKey := []

/-- `register_migration(mint, creator_wallet, migration_slot)`. -/
def Tracker.registerMigration (t : Tracker) (mint : String) (m : Migration) :
    Except OutflowError Tracker := do
  require (mint ≠ "" ∧ m.creatorWallet ≠ "") .emptyText
  return { t with migrations := Function.update t.migrations mint (some m) }

/-- The loop over `ordered_slots[1:]`: the running outflow and the balance before. -/
def addOutflow (acc : ℕ × ℕ) (bal : ℕ) : ℕ × ℕ :=
  (if bal < acc.2 then acc.1 + (acc.2 - bal) else acc.1, bal)

/-- `_recompute_mint(mint)`. -/
def Tracker.recomputeMint (t : Tracker) (mint : String) : Tracker :=
  match sortBy SlotReading.slot (t.bySlot mint).rows with
  | [] => t
  | earliest :: later =>
      if earliest.balance = 0 then
        { t with
          baselineBase := Function.update t.baselineBase mint none
          cumulativeOutflowBase := Function.update t.cumulativeOutflowBase mint none
          latest := Function.update t.latest mint none }
      else
        let cumulative := ((later.map (·.balance)).foldl addOutflow (0, earliest.balance)).1
        { t with
          baselineBase := Function.update t.baselineBase mint (some earliest.balance)
          cumulativeOutflowBase :=
            Function.update t.cumulativeOutflowBase mint (some cumulative) }

/-- The second half of `observe_balance`: the feature of the mint, after a reading was folded in. -/
def Tracker.publish (t : Tracker) (mint : String) (m : Migration) (wallet : String)
    (wallMs : ℤ) : Except OutflowError (Option CreatorOutflowVelocityFeature × Tracker) :=
  match t.baselineBase mint, t.cumulativeOutflowBase mint,
      (sortBy SlotReading.slot (t.bySlot mint).rows).getLast? with
  | some baseline, some cumulative, some last => do
      let slotsSinceMigration := (last.slot : ℤ) - m.migrationSlot
      let bps ← computeOutflowVelocityBps cumulative baseline slotsSinceMigration
      let values : FeatureValues :=
        { mint := mint
          creatorWallet := wallet
          eventSlot := last.slot
          blockTimeMs := last.blockTimeMs
          migrationSlot := m.migrationSlot
          slotsSinceMigration := slotsSinceMigration
          cumulativeOutflowBase := cumulative
          baselinePostMigrationBase := baseline
          fractionSoldBps := bps.1
          outflowVelocityBps := bps.2 }
      values.check
      let feature : CreatorOutflowVelocityFeature := ⟨values, wallMs⟩
      return (some feature, { t with latest := Function.update t.latest mint (some feature) })
  | _, _, _ => return (none, t)

/-- The reading is refused, out of scope or held, before the seen set is asked. -/
def Tracker.inScope (t : Tracker) (obs : CreatorOutflowObservation) : Option (ℤ × Migration) :=
  match obs.blockTimeMs, t.migrations obs.mint with
  | some blockTimeMs, some m =>
      if obs.creatorWallet = m.creatorWallet ∧ m.migrationSlot < obs.eventSlot then
        some (blockTimeMs, m)
      else none
  | _, _ => none

/-- The reading of a confirmed observation. -/
def CreatorOutflowObservation.reading (obs : CreatorOutflowObservation) (blockTimeMs : ℤ) :
    SlotReading :=
  ⟨obs.eventSlot, obs.currentBalanceBase, obs.writeVersion, blockTimeMs⟩

/-- The writes to the dictionaries by slot. -/
def Tracker.write (t : Tracker) (mint : String) (r : SlotReading) : Tracker :=
  { t with bySlot := Function.update t.bySlot mint ((t.bySlot mint).upsert r) }

/-- `observe_balance(obs)`, at a reading of the wall clock. -/
def Tracker.observeBalance (p : SeenPolicy ReadingKey) (t : Tracker)
    (obs : CreatorOutflowObservation) (wallMs : ℤ) :
    Except OutflowError (Option CreatorOutflowVelocityFeature × Tracker) :=
  match t.inScope obs with
  | none => .ok (none, t)
  | some (blockTimeMs, m) =>
      let mint := obs.mint
      let dedupKey := (mint, obs.creatorWallet, obs.eventSlot, obs.writeVersion)
      if dedupKey ∈ t.seen then .ok (none, t)
      else
        let t := { t with seen := p.see t.seen dedupKey }
        let superseded :=
          ((t.bySlot mint).get? obs.eventSlot).any fun r => obs.writeVersion < r.writeVersion
        if superseded then .ok (none, t)
        else
          let t := t.write mint (obs.reading blockTimeMs)
          (t.recomputeMint mint).publish mint m obs.creatorWallet wallMs

/-- `latest_feature(mint)`. -/
def Tracker.latestFeature (t : Tracker) (mint : String) : Option CreatorOutflowVelocityFeature :=
  t.latest mint

/-- A delivery: a reading, and the wall clock when it arrives. -/
structure Delivery where
  obs : CreatorOutflowObservation
  wallMs : ℤ

/-- `observe_balance` of one delivery, for the tracker it leaves. -/
def Tracker.deliver (p : SeenPolicy ReadingKey) (t : Tracker) (d : Delivery) :
    Except OutflowError Tracker :=
  (t.observeBalance p d.obs d.wallMs).map (·.2)

/-! ### The closed form -/

/-- The sum of the decreases between consecutive balances. -/
def decreases : List ℕ → ℕ
  | a :: b :: rest => (a - b) + decreases (b :: rest)
  | _ => 0

/-- The feature of the closing readings of a mint, in the order of their slots. -/
def outflowValues (mint : String) (m : Migration) : List SlotReading → Option FeatureValues
  | [] => none
  | earliest :: later =>
      if earliest.balance = 0 then none
      else
        let last := later.getLast?.getD earliest
        let outflow := decreases ((earliest :: later).map (·.balance))
        let slotsSinceMigration := (last.slot : ℤ) - m.migrationSlot
        let fractionBps := min bpsDenom (outflow * bpsDenom / earliest.balance)
        some
          { mint := mint
            creatorWallet := m.creatorWallet
            eventSlot := last.slot
            blockTimeMs := last.blockTimeMs
            migrationSlot := m.migrationSlot
            slotsSinceMigration := slotsSinceMigration
            cumulativeOutflowBase := outflow
            baselinePostMigrationBase := earliest.balance
            fractionSoldBps := fractionBps
            outflowVelocityBps :=
              min bpsDenom (fractionBps * velocityNormalizationSlots / slotsSinceMigration.toNat) }

/-- The reading a confirmed observation makes, where it counts for the mint. -/
def countedReading (mint : String) (m : Migration) (obs : CreatorOutflowObservation) :
    Option SlotReading :=
  obs.blockTimeMs.bind fun blockTimeMs =>
    if obs.mint = mint ∧ obs.creatorWallet = m.creatorWallet ∧ m.migrationSlot < obs.eventSlot then
      some (obs.reading blockTimeMs)
    else none

/-- The readings of a mint's creator after its migration. -/
def readings (mint : String) (m : Migration) (observed : List CreatorOutflowObservation) :
    List SlotReading :=
  observed.filterMap (countedReading mint m)

/-- The closing reading of every slot, by slot. -/
def closingReadings (mint : String) (m : Migration) (observed : List CreatorOutflowObservation) :
    List SlotReading :=
  sortBy SlotReading.slot
    (closings SlotReading.slot SlotReading.writeVersion (readings mint m observed))

/-- The value of a confirmed reading is determined by its mint, wallet, slot and write version. -/
def ValuesDetermined (observed : List CreatorOutflowObservation) : Prop :=
  ∀ o ∈ observed, ∀ o' ∈ observed, o.blockTimeMs.isSome → o'.blockTimeMs.isSome →
    o.mint = o'.mint → o.creatorWallet = o'.creatorWallet → o.eventSlot = o'.eventSlot →
    o.writeVersion = o'.writeVersion →
    o.currentBalanceBase = o'.currentBalanceBase ∧ o.blockTimeMs = o'.blockTimeMs

/-! ### The arithmetic -/

theorem foldl_addOutflow (balances : List ℕ) (acc prev : ℕ) :
    (balances.foldl addOutflow (acc, prev)).1 = acc + decreases (prev :: balances) := by
  induction balances generalizing acc prev with
  | nil => simp [decreases]
  | cons bal balances ih =>
      rw [List.foldl_cons]
      show (balances.foldl addOutflow (_, bal)).1 = _
      rw [ih, decreases]
      dsimp only
      split_ifs <;> omega

variable {mint : String} {m : Migration} {t : Tracker}

/-- The values of a feature pass their own checks. -/
theorem check_values {values : FeatureValues} {earliest : SlotReading} {later : List SlotReading}
    (hmint : mint ≠ "") (hwallet : m.creatorWallet ≠ "")
    (hlast : m.migrationSlot < (later.getLast?.getD earliest).slot ∧
      1 ≤ (later.getLast?.getD earliest).blockTimeMs)
    (h : outflowValues mint m (earliest :: later) = some values) : values.check = .ok () := by
  by_cases hbalance : earliest.balance = 0
  · simp [outflowValues, hbalance] at h
  simp only [outflowValues, if_neg hbalance] at h
  obtain rfl := Option.some.inj h
  obtain ⟨hslot, htime⟩ := hlast
  simp only [FeatureValues.check]
  rw [require_bind ⟨hmint, hwallet⟩, require_bind htime, require_bind (by omega),
    require_bind (by omega), require_bind (min_le_left _ _), require_bind (min_le_left _ _)]
  exact require_eq_ok.2 (by omega)

/-- The values of a baseline that is not zero. -/
theorem outflowValues_isSome (mint : String) (m : Migration) {earliest : SlotReading}
    (later : List SlotReading) (hbalance : earliest.balance ≠ 0) :
    ∃ values, outflowValues mint m (earliest :: later) = some values :=
  ⟨_, by rw [outflowValues, if_neg hbalance]⟩

/-- What a recomputation publishes: the closed form of the mint's table. -/
theorem publish_recompute (hmint : mint ≠ "") (hwallet : m.creatorWallet ≠ "")
    (hlast : ∀ r ∈ (sortBy SlotReading.slot (t.bySlot mint).rows).getLast?,
      m.migrationSlot < r.slot ∧ 1 ≤ r.blockTimeMs)
    (hne : (t.bySlot mint).rows ≠ []) (wallMs : ℤ) :
    ∃ feature t', (t.recomputeMint mint).publish mint m m.creatorWallet wallMs =
        .ok (feature, t') ∧
      t'.migrations = t.migrations ∧ t'.bySlot = t.bySlot ∧ t'.seen = t.seen ∧
      (∀ other, other ≠ mint → t'.latest other = t.latest other) ∧
      (t'.latest mint).map (·.toFeatureValues) =
        outflowValues mint m (sortBy SlotReading.slot (t.bySlot mint).rows) := by
  cases hsort : sortBy SlotReading.slot (t.bySlot mint).rows with
  | nil =>
      have hlength := length_sortBy SlotReading.slot (t.bySlot mint).rows
      rw [hsort] at hlength
      exact absurd (List.length_eq_zero_iff.1 hlength.symm) hne
  | cons earliest later =>
      rw [hsort] at hlast
      have hlast := hlast _ List.getLast?_cons
      by_cases hbalance : earliest.balance = 0
      · refine ⟨none, t.recomputeMint mint, ?_, ?_⟩
        · simp [Tracker.publish, Tracker.recomputeMint, hsort, hbalance]
          rfl
        · simp only [Tracker.recomputeMint, hsort, hbalance, outflowValues, if_true,
            Function.update_self, Option.map_none, true_and, and_true]
          exact fun other hother => Function.update_of_ne hother _ _
      · obtain ⟨values, hvalues⟩ := outflowValues_isSome mint m later hbalance
        have hcheck := check_values hmint hwallet hlast hvalues
        have hpos : 0 < ((later.getLast?.getD earliest).slot : ℤ) - m.migrationSlot := by
          have := hlast.1
          omega
        have hcumulative := foldl_addOutflow (later.map (·.balance)) 0 earliest.balance
        rw [zero_add] at hcumulative
        have hpublish : (t.recomputeMint mint).publish mint m m.creatorWallet wallMs =
            .ok (some ⟨values, wallMs⟩, { t.recomputeMint mint with
              latest := Function.update (t.recomputeMint mint).latest mint
                (some ⟨values, wallMs⟩) }) := by
          simp only [outflowValues, if_neg hbalance] at hvalues
          obtain rfl := Option.some.inj hvalues
          simp only [Tracker.publish, Tracker.recomputeMint, hsort, if_neg hbalance,
            Function.update_self, List.getLast?_cons, hcumulative, computeOutflowVelocityBps]
          rw [require_bind (Nat.pos_of_ne_zero hbalance), require_bind hpos]
          simp only [pure_bind, List.map_cons]
          simp only [List.map_cons] at hcheck
          rw [hcheck]
          rfl
        refine ⟨_, _, hpublish, ?_⟩
        simp only [Tracker.recomputeMint, hsort, if_neg hbalance, Function.update_self,
          Option.map_some, hvalues, true_and, and_true]
        exact fun other hother => Function.update_of_ne hother _ _

/-! ### The readings -/

variable {observed : List CreatorOutflowObservation} {obs : CreatorOutflowObservation}
  {r : SlotReading}

theorem countedReading_eq_some : countedReading mint m obs = some r ↔
    (obs.mint = mint ∧ obs.creatorWallet = m.creatorWallet ∧ m.migrationSlot < obs.eventSlot) ∧
      obs.blockTimeMs = some r.blockTimeMs ∧ obs.eventSlot = r.slot ∧
      obs.currentBalanceBase = r.balance ∧ obs.writeVersion = r.writeVersion := by
  unfold countedReading
  cases obs.blockTimeMs with
  | none => simp
  | some blockTimeMs =>
      rw [Option.bind_some]
      split_ifs with hcounts
      · simp only [hcounts, and_self, true_and, Option.some.injEq]
        constructor
        · rintro rfl
          simp [CreatorOutflowObservation.reading]
        · rintro ⟨rfl, hslot, hbalance, hversion⟩
          rw [CreatorOutflowObservation.reading, hslot, hbalance, hversion]
      · simp [hcounts]

theorem mem_readings : r ∈ readings mint m observed ↔
    ∃ obs ∈ observed, countedReading mint m obs = some r := List.mem_filterMap

theorem readings_snoc : readings mint m (observed ++ [obs]) =
    readings mint m observed ++ (countedReading mint m obs).toList := by
  unfold readings
  rw [List.filterMap_append]
  cases hcounted : countedReading mint m obs <;> simp [hcounted]

/-- Every reading counted is after the migration and confirmed. -/
theorem bounds_of_mem_readings (hr : r ∈ readings mint m observed) :
    m.migrationSlot < r.slot ∧ 1 ≤ r.blockTimeMs := by
  obtain ⟨obs, -, hcounted⟩ := mem_readings.1 hr
  obtain ⟨⟨-, -, hslot⟩, htime, heq, -⟩ := countedReading_eq_some.1 hcounted
  exact ⟨heq ▸ hslot, obs.blockTime_pos _ htime⟩

/-- Slot and write version determine the reading. -/
theorem determined_readings (hvalues : ValuesDetermined observed) :
    Determined SlotReading.slot SlotReading.writeVersion (readings mint m observed) := by
  intro r hr r' hr' hslot hversion
  obtain ⟨o, ho, hcounted⟩ := mem_readings.1 hr
  obtain ⟨o', ho', hcounted'⟩ := mem_readings.1 hr'
  obtain ⟨⟨hmint, hwallet, -⟩, htime, hoslot, hobalance, hoversion⟩ :=
    countedReading_eq_some.1 hcounted
  obtain ⟨⟨hmint', hwallet', -⟩, htime', hoslot', hobalance', hoversion'⟩ :=
    countedReading_eq_some.1 hcounted'
  obtain ⟨hbalance, hblock⟩ := hvalues o ho o' ho' (by simp [htime]) (by simp [htime'])
    (hmint.trans hmint'.symm) (hwallet.trans hwallet'.symm) (by omega) (by omega)
  have htimes : r.blockTimeMs = r'.blockTimeMs :=
    Option.some.inj (htime.symm.trans (hblock.trans htime'))
  cases r
  cases r'
  simp only [SlotReading.mk.injEq] at *
  omega

theorem inScope_eq_some {blockTimeMs : ℤ} : t.inScope obs = some (blockTimeMs, m) ↔
    t.migrations obs.mint = some m ∧ obs.blockTimeMs = some blockTimeMs ∧
      obs.creatorWallet = m.creatorWallet ∧ m.migrationSlot < obs.eventSlot := by
  unfold Tracker.inScope
  split
  · rename_i blockTimeMs' m' htime hmigration
    rw [htime, hmigration]
    simp only [Option.ite_none_right_eq_some, Option.some.injEq, Prod.mk.injEq]
    constructor
    · rintro ⟨hcounts, rfl, rfl⟩
      exact ⟨rfl, rfl, hcounts⟩
    · rintro ⟨rfl, rfl, hcounts⟩
      exact ⟨hcounts, rfl, rfl⟩
  · rename_i hnone
    simp only [false_iff, reduceCtorEq]
    rintro ⟨hmigration, htime, -⟩
    exact hnone _ _ htime hmigration

/-! ### Runs -/

/-- What the tracker holds of a mint after the observations. -/
structure Tracker.FollowsMint (t : Tracker) (mint : String) (m : Migration)
    (observed : List CreatorOutflowObservation) : Prop where
  table : Latest SlotReading.writeVersion (readings mint m observed) (t.bySlot mint)
  latest : (t.latest mint).map (·.toFeatureValues) =
    outflowValues mint m (sortBy SlotReading.slot (t.bySlot mint).rows)
  seen : ∀ slot version, (mint, m.creatorWallet, slot, version) ∈ t.seen →
    ∃ r ∈ readings mint m observed, r.slot = slot ∧ r.writeVersion = version

/-- What the tracker holds after the observations. -/
def Tracker.Follows (t : Tracker) (observed : List CreatorOutflowObservation) : Prop :=
  ∀ mint m, t.migrations mint = some m → t.FollowsMint mint m observed

/-- An observation that does not count for the mint leaves it as it is. -/
theorem Tracker.FollowsMint.skip {t t' : Tracker} (h : t.FollowsMint mint m observed)
    (hcounted : countedReading mint m obs = none) (htable : t'.bySlot mint = t.bySlot mint)
    (hlatest : t'.latest mint = t.latest mint)
    (hseen : ∀ slot version, (mint, m.creatorWallet, slot, version) ∈ t'.seen →
      (mint, m.creatorWallet, slot, version) ∈ t.seen) :
    t'.FollowsMint mint m (observed ++ [obs]) := by
  have hreadings : readings mint m (observed ++ [obs]) = readings mint m observed := by
    rw [readings_snoc, hcounted]
    simp
  refine ⟨?_, ?_, fun slot version hmem => ?_⟩
  · rw [hreadings, htable]
    exact h.table
  · rw [hlatest, htable]
    exact h.latest
  · rw [hreadings]
    exact h.seen slot version (hseen slot version hmem)

/-- Only the observation's own mint is touched. -/
theorem Tracker.Follows.advance {t t' : Tracker} (h : t.Follows observed)
    (hmigrations : t'.migrations = t.migrations)
    (htable : ∀ other, other ≠ obs.mint → t'.bySlot other = t.bySlot other)
    (hlatest : ∀ other, other ≠ obs.mint → t'.latest other = t.latest other)
    (hseen : ∀ key ∈ t'.seen, key ∈ t.seen ∨ key.1 = obs.mint)
    (hmint : ∀ m, t.migrations obs.mint = some m →
      t'.FollowsMint obs.mint m (observed ++ [obs])) :
    t'.Follows (observed ++ [obs]) := by
  intro mint m hm
  rw [hmigrations] at hm
  by_cases heq : mint = obs.mint
  · subst heq
    exact hmint m hm
  · refine (h mint m hm).skip ?_ (htable mint heq) (hlatest mint heq) fun slot version hmem => ?_
    · refine Option.eq_none_iff_forall_ne_some.2 fun r hr => heq ?_
      exact (countedReading_eq_some.1 hr).1.1.symm
    · rcases hseen _ hmem with hold | hkey
      · exact hold
      · exact absurd hkey heq

/-- An observation refused, held or out of scope. -/
theorem Tracker.Follows.outOfScope (h : t.Follows observed) (hscope : t.inScope obs = none) :
    t.Follows (observed ++ [obs]) := by
  refine h.advance rfl (fun _ _ => rfl) (fun _ _ => rfl) (fun key hkey => .inl hkey) fun m hm => ?_
  refine (h _ _ hm).skip (Option.eq_none_iff_forall_ne_some.2 fun r hr => ?_) rfl rfl
    fun _ _ hmem => hmem
  obtain ⟨⟨-, hwallet, hslot⟩, htime, -⟩ := countedReading_eq_some.1 hr
  rw [inScope_eq_some.2 ⟨hm, htime, hwallet, hslot⟩] at hscope
  cases hscope

/-- An observation whose key is in the seen set was read before, with the same values. -/
theorem Tracker.Follows.duplicate (h : t.Follows observed)
    (hvalues : ValuesDetermined (observed ++ [obs]))
    (hdup : (obs.mint, obs.creatorWallet, obs.eventSlot, obs.writeVersion) ∈ t.seen) :
    t.Follows (observed ++ [obs]) := by
  refine h.advance rfl (fun _ _ => rfl) (fun _ _ => rfl) (fun key hkey => .inl hkey) fun m hm => ?_
  have hmint := h _ _ hm
  cases hcounted : countedReading obs.mint m obs with
  | none => exact hmint.skip hcounted rfl rfl fun _ _ hmem => hmem
  | some r =>
      obtain ⟨⟨-, hwallet, -⟩, -, hslot, -, hversion⟩ := countedReading_eq_some.1 hcounted
      rw [hwallet] at hdup
      obtain ⟨r', hr', hslot', hversion'⟩ := hmint.seen _ _ hdup
      have hr : r ∈ readings obs.mint m (observed ++ [obs]) := by
        rw [readings_snoc, hcounted]
        simp
      have hold : r' ∈ readings obs.mint m (observed ++ [obs]) := by
        rw [readings_snoc]
        exact List.mem_append_left _ hr'
      have heq : r = r' := determined_readings hvalues r hr r' hold
        (hslot.symm.trans hslot'.symm) (hversion.symm.trans hversion'.symm)
      have hmem : ∀ x, x ∈ readings obs.mint m observed ↔
          x ∈ readings obs.mint m (observed ++ [obs]) := by
        intro x
        rw [readings_snoc, hcounted, List.mem_append]
        refine ⟨.inl, fun hx => hx.elim id fun hx => ?_⟩
        obtain rfl := List.mem_singleton.1 hx
        exact heq ▸ hr'
      refine ⟨hmint.table.congr hmem, hmint.latest, fun slot version hseen => ?_⟩
      obtain ⟨x, hx, hkey⟩ := hmint.seen slot version hseen
      exact ⟨x, (hmem x).1 hx, hkey⟩

/-- The seen set of a reading that is folded in. -/
theorem Tracker.FollowsMint.seen_snoc {p : SeenPolicy ReadingKey}
    (h : t.FollowsMint obs.mint m observed) (hcounted : countedReading obs.mint m obs = some r)
    {slot version : ℕ}
    (hmem : (obs.mint, m.creatorWallet, slot, version) ∈
      p.see t.seen (obs.mint, obs.creatorWallet, obs.eventSlot, obs.writeVersion)) :
    ∃ r ∈ readings obs.mint m (observed ++ [obs]), r.slot = slot ∧ r.writeVersion = version := by
  rw [readings_snoc, hcounted]
  rcases SeenPolicy.mem_see hmem with hold | hkey
  · obtain ⟨x, hx, hkey⟩ := h.seen slot version hold
    exact ⟨x, List.mem_append_left _ hx, hkey⟩
  · simp only [Prod.mk.injEq, true_and] at hkey
    obtain ⟨-, -, hslot, -, hversion⟩ := countedReading_eq_some.1 hcounted
    exact ⟨r, by simp, hslot.symm.trans hkey.2.1.symm, hversion.symm.trans hkey.2.2.symm⟩

/-- A reading that is written and its mint recomputed. -/
theorem Tracker.Follows.applied {t₁ : Tracker} {key : ReadingKey} {p : SeenPolicy ReadingKey}
    (h : t.Follows observed) (hm : t.migrations obs.mint = some m)
    (hcounted : countedReading obs.mint m obs = some r)
    (hle : ∀ b, (t.bySlot obs.mint).get? r.slot = some b → b.writeVersion ≤ r.writeVersion)
    (hkey : key = (obs.mint, obs.creatorWallet, obs.eventSlot, obs.writeVersion))
    (ht₁ : t₁ = { t with seen := p.see t.seen key }.write obs.mint r) (wallMs : ℤ) :
    ∃ feature t', (t₁.recomputeMint obs.mint).publish obs.mint m obs.creatorWallet wallMs =
        .ok (feature, t') ∧
      t'.migrations = t.migrations ∧ t'.Follows (observed ++ [obs]) := by
  have hmint := h _ _ hm
  have hwallet : obs.creatorWallet = m.creatorWallet := (countedReading_eq_some.1 hcounted).1.2.1
  have hwritten : t₁.bySlot obs.mint = (t.bySlot obs.mint).upsert r := by
    rw [ht₁]
    exact Function.update_self _ _ _
  have hother : ∀ other, other ≠ obs.mint → t₁.bySlot other = t.bySlot other := by
    intro other hne
    rw [ht₁]
    exact Function.update_of_ne hne _ _
  have htable : Latest SlotReading.writeVersion (readings obs.mint m (observed ++ [obs]))
      (t₁.bySlot obs.mint) := by
    rw [readings_snoc, hcounted, hwritten]
    exact hmint.table.upsert hle
  obtain ⟨feature, t', hpublish, hmigrations, hbySlot, hseen, hlatest, hvalue⟩ :=
    publish_recompute (t := t₁) (m := m) obs.mint_nonempty (hwallet ▸ obs.wallet_nonempty)
      (fun r hr => bounds_of_mem_readings
        (htable.newest r (mem_sortBy.1 (List.mem_of_getLast? hr))).1)
      (List.ne_nil_of_mem (hwritten ▸ Table.mem_upsert.2 (.inl rfl))) wallMs
  have hseen₁ : t'.seen = p.see t.seen key := by
    rw [hseen, ht₁]
    rfl
  have hmigrations₁ : t'.migrations = t.migrations := by
    rw [hmigrations, ht₁]
    rfl
  refine ⟨feature, t', hwallet ▸ hpublish, hmigrations₁, ?_⟩
  refine h.advance hmigrations₁ (fun other hne => ?_) (fun other hne => ?_) (fun k hk => ?_)
    fun m' hm' => ?_
  · rw [hbySlot, hother other hne]
  · rw [hlatest other hne, ht₁]
    rfl
  · rw [hseen₁] at hk
    refine (SeenPolicy.mem_see hk).imp_right fun heq => ?_
    rw [heq, hkey]
  · obtain rfl := Option.some.inj (hm.symm.trans hm')
    refine ⟨hbySlot ▸ htable, hbySlot ▸ hvalue, fun slot version hmem => ?_⟩
    rw [hseen₁, hkey] at hmem
    exact hmint.seen_snoc hcounted hmem

/-- **One delivery** never raises and keeps the tracker in step. -/
theorem deliver_ok (p : SeenPolicy ReadingKey) (h : t.Follows observed) (d : Delivery)
    (hvalues : ValuesDetermined (observed ++ [d.obs])) :
    ∃ t', t.deliver p d = .ok t' ∧ t'.migrations = t.migrations ∧
      t'.Follows (observed ++ [d.obs]) := by
  obtain ⟨obs, wallMs⟩ := d
  unfold Tracker.deliver Tracker.observeBalance
  cases hscope : t.inScope obs with
  | none => exact ⟨t, rfl, rfl, h.outOfScope hscope⟩
  | some scope =>
      obtain ⟨blockTimeMs, m⟩ := scope
      obtain ⟨hm, htime, hwallet, hslot⟩ := inScope_eq_some.1 hscope
      dsimp only
      by_cases hdup : (obs.mint, obs.creatorWallet, obs.eventSlot, obs.writeVersion) ∈ t.seen
      · rw [if_pos hdup]
        exact ⟨t, rfl, rfl, h.duplicate hvalues hdup⟩
      rw [if_neg hdup]
      have hmint := h _ _ hm
      have hcounted : countedReading obs.mint m obs = some (obs.reading blockTimeMs) :=
        countedReading_eq_some.2 ⟨⟨rfl, hwallet, hslot⟩, htime, rfl, rfl, rfl⟩
      split_ifs with hsuperseded
      · obtain ⟨b, hb, hlt⟩ := (Option.any_eq_true _ _).1 hsuperseded
        refine ⟨_, rfl, rfl, h.advance rfl (fun _ _ => rfl) (fun _ _ => rfl)
          (fun key hkey => (SeenPolicy.mem_see hkey).imp_right fun heq => by rw [heq])
          fun m' hm' => ?_⟩
        obtain rfl := Option.some.inj (hm.symm.trans hm')
        refine ⟨?_, hmint.latest, fun _ _ => hmint.seen_snoc hcounted⟩
        rw [readings_snoc, hcounted]
        exact hmint.table.superseded hb (of_decide_eq_true hlt)
      · have hle : ∀ b, (t.bySlot obs.mint).get? obs.eventSlot = some b →
            b.writeVersion ≤ obs.writeVersion := fun b hb => not_lt.1 fun hlt =>
          hsuperseded ((Option.any_eq_true _ _).2 ⟨b, hb, decide_eq_true hlt⟩)
        obtain ⟨feature, t', hpublish, hmigrations, hfollows⟩ :=
          h.applied (p := p) hm hcounted hle rfl rfl wallMs
        exact ⟨t', by rw [hpublish]; rfl, hmigrations, hfollows⟩

theorem ValuesDetermined.of_subset {observed' : List CreatorOutflowObservation}
    (h : ValuesDetermined observed') (hsub : observed ⊆ observed') : ValuesDetermined observed :=
  fun o ho o' ho' => h o (hsub ho) o' (hsub ho')

/-- **A run of deliveries.** -/
theorem run_deliveries (p : SeenPolicy ReadingKey) {t₀ : Tracker} (h₀ : t₀.Follows [])
    (ds : List Delivery) (hvalues : ValuesDetermined (ds.map (·.obs))) :
    ∃ t, runSteps (Tracker.deliver p) t₀ ds = .ok t ∧ t.migrations = t₀.migrations ∧
      t.Follows (ds.map (·.obs)) := by
  induction ds using List.reverseRecOn with
  | nil => exact ⟨t₀, rfl, rfl, h₀⟩
  | append_singleton ds d ih =>
      rw [List.map_append, List.map_singleton] at hvalues ⊢
      obtain ⟨t, hrun, hmigrations, hfollows⟩ :=
        ih (hvalues.of_subset (List.subset_append_left _ _))
      obtain ⟨t', hdeliver, hmigrations', hfollows'⟩ := deliver_ok p hfollows d hvalues
      refine ⟨t', ?_, hmigrations'.trans hmigrations, hfollows'⟩
      rw [runSteps_snoc, hrun]
      exact hdeliver

/-- A tracker that has only been told of migrations. -/
theorem follows_of_registered {migrations : List (String × Migration)} {t₀ : Tracker}
    (h : runSteps (fun t reg => Tracker.registerMigration t reg.1 reg.2) {} migrations = .ok t₀) :
    t₀.Follows [] := by
  have hfresh : t₀.bySlot = (fun _ => Table.empty) ∧ t₀.latest = (fun _ => none) ∧
      t₀.seen = [] := by
    refine runSteps_invariant (P := fun t : Tracker => t.bySlot = (fun _ => Table.empty) ∧
      t.latest = (fun _ => none) ∧ t.seen = []) ⟨rfl, rfl, rfl⟩ ?_ h
    rintro t reg t' ht hstep
    obtain ⟨-, hstep⟩ := ok_of_require hstep
    obtain rfl := Except.ok.inj hstep
    exact ht
  obtain ⟨hbySlot, hlatest, hseen⟩ := hfresh
  intro mint m _
  refine ⟨hbySlot ▸ latest_empty, ?_, fun slot version hmem => ?_⟩
  · rw [hbySlot, hlatest]
    rfl
  · rw [hseen] at hmem
    cases hmem

/-! ### Any order, any duplication -/

/-- Two lists of the same observations close every slot alike. -/
theorem closingReadings_congr {observed' : List CreatorOutflowObservation}
    (hvalues : ValuesDetermined observed) (hsame : ∀ obs, obs ∈ observed ↔ obs ∈ observed') :
    closingReadings mint m observed = closingReadings mint m observed' := by
  have hmem : ∀ r, r ∈ readings mint m observed ↔ r ∈ readings mint m observed' := by
    intro r
    simp only [mem_readings, hsame]
  refine sortBy_eq_of_perm ((List.perm_ext_iff_of_nodup nodup_closings nodup_closings).2
    fun r => ?_) fun a ha b hb hkey => ?_
  · simp only [mem_closings, hmem]
  · obtain ⟨ha, hamax⟩ := mem_closings.1 ha
    obtain ⟨hb, hbmax⟩ := mem_closings.1 hb
    exact determined_readings hvalues a ha b hb hkey
      (le_antisymm (hbmax a ha hkey) (hamax b hb hkey.symm))

/-- The latest feature after a run, but for the wall clock. -/
theorem Tracker.FollowsMint.latest_eq (h : t.FollowsMint mint m observed)
    (hvalues : ValuesDetermined observed) :
    (t.latestFeature mint).map (·.toFeatureValues) =
      outflowValues mint m (closingReadings mint m observed) := by
  refine h.latest.trans (congrArg _ (sortBy_eq_of_perm
    (h.table.perm_closings (determined_readings hvalues)) fun a ha b hb => ?_))
  exact Table.eq_of_key _ ha hb

theorem outflowValues_eq_none {rows : List SlotReading} :
    outflowValues mint m rows = none ↔ ∀ r ∈ rows.head?, r.balance = 0 := by
  cases rows with
  | nil => simp [outflowValues]
  | cons earliest later => simp [outflowValues]

theorem baseline_of_outflowValues {rows : List SlotReading} {values : FeatureValues}
    (h : outflowValues mint m rows = some values) :
    rows.head?.map (·.balance) = some values.baselinePostMigrationBase ∧
      values.cumulativeOutflowBase = decreases (rows.map (·.balance)) := by
  cases rows with
  | nil => simp [outflowValues] at h
  | cons earliest later =>
      simp only [outflowValues, Option.ite_none_left_eq_some, Option.some.injEq] at h
      obtain ⟨-, rfl⟩ := h
      exact ⟨rfl, rfl⟩

/-- **The delivery order does not matter.**  Whatever the order, the repetitions and what the seen
sets forget, both runs end with the same latest feature, but for the wall clock at which it was
computed: the one of the closing readings of the creator after the migration. -/
theorem latest_feature_order_independent (p p' : SeenPolicy ReadingKey)
    {migrations : List (String × Migration)} {t₀ : Tracker}
    (hregistered : runSteps (fun t reg => Tracker.registerMigration t reg.1 reg.2) {} migrations =
      .ok t₀)
    (hm : t₀.migrations mint = some m) {ds ds' : List Delivery}
    (hsame : ∀ obs, obs ∈ ds.map (·.obs) ↔ obs ∈ ds'.map (·.obs))
    (hvalues : ValuesDetermined (ds.map (·.obs))) :
    ∃ t t', runSteps (Tracker.deliver p) t₀ ds = .ok t ∧
      runSteps (Tracker.deliver p') t₀ ds' = .ok t' ∧
      (t'.latestFeature mint).map (·.toFeatureValues) =
        (t.latestFeature mint).map (·.toFeatureValues) ∧
      (t.latestFeature mint).map (·.toFeatureValues) =
        outflowValues mint m (closingReadings mint m (ds.map (·.obs))) ∧
      (∀ f, t.latestFeature mint = some f →
        (closingReadings mint m (ds.map (·.obs))).head?.map (·.balance) =
            some f.baselinePostMigrationBase ∧
          f.cumulativeOutflowBase =
            decreases ((closingReadings mint m (ds.map (·.obs))).map (·.balance))) ∧
      (t.latestFeature mint = none ↔
        ∀ r ∈ (closingReadings mint m (ds.map (·.obs))).head?, r.balance = 0) := by
  have h₀ := follows_of_registered hregistered
  have hvalues' : ValuesDetermined (ds'.map (·.obs)) :=
    hvalues.of_subset fun obs hobs => (hsame obs).2 hobs
  obtain ⟨t, hrun, hmigrations, hfollows⟩ := run_deliveries p h₀ ds hvalues
  obtain ⟨t', hrun', hmigrations', hfollows'⟩ := run_deliveries p' h₀ ds' hvalues'
  have hlatest := (hfollows mint m (hmigrations ▸ hm)).latest_eq hvalues
  have hlatest' := (hfollows' mint m (hmigrations' ▸ hm)).latest_eq hvalues'
  rw [← closingReadings_congr hvalues hsame] at hlatest'
  refine ⟨t, t', hrun, hrun', hlatest'.trans hlatest.symm, hlatest, fun f hf => ?_, ?_⟩
  · rw [hf] at hlatest
    exact baseline_of_outflowValues hlatest.symm
  · rw [← Option.map_eq_none_iff (f := fun f => f.toFeatureValues), hlatest, outflowValues_eq_none]

/-- A creator that sells after the migration of slot 10. -/
def exampleReading (slot balance : ℕ) : CreatorOutflowObservation where
  mint := "mint"
  creatorWallet := "creator"
  eventSlot := slot
  blockTimeMs := some 1
  currentBalanceBase := balance
  writeVersion := 0
  mint_nonempty := by decide
  wallet_nonempty := by decide
  blockTime_pos := by simp

/-- The tracker after `register_migration`. -/
def exampleTracker : Tracker :=
  { migrations := Function.update (fun _ => none) "mint" (some ⟨"creator", 10⟩) }

theorem latest_feature_order_independent_sold :
    ∃ t t', runSteps (Tracker.deliver (.oldest 0)) exampleTracker
        [⟨exampleReading 12 60, 1⟩, ⟨exampleReading 11 100, 2⟩] = .ok t ∧
      runSteps (Tracker.deliver (.oldest 5)) exampleTracker
        [⟨exampleReading 11 100, 1⟩, ⟨exampleReading 12 60, 2⟩, ⟨exampleReading 11 100, 3⟩] =
        .ok t' ∧
      (t'.latestFeature "mint").map (·.toFeatureValues) =
        (t.latestFeature "mint").map (·.toFeatureValues) := by
  obtain ⟨t, t', hrun, hrun', heq, -⟩ := @latest_feature_order_independent
    "mint" ⟨"creator", 10⟩ (.oldest 0) (.oldest 5) [("mint", ⟨"creator", 10⟩)]
    exampleTracker rfl rfl [⟨exampleReading 12 60, 1⟩, ⟨exampleReading 11 100, 2⟩]
    [⟨exampleReading 11 100, 1⟩, ⟨exampleReading 12 60, 2⟩, ⟨exampleReading 11 100, 3⟩]
    (by simp [or_comm]) (by simp [ValuesDetermined, exampleReading])
  exact ⟨t, t', hrun, hrun', heq⟩

/-- The same reading computed at another time, and a reading from before the migration. -/
theorem latest_feature_differs :
    ((runSteps (Tracker.deliver (.oldest 0)) exampleTracker
        [⟨exampleReading 11 100, 1⟩]).toOption.bind (·.latestFeature "mint")) ≠
      ((runSteps (Tracker.deliver (.oldest 0)) exampleTracker
        [⟨exampleReading 11 100, 1⟩, ⟨exampleReading 11 100, 2⟩]).toOption.bind
          (·.latestFeature "mint")) ∧
    (runSteps (Tracker.deliver (.oldest 0)) exampleTracker
        [⟨exampleReading 10 100, 1⟩]).toOption.map (·.latestFeature "mint") = some none := by
  decide +kernel

end Ingestion
end AatsSniper

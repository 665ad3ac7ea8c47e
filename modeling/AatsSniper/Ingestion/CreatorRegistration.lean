/-
# A mint that is registered again

`register_migration`, `observe_balance` and `reset_mint` of the tracker of
`aats/ingestion/creator_outflow_velocity.py`, in any sequence.

A registration replaces the creator and the slot of a mint and leaves its readings; a reset
clears both.  The rows of the tracker do not say whose readings they are, so a run is
traced: beside the tracker stand the observations that were written to it (`kept`), of which
its rows are the readings (`Traced.Holds`).  A mint reports a feature iff the earliest of
them has a balance.
-/

import AatsSniper.Ingestion.CreatorOutflow

namespace AatsSniper
namespace Ingestion

/-- `reset_mint(mint)`; the dedupe memory stays. -/
def Tracker.resetMint (t : Tracker) (mint : String) : Tracker :=
  { t with
    migrations := Function.update t.migrations mint none
    bySlot := Function.update t.bySlot mint Table.empty
    baselineBase := Function.update t.baselineBase mint none
    cumulativeOutflowBase := Function.update t.cumulativeOutflowBase mint none
    latest := Function.update t.latest mint none }

/-- A call of the tracker. -/
inductive TrackerCall
  | registerMigration (mint : String) (m : Migration)
  | observeBalance (obs : CreatorOutflowObservation) (wallMs : ℤ)
  | resetMint (mint : String)

/-- The mint a call is about. -/
def TrackerCall.mint : TrackerCall → String
  | .registerMigration mint _ => mint
  | .observeBalance obs _ => obs.mint
  | .resetMint mint => mint

/-- A call. -/
def Tracker.serve (p : SeenPolicy ReadingKey) (t : Tracker) : TrackerCall → Except OutflowError Tracker
  | .registerMigration mint m => t.registerMigration mint m
  | .observeBalance obs wallMs => (t.observeBalance p obs wallMs).map (·.2)
  | .resetMint mint => .ok (t.resetMint mint)

/-- `observe_balance` writes the reading: it is in scope, new and not superseded. -/
def Tracker.records (t : Tracker) (obs : CreatorOutflowObservation) : Bool :=
  (t.inScope obs).isSome &&
    !t.seen.contains (obs.mint, obs.creatorWallet, obs.eventSlot, obs.writeVersion) &&
    !((t.bySlot obs.mint).get? obs.eventSlot).any fun r => obs.writeVersion < r.writeVersion

/-- The tracker, and for each mint the observations behind its rows. -/
structure Traced where
  tracker : Tracker := {}
  kept : String → Table CreatorOutflowObservation.eventSlot := fun _ => Table.empty

/-- The observations behind the rows after a call. -/
def Traced.keeps (s : Traced) : TrackerCall → String → Table CreatorOutflowObservation.eventSlot
  | .registerMigration _ _ => s.kept
  | .observeBalance obs _ =>
      if s.tracker.records obs = true then
        Function.update s.kept obs.mint ((s.kept obs.mint).upsert obs)
      else s.kept
  | .resetMint mint => Function.update s.kept mint Table.empty

/-- After a call.  A registration that raises leaves the tracker, and nothing else raises. -/
def Traced.next (p : SeenPolicy ReadingKey) (s : Traced) (call : TrackerCall) : Traced where
  tracker := (s.tracker.serve p call).toOption.getD s.tracker
  kept := s.keeps call

/-- The step of a run. -/
def tracedStep (p : SeenPolicy ReadingKey) (s : Traced) (call : TrackerCall) : Except Empty Traced :=
  .ok (s.next p call)

/-- A reading of the registered creator after the registered slot. -/
def CreatorOutflowObservation.Counts (m : Migration) (o : CreatorOutflowObservation) : Prop :=
  o.creatorWallet = m.creatorWallet ∧ m.migrationSlot < o.eventSlot

/-- The row of a confirmed observation. -/
def CreatorOutflowObservation.row (o : CreatorOutflowObservation) : SlotReading :=
  o.reading (o.blockTimeMs.getD 0)

/-- The rows of observations, by slot. -/
def rowsOf (os : List CreatorOutflowObservation) : List SlotReading :=
  sortBy SlotReading.slot (os.map CreatorOutflowObservation.row)

/-- The feature has the figures of these observations of the mint. -/
def ComputedFrom (mint : String) (f : CreatorOutflowVelocityFeature)
    (os : List CreatorOutflowObservation) : Prop :=
  (∀ o ∈ os, o.mint = mint) ∧ ∃ m, some f.toFeatureValues = outflowValues mint m (rowsOf os)

/-- What a registered mint reports is computed from readings of its creator after its slot. -/
def Traced.Isolated (s : Traced) : Prop :=
  ∀ mint m f, s.tracker.migrations mint = some m → s.tracker.latestFeature mint = some f →
    ComputedFrom mint f (s.kept mint).rows ∧ ∀ o ∈ (s.kept mint).rows, o.Counts m

/-- The balance of the earliest of the observations. -/
def earliestBalance (os : List CreatorOutflowObservation) : ℕ :=
  ((rowsOf os).head?.map (·.balance)).getD 0

/-- A call leaves no figure over a reading that does not count.  A registration finds only readings
of the new creator after the new slot behind a feature that is reported; a reading that is
recorded beside others finds only such beside it, or leaves a baseline of zero. -/
def Traced.Separates (s : Traced) : TrackerCall → Prop
  | .registerMigration mint m =>
      mint ≠ "" → m.creatorWallet ≠ "" → s.tracker.latestFeature mint ≠ none →
        ∀ o ∈ (s.kept mint).rows, o.Counts m
  | .observeBalance obs _ =>
      ∀ m, s.tracker.migrations obs.mint = some m → s.tracker.records obs = true →
        earliestBalance ((s.kept obs.mint).upsert obs).rows ≠ 0 →
          ∀ o ∈ (s.kept obs.mint).rows, o.eventSlot ≠ obs.eventSlot → o.Counts m
  | .resetMint _ => True

variable {p : SeenPolicy ReadingKey} {t t' : Tracker} {obs : CreatorOutflowObservation}
  {mint : String} {m : Migration}

/-- A reading that is not recorded leaves all but the dedupe memory. -/
theorem observeBalance_of_not_records (h : t.records obs = false) (wallMs : ℤ) :
    ∃ seen, t.observeBalance p obs wallMs = .ok (none, { t with seen := seen }) := by
  unfold Tracker.observeBalance
  unfold Tracker.records at h
  cases hscope : t.inScope obs with
  | none => exact ⟨t.seen, rfl⟩
  | some scope =>
      dsimp only
      rw [hscope] at h
      split_ifs with hdup hsuperseded
      · exact ⟨t.seen, rfl⟩
      · exact ⟨_, rfl⟩
      · exact absurd h (by simp [hdup, hsuperseded])

/-- A reading that is recorded is written, and the mint reports the figures of its rows. -/
theorem observeBalance_of_records (h : t.records obs = true)
    (htimes : ∀ r ∈ (t.bySlot obs.mint).rows, 1 ≤ r.blockTimeMs) (wallMs : ℤ) :
    ∃ m, t.migrations obs.mint = some m ∧ obs.Counts m ∧ obs.blockTimeMs.isSome = true ∧
      ∃ feature t', t.observeBalance p obs wallMs = .ok (feature, t') ∧
        t'.migrations = t.migrations ∧
        t'.bySlot = Function.update t.bySlot obs.mint ((t.bySlot obs.mint).upsert obs.row) ∧
        (∀ other, other ≠ obs.mint → t'.latest other = t.latest other) ∧
        (t'.latest obs.mint).map (·.toFeatureValues) = outflowValues obs.mint m
          (sortBy SlotReading.slot ((t.bySlot obs.mint).upsert obs.row).rows) := by
  unfold Tracker.records at h
  simp only [Bool.and_eq_true, Bool.not_eq_true', List.contains_eq_mem, decide_eq_false_iff_not] at h
  obtain ⟨⟨hscope, hseen⟩, hsuperseded⟩ := h
  obtain ⟨⟨blockTimeMs, m⟩, hscope⟩ := Option.isSome_iff_exists.1 hscope
  obtain ⟨hm, htime, hwallet, hslot⟩ := inScope_eq_some.1 hscope
  have hrow : obs.row = obs.reading blockTimeMs := by
    rw [CreatorOutflowObservation.row, htime]
    rfl
  refine ⟨m, hm, ⟨hwallet, hslot⟩, by rw [htime]; rfl, ?_⟩
  unfold Tracker.observeBalance
  rw [hscope]
  dsimp only
  rw [if_neg hseen, if_neg (by rw [hsuperseded]; exact Bool.false_ne_true), ← hrow]
  generalize p.see t.seen (obs.mint, obs.creatorWallet, obs.eventSlot, obs.writeVersion) = seen
  generalize ht₁ : Tracker.write { t with seen := seen } obs.mint obs.row = t₁
  have hbySlot : t₁.bySlot =
      Function.update t.bySlot obs.mint ((t.bySlot obs.mint).upsert obs.row) := by
    rw [← ht₁]
    rfl
  have hrows : (t₁.bySlot obs.mint).rows = ((t.bySlot obs.mint).upsert obs.row).rows := by
    rw [hbySlot, Function.update_self]
  have hmem : obs.row ∈ (t₁.bySlot obs.mint).rows := hrows ▸ Table.mem_upsert.2 (.inl rfl)
  have hlast : ∀ r ∈ (sortBy SlotReading.slot (t₁.bySlot obs.mint).rows).getLast?,
      m.migrationSlot < r.slot ∧ 1 ≤ r.blockTimeMs := by
    intro r hr
    -- the last slot is not before the one just written
    refine ⟨lt_of_lt_of_le hslot (le_getLast_sortBy hmem hr), ?_⟩
    have hr := mem_sortBy.1 (List.mem_of_getLast? hr)
    rw [hrows, Table.mem_upsert] at hr
    rcases hr with rfl | ⟨hr, -⟩
    · rw [hrow]
      exact obs.blockTime_pos _ htime
    · exact htimes r hr
  obtain ⟨feature, t', hpublish, hmigrations, htable, -, hlatest, hvalue⟩ :=
    publish_recompute (t := t₁) (m := m) obs.mint_nonempty (hwallet ▸ obs.wallet_nonempty) hlast
      (List.ne_nil_of_mem hmem) wallMs
  refine ⟨feature, t', hwallet ▸ hpublish, ?_, htable.trans hbySlot, fun other hother => ?_, ?_⟩
  · rw [hmigrations, ← ht₁]
    rfl
  · rw [hlatest other hother, ← ht₁]
    rfl
  · rw [hvalue, hrows]

/-- A feature that `observe_balance` returns is the one the mint reports. -/
theorem latestFeature_of_observeBalance {wallMs : ℤ} {f : CreatorOutflowVelocityFeature}
    (h : t.observeBalance p obs wallMs = .ok (some f, t')) : t'.latestFeature obs.mint = some f := by
  unfold Tracker.observeBalance at h
  split at h
  · cases h
  · dsimp only at h
    split_ifs at h
    · cases h
    · cases h
    unfold Tracker.publish at h
    split at h
    · obtain ⟨bps, -, h⟩ := ok_of_bind h
      obtain ⟨-, -, h⟩ := ok_of_bind h
      obtain ⟨hf, ht'⟩ := Prod.mk.inj (Except.ok.inj h)
      rw [← ht', ← hf]
      exact Function.update_self _ _ _
    · cases h

variable {s : Traced}

/-- The rows of a mint are those of the observations kept, and its feature is theirs. -/
structure Traced.Holds (s : Traced) (mint : String) : Prop where
  rows : (s.tracker.bySlot mint).rows = (s.kept mint).rows.map CreatorOutflowObservation.row
  confirmed : ∀ o ∈ (s.kept mint).rows, o.mint = mint ∧ o.blockTimeMs.isSome = true
  latest : ∃ m, (s.tracker.latestFeature mint).map (·.toFeatureValues) =
    outflowValues mint m (rowsOf (s.kept mint).rows)

theorem Traced.Holds.blockTime_pos (h : s.Holds mint) :
    ∀ r ∈ (s.tracker.bySlot mint).rows, 1 ≤ r.blockTimeMs := by
  intro r hr
  rw [h.rows] at hr
  obtain ⟨o, ho, rfl⟩ := List.mem_map.1 hr
  obtain ⟨blockTimeMs, htime⟩ := Option.isSome_iff_exists.1 (h.confirmed o ho).2
  rw [CreatorOutflowObservation.row, htime]
  exact o.blockTime_pos _ htime

/-- A mint reports a feature iff the earliest observation kept has a balance. -/
theorem Traced.Holds.latest_eq_none_iff (h : s.Holds mint) :
    s.tracker.latestFeature mint = none ↔ earliestBalance (s.kept mint).rows = 0 := by
  obtain ⟨m, hlatest⟩ := h.latest
  rw [← Option.map_eq_none_iff (f := fun f => f.toFeatureValues), hlatest, outflowValues_eq_none,
    earliestBalance]
  cases (rowsOf (s.kept mint).rows).head? with
  | none => simp
  | some r => simp

/-- Nothing reported of the mint rests on a reading that does not count. -/
def Traced.Clean (s : Traced) (mint : String) : Prop :=
  ∀ m, s.tracker.migrations mint = some m → s.tracker.latestFeature mint ≠ none →
    ∀ o ∈ (s.kept mint).rows, o.Counts m

theorem isolated_iff_clean (h : ∀ mint, s.Holds mint) : s.Isolated ↔ ∀ mint, s.Clean mint := by
  constructor
  · intro hisolated mint m hm hlatest
    obtain ⟨f, hf⟩ := Option.ne_none_iff_exists'.1 hlatest
    exact (hisolated mint m f hm hf).2
  · intro hclean mint m f hm hf
    obtain ⟨m₀, hvalues⟩ := (h mint).latest
    rw [hf] at hvalues
    refine ⟨⟨fun o ho => ((h mint).confirmed o ho).1, m₀, hvalues⟩, hclean mint m hm ?_⟩
    rw [hf]
    nofun

/-- Two states that agree on a mint. -/
structure Traced.AgreeOn (s s' : Traced) (mint : String) : Prop where
  migrations : s'.tracker.migrations mint = s.tracker.migrations mint
  bySlot : s'.tracker.bySlot mint = s.tracker.bySlot mint
  latest : s'.tracker.latestFeature mint = s.tracker.latestFeature mint
  kept : s'.kept mint = s.kept mint

variable {s' : Traced}

theorem Traced.AgreeOn.holds (h : s.AgreeOn s' mint) (hs : s.Holds mint) : s'.Holds mint := by
  refine ⟨?_, ?_, ?_⟩
  · rw [h.bySlot, h.kept]
    exact hs.rows
  · rw [h.kept]
    exact hs.confirmed
  · rw [h.latest, h.kept]
    exact hs.latest

theorem Traced.AgreeOn.clean_iff (h : s.AgreeOn s' mint) : s'.Clean mint ↔ s.Clean mint := by
  unfold Traced.Clean
  rw [h.migrations, h.latest, h.kept]

variable (mint) in
/-- A step that changes one mint: what is to be shown is about that mint. -/
theorem step_of_apart (hs : ∀ mint, s.Holds mint) (hclean : ∀ mint, s.Clean mint)
    (hapart : ∀ other, other ≠ mint → s.AgreeOn s' other) (hholds : s'.Holds mint) {P : Prop}
    (hiff : s'.Clean mint ↔ P) : (s'.Isolated ↔ P) ∧ ∀ mint, s'.Holds mint := by
  have hs' : ∀ mint, s'.Holds mint := by
    intro other
    by_cases hother : other = mint
    · exact hother ▸ hholds
    · exact (hapart other hother).holds (hs other)
  refine ⟨?_, hs'⟩
  rw [isolated_iff_clean hs', ← hiff]
  refine ⟨fun h => h mint, fun h other => ?_⟩
  by_cases hother : other = mint
  · exact hother ▸ h
  · exact (hapart other hother).clean_iff.2 (hclean other)

/-- **A registration.** -/
theorem next_registerMigration (hs : ∀ mint, s.Holds mint) (hclean : ∀ mint, s.Clean mint)
    (mint : String) (m : Migration) :
    let s' := s.next p (.registerMigration mint m)
    (s'.Isolated ↔ s.Separates (.registerMigration mint m)) ∧ ∀ mint, s'.Holds mint := by
  by_cases hvalid : mint ≠ "" ∧ m.creatorWallet ≠ ""
  · have hnext : s.next p (.registerMigration mint m) = { s with
        tracker := { s.tracker with
          migrations := Function.update s.tracker.migrations mint (some m) } } := by
      rw [Traced.next, Tracker.serve, Tracker.registerMigration, require_bind hvalid]
      rfl
    dsimp only
    rw [hnext]
    refine step_of_apart mint hs hclean (fun other hother => ?_) ?_ ?_
    · exact ⟨Function.update_of_ne hother _ _, rfl, rfl, rfl⟩
    · exact ⟨(hs mint).rows, (hs mint).confirmed, (hs mint).latest⟩
    · unfold Traced.Clean Traced.Separates
      dsimp only
      rw [Function.update_self]
      constructor
      · exact fun h _ _ => h m rfl
      · rintro h m' hm'
        obtain rfl := Option.some.inj hm'
        exact h hvalid.1 hvalid.2
  · have hnext : s.next p (.registerMigration mint m) = s := by
      rw [Traced.next, Tracker.serve, Tracker.registerMigration, require, if_neg hvalid]
      rfl
    dsimp only
    rw [hnext]
    refine ⟨iff_of_true ((isolated_iff_clean hs).2 hclean) fun hmint hwallet => ?_, hs⟩
    exact absurd ⟨hmint, hwallet⟩ hvalid

/-- The rows after a recorded reading are those of the observations kept. -/
theorem Traced.Holds.upsert_rows (h : s.Holds obs.mint) :
    ((s.tracker.bySlot obs.mint).upsert obs.row).rows =
      ((s.kept obs.mint).upsert obs).rows.map CreatorOutflowObservation.row := by
  show Table.upsertRows _ _ (s.tracker.bySlot obs.mint).rows = _
  rw [h.rows]
  exact (Table.map_upsertRows (fun _ => rfl) _ _).symm

/-- A recorded reading is one more observation behind the figures. -/
theorem Traced.Holds.upsert (h : s.Holds obs.mint) (htime : obs.blockTimeMs.isSome = true)
    (hbySlot : t'.bySlot = Function.update s.tracker.bySlot obs.mint
      ((s.tracker.bySlot obs.mint).upsert obs.row))
    (hvalue : (t'.latest obs.mint).map (·.toFeatureValues) = outflowValues obs.mint m
      (sortBy SlotReading.slot ((s.tracker.bySlot obs.mint).upsert obs.row).rows)) :
    Traced.Holds ⟨t', Function.update s.kept obs.mint ((s.kept obs.mint).upsert obs)⟩ obs.mint := by
  refine ⟨?_, ?_, m, ?_⟩
  · dsimp only
    rw [hbySlot, Function.update_self, Function.update_self, h.upsert_rows]
  · dsimp only
    rw [Function.update_self]
    intro o ho
    rcases Table.mem_upsert.1 ho with rfl | ⟨ho, -⟩
    · exact ⟨rfl, htime⟩
    · exact h.confirmed o ho
  · dsimp only
    rw [Function.update_self, rowsOf, ← h.upsert_rows]
    exact hvalue

/-- **A reading.** -/
theorem next_observeBalance (hs : ∀ mint, s.Holds mint) (hclean : ∀ mint, s.Clean mint)
    (obs : CreatorOutflowObservation) (wallMs : ℤ) :
    let s' := s.next p (.observeBalance obs wallMs)
    (s'.Isolated ↔ s.Separates (.observeBalance obs wallMs)) ∧ ∀ mint, s'.Holds mint := by
  cases hrecords : s.tracker.records obs with
  | false =>
      obtain ⟨seen, hobserve⟩ := observeBalance_of_not_records (p := p) hrecords wallMs
      have hnext : s.next p (.observeBalance obs wallMs) =
          { s with tracker := { s.tracker with seen := seen } } := by
        rw [Traced.next, Tracker.serve, hobserve, Traced.keeps, hrecords]
        rfl
      dsimp only
      rw [hnext]
      have hs' : ∀ mint, Traced.Holds { s with tracker := { s.tracker with seen := seen } } mint :=
        fun mint => ⟨(hs mint).rows, (hs mint).confirmed, (hs mint).latest⟩
      refine ⟨iff_of_true ((isolated_iff_clean hs').2 hclean) fun m hm h => ?_, hs'⟩
      rw [hrecords] at h
      cases h
  | true =>
      obtain ⟨m, hm, hcounts, htime, feature, t', hobserve, hmigrations, hbySlot, hlatest, hvalue⟩ :=
        observeBalance_of_records (p := p) hrecords (hs obs.mint).blockTime_pos wallMs
      have hnext : s.next p (.observeBalance obs wallMs) =
          ⟨t', Function.update s.kept obs.mint ((s.kept obs.mint).upsert obs)⟩ := by
        rw [Traced.next, Tracker.serve, hobserve, Traced.keeps, if_pos hrecords]
        rfl
      dsimp only
      rw [hnext]
      have hholds := (hs obs.mint).upsert htime hbySlot hvalue
      refine step_of_apart obs.mint hs hclean (fun other hother => ?_) hholds ?_
      · refine ⟨by rw [hmigrations], ?_, hlatest other hother, Function.update_of_ne hother _ _⟩
        rw [hbySlot]
        exact Function.update_of_ne hother _ _
      · unfold Traced.Clean Traced.Separates
        dsimp only
        rw [Ne, hholds.latest_eq_none_iff, hmigrations, hm]
        dsimp only
        rw [Function.update_self]
        refine forall_congr' fun m' => forall_congr' fun hm' => ?_
        obtain rfl := Option.some.inj hm'
        constructor
        · intro h _ hbalance o ho hslot
          exact h hbalance o (Table.mem_upsert.2 (.inr ⟨ho, hslot⟩))
        · intro h hbalance o ho
          rcases Table.mem_upsert.1 ho with rfl | ⟨ho, hslot⟩
          · exact hcounts
          · exact h hrecords hbalance o ho hslot

/-- **A reset.** -/
theorem next_resetMint (hs : ∀ mint, s.Holds mint) (hclean : ∀ mint, s.Clean mint)
    (mint : String) :
    let s' := s.next p (.resetMint mint)
    (s'.Isolated ↔ s.Separates (.resetMint mint)) ∧ ∀ mint, s'.Holds mint := by
  refine step_of_apart mint hs hclean (fun other hother => ?_) ?_ ?_
  · exact ⟨Function.update_of_ne hother _ _, Function.update_of_ne hother _ _,
      Function.update_of_ne hother _ _, Function.update_of_ne hother _ _⟩
  · have hkept : (s.next p (.resetMint mint)).kept mint = Table.empty :=
      Function.update_self _ _ _
    have hbySlot : (s.next p (.resetMint mint)).tracker.bySlot mint = Table.empty :=
      Function.update_self _ _ _
    have hlatest : (s.next p (.resetMint mint)).tracker.latestFeature mint = none :=
      Function.update_self _ _ _
    refine ⟨?_, ?_, ⟨"", 0⟩, ?_⟩
    · rw [hkept, hbySlot]
      rfl
    · rw [hkept]
      nofun
    · rw [hkept, hlatest]
      rfl
  · refine iff_of_true (fun m hm => ?_) trivial
    have hnone : (s.next p (.resetMint mint)).tracker.migrations mint = none :=
      Function.update_self _ _ _
    rw [hnone] at hm
    cases hm

/-- **A re-registration isolates the creators iff no call leaves a figure over another's
reading.**  In every run from a new tracker, what every mint reports in every state is computed from
readings of its registered creator after its registered slot iff every call separates. -/
theorem isolated_iff_separates (p : SeenPolicy ReadingKey) (calls : List TrackerCall) :
    EveryState (tracedStep p) (fun _ s => s.Isolated) {} calls ↔
      EveryStep (tracedStep p) (fun _ s call => s.Separates call) {} calls := by
  have hstart : ∀ mint, Traced.Holds {} mint := fun mint => ⟨rfl, nofun, ⟨"", 0⟩, rfl⟩
  refine everyState_iff_everyStep (J := fun s => ∀ mint, s.Holds mint)
    ((isolated_iff_clean hstart).2 fun mint => nofun) hstart (fun _ s call hs hisolated => ?_) calls
  have hclean := (isolated_iff_clean hs).1 hisolated
  refine ⟨s.next p call, rfl, ?_⟩
  cases call with
  | registerMigration mint m =>
      obtain ⟨hiff, hholds⟩ := next_registerMigration (p := p) hs hclean mint m
      exact ⟨hiff, fun _ => hholds⟩
  | observeBalance obs wallMs =>
      obtain ⟨hiff, hholds⟩ := next_observeBalance (p := p) hs hclean obs wallMs
      exact ⟨hiff, fun _ => hholds⟩
  | resetMint mint =>
      obtain ⟨hiff, hholds⟩ := next_resetMint (p := p) hs hclean mint
      exact ⟨hiff, fun _ => hholds⟩

theorem second_nonempty : "second" ≠ "" := by decide

/-- A reading of the second creator. -/
def secondReading (obs : CreatorOutflowObservation) : CreatorOutflowObservation where
  mint := obs.mint
  creatorWallet := "second"
  eventSlot := obs.eventSlot
  blockTimeMs := obs.blockTimeMs
  currentBalanceBase := obs.currentBalanceBase
  writeVersion := obs.writeVersion
  mint_nonempty := obs.mint_nonempty
  wallet_nonempty := second_nonempty
  blockTime_pos := obs.blockTime_pos

/-- Registered for one creator, observed, registered for another and observed again. -/
def reRegisteredRun : List TrackerCall :=
  [.registerMigration "mint" ⟨"creator", 10⟩, .observeBalance (exampleReading 11 100) 1,
    .registerMigration "mint" ⟨"second", 20⟩,
    .observeBalance (secondReading (exampleReading 21 40)) 2]

/-- Where that leaves the tracker. -/
def reRegistered : Traced := reRegisteredRun.foldl (Traced.next (.oldest 50000)) {}

/-- The second creator is reported to have sold 60 of the first one's 100. -/
theorem re_registered_mixes :
    (reRegistered.tracker.latestFeature "mint").map (fun f =>
        (f.creatorWallet, f.cumulativeOutflowBase, f.baselinePostMigrationBase)) =
      some ("second", 60, 100) ∧
    ¬ EveryState (tracedStep (.oldest 50000)) (fun _ s => s.Isolated) {} reRegisteredRun := by
  refine ⟨by decide +kernel, fun h => ?_⟩
  have hisolated : reRegistered.Isolated :=
    h reRegisteredRun [] reRegistered (List.append_nil _).symm rfl
  have hsome : (reRegistered.tracker.latestFeature "mint").isSome = true := by decide +kernel
  obtain ⟨f, hf⟩ := Option.isSome_iff_exists.1 hsome
  have hwallets : (reRegistered.kept "mint").rows.map (·.creatorWallet) = ["creator", "second"] := by
    decide +kernel
  have hcounts : ∀ wallet ∈ ["creator", "second"], wallet = "second" := by
    rw [← hwallets]
    intro wallet hwallet
    obtain ⟨o, ho, rfl⟩ := List.mem_map.1 hwallet
    exact ((hisolated "mint" ⟨"second", 20⟩ f rfl hf).2 o ho).1
  exact absurd (hcounts "creator" List.mem_cons_self) (by decide)

end Ingestion
end AatsSniper

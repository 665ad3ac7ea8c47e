/-
# The completeness audit

`CompletenessAuditor.reconcile` of `aats/ingestion/completeness.py`: the launches of an independent
census against the snapshots that were recorded.

The index keeps one snapshot row of every mint, a complete one if there is any (`Indexed`), so a
launch is complete exactly when some row of its mint says so.  Which of several such rows is kept
depends on their order, and it shows in the event count alone.

The gate compares a Wilson bound of the miss rate with the declared maximum; arithmetic on rates is
that of the reals.  The log lines are left out.
-/

import AatsSniper.Lib.Except
import AatsSniper.Lib.PyValue
import AatsSniper.Lib.Wilson

namespace AatsSniper
namespace Ingestion

/-! ### The snapshot rows -/

/-- A row: the items of a `dict` with string keys, later ones first to be found. -/
abbrev SnapshotDict := List (CodePoints × Json)

/-- `row.get(key)`. -/
def SnapshotDict.get (row : SnapshotDict) (key : String) : Option Json :=
  Json.get row (codePoints key)

/-- `value == text`. -/
def isText (value : Option Json) (text : String) : Bool :=
  match value with
  | some (.str s) => decide (s = codePoints text)
  | _ => false

/-- The key and the value of a two-element item, as `dict.update` takes it. -/
def updateItem : Json → Option (Json × Json)
  | .arr [key, value] => some (key, value)
  | .str [a, b] => some (.str [a], .str [b])
  | .obj members =>
      match (members.map Prod.fst).eraseDups with
      | [a, b] => some (.str a, .str b)
      | _ => none
  | _ => none

/-- A value that can be a key of a `dict`. -/
def hashable : Json → Bool
  | .arr _ => false
  | .obj _ => false
  | _ => true

/-- `merged.update(inner)` on the string keys; `none` where it raises. -/
def dictUpdate (merged : SnapshotDict) : Json → Option SnapshotDict
  | .obj members => some (merged ++ members)
  | .arr elems => do
      let items ← elems.mapM updateItem
      if items.all fun item => hashable item.1 then
        return merged ++ items.filterMap fun item =>
          match item.1 with
          | .str key => some (key, item.2)
          | _ => none
      else none
  | .str [] => some merged
  | _ => none

/-- `_normalize_snapshot_row(row)`. -/
def normalizeSnapshotRow (depthLimit : ℕ) (row : SnapshotDict) : SnapshotDict :=
  if (row.get "completeness_status").isSome then row
  else
    match row.get "payload_json" with
    | some (.str payload) =>
        match Json.decodeText depthLimit payload with
        | .ok inner => (dictUpdate row inner).getD row
        | .error _ => row
    | _ => row

/-- The row carries the status `complete`. -/
def SnapshotDict.isComplete (row : SnapshotDict) : Bool :=
  isText (row.get "completeness_status") "complete"

/-- The mint a row is indexed under: one that is no text is no census mint, and one that cannot
be a key raises. -/
def SnapshotDict.mint (row : SnapshotDict) : Except PyError (Option CodePoints) :=
  match row.get "mint" with
  | some (.str mint) => .ok (some mint)
  | some (.arr _) => .error .typeError
  | some (.obj _) => .error .typeError
  | _ => .ok none

/-- `snap_index`: the row kept of each mint. -/
abbrev SnapIndex := CodePoints → Option SnapshotDict

/-- One turn of the loop over the snapshot rows, after the row is normalized. -/
def indexRow (index : SnapIndex) (row : SnapshotDict) : Except PyError SnapIndex := do
  match ← row.mint with
  | none => return index
  | some mint =>
      match index mint with
      | none => return Function.update index mint (some row)
      | some existing =>
          if row.isComplete = true ∧ existing.isComplete = false then
            return Function.update index mint (some row)
          else return index

/-- The loop over the snapshot rows. -/
def snapIndex (depthLimit : ℕ) (snapshotRows : List SnapshotDict) : Except PyError SnapIndex :=
  (snapshotRows.map (normalizeSnapshotRow depthLimit)).foldlM indexRow fun _ => none

/-! ### The report -/

/-- `CompletenessStatus`. -/
inductive CompletenessStatus
  | complete
  | censored
  deriving DecidableEq

/-- `CensusRecord`. -/
structure CensusRecord where
  mint : CodePoints
  poolCreateSlot : ℤ
  poolCreateBlockTimeMs : ℤ
  source : String := "census"
  deriving DecidableEq

/-- `CompletenessRow`. -/
structure CompletenessRow where
  censusRecord : CensusRecord
  status : CompletenessStatus
  snapshotEventCount : Json
  snapshotCompletenessStatus : Option String
  missReason : Option String

/-- `AuditReport`. -/
structure AuditReport where
  censusTotal : ℕ
  recordedComplete : ℕ
  censoredCount : ℕ
  missRatePoint : ℝ
  missRateUpperBound : ℝ
  confidenceLevel : ℚ
  declaredMaxMissRate : ℝ
  gatePasses : Prop
  rows : List CompletenessRow
  slotRangeStart : ℤ
  slotRangeEnd : ℤ
  auditRecordedAtMs : ℤ

/-- The row of a census record, for the snapshot of its mint. -/
def reconcileRecord (cr : CensusRecord) (snap : Option SnapshotDict) : CompletenessRow :=
  match snap with
  | some row =>
      if row.isComplete = true then
        ⟨cr, .complete, (row.get "event_count").getD (.int 0), some "complete", none⟩
      else if isText (row.get "completeness_status") "CENSORED" = true then
        ⟨cr, .censored, (row.get "event_count").getD (.int 0), some "CENSORED",
          some "snapshot_censored_stream_dropout_or_overflow"⟩
      else ⟨cr, .censored, .int 0, none, some "mint_not_observed_by_primary_transport"⟩
  | none => ⟨cr, .censored, .int 0, none, some "mint_not_observed_by_primary_transport"⟩

/-- The score of a confidence level. -/
def zScore (confidence : ℚ) : ℚ :=
  if confidence = 0.90 then 1.645
  else if confidence = 0.95 then 1.960
  else if confidence = 0.99 then 2.576
  else 1.960

/-- `_wilson_upper_bound(n_miss, n_total, confidence)`. -/
noncomputable def wilsonUpperBound (nMiss nTotal : ℕ) (confidence : ℚ) : ℝ :=
  if nTotal = 0 then 1
  else
    let pHat : ℝ := nMiss / nTotal
    let z : ℝ := zScore confidence
    let n : ℝ := nTotal
    let z2 := z * z
    let centre := pHat + z2 / (2 * n)
    let margin := z * √(pHat * (1 - pHat) / n + z2 / (4 * n * n))
    let denominator := 1 + z2 / n
    min 1 ((centre + margin) / denominator)

/-- `CompletenessAuditor`, with the census it asks. -/
structure CompletenessAuditor where
  poolCreatesInSlotRange : ℤ → ℤ → List CensusRecord
  declaredMaxMissRate : ℝ
  confidenceLevel : ℚ
  depthLimit : ℕ

/-- What `reconcile` reports of the census, once the snapshot rows are indexed. -/
noncomputable def CompletenessAuditor.report (a : CompletenessAuditor) (index : SnapIndex)
    (slotRangeStart slotRangeEnd nowMs : ℤ) : AuditReport :=
  let censusRecords := a.poolCreatesInSlotRange slotRangeStart slotRangeEnd
  let censusTotal := censusRecords.length
  let rows := censusRecords.map fun cr => reconcileRecord cr (index cr.mint)
  let recordedComplete := rows.countP fun row => decide (row.status = .complete)
  let censoredCount := rows.countP fun row => decide (row.status = .censored)
  let missRateUpper :=
    if censusTotal = 0 then 0 else wilsonUpperBound censoredCount censusTotal a.confidenceLevel
  { censusTotal := censusTotal
    recordedComplete := recordedComplete
    censoredCount := censoredCount
    missRatePoint := if censusTotal = 0 then 0 else censoredCount / censusTotal
    missRateUpperBound := missRateUpper
    confidenceLevel := a.confidenceLevel
    declaredMaxMissRate := a.declaredMaxMissRate
    gatePasses := missRateUpper ≤ a.declaredMaxMissRate
    rows := rows
    slotRangeStart := slotRangeStart
    slotRangeEnd := slotRangeEnd
    auditRecordedAtMs := nowMs }

/-- `reconcile(snapshot_rows, slot_range_start, slot_range_end, now_ms)`. -/
noncomputable def CompletenessAuditor.reconcile (a : CompletenessAuditor)
    (snapshotRows : List SnapshotDict) (slotRangeStart slotRangeEnd nowMs : ℤ) :
    Except PyError AuditReport := do
  let index ← snapIndex a.depthLimit snapshotRows
  return a.report index slotRangeStart slotRangeEnd nowMs

/-! ### What the index keeps -/

/-- A row the index may keep for a mint: complete, if any row of the mint is. -/
def Keepable (given : List SnapshotDict) (mint : CodePoints) (row : SnapshotDict) : Prop :=
  row ∈ given ∧ row.mint = .ok (some mint) ∧
    (row.isComplete = false → ∀ other ∈ given, other.mint = .ok (some mint) →
      other.isComplete = false)

/-- The index keeps a row of every mint among these. -/
structure Indexed (given : List SnapshotDict) (index : SnapIndex) : Prop where
  kept : ∀ mint row, index mint = some row → Keepable given mint row
  every : ∀ row ∈ given, ∀ mint, row.mint = .ok (some mint) → (index mint).isSome = true

section Index

variable {given given' : List SnapshotDict} {index index' : SnapIndex} {row : SnapshotDict}
  {mint : CodePoints}

theorem indexed_empty : Indexed [] fun _ => none :=
  ⟨fun _ _ h => absurd h (by simp), fun _ h => absurd h (by simp)⟩

/-- Only which rows were given matters. -/
theorem Keepable.congr (hmem : ∀ r, r ∈ given ↔ r ∈ given') (h : Keepable given mint row) :
    Keepable given' mint row := by
  obtain ⟨hrow, hmint, hbest⟩ := h
  exact ⟨(hmem row).1 hrow, hmint, fun hcomplete other hother =>
    hbest hcomplete other ((hmem other).2 hother)⟩

theorem Indexed.congr (hmem : ∀ r, r ∈ given ↔ r ∈ given') (h : Indexed given index) :
    Indexed given' index where
  kept mint row hrow := (h.kept mint row hrow).congr hmem
  every row hrow := h.every row ((hmem row).2 hrow)

/-- A row that is no better than the one kept changes nothing. -/
theorem Keepable.snoc (h : Keepable given mint row) {other : SnapshotDict}
    (hother : other.mint = .ok (some mint) → row.isComplete = false → other.isComplete = false) :
    Keepable (given ++ [other]) mint row := by
  obtain ⟨hrow, hmint, hbest⟩ := h
  refine ⟨List.mem_append_left _ hrow, hmint, fun hcomplete r hr hrmint => ?_⟩
  rcases List.mem_append.1 hr with hr | hr
  · exact hbest hcomplete r hr hrmint
  · obtain rfl := List.mem_singleton.1 hr
    exact hother hrmint hcomplete

/-- The index stays as it is for a row of no mint, or no better than the one kept of its mint. -/
theorem Indexed.keep (h : Indexed given index)
    (hrow : ∀ mint, row.mint = .ok (some mint) → ∃ existing, index mint = some existing ∧
      (existing.isComplete = false → row.isComplete = false)) :
    Indexed (given ++ [row]) index where
  kept mint r hr := by
    refine (h.kept mint r hr).snoc fun hmint => ?_
    obtain ⟨existing, hexisting, hworse⟩ := hrow mint hmint
    obtain rfl := Option.some.inj (hexisting.symm.trans hr)
    exact hworse
  every r hr mint hmint := by
    rcases List.mem_append.1 hr with hr | hr
    · exact h.every r hr mint hmint
    · obtain rfl := List.mem_singleton.1 hr
      obtain ⟨existing, hexisting, -⟩ := hrow mint hmint
      rw [hexisting]
      rfl

/-- A row takes the place of its mint when the mint has none, or no complete one and it is. -/
theorem Indexed.put (h : Indexed given index) (hmint : row.mint = .ok (some mint))
    (hbest : row.isComplete = false → ∀ r ∈ given, r.mint = .ok (some mint) →
      r.isComplete = false) :
    Indexed (given ++ [row]) (Function.update index mint (some row)) where
  kept other r hr := by
    by_cases hsame : other = mint
    · subst hsame
      rw [Function.update_self] at hr
      obtain rfl := Option.some.inj hr
      refine ⟨List.mem_append_right _ (List.mem_singleton_self _), hmint,
        fun hcomplete q hq hqmint => ?_⟩
      rcases List.mem_append.1 hq with hq | hq
      · exact hbest hcomplete q hq hqmint
      · rw [List.mem_singleton.1 hq]
        exact hcomplete
    · rw [Function.update_of_ne hsame] at hr
      refine (h.kept other r hr).snoc fun hother => ?_
      exact absurd (Option.some.inj (Except.ok.inj (hother.symm.trans hmint))) hsame
  every r hr other hother := by
    by_cases hsame : other = mint
    · subst hsame
      rw [Function.update_self]
      rfl
    · rw [Function.update_of_ne hsame]
      rcases List.mem_append.1 hr with hr | hr
      · exact h.every r hr other hother
      · rw [List.mem_singleton.1 hr] at hother
        exact absurd (Option.some.inj (Except.ok.inj (hother.symm.trans hmint))) hsame

/-- **One row more.** -/
theorem Indexed.indexRow (h : Indexed given index) (hrow : indexRow index row = .ok index') :
    Indexed (given ++ [row]) index' := by
  obtain ⟨found, hfound, hrow⟩ := ok_of_bind hrow
  cases found with
  | none =>
      cases hrow
      exact h.keep fun mint hmint => absurd (hfound.symm.trans hmint) (by simp)
  | some mint =>
      have hsame : ∀ other, row.mint = .ok (some other) → other = mint := fun other hother =>
        Option.some.inj (Except.ok.inj (hother.symm.trans hfound))
      cases hkept : index mint with
      | none =>
          simp only [hkept] at hrow
          cases hrow
          refine h.put hfound fun _ r hr hrmint => ?_
          have := h.every r hr mint hrmint
          rw [hkept] at this
          cases this
      | some existing =>
          simp only [hkept] at hrow
          split_ifs at hrow with hbetter
          · cases hrow
            refine h.put hfound fun hcomplete => ?_
            rw [hbetter.1] at hcomplete
            cases hcomplete
          · cases hrow
            refine h.keep fun other hother => ⟨existing, ?_, fun hcomplete => ?_⟩
            · rw [hsame other hother]
              exact hkept
            · exact Bool.eq_false_iff.2 fun hrow => hbetter ⟨hrow, hcomplete⟩

theorem Indexed.foldlM (h : Indexed given index) {rows : List SnapshotDict}
    (hrows : rows.foldlM AatsSniper.Ingestion.indexRow index = .ok index') :
    Indexed (given ++ rows) index' := by
  induction rows generalizing given index with
  | nil =>
      cases hrows
      rw [List.append_nil]
      exact h
  | cons row rows ih =>
      rw [List.foldlM_cons] at hrows
      obtain ⟨next, hnext, hrest⟩ := ok_of_bind hrows
      have := ih (h.indexRow hnext) hrest
      rwa [List.append_assoc] at this

theorem indexed_of_snapIndex {depthLimit : ℕ} {snapshotRows : List SnapshotDict}
    (h : snapIndex depthLimit snapshotRows = .ok index) :
    Indexed (snapshotRows.map (normalizeSnapshotRow depthLimit)) index :=
  indexed_empty.foldlM h

/-- What a row raises is that its mint cannot be a key. -/
theorem mint_error {e : PyError} (h : row.mint = .error e) : e = .typeError := by
  unfold SnapshotDict.mint at h
  split at h
  all_goals cases h
  all_goals rfl

theorem indexRow_ok (index : SnapIndex) (h : ∃ found, row.mint = .ok found) :
    ∃ next, indexRow index row = .ok next := by
  obtain ⟨found, hfound⟩ := h
  unfold indexRow
  rw [bind_of_ok hfound]
  cases found with
  | none => exact ⟨index, rfl⟩
  | some mint =>
      dsimp only
      cases index mint with
      | none => exact ⟨_, rfl⟩
      | some existing =>
          dsimp only
          split_ifs
          · exact ⟨_, rfl⟩
          · exact ⟨_, rfl⟩

/-- The loop raises at the first row whose mint cannot be a key, and nowhere else. -/
theorem foldlM_indexRow (rows : List SnapshotDict) (index : SnapIndex) :
    ((∀ row ∈ rows, ∃ found, row.mint = .ok found) ∧
      ∃ index', rows.foldlM AatsSniper.Ingestion.indexRow index = .ok index') ∨
    ((∃ row ∈ rows, ∀ found, row.mint ≠ .ok found) ∧
      rows.foldlM AatsSniper.Ingestion.indexRow index = .error .typeError) := by
  induction rows generalizing index with
  | nil => exact Or.inl ⟨by simp, index, rfl⟩
  | cons row rows ih =>
      rw [List.foldlM_cons]
      cases hmint : row.mint with
      | error e =>
          obtain rfl := mint_error hmint
          refine Or.inr ⟨⟨row, List.mem_cons_self, fun found => ?_⟩, ?_⟩
          · rw [hmint]
            exact fun h => by cases h
          · exact bind_of_error (bind_of_error hmint)
      | ok found =>
          obtain ⟨next, hnext⟩ := indexRow_ok index ⟨found, hmint⟩
          rw [bind_of_ok hnext]
          rcases ih next with ⟨hall, index', hindex'⟩ | ⟨⟨bad, hbad, hraises⟩, herror⟩
          · exact Or.inl ⟨List.forall_mem_cons.2 ⟨⟨found, hmint⟩, hall⟩, index', hindex'⟩
          · exact Or.inr ⟨⟨bad, List.mem_cons_of_mem row hbad, hraises⟩, herror⟩

end Index

/-! ### What the report says -/

/-- Two reports that may differ in the event counts and raw statuses of their rows only. -/
def SameVerdict (r r' : AuditReport) : Prop :=
  { r' with rows := r.rows } = r ∧
    r'.rows.map (fun row => (row.censusRecord, row.status)) =
      r.rows.map fun row => (row.censusRecord, row.status)

section Report

variable {a : CompletenessAuditor} {snapshotRows snapshotRows' : List SnapshotDict}
  {slotRangeStart slotRangeEnd nowMs : ℤ} {report : AuditReport} {index index' : SnapIndex}
  {given : List SnapshotDict} {cr : CensusRecord}

theorem reconcileRecord_censusRecord (cr : CensusRecord) (snap : Option SnapshotDict) :
    (reconcileRecord cr snap).censusRecord = cr := by
  unfold reconcileRecord
  split
  · split_ifs <;> rfl
  · rfl

theorem reconcileRecord_complete {snap : Option SnapshotDict} :
    (reconcileRecord cr snap).status = .complete ↔
      ∃ row, snap = some row ∧ row.isComplete = true := by
  cases snap with
  | none => simp [reconcileRecord]
  | some row =>
      unfold reconcileRecord
      dsimp only
      split_ifs with hcomplete
      · simp [hcomplete]
      · simp [hcomplete]
      · simp [hcomplete]

/-- A launch is complete exactly when some row of its mint says so. -/
theorem Indexed.complete_iff (h : Indexed given index) (cr : CensusRecord) :
    (reconcileRecord cr (index cr.mint)).status = .complete ↔
      ∃ row ∈ given, row.mint = .ok (some cr.mint) ∧ row.isComplete = true := by
  rw [reconcileRecord_complete]
  constructor
  · rintro ⟨row, hrow, hcomplete⟩
    obtain ⟨hmem, hmint, -⟩ := h.kept _ _ hrow
    exact ⟨row, hmem, hmint, hcomplete⟩
  · rintro ⟨row, hmem, hmint, hcomplete⟩
    obtain ⟨kept, hkept⟩ := Option.isSome_iff_exists.1 (h.every row hmem _ hmint)
    obtain ⟨-, -, hbest⟩ := h.kept _ _ hkept
    refine ⟨kept, hkept, Bool.eq_true_of_not_eq_false fun hincomplete => ?_⟩
    rw [hbest hincomplete row hmem hmint] at hcomplete
    cases hcomplete

/-- Two indices of the same rows give a launch the same status. -/
theorem Indexed.status_eq (h : Indexed given index) (h' : Indexed given index')
    (cr : CensusRecord) : (reconcileRecord cr (index' cr.mint)).status =
      (reconcileRecord cr (index cr.mint)).status := by
  have hiff := (h'.complete_iff cr).trans (h.complete_iff cr).symm
  cases hstatus : (reconcileRecord cr (index cr.mint)).status with
  | complete => exact hiff.2 hstatus
  | censored =>
      cases hstatus' : (reconcileRecord cr (index' cr.mint)).status with
      | complete => exact (hstatus.symm.trans (hiff.1 hstatus')).symm
      | censored => rfl

theorem Indexed.report_sameVerdict (h : Indexed given index) (h' : Indexed given index') :
    SameVerdict (a.report index slotRangeStart slotRangeEnd nowMs)
      (a.report index' slotRangeStart slotRangeEnd nowMs) := by
  have hcount : ∀ (status : CompletenessStatus) (records : List CensusRecord),
      (records.map fun cr => reconcileRecord cr (index' cr.mint)).countP
          (fun row => decide (row.status = status)) =
        (records.map fun cr => reconcileRecord cr (index cr.mint)).countP
          fun row => decide (row.status = status) := by
    intro status records
    rw [List.countP_map, List.countP_map]
    refine List.countP_congr fun cr _ => ?_
    rw [Function.comp_apply, Function.comp_apply, h.status_eq h' cr]
  constructor
  · simp only [CompletenessAuditor.report, hcount]
  · simp only [CompletenessAuditor.report, List.map_map]
    refine List.map_congr_left fun cr _ => ?_
    simp only [Function.comp_apply, reconcileRecord_censusRecord, h.status_eq h' cr]

/-- Every census record has its row, complete or censored. -/
theorem report_counts (a : CompletenessAuditor) (index : SnapIndex)
    (slotRangeStart slotRangeEnd nowMs : ℤ) :
    (a.report index slotRangeStart slotRangeEnd nowMs).recordedComplete +
      (a.report index slotRangeStart slotRangeEnd nowMs).censoredCount =
        (a.poolCreatesInSlotRange slotRangeStart slotRangeEnd).length := by
  have hsplit := List.length_eq_countP_add_countP
    (fun row : CompletenessRow => decide (row.status = .complete))
    (l := (a.report index slotRangeStart slotRangeEnd nowMs).rows)
  have hother : (fun row : CompletenessRow => decide ¬ decide (row.status = .complete) = true) =
      fun row => decide (row.status = .censored) := by
    funext row
    cases row.status with
    | complete => rfl
    | censored => rfl
  rw [hother] at hsplit
  have hlength : (a.report index slotRangeStart slotRangeEnd nowMs).rows.length =
      (a.poolCreatesInSlotRange slotRangeStart slotRangeEnd).length := List.length_map ..
  rw [← hlength, hsplit]
  rfl

theorem ok_of_reconcile
    (h : a.reconcile snapshotRows slotRangeStart slotRangeEnd nowMs = .ok report) :
    ∃ index, Indexed (snapshotRows.map (normalizeSnapshotRow a.depthLimit)) index ∧
      report = a.report index slotRangeStart slotRangeEnd nowMs := by
  obtain ⟨index, hindex, hreport⟩ := ok_of_bind h
  exact ⟨index, indexed_of_snapIndex hindex, (Except.ok.inj hreport).symm⟩

/-- The rows that the index may keep for a launch of the census give it the same row. -/
def Settled (a : CompletenessAuditor) (snapshotRows : List SnapshotDict)
    (slotRangeStart slotRangeEnd : ℤ) : Prop :=
  ∀ cr ∈ a.poolCreatesInSlotRange slotRangeStart slotRangeEnd, ∀ row row',
    Keepable (snapshotRows.map (normalizeSnapshotRow a.depthLimit)) cr.mint row →
    Keepable (snapshotRows.map (normalizeSnapshotRow a.depthLimit)) cr.mint row' →
    reconcileRecord cr (some row) = reconcileRecord cr (some row')

/-- Then it does not matter which of them is kept. -/
theorem Settled.report_eq (hsettled : Settled a snapshotRows slotRangeStart slotRangeEnd)
    (h : Indexed (snapshotRows.map (normalizeSnapshotRow a.depthLimit)) index)
    (h' : Indexed (snapshotRows.map (normalizeSnapshotRow a.depthLimit)) index') :
    a.report index' slotRangeStart slotRangeEnd nowMs =
      a.report index slotRangeStart slotRangeEnd nowMs := by
  have hrow : ∀ cr ∈ a.poolCreatesInSlotRange slotRangeStart slotRangeEnd,
      reconcileRecord cr (index' cr.mint) = reconcileRecord cr (index cr.mint) := by
    intro cr hcr
    cases hkept : index cr.mint with
    | none =>
        cases hkept' : index' cr.mint with
        | none => rfl
        | some row' =>
            obtain ⟨hmem, hmint, -⟩ := h'.kept _ _ hkept'
            have := h.every row' hmem _ hmint
            rw [hkept] at this
            cases this
    | some row =>
        have hkeep := h.kept _ _ hkept
        obtain ⟨row', hkept'⟩ := Option.isSome_iff_exists.1 (h'.every row hkeep.1 _ hkeep.2.1)
        rw [hkept']
        exact hsettled cr hcr row' row (h'.kept _ _ hkept') hkeep
  have hrows := List.map_congr_left hrow
  simp only [CompletenessAuditor.report, hrows]

/-- Rows that are the same up to order and number raise the same and have the same verdict. -/
theorem reconcile_congr (hmem : ∀ r, r ∈ snapshotRows ↔ r ∈ snapshotRows') :
    (∀ e, a.reconcile snapshotRows slotRangeStart slotRangeEnd nowMs = .error e →
      a.reconcile snapshotRows' slotRangeStart slotRangeEnd nowMs = .error e) ∧
    ∀ report, a.reconcile snapshotRows slotRangeStart slotRangeEnd nowMs = .ok report →
      ∃ report', a.reconcile snapshotRows' slotRangeStart slotRangeEnd nowMs = .ok report' ∧
        SameVerdict report report' ∧
        (Settled a snapshotRows slotRangeStart slotRangeEnd → report' = report) := by
  have hmem' : ∀ r, r ∈ snapshotRows.map (normalizeSnapshotRow a.depthLimit) ↔
      r ∈ snapshotRows'.map (normalizeSnapshotRow a.depthLimit) := by
    intro r
    simp only [List.mem_map, hmem]
  have hrun := foldlM_indexRow (snapshotRows.map (normalizeSnapshotRow a.depthLimit)) fun _ => none
  have hrun' := foldlM_indexRow (snapshotRows'.map (normalizeSnapshotRow a.depthLimit))
    fun _ => none
  constructor
  · intro e he
    rcases hrun with ⟨-, index, hindex⟩ | ⟨⟨bad, hbad, hraises⟩, herror⟩
    · rw [CompletenessAuditor.reconcile, snapIndex, bind_of_ok hindex] at he
      cases he
    · rcases hrun' with ⟨hall, -⟩ | ⟨-, herror'⟩
      · obtain ⟨found, hfound⟩ := hall bad ((hmem' bad).1 hbad)
        exact absurd hfound (hraises found)
      · rw [CompletenessAuditor.reconcile, snapIndex, bind_of_error herror] at he
        rw [CompletenessAuditor.reconcile, snapIndex, bind_of_error herror']
        exact he
  · intro report hreport
    obtain ⟨index, hindexed, rfl⟩ := ok_of_reconcile hreport
    rcases hrun' with ⟨-, index', hindex'⟩ | ⟨⟨bad, hbad, hraises⟩, -⟩
    · have hindexed' := (indexed_of_snapIndex hindex').congr fun r => (hmem' r).symm
      refine ⟨_, bind_of_ok hindex', hindexed.report_sameVerdict hindexed', fun hsettled => ?_⟩
      exact hsettled.report_eq hindexed hindexed'
    · rcases hrun with ⟨hall, -⟩ | ⟨-, herror⟩
      · obtain ⟨found, hfound⟩ := hall bad ((hmem' bad).2 hbad)
        exact absurd hfound (hraises found)
      · rw [CompletenessAuditor.reconcile, snapIndex, bind_of_error herror] at hreport
        cases hreport

/-- **The audit counts every launch of the census.**  A census without repeated mints has one row
per launch, in its order, and a row is complete exactly where some snapshot row of its mint is; a
census of no launch has both miss rates zero and passes under every maximum that is not negative.
The snapshot rows in another order or number come to the same verdict, and to the same report where
the preferred rows of a mint agree. -/
theorem reconcile_audits (a : CompletenessAuditor) (snapshotRows : List SnapshotDict)
    (slotRangeStart slotRangeEnd nowMs : ℤ) :
    (∀ report, a.reconcile snapshotRows slotRangeStart slotRangeEnd nowMs = .ok report →
      (((a.poolCreatesInSlotRange slotRangeStart slotRangeEnd).map CensusRecord.mint).Nodup →
        report.rows.map CompletenessRow.censusRecord =
          a.poolCreatesInSlotRange slotRangeStart slotRangeEnd ∧
        report.recordedComplete + report.censoredCount =
          ((a.poolCreatesInSlotRange slotRangeStart slotRangeEnd).map
            CensusRecord.mint).toFinset.card) ∧
      (∀ row ∈ report.rows, row.status = .complete ↔
        ∃ snap ∈ snapshotRows.map (normalizeSnapshotRow a.depthLimit),
          snap.mint = .ok (some row.censusRecord.mint) ∧ snap.isComplete = true) ∧
      (a.poolCreatesInSlotRange slotRangeStart slotRangeEnd = [] →
        report.missRatePoint = 0 ∧ report.missRateUpperBound = 0 ∧
          (report.gatePasses ↔ 0 ≤ a.declaredMaxMissRate))) ∧
    ∀ snapshotRows', (∀ r, r ∈ snapshotRows ↔ r ∈ snapshotRows') →
      (∀ e, a.reconcile snapshotRows slotRangeStart slotRangeEnd nowMs = .error e →
        a.reconcile snapshotRows' slotRangeStart slotRangeEnd nowMs = .error e) ∧
      ∀ report, a.reconcile snapshotRows slotRangeStart slotRangeEnd nowMs = .ok report →
        ∃ report', a.reconcile snapshotRows' slotRangeStart slotRangeEnd nowMs = .ok report' ∧
          SameVerdict report report' ∧
          (Settled a snapshotRows slotRangeStart slotRangeEnd → report' = report) := by
  refine ⟨fun report hreport => ?_, fun snapshotRows' hmem => reconcile_congr hmem⟩
  obtain ⟨index, hindexed, rfl⟩ := ok_of_reconcile hreport
  refine ⟨fun hdistinct => ⟨?_, ?_⟩, fun row hrow => ?_, fun hempty => ?_⟩
  · simp only [CompletenessAuditor.report, List.map_map]
    refine (List.map_congr_left fun cr _ => ?_).trans (List.map_id _)
    exact reconcileRecord_censusRecord cr _
  · rw [report_counts, List.toFinset_card_of_nodup hdistinct, List.length_map]
  · obtain ⟨cr, -, rfl⟩ := List.mem_map.1 hrow
    rw [reconcileRecord_censusRecord]
    exact hindexed.complete_iff cr
  · have hzero : (a.poolCreatesInSlotRange slotRangeStart slotRangeEnd).length = 0 := by
      rw [hempty, List.length_nil]
    refine ⟨if_pos hzero, if_pos hzero, ?_⟩
    simp only [CompletenessAuditor.report, if_pos hzero]

end Report

section Samples

/-- An auditor of a given census. -/
def auditorOf (census : List CensusRecord) (declaredMaxMissRate : ℝ) : CompletenessAuditor :=
  ⟨fun _ _ => census, declaredMaxMissRate, 0.95, 1000⟩

/-- A complete snapshot row. -/
def completeRow (mint : String) (eventCount : ℤ) : SnapshotDict :=
  [(codePoints "mint", .str (codePoints mint)),
    (codePoints "completeness_status", .str (codePoints "complete")),
    (codePoints "event_count", .int eventCount)]

/-- A census of two launches. -/
def twoLaunches : List CensusRecord :=
  [⟨codePoints "A", 1, 1, "census"⟩, ⟨codePoints "B", 2, 1, "census"⟩]

/-- One of the two is recorded, in two rows whose order does not matter; and the audit of a census
of no launch. -/
theorem reconcile_audits_sample :
    (∃ report,
      (auditorOf twoLaunches 1).reconcile [completeRow "A" 3, completeRow "A" 3] 0 9 0 =
        .ok report ∧
      report.recordedComplete + report.censoredCount = 2 ∧
      ∃ report', (auditorOf twoLaunches 1).reconcile [completeRow "A" 3] 0 9 0 = .ok report' ∧
        SameVerdict report report') ∧
    ∃ report, (auditorOf [] 0.05).reconcile [completeRow "A" 3] 0 9 0 = .ok report ∧
      report.missRatePoint = 0 ∧ report.missRateUpperBound = 0 ∧ report.gatePasses := by
  constructor
  · have haudit := reconcile_audits (auditorOf twoLaunches 1)
      [completeRow "A" 3, completeRow "A" 3] 0 9 0
    have hcounts := ((haudit.1 _ rfl).1 (by decide)).2
    obtain ⟨report', hreport', hsame, -⟩ := (haudit.2 [completeRow "A" 3] (by simp)).2 _ rfl
    exact ⟨_, rfl, hcounts, report', hreport', hsame⟩
  · have haudit := reconcile_audits (auditorOf [] 0.05) [completeRow "A" 3] 0 9 0
    obtain ⟨hpoint, hupper, hgate⟩ := (haudit.1 _ rfl).2.2 rfl
    refine ⟨_, rfl, hpoint, hupper, hgate.2 ?_⟩
    show (0 : ℝ) ≤ 0.05
    norm_num

/-- An empty census passes, a launch that the census names twice has two rows, and the event count
of a launch with two complete rows is that of the first. -/
theorem reconcile_not_as_claimed :
    (∃ report, (auditorOf [] 0.05).reconcile [] 0 9 0 = .ok report ∧ report.censusTotal = 0 ∧
      report.gatePasses) ∧
    (∃ report, (auditorOf [⟨codePoints "A", 1, 1, "census"⟩, ⟨codePoints "A", 2, 1, "census"⟩]
        0.05).reconcile [completeRow "A" 3] 0 9 0 = .ok report ∧
      report.recordedComplete + report.censoredCount = 2) ∧
    (auditorOf [⟨codePoints "A", 1, 1, "census"⟩] 0.05).reconcile
        [completeRow "A" 3, completeRow "A" 4] 0 9 0 ≠
      (auditorOf [⟨codePoints "A", 1, 1, "census"⟩] 0.05).reconcile
        [completeRow "A" 4, completeRow "A" 3] 0 9 0 := by
  refine ⟨⟨_, rfl, rfl, ?_⟩, ⟨_, rfl, rfl⟩, fun h => ?_⟩
  · show (0 : ℝ) ≤ 0.05
    norm_num
  · have hcounts := congrArg (Except.map fun r => r.rows.map CompletenessRow.snapshotEventCount) h
    have hsame : (Except.ok [Json.int 3] : Except PyError (List Json)) = .ok [Json.int 4] := hcounts
    exact absurd (Json.int.inj (List.cons.inj (Except.ok.inj hsame)).1) (by decide)

end Samples

end Ingestion
end AatsSniper

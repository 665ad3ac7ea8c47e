/-
# Joining labels to features

`join_labels_by_event_time` and `assert_event_time_leq_decision` of
`aats/models/training.py`, and `join_regime_labels_by_event_time` of
`aats/models/regime_labels.py`.

Features and labels meet on slot and block time, and many launches share a slot: a
feature row gets the last label of its slot and block time, whichever coin's it is.
So the labels stay with their coins, and the joined list does not depend on the order
of the rows, exactly where rows of one event time carry the same label
(`join_keeps_coins_iff`).  The leak audit compares times only and passes either way
(`audit_passes_join`).

A feature row is opaque to the joins, so it is a type variable here; a row tagged with
its mint is a pair.
-/

import AatsSniper.Lib.Except
import AatsSniper.Lib.LastJoin

namespace AatsSniper
namespace Models

/-- `EventTime`. -/
structure EventTime where
  slot : ℕ
  blockTimeMs : ℕ
  wallClockMs : ℕ
  blockTimeMs_pos : 0 < blockTimeMs
  deriving DecidableEq

/-- `event_time_key(et)`. -/
def eventTimeKey (et : EventTime) : ℕ × ℕ := (et.slot, et.blockTimeMs)

/-- `JoinedExample`. -/
structure JoinedExample (ρ : Type) where
  featureRow : ρ
  label : ℤ
  featureEventTime : EventTime
  decisionEventTime : EventTime
  resolutionEventTime : EventTime
  deriving DecidableEq

/-! ### The classifier's labels -/

/-- `FeatureFrame`: its mint, its anchor, and what the features are computed from. -/
structure FeatureFrame (φ : Type) where
  mint : String
  eventTime : EventTime
  fields : φ
  deriving DecidableEq

/-- `SyntheticRow`. -/
structure SyntheticRow (φ : Type) where
  frame : FeatureFrame φ
  label : ℤ
  resolutionEventTime : EventTime
  deriving DecidableEq

/-- What the label index holds: label, decision and resolution time. -/
structure LabelEntry where
  label : ℤ
  decisionEventTime : EventTime
  resolutionEventTime : EventTime
  deriving DecidableEq

variable {φ ρ : Type}

/-- The entry of a row. -/
def SyntheticRow.entry (r : SyntheticRow φ) : LabelEntry :=
  ⟨r.label, r.frame.eventTime, r.resolutionEventTime⟩

/-- The key of an entry. -/
def LabelEntry.key (e : LabelEntry) : ℕ × ℕ := eventTimeKey e.decisionEventTime

/-- The key of a row. -/
def SyntheticRow.key (r : SyntheticRow φ) : ℕ × ℕ := eventTimeKey r.frame.eventTime

/-- The example a feature row and an entry make. -/
def LabelEntry.example (featureEventTime : EventTime) (featureRow : ρ) (e : LabelEntry) :
    JoinedExample ρ where
  featureRow := featureRow
  label := e.label
  featureEventTime := featureEventTime
  decisionEventTime := e.decisionEventTime
  resolutionEventTime := e.resolutionEventTime

/-- `join_labels_by_event_time(rows)`. -/
def joinLabelsByEventTime (frameToFeatureRow : FeatureFrame φ → ρ) (rows : List (SyntheticRow φ)) :
    List (JoinedExample ρ) :=
  let labelIndex := LastJoin.index LabelEntry.key (rows.map SyntheticRow.entry)
  rows.filterMap fun r =>
    (labelIndex.get? r.key).map (LabelEntry.example r.frame.eventTime (frameToFeatureRow r.frame))

/-! ### The leak audit -/

/-- One iteration of the audit. -/
def auditExample (i : ℕ) (ex : JoinedExample ρ) : Except String Unit := do
  let f := ex.featureEventTime
  let d := ex.decisionEventTime
  let r := ex.resolutionEventTime
  require (¬ (d.slot < f.slot ∨ d.blockTimeMs < f.blockTimeMs))
    s!"row {i}: feature event-time (slot={f.slot}, bt={f.blockTimeMs}) is AFTER the label decision-time (slot={d.slot}, bt={d.blockTimeMs}). Forward-looking leak."
  require (¬ (r.slot ≤ d.slot ∨ r.blockTimeMs ≤ d.blockTimeMs))
    s!"row {i}: label resolution-time (slot={r.slot}, bt={r.blockTimeMs}) is NOT strictly after the decision-time (slot={d.slot}, bt={d.blockTimeMs}). The label did not look forward — its horizon proof is missing."

/-- `assert_event_time_leq_decision(examples)`. -/
def assertEventTimeLeqDecision (examples : List (JoinedExample ρ)) : Except String String := do
  require (examples ≠ []) "leak audit: zero examples to audit (empty join)"
  examples.zipIdx.forM fun p => auditExample p.2 p.1
  return s!"LEAK AUDIT PASS: {examples.length} rows. For every row: feature_event_time <= decision_event_time (equal by event-time join), AND label resolution_event_time strictly > decision_event_time (label horizon proof present). No feature reads post-decision data; the label is the only forward-looking quantity and it lives in a separate dataset joined by event_time only."

/-! ### The regime labels -/

/-- `RegimeLabel`. -/
inductive RegimeLabel
  | accumulation
  | distribution
  | rugInProgress
  | neutral
  deriving DecidableEq

/-- `REGIME_LABEL_CODES`. -/
def regimeLabelCodes : RegimeLabel → ℤ
  | .accumulation => 0
  | .neutral => 1
  | .distribution => 2
  | .rugInProgress => 3

/-- `RegimeOutcome`, with what `__post_init__` has checked. -/
structure RegimeOutcome where
  mint : String
  eventTime : EventTime
  labelHorizonHSlots : ℕ
  resolutionEventTime : EventTime
  label : RegimeLabel
  remainedSellable : Bool
  firstUnsellableSlot : Option ℕ
  horizon_pos : 0 < labelHorizonHSlots
  resolution_slot : resolutionEventTime.slot = eventTime.slot + labelHorizonHSlots
  resolution_blockTime : eventTime.blockTimeMs < resolutionEventTime.blockTimeMs
  unsellable_iff : remainedSellable = true ↔ firstUnsellableSlot = none
  deriving DecidableEq

/-- The key of an outcome. -/
def RegimeOutcome.key (o : RegimeOutcome) : ℕ × ℕ := eventTimeKey o.eventTime

/-- `regime_label_to_joined_example(feature_row, feature_event_time, outcome)`. -/
def regimeLabelToJoinedExample (featureRow : ρ) (featureEventTime : EventTime)
    (outcome : RegimeOutcome) : Except String (JoinedExample ρ) := do
  require (eventTimeKey featureEventTime = outcome.key)
    s!"regime label join key mismatch: feature event_time {eventTimeKey featureEventTime} != label decision anchor {outcome.key}. Labels join to features by event_time ONLY."
  return { featureRow := featureRow
           label := regimeLabelCodes outcome.label
           featureEventTime := featureEventTime
           decisionEventTime := outcome.eventTime
           resolutionEventTime := outcome.resolutionEventTime }

/-- The loop of `join_regime_labels_by_event_time`. -/
def joinRegimeLabelsLoop (labelIndex : Table RegimeOutcome.key) :
    List (EventTime × ρ) → Except String (List (JoinedExample ρ))
  | [] => .ok []
  | (featEt, row) :: featureRows =>
      match labelIndex.get? (eventTimeKey featEt) with
      | none => joinRegimeLabelsLoop labelIndex featureRows
      | some outcome => do
          let ex ← regimeLabelToJoinedExample row featEt outcome
          let joined ← joinRegimeLabelsLoop labelIndex featureRows
          return ex :: joined

/-- `join_regime_labels_by_event_time(feature_rows, outcomes)`. -/
def joinRegimeLabelsByEventTime (featureRows : List (EventTime × ρ))
    (outcomes : List RegimeOutcome) : Except String (List (JoinedExample ρ)) :=
  joinRegimeLabelsLoop (LastJoin.index RegimeOutcome.key outcomes) featureRows

/-! ### Both are joins to the last entry -/

/-- What a regime outcome is joined as. -/
def RegimeOutcome.entry (o : RegimeOutcome) : LabelEntry :=
  ⟨regimeLabelCodes o.label, o.eventTime, o.resolutionEventTime⟩

/-- The key of a feature row. -/
def featureKey (p : EventTime × ρ) : ℕ × ℕ := eventTimeKey p.1

theorem joinRegimeLabelsByEventTime_eq (featureRows : List (EventTime × ρ))
    (outcomes : List RegimeOutcome) :
    joinRegimeLabelsByEventTime featureRows outcomes =
      .ok ((LastJoin.join featureKey RegimeOutcome.key featureRows outcomes).map fun p =>
        p.2.entry.example p.1.1 p.1.2) := by
  unfold joinRegimeLabelsByEventTime LastJoin.join
  induction featureRows with
  | nil => rfl
  | cons p featureRows ih =>
      obtain ⟨featEt, row⟩ := p
      unfold joinRegimeLabelsLoop
      cases hget : (LastJoin.index RegimeOutcome.key outcomes).get? (eventTimeKey featEt) with
      | none =>
          simp only [List.filterMap_cons, featureKey, hget, Option.map_none]
          exact ih
      | some outcome =>
          have hkey := (LastJoin.mem_of_get?_index hget).2
          simp only [List.filterMap_cons, featureKey, hget, Option.map_some]
          have hadapt : regimeLabelToJoinedExample row featEt outcome =
              .ok (outcome.entry.example featEt row) := require_bind hkey.symm
          refine (bind_of_ok hadapt).trans ?_
          exact bind_of_ok ih

theorem joinLabelsByEventTime_eq (frameToFeatureRow : FeatureFrame φ → ρ)
    (rows : List (SyntheticRow φ)) :
    joinLabelsByEventTime frameToFeatureRow rows =
      (LastJoin.join SyntheticRow.key LabelEntry.key rows (rows.map SyntheticRow.entry)).map fun p =>
        p.2.example p.1.frame.eventTime (frameToFeatureRow p.1.frame) := by
  simp [joinLabelsByEventTime, LastJoin.join, List.map_filterMap, Function.comp_def]

/-- An example shows the key of its row and the entry it was made with. -/
theorem LabelEntry.example_inj {et et' : EventTime} {row row' : ρ} {e e' : LabelEntry}
    (h : e.example et row = e'.example et' row') : et = et' ∧ e = e' := by
  obtain ⟨label, decision, resolution⟩ := e
  obtain ⟨label', decision', resolution'⟩ := e'
  simp only [LabelEntry.example, JoinedExample.mk.injEq] at h
  obtain ⟨-, rfl, rfl, rfl, rfl⟩ := h
  exact ⟨rfl, rfl⟩

/-! ### Labels and coins -/

/-- The feature row, tagged with its mint. -/
def tagged (frameToFeatureRow : FeatureFrame φ → ρ) (frame : FeatureFrame φ) : String × ρ :=
  (frame.mint, frameToFeatureRow frame)

/-- Every example has a label and a resolution time of its mint. -/
def LabelsMatch (frameToFeatureRow : FeatureFrame φ → ρ) (rows : List (SyntheticRow φ)) : Prop :=
  ∀ ex ∈ joinLabelsByEventTime (tagged frameToFeatureRow) rows, ∃ r ∈ rows,
    r.frame.mint = ex.featureRow.1 ∧ r.label = ex.label ∧
      r.resolutionEventTime = ex.resolutionEventTime

/-- The order of the rows does not matter. -/
def LabelsUnordered (frameToFeatureRow : FeatureFrame φ → ρ) (rows : List (SyntheticRow φ)) : Prop :=
  ∀ rows' : List (SyntheticRow φ), rows'.Perm rows →
    (joinLabelsByEventTime frameToFeatureRow rows').Perm (joinLabelsByEventTime frameToFeatureRow rows)

/-- Rows of one slot and block time have the same label, event time and resolution time. -/
def AnchorsAgree (rows : List (SyntheticRow φ)) : Prop :=
  ∀ r ∈ rows, ∀ r' ∈ rows, r.key = r'.key → r.label = r'.label ∧
    r.frame.eventTime = r'.frame.eventTime ∧ r.resolutionEventTime = r'.resolutionEventTime

section Labels

variable {frameToFeatureRow : FeatureFrame φ → ρ} {rows : List (SyntheticRow φ)}

/-- The tags are for the statement: the join carries them along. -/
theorem joinLabels_tagged : (joinLabelsByEventTime (tagged frameToFeatureRow) rows).map
      (fun ex => { ex with featureRow := ex.featureRow.2 }) =
    joinLabelsByEventTime frameToFeatureRow rows := by
  simp only [joinLabelsByEventTime, List.map_filterMap, Option.map_map]
  rfl

theorem AnchorsAgree.entry_eq (h : AnchorsAgree rows) {r r' : SyntheticRow φ} (hr : r ∈ rows)
    (hr' : r' ∈ rows) (hkey : r.key = r'.key) : r.entry = r'.entry := by
  obtain ⟨hlabel, hanchor, hresolution⟩ := h r hr r' hr' hkey
  rw [SyntheticRow.entry, SyntheticRow.entry, hlabel, hanchor, hresolution]

theorem AnchorsAgree.labelsUnordered (h : AnchorsAgree rows) :
    LabelsUnordered frameToFeatureRow rows := by
  intro rows' hperm
  have hagree : LastJoin.Agree SyntheticRow.key LabelEntry.key (fun e => e) rows
      (rows.map SyntheticRow.entry) := by
    intro r hr e he e' he' hkey hkey'
    obtain ⟨s, hs, rfl⟩ := List.mem_map.1 he
    obtain ⟨s', hs', rfl⟩ := List.mem_map.1 he'
    exact h.entry_eq hs hs' (hkey.trans hkey'.symm)
  rw [joinLabelsByEventTime_eq, joinLabelsByEventTime_eq]
  exact hagree.view_join_perm hperm (hperm.map _) fun r e =>
    e.example r.frame.eventTime (frameToFeatureRow r.frame)

/-- For rows of distinct coins, the labels stay with their coins iff rows of one slot and block time
have the same label and resolution time. -/
theorem labelsMatch_iff (hmints : (rows.map fun r => r.frame.mint).Nodup) :
    LabelsMatch frameToFeatureRow rows ↔ ∀ r ∈ rows, ∀ r' ∈ rows, r.key = r'.key →
      r.label = r'.label ∧ r.resolutionEventTime = r'.resolutionEventTime := by
  constructor
  · intro h r hr r' hr' hkey
    obtain ⟨e, he⟩ : ∃ e, (LastJoin.index LabelEntry.key (rows.map SyntheticRow.entry)).get? r.key =
        some e := LastJoin.exists_get?_index (List.mem_map_of_mem hr)
    have hown : ∀ s ∈ rows, s.key = r.key →
        s.label = e.label ∧ s.resolutionEventTime = e.resolutionEventTime := by
      intro s hs hskey
      have hjoin := LastJoin.mem_join.2 ⟨hs, (congrArg _ hskey).trans he⟩
      obtain ⟨t, ht, hmint, hlabel, hresolution⟩ :=
        h _ (joinLabelsByEventTime_eq _ rows ▸ List.mem_map_of_mem hjoin)
      obtain rfl := List.inj_on_of_nodup_map hmints ht hs hmint
      exact ⟨hlabel, hresolution⟩
    obtain ⟨hlabel, hresolution⟩ := hown r hr rfl
    obtain ⟨hlabel', hresolution'⟩ := hown r' hr' hkey.symm
    exact ⟨hlabel.trans hlabel'.symm, hresolution.trans hresolution'.symm⟩
  · intro h ex hex
    rw [joinLabelsByEventTime_eq] at hex
    obtain ⟨⟨r, e⟩, hjoin, rfl⟩ := List.mem_map.1 hex
    obtain ⟨hr, hget⟩ := LastJoin.mem_join.1 hjoin
    obtain ⟨he, hkey⟩ := LastJoin.mem_of_get?_index hget
    obtain ⟨r', hr', rfl⟩ := List.mem_map.1 he
    obtain ⟨hlabel, hresolution⟩ := h r hr r' hr' hkey.symm
    exact ⟨r, hr, rfl, hlabel, hresolution⟩

/-- Two rows that differ can each be put last. -/
theorem LabelsUnordered.anchorsAgree (h : LabelsUnordered frameToFeatureRow rows) :
    AnchorsAgree rows := by
  intro r hr r' hr' hkey
  obtain ⟨pre, hpre⟩ := LastJoin.exists_perm_concat hr
  obtain ⟨pre', hpre'⟩ := LastJoin.exists_perm_concat hr'
  have hsubset := ((h _ hpre).trans (h _ hpre').symm).subset
  rw [joinLabelsByEventTime_eq, joinLabelsByEventTime_eq, List.map_append, List.map_append,
    List.map_singleton, List.map_singleton] at hsubset
  have hentry : r.entry = r'.entry :=
    LastJoin.view_eq_of_join_subset (fun e => e)
      (fun r e => e.example r.frame.eventTime (frameToFeatureRow r.frame))
      (fun heq => (LabelEntry.example_inj heq).imp_left (congrArg eventTimeKey))
      (hpre.mem_iff.2 hr) rfl hkey.symm hsubset
  exact ⟨congrArg LabelEntry.label hentry, congrArg LabelEntry.decisionEventTime hentry,
    congrArg LabelEntry.resolutionEventTime hentry⟩

end Labels

/-! ### Regime labels and coins -/

/-- Every example has a label and a resolution time of its mint. -/
def RegimeLabelsMatch (featureRows : List (EventTime × String × ρ)) (outcomes : List RegimeOutcome) :
    Prop :=
  ∃ joined, joinRegimeLabelsByEventTime featureRows outcomes = .ok joined ∧ ∀ ex ∈ joined,
    ∃ o ∈ outcomes, o.mint = ex.featureRow.1 ∧ regimeLabelCodes o.label = ex.label ∧
      o.resolutionEventTime = ex.resolutionEventTime

/-- The order of the rows and of the outcomes does not matter. -/
def RegimeLabelsUnordered (featureRows : List (EventTime × ρ)) (outcomes : List RegimeOutcome) :
    Prop :=
  ∀ featureRows' outcomes', featureRows'.Perm featureRows → outcomes'.Perm outcomes →
    ∃ joined joined', joinRegimeLabelsByEventTime featureRows outcomes = .ok joined ∧
      joinRegimeLabelsByEventTime featureRows' outcomes' = .ok joined' ∧ joined'.Perm joined

/-- An outcome of the slot and block time of a feature row has the label and the resolution time of
an outcome of the row's mint, and the outcomes of that slot and block time have the same label,
event time and resolution time. -/
def OutcomesAgree (featureRows : List (EventTime × String × ρ)) (outcomes : List RegimeOutcome) :
    Prop :=
  ∀ p ∈ featureRows, ∀ o ∈ outcomes, o.key = featureKey p →
    (∃ own ∈ outcomes, own.mint = p.2.1 ∧ own.label = o.label ∧
      own.resolutionEventTime = o.resolutionEventTime) ∧
    ∀ o' ∈ outcomes, o'.key = featureKey p → o'.label = o.label ∧ o'.eventTime = o.eventTime ∧
      o'.resolutionEventTime = o.resolutionEventTime

theorem regimeLabelCodes_injective : Function.Injective regimeLabelCodes := by
  intro a b h
  cases a <;> cases b <;> first | rfl | cases h

section RegimeLabels

variable {featureRows : List (EventTime × String × ρ)} {outcomes : List RegimeOutcome}

theorem OutcomesAgree.regimeLabelsMatch (h : OutcomesAgree featureRows outcomes) :
    RegimeLabelsMatch featureRows outcomes := by
  refine ⟨_, joinRegimeLabelsByEventTime_eq featureRows outcomes, fun ex hex => ?_⟩
  obtain ⟨⟨p, o⟩, hjoin, rfl⟩ := List.mem_map.1 hex
  obtain ⟨hp, hget⟩ := LastJoin.mem_join.1 hjoin
  obtain ⟨ho, hkey⟩ := LastJoin.mem_of_get?_index hget
  obtain ⟨own, hown, hmint, hlabel, hresolution⟩ := (h p hp o ho hkey).1
  exact ⟨own, hown, hmint, congrArg regimeLabelCodes hlabel, hresolution⟩

theorem OutcomesAgree.regimeLabelsUnordered (h : OutcomesAgree featureRows outcomes) :
    RegimeLabelsUnordered featureRows outcomes := by
  intro featureRows' outcomes' hrows houtcomes
  refine ⟨_, _, joinRegimeLabelsByEventTime_eq _ _, joinRegimeLabelsByEventTime_eq _ _, ?_⟩
  have hagree : LastJoin.Agree featureKey RegimeOutcome.key RegimeOutcome.entry featureRows
      outcomes := by
    intro p hp o ho o' ho' hkey hkey'
    obtain ⟨hlabel, hanchor, hresolution⟩ := (h p hp o' ho' hkey').2 o ho hkey
    rw [RegimeOutcome.entry, RegimeOutcome.entry, hlabel, hanchor, hresolution]
  exact hagree.view_join_perm hrows houtcomes fun p e => e.example p.1 p.2

/-- Two outcomes that differ can each be put last. -/
theorem RegimeLabelsUnordered.entry_eq (h : RegimeLabelsUnordered featureRows outcomes)
    {p : EventTime × String × ρ} (hp : p ∈ featureRows) {o o' : RegimeOutcome} (ho : o ∈ outcomes)
    (ho' : o' ∈ outcomes) (hkey : o.key = featureKey p) (hkey' : o'.key = featureKey p) :
    o.entry = o'.entry := by
  obtain ⟨pre, hpre⟩ := LastJoin.exists_perm_concat ho
  obtain ⟨pre', hpre'⟩ := LastJoin.exists_perm_concat ho'
  obtain ⟨joined, examples, hjoined, hexamples, hperm⟩ := h _ _ (List.Perm.refl _) hpre
  obtain ⟨joined', examples', hjoined', hexamples', hperm'⟩ := h _ _ (List.Perm.refl _) hpre'
  obtain rfl := Except.ok.inj (hjoined.symm.trans hjoined')
  have hsubset := (hperm.trans hperm'.symm).subset
  rw [joinRegimeLabelsByEventTime_eq] at hexamples hexamples'
  obtain rfl := Except.ok.inj hexamples
  obtain rfl := Except.ok.inj hexamples'
  exact LastJoin.view_eq_of_join_subset RegimeOutcome.entry (fun p e => e.example p.1 p.2)
    (fun heq => (LabelEntry.example_inj heq).imp_left (congrArg eventTimeKey)) hp hkey hkey' hsubset

theorem outcomesAgree_of (hmatch : RegimeLabelsMatch featureRows outcomes)
    (hunordered : RegimeLabelsUnordered featureRows outcomes) :
    OutcomesAgree featureRows outcomes := by
  intro p hp o ho hkey
  have hentry : ∀ o' ∈ outcomes, o'.key = featureKey p → o'.entry = o.entry :=
    fun o' ho' hkey' => hunordered.entry_eq hp ho' ho hkey' hkey
  constructor
  · obtain ⟨joined, hjoined, hmatch⟩ := hmatch
    rw [joinRegimeLabelsByEventTime_eq] at hjoined
    obtain rfl := Except.ok.inj hjoined
    obtain ⟨last, hlast⟩ : ∃ last, (LastJoin.index RegimeOutcome.key outcomes).get? o.key =
        some last := LastJoin.exists_get?_index ho
    rw [hkey] at hlast
    obtain ⟨hmem, hlastkey⟩ := LastJoin.mem_of_get?_index hlast
    obtain ⟨own, hown, hmint, hlabel, hresolution⟩ :=
      hmatch _ (List.mem_map_of_mem (LastJoin.mem_join.2 ⟨hp, hlast⟩))
    have hsame := hentry last hmem hlastkey
    refine ⟨own, hown, hmint, ?_, ?_⟩
    · exact regimeLabelCodes_injective (hlabel.trans (congrArg LabelEntry.label hsame))
    · exact hresolution.trans (congrArg LabelEntry.resolutionEventTime hsame)
  · intro o' ho' hkey'
    have hsame := hentry o' ho' hkey'
    exact ⟨regimeLabelCodes_injective (congrArg LabelEntry.label hsame),
      congrArg LabelEntry.decisionEventTime hsame, congrArg LabelEntry.resolutionEventTime hsame⟩

end RegimeLabels

/-- **The joins keep labels with their coins**, in every order, iff the labels that share a slot and
a block time are alike. -/
theorem join_keeps_coins_iff (frameToFeatureRow : FeatureFrame φ → ρ) {rows : List (SyntheticRow φ)}
    (hmints : (rows.map fun r => r.frame.mint).Nodup)
    (featureRows : List (EventTime × String × ρ)) (outcomes : List RegimeOutcome) :
    (LabelsMatch frameToFeatureRow rows ∧ LabelsUnordered frameToFeatureRow rows ↔
        AnchorsAgree rows) ∧
      (RegimeLabelsMatch featureRows outcomes ∧ RegimeLabelsUnordered featureRows outcomes ↔
        OutcomesAgree featureRows outcomes) := by
  constructor
  · refine ⟨fun h => h.2.anchorsAgree, fun h => ⟨?_, h.labelsUnordered⟩⟩
    refine (labelsMatch_iff hmints).2 fun r hr r' hr' hkey => ?_
    exact ⟨(h r hr r' hr' hkey).1, (h r hr r' hr' hkey).2.2⟩
  · exact ⟨fun h => outcomesAgree_of h.1 h.2,
      fun h => ⟨h.regimeLabelsMatch, h.regimeLabelsUnordered⟩⟩

/-- The anchor of two launches in one slot. -/
def anchor : EventTime := ⟨100, 5000, 5005, by decide⟩

/-- When their labels resolve. -/
def resolution : EventTime := ⟨200, 45000, 45005, by decide⟩

/-- A launch at the anchor. -/
def launchRow (mint : String) (label : ℤ) : SyntheticRow Unit := ⟨⟨mint, anchor, ()⟩, label, resolution⟩

/-- An outcome at the anchor. -/
def launchOutcome (mint : String) (label : RegimeLabel) : RegimeOutcome where
  mint := mint
  eventTime := anchor
  labelHorizonHSlots := 100
  resolutionEventTime := resolution
  label := label
  remainedSellable := true
  firstUnsellableSlot := none
  horizon_pos := by decide
  resolution_slot := rfl
  resolution_blockTime := by decide
  unsellable_iff := by simp

theorem join_keeps_coins_iff_alike :
    LabelsMatch (fun _ => ()) [launchRow "A" 1, launchRow "B" 1] ∧
      LabelsUnordered (fun _ => ()) [launchRow "A" 1, launchRow "B" 1] := by
  have hiff := join_keeps_coins_iff (fun _ => ()) (by decide :
    ([launchRow "A" 1, launchRow "B" 1].map fun r => r.frame.mint).Nodup) ([] : List (_ × _ × Unit)) []
  refine hiff.1.2 fun r hr r' hr' _ => ?_
  simp only [List.mem_cons, List.not_mem_nil, or_false] at hr hr'
  rcases hr with rfl | rfl <;> rcases hr' with rfl | rfl <;> exact ⟨rfl, rfl, rfl⟩

/-- One coin pumped and the other was rugged: both are given the label that comes last. -/
theorem join_mixes_coins :
    ([launchRow "A" 1, launchRow "B" 0].map fun r => r.frame.mint).Nodup ∧
      ¬ LabelsMatch (fun _ => ()) [launchRow "A" 1, launchRow "B" 0] ∧
      ¬ LabelsUnordered (fun _ => ()) [launchRow "A" 1, launchRow "B" 0] ∧
      ¬ RegimeLabelsMatch [(anchor, "A", ()), (anchor, "B", ())]
        [launchOutcome "A" .accumulation, launchOutcome "B" .rugInProgress] ∧
      ¬ RegimeLabelsUnordered [(anchor, "A", ()), (anchor, "B", ())]
        [launchOutcome "A" .accumulation, launchOutcome "B" .rugInProgress] := by
  have hmints : ([launchRow "A" 1, launchRow "B" 0].map fun r => r.frame.mint).Nodup := by decide
  refine ⟨hmints, fun h => ?_, fun h => ?_, ?_, fun h => ?_⟩
  · have hlabel := (labelsMatch_iff hmints).1 h (launchRow "A" 1) (by simp) (launchRow "B" 0)
      (by simp) rfl
    exact absurd hlabel.1 (by decide)
  · have hlabel := h.anchorsAgree (launchRow "A" 1) (by simp) (launchRow "B" 0) (by simp) rfl
    exact absurd hlabel.1 (by decide)
  · rintro ⟨joined, hjoined, h⟩
    obtain rfl := Except.ok.inj hjoined
    obtain ⟨o, ho, hmint, hlabel, -⟩ := h _ List.mem_cons_self
    simp only [List.mem_cons, List.not_mem_nil, or_false] at ho
    rcases ho with rfl | rfl
    · exact absurd hlabel (by decide)
    · exact absurd hmint (by decide)
  · have hentry := h.entry_eq (List.mem_cons_self (a := (anchor, "A", ())))
      (o := launchOutcome "A" .accumulation) (by simp) (List.mem_cons_of_mem _ List.mem_cons_self)
      rfl rfl
    exact absurd (congrArg LabelEntry.label hentry) (by decide)

/-! ### What the audit sees -/

theorem auditExample_eq_ok {i : ℕ} {ex : JoinedExample ρ}
    (hkey : eventTimeKey ex.featureEventTime = eventTimeKey ex.decisionEventTime)
    (hslot : ex.decisionEventTime.slot < ex.resolutionEventTime.slot)
    (hblock : ex.decisionEventTime.blockTimeMs < ex.resolutionEventTime.blockTimeMs) :
    auditExample i ex = .ok () := by
  obtain ⟨hs, hb⟩ := Prod.mk.inj hkey
  unfold auditExample
  refine (require_bind (by omega)).trans ?_
  exact require_eq_ok.2 (by omega)

/-- An audit of examples whose anchors match and whose labels resolve later passes. -/
theorem exists_audit_eq_ok {examples : List (JoinedExample ρ)} (hne : examples ≠ [])
    (h : ∀ ex ∈ examples, eventTimeKey ex.featureEventTime = eventTimeKey ex.decisionEventTime ∧
      ex.decisionEventTime.slot < ex.resolutionEventTime.slot ∧
      ex.decisionEventTime.blockTimeMs < ex.resolutionEventTime.blockTimeMs) :
    ∃ summary, assertEventTimeLeqDecision examples = .ok summary := by
  have hrows : examples.zipIdx.forM (fun p => auditExample p.2 p.1) = .ok ⟨⟩ := by
    refine forM_eq_ok fun p hp => ?_
    obtain ⟨hkey, hslot, hblock⟩ := h p.1 (List.fst_mem_of_mem_zipIdx hp)
    exact auditExample_eq_ok hkey hslot hblock
  unfold assertEventTimeLeqDecision
  rw [require_bind hne, bind_of_ok hrows]
  exact ⟨_, rfl⟩

/-- The classifier's join passes the audit, whichever coins its labels are of. -/
theorem audit_passes_join (frameToFeatureRow : FeatureFrame φ → ρ) {rows : List (SyntheticRow φ)}
    (hne : rows ≠ [])
    (hlater : ∀ r ∈ rows, r.frame.eventTime.slot < r.resolutionEventTime.slot ∧
      r.frame.eventTime.blockTimeMs < r.resolutionEventTime.blockTimeMs) :
    ∃ summary, assertEventTimeLeqDecision (joinLabelsByEventTime frameToFeatureRow rows) =
      .ok summary := by
  rw [joinLabelsByEventTime_eq]
  refine exists_audit_eq_ok ?_ fun ex hex => ?_
  · obtain ⟨r, hr⟩ := List.exists_mem_of_ne_nil rows hne
    obtain ⟨e, he⟩ : ∃ e, (LastJoin.index LabelEntry.key (rows.map SyntheticRow.entry)).get? r.key =
        some e := LastJoin.exists_get?_index (List.mem_map_of_mem hr)
    exact List.ne_nil_of_mem (List.mem_map_of_mem (LastJoin.mem_join.2 ⟨hr, he⟩))
  · obtain ⟨⟨r, e⟩, hjoin, rfl⟩ := List.mem_map.1 hex
    obtain ⟨he, hkey⟩ := LastJoin.mem_of_get?_index (LastJoin.mem_join.1 hjoin).2
    obtain ⟨r', hr', rfl⟩ := List.mem_map.1 he
    exact ⟨hkey.symm, hlater r' hr'⟩

/-- So does the regime join. -/
theorem audit_passes_regime_join {featureRows : List (EventTime × ρ)}
    {outcomes : List RegimeOutcome} {joined : List (JoinedExample ρ)}
    (hjoined : joinRegimeLabelsByEventTime featureRows outcomes = .ok joined) (hne : joined ≠ []) :
    ∃ summary, assertEventTimeLeqDecision joined = .ok summary := by
  rw [joinRegimeLabelsByEventTime_eq] at hjoined
  obtain rfl := Except.ok.inj hjoined
  refine exists_audit_eq_ok hne fun ex hex => ?_
  obtain ⟨⟨p, o⟩, hjoin, rfl⟩ := List.mem_map.1 hex
  obtain ⟨-, hkey⟩ := LastJoin.mem_of_get?_index (LastJoin.mem_join.1 hjoin).2
  refine ⟨hkey.symm, ?_, o.resolution_blockTime⟩
  have hslot := o.resolution_slot
  have hpos := o.horizon_pos
  show o.eventTime.slot < o.resolutionEventTime.slot
  omega

end Models
end AatsSniper

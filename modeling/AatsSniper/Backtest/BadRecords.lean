/-
# One bad record

`Spoilproof` is what a proof run should be worth: it returns, every record is resolved or
censored, and a record more that cannot be used, wherever it comes, changes no outcome.
`Unspoilt` says it of one such record.

The three harnesses censor what raises one of the exceptions they name.  So a run is unspoilt
iff no record of it raises another one (`loopReport_unspoilt_iff`, and
`reactionReport_unspoilt_iff`, where the second pass has to return as well).  But a number in the
wrong place is converted outside of any `try`, in `to_entry_record` and for the liquidity of a
reaction's mark: such a record can always come, unless no block time is ever resolved.
-/

import AatsSniper.Backtest.ReactionHarness

namespace AatsSniper
namespace Backtest
namespace Corpus

variable {ρ ω : Type}

/-- The outcomes and the counts of a run. -/
structure Report where
  outcomes : List TradeOutcome
  nRecords : ℕ
  nResolved : ℕ
  nCensored : ℕ

/-- Every record is resolved or censored. -/
def Report.Balanced (report : Report) : Prop :=
  report.nRecords = report.nResolved + report.nCensored

/-- The call returns, and a record more that cannot be used changes nothing but the counts. -/
def Spoilproof (build : List ρ → Except HarnessError Report) (bad : ρ → Prop)
    (records : List ρ) : Prop :=
  ∃ report, build records = .ok report ∧ report.Balanced ∧
    ∀ before record after, records = before ++ after → bad record →
      ∃ report', build (before ++ record :: after) = .ok report' ∧ report'.Balanced ∧
        report'.outcomes = report.outcomes

/-- The run with a record more returns, and with the outcomes of the run without it. -/
def Unspoilt (build : List ρ → Except HarnessError Report) (before : List ρ) (record : ρ)
    (after : List ρ) : Prop :=
  ∃ report report', build (before ++ after) = .ok report ∧
    build (before ++ record :: after) = .ok report' ∧ report.Balanced ∧ report'.Balanced ∧
    report'.outcomes = report.outcomes

/-- The report of `build_trade_outcomes`. -/
def tradeReport (p : Printer) (resolver : BlockTimeResolver) (steps : LaunchSteps)
    (records : List CorpusRecord) : Except HarnessError Report :=
  (buildTradeOutcomes p resolver steps records).map fun r =>
    ⟨r.1, r.2.nRecords, r.2.nResolved, r.2.nCensored⟩

/-- The report of `build_momentum_outcomes`. -/
def momentumReport (p : Printer) (resolver : BlockTimeResolver) (steps : MomentumSteps)
    (entryHorizonS : ℤ) (records : List CorpusRecord) : Except HarnessError Report :=
  (buildMomentumOutcomes p resolver steps entryHorizonS records).map fun r =>
    ⟨r.1, r.2.nRecords, r.2.nResolved, r.2.nCensored⟩

/-- The report of `build_reaction_outcomes`. -/
def reactionReport {κ : Type} (p : Printer) (settings : ReactionSettings) (steps : ReactionSteps κ)
    (records : List (List (CodePoints × Json))) : Except HarnessError Report :=
  (buildReactionOutcomes p settings steps records).map fun r =>
    ⟨r.1, r.2.nRecords, r.2.nResolved, r.2.nCensored⟩

section Loop

variable (process : ρ → Except HarnessError ω) (caught : HarnessError → Bool)
  (outcome : ω → TradeOutcome)

/-- The report of one loop over the records. -/
def loopReport (records : List ρ) : Except HarnessError Report :=
  (collect process caught records).map fun r =>
    ⟨r.1.map outcome, records.length, r.1.length, r.2.length⟩

variable {process caught outcome} {records before after : List ρ} {record : ρ} {report : Report}

theorem loopReport_eq_ok : loopReport process caught outcome records = .ok report ↔
    ∃ r, collect process caught records = .ok r ∧
      report = ⟨r.1.map outcome, records.length, r.1.length, r.2.length⟩ := by
  unfold loopReport
  rw [map_eq_ok]
  exact exists_congr fun r => and_congr_right fun _ => eq_comm

theorem loopReport_returns_iff :
    (∃ report, loopReport process caught outcome records = .ok report) ↔
      ∀ record ∈ records, ¬Escapes process caught record := by
  rw [← collect_returns_iff]
  constructor
  · rintro ⟨report, h⟩
    obtain ⟨r, hr, -⟩ := loopReport_eq_ok.1 h
    exact ⟨r, hr⟩
  · rintro ⟨r, hr⟩
    exact ⟨_, loopReport_eq_ok.2 ⟨r, hr, rfl⟩⟩

theorem loopReport_balanced (h : loopReport process caught outcome records = .ok report) :
    report.Balanced := by
  obtain ⟨r, hr, rfl⟩ := loopReport_eq_ok.1 h
  exact (collect_length hr).symm

/-- **A record more, where the run returns.** -/
theorem loopReport_insert (hrecord : Unusable process record)
    (h : loopReport process caught outcome (before ++ record :: after) = .ok report) :
    ∃ report', loopReport process caught outcome (before ++ after) = .ok report' ∧
      report'.outcomes = report.outcomes := by
  obtain ⟨r, hr, rfl⟩ := loopReport_eq_ok.1 h
  obtain ⟨r', hr', hkept, -⟩ := collect_insert hrecord hr
  exact ⟨_, loopReport_eq_ok.2 ⟨r', hr', rfl⟩, congrArg (List.map outcome) hkept⟩

/-- **What spoils a run of one loop:** a record of it that escapes. -/
theorem loopReport_unspoilt_iff (hrecord : Unusable process record) :
    Unspoilt (loopReport process caught outcome) before record after ↔
      ∀ row ∈ before ++ record :: after, ¬Escapes process caught row := by
  have hreturns : (∃ report, loopReport process caught outcome (before ++ record :: after) =
      .ok report) ↔ ∀ row ∈ before ++ record :: after, ¬Escapes process caught row :=
    loopReport_returns_iff
  rw [← hreturns]
  constructor
  · rintro ⟨-, report', -, hreport', -⟩
    exact ⟨report', hreport'⟩
  · rintro ⟨report', hreport'⟩
    obtain ⟨report, hreport, houtcomes⟩ := loopReport_insert hrecord hreport'
    exact ⟨report, report', hreport, hreport', loopReport_balanced hreport,
      loopReport_balanced hreport', houtcomes.symm⟩

/-- **What can spoil it:** a record of it that escapes, or one that could come. -/
theorem loopReport_spoilproof_iff :
    Spoilproof (loopReport process caught outcome) (Unusable process) records ↔
      (∀ record ∈ records, ¬Escapes process caught record) ∧
        ∀ record, Unusable process record → ¬Escapes process caught record := by
  constructor
  · rintro ⟨report, hreport, -, hinsert⟩
    refine ⟨loopReport_returns_iff.1 ⟨report, hreport⟩, fun record hrecord => ?_⟩
    obtain ⟨report', hreport', -⟩ := hinsert [] record records rfl hrecord
    exact loopReport_returns_iff.1 ⟨report', hreport'⟩ record List.mem_cons_self
  · rintro ⟨hrecords, hbad⟩
    obtain ⟨report, hreport⟩ := loopReport_returns_iff.2 hrecords
    refine ⟨report, hreport, loopReport_balanced hreport, ?_⟩
    intro before record after hsplit hrecord
    have hall : ∀ row ∈ before ++ record :: after, ¬Escapes process caught row := by
      intro row hrow
      rcases List.mem_append.1 hrow with hmem | hmem
      · exact hrecords row (hsplit ▸ List.mem_append_left _ hmem)
      · rcases List.mem_cons.1 hmem with rfl | hmem
        · exact hbad row hrecord
        · exact hrecords row (hsplit ▸ List.mem_append_right _ hmem)
    obtain ⟨report'', report', hreport'', hreport', -, hbalanced, houtcomes⟩ :=
      (loopReport_unspoilt_iff hrecord).2 hall
    rw [← hsplit, hreport] at hreport''
    obtain rfl := Except.ok.inj hreport''
    exact ⟨report', hreport', hbalanced, houtcomes⟩

end Loop

/-- A record with a signature and a mint whose entry amount is no number. -/
def nonNumericRecord (signature : CodePoints) : CorpusRecord where
  entry := [(codePoints "signature", .str signature), (codePoints "mint", .str (codePoints "m")),
    (codePoints "solAmount", .str (codePoints "abc"))]
  forward := []

theorem ofText_nonNumeric : PyDecimal.ofText (codePoints "abc") = none := by decide +kernel

theorem signature_nonNumericRecord (p : Printer) (signature : CodePoints) :
    (nonNumericRecord signature).signature p = signature := rfl

theorem toEntryRecord_nonNumericRecord (p : Printer) (signature : CodePoints)
    (blockTime : BlockTime) : toEntryRecord p (nonNumericRecord signature) blockTime =
      .error (.python .invalidOperation) := by
  have hmint : (nonNumericRecord signature).mint p ≠ [] := by
    have : (nonNumericRecord signature).mint p = codePoints "m" := rfl
    rw [this]
    decide
  have hamount : decimalFrom (nonNumericRecord signature).entry "solAmount" =
      .error (.python .invalidOperation) := by
    have hvalue : Json.getD (nonNumericRecord signature).entry "solAmount" .null =
        .str (codePoints "abc") := rfl
    rw [decimalFrom, hvalue]
    simp [convert, Json.toDecimal, ofText_nonNumeric, Except.mapError]
  unfold toEntryRecord
  rw [require_bind hmint]
  exact bind_of_error hamount

section Launch

variable {p : Printer} {resolver : BlockTimeResolver}
  {process : CorpusRecord → Except HarnessError ω}
  {rest : CorpusRecord → EntryRecord → Except HarnessError ω} {outcome : ω → TradeOutcome}

/-- **A loop that resolves a block time and reads the entry** raises on a record with a number in
the wrong place. -/
theorem process_nonNumericRecord
    (hprocess : ∀ record, process record =
      (resolver (record.signature p)).mapError HarnessError.blockTimeUnavailable >>= fun bt =>
        toEntryRecord p record bt >>= rest record)
    {signature : CodePoints} {bt : BlockTime} (hanswer : resolver signature = .ok bt) :
    process (nonNumericRecord signature) = .error (.python .invalidOperation) := by
  rw [hprocess, signature_nonNumericRecord, hanswer, Except.mapError, bind_of_ok rfl]
  exact bind_of_error (toEntryRecord_nonNumericRecord p signature bt)

/-- It is spoilproof only where no block time is ever resolved. -/
theorem loopReport_entry_spoilproof_iff
    (hprocess : ∀ record, process record =
      (resolver (record.signature p)).mapError HarnessError.blockTimeUnavailable >>= fun bt =>
        toEntryRecord p record bt >>= rest record) (records : List CorpusRecord) :
    Spoilproof (loopReport process launchCaught outcome) (Unusable process) records ↔
      ∀ signature, ∃ text, resolver signature = .error text := by
  rw [loopReport_spoilproof_iff]
  constructor
  · rintro ⟨-, hbad⟩ signature
    cases hanswer : resolver signature with
    | error text => exact ⟨text, rfl⟩
    | ok bt =>
        have hraise := process_nonNumericRecord hprocess hanswer
        exact absurd ⟨_, hraise, rfl⟩ (hbad _ ⟨_, hraise⟩)
  · intro hnone
    have hcensored : ∀ record, ¬Escapes process launchCaught record := by
      rintro record ⟨e, he, hcaught⟩
      obtain ⟨text, htext⟩ := hnone (record.signature p)
      rw [hprocess, htext] at he
      cases he
      cases hcaught
    exact ⟨fun record _ => hcensored record, fun record _ => hcensored record⟩

end Launch

theorem tradeReport_eq (p : Printer) (resolver : BlockTimeResolver) (steps : LaunchSteps) :
    tradeReport p resolver steps =
      loopReport (tradeOutcome p resolver steps) launchCaught id := by
  funext records
  unfold tradeReport buildTradeOutcomes loopReport
  cases collect (tradeOutcome p resolver steps) launchCaught records with
  | ok r =>
      simp only [List.map_id]
      rfl
  | error e => rfl

theorem tradeReport_spoilproof_iff {p : Printer} {resolver : BlockTimeResolver}
    {steps : LaunchSteps} {records : List CorpusRecord} :
    Spoilproof (tradeReport p resolver steps) (Unusable (tradeOutcome p resolver steps)) records ↔
      ∀ signature, ∃ text, resolver signature = .error text := by
  rw [tradeReport_eq]
  exact loopReport_entry_spoilproof_iff (fun _ => rfl) records

theorem momentumReport_eq (p : Printer) (resolver : BlockTimeResolver) (steps : MomentumSteps)
    (entryHorizonS : ℤ) : momentumReport p resolver steps entryHorizonS =
      loopReport (momentumOutcome p resolver steps entryHorizonS) launchCaught Prod.fst := by
  funext records
  unfold momentumReport buildMomentumOutcomes loopReport
  cases collect (momentumOutcome p resolver steps entryHorizonS) launchCaught records with
  | ok r => rfl
  | error e => rfl

theorem momentumReport_spoilproof_iff {p : Printer} {resolver : BlockTimeResolver}
    {steps : MomentumSteps} {entryHorizonS : ℤ} {records : List CorpusRecord} :
    Spoilproof (momentumReport p resolver steps entryHorizonS)
        (Unusable (momentumOutcome p resolver steps entryHorizonS)) records ↔
      ∀ signature, ∃ text, resolver signature = .error text := by
  rw [momentumReport_eq]
  exact loopReport_entry_spoilproof_iff (fun _ => rfl) records

/-- A forward mark whose liquidity is no number. -/
def nonNumericMark : List (CodePoints × Json) :=
  [(codePoints "horizon_s", .int 30), (codePoints "liquidity_usd", .str (codePoints "abc"))]

/-- A signal with a price, and one such mark. -/
def nonNumericReaction : List (CodePoints × Json) :=
  [(codePoints "mint", .str (codePoints "m")), (codePoints "source_id", .str (codePoints "s")),
    (codePoints "signal_type", .str (codePoints "kol_call")),
    (codePoints "signal_block_time_ms", .int 1), (codePoints "signal_slot", .int 1),
    (codePoints "signal_price_sol", .int 1),
    (codePoints "forward", .arr [.obj nonNumericMark])]

theorem parseReactionSignal_nonNumericReaction (p : Printer) :
    parseReactionSignal p nonNumericReaction = .ok {
      mint := codePoints "m"
      sourceId := codePoints "s"
      signalType := codePoints "kol_call"
      signalSlot := 1
      signalBlockTimeMs := 1
      signalPriceSol := .finite 1
      signalSizeSol := none
      sourcePrior := none
      vsolLamports := none } := rfl

theorem reactionObservation_nonNumericMark (p : Printer) (mint : CodePoints)
    (curveLiq : Option PyDecimal) : reactionObservation p mint curveLiq (.obj nonNumericMark) =
      .error (.python .invalidOperation) := by
  have hobs : convert (Json.obj nonNumericMark).members = .ok nonNumericMark := rfl
  have htxns : convert (txnCounts (reactionTxns nonNumericMark)) = .ok (0, 0) := rfl
  have hliq : convert (Json.str (codePoints "abc")).decimalOrNone =
      .error (.python .invalidOperation) := by
    simp [convert, Json.decimalOrNone, Json.toDecimal, ofText_nonNumeric, Except.map,
      Except.mapError]
  unfold reactionObservation
  rw [bind_of_ok hobs, bind_of_ok htxns]
  exact bind_of_error hliq

theorem readReactionForward_nonNumericReaction (p : Printer) (curveLiq : Option PyDecimal) :
    readReactionForward p nonNumericReaction curveLiq = .error (.python .invalidOperation) := by
  have hmark := reactionObservation_nonNumericMark p (codePoints "m") curveLiq
  refine bind_of_error (x := List.mapM (reactionObservation p (codePoints "m") curveLiq) [_]) ?_
  rw [List.mapM_cons]
  exact bind_of_error hmark

theorem resolveOne_nonNumericReaction {κ : Type} (p : Printer) (settings : ReactionSettings)
    (steps : ReactionSteps κ) : resolveOne p settings steps nonNumericReaction =
      .error (.python .invalidOperation) := by
  have hcurve : convert (bondingCurveLiquidityUsd none) = .ok none := rfl
  unfold resolveOne
  rw [bind_of_ok (parseReactionSignal_nonNumericReaction p), bind_of_ok hcurve]
  exact bind_of_error (readReactionForward_nonNumericReaction p none)

section Reaction

variable {κ : Type} {p : Printer} {settings : ReactionSettings} {steps : ReactionSteps κ}
  {records before after : List (List (CodePoints × Json))} {record : List (CodePoints × Json)}
  {report : Report}

/-- What the first loop keeps of a run's records. -/
def resolvedReactions (p : Printer) (settings : ReactionSettings) (steps : ReactionSteps κ)
    (records : List (List (CodePoints × Json))) : List ResolvedReaction :=
  sortBy ResolvedReaction.sortKey
    (records.filterMap fun record => (resolveOne p settings steps record).toOption)

/-- **A run that returned** has been through its two passes. -/
theorem reactionReport_eq_ok : reactionReport p settings steps records = .ok report ↔
    ∃ r, collect (resolveOne p settings steps) reactionCaught records = .ok r ∧
      ∃ decided, decideReactions steps (resolvedReactions p settings steps records) = .ok decided ∧
        report = ⟨decided.map Prod.fst, records.length, decided.length, r.2.length⟩ := by
  unfold reactionReport
  rw [map_eq_ok]
  constructor
  · rintro ⟨built, hbuilt, rfl⟩
    obtain ⟨r, hr, hbuilt⟩ := ok_of_bind hbuilt
    obtain ⟨decided, hdecided, hbuilt⟩ := ok_of_bind hbuilt
    cases hbuilt
    refine ⟨r, hr, decided, ?_, rfl⟩
    rw [resolvedReactions, ← collect_kept hr]
    exact hdecided
  · rintro ⟨r, hr, decided, hdecided, rfl⟩
    rw [resolvedReactions, ← collect_kept hr] at hdecided
    unfold buildReactionOutcomes
    rw [bind_of_ok hr]
    exact ⟨_, bind_of_ok hdecided, rfl⟩

/-- The second pass decides every reaction. -/
theorem length_of_decideReactions {resolved : List ResolvedReaction}
    {decided : List (TradeOutcome × ReactionDecision)}
    (h : decideReactions steps resolved = .ok decided) : decided.length = resolved.length := by
  obtain ⟨reputations, -, h⟩ := ok_of_bind h
  obtain ⟨decided', hdecided, h⟩ := ok_of_bind h
  obtain ⟨hlen, h⟩ := ok_of_require h
  cases h
  rw [length_of_mapM hdecided, List.length_zip, ← hlen, min_self]

theorem reactionReport_balanced (h : reactionReport p settings steps records = .ok report) :
    report.Balanced := by
  obtain ⟨r, hr, decided, hdecided, rfl⟩ := reactionReport_eq_ok.1 h
  have hlen := length_of_decideReactions hdecided
  rw [resolvedReactions, length_sortBy, ← collect_kept hr] at hlen
  have hall := collect_length hr
  show records.length = decided.length + r.2.length
  omega

/-- **What spoils a run:** a record of it that escapes, or a second pass that raises. -/
theorem reactionReport_unspoilt_iff (hrecord : Unusable (resolveOne p settings steps) record) :
    Unspoilt (reactionReport p settings steps) before record after ↔
      (∀ row ∈ before ++ record :: after,
        ¬Escapes (resolveOne p settings steps) reactionCaught row) ∧
        ∃ decided, decideReactions steps (resolvedReactions p settings steps (before ++ after)) =
          .ok decided := by
  have hsame : resolvedReactions p settings steps (before ++ record :: after) =
      resolvedReactions p settings steps (before ++ after) := by
    obtain ⟨e, he⟩ := hrecord
    simp [resolvedReactions, he, Except.toOption]
  constructor
  · rintro ⟨report, report', hreport, hreport', -⟩
    obtain ⟨r, -, decided, hdecided, -⟩ := reactionReport_eq_ok.1 hreport
    obtain ⟨r', hr', -⟩ := reactionReport_eq_ok.1 hreport'
    exact ⟨collect_returns_iff.1 ⟨r', hr'⟩, decided, hdecided⟩
  · rintro ⟨hescapes, decided, hdecided⟩
    obtain ⟨r', hr'⟩ := collect_returns_iff.2 hescapes
    obtain ⟨r, hr, -⟩ := collect_insert hrecord hr'
    have hreport := reactionReport_eq_ok.2 ⟨r, hr, decided, hdecided, rfl⟩
    have hreport' := reactionReport_eq_ok.2 ⟨r', hr', decided, hsame ▸ hdecided, rfl⟩
    exact ⟨_, _, hreport, hreport', reactionReport_balanced hreport,
      reactionReport_balanced hreport', rfl⟩

/-- **No run of it is spoilproof.** -/
theorem reactionReport_not_spoilproof : ¬Spoilproof (reactionReport p settings steps)
    (Unusable (resolveOne p settings steps)) records := by
  rintro ⟨report, -, -, hinsert⟩
  have hraise := resolveOne_nonNumericReaction p settings steps
  obtain ⟨report', hreport', -⟩ := hinsert [] nonNumericReaction records rfl ⟨_, hraise⟩
  obtain ⟨r, hr, -⟩ := reactionReport_eq_ok.1 hreport'
  exact collect_returns_iff.1 ⟨r, hr⟩ nonNumericReaction List.mem_cons_self ⟨_, hraise, rfl⟩

end Reaction

/-- **One bad record.**  No run of the launch and the momentum harness is spoilproof, unless no
block time is ever resolved, and no run of the reaction harness is.  A run is unspoilt by a record
that cannot be used iff no record of it escapes and, of a reaction run, the second pass returns. -/
theorem bad_record_spoils_iff {κ : Type} (p : Printer) (resolver : BlockTimeResolver)
    (launch : LaunchSteps) (momentum : MomentumSteps) (entryHorizonS : ℤ)
    (settings : ReactionSettings) (reaction : ReactionSteps κ) :
    ((∀ records, Spoilproof (tradeReport p resolver launch)
        (Unusable (tradeOutcome p resolver launch)) records ↔
          ∀ signature, ∃ text, resolver signature = .error text) ∧
      ∀ before record after, Unusable (tradeOutcome p resolver launch) record →
        (Unspoilt (tradeReport p resolver launch) before record after ↔
          ∀ row ∈ before ++ record :: after,
            ¬Escapes (tradeOutcome p resolver launch) launchCaught row)) ∧
    ((∀ records, Spoilproof (momentumReport p resolver momentum entryHorizonS)
        (Unusable (momentumOutcome p resolver momentum entryHorizonS)) records ↔
          ∀ signature, ∃ text, resolver signature = .error text) ∧
      ∀ before record after, Unusable (momentumOutcome p resolver momentum entryHorizonS) record →
        (Unspoilt (momentumReport p resolver momentum entryHorizonS) before record after ↔
          ∀ row ∈ before ++ record :: after,
            ¬Escapes (momentumOutcome p resolver momentum entryHorizonS) launchCaught row)) ∧
    (∀ records, ¬Spoilproof (reactionReport p settings reaction)
        (Unusable (resolveOne p settings reaction)) records) ∧
      ∀ before record after, Unusable (resolveOne p settings reaction) record →
        (Unspoilt (reactionReport p settings reaction) before record after ↔
          (∀ row ∈ before ++ record :: after,
            ¬Escapes (resolveOne p settings reaction) reactionCaught row) ∧
          ∃ decided, decideReactions reaction
            (resolvedReactions p settings reaction (before ++ after)) = .ok decided) := by
  refine ⟨⟨fun records => tradeReport_spoilproof_iff, fun before record after hrecord => ?_⟩,
    ⟨fun records => momentumReport_spoilproof_iff, fun before record after hrecord => ?_⟩,
    fun records => reactionReport_not_spoilproof,
    fun before record after hrecord => reactionReport_unspoilt_iff hrecord⟩
  · rw [tradeReport_eq]
    exact loopReport_unspoilt_iff hrecord
  · rw [momentumReport_eq]
    exact loopReport_unspoilt_iff hrecord

/-- A run of each on one such record, with a block time for every signature. -/
theorem non_numeric_record_aborts :
    ¬Spoilproof
      (tradeReport ⟨fun _ => [], fun _ => []⟩ (fun _ => .ok ⟨1, 1⟩)
        ⟨fun _ => .ok ⟨true, true, 1⟩, fun _ _ _ => .ok 0⟩)
      (Unusable (tradeOutcome ⟨fun _ => [], fun _ => []⟩ (fun _ => .ok ⟨1, 1⟩)
        ⟨fun _ => .ok ⟨true, true, 1⟩, fun _ _ _ => .ok 0⟩))
      [nonNumericRecord (codePoints "s")] ∧
    ¬Spoilproof
      (momentumReport ⟨fun _ => [], fun _ => []⟩ (fun _ => .ok ⟨1, 1⟩)
        ⟨fun _ _ => .ok ⟨false, false, false, none, 1⟩, fun _ _ _ _ _ => .ok 0⟩ 300)
      (Unusable (momentumOutcome ⟨fun _ => [], fun _ => []⟩ (fun _ => .ok ⟨1, 1⟩)
        ⟨fun _ _ => .ok ⟨false, false, false, none, 1⟩, fun _ _ _ _ _ => .ok 0⟩ 300))
      [nonNumericRecord (codePoints "s")] ∧
    ¬Spoilproof
      (reactionReport ⟨fun _ => [], fun _ => []⟩ ⟨100, 1⟩
        (⟨fun _ _ _ _ _ => .ok 0, fun rows => .ok (rows.map fun _ => ()),
          fun _ _ => .ok ⟨true, true, false, false⟩⟩ : ReactionSteps Unit))
      (Unusable (resolveOne ⟨fun _ => [], fun _ => []⟩ ⟨100, 1⟩
        (⟨fun _ _ _ _ _ => .ok 0, fun rows => .ok (rows.map fun _ => ()),
          fun _ _ => .ok ⟨true, true, false, false⟩⟩ : ReactionSteps Unit)))
      [nonNumericReaction] := by
  refine ⟨?_, ?_, reactionReport_not_spoilproof⟩
  · intro hspoilproof
    obtain ⟨text, h⟩ := tradeReport_spoilproof_iff.1 hspoilproof []
    cases h
  · intro hspoilproof
    obtain ⟨text, h⟩ := momentumReport_spoilproof_iff.1 hspoilproof []
    cases h

end Corpus
end Backtest
end AatsSniper

/-
# The second pass, record by record and exact

The reaction harness is modelled twice: `ReactionHarness` reads records that may hold anything and
leaves its second pass open, and `Reputation` is that pass on signals whose price is a number.
`exactSteps` puts the second in the place the first leaves open.

A text of the harness is its code points, and a text of `Reputation` a string; on code points that
are those of a string the two orders agree, so that both passes take the reactions in one order
(`map_read_sortBy`).  Then the harness decides as `decide_reaction_entry` does on the walk-forward
reputations (`decideReactions_exact`), and its second pass never raises (`secondPass_returns`); the
haircut of the entry price is the exact one where the context rounds nothing.
-/

import AatsSniper.Backtest.BadRecords
import AatsSniper.Backtest.Reputation

namespace AatsSniper
namespace Backtest
namespace Corpus

/-- The string of code points that are those of a string. -/
def stringOf (s : CodePoints) : String := String.ofList (s.map Char.ofNat)

theorem stringOf_codePoints (t : String) : stringOf (codePoints t) = t := by
  unfold stringOf codePoints
  rw [List.map_map]
  simp [Function.comp_def]

theorem codePoints_lt {t t' : String} (h : t < t') : codePoints t < codePoints t' := by
  refine List.map_lt (fun c c' hlt => ?_) (String.lt_iff_toList_lt.1 h)
  exact hlt

/-- Code points are in the order of their strings. -/
theorem codePoints_le_iff {t t' : String} : codePoints t ≤ codePoints t' ↔ t ≤ t' := by
  constructor
  · intro h
    by_contra hnot
    exact absurd h (not_le_of_gt (codePoints_lt (not_le.1 hnot)))
  · intro h
    rcases h.lt_or_eq with hlt | rfl
    · exact (codePoints_lt hlt).le
    · exact le_rfl

/-- What the second pass reads of a signal: a price that is no number has none of its decisions. -/
def ReactionSignal.read (s : ReactionSignal) : Backtest.ReactionSignal where
  mint := stringOf s.mint
  sourceId := stringOf s.sourceId
  signalSlot := s.signalSlot
  signalBlockTimeMs := s.signalBlockTimeMs
  signalPriceSol :=
    match s.signalPriceSol with
    | .finite q => q
    | _ => 0

/-- What the second pass reads of a resolved reaction. -/
def ResolvedReaction.read (r : ResolvedReaction) : Backtest.ResolvedReaction where
  signal := r.signal.read
  outcomeResolvedBlockTimeMs := r.outcomeResolvedBlockTimeMs
  netPnlLamports := r.netPnlLamports
  solAtRiskLamports := r.solAtRiskLamports
  netPnlPerSol := r.netPnlPerSol

/-- What the harness reads of a decision. -/
def ReactionDecision.ofExact (d : Backtest.ReactionDecision) : ReactionDecision where
  modelSelected := d.modelSelected
  baselineSelected := d.baselineSelected
  onNeutralPrior := d.onNeutralPrior
  reputationGateApplied := d.reputationGateApplied

/-- `LeakError` and `ReputationLeakError` among the errors of the harness. -/
def leak : LeakError → HarnessError
  | .noFeatures => .other "LeakError"
  | .feature _ _ _ => .other "LeakError"
  | .signalNotPrior _ _ => .other "ReputationLeakError"
  | .outcomeNotObserved _ _ => .other "ReputationLeakError"

/-- The second pass of `Reputation`, behind a resolver. -/
def exactSteps (params : ReactionParams) (riskConfig : Breaker.RiskConfig)
    (resolveOutcome : CodePoints → PyDecimal → List MomentumForwardObservation → ℤ → ℤ →
      Except HarnessError ℤ) : ReactionSteps Reputation where
  resolveOutcome := resolveOutcome
  walkForwardReputations resolved :=
    let read := resolved.map ResolvedReaction.read
    (Backtest.walkForwardReputations read (groupBySource read)).mapError leak
  decideEntry signal reputation :=
    ((decideReactionEntry params riskConfig [] signal.read reputation).map
      ReactionDecision.ofExact).mapError leak

variable {params : ReactionParams} {riskConfig : Breaker.RiskConfig}
  {resolveOutcome : CodePoints → PyDecimal → List MomentumForwardObservation → ℤ → ℤ →
    Except HarnessError ℤ} {resolved : List ResolvedReaction}

/-- A haircut of which the context rounds nothing is the exact one. -/
theorem applyEntryLatencyHaircut_exact {settings : ReactionSettings} {price : ℚ}
    (hbps : settings.entryLatencyHaircutBps = params.entryLatencyHaircutBps)
    (hexact : ∀ x ∈ [(params.entryLatencyHaircutBps : ℚ) / 10000,
      1 + (params.entryLatencyHaircutBps : ℚ) / 10000,
      Backtest.applyEntryLatencyHaircut price params], PyDecimal.inContext x = .ok x) :
    applyEntryLatencyHaircut settings (.finite price) =
      .ok (.finite (Backtest.applyEntryLatencyHaircut price params)) := by
  have hfraction := hexact _ List.mem_cons_self
  have hfactor := hexact _ (List.mem_cons_of_mem _ List.mem_cons_self)
  have hprice := hexact _ (List.mem_cons_of_mem _ (List.mem_cons_of_mem _ List.mem_cons_self))
  unfold applyEntryLatencyHaircut
  dsimp only
  rw [hbps, bind_of_ok hfraction, bind_of_ok hfactor]
  exact bind_of_ok hprice

/-- The order of the harness is that of the mints as strings. -/
theorem sortKey_le_iff {o r : ResolvedReaction} (ho : ∃ t, o.signal.mint = codePoints t)
    (hr : ∃ t, r.signal.mint = codePoints t) :
    o.sortKey ≤ r.sortKey ↔ o.read.sortKey ≤ r.read.sortKey := by
  obtain ⟨t, ht⟩ := ho
  obtain ⟨t', ht'⟩ := hr
  have hmint : o.signal.mint ≤ r.signal.mint ↔ o.read.signal.mint ≤ r.read.signal.mint := by
    show o.signal.mint ≤ r.signal.mint ↔ stringOf o.signal.mint ≤ stringOf r.signal.mint
    rw [ht, ht', stringOf_codePoints, stringOf_codePoints, codePoints_le_iff]
  unfold ResolvedReaction.sortKey Backtest.ResolvedReaction.sortKey
  simp only [Prod.Lex.toLex_le_toLex]
  rw [hmint]
  rfl

/-- **Both passes take the reactions in one order.** -/
theorem map_read_sortBy (hmints : ∀ r ∈ resolved, ∃ t, r.signal.mint = codePoints t) :
    (sortBy ResolvedReaction.sortKey resolved).map ResolvedReaction.read =
      sortReactions (resolved.map ResolvedReaction.read) :=
  List.map_insertionSort _ _ _ _ fun o ho r hr => sortKey_le_iff (hmints o ho) (hmints r hr)

section Pass

variable (params riskConfig resolveOutcome)

/-- One turn of the second pass, on a reaction with its entry. -/
theorem decideReaction_entry (read : List Backtest.ResolvedReaction) {r : ResolvedReaction}
    (hrisk : 0 < r.solAtRiskLamports) :
    ∃ outcome, decideReaction (exactSteps params riskConfig resolveOutcome)
      (r, entry read r.read) =
        .ok (outcome, .ofExact (decisionOf params riskConfig read r.read)) := by
  have hentry : (exactSteps params riskConfig resolveOutcome).decideEntry r.signal
      (entry read r.read) = .ok (.ofExact (decisionOf params riskConfig read r.read)) := by
    show ((decideReactionEntry params riskConfig [] r.read.signal
      (entry read r.read)).map ReactionDecision.ofExact).mapError leak = _
    rw [decideReactionEntry_entry]
    rfl
  unfold decideReaction
  rw [bind_of_ok hentry, TradeOutcome.new, dif_pos hrisk]
  exact ⟨_, rfl⟩

/-- The turns of the second pass, on reactions with their entries. -/
theorem decideReaction_entries (read : List Backtest.ResolvedReaction)
    (hrisk : ∀ r ∈ resolved, 0 < r.solAtRiskLamports) :
    ∃ decided, (resolved.zip ((resolved.map ResolvedReaction.read).map (entry read))).mapM
        (decideReaction (exactSteps params riskConfig resolveOutcome)) = .ok decided ∧
      decided.map Prod.snd = resolved.map fun r =>
        ReactionDecision.ofExact (decisionOf params riskConfig read r.read) := by
  induction resolved with
  | nil => exact ⟨[], rfl, rfl⟩
  | cons r rows ih =>
      obtain ⟨decided, hdecided, hdecisions⟩ := ih fun o ho => hrisk o (List.mem_cons_of_mem r ho)
      obtain ⟨outcome, hrow⟩ := decideReaction_entry params riskConfig resolveOutcome read
        (hrisk r List.mem_cons_self)
      refine ⟨(outcome, .ofExact (decisionOf params riskConfig read r.read)) :: decided, ?_, ?_⟩
      · rw [List.map_cons, List.map_cons, List.zip_cons_cons, List.mapM_cons, bind_of_ok hrow,
          bind_of_ok hdecided]
        rfl
      · rw [List.map_cons, List.map_cons, hdecisions]

/-- The second pass over reactions in the order of their times. -/
theorem decideReactions_of_sorted
    (hsorted : resolved.Pairwise fun o r =>
      o.signal.signalBlockTimeMs ≤ r.signal.signalBlockTimeMs)
    (hrisk : ∀ r ∈ resolved, 0 < r.solAtRiskLamports) :
    ∃ decided, decideReactions (exactSteps params riskConfig resolveOutcome) resolved =
        .ok decided ∧
      decided.map Prod.snd = resolved.map fun r => ReactionDecision.ofExact
        (decisionOf params riskConfig (resolved.map ResolvedReaction.read) r.read) := by
  have hread : (resolved.map ResolvedReaction.read).Pairwise fun o r =>
      o.signal.signalBlockTimeMs ≤ r.signal.signalBlockTimeMs := List.pairwise_map.2 hsorted
  have hwalk : (exactSteps params riskConfig resolveOutcome).walkForwardReputations resolved =
      .ok ((resolved.map ResolvedReaction.read).map
        (entry (resolved.map ResolvedReaction.read))) := by
    show (Backtest.walkForwardReputations (resolved.map ResolvedReaction.read)
      (groupBySource (resolved.map ResolvedReaction.read))).mapError leak = _
    rw [walk_of_sorted hread]
    rfl
  obtain ⟨decided, hdecided, hdecisions⟩ := decideReaction_entries params riskConfig resolveOutcome
    (resolved.map ResolvedReaction.read) hrisk
  refine ⟨decided, ?_, hdecisions⟩
  unfold decideReactions
  rw [bind_of_ok hwalk, bind_of_ok hdecided, require_bind (by simp)]
  rfl

end Pass

theorem sorted_times (resolved : List ResolvedReaction) :
    (sortBy ResolvedReaction.sortKey resolved).Pairwise fun o r =>
      o.signal.signalBlockTimeMs ≤ r.signal.signalBlockTimeMs := by
  refine (pairwise_sortBy _ _).imp fun {o r} h => ?_
  rcases Prod.Lex.toLex_le_toLex.1 h with h | h
  · exact h.le
  · exact h.1.le

/-- **The harness decides as the exact pass does.**  Over reactions with something at risk whose
mints are strings, the second pass of the harness returns, and its decisions are those of
`Reputation` on what is read of the reactions, in the same order. -/
theorem decideReactions_exact (hmints : ∀ r ∈ resolved, ∃ t, r.signal.mint = codePoints t)
    (hrisk : ∀ r ∈ resolved, 0 < r.solAtRiskLamports) :
    ∃ decided decisions,
      decideReactions (exactSteps params riskConfig resolveOutcome)
          (sortBy ResolvedReaction.sortKey resolved) = .ok decided ∧
      Backtest.decideReactions params riskConfig (resolved.map ResolvedReaction.read) =
        .ok decisions ∧
      decided.map Prod.snd = decisions.map ReactionDecision.ofExact := by
  obtain ⟨decided, hdecided, hdecisions⟩ := decideReactions_of_sorted params riskConfig
    resolveOutcome (sorted_times resolved) fun r hr => hrisk r (mem_sortBy.1 hr)
  refine ⟨decided, _, hdecided, decideReactions_eq params riskConfig _, ?_⟩
  rw [hdecisions, ← map_read_sortBy hmints, List.map_map, List.map_map]
  rfl

section Runs

variable {p : Printer} {settings : ReactionSettings}
  {before after : List (List (CodePoints × Json))} {record : List (CodePoints × Json)}

/-- A resolved reaction risks the cap of a trade. -/
theorem risk_of_resolveOne {κ : Type} {steps : ReactionSteps κ} {r : ResolvedReaction}
    (h : resolveOne p settings steps record = .ok r) :
    r.solAtRiskLamports = settings.perTradeCapLamports := by
  obtain ⟨_, -, h⟩ := ok_of_bind h
  obtain ⟨_, -, h⟩ := ok_of_bind h
  obtain ⟨_, -, h⟩ := ok_of_bind h
  obtain ⟨_, -, h⟩ := ok_of_bind h
  obtain ⟨_, -, h⟩ := ok_of_bind h
  obtain ⟨_, -, h⟩ := ok_of_bind h
  obtain rfl := Except.ok.inj h
  rfl

/-- **The exact second pass never raises**, whatever the records were. -/
theorem secondPass_returns (hcap : 0 < settings.perTradeCapLamports)
    (records : List (List (CodePoints × Json))) :
    ∃ decided, decideReactions (exactSteps params riskConfig resolveOutcome)
      (resolvedReactions p settings (exactSteps params riskConfig resolveOutcome) records) =
        .ok decided := by
  have hrisk : ∀ r ∈ resolvedReactions p settings (exactSteps params riskConfig resolveOutcome)
      records, 0 < r.solAtRiskLamports := by
    intro r hr
    obtain ⟨record, -, hrecord⟩ := List.mem_filterMap.1 (mem_sortBy.1 hr)
    cases hresolved : resolveOne p settings (exactSteps params riskConfig resolveOutcome) record with
    | error e =>
        rw [hresolved] at hrecord
        cases hrecord
    | ok r' =>
        rw [hresolved] at hrecord
        obtain rfl := Option.some.inj hrecord
        rw [risk_of_resolveOne hresolved]
        exact hcap
  obtain ⟨decided, hdecided, -⟩ := decideReactions_of_sorted params riskConfig resolveOutcome
    (sorted_times _) hrisk
  exact ⟨decided, hdecided⟩

/-- **A record that cannot be used** spoils a run over the exact pass only where a record of the run
escapes the first loop. -/
theorem reactionReport_unspoilt_exact_iff (hcap : 0 < settings.perTradeCapLamports)
    (hrecord : Unusable
      (resolveOne p settings (exactSteps params riskConfig resolveOutcome)) record) :
    Unspoilt (reactionReport p settings (exactSteps params riskConfig resolveOutcome))
        before record after ↔
      ∀ row ∈ before ++ record :: after,
        ¬Escapes (resolveOne p settings (exactSteps params riskConfig resolveOutcome))
          reactionCaught row := by
  rw [reactionReport_unspoilt_iff hrecord]
  exact and_iff_left (secondPass_returns hcap _)

end Runs

end Corpus
end Backtest
end AatsSniper

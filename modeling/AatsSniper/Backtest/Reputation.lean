/-
# The walk-forward reputation

`source_reputation`, `_walk_forward_reputations`, `decide_reaction_entry` and the second pass
of `build_reaction_outcomes` of `aats/backtest/reaction_harness.py`, in exact rational
arithmetic.

A reaction may know of a source what its reactions strictly before it have returned
by its own time.  The definition filters all reactions of the source for each decision.
The fast path walks the sorted reactions once and keeps, for each source, a pointer into
its list, a heap of the reactions that have not resolved yet, and a running sum.
`SourceState.Tracks` says what these stand for at a time, `SourceState.tracks_decide` that
one decision brings them forward.
-/

import AatsSniper.Breaker.Config
import AatsSniper.Lib.Heap
import AatsSniper.Lib.Run
import Mathlib.Algebra.BigOperators.Group.List.Basic
import Mathlib.Data.List.TakeWhile
import Mathlib.Data.String.Basic

namespace AatsSniper
namespace Backtest

/-! ### The definition -/

/-- `ReactionSignal`: what the decision reads. -/
structure ReactionSignal where
  mint : String
  sourceId : String
  signalSlot : ℤ
  signalBlockTimeMs : ℤ
  signalPriceSol : ℚ
  deriving DecidableEq

/-- `_ResolvedReaction`. -/
structure ResolvedReaction where
  signal : ReactionSignal
  outcomeResolvedBlockTimeMs : ℤ
  netPnlLamports : ℤ
  solAtRiskLamports : ℤ
  netPnlPerSol : ℚ
  deriving DecidableEq

/-- `ReputationInput`. -/
structure ReputationInput where
  sourceId : String
  signalBlockTimeMs : ℤ
  outcomeResolvedBlockTimeMs : ℤ
  netPnlPerSol : ℚ
  deriving DecidableEq

/-- The input a resolved reaction makes. -/
def ResolvedReaction.input (r : ResolvedReaction) : ReputationInput where
  sourceId := r.signal.sourceId
  signalBlockTimeMs := r.signal.signalBlockTimeMs
  outcomeResolvedBlockTimeMs := r.outcomeResolvedBlockTimeMs
  netPnlPerSol := r.netPnlPerSol

/-- `LeakError` and `ReputationLeakError`, with the numbers their texts print. -/
inductive LeakError
  | noFeatures
  | feature (name : String) (eventBlockTimeMs decisionBlockTimeMs : ℤ)
  | signalNotPrior (signalBlockTimeMs decisionBlockTimeMs : ℤ)
  | outcomeNotObserved (outcomeResolvedBlockTimeMs decisionBlockTimeMs : ℤ)
  deriving DecidableEq

/-- The audit summary; the two paths differ in the tag. -/
def auditSummary (tag : String) (nPrior : ℕ) (decisionBlockTimeMs : ℤ) : String :=
  "REPUTATION AUDIT PASS" ++ tag ++ ": " ++ toString nPrior ++
    " same-source prior outcomes, all strictly prior (signal_block_time < " ++
    toString decisionBlockTimeMs ++ ") and already observed (outcome_resolved <= " ++
    toString decisionBlockTimeMs ++ "). No future outcome informed the decision."

/-- The check on one input. -/
def assertInputPrior (decisionBlockTimeMs : ℤ) (pi : ReputationInput) : Except LeakError Unit := do
  require (pi.signalBlockTimeMs < decisionBlockTimeMs)
    (.signalNotPrior pi.signalBlockTimeMs decisionBlockTimeMs)
  require (pi.outcomeResolvedBlockTimeMs ≤ decisionBlockTimeMs)
    (.outcomeNotObserved pi.outcomeResolvedBlockTimeMs decisionBlockTimeMs)

/-- `assert_reputation_inputs_prior(inputs, decision_block_time_ms)`. -/
def assertReputationInputsPrior (inputs : List ReputationInput) (decisionBlockTimeMs : ℤ) :
    Except LeakError String := do
  inputs.forM (assertInputPrior decisionBlockTimeMs)
  return auditSummary "" inputs.length decisionBlockTimeMs

/-- `(reputation, n_prior, audit_summary)`. -/
structure Reputation where
  reputation : Option ℚ
  nPrior : ℕ
  summary : String
  deriving DecidableEq

/-- `total / Decimal(n_prior)`, where there is a prior. -/
def mean (total : ℚ) (nPrior : ℕ) : Option ℚ := if nPrior = 0 then none else some (total / nPrior)

/-- `source_reputation(prior_inputs, decision_block_time_ms)`. -/
def sourceReputation (priorInputs : List ReputationInput) (decisionBlockTimeMs : ℤ) :
    Except LeakError Reputation := do
  let summary ← assertReputationInputsPrior priorInputs decisionBlockTimeMs
  let total := (priorInputs.map (·.netPnlPerSol)).sum
  return ⟨mean total priorInputs.length, priorInputs.length, summary⟩

/-- A reaction may inform a decision: of its source, strictly before it and resolved by then. -/
def ResolvedReaction.Informs (o r : ResolvedReaction) : Prop :=
  o.signal.sourceId = r.signal.sourceId ∧
    o.signal.signalBlockTimeMs < r.signal.signalBlockTimeMs ∧
    o.outcomeResolvedBlockTimeMs ≤ r.signal.signalBlockTimeMs

instance (o r : ResolvedReaction) : Decidable (o.Informs r) :=
  inferInstanceAs (Decidable (_ ∧ _ ∧ _))

/-- The inputs of the reactions that may inform `r`. -/
def informing (resolved : List ResolvedReaction) (r : ResolvedReaction) : List ReputationInput :=
  (resolved.filter fun o => o.Informs r).map (·.input)

/-! ### The fast path -/

/-- An element of `pending`: its first component is the outcome time of the input. -/
structure PendingInput where
  seq : ℕ
  input : ReputationInput

/-- What the heap compares: `seq` is fresh for each push, so an input never is. -/
def PendingInput.key (p : PendingInput) : ℤ ×ₗ ℕ :=
  toLex (p.input.outcomeResolvedBlockTimeMs, p.seq)

/-- `ptr[src]`, `pending[src]`, `acc_sum[src]` and `acc_count[src]`. -/
structure SourceState where
  ptr : ℕ := 0
  pending : List PendingInput := []
  accSum : ℚ := 0
  accCount : ℕ := 0

/-- (1): push the reactions of `rest` that lie strictly before the decision. -/
def admitPrior (decisionBt : ℤ) : List ResolvedReaction → ℕ → SourceState → ℕ × SourceState
  | [], seq, st => (seq, st)
  | o :: rest, seq, st =>
      if o.signal.signalBlockTimeMs < decisionBt then
        admitPrior decisionBt rest (seq + 1)
          { st with
            ptr := st.ptr + 1
            pending := heapPush PendingInput.key st.pending ⟨seq, o.input⟩ }
      else (seq, st)

/-- (2): pop what has resolved by the decision into the accumulator. -/
def release (decisionBt : ℤ) : List PendingInput → SourceState → Except LeakError SourceState
  | [], st => .ok { st with pending := [] }
  | p :: heap, st =>
      if p.input.outcomeResolvedBlockTimeMs ≤ decisionBt then do
        let _ ← assertReputationInputsPrior [p.input] decisionBt
        release decisionBt heap
          { st with
            accSum := st.accSum + p.input.netPnlPerSol
            accCount := st.accCount + 1 }
      else .ok { st with pending := p :: heap }

/-- The variables of the walk: `seq`, the four dictionaries and `out`. -/
structure Walk where
  seq : ℕ := 0
  sources : String → SourceState := fun _ => {}
  out : List Reputation := []

/-- The tag of the fast path's summary. -/
def accumulatorTag : String := " (walk-forward accumulator)"

/-- One decision of the walk. -/
def Walk.decide (bySource : String → List ResolvedReaction) (w : Walk) (r : ResolvedReaction) :
    Except LeakError Walk := do
  let src := r.signal.sourceId
  let decisionBt := r.signal.signalBlockTimeMs
  let st := w.sources src
  let admitted := admitPrior decisionBt ((bySource src).drop st.ptr) w.seq st
  let st ← release decisionBt admitted.2.pending admitted.2
  return {
    seq := admitted.1
    sources := Function.update w.sources src st
    out := w.out ++ [⟨mean st.accSum st.accCount, st.accCount,
      auditSummary accumulatorTag st.accCount decisionBt⟩] }

/-- `_walk_forward_reputations(resolved, by_source)`. -/
def walkForwardReputations (resolved : List ResolvedReaction)
    (bySource : String → List ResolvedReaction) : Except LeakError (List Reputation) :=
  (runSteps (Walk.decide bySource) {} resolved).map (·.out)

/-! ### The decision -/

/-- `PITFeature`: its value, a float, is not looked at. -/
structure PITFeature where
  name : String
  eventBlockTimeMs : ℤ

/-- `assert_features_leq_decision(features, decision_block_time_ms)`. -/
def assertFeaturesLeqDecision (features : List PITFeature) (decisionBlockTimeMs : ℤ) :
    Except LeakError String := do
  require (features ≠ []) .noFeatures
  features.forM fun f => require (f.eventBlockTimeMs ≤ decisionBlockTimeMs)
    (.feature f.name f.eventBlockTimeMs decisionBlockTimeMs)
  return "LEAK AUDIT PASS: " ++ toString features.length ++
    " decision features, all with event_block_time_ms <= decision block_time (" ++
    toString decisionBlockTimeMs ++ "). No forward datum reached the decision."

/-- `assemble_reaction_features(signal, ...)`. -/
def assembleReactionFeatures (signal : ReactionSignal) (extraFeatures : List PITFeature) :
    List PITFeature :=
  [⟨"signal_price_sol", signal.signalBlockTimeMs⟩, ⟨"signal_size_sol", signal.signalBlockTimeMs⟩,
    ⟨"source_reputation", signal.signalBlockTimeMs⟩] ++ extraFeatures

/-- `ReactionParams`. -/
structure ReactionParams where
  reputationThreshold : ℚ
  minPriorSignals : ℤ
  neutralPriorSelects : Bool
  entryLatencyHaircutBps : ℤ

/-- `apply_entry_latency_haircut(signal_price_sol, params)`. -/
def applyEntryLatencyHaircut (signalPriceSol : ℚ) (params : ReactionParams) : ℚ :=
  signalPriceSol * (1 + params.entryLatencyHaircutBps / 10000)

/-- `ReactionDecision`. -/
structure ReactionDecision where
  modelSelected : Bool
  baselineSelected : Bool
  entryPriceSol : ℚ
  solAtRiskLamports : ℤ
  reputation : Option ℚ
  nPriorSignals : ℕ
  onNeutralPrior : Bool
  reputationGateApplied : Bool
  leakAuditSummary : String
  reputationAuditSummary : String
  deriving DecidableEq

/-- The decision, once the features have passed the audit. -/
def reactionDecision (params : ReactionParams) (riskConfig : Breaker.RiskConfig)
    (signal : ReactionSignal) (rep : Reputation) (leakAuditSummary : String) : ReactionDecision :=
  let onNeutralPrior := decide ((rep.nPrior : ℤ) < params.minPriorSignals)
  let selected :=
    match onNeutralPrior, rep.reputation with
    | false, some reputation => (decide (params.reputationThreshold ≤ reputation), true)
    | _, _ => (params.neutralPriorSelects, false)
  { modelSelected := selected.1
    baselineSelected := true
    entryPriceSol := applyEntryLatencyHaircut signal.signalPriceSol params
    solAtRiskLamports := riskConfig.perTradeCapLamports
    reputation := rep.reputation
    nPriorSignals := rep.nPrior
    onNeutralPrior := onNeutralPrior
    reputationGateApplied := selected.2
    leakAuditSummary := leakAuditSummary
    reputationAuditSummary := rep.summary }

/-- `decide_reaction_entry(signal, ...)`. -/
def decideReactionEntry (params : ReactionParams) (riskConfig : Breaker.RiskConfig)
    (extraFeatures : List PITFeature) (signal : ReactionSignal) (rep : Reputation) :
    Except LeakError ReactionDecision := do
  let summary ← assertFeaturesLeqDecision (assembleReactionFeatures signal extraFeatures)
    signal.signalBlockTimeMs
  return reactionDecision params riskConfig signal rep summary

/-! ### The second pass -/

/-- The order of the reactions: `(signal_block_time_ms, signal_slot, mint)`. -/
def ResolvedReaction.sortKey (r : ResolvedReaction) : ℤ ×ₗ ℤ ×ₗ String :=
  toLex (r.signal.signalBlockTimeMs, toLex (r.signal.signalSlot, r.signal.mint))

/-- `resolved.sort(key=...)`. -/
def sortReactions (resolved : List ResolvedReaction) : List ResolvedReaction :=
  sortBy ResolvedReaction.sortKey resolved

/-- `by_source.setdefault(r.signal.source_id, []).append(r)` for every `r`; a source that is
not in the dictionary is never looked up. -/
def groupBySource (resolved : List ResolvedReaction) : String → List ResolvedReaction :=
  resolved.foldl
    (fun bySource r =>
      Function.update bySource r.signal.sourceId (bySource r.signal.sourceId ++ [r]))
    fun _ => []

/-- The reputations and the decisions of the sorted reactions. -/
def decideReactions (params : ReactionParams) (riskConfig : Breaker.RiskConfig)
    (resolved : List ResolvedReaction) : Except LeakError (List ReactionDecision) := do
  let resolved := sortReactions resolved
  let reputations ← walkForwardReputations resolved (groupBySource resolved)
  (resolved.zip reputations).mapM fun (r, rep) =>
    decideReactionEntry params riskConfig [] r.signal rep

/-! ### The sorted reactions -/

theorem sortReactions_sorted (l : List ResolvedReaction) :
    (sortReactions l).Pairwise fun o r =>
      o.signal.signalBlockTimeMs ≤ r.signal.signalBlockTimeMs := by
  refine (pairwise_sortBy _ _).imp fun {o r} h => ?_
  rcases Prod.Lex.toLex_le_toLex.1 h with h | h
  · exact h.le
  · exact h.1.le

theorem foldl_group (bySource : String → List ResolvedReaction) (l : List ResolvedReaction)
    (src : String) :
    l.foldl
        (fun bySource r =>
          Function.update bySource r.signal.sourceId (bySource r.signal.sourceId ++ [r]))
        bySource src =
      bySource src ++ l.filter fun r => r.signal.sourceId = src := by
  induction l generalizing bySource with
  | nil => simp
  | cons r l ih =>
      rw [List.foldl_cons, ih]
      by_cases h : r.signal.sourceId = src
      · subst h
        simp
      · simp [h, Function.update_of_ne (Ne.symm h)]

/-- The group of a source keeps the order. -/
theorem groupBySource_eq (l : List ResolvedReaction) (src : String) :
    groupBySource l src = l.filter fun r => r.signal.sourceId = src := by
  rw [groupBySource, foldl_group, List.nil_append]

/-! ### One decision -/

variable {d : ℤ} {st : SourceState}

/-- What `admitPrior` does: the front of `rest` before the decision is pushed. -/
theorem admitPrior_spec (d : ℤ) (rest : List ResolvedReaction) (seq : ℕ) (st : SourceState)
    (hordered : st.pending.Pairwise fun a b => a.key ≤ b.key) :
    (admitPrior d rest seq st).2.ptr =
        st.ptr + (rest.takeWhile fun o => o.signal.signalBlockTimeMs < d).length ∧
      (admitPrior d rest seq st).2.accSum = st.accSum ∧
      (admitPrior d rest seq st).2.accCount = st.accCount ∧
      ((admitPrior d rest seq st).2.pending.Pairwise fun a b => a.key ≤ b.key) ∧
      ((admitPrior d rest seq st).2.pending.map (·.input)).Perm
        ((rest.takeWhile fun o => o.signal.signalBlockTimeMs < d).map (·.input) ++
          st.pending.map (·.input)) := by
  induction rest generalizing seq st with
  | nil => exact ⟨rfl, rfl, rfl, hordered, List.Perm.refl _⟩
  | cons o rest ih =>
      unfold admitPrior
      by_cases h : o.signal.signalBlockTimeMs < d
      · rw [if_pos h, List.takeWhile_cons_of_pos (by simpa using h)]
        obtain ⟨hptr, hsum, hcount, hsorted, hperm⟩ :=
          ih (seq + 1) { st with
            ptr := st.ptr + 1
            pending := heapPush PendingInput.key st.pending ⟨seq, o.input⟩ }
            (pairwise_heapPush hordered)
        refine ⟨?_, hsum, hcount, hsorted, hperm.trans ?_⟩
        · rw [hptr, List.length_cons]
          show st.ptr + 1 + _ = _
          omega
        · refine (((heapPush_perm _ _ _).map _).append_left _).trans ?_
          exact List.perm_middle
      · rw [if_neg h, List.takeWhile_cons_of_neg (by simpa using h)]
        exact ⟨rfl, rfl, rfl, hordered, List.Perm.refl _⟩

theorem resolved_le_of_key_le {p q : PendingInput} (h : p.key ≤ q.key) :
    p.input.outcomeResolvedBlockTimeMs ≤ q.input.outcomeResolvedBlockTimeMs := by
  rcases Prod.Lex.toLex_le_toLex.1 h with h | h
  · exact h.le
  · exact h.1.le

/-- The reaction of a pending input has resolved by `d`. -/
def due (d : ℤ) (p : PendingInput) : Bool := decide (p.input.outcomeResolvedBlockTimeMs ≤ d)

/-- Prior and observed inputs pass the audit. -/
theorem assertReputationInputsPrior_eq_ok {inputs : List ReputationInput}
    (h : ∀ pi ∈ inputs, pi.signalBlockTimeMs < d ∧ pi.outcomeResolvedBlockTimeMs ≤ d) :
    assertReputationInputsPrior inputs d = .ok (auditSummary "" inputs.length d) := by
  have hinputs : inputs.forM (assertInputPrior d) = .ok () := by
    refine forM_eq_ok fun pi hpi => ?_
    rw [assertInputPrior, require_bind (h pi hpi).1]
    exact require_eq_ok.2 (h pi hpi).2
  rw [assertReputationInputsPrior, hinputs]
  rfl

/-- What `release` does, where the heap holds prior signals only: it never raises. -/
theorem release_spec (heap : List PendingInput) (st : SourceState)
    (hprior : ∀ p ∈ heap, p.input.signalBlockTimeMs < d) :
    release d heap st = .ok
      { st with
        pending := heap.dropWhile (due d)
        accSum := st.accSum + ((heap.takeWhile (due d)).map (·.input.netPnlPerSol)).sum
        accCount := st.accCount + (heap.takeWhile (due d)).length } := by
  induction heap generalizing st with
  | nil => simp [release]
  | cons p heap ih =>
      unfold release
      by_cases h : p.input.outcomeResolvedBlockTimeMs ≤ d
      · have hdue : due d p = true := decide_eq_true h
        have haudit : ∀ pi ∈ [p.input],
            pi.signalBlockTimeMs < d ∧ pi.outcomeResolvedBlockTimeMs ≤ d := by
          intro pi hpi
          rw [List.mem_singleton.1 hpi]
          exact ⟨hprior p List.mem_cons_self, h⟩
        rw [if_pos h, assertReputationInputsPrior_eq_ok haudit]
        refine (ih _ fun q hq => hprior q (List.mem_cons_of_mem p hq)).trans ?_
        simp [hdue, add_assoc, add_comm]
      · have hdue : due d p = false := decide_eq_false h
        simp [if_neg h, hdue]

/-- What the variables of a source stand for at a time. -/
structure SourceState.Tracks (lst : List ResolvedReaction) (time : ℤ) (st : SourceState) :
    Prop where
  passed : ∀ o ∈ lst.take st.ptr, o.signal.signalBlockTimeMs < time
  ahead : ∀ o ∈ lst.drop st.ptr, time ≤ o.signal.signalBlockTimeMs
  ordered : st.pending.Pairwise fun a b => a.key ≤ b.key
  unresolved : ∀ p ∈ st.pending, time < p.input.outcomeResolvedBlockTimeMs
  observed : ∃ observed : List ReputationInput,
    (observed ++ st.pending.map (·.input)).Perm ((lst.take st.ptr).map (·.input)) ∧
      (∀ pi ∈ observed, pi.outcomeResolvedBlockTimeMs ≤ time) ∧
      st.accSum = (observed.map (·.netPnlPerSol)).sum ∧ st.accCount = observed.length

theorem SourceState.tracks_init {lst : List ResolvedReaction} {time : ℤ}
    (h : ∀ o ∈ lst, time ≤ o.signal.signalBlockTimeMs) : SourceState.Tracks lst time {} where
  passed := by simp
  ahead := by simpa using h
  ordered := List.Pairwise.nil
  unresolved := by simp
  observed := ⟨[], by simp⟩

/-- A list is cut behind the elements that follow a cut and pass a test. -/
theorem take_add_takeWhile {α : Type} (p : α → Bool) (l : List α) (n : ℕ) :
    l.take (n + ((l.drop n).takeWhile p).length) = l.take n ++ (l.drop n).takeWhile p := by
  rw [List.take_add]
  congr 1
  exact (List.prefix_iff_eq_take.1 (List.takeWhile_prefix p)).symm

theorem drop_add_takeWhile {α : Type} (p : α → Bool) (l : List α) (n : ℕ) :
    l.drop (n + ((l.drop n).takeWhile p).length) = (l.drop n).dropWhile p := by
  have hsplit : ((l.drop n).takeWhile p ++ (l.drop n).dropWhile p).drop
      ((l.drop n).takeWhile p).length = (l.drop n).dropWhile p := List.drop_left
  rwa [List.takeWhile_append_dropWhile, List.drop_drop] at hsplit

/-- What is passed at a decision. -/
theorem SourceState.Tracks.passed_decide {lst : List ResolvedReaction} {time : ℤ}
    (h : st.Tracks lst time) (hle : time ≤ d) :
    ∀ o ∈ lst.take st.ptr ++
        (lst.drop st.ptr).takeWhile (fun o => o.signal.signalBlockTimeMs < d),
      o.signal.signalBlockTimeMs < d := by
  intro o ho
  rcases List.mem_append.1 ho with ho | ho
  · exact (h.passed o ho).trans_le hle
  · have hfront := List.mem_takeWhile_imp ho
    exact decide_eq_true_iff.1 hfront

/-- **One decision.**  The variables are brought forward to its time, and no check fires. -/
theorem SourceState.tracks_decide {lst : List ResolvedReaction} {time : ℤ}
    (hsorted : lst.Pairwise fun o r => o.signal.signalBlockTimeMs ≤ r.signal.signalBlockTimeMs)
    (h : st.Tracks lst time) (hle : time ≤ d) (seq : ℕ) :
    ∃ st', release d (admitPrior d (lst.drop st.ptr) seq st).2.pending
        (admitPrior d (lst.drop st.ptr) seq st).2 = .ok st' ∧ st'.Tracks lst d := by
  obtain ⟨hptr, hsum, hcount, hordered, hperm⟩ :=
    admitPrior_spec d (lst.drop st.ptr) seq st h.ordered
  set admitted := (admitPrior d (lst.drop st.ptr) seq st).2
  set front := (lst.drop st.ptr).takeWhile fun o => o.signal.signalBlockTimeMs < d with hfront
  have htake : lst.take (st.ptr + front.length) = lst.take st.ptr ++ front :=
    take_add_takeWhile _ lst st.ptr
  have hpassed : ∀ o ∈ lst.take (st.ptr + front.length), o.signal.signalBlockTimeMs < d := by
    rw [htake]
    exact h.passed_decide hle
  obtain ⟨observed, hobserved, hpast, hsum_eq, hcount_eq⟩ := h.observed
  -- everything pushed so far, popped or not
  have hall : (observed ++ admitted.pending.map (·.input)).Perm
      ((lst.take (st.ptr + front.length)).map (·.input)) := by
    rw [htake, List.map_append]
    refine (hperm.append_left observed).trans ?_
    refine (List.perm_append_comm.append_left observed).trans ?_
    rw [← List.append_assoc]
    exact hobserved.append_right _
  have hprior : ∀ p ∈ admitted.pending, p.input.signalBlockTimeMs < d := by
    intro p hp
    have hmem := hall.subset (List.mem_append_right _ (List.mem_map_of_mem hp))
    obtain ⟨o, ho, heq⟩ := List.mem_map.1 hmem
    rw [← heq]
    exact hpassed o ho
  refine ⟨_, release_spec admitted.pending admitted hprior, ?_, ?_, ?_, ?_, ?_⟩
  · show ∀ o ∈ lst.take admitted.ptr, _
    rwa [hptr]
  · show ∀ o ∈ lst.drop admitted.ptr, _
    rw [hptr, hfront, drop_add_takeWhile]
    intro o ho
    have hnot := not_due_of_mem_dropWhile (hsorted.sublist (List.drop_sublist st.ptr lst))
      (fun o r hor hr => decide_eq_true ((hor.trans_lt (decide_eq_true_iff.1 hr)))) ho
    exact not_lt.1 (decide_eq_false_iff_not.1 hnot)
  · exact hordered.sublist (List.dropWhile_sublist _)
  · intro p hp
    have hnot := not_due_of_mem_dropWhile hordered
      (fun p q hpq hq => decide_eq_true ((resolved_le_of_key_le hpq).trans
        (decide_eq_true_iff.1 hq))) hp
    exact not_le.1 (decide_eq_false_iff_not.1 hnot)
  · refine ⟨observed ++ (admitted.pending.takeWhile (due d)).map (·.input), ?_, ?_, ?_, ?_⟩
    · show List.Perm (_ ++ _) ((lst.take admitted.ptr).map _)
      rw [hptr, List.append_assoc, ← List.map_append, List.takeWhile_append_dropWhile]
      exact hall
    · intro pi hpi
      rcases List.mem_append.1 hpi with hpi | hpi
      · exact (hpast pi hpi).trans hle
      · obtain ⟨p, hp, rfl⟩ := List.mem_map.1 hpi
        have hdue := List.mem_takeWhile_imp hp
        exact decide_eq_true_iff.1 hdue
    · show admitted.accSum + _ = _
      rw [hsum, hsum_eq, List.map_append, List.sum_append, List.map_map]
      rfl
    · show admitted.accCount + _ = _
      rw [hcount, hcount_eq, List.length_append, List.length_map]

/-- What has been passed by a time is what lies before it. -/
theorem SourceState.Tracks.take_eq {lst : List ResolvedReaction} {time : ℤ}
    (h : st.Tracks lst time) :
    lst.take st.ptr = lst.filter fun o => o.signal.signalBlockTimeMs < time := by
  have hfront : (lst.take st.ptr).filter (fun o => o.signal.signalBlockTimeMs < time) =
      lst.take st.ptr :=
    List.filter_eq_self.2 fun o ho => decide_eq_true (h.passed o ho)
  have hrest : (lst.drop st.ptr).filter (fun o => o.signal.signalBlockTimeMs < time) = [] :=
    List.filter_eq_nil_iff.2 fun o ho => by simpa using h.ahead o ho
  conv_rhs => rw [← List.take_append_drop st.ptr lst, List.filter_append, hfront, hrest]
  rw [List.append_nil]

/-- **The accumulator is the definition's sum.** -/
theorem SourceState.Tracks.accumulated {lst : List ResolvedReaction} {time : ℤ}
    (h : st.Tracks lst time) :
    st.accSum = (((lst.filter fun o => o.signal.signalBlockTimeMs < time ∧
        o.outcomeResolvedBlockTimeMs ≤ time).map (·.input)).map (·.netPnlPerSol)).sum ∧
      st.accCount = ((lst.filter fun o => o.signal.signalBlockTimeMs < time ∧
        o.outcomeResolvedBlockTimeMs ≤ time).map (·.input)).length := by
  obtain ⟨observed, hperm, hpast, hsum, hcount⟩ := h.observed
  have hobserved : observed.Perm ((lst.filter fun o => o.signal.signalBlockTimeMs < time ∧
      o.outcomeResolvedBlockTimeMs ≤ time).map (·.input)) := by
    have hfilter := hperm.filter fun pi => decide (pi.outcomeResolvedBlockTimeMs ≤ time)
    have hfront : observed.filter (fun pi => pi.outcomeResolvedBlockTimeMs ≤ time) = observed :=
      List.filter_eq_self.2 fun pi hpi => decide_eq_true (hpast pi hpi)
    have hheap : (st.pending.map (·.input)).filter
        (fun pi => pi.outcomeResolvedBlockTimeMs ≤ time) = [] := by
      refine List.filter_eq_nil_iff.2 fun pi hpi => ?_
      obtain ⟨p, hp, rfl⟩ := List.mem_map.1 hpi
      simpa using h.unresolved p hp
    rw [List.filter_append, hfront, hheap, List.append_nil, h.take_eq, List.filter_map,
      List.filter_filter] at hfilter
    refine hfilter.trans (List.Perm.of_eq (congrArg _ (List.filter_congr fun o _ => ?_)))
    simp [ResolvedReaction.input, and_comm]
  exact ⟨hsum.trans (hobserved.map _).sum_eq, hcount.trans hobserved.length_eq⟩

/-! ### The walk -/

/-- What the walk appends for `r`. -/
def entry (resolved : List ResolvedReaction) (r : ResolvedReaction) : Reputation where
  reputation := mean ((informing resolved r).map (·.netPnlPerSol)).sum (informing resolved r).length
  nPrior := (informing resolved r).length
  summary := auditSummary accumulatorTag (informing resolved r).length r.signal.signalBlockTimeMs

/-- The definition returns what the walk appends, but for the tag of the summary. -/
theorem sourceReputation_informing (resolved : List ResolvedReaction) (r : ResolvedReaction) :
    sourceReputation (informing resolved r) r.signal.signalBlockTimeMs = .ok
      { entry resolved r with
        summary := auditSummary "" (entry resolved r).nPrior r.signal.signalBlockTimeMs } := by
  have haudit : ∀ pi ∈ informing resolved r,
      pi.signalBlockTimeMs < r.signal.signalBlockTimeMs ∧
        pi.outcomeResolvedBlockTimeMs ≤ r.signal.signalBlockTimeMs := by
    intro pi hpi
    obtain ⟨o, ho, rfl⟩ := List.mem_map.1 hpi
    exact (decide_eq_true_iff.1 (List.mem_filter.1 ho).2).2
  rw [sourceReputation, assertReputationInputsPrior_eq_ok haudit]
  rfl

/-- The definition's filter, taken in the source's own list. -/
theorem informing_eq_group (resolved : List ResolvedReaction) (r : ResolvedReaction) :
    informing resolved r =
      ((groupBySource resolved r.signal.sourceId).filter fun o =>
        o.signal.signalBlockTimeMs < r.signal.signalBlockTimeMs ∧
          o.outcomeResolvedBlockTimeMs ≤ r.signal.signalBlockTimeMs).map (·.input) := by
  rw [informing, groupBySource_eq, List.filter_filter]
  refine congrArg _ (List.filter_congr fun o _ => ?_)
  rw [← Bool.decide_and]
  exact decide_eq_decide.2 ⟨fun h => ⟨h.2, h.1⟩, fun h => ⟨h.2, h.1⟩⟩

theorem Walk.decide_spec {resolved : List ResolvedReaction} {w : Walk} {r : ResolvedReaction}
    {time : ℤ}
    (hsorted : resolved.Pairwise fun o r =>
      o.signal.signalBlockTimeMs ≤ r.signal.signalBlockTimeMs)
    (h : (w.sources r.signal.sourceId).Tracks (groupBySource resolved r.signal.sourceId) time)
    (hle : time ≤ r.signal.signalBlockTimeMs) :
    ∃ w' st', w.decide (groupBySource resolved) r = .ok w' ∧
      w'.out = w.out ++ [entry resolved r] ∧
      w'.sources = Function.update w.sources r.signal.sourceId st' ∧
      st'.Tracks (groupBySource resolved r.signal.sourceId) r.signal.signalBlockTimeMs := by
  have hgroup := groupBySource_eq resolved r.signal.sourceId
  obtain ⟨st', hrelease, htracks⟩ :=
    SourceState.tracks_decide (hgroup ▸ hsorted.sublist List.filter_sublist) h hle w.seq
  obtain ⟨hsum, hcount⟩ := htracks.accumulated
  rw [← informing_eq_group] at hsum hcount
  have hdecide : w.decide (groupBySource resolved) r = .ok
      { seq := (admitPrior r.signal.signalBlockTimeMs
          ((groupBySource resolved r.signal.sourceId).drop (w.sources r.signal.sourceId).ptr)
          w.seq (w.sources r.signal.sourceId)).1
        sources := Function.update w.sources r.signal.sourceId st'
        out := w.out ++ [⟨mean st'.accSum st'.accCount, st'.accCount,
          auditSummary accumulatorTag st'.accCount r.signal.signalBlockTimeMs⟩] } := by
    rw [Walk.decide, hrelease]
    rfl
  refine ⟨_, st', hdecide, ?_, rfl, htracks⟩
  rw [hsum, hcount]
  rfl

/-- The sources of the reactions ahead have not been passed. -/
def Walk.Ready (resolved rest : List ResolvedReaction) (w : Walk) : Prop :=
  ∀ src, ∃ time, (w.sources src).Tracks (groupBySource resolved src) time ∧
    ∀ r ∈ rest, r.signal.sourceId = src → time ≤ r.signal.signalBlockTimeMs

theorem Walk.ready_init {resolved : List ResolvedReaction}
    (hsorted : resolved.Pairwise fun o r =>
      o.signal.signalBlockTimeMs ≤ r.signal.signalBlockTimeMs) :
    Walk.Ready resolved resolved {} := by
  intro src
  rcases resolved with _ | ⟨r₀, rest⟩
  · exact ⟨0, SourceState.tracks_init (by simp [groupBySource]), by simp⟩
  have hfirst : ∀ o ∈ r₀ :: rest, r₀.signal.signalBlockTimeMs ≤ o.signal.signalBlockTimeMs := by
    intro o ho
    rcases List.mem_cons.1 ho with rfl | ho
    · exact le_rfl
    · exact (List.pairwise_cons.1 hsorted).1 o ho
  refine ⟨r₀.signal.signalBlockTimeMs, SourceState.tracks_init fun o ho => ?_,
    fun o ho _ => hfirst o ho⟩
  rw [groupBySource_eq] at ho
  exact hfirst o (List.mem_filter.1 ho).1

theorem Walk.ready_decide {resolved rest : List ResolvedReaction} {w w' : Walk}
    {r : ResolvedReaction} {st' : SourceState}
    (hrest : (r :: rest).Pairwise fun o r =>
      o.signal.signalBlockTimeMs ≤ r.signal.signalBlockTimeMs)
    (h : w.Ready resolved (r :: rest))
    (hsources : w'.sources = Function.update w.sources r.signal.sourceId st')
    (htracks : st'.Tracks (groupBySource resolved r.signal.sourceId) r.signal.signalBlockTimeMs) :
    w'.Ready resolved rest := by
  intro src
  by_cases hsrc : src = r.signal.sourceId
  · subst hsrc
    rw [hsources, Function.update_self]
    exact ⟨_, htracks, fun o ho _ => (List.pairwise_cons.1 hrest).1 o ho⟩
  · obtain ⟨time, htime, hahead⟩ := h src
    rw [hsources, Function.update_of_ne hsrc]
    exact ⟨time, htime, fun o ho => hahead o (List.mem_cons_of_mem r ho)⟩

/-- **The walk.** -/
theorem Walk.run_spec {resolved rest : List ResolvedReaction} {w : Walk}
    (hsorted : resolved.Pairwise fun o r =>
      o.signal.signalBlockTimeMs ≤ r.signal.signalBlockTimeMs)
    (hrest : rest.Pairwise fun o r => o.signal.signalBlockTimeMs ≤ r.signal.signalBlockTimeMs)
    (h : w.Ready resolved rest) :
    ∃ w', runSteps (Walk.decide (groupBySource resolved)) w rest = .ok w' ∧
      w'.out = w.out ++ rest.map (entry resolved) := by
  induction rest generalizing w with
  | nil => exact ⟨w, rfl, by simp⟩
  | cons r rest ih =>
      obtain ⟨time, htracks, hahead⟩ := h r.signal.sourceId
      obtain ⟨w₁, st', hdecide, hout, hsources, htracks'⟩ :=
        Walk.decide_spec hsorted htracks (hahead r List.mem_cons_self rfl)
      obtain ⟨w', hrun, hout'⟩ := ih (List.pairwise_cons.1 hrest).2
        (Walk.ready_decide hrest h hsources htracks')
      refine ⟨w', ?_, ?_⟩
      · rw [runSteps, List.foldlM_cons, hdecide]
        exact hrun
      · rw [hout', hout, List.append_assoc]
        rfl

/-- **The fast path returns the entries**, of any reactions in the order of their times. -/
theorem walk_of_sorted {resolved : List ResolvedReaction}
    (hsorted : resolved.Pairwise fun o r =>
      o.signal.signalBlockTimeMs ≤ r.signal.signalBlockTimeMs) :
    walkForwardReputations resolved (groupBySource resolved) =
      .ok (resolved.map (entry resolved)) := by
  obtain ⟨w', hrun, hout⟩ := Walk.run_spec hsorted hsorted (Walk.ready_init hsorted)
  rw [walkForwardReputations, hrun]
  exact congrArg Except.ok hout

theorem walkForwardReputations_eq (l : List ResolvedReaction) :
    walkForwardReputations (sortReactions l) (groupBySource (sortReactions l)) =
      .ok ((sortReactions l).map (entry (sortReactions l))) :=
  walk_of_sorted (sortReactions_sorted l)

/-! ### The decisions -/

/-- Features taken at the signal pass the audit. -/
theorem assertFeatures_signal (signal : ReactionSignal) :
    assertFeaturesLeqDecision (assembleReactionFeatures signal []) signal.signalBlockTimeMs =
      .ok ("LEAK AUDIT PASS: " ++ toString 3 ++
        " decision features, all with event_block_time_ms <= decision block_time (" ++
        toString signal.signalBlockTimeMs ++ "). No forward datum reached the decision.") := by
  have hfeatures : (assembleReactionFeatures signal []).forM (fun f =>
      require (f.eventBlockTimeMs ≤ signal.signalBlockTimeMs)
        (LeakError.feature f.name f.eventBlockTimeMs signal.signalBlockTimeMs)) = .ok () := by
    refine forM_eq_ok fun f hf => require_eq_ok.2 ?_
    have hat : f.eventBlockTimeMs = signal.signalBlockTimeMs := by
      simp only [assembleReactionFeatures, List.append_nil, List.mem_cons, List.not_mem_nil,
        or_false] at hf
      rcases hf with rfl | rfl | rfl <;> rfl
    exact hat.le
  rw [assertFeaturesLeqDecision, require_bind (by simp [assembleReactionFeatures]), hfeatures]
  rfl

/-- The decision on a reaction that has its entry. -/
def decisionOf (params : ReactionParams) (riskConfig : Breaker.RiskConfig)
    (resolved : List ResolvedReaction) (r : ResolvedReaction) : ReactionDecision :=
  reactionDecision params riskConfig r.signal (entry resolved r) <|
    "LEAK AUDIT PASS: " ++ toString 3 ++
      " decision features, all with event_block_time_ms <= decision block_time (" ++
      toString r.signal.signalBlockTimeMs ++ "). No forward datum reached the decision."

/-- Whatever its entry, a reaction is decided. -/
theorem decideReactionEntry_entry (params : ReactionParams) (riskConfig : Breaker.RiskConfig)
    (resolved : List ResolvedReaction) (r : ResolvedReaction) :
    decideReactionEntry params riskConfig [] r.signal (entry resolved r) =
      .ok (decisionOf params riskConfig resolved r) := by
  rw [decideReactionEntry, assertFeatures_signal]
  rfl

theorem decideReactions_eq (params : ReactionParams) (riskConfig : Breaker.RiskConfig)
    (l : List ResolvedReaction) :
    decideReactions params riskConfig l =
      .ok ((sortReactions l).map (decisionOf params riskConfig (sortReactions l))) := by
  have hpass : ∀ rest : List ResolvedReaction,
      (rest.zip (rest.map (entry (sortReactions l)))).mapM
          (fun x => decideReactionEntry params riskConfig [] x.1.signal x.2) =
        .ok (rest.map (decisionOf params riskConfig (sortReactions l))) := by
    intro rest
    induction rest with
    | nil => rfl
    | cons r rest ih =>
        rw [List.map_cons, List.zip_cons_cons, List.mapM_cons, ih, decideReactionEntry_entry]
        rfl
  rw [decideReactions, walkForwardReputations_eq]
  exact hpass (sortReactions l)

/-- Only the inputs and the signal enter an entry, and the inputs in any order. -/
theorem entry_congr {resolved resolved' : List ResolvedReaction} {r r' : ResolvedReaction}
    (hsignal : r'.signal = r.signal)
    (hinforming : (informing resolved' r').Perm (informing resolved r)) :
    entry resolved' r' = entry resolved r := by
  unfold entry
  rw [(hinforming.map _).sum_eq, hinforming.length_eq, hsignal]

/-- **Fast path and definition.**  The walk over the sorted reactions never raises; each of its
entries is the definition's result on the reactions that may inform the decision, but for the
tag in the audit summary; and a decision is determined by its signal and these
reactions, whatever the other records are. -/
theorem walk_forward_reputation (params : ReactionParams) (riskConfig : Breaker.RiskConfig)
    (l : List ResolvedReaction) :
    ∃ reputations decisions,
      walkForwardReputations (sortReactions l) (groupBySource (sortReactions l)) =
        .ok reputations ∧
      List.Forall₂ (fun r rep =>
        sourceReputation (informing (sortReactions l) r) r.signal.signalBlockTimeMs =
            .ok { rep with summary := auditSummary "" rep.nPrior r.signal.signalBlockTimeMs } ∧
          rep.summary = auditSummary " (walk-forward accumulator)" rep.nPrior
            r.signal.signalBlockTimeMs) (sortReactions l) reputations ∧
      decideReactions params riskConfig l = .ok decisions ∧
      decisions.length = l.length ∧
      ∀ l' decisions', decideReactions params riskConfig l' = .ok decisions' →
        ∀ (k k' : ℕ) (r r' : ResolvedReaction),
          (sortReactions l)[k]? = some r → (sortReactions l')[k']? = some r' →
          r'.signal = r.signal →
          (informing (sortReactions l') r').Perm (informing (sortReactions l) r) →
          decisions'[k']? = decisions[k]? := by
  refine ⟨_, _, walkForwardReputations_eq l, ?_, decideReactions_eq params riskConfig l, ?_, ?_⟩
  · rw [List.forall₂_map_right_iff, List.forall₂_same]
    exact fun r _ => ⟨sourceReputation_informing _ r, rfl⟩
  · rw [List.length_map, sortReactions, length_sortBy]
  · intro l' decisions' hdecisions k k' r r' hr hr' hsignal hinforming
    rw [decideReactions_eq] at hdecisions
    obtain rfl := Except.ok.inj hdecisions
    rw [List.getElem?_map, List.getElem?_map, hr, hr']
    unfold decisionOf
    simp only [Option.map_some, entry_congr hsignal hinforming, hsignal]

/-- A first signal. -/
def firstReaction : ResolvedReaction where
  signal := ⟨"m", "s", 1, 1000, 1⟩
  outcomeResolvedBlockTimeMs := 2000
  netPnlLamports := 5
  solAtRiskLamports := 10
  netPnlPerSol := 1 / 2

/-- The entry of a first signal is not the definition's result: the summaries differ. -/
theorem reputation_summary_differs :
    ∃ rep, walkForwardReputations (sortReactions [firstReaction])
        (groupBySource (sortReactions [firstReaction])) = .ok [rep] ∧
      sourceReputation (informing (sortReactions [firstReaction]) firstReaction) 1000 ≠
        .ok rep := by
  refine ⟨⟨none, 0, auditSummary accumulatorTag 0 1000⟩, rfl, fun h => ?_⟩
  have hsummary : auditSummary "" 0 1000 = auditSummary accumulatorTag 0 1000 :=
    congrArg Reputation.summary (Except.ok.inj h)
  exact absurd hsummary (by decide +kernel)

end Backtest
end AatsSniper

/-
# What the reasoner's cache changes

The cache of the router is a memo keyed on the bucket of a call (`DeRiskReasoner.memo`,
`call_refines`): it holds, for each bucket, the verdict of the first call of that bucket
whose backend answered, whichever entry point it came by and whichever mint and text it
was about.  A call of a bucket without such a verdict is answered as by a reasoner that
was never called; a call of any other is answered by that verdict, and so takes the
action a fresh reasoner takes exactly where the two verdicts demand the same of it
(`call_after`, `SameDemand`).  `transparent_iff_sameDemand` says for which backends no history
shows.
-/

import AatsSniper.Lib.Bucket
import AatsSniper.Reasoning.Reasoner

namespace AatsSniper
namespace Reasoning

/-! ### Calls -/

namespace Call

/-- The inputs of the call. -/
def inputs : Call → PromptInputs
  | .adjudicate inputs | .adjudicateWithNews inputs _ | .fastVeto inputs => inputs

/-- The call brings a credible negative event. -/
def badNews : Call → Bool
  | .adjudicateWithNews _ news => news.credibleNegativeEvent
  | .adjudicate _ | .fastVeto _ => false

/-- The verdict the call decides on. -/
def overridden (p : Printer) : Call → LLMRawVerdict → LLMRawVerdict
  | .adjudicateWithNews inputs news, raw => newsOverride p inputs news raw
  | .adjudicate _, raw | .fastVeto _, raw => raw

/-- What the call makes of a routed verdict. -/
def finish (p : Printer) (call : Call) (routed : RoutedVerdict) (promptHash : String) :
    ReasonerOutput :=
  finalizeRouted call.inputs { routed with raw := call.overridden p routed.raw } promptHash

/-- How the call has its verdict routed. -/
def routing (r : LLMRouter) : Call → String → SignalBucketKey → Cache → RoutedVerdict × Cache
  | .adjudicate _ | .adjudicateWithNews _ _ => r.route systemPrompt
  | .fastVeto _ => r.fastPathVeto systemPrompt

/-- The action the call takes on a verdict. -/
def action (p : Printer) (call : Call) (raw : LLMRawVerdict) : ReasoningAction :=
  appliedAction call.inputs.quant call.inputs.sentiment call.inputs.positionIsOpen
    (call.overridden p raw)

end Call

section Calls

variable {d : DeRiskReasoner} {cache : Cache} {call : Call} {routed : RoutedVerdict}
  {hash : String}

theorem call_eq_consult :
    d.call cache call =
      d.consult call.inputs (call.routing d.router) (call.finish d.printer) cache := by
  cases call <;> rfl

theorem action_finish :
    (call.finish d.printer routed hash).verdict.action = call.action d.printer routed.raw := rfl

theorem routeTier_finish :
    (call.finish d.printer routed hash).routeTier = routed.tier := rfl

/-- The intent is made of the action, the mint, the moment and the reason. -/
theorem intent_finish :
    (call.finish d.printer routed hash).intent =
      buildIntent (call.action d.printer routed.raw) call.inputs.decisionSignal.mint
        call.inputs.decisionSignal.eventTime (call.finish d.printer routed hash).verdict.reason :=
  rfl

end Calls

/-! ### The memo -/

namespace DeRiskReasoner

variable (d : DeRiskReasoner)

/-- The verdict the backend of the call answers with, in time where the call has a budget. -/
def fetch (call : Call) : Option LLMRawVerdict :=
  match buildReasonerPrompt d.printer call.inputs with
  | .error _ => none
  | .ok prompt =>
      match call with
      | .fastVeto _ => (d.router.callWithBudget d.router.localBackend systemPrompt prompt).1
      | .adjudicate inputs | .adjudicateWithNews inputs _ =>
          (d.router.callWithRetries (d.router.routeBackend inputs.bucketKey).1 systemPrompt
            prompt).1

/-- The bucket of a call whose inputs are of one moment, and what is fetched for it. -/
def memo : BucketMemo Call String LLMRawVerdict where
  key call :=
    match assertPointInTime call.inputs with
    | .error _ => none
    | .ok _ => some call.inputs.bucketKey.digest
  fetch := d.fetch

/-- The verdict that is there for the call after a history: of the first call of its bucket whose
backend answered. -/
def stored (history : List Call) (call : Call) : Option LLMRawVerdict :=
  (d.memo.key call).bind (d.memo.first history)

/-- The verdict a fresh reasoner decides on. -/
def freshVerdict (call : Call) : LLMRawVerdict :=
  (d.fetch call).getD (conservativeFallbackVerdict "")

end DeRiskReasoner

/-! ### The refinement -/

section Routing

variable {r : LLMRouter} {sys user : String} {key : SignalBucketKey} {cache : Cache}

/-- A routing hits the cache, or stores what it fetched, or falls back. -/
inductive Routed (cache : Cache) (key : SignalBucketKey) (fetched : Option LLMRawVerdict) :
    RoutedVerdict × Cache → Prop
  | hit (routed : RoutedVerdict) (hcache : cache key.digest = some routed.raw)
      (htier : routed.tier = .cache) : Routed cache key fetched (routed, cache)
  | stored (routed : RoutedVerdict) (hcache : cache key.digest = none)
      (hfetched : fetched = some routed.raw) (htier : routed.tier ≠ .cache) :
      Routed cache key fetched (routed, LLMRouter.cacheStore key cache routed.raw)
  | fellBack (why : String) (routed : RoutedVerdict) (hcache : cache key.digest = none)
      (hfetched : fetched = none) (hraw : routed.raw = conservativeFallbackVerdict why)
      (htier : routed.tier ≠ .cache) : Routed cache key fetched (routed, cache)

theorem callWithBudget_cases (r : LLMRouter) (backend : ReasonerBackend) (sys user : String) :
    (∃ v, r.callWithBudget backend sys user = (some v, false, true)) ∨
      ∃ timedOut ok, r.callWithBudget backend sys user = (none, timedOut, ok) := by
  unfold LLMRouter.callWithBudget
  split
  · exact .inr ⟨_, _, rfl⟩
  · split_ifs
    · exact .inr ⟨_, _, rfl⟩
    · exact .inl ⟨_, rfl⟩

theorem callWithRetries_cases (r : LLMRouter) (backend : ReasonerBackend) (sys user : String) :
    (∃ v, r.callWithRetries backend sys user = (some v, true)) ∨
      r.callWithRetries backend sys user = (none, false) := by
  unfold LLMRouter.callWithRetries
  induction (r.maxRetries + 1).toNat with
  | zero => exact .inr rfl
  | succ attempts ih =>
      unfold LLMRouter.callAttempts
      split
      · exact .inl ⟨_, rfl⟩
      · exact ih

theorem routed_fastPathVeto :
    Routed cache key (r.callWithBudget r.localBackend sys user).1
      (r.fastPathVeto sys user key cache) := by
  unfold LLMRouter.fastPathVeto
  cases hcache : cache key.digest with
  | some v => exact .hit _ hcache rfl
  | none =>
      obtain ⟨v, hcall⟩ | ⟨timedOut, ok, hcall⟩ :=
        callWithBudget_cases r r.localBackend sys user
      · rw [hcall]
        exact .stored _ hcache rfl nofun
      · rw [hcall]
        exact .fellBack _ _ hcache rfl rfl nofun

theorem tier_routeBackend_ne : (r.routeBackend key).2 ≠ .cache := by
  unfold LLMRouter.routeBackend
  split
  · split_ifs <;> nofun
  · nofun

theorem routed_route :
    Routed cache key (r.callWithRetries (r.routeBackend key).1 sys user).1
      (r.route sys user key cache) := by
  unfold LLMRouter.route
  cases hcache : cache key.digest with
  | some v => exact .hit _ hcache rfl
  | none =>
      obtain ⟨v, hcall⟩ | hcall := callWithRetries_cases r (r.routeBackend key).1 sys user
      · dsimp only
        rw [hcall]
        exact .stored _ hcache rfl tier_routeBackend_ne
      · dsimp only
        rw [hcall]
        exact .fellBack _ _ hcache rfl rfl nofun

end Routing

section Refinement

variable {d : DeRiskReasoner} {cache : Cache} {call : Call} {k : String}

/-- A call has a bucket where its inputs are of one moment; a prompt is then built and routed. -/
theorem routed_call (cache : Cache) (hkey : d.memo.key call = some k) :
    ∃ routed cache' hash, d.call cache call = (.ok (call.finish d.printer routed hash), cache') ∧
      k = call.inputs.bucketKey.digest ∧
        Routed cache call.inputs.bucketKey (d.fetch call) (routed, cache') := by
  have hmoment : assertPointInTime call.inputs = .ok () ∧
      k = call.inputs.bucketKey.digest := by
    dsimp only [DeRiskReasoner.memo] at hkey
    cases hassert : assertPointInTime call.inputs with
    | error e =>
        rw [hassert] at hkey
        cases hkey
    | ok u =>
        rw [hassert] at hkey
        exact ⟨rfl, (Option.some.inj hkey).symm⟩
  obtain ⟨prompt, hprompt⟩ := buildReasonerPrompt_eq_ok d.printer hmoment.1
  refine ⟨(call.routing d.router prompt call.inputs.bucketKey cache).1,
    (call.routing d.router prompt call.inputs.bucketKey cache).2, promptHash systemPrompt prompt,
    ?_, hmoment.2, ?_⟩
  · rw [call_eq_consult, DeRiskReasoner.consult, hmoment.1]
    dsimp only
    rw [hprompt]
  · rw [DeRiskReasoner.fetch, hprompt]
    cases call with
    | adjudicate inputs => exact routed_route
    | adjudicateWithNews inputs news => exact routed_route
    | fastVeto inputs => exact routed_fastPathVeto

/-- **The call refines the memo**: it decides on the memo's verdict, or on a fallback where there is
none, and leaves the memo's table. -/
theorem call_refines (cache : Cache) (hkey : d.memo.key call = some k) :
    ∃ routed hash why, d.call cache call =
        (.ok (call.finish d.printer routed hash), (d.memo.ask cache call).2) ∧
      routed.raw = (d.memo.ask cache call).1.getD (conservativeFallbackVerdict why) ∧
      (routed.tier = .cache ↔ (cache k).isSome = true) := by
  obtain ⟨routed, cache', hash, hcall, rfl, hrouted⟩ := routed_call cache hkey
  have hfetch : d.memo.fetch call = d.fetch call := rfl
  rw [BucketMemo.ask, hkey, hfetch]
  cases hrouted with
  | hit _ hcache htier => exact ⟨routed, hash, "", by simp [hcall, hcache, htier]⟩
  | stored _ hcache hfetched htier =>
      refine ⟨routed, hash, "", ?_⟩
      rw [hfetched]
      simp [hcall, hcache, htier, LLMRouter.cacheStore]
  | fellBack why _ hcache hfetched hraw htier =>
      refine ⟨routed, hash, why, ?_⟩
      rw [hfetched]
      simp [hcall, hcache, htier, hraw]

/-- A call of two moments raises, and leaves the cache. -/
theorem call_raises (hkey : d.memo.key call = none) :
    ∃ e, ∀ cache, d.call cache call = (.error e, cache) := by
  dsimp only [DeRiskReasoner.memo] at hkey
  cases hassert : assertPointInTime call.inputs with
  | error e =>
      refine ⟨e, fun cache => ?_⟩
      rw [call_eq_consult, DeRiskReasoner.consult, hassert]
  | ok u =>
      rw [hassert] at hkey
      cases hkey

theorem cacheAfter_eq (history : List Call) : d.cacheAfter history = d.memo.after history := by
  unfold DeRiskReasoner.cacheAfter BucketMemo.after
  refine congrArg (fun f => history.foldl f freshCache) (funext fun cache => funext fun call => ?_)
  cases hkey : d.memo.key call with
  | none =>
      obtain ⟨e, hraises⟩ := call_raises hkey
      rw [hraises, BucketMemo.ask, hkey]
  | some k =>
      obtain ⟨routed, hash, why, hcall, -⟩ := call_refines cache hkey
      rw [hcall]

end Refinement

/-! ### Demands -/

/-- Two verdicts demand the same of a call: bad news decide by themselves; else both or neither ask to
get out, where the position is open, and both or neither ask for less risk, where it is not taken
away anyway. -/
def SameDemand (call : Call) (v w : LLMRawVerdict) : Prop :=
  call.badNews = true ∨
    ((call.inputs.positionIsOpen = true → v.exits = w.exits) ∧
      (adverse call.inputs.quant call.inputs.sentiment = true ∨ v.derisks = w.derisks))

instance {call : Call} {v w : LLMRawVerdict} : Decidable (SameDemand call v w) :=
  inferInstanceAs (Decidable (_ ∨ _))

section Demands

variable {p : Printer} {call : Call} {v w : LLMRawVerdict}

theorem derisks_of_exits (h : v.exits = true) : v.derisks = true := by
  unfold LLMRawVerdict.exits at h
  unfold LLMRawVerdict.derisks
  simp only [Bool.or_eq_true, Bool.and_eq_true] at h ⊢
  tauto

theorem overridden_of_badNews (h : call.badNews = true) :
    (call.overridden p v).exits = (v.narrativeFailure || call.inputs.positionIsOpen) ∧
      (call.overridden p v).derisks = true := by
  cases call with
  | adjudicate inputs => cases h
  | fastVeto inputs => cases h
  | adjudicateWithNews inputs news =>
      have hnews : news.credibleNegativeEvent = true := h
      simp [Call.overridden, newsOverride, hnews, LLMRawVerdict.exits, LLMRawVerdict.derisks,
        Call.inputs]

/-- Bad news get out of an open position, and veto an entry. -/
theorem action_of_badNews (h : call.badNews = true) :
    call.action p v = if call.inputs.positionIsOpen then .forceExit else .vetoEntry := by
  obtain ⟨hexits, hderisks⟩ := overridden_of_badNews (p := p) (v := v) h
  rw [Call.action, appliedAction_eq, hexits, hderisks]
  cases call.inputs.positionIsOpen <;> simp

theorem overridden_of_not_badNews (h : call.badNews = false) : call.overridden p v = v := by
  cases call with
  | adjudicate inputs => rfl
  | fastVeto inputs => rfl
  | adjudicateWithNews inputs news =>
      have hnews : news.credibleNegativeEvent = false := h
      simp [Call.overridden, newsOverride, hnews]

/-- **The action is the demand.** -/
theorem action_eq_iff : call.action p v = call.action p w ↔ SameDemand call v w := by
  cases hnews : call.badNews with
  | true => simp [action_of_badNews hnews, SameDemand, hnews]
  | false =>
      have hv : v.exits = true → v.derisks = true := derisks_of_exits
      have hw : w.exits = true → w.derisks = true := derisks_of_exits
      rw [Call.action, Call.action, overridden_of_not_badNews hnews,
        overridden_of_not_badNews hnews, appliedAction_eq, appliedAction_eq, SameDemand, hnews]
      generalize v.exits = ve, w.exits = we, v.derisks = vd, w.derisks = wd at *
      generalize adverse call.inputs.quant call.inputs.sentiment = bad
      cases call.inputs.positionIsOpen <;> cases ve <;> cases we <;> cases vd <;> cases wd <;>
        cases bad <;> simp_all

theorem exits_fallback (why : String) : (conservativeFallbackVerdict why).exits = false := by
  rw [LLMRawVerdict.exits, conservativeFallbackVerdict]
  rfl

theorem derisks_fallback (why : String) : (conservativeFallbackVerdict why).derisks = true := by
  rw [LLMRawVerdict.derisks, conservativeFallbackVerdict]
  rfl

/-- The fallbacks all demand the same. -/
theorem action_fallback (why why' : String) :
    call.action p (conservativeFallbackVerdict why) =
      call.action p (conservativeFallbackVerdict why') := by
  rw [action_eq_iff]
  refine .inr ⟨fun _ => ?_, .inr ?_⟩
  · rw [exits_fallback, exits_fallback]
  · rw [derisks_fallback, derisks_fallback]

end Demands

/-! ### Answers -/

/-- The intent but for the text of its reason. -/
def Intent.withoutReason : Intent → Intent
  | .veto clientIntentId mint _ => .veto clientIntentId mint ""
  | .reduce clientIntentId mint fractionBps _ => .reduce clientIntentId mint fractionBps ""
  | .exit clientIntentId mint fractionBps exitMode _ =>
      .exit clientIntentId mint fractionBps exitMode ""

theorem buildIntent_withoutReason_iff {action action' : ReasoningAction} {mint : String}
    {et : Models.EventTime} {reason reason' : String} :
    (buildIntent action mint et reason).map Intent.withoutReason =
      (buildIntent action' mint et reason').map Intent.withoutReason ↔ action = action' := by
  cases action <;> cases action' <;> simp [buildIntent, Intent.withoutReason]

section Answers

variable {d : DeRiskReasoner} {call : Call} {k : String}

/-- A routing reads the cache at its key. -/
theorem routing_congr {r : LLMRouter} {user : String} {key : SignalBucketKey} {cache cache' : Cache}
    (h : cache key.digest = cache' key.digest) :
    (call.routing r user key cache).1 = (call.routing r user key cache').1 := by
  have hroute : (r.route systemPrompt user key cache).1 =
      (r.route systemPrompt user key cache').1 := by
    unfold LLMRouter.route
    rw [h]
    cases cache' key.digest with
    | some v => rfl
    | none =>
        dsimp only
        split <;> rfl
  have hfast : (r.fastPathVeto systemPrompt user key cache).1 =
      (r.fastPathVeto systemPrompt user key cache').1 := by
    unfold LLMRouter.fastPathVeto
    rw [h]
    cases cache' key.digest with
    | some v => rfl
    | none =>
        dsimp only
        split <;> rfl
  cases call with
  | adjudicate inputs => exact hroute
  | adjudicateWithNews inputs news => exact hroute
  | fastVeto inputs => exact hfast

/-- Of the cache, the answer reads the entry of the bucket. -/
theorem call_congr {cache cache' : Cache}
    (h : cache call.inputs.bucketKey.digest = cache' call.inputs.bucketKey.digest) :
    (d.call cache call).1 = (d.call cache' call).1 := by
  rw [call_eq_consult, call_eq_consult, DeRiskReasoner.consult, DeRiskReasoner.consult]
  split
  · rfl
  · dsimp only
    split
    · rfl
    · rw [routing_congr h]

/-- The action on a verdict that may have to be made up. -/
theorem answer_action (cache : Cache) (hkey : d.memo.key call = some k) :
    ∃ answer, (d.call cache call).1 = .ok answer ∧
      answer.verdict.action = call.action d.printer
        ((d.memo.ask cache call).1.getD (conservativeFallbackVerdict "")) ∧
      answer.intent = buildIntent answer.verdict.action call.inputs.decisionSignal.mint
        call.inputs.decisionSignal.eventTime answer.verdict.reason ∧
      (answer.routeTier = .cache ↔ (cache k).isSome = true) := by
  obtain ⟨routed, hash, why, hcall, hraw, htier⟩ := call_refines cache hkey
  refine ⟨call.finish d.printer routed hash, by rw [hcall], ?_, ?_, ?_⟩
  · rw [action_finish, hraw]
    cases (d.memo.ask cache call).1 with
    | some v => simp only [Option.getD_some]
    | none => exact action_fallback why ""
  · rw [action_finish]
    exact intent_finish
  · rw [routeTier_finish]
    exact htier

theorem key_eq (hkey : d.memo.key call = some k) : k = call.inputs.bucketKey.digest := by
  obtain ⟨_, _, _, -, hk, -⟩ := routed_call freshCache hkey
  exact hk

/-- **The cache is transparent up to the bucket.**  Where no earlier call of the bucket got a verdict,
the answer is that of a reasoner that was never called.  Where one did, the call takes the action its
own inputs give to that verdict, and names the cache as its source; action and intent, but for the
text of the reason, are the fresh ones exactly where the two verdicts demand the same. -/
theorem call_after (d : DeRiskReasoner) (history : List Call) (call : Call) :
    match d.stored history call with
    | none => (d.call (d.cacheAfter history) call).1 = (d.call freshCache call).1
    | some v => ∃ answer fresh : ReasonerOutput,
        (d.call (d.cacheAfter history) call).1 = .ok answer ∧
        (d.call freshCache call).1 = .ok fresh ∧
        answer.routeTier = .cache ∧
        answer.verdict.action = call.action d.printer v ∧
        ((answer.verdict.action = fresh.verdict.action ∧
            answer.intent.map Intent.withoutReason = fresh.intent.map Intent.withoutReason) ↔
          SameDemand call v (d.freshVerdict call)) := by
  cases hkey : d.memo.key call with
  | none =>
      obtain ⟨e, hraises⟩ := call_raises hkey
      simp [DeRiskReasoner.stored, hkey, hraises]
  | some k =>
      have hcache : d.cacheAfter history k = d.memo.first history k := by
        rw [cacheAfter_eq, BucketMemo.after_eq_first]
      simp only [DeRiskReasoner.stored, hkey, Option.bind_some]
      cases hfirst : d.memo.first history k with
      | none =>
          refine call_congr ?_
          rw [← key_eq hkey, hcache, hfirst, freshCache]
      | some v =>
          rw [hfirst] at hcache
          obtain ⟨answer, hanswer, haction, hintent, htier⟩ :=
            answer_action (d.cacheAfter history) hkey
          obtain ⟨fresh, hfresh, hfreshAction, hfreshIntent, -⟩ :=
            answer_action freshCache hkey
          rw [BucketMemo.ask_eq_some hkey hcache] at haction
          rw [BucketMemo.ask_eq_fetch hkey rfl] at hfreshAction
          refine ⟨answer, fresh, hanswer, hfresh, htier.2 (by simp [hcache]), haction, ?_⟩
          rw [hintent, hfreshIntent, buildIntent_withoutReason_iff, and_self, haction,
            hfreshAction]
          exact action_eq_iff

/-- **Which backends keep the cache out of sight** of every history: those whose verdicts for one call
of a bucket demand of every other what its own do. -/
theorem transparent_iff_sameDemand (d : DeRiskReasoner) :
    (∀ history call, ((d.call (d.cacheAfter history) call).1.map fun o => o.verdict.action) =
        (d.call freshCache call).1.map fun o => o.verdict.action) ↔
      ∀ call earlier k v, d.memo.key call = some k → d.memo.key earlier = some k →
        d.fetch earlier = some v → SameDemand call v (d.freshVerdict call) := by
  let obs : Call → Option LLMRawVerdict → ReasoningAction := fun call fetched =>
    call.action d.printer (fetched.getD (conservativeFallbackVerdict ""))
  have hobs : ∀ call earlier k v, d.memo.key call = some k → d.memo.key earlier = some k →
      d.fetch earlier = some v →
        (obs call (some v) = obs call (d.memo.fetch call) ↔
          SameDemand call v (d.freshVerdict call)) :=
    fun _ _ _ _ _ _ _ => action_eq_iff
  have hmemo := BucketMemo.transparent_iff d.memo obs
  have hcall : ∀ history call,
      (((d.call (d.cacheAfter history) call).1.map fun o => o.verdict.action) =
          (d.call freshCache call).1.map fun o => o.verdict.action) ↔
        obs call (d.memo.ask (d.memo.after history) call).1 =
          obs call (d.memo.ask (fun _ => none) call).1 := by
    intro history call
    cases hkey : d.memo.key call with
    | none =>
        obtain ⟨e, hraises⟩ := call_raises hkey
        simp [hraises, BucketMemo.ask, hkey]
    | some k =>
        obtain ⟨answer, hanswer, haction, -⟩ :=
          answer_action (d.cacheAfter history) hkey
        obtain ⟨fresh, hfresh, hfreshAction, -⟩ := answer_action freshCache hkey
        rw [hanswer, hfresh, ← cacheAfter_eq]
        simp only [Except.map, Except.ok.injEq, haction, hfreshAction]
        rfl
  simp only [hcall]
  rw [hmemo]
  constructor
  · exact fun h call earlier k v hk he hv => (hobs call earlier k v hk he hv).1 (h _ _ _ _ hk he hv)
  · exact fun h call earlier k v hk he hv => (hobs call earlier k v hk he hv).2 (h _ _ _ _ hk he hv)

/-- The second call of a bucket, after a first whose backend answered, and the same without. -/
theorem second_call (d : DeRiskReasoner) (first second : Call) {v : LLMRawVerdict}
    (hfirst : d.memo.key first = some k) (hsecond : d.memo.key second = some k)
    (hv : d.fetch first = some v) :
    ((d.call (d.cacheAfter [first]) second).1.map fun o => o.verdict.action) =
        .ok (second.action d.printer v) ∧
      ((d.call freshCache second).1.map fun o => o.verdict.action) =
        .ok (second.action d.printer (d.freshVerdict second)) := by
  have hcache : d.cacheAfter [first] k = some v := by
    rw [cacheAfter_eq, BucketMemo.after_eq_first]
    have hfetch : d.memo.fetch first = some v := hv
    simp [BucketMemo.first, hfirst, hfetch]
  obtain ⟨answer, hanswer, haction, -⟩ := answer_action (d.cacheAfter [first]) hsecond
  obtain ⟨fresh, hfresh, hfreshAction, -⟩ := answer_action freshCache hsecond
  rw [BucketMemo.ask_eq_some hsecond hcache] at haction
  rw [BucketMemo.ask_eq_fetch hsecond rfl] at hfreshAction
  rw [hanswer, hfresh]
  exact ⟨congrArg Except.ok haction, congrArg Except.ok hfreshAction⟩

end Answers

/-! ### Two histories that show -/

theorem half_mem : (0 : ℚ) ≤ 1 / 2 ∧ (1 / 2 : ℚ) ≤ 1 := by norm_num

theorem quarter_mem : (0 : ℚ) ≤ 1 / 4 ∧ (1 / 4 : ℚ) ≤ 1 := by norm_num

theorem sampleBlockTime_pos : 0 < 5000 := by decide

/-- A neutral state with an open position, a middling crowd and no edge. -/
def sampleInputs (mint narrative : String) : PromptInputs where
  decisionSignal :=
    { mint := mint
      eventTime := ⟨100, 5000, 0, sampleBlockTime_pos⟩
      modelVersion := "v1"
      pCalibrated := ⟨1 / 2, half_mem⟩
      uncertainty := ⟨1 / 4, quarter_mem⟩
      baselineP := ⟨1 / 2, half_mem⟩
      surface := "EH-001" }
  mcs :=
    { eventTime := ⟨100, 5000, 0, sampleBlockTime_pos⟩
      conviction := ⟨1 / 2, half_mem⟩
      synchronicity := ⟨1 / 4, quarter_mem⟩
      accountAgeMedianDays := .finite 30
      coordinatedShillFlag := false
      redFlags := []
      postCount := 3
      reasoning := narrative }
  totalCostBps := 100
  expectedEdgeBps := 100
  positionIsOpen := true

/-- What Python prints of the numbers and texts of `sampleInputs`. -/
def samplePrinter : Printer where
  rounded _ x :=
    if x = .finite (1 / 2) then "0.5" else if x = .finite (1 / 4) then "0.25" else "30.0"
  quoted s := "\"" ++ s ++ "\""
  fixed3 _ := "0.000"
  listed _ := "[]"

/-- A verdict that asks for nothing but, where it says so, that the story is dead. -/
def sampleVerdict (narrativeFailure : Bool) : LLMRawVerdict where
  decisionSignal := .hold
  confidence := 1 / 2
  veto := false
  narrativeFailure := narrativeFailure
  rationale := ""
  confidence_mem := half_mem
  rationale_length := by decide

/-- A backend that finds the story dead for the prompts of a kind. -/
def sampleBackend (dead : String → Bool) : ReasonerBackend where
  backendId := "sample"
  reason _ userPrompt _ := (.ok (sampleVerdict (dead userPrompt)), 1)

/-- The reasoner whose local model finds the story of mint `A` dead. -/
def readingReasoner : DeRiskReasoner where
  router :=
    { localBackend := sampleBackend fun prompt =>
        decide (buildReasonerPrompt samplePrinter (sampleInputs "A" "the team is gone") =
          .ok prompt) }
  printer := samplePrinter

/-- The reasoner whose frontier model sees what the local one does not. -/
def escalatingReasoner : DeRiskReasoner where
  router :=
    { localBackend := sampleBackend fun _ => false
      frontierBackend := some (sampleBackend fun _ => true) }
  printer := samplePrinter

/-- The two prompts differ, in the mint and in the narrative. -/
theorem sample_prompts_ne :
    buildReasonerPrompt samplePrinter (sampleInputs "A" "the team is gone") ≠
      buildReasonerPrompt samplePrinter (sampleInputs "B" "all is well") := by
  decide +kernel

theorem fetch_adjudicate {d : DeRiskReasoner} {inputs : PromptInputs} {prompt : String}
    (h : buildReasonerPrompt d.printer inputs = .ok prompt) :
    d.fetch (.adjudicate inputs) = (d.router.callWithRetries
      (d.router.routeBackend inputs.bucketKey).1 systemPrompt prompt).1 := by
  rw [DeRiskReasoner.fetch]
  simp only [Call.inputs, h]

theorem readingReasoner_fetch (mint narrative : String) :
    readingReasoner.fetch (.adjudicate (sampleInputs mint narrative)) =
      some (sampleVerdict (decide
        (buildReasonerPrompt samplePrinter (sampleInputs "A" "the team is gone") =
          buildReasonerPrompt samplePrinter (sampleInputs mint narrative)))) := by
  obtain ⟨prompt, hprompt⟩ := buildReasonerPrompt_eq_ok samplePrinter
    (show assertPointInTime (sampleInputs mint narrative) = .ok () from rfl)
  rw [hprompt, fetch_adjudicate (d := readingReasoner) hprompt]
  rfl

theorem bucketKey_sampleInputs (mint narrative : String) :
    (sampleInputs mint narrative).bucketKey = ⟨.neutral, .elevated, true, 0⟩ := by
  norm_num [PromptInputs.bucketKey, PromptInputs.quant, PromptInputs.sentiment, bucketQuant,
    bucketSentiment, sampleInputs, quantBullishP, quantBearishP, uncertaintyDeriskBand,
    mcsBenignConviction, mcsHighSynchronicity, youngAccounts]

theorem escalatingReasoner_fetch (mint narrative : String) :
    escalatingReasoner.fetch (.adjudicate (sampleInputs mint narrative)) =
      some (sampleVerdict true) := by
  obtain ⟨prompt, hprompt⟩ := buildReasonerPrompt_eq_ok samplePrinter
    (show assertPointInTime (sampleInputs mint narrative) = .ok () from rfl)
  rw [fetch_adjudicate (d := escalatingReasoner) hprompt, bucketKey_sampleInputs]
  rfl

theorem action_sample (p : Printer) (mint narrative : String) (narrativeFailure : Bool) :
    (Call.adjudicate (sampleInputs mint narrative)).action p (sampleVerdict narrativeFailure) =
      if narrativeFailure then .forceExit else .hold := by
  have hkey := bucketKey_sampleInputs mint narrative
  have hquant : (sampleInputs mint narrative).quant = .neutral :=
    congrArg SignalBucketKey.quant hkey
  have hsentiment : (sampleInputs mint narrative).sentiment = .elevated :=
    congrArg SignalBucketKey.sentiment hkey
  rw [Call.action, appliedAction_eq, Call.inputs, hquant, hsentiment]
  cases narrativeFailure <;> rfl

/-- **Two histories that show.**  The verdict about `A` gets `B` out of its position; and the local
model's verdict, kept from the fast path, keeps the frontier model from being asked. -/
theorem cache_shows :
    (((readingReasoner.call
            (readingReasoner.cacheAfter [.adjudicate (sampleInputs "A" "the team is gone")])
            (.adjudicate (sampleInputs "B" "all is well"))).1.map fun o => o.verdict.action) =
          .ok .forceExit ∧
        ((readingReasoner.call freshCache
            (.adjudicate (sampleInputs "B" "all is well"))).1.map fun o => o.verdict.action) =
          .ok .hold) ∧
      ((escalatingReasoner.call
            (escalatingReasoner.cacheAfter [.fastVeto (sampleInputs "A" "the team is gone")])
            (.adjudicate (sampleInputs "A" "the team is gone"))).1.map fun o =>
              o.verdict.action) = .ok .hold ∧
        ((escalatingReasoner.call freshCache
            (.adjudicate (sampleInputs "A" "the team is gone"))).1.map fun o =>
              o.verdict.action) = .ok .forceExit := by
  have hread := second_call readingReasoner (.adjudicate (sampleInputs "A" "the team is gone"))
    (.adjudicate (sampleInputs "B" "all is well")) (v := sampleVerdict true) rfl rfl
    (by rw [readingReasoner_fetch, decide_eq_true rfl])
  have hescalate := second_call escalatingReasoner
    (.fastVeto (sampleInputs "A" "the team is gone"))
    (.adjudicate (sampleInputs "A" "the team is gone")) (v := sampleVerdict false) rfl rfl rfl
  rw [DeRiskReasoner.freshVerdict, readingReasoner_fetch, decide_eq_false sample_prompts_ne]
    at hread
  rw [DeRiskReasoner.freshVerdict, escalatingReasoner_fetch] at hescalate
  simp only [Option.getD_some, action_sample] at hread hescalate
  exact ⟨hread, hescalate⟩

end Reasoning
end AatsSniper

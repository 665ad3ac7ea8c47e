/-
# The de-risk-only reasoner

`DeRiskReasoner` of `aats/reasoning/reasoner.py`: its three entry points, each of which
builds the prompt and the bucket key of its inputs, has a verdict routed, and makes an
action and an intent of it.  What they share of the router is the cache, which each call
takes and leaves.
-/

import AatsSniper.Reasoning.Prompt
import AatsSniper.Reasoning.Router

namespace AatsSniper
namespace Reasoning

open Models (EventTime)

/-- `NewsSignal`. -/
structure NewsSignal where
  credibleNegativeEvent : Bool
  mcsDelta : PyFloat
  headlineDigest : String
  redFlags : List String
  deriving DecidableEq

/-- `VetoIntent`, `ReduceIntent` and `ExitIntent`. -/
inductive Intent
  | veto (clientIntentId mint reason : String)
  | reduce (clientIntentId mint : String) (fractionBps : ℤ) (reason : String)
  | exit (clientIntentId mint : String) (fractionBps : ℤ) (exitMode reason : String)
  deriving DecidableEq

/-- `ReasoningVerdict`. -/
structure ReasoningVerdict where
  mint : String
  eventTime : EventTime
  action : ReasoningAction
  reason : String
  confidence : ℚ
  actionReceivedRaw : String
  riskIncreaseClamped : Bool
  deriving DecidableEq

/-- `ReasonerOutput`. -/
structure ReasonerOutput where
  verdict : ReasoningVerdict
  intent : Option Intent
  routeTier : RouteTier
  backendId : String
  promptHash : String
  cacheHit : Bool
  deriving DecidableEq

/-- `_prompt_hash(system_prompt, user_prompt)`. -/
def promptHash (systemPrompt userPrompt : String) : String :=
  sha256Hexdigest (encode systemPrompt ++ 0 :: encode userPrompt)

/-- `_deterministic_intent_id(mint, event_time, action)`. -/
def deterministicIntentId (mint : String) (et : EventTime) (action : ReasoningAction) : String :=
  let raw := "reason:" ++ mint ++ ":" ++ toString et.slot ++ ":" ++ toString et.blockTimeMs ++
    ":" ++ action.text
  String.ofList ((sha256Hexdigest (encode raw)).toList.take 32)

/-- `str(b)`. -/
def pyBool (b : Bool) : String := if b then "True" else "False"

namespace PromptInputs

variable (inputs : PromptInputs)

/-- The quant bucket of the inputs. -/
def quant : QuantBucket :=
  bucketQuant inputs.decisionSignal.pCalibrated inputs.decisionSignal.uncertainty

/-- The sentiment bucket of the inputs. -/
def sentiment : SentimentRisk :=
  bucketSentiment inputs.mcs.conviction inputs.mcs.synchronicity inputs.mcs.accountAgeMedianDays
    inputs.mcs.coordinatedShillFlag

/-- `_bucket_key(inputs)`. -/
def bucketKey : SignalBucketKey where
  quant := inputs.quant
  sentiment := inputs.sentiment
  positionIsOpen := inputs.positionIsOpen
  netEdgeSign := (inputs.expectedEdgeBps - inputs.totalCostBps).sign

end PromptInputs

/-- `_audit_reason(...)`. -/
def auditReason (raw : LLMRawVerdict) (quant : QuantBucket) (sentiment : SentimentRisk)
    (matrixCell : String) (clamped narrativeFailure : Bool) (routeTier : RouteTier)
    (backendId promptHash : String) : String :=
  "quant=" ++ quant.text ++ " sentiment=" ++ sentiment.text ++ " cell=" ++ matrixCell ++
    " raw_signal=" ++ raw.decisionSignal.text ++ " raw_veto=" ++ pyBool raw.veto ++
    " raw_narrative_failure=" ++ pyBool raw.narrativeFailure ++
    " applied_narrative_failure=" ++ pyBool narrativeFailure ++
    " risk_increase_clamped=" ++ pyBool clamped ++
    " route=" ++ routeTier.text ++ " backend=" ++ backendId ++ " prompt_hash=" ++
    String.ofList (promptHash.toList.take 12) ++
    " | [QUOTED-UNTRUSTED-RATIONALE] " ++ raw.rationale

/-- `_build_intent(...)`. -/
def buildIntent (action : ReasoningAction) (mint : String) (et : EventTime) (reason : String) :
    Option Intent :=
  let clientIntentId := deterministicIntentId mint et action
  match action with
  | .hold => none
  | .vetoEntry => some (.veto clientIntentId mint reason)
  | .reduceSize => some (.reduce clientIntentId mint 5000 reason)
  | .forceExit => some (.exit clientIntentId mint 10000 "secure" reason)

/-- `_finalize(...)`. -/
def finalize (inputs : PromptInputs) (raw : LLMRawVerdict) (routeTier : RouteTier)
    (backendId promptHash : String) (cacheHit : Bool) : ReasonerOutput :=
  let clamp := clampToDeriskAction inputs.quant raw.decisionSignal raw.veto raw.narrativeFailure
    raw.decisionSignal.text inputs.positionIsOpen
  let matrix := evaluateMatrix inputs.quant raw.decisionSignal raw.veto raw.narrativeFailure
    inputs.sentiment inputs.positionIsOpen
  let applied := combineClampAndMatrix clamp.action matrix.floorAction
  let appliedNarrativeFailure := decide (applied = .forceExit ∧
    (raw.narrativeFailure = true ∨ matrix.floorAction = .forceExit))
  let verdict : ReasoningVerdict :=
    { mint := inputs.decisionSignal.mint
      eventTime := inputs.decisionSignal.eventTime
      action := applied
      reason := auditReason raw inputs.quant inputs.sentiment matrix.cell
        clamp.riskIncreaseClamped appliedNarrativeFailure routeTier backendId promptHash
      confidence := raw.confidence
      actionReceivedRaw := clamp.actionReceivedRaw
      riskIncreaseClamped := clamp.riskIncreaseClamped }
  { verdict := verdict
    intent := buildIntent applied inputs.decisionSignal.mint inputs.decisionSignal.eventTime
      verdict.reason
    routeTier := routeTier
    backendId := backendId
    promptHash := promptHash
    cacheHit := cacheHit }

/-- The verdict with the override of `_finalize_with_news_override(...)`. -/
def newsOverride (p : Printer) (inputs : PromptInputs) (news : NewsSignal) (raw : LLMRawVerdict) :
    LLMRawVerdict :=
  if news.credibleNegativeEvent then
    let sanitisedDigest := String.ofList (news.headlineDigest.toList.take 300)
    let newsAudit := "[E7-NEWS-OVERRIDE] credible_negative_event=True mcs_delta=" ++
      p.fixed3 news.mcsDelta ++ " red_flags=" ++ p.listed news.redFlags ++
      " [QUOTED-UNTRUSTED-HEADLINE-DIGEST] " ++ sanitisedDigest
    let overrideRationale := "[news_override] " ++ newsAudit ++
      " | [llm_original_rationale-QUOTED-UNTRUSTED] " ++ raw.rationale
    { decisionSignal := raw.decisionSignal
      confidence := raw.confidence
      veto := raw.veto || true
      narrativeFailure := raw.narrativeFailure || inputs.positionIsOpen
      rationale := boundedRationale overrideRationale
      confidence_mem := raw.confidence_mem
      rationale_length := boundedRationale_length _ }
  else raw

/-- A `DeRiskReasoner`: its router, and how Python prints for it. -/
structure DeRiskReasoner where
  router : LLMRouter
  printer : Printer

/-- What the entry points share: the checks and the prompt, the routing with the cache, and what is
made of the verdict. -/
def DeRiskReasoner.consult (d : DeRiskReasoner) (inputs : PromptInputs)
    (routing : String → SignalBucketKey → Cache → RoutedVerdict × Cache)
    (finish : RoutedVerdict → String → ReasonerOutput) (cache : Cache) :
    Except String ReasonerOutput × Cache :=
  match assertPointInTime inputs with
  | .error e => (.error e, cache)
  | .ok _ =>
      let key := inputs.bucketKey
      match buildReasonerPrompt d.printer inputs with
      | .error e => (.error e, cache)
      | .ok userPrompt =>
          let hash := promptHash systemPrompt userPrompt
          let (routed, cache) := routing userPrompt key cache
          (.ok (finish routed hash), cache)

/-- `_finalize` of a routed verdict. -/
def finalizeRouted (inputs : PromptInputs) (routed : RoutedVerdict) (promptHash : String) :
    ReasonerOutput :=
  finalize inputs routed.raw routed.tier routed.backendId promptHash routed.cacheHit

/-- `adjudicate(...)`. -/
def DeRiskReasoner.adjudicate (d : DeRiskReasoner) (inputs : PromptInputs) (cache : Cache) :
    Except String ReasonerOutput × Cache :=
  d.consult inputs (d.router.route systemPrompt) (finalizeRouted inputs) cache

/-- `adjudicate_with_news(...)`. -/
def DeRiskReasoner.adjudicateWithNews (d : DeRiskReasoner) (inputs : PromptInputs)
    (news : NewsSignal) (cache : Cache) : Except String ReasonerOutput × Cache :=
  d.consult inputs (d.router.route systemPrompt)
    (fun routed => finalizeRouted inputs
      { routed with raw := newsOverride d.printer inputs news routed.raw }) cache

/-- `fast_veto(...)`. -/
def DeRiskReasoner.fastVeto (d : DeRiskReasoner) (inputs : PromptInputs) (cache : Cache) :
    Except String ReasonerOutput × Cache :=
  d.consult inputs (d.router.fastPathVeto systemPrompt) (finalizeRouted inputs) cache

/-- A call of one of the three. -/
inductive Call
  | adjudicate (inputs : PromptInputs)
  | adjudicateWithNews (inputs : PromptInputs) (news : NewsSignal)
  | fastVeto (inputs : PromptInputs)
  deriving DecidableEq

/-- One call. -/
def DeRiskReasoner.call (d : DeRiskReasoner) (cache : Cache) :
    Call → Except String ReasonerOutput × Cache
  | .adjudicate inputs => d.adjudicate inputs cache
  | .adjudicateWithNews inputs news => d.adjudicateWithNews inputs news cache
  | .fastVeto inputs => d.fastVeto inputs cache

/-- The cache of a reasoner that has not been called. -/
def freshCache : Cache := fun _ => none

/-- The cache after a history of calls. -/
def DeRiskReasoner.cacheAfter (d : DeRiskReasoner) (history : List Call) : Cache :=
  history.foldl (fun cache call => (d.call cache call).2) freshCache

end Reasoning
end AatsSniper

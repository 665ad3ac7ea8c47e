/-
# The router of the language models

`LLMRouter` of `aats/reasoning/router.py`: a verdict comes from the cache, from the
local model, or from the frontier model where there is one and the state is ambiguous.
The cache is keyed on the digest of four coarse facts of the state
(`SignalBucketKey`), and the full route and the fast path share it.

A backend is a function of what it is asked: the verdict it returns or that it raises,
and how long it takes.
-/

import AatsSniper.Lib.Bytes
import AatsSniper.Lib.Sha256
import AatsSniper.Reasoning.Schema
import Mathlib.Logic.Function.Basic

namespace AatsSniper
namespace Reasoning

/-- `RouteTier`. -/
inductive RouteTier
  | cache
  | local
  | frontier
  | fastPath
  | fallback
  deriving DecidableEq

/-- `str(tier)`. -/
def RouteTier.text : RouteTier → String
  | .cache => "CACHE"
  | .local => "LOCAL"
  | .frontier => "FRONTIER"
  | .fastPath => "FAST_PATH"
  | .fallback => "FALLBACK"

/-- A `ReasonerBackend`: `reason(system_prompt, user_prompt, temperature)`, and the milliseconds it
takes. -/
structure ReasonerBackend where
  backendId : String
  reason : String → String → ℚ → Except Unit LLMRawVerdict × ℚ

/-- `hashlib.sha256(data).hexdigest()`. -/
def sha256Hexdigest (data : Bytes) : String :=
  String.ofList ((Sha256.digest data).flatMap fun b =>
    [b.toNat / 16, b.toNat % 16].map Nat.digitChar)

/-- `s.encode()`. -/
def encode (s : String) : Bytes := s.toList.flatMap String.utf8EncodeChar

/-- `SignalBucketKey`. -/
structure SignalBucketKey where
  quant : QuantBucket
  sentiment : SentimentRisk
  positionIsOpen : Bool
  netEdgeSign : ℤ
  deriving DecidableEq

/-- `digest()`. -/
def SignalBucketKey.digest (key : SignalBucketKey) : String :=
  let canon := "\x7b\"net_edge_sign\": " ++ toString key.netEdgeSign ++
    ", \"position_is_open\": " ++ (if key.positionIsOpen then "true" else "false") ++
    ", \"quant\": \"" ++ key.quant.text ++ "\", \"sentiment\": \"" ++ key.sentiment.text ++
    "\"\x7d"
  sha256Hexdigest (encode canon)

/-- `should_escalate(key)`. -/
def shouldEscalate (key : SignalBucketKey) : Bool :=
  decide (key.quant = .neutral ∧ key.sentiment = .elevated ∧ key.netEdgeSign = 0)

/-- `conservative_fallback_verdict(reason)`. -/
def conservativeFallbackVerdict (reason : String) : LLMRawVerdict where
  decisionSignal := .sell
  confidence := 1
  veto := true
  narrativeFailure := false
  rationale := boundedRationale ("[fallback] conservative de-risk: " ++ reason)
  confidence_mem := ⟨zero_le_one, le_rfl⟩
  rationale_length := boundedRationale_length _

/-- `RoutedVerdict`. -/
structure RoutedVerdict where
  raw : LLMRawVerdict
  tier : RouteTier
  backendId : String
  cacheHit : Bool
  timedOut : Bool
  deriving DecidableEq

/-- `_cache`, by digest. -/
abbrev Cache := String → Option LLMRawVerdict

/-- `LLMRouter`, but for its cache. -/
structure LLMRouter where
  localBackend : ReasonerBackend
  frontierBackend : Option ReasonerBackend := none
  fastPathBudgetMs : ℚ := 200
  maxRetries : ℤ := 1
  temperature : ℚ := 0

namespace LLMRouter

variable (r : LLMRouter) (backend : ReasonerBackend) (systemPrompt userPrompt : String)
  (key : SignalBucketKey) (cache : Cache)

/-- `cache_store(key, verdict)`. -/
def cacheStore (verdict : LLMRawVerdict) : Cache :=
  Function.update cache key.digest (some verdict)

/-- `_call_with_budget(...)`: the verdict, whether it timed out, whether it is of use. -/
def callWithBudget : Option LLMRawVerdict × Bool × Bool :=
  match backend.reason systemPrompt userPrompt r.temperature with
  | (.error _, _) => (none, false, false)
  | (.ok verdict, elapsedMs) =>
      if elapsedMs > r.fastPathBudgetMs then (none, true, true) else (some verdict, false, true)

/-- The attempts of `_call_with_retries(...)`. -/
def callAttempts : ℕ → Option LLMRawVerdict × Bool
  | 0 => (none, false)
  | attempts + 1 =>
      match (backend.reason systemPrompt userPrompt r.temperature).1 with
      | .ok verdict => (some verdict, true)
      | .error _ => callAttempts attempts

/-- `_call_with_retries(...)`. -/
def callWithRetries : Option LLMRawVerdict × Bool :=
  callAttempts r backend systemPrompt userPrompt (r.maxRetries + 1).toNat

/-- `fast_path_veto(...)`. -/
def fastPathVeto : RoutedVerdict × Cache :=
  match cache key.digest with
  | some cached =>
      ({ raw := cached, tier := .cache, backendId := r.localBackend.backendId, cacheHit := true,
         timedOut := false }, cache)
  | none =>
      match r.callWithBudget r.localBackend systemPrompt userPrompt with
      | (some verdict, false, true) =>
          ({ raw := verdict, tier := .fastPath, backendId := r.localBackend.backendId,
             cacheHit := false, timedOut := false }, cacheStore key cache verdict)
      | (_, timedOut, _) =>
          ({ raw := conservativeFallbackVerdict
               (if timedOut then "fast-path local timeout/error" else "fast-path invalid output")
             tier := .fallback, backendId := r.localBackend.backendId, cacheHit := false,
             timedOut := timedOut }, cache)

/-- The backend `route` asks, and its tier. -/
def routeBackend : ReasonerBackend × RouteTier :=
  match r.frontierBackend with
  | some frontier => if shouldEscalate key then (frontier, .frontier) else (r.localBackend, .local)
  | none => (r.localBackend, .local)

/-- `route(...)`. -/
def route : RoutedVerdict × Cache :=
  match cache key.digest with
  | some cached =>
      ({ raw := cached, tier := .cache, backendId := "cache", cacheHit := true, timedOut := false },
        cache)
  | none =>
      let (backend, tier) := r.routeBackend key
      match r.callWithRetries backend systemPrompt userPrompt with
      | (some verdict, true) =>
          ({ raw := verdict, tier := tier, backendId := backend.backendId, cacheHit := false,
             timedOut := false }, cacheStore key cache verdict)
      | _ =>
          ({ raw := conservativeFallbackVerdict "route: backend error/invalid after retries"
             tier := .fallback, backendId := backend.backendId, cacheHit := false,
             timedOut := false }, cache)

end LLMRouter

end Reasoning
end AatsSniper

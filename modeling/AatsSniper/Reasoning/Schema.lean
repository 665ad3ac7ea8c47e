/-
# The reasoner's vocabulary, its clamp and its matrix

`aats/reasoning/schema.py`, `clamp.py` and `matrix.py`: the raw verdict of a language
model, the buckets the market state is put into, and the two pure functions that turn a
raw verdict into an action that takes risk away or does nothing.

`appliedAction_eq` says what is left of a raw verdict after both: whether it asks to get
out (`exits`) and whether it asks for less risk at all (`derisks`).

A probability is a rational in `[0, 1]`, and the thresholds are the doubles the source's
literals stand for.
-/

import AatsSniper.Lib.PyValue

namespace AatsSniper
namespace Reasoning

/-- `DecisionSignalLabel`. -/
inductive DecisionSignalLabel
  | strongBuy
  | weakBuy
  | hold
  | sell
  | strongSell
  deriving DecidableEq

/-- `str(label)`. -/
def DecisionSignalLabel.text : DecisionSignalLabel → String
  | .strongBuy => "Strong Buy"
  | .weakBuy => "Weak Buy"
  | .hold => "Hold"
  | .sell => "Sell"
  | .strongSell => "Strong Sell"

/-- `signal_risk_rank(label)`. -/
def signalRiskRank : DecisionSignalLabel → ℕ
  | .strongSell => 0
  | .sell => 1
  | .hold => 2
  | .weakBuy => 3
  | .strongBuy => 4

/-- `MAX_RATIONALE`. -/
def maxRationale : ℕ := 2000

/-- `LLMRawVerdict`. -/
structure LLMRawVerdict where
  decisionSignal : DecisionSignalLabel
  confidence : ℚ
  veto : Bool
  narrativeFailure : Bool
  rationale : String
  confidence_mem : 0 ≤ confidence ∧ confidence ≤ 1
  rationale_length : rationale.toList.length ≤ maxRationale
  deriving DecidableEq

/-- `v[:MAX_RATIONALE]`. -/
def boundedRationale (v : String) : String := String.ofList (v.toList.take maxRationale)

theorem boundedRationale_length (v : String) :
    (boundedRationale v).toList.length ≤ maxRationale := by
  simp [boundedRationale]

/-- `QuantBucket`. -/
inductive QuantBucket
  | bearish
  | neutral
  | bullish
  deriving DecidableEq

/-- `str(bucket)`. -/
def QuantBucket.text : QuantBucket → String
  | .bearish => "BEARISH"
  | .neutral => "NEUTRAL"
  | .bullish => "BULLISH"

/-- `SentimentRisk`. -/
inductive SentimentRisk
  | benign
  | elevated
  | manufactured
  deriving DecidableEq

/-- `str(bucket)`. -/
def SentimentRisk.text : SentimentRisk → String
  | .benign => "BENIGN"
  | .elevated => "ELEVATED"
  | .manufactured => "MANUFACTURED"

/-- A validated probability, uncertainty or score. -/
abbrev Probability := {q : ℚ // 0 ≤ q ∧ q ≤ 1}

/-- `QUANT_BULLISH_P`, 0.62. -/
def quantBullishP : ℚ := 5584463537939415 / 2 ^ 53

/-- `QUANT_BEARISH_P`, 0.45. -/
def quantBearishP : ℚ := 8106479329266893 / 2 ^ 54

/-- `UNCERTAINTY_DERISK_BAND`, 0.35. -/
def uncertaintyDeriskBand : ℚ := 3152519739159347 / 2 ^ 53

/-- `bucket_quant(p_calibrated, uncertainty)`. -/
def bucketQuant (pCalibrated uncertainty : Probability) : QuantBucket :=
  if quantBullishP ≤ pCalibrated.1 ∧ uncertainty.1 ≤ uncertaintyDeriskBand then .bullish
  else if quantBullishP ≤ pCalibrated.1 then .neutral
  else if pCalibrated.1 < quantBearishP then .bearish
  else .neutral

/-- `MCS_BENIGN_CONVICTION`, 0.55. -/
def mcsBenignConviction : ℚ := 2476979795053773 / 2 ^ 52

/-- `MCS_HIGH_SYNCHRONICITY`, 0.7. -/
def mcsHighSynchronicity : ℚ := 3152519739159347 / 2 ^ 52

/-- `account_age_median_days <= MCS_YOUNG_ACCOUNTS_DAYS`, which is 14. -/
def youngAccounts : PyFloat → Bool
  | .finite days => decide (days ≤ 14)
  | .infinite negative => negative
  | .nan => false

/-- `bucket_sentiment(...)`. -/
def bucketSentiment (conviction synchronicity : Probability) (accountAgeMedianDays : PyFloat)
    (coordinatedShillFlag : Bool) : SentimentRisk :=
  if coordinatedShillFlag then .manufactured
  else if mcsHighSynchronicity ≤ synchronicity.1 ∧ youngAccounts accountAgeMedianDays then
    .manufactured
  else if mcsHighSynchronicity ≤ synchronicity.1 ∨ youngAccounts accountAgeMedianDays ∨
      conviction.1 < mcsBenignConviction then .elevated
  else .benign

/-- `ReasoningAction`. -/
inductive ReasoningAction
  | hold
  | vetoEntry
  | reduceSize
  | forceExit
  deriving DecidableEq

/-- `str(action)`. -/
def ReasoningAction.text : ReasoningAction → String
  | .hold => "HOLD"
  | .vetoEntry => "VETO_ENTRY"
  | .reduceSize => "REDUCE_SIZE"
  | .forceExit => "FORCE_EXIT"

/-- `derisk_strength(action)`. -/
def deriskStrength : ReasoningAction → ℕ
  | .hold => 0
  | .vetoEntry => 1
  | .reduceSize => 2
  | .forceExit => 3

/-- `_RISK_INCREASE_TOKENS`. -/
def riskIncreaseTokens : List String :=
  ["SIZE_UP", "BUY", "STRONG_BUY", "INCREASE", "INCREASE_SIZE", "ADD", "ADD_SIZE", "WIDEN_STOP",
    "MOVE_STOP", "ADD_LEVERAGE", "LEVERAGE", "OVERRIDE_HARD_STOP", "OVERRIDE_STOP", "DISABLE_STOP",
    "SCALE_IN", "MARTINGALE"]

/-- `classify_raw_is_risk_increase(action_received_raw)`. -/
def classifyRawIsRiskIncrease (actionReceivedRaw : String) : Bool :=
  let stripped := ((actionReceivedRaw.toList.dropWhile Char.isWhitespace).reverse.dropWhile
    Char.isWhitespace).reverse
  let token := stripped.map fun c => if c = ' ' ∨ c = '-' then '_' else c.toUpper
  decide (String.ofList token ∈ riskIncreaseTokens)

/-- `quant_to_action_ceiling(quant)`. -/
def quantToActionCeiling (quant : QuantBucket) : ReasoningAction :=
  if quant = .bearish then .vetoEntry else .hold

/-- `signal in (STRONG_SELL, SELL)`. -/
def DecisionSignalLabel.isSell (signal : DecisionSignalLabel) : Bool :=
  decide (signal = .strongSell ∨ signal = .sell)

/-- `_llm_requested_derisk(...)`. -/
def llmRequestedDerisk (signal : DecisionSignalLabel) (veto narrativeFailure positionIsOpen : Bool) :
    ReasoningAction :=
  if narrativeFailure then if positionIsOpen then .forceExit else .vetoEntry
  else if veto then if positionIsOpen then .reduceSize else .vetoEntry
  else if signal.isSell then if positionIsOpen then .forceExit else .vetoEntry
  else .hold

/-- `ClampResult`. -/
structure ClampResult where
  action : ReasoningAction
  riskIncreaseClamped : Bool
  actionReceivedRaw : String
  deriving DecidableEq

/-- `clamp_to_derisk_action(...)`. -/
def clampToDeriskAction (quant : QuantBucket) (signal : DecisionSignalLabel)
    (veto narrativeFailure : Bool) (actionReceivedRaw : String) (positionIsOpen : Bool) :
    ClampResult :=
  let rawIsRiskIncrease := classifyRawIsRiskIncrease actionReceivedRaw
  let requested := llmRequestedDerisk signal veto narrativeFailure positionIsOpen
  let ceiling := quantToActionCeiling quant
  let applied := if deriskStrength requested ≥ deriskStrength ceiling then requested else ceiling
  { action := applied
    riskIncreaseClamped := rawIsRiskIncrease
    actionReceivedRaw := actionReceivedRaw }

/-- `MatrixDecision`. -/
structure MatrixDecision where
  floorAction : ReasoningAction
  cell : String
  isConflict : Bool
  deriving DecidableEq

/-- `signal in _BULLISH_OR_HOLD`. -/
def DecisionSignalLabel.isBullishOrHold (signal : DecisionSignalLabel) : Bool :=
  decide (signal = .hold ∨ signal = .weakBuy ∨ signal = .strongBuy)

/-- `_llm_is_bearish_or_veto(signal, veto)`. -/
def llmIsBearishOrVeto (signal : DecisionSignalLabel) (veto : Bool) : Bool := veto || signal.isSell

/-- `evaluate_matrix(...)`. -/
def evaluateMatrix (quant : QuantBucket) (signal : DecisionSignalLabel)
    (veto narrativeFailure : Bool) (sentiment : SentimentRisk) (positionIsOpen : Bool) :
    MatrixDecision :=
  let llmDerisk := llmIsBearishOrVeto signal veto
  let floor : ReasoningAction := if positionIsOpen then .reduceSize else .vetoEntry
  if narrativeFailure then
    if positionIsOpen then
      ⟨.forceExit, quant.text ++ "×narrative_failure×" ++ sentiment.text ++ "[open]", true⟩
    else ⟨.vetoEntry, quant.text ++ "×narrative_failure×" ++ sentiment.text, true⟩
  else if quant = .bearish then
    ⟨floor, "BEARISH×" ++ signal.text ++ "×" ++ sentiment.text,
      signal.isBullishOrHold && !llmDerisk &&
        decide (signalRiskRank signal > signalRiskRank .hold)⟩
  else if sentiment = .manufactured then
    ⟨floor, quant.text ++ "×" ++ signal.text ++ "×MANUFACTURED",
      decide (quant = .bullish) || signal.isBullishOrHold⟩
  else if llmDerisk then
    ⟨floor, quant.text ++ "×llm_derisk×" ++ sentiment.text, decide (quant = .bullish)⟩
  else ⟨.hold, quant.text ++ "×" ++ signal.text ++ "×" ++ sentiment.text ++ "[agreement]", false⟩

/-- `combine_clamp_and_matrix(clamp_action, matrix_floor)`. -/
def combineClampAndMatrix (clampAction matrixFloor : ReasoningAction) : ReasoningAction :=
  if deriskStrength clampAction ≥ deriskStrength matrixFloor then clampAction else matrixFloor

/-- The verdict asks to get out of an open position. -/
def LLMRawVerdict.exits (raw : LLMRawVerdict) : Bool :=
  raw.narrativeFailure || (!raw.veto && raw.decisionSignal.isSell)

/-- The verdict asks for less risk. -/
def LLMRawVerdict.derisks (raw : LLMRawVerdict) : Bool :=
  raw.narrativeFailure || raw.veto || raw.decisionSignal.isSell

/-- A state in which risk is taken away whatever the verdict. -/
def adverse (quant : QuantBucket) (sentiment : SentimentRisk) : Bool :=
  decide (quant = .bearish ∨ sentiment = .manufactured)

/-- The action that is applied: the stronger of the clamp's and the matrix's. -/
def appliedAction (quant : QuantBucket) (sentiment : SentimentRisk) (positionIsOpen : Bool)
    (raw : LLMRawVerdict) : ReasoningAction :=
  combineClampAndMatrix
    (clampToDeriskAction quant raw.decisionSignal raw.veto raw.narrativeFailure
      raw.decisionSignal.text positionIsOpen).action
    (evaluateMatrix quant raw.decisionSignal raw.veto raw.narrativeFailure sentiment
      positionIsOpen).floorAction

/-- **The applied action** reads two bits of the verdict. -/
theorem appliedAction_eq (quant : QuantBucket) (sentiment : SentimentRisk) (positionIsOpen : Bool)
    (raw : LLMRawVerdict) :
    appliedAction quant sentiment positionIsOpen raw =
      if positionIsOpen then
        if raw.exits then .forceExit
        else if raw.derisks || adverse quant sentiment then .reduceSize
        else .hold
      else if raw.derisks || adverse quant sentiment then .vetoEntry
      else .hold := by
  obtain ⟨signal, confidence, veto, narrativeFailure, rationale, -, -⟩ := raw
  unfold appliedAction LLMRawVerdict.exits LLMRawVerdict.derisks
  dsimp only
  cases positionIsOpen <;> cases narrativeFailure <;> cases veto <;> cases quant <;>
    cases sentiment <;> cases signal <;> rfl

end Reasoning
end AatsSniper

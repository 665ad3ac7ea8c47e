/-
# Resting orders and the gates of a resting BUY

The order types of `aats/risk/resting_orders.py`, and `GatedEntryFireChain`, the gates a
resting BUY passes when it fires.  A SELL or REDUCE fires straight through; a BUY is
sized and judged at fire time.

The safety gate, the breaker, the cost gate, the denylist and the builder are other
objects with a state of their own: what they answer may change from one order to the
next, so a chain holds the answers given to each order (`Gates`).  Any of them may
raise; only the builder's exception is caught.  Prices are finite decimals.
-/

import AatsSniper.Orders.Sizing

namespace AatsSniper
namespace Orders

open Breaker (RiskConfig)

/-- What the book's operations raise. -/
inductive OrderError
  | negativeBlockTime (value : ℤ)
  | negativeCommitted (value : ℤ)
  | contextMint (supplied order : String)
  | gate (name : String)
  | sizing (e : SizingError)
  | keeper
  deriving DecidableEq

/-- `TriggerDirection`. -/
inductive TriggerDirection
  | atOrBelow
  | atOrAbove
  deriving DecidableEq

/-- `_trigger_met(direction, mark, trigger)`. -/
def triggerMet (direction : TriggerDirection) (mark trigger : ℚ) : Bool :=
  match direction with
  | .atOrBelow => decide (mark ≤ trigger)
  | .atOrAbove => decide (trigger ≤ mark)

/-- The sides of a `RestingSellOrder`. -/
inductive SellSide
  | sell
  | reduce
  deriving DecidableEq

/-- The side's value in lower case. -/
def SellSide.text : SellSide → String
  | .sell => "sell"
  | .reduce => "reduce"

/-- The largest fraction: a REDUCE is a strict partial. -/
def SellSide.maxFractionBps : SellSide → ℤ
  | .sell => 10000
  | .reduce => 9999

/-- `exit_mode`. -/
inductive ExitMode
  | secure
  | fast
  deriving DecidableEq

/-- `RestingSellOrder`. -/
structure RestingSellOrder where
  orderId : String
  mint : String
  side : SellSide
  triggerPrice : ℚ
  triggerDirection : TriggerDirection
  fractionBps : ℤ := 10000
  exitMode : ExitMode := .secure
  reason : String := "resting_sell"
  trigger_pos : 0 < triggerPrice
  fraction_range : 1 ≤ fractionBps ∧ fractionBps ≤ side.maxFractionBps

/-- `RestingBuyOrder`. -/
structure RestingBuyOrder where
  orderId : String
  mint : String
  triggerPrice : ℚ
  triggerDirection : TriggerDirection
  reason : String := "resting_buy"
  scheduledStep : Option ℕ := none
  trigger_pos : 0 < triggerPrice

/-- `RestingOrder`. -/
inductive RestingOrder
  | sell (order : RestingSellOrder)
  | buy (order : RestingBuyOrder)

namespace RestingOrder

/-- `order_id`. -/
def orderId : RestingOrder → String
  | .sell o => o.orderId
  | .buy o => o.orderId

/-- `mint`. -/
def mint : RestingOrder → String
  | .sell o => o.mint
  | .buy o => o.mint

/-- `isinstance(order, RestingSellOrder)`. -/
def sell? : RestingOrder → Option RestingSellOrder
  | .sell o => some o
  | .buy _ => none

end RestingOrder

/-- `RestingSellOrder.is_triggered(mark_price)`. -/
def RestingSellOrder.isTriggered (o : RestingSellOrder) (mark : ℚ) : Bool :=
  triggerMet o.triggerDirection mark o.triggerPrice

/-- `RestingBuyOrder.is_triggered(mark_price)`. -/
def RestingBuyOrder.isTriggered (o : RestingBuyOrder) (mark : ℚ) : Bool :=
  triggerMet o.triggerDirection mark o.triggerPrice

/-- `ExitIntent` and `ReduceIntent`. -/
inductive DeRiskIntent
  | exit (clientIntentId mint : String) (fractionBps : ℤ) (exitMode : ExitMode) (reason : String)
  | reduce (clientIntentId mint : String) (fractionBps : ℤ) (reason : String)
  deriving DecidableEq

/-- `RestingSellOrder.fire(block_time_ms=...)`: the factory refuses no fraction an order may have. -/
def RestingSellOrder.fire (o : RestingSellOrder) (blockTimeMs : ℤ) : DeRiskIntent :=
  let cid := "resting:" ++ o.side.text ++ ":" ++ o.mint ++ ":" ++ o.orderId ++ ":" ++
    toString blockTimeMs
  match o.side with
  | .sell =>
      .exit cid o.mint o.fractionBps o.exitMode ("resting_sell_triggered: " ++ o.reason)
  | .reduce => .reduce cid o.mint o.fractionBps ("resting_reduce_triggered: " ++ o.reason)

/-- `BuyFireContext`, over the inputs of the safety gate, the cost gate and the builder. -/
structure BuyFireContext (S C B : Type) where
  mint : String
  blockTimeMs : ℤ
  safetyInputs : Option S
  pCalibrated : ℚ
  uncertainty : ℚ
  currentAggregateLamports : ℤ
  costStack : Option C
  creator : Option String := none
  entryBuildParams : Option B := none
  time_nonneg : 0 ≤ blockTimeMs
  aggregate_nonneg : 0 ≤ currentAggregateLamports

/-- `BuyFireRejection`. -/
inductive BuyFireRejection
  | denylisted
  | safetyGate
  | breakerTripped
  | zeroSize
  | costGate
  | buildRefused
  | noGateChain
  deriving DecidableEq

/-- `BuyFireResult`: an intent with its size, or a rejection. -/
inductive BuyFireResult (I : Type)
  | fired (mint : String) (intent : I) (sizeLamports : ℤ) (detail : String)
  | rejected (mint : String) (rejection : BuyFireRejection) (detail : String)

/-- What the gates answer while one order is judged.  The denylist's answer is the hit's flag. -/
structure Gates (S C B I : Type) where
  denylist : Option (Option String → String → Option S → ℤ → Except OrderError (Option String))
  safety : S → Except OrderError Bool
  breaker : Except OrderError Bool
  cost : Option C → Except OrderError Bool
  builder : String → ℤ → ℤ → Option C → Option B → Except String (Option I)

/-- `GatedEntryFireChain`, with a `FractionalKellySizer`. -/
structure GatedEntryFireChain (S C B I : Type) where
  config : RiskConfig
  gates : String → Gates S C B I

section Chain

variable {S C B I : Type}

/-- Step 5 of `evaluate_buy`: the builder may refuse by raising or by returning nothing. -/
def build (gates : Gates S C B I) (ctx : BuyFireContext S C B) (sizeLamports : ℤ) :
    BuyFireResult I :=
  match gates.builder ctx.mint sizeLamports ctx.blockTimeMs ctx.costStack ctx.entryBuildParams with
  | .error exc => .rejected ctx.mint .buildRefused ("gated EntryIntent builder refused: " ++ exc)
  | .ok none =>
      .rejected ctx.mint .buildRefused
        "gated EntryIntent builder returned None (slot guard / signer re-validation)"
  | .ok (some intent) =>
      .fired ctx.mint intent sizeLamports
        "resting BUY fired through the FULL entry stack (safety + breaker + sizing caps + cost gate)"

/-- Steps 1 to 5 of `evaluate_buy`, with safety inputs at hand. -/
def judge (config : RiskConfig) (gates : Gates S C B I) (ctx : BuyFireContext S C B) (inputs : S) :
    Except OrderError (BuyFireResult I) := do
  let enabled ← gates.safety inputs
  if enabled = false then
    return .rejected ctx.mint .safetyGate "pre-trade safety gate rejected"
  let allowed ← gates.breaker
  if allowed = false then
    return .rejected ctx.mint .breakerTripped "circuit breaker TRIPPED; entries halted"
  let sizing ← (size config ctx.pCalibrated ctx.uncertainty ctx.currentAggregateLamports
    .none defaultNetOdds).mapError .sizing
  if sizing.sizeLamports ≤ 0 then
    return .rejected ctx.mint .zeroSize ("sizing returned " ++ toString sizing.sizeLamports ++
      " lamports (no edge / aggregate cap exhausted) — no buy")
  let affordable ← gates.cost ctx.costStack
  if affordable = false then
    return .rejected ctx.mint .costGate
      "cost gate rejected: expected edge <= total round-trip cost"
  return build gates ctx sizing.sizeLamports

/-- Step 0 of `evaluate_buy`: no denylist, no hit. -/
def checkDenylist (gates : Gates S C B I) (ctx : BuyFireContext S C B) :
    Except OrderError (Option String) :=
  match gates.denylist with
  | none => .ok none
  | some checkKeys => checkKeys ctx.creator ctx.mint ctx.safetyInputs ctx.blockTimeMs

/-- `evaluate_buy(ctx)`: the denylist first, then nothing without safety inputs. -/
def evaluateBuy (config : RiskConfig) (gates : Gates S C B I) (ctx : BuyFireContext S C B) :
    Except OrderError (BuyFireResult I) := do
  let hit ← checkDenylist gates ctx
  match hit, ctx.safetyInputs with
  | some flag, _ =>
      return .rejected ctx.mint .denylisted ("denylist pre-filter rejected: " ++ flag ++
        " (creator/mint on the scam denylist) — refused before the safety gate")
  | none, none =>
      return .rejected ctx.mint .safetyGate
        ("refuse_by_default: no fresh safety inputs at fire time — a resting BUY " ++
          "cannot be proven safe and is refused (never fires un-gated).")
  | none, some inputs => judge config gates ctx inputs

/-- `RestingBuyOrder.fire(ctx, chain)`. -/
def RestingBuyOrder.fire (o : RestingBuyOrder) (ctx : BuyFireContext S C B)
    (chain : Option (GatedEntryFireChain S C B I)) : Except OrderError (BuyFireResult I) := do
  require (ctx.mint = o.mint) (.contextMint ctx.mint o.mint)
  match chain with
  | none =>
      return .rejected o.mint .noGateChain
        ("refuse_by_default: no entry gate chain wired; a resting BUY may " ++
          "NEVER fire un-gated (safety+breaker+sizing+cost must all pass).")
  | some c => evaluateBuy c.config (c.gates o.orderId) ctx

/-- A BUY that fired was sized, to more than nothing, against the aggregate of its context. -/
theorem judge_fired {config : RiskConfig} {gates : Gates S C B I} {ctx : BuyFireContext S C B}
    {inputs : S} {mint : String} {intent : I} {n : ℤ} {detail : String}
    (h : judge config gates ctx inputs = .ok (.fired mint intent n detail)) :
    ∃ d, size config ctx.pCalibrated ctx.uncertainty ctx.currentAggregateLamports .none
      defaultNetOdds = .ok d ∧ d.sizeLamports = n ∧ 0 < n := by
  unfold judge at h
  obtain ⟨enabled, -, h⟩ := ok_of_bind h
  split_ifs at h
  · cases h
  obtain ⟨allowed, -, h⟩ := ok_of_bind h
  split_ifs at h
  · cases h
  obtain ⟨sizing, hsizing, h⟩ := ok_of_bind h
  split_ifs at h with hzero
  · cases h
  obtain ⟨affordable, -, h⟩ := ok_of_bind h
  split_ifs at h
  · cases h
  cases hsize : size config ctx.pCalibrated ctx.uncertainty ctx.currentAggregateLamports .none
      defaultNetOdds with
  | error e =>
      rw [hsize] at hsizing
      cases hsizing
  | ok d =>
      rw [hsize] at hsizing
      obtain rfl := Except.ok.inj hsizing
      refine ⟨d, rfl, ?_⟩
      have hbuilt := Except.ok.inj h
      unfold build at hbuilt
      split at hbuilt
      · cases hbuilt
      · cases hbuilt
      · cases hbuilt
        exact ⟨rfl, by omega⟩

theorem evaluateBuy_fired {config : RiskConfig} {gates : Gates S C B I}
    {ctx : BuyFireContext S C B} {mint : String} {intent : I} {n : ℤ} {detail : String}
    (h : evaluateBuy config gates ctx = .ok (.fired mint intent n detail)) :
    ∃ d, size config ctx.pCalibrated ctx.uncertainty ctx.currentAggregateLamports .none
      defaultNetOdds = .ok d ∧ d.sizeLamports = n ∧ 0 < n := by
  unfold evaluateBuy at h
  obtain ⟨hit, -, h⟩ := ok_of_bind h
  split at h
  · cases h
  · cases h
  · exact judge_fired h

end Chain

end Orders
end AatsSniper

/-
# The book of resting orders

`RestingOrderBook` of `aats/risk/resting_orders.py` with its durable store and its
off-box keeper: `place`, `place_dca`, `cancel` and `evaluate_tick`.

The store does not raise.  The keeper takes every SELL it is handed, gives it a new
handle and holds it until it is cancelled by that handle; a cancel may raise, and then
the keeper keeps the SELL.  `evaluate_tick` walks the orders of its mint by order id and removes
what fires as it goes, so where it raises half-way it returns its outcome beside the
book it leaves.
-/

import AatsSniper.Lib.Run
import AatsSniper.Lib.Table
import AatsSniper.Orders.Resting
import Mathlib.Data.List.Sort
import Mathlib.Data.String.Basic

namespace AatsSniper
namespace Orders

/-- A SELL live at the keeper. -/
structure KeptSell where
  handle : ℕ
  mint : String
  orderId : String
  triggerPrice : ℚ
  fractionBps : ℤ
  deriving DecidableEq

/-- An `OffBoxSellKeeper`: every handle is given out once. -/
structure OffBoxSellKeeper where
  live : List KeptSell
  nextHandle : ℕ
  fresh : ∀ k ∈ live, k.handle < nextHandle
  distinct : (live.map KeptSell.handle).Nodup

namespace OffBoxSellKeeper

/-- A keeper that holds nothing. -/
def empty : OffBoxSellKeeper := ⟨[], 0, by simp, by simp⟩

/-- `place_resting_sell(mint, order_id, trigger_price, fraction_bps)`. -/
def placeRestingSell (k : OffBoxSellKeeper) (o : RestingSellOrder) : OffBoxSellKeeper where
  live := k.live ++ [⟨k.nextHandle, o.mint, o.orderId, o.triggerPrice, o.fractionBps⟩]
  nextHandle := k.nextHandle + 1
  fresh := by
    intro s hs
    rcases List.mem_append.1 hs with hs | hs
    · exact (k.fresh s hs).trans (Nat.lt_succ_self _)
    · obtain rfl := List.mem_singleton.1 hs
      exact Nat.lt_succ_self _
  distinct := by
    rw [List.map_append, List.nodup_append]
    refine ⟨k.distinct, List.nodup_singleton _, fun a ha b hb => ?_⟩
    obtain ⟨s, hs, rfl⟩ := List.mem_map.1 ha
    obtain rfl := List.mem_singleton.1 hb
    exact (k.fresh s hs).ne

/-- `cancel_resting_sell(mint, venue_order_id)`. -/
def cancelRestingSell (k : OffBoxSellKeeper) (handle : ℕ) : OffBoxSellKeeper where
  live := k.live.filter fun s => decide (s.handle ≠ handle)
  nextHandle := k.nextHandle
  fresh := fun s hs => k.fresh s (List.mem_filter.1 hs).1
  distinct := (List.filter_sublist.map KeptSell.handle).nodup k.distinct

end OffBoxSellKeeper

/-- `RestingOrderBook`, with its store and keeper. -/
structure RestingOrderBook where
  orders : Table RestingOrder.orderId
  store : Table RestingOrder.orderId
  keeper : Option OffBoxSellKeeper
  keeperHandles : String → Option ℕ

namespace RestingOrderBook

/-- `RestingOrderBook(store, off_box_keeper=keeper)`: the orders of the store, no handles. -/
def boot (store : Table RestingOrder.orderId) (keeper : Option OffBoxSellKeeper) :
    RestingOrderBook where
  orders := store
  store := store
  keeper := keeper
  keeperHandles := fun _ => none

/-- `place(order)`. -/
def place (b : RestingOrderBook) (order : RestingOrder) : RestingOrderBook :=
  let placed := { b with orders := b.orders.upsert order, store := b.store.upsert order }
  match order, b.keeper with
  | .sell o, some k =>
      { placed with
        keeper := some (k.placeRestingSell o)
        keeperHandles := Function.update b.keeperHandles o.orderId (some k.nextHandle) }
  | _, _ => placed

/-- `cancel(order_id)`; whether the keeper raises is the caller's to say. -/
def cancel (b : RestingOrderBook) (orderId : String) (raises : Bool) :
    Except OrderError Unit × RestingOrderBook :=
  let removed := { b with orders := b.orders.remove orderId, store := b.store.remove orderId }
  match (b.orders.get? orderId).bind RestingOrder.sell?, b.keeper with
  | some _, some k =>
      let dropped := { removed with keeperHandles := Function.update b.keeperHandles orderId none }
      match b.keeperHandles orderId with
      | some handle =>
          if raises = true then (.error .keeper, dropped)
          else (.ok (), { dropped with keeper := some (k.cancelRestingSell handle) })
      | none => (.ok (), dropped)
  | _, _ => (.ok (), removed)

end RestingOrderBook

/-- `DcaPlan`. -/
structure DcaPlan where
  planId : String
  mint : String
  tranches : ℕ
  stepInterval : ℕ
  firstStep : ℕ := 0
  triggerPrice : Option ℚ := none
  triggerDirection : TriggerDirection := .atOrBelow
  reason : String := "dca_plan"
  tranches_pos : 0 < tranches
  interval_pos : 0 < stepInterval
  trigger_pos : ∀ price, triggerPrice = some price → 0 < price

/-- `buy_order_for_tranche(idx)`. -/
def DcaPlan.buyOrderForTranche (plan : DcaPlan) (idx : ℕ) : RestingBuyOrder where
  orderId := plan.planId ++ ":tranche:" ++ toString idx
  mint := plan.mint
  triggerPrice := plan.triggerPrice.getD 1
  triggerDirection := if plan.triggerPrice.isSome then plan.triggerDirection else .atOrAbove
  reason := plan.reason ++ ":tranche=" ++ toString idx ++ "/" ++ toString plan.tranches
  scheduledStep := some (plan.firstStep + idx * plan.stepInterval)
  trigger_pos := by
    cases h : plan.triggerPrice with
    | none => norm_num
    | some price => exact plan.trigger_pos price h

/-- `place_dca(plan)`. -/
def RestingOrderBook.placeDca (b : RestingOrderBook) (plan : DcaPlan) : RestingOrderBook :=
  ((List.range plan.tranches).map plan.buyOrderForTranche).foldl
    (fun b o => b.place (.buy o)) b

section Tick

variable {S C B I : Type}

/-- `TickFire`. -/
inductive TickFire (I : Type)
  | sell (orderId : String) (side : SellSide) (intent : DeRiskIntent)
  | buy (orderId : String) (result : BuyFireResult I)

variable (S C B I) in
/-- The gate chain, and which cancels the keeper refuses during the tick. -/
structure TickEnv where
  chain : Option (GatedEntryFireChain S C B I)
  cancelRaises : String → Bool

variable (S C B) in
/-- The arguments of `evaluate_tick`. -/
structure TickCall where
  mint : String
  markPrice : ℚ
  blockTimeMs : ℤ
  eventStep : Option ℤ := none
  buyContext : Option (BuyFireContext S C B) := none

variable (I) in
/-- The book, the fires and `committed_this_tick` in the loop. -/
structure TickState where
  book : RestingOrderBook
  fires : List (TickFire I)
  committed : ℤ

/-- `_buy_step_ready(order, event_step)`. -/
def buyStepReady (o : RestingBuyOrder) (eventStep : Option ℤ) : Bool :=
  match o.scheduledStep, eventStep with
  | some scheduled, some step => decide ((scheduled : ℤ) ≤ step)
  | _, _ => true

/-- `_buy_ctx_for(order, supplied, block_time_ms, committed_this_tick)`. -/
def buyCtxFor (o : RestingBuyOrder) (supplied : Option (BuyFireContext S C B)) (blockTimeMs : ℤ)
    (committed : ℤ) : Except OrderError (BuyFireContext S C B) :=
  if hcommitted : 0 ≤ committed then
    if htime : 0 ≤ blockTimeMs then
      match supplied with
      | some ctx =>
          if ctx.mint ≠ o.mint then .error (.contextMint ctx.mint o.mint)
          else
            .ok
              { ctx with
                blockTimeMs := blockTimeMs
                currentAggregateLamports := ctx.currentAggregateLamports + committed
                time_nonneg := htime
                aggregate_nonneg := add_nonneg ctx.aggregate_nonneg hcommitted }
      | none =>
          .ok
            { mint := o.mint
              blockTimeMs := blockTimeMs
              safetyInputs := none
              pCalibrated := 0
              uncertainty := 1
              currentAggregateLamports := committed
              costStack := none
              time_nonneg := htime
              aggregate_nonneg := hcommitted }
    else .error (.negativeBlockTime blockTimeMs)
  else .error (.negativeCommitted committed)

/-- A triggered BUY is put to the gates. -/
def fireBuy (env : TickEnv S C B I) (call : TickCall S C B) (committed : ℤ) (o : RestingBuyOrder) :
    Except OrderError (BuyFireResult I) := do
  let ctx ← buyCtxFor o call.buyContext call.blockTimeMs committed
  o.fire ctx env.chain

/-- The body of the loop of `evaluate_tick`. -/
def tickStep (env : TickEnv S C B I) (call : TickCall S C B) (s : TickState I)
    (order : RestingOrder) : Except OrderError Unit × TickState I :=
  match order with
  | .sell o =>
      if o.isTriggered call.markPrice = true then
        let cancelled := s.book.cancel o.orderId (env.cancelRaises o.orderId)
        (cancelled.1,
          { s with
            book := cancelled.2
            fires := s.fires ++ [.sell o.orderId o.side (o.fire call.blockTimeMs)] })
      else (.ok (), s)
  | .buy o =>
      if (buyStepReady o call.eventStep && o.isTriggered call.markPrice) = true then
        match fireBuy env call s.committed o with
        | .error e => (.error e, s)
        | .ok result =>
            let fired := { s with fires := s.fires ++ [.buy o.orderId result] }
            match result with
            | .fired _ _ sizeLamports _ =>
                let cancelled := s.book.cancel o.orderId (env.cancelRaises o.orderId)
                (cancelled.1,
                  { fired with book := cancelled.2, committed := s.committed + sizeLamports })
            | .rejected _ _ _ => (.ok (), fired)
      else (.ok (), s)

/-- The orders of the tick's mint, sorted by order id. -/
def candidates (b : RestingOrderBook) (mint : String) : List RestingOrder :=
  (b.orders.rows.filter fun o => decide (o.mint = mint)).insertionSort
    fun o o' => o.orderId ≤ o'.orderId

/-- `evaluate_tick(...)`. -/
def evaluateTick (env : TickEnv S C B I) (b : RestingOrderBook) (call : TickCall S C B) :
    Except OrderError (List (TickFire I)) × RestingOrderBook :=
  if call.blockTimeMs < 0 then (.error (.negativeBlockTime call.blockTimeMs), b)
  else
    let looped := runLeaving (tickStep env call) ⟨b, [], 0⟩ (candidates b call.mint)
    (looped.1.map fun _ => looped.2.fires, looped.2.book)

end Tick

end Orders
end AatsSniper

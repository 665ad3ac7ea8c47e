/-
# First-minute microstructure features

`MicrostructureAccumulator` and `build_microstructure_features` of
`aats/features/microstructure.py`: one event after the other is observed, and the state becomes the
features of a launch.

Ratios and scores are floats in the source and rationals here.
-/

import AatsSniper.Lib.Decimal
import AatsSniper.Lib.Sort
import AatsSniper.Lib.Table
import Mathlib.Algebra.BigOperators.Group.Finset.Basic
import Mathlib.Data.Finset.Sort

namespace AatsSniper
namespace Features

/-- `LaunchEvent`, as far as the accumulator reads it. -/
structure LaunchEvent where
  mint : String
  slot : ℕ
  solReserveLamports : ℤ
  tokenReserveBase : ℤ
  creatorWallet : String
  deriving DecidableEq

/-- `HolderSnapshot`. -/
structure HolderSnapshot where
  wallet : String
  tokenAmountBase : ℤ
  slot : ℕ
  isLpVault : Bool := false
  isBurnAddress : Bool := false
  deriving DecidableEq

/-- `SellRecord`. -/
structure SellRecord where
  slot : ℕ
  tokensSoldBase : ℤ
  solReceivedLamports : ℤ
  expectedSolLamports : ℤ

/-- `ClassifiedEvent`: the arguments of `observe`. -/
structure ClassifiedEvent where
  event : LaunchEvent
  isBuy : Bool
  mintAuthorityRenounced : Bool := false
  freezeAuthorityRenounced : Bool := false
  lpLockStatus : String := "unlocked"
  totalSupplyBase : ℤ := 0
  devTokenBalanceBase : ℤ := 0
  holderSnapshot : Option HolderSnapshot := none
  expectedSolLamports : Option ℤ := none
  isPoolCreation : Bool := false
  isBundler : Bool := false
  deriving DecidableEq

/-- The slot of an event. -/
def ClassifiedEvent.slot (e : ClassifiedEvent) : ℕ := e.event.slot

/-- An event as the loop of `build_microstructure_features` passes it on. -/
def ClassifiedEvent.asTrade (e : ClassifiedEvent) : ClassifiedEvent :=
  { e with isPoolCreation := false }

/-- `SNIPER_FIRST_N_SLOTS_DEFAULT`. -/
def sniperFirstNSlotsDefault : ℕ := 3

/-- `MIN_SELL_EVENTS_FOR_TAX`. -/
def minSellEventsForTax : ℕ := 1

/-- What `observe` and `to_features` raise. -/
inductive MicrostructureError
  | beforeCreation (eventSlot creationSlot : ℕ) (mint : String)
  | lookahead (eventSlot : ℕ) (cutoffSlot : ℤ) (mint : String)
  | windowExceedsCutoff (featureName : String) (maxSourceSlot : ℕ) (cutoffSlot : ℤ)
  deriving DecidableEq

/-- `MicrostructureAccumulator`.  A `set` of slots and their buyers stands for the `dict` from a
slot to its buyers. -/
structure MicrostructureAccumulator where
  mint : String
  eventTimeSlot : ℕ
  firstKSlots : ℤ
  lpDepthLamports : ℤ := 0
  lpLockStatus : String := "unlocked"
  poolCreationSlot : ℕ := 0
  mintAuthorityRenounced : Bool := false
  freezeAuthorityRenounced : Bool := false
  devWallet : String := ""
  sameSlotWallets : Table (Prod.fst : String × ℕ → String) := Table.empty
  totalSupplyBase : ℤ := 0
  devTokenBalanceBase : ℤ := 0
  holders : Table HolderSnapshot.wallet := Table.empty
  sniperWallets : Finset String := ∅
  sniperFunders : Table (Prod.fst : String × String → String) := Table.empty
  sellRecords : List SellRecord := []
  buyVolumeLamports : ℤ := 0
  sellVolumeLamports : ℤ := 0
  uniqueBuyersBySlot : Finset (ℕ × String) := ∅
  allUniqueBuyers : Finset String := ∅
  firstTradeSlot : Option ℕ := none
  reserveSamples : List ℤ := []
  maxSourceSlot : ℕ := 0
  eventCount : ℕ := 0

namespace MicrostructureAccumulator

/-- `_cutoff_slot`. -/
def cutoffSlot (acc : MicrostructureAccumulator) : ℤ := acc.eventTimeSlot + acc.firstKSlots

/-- The wallets of the same slot after an event. -/
def bundleWith (acc : MicrostructureAccumulator) (e : ClassifiedEvent) :
    Table (Prod.fst : String × ℕ → String) :=
  let bought :=
    if e.isBuy = true ∧ e.slot = acc.eventTimeSlot then
      acc.sameSlotWallets.upsert (e.event.creatorWallet, e.slot)
    else acc.sameSlotWallets
  if e.isBundler then bought.upsert (e.event.creatorWallet, e.slot) else bought

/-- An early buyer. -/
def isSniper (acc : MicrostructureAccumulator) (e : ClassifiedEvent) : Prop :=
  e.isBuy = true ∧ e.slot ≤ acc.eventTimeSlot + sniperFirstNSlotsDefault

instance (acc : MicrostructureAccumulator) (e : ClassifiedEvent) : Decidable (acc.isSniper e) :=
  inferInstanceAs (Decidable (_ ∧ _))

/-- The record of a sale whose tax can be measured. -/
def sellRecord (e : ClassifiedEvent) : Option SellRecord :=
  match e.expectedSolLamports with
  | none => none
  | some expected =>
      if e.isBuy = false ∧ 0 < expected ∧ 0 < e.event.solReserveLamports then
        some ⟨e.slot, e.event.tokenReserveBase, e.event.solReserveLamports, expected⟩
      else none

/-- `observe`, behind its two guards. -/
def record (acc : MicrostructureAccumulator) (e : ClassifiedEvent) :
    MicrostructureAccumulator where
  mint := acc.mint
  eventTimeSlot := acc.eventTimeSlot
  firstKSlots := acc.firstKSlots
  lpDepthLamports := e.event.solReserveLamports
  lpLockStatus := e.lpLockStatus
  poolCreationSlot := if e.isPoolCreation then e.slot else acc.poolCreationSlot
  devWallet := if e.isPoolCreation then e.event.creatorWallet else acc.devWallet
  mintAuthorityRenounced := e.mintAuthorityRenounced
  freezeAuthorityRenounced := e.freezeAuthorityRenounced
  totalSupplyBase := if 0 < e.totalSupplyBase then e.totalSupplyBase else acc.totalSupplyBase
  devTokenBalanceBase :=
    if 0 < e.devTokenBalanceBase then e.devTokenBalanceBase else acc.devTokenBalanceBase
  sameSlotWallets := acc.bundleWith e
  holders :=
    match e.holderSnapshot with
    | none => acc.holders
    | some snapshot => acc.holders.upsert snapshot
  sniperWallets :=
    if acc.isSniper e then insert e.event.creatorWallet acc.sniperWallets else acc.sniperWallets
  sniperFunders :=
    if acc.isSniper e then acc.sniperFunders.upsert (e.event.creatorWallet, e.event.creatorWallet)
    else acc.sniperFunders
  sellRecords := acc.sellRecords ++ (sellRecord e).toList
  buyVolumeLamports :=
    if e.isPoolCreation = false ∧ e.isBuy = true then
      acc.buyVolumeLamports + e.event.solReserveLamports
    else acc.buyVolumeLamports
  sellVolumeLamports :=
    if e.isPoolCreation = false ∧ e.isBuy = false then
      acc.sellVolumeLamports + e.event.solReserveLamports
    else acc.sellVolumeLamports
  uniqueBuyersBySlot :=
    if e.isBuy then insert (e.slot, e.event.creatorWallet) acc.uniqueBuyersBySlot
    else acc.uniqueBuyersBySlot
  allUniqueBuyers :=
    if e.isBuy then insert e.event.creatorWallet acc.allUniqueBuyers else acc.allUniqueBuyers
  firstTradeSlot :=
    if acc.firstTradeSlot = none ∧ acc.eventTimeSlot < e.slot then some e.slot
    else acc.firstTradeSlot
  reserveSamples := acc.reserveSamples ++ [e.event.solReserveLamports]
  maxSourceSlot := if acc.maxSourceSlot < e.slot then e.slot else acc.maxSourceSlot
  eventCount := acc.eventCount + 1

/-- `observe(event, ...)`. -/
def observe (acc : MicrostructureAccumulator) (e : ClassifiedEvent) :
    Except MicrostructureError MicrostructureAccumulator :=
  if e.slot < acc.eventTimeSlot then .error (.beforeCreation e.slot acc.eventTimeSlot acc.mint)
  else if acc.cutoffSlot < e.slot then .error (.lookahead e.slot acc.cutoffSlot acc.mint)
  else .ok (acc.record e)

end MicrostructureAccumulator

/-- `MicrostructureFeatures`.  The windows of its provenance differ in the name of the feature
alone. -/
structure MicrostructureFeatures where
  lpDepthLamports : ℤ
  lpLockStatus : String
  lpAgeSlots : ℤ
  mintAuthorityRenounced : Bool
  freezeAuthorityRenounced : Bool
  devWalletSupplyPctBps : ℤ
  bundlingDetected : Bool
  bundlerWalletCount : ℕ
  holderConcentrationTop10Bps : ℤ
  holderCount : ℕ
  sniperClusterScore : ℚ
  sniperWalletCount : ℕ
  sniperSupplyShareBps : ℤ
  effectiveSellTaxBps : ℤ
  buyPressureImbalance : Option ℚ
  uniqueBuyerDelta : ℤ
  timeSincePoolCreationSlots : ℤ
  timeSinceFirstTradeSlots : Option ℤ
  sellReserveTrajectory : List ℤ
  windowFeatureNames : List String
  eventTimeSlot : ℕ
  firstKSlots : ℤ
  maxSourceSlot : ℕ
  deriving DecidableEq

/-- `feature_names` of `to_features`. -/
def featureNames : List String :=
  ["lp_depth_lamports", "lp_lock_status", "lp_age_slots", "mint_authority_renounced",
    "freeze_authority_renounced", "dev_wallet_supply_pct_bps", "bundling_detected",
    "bundler_wallet_count", "holder_concentration_top10_bps", "holder_count",
    "sniper_cluster_score", "sniper_wallet_count", "sniper_supply_share_bps",
    "effective_sell_tax_bps", "buy_pressure_imbalance", "unique_buyer_delta",
    "time_since_pool_creation_slots", "time_since_first_trade_slots", "sell_reserve_trajectory"]

/-- A share of a total in basis points, at most 10000. -/
def shareBps (part total : ℤ) : ℤ := min ((part * 10000).fdiv total) 10000

/-- `dev_supply_bps`. -/
def devSupplyBps (totalSupplyBase devTokenBalanceBase : ℤ) : ℤ :=
  if 0 < totalSupplyBase ∧ 0 < devTokenBalanceBase then
    shareBps devTokenBalanceBase totalSupplyBase
  else 0

/-- `active_holders`, from the rows of `_holders`. -/
def activeHolders (rows : List HolderSnapshot) : List HolderSnapshot :=
  rows.filter fun h => !h.isLpVault && !h.isBurnAddress

/-- `concentration_bps`, from the active holders. -/
def concentrationBps (active : List HolderSnapshot) : ℤ :=
  let totalActiveSupply := (active.map HolderSnapshot.tokenAmountBase).sum
  if 0 < totalActiveSupply ∧ active ≠ [] then
    -- a stable sort with `reverse=True` keeps equal rows in their order
    let top10 := (sortBy (fun h => -h.tokenAmountBase) active).take 10
    shareBps (top10.map HolderSnapshot.tokenAmountBase).sum totalActiveSupply
  else 0

/-- `sniper_supply_bps`. -/
def sniperSupplyBps (totalSupplyBase : ℤ) (sniperWallets : Finset String)
    (holders : Table HolderSnapshot.wallet) : ℤ :=
  if 0 < totalSupplyBase ∧ 0 < sniperWallets.card then
    shareBps (∑ w ∈ sniperWallets, ((holders.get? w).map HolderSnapshot.tokenAmountBase).getD 0)
      totalSupplyBase
  else 0

/-- `max_same_funder`: the size of the largest group of early buyers with one funder. -/
def maxSameFunder (funders : List String) : ℕ :=
  (funders.map fun funder => funders.count funder).foldr max 0

/-- `sniper_cluster_score`. -/
def sniperClusterScore (sniperCount totalEarlyTraders maxSame : ℕ) : ℚ :=
  let synchronicity : ℚ := maxSame / max sniperCount 1
  let countFraction : ℚ := sniperCount / max totalEarlyTraders 1
  min 1 (6 / 10 * countFraction + 4 / 10 * synchronicity)

/-- `effective_sell_tax_bps`, from the number of records and their sums. -/
def effectiveSellTaxBps (records : ℕ) (totalExpected totalReceived : ℤ) : ℤ :=
  if minSellEventsForTax ≤ records then
    if 0 < totalExpected then
      let taxFraction : ℚ := 1 - totalReceived / totalExpected
      max 0 (min 10000 (Decimal.halfEven (taxFraction * 10000)))
    else 0
  else 0

/-- `buy_pressure_imbalance`. -/
def buyPressureImbalance (buyVolumeLamports sellVolumeLamports : ℤ) : Option ℚ :=
  let totalVolume := buyVolumeLamports + sellVolumeLamports
  if 0 < totalVolume then some (buyVolumeLamports / totalVolume) else none

/-- The buyers of a slot. -/
def buyersAt (uniqueBuyersBySlot : Finset (ℕ × String)) (slot : ℕ) : Finset (ℕ × String) :=
  uniqueBuyersBySlot.filter fun buyer => buyer.1 = slot

/-- `unique_buyer_delta`. -/
def uniqueBuyerDelta (uniqueBuyersBySlot : Finset (ℕ × String)) (allUniqueBuyers : Finset String) :
    ℤ :=
  let slotKeys := (uniqueBuyersBySlot.image Prod.fst).sort
  match slotKeys.reverse with
  | current :: previous :: _ =>
      (buyersAt uniqueBuyersBySlot current).card - (buyersAt uniqueBuyersBySlot previous).card
  | _ => allUniqueBuyers.card

/-- `check_feature_window_cutoff`, for every window. -/
def checkWindows (maxSourceSlot : ℕ) (cutoffSlot : ℤ) :
    List String → Except MicrostructureError Unit
  | [] => .ok ()
  | name :: names =>
      if cutoffSlot < maxSourceSlot then
        .error (.windowExceedsCutoff name maxSourceSlot cutoffSlot)
      else checkWindows maxSourceSlot cutoffSlot names

namespace MicrostructureAccumulator

/-- `effective_max_slot`. -/
def effectiveMaxSlot (acc : MicrostructureAccumulator) : ℕ :=
  if 0 < acc.eventCount then acc.maxSourceSlot else acc.eventTimeSlot

/-- The features that `to_features(event_time)` returns. -/
def featuresAt (acc : MicrostructureAccumulator) (eventTimeSlot : ℕ) : MicrostructureFeatures :=
  let creationSlot := if acc.poolCreationSlot ≠ 0 then acc.poolCreationSlot else acc.eventTimeSlot
  let active := activeHolders acc.holders.rows
  let bundlerCount := acc.sameSlotWallets.rows.length
  let sniperCount := acc.sniperWallets.card
  { lpDepthLamports := acc.lpDepthLamports
    lpLockStatus := acc.lpLockStatus
    lpAgeSlots := (eventTimeSlot : ℤ) - creationSlot
    mintAuthorityRenounced := acc.mintAuthorityRenounced
    freezeAuthorityRenounced := acc.freezeAuthorityRenounced
    devWalletSupplyPctBps := devSupplyBps acc.totalSupplyBase acc.devTokenBalanceBase
    bundlingDetected := decide (3 ≤ bundlerCount)
    bundlerWalletCount := bundlerCount
    holderConcentrationTop10Bps := concentrationBps active
    holderCount := active.length
    sniperClusterScore := sniperClusterScore sniperCount acc.allUniqueBuyers.card
      (maxSameFunder (acc.sniperFunders.rows.map Prod.snd))
    sniperWalletCount := sniperCount
    sniperSupplyShareBps := sniperSupplyBps acc.totalSupplyBase acc.sniperWallets acc.holders
    effectiveSellTaxBps := effectiveSellTaxBps acc.sellRecords.length
      (acc.sellRecords.map SellRecord.expectedSolLamports).sum
      (acc.sellRecords.map SellRecord.solReceivedLamports).sum
    buyPressureImbalance := buyPressureImbalance acc.buyVolumeLamports acc.sellVolumeLamports
    uniqueBuyerDelta := uniqueBuyerDelta acc.uniqueBuyersBySlot acc.allUniqueBuyers
    timeSincePoolCreationSlots := max 0 ((eventTimeSlot : ℤ) - creationSlot)
    timeSinceFirstTradeSlots := acc.firstTradeSlot.map fun first : ℕ => (eventTimeSlot : ℤ) - first
    sellReserveTrajectory := acc.reserveSamples
    windowFeatureNames := featureNames
    eventTimeSlot := eventTimeSlot
    firstKSlots := acc.firstKSlots
    maxSourceSlot := acc.effectiveMaxSlot }

/-- `to_features(event_time)`. -/
def toFeatures (acc : MicrostructureAccumulator) (eventTimeSlot : ℕ) :
    Except MicrostructureError MicrostructureFeatures := do
  checkWindows acc.effectiveMaxSlot (eventTimeSlot + acc.firstKSlots) featureNames
  return acc.featuresAt eventTimeSlot

end MicrostructureAccumulator

/-- The pool creation event as `build_microstructure_features` observes it. -/
def creationEvent (poolCreationEvent : LaunchEvent) : ClassifiedEvent :=
  { event := poolCreationEvent, isBuy := false, isPoolCreation := true }

/-- The accumulator that `build_microstructure_features` starts from. -/
def startAccumulator (poolCreationEvent : LaunchEvent) (firstKSlots : ℤ) :
    MicrostructureAccumulator :=
  { mint := poolCreationEvent.mint
    eventTimeSlot := poolCreationEvent.slot
    firstKSlots := firstKSlots }

/-- The loop of `build_microstructure_features`. -/
def observeAll (poolCreationEvent : LaunchEvent) (classifiedEvents : List ClassifiedEvent)
    (firstKSlots : ℤ) : Except MicrostructureError MicrostructureAccumulator := do
  let acc ← (startAccumulator poolCreationEvent firstKSlots).observe
    (creationEvent poolCreationEvent)
  classifiedEvents.foldlM (fun acc e => acc.observe e.asTrade) acc

/-- `build_microstructure_features(pool_creation_event, classified_events, first_k_slots)`. -/
def buildMicrostructureFeatures (poolCreationEvent : LaunchEvent)
    (classifiedEvents : List ClassifiedEvent) (firstKSlots : ℤ) :
    Except MicrostructureError MicrostructureFeatures := do
  let acc ← observeAll poolCreationEvent classifiedEvents firstKSlots
  acc.toFeatures poolCreationEvent.slot

end Features
end AatsSniper

/-
# The state after the events in a window

The events in the window of a launch are all observed (`observeAll_eq`, `build_eq`).  Beside what
it counts, the accumulator keeps what was observed last (liquidity, lock, authorities, supply,
balance, the snapshot of each wallet) and the slot of the trade that was observed first.  The
scalar features depend on these values and on the tally alone (`Alike.scalars`).
-/

import AatsSniper.Features.Tally
import AatsSniper.Lib.LastWrite

namespace AatsSniper
namespace Features

open LastWrite

/-- A field that every event writes. -/
def always {β : Type} (value : ClassifiedEvent → β) (e : ClassifiedEvent) : Option β :=
  some (value e)

/-- An amount that is written once it is known. -/
def known (amount : ClassifiedEvent → ℤ) (e : ClassifiedEvent) : Option ℤ :=
  if 0 < amount e then some (amount e) else none

/-- The snapshot of a wallet. -/
def snapshotOf (wallet : String) (e : ClassifiedEvent) : Option HolderSnapshot :=
  e.holderSnapshot.filter fun snapshot => decide (wallet = snapshot.wallet)

/-- The slot of a trade after the pool creation. -/
def tradeSlot (creationSlot : ℕ) (e : ClassifiedEvent) : Option ℕ :=
  if creationSlot < e.slot then some e.slot else none

/-- The depth of the pool at an event. -/
def ClassifiedEvent.depth (e : ClassifiedEvent) : ℤ := e.event.solReserveLamports

section Run

variable {creation : LaunchEvent} {firstKSlots : ℤ} {events arrived : List ClassifiedEvent}

/-- The events a window takes. -/
def InWindow (creationSlot : ℕ) (firstKSlots : ℤ) (events : List ClassifiedEvent) : Prop :=
  ∀ e ∈ events, creationSlot ≤ e.slot ∧ (e.slot : ℤ) ≤ creationSlot + firstKSlots

/-- The accumulator that has observed the pool creation. -/
def created (creation : LaunchEvent) (firstKSlots : ℤ) : MicrostructureAccumulator :=
  (startAccumulator creation firstKSlots).record (creationEvent creation)

theorem foldlM_observe (acc : MicrostructureAccumulator)
    (hwindow : InWindow acc.eventTimeSlot acc.firstKSlots events) :
    events.foldlM (fun acc e => acc.observe e.asTrade) acc = .ok (acc.recordAll events) := by
  induction events generalizing acc with
  | nil => rfl
  | cons e events ih =>
      obtain ⟨hfrom, hto⟩ := hwindow e List.mem_cons_self
      have hobserve : acc.observe e.asTrade = .ok (acc.record e.asTrade) :=
        (if_neg (not_lt.2 hfrom)).trans (if_neg (not_lt.2 hto))
      rw [List.foldlM_cons, hobserve]
      exact ih (acc.record e.asTrade) fun e' he' => hwindow e' (List.mem_cons_of_mem _ he')

theorem observeAll_eq (hK : 0 ≤ firstKSlots)
    (hwindow : InWindow creation.slot firstKSlots events) :
    observeAll creation events firstKSlots =
      .ok ((created creation firstKSlots).recordAll events) := by
  have hobserve : (startAccumulator creation firstKSlots).observe (creationEvent creation) =
      .ok (created creation firstKSlots) := by
    have hcutoff : ¬ (creation.slot : ℤ) + firstKSlots < creation.slot := by omega
    exact (if_neg (lt_irrefl _)).trans (if_neg hcutoff)
  rw [observeAll, hobserve]
  exact foldlM_observe (created creation firstKSlots) hwindow

theorem observeAll_of_neg (hK : firstKSlots < 0) (acc : MicrostructureAccumulator) :
    observeAll creation events firstKSlots ≠ .ok acc := by
  have hobserve : (startAccumulator creation firstKSlots).observe (creationEvent creation) =
      .error (.lookahead creation.slot (creation.slot + firstKSlots) creation.mint) := by
    have hcutoff : (creation.slot : ℤ) + firstKSlots < creation.slot := by omega
    exact (if_neg (lt_irrefl _)).trans (if_pos hcutoff)
  rw [observeAll, hobserve]
  intro h
  cases h

theorem checkWindows_eq_ok {maxSourceSlot : ℕ} {cutoffSlot : ℤ}
    (h : (maxSourceSlot : ℤ) ≤ cutoffSlot) (names : List String) :
    checkWindows maxSourceSlot cutoffSlot names = .ok () := by
  induction names with
  | nil => rfl
  | cons name names ih => rw [checkWindows, if_neg (not_lt.2 h), ih]

theorem maxSourceSlot_recordAll_le (acc : MicrostructureAccumulator) {cutoffSlot : ℤ}
    (hacc : (acc.maxSourceSlot : ℤ) ≤ cutoffSlot)
    (hevents : ∀ e ∈ events, (e.slot : ℤ) ≤ cutoffSlot) :
    ((acc.recordAll events).maxSourceSlot : ℤ) ≤ cutoffSlot := by
  induction events generalizing acc with
  | nil => exact hacc
  | cons e events ih =>
      refine ih (acc.record e.asTrade) ?_ fun e' he' => hevents e' (List.mem_cons_of_mem _ he')
      change ((if acc.maxSourceSlot < e.slot then e.slot else acc.maxSourceSlot : ℕ) : ℤ) ≤ _
      split_ifs
      · exact hevents e List.mem_cons_self
      · exact hacc

theorem build_eq (hK : 0 ≤ firstKSlots) (hwindow : InWindow creation.slot firstKSlots events) :
    buildMicrostructureFeatures creation events firstKSlots =
      .ok (((created creation firstKSlots).recordAll events).featuresAt creation.slot) := by
  set acc := (created creation firstKSlots).recordAll events with hacc
  have hcreated : ((created creation firstKSlots).maxSourceSlot : ℤ) ≤
      creation.slot + firstKSlots := by
    change ((if 0 < creation.slot then creation.slot else 0 : ℕ) : ℤ) ≤ _
    split_ifs <;> omega
  have hmax : (acc.effectiveMaxSlot : ℤ) ≤ creation.slot + firstKSlots := by
    unfold MicrostructureAccumulator.effectiveMaxSlot
    split_ifs
    · exact maxSourceSlot_recordAll_le _ hcreated fun e he => (hwindow e he).2
    · rw [hacc, MicrostructureAccumulator.eventTimeSlot_recordAll]
      exact le_add_of_nonneg_right hK
  have hfirstK : acc.firstKSlots = firstKSlots := by
    rw [hacc, MicrostructureAccumulator.firstKSlots_recordAll]
    rfl
  have hfeatures : acc.toFeatures creation.slot = .ok (acc.featuresAt creation.slot) := by
    rw [MicrostructureAccumulator.toFeatures, hfirstK, checkWindows_eq_ok hmax]
    rfl
  rw [buildMicrostructureFeatures, observeAll_eq hK hwindow]
  exact hfeatures

end Run

theorem firstTradeSlot_created (creation : LaunchEvent) (firstKSlots : ℤ) :
    (created creation firstKSlots).firstTradeSlot = none := by
  have hnot : ¬ (none = (none : Option ℕ) ∧ creation.slot < creation.slot) := fun h =>
    lt_irrefl _ h.2
  exact if_neg hnot

theorem ownFunders_created (creation : LaunchEvent) (firstKSlots : ℤ) :
    (created creation firstKSlots).OwnFunders := by
  refine MicrostructureAccumulator.OwnFunders.record (creationEvent creation) ?_
  exact ⟨fun row hrow => absurd hrow List.not_mem_nil, rfl⟩

namespace MicrostructureAccumulator

variable (acc : MicrostructureAccumulator) (events : List ClassifiedEvent)

theorem lpDepthLamports_recordAll : (acc.recordAll events).lpDepthLamports =
    (written (always ClassifiedEvent.depth) events).getD acc.lpDepthLamports :=
  foldl_write_getD MicrostructureAccumulator.lpDepthLamports (fun _ _ => rfl) events acc

theorem lpLockStatus_recordAll : (acc.recordAll events).lpLockStatus =
    (written (always ClassifiedEvent.lpLockStatus) events).getD acc.lpLockStatus :=
  foldl_write_getD MicrostructureAccumulator.lpLockStatus (fun _ _ => rfl) events acc

theorem mintAuthorityRenounced_recordAll : (acc.recordAll events).mintAuthorityRenounced =
    (written (always ClassifiedEvent.mintAuthorityRenounced) events).getD
      acc.mintAuthorityRenounced :=
  foldl_write_getD MicrostructureAccumulator.mintAuthorityRenounced (fun _ _ => rfl) events acc

theorem freezeAuthorityRenounced_recordAll : (acc.recordAll events).freezeAuthorityRenounced =
    (written (always ClassifiedEvent.freezeAuthorityRenounced) events).getD
      acc.freezeAuthorityRenounced :=
  foldl_write_getD MicrostructureAccumulator.freezeAuthorityRenounced (fun _ _ => rfl) events acc

theorem getD_known (amount : ClassifiedEvent → ℤ) (e : ClassifiedEvent) (before : ℤ) :
    (if 0 < amount e then amount e else before) = (known amount e).getD before := by
  unfold known
  split_ifs <;> rfl

theorem totalSupplyBase_recordAll : (acc.recordAll events).totalSupplyBase =
    (written (known ClassifiedEvent.totalSupplyBase) events).getD acc.totalSupplyBase :=
  foldl_write_getD MicrostructureAccumulator.totalSupplyBase (fun _ _ => getD_known _ _ _)
    events acc

theorem devTokenBalanceBase_recordAll : (acc.recordAll events).devTokenBalanceBase =
    (written (known ClassifiedEvent.devTokenBalanceBase) events).getD acc.devTokenBalanceBase :=
  foldl_write_getD MicrostructureAccumulator.devTokenBalanceBase (fun _ _ => getD_known _ _ _)
    events acc

theorem holders_record (e : ClassifiedEvent) (wallet : String) :
    (acc.record e).holders.get? wallet = (snapshotOf wallet e).or (acc.holders.get? wallet) := by
  unfold record snapshotOf
  cases e.holderSnapshot with
  | none => rfl
  | some snapshot =>
      rw [Table.get?_upsert, Option.filter_some]
      by_cases hwallet : wallet = snapshot.wallet
      · rw [if_pos hwallet, if_pos (decide_eq_true hwallet), Option.some_or]
      · rw [if_neg hwallet, if_neg (by simpa using hwallet), Option.none_or]

theorem holders_recordAll (wallet : String) : (acc.recordAll events).holders.get? wallet =
    (written (snapshotOf wallet) events).or (acc.holders.get? wallet) :=
  foldl_write (fun acc : MicrostructureAccumulator => acc.holders.get? wallet)
    (fun acc e => acc.holders_record e.asTrade wallet) events acc

theorem firstTradeSlot_record (e : ClassifiedEvent) : (acc.record e).firstTradeSlot =
    acc.firstTradeSlot.or (tradeSlot acc.eventTimeSlot e) := by
  unfold record tradeSlot
  cases acc.firstTradeSlot <;> simp

theorem firstTradeSlot_recordAll : (acc.recordAll events).firstTradeSlot =
    acc.firstTradeSlot.or (events.findSome? (tradeSlot acc.eventTimeSlot)) := by
  have hsame : ∀ (acc' : MicrostructureAccumulator) (e : ClassifiedEvent),
      acc'.eventTimeSlot = acc.eventTimeSlot →
        (acc'.record e.asTrade).eventTimeSlot = acc.eventTimeSlot := fun _ _ h => h
  have hstep : ∀ (acc' : MicrostructureAccumulator) (e : ClassifiedEvent),
      acc'.eventTimeSlot = acc.eventTimeSlot → (acc'.record e.asTrade).firstTradeSlot =
        acc'.firstTradeSlot.or (tradeSlot acc.eventTimeSlot e) := by
    intro acc' e h
    rw [firstTradeSlot_record, h]
    rfl
  exact foldl_keep MicrostructureAccumulator.firstTradeSlot hsame hstep events rfl

end MicrostructureAccumulator

/-- The scalar features: all but the trajectory of the reserve. -/
def MicrostructureFeatures.scalars (features : MicrostructureFeatures) : MicrostructureFeatures :=
  { features with sellReserveTrajectory := [] }

theorem concentrationBps_perm {active active' : List HolderSnapshot} (h : active.Perm active') :
    concentrationBps active = concentrationBps active' := by
  have hnil : active ≠ [] ↔ active' ≠ [] := by
    rw [← List.length_pos_iff, ← List.length_pos_iff, h.length_eq]
  have hamounts : ∀ active : List HolderSnapshot,
      ((sortBy (fun h => -h.tokenAmountBase) active).take 10).map HolderSnapshot.tokenAmountBase =
        (((sortBy (fun h => -h.tokenAmountBase) active).map fun h => -h.tokenAmountBase).map
          Neg.neg).take 10 := by
    intro active
    rw [List.map_take, List.map_map]
    congr 2
    funext h
    exact (neg_neg _).symm
  unfold concentrationBps
  simp only [hnil, (h.map HolderSnapshot.tokenAmountBase).sum_eq, hamounts,
    map_key_sortBy_of_perm h]

/-- Two states that differ in the order of what they keep alone. -/
structure Alike (acc acc' : MicrostructureAccumulator) : Prop where
  lpDepthLamports : acc.lpDepthLamports = acc'.lpDepthLamports
  lpLockStatus : acc.lpLockStatus = acc'.lpLockStatus
  mintAuthorityRenounced : acc.mintAuthorityRenounced = acc'.mintAuthorityRenounced
  freezeAuthorityRenounced : acc.freezeAuthorityRenounced = acc'.freezeAuthorityRenounced
  totalSupplyBase : acc.totalSupplyBase = acc'.totalSupplyBase
  devTokenBalanceBase : acc.devTokenBalanceBase = acc'.devTokenBalanceBase
  holders : ∀ wallet, acc.holders.get? wallet = acc'.holders.get? wallet
  firstTradeSlot : acc.firstTradeSlot = acc'.firstTradeSlot
  poolCreationSlot : acc.poolCreationSlot = acc'.poolCreationSlot
  eventTimeSlot : acc.eventTimeSlot = acc'.eventTimeSlot
  firstKSlots : acc.firstKSlots = acc'.firstKSlots
  funders : acc.OwnFunders ∧ acc'.OwnFunders
  tally : acc.tally = acc'.tally

theorem Alike.scalars {acc acc' : MicrostructureAccumulator} (h : Alike acc acc') (slot : ℕ) :
    (acc.featuresAt slot).scalars = (acc'.featuresAt slot).scalars := by
  have hbundlers : acc.sameSlotWallets.rows.length = acc'.sameSlotWallets.rows.length := by
    rw [← acc.card_bundlers, ← acc'.card_bundlers]
    exact congrArg (fun t => t.bundlers.card) h.tally
  have hsnipers : acc.sniperWallets = acc'.sniperWallets := congrArg Tally.snipers h.tally
  have hsales : acc.sellRecords.length = acc'.sellRecords.length := congrArg Tally.sales h.tally
  have hexpected : (acc.sellRecords.map SellRecord.expectedSolLamports).sum =
      (acc'.sellRecords.map SellRecord.expectedSolLamports).sum :=
    congrArg Tally.expectedSolLamports h.tally
  have hreceived : (acc.sellRecords.map SellRecord.solReceivedLamports).sum =
      (acc'.sellRecords.map SellRecord.solReceivedLamports).sum :=
    congrArg Tally.receivedSolLamports h.tally
  have hbuys : acc.buyVolumeLamports = acc'.buyVolumeLamports :=
    congrArg Tally.buyVolumeLamports h.tally
  have hsells : acc.sellVolumeLamports = acc'.sellVolumeLamports :=
    congrArg Tally.sellVolumeLamports h.tally
  have hbySlot : acc.uniqueBuyersBySlot = acc'.uniqueBuyersBySlot :=
    congrArg Tally.uniqueBuyersBySlot h.tally
  have hbuyers : acc.allUniqueBuyers = acc'.allUniqueBuyers :=
    congrArg Tally.allUniqueBuyers h.tally
  have hmax : acc.effectiveMaxSlot = acc'.effectiveMaxSlot := by
    have hcount : acc.eventCount = acc'.eventCount := congrArg Tally.eventCount h.tally
    have hsource : acc.maxSourceSlot = acc'.maxSourceSlot := congrArg Tally.maxSourceSlot h.tally
    rw [MicrostructureAccumulator.effectiveMaxSlot, hcount, hsource, h.eventTimeSlot]
    rfl
  have hactive : (activeHolders acc.holders.rows).Perm (activeHolders acc'.holders.rows) :=
    (Table.rows_perm_of_get? h.holders).filter _
  have hshare : ∀ supply snipers, sniperSupplyBps supply snipers acc.holders =
      sniperSupplyBps supply snipers acc'.holders := by
    intro supply snipers
    unfold sniperSupplyBps
    simp only [h.holders]
  simp only [MicrostructureFeatures.scalars, MicrostructureAccumulator.featuresAt, hshare,
    concentrationBps_perm hactive, hactive.length_eq, h.funders.1.maxSameFunder_eq,
    h.funders.2.maxSameFunder_eq, hbundlers, hsnipers, hsales, hexpected, hreceived, hbuys, hsells,
    hbySlot, hbuyers, hmax, h.lpDepthLamports, h.lpLockStatus, h.mintAuthorityRenounced,
    h.freezeAuthorityRenounced, h.totalSupplyBase, h.devTokenBalanceBase, h.firstTradeSlot,
    h.poolCreationSlot, h.eventTimeSlot, h.firstKSlots]

end Features
end AatsSniper

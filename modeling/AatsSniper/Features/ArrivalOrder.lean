/-
# State by arrival and state by slot

The state of a run is the one by slot (`BySlot`) for exactly those arrangements of the events in
which what is observed last comes from the highest slot that has it, and the first trade from the
lowest (`Agrees`, `bySlot_iff_agrees`).

The time since the first trade is taken at the slot of the pool creation, which every trade that
counts as the first is after: it is negative once there is such a trade (`exists_time_neg`).
-/

import AatsSniper.Features.ArrivalState

namespace AatsSniper
namespace Features

open LastWrite

/-- Every field that the order of the events can change has its value by slot. -/
structure BySlot (creation : LaunchEvent) (events : List ClassifiedEvent)
    (acc : MicrostructureAccumulator) : Prop where
  lpDepthLamports : acc.lpDepthLamports =
    (latest ClassifiedEvent.slot (always ClassifiedEvent.depth) events).getD
      creation.solReserveLamports
  lpLockStatus : acc.lpLockStatus =
    (latest ClassifiedEvent.slot (always ClassifiedEvent.lpLockStatus) events).getD "unlocked"
  mintAuthorityRenounced : acc.mintAuthorityRenounced =
    (latest ClassifiedEvent.slot (always ClassifiedEvent.mintAuthorityRenounced) events).getD false
  freezeAuthorityRenounced : acc.freezeAuthorityRenounced =
    (latest ClassifiedEvent.slot (always ClassifiedEvent.freezeAuthorityRenounced) events).getD
      false
  totalSupplyBase : acc.totalSupplyBase =
    (latest ClassifiedEvent.slot (known ClassifiedEvent.totalSupplyBase) events).getD 0
  devTokenBalanceBase : acc.devTokenBalanceBase =
    (latest ClassifiedEvent.slot (known ClassifiedEvent.devTokenBalanceBase) events).getD 0
  holders : ∀ wallet, acc.holders.get? wallet =
    latest ClassifiedEvent.slot (snapshotOf wallet) events
  firstTradeSlot : acc.firstTradeSlot =
    earliest ClassifiedEvent.slot (tradeSlot creation.slot) events

/-- What is observed last comes from the highest slot, and the first trade from the lowest. -/
structure Agrees (creationSlot : ℕ) (events arrived : List ClassifiedEvent) : Prop where
  depth : written (always ClassifiedEvent.depth) arrived =
    latest ClassifiedEvent.slot (always ClassifiedEvent.depth) events
  lpLockStatus : written (always ClassifiedEvent.lpLockStatus) arrived =
    latest ClassifiedEvent.slot (always ClassifiedEvent.lpLockStatus) events
  mintAuthorityRenounced : written (always ClassifiedEvent.mintAuthorityRenounced) arrived =
    latest ClassifiedEvent.slot (always ClassifiedEvent.mintAuthorityRenounced) events
  freezeAuthorityRenounced : written (always ClassifiedEvent.freezeAuthorityRenounced) arrived =
    latest ClassifiedEvent.slot (always ClassifiedEvent.freezeAuthorityRenounced) events
  totalSupplyBase : written (known ClassifiedEvent.totalSupplyBase) arrived =
    latest ClassifiedEvent.slot (known ClassifiedEvent.totalSupplyBase) events
  devTokenBalanceBase : written (known ClassifiedEvent.devTokenBalanceBase) arrived =
    latest ClassifiedEvent.slot (known ClassifiedEvent.devTokenBalanceBase) events
  snapshots : ∀ wallet, written (snapshotOf wallet) arrived =
    latest ClassifiedEvent.slot (snapshotOf wallet) events
  firstTrade : arrived.findSome? (tradeSlot creationSlot) =
    earliest ClassifiedEvent.slot (tradeSlot creationSlot) events

/-- Every arrangement of the events gives the state by slot, the same scalar features and no
negative time since the first trade. -/
def StateBySlot (creation : LaunchEvent) (events : List ClassifiedEvent) (firstKSlots : ℤ) :
    Prop :=
  ∃ scalars, ∀ arrived, arrived.Perm events → ∃ acc features,
    observeAll creation arrived firstKSlots = .ok acc ∧
      buildMicrostructureFeatures creation arrived firstKSlots = .ok features ∧
        BySlot creation events acc ∧ features.scalars = scalars ∧
          ∀ slots ∈ features.timeSinceFirstTradeSlots, 0 ≤ slots

/-- An arrangement of the events gives the state by slot, and the scalar features of the events in
the order of their slots. -/
def OrderFree (creation : LaunchEvent) (events arrived : List ClassifiedEvent)
    (firstKSlots : ℤ) : Prop :=
  ∃ acc features inOrder, observeAll creation arrived firstKSlots = .ok acc ∧
    buildMicrostructureFeatures creation arrived firstKSlots = .ok features ∧
      buildMicrostructureFeatures creation (sortBy ClassifiedEvent.slot events) firstKSlots =
        .ok inOrder ∧
        BySlot creation events acc ∧ features.scalars = inOrder.scalars

section Arrangements

variable {creation : LaunchEvent} {firstKSlots : ℤ} {events arrived : List ClassifiedEvent}
  {acc : MicrostructureAccumulator}

/-- What every event writes is, by slot, what the event of the highest slot writes. -/
theorem latest_always {β : Type} {value : ClassifiedEvent → β}
    (hdistinct : (events.map ClassifiedEvent.slot).Nodup) {e : ClassifiedEvent} (he : e ∈ events)
    (hmax : ∀ e' ∈ events, e'.slot ≤ e.slot) :
    latest ClassifiedEvent.slot (always value) events = some (value e) :=
  (latest_eq_some_iff hdistinct).2 ⟨e, he, rfl, fun e' he' _ => hmax e' he'⟩

/-- **The liquidity, the lock and the authorities of the event of the highest slot.** -/
theorem BySlot.highest (h : BySlot creation events acc)
    (hdistinct : (events.map ClassifiedEvent.slot).Nodup) {e : ClassifiedEvent} (he : e ∈ events)
    (hmax : ∀ e' ∈ events, e'.slot ≤ e.slot) :
    acc.lpDepthLamports = e.event.solReserveLamports ∧ acc.lpLockStatus = e.lpLockStatus ∧
      acc.mintAuthorityRenounced = e.mintAuthorityRenounced ∧
        acc.freezeAuthorityRenounced = e.freezeAuthorityRenounced := by
  rw [h.lpDepthLamports, h.lpLockStatus, h.mintAuthorityRenounced, h.freezeAuthorityRenounced,
    latest_always hdistinct he hmax, latest_always hdistinct he hmax,
    latest_always hdistinct he hmax, latest_always hdistinct he hmax]
  exact ⟨rfl, rfl, rfl, rfl⟩

/-- **The snapshot of a holder is the one of its highest slot.** -/
theorem BySlot.holder (h : BySlot creation events acc)
    (hdistinct : (events.map ClassifiedEvent.slot).Nodup) {wallet : String}
    {snapshot : HolderSnapshot} :
    acc.holders.get? wallet = some snapshot ↔
      ∃ e ∈ events, snapshotOf wallet e = some snapshot ∧
        ∀ e' ∈ events, (snapshotOf wallet e').isSome = true → e'.slot ≤ e.slot := by
  rw [h.holders]
  exact latest_eq_some_iff hdistinct

/-- **The first trade is the one of the lowest slot after the pool creation.** -/
theorem BySlot.firstTrade (h : BySlot creation events acc) {first : ℕ}
    (hfirst : acc.firstTradeSlot = some first) :
    creation.slot < first ∧ ∃ e ∈ events, e.slot = first ∧
      ∀ e' ∈ events, creation.slot < e'.slot → first ≤ e'.slot := by
  rw [h.firstTradeSlot] at hfirst
  obtain ⟨e, he, hslot, hmin⟩ :=
    least_of_findSome? (pairwise_sortBy ClassifiedEvent.slot events) hfirst
  unfold tradeSlot at hslot
  split_ifs at hslot with hafter
  obtain rfl := Option.some.inj hslot
  refine ⟨hafter, e, mem_sortBy.1 he, rfl, fun e' he' hafter' => ?_⟩
  exact hmin e' (mem_sortBy.2 he') (by rw [tradeSlot, if_pos hafter']; rfl)

/-- **The run of an arrangement ends in the state by slot if and only if the arrangement agrees with
the slots.** -/
theorem bySlot_iff_agrees (hperm : arrived.Perm events) :
    BySlot creation events ((created creation firstKSlots).recordAll arrived) ↔
      Agrees creation.slot events arrived := by
  set acc := created creation firstKSlots with hacc
  have hholders : ∀ wallet, (acc.recordAll arrived).holders.get? wallet =
      written (snapshotOf wallet) arrived := by
    intro wallet
    rw [acc.holders_recordAll]
    exact Option.or_none
  have hfirst : (acc.recordAll arrived).firstTradeSlot =
      arrived.findSome? (tradeSlot creation.slot) := by
    rw [acc.firstTradeSlot_recordAll, hacc, firstTradeSlot_created]
    rfl
  have hdepth := eq_latest_iff ClassifiedEvent.slot hperm (acc.lpDepthLamports_recordAll arrived)
  have hlock := eq_latest_iff ClassifiedEvent.slot hperm (acc.lpLockStatus_recordAll arrived)
  have hmint := eq_latest_iff ClassifiedEvent.slot hperm
    (acc.mintAuthorityRenounced_recordAll arrived)
  have hfreeze := eq_latest_iff ClassifiedEvent.slot hperm
    (acc.freezeAuthorityRenounced_recordAll arrived)
  have hsupply := eq_latest_iff ClassifiedEvent.slot hperm (acc.totalSupplyBase_recordAll arrived)
  have hbalance := eq_latest_iff ClassifiedEvent.slot hperm
    (acc.devTokenBalanceBase_recordAll arrived)
  constructor
  · intro h
    exact ⟨hdepth.1 h.lpDepthLamports, hlock.1 h.lpLockStatus, hmint.1 h.mintAuthorityRenounced,
      hfreeze.1 h.freezeAuthorityRenounced, hsupply.1 h.totalSupplyBase,
      hbalance.1 h.devTokenBalanceBase,
      fun wallet => (hholders wallet).symm.trans (h.holders wallet),
      hfirst.symm.trans h.firstTradeSlot⟩
  · intro h
    exact ⟨hdepth.2 h.depth, hlock.2 h.lpLockStatus, hmint.2 h.mintAuthorityRenounced,
      hfreeze.2 h.freezeAuthorityRenounced, hsupply.2 h.totalSupplyBase,
      hbalance.2 h.devTokenBalanceBase, fun wallet => (hholders wallet).trans (h.snapshots wallet),
      hfirst.trans h.firstTrade⟩

/-- The order of the slots agrees with them. -/
theorem agrees_sortBy (creationSlot : ℕ) (events : List ClassifiedEvent) :
    Agrees creationSlot events (sortBy ClassifiedEvent.slot events) :=
  ⟨rfl, rfl, rfl, rfl, rfl, rfl, fun _ => rfl, rfl⟩

theorem BySlot.alike (hperm : arrived.Perm events)
    (h : BySlot creation events ((created creation firstKSlots).recordAll arrived)) :
    Alike ((created creation firstKSlots).recordAll arrived)
      ((created creation firstKSlots).recordAll (sortBy ClassifiedEvent.slot events)) := by
  have hsorted := sortBy_perm ClassifiedEvent.slot events
  have h' : BySlot creation events ((created creation firstKSlots).recordAll
      (sortBy ClassifiedEvent.slot events)) :=
    (bySlot_iff_agrees hsorted).2 (agrees_sortBy creation.slot events)
  have hfunders := ownFunders_created creation firstKSlots
  exact
    { lpDepthLamports := h.lpDepthLamports.trans h'.lpDepthLamports.symm
      lpLockStatus := h.lpLockStatus.trans h'.lpLockStatus.symm
      mintAuthorityRenounced := h.mintAuthorityRenounced.trans h'.mintAuthorityRenounced.symm
      freezeAuthorityRenounced := h.freezeAuthorityRenounced.trans h'.freezeAuthorityRenounced.symm
      totalSupplyBase := h.totalSupplyBase.trans h'.totalSupplyBase.symm
      devTokenBalanceBase := h.devTokenBalanceBase.trans h'.devTokenBalanceBase.symm
      holders := fun wallet => (h.holders wallet).trans (h'.holders wallet).symm
      firstTradeSlot := h.firstTradeSlot.trans h'.firstTradeSlot.symm
      poolCreationSlot := by
        rw [MicrostructureAccumulator.poolCreationSlot_recordAll,
          MicrostructureAccumulator.poolCreationSlot_recordAll]
      eventTimeSlot := by
        rw [MicrostructureAccumulator.eventTimeSlot_recordAll,
          MicrostructureAccumulator.eventTimeSlot_recordAll]
      firstKSlots := by
        rw [MicrostructureAccumulator.firstKSlots_recordAll,
          MicrostructureAccumulator.firstKSlots_recordAll]
      funders := ⟨hfunders.recordAll arrived, hfunders.recordAll _⟩
      tally := MicrostructureAccumulator.tally_recordAll_perm _ (hperm.trans hsorted.symm) }

/-- An arrangement that agrees gives the features of the order of the slots. -/
theorem orderFree_iff (hwindow : InWindow creation.slot firstKSlots events)
    (hperm : arrived.Perm events) :
    OrderFree creation events arrived firstKSlots ↔
      0 ≤ firstKSlots ∧ Agrees creation.slot events arrived := by
  have hwindow' : InWindow creation.slot firstKSlots arrived := fun e he =>
    hwindow e (hperm.mem_iff.1 he)
  constructor
  · rintro ⟨acc, features, inOrder, hacc, -, -, hbySlot, -⟩
    have hK : 0 ≤ firstKSlots := not_lt.1 fun hneg => observeAll_of_neg hneg acc hacc
    rw [observeAll_eq hK hwindow'] at hacc
    obtain rfl := Except.ok.inj hacc
    exact ⟨hK, (bySlot_iff_agrees hperm).1 hbySlot⟩
  · rintro ⟨hK, hagrees⟩
    have hbySlot : BySlot creation events ((created creation firstKSlots).recordAll arrived) :=
      (bySlot_iff_agrees hperm).2 hagrees
    have hsorted : InWindow creation.slot firstKSlots (sortBy ClassifiedEvent.slot events) :=
      fun e he => hwindow e (mem_sortBy.1 he)
    exact ⟨_, _, _, observeAll_eq hK hwindow', build_eq hK hwindow', build_eq hK hsorted, hbySlot,
      (hbySlot.alike hperm).scalars creation.slot⟩

/-- **The time since a trade after the pool creation is negative.** -/
theorem exists_time_neg (h : BySlot creation events acc) {e : ClassifiedEvent} (he : e ∈ events)
    (hafter : creation.slot < e.slot) :
    ∃ slots ∈ (acc.featuresAt creation.slot).timeSinceFirstTradeSlots, slots < 0 := by
  have hsome : acc.firstTradeSlot.isSome = true := by
    rw [h.firstTradeSlot, earliest, List.findSome?_isSome_iff]
    exact ⟨e, mem_sortBy.2 he, by rw [tradeSlot, if_pos hafter]; rfl⟩
  obtain ⟨first, hfirst⟩ := Option.isSome_iff_exists.1 hsome
  obtain ⟨hlt, -⟩ := h.firstTrade hfirst
  refine ⟨(creation.slot : ℤ) - first, ?_, by omega⟩
  rw [MicrostructureAccumulator.featuresAt, hfirst]
  rfl

/-- Events with distinct slots in the slot of the pool creation are at most one. -/
theorem perm_sortBy_of_creation (hdistinct : (events.map ClassifiedEvent.slot).Nodup)
    (hall : ∀ e ∈ events, e.slot = creation.slot) (hperm : arrived.Perm events) :
    arrived = sortBy ClassifiedEvent.slot events := by
  rw [List.map_congr_left hall, List.map_const', List.nodup_replicate] at hdistinct
  cases events with
  | nil => exact hperm.eq_nil
  | cons e events =>
      obtain rfl := List.length_eq_zero_iff.1 (Nat.le_zero.1 (Nat.le_of_succ_le_succ hdistinct))
      exact List.perm_singleton.1 hperm

/-- **Every arrangement gives the state by slot, and a time since the first trade that is not
negative, if and only if no event is after the pool creation.**  The other parts hold for exactly
the arrangements that agree with the slots. -/
theorem stateBySlot_iff (creation : LaunchEvent) (firstKSlots : ℤ) (events : List ClassifiedEvent)
    (hwindow : InWindow creation.slot firstKSlots events)
    (hdistinct : (events.map ClassifiedEvent.slot).Nodup) :
    (StateBySlot creation events firstKSlots ↔
        0 ≤ firstKSlots ∧ ∀ e ∈ events, e.slot = creation.slot) ∧
      ∀ arrived, arrived.Perm events → (OrderFree creation events arrived firstKSlots ↔
        0 ≤ firstKSlots ∧ Agrees creation.slot events arrived) := by
  refine ⟨⟨?_, ?_⟩, fun arrived hperm => orderFree_iff hwindow hperm⟩
  · rintro ⟨_, hall⟩
    obtain ⟨acc, features, hacc, hfeatures, hbySlot, -, hnonneg⟩ := hall events (List.Perm.refl _)
    have hK : 0 ≤ firstKSlots := not_lt.1 fun hneg => observeAll_of_neg hneg acc hacc
    refine ⟨hK, fun e he => ?_⟩
    rw [observeAll_eq hK hwindow] at hacc
    rw [build_eq hK hwindow] at hfeatures
    obtain rfl := Except.ok.inj hacc
    obtain rfl := Except.ok.inj hfeatures
    by_contra hne
    have hafter : creation.slot < e.slot := lt_of_le_of_ne (hwindow e he).1 (Ne.symm hne)
    obtain ⟨slots, hslots, hneg⟩ := exists_time_neg hbySlot he hafter
    exact absurd (hnonneg slots hslots) (not_le.2 hneg)
  · rintro ⟨hK, hall⟩
    refine ⟨(((created creation firstKSlots).recordAll
      (sortBy ClassifiedEvent.slot events)).featuresAt creation.slot).scalars,
      fun arrived hperm => ?_⟩
    have hwindow' : InWindow creation.slot firstKSlots arrived := fun e he =>
      hwindow e (hperm.mem_iff.1 he)
    obtain rfl := perm_sortBy_of_creation hdistinct hall hperm
    have hbySlot : BySlot creation events ((created creation firstKSlots).recordAll
        (sortBy ClassifiedEvent.slot events)) :=
      (bySlot_iff_agrees hperm).2 (agrees_sortBy creation.slot events)
    refine ⟨_, _, observeAll_eq hK hwindow', build_eq hK hwindow', hbySlot, rfl, ?_⟩
    have hnone : earliest ClassifiedEvent.slot (tradeSlot creation.slot) events = none := by
      rw [earliest, List.findSome?_eq_none_iff]
      intro e he
      rw [tradeSlot, if_neg (by rw [hall e (mem_sortBy.1 he)]; exact lt_irrefl _)]
    rw [MicrostructureAccumulator.featuresAt, hbySlot.firstTradeSlot, hnone]
    exact fun slots hslots => by cases hslots

end Arrangements

/-- A pool created at slot 10. -/
def samplePool : LaunchEvent := ⟨"mint", 10, 300, 1000, "dev"⟩

/-- A sale in a slot that leaves a reserve. -/
def sampleSale (slot : ℕ) (reserve : ℤ) : ClassifiedEvent :=
  { event := ⟨"mint", slot, reserve, 1000, "seller"⟩, isBuy := false }

theorem sampleSales_inWindow :
    InWindow samplePool.slot 5 [sampleSale 12 200, sampleSale 11 100] := by
  unfold InWindow
  decide

/-- Two sales in the order of their slots give the state by slot, but no arrangement of them a time
since the first trade that is not negative. -/
theorem stateBySlot_iff_sales :
    OrderFree samplePool [sampleSale 12 200, sampleSale 11 100]
        [sampleSale 11 100, sampleSale 12 200] 5 ∧
      ¬ OrderFree samplePool [sampleSale 12 200, sampleSale 11 100]
        [sampleSale 12 200, sampleSale 11 100] 5 ∧
        ¬ StateBySlot samplePool [sampleSale 12 200, sampleSale 11 100] 5 := by
  obtain ⟨hstate, horder⟩ := stateBySlot_iff samplePool 5 [sampleSale 12 200, sampleSale 11 100]
    sampleSales_inWindow (by decide)
  refine ⟨?_, fun h => ?_, fun h => absurd (hstate.1 h) (by decide)⟩
  · exact (horder _ (List.Perm.swap _ _ _)).2 ⟨by decide, agrees_sortBy _ _⟩
  · have hdepth := ((horder _ (List.Perm.refl _)).1 h).2.depth
    exact absurd hdepth (by decide)

/-- The depth of slot 11 stands where the one of slot 12 should, and the time since the first trade
is negative. -/
theorem state_by_arrival :
    InWindow samplePool.slot 5 [sampleSale 12 200, sampleSale 11 100] ∧
      ([sampleSale 12 200, sampleSale 11 100].map ClassifiedEvent.slot).Nodup ∧
      ((observeAll samplePool [sampleSale 12 200, sampleSale 11 100] 5).toOption.map fun acc =>
        (acc.lpDepthLamports, acc.firstTradeSlot,
          (acc.featuresAt samplePool.slot).timeSinceFirstTradeSlots)) =
        some (100, some 12, some (-2)) ∧
      ¬ StateBySlot samplePool [sampleSale 12 200, sampleSale 11 100] 5 := by
  refine ⟨sampleSales_inWindow, by decide, rfl, ?_⟩
  rintro ⟨scalars, hall⟩
  obtain ⟨acc, -, hacc, -, hbySlot, -⟩ := hall _ (List.Perm.refl _)
  have hdepth : acc.lpDepthLamports = 100 := by
    have hrun : (observeAll samplePool [sampleSale 12 200, sampleSale 11 100] 5).toOption.map
        MicrostructureAccumulator.lpDepthLamports = some 100 := rfl
    rw [hacc] at hrun
    exact Option.some.inj hrun
  have hslot := hbySlot.lpDepthLamports
  rw [hdepth] at hslot
  exact absurd hslot (by decide)

end Features
end AatsSniper

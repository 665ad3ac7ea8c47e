/-
# What an accumulator counts

Most of the state that `observe` keeps is a count, a sum, a set or a maximum over the events.  An
event adds its own part to it (`tally_record`), parts come together in any order
(`Tally.combine_right_comm`), and so the tally of a run does not depend on the order of its events
(`tally_recordAll_perm`).
-/

import AatsSniper.Features.Microstructure

namespace AatsSniper
namespace Features

/-- Counts, sums, sets and the maximum of the state. -/
@[ext]
structure Tally where
  bundlers : Finset String
  snipers : Finset String
  sales : ℕ
  expectedSolLamports : ℤ
  receivedSolLamports : ℤ
  buyVolumeLamports : ℤ
  sellVolumeLamports : ℤ
  uniqueBuyersBySlot : Finset (ℕ × String)
  allUniqueBuyers : Finset String
  maxSourceSlot : ℕ
  eventCount : ℕ

/-- Two tallies together. -/
def Tally.combine (t u : Tally) : Tally where
  bundlers := t.bundlers ∪ u.bundlers
  snipers := t.snipers ∪ u.snipers
  sales := t.sales + u.sales
  expectedSolLamports := t.expectedSolLamports + u.expectedSolLamports
  receivedSolLamports := t.receivedSolLamports + u.receivedSolLamports
  buyVolumeLamports := t.buyVolumeLamports + u.buyVolumeLamports
  sellVolumeLamports := t.sellVolumeLamports + u.sellVolumeLamports
  uniqueBuyersBySlot := t.uniqueBuyersBySlot ∪ u.uniqueBuyersBySlot
  allUniqueBuyers := t.allUniqueBuyers ∪ u.allUniqueBuyers
  maxSourceSlot := max t.maxSourceSlot u.maxSourceSlot
  eventCount := t.eventCount + u.eventCount

theorem Tally.combine_right_comm (t u v : Tally) :
    (t.combine u).combine v = (t.combine v).combine u :=
  Tally.ext (Finset.union_right_comm ..) (Finset.union_right_comm ..) (Nat.add_right_comm ..)
    (Int.add_right_comm ..) (Int.add_right_comm ..) (Int.add_right_comm ..)
    (Int.add_right_comm ..) (Finset.union_right_comm ..) (Finset.union_right_comm ..)
    (max_right_comm ..) (Nat.add_right_comm ..)

/-- The wallet of an event, if the event counts. -/
def walletIf (p : Prop) [Decidable p] (e : ClassifiedEvent) : Finset String :=
  if p then {e.event.creatorWallet} else ∅

/-- The part of one event. -/
def ClassifiedEvent.tally (creationSlot : ℕ) (e : ClassifiedEvent) : Tally where
  bundlers := walletIf ((e.isBuy = true ∧ e.slot = creationSlot) ∨ e.isBundler = true) e
  snipers := walletIf (e.isBuy = true ∧ e.slot ≤ creationSlot + sniperFirstNSlotsDefault) e
  sales := (MicrostructureAccumulator.sellRecord e).toList.length
  expectedSolLamports :=
    ((MicrostructureAccumulator.sellRecord e).toList.map SellRecord.expectedSolLamports).sum
  receivedSolLamports :=
    ((MicrostructureAccumulator.sellRecord e).toList.map SellRecord.solReceivedLamports).sum
  buyVolumeLamports := if e.isBuy then e.event.solReserveLamports else 0
  sellVolumeLamports := if e.isBuy then 0 else e.event.solReserveLamports
  uniqueBuyersBySlot := if e.isBuy then {(e.slot, e.event.creatorWallet)} else ∅
  allUniqueBuyers := walletIf (e.isBuy = true) e
  maxSourceSlot := e.slot
  eventCount := 1

namespace MicrostructureAccumulator

/-- The wallets of the same slot. -/
def bundlers (acc : MicrostructureAccumulator) : Finset String :=
  (acc.sameSlotWallets.rows.map Prod.fst).toFinset

/-- The tally of a state. -/
def tally (acc : MicrostructureAccumulator) : Tally where
  bundlers := acc.bundlers
  snipers := acc.sniperWallets
  sales := acc.sellRecords.length
  expectedSolLamports := (acc.sellRecords.map SellRecord.expectedSolLamports).sum
  receivedSolLamports := (acc.sellRecords.map SellRecord.solReceivedLamports).sum
  buyVolumeLamports := acc.buyVolumeLamports
  sellVolumeLamports := acc.sellVolumeLamports
  uniqueBuyersBySlot := acc.uniqueBuyersBySlot
  allUniqueBuyers := acc.allUniqueBuyers
  maxSourceSlot := acc.maxSourceSlot
  eventCount := acc.eventCount

variable (acc : MicrostructureAccumulator) (e : ClassifiedEvent)

theorem card_bundlers : acc.bundlers.card = acc.sameSlotWallets.rows.length := by
  rw [bundlers, List.toFinset_card_of_nodup acc.sameSlotWallets.distinct, List.length_map]

theorem wallets_upsert {β : Type} (t : Table (Prod.fst : String × β → String)) (row : String × β) :
    ((t.upsert row).rows.map Prod.fst).toFinset = (t.rows.map Prod.fst).toFinset ∪ {row.1} := by
  ext wallet
  simp only [List.mem_toFinset, List.mem_map, Table.mem_upsert, Finset.mem_union,
    Finset.mem_singleton]
  constructor
  · rintro ⟨row', rfl | ⟨hrow', -⟩, rfl⟩
    · exact .inr rfl
    · exact .inl ⟨row', hrow', rfl⟩
  · rintro (⟨row', hrow', rfl⟩ | rfl)
    · by_cases hkey : row'.1 = row.1
      · exact ⟨row, .inl rfl, hkey.symm⟩
      · exact ⟨row', .inr ⟨hrow', hkey⟩, rfl⟩
    · exact ⟨row, .inl rfl, rfl⟩

theorem bundlers_record :
    (acc.record e).bundlers = acc.bundlers ∪
      walletIf ((e.isBuy = true ∧ e.slot = acc.eventTimeSlot) ∨ e.isBundler = true) e := by
  unfold bundlers record bundleWith walletIf
  by_cases hbuy : e.isBuy = true ∧ e.slot = acc.eventTimeSlot <;> by_cases hbundler : e.isBundler
  · simp only [hbuy, hbundler, if_true, wallets_upsert, true_or, and_self, Finset.union_assoc,
      Finset.union_self]
  · simp only [hbuy, hbundler, if_true, wallets_upsert, true_or, and_self, Bool.false_eq_true,
      if_false]
  · simp only [hbuy, hbundler, if_true, if_false, wallets_upsert, or_true]
  · simp only [hbuy, hbundler, if_false, or_false, Bool.false_eq_true, Finset.union_empty]

/-- A set that grows or stays. -/
theorem insert_ite {α : Type} [DecidableEq α] (p : Prop) [Decidable p] (a : α) (s : Finset α) :
    (if p then insert a s else s) = s ∪ if p then {a} else ∅ := by
  split_ifs
  · rw [Finset.union_singleton]
  · rw [Finset.union_empty]

theorem tally_record :
    (acc.record e.asTrade).tally = acc.tally.combine (e.tally acc.eventTimeSlot) := by
  have hbuys : (acc.record e.asTrade).buyVolumeLamports = acc.buyVolumeLamports +
      (e.tally acc.eventTimeSlot).buyVolumeLamports := by
    cases hbuy : e.isBuy <;> simp [record, ClassifiedEvent.tally, ClassifiedEvent.asTrade, hbuy]
  have hsells : (acc.record e.asTrade).sellVolumeLamports = acc.sellVolumeLamports +
      (e.tally acc.eventTimeSlot).sellVolumeLamports := by
    cases hbuy : e.isBuy <;> simp [record, ClassifiedEvent.tally, ClassifiedEvent.asTrade, hbuy]
  have hsums : ∀ field : SellRecord → ℤ, ((acc.record e.asTrade).sellRecords.map field).sum =
      (acc.sellRecords.map field).sum + ((sellRecord e).toList.map field).sum := by
    intro field
    rw [← List.sum_append, ← List.map_append]
    rfl
  have hmax : (acc.record e.asTrade).maxSourceSlot = max acc.maxSourceSlot e.slot := by
    change (if acc.maxSourceSlot < e.slot then e.slot else acc.maxSourceSlot) = _
    split_ifs with hlt
    · rw [max_eq_right hlt.le]
    · rw [max_eq_left (not_lt.1 hlt)]
  exact Tally.ext (bundlers_record acc e.asTrade) (insert_ite _ _ acc.sniperWallets)
    List.length_append (hsums _) (hsums _) hbuys hsells (insert_ite _ _ acc.uniqueBuyersBySlot)
    (insert_ite _ _ acc.allUniqueBuyers) hmax rfl

/-- Every early buyer counts as its own funder. -/
structure OwnFunders (acc : MicrostructureAccumulator) : Prop where
  own : ∀ row ∈ acc.sniperFunders.rows, row.2 = row.1
  wallets : (acc.sniperFunders.rows.map Prod.fst).toFinset = acc.sniperWallets

variable {acc} in
theorem OwnFunders.record (h : acc.OwnFunders) : (acc.record e).OwnFunders := by
  by_cases hsniper : acc.isSniper e
  · have hfunders : (acc.record e).sniperFunders =
        acc.sniperFunders.upsert (e.event.creatorWallet, e.event.creatorWallet) := if_pos hsniper
    have hwallets : (acc.record e).sniperWallets =
        insert e.event.creatorWallet acc.sniperWallets := if_pos hsniper
    refine ⟨fun row hrow => ?_, ?_⟩
    · rw [hfunders, Table.mem_upsert] at hrow
      rcases hrow with rfl | ⟨hrow, -⟩
      · rfl
      · exact h.own row hrow
    · rw [hfunders, hwallets, wallets_upsert, h.wallets, Finset.union_singleton]
  · have hfunders : (acc.record e).sniperFunders = acc.sniperFunders := if_neg hsniper
    have hwallets : (acc.record e).sniperWallets = acc.sniperWallets := if_neg hsniper
    exact ⟨hfunders ▸ h.own, by rw [hfunders, hwallets, h.wallets]⟩

theorem maxSameFunder_of_nodup {funders : List String} (h : funders.Nodup) :
    maxSameFunder funders = min 1 funders.length := by
  have hones : (funders.map fun funder => funders.count funder) =
      List.replicate funders.length 1 := by
    rw [← List.map_const']
    exact List.map_congr_left fun funder hfunder => List.count_eq_one_of_mem h hfunder
  rw [maxSameFunder, hones]
  cases funders with
  | nil => rfl
  | cons funder funders =>
      have hmax : ∀ n, (List.replicate n 1).foldr max 0 ≤ 1 := by
        intro n
        induction n with
        | zero => exact Nat.zero_le 1
        | succ n ih => exact max_le le_rfl ih
      rw [List.length_cons, List.replicate_succ, List.foldr_cons, max_eq_left (hmax _)]
      omega

/-- No two early buyers have one funder. -/
theorem OwnFunders.maxSameFunder_eq {acc : MicrostructureAccumulator} (h : acc.OwnFunders) :
    maxSameFunder (acc.sniperFunders.rows.map Prod.snd) = min 1 acc.sniperWallets.card := by
  rw [List.map_congr_left h.own, maxSameFunder_of_nodup acc.sniperFunders.distinct, ← h.wallets,
    List.toFinset_card_of_nodup acc.sniperFunders.distinct]

/-- The state after the events. -/
def recordAll (acc : MicrostructureAccumulator) (events : List ClassifiedEvent) :
    MicrostructureAccumulator :=
  events.foldl (fun acc e => acc.record e.asTrade) acc

variable {acc} in
/-- What no event changes. -/
theorem recordAll_keeps {β : Type} (field : MicrostructureAccumulator → β)
    (hfield : ∀ (acc : MicrostructureAccumulator) (e : ClassifiedEvent),
      field (acc.record e.asTrade) = field acc)
    (events : List ClassifiedEvent) :
    field (acc.recordAll events) = field acc := by
  induction events generalizing acc with
  | nil => rfl
  | cons e events ih => exact ih.trans (hfield acc e)

theorem eventTimeSlot_recordAll (events : List ClassifiedEvent) :
    (acc.recordAll events).eventTimeSlot = acc.eventTimeSlot :=
  recordAll_keeps MicrostructureAccumulator.eventTimeSlot (fun _ _ => rfl) events

theorem firstKSlots_recordAll (events : List ClassifiedEvent) :
    (acc.recordAll events).firstKSlots = acc.firstKSlots :=
  recordAll_keeps MicrostructureAccumulator.firstKSlots (fun _ _ => rfl) events

theorem poolCreationSlot_recordAll (events : List ClassifiedEvent) :
    (acc.recordAll events).poolCreationSlot = acc.poolCreationSlot :=
  recordAll_keeps MicrostructureAccumulator.poolCreationSlot (fun _ _ => rfl) events

theorem tally_recordAll (events : List ClassifiedEvent) :
    (acc.recordAll events).tally =
      events.foldl (fun t e => t.combine (e.tally acc.eventTimeSlot)) acc.tally := by
  induction events generalizing acc with
  | nil => rfl
  | cons e events ih =>
      rw [List.foldl_cons, ← tally_record]
      exact ih _

/-- **The tally of a run does not depend on the order of its events.** -/
theorem tally_recordAll_perm {events events' : List ClassifiedEvent} (h : events.Perm events') :
    (acc.recordAll events).tally = (acc.recordAll events').tally := by
  rw [tally_recordAll, tally_recordAll]
  exact h.foldl_eq' (fun e _ e' _ t => t.combine_right_comm _ _) _

theorem OwnFunders.recordAll {acc : MicrostructureAccumulator} (h : acc.OwnFunders)
    (events : List ClassifiedEvent) : (acc.recordAll events).OwnFunders := by
  induction events generalizing acc with
  | nil => exact h
  | cons e events ih => exact ih (h.record e.asTrade)

end MicrostructureAccumulator

end Features
end AatsSniper

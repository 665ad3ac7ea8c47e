/-
# Bundles over several wallets

`MintExposureLedger`, `MultiWalletOrchestrator.execute_bundle` and its helpers of
`aats/execution/multi_wallet.py`, with the intents of `aats/contracts/intents.py`.

A bundle reserves its whole amount before it sends anything and gives it back only when
something other than the venue raises, which `dispatch_eq_ok` excludes: a slot whose
venue raised counts as one that did not land.  So the ledger holds what has been
committed to a mint since its last reset, landed or not.
-/

import AatsSniper.Lib.Decimal
import AatsSniper.Lib.Run
import AatsSniper.Venue.Client
import Mathlib.Algebra.BigOperators.Group.List.Basic
import Mathlib.Algebra.Order.BigOperators.Group.List
import Mathlib.Data.Int.ConditionallyCompleteOrder

namespace AatsSniper
namespace Execution

open Venue (FillResult)

/-- What a bundle and the constructors it uses raise. -/
inductive BundleError
  | capNotPositive (capLamports : ℤ)
  | antiClusterCapExceeded (mint : String) (requested current cap : ℤ)
  | adverseSelectionBps (value : ℤ)
  | slotGuard (targetSlot minTarget : ℤ)
  | costGate (expectedEdgeBps totalCostBps : ℤ)
  | slotSum (distributed total : ℤ)
  deriving DecidableEq

/-! ### Intents -/

/-- The arguments of `CostStack(...)`. -/
structure CostParams where
  expectedEdgeBps : ℤ
  jitoTipBps : ℤ
  priorityFeeBps : ℤ
  entrySlippageBps : ℤ
  ammFeeBps : ℤ
  exitSlippageBps : ℤ
  adverseSelectionBps : ℤ
  totalCostBps : ℤ

/-- `CostStack`: `_adverse_selection_floor` has passed. -/
structure CostStack extends CostParams where
  floor : 150 ≤ toCostParams.adverseSelectionBps

/-- `CostStack(...)`. -/
def CostStack.new (p : CostParams) : Except BundleError CostStack :=
  if h : 150 ≤ p.adverseSelectionBps then .ok ⟨p, h⟩
  else .error (.adverseSelectionBps p.adverseSelectionBps)

/-- The arguments of `EntryIntent(...)`; of `event_time` its slot. -/
structure EntryParams where
  clientIntentId : String
  mint : String
  eventSlot : ℤ
  solInLamports : ℤ
  slippageBps : ℤ
  tipLamports : ℤ
  cuPriceMicrolamports : ℤ
  targetSlot : ℤ
  costStack : CostStack
  venue : String
  walletId : String

/-- `EntryIntent`: `_slot_guard` and `_cost_gate` have passed. -/
structure EntryIntent extends EntryParams where
  slotGuard : toEntryParams.eventSlot + 5 ≤ toEntryParams.targetSlot
  costGate : toEntryParams.costStack.totalCostBps < toEntryParams.costStack.expectedEdgeBps

/-- `EntryIntent(...)`. -/
def EntryIntent.new (p : EntryParams) : Except BundleError EntryIntent :=
  if hslot : p.eventSlot + 5 ≤ p.targetSlot then
    if hcost : p.costStack.totalCostBps < p.costStack.expectedEdgeBps then .ok ⟨p, hslot, hcost⟩
    else .error (.costGate p.costStack.expectedEdgeBps p.costStack.totalCostBps)
  else .error (.slotGuard p.targetSlot (p.eventSlot + 5))

/-- `_derive_slot_intent(...)`. -/
def deriveSlotIntent (base : EntryIntent) (walletId : String) (slotSolLamports : ℤ)
    (slotIntentId : String) : Except BundleError EntryIntent := do
  let slotCostStack ← CostStack.new base.costStack.toCostParams
  EntryIntent.new { base.toEntryParams with
    clientIntentId := slotIntentId
    solInLamports := slotSolLamports
    costStack := slotCostStack
    walletId := walletId }

/-! ### The ledger -/

/-- `MintExposureLedger`; a mint that is not in the dictionary has exposure 0. -/
structure MintExposureLedger where
  cap : ℤ
  exposure : String → ℤ
  cap_pos : 0 < cap

namespace MintExposureLedger

/-- `MintExposureLedger(cap_lamports)`. -/
def new (capLamports : ℤ) : Except BundleError MintExposureLedger :=
  if h : 0 < capLamports then .ok ⟨capLamports, fun _ => 0, h⟩
  else .error (.capNotPositive capLamports)

/-- `_exposure[mint] = lamports`. -/
def set (l : MintExposureLedger) (mint : String) (lamports : ℤ) : MintExposureLedger :=
  { l with exposure := Function.update l.exposure mint lamports }

/-- `check_and_reserve(mint, sol_lamports)`. -/
def checkAndReserve (l : MintExposureLedger) (mint : String) (solLamports : ℤ) :
    Except BundleError MintExposureLedger :=
  let current := l.exposure mint
  let proposed := current + solLamports
  if proposed > l.cap then .error (.antiClusterCapExceeded mint solLamports current l.cap)
  else .ok (l.set mint proposed)

/-- `release(mint, sol_lamports)`. -/
def release (l : MintExposureLedger) (mint : String) (solLamports : ℤ) : MintExposureLedger :=
  l.set mint (max 0 (l.exposure mint - solLamports))

/-- `reset_mint(mint)`. -/
def resetMint (l : MintExposureLedger) (mint : String) : MintExposureLedger := l.set mint 0

end MintExposureLedger

/-! ### Bundles -/

/-- `MultiWalletOrchestrator`, as its constructor leaves it. -/
structure Orchestrator where
  walletIds : List String
  nonempty : walletIds ≠ []
  distinct : walletIds.Nodup

/-- `n_wallets`. -/
def Orchestrator.nWallets (o : Orchestrator) : ℕ := o.walletIds.length

/-- `WalletSlotFill`. -/
structure WalletSlotFill where
  walletId : String
  intentId : String
  fill : FillResult
  solAllocatedLamports : ℤ

/-- `BundleFillResult`. -/
structure BundleFillResult where
  walletFills : List WalletSlotFill
  anyLanded : Bool
  totalTokensOut : ℤ
  totalSolSpentLamports : ℤ
  totalTipLamports : ℤ
  totalPriorityLamports : ℤ
  partialFill : Bool
  aggregateEffectivePrice : ℚ

/-- `slot_sols`: every slot its share, the last one the remainder too. -/
def slotSols (totalSol : ℤ) (n : ℕ) : List ℤ :=
  let baseSol := totalSol / n
  let remainder := totalSol - baseSol * n
  (List.range n).map fun i => if i = n - 1 then baseSol + remainder else baseSol

/-- The venue's answer to a slot: it returns, or raises an exception of that type. -/
abbrev VenueAnswer := EntryIntent → Except String FillResult

/-- The fill of a slot: an exception of the venue is caught and recorded as a failed fill. -/
def slotFill : Except String FillResult → FillResult
  | .ok fill => fill
  | .error name => { landed := false, reason := "slot_exception:" ++ name }

/-- One turn of the slot loop. -/
def executeSlot (venue : VenueAnswer) (intent : EntryIntent) (i : ℕ) (walletId : String)
    (slotSol : ℤ) : Except BundleError WalletSlotFill := do
  let slotIntentId := intent.clientIntentId ++ ":w" ++ toString i
  let slotIntent ← deriveSlotIntent intent walletId slotSol slotIntentId
  return ⟨walletId, slotIntentId, slotFill (venue slotIntent), slotSol⟩

/-- The slot loop. -/
def executeSlots (venue : VenueAnswer) (intent : EntryIntent) :
    ℕ → List (String × ℤ) → Except BundleError (List WalletSlotFill)
  | _, [] => .ok []
  | i, (walletId, slotSol) :: rest => do
      let slot ← executeSlot venue intent i walletId slotSol
      let slots ← executeSlots venue intent (i + 1) rest
      return slot :: slots

/-- `_aggregate_fills(slot_fills, mint)`. -/
def aggregateFills (slots : List WalletSlotFill) : BundleFillResult :=
  let landed := slots.filter (·.fill.landed)
  let totalTokensOut := (landed.map (·.fill.tokensOut)).sum
  let totalSolSpent := (landed.map (·.solAllocatedLamports)).sum
  { walletFills := slots
    anyLanded := slots.any (·.fill.landed)
    totalTokensOut := totalTokensOut
    totalSolSpentLamports := totalSolSpent
    totalTipLamports := (landed.map (·.fill.tipLamports)).sum
    totalPriorityLamports := (landed.map (·.fill.priorityLamports)).sum
    partialFill := slots.any (·.fill.landed) && decide (landed.length < slots.length)
    aggregateEffectivePrice :=
      if 0 < totalTokensOut ∧ 0 < totalSolSpent then Decimal.div totalSolSpent totalTokensOut
      else 0 }

/-- The block of `execute_bundle` that runs under the reservation. -/
def Orchestrator.dispatch (o : Orchestrator) (venue : VenueAnswer) (intent : EntryIntent) :
    Except BundleError BundleFillResult := do
  let sols := slotSols intent.solInLamports o.nWallets
  require (sols.sum = intent.solInLamports) (.slotSum sols.sum intent.solInLamports)
  let slots ← executeSlots venue intent 0 (o.walletIds.zip sols)
  return aggregateFills slots

/-- `execute_bundle(intent, event)`. -/
def Orchestrator.executeBundle (o : Orchestrator) (venue : VenueAnswer) (intent : EntryIntent)
    (l : MintExposureLedger) : Except BundleError BundleFillResult × MintExposureLedger :=
  match l.checkAndReserve intent.mint intent.solInLamports with
  | .error e => (.error e, l)
  | .ok reserved =>
      match o.dispatch venue intent with
      | .ok result => (.ok result, reserved)
      | .error (.antiClusterCapExceeded mint requested current cap) =>
          (.error (.antiClusterCapExceeded mint requested current cap), reserved)
      | .error e => (.error e, reserved.release intent.mint intent.solInLamports)

/-! ### The slots -/

/-- **The shares come to the whole.** -/
theorem slotSols_sum (totalSol : ℤ) {n : ℕ} (h : 0 < n) : (slotSols totalSol n).sum = totalSol := by
  obtain ⟨m, rfl⟩ := Nat.exists_eq_succ_of_ne_zero h.ne'
  have hfront : (List.range m).map (fun i => if i = m.succ - 1
      then totalSol / ((m.succ : ℕ) : ℤ) +
        (totalSol - totalSol / ((m.succ : ℕ) : ℤ) * ((m.succ : ℕ) : ℤ))
      else totalSol / ((m.succ : ℕ) : ℤ)) =
      List.replicate m (totalSol / ((m.succ : ℕ) : ℤ)) := by
    refine List.eq_replicate_iff.2 ⟨by simp, fun b hb => ?_⟩
    obtain ⟨i, hi, rfl⟩ := List.mem_map.1 hb
    have hlt := List.mem_range.1 hi
    rw [if_neg (by omega)]
  simp only [slotSols]
  rw [List.range_succ, List.map_append, hfront, List.sum_append, List.sum_replicate]
  simp only [List.map_singleton, List.sum_singleton, Nat.succ_sub_one, if_true]
  push_cast
  ring

theorem slotSols_length (totalSol : ℤ) (n : ℕ) : (slotSols totalSol n).length = n := by
  simp [slotSols]

theorem slotSols_nonneg {totalSol : ℤ} (h : 0 ≤ totalSol) {n : ℕ} {sol : ℤ}
    (hsol : sol ∈ slotSols totalSol n) : 0 ≤ sol := by
  obtain ⟨i, hi, rfl⟩ := List.mem_map.1 hsol
  have hpos : (n : ℤ) ≠ 0 := by
    have := List.mem_range.1 hi
    omega
  have hbase : 0 ≤ totalSol / (n : ℤ) := Int.ediv_nonneg h (by omega)
  have hrest : totalSol / (n : ℤ) * n ≤ totalSol := Int.ediv_mul_le totalSol hpos
  split_ifs <;> omega

/-- A slot intent passes the validators its base has passed. -/
theorem deriveSlotIntent_eq_ok (base : EntryIntent) (walletId : String) (slotSolLamports : ℤ)
    (slotIntentId : String) :
    ∃ slotIntent, deriveSlotIntent base walletId slotSolLamports slotIntentId = .ok slotIntent ∧
      slotIntent.mint = base.mint ∧ slotIntent.solInLamports = slotSolLamports := by
  have hcost : CostStack.new base.costStack.toCostParams = .ok base.costStack :=
    dif_pos base.costStack.floor
  let p : EntryParams := { base.toEntryParams with
    clientIntentId := slotIntentId
    solInLamports := slotSolLamports
    walletId := walletId }
  refine ⟨⟨p, base.slotGuard, base.costGate⟩, ?_, rfl, rfl⟩
  rw [deriveSlotIntent, hcost]
  show EntryIntent.new p = _
  rw [EntryIntent.new, dif_pos (show p.eventSlot + 5 ≤ p.targetSlot from base.slotGuard)]
  exact dif_pos base.costGate

/-- **A slot never raises**, whatever the venue does. -/
theorem executeSlot_eq_ok (venue : VenueAnswer) (intent : EntryIntent) (i : ℕ) (walletId : String)
    (slotSol : ℤ) :
    ∃ slot, executeSlot venue intent i walletId slotSol = .ok slot ∧
      slot.walletId = walletId ∧ slot.solAllocatedLamports = slotSol := by
  obtain ⟨slotIntent, hderive, -, -⟩ := deriveSlotIntent_eq_ok intent walletId slotSol
    (intent.clientIntentId ++ ":w" ++ toString i)
  refine ⟨⟨walletId, intent.clientIntentId ++ ":w" ++ toString i, slotFill (venue slotIntent),
    slotSol⟩, ?_, rfl, rfl⟩
  rw [executeSlot, hderive]
  rfl

theorem executeSlots_eq_ok (venue : VenueAnswer) (intent : EntryIntent) (i : ℕ)
    (shares : List (String × ℤ)) :
    ∃ slots, executeSlots venue intent i shares = .ok slots ∧
      slots.map (fun slot => (slot.walletId, slot.solAllocatedLamports)) = shares := by
  induction shares generalizing i with
  | nil => exact ⟨[], rfl, rfl⟩
  | cons share shares ih =>
      obtain ⟨slot, hslot, hwallet, hsol⟩ :=
        executeSlot_eq_ok venue intent i share.1 share.2
      obtain ⟨slots, hslots, hmap⟩ := ih (i + 1)
      refine ⟨slot :: slots, ?_, ?_⟩
      · rw [executeSlots, hslot, hslots]
        rfl
      · rw [List.map_cons, hmap, hwallet, hsol]

/-- **A dispatched bundle returns**, with one fill for each wallet and its share. -/
theorem dispatch_eq_ok (o : Orchestrator) (venue : VenueAnswer) (intent : EntryIntent) :
    ∃ result, o.dispatch venue intent = .ok result ∧
      result = aggregateFills result.walletFills ∧
      result.walletFills.map (·.walletId) = o.walletIds ∧
      result.walletFills.map (·.solAllocatedLamports) =
        slotSols intent.solInLamports o.nWallets := by
  have hwallets : 0 < o.nWallets := List.length_pos_of_ne_nil o.nonempty
  have hsum := slotSols_sum intent.solInLamports hwallets
  obtain ⟨slots, hslots, hmap⟩ := executeSlots_eq_ok venue intent 0
    (o.walletIds.zip (slotSols intent.solInLamports o.nWallets))
  have hlength : o.walletIds.length = (slotSols intent.solInLamports o.nWallets).length := by
    rw [slotSols_length]
    rfl
  refine ⟨aggregateFills slots, ?_, rfl, ?_, ?_⟩
  · rw [Orchestrator.dispatch, require_bind hsum, hslots]
    rfl
  · have hfst := congrArg (List.map Prod.fst) hmap
    rwa [List.map_map, List.map_fst_zip hlength.le] at hfst
  · have hsnd := congrArg (List.map Prod.snd) hmap
    rwa [List.map_map, List.map_snd_zip hlength.ge] at hsnd

/-! ### One call -/

/-- A call the cap refuses: nothing is sent and the ledger stays. -/
theorem executeBundle_refused {o : Orchestrator} {venue : VenueAnswer} {intent : EntryIntent}
    {l : MintExposureLedger} (h : l.cap < l.exposure intent.mint + intent.solInLamports) :
    o.executeBundle venue intent l =
      (.error (.antiClusterCapExceeded intent.mint intent.solInLamports (l.exposure intent.mint)
        l.cap), l) := by
  simp [Orchestrator.executeBundle, MintExposureLedger.checkAndReserve, h]

/-- **A call under the cap** reserves its whole amount and returns. -/
theorem executeBundle_accepted (o : Orchestrator) (venue : VenueAnswer) {intent : EntryIntent}
    {l : MintExposureLedger} (h : l.exposure intent.mint + intent.solInLamports ≤ l.cap) :
    ∃ result, o.executeBundle venue intent l = (.ok result,
        l.set intent.mint (l.exposure intent.mint + intent.solInLamports)) ∧
      result = aggregateFills result.walletFills ∧
      result.walletFills.map (·.walletId) = o.walletIds ∧
      result.walletFills.map (·.solAllocatedLamports) =
        slotSols intent.solInLamports o.nWallets := by
  obtain ⟨result, hdispatch, hspec⟩ := dispatch_eq_ok o venue intent
  refine ⟨result, ?_, hspec⟩
  simp [Orchestrator.executeBundle, MintExposureLedger.checkAndReserve, not_lt.2 h, hdispatch]

/-! ### Runs -/

/-- A call that reaches the ledger. -/
inductive LedgerCall
  | executeBundle (o : Orchestrator) (venue : VenueAnswer) (intent : EntryIntent)
  | resetMint (mint : String)

/-- The amount of a bundle is not negative. -/
def LedgerCall.Sized : LedgerCall → Prop
  | .executeBundle _ _ intent => 0 ≤ intent.solInLamports
  | .resetMint _ => True

/-- What has been allocated to slots that landed. -/
def landedSol (slots : List WalletSlotFill) : ℤ :=
  ((slots.filter (·.fill.landed)).map (·.solAllocatedLamports)).sum

/-- What has been allocated to slots that did not land. -/
def unlandedSol (slots : List WalletSlotFill) : ℤ :=
  ((slots.filter fun slot => !slot.fill.landed).map (·.solAllocatedLamports)).sum

/-- The ledger and, beside it, what has been allocated to the slots of each mint since its last
reset. -/
structure Allocated where
  ledger : MintExposureLedger
  landed : String → ℤ := fun _ => 0
  unlanded : String → ℤ := fun _ => 0

/-- One call. -/
def Allocated.step (s : Allocated) : LedgerCall → Except BundleError Allocated
  | .executeBundle o venue intent =>
      match o.executeBundle venue intent s.ledger with
      | (.ok result, ledger) =>
          let mint := intent.mint
          .ok
            { ledger := ledger
              landed := Function.update s.landed mint
                (s.landed mint + landedSol result.walletFills)
              unlanded := Function.update s.unlanded mint
                (s.unlanded mint + unlandedSol result.walletFills) }
      | (.error _, ledger) => .ok { s with ledger := ledger }
  | .resetMint mint =>
      .ok
        { ledger := s.ledger.resetMint mint
          landed := Function.update s.landed mint 0
          unlanded := Function.update s.unlanded mint 0 }

theorem landedSol_add_unlandedSol (slots : List WalletSlotFill) :
    landedSol slots + unlandedSol slots = (slots.map (·.solAllocatedLamports)).sum := by
  induction slots with
  | nil => rfl
  | cons slot slots ih =>
      unfold landedSol unlandedSol at ih ⊢
      cases h : slot.fill.landed
      · simp [h]
        omega
      · simp [h]
        omega

theorem landedSol_nonneg {slots : List WalletSlotFill}
    (h : ∀ sol ∈ slots.map (·.solAllocatedLamports), 0 ≤ sol) :
    0 ≤ landedSol slots ∧ 0 ≤ unlandedSol slots := by
  constructor
  · refine List.sum_nonneg fun sol hsol => h sol ?_
    exact (List.filter_sublist.map _).subset hsol
  · refine List.sum_nonneg fun sol hsol => h sol ?_
    exact (List.filter_sublist.map _).subset hsol

/-- What the ledger stands for. -/
structure Allocated.Balanced (capLamports : ℤ) (s : Allocated) : Prop where
  cap_eq : s.ledger.cap = capLamports
  exposure_eq : ∀ mint, s.ledger.exposure mint = s.landed mint + s.unlanded mint
  landed_nonneg : ∀ mint, 0 ≤ s.landed mint
  unlanded_nonneg : ∀ mint, 0 ≤ s.unlanded mint
  exposure_le : ∀ mint, s.ledger.exposure mint ≤ capLamports

/-- **One call keeps the balance.** -/
theorem Allocated.balanced_step {capLamports : ℤ} {s s' : Allocated} {call : LedgerCall}
    (h : s.Balanced capLamports) (hsized : call.Sized) (hstep : s.step call = .ok s') :
    s'.Balanced capLamports := by
  cases call with
  | resetMint mint =>
      obtain rfl := Except.ok.inj hstep
      have hcap := h.cap_eq ▸ s.ledger.cap_pos
      refine ⟨h.cap_eq, ?_, ?_, ?_, ?_⟩ <;>
        intro other <;> by_cases heq : other = mint
      all_goals
        simp only [MintExposureLedger.resetMint, MintExposureLedger.set, heq,
          Function.update_self, ne_eq, not_false_eq_true, Function.update_of_ne]
      · rfl
      · exact h.exposure_eq other
      · exact le_rfl
      · exact h.landed_nonneg other
      · exact le_rfl
      · exact h.unlanded_nonneg other
      · exact hcap.le
      · exact h.exposure_le other
  | executeBundle o venue intent =>
      simp only [Allocated.step] at hstep
      by_cases hcap : s.ledger.cap < s.ledger.exposure intent.mint + intent.solInLamports
      · rw [executeBundle_refused hcap] at hstep
        obtain rfl := Except.ok.inj hstep
        exact h
      obtain ⟨result, hexecute, -, -, hsols⟩ := executeBundle_accepted o venue (not_lt.1 hcap)
      rw [hexecute] at hstep
      obtain rfl := Except.ok.inj hstep
      have hwallets : 0 < o.nWallets := List.length_pos_of_ne_nil o.nonempty
      have hsum := landedSol_add_unlandedSol result.walletFills
      rw [hsols, slotSols_sum intent.solInLamports hwallets] at hsum
      obtain ⟨hlanded, hunlanded⟩ : 0 ≤ landedSol result.walletFills ∧
          0 ≤ unlandedSol result.walletFills := by
        refine landedSol_nonneg fun sol hsol => ?_
        rw [hsols] at hsol
        exact slotSols_nonneg hsized hsol
      have hmint := h.exposure_eq intent.mint
      have hlanded_nonneg := h.landed_nonneg intent.mint
      have hunlanded_nonneg := h.unlanded_nonneg intent.mint
      have hle : s.ledger.exposure intent.mint + intent.solInLamports ≤ capLamports := by
        rw [← h.cap_eq]
        exact not_lt.1 hcap
      refine ⟨h.cap_eq, ?_, ?_, ?_, ?_⟩ <;>
        intro other <;> by_cases heq : other = intent.mint
      all_goals
        simp only [MintExposureLedger.set, heq, Function.update_self, ne_eq, not_false_eq_true,
          Function.update_of_ne]
      · omega
      · exact h.exposure_eq other
      · omega
      · exact h.landed_nonneg other
      · omega
      · exact h.unlanded_nonneg other
      · exact hle
      · exact h.exposure_le other

theorem Allocated.balanced_run {ledger : MintExposureLedger} {capLamports : ℤ}
    (hnew : MintExposureLedger.new capLamports = .ok ledger) {calls : List LedgerCall}
    {s : Allocated} (hsized : ∀ call ∈ calls, call.Sized)
    (hrun : runSteps Allocated.step { ledger := ledger } calls = .ok s) :
    s.Balanced capLamports := by
  have hinit : Allocated.Balanced capLamports { ledger := ledger } := by
    unfold MintExposureLedger.new at hnew
    split at hnew
    · obtain rfl := Except.ok.inj hnew
      constructor <;> simp
      omega
    · cases hnew
  refine runSteps_history (P := fun calls s => (∀ call ∈ calls, call.Sized) →
    Balanced capLamports s) (fun _ => hinit) ?_ hrun hsized
  intro calls s call s' ih hstep hsized
  have hcalls := List.forall_mem_append.1 hsized
  exact Allocated.balanced_step (ih hcalls.1) (hcalls.2 call List.mem_cons_self) hstep

/-- **The ledger holds what was committed.**  After any calls the exposure of a mint is what has
been allocated to the slots of its bundles since its last reset, landed or not; it is never
below what landed and never over the cap.  A further bundle that the cap refuses leaves the
ledger as it was, and the shares of one that it accepts come to its amount. -/
theorem mint_exposure_committed {ledger : MintExposureLedger} {capLamports : ℤ}
    (hnew : MintExposureLedger.new capLamports = .ok ledger) {calls : List LedgerCall}
    {s : Allocated} (hsized : ∀ call ∈ calls, call.Sized)
    (hrun : runSteps Allocated.step { ledger := ledger } calls = .ok s) :
    (∀ mint, s.ledger.exposure mint = s.landed mint + s.unlanded mint ∧
      s.landed mint ≤ s.ledger.exposure mint ∧ s.ledger.exposure mint ≤ capLamports) ∧
    ∀ (o : Orchestrator) (venue : VenueAnswer) (intent : EntryIntent),
      if capLamports < s.ledger.exposure intent.mint + intent.solInLamports then
        o.executeBundle venue intent s.ledger =
          (.error (.antiClusterCapExceeded intent.mint intent.solInLamports
            (s.ledger.exposure intent.mint) capLamports), s.ledger)
      else ∃ result, (o.executeBundle venue intent s.ledger).1 = .ok result ∧
        result.walletFills.map (·.walletId) = o.walletIds ∧
        (result.walletFills.map (·.solAllocatedLamports)).sum = intent.solInLamports := by
  have hbalanced := Allocated.balanced_run hnew hsized hrun
  refine ⟨fun mint => ⟨hbalanced.exposure_eq mint, ?_, hbalanced.exposure_le mint⟩, ?_⟩
  · have := hbalanced.exposure_eq mint
    have := hbalanced.unlanded_nonneg mint
    omega
  · intro o venue intent
    rw [← hbalanced.cap_eq]
    split_ifs with hcap
    · exact executeBundle_refused hcap
    · obtain ⟨result, hexecute, -, hids, hsols⟩ := executeBundle_accepted o venue (not_lt.1 hcap)
      have hwallets : 0 < o.nWallets := List.length_pos_of_ne_nil o.nonempty
      exact ⟨result, by rw [hexecute], hids, by rw [hsols, slotSols_sum _ hwallets]⟩

/-- One wallet. -/
def singleWallet : Orchestrator := ⟨["wallet-0"], by decide, by decide⟩

/-- An entry of 10 lamports into mint `m`. -/
def smallEntry : EntryIntent where
  clientIntentId := "id"
  mint := "m"
  eventSlot := 0
  solInLamports := 10
  slippageBps := 100
  tipLamports := 1
  cuPriceMicrolamports := 1
  targetSlot := 5
  costStack :=
    { expectedEdgeBps := 1000
      jitoTipBps := 10
      priorityFeeBps := 10
      entrySlippageBps := 10
      ammFeeBps := 10
      exitSlippageBps := 10
      adverseSelectionBps := 150
      totalCostBps := 200
      floor := by decide }
  venue := "sim"
  walletId := "wallet-0"
  slotGuard := by decide
  costGate := by decide

/-- A venue where nothing lands. -/
def nothingLands : VenueAnswer := fun _ => .ok { landed := false, reason := "reverted" }

/-- Two wallets. -/
def twoWallets : Orchestrator := ⟨["wallet-0", "wallet-1"], by decide, by decide⟩

/-- A venue where the first wallet lands and the second one's slot raises. -/
def firstLands : VenueAnswer := fun intent =>
  if intent.walletId = "wallet-0" then .ok { landed := true, reason := "filled" }
  else .error "RuntimeError"

/-- A reset between a bundle none of which landed and one that landed in part. -/
def mixedCalls : List LedgerCall :=
  [.executeBundle singleWallet nothingLands smallEntry, .resetMint "m",
    .executeBundle twoWallets firstLands smallEntry]

theorem mixedCalls_sized : ∀ call ∈ mixedCalls, call.Sized := by
  simp [mixedCalls, LedgerCall.Sized, smallEntry]

/-- The mixed calls under a cap of 100. -/
theorem mint_exposure_committed_mixed :
    ∃ ledger s, MintExposureLedger.new 100 = .ok ledger ∧
      runSteps Allocated.step { ledger := ledger } mixedCalls = .ok s ∧
      ∀ mint, s.ledger.exposure mint = s.landed mint + s.unlanded mint ∧
        s.landed mint ≤ s.ledger.exposure mint ∧ s.ledger.exposure mint ≤ 100 :=
  ⟨_, _, rfl, rfl, (mint_exposure_committed rfl mixedCalls_sized rfl).1⟩

/-- A bundle none of which landed is counted in full. -/
theorem mint_exposure_without_landing :
    ∃ ledger s, MintExposureLedger.new 100 = .ok ledger ∧
      runSteps Allocated.step { ledger := ledger }
        [.executeBundle singleWallet nothingLands smallEntry] = .ok s ∧
      s.landed "m" = 0 ∧ s.ledger.exposure "m" = 10 := by
  refine ⟨_, _, rfl, rfl, ?_, ?_⟩ <;> decide +kernel

end Execution
end AatsSniper

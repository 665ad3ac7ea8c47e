/-
# Tranches of a DCA plan

`place_dca` puts one BUY a tranche into the book, each with the step it is scheduled
at.  A plan may have a price trigger; a tranche of a plan without one is given the
placeholder `AT_OR_ABOVE 1`, which the source calls permissive.

A tick evaluates a BUY when, at the BUY's turn, it is put to the gates
(`Evaluated`).  That is so iff the tick gets to the BUY and the BUY is due
(`evaluated_iff_due`), and a tranche is due as its plan says iff the plan has a
trigger, the mark is 1 or more, or the step is not reached
(`due_iff_eligible_iff`): below 1 the placeholder is a price condition.
-/

import AatsSniper.Orders.Tick

namespace AatsSniper
namespace Orders

variable {S C B I : Type} {env : TickEnv S C B I} {call : TickCall S C B} {s s' : TickState I}
  {b b' : RestingOrderBook} {plan : DcaPlan} {o : RestingBuyOrder} {idx : ℕ}

theorem place_orders (b : RestingOrderBook) (order : RestingOrder) :
    (b.place order).orders = b.orders.upsert order := by
  unfold RestingOrderBook.place
  dsimp only
  split <;> rfl

/-- Orders of distinct ids are all in the book once placed. -/
theorem mem_foldl_place {orders : List RestingBuyOrder}
    (hdistinct : (orders.map RestingBuyOrder.orderId).Nodup) (b : RestingOrderBook) :
    ∀ o ∈ orders, .buy o ∈ (orders.foldl (fun b o => b.place (.buy o)) b).orders.rows := by
  induction orders using List.reverseRecOn with
  | nil => simp
  | append_singleton orders last ih =>
      rw [List.map_append, List.nodup_append] at hdistinct
      obtain ⟨hinit, -, hapart⟩ := hdistinct
      intro o ho
      rw [List.foldl_append, List.foldl_cons, List.foldl_nil, place_orders, Table.mem_upsert]
      rcases List.mem_append.1 ho with ho | ho
      · exact .inr ⟨ih hinit o ho,
          hapart _ (List.mem_map_of_mem ho) _ (List.mem_singleton.2 rfl)⟩
      · exact .inl (by rw [List.mem_singleton.1 ho])

/-- A number is read back from its digits. -/
theorem toString_nat_injective : Function.Injective (toString : ℕ → String) := by
  intro m n h
  have hdigits : Nat.toDigits 10 m = Nat.toDigits 10 n := by
    rw [← Nat.toList_repr, ← Nat.toList_repr]
    exact congrArg String.toList h
  rw [← Nat.ofDigitChars_ten_toDigits (n := m), hdigits, Nat.ofDigitChars_ten_toDigits]

/-- Two tranches of a plan have two ids. -/
theorem trancheId_injective (plan : DcaPlan) :
    Function.Injective fun idx => (plan.buyOrderForTranche idx).orderId := by
  intro idx idx' h
  exact toString_nat_injective ((String.append_right_inj _).1 h)

/-- **Every tranche of a plan is in the book it is placed in.** -/
theorem mem_placeDca (b : RestingOrderBook) (hidx : idx < plan.tranches) :
    .buy (plan.buyOrderForTranche idx) ∈ (b.placeDca plan).orders.rows := by
  refine mem_foldl_place ?_ b _ (List.mem_map_of_mem (List.mem_range.2 hidx))
  rw [List.map_map]
  exact List.nodup_range.map (trancheId_injective plan)

/-- The tick gets to the order in state `s`: its arguments are accepted and no order before it
raises. -/
def GetsTo (env : TickEnv S C B I) (call : TickCall S C B) (b : RestingOrderBook)
    (order : RestingOrder) (s : TickState I) : Prop :=
  0 ≤ call.blockTimeMs ∧ ∃ before after,
    candidates b call.mint = before ++ order :: after ∧
      runLeaving (tickStep env call) (.start b) before = (.ok (), s)

/-- At its turn the BUY has a result among the fires, or raises. -/
def PutToGates (env : TickEnv S C B I) (call : TickCall S C B) (s : TickState I)
    (o : RestingBuyOrder) : Prop :=
  (∃ result, .buy o.orderId result ∈ (tickStep env call s (.buy o)).2.fires) ∨
    ∃ e, (tickStep env call s (.buy o)).1 = .error e

/-- The tick evaluates the BUY. -/
def Evaluated (env : TickEnv S C B I) (call : TickCall S C B) (b : RestingOrderBook)
    (o : RestingBuyOrder) : Prop :=
  ∃ s, GetsTo env call b (.buy o) s ∧ PutToGates env call s o

/-- Before its turn a BUY has no result among the fires. -/
theorem GetsTo.not_mem_fires (h : GetsTo env call b (.buy o) s) (result : BuyFireResult I) :
    .buy o.orderId result ∉ s.fires := by
  intro hmem
  obtain ⟨-, before, after, hsplit, hbefore⟩ := h
  have haccounts := loop_accounts env call b before
  rw [hbefore] at haccounts
  obtain ⟨o', ho', hid⟩ := haccounts.sources _ hmem
  have hdistinct := candidates_distinct b call.mint
  rw [hsplit, List.map_append, List.nodup_append] at hdistinct
  exact hdistinct.2.2 _ (List.mem_map_of_mem ho') _ (List.mem_map_of_mem List.mem_cons_self) hid

/-- A BUY is put to the gates at its turn iff it is due. -/
theorem putToGates_iff_due (h : GetsTo env call b (.buy o) s) :
    PutToGates env call s o ↔ Due call o := by
  unfold PutToGates
  have hstepped := stepped env call s (.buy o)
  generalize (tickStep env call s (.buy o)).1 = outcome at *
  generalize (tickStep env call s (.buy o)).2 = s' at *
  cases hstepped with
  | waiting hdue => simp [hdue, h.not_mem_fires]
  | raised hdue hfire => simp [hdue]
  | refused hdue hfire => simp [hdue]
  | bought hdue hfire => simp [hdue]

/-- **What a tick evaluates**: the due BUYs that it gets to. -/
theorem evaluated_iff_due :
    Evaluated env call b o ↔ (∃ s, GetsTo env call b (.buy o) s) ∧ Due call o := by
  constructor
  · rintro ⟨s, hgets, hput⟩
    exact ⟨⟨s, hgets⟩, (putToGates_iff_due hgets).1 hput⟩
  · rintro ⟨⟨s, hgets⟩, hdue⟩
    exact ⟨s, hgets, (putToGates_iff_due hgets).2 hdue⟩

theorem evaluateTick_time {fires : List (TickFire I)}
    (h : evaluateTick env b call = (.ok fires, b')) : 0 ≤ call.blockTimeMs := by
  by_contra htime
  rw [evaluateTick, if_pos (not_le.1 htime)] at h
  cases h

/-- The due BUY has a result among the fires. -/
def FiresIfDue (call : TickCall S C B) (order : RestingOrder) (s : TickState I) : Prop :=
  ∀ o, order = .buy o → Due call o → ∃ result, .buy o.orderId result ∈ s.fires

theorem Stepped.firesIfDue {order : RestingOrder}
    (h : Stepped env call s order (.ok ()) s') : FiresIfDue call order s' := by
  rintro o rfl hdue
  generalize hout : (Except.ok () : Except OrderError Unit) = outcome at h
  cases h with
  | waiting hnot => exact absurd hdue hnot
  | raised _ _ => cases hout
  | refused _ _ => exact ⟨_, List.mem_append_right _ (List.mem_singleton_self _)⟩
  | bought _ _ => exact ⟨_, List.mem_append_right _ (List.mem_singleton_self _)⟩

/-- Every result among the fires is of a due BUY. -/
def FiresOnlyDue (call : TickCall S C B) (orders : List RestingOrder) (s : TickState I) : Prop :=
  ∀ orderId result, .buy orderId result ∈ s.fires →
    ∃ o, .buy o ∈ orders ∧ o.orderId = orderId ∧ Due call o

theorem Stepped.firesOnlyDue {order : RestingOrder} {orders : List RestingOrder}
    {outcome : Except OrderError Unit} (h : Stepped env call s order outcome s')
    (horder : order ∈ orders) (hs : FiresOnlyDue call orders s) :
    FiresOnlyDue call orders s' := by
  intro orderId result hmem
  cases h with
  | kept _ => exact hs _ _ hmem
  | waiting _ => exact hs _ _ hmem
  | raised _ _ => exact hs _ _ hmem
  | sold _ =>
      rcases List.mem_append.1 hmem with hmem | hmem
      · exact hs _ _ hmem
      · cases List.mem_singleton.1 hmem
  | @refused o _ _ _ hdue _ =>
      rcases List.mem_append.1 hmem with hmem | hmem
      · exact hs _ _ hmem
      · cases List.mem_singleton.1 hmem
        exact ⟨o, horder, rfl, hdue⟩
  | @bought o _ _ _ _ hdue _ =>
      rcases List.mem_append.1 hmem with hmem | hmem
      · exact hs _ _ hmem
      · cases List.mem_singleton.1 hmem
        exact ⟨o, horder, rfl, hdue⟩

/-- **A tick that returns** has evaluated the BUYs of its mint with a result among its fires. -/
theorem evaluated_iff_mem_fires {fires : List (TickFire I)}
    (h : evaluateTick env b call = (.ok fires, b')) (ho : .buy o ∈ b.orders.rows)
    (hmint : o.mint = call.mint) :
    Evaluated env call b o ↔ ∃ result, .buy o.orderId result ∈ fires := by
  obtain ⟨s, hloop, rfl, -⟩ := evaluateTick_eq_ok h
  have hmem : .buy o ∈ candidates b call.mint := mem_candidates.2 ⟨ho, hmint⟩
  have hgets : ∃ s, GetsTo env call b (.buy o) s := by
    obtain ⟨before, after, hsplit⟩ := List.append_of_mem hmem
    obtain ⟨s₁, hbefore, -⟩ := ok_of_runLeaving_append (hsplit ▸ hloop)
    exact ⟨s₁, evaluateTick_time h, before, after, hsplit, hbefore⟩
  rw [evaluated_iff_due, and_iff_right hgets]
  constructor
  · intro hdue
    have hforall : ∀ order ∈ candidates b call.mint, FiresIfDue call order s := by
      refine runLeaving_forall (fun s order s' hstep => ?_) (fun s order other hother => ?_) hloop
      · have hstepped := stepped env call s order
        rw [hstep] at hstepped
        exact hstepped.firesIfDue
      · intro o' ho' hdue'
        obtain ⟨result, hfire⟩ := hother o' ho' hdue'
        exact ⟨result, (stepped env call s order).fires_subset hfire⟩
    exact hforall _ hmem o rfl hdue
  · rintro ⟨result, hfire⟩
    have honly : FiresOnlyDue call (candidates b call.mint)
        (runLeaving (tickStep env call) (.start b) (candidates b call.mint)).2 := by
      refine runLeaving_invariant ?_ fun s order horder hs =>
        (stepped env call s order).firesOnlyDue horder hs
      intro orderId result hnil
      cases hnil
    rw [hloop] at honly
    obtain ⟨o', ho', hid, hdue⟩ := honly _ _ hfire
    obtain rfl := RestingOrder.buy.inj (order_unique (mem_candidates.1 ho').1 ho hid)
    exact hdue

/-- What the plan asks of a tick for a tranche: its step, and the price trigger if there is one. -/
def Eligible (plan : DcaPlan) (idx : ℕ) (mark : ℚ) (eventStep : ℤ) : Prop :=
  ((plan.firstStep + idx * plan.stepInterval : ℕ) : ℤ) ≤ eventStep ∧
    ∀ price, plan.triggerPrice = some price → triggerMet plan.triggerDirection mark price = true

/-- When a tranche is due. -/
theorem due_tranche {eventStep : ℤ} (hstep : call.eventStep = some eventStep) :
    Due call (plan.buyOrderForTranche idx) ↔
      ((plan.firstStep + idx * plan.stepInterval : ℕ) : ℤ) ≤ eventStep ∧
        (plan.buyOrderForTranche idx).isTriggered call.markPrice = true := by
  unfold Due buyStepReady
  rw [hstep, Bool.and_eq_true]
  simp [DcaPlan.buyOrderForTranche]

/-- The placeholder only holds a tranche back. -/
theorem eligible_of_due {eventStep : ℤ} (hstep : call.eventStep = some eventStep)
    (hdue : Due call (plan.buyOrderForTranche idx)) :
    Eligible plan idx call.markPrice eventStep := by
  obtain ⟨hreached, htriggered⟩ := (due_tranche hstep).1 hdue
  refine ⟨hreached, fun price hprice => ?_⟩
  simpa [RestingBuyOrder.isTriggered, DcaPlan.buyOrderForTranche, hprice] using htriggered

/-- **When a tranche is due as its plan says.** -/
theorem due_iff_eligible_iff {eventStep : ℤ} (hstep : call.eventStep = some eventStep) :
    (Due call (plan.buyOrderForTranche idx) ↔ Eligible plan idx call.markPrice eventStep) ↔
      plan.triggerPrice.isSome ∨ 1 ≤ call.markPrice ∨
        eventStep < (plan.firstStep + idx * plan.stepInterval : ℕ) := by
  rw [due_tranche hstep, Eligible, ← not_le]
  cases hprice : plan.triggerPrice with
  | some price => simp [RestingBuyOrder.isTriggered, DcaPlan.buyOrderForTranche, hprice]
  | none =>
      have hplaceholder : (plan.buyOrderForTranche idx).isTriggered call.markPrice = true ↔
          1 ≤ call.markPrice := by
        simp [RestingBuyOrder.isTriggered, DcaPlan.buyOrderForTranche, hprice, triggerMet]
      rw [hplaceholder]
      simp only [reduceCtorEq, false_implies, implies_true, and_true, Option.isSome_none,
        Bool.false_eq_true, false_or]
      tauto

/-- **When a tranche of a DCA plan is evaluated as its plan says.**  Every tranche is in the book it
is placed in.  In every book that has it, a tick of its mint that is given a step evaluates it
exactly when it is eligible iff the tick gets to it where it is eligible, and the plan has a price
trigger, or the mark is 1 or more, or the step is not reached. -/
theorem tranche_evaluated_iff (plan : DcaPlan) (idx : ℕ) (hidx : idx < plan.tranches) :
    (∀ b, .buy (plan.buyOrderForTranche idx) ∈ (RestingOrderBook.placeDca b plan).orders.rows) ∧
      ∀ (env : TickEnv S C B I) (call : TickCall S C B) (b : RestingOrderBook) (eventStep : ℤ),
        .buy (plan.buyOrderForTranche idx) ∈ b.orders.rows → call.mint = plan.mint →
          call.eventStep = some eventStep →
            ((Evaluated env call b (plan.buyOrderForTranche idx) ↔
                Eligible plan idx call.markPrice eventStep) ↔
              (Eligible plan idx call.markPrice eventStep →
                ∃ s, GetsTo env call b (.buy (plan.buyOrderForTranche idx)) s) ∧
              (plan.triggerPrice.isSome ∨ 1 ≤ call.markPrice ∨
                eventStep < (plan.firstStep + idx * plan.stepInterval : ℕ))) := by
  refine ⟨fun b => mem_placeDca b hidx, fun env call b eventStep _ _ hstep => ?_⟩
  rw [evaluated_iff_due, ← due_iff_eligible_iff hstep]
  have honly : Due call (plan.buyOrderForTranche idx) →
      Eligible plan idx call.markPrice eventStep := eligible_of_due hstep
  constructor
  · intro hexact
    exact ⟨fun heligible => (hexact.2 heligible).1, honly, fun heligible => (hexact.2 heligible).2⟩
  · rintro ⟨hgets, hdue⟩
    exact ⟨fun h => honly h.2, fun heligible => ⟨hgets heligible, hdue.2 heligible⟩⟩

/-- Two tranches on the schedule alone, a step apart. -/
def twoTranches : DcaPlan where
  planId := "plan"
  mint := "mint"
  tranches := 2
  stepInterval := 1
  tranches_pos := by decide
  interval_pos := by decide
  trigger_pos := by simp

/-- The book the two tranches are placed in. -/
def twoTranchesBook : RestingOrderBook := (RestingOrderBook.boot .empty none).placeDca twoTranches

/-- A tick of the mint at a step, with no gates and no context. -/
def markAt (markPrice : ℚ) (eventStep : ℤ) : TickCall Unit Unit Unit where
  mint := "mint"
  markPrice := markPrice
  blockTimeMs := 0
  eventStep := some eventStep

/-- No gate chain, and a keeper that refuses nothing. -/
def noChain : TickEnv Unit Unit Unit Unit := ⟨none, fun _ => false⟩

/-- The second tranche, at its step and a mark of 2. -/
theorem tranche_evaluated_iff_above :
    Evaluated noChain (markAt 2 1) twoTranchesBook (twoTranches.buyOrderForTranche 1) ↔
      Eligible twoTranches 1 2 1 := by
  obtain ⟨hplaced, hiff⟩ := tranche_evaluated_iff (S := Unit) (C := Unit) (B := Unit) (I := Unit)
    twoTranches 1 (by decide)
  refine (hiff noChain (markAt 2 1) twoTranchesBook 1 (hplaced _) rfl rfl).2 ⟨fun _ => ?_, ?_⟩
  · exact ⟨_, le_rfl, [.buy (twoTranches.buyOrderForTranche 0)], [], rfl, rfl⟩
  · exact .inr (.inl (by norm_num [markAt]))

/-- Below 1 a tranche on the schedule alone is not evaluated at its step. -/
theorem schedule_only_tranche_waits :
    (∃ s, GetsTo noChain (markAt (1 / 2) 0) twoTranchesBook
        (.buy (twoTranches.buyOrderForTranche 0)) s) ∧
      Eligible twoTranches 0 (1 / 2) 0 ∧
      ¬ Evaluated noChain (markAt (1 / 2) 0) twoTranchesBook (twoTranches.buyOrderForTranche 0) := by
  refine ⟨⟨_, le_rfl, [], [.buy (twoTranches.buyOrderForTranche 1)], rfl, rfl⟩,
    ⟨by decide, by simp [twoTranches]⟩, fun hevaluated => ?_⟩
  have hdue := (evaluated_iff_due.1 hevaluated).2
  revert hdue
  norm_num [Due, markAt, twoTranches, RestingBuyOrder.isTriggered, DcaPlan.buyOrderForTranche,
    triggerMet]

end Orders
end AatsSniper

/-
# What a tick fires and what it removes

`Stepped` lists what the body of `evaluate_tick`'s loop can do with one order.  From
it, over the whole loop: the sizes that fire are reserved one after the other against
the aggregate cap (`Reserves`), and an order has left the book iff a fire that
removes it is among the fires (`Accounts`).

`same_tick_buys_within_cap` puts the two together for a tick that returns.  A tick
that raises has removed the orders that fired before, and returns no fire:
`nothing_lost_iff` says when nothing is lost by that.
-/

import AatsSniper.Orders.Book

namespace AatsSniper
namespace Orders

open Breaker (RiskConfig)

variable {S C B I : Type} {env : TickEnv S C B I} {call : TickCall S C B} {s s' : TickState I}
  {b b' : RestingOrderBook} {order : RestingOrder}

/-! ### One order -/

theorem cancel_orders (b : RestingOrderBook) (orderId : String) (raises : Bool) :
    (b.cancel orderId raises).2.orders = b.orders.remove orderId := by
  unfold RestingOrderBook.cancel
  dsimp only
  split
  · split
    · split_ifs <;> rfl
    · rfl
  · rfl

/-- The order is a BUY that is due and triggered. -/
def Due (call : TickCall S C B) (o : RestingBuyOrder) : Prop :=
  (buyStepReady o call.eventStep && o.isTriggered call.markPrice) = true

/-- What the body of the loop can do with an order. -/
inductive Stepped (env : TickEnv S C B I) (call : TickCall S C B) (s : TickState I) :
    RestingOrder → Except OrderError Unit → TickState I → Prop
  /-- A SELL that is not triggered. -/
  | kept {o : RestingSellOrder} (h : o.isTriggered call.markPrice = false) :
      Stepped env call s (.sell o) (.ok ()) s
  /-- A SELL that fires; the keeper may refuse its cancel. -/
  | sold {o : RestingSellOrder} (h : o.isTriggered call.markPrice = true) :
      Stepped env call s (.sell o) (s.book.cancel o.orderId (env.cancelRaises o.orderId)).1
        { s with
          book := (s.book.cancel o.orderId (env.cancelRaises o.orderId)).2
          fires := s.fires ++ [.sell o.orderId o.side (o.fire call.blockTimeMs)] }
  /-- A BUY that is not due or not triggered. -/
  | waiting {o : RestingBuyOrder} (h : ¬ Due call o) : Stepped env call s (.buy o) (.ok ()) s
  /-- A BUY whose context or gate raises. -/
  | raised {o : RestingBuyOrder} {e : OrderError} (h : Due call o)
      (hfire : fireBuy env call s.committed o = .error e) : Stepped env call s (.buy o) (.error e) s
  /-- A BUY the gates refuse. -/
  | refused {o : RestingBuyOrder} {mint detail : String} {why : BuyFireRejection} (h : Due call o)
      (hfire : fireBuy env call s.committed o = .ok (.rejected mint why detail)) :
      Stepped env call s (.buy o) (.ok ())
        { s with fires := s.fires ++ [.buy o.orderId (.rejected mint why detail)] }
  /-- A BUY that fires. -/
  | bought {o : RestingBuyOrder} {mint detail : String} {intent : I} {n : ℤ} (h : Due call o)
      (hfire : fireBuy env call s.committed o = .ok (.fired mint intent n detail)) :
      Stepped env call s (.buy o) (s.book.cancel o.orderId (env.cancelRaises o.orderId)).1
        { s with
          book := (s.book.cancel o.orderId (env.cancelRaises o.orderId)).2
          fires := s.fires ++ [.buy o.orderId (.fired mint intent n detail)]
          committed := s.committed + n }

/-- **What one order can do to the tick.** -/
theorem stepped (env : TickEnv S C B I) (call : TickCall S C B) (s : TickState I)
    (order : RestingOrder) :
    Stepped env call s order (tickStep env call s order).1 (tickStep env call s order).2 := by
  cases order with
  | sell o =>
      by_cases h : o.isTriggered call.markPrice = true
      · simp only [tickStep, if_pos h]
        exact .sold h
      · simp only [tickStep, if_neg h]
        exact .kept (Bool.not_eq_true _ ▸ h)
  | buy o =>
      by_cases h : (buyStepReady o call.eventStep && o.isTriggered call.markPrice) = true
      · simp only [tickStep, if_pos h]
        cases hfire : fireBuy env call s.committed o with
        | error e => exact .raised h hfire
        | ok result =>
            cases result with
            | fired mint intent n detail => exact .bought h hfire
            | rejected mint why detail => exact .refused h hfire
      · simp only [tickStep, if_neg h]
        exact .waiting h

/-! ### Reserved sizes -/

/-- The size of a BUY that fired. -/
def TickFire.boughtSize : TickFire I → Option ℤ
  | .buy _ (.fired _ _ n _) => some n
  | _ => none

/-- The sizes of the BUYs that fired. -/
def boughtSizes (fires : List (TickFire I)) : List ℤ := fires.filterMap TickFire.boughtSize

/-- The bounds on one size: the Kelly share of the per-trade cap rounded up to a whole lamport, and
the share itself where it has at most 28 digits. -/
def WithinShare (config : RiskConfig) (n : ℤ) : Prop :=
  n ≤ ⌈kellyShare config⌉ ∧ (Decimal.Fits (kellyShare config) → (n : ℚ) ≤ kellyShare config)

/-- What a BUY that fires was sized against. -/
theorem fireBuy_fired {chain : GatedEntryFireChain S C B I} {ctx : BuyFireContext S C B}
    (hchain : env.chain = some chain) (hctx : call.buyContext = some ctx) {committed : ℤ}
    {o : RestingBuyOrder} {mint detail : String} {intent : I} {n : ℤ}
    (h : fireBuy env call committed o = .ok (.fired mint intent n detail)) :
    0 < n ∧ WithinShare chain.config n ∧
      ctx.currentAggregateLamports + committed + n ≤ chain.config.maxAggregateLamports := by
  unfold fireBuy at h
  obtain ⟨ctx', hctx', h⟩ := ok_of_bind h
  have haggregate : ctx'.currentAggregateLamports = ctx.currentAggregateLamports + committed := by
    unfold buyCtxFor at hctx'
    rw [hctx] at hctx'
    split_ifs at hctx'
    dsimp only at hctx'
    split_ifs at hctx'
    obtain rfl := Except.ok.inj hctx'
    rfl
  unfold RestingBuyOrder.fire at h
  obtain ⟨-, h⟩ := ok_of_require h
  rw [hchain] at h
  obtain ⟨d, hsize, rfl, hpos⟩ := evaluateBuy_fired h
  have hremaining := size_le_remaining hsize
  rw [haggregate] at hremaining
  refine ⟨hpos, ⟨size_le_ceil hsize hpos, size_le_share hsize hpos⟩, ?_⟩
  omega

/-- What the loop has committed is the sum of what it fired, and it fits under the cap. -/
structure Reserves (config : RiskConfig) (aggregate : ℤ) (s : TickState I) : Prop where
  committed_eq : s.committed = (boughtSizes s.fires).sum
  fits : aggregate + s.committed ≤ config.maxAggregateLamports
  within : ∀ n ∈ boughtSizes s.fires, WithinShare config n

theorem boughtSizes_append (fires fires' : List (TickFire I)) :
    boughtSizes (fires ++ fires') = boughtSizes fires ++ boughtSizes fires' :=
  List.filterMap_append

theorem boughtSizes_append_of_none {f : TickFire I} (h : f.boughtSize = none)
    (fires : List (TickFire I)) : boughtSizes (fires ++ [f]) = boughtSizes fires := by
  have hnone : boughtSizes [f] = [] := by
    unfold boughtSizes
    rw [List.filterMap_cons_none h, List.filterMap_nil]
  rw [boughtSizes_append, hnone, List.append_nil]

/-- A fire that commits nothing. -/
theorem Reserves.append {config : RiskConfig} {aggregate : ℤ} (hs : Reserves config aggregate s)
    {f : TickFire I} (h : f.boughtSize = none) (book : RestingOrderBook) :
    Reserves config aggregate ⟨book, s.fires ++ [f], s.committed⟩ := by
  have hsizes := boughtSizes_append_of_none h s.fires
  refine ⟨?_, hs.fits, ?_⟩
  · rw [hsizes]
    exact hs.committed_eq
  · rw [hsizes]
    exact hs.within

/-- **One order keeps the reservations.** -/
theorem Stepped.reserves {outcome : Except OrderError Unit}
    (h : Stepped env call s order outcome s') {chain : GatedEntryFireChain S C B I}
    {ctx : BuyFireContext S C B} (hchain : env.chain = some chain)
    (hctx : call.buyContext = some ctx)
    (hs : Reserves chain.config ctx.currentAggregateLamports s) :
    Reserves chain.config ctx.currentAggregateLamports s' := by
  cases h with
  | kept _ => exact hs
  | waiting _ => exact hs
  | raised _ _ => exact hs
  | sold _ => exact hs.append rfl _
  | refused _ _ => exact hs.append rfl _
  | @bought o mint detail intent n _ hfire =>
      obtain ⟨-, hwithin, hcap⟩ := fireBuy_fired hchain hctx hfire
      have hsize : boughtSizes [TickFire.buy o.orderId (.fired mint intent n detail)] = [n] := rfl
      refine ⟨?_, ?_, ?_⟩
      · rw [boughtSizes_append, hsize, List.sum_append, List.sum_singleton, hs.committed_eq]
      · show ctx.currentAggregateLamports + (s.committed + n) ≤ _
        omega
      · rw [boughtSizes_append, hsize]
        intro m hm
        rcases List.mem_append.1 hm with hm | hm
        · exact hs.within m hm
        · rw [List.mem_singleton.1 hm]
          exact hwithin

/-! ### Removed orders -/

/-- The order a fire removes: a SELL, or a BUY that fired. -/
def TickFire.removes : TickFire I → Option String
  | .sell orderId _ _ => some orderId
  | .buy orderId (.fired _ _ _ _) => some orderId
  | .buy _ (.rejected _ _ _) => none

/-- The orders the fires remove. -/
def removedIds (fires : List (TickFire I)) : List String := fires.filterMap TickFire.removes

theorem removedIds_append (fires fires' : List (TickFire I)) :
    removedIds (fires ++ fires') = removedIds fires ++ removedIds fires' :=
  List.filterMap_append

theorem removedIds_singleton {f : TickFire I} {orderId : String}
    (hremoves : f.removes = some orderId) : removedIds [f] = [orderId] := by
  unfold removedIds
  rw [List.filterMap_cons_some hremoves, List.filterMap_nil]

/-- A fire is of an order of its kind, and a SELL's of one that is triggered. -/
def FiredFrom (call : TickCall S C B) (orders : List RestingOrder) : TickFire I → Prop
  | .sell orderId _ _ =>
      ∃ o, .sell o ∈ orders ∧ o.orderId = orderId ∧ o.isTriggered call.markPrice = true
  | .buy orderId _ => ∃ o, .buy o ∈ orders ∧ o.orderId = orderId

/-- The book is the one of the start without what the fires remove, and every fire has its order. -/
structure Accounts (call : TickCall S C B) (b : RestingOrderBook) (orders : List RestingOrder)
    (s : TickState I) : Prop where
  book : ∀ o, o ∈ s.book.orders.rows ↔ o ∈ b.orders.rows ∧ o.orderId ∉ removedIds s.fires
  sources : ∀ f ∈ s.fires, FiredFrom call orders f

/-- A fire that removes nothing. -/
theorem Accounts.append_refusal {orders : List RestingOrder} (hs : Accounts call b orders s)
    {f : TickFire I} (hremoves : f.removes = none) (hsource : FiredFrom call orders f) :
    Accounts call b orders { s with fires := s.fires ++ [f] } := by
  have hnone : removedIds [f] = [] := by
    unfold removedIds
    rw [List.filterMap_cons_none hremoves, List.filterMap_nil]
  refine ⟨fun o => ?_, fun f' hf' => ?_⟩
  · rw [removedIds_append, hnone, List.append_nil]
    exact hs.book o
  · rcases List.mem_append.1 hf' with hf' | hf'
    · exact hs.sources f' hf'
    · rw [List.mem_singleton.1 hf']
      exact hsource

/-- A fire that removes its order. -/
theorem Accounts.append_removal {orders : List RestingOrder} (hs : Accounts call b orders s)
    {f : TickFire I} {orderId : String} (hremoves : f.removes = some orderId)
    (hsource : FiredFrom call orders f) (raises : Bool) (committed : ℤ) :
    Accounts call b orders
      ⟨(s.book.cancel orderId raises).2, s.fires ++ [f], committed⟩ := by
  refine ⟨fun o => ?_, fun f' hf' => ?_⟩
  · show o ∈ (s.book.cancel orderId raises).2.orders.rows ↔ _
    rw [cancel_orders, Table.mem_remove, hs.book, removedIds_append, removedIds_singleton hremoves,
      List.mem_append, List.mem_singleton, not_or, and_assoc]
  · rcases List.mem_append.1 hf' with hf' | hf'
    · exact hs.sources f' hf'
    · rw [List.mem_singleton.1 hf']
      exact hsource

/-- **One order keeps the account.** -/
theorem Stepped.accounts {outcome : Except OrderError Unit} {orders : List RestingOrder}
    (h : Stepped env call s order outcome s') (horder : order ∈ orders)
    (hs : Accounts call b orders s) : Accounts call b orders s' := by
  cases h with
  | kept _ => exact hs
  | waiting _ => exact hs
  | raised _ _ => exact hs
  | @sold o htriggered =>
      exact hs.append_removal (f := .sell o.orderId _ _) rfl ⟨o, horder, rfl, htriggered⟩ _ _
  | @refused o _ _ _ _ _ =>
      exact hs.append_refusal (f := .buy o.orderId _) rfl ⟨o, horder, rfl⟩
  | @bought o _ _ _ _ _ _ =>
      exact hs.append_removal (f := .buy o.orderId (.fired _ _ _ _)) rfl ⟨o, horder, rfl⟩ _ _

/-! ### The whole loop -/

theorem mem_candidates {mint : String} :
    order ∈ candidates b mint ↔ order ∈ b.orders.rows ∧ order.mint = mint := by
  unfold candidates
  rw [(List.perm_insertionSort _ _).mem_iff, List.mem_filter, decide_eq_true_iff]

/-- Two orders of the book with one id are the same. -/
theorem order_unique {o o' : RestingOrder} (h : o ∈ b.orders.rows) (h' : o' ∈ b.orders.rows)
    (hid : o.orderId = o'.orderId) : o = o' :=
  List.inj_on_of_nodup_map b.orders.distinct h h' hid

/-- The state in which `evaluate_tick` starts its loop. -/
def TickState.start (b : RestingOrderBook) : TickState I := ⟨b, [], 0⟩

theorem loop_accounts (env : TickEnv S C B I) (call : TickCall S C B) (b : RestingOrderBook)
    (orders : List RestingOrder) :
    Accounts call b orders (runLeaving (tickStep env call) (.start b) orders).2 := by
  refine runLeaving_invariant ⟨fun o => ?_, ?_⟩ fun s o ho hs => (stepped env call s o).accounts ho hs
  · show o ∈ b.orders.rows ↔ o ∈ b.orders.rows ∧ o.orderId ∉ []
    simp
  · intro f hf
    cases hf

theorem loop_reserves {chain : GatedEntryFireChain S C B I} {ctx : BuyFireContext S C B}
    (hchain : env.chain = some chain) (hctx : call.buyContext = some ctx)
    (hcap : ctx.currentAggregateLamports ≤ chain.config.maxAggregateLamports)
    (b : RestingOrderBook) (orders : List RestingOrder) :
    Reserves chain.config ctx.currentAggregateLamports
      (runLeaving (tickStep env call) (.start b) orders).2 := by
  refine runLeaving_invariant ⟨rfl, ?_, ?_⟩ fun s o _ hs => (stepped env call s o).reserves hchain hctx hs
  · show ctx.currentAggregateLamports + 0 ≤ _
    omega
  · intro n hn
    cases hn

theorem Stepped.fires_subset {outcome : Except OrderError Unit}
    (h : Stepped env call s order outcome s') {f : TickFire I} (hf : f ∈ s.fires) :
    f ∈ s'.fires := by
  cases h with
  | kept _ => exact hf
  | waiting _ => exact hf
  | raised _ _ => exact hf
  | sold _ => exact List.mem_append_left _ hf
  | refused _ _ => exact List.mem_append_left _ hf
  | bought _ _ => exact List.mem_append_left _ hf

/-- The SELL is among the fires, if it is triggered. -/
def FiresIfTriggered (call : TickCall S C B) (order : RestingOrder) (s : TickState I) : Prop :=
  ∀ o, order = .sell o → o.isTriggered call.markPrice = true →
    ∃ side intent, .sell o.orderId side intent ∈ s.fires

theorem Stepped.firesIfTriggered {outcome : Except OrderError Unit}
    (h : Stepped env call s order outcome s') : FiresIfTriggered call order s' := by
  intro o horder htriggered
  cases h with
  | kept hnot =>
      obtain rfl := RestingOrder.sell.inj horder
      rw [htriggered] at hnot
      cases hnot
  | sold _ =>
      obtain rfl := RestingOrder.sell.inj horder
      exact ⟨_, _, List.mem_append_right _ (List.mem_singleton_self _)⟩
  | waiting _ => cases horder
  | raised _ _ => cases horder
  | refused _ _ => cases horder
  | bought _ _ => cases horder

/-- A loop that returned has fired every triggered SELL. -/
theorem loop_fires_sells {orders : List RestingOrder}
    (h : runLeaving (tickStep env call) (.start b) orders = (.ok (), s')) :
    ∀ o ∈ orders, FiresIfTriggered call o s' := by
  refine runLeaving_forall (fun s o s'' hstep => ?_) (fun s o other hother => ?_) h
  · have := stepped env call s o
    rw [hstep] at this
    exact this.firesIfTriggered
  · intro o' ho' htriggered
    obtain ⟨side, intent, hmem⟩ := hother o' ho' htriggered
    exact ⟨side, intent, (stepped env call s o).fires_subset hmem⟩

/-! ### Ticks that return -/

/-- What a tick that returned removes: triggered SELLs of its mint, and BUYs that fired. -/
def Leaves (call : TickCall S C B) (fires : List (TickFire I)) : RestingOrder → Prop
  | .sell o => o.mint = call.mint ∧ o.isTriggered call.markPrice = true
  | .buy o => ∃ mint intent n detail, .buy o.orderId (.fired mint intent n detail) ∈ fires

theorem evaluateTick_eq_ok {fires : List (TickFire I)}
    (h : evaluateTick env b call = (.ok fires, b')) :
    ∃ s, runLeaving (tickStep env call) (.start b) (candidates b call.mint) = (.ok (), s) ∧
      s.fires = fires ∧ s.book = b' := by
  unfold evaluateTick at h
  split_ifs at h
  · cases h
  · dsimp only at h
    rcases hloop : runLeaving (tickStep env call) (.start b) (candidates b call.mint) with ⟨e | _, s⟩
    · rw [TickState.start] at hloop
      rw [hloop] at h
      cases h
    · rw [TickState.start] at hloop
      rw [hloop] at h
      cases h
      exact ⟨s, rfl, rfl, rfl⟩

/-- An order of the book leaves iff the fires remove it. -/
theorem leaves_iff {orders : List RestingOrder} (horders : orders = candidates b call.mint)
    (haccounts : Accounts call b orders s) (hsells : ∀ o ∈ orders, FiresIfTriggered call o s)
    (h : order ∈ b.orders.rows) :
    Leaves call s.fires order ↔ order.orderId ∈ removedIds s.fires := by
  subst horders
  constructor
  · intro hleaves
    cases order with
    | sell o =>
        obtain ⟨side, intent, hmem⟩ :=
          hsells _ (mem_candidates.2 ⟨h, hleaves.1⟩) o rfl hleaves.2
        exact List.mem_filterMap.2 ⟨_, hmem, rfl⟩
    | buy o =>
        obtain ⟨mint, intent, n, detail, hmem⟩ := hleaves
        exact List.mem_filterMap.2 ⟨_, hmem, rfl⟩
  · intro hremoved
    obtain ⟨f, hf, hremoves⟩ := List.mem_filterMap.1 hremoved
    have hsource := haccounts.sources f hf
    cases f with
    | sell orderId side intent =>
        obtain rfl := Option.some.inj hremoves
        obtain ⟨o, ho, hid, htriggered⟩ := hsource
        obtain ⟨hrow, hmint⟩ := mem_candidates.1 ho
        obtain rfl := order_unique hrow h hid
        exact ⟨hmint, htriggered⟩
    | buy orderId result =>
        cases result with
        | rejected mint why detail => cases hremoves
        | fired mint intent n detail =>
            obtain rfl := Option.some.inj hremoves
            obtain ⟨o, ho, hid⟩ := hsource
            obtain ⟨hrow, -⟩ := mem_candidates.1 ho
            obtain rfl := order_unique hrow h hid
            exact ⟨mint, intent, n, detail, hf⟩

/-- **The BUYs of a tick stay within the aggregate cap.**  Of a tick that returns: what was at risk
and all that fires is at most the cap, every size is at most the Kelly share of the per-trade cap
rounded up to a whole lamport (and the share itself, if it has at most 28 digits), and the orders
that leave the book are the BUYs that fired and the triggered SELLs of the mint. -/
theorem same_tick_buys_within_cap (env : TickEnv S C B I) (b b' : RestingOrderBook)
    (call : TickCall S C B) (chain : GatedEntryFireChain S C B I) (ctx : BuyFireContext S C B)
    (fires : List (TickFire I)) (hchain : env.chain = some chain)
    (hctx : call.buyContext = some ctx)
    (hcap : ctx.currentAggregateLamports ≤ chain.config.maxAggregateLamports)
    (h : evaluateTick env b call = (.ok fires, b')) :
    ctx.currentAggregateLamports + (boughtSizes fires).sum ≤ chain.config.maxAggregateLamports ∧
      (∀ n ∈ boughtSizes fires, WithinShare chain.config n) ∧
      ∀ o, o ∈ b'.orders.rows ↔ o ∈ b.orders.rows ∧ ¬ Leaves call fires o := by
  obtain ⟨s, hloop, rfl, rfl⟩ := evaluateTick_eq_ok h
  have hreserves := loop_reserves hchain hctx hcap b (candidates b call.mint)
  have haccounts := loop_accounts env call b (candidates b call.mint)
  rw [hloop] at hreserves haccounts
  refine ⟨hreserves.committed_eq ▸ hreserves.fits, hreserves.within, fun o => ?_⟩
  rw [haccounts.book]
  exact and_congr_right fun ho => not_congr (leaves_iff rfl haccounts (loop_fires_sells hloop) ho).symm

/-! ### A tick with two BUYs and a SELL -/

/-- Gates that let every order pass. -/
def openGates : Gates Unit Unit Unit Unit where
  denylist := none
  safety := fun _ => .ok true
  breaker := .ok true
  cost := fun _ => .ok true
  builder := fun _ _ _ _ _ => .ok (some ())

/-- The open gates with a sizer of the given limits; the keeper refuses nothing. -/
def openEnv (config : RiskConfig) : TickEnv Unit Unit Unit Unit :=
  ⟨some ⟨config, fun _ => openGates⟩, fun _ => false⟩

theorem dipBuy_trigger_pos : (0 : ℚ) < 2 := by norm_num

/-- A dip BUY. -/
def dipBuy (orderId : String) : RestingOrder :=
  .buy ⟨orderId, "mint", 2, .atOrBelow, "resting_buy", none, dipBuy_trigger_pos⟩

theorem profitSell_trigger_pos : (0 : ℚ) < 1 := by norm_num

/-- A take-profit SELL. -/
def profitSell (orderId : String) : RestingOrder :=
  .sell ⟨orderId, "mint", .sell, 1, .atOrAbove, 10000, .secure, "resting_sell",
    profitSell_trigger_pos, by decide⟩

/-- A book of two BUYs and a SELL, with no keeper. -/
def threeOrders : RestingOrderBook :=
  .boot ⟨[dipBuy "a", profitSell "b", dipBuy "c"], by decide⟩ none

theorem certainTick_time_nonneg : (0 : ℤ) ≤ 0 := le_rfl

/-- A tick that triggers all three, with a certain edge. -/
def certainTick (mint : String) (aggregate : ℤ) (h : 0 ≤ aggregate) : TickCall Unit Unit Unit where
  mint := "mint"
  markPrice := 1
  blockTimeMs := 0
  buyContext := some
    { mint := mint
      blockTimeMs := 0
      safetyInputs := some ()
      pCalibrated := 1
      uncertainty := 0
      currentAggregateLamports := aggregate
      costStack := none
      time_nonneg := certainTick_time_nonneg
      aggregate_nonneg := h }

/-- With 0.46 SOL at risk the first BUY takes a quarter of the per-trade cap and the second what is
left of the aggregate cap. -/
theorem same_tick_buys_within_cap_sample :
    ∃ fires b', evaluateTick (openEnv Breaker.defaultConfig) threeOrders
        (certainTick "mint" 460000000 (by decide)) = (.ok fires, b') ∧
      boughtSizes fires = [25000000, 15000000] ∧
      460000000 + (boughtSizes fires).sum ≤ Breaker.defaultConfig.maxAggregateLamports := by
  obtain ⟨fires, hfires, hsizes⟩ := exists_ok_of_any
    (x := (evaluateTick (openEnv Breaker.defaultConfig) threeOrders
      (certainTick "mint" 460000000 (by decide))).1)
    (p := fun fires => decide (boughtSizes fires = [25000000, 15000000])) (by decide +kernel)
  have htick : evaluateTick (openEnv Breaker.defaultConfig) threeOrders
      (certainTick "mint" 460000000 (by decide)) = (.ok fires, _) := Prod.ext hfires rfl
  exact ⟨fires, _, htick, of_decide_eq_true hsizes,
    (same_tick_buys_within_cap _ _ _ _ _ _ _ rfl rfl (by decide) htick).1⟩

/-- Limits whose Kelly share, 10⁴ - 10⁻²⁸ lamports, has 32 digits. -/
def longShareConfig : RiskConfig :=
  ⟨{ perTradeCapLamports := 99999999
     kellyFractionCap := 1000000010000000100000001 / 10 ^ 28 }, by decide +kernel⟩

/-- A size above the exact share fires, rounded up to it before it is truncated; and a tick that
raises on its first BUY leaves a triggered SELL in the book. -/
theorem share_exceeded_and_sell_left :
    (∃ fires b', evaluateTick (openEnv longShareConfig) threeOrders
        (certainTick "mint" 0 le_rfl) = (.ok fires, b') ∧
      boughtSizes fires = [10000, 10000] ∧
      kellyShare longShareConfig = 10 ^ 4 - 1 / 10 ^ 28) ∧
    (evaluateTick (openEnv longShareConfig) threeOrders (certainTick "other" 0 le_rfl)).1 =
        .error (.contextMint "other" "mint") ∧
      Leaves (certainTick "other" 0 le_rfl) ([] : List (TickFire Unit)) (profitSell "b") ∧
      profitSell "b" ∈ (evaluateTick (openEnv longShareConfig) threeOrders
        (certainTick "other" 0 le_rfl)).2.orders.rows := by
  obtain ⟨fires, hfires, hsizes⟩ := exists_ok_of_any
    (x := (evaluateTick (openEnv longShareConfig) threeOrders (certainTick "mint" 0 le_rfl)).1)
    (p := fun fires => decide (boughtSizes fires = [10000, 10000])) (by decide +kernel)
  have hraises : evaluateTick (openEnv longShareConfig) threeOrders (certainTick "other" 0 le_rfl) =
      (.error (.contextMint "other" "mint"), threeOrders) := by
    rfl
  refine ⟨⟨fires, _, Prod.ext hfires rfl, of_decide_eq_true hsizes, by decide +kernel⟩, ?_, ?_, ?_⟩
  · rw [hraises]
  · exact ⟨rfl, by decide +kernel⟩
  · rw [hraises]
    exact List.mem_cons_of_mem _ List.mem_cons_self

/-! ### Ticks that raise -/

/-- Every order that left has its intent among the fires returned, and a tick that raises leaves the
book, the store and the keeper as they were. -/
def NothingLost (env : TickEnv S C B I) (b : RestingOrderBook) (call : TickCall S C B) : Prop :=
  (∀ o ∈ b.orders.rows, o ∉ (evaluateTick env b call).2.orders.rows →
    ∃ fires, (evaluateTick env b call).1 = .ok fires ∧
      ∃ f ∈ fires, f.removes = some o.orderId) ∧
  ∀ e, (evaluateTick env b call).1 = .error e → (evaluateTick env b call).2 = b

/-- What an order has to meet at its turn: the keeper does not refuse the cancel of a SELL that
fires, and the context and the gates of a BUY do not raise once an order has fired. -/
def TurnLosesNothing (env : TickEnv S C B I) (call : TickCall S C B) (s : TickState I) :
    RestingOrder → Prop
  | .sell o =>
      o.isTriggered call.markPrice = true → s.book.keeper.isSome →
        (s.book.keeperHandles o.orderId).isSome → env.cancelRaises o.orderId = false
  | .buy o =>
      Due call o → removedIds s.fires ≠ [] → ∃ result, fireBuy env call s.committed o = .ok result

theorem cancel_raises_iff {orderId : String} {raises : Bool} :
    (∃ e, (b.cancel orderId raises).1 = .error e) ↔
      (∃ o, b.orders.get? orderId = some (.sell o)) ∧ b.keeper.isSome ∧
        (b.keeperHandles orderId).isSome ∧ raises = true := by
  unfold RestingOrderBook.cancel
  dsimp only
  cases hget : b.orders.get? orderId with
  | none => simp
  | some order =>
      cases order with
      | buy o => simp [RestingOrder.sell?]
      | sell o =>
          cases hkeeper : b.keeper with
          | none => simp
          | some k =>
              cases hhandle : b.keeperHandles orderId with
              | none => simp [RestingOrder.sell?]
              | some handle => cases raises <;> simp [RestingOrder.sell?]

/-- While nothing has been removed the book is the one of the start. -/
def Untouched (b : RestingOrderBook) (s : TickState I) : Prop :=
  removedIds s.fires = [] → s.book = b

theorem Stepped.untouched {outcome : Except OrderError Unit}
    (h : Stepped env call s order outcome s') (hs : Untouched b s) : Untouched b s' := by
  unfold Untouched at *
  cases h with
  | kept _ => exact hs
  | waiting _ => exact hs
  | raised _ _ => exact hs
  | sold _ => simp [removedIds, TickFire.removes]
  | refused _ _ => simpa [removedIds, TickFire.removes] using hs
  | bought _ _ => simp [removedIds, TickFire.removes]

theorem loop_untouched (env : TickEnv S C B I) (call : TickCall S C B) (b : RestingOrderBook)
    (orders : List RestingOrder) :
    Untouched b (runLeaving (tickStep env call) (.start b) orders).2 :=
  runLeaving_invariant (fun _ => rfl) fun s o _ hs => (stepped env call s o).untouched hs

/-- The orders of a tick have distinct ids. -/
theorem candidates_distinct (b : RestingOrderBook) (mint : String) :
    ((candidates b mint).map RestingOrder.orderId).Nodup := by
  unfold candidates
  rw [((List.perm_insertionSort _ _).map _).nodup_iff]
  exact (List.filter_sublist.map _).nodup b.orders.distinct

/-- The order of a fire that removes one. -/
theorem FiredFrom.exists_of_removes {orders : List RestingOrder} {f : TickFire I}
    {orderId : String} (h : FiredFrom call orders f) (hremoves : f.removes = some orderId) :
    ∃ o ∈ orders, o.orderId = orderId := by
  cases f with
  | sell orderId' side intent =>
      obtain rfl := Option.some.inj hremoves
      obtain ⟨o, ho, hid, -⟩ := h
      exact ⟨_, ho, hid⟩
  | buy orderId' result =>
      cases result with
      | rejected mint why detail => cases hremoves
      | fired mint intent n detail =>
          obtain rfl := Option.some.inj hremoves
          obtain ⟨o, ho, hid⟩ := h
          exact ⟨_, ho, hid⟩

/-- The fires before the turn of an order are of other orders. -/
theorem not_removed_at_turn {before after : List RestingOrder}
    (hsplit : candidates b call.mint = before ++ order :: after)
    (hbefore : runLeaving (tickStep env call) (.start b) before = (.ok (), s)) :
    order.orderId ∉ removedIds s.fires := by
  intro hremoved
  have haccounts := loop_accounts env call b before
  rw [hbefore] at haccounts
  obtain ⟨f, hf, hremoves⟩ := List.mem_filterMap.1 hremoved
  obtain ⟨o, ho, hid⟩ := (haccounts.sources f hf).exists_of_removes hremoves
  have hdistinct := candidates_distinct b call.mint
  rw [hsplit, List.map_append, List.nodup_append] at hdistinct
  exact hdistinct.2.2 _ (List.mem_map_of_mem ho) _ (List.mem_map_of_mem List.mem_cons_self) hid

/-- An order is still in the book when its turn comes. -/
theorem mem_book_at_turn {before after : List RestingOrder}
    (hsplit : candidates b call.mint = before ++ order :: after)
    (hbefore : runLeaving (tickStep env call) (.start b) before = (.ok (), s)) :
    order ∈ s.book.orders.rows := by
  have haccounts := loop_accounts env call b before
  rw [hbefore] at haccounts
  have hmem : order ∈ candidates b call.mint := by
    rw [hsplit]
    exact List.mem_append_right _ List.mem_cons_self
  exact (haccounts.book order).2
    ⟨(mem_candidates.1 hmem).1, not_removed_at_turn hsplit hbefore⟩

/-- Cancelling a BUY of the book does not raise. -/
theorem cancel_buy_returns {o : RestingBuyOrder} {raises : Bool} (h : .buy o ∈ b.orders.rows)
    {e : OrderError} : (b.cancel o.orderId raises).1 ≠ .error e := by
  intro hraises
  obtain ⟨⟨o', hget⟩, -⟩ := cancel_raises_iff.1 ⟨e, hraises⟩
  have hget' : b.orders.get? o.orderId = some (.buy o) := Table.get?_eq_some.2 ⟨h, rfl⟩
  rw [hget] at hget'
  cases hget'

/-- A turn that meets the condition and raises leaves the book of the start. -/
theorem raised_turn_untouched {before after : List RestingOrder} {e : OrderError}
    (hturn : TurnLosesNothing env call s order)
    (hsplit : candidates b call.mint = before ++ order :: after)
    (hbefore : runLeaving (tickStep env call) (.start b) before = (.ok (), s))
    (hraised : tickStep env call s order = (.error e, s')) : s'.book = b := by
  have hmem := mem_book_at_turn hsplit hbefore
  have huntouched := loop_untouched env call b before
  rw [hbefore] at huntouched
  have hstepped := stepped env call s order
  rw [hraised] at hstepped
  generalize hout : (Except.error e : Except OrderError Unit) = outcome at hstepped
  cases hstepped with
  | kept _ => cases hout
  | waiting _ => cases hout
  | refused _ _ => cases hout
  | sold htriggered =>
      obtain ⟨-, hkeeper, hhandle, hrefused⟩ := cancel_raises_iff.1 ⟨e, hout.symm⟩
      rw [hturn htriggered hkeeper hhandle] at hrefused
      cases hrefused
  | bought _ _ => exact absurd hout.symm (cancel_buy_returns hmem)
  | raised hdue hfire =>
      refine huntouched ?_
      by_contra hremoved
      obtain ⟨result, hresult⟩ := hturn hdue hremoved
      rw [hfire] at hresult
      cases hresult

theorem evaluateTick_eq (h : 0 ≤ call.blockTimeMs) :
    evaluateTick env b call =
      ((runLeaving (tickStep env call) (.start b) (candidates b call.mint)).1.map fun _ =>
          (runLeaving (tickStep env call) (.start b) (candidates b call.mint)).2.fires,
        (runLeaving (tickStep env call) (.start b) (candidates b call.mint)).2.book) :=
  if_neg (not_lt.2 h)

/-- A tick raises where the turn of an order does, and leaves what that turn left. -/
theorem evaluateTick_of_turn_raises (htime : 0 ≤ call.blockTimeMs)
    {before after : List RestingOrder} {e : OrderError}
    (hsplit : candidates b call.mint = before ++ order :: after)
    (hbefore : runLeaving (tickStep env call) (.start b) before = (.ok (), s))
    (hturn : tickStep env call s order = (.error e, s')) :
    evaluateTick env b call = (.error e, s'.book) := by
  have hloop : runLeaving (tickStep env call) (.start b) (candidates b call.mint) =
      (.error e, s') := by
    rw [hsplit, runLeaving_append_ok hbefore]
    exact runLeaving_cons_error hturn
  rw [evaluateTick_eq htime, hloop]
  rfl

/-- A tick that raises loses every order that left. -/
theorem NothingLost.not_removed {e : OrderError} {b' : RestingOrderBook}
    (h : NothingLost env b call) (hraises : evaluateTick env b call = (.error e, b'))
    (horder : order ∈ b.orders.rows) : order ∈ b'.orders.rows := by
  by_contra hgone
  obtain ⟨fires, hfires, -⟩ := h.1 order horder (by rwa [hraises])
  rw [hraises] at hfires
  cases hfires

/-- Every turn of a tick that loses nothing meets the condition. -/
theorem turn_of_nothingLost (h : NothingLost env b call) (htime : 0 ≤ call.blockTimeMs)
    {before after : List RestingOrder}
    (hsplit : candidates b call.mint = before ++ order :: after)
    (hbefore : runLeaving (tickStep env call) (.start b) before = (.ok (), s)) :
    TurnLosesNothing env call s order := by
  have hturn := mem_book_at_turn hsplit hbefore
  have haccounts := loop_accounts env call b before
  rw [hbefore] at haccounts
  cases order with
  | sell o =>
      intro htriggered hkeeper hhandle
      by_contra hrefused
      rw [Bool.not_eq_false] at hrefused
      have hget : s.book.orders.get? o.orderId = some (.sell o) := Table.get?_eq_some.2 ⟨hturn, rfl⟩
      obtain ⟨e, he⟩ := cancel_raises_iff.2 ⟨⟨o, hget⟩, hkeeper, hhandle, hrefused⟩
      have hstep : tickStep env call s (.sell o) = (.error e,
          { s with
            book := (s.book.cancel o.orderId (env.cancelRaises o.orderId)).2
            fires := s.fires ++ [.sell o.orderId o.side (o.fire call.blockTimeMs)] }) := by
        simp only [tickStep, if_pos htriggered, he]
      have hstays := h.not_removed (evaluateTick_of_turn_raises htime hsplit hbefore hstep)
        ((haccounts.book _).1 hturn).1
      rw [cancel_orders, Table.mem_remove] at hstays
      exact hstays.2 rfl
  | buy o =>
      intro hdue hremoved
      cases hfire : fireBuy env call s.committed o with
      | ok result => exact ⟨result, rfl⟩
      | error e =>
          have hstep : tickStep env call s (.buy o) = (.error e, s) := by
            simp only [tickStep, if_pos (show _ = true from hdue), hfire]
          have hraises := evaluateTick_of_turn_raises htime hsplit hbefore hstep
          obtain ⟨orderId, hid⟩ := List.exists_mem_of_ne_nil _ hremoved
          obtain ⟨lost, hlost, rfl⟩ : ∃ lost ∈ b.orders.rows, lost.orderId = orderId := by
            obtain ⟨f, hf, hremoves⟩ := List.mem_filterMap.1 hid
            obtain ⟨lost, hlost, hlostId⟩ := (haccounts.sources f hf).exists_of_removes hremoves
            refine ⟨lost, ?_, hlostId⟩
            refine (mem_candidates.1 (?_ : lost ∈ candidates b call.mint)).1
            rw [hsplit]
            exact List.mem_append_left _ hlost
          exact absurd hid ((haccounts.book lost).1 (h.not_removed hraises hlost)).2

/-- **When a tick loses nothing.**  Every order that leaves has its intent among the fires
returned, and a tick that raises changes nothing, iff at its turn no order that fires is refused by
the keeper and no BUY raises once an order has fired. -/
theorem nothing_lost_iff (env : TickEnv S C B I) (b : RestingOrderBook) (call : TickCall S C B) :
    NothingLost env b call ↔
      (0 ≤ call.blockTimeMs → ∀ before order after s,
        candidates b call.mint = before ++ order :: after →
          runLeaving (tickStep env call) (.start b) before = (.ok (), s) →
            TurnLosesNothing env call s order) := by
  constructor
  · intro h htime before order after s hsplit hbefore
    exact turn_of_nothingLost h htime hsplit hbefore
  · intro hturns
    by_cases htime : 0 ≤ call.blockTimeMs
    · rcases hloop : runLeaving (tickStep env call) (.start b) (candidates b call.mint) with
        ⟨e | _, s'⟩
      · obtain ⟨before, order, after, s, hsplit, hbefore, hraised⟩ := runLeaving_raised hloop
        have hbook : s'.book = b :=
          raised_turn_untouched (hturns htime before order after s hsplit hbefore) hsplit hbefore
            hraised
        rw [NothingLost, evaluateTick_of_turn_raises htime hsplit hbefore hraised, hbook]
        exact ⟨fun o ho hgone => absurd ho hgone, fun _ _ => rfl⟩
      · have haccounts := loop_accounts env call b (candidates b call.mint)
        rw [hloop] at haccounts
        rw [NothingLost, evaluateTick_eq htime, hloop]
        refine ⟨fun o ho hgone => ⟨s'.fires, rfl, ?_⟩, fun e he => by cases he⟩
        have hremoved : o.orderId ∈ removedIds s'.fires := by
          by_contra hnot
          exact hgone ((haccounts.book o).2 ⟨ho, hnot⟩)
        obtain ⟨f, hf, hremoves⟩ := List.mem_filterMap.1 hremoved
        exact ⟨f, hf, hremoves⟩
    · have hraises : evaluateTick env b call = (.error (.negativeBlockTime call.blockTimeMs), b) :=
        if_pos (not_le.1 htime)
      rw [NothingLost, hraises]
      exact ⟨fun o ho hgone => absurd ho hgone, fun _ _ => rfl⟩

/-- A SELL before a BUY. -/
def sellThenBuy : RestingOrderBook := .boot ⟨[profitSell "a", dipBuy "b"], by decide⟩ none

/-- The SELL fires and leaves, then the context of another mint makes the BUY raise: the SELL is in
neither the book nor the fires. -/
theorem fired_sell_lost :
    (evaluateTick (openEnv Breaker.defaultConfig) sellThenBuy (certainTick "other" 0 le_rfl)).1 =
        .error (.contextMint "other" "mint") ∧
      (evaluateTick (openEnv Breaker.defaultConfig) sellThenBuy
        (certainTick "other" 0 le_rfl)).2.orders.rows = [dipBuy "b"] ∧
      ¬ NothingLost (openEnv Breaker.defaultConfig) sellThenBuy (certainTick "other" 0 le_rfl) := by
  have hraises : (evaluateTick (openEnv Breaker.defaultConfig) sellThenBuy
      (certainTick "other" 0 le_rfl)).1 = .error (.contextMint "other" "mint") := by
    rfl
  have hrows : (evaluateTick (openEnv Breaker.defaultConfig) sellThenBuy
      (certainTick "other" 0 le_rfl)).2.orders.rows = [dipBuy "b"] := by
    rfl
  refine ⟨hraises, hrows, fun hlost => ?_⟩
  have hgone : profitSell "a" ∉ (evaluateTick (openEnv Breaker.defaultConfig) sellThenBuy
      (certainTick "other" 0 le_rfl)).2.orders.rows := by
    rw [hrows, List.mem_singleton]
    exact RestingOrder.noConfusion
  obtain ⟨fires, hfires, -⟩ := hlost.1 (profitSell "a") List.mem_cons_self hgone
  rw [hraises] at hfires
  cases hfires

end Orders
end AatsSniper

/-
# The keeper beside the book

Every SELL of the book is to be live at the off-box keeper, once and with its own
trigger and fraction, and nothing else (`Mirrors`).  The book cancels at the keeper by
a handle that it keeps in memory under the order id.  The handle is overwritten when
an order is placed again under the same id, and lost in a restart; then the SELL
stays live at the keeper when its order is replaced, cancelled or fires.

`mirrors_iff_keepsMirror` says which steps keep the mirror.  The argument counts:
`excess`, the SELLs at the keeper less those in the book, never falls in a tick or in
a plan, and rises with every step that misses its handle.
-/

import AatsSniper.Orders.Tick

namespace AatsSniper
namespace Orders

variable {S C B I : Type} {b b' : RestingOrderBook} {k : OffBoxSellKeeper}

/-! ### The mirror -/

/-- What the keeper and the book have to agree on. -/
structure SellSpec where
  mint : String
  orderId : String
  triggerPrice : ℚ
  fractionBps : ℤ

/-- The SELL live at the keeper. -/
def KeptSell.spec (s : KeptSell) : SellSpec := ⟨s.mint, s.orderId, s.triggerPrice, s.fractionBps⟩

/-- The SELL of the book. -/
def RestingSellOrder.spec (o : RestingSellOrder) : SellSpec :=
  ⟨o.mint, o.orderId, o.triggerPrice, o.fractionBps⟩

/-- The SELLs of the book. -/
def sells (orders : Table RestingOrder.orderId) : List RestingSellOrder :=
  orders.rows.filterMap RestingOrder.sell?

/-- The SELLs live at the keeper are those of the book, one for each. -/
def Mirrors (b : RestingOrderBook) : Prop :=
  ∃ k, b.keeper = some k ∧
    (k.live.map KeptSell.spec).Perm ((sells b.orders).map RestingSellOrder.spec)

/-- Everything the book holds a handle for is a SELL of the book, live under that handle, and the
store holds the orders of the book. -/
structure Handled (b : RestingOrderBook) (k : OffBoxSellKeeper) : Prop where
  keeper : b.keeper = some k
  store : b.store = b.orders
  held : ∀ orderId handle, b.keeperHandles orderId = some handle →
    ∃ o, b.orders.get? orderId = some (.sell o) ∧
      ⟨handle, o.mint, o.orderId, o.triggerPrice, o.fractionBps⟩ ∈ k.live

/-- How many more SELLs are live than in the book. -/
def excess (b : RestingOrderBook) (k : OffBoxSellKeeper) : ℤ :=
  (k.live.length : ℤ) - (sells b.orders).length

/-- At least `n` more are live than in the book. -/
def Over (n : ℤ) (b : RestingOrderBook) : Prop := ∃ k, b.keeper = some k ∧ n ≤ excess b k

theorem Mirrors.perm (h : Mirrors b) (hkeeper : b.keeper = some k) :
    (k.live.map KeptSell.spec).Perm ((sells b.orders).map RestingSellOrder.spec) := by
  obtain ⟨k', hk', hperm⟩ := h
  rw [hkeeper] at hk'
  obtain rfl := Option.some.inj hk'
  exact hperm

theorem Mirrors.excess (h : Mirrors b) (hkeeper : b.keeper = some k) : excess b k = 0 := by
  have hlength := (h.perm hkeeper).length_eq
  rw [List.length_map, List.length_map] at hlength
  unfold Orders.excess
  omega

theorem Mirrors.over (h : Mirrors b) : Over 0 b := by
  obtain ⟨k, hkeeper, _⟩ := id h
  exact ⟨k, hkeeper, (h.excess hkeeper).ge⟩

theorem Over.not_mirrors {n : ℤ} (h : Over n b) (hn : 0 < n) : ¬ Mirrors b := by
  intro hm
  obtain ⟨k, hkeeper, hle⟩ := h
  have := hm.excess hkeeper
  omega

/-! ### The SELLs of a table -/

theorem sells_remove_of_sell {orders : Table RestingOrder.orderId} {o : RestingSellOrder}
    {orderId : String} (h : orders.get? orderId = some (.sell o)) :
    (sells orders).Perm (o :: sells (orders.remove orderId)) := by
  obtain ⟨hmem, rfl⟩ := Table.get?_eq_some.1 h
  exact (Table.perm_cons_filter orders.distinct hmem).filterMap RestingOrder.sell?

theorem sells_remove_of_not_sell {orders : Table RestingOrder.orderId} {orderId : String}
    (h : ∀ o, orders.get? orderId ≠ some (.sell o)) :
    (sells (orders.remove orderId)).Perm (sells orders) := by
  cases hget : orders.get? orderId with
  | none => rw [Table.remove_of_get?_none hget]
  | some order =>
      cases order with
      | sell o => exact absurd hget (h o)
      | buy o =>
          obtain ⟨hmem, rfl⟩ := Table.get?_eq_some.1 hget
          exact ((Table.perm_cons_filter orders.distinct hmem).filterMap RestingOrder.sell?).symm

theorem sells_upsert_sell (orders : Table RestingOrder.orderId) (o : RestingSellOrder) :
    (sells (orders.upsert (.sell o))).Perm (o :: sells (orders.remove o.orderId)) :=
  (Table.upsert_perm orders (.sell o)).filterMap RestingOrder.sell?

theorem sells_upsert_buy (orders : Table RestingOrder.orderId) (o : RestingBuyOrder) :
    (sells (orders.upsert (.buy o))).Perm (sells (orders.remove o.orderId)) :=
  (Table.upsert_perm orders (.buy o)).filterMap RestingOrder.sell?

/-! ### Cancels -/

/-- What `cancel` does, where the keeper refuses nothing. -/
inductive Cancelled (b : RestingOrderBook) (orderId : String) : RestingOrderBook → Prop
  /-- No SELL under the id. -/
  | other (h : ∀ o, b.orders.get? orderId ≠ some (.sell o)) :
      Cancelled b orderId
        { b with orders := b.orders.remove orderId, store := b.store.remove orderId }
  /-- A SELL whose handle the book does not hold: the keeper is not asked. -/
  | unheld {o : RestingSellOrder} (h : b.orders.get? orderId = some (.sell o))
      (hhandle : b.keeperHandles orderId = none) :
      Cancelled b orderId
        { b with
          orders := b.orders.remove orderId
          store := b.store.remove orderId
          keeperHandles := Function.update b.keeperHandles orderId none }
  /-- A SELL that is cancelled at the keeper. -/
  | held {o : RestingSellOrder} {k : OffBoxSellKeeper} {handle : ℕ}
      (h : b.orders.get? orderId = some (.sell o)) (hkeeper : b.keeper = some k)
      (hhandle : b.keeperHandles orderId = some handle) :
      Cancelled b orderId
        { orders := b.orders.remove orderId
          store := b.store.remove orderId
          keeper := some (k.cancelRestingSell handle)
          keeperHandles := Function.update b.keeperHandles orderId none }

theorem cancelled (hkeeper : b.keeper = some k) (orderId : String) :
    Cancelled b orderId (b.cancel orderId false).2 := by
  obtain ⟨orders, store, keeper, handles⟩ := b
  obtain rfl : keeper = some k := hkeeper
  unfold RestingOrderBook.cancel
  dsimp only
  cases hget : orders.get? orderId with
  | none =>
      refine .other fun o ho => ?_
      rw [hget] at ho
      cases ho
  | some order =>
      cases order with
      | buy o =>
          refine .other fun o' ho' => ?_
          rw [hget] at ho'
          cases ho'
      | sell o =>
          cases hhandle : handles orderId with
          | none => exact .unheld hget hhandle
          | some handle => exact .held hget rfl hhandle

/-- One cancel takes at most one SELL off the keeper. -/
theorem length_live_le (k : OffBoxSellKeeper) (handle : ℕ) :
    k.live.length ≤ (k.cancelRestingSell handle).live.length + 1 := by
  by_cases h : handle ∈ k.live.map KeptSell.handle
  · obtain ⟨kept, hmem, rfl⟩ := List.mem_map.1 h
    have hlength := (Table.perm_cons_filter k.distinct hmem).length_eq
    rw [List.length_cons] at hlength
    exact hlength.le
  · have hsame : (k.cancelRestingSell handle).live = k.live := Table.filter_eq_self_of_notMem h
    rw [hsame]
    exact Nat.le_succ _

theorem length_sells_remove {orders : Table RestingOrder.orderId} {o : RestingSellOrder}
    {orderId : String} (h : orders.get? orderId = some (.sell o)) :
    (sells orders).length = (sells (orders.remove orderId)).length + 1 := by
  rw [(sells_remove_of_sell h).length_eq, List.length_cons]

theorem held_of_update {handles : String → Option ℕ} {orderId id : String} {handle : ℕ}
    (h : Function.update handles orderId none id = some handle) :
    id ≠ orderId ∧ handles id = some handle := by
  rw [Function.update_apply] at h
  split_ifs at h with hne
  exact ⟨hne, h⟩

theorem Cancelled.over {n : ℤ} {orderId : String} (h : Cancelled b orderId b') (hn : Over n b) :
    Over n b' := by
  obtain ⟨k, hkeeper, hle⟩ := hn
  unfold excess at hle
  cases h with
  | other hother =>
      refine ⟨k, hkeeper, ?_⟩
      have := (sells_remove_of_not_sell hother).length_eq
      unfold excess
      dsimp only
      omega
  | unheld hsell _ =>
      refine ⟨k, hkeeper, ?_⟩
      have := length_sells_remove hsell
      unfold excess
      dsimp only
      omega
  | @held o k' handle hsell hkeeper' _ =>
      rw [hkeeper] at hkeeper'
      obtain rfl := Option.some.inj hkeeper'
      refine ⟨_, rfl, ?_⟩
      have := length_sells_remove hsell
      have := length_live_le k handle
      unfold excess
      dsimp only
      omega

/-- A SELL that leaves without its handle stays live. -/
theorem Cancelled.over_of_unheld {n : ℤ} {orderId : String} (h : Cancelled b orderId b')
    (hn : Over n b) {o : RestingSellOrder} (hsell : b.orders.get? orderId = some (.sell o))
    (hhandle : b.keeperHandles orderId = none) : Over (n + 1) b' := by
  obtain ⟨k, hkeeper, hle⟩ := hn
  unfold excess at hle
  cases h with
  | other hother => exact absurd hsell (hother o)
  | unheld _ _ =>
      refine ⟨k, hkeeper, ?_⟩
      have := length_sells_remove hsell
      unfold excess
      dsimp only
      omega
  | held _ _ hhandle' =>
      rw [hhandle] at hhandle'
      cases hhandle'

/-- The handles the book holds stay those of its SELLs, live at the keeper. -/
theorem Cancelled.handled {orderId : String} (h : Cancelled b orderId b') (hk : Handled b k) :
    ∃ k', Handled b' k' := by
  cases h with
  | other hother =>
      refine ⟨k, hk.keeper, congrArg (·.remove orderId) hk.store, fun id handle hid => ?_⟩
      obtain ⟨o, ho, hlive⟩ := hk.held id handle hid
      refine ⟨o, ?_, hlive⟩
      have hne : id ≠ orderId := by
        rintro rfl
        exact hother o ho
      rw [Table.get?_remove_of_ne hne]
      exact ho
  | unheld hsell _ =>
      refine ⟨k, hk.keeper, congrArg (·.remove orderId) hk.store, fun id handle hid => ?_⟩
      obtain ⟨hne, hid⟩ := held_of_update hid
      obtain ⟨o, ho, hlive⟩ := hk.held id handle hid
      refine ⟨o, ?_, hlive⟩
      rw [Table.get?_remove_of_ne hne]
      exact ho
  | @held o k' handle hsell hkeeper hhandle =>
      obtain rfl := Option.some.inj (hkeeper.symm.trans hk.keeper)
      refine ⟨_, rfl, congrArg (·.remove orderId) hk.store, fun id handle' hid => ?_⟩
      obtain ⟨hne, hid⟩ := held_of_update hid
      obtain ⟨o', ho', hlive⟩ := hk.held id handle' hid
      obtain ⟨o'', ho'', hlive''⟩ := hk.held orderId handle hhandle
      refine ⟨o', ?_, List.mem_filter.2 ⟨hlive, ?_⟩⟩
      · rw [Table.get?_remove_of_ne hne]
        exact ho'
      · -- two orders with one handle would be one SELL at the keeper
        rw [decide_eq_true_iff]
        rintro rfl
        have hsame := List.inj_on_of_nodup_map k'.distinct hlive hlive'' rfl
        have hids : o'.orderId = o''.orderId := congrArg KeptSell.orderId hsame
        exact hne (((Table.mem_of_get? ho').2.symm.trans hids).trans (Table.mem_of_get? ho'').2)

theorem Cancelled.mirrors {orderId : String} (h : Cancelled b orderId b') (hk : Handled b k)
    (hm : Mirrors b)
    (hheld : ∀ o, b.orders.get? orderId = some (.sell o) → (b.keeperHandles orderId).isSome) :
    Mirrors b' := by
  have hperm := hm.perm hk.keeper
  cases h with
  | other hother =>
      exact ⟨k, hk.keeper, hperm.trans ((sells_remove_of_not_sell hother).symm.map _)⟩
  | unheld hsell hhandle =>
      have := hheld _ hsell
      rw [hhandle] at this
      cases this
  | @held o k' handle hsell hkeeper hhandle =>
      obtain rfl := Option.some.inj (hkeeper.symm.trans hk.keeper)
      obtain ⟨o', ho', hlive⟩ := hk.held orderId handle hhandle
      obtain rfl : o = o' := RestingOrder.sell.inj (Option.some.inj (hsell.symm.trans ho'))
      refine ⟨_, rfl, ?_⟩
      -- the same SELL goes on both sides
      have hlive' := (Table.perm_cons_filter k'.distinct hlive).map KeptSell.spec
      have hsells := (sells_remove_of_sell hsell).map RestingSellOrder.spec
      exact ((hlive'.symm.trans hperm).trans hsells).cons_inv

/-! ### Placing -/

/-- There is a SELL of the book under the id. -/
def SellUnder (b : RestingOrderBook) (orderId : String) : Prop :=
  ∃ o, b.orders.get? orderId = some (.sell o)

theorem place_buy (b : RestingOrderBook) (o : RestingBuyOrder) :
    b.place (.buy o) = { b with orders := b.orders.upsert (.buy o), store := b.store.upsert (.buy o) } :=
  rfl

theorem place_sell (hkeeper : b.keeper = some k) (o : RestingSellOrder) :
    b.place (.sell o) =
      { orders := b.orders.upsert (.sell o)
        store := b.store.upsert (.sell o)
        keeper := some (k.placeRestingSell o)
        keeperHandles := Function.update b.keeperHandles o.orderId (some k.nextHandle) } := by
  unfold RestingOrderBook.place
  rw [hkeeper]

theorem length_sells_upsert_buy (orders : Table RestingOrder.orderId) (o : RestingBuyOrder) :
    (sells (orders.upsert (.buy o))).length = (sells (orders.remove o.orderId)).length :=
  (sells_upsert_buy orders o).length_eq

theorem length_sells_upsert_sell (orders : Table RestingOrder.orderId) (o : RestingSellOrder) :
    (sells (orders.upsert (.sell o))).length = (sells (orders.remove o.orderId)).length + 1 := by
  rw [(sells_upsert_sell orders o).length_eq, List.length_cons]

theorem length_live_placeRestingSell (k : OffBoxSellKeeper) (o : RestingSellOrder) :
    (k.placeRestingSell o).live.length = k.live.length + 1 := by
  unfold OffBoxSellKeeper.placeRestingSell
  rw [List.length_append, List.length_singleton]

/-- A BUY takes nothing off the keeper. -/
theorem Over.place_buy {n : ℤ} (h : Over n b) (o : RestingBuyOrder) : Over n (b.place (.buy o)) := by
  obtain ⟨k, hkeeper, hle⟩ := h
  refine ⟨k, hkeeper, ?_⟩
  have := length_sells_upsert_buy b.orders o
  unfold excess at hle ⊢
  rw [Orders.place_buy]
  dsimp only
  by_cases hsell : SellUnder b o.orderId
  · have := length_sells_remove hsell.choose_spec
    omega
  · have := (sells_remove_of_not_sell fun o' ho' => hsell ⟨o', ho'⟩).length_eq
    omega

/-- An order placed over a SELL leaves that SELL at the keeper. -/
theorem Over.place_of_sellUnder {n : ℤ} (h : Over n b) (order : RestingOrder)
    (hsell : SellUnder b order.orderId) : Over (n + 1) (b.place order) := by
  obtain ⟨k, hkeeper, hle⟩ := h
  obtain ⟨o', ho'⟩ := hsell
  have hlength := length_sells_remove ho'
  unfold excess at hle
  cases order with
  | buy o =>
      refine ⟨k, hkeeper, ?_⟩
      have hupsert := length_sells_upsert_buy b.orders o
      unfold excess
      rw [Orders.place_buy]
      dsimp only [RestingOrder.orderId] at hlength ⊢
      omega
  | sell o =>
      rw [place_sell hkeeper]
      refine ⟨_, rfl, ?_⟩
      have hupsert := length_sells_upsert_sell b.orders o
      have hlive := length_live_placeRestingSell k o
      unfold excess
      dsimp only [RestingOrder.orderId] at hlength ⊢
      omega

/-- A handle is only held for a SELL of the book. -/
theorem Handled.ne_of_held (hk : Handled b k) {orderId id : String} {handle : ℕ}
    (hsell : ¬ SellUnder b orderId) (h : b.keeperHandles id = some handle) : id ≠ orderId := by
  rintro rfl
  obtain ⟨o, ho, -⟩ := hk.held id handle h
  exact hsell ⟨o, ho⟩

theorem Handled.place (hk : Handled b k) (order : RestingOrder)
    (hsell : ¬ SellUnder b order.orderId) : ∃ k', Handled (b.place order) k' := by
  have hother : ∀ id o, id ≠ order.orderId → b.orders.get? id = some (.sell o) →
      (b.orders.upsert order).get? id = some (.sell o) := by
    intro id o hne ho
    rw [Table.get?_upsert_of_ne hne]
    exact ho
  have hstore := congrArg (·.upsert order) hk.store
  cases order with
  | buy o =>
      rw [Orders.place_buy]
      refine ⟨k, hk.keeper, hstore, fun id handle hid => ?_⟩
      obtain ⟨o', ho', hlive⟩ := hk.held id handle hid
      exact ⟨o', hother id o' (hk.ne_of_held hsell hid) ho', hlive⟩
  | sell o =>
      rw [place_sell hk.keeper]
      refine ⟨_, rfl, hstore, fun id handle hid => ?_⟩
      dsimp only at hid
      rw [Function.update_apply] at hid
      split_ifs at hid with heq
      · subst heq
        obtain rfl := Option.some.inj hid
        refine ⟨o, ?_, List.mem_append_right _ (List.mem_singleton_self _)⟩
        exact Table.get?_upsert_self _ _
      · obtain ⟨o', ho', hlive⟩ := hk.held id handle hid
        exact ⟨o', hother id o' heq ho', List.mem_append_left _ hlive⟩

theorem Mirrors.place (hm : Mirrors b) (order : RestingOrder)
    (hsell : ¬ SellUnder b order.orderId) : Mirrors (b.place order) := by
  obtain ⟨k, hkeeper, hperm⟩ := hm
  have hsells := (sells_remove_of_not_sell fun o ho => hsell ⟨o, ho⟩).map RestingSellOrder.spec
  have hkept := hperm.trans hsells.symm
  cases order with
  | buy o =>
      exact ⟨k, hkeeper, hkept.trans ((sells_upsert_buy b.orders o).symm.map _)⟩
  | sell o =>
      rw [place_sell hkeeper]
      refine ⟨_, rfl, ?_⟩
      have hlive : ((k.placeRestingSell o).live.map KeptSell.spec).Perm
          (o.spec :: k.live.map KeptSell.spec) := by
        unfold OffBoxSellKeeper.placeRestingSell
        rw [List.map_append]
        exact List.perm_append_singleton _ _
      exact (hlive.trans (hkept.cons _)).trans ((sells_upsert_sell b.orders o).symm.map _)

/-! ### Plans -/

/-- A BUY leaves the SELLs under other ids. -/
theorem sellUnder_place_buy {o : RestingBuyOrder} {id : String} (hne : id ≠ o.orderId) :
    SellUnder (b.place (.buy o)) id ↔ SellUnder b id := by
  have hget : (b.orders.upsert (.buy o)).get? id = b.orders.get? id :=
    Table.get?_upsert_of_ne hne
  unfold SellUnder
  rw [Orders.place_buy]
  dsimp only
  rw [hget]

theorem not_sellUnder_placed_buy (b : RestingOrderBook) (o : RestingBuyOrder) :
    ¬ SellUnder (b.place (.buy o)) o.orderId := by
  rintro ⟨o', ho'⟩
  rw [Orders.place_buy] at ho'
  have hbuy : (b.orders.upsert (.buy o)).get? o.orderId = some (.buy o) :=
    Table.get?_upsert_self _ _
  rw [hbuy] at ho'
  cases ho'

/-- BUYs placed one after the other. -/
def placeBuys (b : RestingOrderBook) (buys : List RestingBuyOrder) : RestingOrderBook :=
  buys.foldl (fun b o => b.place (.buy o)) b

theorem Over.placeBuys {n : ℤ} {buys : List RestingBuyOrder} (h : Over n b) :
    Over n (placeBuys b buys) := by
  induction buys generalizing b with
  | nil => exact h
  | cons o buys ih => exact ih (h.place_buy o)

/-- One of them is placed over a SELL. -/
theorem Over.placeBuys_of_sellUnder {n : ℤ} {buys : List RestingBuyOrder} (h : Over n b)
    (hsell : ∃ o ∈ buys, SellUnder b o.orderId) : Over (n + 1) (Orders.placeBuys b buys) := by
  induction buys generalizing b with
  | nil =>
      obtain ⟨o, ho, -⟩ := hsell
      cases ho
  | cons first buys ih =>
      by_cases hfirst : SellUnder b first.orderId
      · exact (h.place_of_sellUnder (.buy first) hfirst).placeBuys
      · refine ih (h.place_buy first) ?_
        obtain ⟨o, ho, hunder⟩ := hsell
        have hne : o.orderId ≠ first.orderId := by
          intro heq
          rw [heq] at hunder
          exact hfirst hunder
        rcases List.mem_cons.1 ho with rfl | ho
        · exact absurd rfl hne
        · exact ⟨o, ho, (sellUnder_place_buy hne).2 hunder⟩

theorem placeBuys_keeps {buys : List RestingBuyOrder} (hk : ∃ k, Handled b k) (hm : Mirrors b)
    (hsell : ∀ o ∈ buys, ¬ SellUnder b o.orderId) :
    (∃ k, Handled (placeBuys b buys) k) ∧ Mirrors (placeBuys b buys) := by
  induction buys generalizing b with
  | nil => exact ⟨hk, hm⟩
  | cons first buys ih =>
      obtain ⟨k, hk⟩ := hk
      have hfirst := hsell first List.mem_cons_self
      refine ih (hk.place (.buy first) hfirst) (hm.place (.buy first) hfirst) ?_
      intro o ho hunder
      by_cases hne : o.orderId = first.orderId
      · rw [hne] at hunder
        exact not_sellUnder_placed_buy b first hunder
      · exact hsell o (List.mem_cons_of_mem _ ho) ((sellUnder_place_buy hne).1 hunder)

/-! ### Ticks -/

section Ticks

variable {chain : Option (GatedEntryFireChain S C B I)} {call : TickCall S C B} {s s' : TickState I}
  {order : RestingOrder}

/-- The keeper refuses no cancel during the tick. -/
def willing (chain : Option (GatedEntryFireChain S C B I)) : TickEnv S C B I :=
  ⟨chain, fun _ => false⟩

/-- A turn leaves the book, or cancels its order; a SELL only if it is triggered. -/
theorem Stepped.book {outcome : Except OrderError Unit}
    (h : Stepped (willing chain) call s order outcome s') :
    s'.book = s.book ∨
      s'.book = (s.book.cancel order.orderId false).2 ∧
        ∀ o, order = .sell o → o.isTriggered call.markPrice = true := by
  cases h with
  | kept _ => exact .inl rfl
  | waiting _ => exact .inl rfl
  | raised _ _ => exact .inl rfl
  | refused _ _ => exact .inl rfl
  | sold htriggered =>
      refine .inr ⟨rfl, fun o ho => ?_⟩
      obtain rfl := RestingOrder.sell.inj ho
      exact htriggered
  | bought _ _ => exact .inr ⟨rfl, fun o ho => by cases ho⟩

theorem Stepped.over {n : ℤ} {outcome : Except OrderError Unit}
    (h : Stepped (willing chain) call s order outcome s') (hn : Over n s.book) : Over n s'.book := by
  obtain ⟨k, hkeeper, -⟩ := id hn
  rcases h.book with hbook | ⟨hbook, -⟩
  · rw [hbook]
    exact hn
  · rw [hbook]
    exact (cancelled hkeeper order.orderId).over hn

/-- The loop takes nothing off the keeper that stays in the book. -/
theorem loop_over (chain : Option (GatedEntryFireChain S C B I)) (call : TickCall S C B) {n : ℤ}
    (hn : Over n s.book) (orders : List RestingOrder) :
    Over n (runLeaving (tickStep (willing chain) call) s orders).2.book :=
  runLeaving_invariant (P := fun s => Over n s.book) hn
    fun s o _ hs => (stepped (willing chain) call s o).over hs

theorem cancel_keeperHandles {orderId id : String} (hne : id ≠ orderId) (raises : Bool) :
    (b.cancel orderId raises).2.keeperHandles id = b.keeperHandles id := by
  unfold RestingOrderBook.cancel
  dsimp only
  split
  · split
    · split_ifs <;> exact Function.update_of_ne hne _ _
    · exact Function.update_of_ne hne _ _
  · rfl

/-- The handles of the orders no fire has removed are those of the start. -/
def HandlesKept (b : RestingOrderBook) (s : TickState I) : Prop :=
  ∀ id, id ∉ removedIds s.fires → s.book.keeperHandles id = b.keeperHandles id

theorem HandlesKept.append_removal (hs : HandlesKept b s) {f : TickFire I} {orderId : String}
    (hremoves : f.removes = some orderId) (raises : Bool) (committed : ℤ) :
    HandlesKept b ⟨(s.book.cancel orderId raises).2, s.fires ++ [f], committed⟩ := by
  intro id hid
  rw [removedIds_append, removedIds_singleton hremoves, List.mem_append, List.mem_singleton,
    not_or] at hid
  rw [cancel_keeperHandles hid.2]
  exact hs id hid.1

theorem Stepped.handlesKept {env : TickEnv S C B I} {outcome : Except OrderError Unit}
    (h : Stepped env call s order outcome s') (hs : HandlesKept b s) : HandlesKept b s' := by
  cases h with
  | kept _ => exact hs
  | waiting _ => exact hs
  | raised _ _ => exact hs
  | refused _ _ =>
      intro id hid
      rw [removedIds_append] at hid
      exact hs id fun hmem => hid (List.mem_append_left _ hmem)
  | @sold o _ => exact hs.append_removal (f := .sell o.orderId _ _) rfl _ _
  | @bought o _ _ _ _ _ _ => exact hs.append_removal (f := .buy o.orderId (.fired _ _ _ _)) rfl _ _

/-- At its turn an order is in the book, and its handle is the one of the start. -/
theorem at_turn {env : TickEnv S C B I} {before after : List RestingOrder}
    (hsplit : candidates b call.mint = before ++ order :: after)
    (hloop : runLeaving (tickStep env call) (.start b) before = (.ok (), s)) :
    s.book.orders.get? order.orderId = some order ∧
      s.book.keeperHandles order.orderId = b.keeperHandles order.orderId := by
  have hkept : HandlesKept b (runLeaving (tickStep env call) (.start b) before).2 :=
    runLeaving_invariant (fun _ _ => rfl) fun s o _ hs => (stepped env call s o).handlesKept hs
  rw [hloop] at hkept
  constructor
  · exact Table.get?_eq_some.2 ⟨mem_book_at_turn hsplit hloop, rfl⟩
  · exact hkept _ (not_removed_at_turn hsplit hloop)

/-- The loop of the tick gets to the order. -/
def Reaches (chain : Option (GatedEntryFireChain S C B I)) (b : RestingOrderBook)
    (call : TickCall S C B) (order : RestingOrder) : Prop :=
  ∃ before after, candidates b call.mint = before ++ order :: after ∧
    (runLeaving (tickStep (willing chain) call) (.start b) before).1 = .ok ()

/-- The book holds the handle of every triggered SELL the tick gets to. -/
def FiresHeld (chain : Option (GatedEntryFireChain S C B I)) (b : RestingOrderBook)
    (call : TickCall S C B) : Prop :=
  0 ≤ call.blockTimeMs → ∀ o, Reaches chain b call (.sell o) →
    o.isTriggered call.markPrice = true → (b.keeperHandles o.orderId).isSome

theorem evaluateTick_book (env : TickEnv S C B I) (htime : 0 ≤ call.blockTimeMs) :
    (evaluateTick env b call).2 =
      (runLeaving (tickStep env call) (.start b) (candidates b call.mint)).2.book := by
  rw [evaluateTick_eq htime]

theorem evaluateTick_of_neg (env : TickEnv S C B I) (htime : call.blockTimeMs < 0) :
    (evaluateTick env b call).2 = b := by
  unfold evaluateTick
  rw [if_pos htime]

/-- What a tick that misses no handle keeps. -/
theorem tick_keeps (hk : ∃ k, Handled b k) (hm : Mirrors b) (hheld : FiresHeld chain b call) :
    (∃ k, Handled (evaluateTick (willing chain) b call).2 k) ∧
      Mirrors (evaluateTick (willing chain) b call).2 := by
  rcases lt_or_ge call.blockTimeMs 0 with htime | htime
  · rw [evaluateTick_of_neg _ htime]
    exact ⟨hk, hm⟩
  · rw [evaluateTick_book _ htime]
    refine runLeaving_invariant_of_turns
      (P := fun s : TickState I => (∃ k, Handled s.book k) ∧ Mirrors s.book)
      (T := fun s order => s.book.orders.get? order.orderId = some order ∧
        ∀ o, order = .sell o → o.isTriggered call.markPrice = true →
          (s.book.keeperHandles o.orderId).isSome)
      ⟨hk, hm⟩ ?_ ?_
    · intro before order after s hsplit hloop
      obtain ⟨hget, hhandle⟩ := at_turn hsplit hloop
      refine ⟨hget, ?_⟩
      rintro o rfl htriggered
      have hreached : Reaches chain b call (.sell o) := ⟨before, after, hsplit, by rw [hloop]⟩
      rw [show s.book.keeperHandles o.orderId = b.keeperHandles o.orderId from hhandle]
      exact hheld htime o hreached htriggered
    · rintro s order ⟨⟨k, hk⟩, hm⟩ ⟨hget, hturn⟩
      rcases (stepped (willing chain) call s order).book with hbook | ⟨hbook, htriggered⟩
      · rw [hbook]
        exact ⟨⟨k, hk⟩, hm⟩
      · rw [hbook]
        have hcancelled := cancelled hk.keeper order.orderId
        refine ⟨hcancelled.handled hk, hcancelled.mirrors hk hm fun o ho => ?_⟩
        obtain rfl := Option.some.inj (hget.symm.trans ho)
        exact hturn o rfl (htriggered o rfl)

/-- A tick that misses a handle leaves a SELL at the keeper. -/
theorem tick_over (hm : Mirrors b) (hmissed : ¬ FiresHeld chain b call) :
    Over 1 (evaluateTick (willing chain) b call).2 := by
  unfold FiresHeld at hmissed
  push Not at hmissed
  obtain ⟨htime, o, ⟨before, after, hsplit, hreturns⟩, htriggered, hhandle⟩ := hmissed
  obtain ⟨s, hloop⟩ : ∃ s, runLeaving (tickStep (willing chain) call) (.start b) before =
      (.ok (), s) := ⟨_, Prod.ext hreturns rfl⟩
  obtain ⟨hget, hsame⟩ := at_turn hsplit hloop
  have hover : Over 0 s.book := by
    have := loop_over chain call (s := .start b) hm.over before
    rw [hloop] at this
    exact this
  obtain ⟨k, hkeeper, -⟩ := id hover
  rw [evaluateTick_book _ htime, hsplit, runLeaving_append_ok hloop]
  refine runLeaving_cons (P := fun s : TickState I => Over 1 s.book) ?_ fun hfirst =>
    loop_over chain call hfirst after
  have hfires : (tickStep (willing chain) call s (.sell o)).2.book =
      (s.book.cancel o.orderId false).2 := by
    simp only [tickStep, if_pos htriggered]
    rfl
  rw [hfires]
  refine (cancelled hkeeper o.orderId).over_of_unheld hover hget ?_
  rw [show s.book.keeperHandles o.orderId = b.keeperHandles o.orderId from hsame]
  simpa using hhandle

end Ticks

/-! ### Runs of the book -/

variable (S C B I) in
/-- What is done to the book; the keeper refuses nothing. -/
inductive BookOp
  | place (order : RestingOrder)
  | placeDca (plan : DcaPlan)
  | cancel (orderId : String)
  | evaluateTick (chain : Option (GatedEntryFireChain S C B I)) (call : TickCall S C B)
  /-- A new `RestingOrderBook` over the same store and keeper. -/
  | restart

/-- The book after an operation, whether it returned or raised. -/
def bookNext (b : RestingOrderBook) : BookOp S C B I → RestingOrderBook
  | .place order => b.place order
  | .placeDca plan => b.placeDca plan
  | .cancel orderId => (b.cancel orderId false).2
  | .evaluateTick chain call => (evaluateTick (willing chain) b call).2
  | .restart => .boot b.store b.keeper

/-- The step of a run of the book: what an operation raises does not stop the run. -/
def bookStep (b : RestingOrderBook) (op : BookOp S C B I) : Except OrderError RestingOrderBook :=
  .ok (bookNext b op)

/-- A new book over an empty store and a keeper that holds nothing. -/
def emptyBook : RestingOrderBook := .boot Table.empty (some .empty)

/-- The operation misses no handle: nothing is placed over a SELL of the book, and no SELL is
cancelled or fires whose handle the book does not hold. -/
def KeepsMirror (b : RestingOrderBook) : BookOp S C B I → Prop
  | .place order => ¬ SellUnder b order.orderId
  | .placeDca plan => ∀ idx < plan.tranches, ¬ SellUnder b (plan.buyOrderForTranche idx).orderId
  | .cancel orderId => SellUnder b orderId → (b.keeperHandles orderId).isSome
  | .evaluateTick chain call => FiresHeld chain b call
  | .restart => True

theorem placeDca_eq (b : RestingOrderBook) (plan : DcaPlan) :
    b.placeDca plan = placeBuys b ((List.range plan.tranches).map plan.buyOrderForTranche) :=
  rfl

/-- **What an operation that misses no handle keeps.** -/
theorem bookNext_keeps (op : BookOp S C B I) (hk : ∃ k, Handled b k) (hm : Mirrors b)
    (h : KeepsMirror b op) : (∃ k, Handled (bookNext b op) k) ∧ Mirrors (bookNext b op) := by
  obtain ⟨k, hk'⟩ := id hk
  cases op with
  | place order => exact ⟨hk'.place order h, hm.place order h⟩
  | placeDca plan =>
      show (∃ k, Handled (b.placeDca plan) k) ∧ Mirrors (b.placeDca plan)
      rw [placeDca_eq]
      refine placeBuys_keeps hk hm fun o ho => ?_
      obtain ⟨idx, hidx, rfl⟩ := List.mem_map.1 ho
      exact h idx (List.mem_range.1 hidx)
  | cancel orderId =>
      have hcancelled := cancelled hk'.keeper orderId
      exact ⟨hcancelled.handled hk', hcancelled.mirrors hk' hm fun o ho => h ⟨o, ho⟩⟩
  | evaluateTick chain call => exact tick_keeps hk hm h
  | restart =>
      refine ⟨⟨k, hk'.keeper, rfl, fun _ _ hnone => by cases hnone⟩, k, hk'.keeper, ?_⟩
      show (k.live.map KeptSell.spec).Perm ((sells b.store).map RestingSellOrder.spec)
      rw [hk'.store]
      exact hm.perm hk'.keeper

/-- **An operation that misses a handle breaks the mirror.** -/
theorem bookNext_over (op : BookOp S C B I) (hm : Mirrors b) (h : ¬ KeepsMirror b op) :
    Over 1 (bookNext b op) := by
  cases op with
  | place order => exact hm.over.place_of_sellUnder order (not_not.1 h)
  | placeDca plan =>
      unfold KeepsMirror at h
      push Not at h
      obtain ⟨idx, hidx, hsell⟩ := h
      show Over 1 (b.placeDca plan)
      rw [placeDca_eq]
      refine hm.over.placeBuys_of_sellUnder ⟨_, List.mem_map.2 ⟨idx, ?_, rfl⟩, hsell⟩
      exact List.mem_range.2 hidx
  | cancel orderId =>
      unfold KeepsMirror at h
      push Not at h
      obtain ⟨⟨o, ho⟩, hhandle⟩ := h
      obtain ⟨k, hkeeper, -⟩ := id hm
      refine (cancelled hkeeper orderId).over_of_unheld hm.over ho ?_
      simpa using hhandle
  | evaluateTick chain call => exact tick_over hm h
  | restart => exact absurd trivial h

/-- **When the keeper mirrors the book.**  In a run of operations on a new book, the SELLs live at
the keeper are those of the book after every operation iff no operation misses a handle. -/
theorem mirrors_iff_keepsMirror (ops : List (BookOp S C B I)) :
    EveryState bookStep (fun _ b => Mirrors b) emptyBook ops ↔
      EveryStep bookStep (fun _ b op => KeepsMirror b op) emptyBook ops := by
  refine everyState_iff_everyStep (J := fun b => ∃ k, Handled b k) ?_ ?_ ?_ ops
  · exact ⟨_, rfl, List.Perm.refl _⟩
  · exact ⟨_, rfl, rfl, fun _ _ hnone => by cases hnone⟩
  · intro _ b op hk hm
    refine ⟨bookNext b op, rfl, ⟨?_, fun h => (bookNext_keeps op hk hm h).2⟩,
      fun h => (bookNext_keeps op hk hm h).1⟩
    intro hnext
    by_contra h
    exact (bookNext_over op hm h).not_mirrors one_pos hnext

/-- The same SELL placed twice is live twice, and one cancelled after a restart stays live without
its order. -/
theorem orphaned_sells :
    ¬ EveryState bookStep (fun _ b => Mirrors b) emptyBook
        ([.place (profitSell "a"), .place (profitSell "a")] : List (BookOp Unit Unit Unit Unit)) ∧
      ¬ EveryState bookStep (fun _ b => Mirrors b) emptyBook
        ([.place (profitSell "a"), .restart, .cancel "a"] : List (BookOp Unit Unit Unit Unit)) := by
  constructor
  · intro h
    obtain ⟨k, hk, hperm⟩ := h _ [] _ (List.append_nil _).symm rfl
    obtain rfl := Option.some.inj hk
    exact absurd hperm.length_eq (by decide)
  · intro h
    obtain ⟨k, hk, hperm⟩ := h _ [] _ (List.append_nil _).symm rfl
    obtain rfl := Option.some.inj hk
    exact absurd hperm.length_eq (by decide)

end Orders
end AatsSniper

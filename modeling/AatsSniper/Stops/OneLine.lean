/-
# One line through the stop layers

A mint armed in Layer 2 is to have one live order off-box, at the trigger of its stop,
and a mint that is not armed none (`OneLine`); while a mint stays armed its triggers
are not to fall (`NeverLower`).  The coordinator changes the stop in memory first and
the order off-box second, and forgets an order before it cancels it.  So an order
that could not be placed, moved or cancelled is out of line, and so is the order of a
stop that fired in a tick, and the order of a mint that is armed once more.

`oneLine_iff_keepsLine` says which operations keep the line: in a run, every operation
keeps it iff each of them meets `KeepsLine`.  An operation touches the mint it names
only (`Elsewhere`), so one mint is looked at, and there the stop, the order the placer
knows and the live orders decide.
-/

import AatsSniper.Stops.Coordinator

namespace AatsSniper
namespace Stops

open Exit (StopState StopThresholds)

variable {Position Fill : Type} {c c' : SurvivableStopCoordinator Position} {mint : String}
  {stop : StopState} {raised : Option StopError}

/-! ### The line -/

namespace SurvivableStopCoordinator

/-- The armed stop of a mint. -/
def stop? (c : SurvivableStopCoordinator Position) (mint : String) : Option StopState :=
  c.enforcer.stopFor mint

/-- The live orders of a mint. -/
def orders (c : SurvivableStopCoordinator Position) (mint : String) : List PlacedStop :=
  c.venueNative.venue.ordersOf mint

/-- `placed_order(mint)` of the placer. -/
def placedOrder (c : SurvivableStopCoordinator Position) (mint : String) : Option PlacedStop :=
  c.venueNative.placed.get? mint

end SurvivableStopCoordinator

/-- A mint holds the line: one order at the trigger of its stop, or neither. -/
def InLine (c : SurvivableStopCoordinator Position) (mint : String) : Prop :=
  match c.stop? mint with
  | none => c.orders mint = []
  | some stop => ∃ o, c.orders mint = [o] ∧ o.triggerPrice = stop.triggerPrice

/-- Every mint holds the line. -/
def OneLine (c : SurvivableStopCoordinator Position) : Prop := ∀ mint, InLine c mint

/-- While a mint stays armed, neither the trigger of its stop nor that of its order falls. -/
def NeverLower (c c' : SurvivableStopCoordinator Position) : Prop :=
  ∀ mint stop stop', c.stop? mint = some stop → c'.stop? mint = some stop' →
    stop.triggerPrice ≤ stop'.triggerPrice ∧
      ∀ o ∈ c.orders mint, ∀ o' ∈ c'.orders mint, o.triggerPrice ≤ o'.triggerPrice

/-- The placer knows the order of the mint. -/
def Known (c : SurvivableStopCoordinator Position) (mint : String) : Prop :=
  c.placedOrder mint = (c.orders mint).head?

/-- The line, with every order known. -/
def Aligned (c : SurvivableStopCoordinator Position) : Prop :=
  ∀ mint, InLine c mint ∧ Known c mint

theorem InLine.orders_of_armed (h : InLine c mint) (hstop : c.stop? mint = some stop) :
    ∃ o, c.orders mint = [o] ∧ o.triggerPrice = stop.triggerPrice := by
  unfold InLine at h
  rw [hstop] at h
  exact h

theorem InLine.orders_of_unarmed (h : InLine c mint) (hstop : c.stop? mint = none) :
    c.orders mint = [] := by
  unfold InLine at h
  rw [hstop] at h
  exact h

theorem inLine_of_armed {o : PlacedStop} (hstop : c.stop? mint = some stop)
    (horders : c.orders mint = [o]) (htrigger : o.triggerPrice = stop.triggerPrice) :
    InLine c mint := by
  unfold InLine
  rw [hstop]
  exact ⟨o, horders, htrigger⟩

theorem inLine_of_unarmed (hstop : c.stop? mint = none) (horders : c.orders mint = []) :
    InLine c mint := by
  unfold InLine
  rw [hstop]
  exact horders

/-- Where both ends hold the line, it is enough that no stop falls. -/
theorem neverLower_of_stops (hc : OneLine c) (hc' : OneLine c')
    (h : ∀ mint stop stop', c.stop? mint = some stop → c'.stop? mint = some stop' →
      stop.triggerPrice ≤ stop'.triggerPrice) : NeverLower c c' := by
  intro mint stop stop' hstop hstop'
  refine ⟨h mint stop stop' hstop hstop', fun o ho o' ho' => ?_⟩
  obtain ⟨o₁, horders, htrigger⟩ := (hc mint).orders_of_armed hstop
  obtain ⟨o₂, horders', htrigger'⟩ := (hc' mint).orders_of_armed hstop'
  rw [horders] at ho
  rw [horders'] at ho'
  obtain rfl := List.mem_singleton.1 ho
  obtain rfl := List.mem_singleton.1 ho'
  rw [htrigger, htrigger']
  exact h mint stop stop' hstop hstop'

theorem Aligned.oneLine (hc : Aligned c) : OneLine c := fun mint => (hc mint).1

/-- The line held, and nothing has changed. -/
theorem Aligned.holdsLine (hc : Aligned c) : OneLine c ∧ NeverLower c c := by
  refine ⟨hc.oneLine, neverLower_of_stops hc.oneLine hc.oneLine fun mint stop stop' h h' => ?_⟩
  rw [h] at h'
  rw [Option.some.inj h']

/-- The order of an armed mint is live and known. -/
theorem Aligned.order_of_armed (hc : Aligned c) (hstop : c.stop? mint = some stop) :
    ∃ o, c.placedOrder mint = some o ∧ c.orders mint = [o] ∧
      o.triggerPrice = stop.triggerPrice := by
  obtain ⟨o, horders, htrigger⟩ := (hc mint).1.orders_of_armed hstop
  refine ⟨o, ?_, horders, htrigger⟩
  rw [(hc mint).2, horders]
  rfl

/-- A mint that is not armed has no order, and none is known. -/
theorem Aligned.order_of_unarmed (hc : Aligned c) (hstop : c.stop? mint = none) :
    c.placedOrder mint = none ∧ c.orders mint = [] := by
  have horders := (hc mint).1.orders_of_unarmed hstop
  refine ⟨?_, horders⟩
  rw [(hc mint).2, horders]
  rfl

/-! ### The orders of a mint at the venue -/

section Venue

variable {v : RestingStopVenue} {order : RestingStopOrder} {orderId : ℕ}

theorem ordersOf_take (v : RestingStopVenue) (order : RestingStopOrder) (stays : PlacedStop → Bool)
    (mint : String) :
    (v.take order stays).ordersOf mint =
      (v.ordersOf mint).filter stays ++ if order.mint = mint then [⟨order, v.seq + 1⟩] else [] := by
  unfold RestingStopVenue.ordersOf RestingStopVenue.take
  rw [List.filter_append, List.filter_filter, List.filter_filter]
  congr 1
  · exact List.filter_congr fun o _ => Bool.and_comm _ _
  · by_cases h : order.mint = mint
    · rw [if_pos h]
      exact List.filter_cons_of_pos (decide_eq_true h)
    · rw [if_neg h]
      exact List.filter_cons_of_neg (by simpa using h)

theorem mem_ordersOf {o : PlacedStop} : o ∈ v.ordersOf mint ↔ o ∈ v.live ∧ o.mint = mint := by
  unfold RestingStopVenue.ordersOf
  rw [List.mem_filter, decide_eq_true_iff]

theorem ordersOf_place_self (v : RestingStopVenue) (order : RestingStopOrder) :
    (v.placeRestingStop order).2.ordersOf order.mint =
      (if v.perMint = true then [] else v.ordersOf order.mint) ++ [⟨order, v.seq + 1⟩] := by
  unfold RestingStopVenue.placeRestingStop
  rw [ordersOf_take, if_pos rfl]
  congr 1
  split_ifs with hper
  · rw [List.filter_eq_nil_iff]
    intro o ho
    simp [hper, (mem_ordersOf.1 ho).2]
  · rw [List.filter_eq_self]
    intro o _
    simp [hper]

theorem ordersOf_place_ne (v : RestingStopVenue) (h : mint ≠ order.mint) :
    (v.placeRestingStop order).2.ordersOf mint = v.ordersOf mint := by
  unfold RestingStopVenue.placeRestingStop
  rw [ordersOf_take, if_neg (Ne.symm h), List.append_nil, List.filter_eq_self]
  intro o ho
  rw [(mem_ordersOf.1 ho).2]
  simp [h]

theorem ordersOf_cancel (v : RestingStopVenue) (mint' mint : String) (orderId : ℕ) :
    (v.cancelRestingStop mint' orderId).ordersOf mint =
      (v.ordersOf mint).filter fun o => decide (¬ (o.mint = mint' ∧ o.orderId = orderId)) := by
  unfold RestingStopVenue.ordersOf RestingStopVenue.cancelRestingStop
  rw [List.filter_filter, List.filter_filter]
  exact List.filter_congr fun o _ => Bool.and_comm _ _

/-- The orders of another mint are not the one named. -/
theorem filter_of_ne (v : RestingStopVenue) {mint mint' : String} (h : mint ≠ mint') (orderId : ℕ) :
    ((v.ordersOf mint).filter fun o => decide (¬ (o.mint = mint' ∧ o.orderId = orderId))) =
      v.ordersOf mint := by
  rw [List.filter_eq_self]
  intro o ho
  rw [decide_eq_true_iff, (mem_ordersOf.1 ho).2]
  exact fun hboth => h hboth.1

/-- The one order of a mint goes. -/
theorem filter_of_single {o : PlacedStop} (h : v.ordersOf mint = [o]) :
    ((v.ordersOf mint).filter fun o' => decide (¬ (o'.mint = mint ∧ o'.orderId = o.orderId))) =
      [] := by
  have ho : o ∈ v.ordersOf mint := by
    rw [h]
    exact List.mem_singleton_self o
  rw [h]
  simp [(mem_ordersOf.1 ho).2]

/-- What `replace_tighter` returned. -/
theorem replaceTighter_eq_ok {newTrigger : ℚ} {o : PlacedStop} {v' : RestingStopVenue}
    (h : v.replaceTighter mint orderId newTrigger = .ok (o, v')) :
    o.mint = mint ∧ o.triggerPrice = newTrigger ∧
      v'.perMint = v.perMint ∧
      ∀ mint', v'.ordersOf mint' =
        ((v.ordersOf mint').filter fun o => decide (¬ (o.mint = mint ∧ o.orderId = orderId))) ++
          if mint = mint' then [o] else [] := by
  unfold RestingStopVenue.replaceTighter at h
  split at h
  · cases h
  · split_ifs at h
    cases h
    exact ⟨rfl, rfl, rfl, fun mint' => ordersOf_take _ _ _ _⟩

/-- The one order of a mint can be replaced by one that is not lower. -/
theorem replaceTighter_of_single {newTrigger : ℚ} {o : PlacedStop} (h : v.ordersOf mint = [o])
    (hle : o.triggerPrice ≤ newTrigger) :
    ∃ o' v', v.replaceTighter mint o.orderId newTrigger = .ok (o', v') := by
  have hfind : v.live.find? (fun o' => decide (o'.mint = mint ∧ o'.orderId = o.orderId)) = some o := by
    have hsplit : v.live.find? (fun o' => decide (o'.mint = mint ∧ o'.orderId = o.orderId)) =
        (v.ordersOf mint).find? fun o' => decide (o'.orderId = o.orderId) := by
      unfold RestingStopVenue.ordersOf
      rw [List.find?_filter]
      simp
    rw [hsplit, h]
    simp
  unfold RestingStopVenue.replaceTighter
  rw [hfind]
  dsimp only
  rw [dif_neg (not_lt.2 hle)]
  exact ⟨_, _, rfl⟩

end Venue

/-! ### One mint at a time -/

/-- Nothing has changed for the other mints. -/
def Elsewhere (mint : String) (c c' : SurvivableStopCoordinator Position) : Prop :=
  ∀ other, other ≠ mint → c'.stop? other = c.stop? other ∧ c'.orders other = c.orders other ∧
    c'.placedOrder other = c.placedOrder other

theorem Elsewhere.inLine (h : Elsewhere mint c c') (hc : OneLine c) {other : String}
    (hne : other ≠ mint) : InLine c' other := by
  obtain ⟨hstop, horders, -⟩ := h other hne
  have := hc other
  unfold InLine at this ⊢
  rw [hstop, horders]
  exact this

theorem Elsewhere.oneLine (h : Elsewhere mint c c') (hc : OneLine c) (hmint : InLine c' mint) :
    OneLine c' := by
  intro other
  by_cases hne : other = mint
  · rw [hne]
    exact hmint
  · exact h.inLine hc hne

theorem Elsewhere.aligned (h : Elsewhere mint c c') (hc : Aligned c) (hmint : InLine c' mint)
    (hknown : Known c' mint) : Aligned c' := by
  intro other
  by_cases hne : other = mint
  · rw [hne]
    exact ⟨hmint, hknown⟩
  · refine ⟨h.inLine hc.oneLine hne, ?_⟩
    obtain ⟨-, horders, hplaced⟩ := h other hne
    unfold Known
    rw [horders, hplaced]
    exact (hc other).2

/-- An operation keeps the line iff the mint it names does. -/
theorem Elsewhere.holdsLine_iff (h : Elsewhere mint c c') (hc : OneLine c) :
    OneLine c' ∧ NeverLower c c' ↔
      InLine c' mint ∧ ∀ stop stop', c.stop? mint = some stop → c'.stop? mint = some stop' →
        stop.triggerPrice ≤ stop'.triggerPrice := by
  constructor
  · rintro ⟨hline, hnever⟩
    exact ⟨hline mint, fun stop stop' hstop hstop' => (hnever mint stop stop' hstop hstop').1⟩
  · rintro ⟨hmint, htrigger⟩
    have hline := h.oneLine hc hmint
    refine ⟨hline, neverLower_of_stops hc hline fun other stop stop' hstop hstop' => ?_⟩
    by_cases hne : other = mint
    · subst hne
      exact htrigger stop stop' hstop hstop'
    · rw [(h other hne).1, hstop] at hstop'
      rw [Option.some.inj hstop']

theorem stop?_upsert (stops : SecondaryStopEnforcer Position) (reg : Registered Position)
    (mint : String) :
    SecondaryStopEnforcer.stopFor (stops.upsert reg) mint =
      if mint = reg.stop.mint then some reg.stop else SecondaryStopEnforcer.stopFor stops mint := by
  unfold SecondaryStopEnforcer.stopFor
  rw [Table.get?_upsert]
  unfold Registered.key
  split_ifs <;> rfl

theorem stop?_remove (stops : SecondaryStopEnforcer Position) (mint mint' : String) :
    SecondaryStopEnforcer.stopFor (stops.remove mint) mint' =
      if mint' = mint then none else SecondaryStopEnforcer.stopFor stops mint' := by
  unfold SecondaryStopEnforcer.stopFor
  rw [Table.get?_remove]
  split_ifs <;> rfl

/-! ### Arming -/

theorem atEntry_mint {entry : ℚ} {thresholds : StopThresholds}
    (h : StopState.atEntry mint entry thresholds = .ok stop) : stop.mint = mint := by
  unfold StopState.atEntry at h
  obtain ⟨trigger, -, h⟩ := ok_of_bind h
  unfold StopState.new at h
  split_ifs at h
  cases h
  rfl

/-- The venue takes the order of an armed mint. -/
def Placeable (fractionBps : ℤ) (raised : Option StopError) : Prop :=
  (1 ≤ fractionBps ∧ fractionBps ≤ 10000) ∧ raised = none

theorem placeFor_of_not_placeable (p : VenueNativeStopPlacer) {fractionBps : ℤ}
    (h : ¬ Placeable fractionBps raised) : (p.placeFor stop fractionBps raised).2 = p := by
  unfold VenueNativeStopPlacer.placeFor restingOrderFromStop
  by_cases hrange : 1 ≤ fractionBps ∧ fractionBps ≤ 10000
  · rw [dif_pos hrange]
    cases raised with
    | none => exact absurd ⟨hrange, rfl⟩ h
    | some e => rfl
  · rw [dif_neg hrange]

theorem placeFor_of_placeable (p : VenueNativeStopPlacer) (stop : StopState) {fractionBps : ℤ}
    (h : Placeable fractionBps raised) :
    ∃ o : PlacedStop, o.mint = stop.mint ∧ o.triggerPrice = stop.triggerPrice ∧
      (p.placeFor stop fractionBps raised).2.placed = p.placed.upsert o ∧
      (p.placeFor stop fractionBps raised).2.venue.ordersOf stop.mint =
        (if p.venue.perMint = true then [] else p.venue.ordersOf stop.mint) ++ [o] ∧
      ∀ other, other ≠ stop.mint →
        (p.placeFor stop fractionBps raised).2.venue.ordersOf other = p.venue.ordersOf other := by
  obtain ⟨hrange, rfl⟩ := h
  have hplace : (p.placeFor stop fractionBps none).2 =
      ⟨(p.venue.placeRestingStop
          ⟨stop.mint, stop.triggerPrice, fractionBps, hrange, stop.trigger_pos⟩).2,
        p.placed.upsert ⟨⟨stop.mint, stop.triggerPrice, fractionBps, hrange, stop.trigger_pos⟩,
          p.venue.seq + 1⟩⟩ := by
    unfold VenueNativeStopPlacer.placeFor restingOrderFromStop
    rw [dif_pos hrange]
    rfl
  rw [hplace]
  exact ⟨_, rfl, rfl, rfl, ordersOf_place_self _ _, fun other hne => ordersOf_place_ne _ hne⟩

section Arming

variable {entry : ℚ} {position : Position} {thresholds : Option StopThresholds} {fractionBps : ℤ}

/-- The stop and the layers after an `arm_at_entry` that gets past the stop. -/
theorem armAtEntry_eq
    (h : StopState.atEntry mint entry (thresholds.getD defaultThresholds) = .ok stop) :
    (c.armAtEntry mint entry position thresholds fractionBps raised).2 =
      { c with
        enforcer := c.enforcer.upsert ⟨stop, position⟩
        venueNative := (c.venueNative.placeFor stop fractionBps raised).2 } := by
  unfold SurvivableStopCoordinator.armAtEntry
  rw [h]
  dsimp only
  rcases c.venueNative.placeFor stop fractionBps raised with ⟨_ | _, p⟩ <;> rfl

theorem armAtEntry_refused {e : Exit.ExitError}
    (h : StopState.atEntry mint entry (thresholds.getD defaultThresholds) = .error e) :
    (c.armAtEntry mint entry position thresholds fractionBps raised).2 = c := by
  unfold SurvivableStopCoordinator.armAtEntry
  rw [h]

theorem armAtEntry_stop? (hmint : stop.mint = mint)
    (h : StopState.atEntry mint entry (thresholds.getD defaultThresholds) = .ok stop)
    (other : String) :
    (c.armAtEntry mint entry position thresholds fractionBps raised).2.stop? other =
      if other = mint then some stop else c.stop? other := by
  rw [armAtEntry_eq h]
  unfold SurvivableStopCoordinator.stop?
  dsimp only
  rw [stop?_upsert]
  dsimp only
  rw [hmint]

theorem armAtEntry_elsewhere
    (h : StopState.atEntry mint entry (thresholds.getD defaultThresholds) = .ok stop) :
    Elsewhere mint c (c.armAtEntry mint entry position thresholds fractionBps raised).2 := by
  have hmint := atEntry_mint h
  intro other hne
  refine ⟨?_, ?_⟩
  · rw [armAtEntry_stop? hmint h, if_neg hne]
  · rw [armAtEntry_eq h]
    unfold SurvivableStopCoordinator.orders SurvivableStopCoordinator.placedOrder
    by_cases hplace : Placeable fractionBps raised
    · obtain ⟨o, homint, -, hplaced, -, hother⟩ := placeFor_of_placeable c.venueNative stop hplace
      rw [hplaced, hother other (hmint ▸ hne), Table.get?_upsert, if_neg]
      · exact ⟨rfl, rfl⟩
      · rw [show PlacedStop.key o = mint from homint.trans hmint]
        exact hne
    · rw [placeFor_of_not_placeable _ hplace]
      exact ⟨rfl, rfl⟩

/-- When arming keeps the line: the order is taken, and no order of the mint was live or the new one
displaces it and is not lower; or it is not taken, and the mint was armed at the same trigger. -/
def ArmsInLine (c : SurvivableStopCoordinator Position) (mint : String) (fractionBps : ℤ)
    (raised : Option StopError) (stop : StopState) : Prop :=
  (Placeable fractionBps raised → ∀ armed, c.stop? mint = some armed →
    c.venueNative.venue.perMint = true ∧ armed.triggerPrice ≤ stop.triggerPrice) ∧
  (¬ Placeable fractionBps raised → ∃ armed, c.stop? mint = some armed ∧
    armed.triggerPrice = stop.triggerPrice)

theorem armAtEntry_placed (position : Position) (hc : Aligned c)
    (h : StopState.atEntry mint entry (thresholds.getD defaultThresholds) = .ok stop)
    (hplace : Placeable fractionBps raised) :
    let c' := (c.armAtEntry mint entry position thresholds fractionBps raised).2
    (InLine c' mint ↔ ∀ armed, c.stop? mint = some armed → c.venueNative.venue.perMint = true) ∧
      (InLine c' mint → Known c' mint) := by
  intro c'
  have hmint := atEntry_mint h
  obtain ⟨o, homint, htrigger, hplaced, hself, -⟩ := placeFor_of_placeable c.venueNative stop hplace
  have hstop : c'.stop? mint = some stop := by
    rw [armAtEntry_stop? hmint h, if_pos rfl]
  have horders : c'.orders mint =
      (if c.venueNative.venue.perMint = true then [] else c.orders mint) ++ [o] := by
    show (c.armAtEntry mint entry position thresholds fractionBps raised).2.orders mint = _
    rw [armAtEntry_eq h]
    rw [hmint] at hself
    exact hself
  have hknown : c'.placedOrder mint = some o := by
    show (c.armAtEntry mint entry position thresholds fractionBps raised).2.placedOrder mint = _
    rw [armAtEntry_eq h]
    unfold SurvivableStopCoordinator.placedOrder
    dsimp only
    rw [hplaced, Table.get?_upsert]
    exact if_pos (homint.trans hmint).symm
  refine ⟨⟨fun hline armed harmed => ?_, fun hper => ?_⟩, fun hline => ?_⟩
  · -- the old order would be the second one
    obtain ⟨o₁, horders₁, -⟩ := (hc mint).1.orders_of_armed harmed
    obtain ⟨o₂, horders₂, -⟩ := hline.orders_of_armed hstop
    by_contra hper
    rw [horders, if_neg hper, horders₁] at horders₂
    cases horders₂
  · refine inLine_of_armed hstop ?_ htrigger
    rw [horders]
    split_ifs with hif
    · rfl
    · cases harmed : c.stop? mint with
      | none => rw [(hc mint).1.orders_of_unarmed harmed, List.nil_append]
      | some armed => exact absurd (hper armed harmed) hif
  · obtain ⟨o₂, horders₂, -⟩ := hline.orders_of_armed hstop
    unfold Known
    rw [horders₂, hknown]
    rw [horders] at horders₂
    have hlast : [o] = [o₂] := (List.append_inj' (horders₂.trans (List.nil_append _).symm) rfl).2
    rw [List.singleton_inj.1 hlast]
    rfl

theorem armAtEntry_not_placed (position : Position) (hc : Aligned c)
    (h : StopState.atEntry mint entry (thresholds.getD defaultThresholds) = .ok stop)
    (hplace : ¬ Placeable fractionBps raised) :
    let c' := (c.armAtEntry mint entry position thresholds fractionBps raised).2
    (InLine c' mint ↔
        ∃ armed, c.stop? mint = some armed ∧ armed.triggerPrice = stop.triggerPrice) ∧
      Known c' mint := by
  intro c'
  have hmint := atEntry_mint h
  have hstop : c'.stop? mint = some stop := by
    rw [armAtEntry_stop? hmint h, if_pos rfl]
  have hvenue : c'.venueNative = c.venueNative := by
    show (c.armAtEntry mint entry position thresholds fractionBps raised).2.venueNative = _
    rw [armAtEntry_eq h]
    exact placeFor_of_not_placeable _ hplace
  have horders : c'.orders mint = c.orders mint := by
    unfold SurvivableStopCoordinator.orders
    rw [hvenue]
  refine ⟨⟨fun hline => ?_, fun hsame => ?_⟩, ?_⟩
  · obtain ⟨o, ho, htrigger⟩ := hline.orders_of_armed hstop
    rw [horders] at ho
    cases harmed : c.stop? mint with
    | none =>
        rw [(hc mint).1.orders_of_unarmed harmed] at ho
        cases ho
    | some armed =>
        obtain ⟨o₁, ho₁, htrigger₁⟩ := (hc mint).1.orders_of_armed harmed
        rw [ho₁] at ho
        obtain rfl := List.singleton_inj.1 ho
        exact ⟨armed, rfl, htrigger₁.symm.trans htrigger⟩
  · obtain ⟨armed, harmed, hsame⟩ := hsame
    obtain ⟨o, ho, htrigger⟩ := (hc mint).1.orders_of_armed harmed
    exact inLine_of_armed hstop (horders.trans ho) (htrigger.trans hsame)
  · unfold Known SurvivableStopCoordinator.placedOrder
    rw [horders, hvenue]
    exact (hc mint).2

/-- **What arming keeps.** -/
theorem armAtEntry_iff (hc : Aligned c)
    (h : StopState.atEntry mint entry (thresholds.getD defaultThresholds) = .ok stop) :
    let c' := (c.armAtEntry mint entry position thresholds fractionBps raised).2
    (OneLine c' ∧ NeverLower c c' ↔ ArmsInLine c mint fractionBps raised stop) ∧
      (ArmsInLine c mint fractionBps raised stop → Aligned c') := by
  intro c'
  have helsewhere : Elsewhere mint c c' := armAtEntry_elsewhere h
  have hstop : c'.stop? mint = some stop := by
    rw [armAtEntry_stop? (atEntry_mint h) h, if_pos rfl]
  rw [helsewhere.holdsLine_iff hc.oneLine]
  unfold ArmsInLine
  by_cases hplace : Placeable fractionBps raised
  · obtain ⟨hline, hknown⟩ := armAtEntry_placed position hc h hplace
    constructor
    · constructor
      · rintro ⟨hin, htrigger⟩
        refine ⟨fun _ armed harmed => ⟨hline.1 hin armed harmed, ?_⟩, absurd hplace⟩
        exact htrigger armed stop harmed hstop
      · rintro ⟨hper, -⟩
        refine ⟨hline.2 fun armed harmed => (hper hplace armed harmed).1, ?_⟩
        intro armed stop' harmed hstop'
        rw [hstop] at hstop'
        rw [← Option.some.inj hstop']
        exact (hper hplace armed harmed).2
    · rintro ⟨hper, -⟩
      have hin := hline.2 fun armed harmed => (hper hplace armed harmed).1
      exact helsewhere.aligned hc hin (hknown hin)
  · obtain ⟨hline, hknown⟩ := armAtEntry_not_placed position hc h hplace
    constructor
    · constructor
      · rintro ⟨hin, -⟩
        exact ⟨fun hyes => absurd hyes hplace, fun _ => hline.1 hin⟩
      · rintro ⟨-, hsame⟩
        refine ⟨hline.2 (hsame hplace), fun armed stop' harmed hstop' => ?_⟩
        obtain ⟨armed', harmed', heq⟩ := hsame hplace
        rw [harmed] at harmed'
        rw [hstop] at hstop'
        rw [← Option.some.inj hstop', Option.some.inj harmed']
        exact heq.le
    · rintro ⟨-, hsame⟩
      exact helsewhere.aligned hc (hline.2 (hsame hplace)) hknown

end Arming

/-! ### Tightening -/

section Tightening

variable {newTrigger : ℚ} {tightened : StopState}

/-- A stop can be moved to a trigger that is not lower and not above the entry. -/
def Tightens (stop : StopState) (newTrigger : ℚ) : Prop :=
  stop.triggerPrice ≤ newTrigger ∧ newTrigger ≤ stop.entryFillPrice

theorem tighten_eq_ok (h : stop.tighten newTrigger = .ok tightened) :
    Tightens stop newTrigger ∧ tightened.mint = stop.mint ∧
      tightened.triggerPrice = newTrigger := by
  unfold StopState.tighten at h
  obtain ⟨hle, h⟩ := ok_of_require h
  split_ifs at h with heq
  · cases h
    exact ⟨⟨hle, heq.le.trans stop.trigger_le_entry⟩, rfl, heq.symm⟩
  · obtain ⟨hentry, h⟩ := ok_of_require h
    unfold StopState.new at h
    split_ifs at h
    cases h
    exact ⟨⟨hle, hentry⟩, rfl, rfl⟩

theorem exists_tightened (h : Tightens stop newTrigger) :
    ∃ tightened, stop.tighten newTrigger = .ok tightened := by
  unfold StopState.tighten
  rw [require_bind h.1]
  split_ifs
  · exact ⟨_, rfl⟩
  · rw [require_bind h.2]
    unfold StopState.new
    rw [dif_pos (stop.trigger_pos.trans_le h.1), dif_pos h.2]
    exact ⟨_, rfl⟩

theorem placer_tighten_raised (p : VenueNativeStopPlacer) (e : StopError) :
    (p.tighten mint newTrigger (some e)).2 = p := by
  unfold VenueNativeStopPlacer.tighten
  split
  · rfl
  · split_ifs <;> rfl

theorem placer_tighten_returned {p : VenueNativeStopPlacer} {o : PlacedStop}
    (hplaced : p.placed.get? mint = some o) (horders : p.venue.ordersOf mint = [o])
    (hle : o.triggerPrice ≤ newTrigger) :
    ∃ o' : PlacedStop, o'.mint = mint ∧ o'.triggerPrice = newTrigger ∧
      (p.tighten mint newTrigger none).2.placed = p.placed.upsert o' ∧
      (p.tighten mint newTrigger none).2.venue.ordersOf mint = [o'] ∧
      ∀ other, other ≠ mint →
        (p.tighten mint newTrigger none).2.venue.ordersOf other = p.venue.ordersOf other := by
  obtain ⟨o', v', hreplace⟩ := replaceTighter_of_single horders hle
  obtain ⟨homint, htrigger, -, hlive⟩ := replaceTighter_eq_ok hreplace
  have htighten : (p.tighten mint newTrigger none).2 = ⟨v', p.placed.upsert o'⟩ := by
    unfold VenueNativeStopPlacer.tighten
    rw [hplaced]
    dsimp only
    rw [if_neg (not_lt.2 hle), hreplace]
  rw [htighten]
  refine ⟨o', homint, htrigger, rfl, ?_, fun other hne => ?_⟩
  · rw [hlive, filter_of_single horders, if_pos rfl, List.nil_append]
  · rw [hlive, filter_of_ne _ hne, if_neg (Ne.symm hne), List.append_nil]

theorem tighten_refused
    (h : ∀ armed, c.stop? mint = some armed → ¬ Tightens armed newTrigger) :
    (c.tighten mint newTrigger raised).2 = c := by
  unfold SurvivableStopCoordinator.tighten SecondaryStopEnforcer.tighten
  cases hget : c.enforcer.get? mint with
  | none => rfl
  | some reg =>
      dsimp only
      cases htighten : reg.stop.tighten newTrigger with
      | error e => rfl
      | ok tightened =>
          have harmed : c.stop? mint = some reg.stop := by
            unfold SurvivableStopCoordinator.stop? SecondaryStopEnforcer.stopFor
            rw [hget]
            rfl
          exact absurd (tighten_eq_ok htighten).1 (h _ harmed)

/-- The stop and the layers after a `tighten` that the stop takes. -/
theorem tighten_taken (raised : Option StopError) {armed : StopState}
    (harmed : c.stop? mint = some armed)
    (h : Tightens armed newTrigger) :
    ∃ (tightened : StopState) (position : Position),
      tightened.mint = mint ∧ tightened.triggerPrice = newTrigger ∧
      (c.tighten mint newTrigger raised).2 =
        { c with
          enforcer := c.enforcer.upsert ⟨tightened, position⟩
          venueNative := (c.venueNative.tighten mint newTrigger raised).2 } := by
  unfold SurvivableStopCoordinator.stop? SecondaryStopEnforcer.stopFor at harmed
  obtain ⟨reg, hget, rfl⟩ := Option.map_eq_some_iff.1 harmed
  obtain ⟨tightened, htighten⟩ := exists_tightened h
  obtain ⟨-, hmint, htrigger⟩ := tighten_eq_ok htighten
  refine ⟨tightened, reg.position, hmint.trans (Table.mem_of_get? hget).2, htrigger, ?_⟩
  unfold SurvivableStopCoordinator.tighten SecondaryStopEnforcer.tighten
  rw [hget]
  dsimp only
  rw [htighten]
  dsimp only
  rw [htrigger]

/-- When tightening keeps the line: a replacement that raises was to move nothing. -/
def TightensInLine (c : SurvivableStopCoordinator Position) (mint : String) (newTrigger : ℚ)
    (raised : Option StopError) : Prop :=
  raised ≠ none → ∀ armed, c.stop? mint = some armed → Tightens armed newTrigger →
    newTrigger = armed.triggerPrice

theorem tighten_stop? {armed tightened : StopState} {position : Position}
    {venueNative : VenueNativeStopPlacer} (hmint : tightened.mint = mint)
    (hc' : c' = { c with enforcer := c.enforcer.upsert ⟨tightened, position⟩, venueNative })
    (harmed : c.stop? mint = some armed) (hle : armed.triggerPrice ≤ tightened.triggerPrice) :
    c'.stop? mint = some tightened ∧ (∀ other, other ≠ mint → c'.stop? other = c.stop? other) ∧
      ∀ stop stop', c.stop? mint = some stop → c'.stop? mint = some stop' →
        stop.triggerPrice ≤ stop'.triggerPrice := by
  have hstop : ∀ other, c'.stop? other = if other = mint then some tightened else c.stop? other := by
    intro other
    rw [hc', ← hmint]
    exact stop?_upsert _ _ _
  refine ⟨(hstop mint).trans (if_pos rfl), fun other hne => (hstop other).trans (if_neg hne), ?_⟩
  intro stop stop' hstop₀ hstop'
  rw [harmed] at hstop₀
  rw [hstop, if_pos rfl] at hstop'
  rw [← Option.some.inj hstop₀, ← Option.some.inj hstop']
  exact hle

/-- The replacement raises: the stop has moved, the order has not. -/
theorem tighten_raised_iff (hc : Aligned c) {armed : StopState} {e : StopError}
    (harmed : c.stop? mint = some armed) (htightens : Tightens armed newTrigger) :
    let c' := (c.tighten mint newTrigger (some e)).2
    (OneLine c' ∧ NeverLower c c' ↔ newTrigger = armed.triggerPrice) ∧
      (newTrigger = armed.triggerPrice → Aligned c') := by
  intro c'
  obtain ⟨o, hplaced, horders, htrigger⟩ := hc.order_of_armed harmed
  obtain ⟨tightened, position, hmint, rfl, hc'⟩ :=
    tighten_taken (some e) harmed htightens
  obtain ⟨hstop, hothers, hnever⟩ := tighten_stop? hmint hc' harmed htightens.1
  have hvenue : c'.venueNative = c.venueNative :=
    (congrArg SurvivableStopCoordinator.venueNative hc').trans (placer_tighten_raised _ _)
  have helsewhere : Elsewhere mint c c' := by
    intro other hne
    unfold SurvivableStopCoordinator.orders SurvivableStopCoordinator.placedOrder
    rw [hvenue]
    exact ⟨hothers other hne, rfl, rfl⟩
  have horders' : c'.orders mint = [o] := by
    unfold SurvivableStopCoordinator.orders
    rw [hvenue]
    exact horders
  have hknown : Known c' mint := by
    unfold Known SurvivableStopCoordinator.placedOrder
    rw [hvenue, horders']
    exact hplaced
  have hin : InLine c' mint ↔ tightened.triggerPrice = armed.triggerPrice := by
    constructor
    · intro hline
      obtain ⟨o', ho', htrigger'⟩ := hline.orders_of_armed hstop
      rw [horders'] at ho'
      obtain rfl := List.singleton_inj.1 ho'
      exact htrigger'.symm.trans htrigger
    · intro hsame
      exact inLine_of_armed hstop horders' (htrigger.trans hsame.symm)
  rw [helsewhere.holdsLine_iff hc.oneLine, hin]
  exact ⟨⟨fun h => h.1, fun h => ⟨h, hnever⟩⟩, fun h => helsewhere.aligned hc (hin.2 h) hknown⟩

/-- The order is replaced at the trigger of the stop. -/
theorem tighten_returned (hc : Aligned c) {armed : StopState}
    (harmed : c.stop? mint = some armed) (htightens : Tightens armed newTrigger) :
    let c' := (c.tighten mint newTrigger none).2
    (OneLine c' ∧ NeverLower c c') ∧ Aligned c' := by
  intro c'
  obtain ⟨o, hplaced, horders, htrigger⟩ := hc.order_of_armed harmed
  obtain ⟨tightened, position, hmint, rfl, hc'⟩ := tighten_taken none harmed htightens
  obtain ⟨hstop, hothers, hnever⟩ := tighten_stop? hmint hc' harmed htightens.1
  obtain ⟨o', homint, hotrigger, hplaced', horders', hother⟩ := placer_tighten_returned
    hplaced horders (htrigger.le.trans htightens.1)
  have hvenue : c'.venueNative = (c.venueNative.tighten mint tightened.triggerPrice none).2 :=
    congrArg SurvivableStopCoordinator.venueNative hc'
  have helsewhere : Elsewhere mint c c' := by
    intro other hne
    unfold SurvivableStopCoordinator.orders SurvivableStopCoordinator.placedOrder
    rw [hvenue, hother other hne, hplaced', Table.get?_upsert, if_neg]
    · exact ⟨hothers other hne, rfl, rfl⟩
    · rw [show PlacedStop.key o' = mint from homint]
      exact hne
  have hin : InLine c' mint := by
    refine inLine_of_armed (o := o') hstop ?_ hotrigger
    unfold SurvivableStopCoordinator.orders
    rw [hvenue]
    exact horders'
  have hknown : Known c' mint := by
    unfold Known SurvivableStopCoordinator.placedOrder SurvivableStopCoordinator.orders
    rw [hvenue, hplaced', horders', Table.get?_upsert]
    exact if_pos homint.symm
  exact ⟨(helsewhere.holdsLine_iff hc.oneLine).2 ⟨hin, hnever⟩, helsewhere.aligned hc hin hknown⟩

/-- **What tightening keeps.** -/
theorem tighten_iff (hc : Aligned c) :
    let c' := (c.tighten mint newTrigger raised).2
    (OneLine c' ∧ NeverLower c c' ↔ TightensInLine c mint newTrigger raised) ∧
      (TightensInLine c mint newTrigger raised → Aligned c') := by
  intro c'
  by_cases htakes : ∃ armed, c.stop? mint = some armed ∧ Tightens armed newTrigger
  · obtain ⟨armed, harmed, htightens⟩ := htakes
    cases raised with
    | some e =>
        obtain ⟨hiff, haligned⟩ := tighten_raised_iff (e := e) hc harmed htightens
        have hcond : TightensInLine c mint newTrigger (some e) ↔
            newTrigger = armed.triggerPrice := by
          constructor
          · exact fun h => h (Option.some_ne_none e) armed harmed htightens
          · intro hsame _ armed' harmed' _
            rw [harmed] at harmed'
            rw [← Option.some.inj harmed']
            exact hsame
        rw [hcond]
        exact ⟨hiff, haligned⟩
    | none =>
        obtain ⟨hholds, haligned⟩ := tighten_returned hc harmed htightens
        exact ⟨⟨fun _ h => absurd rfl h, fun _ => hholds⟩, fun _ => haligned⟩
  · have hrefused : ∀ armed, c.stop? mint = some armed → ¬ Tightens armed newTrigger :=
      fun armed harmed htightens => htakes ⟨armed, harmed, htightens⟩
    have hsame : c' = c := tighten_refused hrefused
    rw [hsame]
    exact ⟨⟨fun _ _ armed harmed ht => absurd ht (hrefused armed harmed), fun _ => hc.holdsLine⟩,
      fun _ => hc⟩

end Tightening

/-! ### Ticks and exits -/

/-- When a tick keeps the line: no stop fires. -/
def TicksInLine (c : SurvivableStopCoordinator Position) (mint : String) (mark : ℚ)
    (exit : Except StopError Fill) : Prop :=
  ∀ armed, c.stop? mint = some armed → armed.isBreached mark = true → ∃ e, exit = .error e

theorem decides_iff (c : SurvivableStopCoordinator Position) (mint : String) (mark : ℚ) :
    c.enforcer.decides mint mark = true ↔
      ∃ armed, c.stop? mint = some armed ∧ armed.isBreached mark = true := by
  unfold SecondaryStopEnforcer.decides SurvivableStopCoordinator.stop? SecondaryStopEnforcer.stopFor
  cases c.enforcer.get? mint with
  | none => simp
  | some reg => simp

/-- The stop of the mint is gone, and everything else is as it was. -/
theorem not_inLine_of_fired {armed : StopState} (hc : Aligned c)
    (harmed : c.stop? mint = some armed) (hstop : c'.stop? mint = none)
    (horders : c'.orders mint = c.orders mint) : ¬ InLine c' mint := by
  intro hline
  obtain ⟨o, -, ho, -⟩ := hc.order_of_armed harmed
  have hnone := hline.orders_of_unarmed hstop
  rw [horders, ho] at hnone
  cases hnone

/-- **What a tick keeps.**  A stop that fires leaves its order. -/
theorem onTick_iff (hc : Aligned c) {now mark : ℚ} {exit : Except StopError Fill} :
    let c' := (c.onTick now mint mark exit).2
    (OneLine c' ∧ NeverLower c c' ↔ TicksInLine c mint mark exit) ∧
      (TicksInLine c mint mark exit → Aligned c') := by
  intro c'
  have hc' : c' = { c with enforcer := (c.enforcer.onTick mint mark exit).2, lastBeat := now } := rfl
  -- where nothing fires, only the heartbeat has moved
  have hquiet : (c.enforcer.onTick mint mark exit).2 = c.enforcer → Aligned c' ∧
      OneLine c' ∧ NeverLower c c' := by
    intro hsame
    rw [hc', hsame]
    exact ⟨hc, hc.holdsLine⟩
  unfold TicksInLine
  by_cases hfires : c.enforcer.decides mint mark = true
  · obtain ⟨armed, harmed, hbreached⟩ := (decides_iff c mint mark).1 hfires
    cases exit with
    | error e =>
        have hsame : (c.enforcer.onTick mint mark (.error e : Except StopError Fill)).2 = c.enforcer := by
          unfold SecondaryStopEnforcer.onTick
          rw [if_pos hfires]
        obtain ⟨haligned, hholds⟩ := hquiet hsame
        exact ⟨⟨fun _ _ _ _ => ⟨e, rfl⟩, fun _ => hholds⟩, fun _ => haligned⟩
    | ok fill =>
        have hgone : c'.stop? mint = none := by
          rw [hc']
          unfold SurvivableStopCoordinator.stop? SecondaryStopEnforcer.onTick
          rw [if_pos hfires]
          exact (stop?_remove _ _ _).trans (if_pos rfl)
        have hcond : ¬ ∀ armed, c.stop? mint = some armed → armed.isBreached mark = true →
            ∃ e, (.ok fill : Except StopError Fill) = .error e := by
          intro h
          obtain ⟨e, he⟩ := h armed harmed hbreached
          cases he
        refine ⟨⟨fun hholds => ?_, fun h => absurd h hcond⟩, fun h => absurd h hcond⟩
        exact absurd (hholds.1 mint) (not_inLine_of_fired hc harmed hgone rfl)
  · have hsame : (c.enforcer.onTick mint mark exit).2 = c.enforcer := by
      unfold SecondaryStopEnforcer.onTick
      rw [if_neg hfires]
    obtain ⟨haligned, hholds⟩ := hquiet hsame
    refine ⟨⟨fun _ armed harmed hbreached => ?_, fun _ => hholds⟩, fun _ => haligned⟩
    exact absurd ((decides_iff c mint mark).2 ⟨armed, harmed, hbreached⟩) hfires

/-- When an exit keeps the line: the order of an armed mint is cancelled. -/
def ExitsInLine (c : SurvivableStopCoordinator Position) (mint : String)
    (raised : Option StopError) : Prop :=
  raised ≠ none → c.stop? mint = none

theorem onExit_stop? (c : SurvivableStopCoordinator Position) (mint other : String)
    (raised : Option StopError) :
    (c.onExit mint raised).2.stop? other = if other = mint then none else c.stop? other :=
  stop?_remove _ _ _

/-- The placer has nothing to cancel. -/
theorem cancel_of_none (raised : Option StopError) {p : VenueNativeStopPlacer}
    (h : p.placed.get? mint = none) :
    p.cancel mint raised = (.ok (), p) := by
  unfold VenueNativeStopPlacer.cancel
  rw [h]

/-- The placer forgets the order, which goes if the venue does not raise. -/
theorem cancel_of_some (raised : Option StopError) {p : VenueNativeStopPlacer} {o : PlacedStop}
    (h : p.placed.get? mint = some o) :
    (p.cancel mint raised).2.placed = p.placed.remove mint ∧
      ∀ other, (p.cancel mint raised).2.venue.ordersOf other =
        if raised = none then
          (p.venue.ordersOf other).filter fun o' =>
            decide (¬ (o'.mint = mint ∧ o'.orderId = o.orderId))
        else p.venue.ordersOf other := by
  unfold VenueNativeStopPlacer.cancel
  rw [h]
  cases raised with
  | none => exact ⟨rfl, fun other => ordersOf_cancel _ _ _ _⟩
  | some e => exact ⟨rfl, fun other => rfl⟩

/-- The exit of a mint that is not armed finds nothing to do. -/
theorem onExit_of_unarmed (raised : Option StopError) (hc : Aligned c) (hstop : c.stop? mint = none) :
    let c' := (c.onExit mint raised).2
    (OneLine c' ∧ NeverLower c c') ∧ Aligned c' := by
  intro c'
  have hcancel := cancel_of_none raised (hc.order_of_unarmed hstop).1
  have hvenue : c'.venueNative = c.venueNative := congrArg Prod.snd hcancel
  have hstops : ∀ other, c'.stop? other = c.stop? other := by
    intro other
    rw [onExit_stop?]
    split_ifs with h
    · rw [h, hstop]
    · rfl
  have helsewhere : Elsewhere mint c c' := by
    intro other _
    unfold SurvivableStopCoordinator.orders SurvivableStopCoordinator.placedOrder
    rw [hvenue]
    exact ⟨hstops other, rfl, rfl⟩
  have hnone : c'.stop? mint = none := (hstops mint).trans hstop
  have horders : c'.orders mint = [] := by
    unfold SurvivableStopCoordinator.orders
    rw [hvenue]
    exact (hc.order_of_unarmed hstop).2
  have hin := inLine_of_unarmed hnone horders
  refine ⟨(helsewhere.holdsLine_iff hc.oneLine).2 ⟨hin, fun stop stop' h _ => ?_⟩,
    helsewhere.aligned hc hin ?_⟩
  · rw [hstop] at h
    cases h
  · unfold Known SurvivableStopCoordinator.placedOrder
    rw [hvenue, horders]
    exact (hc.order_of_unarmed hstop).1

/-- The exit of an armed mint keeps the line iff its order is cancelled. -/
theorem onExit_of_armed (raised : Option StopError) (hc : Aligned c) {armed : StopState}
    (harmed : c.stop? mint = some armed) :
    let c' := (c.onExit mint raised).2
    (OneLine c' ∧ NeverLower c c' ↔ raised = none) ∧ (raised = none → Aligned c') := by
  intro c'
  obtain ⟨o, hplaced, horders, -⟩ := hc.order_of_armed harmed
  obtain ⟨hremoved, hlive⟩ := cancel_of_some raised hplaced
  have hplaced' : ∀ other, c'.placedOrder other = if other = mint then none else c.placedOrder other := by
    intro other
    show (c.venueNative.cancel mint raised).2.placed.get? other = _
    rw [hremoved]
    exact Table.get?_remove _ _ _
  have helsewhere : Elsewhere mint c c' := by
    intro other hne
    refine ⟨?_, ?_, ?_⟩
    · rw [onExit_stop?, if_neg hne]
    · show (c.venueNative.cancel mint raised).2.venue.ordersOf other = _
      rw [hlive, filter_of_ne _ hne, ite_self]
      rfl
    · rw [hplaced', if_neg hne]
  have hnone : c'.stop? mint = none := by
    rw [onExit_stop?, if_pos rfl]
  have hnever : ∀ stop stop', c.stop? mint = some stop → c'.stop? mint = some stop' →
      stop.triggerPrice ≤ stop'.triggerPrice := by
    intro stop stop' _ hstop'
    rw [hnone] at hstop'
    cases hstop'
  rw [helsewhere.holdsLine_iff hc.oneLine]
  by_cases hraised : raised = none
  · have horders' : c'.orders mint = [] := by
      show (c.venueNative.cancel mint raised).2.venue.ordersOf mint = _
      rw [hlive, if_pos hraised]
      exact filter_of_single horders
    have hin := inLine_of_unarmed hnone horders'
    refine ⟨⟨fun _ => hraised, fun _ => ⟨hin, hnever⟩⟩, fun _ => helsewhere.aligned hc hin ?_⟩
    unfold Known
    rw [hplaced', if_pos rfl, horders']
    rfl
  · have horders' : c'.orders mint = c.orders mint := by
      show (c.venueNative.cancel mint raised).2.venue.ordersOf mint = _
      rw [hlive, if_neg hraised]
      rfl
    refine ⟨⟨fun h => ?_, fun h => absurd h hraised⟩, fun h => absurd h hraised⟩
    exact absurd h.1 (not_inLine_of_fired hc harmed hnone horders')

/-- **What an exit keeps.** -/
theorem onExit_iff (hc : Aligned c) :
    let c' := (c.onExit mint raised).2
    (OneLine c' ∧ NeverLower c c' ↔ ExitsInLine c mint raised) ∧
      (ExitsInLine c mint raised → Aligned c') := by
  intro c'
  unfold ExitsInLine
  cases hstop : c.stop? mint with
  | none =>
      obtain ⟨hholds, haligned⟩ := onExit_of_unarmed raised hc hstop
      exact ⟨⟨fun _ _ => rfl, fun _ => hholds⟩, fun _ => haligned⟩
  | some armed =>
      obtain ⟨hiff, haligned⟩ := onExit_of_armed raised hc hstop
      have hcond : (raised ≠ none → some armed = none) ↔ raised = none := by
        constructor
        · intro h
          by_contra hraised
          exact Option.some_ne_none armed (h hraised)
        · exact fun h hraised => absurd h hraised
      rw [hcond]
      exact ⟨hiff, haligned⟩

/-! ### Runs -/

/-- When an operation keeps the line. -/
def KeepsLine (c : SurvivableStopCoordinator Position) : CoordinatorOp Position Fill → Prop
  | .armAtEntry mint entry _ thresholds fractionBps raised =>
      ∀ stop, StopState.atEntry mint entry (thresholds.getD defaultThresholds) = .ok stop →
        ArmsInLine c mint fractionBps raised stop
  | .tighten mint newTrigger raised => TightensInLine c mint newTrigger raised
  | .onTick _ mint mark exit => TicksInLine c mint mark exit
  | .onExit mint raised => ExitsInLine c mint raised

/-- **What an operation keeps.** -/
theorem coordinatorNext_iff (hc : Aligned c) (op : CoordinatorOp Position Fill) :
    (OneLine (coordinatorNext c op) ∧ NeverLower c (coordinatorNext c op) ↔ KeepsLine c op) ∧
      (KeepsLine c op → Aligned (coordinatorNext c op)) := by
  cases op with
  | armAtEntry mint entry position thresholds fractionBps raised =>
      cases hstop : StopState.atEntry mint entry (thresholds.getD defaultThresholds) with
      | error e =>
          have hsame : coordinatorNext c (.armAtEntry mint entry position thresholds fractionBps raised :
              CoordinatorOp Position Fill) = c := armAtEntry_refused hstop
          have hcond : KeepsLine c (.armAtEntry mint entry position thresholds fractionBps raised :
              CoordinatorOp Position Fill) := by
            intro stop h
            rw [hstop] at h
            cases h
          rw [hsame]
          exact ⟨⟨fun _ => hcond, fun _ => hc.holdsLine⟩, fun _ => hc⟩
      | ok stop =>
          have hcond : KeepsLine c (.armAtEntry mint entry position thresholds fractionBps raised :
              CoordinatorOp Position Fill) ↔ ArmsInLine c mint fractionBps raised stop := by
            refine ⟨fun h => h stop hstop, fun h stop' hstop' => ?_⟩
            rw [hstop] at hstop'
            cases hstop'
            exact h
          rw [hcond]
          exact armAtEntry_iff hc hstop
  | tighten mint newTrigger raised => exact tighten_iff hc
  | onTick now mint mark exit => exact onTick_iff hc
  | onExit mint raised => exact onExit_iff hc

theorem aligned_start (perMint : Bool) (now : ℚ) :
    Aligned (SurvivableStopCoordinator.start perMint now : SurvivableStopCoordinator Position) :=
  fun _ => ⟨rfl, rfl⟩

/-- **When the layers hold one line.**  In a run of a new coordinator, after every operation, whether
it returned or raised, each armed mint has one live order at the trigger of its stop and no other
mint has one, and no trigger of an armed mint has fallen, iff every operation meets `KeepsLine`. -/
theorem oneLine_iff_keepsLine (perMint : Bool) (now : ℚ) (ops : List (CoordinatorOp Position Fill)) :
    EveryStep coordinatorStep
        (fun _ c op => OneLine (coordinatorNext c op) ∧ NeverLower c (coordinatorNext c op))
        (.start perMint now) ops ↔
      EveryStep coordinatorStep (fun _ c op => KeepsLine c op) (.start perMint now) ops := by
  refine everyStep_congr (J := Aligned) (aligned_start perMint now) ?_ ?_ ops
  · intro _ c op hc
    exact (coordinatorNext_iff hc op).1
  · intro _ c op c' hc hkeeps hstep
    obtain rfl := Except.ok.inj hstep
    exact (coordinatorNext_iff hc op).2 hkeeps

/-- The triggers of the live orders are those of the armed stops. -/
theorem InLine.triggers (h : InLine c mint) :
    (c.orders mint).map (·.triggerPrice) = (c.stop? mint).toList.map StopState.triggerPrice := by
  cases hstop : c.stop? mint with
  | none =>
      rw [h.orders_of_unarmed hstop]
      rfl
  | some stop =>
      obtain ⟨o, horders, htrigger⟩ := h.orders_of_armed hstop
      rw [horders, List.map_singleton, htrigger]
      rfl

theorem NeverLower.triggers (h : NeverLower c c') (mint : String) :
    ∀ t ∈ (c.stop? mint).toList.map StopState.triggerPrice,
      ∀ t' ∈ (c'.stop? mint).toList.map StopState.triggerPrice, t ≤ t' := by
  intro t ht t' ht'
  obtain ⟨stop, hstop, rfl⟩ := List.mem_map.1 ht
  obtain ⟨stop', hstop', rfl⟩ := List.mem_map.1 ht'
  exact (h mint stop stop' (Option.mem_toList.1 hstop) (Option.mem_toList.1 hstop')).1

/-- Arm a mint at a price. -/
def armSample (entry : ℚ) (raised : Option StopError) : CoordinatorOp Unit Unit :=
  .armAtEntry "mint" entry () none 10000 raised

/-- The layers after an operation have left the line, or a trigger has fallen: a mint armed once more
has two orders, or on a venue with one order a mint a lower trigger; an order that could not be
placed, moved or cancelled; and the order of a stop that has fired. -/
theorem line_lost :
    ¬ EveryStep coordinatorStep
        (fun _ c op => OneLine (coordinatorNext c op) ∧ NeverLower c (coordinatorNext c op))
        (.start false 0) [armSample 100 none, armSample 100 none] ∧
      ¬ EveryStep coordinatorStep
        (fun _ c op => OneLine (coordinatorNext c op) ∧ NeverLower c (coordinatorNext c op))
        (.start true 0) [armSample 100 none, armSample 50 none] ∧
      ¬ EveryStep coordinatorStep
        (fun _ c op => OneLine (coordinatorNext c op) ∧ NeverLower c (coordinatorNext c op))
        (.start false 0) [armSample 100 (some .venue)] ∧
      ¬ EveryStep coordinatorStep
        (fun _ c op => OneLine (coordinatorNext c op) ∧ NeverLower c (coordinatorNext c op))
        (.start false 0) [armSample 100 none, .tighten "mint" 70 (some .venue)] ∧
      ¬ EveryStep coordinatorStep
        (fun _ c op => OneLine (coordinatorNext c op) ∧ NeverLower c (coordinatorNext c op))
        (.start false 0) [armSample 100 none, .onTick 0 "mint" 50 (.ok ())] ∧
      ¬ EveryStep coordinatorStep
        (fun _ c op => OneLine (coordinatorNext c op) ∧ NeverLower c (coordinatorNext c op))
        (.start false 0) [armSample 100 none, .onExit "mint" (some .venue)] := by
  refine ⟨fun h => ?_, fun h => ?_, fun h => ?_, fun h => ?_, fun h => ?_, fun h => ?_⟩
  · obtain ⟨hline, -⟩ := h [armSample 100 none] _ [] _ rfl rfl
    exact absurd (hline "mint").triggers (by decide +kernel)
  · obtain ⟨-, hnever⟩ := h [armSample 100 none] _ [] _ rfl rfl
    exact absurd (hnever.triggers "mint") (by decide +kernel)
  · obtain ⟨hline, -⟩ := h [] _ [] _ rfl rfl
    exact absurd (hline "mint").triggers (by decide +kernel)
  · obtain ⟨hline, -⟩ := h [armSample 100 none] _ [] _ rfl rfl
    exact absurd (hline "mint").triggers (by decide +kernel)
  · obtain ⟨hline, -⟩ := h [armSample 100 none] _ [] _ rfl rfl
    exact absurd (hline "mint").triggers (by decide +kernel)
  · obtain ⟨hline, -⟩ := h [armSample 100 none] _ [] _ rfl rfl
    exact absurd (hline "mint").triggers (by decide +kernel)

end Stops
end AatsSniper

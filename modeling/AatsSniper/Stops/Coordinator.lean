/-
# The coordinator of the stop layers

`SurvivableStopCoordinator` of `aats/risk/survivable_stop_coordinator.py` with the
layers it fans out to: `SecondaryStopEnforcer` of `aats/risk/secondary_enforcer.py`
(Layer 2), `VenueNativeStopPlacer` of `aats/risk/venue_native_stop.py` over a venue for
resting stops (Layer 1), and the heartbeat of the dead-man's switch (Layer 3).

A venue numbers the orders it takes and holds them until they are cancelled or
replaced by that number.  `SimulationRestingStopVenue` holds one order for each mint,
so that a new one displaces the old; a venue whose orders are told apart by their ids
holds both.  `perMint` says which of the two it is.  Any call may raise, and then the
venue is as it was; what it raises is an argument of the operation.  Every operation
returns its outcome beside the coordinator it leaves.
-/

import AatsSniper.Exit.Config
import AatsSniper.Lib.Run
import AatsSniper.Lib.Table

namespace AatsSniper
namespace Stops

open Exit (ExitError StopState StopThresholds)

/-- What the operations raise. -/
inductive StopError
  /-- A `KeyError`, from the layers or from the venue. -/
  | key (mint : String)
  /-- A `ValueError` of `StopState`. -/
  | refused (e : ExitError)
  /-- `RestingStopOrder.fraction_bps` out of range. -/
  | fractionBps (bps : ℤ)
  /-- A lower trigger, refused by the placer or by the venue. -/
  | widen (proposed existing : ℚ)
  /-- Anything else a venue raises. -/
  | venue
  deriving DecidableEq

/-- `RestingStopOrder`, as it is asked for. -/
structure RestingStopOrder where
  mint : String
  triggerPrice : ℚ
  fractionBps : ℤ
  fraction_range : 1 ≤ fractionBps ∧ fractionBps ≤ 10000
  trigger_pos : 0 < triggerPrice

/-- `RestingStopOrder` with the `order_id` of the venue. -/
structure PlacedStop extends RestingStopOrder where
  orderId : ℕ

/-- The mint of a placed order. -/
def PlacedStop.key (o : PlacedStop) : String := o.mint

/-- A `RestingStopVenue`: the live orders, and the number given out last. -/
structure RestingStopVenue where
  perMint : Bool
  live : List PlacedStop
  seq : ℕ
  fresh : ∀ o ∈ live, o.orderId ≤ seq

namespace RestingStopVenue

/-- A venue that holds nothing. -/
def empty (perMint : Bool) : RestingStopVenue := ⟨perMint, [], 0, fun _ h => nomatch h⟩

/-- The live orders of a mint. -/
def ordersOf (v : RestingStopVenue) (mint : String) : List PlacedStop :=
  v.live.filter fun o => decide (o.mint = mint)

/-- Take an order under the next number, and keep the live ones that stay. -/
def take (v : RestingStopVenue) (order : RestingStopOrder) (stays : PlacedStop → Bool) :
    RestingStopVenue where
  perMint := v.perMint
  live := v.live.filter stays ++ [⟨order, v.seq + 1⟩]
  seq := v.seq + 1
  fresh := by
    intro o ho
    rcases List.mem_append.1 ho with ho | ho
    · exact (v.fresh o (List.mem_filter.1 ho).1).trans (Nat.le_succ _)
    · obtain rfl := List.mem_singleton.1 ho
      exact le_rfl

/-- `place_resting_stop(order)`. -/
def placeRestingStop (v : RestingStopVenue) (order : RestingStopOrder) :
    PlacedStop × RestingStopVenue :=
  (⟨order, v.seq + 1⟩, v.take order fun o => !v.perMint || decide (o.mint ≠ order.mint))

/-- `cancel_resting_stop(mint, order_id)`. -/
def cancelRestingStop (v : RestingStopVenue) (mint : String) (orderId : ℕ) : RestingStopVenue where
  perMint := v.perMint
  live := v.live.filter fun o => decide (¬ (o.mint = mint ∧ o.orderId = orderId))
  seq := v.seq
  fresh := fun o ho => v.fresh o (List.mem_filter.1 ho).1

/-- `replace_tighter(mint, order_id, new_trigger)`. -/
def replaceTighter (v : RestingStopVenue) (mint : String) (orderId : ℕ) (newTrigger : ℚ) :
    Except StopError (PlacedStop × RestingStopVenue) :=
  match v.live.find? fun o => decide (o.mint = mint ∧ o.orderId = orderId) with
  | none => .error (.key mint)
  | some o =>
      if h : newTrigger < o.triggerPrice then .error (.widen newTrigger o.triggerPrice)
      else
        let order : RestingStopOrder :=
          ⟨mint, newTrigger, o.fractionBps, o.fraction_range, o.trigger_pos.trans_le (not_lt.1 h)⟩
        .ok (⟨order, v.seq + 1⟩,
          v.take order fun o => decide (¬ (o.mint = mint ∧ o.orderId = orderId)))

end RestingStopVenue

/-- `VenueNativeStopPlacer`. -/
structure VenueNativeStopPlacer where
  venue : RestingStopVenue
  placed : Table PlacedStop.key

/-- `resting_order_from_stop(stop, fraction_bps)`. -/
def restingOrderFromStop (stop : StopState) (fractionBps : ℤ) : Except StopError RestingStopOrder :=
  if h : 1 ≤ fractionBps ∧ fractionBps ≤ 10000 then
    .ok ⟨stop.mint, stop.triggerPrice, fractionBps, h, stop.trigger_pos⟩
  else .error (.fractionBps fractionBps)

namespace VenueNativeStopPlacer

/-- `place_for(stop, fraction_bps)`. -/
def placeFor (p : VenueNativeStopPlacer) (stop : StopState) (fractionBps : ℤ)
    (raised : Option StopError) : Except StopError PlacedStop × VenueNativeStopPlacer :=
  match restingOrderFromStop stop fractionBps, raised with
  | .error e, _ => (.error e, p)
  | .ok _, some e => (.error e, p)
  | .ok order, none =>
      let (placed, venue) := p.venue.placeRestingStop order
      (.ok placed, ⟨venue, p.placed.upsert placed⟩)

/-- `tighten(mint, new_trigger)`. -/
def tighten (p : VenueNativeStopPlacer) (mint : String) (newTrigger : ℚ)
    (raised : Option StopError) : Except StopError PlacedStop × VenueNativeStopPlacer :=
  match p.placed.get? mint with
  | none => (.error (.key mint), p)
  | some existing =>
      if newTrigger < existing.triggerPrice then
        (.error (.widen newTrigger existing.triggerPrice), p)
      else
        match raised with
        | some e => (.error e, p)
        | none =>
            match p.venue.replaceTighter mint existing.orderId newTrigger with
            | .error e => (.error e, p)
            | .ok (replaced, venue) => (.ok replaced, ⟨venue, p.placed.upsert replaced⟩)

/-- `cancel(mint)`: the order is forgotten before the venue is asked. -/
def cancel (p : VenueNativeStopPlacer) (mint : String) (raised : Option StopError) :
    Except StopError Unit × VenueNativeStopPlacer :=
  match p.placed.get? mint with
  | none => (.ok (), p)
  | some existing =>
      match raised with
      | some e => (.error e, ⟨p.venue, p.placed.remove mint⟩)
      | none => (.ok (), ⟨p.venue.cancelRestingStop mint existing.orderId, p.placed.remove mint⟩)

end VenueNativeStopPlacer

variable {Position Fill : Type}

/-- `_Registered`: a stop, and the position it is handed to `venue.exit` with. -/
structure Registered (Position : Type) where
  stop : StopState
  position : Position

/-- The mint of a registered stop. -/
def Registered.key (r : Registered Position) : String := r.stop.mint

/-- `SecondaryStopEnforcer`, by its armed stops. -/
abbrev SecondaryStopEnforcer (Position : Type) := Table fun r : Registered Position => r.key

namespace SecondaryStopEnforcer

/-- `tighten(mint, proposed_trigger)`. -/
def tighten (stops : SecondaryStopEnforcer Position) (mint : String) (proposed : ℚ) :
    Except StopError (StopState × SecondaryStopEnforcer Position) :=
  match stops.get? mint with
  | none => .error (.key mint)
  | some reg =>
      match reg.stop.tighten proposed with
      | .error e => .error (.refused e)
      | .ok tightened => .ok (tightened, stops.upsert ⟨tightened, reg.position⟩)

/-- `stop_for(mint)`. -/
def stopFor (stops : SecondaryStopEnforcer Position) (mint : String) : Option StopState :=
  (stops.get? mint).map Registered.stop

/-- `decide(tick)`. -/
def decides (stops : SecondaryStopEnforcer Position) (mint : String) (mark : ℚ) : Bool :=
  match stops.get? mint with
  | none => false
  | some reg => reg.stop.isBreached mark

/-- `on_tick(tick)`, with what the exit of a breached stop returns or raises: the stop is popped
after the exit. -/
def onTick (stops : SecondaryStopEnforcer Position) (mint : String) (mark : ℚ)
    (exit : Except StopError Fill) :
    Except StopError (Option Fill) × SecondaryStopEnforcer Position :=
  if decides stops mint mark = true then
    match exit with
    | .error e => (.error e, stops)
    | .ok fill => (.ok (some fill), stops.remove mint)
  else (.ok none, stops)

end SecondaryStopEnforcer

/-- `SurvivableStopCoordinator`; of the dead-man's switch, its last heartbeat. -/
structure SurvivableStopCoordinator (Position : Type) where
  enforcer : SecondaryStopEnforcer Position
  venueNative : VenueNativeStopPlacer
  lastBeat : ℚ

/-- `ArmResult`. -/
structure ArmResult where
  stop : StopState
  restingOrder : PlacedStop

/-- `contextlib.suppress(KeyError)` around a call whose result is not read. -/
def suppressKeyError {α : Type} : Except StopError α → Except StopError Unit
  | .ok _ => .ok ()
  | .error (.key _) => .ok ()
  | .error e => .error e

/-- The default of `hard_stop_drawdown_bps` is in its range. -/
theorem default_drawdown_in_range : (0 : ℤ) < 4000 ∧ (4000 : ℤ) ≤ 10000 := by decide

/-- `StopThresholds()`. -/
def defaultThresholds : StopThresholds := ⟨4000, default_drawdown_in_range⟩

namespace SurvivableStopCoordinator

/-- A coordinator over layers that hold nothing. -/
def start (perMint : Bool) (now : ℚ) : SurvivableStopCoordinator Position where
  enforcer := Table.empty
  venueNative := ⟨.empty perMint, Table.empty⟩
  lastBeat := now

/-- `arm_at_entry(mint, entry_fill_price, position, thresholds, fraction_bps)`. -/
def armAtEntry (c : SurvivableStopCoordinator Position) (mint : String) (entryFillPrice : ℚ)
    (position : Position) (thresholds : Option StopThresholds) (fractionBps : ℤ)
    (raised : Option StopError) : Except StopError ArmResult × SurvivableStopCoordinator Position :=
  match StopState.atEntry mint entryFillPrice (thresholds.getD defaultThresholds) with
  | .error e => (.error (.refused e), c)
  | .ok stop =>
      let registered := c.enforcer.upsert ⟨stop, position⟩
      match c.venueNative.placeFor stop fractionBps raised with
      | (.error e, venueNative) => (.error e, { c with enforcer := registered, venueNative })
      | (.ok resting, venueNative) =>
          (.ok ⟨stop, resting⟩, { c with enforcer := registered, venueNative })

/-- `tighten(mint, new_trigger)`. -/
def tighten (c : SurvivableStopCoordinator Position) (mint : String) (newTrigger : ℚ)
    (raised : Option StopError) : Except StopError StopState × SurvivableStopCoordinator Position :=
  match c.enforcer.tighten mint newTrigger with
  | .error e => (.error e, c)
  | .ok (tightened, enforcer) =>
      let (outcome, venueNative) := c.venueNative.tighten mint tightened.triggerPrice raised
      ((suppressKeyError outcome).map fun _ => tightened, { c with enforcer, venueNative })

/-- `on_tick(tick)`, at the clock reading `now` of the dead-man's switch. -/
def onTick (c : SurvivableStopCoordinator Position) (now : ℚ) (mint : String) (mark : ℚ)
    (exit : Except StopError Fill) :
    Except StopError (Option Fill) × SurvivableStopCoordinator Position :=
  let (outcome, enforcer) := c.enforcer.onTick mint mark exit
  (outcome, { c with enforcer, lastBeat := now })

/-- `on_exit(mint)`. -/
def onExit (c : SurvivableStopCoordinator Position) (mint : String) (raised : Option StopError) :
    Except StopError Unit × SurvivableStopCoordinator Position :=
  let (outcome, venueNative) := c.venueNative.cancel mint raised
  (suppressKeyError outcome, { c with enforcer := c.enforcer.remove mint, venueNative })

end SurvivableStopCoordinator

variable (Position Fill) in
/-- An operation of the coordinator, with what the venue raises in it or answers. -/
inductive CoordinatorOp
  | armAtEntry (mint : String) (entryFillPrice : ℚ) (position : Position)
      (thresholds : Option StopThresholds) (fractionBps : ℤ) (raised : Option StopError)
  | tighten (mint : String) (newTrigger : ℚ) (raised : Option StopError)
  | onTick (now : ℚ) (mint : String) (mark : ℚ) (exit : Except StopError Fill)
  | onExit (mint : String) (raised : Option StopError)

/-- The coordinator after an operation, whether it returned or raised. -/
def coordinatorNext (c : SurvivableStopCoordinator Position) :
    CoordinatorOp Position Fill → SurvivableStopCoordinator Position
  | .armAtEntry mint entry position thresholds fractionBps raised =>
      (c.armAtEntry mint entry position thresholds fractionBps raised).2
  | .tighten mint newTrigger raised => (c.tighten mint newTrigger raised).2
  | .onTick now mint mark exit => (c.onTick now mint mark exit).2
  | .onExit mint raised => (c.onExit mint raised).2

/-- The step of a run: what an operation raises does not stop the run. -/
def coordinatorStep (c : SurvivableStopCoordinator Position) (op : CoordinatorOp Position Fill) :
    Except StopError (SurvivableStopCoordinator Position) :=
  .ok (coordinatorNext c op)

end Stops
end AatsSniper

/-
# The reconciler, and runs of the controller

`Reconciler` of `aats/controller/reconcile.py`: what it does on startup and on every
tick.  `ControllerOp` are the calls the orchestrator and the operator make on one store
and one venue, in any order and at any times; `next` is the controller after a call,
whether it returned or raised.
-/

import AatsSniper.Controller.FastLoop
import AatsSniper.Controller.SnipeLoop

namespace AatsSniper
namespace Controller

/-- `VenueStateProvider`. -/
structure VenueState where
  getFillForMint : String → String → Option FillResult
  getOpenMints : List String

/-- A controller: what its loops are built with, and the `entering_ttl_seconds` of its reconciler. -/
structure ControllerConfig (E : Type) where
  fast : FastConfig
  snipe : SnipeLoop E
  enteringTtlSeconds : ℤ := 30

variable {E : Type}

section Reconciler

variable (cfg : ControllerConfig E)

/-- An `ENTERING` position whose entry window has passed, at 400 ms for a slot. -/
def timedOut (currentSlot : ℤ) (pos : Position) : Prop :=
  cfg.enteringTtlSeconds * 1000 / 400 < currentSlot - pos.entrySlot

instance (currentSlot : ℤ) (pos : Position) : Decidable (timedOut cfg currentSlot pos) :=
  inferInstanceAs (Decidable (_ < _))

/-- The body of the loop of `continuous_reconcile_tick`. -/
def reconcileTimeout (now currentSlot : ℤ) (c : FastLoop) (pos : Position) : FastLoop :=
  if pos.fsmState = .entering ∧ timedOut cfg currentSlot pos then
    (c.reconcileFill cfg.fast now pos.mint { landed := false, reason := "entering_timed_out" }).2
  else c

/-- `continuous_reconcile_tick(fast_loop, block_time_ms, current_slot)`. -/
def continuousReconcileTick (now currentSlot : ℤ) (c : FastLoop) : FastLoop :=
  c.store.positions.rows.foldl (reconcileTimeout cfg now currentSlot) c

/-- A new `FastLoop` over the same store, breaker and venue: nothing is registered or armed. -/
def FastLoop.reboot (c : FastLoop) : FastLoop :=
  { c with
    fsmRegistry := Table.empty
    exitStates := fun _ => none
    stops := c.stops.map fun _ _ => none }

/-- A position that the venue no longer holds is closed without a call of the venue. -/
def disappeared (c : FastLoop) (pos : Position) : FastLoop :=
  { c with store := (FastLoop.closeFsm c.store pos).1 }

/-- The fill of an exit that landed while the bot was down. -/
def closingFilled (c : FastLoop) (pos : Position) : FastLoop :=
  { c with
    store := (FastLoop.suppress c.store pos (PositionFSM.transitionToClosed c.store pos 0)).1 }

/-- The body of the loop of `startup_reconcile`. -/
def reconcileAtStartup (now : ℤ) (venue : VenueState) (c : FastLoop) (pos : Position) :
    Except FastError Unit × FastLoop :=
  let landed (kind : String) : Option FillResult :=
    (venue.getFillForMint pos.mint (makeClientIntentId pos.mint pos.entrySlot kind)).filter
      fun fill => fill.landed
  match pos.fsmState with
  | .entering =>
      let fill := (landed "ENTRY").getD { landed := false, reason := "reconcile_no_fill" }
      let reconciled := c.reconcileFill cfg.fast now pos.mint fill
      (reconciled.1.map fun _ => (), reconciled.2)
  | .opened =>
      if venue.getOpenMints ≠ [] ∧ pos.mint ∉ venue.getOpenMints then (.ok (), disappeared c pos)
      else (.ok (), c)
  | .closing =>
      if (landed "EXIT").isSome then (.ok (), closingFilled c pos) else (.ok (), c)
  | .closed | .vetoed => (.ok (), { c with store := c.store.deletePosition pos.mint })
  | .idle => (.ok (), c)

/-- `startup_reconcile(fast_loop, block_time_ms)`. -/
def startupReconcile (now : ℤ) (venue : VenueState) (c : FastLoop) :
    Except FastError Unit × FastLoop :=
  runLeaving (reconcileAtStartup cfg now venue) c c.store.positions.rows

variable (E) in
/-- The calls on a controller. -/
inductive ControllerOp
  | processEvent (call : SnipeCall E)
  | reconcileFill (now : ℤ) (mint : String) (fill : FillResult)
  | tick (input : TickInput)
  | continuousReconcileTick (now currentSlot : ℤ)
  /-- A restart: a new `FastLoop`, reconciled before it acts. -/
  | startup (now : ℤ) (venue : VenueState)
  | flattenOne (lands : Answers) (mint : String)
  | emergencyFlattenAll (lands : Answers)

/-- The controller after a call. -/
def next (c : FastLoop) : ControllerOp E → FastLoop
  | .processEvent call => { c with store := (cfg.snipe.processEvent c.store call).2 }
  | .reconcileFill now mint fill => (c.reconcileFill cfg.fast now mint fill).2
  | .tick input => (c.tick cfg.fast input).2
  | .continuousReconcileTick now currentSlot => continuousReconcileTick cfg now currentSlot c
  | .startup now venue => (startupReconcile cfg now venue c.reboot).2
  | .flattenOne lands mint => (c.flattenOne lands mint).2
  | .emergencyFlattenAll lands => c.emergencyFlattenAll lands

/-- The step of a run: what a call raises goes to its caller and does not stop the run. -/
def step (c : FastLoop) (op : ControllerOp E) : Except FastError FastLoop := .ok (next cfg c op)

end Reconciler

end Controller
end AatsSniper

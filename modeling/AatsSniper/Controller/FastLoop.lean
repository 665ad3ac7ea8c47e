/-
# The FAST loop

`FastLoop` and `FastLoopFlattenHandler` of `aats/controller/fast_loop.py`, with the
Layer-2 enforcer of `aats/risk/secondary_enforcer.py` behind
`aats/controller/enforcer_wiring.py`.

The registry holds the `PositionFSM` objects, so a transition of a registered one
shows in the registry.  The venue answers every exit with whether it landed, and its
calls are recorded with the state in which the store held the mint then.  The
breaker's flatten handler is the one of the loop: `record_pnl` flattens in the middle
of a turn.  A tick that raises leaves what it had done.

Heartbeats, telemetry and the list of actions are left out; the marks and the staged
flags of a tick are its input.
-/

import AatsSniper.Breaker.CircuitBreaker
import AatsSniper.Controller.State
import AatsSniper.Exit.Engine

namespace AatsSniper
namespace Controller

open Breaker (RiskConfig SoftRatio CircuitBreaker BreakerError)
open Exit (ExitConfig ExitState ExitError ExitDecision StopState StopThresholds)

/-- What a call of the loop raises. -/
inductive FastError
  | exit (e : ExitError)
  | breaker (e : BreakerError)
  | malformedPrice
  | pnlEventTime
  | markTickTime

/-- Who calls `venue.exit`. -/
inductive ExitPath
  | engine
  | scaleOut
  | markUnavailable
  | layer2
  | flatten
  deriving DecidableEq

/-- What the venue answers: whether an exit of a mint lands, as its `n`-th call. -/
abbrev Answers := ExitPath → String → ℕ → Bool

/-- A call of `venue.exit`: the position it is handed, how much of it is sold, whether that landed,
and the state in which the store held the mint when it was called. -/
structure ExitCall where
  path : ExitPath
  mint : String
  fractionBps : ℤ
  landed : Bool
  held : Option FSMState
  deriving DecidableEq

/-- `_Registered`. -/
structure RegisteredStop where
  stop : StopState
  position : Position

/-- What a loop is built with. -/
structure FastConfig where
  exitConfig : ExitConfig
  riskConfig : RiskConfig
  soft : SoftRatio
  cooldownSeconds : ℤ := 30

/-- `FastLoop` with its store, its breaker, the armed stops of its enforcer if it is wired, and what
was handed to the venue. -/
structure FastLoop where
  store : StateStore
  fsmRegistry : Table Position.mint
  exitStates : String → Option ExitState
  stops : Option (String → Option RegisteredStop)
  breaker : CircuitBreaker
  exits : List ExitCall

/-- A loop that holds nothing yet. -/
def FastLoop.start (breaker : CircuitBreaker) (stops : Option (String → Option RegisteredStop)) :
    FastLoop where
  store := .empty
  fsmRegistry := Table.empty
  exitStates := fun _ => none
  stops := stops
  breaker := breaker
  exits := []

/-- The default risk configuration, with a preset of the exit engine. -/
def defaultFastConfig : FastConfig where
  exitConfig := Exit.secureBalancedConfig
  riskConfig := Breaker.defaultConfig
  soft := Breaker.defaultSoftRatio

/-- What a tick reads: the clock of the store, the event time, the marks and flags of the mints, and
the answers of the venue. -/
structure TickInput where
  now : ℤ
  blockTimeMs : ℤ
  marks : String → Option ℚ
  narrativeFailureFlag : String → Bool := fun _ => false
  insiderDumpFlag : String → Bool := fun _ => false
  sellabilityDegradedFlag : String → Bool := fun _ => false
  lpUnlockApproachingFlag : String → Bool := fun _ => false
  lands : Answers

/-- The arguments of `on_tick` for a mint. -/
def TickInput.tick (input : TickInput) (mint : String) (mark : ℚ) : Exit.Tick where
  markPrice := mark
  blockTimeMs := input.blockTimeMs
  narrativeFailureFlag := input.narrativeFailureFlag mint
  insiderDumpFlag := input.insiderDumpFlag mint
  sellabilityDegradedFlag := input.sellabilityDegradedFlag mint
  lpUnlockApproachingFlag := input.lpUnlockApproachingFlag mint

namespace FastLoop

/-- `venue.exit(intent, position)`. -/
def venueExit (lands : Answers) (c : FastLoop) (path : ExitPath) (mint : String)
    (fractionBps : ℤ) : Bool × FastLoop :=
  let landed := lands path mint c.exits.length
  let held := (c.store.loadPosition mint).map Position.fsmState
  (landed, { c with exits := c.exits ++ [⟨path, mint, fractionBps, landed, held⟩] })

/-- `enforcer_wiring.deregister(mint)`, if it is wired. -/
def deregister (c : FastLoop) (mint : String) : FastLoop :=
  { c with stops := c.stops.map fun stops => Function.update stops mint none }

/-- The `PositionFSM` of a registered mint holds the position now. -/
def withFsm (c : FastLoop) (st : StateStore) (q : Position) : FastLoop :=
  { c with
    store := st
    fsmRegistry := if (c.fsmRegistry.get? q.mint).isSome then c.fsmRegistry.upsert q
      else c.fsmRegistry }

/-- Drop a mint from the registry and the exit states, and let it cool down. -/
def untrack (c : FastLoop) (now cooldownSeconds : ℤ) (mint : String) : FastLoop :=
  { c with
    store := c.store.setCooldown now mint cooldownSeconds
    fsmRegistry := c.fsmRegistry.remove mint
    exitStates := Function.update c.exitStates mint none }

/-- `with contextlib.suppress(ValueError)`. -/
def suppress (st : StateStore) (q : Position)
    (result : Except IllegalTransition (StateStore × Position)) : StateStore × Position :=
  match result with
  | .ok moved => moved
  | .error _ => (st, q)

/-- `try: transition_to_closing(), transition_to_closed() except ValueError`. -/
def closeFsm (st : StateStore) (q : Position) : StateStore × Position :=
  match PositionFSM.transitionToClosing st q with
  | .error _ => (st, q)
  | .ok (st', q') => suppress st' q' (PositionFSM.transitionToClosed st' q' 0)

/-- Give an entry up: its `PositionFSM`, or a transient one, is vetoed and leaves the registry. -/
def abandon (c : FastLoop) (pos : Position) : FastLoop :=
  let q := (c.fsmRegistry.get? pos.mint).getD pos
  { c with
    store := (suppress c.store q (PositionFSM.transitionToVetoed c.store q)).1
    fsmRegistry := c.fsmRegistry.remove pos.mint }

/-- Sell everything; the registered `PositionFSM` moves to `CLOSING`, and to `CLOSED` if it landed. -/
def sellAll (lands : Answers) (c : FastLoop) (pos : Position) : FastLoop :=
  let exited := c.venueExit lands .flatten pos.mint 10000
  match c.fsmRegistry.get? pos.mint with
  | none => exited.2
  | some q =>
      let closing :=
        if pos.fsmState = .opened then
          suppress c.store q (PositionFSM.transitionToClosing c.store q)
        else (c.store, q)
      let closed :=
        if exited.1 = true then
          suppress closing.1 closing.2 (PositionFSM.transitionToClosed closing.1 closing.2 0)
        else closing
      exited.2.withFsm closed.1 closed.2

/-- `_flatten_position(pos, reason)`. -/
def flattenPosition (lands : Answers) (c : FastLoop) (pos : Position) : FastLoop :=
  match pos.fsmState with
  | .entering => c.abandon pos
  | .opened => c.sellAll lands pos
  | .closing => c.sellAll lands pos
  | _ => c

/-- `emergency_flatten_all(reason)`. -/
def emergencyFlattenAll (lands : Answers) (c : FastLoop) : FastLoop :=
  c.store.positions.rows.foldl (flattenPosition lands) c

/-- `flatten_one(mint, reason)`. -/
def flattenOne (lands : Answers) (c : FastLoop) (mint : String) : Bool × FastLoop :=
  match c.store.loadPosition mint with
  | none => (false, c)
  | some pos => (true, c.flattenPosition lands pos)

section Loop

variable (cfg : FastConfig)

/-- `StopThresholds()`. -/
def defaultThresholds : StopThresholds := ⟨4000, by decide⟩

/-- The entry price of a fill; the text `"0"` of a dry run stands for 1. -/
def entryPrice (fill : FillResult) : Except FastError ℚ :=
  match fill.effectivePriceDecimal with
  | .zero => .ok 1
  | .decimal value => .ok value
  | .malformed => .error .malformedPrice

/-- Track a mint that has just opened: its exit state and its Layer-2 stop. -/
def track (c : FastLoop) (q : Position) (fill : FillResult) : Except FastError Bool × FastLoop :=
  match entryPrice fill with
  | .error e => (.error e, c)
  | .ok price =>
      match ExitState.atEntry q.mint price cfg.exitConfig with
      | .error e => (.error (.exit e), c)
      | .ok exitState =>
          let tracked :=
            { c with exitStates := Function.update c.exitStates q.mint (some exitState) }
          match c.stops with
          | none => (.ok true, tracked)
          | some stops =>
              match StopState.atEntry q.mint price defaultThresholds with
              | .error e => (.error (.exit e), tracked)
              | .ok stop =>
                  (.ok true,
                    { tracked with stops := some (Function.update stops q.mint (some ⟨stop, q⟩)) })

/-- `reconcile_fill(mint, fill, block_time_ms)`. -/
def reconcileFill (c : FastLoop) (now : ℤ) (mint : String) (fill : FillResult) :
    Except FastError Bool × FastLoop :=
  match c.store.loadPosition mint with
  | none => (.ok false, c)
  | some pos =>
      if pos.fsmState = .entering then
        if fill.landed = true then
          let q := (c.fsmRegistry.get? mint).getD pos
          match PositionFSM.transitionToOpen c.store q fill with
          | .error _ => (.ok false, c)
          | .ok (st, q') =>
              track cfg { c with store := st, fsmRegistry := c.fsmRegistry.upsert q' } q' fill
        else (.ok true, (c.abandon pos).untrack now cfg.cooldownSeconds mint)
      else (.ok false, c)

/-- `_estimate_entry_price(pos)`. -/
def estimateEntryPrice (pos : Position) : ℚ :=
  if 0 < pos.tokensOutBase then Decimal.div pos.solInLamports pos.tokensOutBase else 1

/-- Add a position of the store that is not registered. -/
def adopt (c : FastLoop) (pos : Position) : Except FastError Unit × FastLoop :=
  if (c.fsmRegistry.get? pos.mint).isSome then (.ok (), c)
  else
    let adopted := { c with fsmRegistry := c.fsmRegistry.upsert pos }
    if pos.fsmState = .opened ∧ (c.exitStates pos.mint).isNone then
      match ExitState.atEntry pos.mint (estimateEntryPrice pos) cfg.exitConfig with
      | .error e => (.error (.exit e), adopted)
      | .ok exitState =>
          (.ok (),
            { adopted with exitStates := Function.update c.exitStates pos.mint (some exitState) })
    else (.ok (), adopted)

/-- Remove a registered mint that the store does not hold. -/
def dropStale (c : FastLoop) (q : Position) : FastLoop :=
  { c with
    fsmRegistry := c.fsmRegistry.remove q.mint
    exitStates := Function.update c.exitStates q.mint none }

/-- `_sync_registry(block_time_ms)`. -/
def syncRegistry (c : FastLoop) : Except FastError Unit × FastLoop :=
  match runLeaving (adopt cfg) c c.store.positions.rows with
  | (.error e, left) => (.error e, left)
  | (.ok _, synced) =>
      let stale := synced.fsmRegistry.rows.filter fun q => (synced.store.loadPosition q.mint).isNone
      (.ok (), stale.foldl dropStale synced)

/-- Sell the whole remainder and close, whatever the venue answers. -/
def exitAndClose (input : TickInput) (c : FastLoop) (q : Position) (path : ExitPath)
    (fractionBps : ℤ) : FastLoop :=
  let exited := (c.venueExit input.lands path q.mint fractionBps).2
  let closed := { exited with store := (closeFsm exited.store q).1 }
  (closed.untrack input.now cfg.cooldownSeconds q.mint).deregister q.mint

/-- `_force_exit(fsm, reason, block_time_ms)`. -/
def forceExit (input : TickInput) (c : FastLoop) (q : Position) : FastLoop :=
  exitAndClose cfg input c q .markUnavailable 10000

/-- `_do_full_exit(fsm, intent, block_time_ms)`. -/
def doFullExit (input : TickInput) (c : FastLoop) (q : Position) (fractionBps : ℤ) : FastLoop :=
  exitAndClose cfg input c q .engine fractionBps

/-- `_do_scale_out(fsm, intent, block_time_ms)` and `fsm.record_tp_hit()`. -/
def doScaleOut (input : TickInput) (c : FastLoop) (q : Position) (fractionBps : ℤ) : FastLoop :=
  let exited := (c.venueExit input.lands .scaleOut q.mint fractionBps).2
  let hit := PositionFSM.recordTpHit exited.store q
  exited.withFsm hit.1 hit.2

/-- `breaker.record_pnl(event)` with the flatten it may call, and the projection of its state. -/
def recordPnl (input : TickInput) (c : FastLoop) (deltaLamports : ℤ) :
    Except FastError Unit × FastLoop :=
  if htime : 0 ≤ input.blockTimeMs then
    let result := Breaker.recordPnl cfg.riskConfig cfg.soft c.breaker
      ⟨input.blockTimeMs, deltaLamports, htime⟩ false
    let recorded := { c with breaker := result.2 }
    -- the handler was called iff the breaker has recorded one more call
    let flattened :=
      if c.breaker.flattened.length < result.2.flattened.length then
        recorded.emergencyFlattenAll input.lands
      else recorded
    match result.1 with
    | .error e => (.error (.breaker e), flattened)
    | .ok state => (.ok (), { flattened with store := flattened.store.saveBreakerState state })
  else (.error .pnlEventTime, c)

/-- `int((mark - entry_fill_price) * tokens_out_base)`. -/
def unrealizedPnl (q : Position) (exitState : ExitState) (mark : ℚ) : ℤ :=
  truncate (Decimal.mul (Decimal.sub mark exitState.entryFillPrice) q.tokensOutBase)

/-- Mark a position to market and tell the breaker. -/
def markToMarket (input : TickInput) (c : FastLoop) (q : Position) (exitState : ExitState)
    (mark : ℚ) : Except FastError Unit × FastLoop :=
  if 0 < exitState.entryFillPrice ∧ 0 < q.tokensOutBase then
    let unrealized := unrealizedPnl q exitState mark
    let valued := PositionFSM.updateUnrealizedPnl c.store q unrealized
    recordPnl cfg input (c.withFsm valued.1 valued.2) (unrealized - q.unrealizedPnlNetLamports)
  else (.ok (), c)

/-- Act on the decision of the exit engine. -/
def act (input : TickInput) (c : FastLoop) (q : Position) (decision : ExitDecision) : FastLoop :=
  match decision.intent with
  | none => c
  | some (.exit _ _ fractionBps _ _) => doFullExit cfg input c q fractionBps
  | some (.reduce _ _ fractionBps _) => doScaleOut input c q fractionBps

/-- The loop in the middle of a tick, with the marks collected for the enforcer. -/
structure Ticking where
  loop : FastLoop
  enforcerTicks : List (String × ℚ)

/-- Collect a mark, if the enforcer is wired. -/
def collect (s : Ticking) (mint : String) (mark : ℚ) : Ticking :=
  if s.loop.stops.isSome then { s with enforcerTicks := s.enforcerTicks ++ [(mint, mark)] } else s

/-- The body of the loop over the registry. -/
def turn (input : TickInput) (s : Ticking) (mint : String) : Except FastError Unit × Ticking :=
  match s.loop.fsmRegistry.get? mint with
  | none => (.ok (), s)
  | some q =>
      if q.fsmState = .opened then
        match input.marks mint with
        | none => (.ok (), { s with loop := forceExit cfg input (s.loop.deregister mint) q })
        | some mark =>
            let s := collect s mint mark
            match s.loop.exitStates mint with
            | none => (.ok (), s)
            | some exitState =>
                match Exit.onTick cfg.exitConfig exitState (input.tick mint mark) with
                | .error e => (.error (.exit e), s)
                | .ok decision =>
                    let stepped :=
                      { s.loop with
                        exitStates :=
                          Function.update s.loop.exitStates mint (some decision.nextState) }
                    match markToMarket cfg input stepped q exitState mark with
                    | (.error e, left) => (.error e, { s with loop := left })
                    | (.ok _, marked) =>
                        -- the same object: what the flatten made of it
                        let fsm := (marked.fsmRegistry.get? mint).getD q
                        (.ok (), { s with loop := act cfg input marked fsm decision })
      else (.ok (), s)

/-- `SecondaryStopEnforcer.on_tick(tick)`; the mints whose stop fired are listed. -/
def enforcerOnTick (lands : Answers) (s : FastLoop × List String) (tick : String × ℚ) :
    FastLoop × List String :=
  match s.1.stops.bind fun stops => stops tick.1 with
  | none => s
  | some registered =>
      if registered.stop.isBreached tick.2 = true then
        let exited := (s.1.venueExit lands .layer2 tick.1 10000).2
        (exited.deregister tick.1, s.2 ++ [tick.1])
      else s

/-- The bookkeeping for a stop the enforcer fired. -/
def closeFired (now : ℤ) (c : FastLoop) (mint : String) : FastLoop :=
  match c.fsmRegistry.get? mint with
  | none => c
  | some q => { c with store := (closeFsm c.store q).1 }.untrack now cfg.cooldownSeconds mint

/-- The Layer-2 pass. -/
def layer2 (input : TickInput) (s : Ticking) : Except FastError Unit × FastLoop :=
  if s.enforcerTicks ≠ [] ∧ input.blockTimeMs < 0 then (.error .markTickTime, s.loop)
  else
    let fired := s.enforcerTicks.foldl (enforcerOnTick input.lands) (s.loop, [])
    (.ok (), fired.2.foldl (closeFired cfg input.now) fired.1)

/-- `tick(block_time_ms, current_slot)`. -/
def tick (input : TickInput) (c : FastLoop) : Except FastError Unit × FastLoop :=
  match syncRegistry cfg c with
  | (.error e, left) => (.error e, left)
  | (.ok _, synced) =>
      match runLeaving (turn cfg input) ⟨synced, []⟩ (synced.fsmRegistry.rows.map Position.mint) with
      | (.error e, left) => (.error e, left.loop)
      | (.ok _, s) => layer2 cfg input s

end Loop

end FastLoop

end Controller
end AatsSniper

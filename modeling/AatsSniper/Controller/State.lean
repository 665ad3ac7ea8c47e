/-
# Positions, their state machine and the shared store

`FSMState` and `Position` of `aats/contracts/positions.py`, `FillResult` of
`aats/contracts/venue.py`, `InMemoryStateStore` of `aats/controller/state.py` and
`PositionFSM` of `aats/controller/fsm.py`.

A `PositionFSM` is its position: a transition takes the store and the position and
returns both, or refuses.  The clock of the store is an argument of the methods that
read it.  Of a `Position` the fields are kept that the loops read or that a transition
writes; of the store, what the loops write.  The signals and flags that the SLOW loop
stages are inputs of the calls that read them.
-/

import AatsSniper.Breaker.Config
import AatsSniper.Lib.Sha256
import AatsSniper.Lib.Table
import Mathlib.Algebra.BigOperators.Group.List.Basic

namespace AatsSniper
namespace Controller

open Breaker (BreakerState)

/-- `FSMState`; `opened` is `OPEN`. -/
inductive FSMState
  | idle
  | entering
  | opened
  | closing
  | closed
  | vetoed
  deriving DecidableEq

/-- `(current, next_state) in FSM_LEGAL_TRANSITIONS`. -/
def FSMState.legal : FSMState → FSMState → Bool
  | .idle, .entering => true
  | .entering, .opened => true
  | .entering, .vetoed => true
  | .opened, .closing => true
  | .closing, .closed => true
  | _, _ => false

/-- `ENTERING`, `OPEN` or `CLOSING`. -/
def FSMState.live : FSMState → Bool
  | .entering => true
  | .opened => true
  | .closing => true
  | _ => false

/-- `CLOSED` or `VETOED`. -/
def FSMState.terminal : FSMState → Bool
  | .closed => true
  | .vetoed => true
  | _ => false

/-- `Position`. -/
structure Position where
  mint : String
  fsmState : FSMState
  entrySlot : ℤ
  solInLamports : ℤ
  tokensOutBase : ℤ
  entrySlippageBps : ℤ
  tpHit : ℤ
  realizedPnlNetLamports : Option ℤ
  unrealizedPnlNetLamports : ℤ
  deriving DecidableEq

/-- What `effective_price_decimal` reads as: the text `"0"`, another decimal, or neither. -/
inductive PriceText
  | zero
  | decimal (value : ℚ)
  | malformed
  deriving DecidableEq

/-- `FillResult`. -/
structure FillResult where
  landed : Bool
  reason : String := ""
  tokensOut : ℤ := 0
  effectivePriceDecimal : PriceText := .zero
  entrySlippageBps : ℤ := 0
  deriving DecidableEq

/-- `make_client_intent_id(mint, epoch, kind)`. -/
def makeClientIntentId (mint : String) (epoch : ℤ) (kind : String) : String :=
  let raw := mint ++ ":" ++ toString epoch ++ ":" ++ kind
  let digest := Sha256.digest (raw.toList.flatMap String.utf8EncodeChar)
  let hexdigest := digest.flatMap fun b => [b.toNat / 16, b.toNat % 16].map Nat.digitChar
  String.ofList (hexdigest.take 32)

/-- `InMemoryStateStore`. -/
structure StateStore where
  fsmLocks : String → Option (String × ℤ)
  positions : Table Position.mint
  cooldowns : String → Option ℤ
  seenIntents : String → Option ℤ
  breaker : Option BreakerState

namespace StateStore

/-- A store that holds nothing. -/
def empty : StateStore where
  fsmLocks := fun _ => none
  positions := Table.empty
  cooldowns := fun _ => none
  seenIntents := fun _ => none
  breaker := none

/-- The lock of the mint is there and has not expired. -/
def lockHeld (st : StateStore) (now : ℤ) (mint : String) : Bool :=
  (st.fsmLocks mint).any fun lock => decide (now < lock.2)

/-- `claim_entering(mint, intent_id, ttl_seconds)`. -/
def claimEntering (st : StateStore) (now : ℤ) (mint intentId : String) (ttlSeconds : ℤ) :
    Bool × StateStore :=
  if st.lockHeld now mint = true then (false, st)
  else
    (true,
      { st with
        fsmLocks := Function.update st.fsmLocks mint (some (intentId, now + ttlSeconds * 1000)) })

/-- `release_entering(mint)`. -/
def releaseEntering (st : StateStore) (mint : String) : StateStore :=
  { st with fsmLocks := Function.update st.fsmLocks mint none }

/-- `save_position(position)`. -/
def savePosition (st : StateStore) (position : Position) : StateStore :=
  { st with positions := st.positions.upsert position }

/-- `load_position(mint)`. -/
def loadPosition (st : StateStore) (mint : String) : Option Position := st.positions.get? mint

/-- `delete_position(mint)`. -/
def deletePosition (st : StateStore) (mint : String) : StateStore :=
  { st with positions := st.positions.remove mint }

/-- `set_cooldown(mint, ttl_seconds)`. -/
def setCooldown (st : StateStore) (now : ℤ) (mint : String) (ttlSeconds : ℤ) : StateStore :=
  { st with cooldowns := Function.update st.cooldowns mint (some (now + ttlSeconds * 1000)) }

/-- `in_cooldown(mint)`. -/
def inCooldown (st : StateStore) (now : ℤ) (mint : String) : Bool :=
  (st.cooldowns mint).any fun expiry => decide (now < expiry)

/-- `mark_intent_seen(intent_id)`, for two minutes. -/
def markIntentSeen (st : StateStore) (now : ℤ) (intentId : String) : Bool × StateStore :=
  if ((st.seenIntents intentId).any fun expiry => decide (now < expiry)) = true then (false, st)
  else
    (true,
      { st with seenIntents := Function.update st.seenIntents intentId (some (now + 120 * 1000)) })

/-- `save_breaker_state(state)`. -/
def saveBreakerState (st : StateStore) (state : BreakerState) : StateStore :=
  { st with breaker := some state }

/-- `get_aggregate_open_lamports()`. -/
def getAggregateOpenLamports (st : StateStore) : ℤ :=
  (st.positions.rows.map Position.solInLamports).sum

end StateStore

/-- `fsm_illegal_transition`. -/
structure IllegalTransition where
  current : FSMState
  next : FSMState

namespace PositionFSM

/-- `validate_fsm_transition(current, next_state)`. -/
def validate (current next : FSMState) : Except IllegalTransition Unit :=
  require (FSMState.legal current next = true) ⟨current, next⟩

/-- `create_entering(store, ...)`. -/
def createEntering (st : StateStore) (mint : String) (entrySlot solInLamports : ℤ) : StateStore :=
  st.savePosition
    { mint := mint
      fsmState := .entering
      entrySlot := entrySlot
      solInLamports := solInLamports
      tokensOutBase := 0
      entrySlippageBps := 0
      tpHit := 0
      realizedPnlNetLamports := none
      unrealizedPnlNetLamports := 0 }

/-- `transition_to_open(fill)`. -/
def transitionToOpen (st : StateStore) (q : Position) (fill : FillResult) :
    Except IllegalTransition (StateStore × Position) := do
  validate q.fsmState .opened
  let updated :=
    { q with
      fsmState := .opened
      tokensOutBase := fill.tokensOut
      entrySlippageBps := fill.entrySlippageBps
      unrealizedPnlNetLamports := 0 }
  return ((st.savePosition updated).releaseEntering q.mint, updated)

/-- `transition_to_vetoed(reason)`. -/
def transitionToVetoed (st : StateStore) (q : Position) :
    Except IllegalTransition (StateStore × Position) := do
  validate q.fsmState .vetoed
  let updated := { q with fsmState := .vetoed, realizedPnlNetLamports := some 0 }
  return (((st.savePosition updated).releaseEntering q.mint).deletePosition q.mint, updated)

/-- `transition_to_closing()`. -/
def transitionToClosing (st : StateStore) (q : Position) :
    Except IllegalTransition (StateStore × Position) := do
  validate q.fsmState .closing
  let updated := { q with fsmState := .closing }
  return (st.savePosition updated, updated)

/-- `transition_to_closed(realized_pnl_net_lamports)`. -/
def transitionToClosed (st : StateStore) (q : Position) (realized : ℤ) :
    Except IllegalTransition (StateStore × Position) := do
  validate q.fsmState .closed
  let updated := { q with fsmState := .closed, realizedPnlNetLamports := some realized }
  return ((st.savePosition updated).deletePosition q.mint, updated)

/-- `update_unrealized_pnl(unrealized)`. -/
def updateUnrealizedPnl (st : StateStore) (q : Position) (unrealized : ℤ) : StateStore × Position :=
  let updated := { q with unrealizedPnlNetLamports := unrealized }
  (st.savePosition updated, updated)

/-- `record_tp_hit()`. -/
def recordTpHit (st : StateStore) (q : Position) : StateStore × Position :=
  let updated := { q with tpHit := q.tpHit + 1 }
  (st.savePosition updated, updated)

end PositionFSM

end Controller
end AatsSniper

/-
# The Jito/Jupiter venue

`JitoJupiterVenue` of `aats/execution/jito_jupiter_venue.py`: `execute` and `exit` with
the quote, the builds, signatures and simulations before a transaction is sent, the two
retry loops, the guard against a phantom land, and `reconcile`.

A program of the venue (`VenueM`) logs every query it makes with its answer, and the
submit mode that the retry loop reads (`dispatched`).  The two retry loops differ in
how a transaction is built again only, so they are one loop with that as an argument.
An attempt is followed by what the next turn of the loop does before it sends, as in
the source: back-off, recheck, new blockhash, build, signature and simulation.
-/

import AatsSniper.Lib.Except
import AatsSniper.Venue.Client

namespace AatsSniper
namespace Venue

/-- A query with its answer, or the submit mode a retry loop runs in. -/
inductive VenueEvent
  | asked (q : Query) (answer : Except Raised q.Answer)
  | dispatched (mode : SubmitMode)

/-- The world, and `_submitted_intent_ids`. -/
structure VenueState (W : Type) where
  world : W
  submittedIntentIds : List String

/-- A program of the venue. -/
abbrev VenueM (W : Type) := Act (VenueState W) Raised VenueEvent

/-- `JitoJupiterVenue`, as it is built. -/
structure JitoJupiterVenue where
  walletPubkey : String
  liveSubmitEnabled : Bool
  cluster : String

/-- `_MAX_LAND_ATTEMPTS`. -/
def maxLandAttempts : ℕ := 3

/-- `_BLOCKHASH_EXPIRY_RETRY_REASONS`. -/
def blockhashExpiryRetryReasons : List String := ["blockhash_expired", "BlockhashNotFound", "node_lag"]

/-- `_QUOTE_MAX_AGE_SLOTS`. -/
def quoteMaxAgeSlots : ℤ := 3

/-- `_DEFAULT_CU_LIMIT`. -/
def defaultCuLimit : ℤ := 300000

/-- `_MIN_TOKENS_OUT_GUARD`. -/
def minTokensOutGuard : ℤ := 1

/-- The placeholder account of a pool. -/
def systemAccount : String := "11111111111111111111111111111111"

section Venue

variable {W : Type} (env : Env W) (v : JitoJupiterVenue)

/-- Put a query to the outside. -/
def ask (q : Query) : VenueM W q.Answer := fun s =>
  ⟨(env.ask q s.world).1, { s with world := (env.ask q s.world).2 },
    [.asked q (env.ask q s.world).1]⟩

/-- The environment variables at this moment. -/
def environ : VenueM W Environ := Act.gets fun s => env.environ s.world

/-- `submit_mode`. -/
def submitMode (e : Environ) : SubmitMode :=
  if v.cluster = "devnet" then .devnet
  else if v.liveSubmitEnabled && e.dryRunEnvDisabled then .live
  else .dryRun

/-- `a or b` for an optional text. -/
def orText (a : Option String) (b : String) : String :=
  match a with
  | some text => if text = "" then b else text
  | none => b

/-- `quote(mint, side, amount_base)`. -/
def quote (mint : String) (side : Side) (amountBase : ℤ) : VenueM W Quote := do
  let currentSlot : ℤ ← ask env .getCurrentSlot
  if amountBase ≤ 0 then
    return ⟨mint, side, 0, 0, 0, currentSlot + quoteMaxAgeSlots⟩
  else
    let amountOutBase := amountBase * 9975 / 10000
    let price := if 0 < amountOutBase then Decimal.div amountBase amountOutBase else 0
    return ⟨mint, side, price, amountBase, amountOutBase, currentSlot + quoteMaxAgeSlots⟩

/-- `_assert_quote_fresh(quote, current_slot)`. -/
def assertQuoteFresh (q : Quote) (currentSlot : ℤ) : Except Raised Unit :=
  require (currentSlot ≤ q.validUntilSlot) (.quoteStaleness "quote_stale")

/-- `_compute_min_tokens_out(amount_out_base, slippage_bps)`. -/
def computeMinTokensOut (amountOutBase slippageBps : ℤ) : Except Raised ℤ := do
  require (0 ≤ slippageBps ∧ slippageBps ≤ 10000) .other
  return amountOutBase * (10000 - slippageBps) / 10000

/-- `_compute_priority_lamports(cu_price_microlamports, cu_limit)`. -/
def computePriorityLamports (cuPriceMicrolamports cuLimit : ℤ) : ℤ :=
  cuPriceMicrolamports * cuLimit / 1000000

/-- `_compute_entry_slippage_bps(amount_in, amount_out)`. -/
def computeEntrySlippageBps (amountIn amountOut : ℤ) : ℤ :=
  if amountOut ≤ 0 ∨ amountIn ≤ 0 then 0 else max 0 ((amountIn - amountOut) * 10000 / amountIn)

/-- `size_cu_limit(simulated_cu)` of `aats/execution/tx_builder.py`. -/
def sizeCuLimit (simulatedCu : ℤ) : ℤ :=
  if simulatedCu ≤ 0 then 400000 else min (simulatedCu * 5 / 4) 400000

/-- `_resolve_pool_keys(event)`. -/
def resolvePoolKeys (event : LaunchEvent) : List (String × String) :=
  [("program_id", event.venueProgramId), ("pool", systemAccount), ("vault_sol", systemAccount),
    ("vault_token", systemAccount)]

/-- The `reason` of a reverted simulation. -/
def simRevertReason (sim : SimResult) : String := "sim_revert:" ++ orText sim.revertReason "unknown"

/-- `_assert_sim_success(intent_id, sim)`. -/
def assertSimSuccess (sim : SimResult) : Except Raised Unit :=
  require (sim.success = true) (.simulationReverted (simRevertReason sim))

/-- Build, sign and simulate a transaction. -/
def prepare (build : Build) (walletId : String) : VenueM W (SignedTx × SimResult) := do
  let unsigned ← ask env (.build build)
  let signed ← ask env (.sign unsigned walletId)
  let sim ← ask env (.simulateTransaction signed.serializedB64)
  return (signed, sim)

/-- Build, sign and simulate a transaction, and raise if it reverts. -/
def prepareChecked (build : Build) (walletId : String) : VenueM W (SignedTx × SimResult) := do
  let prepared ← prepare env build walletId
  Act.ofExcept (assertSimSuccess prepared.2)
  return prepared

/-- `_send_once(tx)`. -/
def sendOnce (tx : SignedTx) : VenueM W LandResult := do
  let result ← ask env (.sendTransaction tx.serializedB64)
  if result.submitted = true then return ⟨true, "landed", result.signature, result.landSlot⟩
  else return ⟨false, result.reason, none, none⟩

/-- `confirm_transaction` of a client that may not have it. -/
def confirmTransaction (signature : String) (maxPolls : ℤ) : VenueM W ConfirmResult :=
  if env.hasConfirmTransaction = true then ask env (.confirmTransaction signature maxPolls)
  else Act.raise .other

/-- `int(os.environ.get(...))`. -/
def parsed {α : Type} (value : Option α) : VenueM W α :=
  match value with
  | some a => pure a
  | none => Act.raise .other

/-- The second half of `_send_and_confirm_devnet`: poll for the confirmation. -/
def confirmDevnet (signature : String) : VenueM W LandResult := do
  let e ← environ env
  let maxPolls ← parsed e.devnetConfirmMaxPolls
  let _ ← parsed e.devnetConfirmPollIntervalS
  let confirm ← confirmTransaction env signature maxPolls
  if confirm.confirmed = true then
    return ⟨true, "devnet_landed", some signature, confirm.landSlot⟩
  else
    return ⟨true, "devnet_confirm_failed:" ++ orText confirm.error "timeout", some signature, none⟩

/-- `_send_and_confirm_devnet(tx)`. -/
def sendAndConfirmDevnet (tx : SignedTx) : VenueM W LandResult := do
  let result ← ask env (.sendTransaction tx.serializedB64)
  if result.submitted = true ∧ orText result.signature "" ≠ "" then
    confirmDevnet env (orText result.signature "")
  else return ⟨false, result.reason, none, none⟩

/-- The send path of a mode. -/
def sendIn (mode : SubmitMode) (tx : SignedTx) : VenueM W LandResult :=
  if mode = .devnet then sendAndConfirmDevnet env tx else sendOnce env tx

/-- The status says that the transaction has landed. -/
def SignatureStatus.saysLanded (st : SignatureStatus) : Bool := st.confirmed && st.err.isNone

/-- `_recheck_signature_before_resend(signed_tx)`. -/
def recheckSignatureBeforeResend (tx : SignedTx) : VenueM W (Option LandResult) :=
  if env.hasGetSignatureStatuses = true then do
    let localSig := env.extractSignatureB58 tx.serializedB64
    let statuses ← ask env (.getSignatureStatuses [localSig])
    match statuses.head?.join with
    | some st =>
        if st.saysLanded = true then return some ⟨true, "landed", some localSig, st.slot⟩
        else return none
    | none => return none
  else return none

/-- `_assert_devnet_allowed`. -/
def assertDevnetAllowed (e : Environ) : Except Raised Unit :=
  require (env.hasConfirmTransaction = true ∨ e.rpcDevnet = true)
    (.devnetSubmitBlocked "devnet_rpc_not_configured")

/-- `_assert_live_allowed`. -/
def assertLiveAllowed (e : Environ) : Except Raised Unit :=
  require (v.liveSubmitEnabled = true ∧ e.dryRunEnvDisabled = true)
    (.liveSubmitBlocked "live_requires_dry_run_disabled_and_ceo_auth")

/-- What a turn of the loop does before it sends again: the phantom land or the reverted simulation
it returns with, or the transaction built again. -/
def beforeResend (rebuild : String → Build) (walletId : String) (milliseconds : ℕ) (tx : SignedTx) :
    VenueM W (LandResult ⊕ SignedTx) := do
  let _ ← ask env (.sleep milliseconds)
  match ← recheckSignatureBeforeResend env tx with
  | some phantom => return .inl phantom
  | none =>
      let freshBlockhash : String ← ask env .getLatestBlockhash
      let prepared ← prepare env (rebuild freshBlockhash) walletId
      if prepared.2.success = true then return .inr prepared.1
      else return .inl ⟨false, simRevertReason prepared.2, none, none⟩

/-- An attempt of the loop, with the ones `left` after it. -/
def attempts (mode : SubmitMode) (rebuild : String → Build) (walletId : String) :
    (left : ℕ) → SignedTx → VenueM W LandResult
  | left, tx => do
    let result ← sendIn env mode tx
    if result.submitted = true then return result
    else if result.reason ∈ blockhashExpiryRetryReasons then
      match left with
      | 0 => return ⟨false, result.reason, none, none⟩
      | left + 1 =>
          match ← beforeResend env rebuild walletId (50 * (maxLandAttempts - 1 - left)) tx with
          | .inl land => return land
          | .inr rebuilt => attempts mode rebuild walletId left rebuilt
    else return ⟨false, result.reason, none, none⟩

/-- The gate of a mode that sends. -/
def assertAllowed (mode : SubmitMode) (e : Environ) : Except Raised Unit :=
  if mode = .devnet then assertDevnetAllowed env e else assertLiveAllowed v e

/-- The loop of both paths. -/
def landWithRetry (rebuild : String → Build) (walletId : String) (tx : SignedTx) :
    VenueM W LandResult := do
  let mode := submitMode v (← environ env)
  Act.note (.dispatched mode)
  if mode = .dryRun then return ⟨false, "dry_run", none, none⟩
  else
    Act.ofExcept (assertAllowed env v mode (← environ env))
    attempts env mode rebuild walletId (maxLandAttempts - 1) tx

/-- `reconcile(land)`. -/
def reconcile (land : LandResult) : FillResult :=
  if land.submitted = true ∧ orText land.signature "" ≠ "" ∧
      (land.reason = "landed" ∨ land.reason = "devnet_landed") then
    { landed := true, reason := "filled", landSlot := land.landSlot }
  else { landed := false, reason := land.reason, landSlot := land.landSlot }

/-- `a or b` for optional slots, where slot 0 is false. -/
def orSlot (a b : Option ℤ) : Option ℤ :=
  match a with
  | some slot => if slot = 0 then b else some slot
  | none => b

/-- `_enrich_fill(fill, ...)`. -/
def enrichFill (fill : FillResult) (tipLamports priorityLamports tokensOut : ℤ) (effectivePrice : ℚ)
    (entrySlippageBps : ℤ) (landSlot : Option ℤ) : FillResult where
  landed := fill.landed
  reason := fill.reason
  landSlot := orSlot landSlot fill.landSlot
  slotDelay := fill.slotDelay
  buyersAhead := fill.buyersAhead
  tokensOut := if fill.landed = true then tokensOut else 0
  effectivePriceDecimal := if fill.landed = true then effectivePrice else 0
  entrySlippageBps := if fill.landed = true then entrySlippageBps else 0
  tipLamports := if fill.landed = true then tipLamports else 0
  priorityLamports := if fill.landed = true then priorityLamports else 0

/-- A fill that did not land. -/
def unfilled (reason : String) : FillResult := { landed := false, reason }

/-- Reconcile a land, and keep the id of an intent whose land is a fill. -/
def settle (intentId : String) (land : LandResult) : VenueM W FillResult :=
  if (reconcile land).landed = true then do
    Act.modify fun s => { s with submittedIntentIds := intentId :: s.submittedIntentIds }
    return reconcile land
  else return reconcile land

/-- The idempotency check of a call, and its `try` with the `except` clauses behind it. -/
def guarded (intentId : String) (body : VenueM W FillResult) (raised : Raised → FillResult) :
    VenueM W FillResult := do
  if intentId ∈ (← Act.gets VenueState.submittedIntentIds) then
    return unfilled "idempotency_key_conflict"
  else body.rescue fun e => pure (raised e)

/-- What `execute` has before it lands a transaction. -/
structure EntryPlan where
  quote : Quote
  minTokensOut : ℤ
  cuLimit : ℤ
  signed : SignedTx

/-- The build of an entry. -/
def entryBuild (intent : EntryIntent) (event : LaunchEvent) (minTokensOut cuLimit : ℤ)
    (blockhash : String) : Build :=
  .entry ⟨intent, resolvePoolKeys event, event.source, v.walletPubkey, blockhash, cuLimit,
    minTokensOut⟩

/-- The steps of `execute` up to the second simulation; `none` if the quote would buy nothing. -/
def planEntry (intent : EntryIntent) (event : LaunchEvent) : VenueM W (Option EntryPlan) := do
  let q ← quote env intent.mint .buy intent.solInLamports
  let currentSlot : ℤ ← ask env .getCurrentSlot
  Act.ofExcept (assertQuoteFresh q currentSlot)
  let minTokensOut ← Act.ofExcept (computeMinTokensOut q.amountOutBase intent.slippageBps)
  if minTokensOut < minTokensOutGuard then return none
  else
    let blockhash : String ← ask env .getLatestBlockhash
    let first ← prepareChecked env (entryBuild v intent event minTokensOut defaultCuLimit blockhash)
      intent.walletId
    let cuLimit := sizeCuLimit first.2.cuConsumed
    let final ← prepareChecked env (entryBuild v intent event minTokensOut cuLimit blockhash)
      intent.walletId
    return some ⟨q, minTokensOut, cuLimit, final.1⟩

/-- `_land_with_retry_entry(...)`. -/
def landWithRetryEntry (intent : EntryIntent) (event : LaunchEvent) (plan : EntryPlan) :
    VenueM W LandResult :=
  landWithRetry env v (entryBuild v intent event plan.minTokensOut plan.cuLimit) intent.walletId
    plan.signed

/-- The body of the `try` of `execute`. -/
def executeBody (intent : EntryIntent) (event : LaunchEvent) : VenueM W FillResult := do
  match ← planEntry env v intent event with
  | none => return unfilled "zero_output_reverted"
  | some plan =>
      let land ← landWithRetryEntry env v intent event plan
      let fill ← settle intent.clientIntentId land
      return enrichFill fill intent.tipLamports
        (computePriorityLamports intent.cuPriceMicrolamports plan.cuLimit) plan.quote.amountOutBase
        plan.quote.price
        (computeEntrySlippageBps plan.quote.amountInBase plan.quote.amountOutBase) land.landSlot

/-- The `except` clauses of `execute`. -/
def executeRaised : Raised → FillResult
  | .signerRefused reason => unfilled reason
  | .simulationReverted reason => unfilled reason
  | .quoteStaleness reason => unfilled reason
  | .liveSubmitBlocked reason => unfilled reason
  | .devnetSubmitBlocked _ => unfilled "unexpected_error"
  | .other => unfilled "unexpected_error"

/-- `execute(intent, event)`. -/
def execute (intent : EntryIntent) (event : LaunchEvent) : VenueM W FillResult :=
  guarded intent.clientIntentId (executeBody env v intent event) executeRaised

/-- What `exit` has before it lands a transaction. -/
structure ExitPlan where
  quote : Quote
  tipLamports : ℤ
  cuPriceMicrolamports : ℤ
  cuLimit : ℤ
  signed : SignedTx

/-- The build of an exit. -/
def exitBuild (intent : ExitIntent) (tipLamports cuPriceMicrolamports cuLimit : ℤ)
    (blockhash : String) : Build :=
  .exit ⟨intent, "", v.walletPubkey, blockhash, cuLimit, tipLamports, cuPriceMicrolamports⟩

/-- The steps of `exit` up to the simulation. -/
def planExit (intent : ExitIntent) (walletId : String) : VenueM W ExitPlan := do
  let tipLamports ← parsed (← environ env).jitoDefaultTipLamports
  let cuPrice ← parsed (← environ env).defaultCuPriceMicrolamports
  let q ← quote env intent.mint .sell 0
  let blockhash : String ← ask env .getLatestBlockhash
  let prepared ← prepareChecked env
    (exitBuild v intent tipLamports cuPrice defaultCuLimit blockhash) walletId
  return ⟨q, tipLamports, cuPrice, sizeCuLimit prepared.2.cuConsumed, prepared.1⟩

/-- `_land_with_retry_exit(...)`. -/
def landWithRetryExit (intent : ExitIntent) (walletId : String) (plan : ExitPlan) :
    VenueM W LandResult :=
  landWithRetry env v (exitBuild v intent plan.tipLamports plan.cuPriceMicrolamports plan.cuLimit)
    walletId plan.signed

/-- The body of the `try` of `exit`. -/
def exitBody (intent : ExitIntent) (walletId : String) : VenueM W FillResult := do
  let plan ← planExit env v intent walletId
  let land ← landWithRetryExit env v intent walletId plan
  let fill ← settle intent.clientIntentId land
  return enrichFill fill plan.tipLamports
    (computePriorityLamports plan.cuPriceMicrolamports plan.cuLimit) 0 plan.quote.price 0
    land.landSlot

/-- The `except` clauses of `exit`. -/
def exitRaised : Raised → FillResult
  | .signerRefused reason => unfilled reason
  | .simulationReverted reason => unfilled reason
  | _ => unfilled "unexpected_error"

/-- `exit(intent, position)`, of a position in a wallet. -/
def exit (intent : ExitIntent) (walletId : String) : VenueM W FillResult :=
  guarded intent.clientIntentId (exitBody env v intent walletId) exitRaised

end Venue

/-- A call of the venue. -/
inductive VenueCall
  | execute (intent : EntryIntent) (event : LaunchEvent)
  | exit (intent : ExitIntent) (walletId : String)

/-- The `client_intent_id` of a call. -/
def VenueCall.intentId : VenueCall → String
  | .execute intent _ => intent.clientIntentId
  | .exit intent _ => intent.clientIntentId

/-- The program of a call. -/
def VenueCall.program {W : Type} (env : Env W) (v : JitoJupiterVenue) :
    VenueCall → VenueM W FillResult
  | .execute intent event => Venue.execute env v intent event
  | .exit intent walletId => Venue.exit env v intent walletId

end Venue
end AatsSniper

/-
# What the venue talks to

The types of `aats/contracts/venue.py` and `aats/execution/rpc_client.py` that
`JitoJupiterVenue` passes around, the queries it puts to its RPC client, its signer and
the transaction builder, and the two production clients over a JSON-RPC endpoint.

Whoever answers is a machine over some state of the world: an answer may depend on all
that was asked before, and every query may raise.  A transaction is its base64 text;
its signature is read off that text (`extractSignatureB58`).  The environment variables
are read from the world, already parsed; `none` is a text that `int` or `float`
refuses.
-/

import AatsSniper.Lib.Act
import AatsSniper.Lib.Decimal

namespace AatsSniper
namespace Venue

/-- `SubmitMode`, of the real venue. -/
inductive SubmitMode
  | dryRun
  | devnet
  | live
  deriving DecidableEq

/-- `Side`. -/
inductive Side
  | buy
  | sell
  deriving DecidableEq

/-- `Quote`. -/
structure Quote where
  mint : String
  side : Side
  price : ℚ
  amountInBase : ℤ
  amountOutBase : ℤ
  validUntilSlot : ℤ

/-- `UnsignedTx`. -/
structure UnsignedTx where
  serializedB64 : String
  intentKind : String
  mint : String
  clientIntentId : String
  deriving DecidableEq

/-- `SignedTx`. -/
structure SignedTx where
  serializedB64 : String
  signerPubkey : String
  intentKind : String
  mint : String
  clientIntentId : String
  deriving DecidableEq

/-- `SimulateResult` and `SimResult`. -/
structure SimResult where
  success : Bool
  cuConsumed : ℤ
  revertReason : Option String
  deriving DecidableEq

/-- `LandAttemptResult`. -/
structure LandAttemptResult where
  submitted : Bool
  signature : Option String
  landSlot : Option ℤ
  reason : String
  deriving DecidableEq

/-- `LandResult`. -/
structure LandResult where
  submitted : Bool
  reason : String
  signature : Option String
  landSlot : Option ℤ
  deriving DecidableEq

/-- `FillResult`. -/
structure FillResult where
  landed : Bool
  reason : String
  landSlot : Option ℤ := none
  slotDelay : Option ℤ := none
  buyersAhead : ℤ := 0
  tokensOut : ℤ := 0
  effectivePriceDecimal : ℚ := 0
  entrySlippageBps : ℤ := 0
  tipLamports : ℤ := 0
  priorityLamports : ℤ := 0

/-- `SignatureStatus`. -/
structure SignatureStatus where
  signature : String
  found : Bool
  confirmed : Bool
  slot : Option ℤ
  err : Option String
  deriving DecidableEq

/-- `ConfirmResult`. -/
structure ConfirmResult where
  confirmed : Bool
  landSlot : Option ℤ
  error : Option String
  deriving DecidableEq

/-- `EntryIntent`, as far as the venue reads it. -/
structure EntryIntent where
  clientIntentId : String
  mint : String
  solInLamports : ℤ
  slippageBps : ℤ
  tipLamports : ℤ
  cuPriceMicrolamports : ℤ
  walletId : String

/-- `LaunchEvent`, as far as the venue reads it. -/
structure LaunchEvent where
  venueProgramId : String
  source : String

/-- `ExitIntent` and `ReduceIntent`, as far as the venue reads them. -/
structure ExitIntent where
  clientIntentId : String
  mint : String
  kind : String

/-- The arguments of `build_entry_tx`. -/
structure EntryBuild where
  intent : EntryIntent
  poolKeys : List (String × String)
  poolProgramName : String
  walletPubkey : String
  blockhash : String
  cuLimit : ℤ
  minTokensOut : ℤ

/-- The arguments of `build_exit_tx`. -/
structure ExitBuild where
  intent : ExitIntent
  jupiterSwapB64 : String
  walletPubkey : String
  blockhash : String
  cuLimit : ℤ
  tipLamports : ℤ
  cuPriceMicrolamports : ℤ

/-- A call of the transaction builder. -/
inductive Build
  | entry (args : EntryBuild)
  | exit (args : ExitBuild)

/-- The blockhash a transaction is built from. -/
def Build.blockhash : Build → String
  | .entry args => args.blockhash
  | .exit args => args.blockhash

/-- What is asked of the outside. -/
inductive Query
  | getCurrentSlot
  | getLatestBlockhash
  | build (args : Build)
  | sign (tx : UnsignedTx) (walletId : String)
  | simulateTransaction (signedTxB64 : String)
  | sendTransaction (signedTxB64 : String)
  | confirmTransaction (signature : String) (maxPolls : ℤ)
  | getSignatureStatuses (signatures : List String)
  | sleep (milliseconds : ℕ)

/-- What it is answered with. -/
abbrev Query.Answer : Query → Type
  | .getCurrentSlot => ℤ
  | .getLatestBlockhash => String
  | .build _ => UnsignedTx
  | .sign _ _ => SignedTx
  | .simulateTransaction _ => SimResult
  | .sendTransaction _ => LandAttemptResult
  | .confirmTransaction _ _ => ConfirmResult
  | .getSignatureStatuses _ => List (Option SignatureStatus)
  | .sleep _ => Unit

/-- What a call raises. -/
inductive Raised
  | signerRefused (reason : String)
  | simulationReverted (reason : String)
  | quoteStaleness (reason : String)
  | liveSubmitBlocked (reason : String)
  | devnetSubmitBlocked (reason : String)
  /-- Any other `Exception`. -/
  | other
  deriving DecidableEq

/-- The environment variables the venue reads. -/
structure Environ where
  dryRunEnvDisabled : Bool
  rpcDevnet : Bool
  jitoDefaultTipLamports : Option ℤ
  defaultCuPriceMicrolamports : Option ℤ
  devnetConfirmMaxPolls : Option ℤ
  devnetConfirmPollIntervalS : Option ℚ

/-- The clients a venue is built with, and the environment it runs in. -/
structure Env (W : Type) where
  ask : (q : Query) → W → Except Raised q.Answer × W
  environ : W → Environ
  hasConfirmTransaction : Bool
  hasGetSignatureStatuses : Bool
  extractSignatureB58 : String → String

/-- What `_rpc` raises: an `OSError`, by whether its text has "Blockhash not found", or something
else. -/
inductive RpcError
  | os (blockhashNotFound : Bool)
  | other

/-- An entry of the answer to `getSignatureStatuses`. -/
structure RawStatus where
  confirmationStatus : Option String
  slot : Option ℤ
  err : Option String
  deriving DecidableEq

/-- The transaction is confirmed or finalized, whatever its error. -/
def RawStatus.settled (st : RawStatus) : Bool :=
  st.confirmationStatus == some "confirmed" || st.confirmationStatus == some "finalized"

/-- The methods of the JSON-RPC endpoint that the clients read the answers of, and the answers to the
other queries. -/
structure RawRpc (W : Type) where
  sendTransaction : String → W → Except RpcError String × W
  getSignatureStatuses : List String → W → Except RpcError (List (Option RawStatus)) × W
  sleep : W → W
  rest : (q : Query) → W → Except Raised q.Answer × W

/-- `SolanaRpcClient` or `DevnetRpcClient`. -/
inductive ClientKind
  | solana
  | devnet
  deriving DecidableEq

namespace RawRpc

variable {W : Type} (raw : RawRpc W)

/-- The reason of an accepted transaction. -/
def acceptedReason : ClientKind → String
  | .solana => "landed"
  | .devnet => "submitted_pending_confirm"

/-- `send_transaction(signed_tx_b64)`. -/
def send (kind : ClientKind) (signedTxB64 : String) (w : W) :
    Except Raised LandAttemptResult × W :=
  match raw.sendTransaction signedTxB64 w with
  | (.ok signature, w') => (.ok ⟨true, some signature, none, acceptedReason kind⟩, w')
  | (.error (.os blockhashNotFound), w') =>
      (.ok ⟨false, none, none, if blockhashNotFound = true then "blockhash_expired" else "node_lag"⟩,
        w')
  | (.error .other, w') => (.error .other, w')

/-- `_get_signature_statuses_via_rpc`, for one signature and its entry. -/
def statusOf (signature : String) (entry : Option RawStatus) : Option SignatureStatus :=
  entry.map fun st =>
    ⟨signature, true, st.settled && st.err.isNone, st.slot, st.err⟩

/-- `get_signature_statuses(signatures)`. -/
def statuses (signatures : List String) (w : W) :
    Except Raised (List (Option SignatureStatus)) × W :=
  if signatures = [] then (.ok [], w)
  else
    match raw.getSignatureStatuses signatures w with
    | (.ok values, w') =>
        (.ok (signatures.zipIdx.map fun (sig, i) => statusOf sig ((values[i]?).join)), w')
    | (.error _, w') => (.error .other, w')

/-- The polls of `confirm_transaction` that are left. -/
def polls (signature : String) : (left : ℕ) → W → Except Raised ConfirmResult × W
  | 0, w => (.ok ⟨false, none, some "confirmation_timeout"⟩, w)
  | left + 1, w =>
      match raw.getSignatureStatuses [signature] w with
      | (.error _, w') => (.error .other, w')
      | (.ok values, w') =>
          match values.head?.join with
          | some st =>
              if st.settled = true then (.ok ⟨true, st.slot, st.err⟩, w')
              else polls signature left (raw.sleep w')
          | none => polls signature left (raw.sleep w')

/-- `confirm_transaction(signature, max_polls)` of `DevnetRpcClient`. -/
def confirm (signature : String) (maxPolls : ℤ) (w : W) : Except Raised ConfirmResult × W :=
  raw.polls signature maxPolls.toNat w

/-- The answers of a production client. -/
def ask (kind : ClientKind) : (q : Query) → W → Except Raised q.Answer × W
  | .sendTransaction signedTxB64 => raw.send kind signedTxB64
  | .getSignatureStatuses signatures => raw.statuses signatures
  | .confirmTransaction signature maxPolls => raw.confirm signature maxPolls
  | q => raw.rest q

/-- A venue with a production client. -/
def env (kind : ClientKind) (environ : W → Environ) (extractSignatureB58 : String → String) :
    Env W where
  ask := raw.ask kind
  environ := environ
  hasConfirmTransaction := kind == .devnet
  hasGetSignatureStatuses := true
  extractSignatureB58 := extractSignatureB58

end RawRpc

/-- A transaction of this status has landed: it is confirmed or finalized, without an error. -/
def RawStatus.landed (st : RawStatus) : Bool := st.settled && st.err.isNone

/-- The cluster, by the status of a signature at a moment. -/
abbrev Cluster (W : Type) := W → String → Option RawStatus

/-- The transaction of the signature has landed. -/
def Cluster.Landed {W : Type} (cluster : Cluster W) (w : W) (signature : String) : Prop :=
  ∃ st, cluster w signature = some st ∧ st.landed = true

/-- The endpoint answers truthfully about the moment it is asked, a transaction that has landed stays
so while it is asked, and one that is accepted is accepted under its own signature. -/
structure Truthful {W : Type} (raw : RawRpc W) (extractSignatureB58 : String → String)
    (cluster : Cluster W) : Prop where
  statuses : ∀ signature w values w',
    raw.getSignatureStatuses [signature] w = (.ok values, w') →
      values.head?.join = cluster w signature
  accepted : ∀ signedTxB64 w signature w',
    raw.sendTransaction signedTxB64 w = (.ok signature, w') →
      signature = extractSignatureB58 signedTxB64
  stays : ∀ signatures w signature, cluster.Landed w signature →
    cluster.Landed (raw.getSignatureStatuses signatures w).2 signature

end Venue
end AatsSniper

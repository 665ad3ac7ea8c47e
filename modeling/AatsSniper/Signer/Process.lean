/-
# The signer process

`aats/execution/signer_process.py`: `sign_transaction`, the request handler
`handle_sign_request`, and one connection of the Unix-domain socket server.

The handler is written for any `Pricer`; the running process uses the two
caches of its `Enforcer`.  Its state is the enforcer's caches, the velocity
ledger both share, and a log of the messages handed to
`Ed25519Signer.sign_message`, which the source does not keep.

A connection is the list of chunks the peer's `recv` calls will return; an
exception that leaves a function is a `PyException`.
-/

import AatsSniper.Lib.Json
import AatsSniper.Signer.Enforcer

namespace AatsSniper
namespace Signer

open Wire

/-- What the process is booted with: the policy, the ATA backend, the wallet's
`Ed25519Signer` and the provisioned wallet id. -/
structure SignerConfig where
  policy : SignerPolicy
  solders : Option SoldersPubkey
  pubkeyB58 : String
  signMessage : Bytes → Bytes
  expectedWalletId : Option String

/-- The mutable state of the process. -/
structure SignerState (σ : Type) where
  enforcer : σ
  ledger : VelocityLedger
  signedMessages : List Bytes := []

/-- The wire responses: `{"signed_b64", "pubkey"}` and `{"error", "reason"}`. -/
inductive Response
  | signed (signedB64 pubkey : String)
  | refused (error : String) (reason : Reason)
  deriving DecidableEq

/-- The exceptions that can leave the handler or the connection loop. -/
inductive PyException
  | osError
  | attributeError
  | unicodeDecodeError
  | recursionError
  | valueError
  deriving DecidableEq

/-- `sign_transaction(tx_bytes, signer, signer_index=0)`, and the messages it
passed to `sign_message`. -/
def signTransaction (txBytes : Bytes) (signMessage : Bytes → Bytes) (signerIndex : ℤ := 0) :
    Except String Bytes × List Bytes :=
  match readCompactU16 txBytes with
  | .error message => (.error message, [])
  | .ok (nSigs, rest) =>
      let sigsStart := txBytes.length - rest.length
      if signerIndex < 0 ∨ (nSigs : ℤ) ≤ signerIndex then
        (.error (s!"signer_index {signerIndex} out of range for a tx declaring {nSigs} " ++
          "required signatures"), [])
      else
        let messageStart := sigsStart + nSigs * 64
        if txBytes.length < messageStart then
          (.error "truncated transaction: signatures section", [])
        else
          let message := txBytes.drop messageStart
          let signature := signMessage message
          if signature.length ≠ 64 then
            (.error "ed25519 signature must be exactly 64 bytes", [message])
          else
            let slotStart := sigsStart + signerIndex.toNat * 64
            (.ok (txBytes.take slotStart ++ signature ++ txBytes.drop (slotStart + 64)), [message])

section Handler

variable {σ : Type} (cfg : SignerConfig) (pricer : Pricer σ)

/-- Steps 3 to 5 of the handler: enforce, sign, record. -/
def policeAndSign (txBytes : Bytes) (nowS : ℚ) (st : SignerState σ) : Response × SignerState σ :=
  match enforce pricer cfg.policy txBytes cfg.pubkeyB58 nowS (st.enforcer, st.ledger) with
  | (.error exc, caches, ledger) =>
      (.refused exc.message exc.reason, { st with enforcer := caches, ledger := ledger })
  | (.ok (), caches, ledger) =>
      match signTransaction txBytes cfg.signMessage with
      | (.error exc, messages) =>
          (.refused exc .txUnparseable,
            { enforcer := caches, ledger := ledger
              signedMessages := st.signedMessages ++ messages })
      | (.ok signedBytes, messages) =>
          -- `compute_spend_lamports`, with the per-tx cap where it refuses
          let priced := pricer txBytes cfg.pubkeyB58 caches
          let spend :=
            match priced.1 with
            | .ok (_, spend) => spend
            | .error _ => cfg.policy.perTxCapLamports
          (.signed (Base64.b64encode signedBytes) cfg.pubkeyB58,
            { enforcer := priced.2, ledger := ledger.record nowS spend
              signedMessages := st.signedMessages ++ messages })

/-- `payload.get("wallet_id") == expected_wallet_id`, or no id is provisioned. -/
def walletIdMatches (payload : List (CodePoints × Json)) : Bool :=
  match cfg.expectedWalletId, Json.get payload (codePoints "wallet_id") with
  | none, _ => true
  | some expected, some (.str walletId) => walletId == codePoints expected
  | some _, _ => false

/-- `base64.b64decode(payload.get("tx_b64"), validate=True)`, or the error text
of the refusal. -/
def txBytesOf (payload : List (CodePoints × Json)) : Except String Bytes :=
  match Json.get payload (codePoints "tx_b64") with
  | some (.str txB64) =>
      match Base64.b64decode txB64 with
      | .ok txBytes => .ok txBytes
      | .error exc => .error s!"tx_b64 is not valid base64: {exc}"
  | _ => .error "request missing 'tx_b64'"

/-- `handle_sign_request(payload, ...)` on a `dict`. -/
def handleSignDict (payload : List (CodePoints × Json)) (nowS : ℚ) (st : SignerState σ) :
    Response × SignerState σ :=
  if walletIdMatches cfg payload then
    match txBytesOf payload with
    | .error message => (.refused message .txUnparseable, st)
    | .ok txBytes => policeAndSign cfg pricer txBytes nowS st
  else
    (.refused ("request wallet_id does not match this signer process's provisioned " ++
      "wallet (single-wallet-per-process invariant).") .walletIdMismatch, st)

/-- `handle_sign_request(payload, ...)` on any decoded JSON value: only a `dict`
has the method `get`. -/
def handleSignRequest (payload : Json) (nowS : ℚ) (st : SignerState σ) :
    Except PyException Response × SignerState σ :=
  match payload with
  | .obj members =>
      let answered := handleSignDict cfg pricer members nowS st
      (.ok answered.1, answered.2)
  | _ => (.error .attributeError, st)

end Handler

/-- `_MAX_FRAME_BYTES`. -/
def maxFrameBytes : ℕ := 65536

/-- `_recv_exact(sock, n)`: `recv` until `n` bytes are there; an empty chunk is
a closed connection. -/
def recvExact : ℕ → List Bytes → Except PyException (Bytes × List Bytes)
  | 0, chunks => .ok ([], chunks)
  | _ + 1, [] => .error .osError
  | n + 1, chunk :: rest =>
      if chunk = [] then .error .osError
      else if n + 1 < chunk.length then .ok (chunk.take (n + 1), chunk.drop (n + 1) :: rest)
      else do
        let (more, rest) ← recvExact (n + 1 - chunk.length) rest
        return (chunk ++ more, rest)

/-- `json.loads` as the connection sees it: `JSONDecodeError` is caught, every
other exception is not. -/
def loadPayload (depthLimit : ℕ) (body : Bytes) : Except PyException (Option Json) :=
  match Json.loads depthLimit body with
  | .ok payload => .ok (some payload)
  | .error .jsonDecodeError => .ok none
  | .error .unicodeDecodeError => .error .unicodeDecodeError
  | .error .valueError => .error .valueError
  | .error _ => .error .recursionError

/-- What a connection did: how it ended, and the responses it sent. -/
structure Served where
  outcome : Except PyException Unit
  sent : List Response

/-- `_serve_one_connection` from the received body on. -/
def serveBody {σ : Type} (cfg : SignerConfig) (pricer : Pricer σ) (depthLimit : ℕ) (body : Bytes)
    (nowS : ℚ) (st : SignerState σ) : Served × SignerState σ :=
  match loadPayload depthLimit body with
  | .error exc => (⟨.error exc, []⟩, st)
  | .ok none => (⟨.ok (), [.refused "malformed JSON request" .txUnparseable]⟩, st)
  | .ok (some payload) =>
      match handleSignRequest cfg pricer payload nowS st with
      | (.error exc, st) => (⟨.error exc, []⟩, st)
      | (.ok response, st) => (⟨.ok (), [response]⟩, st)

/-- `_serve_one_connection(conn, ...)`, the clock reading `now_s`. -/
def serveOneConnection {σ : Type} (cfg : SignerConfig) (pricer : Pricer σ) (depthLimit : ℕ)
    (conn : List Bytes) (nowS : ℚ) (st : SignerState σ) : Served × SignerState σ :=
  match recvExact 4 conn with
  | .error exc => (⟨.error exc, []⟩, st)
  | .ok (header, conn) =>
      let length := Bytes.beNat header
      if maxFrameBytes < length then
        (⟨.ok (), [.refused s!"request frame ({length} bytes) exceeds max {maxFrameBytes} bytes."
          .frameTooLarge]⟩, st)
      else
        match recvExact length conn with
        | .error exc => (⟨.error exc, []⟩, st)
        | .ok (body, _) => serveBody cfg pricer depthLimit body nowS st

/-- `_serve_accepted_connection(conn, ...)`: an `OSError` is logged, anything
else escapes to the accept loop of `serve_forever`. -/
def serveAcceptedConnection {σ : Type} (cfg : SignerConfig) (pricer : Pricer σ) (depthLimit : ℕ)
    (conn : List Bytes) (nowS : ℚ) (st : SignerState σ) : Served × SignerState σ :=
  let served := serveOneConnection cfg pricer depthLimit conn nowS st
  if served.1.outcome = .error .osError then (⟨.ok (), served.1.sent⟩, served.2) else served

/-- The policy of `config/signer-policy.json` with no venue and no tip account. -/
def samplePolicy : SignerPolicy where
  perTxCapLamports := 100000000
  aggregateCapLamports := 500000000
  windowSeconds := 60
  maxSignCount := 10
  allowedProgramIds := {"11111111111111111111111111111111",
    "ComputeBudget111111111111111111111111111111"}
  venueProgramIds := ∅
  pinnedTipAccounts := ∅
  ataProgramId := "ATokenGPvbdGVxr1b2hvZbsiqW5xWH25efTNsLJA8knL"
  splTokenProgramId := "TokenkegQfeZyiNwAJbNbGKPFXCWuBvf9Ss623VQ5DA"
  venueSpendDecoders := fun _ => none
  systemProgramId := "11111111111111111111111111111111"
  computeBudgetProgramId := "ComputeBudget111111111111111111111111111111"

/-- The key of the sample wallet. -/
def sampleKey : Bytes := List.replicate 32 7

/-- A signer of the sample wallet, on the pure derivation, with a digest in the
place of the signature. -/
def sampleConfig : SignerConfig where
  policy := samplePolicy
  solders := none
  pubkeyB58 := b58encode sampleKey
  signMessage := fun message => Sha256.digest message ++ Sha256.digest message
  expectedWalletId := none

/-- A legacy transaction paid by the sample wallet: one empty signature slot,
`otherKeys` after the payer, and the serialized instructions. -/
def sampleTx (otherKeys instructions : List Bytes) : Bytes :=
  [1] ++ List.replicate 64 0 ++ [1, 0, 1] ++ [UInt8.ofNat (otherKeys.length + 1)] ++ sampleKey ++
    otherKeys.flatten ++ List.replicate 32 9 ++ [UInt8.ofNat instructions.length] ++
    instructions.flatten

/-- The members of the payload that asks for `txBytes`. -/
def sampleMembers (txBytes : Bytes) : List (CodePoints × Json) :=
  [(codePoints "tx_b64", .str (codePoints (Base64.b64encode txBytes)))]

/-- A payload carries the transaction it was made of. -/
theorem txBytesOf_sampleMembers (txBytes : Bytes) :
    txBytesOf (sampleMembers txBytes) = .ok txBytes := by
  simp [txBytesOf, sampleMembers, Json.get, Base64.b64decode_b64encode]

/-- What the sample signer does with it. -/
theorem handleSignRequest_sampleMembers {σ : Type} (pricer : Pricer σ) (txBytes : Bytes) (nowS : ℚ)
    (st : SignerState σ) :
    handleSignRequest sampleConfig pricer (.obj (sampleMembers txBytes)) nowS st =
      ((.ok (policeAndSign sampleConfig pricer txBytes nowS st).1),
        (policeAndSign sampleConfig pricer txBytes nowS st).2) := by
  have hid : walletIdMatches sampleConfig (sampleMembers txBytes) = true := rfl
  simp only [handleSignRequest, handleSignDict, hid, txBytesOf_sampleMembers, if_true]

end Signer
end AatsSniper

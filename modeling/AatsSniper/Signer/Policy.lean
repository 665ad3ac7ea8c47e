/-
# The signer's policy, its velocity ledger and its instruction decoders

`aats/execution/signer_enforcer.py`, everything the enforcer is built from:
`SignerPolicy`, `VelocityLedger`, and the decoders of System, SPL-Token and
ComputeBudget instructions (checks C2, C3 and C5).

`now_s` is a `float` of the monotonic clock.  It is modelled as a rational:
the only arithmetic on it is `now_s - window_seconds`, which is exact for a
non-negative double below `2 ^ 53` and an integer no larger than it, and when
the window reaches back before zero every recorded time is inside it.
-/

import AatsSniper.Signer.Ata
import AatsSniper.Wire.Transaction
import Mathlib.Data.Finset.Basic
import Mathlib.Algebra.Order.Ring.Rat

namespace AatsSniper
namespace Signer

open Wire

/-- The reason codes of `SignerRefused` that the signer process emits. -/
inductive Reason
  | txUnparseable
  | altUnresolvableSecurityAccount
  | programNotAllowlisted
  | unpinnedTransfer
  | spendUndecodable
  | perTxCapExceeded
  | aggregateCapExceeded
  | velocityExceeded
  | unboundedApproval
  | walletIdMismatch
  | frameTooLarge
  | payerMismatch
  deriving DecidableEq

/-- The code on the wire. -/
def Reason.code : Reason → String
  | .txUnparseable => "signer_tx_unparseable"
  | .altUnresolvableSecurityAccount => "signer_alt_unresolvable_security_account"
  | .programNotAllowlisted => "signer_program_not_allowlisted"
  | .unpinnedTransfer => "signer_unpinned_transfer"
  | .spendUndecodable => "signer_spend_undecodable"
  | .perTxCapExceeded => "signer_per_tx_cap_exceeded"
  | .aggregateCapExceeded => "signer_aggregate_cap_exceeded"
  | .velocityExceeded => "signer_velocity_exceeded"
  | .unboundedApproval => "signer_unbounded_approval"
  | .walletIdMismatch => "signer_wallet_id_mismatch"
  | .frameTooLarge => "signer_frame_too_large"
  | .payerMismatch => "signer_payer_mismatch"

/-- The exception `SignerRefused(reason, message)`. -/
structure SignerRefused where
  reason : Reason
  message : String
  deriving DecidableEq

/-- `max_sol_lamports(ix_data)`: a bound, or the text of the `KeyError` or
`ValueError` the protocol allows it to raise. -/
abbrev SpendDecoder := Bytes → Except String ℤ

/-- `SignerPolicy`. -/
structure SignerPolicy where
  perTxCapLamports : ℤ
  aggregateCapLamports : ℤ
  windowSeconds : ℤ
  maxSignCount : ℤ
  allowedProgramIds : Finset String
  venueProgramIds : Finset String
  pinnedTipAccounts : Finset String
  ataProgramId : String
  splTokenProgramId : String
  venueSpendDecoders : String → Option SpendDecoder
  systemProgramId : String := ""
  computeBudgetProgramId : String := ""

/-- `VelocityLedger`: the issued signatures `(t, spend)` still remembered. -/
structure VelocityLedger where
  windowSeconds : ℤ
  entries : List (ℚ × ℤ)

namespace VelocityLedger

/-- `VelocityLedger(window_seconds)`. -/
def new (windowSeconds : ℤ) : Except String VelocityLedger :=
  if windowSeconds ≤ 0 then .error "window_seconds must be positive" else .ok ⟨windowSeconds, []⟩

/-- `_prune(now_s)`. -/
def prune (ledger : VelocityLedger) (nowS : ℚ) : VelocityLedger :=
  { ledger with entries := ledger.entries.filter fun e => decide (nowS - ledger.windowSeconds < e.1) }

/-- `would_exceed(...)`, on the entries `_prune` left. -/
def wouldExceed (inWindow : VelocityLedger) (spendLamports aggregateCapLamports maxSignCount : ℤ) :
    Option Reason :=
  if aggregateCapLamports < (inWindow.entries.map Prod.snd).sum + spendLamports then
    some .aggregateCapExceeded
  else if maxSignCount < inWindow.entries.length + 1 then some .velocityExceeded
  else none

/-- `record(now_s, spend_lamports)`. -/
def record (ledger : VelocityLedger) (nowS : ℚ) (spendLamports : ℤ) : VelocityLedger :=
  let pruned := ledger.prune nowS
  { pruned with entries := pruned.entries ++ [(nowS, spendLamports)] }

end VelocityLedger

/-- `_resolve(account_keys, index)`. -/
def resolve (accountKeys : List String) (index : ℕ) : Except String String :=
  match accountKeys[index]? with
  | some key => .ok key
  | none => .error s!"account index {index} out of range"

/-- The three value-moving branches of `_decode_system_transfer` differ in the
name of the instruction and in the slot of the recipient: the lamports are the
eight bytes after the discriminant, the source is account 0. -/
def decodeTransferAt (name : String) (recipientSlot : ℕ) (ix : ParsedInstruction)
    (accountKeys : List String) : Except String (Option (String × String × ℕ)) :=
  if ix.data.length < 12 ∨ ix.accountIndices.length < recipientSlot + 1 then
    .error s!"malformed System::{name} instruction"
  else do
    let source ← resolve accountKeys (ix.accountIndices.getD 0 0)
    let recipient ← resolve accountKeys (ix.accountIndices.getD recipientSlot 0)
    return some (source, recipient, Bytes.leNat (Bytes.slice ix.data 4 12))

/-- `_decode_system_transfer(ix, account_keys)`: `(source, recipient, lamports)`,
`none` for an instruction it takes to move no lamports. -/
def decodeSystemTransfer (ix : ParsedInstruction) (accountKeys : List String) :
    Except String (Option (String × String × ℕ)) :=
  if ix.data.length < 4 then .ok none
  else
    let discriminant := Bytes.leNat (ix.data.take 4)
    if discriminant = 2 then decodeTransferAt "Transfer" 1 ix accountKeys
    else if discriminant = 0 then decodeTransferAt "CreateAccount" 1 ix accountKeys
    else if discriminant = 11 then decodeTransferAt "TransferWithSeed" 2 ix accountKeys
    else .ok none

/-- `_check_approval_hygiene(ix, account_keys, policy)` (C5). -/
def checkApprovalHygiene (ix : ParsedInstruction) (accountKeys : List String)
    (policy : SignerPolicy) : Except SignerRefused Unit :=
  match ix.data.head? with
  | none => .ok ()
  | some tag =>
      if tag ≠ 4 ∧ tag ≠ 13 then .ok ()
      else if ix.data.length < 9 then
        .error ⟨.txUnparseable, "malformed SPL Token Approve/ApproveChecked instruction data."⟩
      else
        let amount := Bytes.leNat (Bytes.slice ix.data 1 9)
        let delegateSlot := if tag = 4 then 1 else 2
        if ix.accountIndices.length ≤ delegateSlot then
          .error ⟨.txUnparseable,
            "Approve/ApproveChecked instruction is missing the delegate account."⟩
        else
          match resolve accountKeys (ix.accountIndices.getD delegateSlot 0) with
          | .error message => .error ⟨.txUnparseable, message⟩
          | .ok delegate =>
              if 2 ^ 63 ≤ amount ∧ delegate ∉ policy.venueProgramIds then
                .error ⟨.unboundedApproval,
                  s!"Approve amount {amount} to delegate '{delegate}' is unbounded/large and the " ++
                    "delegate is not a known venue program (ADR-0015 C5)."⟩
              else .ok ()

/-- The priced fields of a ComputeBudget instruction. -/
inductive CuField
  | limit (cuLimit : ℕ)
  | price (cuPriceMicrolamports : ℕ)

/-- `_decode_compute_budget_ix(ix)`. -/
def decodeComputeBudgetIx (ix : ParsedInstruction) : Except String (Option CuField) :=
  match ix.data.head? with
  | none => .ok none
  | some tag =>
      if tag = 2 then
        if ix.data.length < 5 then
          .error "malformed ComputeBudget::SetComputeUnitLimit instruction"
        else .ok (some (.limit (Bytes.leNat (Bytes.slice ix.data 1 5))))
      else if tag = 3 then
        if ix.data.length < 9 then
          .error "malformed ComputeBudget::SetComputeUnitPrice instruction"
        else .ok (some (.price (Bytes.leNat (Bytes.slice ix.data 1 9))))
      else .ok none

end Signer
end AatsSniper

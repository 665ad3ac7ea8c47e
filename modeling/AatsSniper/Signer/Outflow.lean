/-
# What a signed transaction takes out of the wallet

`_decode_system_transfer` takes Transfer, CreateAccount and TransferWithSeed to
be the System instructions that move lamports; "any OTHER System-program
instruction" moves none, says its docstring.  The System program has a fourth:
CreateAccountWithSeed (discriminant 3) funds the new account from account 0.

`systemDebit` reads all four by their documented layouts.  For every signed
request the debits other than those of CreateAccountWithSeed, the venue bounds
and the priority fee are within the per-tx cap and go to pinned recipients; the
whole outflow is so exactly when the CreateAccountWithSeed instructions fit in
what is left of the cap and pay pinned recipients too
(`outflow_bounded_iff_seedCreates_fit`).  Nothing in the code asks for that
(`seed_create_drains_sample`).
-/

import AatsSniper.Signer.Pricing
import AatsSniper.Signer.Runs

namespace AatsSniper
namespace Signer

open Wire

/-- Lamports that leave the funding account `source`. -/
structure Debit where
  source : String
  recipient : String
  lamports : ℕ

/-- The key in an account slot of an instruction. -/
def accountAt (accountKeys : List String) (ix : ParsedInstruction) (slot : ℕ) : Option String :=
  ix.accountIndices[slot]?.bind fun index => accountKeys[index]?

/-- The bytes after a string field: an eight-byte length, then the string. -/
def afterString (buf : Bytes) : Option Bytes :=
  if buf.length < 8 then none
  else
    let rest := buf.drop 8
    if rest.length < Bytes.leNat (buf.take 8) then none
    else some (rest.drop (Bytes.leNat (buf.take 8)))

/-- The discriminant of `CreateAccountWithSeed`. -/
def isSeedCreate (ix : ParsedInstruction) : Bool :=
  decide (4 ≤ ix.data.length ∧ Bytes.leNat (ix.data.take 4) = 3)

/-- A debit of account 0 in favour of the account in `recipientSlot`. -/
def debitAt (accountKeys : List String) (ix : ParsedInstruction) (recipientSlot : ℕ)
    (lamports : Bytes) : Option Debit := do
  let source ← accountAt accountKeys ix 0
  let recipient ← accountAt accountKeys ix recipientSlot
  return ⟨source, recipient, Bytes.leNat lamports⟩

/-- The debit of a System instruction, by the documented layouts of the four that
have one:

* `0` CreateAccount: lamports, space, owner; accounts funding, new;
* `2` Transfer: lamports; accounts funding, recipient;
* `3` CreateAccountWithSeed: base, seed, lamports, space, owner; accounts funding, new;
* `11` TransferWithSeed: lamports, seed, owner; accounts funding, base, recipient. -/
def systemDebit (accountKeys : List String) (ix : ParsedInstruction) : Option Debit :=
  let discriminant := Bytes.leNat (ix.data.take 4)
  let fields := ix.data.drop 4
  if ix.data.length < 4 then none
  else if discriminant = 0 then
    if fields.length < 48 then none else debitAt accountKeys ix 1 (fields.take 8)
  else if discriminant = 2 then
    if fields.length < 8 then none else debitAt accountKeys ix 1 (fields.take 8)
  else if discriminant = 3 then
    (afterString (fields.drop 32)).bind fun rest =>
      if rest.length < 48 then none else debitAt accountKeys ix 1 (rest.take 8)
  else if discriminant = 11 then
    (afterString (fields.drop 8)).bind fun rest =>
      if rest.length < 32 then none else debitAt accountKeys ix 2 (fields.take 8)
  else none

section Outflow

variable (solders : Option SoldersPubkey) (policy : SignerPolicy) (walletPubkey : String)
  (accountKeys : List String)

/-- The debit of the wallet by an instruction of the System program. -/
def walletDebit (ix : ParsedInstruction) : Option Debit :=
  if ix.programId = policy.systemProgramId then
    (systemDebit accountKeys ix).filter fun d => decide (d.source = walletPubkey)
  else none

/-- The debits of the wallet. -/
def walletDebits (ixs : List ParsedInstruction) : List Debit :=
  ixs.filterMap (walletDebit policy walletPubkey accountKeys)

/-- The lamports they move. -/
def debited (ixs : List ParsedInstruction) : ℕ :=
  ((walletDebits policy walletPubkey accountKeys ixs).map Debit.lamports).sum

/-- The rest of the outflow: venue bounds and priority fee. -/
def otherOutflow (ixs : List ParsedInstruction) : ℤ :=
  (ixs.map (venueBound policy)).sum + priorityFee policy ixs

/-- Everything that leaves the wallet is within the per-tx cap, and every debit
pays a pinned recipient. -/
structure OutflowBounded (parsed : ParsedTx) : Prop where
  total : debited policy walletPubkey parsed.accountKeys parsed.instructions +
    otherOutflow policy parsed.instructions ≤ policy.perTxCapLamports
  recipients : ∀ d ∈ walletDebits policy walletPubkey parsed.accountKeys parsed.instructions,
    Pinned solders policy walletPubkey parsed.accountKeys d.recipient

/-- The `CreateAccountWithSeed` instructions of a transaction. -/
def seedCreates (parsed : ParsedTx) : List ParsedInstruction :=
  parsed.instructions.filter isSeedCreate

/-- What the other instructions leave of the per-tx cap. -/
def headroom (parsed : ParsedTx) : ℤ :=
  policy.perTxCapLamports -
    (debited policy walletPubkey parsed.accountKeys
      (parsed.instructions.filter fun ix => !isSeedCreate ix) +
    otherOutflow policy parsed.instructions)

/-- The accounts the wallet creates with a seed are pinned and fit in the headroom. -/
structure SeedCreatesFit (parsed : ParsedTx) : Prop where
  total : (debited policy walletPubkey parsed.accountKeys (seedCreates parsed) : ℤ) ≤
    headroom policy walletPubkey parsed
  recipients : ∀ d ∈ walletDebits policy walletPubkey parsed.accountKeys (seedCreates parsed),
    Pinned solders policy walletPubkey parsed.accountKeys d.recipient

end Outflow

section Decoder

variable {policy : SignerPolicy} {wallet : String} {keys : List String} {ix : ParsedInstruction}

theorem resolve_of_accountAt {slot : ℕ} {key : String} (h : accountAt keys ix slot = some key) :
    slot < ix.accountIndices.length ∧ resolve keys (ix.accountIndices.getD slot 0) = .ok key := by
  unfold accountAt at h
  obtain ⟨index, hindex, hkey⟩ := Option.bind_eq_some_iff.1 h
  obtain ⟨hslot, -⟩ := List.getElem?_eq_some_iff.1 hindex
  refine ⟨hslot, ?_⟩
  rw [List.getD_eq_getElem?_getD, hindex, Option.getD_some, resolve, hkey]

theorem decodeTransferAt_of_debitAt {name : String} {slot : ℕ} {d : Debit}
    (hlength : 12 ≤ ix.data.length) (h : debitAt keys ix slot ((ix.data.drop 4).take 8) = some d) :
    decodeTransferAt name slot ix keys = .ok (some (d.source, d.recipient, d.lamports)) := by
  unfold debitAt at h
  obtain ⟨source, hsource, h⟩ := Option.bind_eq_some_iff.1 h
  obtain ⟨recipient, hrecipient, h⟩ := Option.bind_eq_some_iff.1 h
  obtain rfl := Option.some.inj h
  obtain ⟨-, hsource⟩ := resolve_of_accountAt hsource
  obtain ⟨hslot, hrecipient⟩ := resolve_of_accountAt hrecipient
  unfold decodeTransferAt
  rw [if_neg (by omega), hsource, hrecipient]
  rfl

/-- A debit that is not a seed create is decoded as what it is. -/
theorem decodeSystemTransfer_of_systemDebit {d : Debit} (hseed : isSeedCreate ix = false)
    (h : systemDebit keys ix = some d) :
    decodeSystemTransfer ix keys = .ok (some (d.source, d.recipient, d.lamports)) := by
  unfold systemDebit at h
  dsimp only at h
  split_ifs at h with hshort hcreate hfields htransfer hfields hseed' hwith
  · unfold decodeSystemTransfer
    rw [if_neg hshort, hcreate]
    rw [List.length_drop] at hfields
    exact decodeTransferAt_of_debitAt (by omega) h
  · unfold decodeSystemTransfer
    rw [if_neg hshort, htransfer]
    rw [List.length_drop] at hfields
    exact decodeTransferAt_of_debitAt (by omega) h
  · simp [isSeedCreate, hseed'] at hseed
    omega
  · unfold decodeSystemTransfer
    rw [if_neg hshort, hwith]
    obtain ⟨rest, hrest, h⟩ := Option.bind_eq_some_iff.1 h
    split_ifs at h with hfields
    refine decodeTransferAt_of_debitAt ?_ h
    unfold afterString at hrest
    split_ifs at hrest with hlength
    simp only [List.length_drop] at hlength
    omega

theorem walletTransfer_of_walletDebit {d : Debit} (hseed : isSeedCreate ix = false)
    (h : walletDebit policy wallet keys ix = some d) :
    walletTransfer policy wallet keys ix = some (d.recipient, d.lamports) := by
  unfold walletDebit at h
  split_ifs at h with hsystem
  obtain ⟨hdebit, hsource⟩ := Option.filter_eq_some_iff.1 h
  have hdecode := decodeSystemTransfer_of_systemDebit hseed hdebit
  simp [walletTransfer, hsystem, hdecode, of_decide_eq_true hsource]

variable (policy wallet keys) in
/-- What the enforcer priced covers every debit but the seed creates'. -/
theorem debited_unseeded_le (ixs : List ParsedInstruction) :
    debited policy wallet keys (ixs.filter fun ix => !isSeedCreate ix) ≤
      ((ixs.filterMap (walletTransfer policy wallet keys)).map Prod.snd).sum := by
  induction ixs with
  | nil => exact le_rfl
  | cons ix ixs ih =>
      have hskip : ((ixs.filterMap (walletTransfer policy wallet keys)).map Prod.snd).sum ≤
          (((ix :: ixs).filterMap (walletTransfer policy wallet keys)).map Prod.snd).sum := by
        rw [List.filterMap_cons]
        cases walletTransfer policy wallet keys ix <;> simp
      cases hseed : isSeedCreate ix with
      | true =>
          rw [List.filter_cons_of_neg (by simp [hseed])]
          exact ih.trans hskip
      | false =>
          rw [List.filter_cons_of_pos (by simp [hseed])]
          unfold debited walletDebits at ih ⊢
          cases hdebit : walletDebit policy wallet keys ix with
          | none =>
              rw [List.filterMap_cons_none hdebit]
              exact ih.trans hskip
          | some d =>
              have htransfer := walletTransfer_of_walletDebit hseed hdebit
              rw [List.filterMap_cons_some hdebit, List.filterMap_cons_some htransfer]
              simpa using ih

/-- Their recipients are among those C2 checked. -/
theorem exists_walletTransfer_of_unseeded {ixs : List ParsedInstruction} {d : Debit}
    (h : d ∈ walletDebits policy wallet keys (ixs.filter fun ix => !isSeedCreate ix)) :
    (d.recipient, d.lamports) ∈ ixs.filterMap (walletTransfer policy wallet keys) := by
  obtain ⟨ix, hix, hdebit⟩ := List.mem_filterMap.1 h
  obtain ⟨hix, hseed⟩ := List.mem_filter.1 hix
  exact List.mem_filterMap.2 ⟨ix, hix, walletTransfer_of_walletDebit (by simpa using hseed) hdebit⟩

variable (policy wallet keys) in
/-- The debits are the seed creates' and the others'. -/
theorem walletDebits_perm (ixs : List ParsedInstruction) :
    (walletDebits policy wallet keys (ixs.filter isSeedCreate) ++
      walletDebits policy wallet keys (ixs.filter fun ix => !isSeedCreate ix)).Perm
      (walletDebits policy wallet keys ixs) := by
  unfold walletDebits
  rw [← List.filterMap_append]
  exact (List.filter_append_perm isSeedCreate ixs).filterMap _

variable (policy wallet keys) in
theorem debited_split (ixs : List ParsedInstruction) :
    debited policy wallet keys (ixs.filter isSeedCreate) +
      debited policy wallet keys (ixs.filter fun ix => !isSeedCreate ix) =
      debited policy wallet keys ixs := by
  have hperm := (walletDebits_perm policy wallet keys ixs).map Debit.lamports
  simpa [debited] using hperm.sum_eq

end Decoder

/-- **When the outflow of a signed transaction is bounded.**  For every request
signed in any state the process can be in, what leaves the wallet other than by
`CreateAccountWithSeed` is within the per-tx cap, and the whole outflow is within
it, to pinned recipients, exactly when the seed creates fit in what is left. -/
theorem outflow_bounded_iff_seedCreates_fit (cfg : SignerConfig) (ledger : VelocityLedger)
    (earlier : List Request) (request : Request)
    (hsigned : isSigned (handleSignRequest cfg (parseAndPrice cfg.solders cfg.policy) request.1
      request.2 (runCached cfg earlier (booted ledger)).2).1 = true) :
    ∃ members txBytes parsed, request.1 = .obj members ∧ txBytesOf members = .ok txBytes ∧
      parseTransaction txBytes = .ok parsed ∧
      0 ≤ headroom cfg.policy cfg.pubkeyB58 parsed ∧
      (OutflowBounded cfg.solders cfg.policy cfg.pubkeyB58 parsed ↔
        SeedCreatesFit cfg.solders cfg.policy cfg.pubkeyB58 parsed) := by
  have hp := parseAndPrice_prices cfg
  have hstate : Caches.Consistent cfg.solders cfg.policy
      (runCached cfg earlier (booted ledger)).2.enforcer :=
    run_keeps hp earlier (Caches.consistent_empty cfg.solders cfg.policy)
  obtain ⟨members, txBytes, parsed, spend, hpayload, htx, hprice⟩ :=
    exists_priced_of_signed hp request hstate hsigned
  obtain ⟨hparse, -, hpinned, hspend, hcap⟩ := priced_eq_ok hprice
  refine ⟨members, txBytes, parsed, hpayload, htx, hparse, ?_, ?_⟩
  · have hle := debited_unseeded_le cfg.policy cfg.pubkeyB58 parsed.accountKeys parsed.instructions
    unfold headroom otherOutflow
    omega
  · have hsplit := debited_split cfg.policy cfg.pubkeyB58 parsed.accountKeys parsed.instructions
    have hperm := walletDebits_perm cfg.policy cfg.pubkeyB58 parsed.accountKeys parsed.instructions
    constructor
    · rintro ⟨htotal, hrecipients⟩
      refine ⟨?_, fun d hd => hrecipients d (hperm.subset (List.mem_append_left _ hd))⟩
      unfold headroom seedCreates
      omega
    · rintro ⟨htotal, hrecipients⟩
      unfold headroom seedCreates at htotal
      refine ⟨by omega, fun d hd => ?_⟩
      rcases List.mem_append.1 (hperm.symm.subset hd) with hd | hd
      · exact hrecipients d hd
      · exact hpinned _ (exists_walletTransfer_of_unseeded hd)

/-- `CreateAccountWithSeed` out of the sample wallet, to the address it derives
from the seed `"seed"` and the System program as owner. -/
def seedCreateTx (lamports : ℕ) : Bytes :=
  let seed : Bytes := [115, 101, 101, 100]
  let owner : Bytes := List.replicate 32 0
  let data := [3, 0, 0, 0] ++ sampleKey ++ Bytes.leBytes 8 4 ++ seed ++ Bytes.leBytes 8 lamports ++
    Bytes.leBytes 8 0 ++ owner
  sampleTx [Sha256.digest (sampleKey ++ seed ++ owner), owner]
    [[2] ++ [2, 0, 1] ++ [UInt8.ofNat data.length] ++ data]

/-- The theorem at a transaction whose one instruction creates an account with a seed and funds
it with nothing. -/
theorem outflow_bounded_iff_seedCreates_fit_sample :
    ∃ parsed, parseTransaction (seedCreateTx 0) = .ok parsed ∧
      (OutflowBounded none samplePolicy sampleConfig.pubkeyB58 parsed ↔
        SeedCreatesFit none samplePolicy sampleConfig.pubkeyB58 parsed) := by
  obtain ⟨members, txBytes, parsed, hpayload, htx, hparse, -, hiff⟩ :=
    outflow_bounded_iff_seedCreates_fit sampleConfig ⟨60, []⟩ []
      (.obj (sampleMembers (seedCreateTx 0)), 1)
      (by rw [handleSignRequest_sampleMembers]; decide +kernel)
  obtain rfl := Json.obj.inj hpayload
  obtain rfl := Except.ok.inj ((txBytesOf_sampleMembers _).symm.trans htx)
  exact ⟨parsed, hparse, hiff⟩

/-- A signed transaction that takes 900 SOL out of the wallet, against a per-tx cap
of 0.1 SOL, to an account nobody pinned. -/
theorem seed_create_drains_sample :
    isSigned (handleSignRequest sampleConfig (parseAndPrice none samplePolicy)
      (.obj (sampleMembers (seedCreateTx 900000000000))) 1 (booted ⟨60, []⟩)).1 = true ∧
    ∃ parsed, parseTransaction (seedCreateTx 900000000000) = .ok parsed ∧
      ¬ OutflowBounded none samplePolicy sampleConfig.pubkeyB58 parsed := by
  refine ⟨by rw [handleSignRequest_sampleMembers]; decide +kernel, ?_⟩
  have hdebited : (parseTransaction (seedCreateTx 900000000000)).toOption.any fun parsed =>
      decide (samplePolicy.perTxCapLamports <
        debited samplePolicy sampleConfig.pubkeyB58 parsed.accountKeys parsed.instructions +
          otherOutflow samplePolicy parsed.instructions) := by
    decide +kernel
  cases hparse : parseTransaction (seedCreateTx 900000000000) with
  | error message => simp [hparse, Except.toOption] at hdebited
  | ok parsed =>
      refine ⟨parsed, rfl, fun hbounded => ?_⟩
      have hover := hdebited
      simp only [hparse, Except.toOption, Option.any_some, decide_eq_true_eq] at hover
      exact absurd hbounded.total (not_le.2 hover)

end Signer
end AatsSniper

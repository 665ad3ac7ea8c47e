/-
# The enforcer: checks C0 to C5

`Enforcer` of `aats/execution/signer_enforcer.py`.

Pricing a transaction consults one thing that has state: the own-ATA test of
C2, which memoizes derivations.  `parseAndPriceWith` is `_parse_and_price`
below its one-entry price cache, for an own-ATA test on any state `σ`;
`parseAndPrice` is the method itself, on the two caches of the `Enforcer`, and
`parseAndPriceFresh` the same computation with neither cache.  An exception does
not undo what was cached before it, so every function returns the state beside
its outcome.

`enforce` and, in `Signer.Process`, the request handler are written once, for
any way `Pricer` of pricing a transaction.
-/

import AatsSniper.Signer.Policy

namespace AatsSniper
namespace Signer

open Wire

/-- C0 (payer), C0a and C1: what is checked before any instruction is priced. -/
def checkParsed (policy : SignerPolicy) (walletPubkey : String) (parsed : ParsedTx) :
    Except SignerRefused Unit :=
  if parsed.payer ≠ walletPubkey then
    .error ⟨.payerMismatch,
      s!"tx payer (account 0) '{parsed.payer}' does not match the wallet " ++
        s!"this signer controls '{walletPubkey}' (ADR-0015 C0)."⟩
  else if parsed.hasAddressTableLookups then
    .error ⟨.altUnresolvableSecurityAccount,
      "tx references an address-lookup-table-resolved account; " ++
        "security-relevant accounts (program IDs, System-transfer accounts) " ++
        "must be static so the signer can validate them with no network (ADR-0015 C0a)."⟩
  else
    match parsed.instructions.find? fun ix => decide (ix.programId ∉ policy.allowedProgramIds) with
    | some ix =>
        .error ⟨.programNotAllowlisted, s!"program_id '{ix.programId}' is not in the live allowlist."⟩
    | none => .ok ()

section Pricing

variable {σ : Type} (isOwnAta : String → σ → Bool × σ) (policy : SignerPolicy)
  (walletPubkey : String)

/-- The C2 loop: every System transfer out of the wallet goes to a pinned
recipient, and its lamports are added to `system_spend`. -/
def systemSpendLoop (accountKeys : List String) :
    List ParsedInstruction → ℕ → σ → Except SignerRefused ℕ × σ
  | [], systemSpend, s => (.ok systemSpend, s)
  | ix :: rest, systemSpend, s =>
      if ix.programId ≠ policy.systemProgramId then systemSpendLoop accountKeys rest systemSpend s
      else
        match decodeSystemTransfer ix accountKeys with
        | .error message => (.error ⟨.txUnparseable, message⟩, s)
        | .ok none => systemSpendLoop accountKeys rest systemSpend s
        | .ok (some (source, recipient, lamports)) =>
            if source ≠ walletPubkey then systemSpendLoop accountKeys rest systemSpend s
            else if recipient ∈ policy.pinnedTipAccounts ∨ recipient = walletPubkey then
              systemSpendLoop accountKeys rest (systemSpend + lamports) s
            else
              match isOwnAta recipient s with
              | (true, s) => systemSpendLoop accountKeys rest (systemSpend + lamports) s
              | (false, s) =>
                  (.error ⟨.unpinnedTransfer,
                    s!"System transfer recipient '{recipient}' is not pinned " ++
                      "(must be a live Jito tip account, the wallet's own ATA, or self)."⟩, s)

/-- The C3 venue loop. -/
def venueSpendLoop : List ParsedInstruction → ℤ → Except SignerRefused ℤ
  | [], venueSpend => .ok venueSpend
  | ix :: rest, venueSpend =>
      if ix.programId ∉ policy.venueProgramIds then venueSpendLoop rest venueSpend
      else
        match policy.venueSpendDecoders ix.programId with
        | none =>
            .error ⟨.spendUndecodable,
              s!"no spend decoder registered for venue program '{ix.programId}'."⟩
        | some decoder =>
            match decoder ix.data with
            | .ok bound => venueSpendLoop rest (venueSpend + bound)
            | .error exc => .error ⟨.spendUndecodable, s!"venue program '{ix.programId}': {exc}"⟩

/-- The C3 ComputeBudget loop: the largest limit seen, if any, and the largest price. -/
def computeBudgetLoop :
    List ParsedInstruction → Option ℕ → ℕ → Except SignerRefused (Option ℕ × ℕ)
  | [], cuLimitSeen, cuPrice => .ok (cuLimitSeen, cuPrice)
  | ix :: rest, cuLimitSeen, cuPrice =>
      if ix.programId ≠ policy.computeBudgetProgramId then
        computeBudgetLoop rest cuLimitSeen cuPrice
      else
        match decodeComputeBudgetIx ix with
        | .error message => .error ⟨.txUnparseable, message⟩
        | .ok none => computeBudgetLoop rest cuLimitSeen cuPrice
        | .ok (some (.limit value)) =>
            computeBudgetLoop rest (some (cuLimitSeen.elim value fun seen => max seen value)) cuPrice
        | .ok (some (.price value)) => computeBudgetLoop rest cuLimitSeen (max cuPrice value)

/-- `_PROTOCOL_MAX_CU_LIMIT`. -/
def protocolMaxCuLimit : ℕ := 1400000

/-- `priority_fee_lamports`, by ceiling division. -/
def priorityFeeLamports (cuLimitSeen : Option ℕ) (cuPriceMicrolamports : ℕ) : ℤ :=
  if 0 < cuPriceMicrolamports then
    -(-((cuLimitSeen.getD protocolMaxCuLimit : ℤ) * cuPriceMicrolamports) / 1000000)
  else 0

/-- C3, after the System spend is known: the other spends and the per-tx cap. -/
def capSpend (instructions : List ParsedInstruction) (systemSpend : ℕ) :
    Except SignerRefused ℤ := do
  let venueSpend ← venueSpendLoop policy instructions 0
  let (cuLimitSeen, cuPrice) ← computeBudgetLoop policy instructions none 0
  let priorityFee := priorityFeeLamports cuLimitSeen cuPrice
  let totalSpend := systemSpend + venueSpend + priorityFee
  if policy.perTxCapLamports < totalSpend then
    .error ⟨.perTxCapExceeded,
      s!"tx spend {totalSpend} lamports (system={systemSpend} " ++
        s!"venue={venueSpend} priority_fee={priorityFee}) exceeds " ++
        s!"per-tx cap {policy.perTxCapLamports}."⟩
  else return totalSpend

/-- C1 to C3 on a parsed transaction. -/
def priceParsed (parsed : ParsedTx) (s : σ) : Except SignerRefused ℤ × σ :=
  match checkParsed policy walletPubkey parsed with
  | .error refused => (.error refused, s)
  | .ok () =>
      match systemSpendLoop isOwnAta policy walletPubkey parsed.accountKeys parsed.instructions 0 s with
      | (.error refused, s) => (.error refused, s)
      | (.ok systemSpend, s) => (capSpend policy parsed.instructions systemSpend, s)

end Pricing

/-- `_parse_and_price`, below the price cache; the own-ATA test is handed the
transaction's static keys. -/
def parseAndPriceWith {σ : Type} (isOwnAta : List String → String → σ → Bool × σ)
    (policy : SignerPolicy) (txBytes : Bytes) (walletPubkey : String) (s : σ) :
    Except SignerRefused (ParsedTx × ℤ) × σ :=
  match parseTransaction txBytes with
  | .error message => (.error ⟨.txUnparseable, message⟩, s)
  | .ok parsed =>
      match priceParsed (isOwnAta parsed.accountKeys) policy walletPubkey parsed s with
      | (.error refused, s) => (.error refused, s)
      | (.ok spend, s) => (.ok (parsed, spend), s)

/-- `_ATA_CACHE_MAX_ENTRIES`. -/
def ataCacheMaxEntries : ℕ := 4096

/-- `_ata_cache`, a `dict` from `(wallet, mint)` to a derivation. -/
abbrev AtaCache := List ((String × String) × Option String)

/-- The candidate loop of `_is_own_ata`. -/
def isOwnAtaLoop (derive : String → String → Option String) (walletPubkey recipient : String) :
    List String → AtaCache → Bool × AtaCache
  | [], cache => (false, cache)
  | candidateMint :: rest, cache =>
      match cache.lookup (walletPubkey, candidateMint) with
      | some ata =>
          if ata = some recipient then (true, cache)
          else isOwnAtaLoop derive walletPubkey recipient rest cache
      | none =>
          let ata := derive walletPubkey candidateMint
          let cache := ((walletPubkey, candidateMint), ata) :: cache
          if ata = some recipient then (true, cache)
          else isOwnAtaLoop derive walletPubkey recipient rest cache

/-- `_is_own_ata(recipient, wallet_pubkey, account_keys)`; a full cache is cleared first. -/
def isOwnAta (derive : String → String → Option String) (walletPubkey : String)
    (accountKeys : List String) (recipient : String) (cache : AtaCache) : Bool × AtaCache :=
  isOwnAtaLoop derive walletPubkey recipient accountKeys
    (if ataCacheMaxEntries ≤ cache.length then [] else cache)

/-- `_price_cache`: the last transaction that passed C0 to C3. -/
structure PriceEntry where
  txBytes : Bytes
  walletPubkey : String
  parsed : ParsedTx
  totalSpend : ℤ

/-- The mutable part of an `Enforcer`. -/
structure Caches where
  price : Option PriceEntry := none
  ata : AtaCache := []

/-- How a transaction is priced, on a state of its own. -/
abbrev Pricer (σ : Type) := Bytes → String → σ → Except SignerRefused (ParsedTx × ℤ) × σ

variable (solders : Option SoldersPubkey) (policy : SignerPolicy)

/-- `_try_derive_ata` at the policy's program ids. -/
def deriveOwn (walletPubkey mint : String) : Option String :=
  tryDeriveAta solders walletPubkey mint policy.ataProgramId policy.splTokenProgramId

/-- `_parse_and_price(tx_bytes, wallet_pubkey)`. -/
def parseAndPrice : Pricer Caches := fun txBytes walletPubkey caches =>
  match caches.price.filter fun e => e.txBytes == txBytes && e.walletPubkey == walletPubkey with
  | some cached => (.ok (cached.parsed, cached.totalSpend), caches)
  | none =>
      match parseAndPriceWith (isOwnAta (deriveOwn solders policy) walletPubkey) policy txBytes
          walletPubkey caches.ata with
      | (.error refused, ata) => (.error refused, { caches with ata := ata })
      | (.ok (parsed, spend), ata) =>
          (.ok (parsed, spend), { price := some ⟨txBytes, walletPubkey, parsed, spend⟩, ata := ata })

/-- The own-ATA test with no memory: some static key's derivation is the recipient. -/
def isOwnAtaFresh (walletPubkey : String) (accountKeys : List String) (recipient : String) : Bool :=
  accountKeys.any fun mint => deriveOwn solders policy walletPubkey mint == some recipient

/-- `_parse_and_price` with no cache at all. -/
def parseAndPriceFresh : Pricer Unit := fun txBytes walletPubkey _ =>
  parseAndPriceWith (fun keys recipient _ => (isOwnAtaFresh solders policy walletPubkey keys recipient, ()))
    policy txBytes walletPubkey ()

/-- C5 over the instructions of the transaction. -/
def checkApprovals (policy : SignerPolicy) (accountKeys : List String) :
    List ParsedInstruction → Except SignerRefused Unit
  | [] => .ok ()
  | ix :: rest =>
      if ix.programId = policy.splTokenProgramId then
        match checkApprovalHygiene ix accountKeys policy with
        | .error refused => .error refused
        | .ok () => checkApprovals policy accountKeys rest
      else checkApprovals policy accountKeys rest

/-- `enforce(tx_bytes, wallet_pubkey, now_s)`.  C4 prunes the ledger even where
it refuses. -/
def enforce {σ : Type} (pricer : Pricer σ) (policy : SignerPolicy) (txBytes : Bytes)
    (walletPubkey : String) (nowS : ℚ) (s : σ × VelocityLedger) :
    Except SignerRefused Unit × (σ × VelocityLedger) :=
  match pricer txBytes walletPubkey s.1 with
  | (.error refused, caches) => (.error refused, (caches, s.2))
  | (.ok (parsed, totalSpend), caches) =>
      let ledger := s.2.prune nowS
      match ledger.wouldExceed totalSpend policy.aggregateCapLamports policy.maxSignCount with
      | some violation =>
          (.error ⟨violation, s!"C4 breach: {violation.code}"⟩, (caches, ledger))
      | none => (checkApprovals policy parsed.accountKeys parsed.instructions, (caches, ledger))

end Signer
end AatsSniper

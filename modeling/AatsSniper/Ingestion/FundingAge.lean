/-
# The first funding of a deployer

`RpcFundingHistoryProvider.lookup` of `aats/ingestion/dev_funding_age.py` over any transport.

The pages of signatures are read from the newest back until one is short, and what they list is
decoded from the oldest up until a transaction shows an inbound balance.  A candidate that
cannot be fetched, or whose time is not known, is passed over and the next one is tried:
`of_lookup_found` says that the answer is the first candidate that decodes, which
need not be the first of the history.
-/

import AatsSniper.Lib.Except
import AatsSniper.Lib.Sort

namespace AatsSniper
namespace Ingestion

/-! ### The transport -/

/-- `SignatureInfo`. -/
structure SignatureInfo where
  signature : String
  slot : ℤ
  blockTimeMs : Option ℤ
  err : Option String
  deriving DecidableEq

/-- `RawTransactionMeta`. -/
structure RawTransactionMeta where
  slot : ℤ
  blockTimeMs : Option ℤ
  err : Option String
  accountKeys : List String
  preBalancesLamports : List ℤ
  postBalancesLamports : List ℤ
  deriving DecidableEq

/-- What the wallet has more after the transaction; none where it has no place in the balances. -/
def RawTransactionMeta.delta (tx : RawTransactionMeta) (wallet : String) : Option ℤ := do
  let idx ← tx.accountKeys.idxOf? wallet
  let pre ← tx.preBalancesLamports[idx]?
  let post ← tx.postBalancesLamports[idx]?
  return post - pre

/-- `SolanaHistoryTransport`: `get_signatures_for_address(wallet, before, limit)` and
`get_transaction(signature)`. -/
structure SolanaHistoryTransport (ε : Type) where
  getSignaturesForAddress : String → Option String → ℤ → Except ε (List SignatureInfo)
  getTransaction : String → Except ε (Option RawTransactionMeta)

/-- `StaticSolanaHistoryTransport`. -/
structure StaticSolanaHistoryTransport where
  byWallet : String → List SignatureInfo
  transactions : String → Option RawTransactionMeta
  raiseOnSignatures : List String := []
  raiseOnTransaction : List String := []

/-- The two methods of `StaticSolanaHistoryTransport`; the error is the `ConnectionError`'s text. -/
def StaticSolanaHistoryTransport.transport (T : StaticSolanaHistoryTransport) :
    SolanaHistoryTransport String where
  getSignaturesForAddress wallet before limit :=
    if wallet ∈ T.raiseOnSignatures then
      .error ("StaticSolanaHistoryTransport: simulated RPC error for " ++ wallet)
    else
      let bucket := T.byWallet wallet
      let page :=
        match before with
        | none => bucket
        | some before =>
            match bucket.findIdx? fun s : SignatureInfo => s.signature = before with
            | some idx => bucket.drop (idx + 1)
            | none => []
      .ok (page.take limit.toNat)
  getTransaction signature :=
    if signature ∈ T.raiseOnTransaction then
      .error ("StaticSolanaHistoryTransport: simulated RPC error for signature " ++ signature)
    else .ok (T.transactions signature)

/-! ### The result -/

/-- `FundingAgeStatus`. -/
inductive FundingAgeStatus
  | found
  | undecodable
  deriving DecidableEq

/-- The `ValueError`s of the module. -/
inductive FundingAgeError
  | checkInt (name : String) (minValue value : ℤ)
  | checkStr (name : String)
  | undecodableWithValue
  | foundWithoutValue
  | slotAfterDeploy (firstSlot deployEventSlot : ℤ)
  | timeAfterDeploy (firstBlockTime deployBlockTimeMs : ℤ)
  | ageSlotsInconsistent
  | ageMsInconsistent
  deriving DecidableEq

/-- `_check_int(name, value, min_value)`. -/
def checkInt (name : String) (value minValue : ℤ) : Except FundingAgeError Unit :=
  require (minValue ≤ value) (.checkInt name minValue value)

/-- `_check_str(name, value)`. -/
def checkStr (name value : String) : Except FundingAgeError Unit :=
  require (value ≠ "") (.checkStr name)

theorem checkInt_bind {name : String} {value minValue : ℤ} {f : Unit → Except FundingAgeError Unit}
    (h : minValue ≤ value) : (checkInt name value minValue >>= f) = f () :=
  require_bind h

theorem checkStr_bind {name value : String} {f : Unit → Except FundingAgeError Unit}
    (h : value ≠ "") : (checkStr name value >>= f) = f () :=
  require_bind h

/-- The arguments of `DevFundingAgeResult(...)`, with their defaults. -/
structure DevFundingAgeResultParams where
  creatorWallet : String
  deployEventSlot : ℤ
  deployBlockTimeMs : ℤ
  status : FundingAgeStatus
  firstFundingSlot : Option ℤ := none
  firstFundingBlockTimeMs : Option ℤ := none
  firstFundingAmountLamports : Option ℤ := none
  firstFundingSignature : Option String := none
  fundingAgeSlots : Option ℤ := none
  fundingAgeMs : Option ℤ := none
  ingestTimeMs : ℤ
  dataStalenessMs : ℤ := 0
  deriving DecidableEq

/-- The checks of a result that carries its values. -/
def DevFundingAgeResultParams.checkFound (r : DevFundingAgeResultParams)
    (firstSlot firstBlockTime : ℤ) (signature : String) (ageSlots ageMs : ℤ) :
    Except FundingAgeError Unit := do
  checkInt "DevFundingAgeResult.first_funding_slot" firstSlot 0
  checkInt "DevFundingAgeResult.first_funding_block_time_ms" firstBlockTime 1
  checkStr "DevFundingAgeResult.first_funding_signature" signature
  match r.firstFundingAmountLamports with
  | none => pure ()
  | some amount => checkInt "DevFundingAgeResult.first_funding_amount_lamports" amount 1
  checkInt "DevFundingAgeResult.funding_age_slots" ageSlots 0
  checkInt "DevFundingAgeResult.funding_age_ms" ageMs 0
  require (firstSlot ≤ r.deployEventSlot) (.slotAfterDeploy firstSlot r.deployEventSlot)
  require (firstBlockTime ≤ r.deployBlockTimeMs)
    (.timeAfterDeploy firstBlockTime r.deployBlockTimeMs)
  require (ageSlots = r.deployEventSlot - firstSlot) .ageSlotsInconsistent
  require (ageMs = r.deployBlockTimeMs - firstBlockTime) .ageMsInconsistent

/-- `DevFundingAgeResult.__post_init__`. -/
def DevFundingAgeResultParams.postInit (r : DevFundingAgeResultParams) :
    Except FundingAgeError Unit := do
  checkStr "DevFundingAgeResult.creator_wallet" r.creatorWallet
  checkInt "DevFundingAgeResult.deploy_event_slot" r.deployEventSlot 0
  checkInt "DevFundingAgeResult.deploy_block_time_ms" r.deployBlockTimeMs 1
  checkInt "DevFundingAgeResult.ingest_time_ms" r.ingestTimeMs 0
  checkInt "DevFundingAgeResult.data_staleness_ms" r.dataStalenessMs 0
  match r.status with
  | .undecodable =>
      require (r.firstFundingSlot = none ∧ r.firstFundingBlockTimeMs = none ∧
        r.firstFundingSignature = none ∧ r.fundingAgeSlots = none ∧ r.fundingAgeMs = none)
        .undecodableWithValue
  | .found =>
      match r.firstFundingSlot, r.firstFundingBlockTimeMs, r.firstFundingSignature,
        r.fundingAgeSlots, r.fundingAgeMs with
      | some firstSlot, some firstBlockTime, some signature, some ageSlots, some ageMs =>
          r.checkFound firstSlot firstBlockTime signature ageSlots ageMs
      | _, _, _, _, _ => .error .foundWithoutValue

/-- `DevFundingAgeResult`. -/
structure DevFundingAgeResult extends DevFundingAgeResultParams where
  valid : toDevFundingAgeResultParams.postInit = .ok ()

/-- `DevFundingAgeResult(...)`. -/
def DevFundingAgeResult.make (r : DevFundingAgeResultParams) :
    Except FundingAgeError DevFundingAgeResult :=
  match h : r.postInit with
  | .ok () => .ok ⟨r, h⟩
  | .error e => .error e

/-! ### The provider -/

/-- `DevFundingAgeStats`. -/
structure DevFundingAgeStats where
  lookups : ℕ := 0
  found : ℕ := 0
  undecodableRpcError : ℕ := 0
  undecodableNoHistory : ℕ := 0
  undecodableBudgetExhausted : ℕ := 0
  undecodableNoConfirmedFunding : ℕ := 0
  deriving DecidableEq

/-- The arguments of `RpcFundingHistoryProvider(...)`, with their defaults. -/
structure RpcFundingHistoryProviderParams (ε : Type) where
  transport : SolanaHistoryTransport ε
  pageSize : ℤ := 1000
  maxPages : ℤ := 10
  maxTransactionsDecoded : ℤ := 50

/-- The checks of `RpcFundingHistoryProvider.__init__`. -/
def RpcFundingHistoryProviderParams.postInit {ε : Type} (p : RpcFundingHistoryProviderParams ε) :
    Except FundingAgeError Unit := do
  checkInt "page_size" p.pageSize 1
  checkInt "max_pages" p.maxPages 1
  checkInt "max_transactions_decoded" p.maxTransactionsDecoded 1

/-- `RpcFundingHistoryProvider`; its counters are passed along. -/
structure RpcFundingHistoryProvider (ε : Type) extends RpcFundingHistoryProviderParams ε where
  valid : toRpcFundingHistoryProviderParams.postInit = .ok ()

/-- The signature can be a funding: it succeeded, it has a time, and it is not after the deploy. -/
def SignatureInfo.qualifies (s : SignatureInfo) (deployEventSlot : ℤ) : Bool :=
  s.err = none ∧ s.blockTimeMs ≠ none ∧ s.slot ≤ deployEventSlot

/-- A candidate that decoded. -/
structure Decoded where
  signature : String
  slot : ℤ
  blockTimeMs : ℤ
  amountLamports : ℤ
  deriving DecidableEq

/-- The arguments of `lookup`. -/
structure FundingQuery where
  wallet : String
  deployEventSlot : ℤ
  deployBlockTimeMs : ℤ

/-- The checks at the head of `lookup`. -/
def FundingQuery.check (q : FundingQuery) : Except FundingAgeError Unit := do
  checkStr "RpcFundingHistoryProvider.wallet" q.wallet
  checkInt "deploy_event_slot" q.deployEventSlot 0
  checkInt "deploy_block_time_ms" q.deployBlockTimeMs 1

namespace RpcFundingHistoryProvider

variable {ε : Type}

/-- The loop over the pages: the candidates, and whether it reached the genesis of the wallet. -/
def pages (p : RpcFundingHistoryProvider ε) (q : FundingQuery) :
    ℕ → Option String → List SignatureInfo → Except ε (List SignatureInfo × Bool)
  | 0, _, candidates => .ok (candidates, false)
  | n + 1, cursor, candidates =>
      match p.transport.getSignaturesForAddress q.wallet cursor p.pageSize with
      | .error e => .error e
      | .ok page =>
          match page.getLast? with
          | none => .ok (candidates, true)
          | some last =>
              let candidates := candidates ++ page.filter (·.qualifies q.deployEventSlot)
              if page.length < p.pageSize then .ok (candidates, true)
              else pages p q n (some last.signature) candidates

/-- The body of the loop over the candidates; none where it goes on to the next. -/
def decode (p : RpcFundingHistoryProvider ε) (q : FundingQuery) (sigInfo : SignatureInfo) :
    Option Decoded :=
  match p.transport.getTransaction sigInfo.signature with
  | .error _ => none
  | .ok none => none
  | .ok (some tx) =>
      if tx.err ≠ none then none
      else if tx.slot > q.deployEventSlot then none
      else
        match tx.delta q.wallet with
        | none => none
        | some delta =>
            if delta ≤ 0 then none
            else
              match tx.blockTimeMs.or sigInfo.blockTimeMs with
              | none => none
              | some fundingBlockTimeMs =>
                  if fundingBlockTimeMs > q.deployBlockTimeMs then none
                  else some ⟨sigInfo.signature, tx.slot, fundingBlockTimeMs, delta⟩

/-- The loop over the candidates. -/
def decodeOldest (p : RpcFundingHistoryProvider ε) (q : FundingQuery) :
    ℤ → List SignatureInfo → Option Decoded
  | _, [] => none
  | budget, sigInfo :: rest =>
      if budget ≤ 0 then none
      else
        match p.decode q sigInfo with
        | some decoded => some decoded
        | none => decodeOldest p q (budget - 1) rest

/-- `_undecodable(wallet, ...)`. -/
def undecodable (q : FundingQuery) (ingestTimeMs : ℤ) : DevFundingAgeResultParams :=
  { creatorWallet := q.wallet
    deployEventSlot := q.deployEventSlot
    deployBlockTimeMs := q.deployBlockTimeMs
    status := .undecodable
    ingestTimeMs := ingestTimeMs
    dataStalenessMs := max 0 (ingestTimeMs - q.deployBlockTimeMs) }

/-- The result with a first funding. -/
def found (q : FundingQuery) (ingestTimeMs : ℤ) (d : Decoded) : DevFundingAgeResultParams :=
  { creatorWallet := q.wallet
    deployEventSlot := q.deployEventSlot
    deployBlockTimeMs := q.deployBlockTimeMs
    status := .found
    firstFundingSlot := some d.slot
    firstFundingBlockTimeMs := some d.blockTimeMs
    firstFundingAmountLamports := some d.amountLamports
    firstFundingSignature := some d.signature
    fundingAgeSlots := some (q.deployEventSlot - d.slot)
    fundingAgeMs := some (q.deployBlockTimeMs - d.blockTimeMs)
    ingestTimeMs := ingestTimeMs
    dataStalenessMs := max 0 (ingestTimeMs - q.deployBlockTimeMs) }

/-- `lookup(wallet, deploy_event_slot, deploy_block_time_ms)` at the clock's reading, with the
counters it leaves. -/
def lookup (p : RpcFundingHistoryProvider ε) (q : FundingQuery) (nowMs : ℕ)
    (stats : DevFundingAgeStats) : Except FundingAgeError DevFundingAgeResult × DevFundingAgeStats :=
  match q.check with
  | .error e => (.error e, stats)
  | .ok () =>
      let stats := { stats with lookups := stats.lookups + 1 }
      let refused := DevFundingAgeResult.make (undecodable q nowMs)
      match p.pages q p.maxPages.toNat none [] with
      | .error _ =>
          (refused, { stats with undecodableRpcError := stats.undecodableRpcError + 1 })
      | .ok (_, false) =>
          (refused,
            { stats with undecodableBudgetExhausted := stats.undecodableBudgetExhausted + 1 })
      | .ok (candidates, true) =>
          if candidates = [] then
            (refused, { stats with undecodableNoHistory := stats.undecodableNoHistory + 1 })
          else
            match p.decodeOldest q p.maxTransactionsDecoded (sortBy (·.slot) candidates) with
            | some d =>
                (DevFundingAgeResult.make (found q nowMs d), { stats with found := stats.found + 1 })
            | none =>
                (refused, { stats with
                  undecodableNoConfirmedFunding := stats.undecodableNoConfirmedFunding + 1 })

end RpcFundingHistoryProvider

/-! ### What the chain holds -/

/-- A transaction of the wallet, as it landed. -/
structure Landed where
  signature : String
  tx : RawTransactionMeta

/-- The transaction succeeded and the wallet has more after it. -/
def Landed.Funds (e : Landed) (wallet : String) : Prop :=
  e.tx.err = none ∧ ∃ delta ∈ e.tx.delta wallet, 0 < delta

/-- The complete history of a wallet. -/
structure WalletHistory where
  landed : List Landed
  signature_ne : ∀ e ∈ landed, e.signature ≠ ""
  slot_nonneg : ∀ e ∈ landed, 0 ≤ e.tx.slot
  time_pos : ∀ e ∈ landed, ∀ t ∈ e.tx.blockTimeMs, 1 ≤ t

/-- The listing of a transaction; its time may be missing. -/
def SignatureInfo.Lists (s : SignatureInfo) (e : Landed) : Prop :=
  s.signature = e.signature ∧ s.slot = e.tx.slot ∧ s.err = e.tx.err ∧
    (s.blockTimeMs = e.tx.blockTimeMs ∨ s.blockTimeMs = none)

/-- The body of a transaction; its time may be missing. -/
def RawTransactionMeta.Tells (tx : RawTransactionMeta) (e : Landed) : Prop :=
  tx = e.tx ∨ tx = { e.tx with blockTimeMs := none }

variable {ε : Type}

/-- What the transport answers for the wallet is of the history.  It may raise, leave out what it
likes, cut its pages where it likes and have no body for a signature. -/
structure Serves (T : SolanaHistoryTransport ε) (wallet : String) (H : WalletHistory) : Prop where
  lists : ∀ cursor limit page, T.getSignaturesForAddress wallet cursor limit = .ok page →
    ∀ s ∈ page, ∃ e ∈ H.landed, s.Lists e
  tells : ∀ e ∈ H.landed, ∀ tx, T.getTransaction e.signature = .ok (some tx) → tx.Tells e

/-- The pages from the cursor on end with a short one, the last of at most `n`, and list these. -/
inductive Reads (T : SolanaHistoryTransport ε) (wallet : String) (pageSize : ℤ) :
    ℕ → Option String → List SignatureInfo → Prop
  | last {n : ℕ} {cursor : Option String} {page : List SignatureInfo}
      (answer : T.getSignaturesForAddress wallet cursor pageSize = .ok page)
      (short : page.length < pageSize) : Reads T wallet pageSize (n + 1) cursor page
  | more {n : ℕ} {cursor : Option String} {page rest : List SignatureInfo} {last : SignatureInfo}
      (answer : T.getSignaturesForAddress wallet cursor pageSize = .ok page)
      (full : pageSize ≤ page.length) (hlast : page.getLast? = some last)
      (next : Reads T wallet pageSize n (some last.signature) rest) :
      Reads T wallet pageSize (n + 1) cursor (page ++ rest)

namespace RpcFundingHistoryProvider

/-- Of the listed, those the budget allows to decode, the oldest first. -/
def tried (p : RpcFundingHistoryProvider ε) (q : FundingQuery) (listed : List SignatureInfo) :
    List SignatureInfo :=
  (sortBy (·.slot) (listed.filter (·.qualifies q.deployEventSlot))).take
    p.maxTransactionsDecoded.toNat

/-- The candidate can be fetched, and shows an inbound balance at a time not after the deploy. -/
def Confirms (p : RpcFundingHistoryProvider ε) (q : FundingQuery) (s : SignatureInfo) : Prop :=
  ∃ tx, p.transport.getTransaction s.signature = .ok (some tx) ∧ tx.err = none ∧
    tx.slot ≤ q.deployEventSlot ∧ (∃ delta ∈ tx.delta q.wallet, 0 < delta) ∧
    ∃ t ∈ tx.blockTimeMs.or s.blockTimeMs, t ≤ q.deployBlockTimeMs

/-! ### What the loops find -/

variable {p : RpcFundingHistoryProvider ε} {q : FundingQuery}

theorem pageSize_pos (p : RpcFundingHistoryProvider ε) : 1 ≤ p.pageSize := by
  have h := p.valid
  unfold RpcFundingHistoryProviderParams.postInit checkInt at h
  exact (ok_of_require h).1

/-- A short page ends the loop. -/
theorem pages_of_short {n : ℕ} {cursor : Option String} {page : List SignatureInfo}
    (candidates : List SignatureInfo)
    (answer : p.transport.getSignaturesForAddress q.wallet cursor p.pageSize = .ok page)
    (short : page.length < p.pageSize) :
    p.pages q (n + 1) cursor candidates =
      .ok (candidates ++ page.filter (·.qualifies q.deployEventSlot), true) := by
  rw [pages, answer]
  dsimp only
  cases hlast : page.getLast? with
  | none =>
      obtain rfl := List.getLast?_eq_none_iff.1 hlast
      simp
  | some last =>
      dsimp only
      rw [if_pos short]

/-- Behind a full page the loop goes on from its last signature. -/
theorem pages_of_full {n : ℕ} {cursor : Option String} {page : List SignatureInfo}
    {last : SignatureInfo} (candidates : List SignatureInfo)
    (answer : p.transport.getSignaturesForAddress q.wallet cursor p.pageSize = .ok page)
    (full : p.pageSize ≤ page.length) (hlast : page.getLast? = some last) :
    p.pages q (n + 1) cursor candidates =
      p.pages q n (some last.signature)
        (candidates ++ page.filter (·.qualifies q.deployEventSlot)) := by
  rw [pages, answer]
  dsimp only
  rw [hlast]
  dsimp only
  rw [if_neg (by omega)]

/-- What ends with a short page is read to the end. -/
theorem pages_of_reads {n : ℕ} {cursor : Option String} {listed : List SignatureInfo}
    (h : Reads p.transport q.wallet p.pageSize n cursor listed)
    (candidates : List SignatureInfo) :
    p.pages q n cursor candidates =
      .ok (candidates ++ listed.filter (·.qualifies q.deployEventSlot), true) := by
  induction h generalizing candidates with
  | last answer short => exact pages_of_short candidates answer short
  | more answer full hlast next ih =>
      rw [pages_of_full candidates answer full hlast, ih, List.filter_append, List.append_assoc]

/-- **The pages read to the end are those the transport ends with a short one.** -/
theorem reads_of_pages {n : ℕ} {cursor : Option String} {candidates found : List SignatureInfo}
    (h : p.pages q n cursor candidates = .ok (found, true)) :
    ∃ listed, Reads p.transport q.wallet p.pageSize n cursor listed ∧
      found = candidates ++ listed.filter (·.qualifies q.deployEventSlot) := by
  induction n generalizing cursor candidates with
  | zero => cases h
  | succ n ih =>
      cases answer : p.transport.getSignaturesForAddress q.wallet cursor p.pageSize with
      | error e =>
          rw [pages, answer] at h
          cases h
      | ok page =>
          by_cases short : (page.length : ℤ) < p.pageSize
          · rw [pages_of_short candidates answer short] at h
            obtain ⟨rfl, -⟩ := Prod.mk.inj (Except.ok.inj h)
            exact ⟨page, .last answer short, rfl⟩
          · have full : p.pageSize ≤ page.length := by omega
            have hsize := p.pageSize_pos
            obtain ⟨last, hlast⟩ : ∃ last, page.getLast? = some last := by
              cases hlast : page.getLast? with
              | none =>
                  obtain rfl := List.getLast?_eq_none_iff.1 hlast
                  simp only [List.length_nil] at full
                  omega
              | some last => exact ⟨last, rfl⟩
            rw [pages_of_full candidates answer full hlast] at h
            obtain ⟨rest, hrest, rfl⟩ := ih h
            refine ⟨page ++ rest, .more answer full hlast hrest, ?_⟩
            rw [List.filter_append, List.append_assoc]

/-- **The loop over the candidates stops at the first that decodes**, within the budget. -/
theorem decodeOldest_eq (p : RpcFundingHistoryProvider ε) (q : FundingQuery) (budget : ℤ)
    (candidates : List SignatureInfo) :
    p.decodeOldest q budget candidates = (candidates.take budget.toNat).findSome? (p.decode q) := by
  induction candidates generalizing budget with
  | nil => simp [decodeOldest]
  | cons s rest ih =>
      rw [decodeOldest]
      by_cases hbudget : budget ≤ 0
      · rw [if_pos hbudget, Int.toNat_of_nonpos hbudget]
        rfl
      · obtain ⟨n, hn⟩ : ∃ n : ℕ, budget.toNat = n + 1 := ⟨budget.toNat - 1, by omega⟩
        have hrest : (budget - 1).toNat = n := by omega
        rw [if_neg hbudget, hn, List.take_succ_cons, List.findSome?_cons, ih, hrest]
        cases p.decode q s with
        | none => rfl
        | some d => rfl

/-- What a candidate decodes to. -/
theorem decode_eq_some_iff {s : SignatureInfo} {d : Decoded} :
    p.decode q s = some d ↔
      ∃ tx, p.transport.getTransaction s.signature = .ok (some tx) ∧ tx.err = none ∧
        tx.slot ≤ q.deployEventSlot ∧ tx.delta q.wallet = some d.amountLamports ∧
        0 < d.amountLamports ∧ tx.blockTimeMs.or s.blockTimeMs = some d.blockTimeMs ∧
        d.blockTimeMs ≤ q.deployBlockTimeMs ∧ d.signature = s.signature ∧ d.slot = tx.slot := by
  unfold decode
  cases p.transport.getTransaction s.signature with
  | error e => simp
  | ok body =>
      cases body with
      | none => simp
      | some tx =>
          simp only [Except.ok.injEq, Option.some.injEq, exists_eq_left']
          by_cases herr : tx.err = none
          · rw [if_neg (by simp [herr])]
            by_cases hslot : tx.slot ≤ q.deployEventSlot
            · rw [if_neg (by omega)]
              cases hdelta : tx.delta q.wallet with
              | none => simp
              | some delta =>
                  cases htime : tx.blockTimeMs.or s.blockTimeMs with
                  | none => simp
                  | some t =>
                      obtain ⟨signature, slot, blockTimeMs, amount⟩ := d
                      simp only [herr, hslot, Option.some.injEq]
                      grind
            · rw [if_pos (by omega)]
              simp [hslot]
          · rw [if_pos herr]
            simp [herr]

/-- A candidate that confirms is one that decodes. -/
theorem confirms_iff {s : SignatureInfo} : p.Confirms q s ↔ (p.decode q s).isSome = true := by
  rw [Option.isSome_iff_exists]
  constructor
  · rintro ⟨tx, hbody, herr, hslot, ⟨delta, hdelta, hpos⟩, t, htime, ht⟩
    exact ⟨⟨s.signature, tx.slot, t, delta⟩,
      decode_eq_some_iff.2 ⟨tx, hbody, herr, hslot, hdelta, hpos, htime, ht, rfl, rfl⟩⟩
  · rintro ⟨d, hd⟩
    obtain ⟨tx, hbody, herr, hslot, hdelta, hpos, htime, ht, -, -⟩ := decode_eq_some_iff.1 hd
    exact ⟨tx, hbody, herr, hslot, ⟨_, hdelta, hpos⟩, _, htime, ht⟩

theorem mem_tried {listed : List SignatureInfo} {s : SignatureInfo} (h : s ∈ p.tried q listed) :
    s ∈ listed := by
  have h := mem_sortBy.1 (List.mem_of_mem_take h)
  exact (List.mem_filter.1 h).1

/-! ### What the lookup returns -/

theorem make_eq_ok {r : DevFundingAgeResultParams} {made : DevFundingAgeResult}
    (h : DevFundingAgeResult.make r = .ok made) : made.toDevFundingAgeResultParams = r := by
  unfold DevFundingAgeResult.make at h
  split at h
  · rw [← Except.ok.inj h]
  · cases h

theorem make_of_valid {r : DevFundingAgeResultParams} (h : r.postInit = .ok ()) :
    DevFundingAgeResult.make r = .ok ⟨r, h⟩ := by
  unfold DevFundingAgeResult.make
  split
  · rfl
  · rename_i e he
    cases he.symm.trans h

/-- A refusal is not a first funding. -/
theorem status_of_refused {q : FundingQuery} {nowMs : ℕ} {r : DevFundingAgeResult}
    (h : DevFundingAgeResult.make (undecodable q nowMs) = .ok r) : r.status ≠ .found := by
  rw [make_eq_ok h]
  exact FundingAgeStatus.noConfusion

variable {nowMs : ℕ} {stats : DevFundingAgeStats}

/-- **A first funding is reported only from pages read to the end**, and is the first of the tried
that decodes. -/
theorem of_lookup_found {r : DevFundingAgeResult} (h : (p.lookup q nowMs stats).1 = .ok r)
    (hr : r.status = .found) :
    q.check = .ok () ∧ ∃ listed d,
      Reads p.transport q.wallet p.pageSize p.maxPages.toNat none listed ∧
        (p.tried q listed).findSome? (p.decode q) = some d ∧
        r.toDevFundingAgeResultParams = found q nowMs d := by
  unfold lookup at h
  split at h
  · cases h
  · rename_i hcheck
    refine ⟨hcheck, ?_⟩
    dsimp only at h
    split at h
    · exact absurd hr (status_of_refused h)
    · exact absurd hr (status_of_refused h)
    · rename_i candidates hpages
      obtain ⟨listed, hreads, rfl⟩ := reads_of_pages hpages
      split at h
      · exact absurd hr (status_of_refused h)
      · split at h
        · rename_i d hd
          rw [decodeOldest_eq, List.nil_append] at hd
          exact ⟨listed, d, hreads, hd, make_eq_ok h⟩
        · exact absurd hr (status_of_refused h)

variable (nowMs stats) in
/-- Where the pages end and a candidate decodes, that is the result. -/
theorem lookup_of_decodes {listed : List SignatureInfo} {d : Decoded} (hcheck : q.check = .ok ())
    (hreads : Reads p.transport q.wallet p.pageSize p.maxPages.toNat none listed)
    (hd : (p.tried q listed).findSome? (p.decode q) = some d) :
    (p.lookup q nowMs stats).1 = DevFundingAgeResult.make (found q nowMs d) := by
  have hpages := pages_of_reads hreads []
  rw [List.nil_append] at hpages
  have hne : listed.filter (·.qualifies q.deployEventSlot) ≠ [] := by
    intro hnil
    rw [tried, hnil, sortBy] at hd
    simp at hd
  rw [tried, ← decodeOldest_eq] at hd
  unfold lookup
  rw [hcheck]
  dsimp only
  rw [hpages]
  dsimp only
  rw [if_neg hne, hd]

variable (nowMs) in
/-- What is reported passes the checks of the result. -/
theorem found_valid {d : Decoded} (hcheck : q.check = .ok ()) (hsignature : d.signature ≠ "")
    (hslot : 0 ≤ d.slot) (hdeploy : d.slot ≤ q.deployEventSlot) (htime : 1 ≤ d.blockTimeMs)
    (hbefore : d.blockTimeMs ≤ q.deployBlockTimeMs) (hamount : 0 < d.amountLamports) :
    (found q nowMs d).postInit = .ok () := by
  unfold FundingQuery.check checkStr checkInt at hcheck
  obtain ⟨hwallet, hcheck⟩ := ok_of_require hcheck
  obtain ⟨hzero, hcheck⟩ := ok_of_require hcheck
  have hone := require_eq_ok.1 hcheck
  refine (checkStr_bind hwallet).trans ?_
  refine (checkInt_bind hzero).trans ?_
  refine (checkInt_bind hone).trans ?_
  refine (checkInt_bind (Int.natCast_nonneg nowMs)).trans ?_
  refine (checkInt_bind (le_max_left ..)).trans ?_
  refine (checkInt_bind hslot).trans ?_
  refine (checkInt_bind htime).trans ?_
  refine (checkStr_bind hsignature).trans ?_
  refine (checkInt_bind hamount).trans ?_
  refine (checkInt_bind (Int.sub_nonneg.2 hdeploy)).trans ?_
  refine (checkInt_bind (Int.sub_nonneg.2 hbefore)).trans ?_
  refine (require_bind hdeploy).trans ?_
  refine (require_bind hbefore).trans ?_
  refine (require_bind rfl).trans ?_
  exact require_eq_ok.2 rfl

/-! ### Over a history -/

variable {H : WalletHistory}

/-- What the pages list is of the history. -/
theorem Reads.lists {T : SolanaHistoryTransport ε} {wallet : String} {pageSize : ℤ} {n : ℕ}
    {cursor : Option String} {listed : List SignatureInfo} (serves : Serves T wallet H)
    (h : Reads T wallet pageSize n cursor listed) : ∀ s ∈ listed, ∃ e ∈ H.landed, s.Lists e := by
  induction h with
  | last answer short => exact serves.lists _ _ _ answer
  | more answer full hlast next ih =>
      intro s hs
      rcases List.mem_append.1 hs with hs | hs
      · exact serves.lists _ _ _ answer s hs
      · exact ih s hs

/-- What a listed candidate decodes to is of its transaction. -/
theorem decode_of_lists {s : SignatureInfo} {d : Decoded} {e : Landed}
    (serves : Serves p.transport q.wallet H) (he : e ∈ H.landed) (hs : s.Lists e)
    (hd : p.decode q s = some d) :
    d.slot = s.slot ∧ 0 ≤ d.slot ∧ d.slot ≤ q.deployEventSlot ∧ d.signature ≠ "" ∧
      1 ≤ d.blockTimeMs ∧ d.blockTimeMs ≤ q.deployBlockTimeMs ∧ 0 < d.amountLamports := by
  obtain ⟨tx, hbody, -, hslot, -, hpos, htime, hbefore, hsignature, hdslot⟩ :=
    decode_eq_some_iff.1 hd
  obtain ⟨hsig, hsslot, -, hlisted⟩ := hs
  rw [hsig] at hbody hsignature
  have htells := serves.tells e he tx hbody
  have hslot' : tx.slot = e.tx.slot := by
    rcases htells with rfl | rfl
    · rfl
    · rfl
  -- the body has the time of the transaction or leaves it to the listing
  have hone : 1 ≤ d.blockTimeMs := by
    apply H.time_pos e he
    rcases Option.or_eq_some_iff.1 htime with htime | ⟨-, htime⟩
    · rcases htells with rfl | rfl
      · exact htime
      · cases htime
    · rcases hlisted with hlisted | hlisted
      · rw [← hlisted]
        exact htime
      · rw [hlisted] at htime
        cases htime
  have hnonneg := H.slot_nonneg e he
  have hne := H.signature_ne e he
  rw [hsignature]
  exact ⟨by omega, by omega, by omega, hne, hone, hbefore, hpos⟩

/-- No funding of the wallet is older than the first funding that is reported. -/
def FoundIsFirst (p : RpcFundingHistoryProvider ε) (q : FundingQuery) (nowMs : ℕ)
    (stats : DevFundingAgeStats) (H : WalletHistory) : Prop :=
  ∀ r, (p.lookup q nowMs stats).1 = .ok r → r.status = .found →
    ∀ slot ∈ r.firstFundingSlot, ∀ e ∈ H.landed, e.Funds q.wallet → ¬ e.tx.slot < slot

/-- If any of the tried confirms, so does one that no funding of the wallet is older than. -/
def EarliestConfirms (p : RpcFundingHistoryProvider ε) (q : FundingQuery) (H : WalletHistory) :
    Prop :=
  ∀ listed, Reads p.transport q.wallet p.pageSize p.maxPages.toNat none listed →
    (∃ s ∈ p.tried q listed, p.Confirms q s) →
      ∃ s ∈ p.tried q listed, p.Confirms q s ∧
        ∀ e ∈ H.landed, e.Funds q.wallet → s.slot ≤ e.tx.slot

/-- **What is reported as the first funding is the first one** exactly where the earliest one
confirms, or no other does.  The transport may fail and leave out what it likes, as long as what it
returns is of the history. -/
theorem found_is_first_iff (p : RpcFundingHistoryProvider ε) (q : FundingQuery) (nowMs : ℕ)
    (stats : DevFundingAgeStats) (H : WalletHistory) (hserves : Serves p.transport q.wallet H) :
    p.FoundIsFirst q nowMs stats H ↔ (q.check = .ok () → p.EarliestConfirms q H) := by
  -- the tried ascend, so the first that decodes is at the least slot of those that confirm
  have hsorted : ∀ listed, (p.tried q listed).Pairwise fun s s' => s.slot ≤ s'.slot :=
    fun listed => (pairwise_sortBy _ _).take
  constructor
  · intro hfirst hcheck listed hreads hconfirms
    obtain ⟨s, hs, hsc⟩ := hconfirms
    obtain ⟨d, hd⟩ : ∃ d, (p.tried q listed).findSome? (p.decode q) = some d :=
      Option.isSome_iff_exists.1 (List.findSome?_isSome_iff.2 ⟨s, hs, confirms_iff.1 hsc⟩)
    obtain ⟨s', hs', hsd, -⟩ := least_of_findSome? (hsorted listed) hd
    obtain ⟨e, he, hlists⟩ := Reads.lists hserves hreads s' (mem_tried hs')
    obtain ⟨hslot, hnonneg, hdeploy, hsignature, hone, hbefore, hamount⟩ :=
      decode_of_lists hserves he hlists hsd
    have hvalid := found_valid nowMs hcheck hsignature hnonneg hdeploy hone hbefore hamount
    have hr := (lookup_of_decodes nowMs stats hcheck hreads hd).trans
      (make_of_valid hvalid)
    refine ⟨s', hs', confirms_iff.2 (by rw [hsd]; rfl), fun e' he' hfunds => ?_⟩
    have hle := hfirst _ hr rfl d.slot rfl e' he' hfunds
    omega
  · intro hearliest r hr hfound slot hslot e he hfunds
    obtain ⟨hcheck, listed, d, hreads, hd, hparams⟩ := of_lookup_found hr hfound
    obtain ⟨s, hs, hsd, hleast⟩ := least_of_findSome? (hsorted listed) hd
    obtain ⟨s', hs', hconfirms, hearly⟩ := hearliest hcheck listed hreads
      ⟨s, hs, confirms_iff.2 (by rw [hsd]; rfl)⟩
    obtain ⟨e₀, he₀, hlists⟩ := Reads.lists hserves hreads s (mem_tried hs)
    have hdslot := (decode_of_lists hserves he₀ hlists hsd).1
    have hss' := hleast s' hs' (confirms_iff.1 hconfirms)
    have hs'e := hearly e he hfunds
    rw [hparams] at hslot
    have hslot : d.slot = slot := Option.some.inj hslot
    omega

end RpcFundingHistoryProvider

/-! ### A top-up -/

/-- A transfer to the wallet that landed in a slot. -/
def transferAt (signature : String) (slot : ℤ) : Landed where
  signature := signature
  tx :=
    { slot := slot
      blockTimeMs := some (1000 * slot)
      err := none
      accountKeys := ["payer", "wallet"]
      preBalancesLamports := [500, 0]
      postBalancesLamports := [400, 100] }

/-- A wallet that was funded and topped up. -/
def toppedUp : WalletHistory where
  landed := [transferAt "top-up" 200, transferAt "funding" 100]
  signature_ne := by decide
  slot_nonneg := by decide
  time_pos := by decide

/-- The history behind a provider with its defaults; some fetches raise. -/
def toppedUpProvider (raiseOnTransaction : List String) : RpcFundingHistoryProvider String where
  transport := StaticSolanaHistoryTransport.transport
    { byWallet := fun _ =>
        toppedUp.landed.map fun e => ⟨e.signature, e.tx.slot, e.tx.blockTimeMs, e.tx.err⟩
      transactions := fun signature =>
        (toppedUp.landed.find? fun e => e.signature = signature).map (·.tx)
      raiseOnTransaction := raiseOnTransaction }
  valid := rfl

/-- The deploy after both. -/
def deployAfter : FundingQuery := ⟨"wallet", 300, 300000⟩

/-- The provider answers with what landed. -/
theorem toppedUp_serves (raiseOnTransaction : List String) :
    Serves (toppedUpProvider raiseOnTransaction).transport "wallet" toppedUp where
  lists := by
    intro cursor limit page hpage s hs
    have hlisted : s ∈ (toppedUp.landed.map fun e =>
        (⟨e.signature, e.tx.slot, e.tx.blockTimeMs, e.tx.err⟩ : SignatureInfo)) := by
      obtain rfl := Except.ok.inj hpage
      have hs := List.mem_of_mem_take hs
      cases cursor with
      | none => exact hs
      | some before =>
          dsimp only at hs
          split at hs
          · exact List.mem_of_mem_drop hs
          · cases hs
    obtain ⟨e, he, rfl⟩ := List.mem_map.1 hlisted
    exact ⟨e, he, rfl, rfl, rfl, .inl rfl⟩
  tells := by
    intro e he tx hbody
    have hfind : (toppedUp.landed.find? fun e' => e'.signature = e.signature) = some e := by
      rcases List.mem_cons.1 he with rfl | he
      · rfl
      · rw [List.mem_singleton.1 he]
        rfl
    simp only [toppedUpProvider, StaticSolanaHistoryTransport.transport, hfind] at hbody
    split at hbody
    · cases hbody
    · exact .inl (Option.some.inj (Except.ok.inj hbody)).symm

namespace RpcFundingHistoryProvider

/-- Where both fetches succeed the first funding is the first one. -/
theorem found_is_first_when_fetched :
    (toppedUpProvider []).FoundIsFirst deployAfter 400000 {} toppedUp := by
  refine (found_is_first_iff (toppedUpProvider []) deployAfter 400000 {} toppedUp
    (toppedUp_serves [])).2 fun _ listed hreads _ => ?_
  cases hreads with
  | last answer short =>
      obtain rfl := Except.ok.inj answer
      refine ⟨⟨"funding", 100, some 100000, none⟩, by decide, ?_, ?_⟩
      · exact confirms_iff.2 (by decide)
      · intro e he _
        rcases List.mem_cons.1 he with rfl | he
        · decide
        · rw [List.mem_singleton.1 he]
          decide
  | more answer full hlast next =>
      obtain rfl := Except.ok.inj answer
      exact absurd full (by decide)

/-- The fetch of the funding raises, and the top-up is reported as the first funding. -/
theorem top_up_is_found :
    Serves (toppedUpProvider ["funding"]).transport "wallet" toppedUp ∧
      ¬ (toppedUpProvider ["funding"]).FoundIsFirst deployAfter 400000 {} toppedUp := by
  refine ⟨toppedUp_serves _, fun hfirst => ?_⟩
  have hreads : Reads (toppedUpProvider ["funding"]).transport "wallet" 1000 10 none
      [⟨"top-up", 200, some 200000, none⟩, ⟨"funding", 100, some 100000, none⟩] :=
    .last rfl (by decide)
  have hr := (lookup_of_decodes 400000 {} (p := toppedUpProvider ["funding"]) (q := deployAfter)
    (d := ⟨"top-up", 200, 200000, 100⟩) rfl hreads (by decide)).trans (make_of_valid rfl)
  have hfunding : transferAt "funding" 100 ∈ toppedUp.landed := List.mem_cons_of_mem _ (.head _)
  exact hfirst _ hr rfl 200 rfl _ hfunding ⟨rfl, 100, rfl, by decide⟩ (by decide)

end RpcFundingHistoryProvider

end Ingestion
end AatsSniper

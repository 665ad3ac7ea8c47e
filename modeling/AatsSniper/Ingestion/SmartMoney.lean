/-
# The smart-money wallet stream

`GeyserSmartWalletBackend`, `SmartWalletDecoder`, `SmartWalletStream` and
`count_smart_wallets_in` of `aats/ingestion/smart_money.py`: token-account writes become
balance deltas against a remembered amount of each (wallet, mint), and these become
events, one for each (wallet, mint, slot) the stream still remembers.

`SmartMoneyFeed.pull` is one turn of the two `async for` loops, with the clock and the block-time
resolver as they answer in that turn.  `pull_yields` says what a turn does.

Left out: the log lines, the type checks of amounts that are integers here, and the owning
program of an account, which the backend does not read.
-/

import AatsSniper.Lib.Seen
import AatsSniper.Lib.Table
import AatsSniper.Ingestion.Base58
import Mathlib.Data.Int.ConditionallyCompleteOrder

namespace AatsSniper
namespace Ingestion

/-- `MAX_TRACKED_WALLETS`. -/
def maxTrackedWallets : ℕ := 20

/-- `SPL_TOKEN_ACCOUNT_MIN_LEN`. -/
def splTokenAccountMinLen : ℕ := 72

/-- `SmartWalletConfig`. -/
structure SmartWalletConfig where
  enabled : Bool
  walletAddresses : List String
  firstKSlots : ℤ
  capped : walletAddresses.length ≤ maxTrackedWallets

/-- `__post_init__` of a `SmartWalletConfig`: the wallets past the 20th are dropped. -/
def SmartWalletConfig.postInit (enabled : Bool) (walletAddresses : List String)
    (firstKSlots : ℤ) : SmartWalletConfig :=
  ⟨enabled, walletAddresses.take maxTrackedWallets, firstKSlots, List.length_take_le ..⟩

/-- `RawAccountUpdate`. -/
structure RawAccountUpdate where
  pubkey : String
  slot : ℤ
  lamports : ℤ
  data : Bytes
  writeVersion : ℤ
  isStartup : Bool
  deriving DecidableEq

/-- `RawWalletUpdate`. -/
structure RawWalletUpdate where
  wallet : String
  mint : String
  fillSlot : ℤ
  fillBlockTimeMs : Option ℤ
  observationSlot : ℤ
  observationWallMs : ℤ
  isBuy : Bool
  solDeltaLamports : ℤ
  tokenDeltaBase : ℤ
  source : String

/-- The fields of a `SmartMoneyEvent`. -/
structure SmartMoneyFields where
  wallet : String
  mint : String
  theirFillSlot : ℤ
  ourEventSlot : ℤ
  entryLagSlots : ℤ
  theirFillBlockTimeMs : ℤ
  ourObservationMs : ℤ
  observationLagMs : ℤ
  isBuy : Bool
  solAmountLamports : ℤ
  tokenAmountBase : ℤ
  dataStalenessMs : ℤ
  source : String

/-- `SmartMoneyEvent`: what its `__post_init__` lets pass. -/
structure SmartMoneyEvent extends SmartMoneyFields where
  behind : theirFillSlot ≤ ourEventSlot
  lag : entryLagSlots = ourEventSlot - theirFillSlot
  observed : 0 ≤ observationLagMs
  sol_nonneg : 0 ≤ solAmountLamports
  token_nonneg : 0 ≤ tokenAmountBase

/-- `__post_init__` of a `SmartMoneyEvent`. -/
def SmartMoneyEvent.postInit (e : SmartMoneyFields) : Except String SmartMoneyEvent :=
  if behind : e.theirFillSlot ≤ e.ourEventSlot then
    if lag : e.entryLagSlots = e.ourEventSlot - e.theirFillSlot then
      if observed : 0 ≤ e.observationLagMs then
        if sol : 0 ≤ e.solAmountLamports then
          if token : 0 ≤ e.tokenAmountBase then .ok ⟨e, behind, lag, observed, sol, token⟩
          else .error s!"SmartMoneyEvent: token_amount_base must be >= 0, got {e.tokenAmountBase}"
        else .error s!"SmartMoneyEvent: sol_amount_lamports must be >= 0, got {e.solAmountLamports}"
      else
        .error (s!"SmartMoneyEvent invariant violated: " ++
          s!"observation_lag_ms={e.observationLagMs} < 0.")
    else
      .error (s!"SmartMoneyEvent invariant violated: entry_lag_slots={e.entryLagSlots} != " ++
        s!"our_event_slot - their_fill_slot = {e.ourEventSlot - e.theirFillSlot}.")
  else
    .error (s!"SmartMoneyEvent invariant violated: our_event_slot={e.ourEventSlot} < " ++
      s!"their_fill_slot={e.theirFillSlot}. We are behind their fill, always.")

/-- `BlockTimeResolver`: an answer, no answer, or an exception. -/
abbrev BlockTimeResolver := ℤ → Except String (Option ℤ)

/-- `_decode_spl_token_account(data)`: the mint, the owner and the amount. -/
def decodeSplTokenAccount (data : Bytes) : Option (String × String × ℕ) :=
  if data.length < splTokenAccountMinLen then none
  else
    let mint := bytesToBase58 (data.slice 0 32)
    let owner := bytesToBase58 (data.slice 32 64)
    let amount := Bytes.leNat (data.slice 64 72)
    some (mint, owner, amount)

/-- `GeyserSmartWalletBackend`: the amount remembered of a (wallet, mint), and the lamports of a
wallet. -/
structure GeyserSmartWalletBackend where
  tokenBaseline : Table (Prod.fst : (String × String) × ℕ → String × String) := Table.empty
  nativeBaseline : Table (Prod.fst : String × ℤ → String) := Table.empty

/-- What the resolver makes of a slot, an exception being no answer. -/
def fillBlockTime (resolver : Option BlockTimeResolver) (slot : ℤ) : Option ℤ :=
  match resolver with
  | none => none
  | some resolve =>
      match resolve slot with
      | .ok time => time
      | .error _ => none

/-- `_to_wallet_update(acc, wallet_addresses)`. -/
def GeyserSmartWalletBackend.toWalletUpdate (backend : GeyserSmartWalletBackend)
    (resolver : Option BlockTimeResolver) (nowMs : ℤ) (acc : RawAccountUpdate)
    (walletAddresses : List String) : Option RawWalletUpdate × GeyserSmartWalletBackend :=
  if acc.pubkey ∈ walletAddresses then
    let seeded := backend.nativeBaseline.upsert (acc.pubkey, acc.lamports)
    (none, { backend with nativeBaseline := seeded })
  else
    match decodeSplTokenAccount acc.data with
    | none => (none, backend)
    | some (mint, owner, amount) =>
        if owner ∉ walletAddresses then (none, backend)
        else
          let key := (owner, mint)
          let priorAmount := backend.tokenBaseline.get? key
          let backend := { backend with
            tokenBaseline := backend.tokenBaseline.upsert (key, amount) }
          match priorAmount with
          | none => (none, backend)
          | some (_, prior) =>
              if acc.isStartup then (none, backend)
              else
                let delta := (amount : ℤ) - prior
                if delta = 0 then (none, backend)
                else
                  (some { wallet := owner
                          mint := mint
                          fillSlot := acc.slot
                          fillBlockTimeMs := fillBlockTime resolver acc.slot
                          observationSlot := acc.slot
                          observationWallMs := nowMs
                          isBuy := decide (0 < delta)
                          solDeltaLamports := 0
                          tokenDeltaBase := |delta|
                          source := "accounts_subscribe" }, backend)

/-- `SmartWalletDecoder.decode(update)`: no event before its block time is known. -/
def RawWalletUpdate.decode (update : RawWalletUpdate) :
    Except String (Option SmartMoneyEvent) :=
  match update.fillBlockTimeMs with
  | none => .ok none
  | some theirFillMs =>
      if theirFillMs ≤ 0 then .ok none
      else
        let observationLagMs := max 0 (update.observationWallMs - theirFillMs)
        (SmartMoneyEvent.postInit
          { wallet := update.wallet
            mint := update.mint
            theirFillSlot := update.fillSlot
            ourEventSlot := update.observationSlot
            entryLagSlots := max 0 (update.observationSlot - update.fillSlot)
            theirFillBlockTimeMs := theirFillMs
            ourObservationMs := update.observationWallMs
            observationLagMs := observationLagMs
            isBuy := update.isBuy
            solAmountLamports := update.solDeltaLamports
            tokenAmountBase := update.tokenDeltaBase
            dataStalenessMs := observationLagMs
            source := update.source }).map some

/-- `SmartWalletStreamStats`. -/
structure SmartWalletStreamStats where
  eventsDecoded : ℕ := 0
  eventsSkipped : ℕ := 0
  decodeErrors : ℕ := 0
  lastEventTimeMs : ℤ := 0
  lastSlot : ℤ := 0

/-- `(wallet, mint, fill_slot)`. -/
abbrev FillKey := String × String × ℤ

/-- `_seen_capacity`, and which key `next(iter(self._seen))` is. -/
def seenFills (first : List FillKey → FillKey) : SeenPolicy FillKey := ⟨50000, first⟩

/-- `SmartWalletStream`. -/
structure SmartWalletStream where
  stats : SmartWalletStreamStats := {}
  seen : List FillKey := []

/-- One turn of `SmartWalletStream.subscribe`, and what it yields. -/
def SmartWalletStream.handle (first : List FillKey → FillKey) (stream : SmartWalletStream)
    (update : RawWalletUpdate) : Option SmartMoneyEvent × SmartWalletStream :=
  let dedupKey := (update.wallet, update.mint, update.fillSlot)
  if dedupKey ∈ stream.seen then (none, stream)
  else
    match update.decode with
    | .error _ =>
        let stats := { stream.stats with decodeErrors := stream.stats.decodeErrors + 1 }
        (none, { stream with stats := stats })
    | .ok none =>
        let stats := { stream.stats with eventsSkipped := stream.stats.eventsSkipped + 1 }
        (none, { stream with stats := stats })
    | .ok (some ev) =>
        let stats := { stream.stats with
          eventsDecoded := stream.stats.eventsDecoded + 1
          lastEventTimeMs := ev.theirFillBlockTimeMs
          lastSlot := ev.ourEventSlot }
        (some ev, { stats := stats, seen := (seenFills first).see stream.seen dedupKey })

/-- The stream does not return at once: it is enabled, and there is a wallet to track. -/
def SmartWalletConfig.subscribes (config : SmartWalletConfig) : Bool :=
  config.enabled && decide (config.walletAddresses ≠ [])

/-- A stream and its backend. -/
structure SmartMoneyFeed where
  backend : GeyserSmartWalletBackend := {}
  stream : SmartWalletStream := {}

/-- One account write through the backend and the stream. -/
def SmartMoneyFeed.pull (config : SmartWalletConfig) (first : List FillKey → FillKey)
    (feed : SmartMoneyFeed) (resolver : Option BlockTimeResolver) (nowMs : ℤ)
    (acc : RawAccountUpdate) : Option SmartMoneyEvent × SmartMoneyFeed :=
  if config.subscribes then
    match feed.backend.toWalletUpdate resolver nowMs acc config.walletAddresses with
    | (none, backend) => (none, { feed with backend := backend })
    | (some update, backend) =>
        let (event, stream) := feed.stream.handle first update
        (event, ⟨backend, stream⟩)
  else (none, feed)

/-- `count_smart_wallets_in(events, mint, launch_slot, first_k_slots)`. -/
def countSmartWalletsIn (events : List SmartMoneyEvent) (mint : String)
    (launchSlot firstKSlots : ℤ) : ℕ :=
  let entries := events.filter fun ev => decide (ev.mint = mint ∧ ev.isBuy = true ∧
    launchSlot ≤ ev.theirFillSlot ∧ ev.theirFillSlot ≤ launchSlot + firstKSlots)
  (entries.map (·.wallet)).dedup.length

end Ingestion
end AatsSniper

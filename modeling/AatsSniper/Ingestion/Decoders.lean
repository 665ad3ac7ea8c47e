/-
# The venue decoders and their router

`PumpFunDecoder`, `PumpSwapDecoder`, `RaydiumV4Decoder`, `RaydiumCpmmDecoder` and
`InstructionRouter` of `aats/ingestion/decoders.py`.

A decoder tries its readings of an instruction in turn, each over all instructions of its
program, and the router takes the first event of the first decoder that has one.  A reading
says everything of the event but its time (`Draft`), which is the transaction's.

`deciding` is the instruction the router comes to, with the reading that takes it;
`route_eq` says that the event is made from it.  The monitoring fields (the wall clock and
the staleness) are left out, and so is how a create's metadata is reduced to a template.
-/

import AatsSniper.Ingestion.ShadowRecorder
import AatsSniper.Lib.Base64
import AatsSniper.Lib.Sha256

namespace AatsSniper
namespace Ingestion

/-- `DetectionTransport`. -/
inductive DetectionTransport
  | geyser
  | shredstream
  deriving DecidableEq

/-- `LaunchSource`. -/
inductive LaunchSource
  | pumpfun
  | pumpswap
  | raydiumV4
  | raydiumCpmm
  | migration
  deriving DecidableEq

/-- `RawInstruction`. -/
structure RawInstruction where
  programId : String
  dataB64 : String
  accountKeys : List String
  deriving DecidableEq

/-- `RawTransaction`. -/
structure RawTransaction where
  slot : ℕ
  blockTimeUnixS : Option ℤ
  feePayer : String
  instructions : List RawInstruction
  innerInstructions : List RawInstruction
  isVote : Bool := false
  err : Option String := none

/-- The fields of `LaunchEvent` beside its mint and its time. -/
structure LaunchRow where
  venueProgramId : String
  source : LaunchSource
  observationSlot : ℕ
  confirmationSlot : ℕ
  detectionTransport : DetectionTransport
  solReserveLamports : ℕ
  tokenReserveBase : ℕ
  tokenDecimals : ℕ
  initialHolders : ℕ := 0
  competitors : ℕ := 0
  creatorWallet : String
  bundlerClusterId : Option String := none
  deployTemplateFingerprint : Option String

/-- `ProgramRegistry.program_id(venue)`, where it has one. -/
abbrev ProgramRegistry := LaunchSource → Option String

/-- `active_program_ids()`. -/
def ProgramRegistry.activeProgramIds (registry : ProgramRegistry) : List String :=
  [LaunchSource.pumpfun, .pumpswap, .raydiumV4, .raydiumCpmm, .migration].filterMap registry

/-- `_disc(name)`. -/
def disc (name : String) : Bytes := (Sha256.digest ("global:" ++ name).toUTF8.toList).take 8

/-- `_safe_get_account(accounts, idx)`. -/
def safeGetAccount (accounts : List String) (idx : ℕ) : Option String := accounts[idx]?

/-- `x or y`, of a text that may not be there. -/
def textOr (x : Option String) (y : String) : String :=
  match x with
  | none => y
  | some x => if x = "" then y else x

/-- `struct.unpack_from("<Q", data, offset)[0]`. -/
def u64At (data : Bytes) (offset : ℕ) : ℕ := Bytes.leNat (Bytes.slice data offset (offset + 8))

/-- `_b64_decode(ix.data_b64)`, where it does not raise. -/
def RawInstruction.data (ix : RawInstruction) : Option Bytes :=
  (Base64.b64decodeLax (codePoints ix.dataB64)).toOption

/-- The two amounts after an eight-byte discriminator. -/
def anchorAmounts (discriminator : Bytes) (ix : RawInstruction) : Option (ℕ × ℕ) :=
  ix.data.bind fun data =>
    if data.length < 8 ∨ data.take 8 ≠ discriminator then none
    else if data.length < 24 then none
    else some (u64At data 8, u64At data 16)

/-- Hexadecimal digits. -/
def hexDigit (n : ℕ) : Char := "0123456789abcdef".toList.getD n '0'

/-- `hashlib.sha256(raw.encode()).hexdigest()[:16]`. -/
def shortDigest (raw : String) : String :=
  String.ofList (((Sha256.digest raw.toUTF8.toList).flatMap fun b =>
    [hexDigit (b.toNat / 16), hexDigit (b.toNat % 16)]).take 16)

/-- `_fingerprint_by_creator_mint(creator, mint)`. -/
def fingerprintByCreatorMint (creator mint : String) : String :=
  shortDigest (creator ++ ":" ++ String.ofList (mint.toList.take 8))

/-- What a reading says of the event. -/
structure Draft where
  mint : String
  source : LaunchSource
  solReserveLamports : ℕ
  tokenReserveBase : ℕ
  tokenDecimals : ℕ
  creatorWallet : String
  deployTemplateFingerprint : Option String

/-- A reading of an instruction. -/
abbrev InstructionReading := RawTransaction → RawInstruction → Option Draft

/-- The fingerprint of a create's metadata, from the inner instructions and the metadata program. -/
abbrev TemplateFingerprint := List RawInstruction → Option String → Option String

namespace PumpFunDecoder

/-- `_try_withdraw`. -/
def tryWithdraw : InstructionReading := fun tx ix =>
  ix.data.bind fun data =>
    if data.length < 8 ∨ data.take 8 ≠ disc "withdraw" then none
    else (safeGetAccount ix.accountKeys 2).map fun mint =>
      { mint
        source := .migration
        solReserveLamports := 0
        tokenReserveBase := 0
        tokenDecimals := 6
        creatorWallet := tx.feePayer
        deployTemplateFingerprint := some (fingerprintByCreatorMint tx.feePayer mint) }

/-- `_try_create`. -/
def tryCreate (templateFingerprint : TemplateFingerprint) : InstructionReading := fun tx ix =>
  ix.data.bind fun data =>
    if data.length < 8 ∨ data.take 8 ≠ disc "create" then none
    else match safeGetAccount ix.accountKeys 1, safeGetAccount ix.accountKeys 0 with
      | some mint, some creator => some
          { mint
            source := .pumpfun
            solReserveLamports := 0
            tokenReserveBase := 0
            tokenDecimals := 6
            creatorWallet := creator
            deployTemplateFingerprint :=
              templateFingerprint tx.innerInstructions (safeGetAccount ix.accountKeys 5) }
      | _, _ => none

/-- `_try_buy` and `_try_sell`: the token amount, then the SOL bound. -/
def tryTrade (name : String) : InstructionReading := fun _ ix =>
  (anchorAmounts (disc name) ix).bind fun amounts =>
    (safeGetAccount ix.accountKeys 2).map fun mint =>
      { mint
        source := .pumpfun
        solReserveLamports := amounts.2
        tokenReserveBase := amounts.1
        tokenDecimals := 6
        creatorWallet := textOr (safeGetAccount ix.accountKeys 6) ""
        deployTemplateFingerprint := none }

/-- `_try_buy`. -/
def tryBuy : InstructionReading := tryTrade "buy"

/-- `_try_sell`. -/
def trySell : InstructionReading := tryTrade "sell"

end PumpFunDecoder

namespace PumpSwapDecoder

/-- `_try_create_pool`. -/
def tryCreatePool : InstructionReading := fun tx ix =>
  (anchorAmounts (disc "create_pool") ix).bind fun (baseAmount, quoteAmount) =>
    let creator := textOr (safeGetAccount ix.accountKeys 1) tx.feePayer
    (safeGetAccount ix.accountKeys 3).map fun baseMint =>
      { mint := baseMint
        source := .pumpswap
        solReserveLamports := quoteAmount
        tokenReserveBase := baseAmount
        tokenDecimals := 6
        creatorWallet := creator
        deployTemplateFingerprint := some (fingerprintByCreatorMint creator baseMint) }

/-- `_try_swap`. -/
def trySwap : InstructionReading := fun tx ix =>
  ((anchorAmounts (disc "buy") ix).or (anchorAmounts (disc "sell") ix)).bind
    fun (baseAmount, quoteAmount) =>
      (safeGetAccount ix.accountKeys 2).map fun baseMint =>
        { mint := baseMint
          source := .pumpswap
          solReserveLamports := quoteAmount
          tokenReserveBase := baseAmount
          tokenDecimals := 6
          creatorWallet := textOr (safeGetAccount ix.accountKeys 1) tx.feePayer
          deployTemplateFingerprint := none }

end PumpSwapDecoder

/-- `SOL_MINT`. -/
def solMint : String := "So11111111111111111111111111111111111111112"

namespace RaydiumV4Decoder

/-- `_try_init2`. -/
def tryInit2 : InstructionReading := fun tx ix =>
  ix.data.bind fun data =>
    if data.length < 1 ∨ data.take 1 ≠ [1] then none
    else
      let coinMint := safeGetAccount ix.accountKeys 8
      let pcMint := safeGetAccount ix.accountKeys 9
      let creator := tx.feePayer
      coinMint.map fun coin =>
        let mint := if coin = solMint then pcMint else some coin
        let (solLamports, tokenBase) :=
          if 26 ≤ data.length then
            let initPcAmount := u64At data 10
            let initCoinAmount := u64At data 18
            if coin = solMint then (initCoinAmount, initPcAmount)
            else (initPcAmount, initCoinAmount)
          else (0, 0)
        { mint := textOr mint coin
          source := .raydiumV4
          solReserveLamports := solLamports
          tokenReserveBase := tokenBase
          tokenDecimals := 9
          creatorWallet := creator
          deployTemplateFingerprint := some (fingerprintByCreatorMint creator (textOr mint coin)) }

/-- `_try_swap`. -/
def trySwap : InstructionReading := fun tx ix =>
  ix.data.bind fun data =>
    if data.length < 1 ∨ (data.take 1 ≠ [9] ∧ data.take 1 ≠ [10]) then none
    else if data.length < 17 then none
    else some
      { mint := textOr (safeGetAccount ix.accountKeys 1) ""
        source := .raydiumV4
        solReserveLamports := u64At data 1
        tokenReserveBase := u64At data 9
        tokenDecimals := 9
        creatorWallet := textOr (safeGetAccount ix.accountKeys 16) tx.feePayer
        deployTemplateFingerprint := none }

end RaydiumV4Decoder

namespace RaydiumCpmmDecoder

/-- `_try_initialize`. -/
def tryInitialize : InstructionReading := fun tx ix =>
  (anchorAmounts (disc "initialize") ix).bind fun (amount0, amount1) =>
    let token0 := safeGetAccount ix.accountKeys 4
    let token1 := safeGetAccount ix.accountKeys 5
    let creator := textOr (safeGetAccount ix.accountKeys 1) tx.feePayer
    let (mint, solLamports, tokenBase) :=
      if token0 = some solMint then (textOr token1 "", amount0, amount1)
      else (textOr token0 "", amount1, amount0)
    if mint = "" then none
    else some
      { mint
        source := .raydiumCpmm
        solReserveLamports := solLamports
        tokenReserveBase := tokenBase
        tokenDecimals := 9
        creatorWallet := creator
        deployTemplateFingerprint := some (fingerprintByCreatorMint creator mint) }

/-- `_try_swap`. -/
def trySwap : InstructionReading := fun tx ix =>
  ((anchorAmounts (disc "swap_base_input") ix).or
    (anchorAmounts (disc "swap_base_output") ix)).map fun (amountIn, minOut) =>
      let inputMint := safeGetAccount ix.accountKeys 10
      let outputMint := safeGetAccount ix.accountKeys 11
      let mint := if inputMint = some solMint then outputMint else inputMint
      { mint := mint.getD (textOr inputMint "")
        source := .raydiumCpmm
        solReserveLamports := amountIn
        tokenReserveBase := minOut
        tokenDecimals := 9
        creatorWallet := textOr (safeGetAccount ix.accountKeys 0) tx.feePayer
        deployTemplateFingerprint := none }

end RaydiumCpmmDecoder

/-- A decoder: its venue, and its readings in the order it tries them. -/
structure VenueDecoder where
  venue : LaunchSource
  readings : List (EventKind × InstructionReading)

/-- `_decoders`, in priority order. -/
def decoders (templateFingerprint : TemplateFingerprint) : List VenueDecoder :=
  [⟨.pumpfun, [(.withdraw, PumpFunDecoder.tryWithdraw),
      (.create, PumpFunDecoder.tryCreate templateFingerprint), (.buy, PumpFunDecoder.tryBuy),
      (.sell, PumpFunDecoder.trySell)]⟩,
    ⟨.pumpswap, [(.init, PumpSwapDecoder.tryCreatePool), (.swap, PumpSwapDecoder.trySwap)]⟩,
    ⟨.raydiumV4, [(.init, RaydiumV4Decoder.tryInit2), (.swap, RaydiumV4Decoder.trySwap)]⟩,
    ⟨.raydiumCpmm, [(.init, RaydiumCpmmDecoder.tryInitialize),
      (.swap, RaydiumCpmmDecoder.trySwap)]⟩]

/-- `_make_event_time(slot, block_time_unix_s)`: the block time in milliseconds. -/
def makeEventTime (blockTimeUnixS : Option ℤ) : Option ℕ :=
  match blockTimeUnixS with
  | none => none
  | some t => if t ≤ 0 then none else some (t.toNat * 1000)

/-- `LaunchEvent(...)` at the end of every reading. -/
def Draft.event (draft : Draft) (tx : RawTransaction) (programId : String)
    (transport : DetectionTransport) (blockTimeMs : ℕ) : LaunchEvent LaunchRow where
  mint := draft.mint
  slot := tx.slot
  blockTimeMs := blockTimeMs
  row :=
    { venueProgramId := programId
      source := draft.source
      observationSlot := tx.slot
      confirmationSlot := tx.slot
      detectionTransport := transport
      solReserveLamports := draft.solReserveLamports
      tokenReserveBase := draft.tokenReserveBase
      tokenDecimals := draft.tokenDecimals
      creatorWallet := draft.creatorWallet
      deployTemplateFingerprint := draft.deployTemplateFingerprint }

/-- The instructions of a program, outer before inner. -/
def RawTransaction.instructionsOf (tx : RawTransaction) (pid : String) : List RawInstruction :=
  (tx.instructions ++ tx.innerInstructions).filter fun ix => ix.programId = pid

/-- `decode(tx, transport)`. -/
def VenueDecoder.decode (registry : ProgramRegistry) (d : VenueDecoder) (tx : RawTransaction)
    (transport : DetectionTransport) : Option (LaunchEvent LaunchRow × EventKind) :=
  match registry d.venue with
  | none => none
  | some pid => d.readings.findSome? fun (kind, read) =>
      (tx.instructionsOf pid).findSome? fun ix =>
        (read tx ix).bind fun draft =>
          (makeEventTime tx.blockTimeUnixS).map fun blockTimeMs =>
            (draft.event tx pid transport blockTimeMs, kind)

/-- `InstructionRouter.route(tx, transport)`. -/
def route (registry : ProgramRegistry) (templateFingerprint : TemplateFingerprint)
    (tx : RawTransaction) (transport : DetectionTransport) :
    Option (LaunchEvent LaunchRow × EventKind) :=
  if tx.isVote = true ∨ tx.err.isSome = true then none
  else if ∀ ix ∈ tx.instructions ++ tx.innerInstructions,
      ix.programId ∉ registry.activeProgramIds then none
  else (decoders templateFingerprint).findSome? fun d => d.decode registry tx transport

/-- An instruction of a venue's program, and the reading that takes it. -/
structure Decision where
  venue : LaunchSource
  programId : String
  kind : EventKind
  ix : RawInstruction
  draft : Draft

/-- The first instruction that a decoder can read. -/
def VenueDecoder.decides (registry : ProgramRegistry) (d : VenueDecoder) (tx : RawTransaction) :
    Option Decision :=
  match registry d.venue with
  | none => none
  | some pid => d.readings.findSome? fun (kind, read) =>
      (tx.instructionsOf pid).findSome? fun ix =>
        (read tx ix).map fun draft => ⟨d.venue, pid, kind, ix, draft⟩

/-- The instruction the router comes to, where it looks at the transaction at all. -/
def deciding (registry : ProgramRegistry) (templateFingerprint : TemplateFingerprint)
    (tx : RawTransaction) : Option Decision :=
  if tx.isVote = true ∨ tx.err.isSome = true ∨ makeEventTime tx.blockTimeUnixS = none then none
  else (decoders templateFingerprint).findSome? fun d => d.decides registry tx

variable {registry : ProgramRegistry} {templateFingerprint : TemplateFingerprint}
  {tx : RawTransaction} {transport : DetectionTransport} {d : VenueDecoder} {c : Decision}

/-- The event of a decision. -/
def Decision.event (c : Decision) (tx : RawTransaction) (transport : DetectionTransport)
    (blockTimeMs : ℕ) : LaunchEvent LaunchRow × EventKind :=
  (c.draft.event tx c.programId transport blockTimeMs, c.kind)

/-- A decoder without a block time. -/
theorem decode_of_no_time (h : makeEventTime tx.blockTimeUnixS = none) :
    d.decode registry tx transport = none := by
  unfold VenueDecoder.decode
  cases registry d.venue with
  | none => rfl
  | some pid => simp [h]

/-- A decoder with one. -/
theorem decode_eq {blockTimeMs : ℕ} (h : makeEventTime tx.blockTimeUnixS = some blockTimeMs) :
    d.decode registry tx transport =
      (d.decides registry tx).map (·.event tx transport blockTimeMs) := by
  unfold VenueDecoder.decode VenueDecoder.decides
  cases registry d.venue with
  | none => rfl
  | some pid =>
      dsimp only
      rw [List.map_findSome?]
      refine congrArg (fun f => d.readings.findSome? f) (funext fun reading => ?_)
      dsimp only [Function.comp]
      rw [List.map_findSome?]
      refine congrArg (fun f => (tx.instructionsOf pid).findSome? f) (funext fun ix => ?_)
      dsimp only [Function.comp]
      rw [h]
      cases reading.2 tx ix with
      | none => rfl
      | some draft => rfl

/-- What a decision is: an instruction of the venue's program that one of its readings takes. -/
theorem decides_eq_some (h : d.decides registry tx = some c) :
    c.venue = d.venue ∧ registry d.venue = some c.programId ∧
      c.ix ∈ tx.instructionsOf c.programId ∧
        ∃ read, (c.kind, read) ∈ d.readings ∧ read tx c.ix = some c.draft := by
  unfold VenueDecoder.decides at h
  cases hpid : registry d.venue with
  | none => simp [hpid] at h
  | some pid =>
      rw [hpid] at h
      obtain ⟨⟨kind, read⟩, hreading, h⟩ := List.exists_of_findSome?_eq_some h
      obtain ⟨ix, hix, h⟩ := List.exists_of_findSome?_eq_some h
      obtain ⟨draft, hdraft, rfl⟩ := Option.map_eq_some_iff.1 h
      exact ⟨rfl, rfl, hix, read, hreading, hdraft⟩

theorem mem_activeProgramIds {venue : LaunchSource} {pid : String}
    (h : registry venue = some pid) : pid ∈ registry.activeProgramIds := by
  refine List.mem_filterMap.2 ⟨venue, ?_, h⟩
  cases venue <;> simp

/-- **The router makes the event of the instruction that decides.** -/
theorem route_eq (registry : ProgramRegistry) (templateFingerprint : TemplateFingerprint)
    (tx : RawTransaction) (transport : DetectionTransport) :
    route registry templateFingerprint tx transport =
      (deciding registry templateFingerprint tx).bind fun c =>
        (makeEventTime tx.blockTimeUnixS).map (c.event tx transport) := by
  unfold route deciding
  by_cases hskip : tx.isVote = true ∨ tx.err.isSome = true
  · rw [if_pos hskip, if_pos (hskip.imp_right .inl)]
    rfl
  rw [if_neg hskip]
  cases htime : makeEventTime tx.blockTimeUnixS with
  | none =>
      rw [List.findSome?_eq_none_iff.2 fun d _ => decode_of_no_time htime, ite_self]
      simp
  | some blockTimeMs =>
      have hlooks : ¬ (tx.isVote = true ∨ tx.err.isSome = true ∨ some blockTimeMs = none) := by
        simpa using hskip
      rw [if_neg hlooks]
      have hdecode : (fun d => VenueDecoder.decode registry d tx transport) =
          Option.map (·.event tx transport blockTimeMs) ∘ fun d => d.decides registry tx :=
        funext fun d => decode_eq htime
      rw [hdecode, ← List.map_findSome?]
      split_ifs with hpids
      · cases hdecides : (decoders templateFingerprint).findSome? fun d => d.decides registry tx with
        | none => rfl
        | some c =>
            obtain ⟨d, -, hd⟩ := List.exists_of_findSome?_eq_some hdecides
            obtain ⟨-, hpid, hix, -⟩ := decides_eq_some hd
            obtain ⟨hmem, hprogram⟩ := List.mem_filter.1 hix
            refine absurd (mem_activeProgramIds hpid) ?_
            rw [← of_decide_eq_true hprogram]
            exact hpids c.ix hmem
      · cases (decoders templateFingerprint).findSome? fun d => d.decides registry tx with
        | none => rfl
        | some c => rfl

end Ingestion
end AatsSniper

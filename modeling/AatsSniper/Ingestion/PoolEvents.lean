/-
# The sides of a new pool

What the pool-initialisation events of the router say of the pool they come from.  A pool
has two sides, each with its mint and the amount deposited there, at the places the layouts
of the three programs give them (`poolOf`).

PumpSwap's decoder takes the base for the token and the quote for SOL without a look at
either; the two Raydium decoders take the first side for SOL iff its mint is, and else the
second whatever it is.  So an event names the right side iff the pool's SOL is where the
decoder takes it to be: `SolSideTaken`.
-/

import AatsSniper.Ingestion.Decoders

namespace AatsSniper
namespace Ingestion

/-- A side of a pool, as far as the instruction says. -/
structure PoolSide where
  mint : Option String
  amount : Option ℕ
  deriving DecidableEq

/-- The two sides of a pool: base and quote, coin and pc, or token 0 and token 1. -/
structure Pool where
  first : PoolSide
  second : PoolSide
  deriving DecidableEq

/-- An amount of an instruction whose data has its length. -/
def amountAt (ix : RawInstruction) (length offset : ℕ) : Option ℕ :=
  ix.data.bind fun data => if length ≤ data.length then some (u64At data offset) else none

/-- The pool that an initialisation creates.  Raydium v4 deposits the pc amount first. -/
def poolOf : LaunchSource → RawInstruction → Pool
  | .pumpswap, ix =>
      ⟨⟨safeGetAccount ix.accountKeys 3, amountAt ix 24 8⟩,
        ⟨safeGetAccount ix.accountKeys 4, amountAt ix 24 16⟩⟩
  | .raydiumV4, ix =>
      ⟨⟨safeGetAccount ix.accountKeys 8, amountAt ix 26 18⟩,
        ⟨safeGetAccount ix.accountKeys 9, amountAt ix 26 10⟩⟩
  | .raydiumCpmm, ix =>
      ⟨⟨safeGetAccount ix.accountKeys 4, amountAt ix 24 8⟩,
        ⟨safeGetAccount ix.accountKeys 5, amountAt ix 24 16⟩⟩
  | .pumpfun, _ => ⟨⟨none, none⟩, ⟨none, none⟩⟩
  | .migration, _ => ⟨⟨none, none⟩, ⟨none, none⟩⟩

/-- A token that is no quote mint on one side, and this amount of SOL on the other. -/
def PairsWithSol (sol token : PoolSide) (mint : String) (lamports : ℕ) : Prop :=
  token.mint = some mint ∧ mint ∉ quoteMints ∧ sol.mint = some solMint ∧
    sol.amount = some lamports

/-- The event names the token of the pool and the amount on its SOL side. -/
def NamesSides (pool : Pool) (mint : String) (lamports : ℕ) : Prop :=
  PairsWithSol pool.second pool.first mint lamports ∨
    PairsWithSol pool.first pool.second mint lamports

/-- A pool-initialisation event names the sides of the pool it comes from. -/
def NamesRightSide (registry : ProgramRegistry) (templateFingerprint : TemplateFingerprint)
    (tx : RawTransaction) (transport : DetectionTransport) : Prop :=
  ∀ event, route registry templateFingerprint tx transport = some (event, .init) →
    ∃ c, deciding registry templateFingerprint tx = some c ∧
      NamesSides (poolOf c.venue c.ix) event.mint event.row.solReserveLamports

/-- The pool has a token that is no quote mint against SOL, with an amount that can be read; and
PumpSwap's has SOL for its quote. -/
def SolSideTaken (venue : LaunchSource) (pool : Pool) : Prop :=
  (∃ mint ∉ quoteMints, pool.first.mint = some mint ∧ pool.second.mint = some solMint ∧
      pool.second.amount.isSome = true) ∨
    venue ≠ .pumpswap ∧ ∃ mint ∉ quoteMints, mint ≠ "" ∧ pool.second.mint = some mint ∧
      pool.first.mint = some solMint ∧ pool.first.amount.isSome = true

variable {tx : RawTransaction} {ix : RawInstruction} {draft : Draft}

theorem solMint_mem_quoteMints : solMint ∈ quoteMints := by decide

/-- The two amounts are those of the sides. -/
theorem amountAt_of_anchorAmounts {discriminator : Bytes} {amounts : ℕ × ℕ}
    (h : anchorAmounts discriminator ix = some amounts) :
    amountAt ix 24 8 = some amounts.1 ∧ amountAt ix 24 16 = some amounts.2 := by
  unfold anchorAmounts at h
  obtain ⟨data, hdata, h⟩ := Option.bind_eq_some_iff.1 h
  split_ifs at h with hdisc hlength
  obtain rfl := Option.some.inj h
  unfold amountAt
  rw [hdata, Option.bind_some, Option.bind_some, if_pos (not_lt.1 hlength),
    if_pos (not_lt.1 hlength)]
  exact ⟨rfl, rfl⟩

/-- **PumpSwap** takes the base against the quote. -/
theorem namesSides_pumpswap_iff (h : PumpSwapDecoder.tryCreatePool tx ix = some draft) :
    NamesSides (poolOf .pumpswap ix) draft.mint draft.solReserveLamports ↔
      SolSideTaken .pumpswap (poolOf .pumpswap ix) := by
  unfold PumpSwapDecoder.tryCreatePool at h
  obtain ⟨amounts, hamounts, h⟩ := Option.bind_eq_some_iff.1 h
  obtain ⟨baseMint, hbase, rfl⟩ := Option.map_eq_some_iff.1 h
  obtain ⟨hfirst, hsecond⟩ := amountAt_of_anchorAmounts hamounts
  unfold NamesSides SolSideTaken PairsWithSol poolOf
  dsimp only
  rw [hbase, hfirst, hsecond]
  constructor
  · rintro (⟨-, hmint, hquote, -⟩ | ⟨-, hmint, hsol, -⟩)
    · exact .inl ⟨baseMint, hmint, rfl, hquote, rfl⟩
    · obtain rfl := Option.some.inj hsol
      exact absurd solMint_mem_quoteMints hmint
  · rintro (⟨mint, hmint, hbase, hquote, -⟩ | ⟨hvenue, -⟩)
    · obtain rfl := Option.some.inj hbase
      exact .inl ⟨rfl, hmint, hquote, rfl⟩
    · exact absurd rfl hvenue

/-- A reading that takes the first side for SOL iff its mint is. -/
theorem namesSides_of_first_iff {venue : LaunchSource} {pool : Pool} {mint : String}
    {lamports : ℕ} (hvenue : venue ≠ .pumpswap)
    (hfirst : pool.first.mint = some solMint →
      mint = textOr pool.second.mint solMint ∧
        (pool.first.amount.isSome = true → pool.first.amount = some lamports))
    (hsecond : pool.first.mint ≠ some solMint → pool.first.mint = some mint ∧
      (pool.second.amount.isSome = true → pool.second.amount = some lamports)) :
    NamesSides pool mint lamports ↔ SolSideTaken venue pool := by
  unfold NamesSides SolSideTaken PairsWithSol
  by_cases hsol : pool.first.mint = some solMint
  · obtain ⟨hmint, hamount⟩ := hfirst hsol
    constructor
    · rintro (⟨htoken, hquote, -⟩ | ⟨htoken, hquote, -, hlamports⟩)
      · rw [hsol] at htoken
        obtain rfl := Option.some.inj htoken
        exact absurd solMint_mem_quoteMints hquote
      · refine .inr ⟨hvenue, mint, hquote, ?_, htoken, hsol, by rw [hlamports]; rfl⟩
        rintro rfl
        rw [htoken] at hmint
        exact absurd hmint (by decide)
    · rintro (⟨m, hquote, htoken, -⟩ | ⟨-, m, hquote, hne, htoken, -, hsome⟩)
      · rw [hsol] at htoken
        obtain rfl := Option.some.inj htoken
        exact absurd solMint_mem_quoteMints hquote
      · rw [htoken, textOr, if_neg hne] at hmint
        exact .inr ⟨hmint ▸ htoken, hmint ▸ hquote, hsol, hamount hsome⟩
  · obtain ⟨hmint, hamount⟩ := hsecond hsol
    constructor
    · rintro (⟨htoken, hquote, hpc, hlamports⟩ | ⟨-, -, hcoin, -⟩)
      · exact .inl ⟨mint, hquote, htoken, hpc, by rw [hlamports]; rfl⟩
      · exact absurd hcoin hsol
    · rintro (⟨m, hquote, htoken, hpc, hsome⟩ | ⟨-, m, -, -, -, hcoin, -⟩)
      · obtain rfl := Option.some.inj (hmint.symm.trans htoken)
        exact .inl ⟨htoken, hquote, hpc, hamount hsome⟩
      · exact absurd hcoin hsol

/-- **Raydium v4.** -/
theorem namesSides_raydiumV4_iff (h : RaydiumV4Decoder.tryInit2 tx ix = some draft) :
    NamesSides (poolOf .raydiumV4 ix) draft.mint draft.solReserveLamports ↔
      SolSideTaken .raydiumV4 (poolOf .raydiumV4 ix) := by
  unfold RaydiumV4Decoder.tryInit2 at h
  obtain ⟨data, hdata, h⟩ := Option.bind_eq_some_iff.1 h
  by_cases hdisc : data.length < 1 ∨ data.take 1 ≠ [1]
  · rw [if_pos hdisc] at h
    cases h
  rw [if_neg hdisc] at h
  obtain ⟨coin, hcoin, rfl⟩ := Option.map_eq_some_iff.1 h
  -- an amount that can be read is there for the reading too
  have hamount (offset : ℕ) (hsome : (amountAt ix 26 offset).isSome = true) :
      26 ≤ data.length ∧ amountAt ix 26 offset = some (u64At data offset) := by
    unfold amountAt at hsome ⊢
    rw [hdata, Option.bind_some] at hsome ⊢
    by_cases hlength : 26 ≤ data.length
    · rw [if_pos hlength]
      exact ⟨hlength, rfl⟩
    · rw [if_neg hlength] at hsome
      cases hsome
  refine namesSides_of_first_iff (by decide) (fun hsol => ?_) fun hsol => ?_
  · have hcoin' : coin = solMint := Option.some.inj (hcoin.symm.trans hsol)
    dsimp only [poolOf]
    refine ⟨by rw [if_pos hcoin', hcoin'], fun hsome => ?_⟩
    obtain ⟨hlength, heq⟩ := hamount 18 hsome
    rw [if_pos hlength, if_pos hcoin', heq]
  · have hcoin' : coin ≠ solMint := fun heq => hsol (heq ▸ hcoin)
    dsimp only [poolOf]
    refine ⟨?_, fun hsome => ?_⟩
    · rw [if_neg hcoin', hcoin, textOr]
      split_ifs <;> rfl
    · obtain ⟨hlength, heq⟩ := hamount 10 hsome
      rw [if_pos hlength, if_neg hcoin', heq]

/-- A text that is there. -/
theorem exists_of_textOr_ne {x : Option String} (h : textOr x "" ≠ "") (y : String) :
    x = some (textOr x "") ∧ textOr x y = textOr x "" := by
  cases x with
  | none => exact absurd rfl h
  | some x =>
      unfold textOr at h ⊢
      dsimp only at h ⊢
      split_ifs at h ⊢ with hx
      · exact absurd rfl h
      · exact ⟨rfl, rfl⟩

/-- **Raydium CPMM.** -/
theorem namesSides_raydiumCpmm_iff (h : RaydiumCpmmDecoder.tryInitialize tx ix = some draft) :
    NamesSides (poolOf .raydiumCpmm ix) draft.mint draft.solReserveLamports ↔
      SolSideTaken .raydiumCpmm (poolOf .raydiumCpmm ix) := by
  unfold RaydiumCpmmDecoder.tryInitialize at h
  obtain ⟨amounts, hamounts, h⟩ := Option.bind_eq_some_iff.1 h
  obtain ⟨hfirst, hsecond⟩ := amountAt_of_anchorAmounts hamounts
  dsimp only at h
  by_cases htoken0 : safeGetAccount ix.accountKeys 4 = some solMint
  · rw [if_pos htoken0] at h
    obtain ⟨hmint, hdraft⟩ := Option.ite_none_left_eq_some.1 h
    obtain rfl := Option.some.inj hdraft
    refine namesSides_of_first_iff (by decide) (fun _ => ?_) fun hsol => absurd htoken0 hsol
    exact ⟨(exists_of_textOr_ne hmint solMint).2.symm, fun _ => hfirst⟩
  · rw [if_neg htoken0] at h
    obtain ⟨hmint, hdraft⟩ := Option.ite_none_left_eq_some.1 h
    obtain rfl := Option.some.inj hdraft
    refine namesSides_of_first_iff (by decide) (fun hsol => absurd hsol htoken0) fun _ => ?_
    exact ⟨(exists_of_textOr_ne hmint "").1, fun _ => hsecond⟩

variable {registry : ProgramRegistry} {templateFingerprint : TemplateFingerprint} {c : Decision}

/-- A decision for a pool initialisation is one of the three readings. -/
theorem namesSides_of_deciding_iff (h : deciding registry templateFingerprint tx = some c)
    (hkind : c.kind = .init) :
    NamesSides (poolOf c.venue c.ix) c.draft.mint c.draft.solReserveLamports ↔
      SolSideTaken c.venue (poolOf c.venue c.ix) := by
  obtain ⟨-, h⟩ := Option.ite_none_left_eq_some.1 h
  obtain ⟨d, hd, h⟩ := List.exists_of_findSome?_eq_some h
  obtain ⟨hvenue, -, -, read, hread, hdraft⟩ := decides_eq_some h
  rw [hvenue]
  rw [hkind] at hread
  simp only [decoders, List.mem_cons, List.not_mem_nil, or_false] at hd
  rcases hd with rfl | rfl | rfl | rfl
  · simp at hread
  · obtain rfl : read = PumpSwapDecoder.tryCreatePool := by simpa using hread
    exact namesSides_pumpswap_iff hdraft
  · obtain rfl : read = RaydiumV4Decoder.tryInit2 := by simpa using hread
    exact namesSides_raydiumV4_iff hdraft
  · obtain rfl : read = RaydiumCpmmDecoder.tryInitialize := by simpa using hread
    exact namesSides_raydiumCpmm_iff hdraft

/-- **A pool event names the right side iff SOL is where the decoder takes it to be**, in the pool
of the instruction the router comes to. -/
theorem names_right_side_iff (registry : ProgramRegistry)
    (templateFingerprint : TemplateFingerprint) (tx : RawTransaction)
    (transport : DetectionTransport) :
    NamesRightSide registry templateFingerprint tx transport ↔
      ∀ c, deciding registry templateFingerprint tx = some c → c.kind = .init →
        SolSideTaken c.venue (poolOf c.venue c.ix) := by
  unfold NamesRightSide
  rw [route_eq]
  constructor
  · intro hnames c hc hkind
    obtain ⟨hlooks, -⟩ := Option.ite_none_left_eq_some.1 hc
    obtain ⟨blockTimeMs, htime⟩ := Option.ne_none_iff_exists'.1 fun h => hlooks (.inr (.inr h))
    have hroute : ((deciding registry templateFingerprint tx).bind fun c =>
        (makeEventTime tx.blockTimeUnixS).map (c.event tx transport)) =
          some ((c.event tx transport blockTimeMs).1, .init) := by
      rw [hc, htime, ← hkind]
      rfl
    obtain ⟨c', hc', hsides⟩ := hnames _ hroute
    obtain rfl := Option.some.inj (hc.symm.trans hc')
    exact (namesSides_of_deciding_iff hc hkind).1 hsides
  · intro htaken event hroute
    obtain ⟨c, hc, hevent⟩ := Option.bind_eq_some_iff.1 hroute
    obtain ⟨blockTimeMs, -, hevent⟩ := Option.map_eq_some_iff.1 hevent
    obtain ⟨hev, hkind⟩ := Prod.mk.inj hevent
    refine ⟨c, hc, ?_⟩
    rw [← hev]
    exact (namesSides_of_deciding_iff hc hkind).2 (htaken c hc hkind)

/-- A Raydium v4 pool of a token against USDC: `initialize2` with 500 pc and 1000 coin units. -/
def usdcPool : RawTransaction where
  slot := 10
  blockTimeUnixS := some 1700000000
  feePayer := "payer"
  instructions :=
    [⟨"raydium", "Af4AAAAAAAAAAPQBAAAAAAAA6AMAAAAAAAA=",
      ["0", "1", "2", "3", "4", "5", "6", "7", "token",
        "EPjFWdd5AufqSSqeM2qN1xzybapC8G4wEGGkZwyTDt1v"]⟩]
  innerInstructions := []

/-- The registry with Raydium v4 alone. -/
def raydiumOnly : ProgramRegistry := fun venue =>
  if venue = .raydiumV4 then some "raydium" else none

/-- It has no SOL side, and is reported with 500 lamports. -/
theorem usdc_pool_reported :
    (route raydiumOnly (fun _ _ => none) usdcPool .geyser).map (fun result =>
        (result.1.mint, result.1.row.solReserveLamports, result.2)) = some ("token", 500, .init) ∧
      ¬ NamesRightSide raydiumOnly (fun _ _ => none) usdcPool .geyser := by
  have hmints : (deciding raydiumOnly (fun _ _ => none) usdcPool).map (fun c =>
      ((poolOf c.venue c.ix).first.mint, (poolOf c.venue c.ix).second.mint)) =
        some (some "token", some "EPjFWdd5AufqSSqeM2qN1xzybapC8G4wEGGkZwyTDt1v") := by
    decide +kernel
  have hkind : (route raydiumOnly (fun _ _ => none) usdcPool .geyser).map (·.2) = some .init := by
    decide +kernel
  refine ⟨by decide +kernel, fun hnames => ?_⟩
  obtain ⟨⟨event, kind⟩, hroute, rfl⟩ := Option.map_eq_some_iff.1 hkind
  obtain ⟨c, hc, hsides⟩ := hnames event hroute
  rw [hc] at hmints
  obtain ⟨hfirst, hsecond⟩ := Prod.mk.inj (Option.some.inj hmints)
  rcases hsides with ⟨-, -, hsol, -⟩ | ⟨-, -, hsol, -⟩
  · exact absurd (hsecond.symm.trans hsol) (by decide)
  · exact absurd (hfirst.symm.trans hsol) (by decide)

end Ingestion
end AatsSniper

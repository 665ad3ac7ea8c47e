/-
# The insider dump tally

`InsiderDumpDetector` of `aats/ingestion/insider_dump.py`: the amounts a creator or cluster wallet
has sold, of the sells observed while its baseline is known, each counted once.

A sell is recognised by a bounded set of the keys seen so far, into which every observed
sell goes, counted or not.  The tally is the sum over the distinct keys counted as long
as that set holds exactly the counted ones among the keys that come
(`SeenExactly`): a counted key may have been forgotten, and a key may have been seen
before its wallet was tracked.

The counters, the log lines, the wall clock of the signal and the flag sink are left
out: the sink is handed what the signal holds, after the tally is written.
-/

import AatsSniper.Lib.Run
import AatsSniper.Lib.Seen
import AatsSniper.Lib.Sort
import Mathlib.Algebra.BigOperators.Group.List.Basic
import Mathlib.Data.String.Basic
import Mathlib.Tactic.Linarith

namespace AatsSniper
namespace Ingestion

/-- What the registrations raise. -/
inductive InsiderDumpError
  | emptyText
  deriving DecidableEq

/-- `_BPS_DENOM`. -/
def dumpBpsDenom : ℕ := 10000

/-- `MAX_CLUSTER_WALLETS`. -/
def maxClusterWallets : ℕ := 50

/-- `WalletRole`. -/
inductive WalletRole
  | creator
  | cluster
  deriving DecidableEq

/-- `InsiderDumpConfig.threshold_bps`. -/
structure InsiderDumpConfig where
  thresholdBps : ℕ := 2000
  threshold_bounds : 1 ≤ thresholdBps ∧ thresholdBps ≤ dumpBpsDenom := by decide

/-- `(signature, instruction_index)`. -/
abbrev SellKey := String × ℕ

/-- `SellObservation`: what its `__post_init__` lets pass. -/
structure SellObservation where
  mint : String
  wallet : String
  tokenAmountSoldBase : ℕ
  eventSlot : ℕ
  blockTimeMs : ℕ
  signature : String
  instructionIndex : ℕ
  text_nonempty : mint ≠ "" ∧ wallet ≠ "" ∧ signature ≠ ""
  deriving DecidableEq

/-- `dedupe_key`. -/
def SellObservation.dedupeKey (obs : SellObservation) : SellKey :=
  (obs.signature, obs.instructionIndex)

/-- `InsiderDumpSignal`: what its `__post_init__` lets pass. -/
structure InsiderDumpSignal where
  mint : String
  wallet : String
  role : WalletRole
  fractionSoldBps : ℕ
  eventSlot : ℕ
  blockTimeMs : ℕ
  cumulativeSoldBase : ℕ
  heldSupplyBase : ℕ
  fraction_le : fractionSoldBps ≤ dumpBpsDenom
  held_pos : 1 ≤ heldSupplyBase

/-! ### Registration -/

/-- Whom a detector tracks, and what its provider of baselines answers. -/
structure Watchlist where
  creatorWallet : String → Option String := fun _ => none
  clusterWallets : String → List String := fun _ => []
  heldSupply : String → String → Option ℤ := fun _ _ => none

/-- `register_creator(mint, wallet)`. -/
def Watchlist.registerCreator (w : Watchlist) (mint wallet : String) :
    Except InsiderDumpError Watchlist := do
  require (mint ≠ "" ∧ wallet ≠ "") .emptyText
  return { w with creatorWallet := Function.update w.creatorWallet mint (some wallet) }

/-- `register_cluster(mint, wallets)`: at most `MAX_CLUSTER_WALLETS`, in the order of the texts. -/
def Watchlist.registerCluster (w : Watchlist) (mint : String) (wallets : List String) :
    Except InsiderDumpError Watchlist := do
  require (mint ≠ "") .emptyText
  let normalized := (wallets.filter (· ≠ "")).dedup
  let normalized :=
    if normalized.length > maxClusterWallets then
      (sortBy id normalized).take maxClusterWallets
    else normalized
  return { w with clusterWallets := Function.update w.clusterWallets mint normalized }

/-- `reset_mint(mint)`, of the registrations. -/
def Watchlist.resetMint (w : Watchlist) (mint : String) : Watchlist :=
  { w with
    creatorWallet := Function.update w.creatorWallet mint none
    clusterWallets := Function.update w.clusterWallets mint [] }

/-- `_role_of(mint, wallet)`. -/
def Watchlist.roleOf (w : Watchlist) (mint wallet : String) : Option WalletRole :=
  if w.creatorWallet mint = some wallet then some .creator
  else if wallet ∈ w.clusterWallets mint then some .cluster
  else none

/-! ### The detector -/

/-- `InsiderDumpDetector`.  The tally of a key that is not there is 0. -/
structure Detector extends Watchlist where
  cumulativeSold : String × String → Option ℕ := fun _ => none
  seen : List SellKey := []

/-- What the detector attributes to a mint and wallet. -/
def Detector.tally (d : Detector) (mint wallet : String) : ℕ :=
  (d.cumulativeSold (mint, wallet)).getD 0

theorem min_bps_le (n : ℕ) : min dumpBpsDenom n ≤ dumpBpsDenom := min_le_left _ _

theorem one_le_toNat {held : ℤ} (h : ¬held ≤ 0) : 1 ≤ held.toNat := by omega

/-- `on_sell(obs, is_open_position=...)`. -/
def Detector.onSell (p : SeenPolicy SellKey) (config : InsiderDumpConfig) (d : Detector)
    (obs : SellObservation) (isOpenPosition : Bool) : Option InsiderDumpSignal × Detector :=
  if !isOpenPosition then (none, d)
  else if obs.dedupeKey ∈ d.seen then (none, d)
  else
    let d := { d with seen := p.see d.seen obs.dedupeKey }
    match d.roleOf obs.mint obs.wallet, d.heldSupply obs.mint obs.wallet with
    | none, _ => (none, d)
    | some _, none => (none, d)
    | some role, some held =>
        if hheld : held ≤ 0 then (none, d)
        else
          let newCumulative := d.tally obs.mint obs.wallet + obs.tokenAmountSoldBase
          let d := { d with
            cumulativeSold :=
              Function.update d.cumulativeSold (obs.mint, obs.wallet) (some newCumulative) }
          let fractionBps := newCumulative * dumpBpsDenom / held.toNat
          if min dumpBpsDenom fractionBps < config.thresholdBps then (none, d)
          else
            (some
              { mint := obs.mint
                wallet := obs.wallet
                role := role
                fractionSoldBps := min dumpBpsDenom fractionBps
                eventSlot := obs.eventSlot
                blockTimeMs := obs.blockTimeMs
                cumulativeSoldBase := newCumulative
                heldSupplyBase := held.toNat
                fraction_le := min_bps_le fractionBps
                held_pos := one_le_toNat hheld }, d)

/-- `reset_mint(mint)`. -/
def Detector.resetMint (d : Detector) (mint : String) : Detector :=
  { d with
    toWatchlist := d.toWatchlist.resetMint mint
    cumulativeSold := fun key => if key.1 = mint then none else d.cumulativeSold key }

/-- The calls a detector takes; `heldSupply` is a change of what the provider answers. -/
inductive DetectorCall
  | registerCreator (mint wallet : String)
  | registerCluster (mint : String) (wallets : List String)
  | heldSupply (provider : String → String → Option ℤ)
  | resetMint (mint : String)
  | onSell (obs : SellObservation) (isOpenPosition : Bool)

/-- The registrations after a call.  One that raises leaves them. -/
def Watchlist.serve (w : Watchlist) : DetectorCall → Watchlist
  | .registerCreator mint wallet => (w.registerCreator mint wallet).toOption.getD w
  | .registerCluster mint wallets => (w.registerCluster mint wallets).toOption.getD w
  | .heldSupply provider => { w with heldSupply := provider }
  | .resetMint mint => w.resetMint mint
  | .onSell _ _ => w

/-- A call, for the detector it leaves. -/
def Detector.serve (p : SeenPolicy SellKey) (config : InsiderDumpConfig) (d : Detector)
    (call : DetectorCall) : Except InsiderDumpError Detector :=
  match call with
  | .onSell obs isOpenPosition => .ok (d.onSell p config obs isOpenPosition).2
  | .resetMint mint => .ok (d.resetMint mint)
  | call => .ok { d with toWatchlist := d.toWatchlist.serve call }

/-! ### What was observed -/

/-- The wallet is tracked and its baseline known. -/
def Watchlist.counts (w : Watchlist) (obs : SellObservation) : Bool :=
  (w.roleOf obs.mint obs.wallet).isSome && (w.heldSupply obs.mint obs.wallet).any (0 < ·)

/-- A sell observed while tracked with a known baseline, and whether its mint was reset since. -/
structure CountedSell where
  obs : SellObservation
  reset : Bool

/-- Its key. -/
def CountedSell.key (c : CountedSell) : SellKey := c.obs.dedupeKey

/-- The mint is reset. -/
def CountedSell.resetMint (mint : String) (c : CountedSell) : CountedSell :=
  if c.obs.mint = mint then { c with reset := true } else c

/-- The registrations, and the sells observed while tracked with a known baseline. -/
structure Observed where
  watch : Watchlist := {}
  counted : List CountedSell := []

/-- A call, for what was observed. -/
def Observed.serve (o : Observed) (call : DetectorCall) : Observed where
  watch := o.watch.serve call
  counted :=
    match call with
    | .onSell obs true => if o.watch.counts obs then o.counted ++ [⟨obs, false⟩] else o.counted
    | .resetMint mint => o.counted.map (CountedSell.resetMint mint)
    | _ => o.counted

/-- What a run of calls shows. -/
def observed (calls : List DetectorCall) : Observed := calls.foldl Observed.serve {}

/-- The keys counted. -/
def Observed.keys (o : Observed) : List SellKey := o.counted.map CountedSell.key

/-- The amounts of the distinct keys, of those not reset, for a mint and wallet. -/
def distinctAmounts (mint wallet : String) (counted : List CountedSell) : List ℕ :=
  ((firstsBy CountedSell.key counted).filter fun c =>
    decide (c.obs.mint = mint ∧ c.obs.wallet = wallet ∧ c.reset = false)).map
      (·.obs.tokenAmountSoldBase)

/-- **The exact tally**: the sum over the distinct keys observed while tracked with a known
baseline, since the last reset of the mint. -/
def Observed.tally (o : Observed) (mint wallet : String) : ℕ :=
  (distinctAmounts mint wallet o.counted).sum

/-- The detector's tallies are exact. -/
def ExactTally (calls : List DetectorCall) (d : Detector) : Prop :=
  ∀ mint wallet, d.tally mint wallet = (observed calls).tally mint wallet

/-- A sell that counts is in the seen set iff it was counted before. -/
def SeenExactly (calls : List DetectorCall) (d : Detector) : DetectorCall → Prop
  | .onSell obs true => d.counts obs = true → 0 < obs.tokenAmountSoldBase →
      (obs.dedupeKey ∈ d.seen ↔ obs.dedupeKey ∈ (observed calls).keys)
  | _ => True

/-! ### Tallies -/

theorem observed_snoc (calls : List DetectorCall) (call : DetectorCall) :
    observed (calls ++ [call]) = (observed calls).serve call := by
  simp [observed]

variable {counted : List CountedSell} {obs : SellObservation} {mint wallet : String}

/-- One counted sell more. -/
theorem sum_distinctAmounts_snoc : (distinctAmounts mint wallet (counted ++ [⟨obs, false⟩])).sum =
    (distinctAmounts mint wallet counted).sum +
      if obs.dedupeKey ∈ counted.map CountedSell.key then 0
      else if obs.mint = mint ∧ obs.wallet = wallet then obs.tokenAmountSoldBase else 0 := by
  have hkey : (⟨obs, false⟩ : CountedSell).key = obs.dedupeKey := rfl
  rw [distinctAmounts, firstsBy_snoc, hkey]
  split_ifs with hmem hwallet
  · rw [distinctAmounts, add_zero]
  · rw [distinctAmounts, List.filter_append, List.map_append, List.sum_append]
    simp [hwallet]
  · rw [distinctAmounts, List.filter_append, List.map_append, List.sum_append]
    simp [hwallet]

/-- A reset clears the tallies of its mint. -/
theorem distinctAmounts_reset (other : String) :
    distinctAmounts mint wallet (counted.map (CountedSell.resetMint other)) =
      if mint = other then [] else distinctAmounts mint wallet counted := by
  have hkey : ∀ c : CountedSell, (CountedSell.resetMint other c).key = c.key := by
    intro c
    unfold CountedSell.resetMint
    split_ifs <;> rfl
  rw [distinctAmounts, firstsBy_map hkey, List.filter_map, List.map_map]
  split_ifs with hmint
  · subst hmint
    rw [List.map_eq_nil_iff, List.filter_eq_nil_iff]
    intro c _
    by_cases hc : c.obs.mint = mint <;> simp [CountedSell.resetMint, hc]
  · have hfilter : ∀ c : CountedSell, ((fun c : CountedSell => decide (c.obs.mint = mint ∧
        c.obs.wallet = wallet ∧ c.reset = false)) ∘ CountedSell.resetMint other) c =
        decide (c.obs.mint = mint ∧ c.obs.wallet = wallet ∧ c.reset = false) := by
      intro c
      by_cases hc : c.obs.mint = other
      · have hne : ¬other = mint := fun h => hmint h.symm
        simp [CountedSell.resetMint, hc, hne]
      · simp [CountedSell.resetMint, hc]
    rw [distinctAmounts, List.filter_congr fun c _ => hfilter c]
    refine List.map_congr_left fun c _ => ?_
    by_cases hc : c.obs.mint = other <;> simp [CountedSell.resetMint, hc]

/-! ### One call -/

variable {p : SeenPolicy SellKey} {config : InsiderDumpConfig} {d : Detector}
  {calls : List DetectorCall}

/-- The sell is added to the tally of its wallet. -/
def Detector.adds (d : Detector) (obs : SellObservation) (isOpenPosition : Bool) : Bool :=
  isOpenPosition && decide (obs.dedupeKey ∉ d.seen) && d.counts obs

/-- A sell that is not added leaves tallies and registrations. -/
theorem onSell_of_not_adds {isOpen : Bool} (h : d.adds obs isOpen = false) :
    (d.onSell p config obs isOpen).2.toWatchlist = d.toWatchlist ∧
      (d.onSell p config obs isOpen).2.cumulativeSold = d.cumulativeSold := by
  cases isOpen with
  | false => exact ⟨rfl, rfl⟩
  | true =>
      by_cases hseen : obs.dedupeKey ∈ d.seen
      · simp [Detector.onSell, hseen]
      · have hcounts : d.counts obs = false := by simpa [Detector.adds, hseen] using h
        unfold Watchlist.counts at hcounts
        cases hr : d.roleOf obs.mint obs.wallet with
        | none => simp [Detector.onSell, hseen, hr]
        | some role =>
            cases hh : d.heldSupply obs.mint obs.wallet with
            | none => simp [Detector.onSell, hseen, hr, hh]
            | some held =>
                have hheld : held ≤ 0 := by simpa [hr, hh] using hcounts
                simp [Detector.onSell, hseen, hr, hh, hheld]

/-- A sell that is added. -/
theorem onSell_of_adds {isOpen : Bool} (h : d.adds obs isOpen = true) :
    (d.onSell p config obs isOpen).2.toWatchlist = d.toWatchlist ∧
      (d.onSell p config obs isOpen).2.cumulativeSold =
        Function.update d.cumulativeSold (obs.mint, obs.wallet)
          (some (d.tally obs.mint obs.wallet + obs.tokenAmountSoldBase)) := by
  simp only [Detector.adds, Bool.and_eq_true, decide_eq_true_eq, Watchlist.counts] at h
  obtain ⟨⟨rfl, hseen⟩, hrole, hheld⟩ := h
  obtain ⟨role, hr⟩ := Option.isSome_iff_exists.1 hrole
  obtain ⟨held, hh, hpos⟩ := (Option.any_eq_true _ _).1 hheld
  have hle : ¬held ≤ 0 := not_le.2 (of_decide_eq_true hpos)
  simp only [Detector.onSell, hseen, hr, hh, hle, Bool.not_true, Bool.false_eq_true, if_false,
    dite_false]
  split_ifs <;> exact ⟨rfl, rfl⟩

/-- What a sell adds to the tallies. -/
theorem tally_onSell (isOpen : Bool) : (d.onSell p config obs isOpen).2.tally mint wallet =
    d.tally mint wallet +
      if d.adds obs isOpen = true ∧ obs.mint = mint ∧ obs.wallet = wallet then
        obs.tokenAmountSoldBase
      else 0 := by
  cases hadds : d.adds obs isOpen with
  | false => simp [Detector.tally, (onSell_of_not_adds hadds).2]
  | true =>
      simp only [Detector.tally, (onSell_of_adds hadds).2, Function.update_apply, Prod.mk.injEq]
      by_cases hkey : mint = obs.mint ∧ wallet = obs.wallet
      · obtain ⟨rfl, rfl⟩ := hkey
        simp
      · rw [if_neg hkey, if_neg fun h => hkey ⟨h.2.1.symm, h.2.2.symm⟩, add_zero]

/-- The registrations only follow the calls. -/
theorem serve_watch {d' : Detector} {call : DetectorCall}
    (h : d.serve p config call = .ok d') : d'.toWatchlist = d.toWatchlist.serve call := by
  cases call with
  | onSell obs isOpen =>
      obtain rfl := Except.ok.inj h
      cases hadds : d.adds obs isOpen with
      | false => exact (onSell_of_not_adds hadds).1
      | true => exact (onSell_of_adds hadds).1
  | _ =>
      obtain rfl := Except.ok.inj h
      rfl

/-- What a sell adds to the exact tallies. -/
theorem tally_serve_onSell (o : Observed) : (o.serve (.onSell obs true)).tally mint wallet =
    o.tally mint wallet +
      if o.watch.counts obs = true ∧ obs.dedupeKey ∉ o.keys ∧ obs.mint = mint ∧
          obs.wallet = wallet then
        obs.tokenAmountSoldBase
      else 0 := by
  unfold Observed.tally Observed.serve
  by_cases hcounts : o.watch.counts obs = true
  · simp only [hcounts, if_true, sum_distinctAmounts_snoc, true_and]
    by_cases hmem : obs.dedupeKey ∈ o.keys
    · rw [if_pos (show obs.dedupeKey ∈ o.counted.map CountedSell.key from hmem),
        if_neg fun h => h.1 hmem]
    · rw [if_neg (show obs.dedupeKey ∉ o.counted.map CountedSell.key from hmem)]
      simp only [hmem, not_false_iff, true_and]
  · simp [hcounts]

variable (p config) in
/-- **One call** keeps the tallies exact iff the seen set is right about the sell that comes. -/
theorem serve_exact (call : DetectorCall) (hwatch : d.toWatchlist = (observed calls).watch)
    (hexact : ExactTally calls d) :
    ∃ d', d.serve p config call = .ok d' ∧
      (ExactTally (calls ++ [call]) d' ↔ SeenExactly calls d call) := by
  have hother : ∀ w : Watchlist, (observed (calls ++ [call])).counted = (observed calls).counted →
      ExactTally (calls ++ [call]) { d with toWatchlist := w } := by
    intro w hcounted mint wallet
    rw [Observed.tally, hcounted]
    exact hexact mint wallet
  rw [observed_snoc] at hother
  cases call with
  | resetMint mint =>
      refine ⟨_, rfl, iff_of_true (fun mint' wallet => ?_) trivial⟩
      rw [observed_snoc]
      show _ = (distinctAmounts mint' wallet
        ((observed calls).counted.map (CountedSell.resetMint mint))).sum
      rw [distinctAmounts_reset]
      by_cases hmint : mint' = mint
      · simp [Detector.tally, Detector.resetMint, hmint]
      · rw [if_neg hmint]
        refine Eq.trans ?_ (hexact mint' wallet)
        simp [Detector.tally, Detector.resetMint, hmint]
  | onSell obs isOpen =>
      refine ⟨_, rfl, ?_⟩
      cases isOpen with
      | false => exact iff_of_true (hother _ rfl) trivial
      | true =>
          -- both tallies grow by the amount or not at all
          have hstep : ExactTally (calls ++ [.onSell obs true]) (d.onSell p config obs true).2 ↔
              ∀ mint wallet,
                (if d.adds obs true = true ∧ obs.mint = mint ∧ obs.wallet = wallet then
                  obs.tokenAmountSoldBase else 0) =
                if d.counts obs = true ∧ obs.dedupeKey ∉ (observed calls).keys ∧
                    obs.mint = mint ∧ obs.wallet = wallet then
                  obs.tokenAmountSoldBase else 0 := by
            unfold ExactTally
            refine forall_congr' fun mint => forall_congr' fun wallet => ?_
            rw [observed_snoc, tally_serve_onSell, tally_onSell, hexact mint wallet, hwatch]
            exact Nat.add_left_cancel_iff
          rw [hstep]
          simp only [SeenExactly, Detector.adds, Bool.true_and, Bool.and_eq_true,
            decide_eq_true_eq]
          constructor
          · intro h hcounts hpos
            have hkey := h obs.mint obs.wallet
            simp only [hcounts, and_true, true_and] at hkey
            split_ifs at hkey with hseen hmem hmem
            · exact iff_of_true hseen hmem
            · omega
            · omega
            · exact iff_of_false hseen hmem
          · intro h mint wallet
            by_cases hcounts : d.counts obs = true
            · rcases Nat.eq_zero_or_pos obs.tokenAmountSoldBase with hzero | hpos
              · simp [hzero]
              · simp only [hcounts, h hcounts hpos, and_true, true_and]
            · simp [hcounts]
  | _ => exact ⟨_, rfl, iff_of_true (hother _ rfl) trivial⟩

/-! ### Runs -/

/-- **Exact in every state iff the seen set is right at every sell.** -/
theorem exactTally_iff (calls : List DetectorCall) :
    EveryState (Detector.serve p config) ExactTally {} calls ↔
      EveryStep (Detector.serve p config) SeenExactly {} calls := by
  -- the registrations follow the calls
  refine everyState_iff_everyStep_history
    (J := fun calls (d : Detector) => d.toWatchlist = (observed calls).watch)
    (fun _ _ => rfl) rfl (fun calls d call hwatch hexact => ?_) calls
  obtain ⟨d', hserve, hiff⟩ := serve_exact p config call hwatch hexact
  refine ⟨d', hserve, hiff, fun _ => ?_⟩
  rw [observed_snoc, serve_watch hserve, hwatch]
  rfl

variable (p config) in
/-- No call raises out of the run. -/
theorem serve_runs (calls : List DetectorCall) :
    ∃ d', runSteps (Detector.serve p config) d calls = .ok d' := by
  induction calls using List.reverseRecOn with
  | nil => exact ⟨d, rfl⟩
  | append_singleton calls call ih =>
      obtain ⟨d', hrun⟩ := ih
      rw [runSteps_snoc, hrun]
      cases call <;> exact ⟨_, rfl⟩

/-- The sells of a stream that count. -/
def Watchlist.countedSells (w : Watchlist) (sells : List (SellObservation × Bool)) :
    List CountedSell :=
  (sells.filter fun s => s.2 && w.counts s.1).map fun s => ⟨s.1, false⟩

/-- A stream of sells leaves the registrations, and what it counts comes last. -/
theorem foldl_serve_sells (o : Observed) (sells : List (SellObservation × Bool)) :
    (sells.map fun s => DetectorCall.onSell s.1 s.2).foldl Observed.serve o =
      { watch := o.watch, counted := o.counted ++ o.watch.countedSells sells } := by
  induction sells generalizing o with
  | nil => simp [Watchlist.countedSells]
  | cons sell sells ih =>
      rw [List.map_cons, List.foldl_cons, ih]
      obtain ⟨obs, isOpen⟩ := sell
      cases isOpen with
      | false => simp [Watchlist.countedSells, Observed.serve, Watchlist.serve]
      | true =>
          by_cases hcounts : o.watch.counts obs = true
          · simp [Watchlist.countedSells, Observed.serve, Watchlist.serve, hcounts]
          · simp [Watchlist.countedSells, Observed.serve, Watchlist.serve, hcounts]

/-- Nothing is counted without a sell. -/
theorem counted_setup {setup : List DetectorCall}
    (hsetup : ∀ call ∈ setup, ∀ obs isOpen, call ≠ .onSell obs isOpen) :
    (observed setup).counted = [] := by
  induction setup using List.reverseRecOn with
  | nil => rfl
  | append_singleton setup call ih =>
      have hnil := ih fun c hc => hsetup c (List.mem_append_left _ hc)
      have hcall := hsetup call (List.mem_append_right _ (List.mem_singleton_self call))
      rw [observed_snoc]
      cases call with
      | onSell obs isOpen => exact absurd rfl (hcall obs isOpen)
      | resetMint mint => simp [Observed.serve, hnil]
      | _ => exact hnil

/-- The exact tallies of a stream of sells only depend on which sells there are. -/
theorem tally_stream {setup : List DetectorCall} {sells sells' : List (SellObservation × Bool)}
    (hsetup : ∀ call ∈ setup, ∀ obs isOpen, call ≠ .onSell obs isOpen)
    (hkeys : ∀ obs obs', (obs, true) ∈ sells → (obs', true) ∈ sells →
      obs.dedupeKey = obs'.dedupeKey → obs = obs')
    (hsame : ∀ obs, (obs, true) ∈ sells ↔ (obs, true) ∈ sells') :
    (observed (setup ++ sells.map fun s => .onSell s.1 s.2)).tally mint wallet =
      (observed (setup ++ sells'.map fun s => .onSell s.1 s.2)).tally mint wallet := by
  have hcounted : ∀ stream : List (SellObservation × Bool),
      (observed (setup ++ stream.map fun s => .onSell s.1 s.2)).counted =
        (observed setup).watch.countedSells stream := by
    intro stream
    rw [observed, List.foldl_append, foldl_serve_sells]
    show (observed setup).counted ++ _ = _
    rw [counted_setup hsetup]
    rfl
  have hmem : ∀ (stream : List (SellObservation × Bool)) (c : CountedSell),
      c ∈ (observed setup).watch.countedSells stream ↔
        (c.obs, true) ∈ stream ∧ (observed setup).watch.counts c.obs = true ∧
          c.reset = false := by
    intro stream c
    simp only [Watchlist.countedSells, List.mem_map, List.mem_filter, Bool.and_eq_true]
    constructor
    · rintro ⟨⟨obs, isOpen⟩, ⟨hobs, rfl, hcounts⟩, rfl⟩
      exact ⟨hobs, hcounts, rfl⟩
    · rintro ⟨hobs, hcounts, hreset⟩
      exact ⟨(c.obs, true), ⟨hobs, rfl, hcounts⟩, by rw [← hreset]⟩
  rw [Observed.tally, Observed.tally, hcounted, hcounted]
  refine (((perm_firstsBy ?_ ?_).filter _).map _).sum_eq
  · intro c hc c' hc' hkey
    obtain ⟨hobs, -, hreset⟩ := (hmem _ c).1 hc
    obtain ⟨hobs', -, hreset'⟩ := (hmem _ c').1 hc'
    have heq := hkeys _ _ hobs hobs' hkey
    cases c
    cases c'
    simp only [CountedSell.mk.injEq] at *
    exact ⟨heq, hreset.trans hreset'.symm⟩
  · intro c
    rw [hmem, hmem, hsame]

/-- **The tally is exact under redelivery exactly as long as the seen set is.**  In a run of any
calls every tally is the sum over the distinct keys counted in every state passed iff at
every sell that counts, its key is in the seen set iff it was counted before.  Two
streams of the same sells that meet this end with the same tallies. -/
theorem insider_tally_exact_iff (p : SeenPolicy SellKey) (config : InsiderDumpConfig) :
    (∀ calls, EveryState (Detector.serve p config) ExactTally {} calls ↔
      EveryStep (Detector.serve p config) SeenExactly {} calls) ∧
    ∀ (setup : List DetectorCall) (sells sells' : List (SellObservation × Bool)),
      (∀ call ∈ setup, ∀ obs isOpen, call ≠ .onSell obs isOpen) →
      (∀ obs obs', (obs, true) ∈ sells → (obs', true) ∈ sells →
        obs.dedupeKey = obs'.dedupeKey → obs = obs') →
      (∀ obs, (obs, true) ∈ sells ↔ (obs, true) ∈ sells') →
      EveryStep (Detector.serve p config) SeenExactly {}
        (setup ++ sells.map fun s => .onSell s.1 s.2) →
      EveryStep (Detector.serve p config) SeenExactly {}
        (setup ++ sells'.map fun s => .onSell s.1 s.2) →
      ∃ d d', runSteps (Detector.serve p config) {}
          (setup ++ sells.map fun s => .onSell s.1 s.2) = .ok d ∧
        runSteps (Detector.serve p config) {}
          (setup ++ sells'.map fun s => .onSell s.1 s.2) = .ok d' ∧
        ∀ mint wallet, d.tally mint wallet = d'.tally mint wallet := by
  refine ⟨exactTally_iff, fun setup sells sells' hsetup hkeys hsame hsteps hsteps' => ?_⟩
  obtain ⟨d, hrun⟩ := serve_runs p config
    (setup ++ sells.map fun s => .onSell s.1 s.2)
  obtain ⟨d', hrun'⟩ := serve_runs p config
    (setup ++ sells'.map fun s => .onSell s.1 s.2)
  refine ⟨d, d', hrun, hrun', fun mint wallet => ?_⟩
  have hexact := (exactTally_iff _).2 hsteps _ [] d (List.append_nil _).symm hrun mint wallet
  have hexact' := (exactTally_iff _).2 hsteps' _ [] d' (List.append_nil _).symm hrun' mint wallet
  rw [hexact, hexact', tally_stream hsetup hkeys hsame]

/-- A sell of 100 by the creator. -/
def exampleSell (signature : String) (h : signature ≠ "") : SellObservation where
  mint := "mint"
  wallet := "dev"
  tokenAmountSoldBase := 100
  eventSlot := 1
  blockTimeMs := 1
  signature := signature
  instructionIndex := 0
  text_nonempty := ⟨by decide, by decide, h⟩

/-- The creator is tracked, with a baseline of 1000. -/
def exampleSetup : List DetectorCall :=
  [.registerCreator "mint" "dev", .heldSupply fun _ _ => some 1000]

/-- A seen set of one key forgets the first of two sells, which is then counted again; and a sell
delivered before its wallet was tracked is not counted when it comes again. -/
theorem insider_tally_inexact :
    ¬EveryState (Detector.serve (.oldest 1) {}) ExactTally {}
      (exampleSetup ++ [.onSell (exampleSell "a" (by decide)) true,
        .onSell (exampleSell "b" (by decide)) true, .onSell (exampleSell "a" (by decide)) true]) ∧
    ¬EveryState (Detector.serve (.oldest 50000) {}) ExactTally {}
      ([.onSell (exampleSell "a" (by decide)) true] ++ exampleSetup ++
        [.onSell (exampleSell "a" (by decide)) true]) := by
  constructor
  · intro h
    have hexact := h _ [] _ (List.append_nil _).symm rfl "mint" "dev"
    revert hexact
    decide +kernel
  · intro h
    have hexact := h _ [] _ (List.append_nil _).symm rfl "mint" "dev"
    revert hexact
    decide +kernel

end Ingestion
end AatsSniper

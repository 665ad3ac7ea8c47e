/-
# The simulated sell

`SellSimVenue.simulate_sell` of `aats/execution/sell_sim.py`: a quote, a signature and a
simulation of a dust sell, each of which may refuse, revert or raise.

The signer and the RPC client are functions of what they are handed; the RPC client has a
quoted and a simulated output or has not, as `hasattr` finds out.  The stub that is signed is its
payload: the base64 of its JSON is left out, and so are the log lines and
`min_out_ratio_bps`, which nothing reads.

`sellable_iff` is the one way to be sellable.
-/

import Mathlib.Data.Int.Notation
import Mathlib.Data.Nat.Notation
import Mathlib.Tactic.SplitIfs
import Mathlib.Algebra.Order.Ring.Int
import AatsSniper.Lib.Except

namespace AatsSniper
namespace Execution

/-- `SellSimReason`. -/
inductive SellSimReason
  | sellable
  | simRevert
  | zeroOutput
  | highSellTax
  | signerRefused
  | accountCloseTrap
  | quoteFailed
  | infrastructureError
  | notSimulated
  deriving DecidableEq

/-- `SellSimResult`. -/
structure SellSimResult where
  sellable : Bool
  reason : SellSimReason
  mint : String
  eventSlot : ℕ
  dustAmountIn : ℕ
  simulatedOutLamports : ℤ := 0
  effectiveSellTaxBps : ℤ := 0
  simCuConsumed : ℤ := 0
  simRevertReason : Option String := none
  detail : String

/-- `SellSimConfig`. -/
structure SellSimConfig where
  maxSellTaxBps : ℕ := 1000
  dustSellAmount : ℕ := 1
  maxSellTax_le : maxSellTaxBps ≤ 10000 := by decide
  dust_pos : 1 ≤ dustSellAmount := by decide

/-- What is raised on the way: `SignerRefused` with its reason, or the name of another exception. -/
inductive SellSimError
  | signerRefused (reason : String)
  | unexpected (typeName : String)

/-- The payload of `_build_sell_stub`. -/
structure SellStub where
  clientIntentId : String
  mint : String
  amountIn : ℕ
  minOutLamports : ℕ
  walletPubkey : String

/-- `SimResult`. -/
structure SimResult where
  success : Bool
  cuConsumed : ℤ
  revertReason : Option String

/-- What the venue is built with: `Signed` is what its signer returns. -/
structure SellSimVenue (Signed : Type) where
  quoteOutLamports : Option ℤ
  sellOutLamports : Option ℤ
  sign : SellStub → Except SellSimError Signed
  simulateTransaction : Signed → Except SellSimError SimResult
  config : SellSimConfig
  walletPubkey : String

namespace SellSimVenue

variable {Signed : Type} (venue : SellSimVenue Signed)

/-- `_quote_sell(mint, amount_in)`. -/
def quoteSell : ℤ :=
  match venue.quoteOutLamports, venue.sellOutLamports with
  | some quote, _ => quote
  | none, some out => out
  | none, none => 10000

/-- `_extract_sim_out(quote_out_lamports)`. -/
def extractSimOut (quoteOutLamports : ℤ) : ℤ := venue.sellOutLamports.getD quoteOutLamports

/-- `_compute_effective_tax_bps(simulated_out, quoted_out)`. -/
def computeEffectiveTaxBps (simulatedOut quotedOut : ℤ) : ℤ :=
  if quotedOut ≤ 0 ∨ simulatedOut < 0 then 0
  else if quotedOut ≤ simulatedOut then 0
  else (quotedOut - simulatedOut) * 10000 / quotedOut

/-- `_build_sell_stub(mint, amount_in, min_out_lamports, intent_id)`. -/
def buildSellStub (mint : String) (eventSlot : ℕ) : SellStub where
  clientIntentId := s!"sell-sim:{mint}:{eventSlot}"
  mint := mint
  amountIn := venue.config.dustSellAmount
  minOutLamports := 1
  walletPubkey := venue.walletPubkey

/-- A result that is not sellable. -/
def refused (mint : String) (eventSlot : ℕ) (reason : SellSimReason) (detail : String) :
    SellSimResult where
  sellable := false
  reason := reason
  mint := mint
  eventSlot := eventSlot
  dustAmountIn := venue.config.dustSellAmount
  detail := detail

/-- Step 5: the analysis of a simulation. -/
def analyse (mint : String) (eventSlot : ℕ) (quoteOut : ℤ) (sim : SimResult) : SellSimResult :=
  if sim.success = false then
    { venue.refused mint eventSlot .simRevert
        ("simulate_revert:" ++ sim.revertReason.getD "unknown") with
      simCuConsumed := sim.cuConsumed
      simRevertReason := sim.revertReason }
  else
    let simOut := venue.extractSimOut quoteOut
    if simOut ≤ 0 then
      { venue.refused mint eventSlot .zeroOutput "simulated_sell_returned_zero_lamports" with
        simCuConsumed := sim.cuConsumed }
    else
      let taxBps := computeEffectiveTaxBps simOut quoteOut
      if (venue.config.maxSellTaxBps : ℤ) < taxBps then
        { venue.refused mint eventSlot .highSellTax
            s!"sell_tax_{taxBps}bps_exceeds_max_{venue.config.maxSellTaxBps}bps" with
          simulatedOutLamports := simOut
          effectiveSellTaxBps := taxBps
          simCuConsumed := sim.cuConsumed }
      else
        { venue.refused mint eventSlot .sellable "sell_sim_passed" with
          sellable := true
          simulatedOutLamports := simOut
          effectiveSellTaxBps := taxBps
          simCuConsumed := sim.cuConsumed }

/-- Steps 3 to 5, after a quote. -/
def attempt (mint : String) (eventSlot : ℕ) (quoteOut : ℤ) : Except SellSimError SellSimResult := do
  let signed ← venue.sign (venue.buildSellStub mint eventSlot)
  let sim ← venue.simulateTransaction signed
  return venue.analyse mint eventSlot quoteOut sim

/-- `simulate_sell(mint, event_slot)`. -/
def simulateSell (mint : String) (eventSlot : ℕ) : SellSimResult :=
  let quoteOut := venue.quoteSell
  if quoteOut ≤ 0 then
    venue.refused mint eventSlot .quoteFailed "sell_quote_returned_zero_output"
  else
    match venue.attempt mint eventSlot quoteOut with
    | .ok result => result
    | .error (.signerRefused reason) =>
        venue.refused mint eventSlot .signerRefused ("signer_refused:" ++ reason)
    | .error (.unexpected typeName) =>
        venue.refused mint eventSlot .infrastructureError ("unexpected:" ++ typeName)

/-- What a sell has to pass: a quote, a signature, a simulation that does not revert, and an output
whose tax is within the ceiling. -/
structure Sells (mint : String) (eventSlot : ℕ) : Prop where
  quoted : 0 < venue.quoteSell
  simulated : ∃ signed sim, venue.sign (venue.buildSellStub mint eventSlot) = .ok signed ∧
    venue.simulateTransaction signed = .ok sim ∧ sim.success = true
  paid : 0 < venue.extractSimOut venue.quoteSell
  taxed : computeEffectiveTaxBps (venue.extractSimOut venue.quoteSell) venue.quoteSell ≤
    venue.config.maxSellTaxBps

variable {venue} {mint : String} {eventSlot : ℕ}

theorem analyse_sellable {quoteOut : ℤ} {sim : SimResult} :
    (venue.analyse mint eventSlot quoteOut sim).sellable = true ↔
      sim.success = true ∧ 0 < venue.extractSimOut quoteOut ∧
        computeEffectiveTaxBps (venue.extractSimOut quoteOut) quoteOut ≤
          venue.config.maxSellTaxBps := by
  unfold analyse
  dsimp only
  split_ifs with hfailed hzero htax
  · simp [refused, hfailed]
  · simp [refused, hzero]
  · simp [refused, htax]
  · simp only [not_le] at hzero
    simp only [not_lt] at htax
    simp [Bool.not_eq_false _ ▸ hfailed, hzero, htax]

/-- The verdict and its reason agree. -/
theorem analyse_reason {quoteOut : ℤ} {sim : SimResult} :
    (venue.analyse mint eventSlot quoteOut sim).sellable = true ↔
      (venue.analyse mint eventSlot quoteOut sim).reason = .sellable := by
  unfold analyse
  dsimp only
  split_ifs
  all_goals simp [refused]

/-- The sell that is simulated says `sellable` in both places or in neither. -/
theorem simulateSell_reason : (venue.simulateSell mint eventSlot).sellable = true ↔
    (venue.simulateSell mint eventSlot).reason = .sellable := by
  unfold simulateSell
  dsimp only
  split_ifs
  · simp [refused]
  · cases hattempt : venue.attempt mint eventSlot venue.quoteSell with
    | error e =>
        cases e with
        | signerRefused reason => simp [refused]
        | unexpected typeName => simp [refused]
    | ok result =>
        obtain ⟨signed, -, hrest⟩ := ok_of_bind hattempt
        obtain ⟨sim, -, hresult⟩ := ok_of_bind hrest
        obtain rfl := Except.ok.inj hresult
        exact analyse_reason

/-- **Sellable is what passed every step.** -/
theorem sellable_iff : (venue.simulateSell mint eventSlot).sellable = true ↔
    venue.Sells mint eventSlot := by
  unfold simulateSell
  dsimp only
  split_ifs with hquote
  · refine ⟨fun h => by simp [refused] at h, fun h => ?_⟩
    exact absurd h.quoted (not_lt.2 hquote)
  · rw [not_le] at hquote
    cases hattempt : venue.attempt mint eventSlot venue.quoteSell with
    | error e =>
        refine ⟨fun h => by cases e <;> simp [refused] at h, fun h => ?_⟩
        obtain ⟨signed, sim, hsign, hsim, -⟩ := h.simulated
        rw [attempt, hsign] at hattempt
        change venue.simulateTransaction signed >>= _ = _ at hattempt
        rw [hsim] at hattempt
        cases hattempt
    | ok result =>
        obtain ⟨signed, hsign, hrest⟩ := ok_of_bind hattempt
        obtain ⟨sim, hsim, hresult⟩ := ok_of_bind hrest
        obtain rfl := Except.ok.inj hresult
        refine analyse_sellable.trans ⟨fun h => ?_, fun h => ?_⟩
        · exact ⟨hquote, ⟨signed, sim, hsign, hsim, h.1⟩, h.2.1, h.2.2⟩
        · obtain ⟨signed', sim', hsign', hsim', hsuccess⟩ := h.simulated
          obtain rfl := Except.ok.inj (hsign.symm.trans hsign')
          obtain rfl := Except.ok.inj (hsim.symm.trans hsim')
          exact ⟨hsuccess, h.paid, h.taxed⟩

end SellSimVenue

end Execution
end AatsSniper

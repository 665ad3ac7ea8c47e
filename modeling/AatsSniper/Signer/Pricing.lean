/-
# What an accepted price says

The loops of `_parse_and_price` read back as sums and maxima.  Where it returns
`(parsed, spend)` (`priced_eq_ok`), `spend` is the sum of three parts, at most
the per-tx cap:

* the lamports of the System transfers out of the wallet that
  `_decode_system_transfer` sees, each to a pinned recipient;
* the bounds of the venue decoders;
* the priority fee `⌈limit · price / 10⁶⌉`, with the largest limit and the
  largest price the ComputeBudget instructions set.
-/

import AatsSniper.Lib.Except
import AatsSniper.Signer.Caching
import Mathlib.Data.Rat.Floor

namespace AatsSniper
namespace Signer

open Wire

/-- C2: a tip account, the wallet itself, or its ATA for a static key. -/
def Pinned (solders : Option SoldersPubkey) (policy : SignerPolicy) (walletPubkey : String)
    (accountKeys : List String) (recipient : String) : Prop :=
  recipient ∈ policy.pinnedTipAccounts ∨ recipient = walletPubkey ∨
    ∃ mint ∈ accountKeys, deriveOwn solders policy walletPubkey mint = some recipient

/-- `(recipient, lamports)` of a System transfer out of the wallet, as the C2 loop sees it. -/
def walletTransfer (policy : SignerPolicy) (walletPubkey : String) (accountKeys : List String)
    (ix : ParsedInstruction) : Option (String × ℕ) :=
  if ix.programId = policy.systemProgramId then
    match decodeSystemTransfer ix accountKeys with
    | .ok (some (source, recipient, lamports)) =>
        if source = walletPubkey then some (recipient, lamports) else none
    | _ => none
  else none

/-- The bound its decoder puts on a venue instruction. -/
def venueBound (policy : SignerPolicy) (ix : ParsedInstruction) : ℤ :=
  if ix.programId ∈ policy.venueProgramIds then
    match policy.venueSpendDecoders ix.programId with
    | some decoder => (decoder ix.data).toOption.getD 0
    | none => 0
  else 0

/-- The field a ComputeBudget instruction sets. -/
def cuField (policy : SignerPolicy) (ix : ParsedInstruction) : Option CuField :=
  if ix.programId = policy.computeBudgetProgramId then
    (decodeComputeBudgetIx ix).toOption.join
  else none

/-- The limits the instructions set. -/
def cuLimits (policy : SignerPolicy) (ixs : List ParsedInstruction) : List ℕ :=
  (ixs.filterMap (cuField policy)).filterMap fun
    | .limit value => some value
    | .price _ => none

/-- The prices the instructions set. -/
def cuPrices (policy : SignerPolicy) (ixs : List ParsedInstruction) : List ℕ :=
  (ixs.filterMap (cuField policy)).filterMap fun
    | .limit _ => none
    | .price value => some value

/-- The largest limit set, the protocol maximum where none is. -/
def cuLimit (policy : SignerPolicy) (ixs : List ParsedInstruction) : ℕ :=
  (cuLimits policy ixs).max?.getD protocolMaxCuLimit

/-- The largest price set, zero where none is. -/
def cuPrice (policy : SignerPolicy) (ixs : List ParsedInstruction) : ℕ :=
  (cuPrices policy ixs).max?.getD 0

/-- The priority fee, to the next lamport. -/
def priorityFee (policy : SignerPolicy) (ixs : List ParsedInstruction) : ℤ :=
  ⌈((cuLimit policy ixs * cuPrice policy ixs : ℕ) : ℚ) / (1000000 : ℕ)⌉

section Loops

variable {solders : Option SoldersPubkey} {policy : SignerPolicy} {wallet : String}
  {keys : List String}

theorem pinned_of_isOwnAtaFresh {recipient : String}
    (h : isOwnAtaFresh solders policy wallet keys recipient = true) :
    Pinned solders policy wallet keys recipient := by
  obtain ⟨mint, hmint, hata⟩ := List.any_eq_true.1 h
  exact .inr (.inr ⟨mint, hmint, beq_iff_eq.1 hata⟩)

/-- The C2 loop sums the transfers out of the wallet, all to pinned recipients. -/
theorem systemSpendLoop_eq_ok : ∀ {ixs : List ParsedInstruction} {spend total : ℕ},
    (systemSpendLoop (fun recipient _ => (isOwnAtaFresh solders policy wallet keys recipient, ()))
      policy wallet keys ixs spend ()).1 = .ok total →
    total = spend + ((ixs.filterMap (walletTransfer policy wallet keys)).map Prod.snd).sum ∧
      ∀ transfer ∈ ixs.filterMap (walletTransfer policy wallet keys),
        Pinned solders policy wallet keys transfer.1
  | [], spend, total, h => by
      obtain rfl : spend = total := Except.ok.inj h
      simp
  | ix :: rest, spend, total, h => by
      unfold systemSpendLoop at h
      by_cases hsystem : ix.programId = policy.systemProgramId
      · rw [if_neg (not_not.2 hsystem)] at h
        rcases hdecode : decodeSystemTransfer ix keys with message | _ | ⟨source, recipient, lamports⟩
        · rw [hdecode] at h
          cases h
        · rw [hdecode] at h
          have hnone : walletTransfer policy wallet keys ix = none := by
            simp [walletTransfer, hsystem, hdecode]
          rw [List.filterMap_cons_none hnone]
          exact systemSpendLoop_eq_ok h
        · rw [hdecode] at h
          dsimp only at h
          by_cases hsource : source = wallet
          · have hsome : walletTransfer policy wallet keys ix = some (recipient, lamports) := by
              simp [walletTransfer, hsystem, hdecode, hsource]
            have hadd : (systemSpendLoop (fun recipient _ =>
                (isOwnAtaFresh solders policy wallet keys recipient, ())) policy wallet keys rest
                (spend + lamports) ()).1 = .ok total ∧
                Pinned solders policy wallet keys recipient := by
              rw [if_neg (not_not.2 hsource)] at h
              split_ifs at h with hpinned
              · exact ⟨h, hpinned.imp_right .inl⟩
              · cases hown : isOwnAtaFresh solders policy wallet keys recipient with
                | false => simp [hown] at h
                | true => exact ⟨by simpa [hown] using h, pinned_of_isOwnAtaFresh hown⟩
            obtain ⟨htotal, hall⟩ := systemSpendLoop_eq_ok hadd.1
            rw [List.filterMap_cons_some hsome]
            refine ⟨by simp [htotal, Nat.add_assoc], ?_⟩
            rintro transfer (_ | ⟨_, htransfer⟩)
            · exact hadd.2
            · exact hall transfer htransfer
          · have hnone : walletTransfer policy wallet keys ix = none := by
              simp [walletTransfer, hsystem, hdecode, hsource]
            rw [if_pos hsource] at h
            rw [List.filterMap_cons_none hnone]
            exact systemSpendLoop_eq_ok h
      · have hnone : walletTransfer policy wallet keys ix = none := by
          simp [walletTransfer, hsystem]
        rw [if_pos hsystem] at h
        rw [List.filterMap_cons_none hnone]
        exact systemSpendLoop_eq_ok h

/-- The venue loop sums the bounds. -/
theorem venueSpendLoop_eq_ok : ∀ {ixs : List ParsedInstruction} {spend total : ℤ},
    venueSpendLoop policy ixs spend = .ok total → total = spend + (ixs.map (venueBound policy)).sum
  | [], spend, total, h => by
      obtain rfl : spend = total := Except.ok.inj h
      simp
  | ix :: rest, spend, total, h => by
      unfold venueSpendLoop at h
      rw [List.map_cons, List.sum_cons]
      by_cases hvenue : ix.programId ∈ policy.venueProgramIds
      · rw [if_neg (not_not.2 hvenue)] at h
        cases hdecoder : policy.venueSpendDecoders ix.programId with
        | none => simp [hdecoder] at h
        | some decoder =>
            cases hbound : decoder ix.data with
            | error exc => simp [hdecoder, hbound] at h
            | ok bound =>
                have hvalue : venueBound policy ix = bound := by
                  simp [venueBound, hvenue, hdecoder, hbound, Except.toOption]
                simp only [hdecoder, hbound] at h
                rw [hvalue, ← add_assoc]
                exact venueSpendLoop_eq_ok h
      · have hzero : venueBound policy ix = 0 := by simp [venueBound, hvenue]
        rw [if_pos hvenue] at h
        rw [hzero, zero_add]
        exact venueSpendLoop_eq_ok h

/-- The ComputeBudget loop folds the limits and the prices. -/
theorem computeBudgetLoop_eq_ok : ∀ {ixs : List ParsedInstruction} {seen seen' : Option ℕ}
    {price price' : ℕ}, computeBudgetLoop policy ixs seen price = .ok (seen', price') →
    seen' = (cuLimits policy ixs).foldl (fun seen v => some (seen.elim v fun s => max s v)) seen ∧
      price' = (cuPrices policy ixs).foldl max price
  | [], seen, seen', price, price', h => by
      obtain ⟨rfl, rfl⟩ := Prod.mk.inj (Except.ok.inj h)
      exact ⟨rfl, rfl⟩
  | ix :: rest, seen, seen', price, price', h => by
      unfold computeBudgetLoop at h
      by_cases hbudget : ix.programId = policy.computeBudgetProgramId
      · rw [if_neg (not_not.2 hbudget)] at h
        rcases hdecode : decodeComputeBudgetIx ix with message | _ | _ | _
        · simp [hdecode] at h
        all_goals
          simp only [hdecode] at h
          have ih := computeBudgetLoop_eq_ok h
          simpa [cuLimits, cuPrices, cuField, hbudget, hdecode, Except.toOption] using ih
      · rw [if_pos hbudget] at h
        have ih := computeBudgetLoop_eq_ok h
        simpa [cuLimits, cuPrices, cuField, hbudget] using ih

end Loops

theorem foldl_seen (values : List ℕ) (seen : ℕ) :
    values.foldl (fun seen v => some (seen.elim v fun s => max s v)) (some seen) =
      some (values.foldl max seen) := by
  induction values generalizing seen with
  | nil => rfl
  | cons v values ih => exact ih (max seen v)

theorem foldl_seen_none (values : List ℕ) :
    values.foldl (fun seen v => some (seen.elim v fun s => max s v)) none = values.max? := by
  cases values with
  | nil => rfl
  | cons v values => exact foldl_seen values v

theorem foldl_max_zero (values : List ℕ) : values.foldl max 0 = values.max?.getD 0 := by
  cases values with
  | nil => rfl
  | cons v values => rw [List.foldl_cons, Nat.zero_max, List.max?_cons', Option.getD_some]

/-- The fee the enforcer computes is the priority fee. -/
theorem priorityFeeLamports_eq {policy : SignerPolicy} {ixs : List ParsedInstruction}
    {seen : Option ℕ} {price : ℕ} (h : computeBudgetLoop policy ixs none 0 = .ok (seen, price)) :
    priorityFeeLamports seen price = priorityFee policy ixs := by
  obtain ⟨rfl, rfl⟩ := computeBudgetLoop_eq_ok h
  rw [foldl_seen_none, foldl_max_zero]
  have hceil := Rat.ceil_intCast_div_natCast (cuLimit policy ixs * cuPrice policy ixs : ℕ) 1000000
  rw [Int.cast_natCast] at hceil
  rw [priorityFee, hceil, priorityFeeLamports]
  split_ifs with hprice
  · simp [cuLimit, cuPrice]
  · have hzero : cuPrice policy ixs = 0 := Nat.eq_zero_of_not_pos hprice
    simp [hzero]

/-- C3 accepts the sum of the three parts, if it is within the cap. -/
theorem capSpend_eq_ok {policy : SignerPolicy} {ixs : List ParsedInstruction} {systemSpend : ℕ}
    {spend : ℤ} (h : capSpend policy ixs systemSpend = .ok spend) :
    spend = systemSpend + (ixs.map (venueBound policy)).sum + priorityFee policy ixs ∧
      spend ≤ policy.perTxCapLamports := by
  unfold capSpend at h
  obtain ⟨venueSpend, hvenue, h⟩ := ok_of_bind h
  obtain ⟨⟨seen, price⟩, hbudget, h⟩ := ok_of_bind h
  dsimp only at h
  split_ifs at h with hcap
  obtain rfl := Except.ok.inj h
  rw [priorityFeeLamports_eq hbudget] at hcap ⊢
  rw [venueSpendLoop_eq_ok hvenue, zero_add] at hcap ⊢
  exact ⟨rfl, not_lt.1 hcap⟩

/-- **What an accepted price says.** -/
theorem priced_eq_ok {solders : Option SoldersPubkey} {policy : SignerPolicy} {txBytes : Bytes}
    {wallet : String} {parsed : ParsedTx} {spend : ℤ}
    (h : priced solders policy txBytes wallet = .ok (parsed, spend)) :
    let transfers := parsed.instructions.filterMap
      (walletTransfer policy wallet parsed.accountKeys)
    parseTransaction txBytes = .ok parsed ∧ checkParsed policy wallet parsed = .ok () ∧
      (∀ transfer ∈ transfers, Pinned solders policy wallet parsed.accountKeys transfer.1) ∧
      spend = (transfers.map Prod.snd).sum + (parsed.instructions.map (venueBound policy)).sum +
        priorityFee policy parsed.instructions ∧
      spend ≤ policy.perTxCapLamports := by
  unfold priced parseAndPriceFresh parseAndPriceWith at h
  cases hparse : parseTransaction txBytes with
  | error message => simp [hparse] at h
  | ok parsed' =>
      simp only [hparse, priceParsed] at h
      cases hcheck : checkParsed policy wallet parsed' with
      | error refused => simp [hcheck] at h
      | ok _ =>
          simp only [hcheck] at h
          rcases hloop : systemSpendLoop (fun recipient _ =>
            (isOwnAtaFresh solders policy wallet parsed'.accountKeys recipient, ())) policy wallet
            parsed'.accountKeys parsed'.instructions 0 () with ⟨refused | systemSpend, _⟩
          · simp [hloop] at h
          · obtain ⟨hsystem, hpinned⟩ := systemSpendLoop_eq_ok (congrArg Prod.fst hloop)
            simp only [hloop] at h
            cases hcap : capSpend policy parsed'.instructions systemSpend with
            | error refused => simp [hcap] at h
            | ok spend' =>
                simp only [hcap] at h
                obtain ⟨rfl, rfl⟩ := Prod.mk.inj (Except.ok.inj h)
                obtain ⟨hspend, hle⟩ := capSpend_eq_ok hcap
                rw [hsystem, Nat.zero_add] at hspend
                exact ⟨rfl, hcheck, hpinned, by exact_mod_cast hspend, hle⟩

end Signer
end AatsSniper

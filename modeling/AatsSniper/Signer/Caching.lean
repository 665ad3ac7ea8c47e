/-
# The enforcer's caches compute nothing new

`_ata_cache` and `_price_cache` of `aats/execution/signer_enforcer.py`.  Both
are "perf-only, never a policy input" by their comments: an entry of the first
is what `_try_derive_ata` returns, an entry of the second what
`_parse_and_price` would compute again.  That is an invariant of the caches
(`Caches.Consistent`), kept by every call, and under it `parseAndPrice` answers
what `parseAndPriceFresh` does (`parseAndPrice_computes`), a cache that is
cleared when full or left behind by a refusal included.
-/

import AatsSniper.Lib.Memo
import AatsSniper.Signer.Enforcer

namespace AatsSniper
namespace Signer

open Wire

/-- Every entry of the cache is the derivation it stands for. -/
def AtaCache.Consistent (derive : String → String → Option String) (cache : AtaCache) : Prop :=
  ∀ wallet mint ata, cache.lookup (wallet, mint) = some ata → ata = derive wallet mint

section Ata

variable {derive : String → String → Option String}

theorem AtaCache.consistent_nil : AtaCache.Consistent derive [] := by
  intro wallet mint ata h
  simp at h

/-- A derivation may be stored. -/
theorem AtaCache.Consistent.cons {cache : AtaCache} (h : cache.Consistent derive)
    (wallet mint : String) :
    AtaCache.Consistent derive (((wallet, mint), derive wallet mint) :: cache) := by
  intro wallet' mint' ata hlookup
  rw [List.lookup_cons] at hlookup
  by_cases hkey : (wallet', mint') = (wallet, mint)
  · obtain ⟨rfl, rfl⟩ := Prod.mk.inj hkey
    simpa using hlookup.symm
  · rw [beq_false_of_ne hkey] at hlookup
    exact h wallet' mint' ata hlookup

theorem isOwnAtaLoop_computes (wallet recipient : String) :
    ∀ keys : List String, Computes (AtaCache.Consistent derive)
      (isOwnAtaLoop derive wallet recipient keys)
      (keys.any fun mint => derive wallet mint == some recipient)
  | [] => Computes.pure false
  | mint :: rest => by
      intro cache hcache
      have ih := isOwnAtaLoop_computes wallet recipient rest
      rw [isOwnAtaLoop, List.any_cons]
      cases hlookup : cache.lookup (wallet, mint) with
      | some ata =>
          obtain rfl := hcache wallet mint ata hlookup
          by_cases hata : derive wallet mint = some recipient
          · simp [hata, hcache]
          · rw [beq_false_of_ne hata, Bool.false_or]
            simpa only [if_neg hata] using ih cache hcache
      | none =>
          have hcons := hcache.cons wallet mint
          by_cases hata : derive wallet mint = some recipient
          · rw [hata] at hcons
            simp [hata, hcons]
          · rw [beq_false_of_ne hata, Bool.false_or]
            simpa only [if_neg hata] using ih _ hcons

theorem isOwnAta_computes (wallet : String) (keys : List String) (recipient : String) :
    Computes (AtaCache.Consistent derive) (isOwnAta derive wallet keys recipient)
      (keys.any fun mint => derive wallet mint == some recipient) := by
  intro cache hcache
  refine isOwnAtaLoop_computes wallet recipient keys _ ?_
  split_ifs
  · exact AtaCache.consistent_nil
  · exact hcache

end Ata

section Pricing

variable {σ : Type} {I : σ → Prop} (policy : SignerPolicy) (wallet : String)

theorem systemSpendLoop_computes {test : String → σ → Bool × σ} {answer : String → Bool}
    (htest : ∀ recipient, Computes I (test recipient) (answer recipient)) (keys : List String) :
    ∀ (ixs : List ParsedInstruction) (spend : ℕ),
      Computes I (systemSpendLoop test policy wallet keys ixs spend)
        (systemSpendLoop (fun recipient _ => (answer recipient, ())) policy wallet keys ixs spend ()).1
  | [], spend => Computes.pure (Except.ok spend)
  | ix :: rest, spend => by
      intro s hs
      have ih := systemSpendLoop_computes htest keys rest
      unfold systemSpendLoop
      split_ifs with hsystem
      · exact ih spend s hs
      · cases hdecode : decodeSystemTransfer ix keys with
        | error message => exact ⟨rfl, hs⟩
        | ok transfer =>
            rcases transfer with _ | ⟨source, recipient, lamports⟩
            · exact ih spend s hs
            · dsimp only
              split_ifs with hsource hpinned
              · exact ih spend s hs
              · exact ih _ s hs
              · obtain ⟨hanswer, hinv⟩ := htest recipient s hs
                rcases hrun : test recipient s with ⟨b, s'⟩
                rw [hrun] at hanswer hinv
                rw [← hanswer]
                cases b with
                | true => exact ih _ s' hinv
                | false => exact ⟨rfl, hinv⟩

theorem priceParsed_computes {test : String → σ → Bool × σ} {answer : String → Bool}
    (htest : ∀ recipient, Computes I (test recipient) (answer recipient)) (parsed : ParsedTx) :
    Computes I (priceParsed test policy wallet parsed)
      (priceParsed (fun recipient _ => (answer recipient, ())) policy wallet parsed ()).1 := by
  intro s hs
  unfold priceParsed
  cases checkParsed policy wallet parsed with
  | error refused => exact ⟨rfl, hs⟩
  | ok _ =>
      obtain ⟨hfst, hinv⟩ := systemSpendLoop_computes policy wallet htest parsed.accountKeys
        parsed.instructions 0 s hs
      rcases hrun : systemSpendLoop test policy wallet parsed.accountKeys parsed.instructions 0 s
        with ⟨spend, s'⟩
      rcases hfresh : systemSpendLoop (fun recipient _ => (answer recipient, ())) policy wallet
        parsed.accountKeys parsed.instructions 0 () with ⟨spend', _⟩
      rw [hrun] at hfst hinv
      rw [hfresh] at hfst
      obtain rfl : spend = spend' := hfst
      cases spend <;> exact ⟨rfl, hinv⟩

theorem parseAndPriceWith_computes {test : List String → String → σ → Bool × σ}
    {answer : List String → String → Bool}
    (htest : ∀ keys recipient, Computes I (test keys recipient) (answer keys recipient))
    (txBytes : Bytes) :
    Computes I (parseAndPriceWith test policy txBytes wallet)
      (parseAndPriceWith (fun keys recipient _ => (answer keys recipient, ())) policy txBytes
        wallet ()).1 := by
  intro s hs
  unfold parseAndPriceWith
  cases parseTransaction txBytes with
  | error message => exact ⟨rfl, hs⟩
  | ok parsed =>
      obtain ⟨hfst, hinv⟩ := priceParsed_computes policy wallet (htest parsed.accountKeys) parsed s hs
      rcases hrun : priceParsed (test parsed.accountKeys) policy wallet parsed s with ⟨spend, s'⟩
      rcases hfresh : priceParsed (fun recipient _ => (answer parsed.accountKeys recipient, ()))
        policy wallet parsed () with ⟨spend', _⟩
      rw [hrun] at hfst hinv
      rw [hfresh] at hfst
      obtain rfl : spend = spend' := hfst
      cases spend <;> exact ⟨by simp [hrun, hfresh], by simpa [hrun] using hinv⟩

end Pricing

variable (solders : Option SoldersPubkey) (policy : SignerPolicy)

/-- What `_parse_and_price` returns or raises, as a function of the request alone. -/
def priced (txBytes : Bytes) (walletPubkey : String) : Except SignerRefused (ParsedTx × ℤ) :=
  (parseAndPriceFresh solders policy txBytes walletPubkey ()).1

/-- Both caches hold only what a fresh computation would give. -/
structure Caches.Consistent (caches : Caches) : Prop where
  ata : AtaCache.Consistent (deriveOwn solders policy) caches.ata
  price : ∀ e, caches.price = some e →
    priced solders policy e.txBytes e.walletPubkey = .ok (e.parsed, e.totalSpend)

/-- The caches of a new `Enforcer`. -/
theorem Caches.consistent_empty : Caches.Consistent solders policy {} :=
  ⟨AtaCache.consistent_nil, fun _ h => by cases h⟩

/-- **The caches are invisible.**  With consistent caches `_parse_and_price`
answers what it would answer with none, and leaves them consistent. -/
theorem parseAndPrice_computes (txBytes : Bytes) (walletPubkey : String) :
    Computes (Caches.Consistent solders policy)
      (parseAndPrice solders policy txBytes walletPubkey)
      (priced solders policy txBytes walletPubkey) := by
  intro caches hcaches
  unfold parseAndPrice
  cases hhit : caches.price.filter fun e => e.txBytes == txBytes && e.walletPubkey == walletPubkey with
  | some cached =>
      obtain ⟨hentry, hkey⟩ := Option.filter_eq_some_iff.1 hhit
      rw [Bool.and_eq_true, beq_iff_eq, beq_iff_eq] at hkey
      obtain ⟨rfl, rfl⟩ := hkey
      exact ⟨(hcaches.price cached hentry).symm, hcaches⟩
  | none =>
      have htest := @isOwnAta_computes (deriveOwn solders policy) walletPubkey
      obtain ⟨hfst, hata⟩ :=
        parseAndPriceWith_computes policy walletPubkey htest txBytes caches.ata hcaches.ata
      change _ = priced solders policy txBytes walletPubkey at hfst
      rcases hrun : parseAndPriceWith (isOwnAta (deriveOwn solders policy) walletPubkey) policy
        txBytes walletPubkey caches.ata with ⟨outcome, ata⟩
      rw [hrun] at hfst hata
      dsimp only at hfst hata ⊢
      subst hfst
      rcases houtcome : priced solders policy txBytes walletPubkey with refused | ⟨parsed, spend⟩
      · exact ⟨rfl, hata, hcaches.price⟩
      · refine ⟨rfl, hata, fun e he => ?_⟩
        obtain rfl := Option.some.inj he
        exact houtcome

end Signer
end AatsSniper

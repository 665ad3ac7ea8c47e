/-
# What a request is answered, as a function of the window

The abstract signer.  It has no caches and remembers only the ledger: a request
at time `now_s` is answered by `answer`, a function of the payload and of the
ledger entries still in the window, and a signed request adds its spend.

`handleSignRequest_refines` says that the handler of `signer_process.py` does
this, with any `Pricer` that computes `priced` on its own caches.  The
ledger of the process may differ from the abstract one in entries that have
left the window (`AgreesFrom`): C4 prunes even where it refuses.
-/

import AatsSniper.Lib.Window
import AatsSniper.Signer.Caching
import AatsSniper.Signer.Process

namespace AatsSniper
namespace Signer

open Wire

namespace VelocityLedger

theorem prune_eq (windowSeconds : ℤ) (entries : List (ℚ × ℤ)) (nowS : ℚ) :
    prune ⟨windowSeconds, entries⟩ nowS =
      ⟨windowSeconds, Window.recent (windowSeconds : ℚ) nowS entries⟩ := rfl

/-- What is pruned later need not be pruned earlier. -/
theorem prune_prune {t nowS : ℚ} (h : t ≤ nowS) (ledger : VelocityLedger) :
    (ledger.prune t).prune nowS = ledger.prune nowS := by
  obtain ⟨windowSeconds, entries⟩ := ledger
  rw [prune_eq, prune_eq, prune_eq, Window.recent_recent h]

/-- No check at time `t` or later can tell the two ledgers apart. -/
def AgreesFrom (t : ℚ) (ledger ledger' : VelocityLedger) : Prop :=
  ∀ nowS, t ≤ nowS → ledger.prune nowS = ledger'.prune nowS

theorem AgreesFrom.refl (t : ℚ) (ledger : VelocityLedger) : AgreesFrom t ledger ledger :=
  fun _ _ => rfl

theorem AgreesFrom.symm {t : ℚ} {l l' : VelocityLedger} (h : AgreesFrom t l l') :
    AgreesFrom t l' l :=
  fun nowS ht => (h nowS ht).symm

theorem AgreesFrom.trans {t : ℚ} {l₁ l₂ l₃ : VelocityLedger} (h₁ : AgreesFrom t l₁ l₂)
    (h₂ : AgreesFrom t l₂ l₃) : AgreesFrom t l₁ l₃ :=
  fun nowS ht => (h₁ nowS ht).trans (h₂ nowS ht)

theorem AgreesFrom.mono {t t' : ℚ} (htt : t ≤ t') {l l' : VelocityLedger}
    (h : AgreesFrom t l l') : AgreesFrom t' l l' :=
  fun nowS ht => h nowS (htt.trans ht)

theorem prune_agreesFrom (ledger : VelocityLedger) (t : ℚ) : AgreesFrom t (ledger.prune t) ledger :=
  fun _ ht => prune_prune ht ledger

/-- Recording makes agreeing ledgers equal. -/
theorem AgreesFrom.record_eq {t nowS : ℚ} {l l' : VelocityLedger} (h : AgreesFrom t l l')
    (ht : t ≤ nowS) (spend : ℤ) : l.record nowS spend = l'.record nowS spend := by
  unfold record
  rw [h nowS ht]

end VelocityLedger

/-- C4 and C5, given what C0 to C3 made of the transaction: the spend it may be
signed for. -/
def verdict (policy : SignerPolicy) (price : Except SignerRefused (ParsedTx × ℤ))
    (inWindow : VelocityLedger) : Except SignerRefused ℤ :=
  match price with
  | .error refused => .error refused
  | .ok (parsed, totalSpend) =>
      match inWindow.wouldExceed totalSpend policy.aggregateCapLamports policy.maxSignCount with
      | some violation => .error ⟨violation, s!"C4 breach: {violation.code}"⟩
      | none =>
          (checkApprovals policy parsed.accountKeys parsed.instructions).map fun _ => totalSpend

/-- The response to a transaction, and the spend to record if it is signed. -/
def answerTx (cfg : SignerConfig) (txBytes : Bytes) (inWindow : VelocityLedger) :
    Response × Option ℤ :=
  match verdict cfg.policy (priced cfg.solders cfg.policy txBytes cfg.pubkeyB58) inWindow with
  | .error exc => (.refused exc.message exc.reason, none)
  | .ok spend =>
      match (signTransaction txBytes cfg.signMessage).1 with
      | .error exc => (.refused exc .txUnparseable, none)
      | .ok signedBytes => (.signed (Base64.b64encode signedBytes) cfg.pubkeyB58, some spend)

/-- The response to a payload, and the spend to record if it is signed. -/
def answer (cfg : SignerConfig) (payload : Json) (inWindow : VelocityLedger) :
    Except PyException Response × Option ℤ :=
  match payload with
  | .obj members =>
      if walletIdMatches cfg members then
        match txBytesOf members with
        | .error message => (.ok (.refused message .txUnparseable), none)
        | .ok txBytes =>
            (.ok (answerTx cfg txBytes inWindow).1, (answerTx cfg txBytes inWindow).2)
      else
        (.ok (.refused ("request wallet_id does not match this signer process's provisioned " ++
          "wallet (single-wallet-per-process invariant).") .walletIdMismatch), none)
  | _ => (.error .attributeError, none)

/-- The ledger after a request: a signature is recorded, anything else leaves
what can still be seen of it as it was. -/
def Recorded (recorded : Option ℤ) (nowS : ℚ) (before after : VelocityLedger) : Prop :=
  match recorded with
  | none => after.AgreesFrom nowS before
  | some spend => after = before.record nowS spend

section Refinement

variable {σ : Type} {I : σ → Prop} {cfg : SignerConfig} {pricer : Pricer σ}

theorem enforce_refines (policy : SignerPolicy) {txBytes : Bytes} {wallet : String}
    {price : Except SignerRefused (ParsedTx × ℤ)} (hpricer : Computes I (pricer txBytes wallet) price)
    (nowS : ℚ) {caches : σ} (hcaches : I caches) (ledger : VelocityLedger) :
    ∃ caches' ledger', enforce pricer policy txBytes wallet nowS (caches, ledger) =
        ((verdict policy price (ledger.prune nowS)).map fun _ => (), caches', ledger') ∧
      I caches' ∧ ledger'.AgreesFrom nowS ledger := by
  obtain ⟨hfst, hinv⟩ := hpricer caches hcaches
  unfold enforce verdict
  rcases hrun : pricer txBytes wallet caches with ⟨outcome, caches'⟩
  rw [hrun] at hfst hinv
  dsimp only at hfst hinv
  subst hfst
  rcases outcome with refused | ⟨parsed, spend⟩
  · exact ⟨caches', ledger, rfl, hinv, .refl nowS ledger⟩
  · dsimp only
    have hagree := ledger.prune_agreesFrom nowS
    cases (ledger.prune nowS).wouldExceed spend policy.aggregateCapLamports policy.maxSignCount with
    | some violation => exact ⟨caches', _, rfl, hinv, hagree⟩
    | none =>
        refine ⟨caches', _, ?_, hinv, hagree⟩
        cases checkApprovals policy parsed.accountKeys parsed.instructions <;> rfl

/-- What an accepting verdict says of the price. -/
theorem price_of_verdict {policy : SignerPolicy} {price : Except SignerRefused (ParsedTx × ℤ)}
    {inWindow : VelocityLedger} {spend : ℤ} (h : verdict policy price inWindow = .ok spend) :
    ∃ parsed, price = .ok (parsed, spend) ∧
      inWindow.wouldExceed spend policy.aggregateCapLamports policy.maxSignCount = none ∧
      checkApprovals policy parsed.accountKeys parsed.instructions = .ok () := by
  unfold verdict at h
  rcases price with refused | ⟨parsed, total⟩
  · cases h
  · dsimp only at h
    cases hexceed : inWindow.wouldExceed total policy.aggregateCapLamports policy.maxSignCount with
    | some violation => simp [hexceed] at h
    | none =>
        cases happrovals : checkApprovals policy parsed.accountKeys parsed.instructions with
        | error refused => simp [hexceed, happrovals, Except.map] at h
        | ok _ =>
            obtain rfl : total = spend := by simpa [hexceed, happrovals, Except.map] using h
            exact ⟨parsed, rfl, hexceed, happrovals⟩

theorem policeAndSign_refines {txBytes : Bytes}
    (hpricer : Computes I (pricer txBytes cfg.pubkeyB58)
      (priced cfg.solders cfg.policy txBytes cfg.pubkeyB58))
    (nowS : ℚ) {st : SignerState σ} (hst : I st.enforcer) :
    (policeAndSign cfg pricer txBytes nowS st).1 = (answerTx cfg txBytes (st.ledger.prune nowS)).1 ∧
      I (policeAndSign cfg pricer txBytes nowS st).2.enforcer ∧
      Recorded (answerTx cfg txBytes (st.ledger.prune nowS)).2 nowS st.ledger
        (policeAndSign cfg pricer txBytes nowS st).2.ledger := by
  obtain ⟨caches', ledger', henforce, hinv, hagree⟩ :=
    enforce_refines cfg.policy hpricer nowS hst st.ledger
  unfold policeAndSign answerTx
  rw [henforce]
  cases hverdict : verdict cfg.policy (priced cfg.solders cfg.policy txBytes cfg.pubkeyB58)
      (st.ledger.prune nowS) with
  | error exc => exact ⟨rfl, hinv, hagree⟩
  | ok spend =>
      rcases hsign : signTransaction txBytes cfg.signMessage with ⟨exc | signedBytes, messages⟩
      · simp only [Except.map]
        exact ⟨trivial, hinv, hagree⟩
      · -- the second pricing answers what `enforce` saw
        obtain ⟨parsed, hprice, -, -⟩ := price_of_verdict hverdict
        obtain ⟨hagain, hinv'⟩ := hpricer caches' hinv
        simp only [Except.map, hagain, hprice]
        exact ⟨trivial, hinv', hagree.record_eq le_rfl spend⟩

/-- **The handler refines the abstract signer.**  The response is the abstract
one, the caches keep their invariant, and the ledger records what was signed. -/
theorem handleSignRequest_refines
    (hpricer : ∀ txBytes, Computes I (pricer txBytes cfg.pubkeyB58)
      (priced cfg.solders cfg.policy txBytes cfg.pubkeyB58))
    (payload : Json) (nowS : ℚ) {st : SignerState σ} (hst : I st.enforcer) :
    (handleSignRequest cfg pricer payload nowS st).1 =
        (answer cfg payload (st.ledger.prune nowS)).1 ∧
      I (handleSignRequest cfg pricer payload nowS st).2.enforcer ∧
      Recorded (answer cfg payload (st.ledger.prune nowS)).2 nowS st.ledger
        (handleSignRequest cfg pricer payload nowS st).2.ledger := by
  have hidle := VelocityLedger.AgreesFrom.refl nowS st.ledger
  cases payload with
  | obj members =>
      unfold handleSignRequest answer handleSignDict
      dsimp only
      split_ifs with hwallet
      · cases txBytesOf members with
        | error message => exact ⟨rfl, hst, hidle⟩
        | ok txBytes =>
            obtain ⟨hresponse, hinv, hrecorded⟩ := policeAndSign_refines (hpricer txBytes) nowS hst
            exact ⟨congrArg _ hresponse, hinv, hrecorded⟩
      · exact ⟨rfl, hst, hidle⟩
  | null => exact ⟨rfl, hst, hidle⟩
  | bool _ => exact ⟨rfl, hst, hidle⟩
  | int _ => exact ⟨rfl, hst, hidle⟩
  | float _ => exact ⟨rfl, hst, hidle⟩
  | str _ => exact ⟨rfl, hst, hidle⟩
  | arr _ => exact ⟨rfl, hst, hidle⟩

end Refinement

end Signer
end AatsSniper

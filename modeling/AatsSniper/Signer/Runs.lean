/-
# Runs of the signer

A run is a sequence of `handle_sign_request` calls against one `Enforcer` and
one `VelocityLedger`.  Two runs over the same requests answer the same as soon
as their ledgers agree from the first request on (`run_congr`), whatever the
caches; and a request that is not signed leaves a ledger that agrees with the
one before it.  Together: the accepted requests are answered as a signer with
no caches answers them that never saw the refused ones
(`accepted_answered_as_if_alone`).
-/

import AatsSniper.Signer.Verdict

namespace AatsSniper
namespace Signer

open Wire
open VelocityLedger (AgreesFrom)

/-- A request: the decoded payload and the clock reading `now_s`. -/
abbrev Request := Json × ℚ

/-- The response is a signature. -/
def isSigned : Except PyException Response → Bool
  | .ok (.signed _ _) => true
  | _ => false

/-- The clock does not go back. -/
def InOrder (requests : List Request) : Prop := requests.Pairwise fun r r' => r.2 ≤ r'.2

/-- Handle the requests one after the other; every request with its response. -/
def run {σ : Type} (cfg : SignerConfig) (pricer : Pricer σ) :
    List Request → SignerState σ → List (Request × Except PyException Response) × SignerState σ
  | [], st => ([], st)
  | request :: rest, st =>
      let answered := handleSignRequest cfg pricer request.1 request.2 st
      let later := run cfg pricer rest answered.2
      ((request, answered.1) :: later.1, later.2)

/-- The run of the process, on the caches of its `Enforcer`. -/
def runCached (cfg : SignerConfig) := run cfg (parseAndPrice cfg.solders cfg.policy)

/-- The run of an enforcer with neither cache. -/
def runFresh (cfg : SignerConfig) := run cfg (parseAndPriceFresh cfg.solders cfg.policy)

/-- The requests of a run that were signed, with their responses. -/
def acceptedOf (served : List (Request × Except PyException Response)) :
    List (Request × Except PyException Response) :=
  served.filter fun a => isSigned a.2

/-- A process that has just booted, on a given ledger. -/
def booted (ledger : VelocityLedger) : SignerState Caches := { enforcer := {}, ledger := ledger }

theorem exists_stop (requests : List Request) : ∃ stop, ∀ r ∈ requests, r.2 ≤ stop := by
  obtain ⟨stop, hstop⟩ := (requests.map Prod.snd).toFinset.bddAbove
  exact ⟨stop, fun r hr => hstop (by simpa using ⟨r.1, hr⟩)⟩

/-- A signature is returned exactly when a spend is recorded. -/
theorem isSigned_answer (cfg : SignerConfig) (payload : Json) (inWindow : VelocityLedger) :
    isSigned (answer cfg payload inWindow).1 = (answer cfg payload inWindow).2.isSome := by
  have htx : ∀ txBytes, isSigned (.ok (answerTx cfg txBytes inWindow).1) =
      (answerTx cfg txBytes inWindow).2.isSome := by
    intro txBytes
    unfold answerTx
    split
    · rfl
    · split <;> rfl
  cases payload with
  | obj members =>
      unfold answer
      dsimp only
      split_ifs
      · cases txBytesOf members with
        | error _ => rfl
        | ok txBytes => exact htx txBytes
      · rfl
  | null | bool _ | int _ | float _ | str _ | arr _ => rfl

/-- What was checked when a spend was recorded. -/
theorem answer_eq_some {cfg : SignerConfig} {payload : Json} {inWindow : VelocityLedger} {spend : ℤ}
    (h : (answer cfg payload inWindow).2 = some spend) :
    ∃ members txBytes parsed, payload = .obj members ∧ txBytesOf members = .ok txBytes ∧
      priced cfg.solders cfg.policy txBytes cfg.pubkeyB58 = .ok (parsed, spend) ∧
      inWindow.wouldExceed spend cfg.policy.aggregateCapLamports cfg.policy.maxSignCount = none := by
  cases payload with
  | null | bool _ | int _ | float _ | str _ | arr _ => cases h
  | obj members =>
      unfold answer at h
      dsimp only at h
      split_ifs at h
      cases htx : txBytesOf members with
      | error message => simp [htx] at h
      | ok txBytes =>
          simp only [htx, answerTx] at h
          cases hverdict : verdict cfg.policy (priced cfg.solders cfg.policy txBytes cfg.pubkeyB58)
              inWindow with
          | error exc => simp [hverdict] at h
          | ok spend' =>
              simp only [hverdict] at h
              cases hsign : (signTransaction txBytes cfg.signMessage).1 with
              | error exc => simp [hsign] at h
              | ok signedBytes =>
                  obtain rfl : spend' = spend := by simpa [hsign] using h
                  obtain ⟨parsed, hprice, hroom, -⟩ := price_of_verdict hverdict
                  exact ⟨members, txBytes, parsed, rfl, htx, hprice, hroom⟩

section Pricers

variable {σ τ : Type} {I : σ → Prop} {J : τ → Prop} {cfg : SignerConfig}

/-- The pricer computes `priced` for the wallet of the process. -/
def Prices (cfg : SignerConfig) (I : σ → Prop) (pricer : Pricer σ) : Prop :=
  ∀ txBytes, Computes I (pricer txBytes cfg.pubkeyB58)
    (priced cfg.solders cfg.policy txBytes cfg.pubkeyB58)

theorem parseAndPrice_prices (cfg : SignerConfig) :
    Prices cfg (Caches.Consistent cfg.solders cfg.policy)
      (parseAndPrice cfg.solders cfg.policy) :=
  fun txBytes => parseAndPrice_computes cfg.solders cfg.policy txBytes cfg.pubkeyB58

theorem parseAndPriceFresh_prices (cfg : SignerConfig) :
    Prices cfg (fun _ : Unit => True) (parseAndPriceFresh cfg.solders cfg.policy) :=
  fun _ _ _ => ⟨rfl, trivial⟩

variable {p : Pricer σ} {q : Pricer τ} (hp : Prices cfg I p) (hq : Prices cfg J q)
include hp

/-- A request that is not signed leaves no trace in the ledger. -/
theorem unsigned_agreesFrom (request : Request) {st : SignerState σ} (hst : I st.enforcer)
    (hunsigned : isSigned (handleSignRequest cfg p request.1 request.2 st).1 = false) :
    (handleSignRequest cfg p request.1 request.2 st).2.ledger.AgreesFrom request.2 st.ledger := by
  obtain ⟨hresponse, -, hrecorded⟩ := handleSignRequest_refines hp request.1 request.2 hst
  rw [hresponse, isSigned_answer] at hunsigned
  rw [Option.isSome_eq_false_iff, Option.isNone_iff_eq_none] at hunsigned
  rw [hunsigned] at hrecorded
  exact hrecorded

/-- What was checked when a request was signed. -/
theorem exists_priced_of_signed (request : Request) {st : SignerState σ} (hst : I st.enforcer)
    (hsigned : isSigned (handleSignRequest cfg p request.1 request.2 st).1 = true) :
    ∃ members txBytes parsed spend, request.1 = .obj members ∧ txBytesOf members = .ok txBytes ∧
      priced cfg.solders cfg.policy txBytes cfg.pubkeyB58 = .ok (parsed, spend) := by
  obtain ⟨hresponse, -, -⟩ := handleSignRequest_refines hp request.1 request.2 hst
  rw [hresponse, isSigned_answer] at hsigned
  obtain ⟨spend, hspend⟩ := Option.isSome_iff_exists.1 hsigned
  obtain ⟨members, txBytes, parsed, hpayload, htx, hprice, -⟩ := answer_eq_some hspend
  exact ⟨members, txBytes, parsed, spend, hpayload, htx, hprice⟩

/-- The caches keep their invariant along a run. -/
theorem run_keeps : ∀ (requests : List Request) {st : SignerState σ}, I st.enforcer →
    I (run cfg p requests st).2.enforcer
  | [], _, hst => hst
  | request :: rest, _, hst =>
      run_keeps rest (handleSignRequest_refines hp request.1 request.2 hst).2.1

include hq

/-- One request on two signers whose ledgers agree: the same response, and
ledgers that agree again. -/
theorem handleSignRequest_congr (request : Request) {st : SignerState σ} {st' : SignerState τ}
    (hst : I st.enforcer) (hst' : J st'.enforcer)
    (hledger : st.ledger.AgreesFrom request.2 st'.ledger) :
    (handleSignRequest cfg p request.1 request.2 st).1 =
        (handleSignRequest cfg q request.1 request.2 st').1 ∧
      (handleSignRequest cfg p request.1 request.2 st).2.ledger.AgreesFrom request.2
        (handleSignRequest cfg q request.1 request.2 st').2.ledger := by
  obtain ⟨hresponse, -, hrecorded⟩ := handleSignRequest_refines hp request.1 request.2 hst
  obtain ⟨hresponse', -, hrecorded'⟩ := handleSignRequest_refines hq request.1 request.2 hst'
  rw [hledger request.2 le_rfl] at hresponse hrecorded
  refine ⟨hresponse.trans hresponse'.symm, ?_⟩
  cases hspend : (answer cfg request.1 (st'.ledger.prune request.2)).2 with
  | none =>
      rw [hspend] at hrecorded hrecorded'
      exact (hrecorded.trans hledger).trans hrecorded'.symm
  | some spend =>
      rw [hspend] at hrecorded hrecorded'
      have heq : _ = _ := hrecorded.trans (hledger.record_eq le_rfl spend)
      rw [heq, ← hrecorded']
      exact .refl _ _

/-- **Agreeing ledgers, equal runs.**  `stop` is any time no request comes after. -/
theorem run_congr {stop : ℚ} : ∀ (requests : List Request) {st : SignerState σ} {st' : SignerState τ}
    (start : ℚ), I st.enforcer → J st'.enforcer → st.ledger.AgreesFrom start st'.ledger →
    InOrder requests → (∀ r ∈ requests, start ≤ r.2 ∧ r.2 ≤ stop) → start ≤ stop →
    (run cfg p requests st).1 = (run cfg q requests st').1 ∧
      (run cfg p requests st).2.ledger.AgreesFrom stop (run cfg q requests st').2.ledger
  | [], _, _, _, _, _, hledger, _, _, hstop => ⟨rfl, hledger.mono hstop⟩
  | request :: rest, st, st', start, hst, hst', hledger, horder, hwithin, _ => by
      obtain ⟨hfirst, hrest⟩ := List.pairwise_cons.1 horder
      obtain ⟨hstart, hstop⟩ := hwithin request List.mem_cons_self
      obtain ⟨hresponse, hagree⟩ := handleSignRequest_congr hp hq request hst hst' (hledger.mono hstart)
      have hinv := (handleSignRequest_refines hp request.1 request.2 hst).2.1
      have hinv' := (handleSignRequest_refines hq request.1 request.2 hst').2.1
      obtain ⟨hlater, hend⟩ := run_congr rest request.2 hinv hinv' hagree hrest
        (fun r hr => ⟨hfirst r hr, (hwithin r (List.mem_cons_of_mem _ hr)).2⟩) hstop
      refine ⟨?_, hend⟩
      rw [run, run]
      dsimp only
      rw [hresponse, hlater]

/-- The accepted requests alone, on a signer whose ledger agrees, are answered
as they were among the others. -/
theorem run_acceptedOf : ∀ (requests : List Request) {st : SignerState σ} {st' : SignerState τ}
    (start : ℚ), I st.enforcer → J st'.enforcer → st.ledger.AgreesFrom start st'.ledger →
    InOrder requests → (∀ r ∈ requests, start ≤ r.2) →
    (run cfg q ((acceptedOf (run cfg p requests st).1).map Prod.fst) st').1 =
      acceptedOf (run cfg p requests st).1
  | [], _, _, _, _, _, _, _, _ => rfl
  | request :: rest, st, st', start, hst, hst', hledger, horder, hwithin => by
      obtain ⟨hfirst, hrest⟩ := List.pairwise_cons.1 horder
      have hnow := hledger.mono (hwithin request List.mem_cons_self)
      have hinv := (handleSignRequest_refines hp request.1 request.2 hst).2.1
      cases hsigned : isSigned (handleSignRequest cfg p request.1 request.2 st).1 with
      | false =>
          have htrace := (unsigned_agreesFrom hp request hst hsigned).trans hnow
          have ih := run_acceptedOf rest request.2 hinv hst' htrace hrest hfirst
          rw [run]
          simpa only [acceptedOf, List.filter_cons, hsigned, Bool.false_eq_true, if_false] using ih
      | true =>
          obtain ⟨hresponse, hagree⟩ := handleSignRequest_congr hp hq request hst hst' hnow
          have hinv' := (handleSignRequest_refines hq request.1 request.2 hst').2.1
          have ih := run_acceptedOf rest request.2 hinv hinv' hagree hrest hfirst
          rw [run]
          simp only [acceptedOf, List.filter_cons, hsigned, if_true, List.map_cons] at ih ⊢
          rw [run]
          dsimp only
          rw [ih, ← hresponse]

end Pricers

/-- **Refusals and caches are invisible.**  The accepted requests of a run are
answered as by an enforcer with no caches that is handed only them.  A request
that is not signed leaves what later checks can see of the ledger as it was, and
the requests after it are answered and recorded as if it had not been made. -/
theorem accepted_answered_as_if_alone (cfg : SignerConfig) (ledger : VelocityLedger)
    (requests : List Request) (horder : InOrder requests) :
    (runFresh cfg ((acceptedOf (runCached cfg requests (booted ledger)).1).map Prod.fst)
        { enforcer := (), ledger := ledger }).1 =
      acceptedOf (runCached cfg requests (booted ledger)).1 ∧
    ∀ earlier request later, requests = earlier ++ request :: later →
      let before := (runCached cfg earlier (booted ledger)).2
      let answered := handleSignRequest cfg (parseAndPrice cfg.solders cfg.policy)
        request.1 request.2 before
      isSigned answered.1 = false →
        answered.2.ledger.AgreesFrom request.2 before.ledger ∧
        (runCached cfg later answered.2).1 = (runCached cfg later before).1 ∧
        ∀ stop, (∀ r ∈ request :: later, r.2 ≤ stop) →
          (runCached cfg later answered.2).2.ledger.AgreesFrom stop
            (runCached cfg later before).2.ledger := by
  have hp := parseAndPrice_prices cfg
  have hboot := Caches.consistent_empty cfg.solders cfg.policy
  constructor
  · cases requests with
    | nil => rfl
    | cons first rest =>
        refine run_acceptedOf hp (parseAndPriceFresh_prices cfg) (first :: rest) first.2 hboot
          trivial (.refl _ _) horder ?_
        rintro r (_ | ⟨_, hr⟩)
        · exact le_rfl
        · exact (List.pairwise_cons.1 horder).1 r hr
  · rintro earlier request later rfl before answered hunsigned
    have hbefore : Caches.Consistent cfg.solders cfg.policy before.enforcer :=
      run_keeps hp earlier hboot
    have hafter : Caches.Consistent cfg.solders cfg.policy answered.2.enforcer :=
      (handleSignRequest_refines hp request.1 request.2 hbefore).2.1
    have htrace := unsigned_agreesFrom hp request hbefore hunsigned
    obtain ⟨hlater, horder'⟩ := List.pairwise_cons.1 (List.pairwise_append.1 horder).2.1
    have hcongr : ∀ stop, (∀ r ∈ request :: later, r.2 ≤ stop) → _ := fun stop hstop =>
      run_congr hp hp later request.2 hafter hbefore htrace horder'
        (fun r hr => ⟨hlater r hr, hstop r (List.mem_cons_of_mem _ hr)⟩)
        (hstop request List.mem_cons_self)
    obtain ⟨last, hlast⟩ := exists_stop (request :: later)
    exact ⟨htrace, (hcongr last hlast).1, fun stop hstop => (hcongr stop hstop).2⟩

/-- A run with a refusal (`null` is not a request) between two signatures. -/
theorem accepted_answered_as_if_alone_sample :
    let requests := [(.obj (sampleMembers (sampleTx [] [])), 1), (.null, 2),
      (.obj (sampleMembers (sampleTx [] [])), 3)]
    let accepted := acceptedOf (runCached sampleConfig requests (booted ⟨60, []⟩)).1
    accepted.length = 2 ∧
      (runFresh sampleConfig (accepted.map Prod.fst) { enforcer := (), ledger := ⟨60, []⟩ }).1 =
        accepted := by
  refine ⟨by simp only [runCached, run, handleSignRequest_sampleMembers]; decide +kernel, ?_⟩
  refine (accepted_answered_as_if_alone sampleConfig ⟨60, []⟩ _ ?_).1
  simp only [InOrder]
  decide

end Signer
end AatsSniper

/-
# Every window of issued signatures is within the caps

C4 over whole runs of the signer.  `would_exceed` looks at the window that ends
at the request; what the policy asks is a bound on every window.  The log of
issued signatures, from which nothing is ever pruned, keeps both bounds
(`Capped`) because the ledger agrees with it from the last request on, and
`Window.Bounded.append` does the rest.

The windows are over the real line, the clock readings rationals in it.
-/

import AatsSniper.Signer.Pricing
import AatsSniper.Signer.Runs
import Mathlib.Algebra.Order.Ring.Archimedean
import Mathlib.Data.Int.ConditionallyCompleteOrder
import Mathlib.Data.Real.Basic

namespace AatsSniper
namespace Signer

open Wire
open VelocityLedger (AgreesFrom)

/-- The spend `_parse_and_price` puts on the transaction of a payload. -/
def spendOf (cfg : SignerConfig) (payload : Json) : Option ℤ :=
  match payload with
  | .obj members =>
      match txBytesOf members with
      | .ok txBytes =>
          (priced cfg.solders cfg.policy txBytes cfg.pubkeyB58).toOption.map Prod.snd
      | .error _ => none
  | _ => none

/-- The signatures of a run: when each was issued, and its priced spend. -/
def issued (cfg : SignerConfig) (served : List (Request × Except PyException Response)) :
    List (ℚ × ℤ) :=
  (acceptedOf served).map fun a => (a.1.2, (spendOf cfg a.1.1).getD 0)

/-- The log read on the real line. -/
noncomputable def onReals (log : List (ℚ × ℤ)) : List (ℝ × ℤ) :=
  log.map (Prod.map (Rat.castHom ℝ : ℚ →+ ℝ) id)

/-- The venue decoders return no negative bound. -/
def DecodersNonneg (policy : SignerPolicy) : Prop :=
  ∀ programId decoder, policy.venueSpendDecoders programId = some decoder →
    ∀ data bound, decoder data = .ok bound → 0 ≤ bound

theorem venueBound_nonneg {policy : SignerPolicy} (h : DecodersNonneg policy)
    (ix : ParsedInstruction) : 0 ≤ venueBound policy ix := by
  unfold venueBound
  split_ifs with hvenue
  · cases hdecoder : policy.venueSpendDecoders ix.programId with
    | none => exact le_rfl
    | some decoder =>
        cases hbound : decoder ix.data with
        | error exc => simp [hbound, Except.toOption]
        | ok bound => simpa [hbound, Except.toOption] using h _ _ hdecoder _ _ hbound
  · exact le_rfl

/-- No transaction is priced below zero. -/
theorem spend_nonneg {solders : Option SoldersPubkey} {policy : SignerPolicy}
    (h : DecodersNonneg policy) {txBytes : Bytes} {wallet : String} {parsed : ParsedTx} {spend : ℤ}
    (hpriced : priced solders policy txBytes wallet = .ok (parsed, spend)) : 0 ≤ spend := by
  obtain ⟨-, -, -, hspend, -⟩ := priced_eq_ok hpriced
  have hvenue : 0 ≤ (parsed.instructions.map (venueBound policy)).sum := by
    refine List.sum_nonneg fun x hx => ?_
    obtain ⟨ix, -, rfl⟩ := List.mem_map.1 hx
    exact venueBound_nonneg h ix
  have hfee : 0 ≤ priorityFee policy parsed.instructions := Int.ceil_nonneg (by positivity)
  rw [hspend]
  positivity

theorem spendOf_of_answer {cfg : SignerConfig} {payload : Json} {inWindow : VelocityLedger}
    {spend : ℤ} (h : (answer cfg payload inWindow).2 = some spend) :
    spendOf cfg payload = some spend := by
  obtain ⟨members, txBytes, parsed, rfl, htx, hprice, -⟩ := answer_eq_some h
  simp [spendOf, htx, hprice, Except.toOption]

/-- Both caps hold in every window of the log. -/
structure Capped (policy : SignerPolicy) (log : List (ℚ × ℤ)) : Prop where
  nonneg : ∀ e ∈ log, 0 ≤ e.2
  spend : Window.Bounded (policy.windowSeconds : ℝ) (fun spend => spend)
    policy.aggregateCapLamports (onReals log)
  count : Window.Bounded (policy.windowSeconds : ℝ) (fun _ => 1) policy.maxSignCount (onReals log)

theorem capped_nil (policy : SignerPolicy) : Capped policy [] :=
  ⟨by simp, Window.bounded_nil _ _ _, Window.bounded_nil _ _ _⟩

/-- The signature C4 lets through keeps every window within the caps. -/
theorem Capped.append {policy : SignerPolicy} {log : List (ℚ × ℤ)} (h : Capped policy log)
    {nowS : ℚ} {spend : ℤ} (hspend : 0 ≤ spend)
    (hroom : (VelocityLedger.prune ⟨policy.windowSeconds, log⟩ nowS).wouldExceed spend
      policy.aggregateCapLamports policy.maxSignCount = none) :
    Capped policy (log ++ [(nowS, spend)]) := by
  have hcast : Window.recent (policy.windowSeconds : ℝ) (nowS : ℝ) (onReals log) =
      onReals (Window.recent (policy.windowSeconds : ℚ) nowS log) := by
    have := Window.recent_map (Rat.castHom ℝ : ℚ →+ ℝ) Rat.cast_strictMono
      (policy.windowSeconds : ℚ) nowS log
    simpa [onReals] using this
  have happend : onReals (log ++ [(nowS, spend)]) = onReals log ++ [((nowS : ℝ), spend)] := by
    simp [onReals]
  unfold VelocityLedger.wouldExceed at hroom
  rw [VelocityLedger.prune_eq] at hroom
  split_ifs at hroom with hcap hcount
  have hnonneg : ∀ e ∈ log ++ [(nowS, spend)], 0 ≤ e.2 := by
    intro e he
    rcases List.mem_append.1 he with he | he
    · exact h.nonneg e he
    · rw [List.mem_singleton.1 he]
      exact hspend
  refine ⟨hnonneg, ?_, ?_⟩
  · rw [happend]
    refine h.spend.append ?_ ?_
    · rw [← happend]
      intro e he
      obtain ⟨e', he', rfl⟩ := List.mem_map.1 he
      exact hnonneg e' he'
    · rw [hcast]
      simpa [onReals, Function.comp_def] using not_lt.1 hcap
  · rw [happend]
    refine h.count.append (fun _ _ => zero_le_one) ?_
    rw [hcast]
    simpa [onReals, Function.comp_def] using not_lt.1 hcount

theorem record_agreesFrom {policy : SignerPolicy} {log : List (ℚ × ℤ)} {ledger : VelocityLedger}
    {nowS : ℚ} (h : ledger.AgreesFrom nowS ⟨policy.windowSeconds, log⟩) (spend : ℤ) :
    (ledger.record nowS spend).AgreesFrom nowS ⟨policy.windowSeconds, log ++ [(nowS, spend)]⟩ := by
  intro later hlater
  rw [h.record_eq le_rfl, VelocityLedger.record, VelocityLedger.prune_eq, VelocityLedger.prune_eq,
    VelocityLedger.prune_eq, Window.recent_append, Window.recent_append,
    Window.recent_recent hlater]

section Runs

variable {cfg : SignerConfig}

/-- **The step and the run.**  From a signer whose ledger agrees with a log that
is within the caps, the log stays within them whatever is asked. -/
theorem run_capped (hdecoders : DecodersNonneg cfg.policy) :
    ∀ (requests : List Request) {st : SignerState Caches} {log : List (ℚ × ℤ)} (start : ℚ),
      st.enforcer.Consistent cfg.solders cfg.policy →
      st.ledger.AgreesFrom start ⟨cfg.policy.windowSeconds, log⟩ → Capped cfg.policy log →
      InOrder requests → (∀ r ∈ requests, start ≤ r.2) →
      Capped cfg.policy (log ++ issued cfg (runCached cfg requests st).1)
  | [], st, log, _, _, _, hlog, _, _ => by simpa [runCached, run, issued, acceptedOf] using hlog
  | request :: rest, st, log, start, hst, hledger, hlog, horder, hwithin => by
      obtain ⟨hfirst, hrest⟩ := List.pairwise_cons.1 horder
      have hnow := hledger.mono (hwithin request List.mem_cons_self)
      obtain ⟨hresponse, hinv, hrecorded⟩ :=
        handleSignRequest_refines (parseAndPrice_prices cfg) request.1 request.2 hst
      rw [hnow request.2 le_rfl] at hresponse hrecorded
      have hsigned := isSigned_answer cfg request.1
        (VelocityLedger.prune ⟨cfg.policy.windowSeconds, log⟩ request.2)
      rw [← hresponse] at hsigned
      cases hspend : (answer cfg request.1
          (VelocityLedger.prune ⟨cfg.policy.windowSeconds, log⟩ request.2)).2 with
      | none =>
          rw [hspend] at hrecorded hsigned
          have ih := run_capped hdecoders rest request.2 hinv (AgreesFrom.trans hrecorded hnow)
            hlog hrest hfirst
          simpa [runCached, run, issued, acceptedOf, hsigned] using ih
      | some spend =>
          rw [hspend] at hrecorded hsigned
          obtain ⟨_, _, parsed, -, -, hprice, hroom⟩ := answer_eq_some hspend
          have hlog' := hlog.append (spend_nonneg hdecoders hprice) hroom
          have hagree := record_agreesFrom hnow spend
          rw [← show _ = _ from hrecorded] at hagree
          have ih := run_capped hdecoders rest request.2 hinv hagree hlog' hrest hfirst
          simpa [runCached, run, issued, acceptedOf, hsigned, spendOf_of_answer hspend] using ih

/-- Every signature of a run has a price. -/
theorem spendOf_isSome_of_accepted : ∀ (requests : List Request) {st : SignerState Caches},
    st.enforcer.Consistent cfg.solders cfg.policy →
    ∀ a ∈ acceptedOf (runCached cfg requests st).1, (spendOf cfg a.1.1).isSome = true
  | [], _, _, a, ha => absurd ha List.not_mem_nil
  | request :: rest, st, hst, a, ha => by
      obtain ⟨hresponse, hinv, -⟩ :=
        handleSignRequest_refines (parseAndPrice_prices cfg) request.1 request.2 hst
      obtain ⟨hmem, hsigned⟩ := List.mem_filter.1 ha
      rcases List.mem_cons.1 hmem with rfl | hmem
      · dsimp only at hsigned
        rw [hresponse, isSigned_answer] at hsigned
        obtain ⟨spend, hspend⟩ := Option.isSome_iff_exists.1 hsigned
        rw [spendOf_of_answer hspend]
        rfl
      · exact spendOf_isSome_of_accepted rest hinv a (List.mem_filter.2 ⟨hmem, hsigned⟩)

end Runs

/-- The log of a process that ran from its boot is within the caps. -/
theorem capped_booted {cfg : SignerConfig} (hdecoders : DecodersNonneg cfg.policy)
    {requests : List Request} (horder : InOrder requests) :
    Capped cfg.policy
      (issued cfg (runCached cfg requests (booted ⟨cfg.policy.windowSeconds, []⟩)).1) := by
  have hboot := Caches.consistent_empty cfg.solders cfg.policy
  cases requests with
  | nil => exact capped_nil cfg.policy
  | cons first rest =>
      refine run_capped hdecoders (first :: rest) first.2 hboot (.refl _ _) (capped_nil _) horder ?_
      rintro r (_ | ⟨_, hr⟩)
      · exact le_rfl
      · exact (List.pairwise_cons.1 horder).1 r hr

/-- The signatures of a run issued in the window `(t - window_seconds, t]`. -/
noncomputable def issuedIn (cfg : SignerConfig) (t : ℝ)
    (served : List (Request × Except PyException Response)) : List (ℝ × ℤ) :=
  Window.within (cfg.policy.windowSeconds : ℝ) t (onReals (issued cfg served))

/-- **Every window is within the caps.**  On an empty ledger, with requests in the
order of the clock, every signature has a price and, for every real `t`, the
signatures issued in `(t - window_seconds, t]` spend at most the aggregate cap
and number at most `max_sign_count`.  A window with no signature has spend and
number zero, which is within a cap only if the cap is not negative. -/
theorem every_window_within_caps (cfg : SignerConfig) (ledger : VelocityLedger)
    (hledger : VelocityLedger.new cfg.policy.windowSeconds = .ok ledger)
    (hdecoders : DecodersNonneg cfg.policy) (requests : List Request) (horder : InOrder requests) :
    let served := (runCached cfg requests (booted ledger)).1
    (∀ a ∈ acceptedOf served, (spendOf cfg a.1.1).isSome = true) ∧
      ∀ t : ℝ,
        (issuedIn cfg t served ≠ [] ∨ 0 ≤ cfg.policy.aggregateCapLamports →
          ((issuedIn cfg t served).map Prod.snd).sum ≤ cfg.policy.aggregateCapLamports) ∧
        (issuedIn cfg t served ≠ [] ∨ 0 ≤ cfg.policy.maxSignCount →
          ((issuedIn cfg t served).length : ℤ) ≤ cfg.policy.maxSignCount) := by
  intro served
  refine ⟨spendOf_isSome_of_accepted requests (Caches.consistent_empty cfg.solders cfg.policy), ?_⟩
  obtain rfl : ledger = ⟨cfg.policy.windowSeconds, []⟩ := by
    unfold VelocityLedger.new at hledger
    split_ifs at hledger
    exact (Except.ok.inj hledger).symm
  have hcapped : Capped cfg.policy (issued cfg served) := capped_booted hdecoders horder
  intro t
  by_cases hempty : issuedIn cfg t served = []
  · rw [hempty]
    simp
  · have hspend := hcapped.spend t hempty
    have hcount := hcapped.count t hempty
    rw [List.map_const', List.sum_replicate, nsmul_eq_mul, mul_one] at hcount
    exact ⟨fun _ => hspend, fun _ => hcount⟩

/-- Two signatures of the sample signer a second apart, in every window. -/
theorem every_window_within_caps_sample :
    let requests := [(.obj (sampleMembers (sampleTx [] [])), 1), (.obj (sampleMembers (sampleTx [] [])), 2)]
    let served := (runCached sampleConfig requests (booted ⟨60, []⟩)).1
    (acceptedOf served).length = 2 ∧ ∀ t : ℝ,
      ((issuedIn sampleConfig t served).map Prod.snd).sum ≤ 500000000 ∧
        ((issuedIn sampleConfig t served).length : ℤ) ≤ 10 := by
  refine ⟨by simp only [runCached, run, handleSignRequest_sampleMembers]; decide +kernel, fun t => ?_⟩
  have hdecoders : DecodersNonneg sampleConfig.policy := fun _ _ h => by cases h
  obtain ⟨hspend, hcount⟩ := (every_window_within_caps sampleConfig ⟨60, []⟩ rfl hdecoders
    [(.obj (sampleMembers (sampleTx [] [])), 1), (.obj (sampleMembers (sampleTx [] [])), 2)]
    (by simp only [InOrder]; decide)).2 t
  exact ⟨hspend (.inr (by decide)), hcount (.inr (by decide))⟩

/-- The loader bounds the aggregate cap only from above: with a negative one, a
window with no signature in it is over the cap. -/
theorem empty_window_over_negative_cap :
    let cfg := { sampleConfig with policy := { samplePolicy with aggregateCapLamports := -1 } }
    ¬ ((issuedIn cfg 0 (runCached cfg [] (booted ⟨60, []⟩)).1).map Prod.snd).sum ≤
      cfg.policy.aggregateCapLamports := by
  simp [issuedIn, issued, runCached, run, acceptedOf, onReals, Window.within]

end Signer
end AatsSniper

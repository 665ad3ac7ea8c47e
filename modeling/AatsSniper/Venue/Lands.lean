/-
# How many transactions of an intent land

A venue is called again and again, and the cluster may confirm any transaction it was
sent at any later moment.  Two guards are to keep an intent from landing twice: a
transaction is looked up before another is sent in its place, and an intent whose land
was reported is not called again.  Both ask about one moment.  Where their answers are
final (`Final`), at most one transaction of each intent is ever confirmed
(`landsOnce_of_final`); where a transaction is confirmed after it was looked up, two are
(`resent_and_both_landed`).
-/

import AatsSniper.Lib.Run
import AatsSniper.Venue.Fills

namespace AatsSniper
namespace Venue

/-- A venue, with the calls made so far and their logs. -/
structure VenueRun (W : Type) where
  state : VenueState W
  calls : List (VenueCall × List VenueEvent)

/-- A venue that was called never before. -/
def VenueRun.start {W : Type} (w : W) : VenueRun W := ⟨⟨w, []⟩, []⟩

section Runs

variable {W : Type} (env : Env W) (v : JitoJupiterVenue)

/-- What a call finds, after the world has gone on. -/
def VenueRun.found (r : VenueRun W) (elapsed : W → W) : VenueState W :=
  { r.state with world := elapsed r.state.world }

/-- The log of a call. -/
def callLog (r : VenueRun W) (input : VenueCall × (W → W)) : List VenueEvent :=
  (input.1.program env v (r.found input.2)).log

/-- The world goes on, and a call is made. -/
def callStep (r : VenueRun W) (input : VenueCall × (W → W)) : Except Raised (VenueRun W) :=
  .ok ⟨(input.1.program env v (r.found input.2)).state, r.calls ++ [(input.1, callLog env v r input)]⟩

end Runs

/-- A transaction that was sent for the intent. -/
def SentFor {W : Type} (r : VenueRun W) (intentId signedTxB64 : String) : Prop :=
  ∃ call ∈ r.calls, call.1.intentId = intentId ∧ SentIn call.2 signedTxB64

/-- At most one of the transactions sent for an intent is one of those `ever` confirmed. -/
def LandsOnce {W : Type} (extract : String → String) (ever : String → Prop) (r : VenueRun W) : Prop :=
  ∀ intentId b₁ b₂, SentFor r intentId b₁ → SentFor r intentId b₂ → ever (extract b₁) →
    ever (extract b₂) → extract b₁ = extract b₂

/-- The signature was looked up and had not landed, and another transaction was sent. -/
def PassedOver (log : List VenueEvent) (signature : String) : Prop :=
  ∃ before after, ∃ statuses : List (Option SignatureStatus),
    log = before ++ .asked (.getSignatureStatuses [signature]) (.ok statuses) :: after ∧
      (∀ st, statuses.head?.join = some st → st.saysLanded = false) ∧ ∃ b, SentIn after b

/-- The answers that a call relies on are final: a transaction it passes over is never confirmed, and,
if it sends one, none of the same intent is that was sent by a call to which no land was reported. -/
structure Final {W : Type} (env : Env W) (v : JitoJupiterVenue) (ever : String → Prop)
    (r : VenueRun W) (input : VenueCall × (W → W)) : Prop where
  passedOver : ∀ signature, PassedOver (callLog env v r input) signature → ¬ ever signature
  unreported : ∀ b, SentIn (callLog env v r input) b → ∀ call ∈ r.calls,
    call.1.intentId = input.1.intentId → ¬ Reported call.2 →
      ∀ b', SentIn call.2 b' → ¬ ever (env.extractSignatureB58 b')

section Within

variable {W : Type} {env : Env W}

theorem PassedOver.append {log : List VenueEvent} {signature : String} (h : PassedOver log signature)
    (first : List VenueEvent) : PassedOver (first ++ log) signature := by
  obtain ⟨before, after, statuses, rfl, hrest⟩ := h
  exact ⟨first ++ before, after, statuses, (List.append_assoc _ _ _).symm, hrest⟩

theorem not_sentIn_of_allPlain {log : List VenueEvent} (h : AllPlain log) (b : String) :
    ¬ SentIn log b := by
  rintro ⟨answer, hmem⟩
  exact h.not_send _ hmem rfl

theorem Attempts.sent {n : ℕ} {b : String} {log : List VenueEvent} (h : Attempts env n b log) :
    SentIn log b := by
  cases h with
  | last htail => exact ⟨_, List.mem_cons_self⟩
  | next hfailed hmid hrest => exact ⟨_, List.mem_cons_self⟩

/-- **All but the last transaction of the attempts are passed over.** -/
theorem Attempts.passedOver (hhas : env.hasGetSignatureStatuses = true) {n : ℕ} {b : String}
    {log : List VenueEvent} (h : Attempts env n b log) :
    ∃ last, ∀ b', SentIn log b' → PassedOver log (env.extractSignatureB58 b') ∨ b' = last := by
  induction h with
  | @last n b answer tail htail =>
      refine ⟨b, fun b' hsent => .inr ?_⟩
      obtain ⟨answer', hmem⟩ := hsent
      rcases List.mem_cons.1 hmem with heq | hmem
      · cases heq
        rfl
      · exact absurd ⟨answer', hmem⟩ (not_sentIn_of_allPlain htail b')
  | @next n b b'' answer mid rest hfailed hmid hrest ih =>
      obtain ⟨last, hlast⟩ := ih
      refine ⟨last, fun b' hsent => ?_⟩
      obtain ⟨answer', hmem⟩ := hsent
      rcases List.mem_cons.1 hmem with heq | hmem
      · cases heq
        left
        obtain ⟨statuses, hstatuses, hnot⟩ := hmid.rechecked hhas
        obtain ⟨before, after, rfl⟩ := List.append_of_mem hstatuses
        obtain ⟨answer'', hsent⟩ := hrest.sent
        exact ⟨.asked (.sendTransaction b) answer :: before, after ++ rest, statuses, by simp, hnot,
          b'', answer'', List.mem_append_right _ hsent⟩
      · rcases List.mem_append.1 hmem with hmem | hmem
        · exact absurd ⟨answer', hmem⟩ (not_sentIn_of_allPlain hmid.plain b')
        · rcases hlast b' ⟨answer', hmem⟩ with hpassed | heq
          · left
            have := hpassed.append (.asked (.sendTransaction b) answer :: mid)
            rwa [List.cons_append] at this
          · exact .inr heq

theorem CallLog.passedOver (hhas : env.hasGetSignatureStatuses = true) {log : List VenueEvent}
    (h : CallLog env log) :
    ∃ last, ∀ b, SentIn log b → PassedOver log (env.extractSignatureB58 b) ∨ b = last := by
  have hprecedes : ∀ {plan rest : List VenueEvent} {mode : SubmitMode} {b : String}, AllPlain plan →
      SentIn (plan ++ .dispatched mode :: rest) b → SentIn rest b := by
    rintro plan rest mode b hplan ⟨answer, hmem⟩
    rcases List.mem_append.1 hmem with hmem | hmem
    · exact absurd ⟨answer, hmem⟩ (not_sentIn_of_allPlain hplan b)
    · rcases List.mem_cons.1 hmem with heq | hmem
      · cases heq
      · exact ⟨answer, hmem⟩
  cases h with
  | quiet hlog => exact ⟨"", fun b hsent => absurd hsent (not_sentIn_of_allPlain hlog b)⟩
  | landing hplan hsimulated hland =>
      cases hland with
      | quiet hrest =>
          exact ⟨"", fun b hsent => absurd (hprecedes hplan hsent) (not_sentIn_of_allPlain hrest b)⟩
      | sending hmode hrest =>
          obtain ⟨last, hlast⟩ := hrest.passedOver hhas
          refine ⟨last, fun b hsent => ?_⟩
          rcases hlast b (hprecedes hplan hsent) with hpassed | heq
          · exact .inl ((hpassed.append [.dispatched _]).append _)
          · exact .inr heq

end Within

/-- What a run carries: the intents that a land was reported for are kept as submitted. -/
def KeepsReported {W : Type} (r : VenueRun W) : Prop :=
  ∀ call ∈ r.calls, Reported call.2 → call.1.intentId ∈ r.state.submittedIntentIds

section Over

variable {W : Type} {env : Env W} {v : JitoJupiterVenue} {ever : String → Prop}

theorem keepsReported_step {r r' : VenueRun W} {input : VenueCall × (W → W)} (hr : KeepsReported r)
    (h : callStep env v r input = .ok r') : KeepsReported r' := by
  obtain rfl := Except.ok.inj h
  obtain ⟨fill, -, -, hkept, hunkept⟩ := @program_told W env v input.1 (r.found input.2)
  intro call hcall hreported
  by_cases hnow : Reported (callLog env v r input)
  · rw [hkept hnow]
    rcases List.mem_append.1 hcall with hcall | hcall
    · exact List.mem_cons_of_mem _ (hr call hcall hreported)
    · obtain rfl := List.mem_singleton.1 hcall
      exact List.mem_cons_self
  · rw [hunkept hnow]
    rcases List.mem_append.1 hcall with hcall | hcall
    · exact hr call hcall hreported
    · obtain rfl := List.mem_singleton.1 hcall
      exact absurd hreported hnow

/-- A call that sends finds its intent unkept. -/
theorem fresh_of_sentIn {r : VenueRun W} {input : VenueCall × (W → W)} {b : String}
    (h : SentIn (callLog env v r input) b) :
    input.1.intentId ∉ r.state.submittedIntentIds := by
  intro hmem
  obtain ⟨answer, hsent⟩ := h
  unfold callLog at hsent
  rw [program_of_submitted (show input.1.intentId ∈ (r.found input.2).submittedIntentIds from hmem)]
    at hsent
  exact absurd hsent List.not_mem_nil

/-- **One more call.** -/
theorem landsOnce_step (hhas : env.hasGetSignatureStatuses = true) {r r' : VenueRun W}
    {input : VenueCall × (W → W)} (hr : LandsOnce env.extractSignatureB58 ever r)
    (hkeeps : KeepsReported r) (hfinal : Final env v ever r input)
    (h : callStep env v r input = .ok r') : LandsOnce env.extractSignatureB58 ever r' := by
  obtain rfl := Except.ok.inj h
  -- what was sent before is never confirmed, if this call sends for the same intent
  have hbefore : ∀ {b b'}, SentIn (callLog env v r input) b → SentFor r input.1.intentId b' →
      ¬ ever (env.extractSignatureB58 b') := by
    rintro b b' hsent ⟨call, hcall, hid, hsent'⟩
    refine hfinal.unreported b hsent call hcall hid (fun hreported => ?_) b' hsent'
    exact fresh_of_sentIn hsent (hid ▸ hkeeps call hcall hreported)
  have hsplit : ∀ {intentId b}, SentFor ⟨(input.1.program env v (r.found input.2)).state,
      r.calls ++ [(input.1, callLog env v r input)]⟩ intentId b →
        SentFor r intentId b ∨ (input.1.intentId = intentId ∧ SentIn (callLog env v r input) b) := by
    rintro intentId b ⟨call, hcall, hid, hsent⟩
    rcases List.mem_append.1 hcall with hcall | hcall
    · exact .inl ⟨call, hcall, hid, hsent⟩
    · obtain rfl := List.mem_singleton.1 hcall
      exact .inr ⟨hid, hsent⟩
  intro intentId b₁ b₂ h₁ h₂ hever₁ hever₂
  rcases hsplit h₁ with hold₁ | ⟨rfl, hnew₁⟩
  · rcases hsplit h₂ with hold₂ | ⟨rfl, hnew₂⟩
    · exact hr intentId b₁ b₂ hold₁ hold₂ hever₁ hever₂
    · exact absurd hever₁ (hbefore hnew₂ hold₁)
  · rcases hsplit h₂ with hold₂ | ⟨-, hnew₂⟩
    · exact absurd hever₂ (hbefore hnew₁ hold₂)
    · obtain ⟨last, hlast⟩ := (program_log input.1 (r.found input.2)).passedOver hhas
      rcases hlast b₁ hnew₁ with hpassed | rfl
      · exact absurd hever₁ (hfinal.passedOver _ hpassed)
      · rcases hlast b₂ hnew₂ with hpassed | rfl
        · exact absurd hever₂ (hfinal.passedOver _ hpassed)
        · rfl

end Over

/-- **At most one transaction of an intent lands**, in every run of a venue over a production client
whose answers are final. -/
theorem landsOnce_of_final {W : Type} (raw : RawRpc W) (kind : ClientKind) (environ : W → Environ)
    (extract : String → String) (v : JitoJupiterVenue) (ever : String → Prop) (w : W)
    (inputs : List (VenueCall × (W → W)))
    (h : EveryStep (callStep (raw.env kind environ extract) v)
      (fun _ => Final (raw.env kind environ extract) v ever) (VenueRun.start w) inputs) :
    EveryState (callStep (raw.env kind environ extract) v) (fun _ => LandsOnce extract ever)
      (VenueRun.start w) inputs := by
  have hboth : EveryState (callStep (raw.env kind environ extract) v)
      (fun _ r => LandsOnce extract ever r ∧ KeepsReported r) (VenueRun.start w) inputs := by
    refine h.everyState ⟨?_, ?_⟩ fun _ r input r' ⟨hlands, hkeeps⟩ hfinal hstep => ?_
    · rintro intentId b₁ b₂ ⟨call, hcall, -⟩
      exact absurd hcall List.not_mem_nil
    · intro call hcall
      exact absurd hcall List.not_mem_nil
    · exact ⟨landsOnce_step rfl hlands hkeeps hfinal hstep, keepsReported_step hkeeps hstep⟩
  exact fun before after r hsplit hrun => (hboth before after r hsplit hrun).1

/-- The transactions that were sent, and whether the cluster has caught up. -/
abbrev Lagging := List String × Bool

/-- What was sent is confirmed once the cluster has caught up. -/
def laggingCluster : Cluster Lagging := fun w signature =>
  if w.2 = true ∧ signature ∈ w.1 then some ⟨some "confirmed", some 1, none⟩ else none

/-- An endpoint whose node lags behind at the first send. -/
def laggingRpc : RawRpc Lagging where
  sendTransaction b w :=
    (if w.1 = [] then .error (.os false) else .ok b, (b :: w.1, w.2))
  getSignatureStatuses signatures w := (.ok (signatures.map (laggingCluster w)), w)
  sleep w := w
  rest := sampleRest fun w => if w.1 = [] then "hash-1" else "hash-2"

theorem laggingRpc_truthful : Truthful laggingRpc id laggingCluster where
  statuses := by
    intro signature w values w' h
    obtain rfl := Except.ok.inj (Prod.mk.inj h).1
    rfl
  accepted := by
    intro b w signature w' h
    have hsent := (Prod.mk.inj h).1
    split_ifs at hsent
    exact (Except.ok.inj hsent).symm
  stays := fun _ _ _ h => h

/-- The venue of the lagging endpoint. -/
abbrev laggingEnv : Env Lagging := laggingRpc.env .solana liveEnviron id

/-- The signatures that an event looks up. -/
def VenueEvent.lookedUp : VenueEvent → Option (List String)
  | .asked (.getSignatureStatuses signatures) _ => some signatures
  | _ => none

theorem PassedOver.mem_lookedUp {log : List VenueEvent} {signature : String}
    (h : PassedOver log signature) : [signature] ∈ log.filterMap VenueEvent.lookedUp := by
  obtain ⟨before, after, statuses, rfl, -⟩ := h
  exact List.mem_filterMap.2 ⟨_, List.mem_append_right _ List.mem_cons_self, rfl⟩

/-- The first transaction is never confirmed, the one sent in its place is, and the exit is asked for
again: one transaction lands. -/
theorem landsOnce_lagging :
    EveryState (callStep laggingEnv liveVenue) (fun _ => LandsOnce id (· = "hash-2"))
      (VenueRun.start ([], false)) [(sampleExit, id), (sampleExit, id)] := by
  refine landsOnce_of_final laggingRpc .solana liveEnviron id liveVenue _ _ _ ?_
  refine everyStep_snoc.2 ⟨everyStep_singleton.2 ⟨?_, ?_⟩,
    fun r hrun => ⟨?_, ?_⟩⟩
  · intro signature hpassed
    rintro rfl
    have hmem : _ ∈ [["hash-1"]] := hpassed.mem_lookedUp
    exact absurd (List.mem_singleton.1 hmem) (by decide)
  · intro b _ call hcall
    exact absurd hcall List.not_mem_nil
  · obtain rfl := Except.ok.inj hrun
    intro signature hpassed
    exact absurd hpassed.mem_lookedUp List.not_mem_nil
  · obtain rfl := Except.ok.inj hrun
    rintro b ⟨answer, hsent⟩
    exact absurd hsent List.not_mem_nil

/-- The first transaction is looked up, is not confirmed, and another is sent in its place; then the
cluster catches up, and both have landed. -/
theorem resent_and_both_landed :
    Truthful laggingRpc id laggingCluster ∧
      ∃ r, runSteps (callStep laggingEnv liveVenue) (VenueRun.start ([], false)) [(sampleExit, id)] =
          .ok r ∧
        ¬ LandsOnce id (laggingCluster.Landed (r.state.world.1, true)) r := by
  refine ⟨laggingRpc_truthful, _, rfl, fun honce => ?_⟩
  have h₁ : SentIn (callLog laggingEnv liveVenue (VenueRun.start ([], false)) (sampleExit, id))
      "hash-1" := ⟨_, List.mem_of_getElem? (i := 6) rfl⟩
  have h₂ : SentIn (callLog laggingEnv liveVenue (VenueRun.start ([], false)) (sampleExit, id))
      "hash-2" := ⟨_, List.mem_of_getElem? (i := 13) rfl⟩
  have hsame := honce "exit-1" "hash-1" "hash-2" ⟨_, List.mem_singleton_self _, rfl, h₁⟩
    ⟨_, List.mem_singleton_self _, rfl, h₂⟩ ⟨_, rfl, rfl⟩ ⟨_, rfl, rfl⟩
  exact absurd hsame (by decide)

end Venue
end AatsSniper

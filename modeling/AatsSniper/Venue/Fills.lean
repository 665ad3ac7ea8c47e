/-
# What a fill of the venue means

A call returns a landed fill iff a land was reported to it (`program_told`).  Against a
truthful endpoint only the recheck, and a confirmation without an error, are reports of
what a fill claims: an accepted transaction may never be confirmed, and a confirmation
may carry an on-chain error.  `meansLanded_iff_borneOut` says when a fill means that a
transaction of the call has landed.
-/

import AatsSniper.Venue.Reports

namespace AatsSniper
namespace Venue

/-- The transaction was sent. -/
def SentIn (log : List VenueEvent) (signedTxB64 : String) : Prop :=
  ∃ answer, .asked (.sendTransaction signedTxB64) answer ∈ log

/-- A send was accepted. -/
def AcceptedIn (log : List VenueEvent) : Prop :=
  ∃ signedTxB64 result, .asked (.sendTransaction signedTxB64) (.ok result) ∈ log ∧
    result.submitted = true ∧ orText result.signature "" ≠ ""

/-- A confirmation carried an on-chain error. -/
def ErroredIn (log : List VenueEvent) : Prop :=
  ∃ signature maxPolls confirm, .asked (.confirmTransaction signature maxPolls) (.ok confirm) ∈ log ∧
    confirm.confirmed = true ∧ confirm.error ≠ none

section Truthful

variable {W : Type} {raw : RawRpc W} {extract : String → String} {cluster : Cluster W}
  {kind : ClientKind} {environ : W → Environ} {v : JitoJupiterVenue}

theorem polls_landed (ht : Truthful raw extract cluster) {signature : String} {left : ℕ} {w w' : W}
    {confirm : ConfirmResult} (h : raw.polls signature left w = (.ok confirm, w'))
    (hconfirmed : confirm.confirmed = true) (herror : confirm.error = none) :
    cluster.Landed w' signature := by
  induction left generalizing w with
  | zero =>
      unfold RawRpc.polls at h
      obtain ⟨hconfirm, -⟩ := Prod.mk.inj h
      rw [← Except.ok.inj hconfirm] at hconfirmed
      cases hconfirmed
  | succ left ih =>
      unfold RawRpc.polls at h
      rcases hstatuses : raw.getSignatureStatuses [signature] w with ⟨values?, w₁⟩
      rw [hstatuses] at h
      cases values? with
      | error e => cases (Prod.mk.inj h).1
      | ok values =>
          dsimp only at h
          have htrue := ht.statuses signature w values w₁ hstatuses
          cases hhead : values.head?.join with
          | none =>
              rw [hhead] at h
              exact ih h
          | some st =>
              rw [hhead] at h htrue
              dsimp only at h
              split_ifs at h with hsettled
              · obtain ⟨hconfirm, rfl⟩ := Prod.mk.inj h
                obtain rfl := Except.ok.inj hconfirm
                have hlanded : cluster.Landed w signature := by
                  refine ⟨st, htrue.symm, ?_⟩
                  have hnone : st.err = none := herror
                  unfold RawStatus.landed
                  rw [hsettled, hnone]
                  rfl
                have := ht.stays [signature] w signature hlanded
                rwa [hstatuses] at this
              · exact ih h

theorem statuses_landed (ht : Truthful raw extract cluster) {signature : String} {w w' : W}
    {statuses : List (Option SignatureStatus)} {st : SignatureStatus}
    (h : raw.statuses [signature] w = (.ok statuses, w')) (hhead : statuses.head?.join = some st)
    (hanswer : st.saysLanded = true) : cluster.Landed w' signature := by
  unfold RawRpc.statuses at h
  rw [if_neg (List.cons_ne_nil _ _)] at h
  rcases hstatuses : raw.getSignatureStatuses [signature] w with ⟨values?, w₁⟩
  rw [hstatuses] at h
  cases values? with
  | error e => cases (Prod.mk.inj h).1
  | ok values =>
      obtain ⟨hlist, rfl⟩ := Prod.mk.inj h
      obtain rfl := Except.ok.inj hlist
      have htrue := ht.statuses signature w values w₁ hstatuses
      have hjoin : RawRpc.statusOf signature (values.head?.join) = some st := by
        rw [← hhead]
        cases values with
        | nil => rfl
        | cons value values => rfl
      cases hraw : values.head?.join with
      | none =>
          rw [hraw] at hjoin
          cases hjoin
      | some rawSt =>
          rw [hraw] at hjoin htrue
          have hlanded : cluster.Landed w signature := by
            refine ⟨rawSt, htrue.symm, ?_⟩
            obtain rfl := Option.some.inj hjoin
            exact (Bool.and_eq_true_iff.1 hanswer).1
          have := ht.stays [signature] w signature hlanded
          rwa [hstatuses] at this

theorem ask_env {q : Query} {s : VenueState W} {a : q.Answer} {env : Env W}
    (h : (ask env q s).result = .ok a) : env.ask q s.world = (.ok a, (ask env q s).state.world) :=
  Prod.ext h rfl

/-- A confirmed transaction has an error or has landed. -/
theorem confirmDevnet_grounded (ht : Truthful raw extract cluster) {signature : String}
    {s : VenueState W} {land : LandResult}
    (h : (confirmDevnet (raw.env kind environ extract) signature s).result = .ok land)
    (hfill : IsFill land) :
    ErroredIn (confirmDevnet (raw.env kind environ extract) signature s).log ∨
      cluster.Landed (confirmDevnet (raw.env kind environ extract) signature s).state.world
        signature := by
  obtain ⟨e, -, h₁, hstate₁, hlog₁⟩ := Act.bind_returned h
  obtain ⟨maxPolls, -, h₂, hstate₂, hlog₂⟩ := Act.bind_returned h₁
  obtain ⟨interval, -, h₃, hstate₃, hlog₃⟩ := Act.bind_returned h₂
  obtain ⟨confirm, hconfirm, h₄, hstate₄, hlog₄⟩ := Act.bind_returned h₃
  have hconfirmed : confirm.confirmed = true := by
    by_contra hnot
    rw [if_neg hnot] at h₄
    obtain rfl := Except.ok.inj h₄
    obtain ⟨-, -, hreason | hreason⟩ := reconcile_landed.1 hfill
    · exact (confirmFailed_ne _).1 hreason
    · exact (confirmFailed_ne _).2 hreason
  have hhas : (raw.env kind environ extract).hasConfirmTransaction = true := by
    by_contra hnot
    have hraise : confirmTransaction (raw.env kind environ extract) signature maxPolls =
        Act.raise .other := if_neg hnot
    rw [hraise] at hconfirm
    cases hconfirm
  have hasks : confirmTransaction (raw.env kind environ extract) signature maxPolls =
      ask (raw.env kind environ extract) (.confirmTransaction signature maxPolls) := if_pos hhas
  rw [if_pos hconfirmed] at hstate₄
  unfold confirmDevnet
  rw [hlog₁, hlog₂, hlog₃, hlog₄, hstate₁, hstate₂, hstate₃, hstate₄]
  rw [hasks] at hconfirm ⊢
  cases herror : confirm.error with
  | some error =>
      refine .inl ⟨signature, maxPolls, confirm, ?_, hconfirmed, by rw [herror]; exact nofun⟩
      refine List.mem_append_right _ (List.mem_append_right _ (List.mem_append_right _ ?_))
      rw [ask_log hconfirm]
      exact List.mem_append_left _ (List.mem_singleton_self _)
  | none => exact .inr (polls_landed ht (ask_env hconfirm) hconfirmed herror)

/-- A fill of a send: accepted in LIVE, confirmed with an error in DEVNET, or landed. -/
theorem sendIn_grounded (ht : Truthful raw extract cluster) {mode : SubmitMode} (hmode : mode ≠ .dryRun)
    (tx : SignedTx) {s : VenueState W}
    (h : Comes IsFill (sendIn (raw.env kind environ extract) mode tx) s) :
    (mode = .live ∧ AcceptedIn (sendIn (raw.env kind environ extract) mode tx s).log) ∨
      ErroredIn (sendIn (raw.env kind environ extract) mode tx s).log ∨
      cluster.Landed (sendIn (raw.env kind environ extract) mode tx s).state.world
        (extract tx.serializedB64) := by
  rw [sendIn_eq] at h ⊢
  obtain ⟨land, hland, hfill⟩ := h
  obtain ⟨result, hask, hafter, hstate, hlog⟩ := Act.bind_returned hland
  rw [hstate, hlog, ask_log hask]
  unfold afterSend at hafter ⊢
  split_ifs at hafter ⊢ with hdevnet htaken hsubmitted
  · -- the signature of an accepted transaction is its own
    have hown : orText result.signature "" = extract tx.serializedB64 := by
      have hsend : raw.send kind tx.serializedB64 s.world = _ := ask_env hask
      unfold RawRpc.send at hsend
      rcases hraw : raw.sendTransaction tx.serializedB64 s.world with ⟨signature?, w'⟩
      rw [hraw] at hsend
      cases signature? with
      | ok signature =>
          have hresult := Except.ok.inj (Prod.mk.inj hsend).1
          rw [← hresult, ← ht.accepted _ _ _ _ hraw]
          refine orText_some fun hempty => htaken.2 ?_
          rw [← hresult, hempty]
          rfl
      | error e =>
          cases e with
          | os blockhashNotFound =>
              have hresult := Except.ok.inj (Prod.mk.inj hsend).1
              rw [← hresult] at htaken
              cases htaken.1
          | other => cases (Prod.mk.inj hsend).1
    rw [hown] at hafter ⊢
    rcases confirmDevnet_grounded ht hafter hfill with ⟨sig, n, confirm, hmem, hrest⟩ | hlanded
    · exact .inr (.inl ⟨sig, n, confirm, List.mem_append_right _ hmem, hrest⟩)
    · exact .inr (.inr hlanded)
  · obtain rfl := Except.ok.inj hafter
    exact absurd hfill (not_landed_of_not_submitted rfl)
  · obtain rfl := Except.ok.inj hafter
    refine .inl ⟨?_, tx.serializedB64, result, ?_, hsubmitted, (reconcile_landed.1 hfill).2.1⟩
    · cases mode with
      | dryRun => exact absurd rfl hmode
      | devnet => exact absurd rfl hdevnet
      | live => rfl
    · exact List.mem_append_left _ (List.mem_singleton_self _)
  · obtain rfl := Except.ok.inj hafter
    exact absurd hfill (not_landed_of_not_submitted rfl)

/-- A transaction that the recheck finds has landed. -/
theorem recheck_grounded (ht : Truthful raw extract cluster) (tx : SignedTx) {s : VenueState W}
    {land : LandResult}
    (h : (recheckSignatureBeforeResend (raw.env kind environ extract) tx s).result = .ok (some land)) :
    cluster.Landed (recheckSignatureBeforeResend (raw.env kind environ extract) tx s).state.world
      (extract tx.serializedB64) := by
  have hhas : (raw.env kind environ extract).hasGetSignatureStatuses = true := rfl
  unfold recheckSignatureBeforeResend at h ⊢
  rw [if_pos hhas] at h ⊢
  obtain ⟨statuses, hask, hrest, hstate, -⟩ := Act.bind_returned h
  rw [hstate]
  cases hhead : statuses.head?.join with
  | none =>
      rw [hhead] at hrest
      cases Except.ok.inj hrest
  | some st =>
      rw [hhead] at hrest
      dsimp only at hrest ⊢
      split_ifs at hrest ⊢ with hanswer
      · exact statuses_landed ht (ask_env hask) hhead hanswer
      · cases Except.ok.inj hrest

theorem beforeResend_grounded (ht : Truthful raw extract cluster) (rebuild : String → Build)
    (walletId : String) (ms : ℕ) (tx : SignedTx) {s : VenueState W} {land : LandResult}
    (h : (beforeResend (raw.env kind environ extract) rebuild walletId ms tx s).result =
      .ok (.inl land)) (hfill : IsFill land) :
    cluster.Landed (beforeResend (raw.env kind environ extract) rebuild walletId ms tx s).state.world
      (extract tx.serializedB64) := by
  obtain ⟨_, -, h₁, hstate₁, -⟩ := Act.bind_returned h
  obtain ⟨phantom, hrecheck, h₂, hstate₂, -⟩ := Act.bind_returned h₁
  unfold beforeResend
  rw [hstate₁, hstate₂]
  cases phantom with
  | some phantom => exact recheck_grounded ht tx hrecheck
  | none =>
      -- what is returned past the recheck was not submitted
      exfalso
      obtain ⟨_, -, h₃, -, -⟩ := Act.bind_returned h₂
      obtain ⟨prepared, -, h₄, -, -⟩ := Act.bind_returned h₃
      split_ifs at h₄
      · cases Except.ok.inj h₄
      · obtain rfl := Sum.inl.inj (Except.ok.inj h₄)
        exact not_landed_of_not_submitted rfl hfill

/-- What is behind a fill: a send accepted in LIVE, a confirmation with an error, or a transaction that
was sent and has landed. -/
def Grounded (live : Prop) (extract : String → String) (cluster : Cluster W) (log : List VenueEvent)
    (w : W) : Prop :=
  (live ∧ AcceptedIn log) ∨ ErroredIn log ∨ ∃ b, SentIn log b ∧ cluster.Landed w (extract b)

theorem Grounded.mono {live live' : Prop} {log log' : List VenueEvent} {w : W}
    (h : Grounded live extract cluster log w) (hlive : live → live') (hlog : log ⊆ log') :
    Grounded live' extract cluster log' w := by
  rcases h with ⟨hl, b, result, hmem, hrest⟩ | ⟨signature, n, confirm, hmem, hrest⟩ |
    ⟨b, ⟨answer, hmem⟩, hlanded⟩
  · exact .inl ⟨hlive hl, b, result, hlog hmem, hrest⟩
  · exact .inr (.inl ⟨signature, n, confirm, hlog hmem, hrest⟩)
  · exact .inr (.inr ⟨b, ⟨answer, hlog hmem⟩, hlanded⟩)

theorem sendIn_sent {env : Env W} (mode : SubmitMode) (tx : SignedTx) (s : VenueState W) :
    SentIn (sendIn env mode tx s).log tx.serializedB64 := by
  obtain ⟨answer, tail, hlog, -, -⟩ := @sendIn_log W env mode tx s
  rw [hlog]
  exact ⟨answer, List.mem_cons_self⟩

/-- **What is behind a fill of the attempts.** -/
theorem attempts_grounded (ht : Truthful raw extract cluster) {mode : SubmitMode}
    (hmode : mode ≠ .dryRun) (rebuild : String → Build) (walletId : String) (left : ℕ) (tx : SignedTx)
    {s : VenueState W}
    (h : Comes IsFill (attempts (raw.env kind environ extract) mode rebuild walletId left tx) s) :
    Grounded (mode = .live) extract cluster
      (attempts (raw.env kind environ extract) mode rebuild walletId left tx s).log
      (attempts (raw.env kind environ extract) mode rebuild walletId left tx s).state.world := by
  induction left using Nat.strong_induction_on generalizing tx s with
  | _ left ih =>
    rw [attempts_eq] at h ⊢
    obtain ⟨land, hland, hfill⟩ := h
    obtain ⟨result, hsend, hafter, hstate, hlog⟩ := Act.bind_returned hland
    rw [hstate, hlog]
    have hsent := @sendIn_sent W (raw.env kind environ extract) mode tx s
    unfold afterAttempt at hafter ⊢
    split_ifs at hafter ⊢ with hsubmitted hretry
    · obtain rfl := Except.ok.inj hafter
      rcases sendIn_grounded ht hmode tx ⟨result, hsend, hfill⟩ with ⟨hlive, haccepted⟩ | herrored |
        hlanded
      · exact Grounded.mono (.inl ⟨hlive, haccepted⟩) id (List.subset_append_left _ _)
      · exact Grounded.mono (.inr (.inl herrored)) id (List.subset_append_left _ _)
      · exact Grounded.mono (.inr (.inr ⟨_, hsent, hlanded⟩)) id (List.subset_append_left _ _)
    · cases left with
      | zero =>
          obtain rfl := Except.ok.inj hafter
          exact absurd hfill (not_landed_of_not_submitted rfl)
      | succ left =>
          obtain ⟨before, hbefore, hnext, hstate', hlog'⟩ := Act.bind_returned hafter
          dsimp only
          rw [hstate', hlog']
          cases before with
          | inl land' =>
              obtain rfl := Except.ok.inj hnext
              have hlanded := beforeResend_grounded ht rebuild walletId _ tx hbefore hfill
              exact Grounded.mono (.inr (.inr ⟨_, hsent, hlanded⟩)) id (List.subset_append_left _ _)
          | inr rebuilt =>
              refine (ih left (Nat.lt_succ_self _) rebuilt ⟨land, hnext, hfill⟩).mono id ?_
              exact List.Subset.trans (List.subset_append_right _ _) (List.subset_append_right _ _)
    · obtain rfl := Except.ok.inj hafter
      exact absurd hfill (not_landed_of_not_submitted rfl)

theorem landWithRetry_grounded (ht : Truthful raw extract cluster) (rebuild : String → Build)
    (walletId : String) (tx : SignedTx) {s : VenueState W}
    (h : Comes IsFill (landWithRetry (raw.env kind environ extract) v rebuild walletId tx) s) :
    let o := landWithRetry (raw.env kind environ extract) v rebuild walletId tx s
    Grounded (.dispatched .live ∈ o.log) extract cluster o.log o.state.world := by
  rcases @landWithRetry_run W (raw.env kind environ extract) v rebuild walletId tx s with
    ⟨result, hrun, hresult⟩ | ⟨hmode, hrun⟩
  · obtain ⟨land, hland, hfill⟩ := h
    rw [hrun] at hland
    exact absurd hfill (not_landed_of_not_submitted (hresult land hland))
  · have hcomes : Comes IsFill (attempts (raw.env kind environ extract)
        (submitMode v ((raw.env kind environ extract).environ s.world)) rebuild walletId 2 tx) s := by
      obtain ⟨land, hland, hfill⟩ := h
      rw [hrun] at hland
      exact ⟨land, hland, hfill⟩
    intro o
    have ho : o = _ := hrun
    rw [ho]
    refine (attempts_grounded ht hmode rebuild walletId 2 tx hcomes).mono (fun hlive => ?_)
      (List.subset_cons_self _ _)
    rw [hlive]
    exact List.mem_cons_self

/-- **What is behind a fill of a call.** -/
theorem program_grounded (ht : Truthful raw extract cluster) (call : VenueCall) (s : VenueState W)
    (hreported : Reported (call.program (raw.env kind environ extract) v s).log) :
    let o := call.program (raw.env kind environ extract) v s
    Grounded (.dispatched .live ∈ o.log) extract cluster o.log o.state.world := by
  by_cases hids : call.intentId ∈ s.submittedIntentIds
  · rw [program_of_submitted hids] at hreported
    exact absurd hreported not_reportedIn_nil
  · rw [program_of_fresh hids] at hreported ⊢
    obtain ⟨fill, hbody, hlanded⟩ := (body_told call s).filled.2 hreported
    obtain ⟨α, plan, after, hshape, -, hafter⟩ :=
      @body_shape W (raw.env kind environ extract) v call
    rw [hshape] at hbody ⊢
    obtain ⟨a, -, hrest, hstate, hlog⟩ := Act.bind_returned hbody
    dsimp only
    rw [hstate, hlog]
    rcases hafter a with ⟨reason, hpure⟩ | ⟨rebuild, walletId, tx, enrich, -, henrich, hland⟩
    · rw [hpure] at hrest
      obtain rfl := Except.ok.inj hrest
      cases hlanded
    · rw [hland] at hrest ⊢
      obtain ⟨land, hland', hsettle, hstate', hlog'⟩ := Act.bind_returned hrest
      obtain ⟨fill', hfill', hpure, hstate'', hlog''⟩ := Act.bind_returned hsettle
      rw [settle_run] at hfill'
      obtain rfl := Except.ok.inj hfill'
      obtain rfl := Except.ok.inj hpure
      have hfill : IsFill land := by rwa [henrich] at hlanded
      have hworld : (landing (raw.env kind environ extract) v call.intentId rebuild walletId tx enrich
          (plan s).state).state.world = (landWithRetry (raw.env kind environ extract) v rebuild
            walletId tx (plan s).state).state.world := by
        unfold landing
        rw [hstate', hstate'', settle_run, if_pos hfill]
        rfl
      rw [hworld]
      refine (landWithRetry_grounded ht rebuild walletId tx ⟨land, hland', hfill⟩).mono ?_ ?_
      · intro hmem
        refine List.mem_append_right _ ?_
        unfold landing
        rw [hlog']
        exact List.mem_append_left _ hmem
      · refine List.Subset.trans ?_ (List.subset_append_right _ _)
        unfold landing
        rw [hlog']
        exact List.subset_append_left _ _

/-- A transaction sent in the call has landed by the time it returns. -/
def SomeLanded (extract : String → String) (cluster : Cluster W)
    (o : Outcome (VenueState W) Raised VenueEvent FillResult) : Prop :=
  ∃ b, SentIn o.log b ∧ cluster.Landed o.state.world (extract b)

/-- What a fill of the call is to mean. -/
structure MeansLanded (extract : String → String) (cluster : Cluster W) (call : VenueCall)
    (s : VenueState W) (o : Outcome (VenueState W) Raised VenueEvent FillResult) : Prop where
  landed : ∀ fill, o.result = .ok fill → (fill.landed = true ↔ SomeLanded extract cluster o)
  kept : call.intentId ∉ s.submittedIntentIds →
    call.intentId ∈ o.state.submittedIntentIds → SomeLanded extract cluster o

/-- The cluster bears out what the endpoint told the call: behind a send accepted in LIVE and behind
a confirmation with an on-chain error a transaction has landed, and where no land was reported none
has. -/
structure BorneOut (extract : String → String) (cluster : Cluster W)
    (o : Outcome (VenueState W) Raised VenueEvent FillResult) : Prop where
  accepted : .dispatched .live ∈ o.log → AcceptedIn o.log → SomeLanded extract cluster o
  errored : ErroredIn o.log → SomeLanded extract cluster o
  unreported : ¬ Reported o.log → ¬ SomeLanded extract cluster o

/-- **A fill means a land** iff the cluster bears out what the endpoint told the call.  The answers
of a truthful endpoint leave open whether an accepted transaction is ever confirmed, whether one
that is reported with an error has landed, and whether one that is not reported did after all. -/
theorem meansLanded_iff_borneOut (ht : Truthful raw extract cluster) (kind : ClientKind)
    (environ : W → Environ) (v : JitoJupiterVenue) (call : VenueCall) (s : VenueState W) :
    let o := call.program (raw.env kind environ extract) v s
    MeansLanded extract cluster call s o ↔ BorneOut extract cluster o := by
  intro o
  obtain ⟨fill, hresult, hlanded, hkept, hunkept⟩ :=
    @program_told W (raw.env kind environ extract) v call s
  constructor
  · rintro ⟨hmeans, -⟩
    have hiff := hmeans fill hresult
    refine ⟨fun hlive haccepted => ?_, fun herrored => ?_, fun hnot hsome => ?_⟩
    · obtain ⟨b, result, hmem, hsubmitted, hsignature⟩ := haccepted
      exact hiff.1 (hlanded.2 ⟨_, hmem, hlive, hsubmitted, hsignature⟩)
    · obtain ⟨signature, n, confirm, hmem, hconfirmed, -⟩ := herrored
      exact hiff.1 (hlanded.2 ⟨_, hmem, hconfirmed⟩)
    · exact hnot (hlanded.1 (hiff.2 hsome))
  · rintro ⟨haccepted, herrored, hunreported⟩
    have hsome : Reported o.log → SomeLanded extract cluster o := by
      intro hreported
      rcases program_grounded ht call s hreported with ⟨hlive, haccept⟩ | herror | hsome
      · exact haccepted hlive haccept
      · exact herrored herror
      · exact hsome
    refine ⟨fun fill' hfill' => ?_, fun hfresh hmem => ?_⟩
    · obtain rfl : fill' = fill := Except.ok.inj (hfill'.symm.trans hresult)
      rw [hlanded]
      exact ⟨hsome, fun h => not_not.1 fun hnot => hunreported hnot h⟩
    · refine hsome (not_not.1 fun hnot => hfresh ?_)
      rwa [hunkept hnot] at hmem

end Truthful

/-- The answers to the queries before a transaction is sent; a transaction is its blockhash. -/
def sampleRest {W : Type} (blockhash : W → String) : (q : Query) → W → Except Raised q.Answer × W
  | .getCurrentSlot, w => (.ok 10, w)
  | .getLatestBlockhash, w => (.ok (blockhash w), w)
  | .build args, w => (.ok ⟨args.blockhash, "EXIT", "MINT", "exit-1"⟩, w)
  | .sign tx _, w => (.ok ⟨tx.serializedB64, "WALLET", tx.intentKind, tx.mint, tx.clientIntentId⟩, w)
  | .simulateTransaction _, w => (.ok ⟨true, 200000, none⟩, w)
  | .sleep _, w => (.ok (), w)
  | .sendTransaction _, w => (.error .other, w)
  | .confirmTransaction _ _, w => (.error .other, w)
  | .getSignatureStatuses _, w => (.error .other, w)

/-- The transactions sent are confirmed at once, or never. -/
def promptCluster (confirms : Bool) : Cluster (List String) := fun sent signature =>
  if confirms = true ∧ signature ∈ sent then some ⟨some "confirmed", some 1, none⟩ else none

/-- An endpoint that accepts what it is sent. -/
def acceptingRpc (confirms : Bool) : RawRpc (List String) where
  sendTransaction b sent := (.ok b, b :: sent)
  getSignatureStatuses signatures sent := (.ok (signatures.map (promptCluster confirms sent)), sent)
  sleep sent := sent
  rest := sampleRest fun _ => "hash"

/-- Every gate of LIVE is open. -/
def liveEnviron {W : Type} : W → Environ := fun _ =>
  ⟨true, false, some 1000, some 1000, some 3, some 1⟩

/-- A venue that is armed for LIVE. -/
def liveVenue : JitoJupiterVenue := ⟨"WALLET", true, "mainnet"⟩

/-- The exit of a position. -/
def sampleExit : VenueCall := .exit ⟨"exit-1", "MINT", "FULL"⟩ "wallet-1"

theorem acceptingRpc_truthful (confirms : Bool) :
    Truthful (acceptingRpc confirms) id (promptCluster confirms) where
  statuses := by
    intro signature w values w' h
    obtain rfl := Except.ok.inj (Prod.mk.inj h).1
    rfl
  accepted := by
    intro b w signature w' h
    exact (Except.ok.inj (Prod.mk.inj h).1).symm
  stays := fun _ _ _ h => h

/-- Where the cluster confirms at once, the fill of an exit means its land. -/
theorem meansLanded_prompt :
    Truthful (acceptingRpc true) id (promptCluster true) ∧
      MeansLanded id (promptCluster true) sampleExit ⟨[], []⟩
        (sampleExit.program ((acceptingRpc true).env .solana liveEnviron id) liveVenue ⟨[], []⟩) := by
  have hsend : .asked (.sendTransaction "hash") (.ok ⟨true, some "hash", none, "landed"⟩) ∈
      (sampleExit.program ((acceptingRpc true).env .solana liveEnviron id) liveVenue ⟨[], []⟩).log :=
    List.mem_of_getElem? (i := 6) rfl
  have hsome : SomeLanded id (promptCluster true)
      (sampleExit.program ((acceptingRpc true).env .solana liveEnviron id) liveVenue ⟨[], []⟩) :=
    ⟨"hash", ⟨_, hsend⟩, ⟨some "confirmed", some 1, none⟩, rfl, rfl⟩
  refine ⟨acceptingRpc_truthful true, (meansLanded_iff_borneOut (acceptingRpc_truthful true) _ _ _ _ _).2
    ⟨fun _ _ => hsome, fun _ => hsome, fun hnot => absurd ⟨_, hsend, ?_, rfl, by decide⟩ hnot⟩⟩
  exact List.mem_of_getElem? (i := 5) rfl

/-- In LIVE an exit whose transaction is accepted and never confirmed returns a landed fill, and its
intent is kept as submitted. -/
theorem accepted_never_confirmed :
    Truthful (acceptingRpc false) id (promptCluster false) ∧
      ¬ MeansLanded id (promptCluster false) sampleExit ⟨[], []⟩
        (sampleExit.program ((acceptingRpc false).env .solana liveEnviron id) liveVenue ⟨[], []⟩) := by
  refine ⟨acceptingRpc_truthful false, fun ⟨hlanded, _⟩ => ?_⟩
  obtain ⟨b, -, st, hst, -⟩ := (hlanded _ rfl).1 (by decide)
  cases hst

end Venue
end AatsSniper

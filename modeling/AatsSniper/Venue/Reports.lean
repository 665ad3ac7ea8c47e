/-
# What a call of the venue is told

A call of the venue returns a landed fill, and keeps its intent as submitted, iff a land
was reported to it (`program_told`): in LIVE by a send that was accepted, in DEVNET by a
confirmation, and in both by the recheck before a resend.
-/

import AatsSniper.Venue.Sends

namespace AatsSniper
namespace Venue

/-! ### Reports of a land -/

/-- The event tells the venue of a land: an accepted send where that counts, a confirmation, or a
recheck. -/
def VenueEvent.Reports (live : Prop) : VenueEvent → Prop
  | .asked (.sendTransaction _) (.ok result) =>
      live ∧ result.submitted = true ∧ orText result.signature "" ≠ ""
  | .asked (.confirmTransaction _ _) (.ok confirm) => confirm.confirmed = true
  | .asked (.getSignatureStatuses signatures) (.ok statuses) =>
      orText signatures.head? "" ≠ "" ∧
        ∃ st, statuses.head?.join = some st ∧ st.saysLanded = true
  | _ => False

/-- Some event of the log reports a land. -/
def ReportedIn (live : Prop) (log : List VenueEvent) : Prop := ∃ e ∈ log, e.Reports live

/-- The call was told of a land. -/
def Reported (log : List VenueEvent) : Prop := ReportedIn (.dispatched .live ∈ log) log

section Reported

variable {live : Prop} {l₁ l₂ log : List VenueEvent} {e : VenueEvent}

theorem not_reportedIn_nil : ¬ ReportedIn live [] := by
  rintro ⟨e, he, -⟩
  exact absurd he List.not_mem_nil

theorem reportedIn_cons : ReportedIn live (e :: log) ↔ e.Reports live ∨ ReportedIn live log := by
  constructor
  · rintro ⟨e', he', hreports⟩
    rcases List.mem_cons.1 he' with rfl | he'
    · exact .inl hreports
    · exact .inr ⟨e', he', hreports⟩
  · rintro (hreports | ⟨e', he', hreports⟩)
    · exact ⟨e, List.mem_cons_self, hreports⟩
    · exact ⟨e', List.mem_cons_of_mem _ he', hreports⟩

theorem reportedIn_singleton : ReportedIn live [e] ↔ e.Reports live := by
  rw [reportedIn_cons, or_iff_left not_reportedIn_nil]

theorem reportedIn_append :
    ReportedIn live (l₁ ++ l₂) ↔ ReportedIn live l₁ ∨ ReportedIn live l₂ := by
  constructor
  · rintro ⟨e, he, hreports⟩
    rcases List.mem_append.1 he with he | he
    · exact .inl ⟨e, he, hreports⟩
    · exact .inr ⟨e, he, hreports⟩
  · rintro (⟨e, he, hreports⟩ | ⟨e, he, hreports⟩)
    · exact ⟨e, List.mem_append_left _ he, hreports⟩
    · exact ⟨e, List.mem_append_right _ he, hreports⟩

end Reported

/-! ### Lands of a program -/

theorem reconcile_landed {land : LandResult} :
    (reconcile land).landed = true ↔ land.submitted = true ∧ orText land.signature "" ≠ "" ∧
      (land.reason = "landed" ∨ land.reason = "devnet_landed") := by
  unfold reconcile
  split_ifs with h
  · exact iff_of_true rfl h
  · exact iff_of_false not_false h

theorem not_landed_of_not_submitted {land : LandResult} (h : land.submitted = false) :
    ¬ (reconcile land).landed = true := by
  intro hlanded
  rw [(reconcile_landed.1 hlanded).1] at h
  cases h

section Programs

variable {W : Type} {env : Env W} {v : JitoJupiterVenue} {live : Prop} {α β : Type}

/-- The program returns a value of the kind. -/
def Comes (p : α → Prop) (m : VenueM W α) (s : VenueState W) : Prop :=
  ∃ a, (m s).result = .ok a ∧ p a

theorem comes_of_ok {p : α → Prop} {m : VenueM W α} {s : VenueState W} {a : α}
    (h : (m s).result = .ok a) : Comes p m s ↔ p a := by
  constructor
  · rintro ⟨a', ha', hp⟩
    rw [h] at ha'
    obtain rfl := Except.ok.inj ha'
    exact hp
  · intro hp
    exact ⟨a, h, hp⟩

theorem not_comes_of_error {p : α → Prop} {m : VenueM W α} {s : VenueState W} {e : Raised}
    (h : (m s).result = .error e) : ¬ Comes p m s := by
  rintro ⟨a, ha, -⟩
  rw [h] at ha
  cases ha

/-- The program returns a value of the kind iff a land was reported to it. -/
def AsTold (live : Prop) (p : α → Prop) (m : VenueM W α) (s : VenueState W) : Prop :=
  Comes p m s ↔ ReportedIn live (m s).log

theorem asTold_pure {p : α → Prop} {a : α} (h : ¬ p a) (s : VenueState W) :
    AsTold live p (pure a) s :=
  iff_of_false (fun hcomes => h ((comes_of_ok rfl).1 hcomes)) not_reportedIn_nil

/-- A program that is told nothing. -/
theorem asTold_of_quiet {m : VenueM W α} {s : VenueState W} (h : ¬ ReportedIn live (m s).log) :
    AsTold live (fun _ => False) m s :=
  iff_of_false (fun ⟨_, _, hfalse⟩ => hfalse) h

/-- **Sequences.** -/
theorem asTold_bind {q : α → Prop} {p : β → Prop} {m : VenueM W α} {f : α → VenueM W β}
    {s : VenueState W} (hm : AsTold live q m s)
    (hland : ∀ a, (m s).result = .ok a → q a → Comes p (f a) (m s).state)
    (hf : ∀ a, (m s).result = .ok a → ¬ q a → AsTold live p (f a) (m s).state) :
    AsTold live p (m >>= f) s := by
  cases h : (m s).result with
  | error e =>
      have hnot : ¬ ReportedIn live (m s).log := fun hr => not_comes_of_error h (hm.2 hr)
      refine iff_of_false (not_comes_of_error (e := e) ?_) ?_
      · rw [Act.bind_error h]
      · rw [Act.bind_error h]
        exact hnot
  | ok a =>
      have hcomes : Comes p (m >>= f) s ↔ Comes p (f a) (m s).state := by
        unfold Comes
        rw [Act.bind_ok h]
      have hlog : ReportedIn live ((m >>= f) s).log ↔
          ReportedIn live (m s).log ∨ ReportedIn live (f a (m s).state).log := by
        rw [Act.bind_ok h, reportedIn_append]
      have hmq : q a ↔ ReportedIn live (m s).log := (comes_of_ok h).symm.trans hm
      unfold AsTold
      rw [hcomes, hlog]
      by_cases hq : q a
      · exact iff_of_true (hland a h hq) (.inl (hmq.1 hq))
      · rw [or_iff_right fun hr => hq (hmq.2 hr)]
        exact hf a h hq

/-- Sequences whose first program is told nothing. -/
theorem asTold_bind_of_quiet {p : β → Prop} {m : VenueM W α} {f : α → VenueM W β}
    {s : VenueState W} (hm : ¬ ReportedIn live (m s).log)
    (hf : ∀ a, (m s).result = .ok a → AsTold live p (f a) (m s).state) :
    AsTold live p (m >>= f) s :=
  asTold_bind (asTold_of_quiet hm) (fun _ _ hfalse => absurd hfalse not_false)
    fun a h _ => hf a h

/-- A query, and what is told by its answer. -/
theorem asTold_ask {q : Query} {p : q.Answer → Prop}
    (h : ∀ a, p a ↔ (VenueEvent.asked q (.ok a)).Reports live)
    (herror : ∀ e, ¬ (VenueEvent.asked q (.error e)).Reports live) (s : VenueState W) :
    AsTold live p (ask env q) s := by
  unfold AsTold
  cases hask : (ask env q s).result with
  | error e =>
      rw [ask_log hask, reportedIn_singleton]
      exact iff_of_false (not_comes_of_error hask) (herror e)
  | ok a =>
      rw [comes_of_ok hask, ask_log hask, reportedIn_singleton]
      exact h a

/-- The land is a fill. -/
abbrev IsFill (land : LandResult) : Prop := (reconcile land).landed = true

/-- A land that was not submitted. -/
theorem asTold_unsubmitted (reason : String) (s : VenueState W) :
    AsTold live IsFill (pure ⟨false, reason, none, none⟩) s := by
  refine asTold_pure ?_ s
  exact not_landed_of_not_submitted rfl

/-! ### Sends -/

theorem orText_some {text : String} (h : text ≠ "") : orText (some text) "" = text := by
  show (if text = "" then "" else text) = text
  rw [if_neg h]

/-- The reason of a confirmation that failed is not one of a land. -/
theorem confirmFailed_ne (text : String) :
    "devnet_confirm_failed:" ++ text ≠ "landed" ∧
      "devnet_confirm_failed:" ++ text ≠ "devnet_landed" := by
  have hlength : 22 ≤ ("devnet_confirm_failed:" ++ text).length := by
    rw [String.length_append]
    exact Nat.le_add_right 22 _
  constructor
  · intro h
    rw [h] at hlength
    exact absurd hlength (by decide)
  · intro h
    rw [h] at hlength
    exact absurd hlength (by decide)

theorem quiet_parsed (value : Option α) (s : VenueState W) :
    ¬ ReportedIn live (parsed value s : Outcome (VenueState W) Raised VenueEvent α).log := by
  cases value with
  | none => exact not_reportedIn_nil
  | some a => exact not_reportedIn_nil

/-- A confirmation is a fill iff it confirms. -/
theorem confirmDevnet_asTold {signature : String} (hsignature : signature ≠ "")
    (s : VenueState W) : AsTold live IsFill (confirmDevnet env signature) s := by
  refine asTold_bind_of_quiet not_reportedIn_nil fun e _ =>
    asTold_bind_of_quiet (quiet_parsed _ _) fun maxPolls _ =>
      asTold_bind_of_quiet (quiet_parsed _ _) fun _ _ => ?_
  refine asTold_bind (q := fun confirm : ConfirmResult => confirm.confirmed = true) ?_ ?_ ?_
  · unfold confirmTransaction
    by_cases hhas : env.hasConfirmTransaction = true
    · rw [if_pos hhas]
      exact asTold_ask (q := .confirmTransaction signature maxPolls) (fun _ => Iff.rfl)
        (fun _ => not_false) _
    · rw [if_neg hhas]
      exact iff_of_false (not_comes_of_error rfl) not_reportedIn_nil
  · intro confirm _ hconfirmed
    rw [if_pos hconfirmed]
    refine (comes_of_ok rfl).2 (reconcile_landed.2 ⟨rfl, ?_, .inr rfl⟩)
    rw [orText_some hsignature]
    exact hsignature
  · intro confirm _ hconfirmed
    rw [if_neg hconfirmed]
    refine asTold_pure (fun hlanded => ?_) _
    obtain ⟨-, -, hreason | hreason⟩ := reconcile_landed.1 hlanded
    · exact (confirmFailed_ne _).1 hreason
    · exact (confirmFailed_ne _).2 hreason

/-- A send is a fill iff it is reported as one, in a mode that sends. -/
theorem sendIn_asTold {mode : SubmitMode} (hmode : mode ≠ .dryRun) (tx : SignedTx)
    (s : VenueState W) : AsTold (mode = .live) IsFill (sendIn env mode tx) s := by
  rw [sendIn_eq]
  refine asTold_bind (asTold_ask (q := .sendTransaction tx.serializedB64) (fun _ => Iff.rfl)
    (fun _ => not_false) s) ?_ ?_
  · rintro result - ⟨rfl, hsubmitted, hsignature⟩
    unfold afterSend
    rw [if_neg (show SubmitMode.live ≠ .devnet by decide), if_pos hsubmitted]
    exact (comes_of_ok rfl).2 (reconcile_landed.2 ⟨rfl, hsignature, .inl rfl⟩)
  · intro result _ hnot
    unfold afterSend
    split_ifs with hdevnet htaken hsubmitted
    · exact confirmDevnet_asTold htaken.2 _
    · exact asTold_unsubmitted _ _
    · refine asTold_pure ?_ _
      intro hlanded
      refine hnot ⟨?_, hsubmitted, (reconcile_landed.1 hlanded).2.1⟩
      cases mode with
      | dryRun => exact absurd rfl hmode
      | devnet => exact absurd rfl hdevnet
      | live => rfl
    · exact asTold_unsubmitted _ _

/-! ### The recheck and the retries -/

theorem quiet_of_prepares (live : Prop) (q : Query) (h : q.prepares = true) :
    (ask env q).Keeps (Act.Free fun e => e.Reports live) := by
  intro s e he
  obtain rfl := List.mem_singleton.1 he
  cases q with
  | sendTransaction b => cases h
  | confirmTransaction signature maxPolls => cases h
  | getSignatureStatuses signatures => cases h
  | _ => exact not_false

theorem not_reportedIn_of_keeps {m : VenueM W α} (h : m.Keeps (Act.Free fun e => e.Reports live))
    (s : VenueState W) : ¬ ReportedIn live (m s).log := by
  rintro ⟨e, he, hreports⟩
  exact h s e he hreports

/-- The recheck finds a fill iff it is told of one. -/
theorem recheck_asTold (tx : SignedTx) (s : VenueState W) :
    AsTold live (fun phantom => ∃ land, phantom = some land ∧ IsFill land)
      (recheckSignatureBeforeResend env tx) s := by
  have hnone : ∀ s, AsTold live (fun phantom => ∃ land, phantom = some land ∧ IsFill land)
      (pure none : VenueM W (Option LandResult)) s := by
    refine asTold_pure ?_
    rintro ⟨land, hland, -⟩
    cases hland
  unfold recheckSignatureBeforeResend
  by_cases hhas : env.hasGetSignatureStatuses = true
  · rw [if_pos hhas]
    refine asTold_bind (asTold_ask
      (q := .getSignatureStatuses [env.extractSignatureB58 tx.serializedB64]) (fun _ => Iff.rfl)
      (fun _ => not_false) s) ?_ ?_
    · rintro statuses - ⟨hsignature, st, hhead, hanswer⟩
      rw [hhead]
      dsimp only
      rw [if_pos hanswer]
      exact (comes_of_ok rfl).2 ⟨_, rfl, reconcile_landed.2 ⟨rfl, hsignature, .inl rfl⟩⟩
    · intro statuses _ hnot
      cases hhead : statuses.head?.join with
      | none => exact hnone _
      | some st =>
          dsimp only
          split_ifs with hanswer
          · refine asTold_pure ?_ _
            rintro ⟨land, hland, hfill⟩
            obtain rfl := Option.some.inj hland
            exact hnot ⟨(reconcile_landed.1 hfill).2.1, st, hhead, hanswer⟩
          · exact hnone _
  · rw [if_neg hhas]
    exact hnone _

/-- What a turn does before it sends again finds a fill iff it is told of one. -/
theorem beforeResend_asTold (rebuild : String → Build) (walletId : String) (ms : ℕ) (tx : SignedTx)
    (s : VenueState W) :
    AsTold live (fun before => ∃ land, before = .inl land ∧ IsFill land)
      (beforeResend env rebuild walletId ms tx) s := by
  refine asTold_bind_of_quiet ?_ fun _ _ => asTold_bind (recheck_asTold tx _) ?_ ?_
  · rintro ⟨e, he, hreports⟩
    obtain rfl := List.mem_singleton.1 he
    exact hreports
  · rintro phantom - ⟨land, rfl, hfill⟩
    exact (comes_of_ok rfl).2 ⟨land, rfl, hfill⟩
  · intro phantom _ hnot
    cases phantom with
    | some land =>
        refine asTold_pure ?_ _
        rintro ⟨land', hland', hfill⟩
        obtain rfl := Sum.inl.inj hland'
        exact hnot ⟨land, rfl, hfill⟩
    | none =>
        refine asTold_bind_of_quiet
          (not_reportedIn_of_keeps (quiet_of_prepares live .getLatestBlockhash rfl) _) fun hash _ =>
            asTold_bind_of_quiet (not_reportedIn_of_keeps
              (keeps_prepare (Act.composes_free _) (quiet_of_prepares live) _ _) _) fun prepared _ => ?_
        split_ifs with hsuccess
        · refine asTold_pure ?_ _
          rintro ⟨land, hland, -⟩
          cases hland
        · refine asTold_pure ?_ _
          rintro ⟨land, hland, hfill⟩
          obtain rfl := Sum.inl.inj hland
          exact not_landed_of_not_submitted rfl hfill

theorem afterAttempt_asTold {mode : SubmitMode} {rebuild : String → Build} {walletId : String}
    {left : ℕ} {tx : SignedTx} {result : LandResult} (hnot : ¬ IsFill result)
    (hnext : ∀ left' rebuilt s, left = left' + 1 →
      AsTold live IsFill (attempts env mode rebuild walletId left' rebuilt) s) (s : VenueState W) :
    AsTold live IsFill (afterAttempt env mode rebuild walletId left tx result) s := by
  unfold afterAttempt
  split_ifs
  · exact asTold_pure hnot _
  · cases left with
    | zero => exact asTold_unsubmitted _ _
    | succ left =>
        refine asTold_bind (beforeResend_asTold _ _ _ _ _) ?_ ?_
        · rintro before - ⟨land, rfl, hfill⟩
          exact (comes_of_ok rfl).2 hfill
        · intro before _ hnot'
          cases before with
          | inl land => exact asTold_pure (fun hfill => hnot' ⟨land, rfl, hfill⟩) _
          | inr rebuilt => exact hnext left rebuilt _ rfl
  · exact asTold_unsubmitted _ _

/-- **The attempts return a fill iff they are told of a land.** -/
theorem attempts_asTold {mode : SubmitMode} (hmode : mode ≠ .dryRun) (rebuild : String → Build)
    (walletId : String) (left : ℕ) (tx : SignedTx) (s : VenueState W) :
    AsTold (mode = .live) IsFill (attempts env mode rebuild walletId left tx) s := by
  induction left using Nat.strong_induction_on generalizing tx s with
  | _ left ih =>
    rw [attempts_eq]
    refine asTold_bind (sendIn_asTold hmode tx s) ?_ ?_
    · intro result _ hfill
      unfold afterAttempt
      rw [if_pos (reconcile_landed.1 hfill).1]
      exact (comes_of_ok rfl).2 hfill
    · intro result _ hnot
      refine afterAttempt_asTold hnot (fun left' rebuilt s hleft => ?_) _
      exact ih left' (by omega) rebuilt s

/-! ### Calls -/

/-- What comes of a call is what it was told. -/
structure Told (intentId : String) (m : VenueM W FillResult) (s : VenueState W) : Prop where
  filled : Comes (fun fill => fill.landed = true) m s ↔ Reported (m s).log
  kept : Reported (m s).log →
    (m s).state.submittedIntentIds = intentId :: s.submittedIntentIds
  unkept : ¬ Reported (m s).log → (m s).state.submittedIntentIds = s.submittedIntentIds

theorem told_unfilled (intentId reason : String) (s : VenueState W) :
    Told intentId (pure (unfilled reason)) s := by
  refine ⟨iff_of_false ?_ not_reportedIn_nil, fun h => absurd h not_reportedIn_nil, fun _ => rfl⟩
  rintro ⟨fill, hfill, hlanded⟩
  obtain rfl := Except.ok.inj hfill
  cases hlanded

/-- The programs below a call leave the kept intents alone. -/
def SameIds (s : VenueState W) (_ : List VenueEvent) (s' : VenueState W) : Prop :=
  s'.submittedIntentIds = s.submittedIntentIds

theorem composes_sameIds : Act.Composes (SameIds : VenueState W → _ → _ → Prop) where
  refl := fun _ => rfl
  trans := fun _ _ _ _ _ h₁ h₂ => h₂.trans h₁

theorem sameIds_ask (q : Query) : (ask env q).Keeps SameIds := fun _ => rfl

/-- The retry loop returns a fill iff it is told of a land. -/
theorem landWithRetry_told {rebuild : String → Build} (hrebuild : ∀ h, (rebuild h).blockhash = h)
    (walletId : String) (tx : SignedTx) (s : VenueState W) :
    (Comes IsFill (landWithRetry env v rebuild walletId tx) s ↔
        Reported (landWithRetry env v rebuild walletId tx s).log) ∧
      (landWithRetry env v rebuild walletId tx s).state.submittedIntentIds = s.submittedIntentIds := by
  rcases @landWithRetry_run W env v rebuild walletId tx s with ⟨result, hrun, hresult⟩ | ⟨hmode, hrun⟩
  · refine ⟨iff_of_false ?_ ?_, by rw [hrun]⟩
    · rintro ⟨land, hland, hfill⟩
      rw [hrun] at hland
      exact not_landed_of_not_submitted (hresult land hland) hfill
    · rw [hrun]
      rintro ⟨e, he, hreports⟩
      obtain rfl := List.mem_singleton.1 he
      exact hreports
  · have hids := keeps_attempts composes_sameIds (@sameIds_ask W env) (submitMode v (env.environ s.world))
      rebuild walletId 2 tx s
    refine ⟨?_, by rw [hrun]; exact hids⟩
    -- the mode is the only one in the log
    have hlive : (.dispatched .live ∈ (landWithRetry env v rebuild walletId tx s).log) =
        (submitMode v (env.environ s.world) = .live) := by
      rw [hrun]
      refine propext ⟨fun hmem => ?_, fun h => ?_⟩
      · rcases List.mem_cons.1 hmem with heq | hmem
        · exact (VenueEvent.dispatched.inj heq).symm
        · exact absurd hmem ((attempts_log hrebuild _ walletId 2 tx s).not_dispatched _)
      · rw [h]
        exact List.mem_cons_self
    unfold Reported
    rw [hlive, hrun, reportedIn_cons, or_iff_right (show ¬ (VenueEvent.dispatched _).Reports _ from
      not_false)]
    have hcomes : Comes IsFill (landWithRetry env v rebuild walletId tx) s ↔
        Comes IsFill (attempts env (submitMode v (env.environ s.world)) rebuild walletId 2 tx) s := by
      unfold Comes
      rw [hrun]
    rw [hcomes]
    exact attempts_asTold hmode rebuild walletId 2 tx s

theorem settle_run (intentId : String) (land : LandResult) (s : VenueState W) :
    settle intentId land s = ⟨.ok (reconcile land), if IsFill land then
      { s with submittedIntentIds := intentId :: s.submittedIntentIds } else s, []⟩ := by
  unfold settle
  split_ifs
  · rfl
  · rfl

theorem landing_told {rebuild : String → Build} (hrebuild : ∀ h, (rebuild h).blockhash = h)
    {enrich : LandResult → FillResult → FillResult}
    (henrich : ∀ land fill, (enrich land fill).landed = fill.landed) (intentId walletId : String)
    (tx : SignedTx) (s : VenueState W) :
    Told intentId (landing env v intentId rebuild walletId tx enrich) s := by
  obtain ⟨htold, hids⟩ := @landWithRetry_told W env v rebuild hrebuild walletId tx s
  unfold landing
  cases h : (landWithRetry env v rebuild walletId tx s).result with
  | error e =>
      have hnot : ¬ Reported (landWithRetry env v rebuild walletId tx s).log :=
        fun hr => not_comes_of_error h (htold.2 hr)
      refine ⟨iff_of_false ?_ ?_, ?_, ?_⟩
      · refine not_comes_of_error (e := e) ?_
        rw [Act.bind_error h]
      · rw [Act.bind_error h]
        exact hnot
      · rw [Act.bind_error h]
        exact fun hr => absurd hr hnot
      · rw [Act.bind_error h]
        exact fun _ => hids
  | ok land =>
      rw [comes_of_ok h] at htold
      have hsettle : ∀ s : VenueState W, (do
          let fill ← settle intentId land
          return enrich land fill : VenueM W FillResult) s =
          ⟨.ok (enrich land (reconcile land)), (settle intentId land s).state, []⟩ := by
        intro s
        rw [Act.bind_ok (a := reconcile land) (by rw [settle_run]), settle_run]
        rfl
      have hlog : ((do
          let land ← landWithRetry env v rebuild walletId tx
          let fill ← settle intentId land
          return enrich land fill : VenueM W FillResult) s).log =
          (landWithRetry env v rebuild walletId tx s).log := by
        rw [Act.bind_ok h, hsettle, List.append_nil]
      refine ⟨?_, ?_, ?_⟩
      · rw [hlog, ← htold]
        refine (comes_of_ok (a := enrich land (reconcile land)) ?_).trans ?_
        · rw [Act.bind_ok h, hsettle]
        · rw [henrich]
      · rw [hlog, ← htold]
        intro hfill
        rw [Act.bind_ok h, hsettle, settle_run, if_pos hfill, ← hids]
      · rw [hlog, ← htold]
        intro hfill
        rw [Act.bind_ok h, hsettle, settle_run, if_neg hfill]
        exact hids

/-- The steps before a landing change nothing of this. -/
theorem told_bind {α : Type} {plan : VenueM W α} {after : α → VenueM W FillResult} {intentId : String}
    (hplan : ∀ T, Act.Composes T → (∀ q, q.prepares = true → (ask env q).Keeps T) → plan.Keeps T)
    (hafter : ∀ a s, Told intentId (after a) s) (s : VenueState W) :
    Told intentId (plan >>= after) s := by
  have hquiet : ∀ live, ¬ ReportedIn live (plan s).log := fun live =>
    not_reportedIn_of_keeps (hplan _ (Act.composes_free _) (quiet_of_prepares live)) s
  have hids : (plan s).state.submittedIntentIds = s.submittedIntentIds :=
    hplan _ composes_sameIds (fun q _ => sameIds_ask q) s
  have hplain : Plain plan := hplan _ (Act.composes_free _) plain_of_prepares
  cases h : (plan s).result with
  | error e =>
      refine ⟨iff_of_false (not_comes_of_error (e := e) ?_) ?_, ?_, ?_⟩
      · rw [Act.bind_error h]
      · rw [Act.bind_error h]
        exact hquiet _
      · rw [Act.bind_error h]
        exact fun hr => absurd hr (hquiet _)
      · rw [Act.bind_error h]
        exact fun _ => hids
  | ok a =>
      obtain ⟨hfilled, hkept, hunkept⟩ := hafter a (plan s).state
      have hreported : Reported ((plan >>= after) s).log ↔
          Reported (after a (plan s).state).log := by
        have hlive : (.dispatched .live ∈ ((plan >>= after) s).log) =
            (.dispatched .live ∈ (after a (plan s).state).log) := by
          rw [Act.bind_ok h]
          exact propext ⟨fun hmem => (List.mem_append.1 hmem).resolve_left
            ((hplain.allPlain s).not_mem_dispatched _), List.mem_append_right _⟩
        unfold Reported
        rw [hlive, Act.bind_ok h, reportedIn_append, or_iff_right (hquiet _)]
      refine ⟨?_, ?_, ?_⟩
      · rw [hreported, ← hfilled]
        unfold Comes
        rw [Act.bind_ok h]
      · rw [hreported, Act.bind_ok h, ← hids]
        exact hkept
      · rw [hreported, Act.bind_ok h, ← hids]
        exact hunkept

theorem body_told (call : VenueCall) (s : VenueState W) :
    Told call.intentId (call.body env v) s := by
  obtain ⟨α, plan, after, hbody, hplan, hafter⟩ := @body_shape W env v call
  rw [hbody]
  refine told_bind hplan (fun a s => ?_) s
  rcases hafter a with ⟨reason, hpure⟩ | ⟨rebuild, walletId, tx, enrich, hrebuild, henrich, hland⟩
  · rw [hpure]
    exact told_unfilled _ reason s
  · rw [hland]
    exact landing_told hrebuild henrich _ walletId tx s

theorem raised_not_landed (call : VenueCall) (e : Raised) : (call.raised e).landed = false := by
  cases call with
  | execute intent event =>
      cases e with
      | _ => rfl
  | exit intent walletId =>
      cases e with
      | _ => rfl

/-- **A fill is what the call was told.**  It is landed, and its intent kept as submitted, iff a land
was reported to the call. -/
theorem program_told (call : VenueCall) (s : VenueState W) :
    ∃ fill, (call.program env v s).result = .ok fill ∧
      (fill.landed = true ↔ Reported (call.program env v s).log) ∧
      (Reported (call.program env v s).log →
        (call.program env v s).state.submittedIntentIds = call.intentId :: s.submittedIntentIds) ∧
      (¬ Reported (call.program env v s).log →
        (call.program env v s).state.submittedIntentIds = s.submittedIntentIds) := by
  by_cases h : call.intentId ∈ s.submittedIntentIds
  · rw [program_of_submitted h]
    refine ⟨_, rfl, iff_of_false ?_ not_reportedIn_nil, fun hr => absurd hr not_reportedIn_nil,
      fun _ => rfl⟩
    intro hlanded
    cases hlanded
  · rw [program_of_fresh h]
    obtain ⟨hfilled, hkept, hunkept⟩ := @body_told W env v call s
    refine ⟨_, rfl, ?_, hkept, hunkept⟩
    rw [← hfilled]
    cases hbody : (call.body env v s).result with
    | ok fill => exact (comes_of_ok (p := fun fill => fill.landed = true) hbody).symm
    | error e =>
        refine iff_of_false ?_ (not_comes_of_error hbody)
        show ¬ (call.raised e).landed = true
        rw [raised_not_landed]
        exact Bool.false_ne_true

end Programs

end Venue
end AatsSniper

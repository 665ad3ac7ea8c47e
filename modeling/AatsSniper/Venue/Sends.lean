/-
# What the venue sends

Every transaction a call of the venue sends was simulated before, with success, in the
same call; there are three sends at most, and none in DRY_RUN; a send after the first
has a transaction built from a blockhash fetched since the last one failed; and the
call returns (`sends_rightly`).

The log of a call is a stretch without sends and, if the retry loop is entered, the
mode it runs in and its attempts (`CallLog`, `Attempts`); the rest is read off that.
-/

import AatsSniper.Venue.Programs

namespace AatsSniper
namespace Venue

/-! ### Events -/

/-- The event is a call of `send_transaction`. -/
def VenueEvent.isSend : VenueEvent → Bool
  | .asked (.sendTransaction _) _ => true
  | _ => false

/-- The event is a query, and not a send. -/
def VenueEvent.plain : VenueEvent → Bool
  | .asked (.sendTransaction _) _ => false
  | .asked _ _ => true
  | .dispatched _ => false

theorem VenueEvent.not_send_of_plain {e : VenueEvent} (h : e.plain = true) : ¬ e.isSend = true := by
  cases e with
  | dispatched mode => exact Bool.false_ne_true
  | asked q answer =>
      cases q with
      | sendTransaction b => exact absurd h Bool.false_ne_true
      | _ => exact Bool.false_ne_true

/-- Nothing is sent or dispatched. -/
abbrev AllPlain (log : List VenueEvent) : Prop := ∀ e ∈ log, e.plain = true

/-- A simulation of the transaction that succeeded. -/
def SimulatedIn (log : List VenueEvent) (signedTxB64 : String) : Prop :=
  ∃ sim : SimResult, .asked (.simulateTransaction signedTxB64) (.ok sim) ∈ log ∧ sim.success = true

section Programs

variable {W : Type} {env : Env W} {v : JitoJupiterVenue}

/-- The program sends nothing. -/
abbrev Plain {α : Type} (m : VenueM W α) : Prop := m.Keeps (Act.Free fun e => e.plain = false)

theorem Plain.allPlain {α : Type} {m : VenueM W α} (h : Plain m) (s : VenueState W) :
    AllPlain (m s).log := fun e he => by simpa using h s e he

theorem plain_ask (q : Query) (h : q.sends = false) : Plain (ask env q) := by
  intro s e he
  obtain rfl := List.mem_singleton.1 he
  cases q with
  | sendTransaction b => cases h
  | _ => exact Bool.noConfusion

theorem plain_of_prepares (q : Query) (h : q.prepares = true) : Plain (ask env q) :=
  plain_ask q (q.not_sends_of_prepares h)

theorem plain_planEntry (intent : EntryIntent) (event : LaunchEvent) :
    Plain (planEntry env v intent event) :=
  keeps_planEntry (Act.composes_free _) plain_of_prepares intent event

theorem plain_planExit (intent : ExitIntent) (walletId : String) :
    Plain (planExit env v intent walletId) :=
  keeps_planExit (Act.composes_free _) plain_of_prepares intent walletId

theorem plain_beforeResend (rebuild : String → Build) (walletId : String) (ms : ℕ) (tx : SignedTx) :
    Plain (beforeResend env rebuild walletId ms tx) :=
  keeps_beforeResend (Act.composes_free _) plain_ask rebuild walletId ms tx

theorem plain_afterSend (mode : SubmitMode) (result : LandAttemptResult) :
    Plain (afterSend env mode result) :=
  keeps_afterSend (Act.composes_free _) plain_ask mode result

/-! ### Simulations -/

theorem prepare_simulates (build : Build) (walletId : String) :
    (prepare env build walletId).Returns fun prepared log =>
      ∃ unsigned : UnsignedTx,
        log = [.asked (.build build) (.ok unsigned), .asked (.sign unsigned walletId) (.ok prepared.1),
          .asked (.simulateTransaction prepared.1.serializedB64) (.ok prepared.2)] := by
  intro s prepared h
  obtain ⟨unsigned, hbuild, h₁, -, hlog⟩ := Act.bind_returned h
  obtain ⟨signed, hsign, h₂, -, hlog₁⟩ := Act.bind_returned h₁
  obtain ⟨sim, hsim, h₃, -, hlog₂⟩ := Act.bind_returned h₂
  obtain rfl := Except.ok.inj h₃
  refine ⟨unsigned, ?_⟩
  have ask_log : ∀ (q : Query) (a : q.Answer) s, (ask env q s).result = .ok a →
      (ask env q s).log = [.asked q (.ok a)] := by
    intro q a s ha
    show [VenueEvent.asked q (ask env q s).result] = _
    rw [ha]
  unfold prepare
  rw [hlog, hlog₁, hlog₂, ask_log _ _ _ hbuild, ask_log _ _ _ hsign, ask_log _ _ _ hsim]
  rfl

theorem SimulatedIn.append_left {log : List VenueEvent} {b : String} (h : SimulatedIn log b)
    (before : List VenueEvent) : SimulatedIn (before ++ log) b := by
  obtain ⟨sim, hmem, hsuccess⟩ := h
  exact ⟨sim, List.mem_append_right _ hmem, hsuccess⟩

theorem prepareChecked_simulates (build : Build) (walletId : String) :
    (prepareChecked env build walletId).Returns fun prepared log =>
      SimulatedIn log prepared.1.serializedB64 := by
  refine Act.returns_bind (prepare_simulates build walletId) fun prepared => ?_
  intro s prepared' h log₁ hlog₁
  obtain ⟨_, hcheck, hpure, -, hlog⟩ := Act.bind_returned h
  obtain rfl := Except.ok.inj hpure
  obtain ⟨unsigned, rfl⟩ := hlog₁
  have hsuccess : prepared.2.success = true := require_eq_ok.1 hcheck
  exact ⟨prepared.2, by simp, hsuccess⟩

/-- The transaction of a plan was simulated. -/
theorem planEntry_simulates (intent : EntryIntent) (event : LaunchEvent) :
    (planEntry env v intent event).Returns fun plan? log =>
      ∀ plan, plan? = some plan → SimulatedIn log plan.signed.serializedB64 := by
  have hmono : ∀ (plan? : Option EntryPlan) (l₁ l₂ : List VenueEvent),
      (∀ plan, plan? = some plan → SimulatedIn l₂ plan.signed.serializedB64) →
        ∀ plan, plan? = some plan → SimulatedIn (l₁ ++ l₂) plan.signed.serializedB64 :=
    fun _ l₁ _ h plan hplan => (h plan hplan).append_left l₁
  refine Act.returns_bind_of_tail hmono fun q => Act.returns_bind_of_tail hmono fun _ =>
    Act.returns_bind_of_tail hmono fun _ => Act.returns_bind_of_tail hmono fun minTokensOut => ?_
  split_ifs
  · refine Act.returns_pure fun plan hplan => ?_
    cases hplan
  · refine Act.returns_bind_of_tail hmono fun blockhash => Act.returns_bind_of_tail hmono fun first =>
      Act.returns_bind (prepareChecked_simulates _ _) fun final => ?_
    refine Act.returns_pure fun log hlog plan hplan => ?_
    obtain rfl := Option.some.inj hplan
    rw [List.append_nil]
    exact hlog

theorem planExit_simulates (intent : ExitIntent) (walletId : String) :
    (planExit env v intent walletId).Returns fun plan log =>
      SimulatedIn log plan.signed.serializedB64 := by
  have hmono : ∀ (plan : ExitPlan) (l₁ l₂ : List VenueEvent),
      SimulatedIn l₂ plan.signed.serializedB64 → SimulatedIn (l₁ ++ l₂) plan.signed.serializedB64 :=
    fun _ l₁ _ h => h.append_left l₁
  refine Act.returns_bind_of_tail hmono fun _ => Act.returns_bind_of_tail hmono fun _ =>
    Act.returns_bind_of_tail hmono fun _ => Act.returns_bind_of_tail hmono fun _ =>
      Act.returns_bind_of_tail hmono fun q => Act.returns_bind_of_tail hmono fun blockhash =>
        Act.returns_bind (prepareChecked_simulates _ _) fun prepared => ?_
  refine Act.returns_pure fun log hlog => ?_
  rw [List.append_nil]
  exact hlog

/-! ### Attempts -/

/-- A send that failed for a transient reason. -/
def FailedSend (answer : Except Raised LandAttemptResult) : Prop :=
  ∃ result, answer = .ok result ∧ result.reason ∈ blockhashExpiryRetryReasons ∧
    (result.submitted = false ∨ orText result.signature "" = "")

/-- Between two sends: the first one is looked up and has not landed, a blockhash is fetched, and the
second one is built from it, signed and simulated with success. -/
structure Rebuilt (env : Env W) (b : String) (mid : List VenueEvent) (b' : String) : Prop where
  plain : AllPlain mid
  rechecked : env.hasGetSignatureStatuses = true → ∃ statuses : List (Option SignatureStatus),
    .asked (.getSignatureStatuses [env.extractSignatureB58 b]) (.ok statuses) ∈ mid ∧
      ∀ st, statuses.head?.join = some st → st.saysLanded = false
  rebuilt : ∃ (blockhash : String) (build : Build) (unsigned : UnsignedTx) (walletId : String)
      (signed : SignedTx) (sim : SimResult),
    [.asked .getLatestBlockhash (.ok blockhash), .asked (.build build) (.ok unsigned),
      .asked (.sign unsigned walletId) (.ok signed),
      .asked (.simulateTransaction b') (.ok sim)].Sublist mid ∧
    build.blockhash = blockhash ∧ signed.serializedB64 = b' ∧ sim.success = true

/-- The log of the attempts from a transaction on, with so many left after the first. -/
inductive Attempts (env : Env W) : ℕ → String → List VenueEvent → Prop
  | last {n : ℕ} {b : String} {answer : Except Raised LandAttemptResult} {tail : List VenueEvent}
      (htail : AllPlain tail) : Attempts env n b (.asked (.sendTransaction b) answer :: tail)
  | next {n : ℕ} {b b' : String} {answer : Except Raised LandAttemptResult}
      {mid rest : List VenueEvent} (hfailed : FailedSend answer) (hmid : Rebuilt env b mid b')
      (hrest : Attempts env n b' rest) :
      Attempts env (n + 1) b (.asked (.sendTransaction b) answer :: (mid ++ rest))

theorem confirmDevnet_submitted (signature : String) (s : VenueState W) {land : LandResult}
    (h : (confirmDevnet env signature s).result = .ok land) : land.submitted = true := by
  obtain ⟨_, -, h₁, -, -⟩ := Act.bind_returned h
  obtain ⟨_, -, h₂, -, -⟩ := Act.bind_returned h₁
  obtain ⟨_, -, h₃, -, -⟩ := Act.bind_returned h₂
  obtain ⟨_, -, h₄, -, -⟩ := Act.bind_returned h₃
  split_ifs at h₄
  · obtain rfl := Except.ok.inj h₄
    rfl
  · obtain rfl := Except.ok.inj h₄
    rfl

/-- A send path that is to be tried again: the send was not taken, for its own reason. -/
theorem afterSend_failed {mode : SubmitMode} {result : LandAttemptResult} {s : VenueState W}
    {land : LandResult} (h : (afterSend env mode result s).result = .ok land)
    (hsubmitted : land.submitted = false) :
    land.reason = result.reason ∧ (result.submitted = false ∨ orText result.signature "" = "") := by
  unfold afterSend at h
  split_ifs at h with hmode htaken htaken
  · rw [confirmDevnet_submitted _ s h] at hsubmitted
    cases hsubmitted
  · obtain rfl := Except.ok.inj h
    refine ⟨rfl, ?_⟩
    by_contra hnot
    push Not at hnot
    exact htaken ⟨by simpa using hnot.1, hnot.2⟩
  · obtain rfl := Except.ok.inj h
    cases hsubmitted
  · obtain rfl := Except.ok.inj h
    exact ⟨rfl, .inl (by simpa using htaken)⟩

/-- A send path sends, and nothing else; if it is to be tried again, the send failed. -/
theorem sendIn_log (mode : SubmitMode) (tx : SignedTx) (s : VenueState W) :
    ∃ answer tail, (sendIn env mode tx s).log =
        .asked (.sendTransaction tx.serializedB64) answer :: tail ∧ AllPlain tail ∧
      ∀ land, (sendIn env mode tx s).result = .ok land → land.submitted = false →
        land.reason ∈ blockhashExpiryRetryReasons → FailedSend answer := by
  rw [sendIn_eq]
  cases hask : (ask env (.sendTransaction tx.serializedB64) s).result with
  | error e =>
      rw [Act.bind_error hask]
      refine ⟨.error e, [], ask_log hask, fun e he => absurd he List.not_mem_nil, fun land h => ?_⟩
      cases h
  | ok result =>
      rw [Act.bind_ok hask, ask_log hask]
      refine ⟨.ok result, _, rfl, (plain_afterSend mode result).allPlain _, ?_⟩
      intro land h hsubmitted hreason
      obtain ⟨hsame, hnot⟩ := afterSend_failed h hsubmitted
      exact ⟨result, rfl, hsame ▸ hreason, hnot⟩

/-- A recheck that finds nothing. -/
theorem recheck_none {tx : SignedTx} {s : VenueState W}
    (h : (recheckSignatureBeforeResend env tx s).result = .ok none)
    (hhas : env.hasGetSignatureStatuses = true) :
    ∃ statuses : List (Option SignatureStatus),
      .asked (.getSignatureStatuses [env.extractSignatureB58 tx.serializedB64]) (.ok statuses) ∈
          (recheckSignatureBeforeResend env tx s).log ∧
        ∀ st, statuses.head?.join = some st → st.saysLanded = false := by
  unfold recheckSignatureBeforeResend at h ⊢
  rw [if_pos hhas] at h ⊢
  obtain ⟨statuses, hask, hrest, -, hlog⟩ := Act.bind_returned h
  refine ⟨statuses, ?_, fun st hst => ?_⟩
  · rw [hlog, ask_log hask]
    exact List.mem_append_left _ (List.mem_singleton_self _)
  · rw [hst] at hrest
    dsimp only at hrest
    split_ifs at hrest with hlanded
    · cases Except.ok.inj hrest
    · simpa using hlanded

/-- What the loop does before it sends again. -/
theorem beforeResend_rebuilt {rebuild : String → Build} (hrebuild : ∀ h, (rebuild h).blockhash = h)
    (walletId : String) (ms : ℕ) (tx : SignedTx) {s : VenueState W} {rebuilt : SignedTx}
    (h : (beforeResend env rebuild walletId ms tx s).result = .ok (.inr rebuilt)) :
    Rebuilt env tx.serializedB64 (beforeResend env rebuild walletId ms tx s).log
      rebuilt.serializedB64 := by
  have hplain := (@plain_beforeResend W env rebuild walletId ms tx).allPlain s
  unfold beforeResend at h hplain ⊢
  obtain ⟨_, -, h₁, -, hlog₁⟩ := Act.bind_returned h
  obtain ⟨phantom, hrecheck, h₂, -, hlog₂⟩ := Act.bind_returned h₁
  cases phantom with
  | some phantom => cases Except.ok.inj h₂
  | none =>
      obtain ⟨blockhash, hhash, h₃, -, hlog₃⟩ := Act.bind_returned h₂
      obtain ⟨prepared, hprepared, h₄, -, hlog₄⟩ := Act.bind_returned h₃
      split_ifs at h₄ with hsuccess
      · obtain rfl := Sum.inr.inj (Except.ok.inj h₄)
        obtain ⟨unsigned, hlog₅⟩ := prepare_simulates _ _ _ _ hprepared
        refine ⟨hplain, fun hhas => ?_, blockhash, rebuild blockhash, unsigned, walletId, prepared.1,
          prepared.2, ?_, hrebuild blockhash, rfl, hsuccess⟩
        · obtain ⟨statuses, hmem, hnot⟩ := recheck_none hrecheck hhas
          refine ⟨statuses, ?_, hnot⟩
          rw [hlog₁, hlog₂]
          exact List.mem_append_right _ (List.mem_append_left _ hmem)
        · rw [hlog₁, hlog₂]
          refine List.Sublist.trans ?_ (List.sublist_append_right _ _)
          refine List.Sublist.trans ?_ (List.sublist_append_right _ _)
          dsimp only
          rw [hlog₃, hlog₄, ask_log hhash, hlog₅]
          exact List.Sublist.append_left (List.sublist_append_left _ _) [_]
      · cases Except.ok.inj h₄

theorem AllPlain.append {l₁ l₂ : List VenueEvent} (h₁ : AllPlain l₁) (h₂ : AllPlain l₂) :
    AllPlain (l₁ ++ l₂) := by
  intro e he
  rcases List.mem_append.1 he with he | he
  · exact h₁ e he
  · exact h₂ e he

theorem Rebuilt.append_left {b b' : String} {mid : List VenueEvent} (h : Rebuilt env b mid b')
    {tail : List VenueEvent} (htail : AllPlain tail) : Rebuilt env b (tail ++ mid) b' := by
  refine ⟨htail.append h.plain, fun hhas => ?_, ?_⟩
  · obtain ⟨statuses, hmem, hnot⟩ := h.rechecked hhas
    exact ⟨statuses, List.mem_append_right _ hmem, hnot⟩
  · obtain ⟨blockhash, build, unsigned, walletId, signed, sim, hsub, hrest⟩ := h.rebuilt
    exact ⟨blockhash, build, unsigned, walletId, signed, sim,
      hsub.trans (List.sublist_append_right _ _), hrest⟩

/-- What follows an attempt logs no send, or is the next attempt behind a rebuilt transaction. -/
theorem afterAttempt_log {rebuild : String → Build} (hrebuild : ∀ h, (rebuild h).blockhash = h)
    (mode : SubmitMode) (walletId : String) (left : ℕ) (tx : SignedTx) (result : LandResult)
    (s : VenueState W) :
    AllPlain (afterAttempt env mode rebuild walletId left tx result s).log ∨
      result.submitted = false ∧ result.reason ∈ blockhashExpiryRetryReasons ∧
        ∃ left' mid rebuilt s', left = left' + 1 ∧
          (afterAttempt env mode rebuild walletId left tx result s).log =
            mid ++ (attempts env mode rebuild walletId left' rebuilt s').log ∧
          Rebuilt env tx.serializedB64 mid rebuilt.serializedB64 := by
  have hnil : AllPlain ([] : List VenueEvent) := fun e he => absurd he List.not_mem_nil
  unfold afterAttempt
  split_ifs with hsubmitted hretry
  · exact .inl hnil
  · cases left with
    | zero => exact .inl hnil
    | succ left =>
        dsimp only
        have hplain := (@plain_beforeResend W env rebuild walletId
          (50 * (maxLandAttempts - 1 - left)) tx).allPlain s
        cases hbefore : (beforeResend env rebuild walletId (50 * (maxLandAttempts - 1 - left)) tx
            s).result with
        | error e =>
            rw [Act.bind_error hbefore]
            exact .inl hplain
        | ok next =>
            rw [Act.bind_ok hbefore]
            cases next with
            | inl land => exact .inl (hplain.append hnil)
            | inr rebuilt =>
                refine .inr ⟨by simpa using hsubmitted, hretry, left, _, rebuilt, _, rfl, rfl, ?_⟩
                exact beforeResend_rebuilt hrebuild walletId _ tx hbefore
  · exact .inl hnil

/-- **The log of the attempts.** -/
theorem attempts_log {rebuild : String → Build} (hrebuild : ∀ h, (rebuild h).blockhash = h)
    (mode : SubmitMode) (walletId : String) (left : ℕ) (tx : SignedTx) (s : VenueState W) :
    Attempts env left tx.serializedB64 (attempts env mode rebuild walletId left tx s).log := by
  induction left using Nat.strong_induction_on generalizing tx s with
  | _ left ih =>
    obtain ⟨answer, tail, hlog, hplain, hfailed⟩ := @sendIn_log W env mode tx s
    rw [attempts_eq]
    cases hsend : (sendIn env mode tx s).result with
    | error e =>
        rw [Act.bind_error hsend, hlog]
        exact .last hplain
    | ok result =>
        rw [Act.bind_ok hsend, hlog]
        rcases @afterAttempt_log W env rebuild hrebuild mode walletId left tx result
          (sendIn env mode tx s).state with hrest | ⟨hsubmitted, hretry, left', mid, rebuilt, s', rfl,
            hrest, hmid⟩
        · exact .last (hplain.append hrest)
        · dsimp only
          rw [hrest, List.cons_append, ← List.append_assoc]
          exact .next (hfailed result hsend hsubmitted hretry) (hmid.append_left hplain)
            (ih left' (Nat.lt_succ_self _) rebuilt s')

/-! ### The log of a call -/

/-- The log of the retry loop from a transaction on. -/
inductive LandLog (env : Env W) (b : String) : List VenueEvent → Prop
  | quiet {mode : SubmitMode} {rest : List VenueEvent} (hrest : AllPlain rest) :
      LandLog env b (.dispatched mode :: rest)
  | sending {mode : SubmitMode} {rest : List VenueEvent} (hmode : mode ≠ .dryRun)
      (hrest : Attempts env 2 b rest) : LandLog env b (.dispatched mode :: rest)

/-- The log of a call. -/
inductive CallLog (env : Env W) : List VenueEvent → Prop
  | quiet {log : List VenueEvent} (hlog : AllPlain log) : CallLog env log
  | landing {plan land : List VenueEvent} {b : String} (hplan : AllPlain plan)
      (hsimulated : SimulatedIn plan b) (hland : LandLog env b land) : CallLog env (plan ++ land)

theorem landWithRetry_log {rebuild : String → Build} (hrebuild : ∀ h, (rebuild h).blockhash = h)
    (walletId : String) (tx : SignedTx) (s : VenueState W) :
    LandLog env tx.serializedB64 (landWithRetry env v rebuild walletId tx s).log := by
  rcases @landWithRetry_run W env v rebuild walletId tx s with
    ⟨result, hrun, -⟩ | ⟨hmode, hrun⟩
  · rw [hrun]
    exact .quiet fun e he => absurd he List.not_mem_nil
  · rw [hrun]
    exact .sending hmode (attempts_log hrebuild _ walletId 2 tx s)

/-- What a call does with a land logs nothing. -/
theorem settled_log {m : VenueM W LandResult} (intentId : String)
    (enrich : LandResult → FillResult → FillResult) (s : VenueState W) :
    ((do
      let land ← m
      let fill ← settle intentId land
      return enrich land fill : VenueM W FillResult) s).log = (m s).log := by
  cases h : (m s).result with
  | error e => rw [Act.bind_error h]
  | ok land =>
      have hsettle : ((do
          let fill ← settle intentId land
          return enrich land fill : VenueM W FillResult) (m s).state).log = [] := by
        unfold settle
        split_ifs
        · rfl
        · rfl
      rw [Act.bind_ok h, hsettle, List.append_nil]

theorem executeBody_log (intent : EntryIntent) (event : LaunchEvent) (s : VenueState W) :
    CallLog env (executeBody env v intent event s).log := by
  have hplan := (@plain_planEntry W env v intent event).allPlain s
  unfold executeBody
  cases h : (planEntry env v intent event s).result with
  | error e =>
      rw [Act.bind_error h]
      exact .quiet hplan
  | ok plan? =>
      rw [Act.bind_ok h]
      cases plan? with
      | none =>
          refine .quiet (hplan.append ?_)
          exact fun e he => absurd he List.not_mem_nil
      | some plan =>
          dsimp only
          rw [settled_log]
          refine .landing hplan (planEntry_simulates intent event s _ h plan rfl) ?_
          exact landWithRetry_log (fun _ => rfl) _ _ _

theorem exitBody_log (intent : ExitIntent) (walletId : String) (s : VenueState W) :
    CallLog env (exitBody env v intent walletId s).log := by
  have hplan := (@plain_planExit W env v intent walletId).allPlain s
  unfold exitBody
  cases h : (planExit env v intent walletId s).result with
  | error e =>
      rw [Act.bind_error h]
      exact .quiet hplan
  | ok plan =>
      rw [Act.bind_ok h]
      dsimp only
      rw [settled_log]
      refine .landing hplan (planExit_simulates intent walletId s _ h) ?_
      exact landWithRetry_log (fun _ => rfl) _ _ _

theorem body_log (call : VenueCall) (s : VenueState W) : CallLog env (call.body env v s).log := by
  cases call with
  | execute intent event => exact executeBody_log intent event s
  | exit intent walletId => exact exitBody_log intent walletId s

theorem program_log (call : VenueCall) (s : VenueState W) :
    CallLog env (call.program env v s).log := by
  by_cases h : call.intentId ∈ s.submittedIntentIds
  · rw [program_of_submitted h]
    exact .quiet fun e he => absurd he List.not_mem_nil
  · rw [program_of_fresh h]
    exact body_log call s

end Programs

/-! ### What is read off the log -/

/-- What is asked of the sends of a call. -/
structure SendsRightly (log : List VenueEvent) : Prop where
  simulated : ∀ before after b answer,
    log = before ++ .asked (.sendTransaction b) answer :: after → SimulatedIn before b
  atMostThree : (log.filter VenueEvent.isSend).length ≤ 3
  dryRun : .dispatched .dryRun ∈ log → ∀ e ∈ log, e.isSend = false
  rebuilt : ∀ before mid after b b' answer answer',
    log = before ++ .asked (.sendTransaction b) answer ::
        (mid ++ .asked (.sendTransaction b') answer' :: after) →
      (∀ e ∈ mid, e.isSend = false) →
        FailedSend answer ∧
          ∃ (blockhash : String) (build : Build) (unsigned : UnsignedTx) (walletId : String)
              (signed : SignedTx),
            [.asked .getLatestBlockhash (.ok blockhash), .asked (.build build) (.ok unsigned),
              .asked (.sign unsigned walletId) (.ok signed)].Sublist mid ∧
            build.blockhash = blockhash ∧ signed.serializedB64 = b'

section Logs

variable {W : Type} {env : Env W} {b : String} {n : ℕ} {log : List VenueEvent}

theorem AllPlain.not_send (h : AllPlain log) : ∀ e ∈ log, ¬ e.isSend = true :=
  fun e he => e.not_send_of_plain (h e he)

theorem Rebuilt.simulatedIn {mid : List VenueEvent} {b' : String} (h : Rebuilt env b mid b') :
    SimulatedIn mid b' := by
  obtain ⟨_, _, _, _, _, sim, hsub, -, -, hsuccess⟩ := h.rebuilt
  exact ⟨sim, hsub.subset (by simp), hsuccess⟩

theorem Attempts.simulated (h : Attempts env n b log) {before : List VenueEvent}
    (hsim : SimulatedIn before b) {first after : List VenueEvent} {b' : String}
    {answer : Except Raised LandAttemptResult}
    (hlog : log = first ++ .asked (.sendTransaction b') answer :: after) :
    SimulatedIn (before ++ first) b' := by
  induction h generalizing before first with
  | @last n b answer₀ tail htail =>
      cases first with
      | nil =>
          obtain ⟨hsend, -⟩ := List.cons.inj hlog
          cases hsend
          rw [List.append_nil]
          exact hsim
      | cons e first =>
          obtain ⟨-, htail'⟩ := List.cons.inj hlog
          refine absurd rfl (htail.not_send (.asked (.sendTransaction b') answer) ?_)
          rw [htail']
          exact List.mem_append_right _ List.mem_cons_self
  | @next n b b'' answer₀ mid rest hfailed hmid hrest ih =>
      cases first with
      | nil =>
          obtain ⟨hsend, -⟩ := List.cons.inj hlog
          cases hsend
          rw [List.append_nil]
          exact hsim
      | cons e first =>
          obtain ⟨rfl, hlog'⟩ := List.cons.inj hlog
          obtain ⟨first', rfl, hrest'⟩ := marked_after (p := fun e => e.isSend = true)
            hmid.plain.not_send rfl hlog'
          have := ih (hmid.simulatedIn.append_left (before ++ [.asked (.sendTransaction b) answer₀]))
            hrest'
          simpa using this

theorem AllPlain.filter_send (h : AllPlain log) : log.filter VenueEvent.isSend = [] := by
  rw [List.filter_eq_nil_iff]
  exact h.not_send

theorem Attempts.sends_le (h : Attempts env n b log) :
    (log.filter VenueEvent.isSend).length ≤ n + 1 := by
  induction h with
  | last htail =>
      rw [List.filter_cons_of_pos rfl, htail.filter_send]
      simp
  | next hfailed hmid hrest ih =>
      rw [List.filter_cons_of_pos rfl, List.filter_append, hmid.plain.filter_send, List.nil_append,
        List.length_cons]
      omega

/-- Two sends with none between them. -/
theorem Attempts.rebuilt_between (h : Attempts env n b log)
    {before mid after : List VenueEvent} {b₁ b₂ : String}
    {answer₁ answer₂ : Except Raised LandAttemptResult}
    (hlog : log = before ++ .asked (.sendTransaction b₁) answer₁ ::
      (mid ++ .asked (.sendTransaction b₂) answer₂ :: after))
    (hmid : ∀ e ∈ mid, ¬ e.isSend = true) :
    FailedSend answer₁ ∧ Rebuilt env b₁ mid b₂ := by
  induction h generalizing before with
  | @last n b answer tail htail =>
      -- there is one send only
      exfalso
      have hcount := congrArg (fun l => (l.filter VenueEvent.isSend).length) hlog
      have hmid' : mid.filter VenueEvent.isSend = [] := by
        rw [List.filter_eq_nil_iff]
        exact hmid
      simp only [List.filter_cons_of_pos (show (VenueEvent.asked (.sendTransaction _) _).isSend = true
        from rfl), htail.filter_send, List.filter_append, hmid', List.length_append,
        List.length_cons, List.length_nil] at hcount
      omega
  | @next n b b' answer mid₀ rest hfailed hmid₀ hrest ih =>
      cases before with
      | nil =>
          obtain ⟨hsend, hrest'⟩ := List.cons.inj hlog
          cases hsend
          obtain ⟨y, rest', hy, hhead⟩ : ∃ answer' rest', rest =
              .asked (.sendTransaction b') answer' :: rest' ∧ True := by
            cases hrest with
            | last _ => exact ⟨_, _, rfl, trivial⟩
            | next _ _ _ => exact ⟨_, _, rfl, trivial⟩
          rw [hy] at hrest'
          obtain ⟨rfl, hsame, -⟩ := first_marked (p := fun e => e.isSend = true)
            hmid₀.plain.not_send hmid rfl rfl hrest'
          cases hsame
          exact ⟨hfailed, hmid₀⟩
      | cons e before =>
          obtain ⟨-, hlog'⟩ := List.cons.inj hlog
          obtain ⟨before', -, hrest'⟩ := marked_after (p := fun e => e.isSend = true)
            hmid₀.plain.not_send rfl hlog'
          exact ih hrest'

theorem AllPlain.not_mem_dispatched (h : AllPlain log) (mode : SubmitMode) :
    .dispatched mode ∉ log := fun hmem => absurd (h _ hmem) Bool.false_ne_true

theorem Attempts.not_dispatched (h : Attempts env n b log) (mode : SubmitMode) :
    .dispatched mode ∉ log := by
  induction h with
  | last htail =>
      intro hmem
      rcases List.mem_cons.1 hmem with heq | hmem
      · cases heq
      · exact htail.not_mem_dispatched mode hmem
  | next hfailed hmid hrest ih =>
      intro hmem
      rcases List.mem_cons.1 hmem with heq | hmem
      · cases heq
      · rcases List.mem_append.1 hmem with hmem | hmem
        · exact hmid.plain.not_mem_dispatched mode hmem
        · exact ih hmem

/-- A log without sends. -/
theorem sendsRightly_of_not_send (h : ∀ e ∈ log, e.isSend = false) : SendsRightly log := by
  have hnone : ∀ before after b answer,
      log ≠ before ++ .asked (.sendTransaction b) answer :: after := by
    rintro before after b answer rfl
    have := h (.asked (.sendTransaction b) answer) (List.mem_append_right _ List.mem_cons_self)
    cases this
  refine ⟨fun before after b answer hlog => absurd hlog (hnone _ _ _ _), ?_, fun _ => h,
    fun before mid after b b' answer answer' hlog => absurd hlog (hnone _ _ _ _)⟩
  have hfilter : log.filter VenueEvent.isSend = [] := by
    rw [List.filter_eq_nil_iff]
    intro e he
    rw [h e he]
    exact Bool.false_ne_true
  rw [hfilter]
  exact Nat.zero_le 3

/-- The attempts behind a plan and the mode. -/
theorem sendsRightly_of_attempts {plan rest : List VenueEvent} {mode : SubmitMode}
    (hplan : AllPlain plan) (hsimulated : SimulatedIn plan b) (hmode : mode ≠ .dryRun)
    (hrest : Attempts env 2 b rest) : SendsRightly (plan ++ .dispatched mode :: rest) := by
  have hprefix : ∀ e ∈ plan ++ [.dispatched mode], ¬ e.isSend = true := by
    intro e he
    rcases List.mem_append.1 he with he | he
    · exact hplan.not_send e he
    · obtain rfl := List.mem_singleton.1 he
      exact Bool.false_ne_true
  have hsplit : plan ++ .dispatched mode :: rest = plan ++ [.dispatched mode] ++ rest := by simp
  refine ⟨?_, ?_, ?_, ?_⟩
  · intro before after b' answer hlog
    rw [hsplit] at hlog
    obtain ⟨first, rfl, hrest'⟩ := marked_after (p := fun e => e.isSend = true) hprefix rfl hlog
    obtain ⟨sim, hmem, hsuccess⟩ := hsimulated
    exact hrest.simulated ⟨sim, List.mem_append_left _ hmem, hsuccess⟩ hrest'
  · rw [hsplit, List.filter_append, List.filter_eq_nil_iff.2 hprefix, List.nil_append]
    exact hrest.sends_le
  · intro hmem
    exfalso
    rcases List.mem_append.1 hmem with hmem | hmem
    · exact hplan.not_mem_dispatched _ hmem
    · rcases List.mem_cons.1 hmem with heq | hmem
      · cases heq
        exact hmode rfl
      · exact hrest.not_dispatched _ hmem
  · intro before mid after b₁ b₂ answer₁ answer₂ hlog hmid
    rw [hsplit] at hlog
    obtain ⟨first, rfl, hrest'⟩ := marked_after (p := fun e => e.isSend = true) hprefix rfl hlog
    obtain ⟨hfailed, hrebuilt⟩ := hrest.rebuilt_between hrest' fun e he => by simp [hmid e he]
    obtain ⟨blockhash, build, unsigned, walletId, signed, sim, hsub, hhash, hbytes, -⟩ :=
      hrebuilt.rebuilt
    refine ⟨hfailed, blockhash, build, unsigned, walletId, signed, ?_, hhash, hbytes⟩
    exact List.Sublist.trans (List.sublist_append_left _ [_]) hsub

theorem CallLog.sendsRightly (h : CallLog env log) : SendsRightly log := by
  cases h with
  | quiet hlog => exact sendsRightly_of_not_send fun e he => by simpa using hlog.not_send e he
  | landing hplan hsimulated hland =>
      cases hland with
      | quiet hrest =>
          refine sendsRightly_of_not_send fun e he => ?_
          rcases List.mem_append.1 he with he | he
          · simpa using hplan.not_send e he
          · rcases List.mem_cons.1 he with rfl | he
            · rfl
            · simpa using hrest.not_send e he
      | sending hmode hrest => exact sendsRightly_of_attempts hplan hsimulated hmode hrest

end Logs

/-- **Only simulated bytes are sent.**  Whatever the RPC client, the signer and the builder answer
or raise, a call returns, and what it sends was simulated with success earlier in the call, three
times at most, never in DRY_RUN, and built again from a new blockhash after a failed send. -/
theorem sends_rightly {W : Type} (env : Env W) (v : JitoJupiterVenue) (call : VenueCall)
    (s : VenueState W) :
    (∃ fill, (call.program env v s).result = .ok fill) ∧ SendsRightly (call.program env v s).log := by
  refine ⟨?_, (program_log call s).sendsRightly⟩
  by_cases h : call.intentId ∈ s.submittedIntentIds
  · rw [program_of_submitted h]
    exact ⟨_, rfl⟩
  · rw [program_of_fresh h]
    exact ⟨_, rfl⟩

end Venue
end AatsSniper

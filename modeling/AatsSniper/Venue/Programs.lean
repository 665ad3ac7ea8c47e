/-
# The programs of the venue, taken apart

How the programs of `JitoJupiterVenue` are put together, once for all that is proved
about them: a relation that composes and that every query keeps is kept by each of
them (`keeps_planEntry`, `keeps_planExit`, `keeps_landWithRetry`); a send, an attempt
and a call are each a first step with what follows it (`sendIn_eq`, `attempts_eq`,
`program_of_submitted`, `program_of_fresh`).
-/

import AatsSniper.Venue.JitoJupiter

namespace AatsSniper
namespace Venue

section Programs

variable {W : Type} {env : Env W} {v : JitoJupiterVenue}

theorem ask_log {q : Query} {s : VenueState W} {answer : Except Raised q.Answer}
    (h : (ask env q s).result = answer) : (ask env q s).log = [.asked q answer] := by
  rw [← h]
  rfl

/-- What a send path does with the answer. -/
def afterSend (env : Env W) (mode : SubmitMode) (result : LandAttemptResult) : VenueM W LandResult :=
  if mode = .devnet then
    if result.submitted = true ∧ orText result.signature "" ≠ "" then
      confirmDevnet env (orText result.signature "")
    else pure ⟨false, result.reason, none, none⟩
  else if result.submitted = true then pure ⟨true, "landed", result.signature, result.landSlot⟩
  else pure ⟨false, result.reason, none, none⟩

theorem sendIn_eq (mode : SubmitMode) (tx : SignedTx) :
    sendIn env mode tx = ask env (.sendTransaction tx.serializedB64) >>= afterSend env mode := by
  unfold sendIn afterSend
  split_ifs
  · rfl
  · rfl

/-- What follows an attempt that has its result. -/
def afterAttempt (env : Env W) (mode : SubmitMode) (rebuild : String → Build) (walletId : String)
    (left : ℕ) (tx : SignedTx) (result : LandResult) : VenueM W LandResult :=
  if result.submitted = true then pure result
  else if result.reason ∈ blockhashExpiryRetryReasons then
    match left with
    | 0 => pure ⟨false, result.reason, none, none⟩
    | left + 1 => do
        match ← beforeResend env rebuild walletId (50 * (maxLandAttempts - 1 - left)) tx with
        | .inl land => return land
        | .inr rebuilt => attempts env mode rebuild walletId left rebuilt
  else pure ⟨false, result.reason, none, none⟩

theorem attempts_eq (mode : SubmitMode) (rebuild : String → Build) (walletId : String) (left : ℕ)
    (tx : SignedTx) :
    attempts env mode rebuild walletId left tx =
      sendIn env mode tx >>= afterAttempt env mode rebuild walletId left tx := by
  cases left with
  | zero => rw [attempts]; rfl
  | succ left => rw [attempts]; rfl

/-- The mode, and behind it nothing or the attempts. -/
theorem landWithRetry_run (rebuild : String → Build) (walletId : String) (tx : SignedTx)
    (s : VenueState W) :
    (∃ result, landWithRetry env v rebuild walletId tx s =
        ⟨result, s, [.dispatched (submitMode v (env.environ s.world))]⟩ ∧
      ∀ land, result = .ok land → land.submitted = false) ∨
      submitMode v (env.environ s.world) ≠ .dryRun ∧
        landWithRetry env v rebuild walletId tx s =
          let o := attempts env (submitMode v (env.environ s.world)) rebuild walletId 2 tx s
          ⟨o.result, o.state, .dispatched (submitMode v (env.environ s.world)) :: o.log⟩ := by
  -- the mode is read and noted, and what follows is the program behind
  have hrun : landWithRetry env v rebuild walletId tx s =
      let o := (if submitMode v (env.environ s.world) = .dryRun then
          pure ⟨false, "dry_run", none, none⟩
        else do
          Act.ofExcept (assertAllowed env v (submitMode v (env.environ s.world)) (← environ env))
          attempts env (submitMode v (env.environ s.world)) rebuild walletId 2 tx :
          VenueM W LandResult) s
      ⟨o.result, o.state, .dispatched (submitMode v (env.environ s.world)) :: o.log⟩ := rfl
  rw [hrun]
  split_ifs with hmode
  · refine .inl ⟨_, rfl, fun land h => ?_⟩
    obtain rfl := Except.ok.inj h
    rfl
  · have hgate : ∀ check : Environ → Except Raised Unit, (do
          Act.ofExcept (check (← environ env))
          attempts env (submitMode v (env.environ s.world)) rebuild walletId 2 tx :
          VenueM W LandResult) s =
        ((Act.ofExcept (check (env.environ s.world)) : VenueM W Unit) >>= fun _ =>
          attempts env (submitMode v (env.environ s.world)) rebuild walletId 2 tx) s :=
      fun check => rfl
    rw [hgate]
    cases hcheck : assertAllowed env v (submitMode v (env.environ s.world)) (env.environ s.world) with
    | error e =>
        refine .inl ⟨.error e, rfl, fun land h => ?_⟩
        cases h
    | ok u => exact .inr ⟨hmode, rfl⟩

/-- The body of the `try` of a call. -/
def VenueCall.body (env : Env W) (v : JitoJupiterVenue) : VenueCall → VenueM W FillResult
  | .execute intent event => executeBody env v intent event
  | .exit intent walletId => exitBody env v intent walletId

/-- The `except` clauses of a call. -/
def VenueCall.raised : VenueCall → Raised → FillResult
  | .execute _ _ => executeRaised
  | .exit _ _ => exitRaised

theorem program_eq (call : VenueCall) :
    call.program env v = guarded call.intentId (call.body env v) call.raised := by
  cases call with
  | execute intent event => rfl
  | exit intent walletId => rfl

/-- A call of an intent that is kept as submitted does nothing. -/
theorem program_of_submitted {call : VenueCall} {s : VenueState W}
    (h : call.intentId ∈ s.submittedIntentIds) :
    call.program env v s = ⟨.ok (unfilled "idempotency_key_conflict"), s, []⟩ := by
  rw [program_eq]
  unfold guarded
  rw [Act.gets_bind, if_pos h]
  rfl

/-- What a call returns: what its body returned, or what the `except` clauses make of what it
raised. -/
def VenueCall.returned (call : VenueCall) : Except Raised FillResult → FillResult
  | .ok fill => fill
  | .error e => call.raised e

/-- Any other call runs its body. -/
theorem program_of_fresh {call : VenueCall} {s : VenueState W}
    (h : call.intentId ∉ s.submittedIntentIds) :
    call.program env v s = ⟨.ok (call.returned (call.body env v s).result), (call.body env v s).state,
      (call.body env v s).log⟩ := by
  rw [program_eq]
  unfold guarded
  rw [Act.gets_bind, if_neg h]
  cases hbody : (call.body env v s).result with
  | ok fill =>
      rw [Act.rescue_of_ok hbody]
      rfl
  | error e =>
      rw [Act.rescue_of_error hbody]
      show Outcome.mk (Except.ok (call.raised e)) _ (_ ++ []) = _
      rw [List.append_nil]
      rfl

/-- The query is a call of `send_transaction`. -/
def Query.sends : Query → Bool
  | .sendTransaction _ => true
  | _ => false

/-- The queries of quotes, builds, signatures and simulations. -/
def Query.prepares : Query → Bool
  | .getCurrentSlot => true
  | .getLatestBlockhash => true
  | .build _ => true
  | .sign _ _ => true
  | .simulateTransaction _ => true
  | _ => false

theorem Query.not_sends_of_prepares (q : Query) (h : q.prepares = true) : q.sends = false := by
  cases q with
  | sendTransaction b => cases h
  | _ => rfl

section Keeps

variable {T : VenueState W → List VenueEvent → VenueState W → Prop}

theorem keeps_parsed {α : Type} (hT : Act.Composes T) (value : Option α) :
    (parsed value : VenueM W α).Keeps T := by
  cases value with
  | none => exact Act.keeps_raise hT _
  | some a => exact Act.keeps_pure hT a

section Prepares

variable (hT : Act.Composes T) (hask : ∀ q, q.prepares = true → (ask env q).Keeps T)

include hT hask

theorem keeps_quote (mint : String) (side : Side) (amountBase : ℤ) :
    (quote env mint side amountBase).Keeps T := by
  refine Act.keeps_bind hT (hask .getCurrentSlot rfl) fun slot => ?_
  split_ifs
  · exact Act.keeps_pure hT _
  · exact Act.keeps_pure hT _

theorem keeps_prepare (build : Build) (walletId : String) : (prepare env build walletId).Keeps T :=
  Act.keeps_bind hT (hask (.build build) rfl) fun unsigned =>
    Act.keeps_bind hT (hask (.sign unsigned walletId) rfl) fun signed =>
      Act.keeps_bind hT (hask (.simulateTransaction signed.serializedB64) rfl) fun _ =>
        Act.keeps_pure hT _

theorem keeps_prepareChecked (build : Build) (walletId : String) :
    (prepareChecked env build walletId).Keeps T :=
  Act.keeps_bind hT (keeps_prepare hT hask build walletId) fun _ =>
    Act.keeps_bind hT (Act.keeps_ofExcept hT _) fun _ => Act.keeps_pure hT _

/-- **The steps of an entry before it lands.** -/
theorem keeps_planEntry (intent : EntryIntent) (event : LaunchEvent) :
    (planEntry env v intent event).Keeps T := by
  refine Act.keeps_bind hT (keeps_quote hT hask _ _ _) fun q =>
    Act.keeps_bind hT (hask .getCurrentSlot rfl) fun _ =>
      Act.keeps_bind hT (Act.keeps_ofExcept hT _) fun _ =>
        Act.keeps_bind hT (Act.keeps_ofExcept hT _) fun minTokensOut => ?_
  split_ifs
  · exact Act.keeps_pure hT _
  · exact Act.keeps_bind hT (hask .getLatestBlockhash rfl) fun _ =>
      Act.keeps_bind hT (keeps_prepareChecked hT hask _ _) fun _ =>
        Act.keeps_bind hT (keeps_prepareChecked hT hask _ _) fun _ => Act.keeps_pure hT _

/-- **The steps of an exit before it lands.** -/
theorem keeps_planExit (intent : ExitIntent) (walletId : String) :
    (planExit env v intent walletId).Keeps T :=
  Act.keeps_bind hT (Act.keeps_gets hT _) fun _ => Act.keeps_bind hT (keeps_parsed hT _) fun _ =>
    Act.keeps_bind hT (Act.keeps_gets hT _) fun _ => Act.keeps_bind hT (keeps_parsed hT _) fun _ =>
      Act.keeps_bind hT (keeps_quote hT hask _ _ _) fun _ =>
        Act.keeps_bind hT (hask .getLatestBlockhash rfl) fun _ =>
          Act.keeps_bind hT (keeps_prepareChecked hT hask _ _) fun _ => Act.keeps_pure hT _

end Prepares

section Plain

variable (hT : Act.Composes T) (hask : ∀ q, q.sends = false → (ask env q).Keeps T)

include hT hask

theorem keeps_recheck (tx : SignedTx) : (recheckSignatureBeforeResend env tx).Keeps T := by
  unfold recheckSignatureBeforeResend
  split_ifs
  · refine Act.keeps_bind hT (hask (.getSignatureStatuses _) rfl) fun statuses => ?_
    split
    · split_ifs
      · exact Act.keeps_pure hT _
      · exact Act.keeps_pure hT _
    · exact Act.keeps_pure hT _
  · exact Act.keeps_pure hT _

theorem keeps_beforeResend (rebuild : String → Build) (walletId : String) (ms : ℕ) (tx : SignedTx) :
    (beforeResend env rebuild walletId ms tx).Keeps T := by
  refine Act.keeps_bind hT (hask (.sleep ms) rfl) fun _ =>
    Act.keeps_bind hT (keeps_recheck hT hask tx) fun phantom => ?_
  cases phantom with
  | some phantom => exact Act.keeps_pure hT _
  | none =>
      refine Act.keeps_bind hT (hask .getLatestBlockhash rfl) fun hash =>
        Act.keeps_bind hT (keeps_prepare hT (fun q hq => hask q (q.not_sends_of_prepares hq)) _ _)
          fun prepared => ?_
      split_ifs
      · exact Act.keeps_pure hT _
      · exact Act.keeps_pure hT _

theorem keeps_confirmDevnet (signature : String) : (confirmDevnet env signature).Keeps T := by
  refine Act.keeps_bind hT (Act.keeps_gets hT _) fun _ => Act.keeps_bind hT (keeps_parsed hT _)
    fun maxPolls => Act.keeps_bind hT (keeps_parsed hT _) fun _ =>
      Act.keeps_bind hT ?_ fun confirm => ?_
  · unfold confirmTransaction
    split_ifs
    · exact hask (.confirmTransaction signature maxPolls) rfl
    · exact Act.keeps_raise hT _
  · split_ifs
    · exact Act.keeps_pure hT _
    · exact Act.keeps_pure hT _

theorem keeps_afterSend (mode : SubmitMode) (result : LandAttemptResult) :
    (afterSend env mode result).Keeps T := by
  unfold afterSend
  split_ifs
  · exact keeps_confirmDevnet hT hask _
  · exact Act.keeps_pure hT _
  · exact Act.keeps_pure hT _
  · exact Act.keeps_pure hT _

end Plain

section Sends

variable (hT : Act.Composes T) (hask : ∀ q, (ask env q).Keeps T)

include hT hask

theorem keeps_attempts (mode : SubmitMode) (rebuild : String → Build) (walletId : String) (left : ℕ)
    (tx : SignedTx) : (attempts env mode rebuild walletId left tx).Keeps T := by
  -- the induction is on the attempts left
  induction left generalizing tx with
  | zero =>
      rw [attempts_eq, sendIn_eq]
      refine Act.keeps_bind hT (Act.keeps_bind hT (hask _) fun _ =>
        keeps_afterSend hT (fun q _ => hask q) _ _) fun result => ?_
      unfold afterAttempt
      split_ifs
      · exact Act.keeps_pure hT _
      · exact Act.keeps_pure hT _
      · exact Act.keeps_pure hT _
  | succ left ih =>
      rw [attempts_eq, sendIn_eq]
      refine Act.keeps_bind hT (Act.keeps_bind hT (hask _) fun _ =>
        keeps_afterSend hT (fun q _ => hask q) _ _) fun result => ?_
      unfold afterAttempt
      split_ifs
      · exact Act.keeps_pure hT _
      · refine Act.keeps_bind hT (keeps_beforeResend hT (fun q _ => hask q) _ _ _ _) fun before => ?_
        cases before with
        | inl land => exact Act.keeps_pure hT _
        | inr rebuilt => exact ih rebuilt
      · exact Act.keeps_pure hT _

end Sends

end Keeps

/-- What a call does with a transaction that is ready. -/
def landing (env : Env W) (v : JitoJupiterVenue) (intentId : String) (rebuild : String → Build)
    (walletId : String) (tx : SignedTx) (enrich : LandResult → FillResult → FillResult) :
    VenueM W FillResult := do
  let land ← landWithRetry env v rebuild walletId tx
  let fill ← settle intentId land
  return enrich land fill

/-- **The body of a call** is its steps before it lands, and then nothing or the landing of a
transaction. -/
theorem body_shape (call : VenueCall) :
    ∃ (α : Type) (plan : VenueM W α) (after : α → VenueM W FillResult),
      call.body env v = plan >>= after ∧
      (∀ T, Act.Composes T → (∀ q, q.prepares = true → (ask env q).Keeps T) → plan.Keeps T) ∧
      ∀ a, (∃ reason, after a = pure (unfilled reason)) ∨
        ∃ rebuild walletId tx enrich, (∀ h, (rebuild h).blockhash = h) ∧
          (∀ land fill, (enrich land fill).landed = fill.landed) ∧
          after a = landing env v call.intentId rebuild walletId tx enrich := by
  cases call with
  | execute intent event =>
      refine ⟨Option EntryPlan, planEntry env v intent event, _, rfl,
        fun T hT hask => keeps_planEntry hT hask intent event, fun plan? => ?_⟩
      cases plan? with
      | none => exact .inl ⟨_, rfl⟩
      | some plan =>
          exact .inr ⟨entryBuild v intent event plan.minTokensOut plan.cuLimit, intent.walletId,
            plan.signed, fun land fill => enrichFill fill intent.tipLamports
              (computePriorityLamports intent.cuPriceMicrolamports plan.cuLimit)
              plan.quote.amountOutBase plan.quote.price
              (computeEntrySlippageBps plan.quote.amountInBase plan.quote.amountOutBase)
              land.landSlot, fun _ => rfl, fun _ _ => rfl, rfl⟩
  | exit intent walletId =>
      refine ⟨ExitPlan, planExit env v intent walletId, _, rfl,
        fun T hT hask => keeps_planExit hT hask intent walletId, fun plan => ?_⟩
      exact .inr ⟨exitBuild v intent plan.tipLamports plan.cuPriceMicrolamports plan.cuLimit, walletId,
        plan.signed, fun land fill => enrichFill fill plan.tipLamports
          (computePriorityLamports plan.cuPriceMicrolamports plan.cuLimit) 0 plan.quote.price 0
          land.landSlot, fun _ => rfl, fun _ _ => rfl, rfl⟩

end Programs

end Venue
end AatsSniper

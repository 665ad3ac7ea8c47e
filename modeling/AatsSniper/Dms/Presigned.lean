/-
# The pre-signed flattens

`PreSignedFlattenHolder` of `aats/risk/presigned_flatten.py`, the dry-run submitter of
`aats/risk/dms_main.py`, and the watchdog's check with the holder as its venue.

A pass over the book submits every flatten that is held and keeps the first error for its
end.  `submit_signed` tells by its answer whether it transmitted; a pass looks at what was
raised and not at the answer.  The submitter has a state of its own and may answer
each submission as it likes.
-/

import AatsSniper.Dms.Watchdog
import AatsSniper.Lib.Except
import AatsSniper.Lib.Table
import Mathlib.Data.List.Induction

namespace AatsSniper
namespace Dms

/-- The `ValueError`s of `PreSignedFlatten`. -/
inductive PreSignedError
  | fractionBps
  | signedTxB64
  deriving DecidableEq

/-- The arguments of `PreSignedFlatten(...)`, with their defaults. -/
structure PreSignedFlattenParams where
  mint : String
  signedTxB64 : String
  fractionBps : ℤ := 10000
  refreshedAtSlot : ℤ := 0
  deriving DecidableEq

/-- `PreSignedFlatten.__post_init__`. -/
def PreSignedFlattenParams.postInit (p : PreSignedFlattenParams) : Except PreSignedError Unit := do
  require (p.fractionBps = 10000) .fractionBps
  require (p.signedTxB64 ≠ "") .signedTxB64

/-- `PreSignedFlatten`. -/
structure PreSignedFlatten extends PreSignedFlattenParams where
  valid : toPreSignedFlattenParams.postInit = .ok ()

/-- The key of a flatten in `_held`. -/
abbrev PreSignedFlatten.key (f : PreSignedFlatten) : String := f.mint

/-- `SubmitMode`. -/
inductive SubmitMode
  | simulation
  | dryRun
  | devnet
  | live
  deriving DecidableEq

/-- `BlockEngineSubmitter`: `submit_signed(signed_tx_b64, reason)` returns whether it transmitted, or
raises, and may change the state of the submitter. -/
structure BlockEngineSubmitter (σ ε : Type) where
  submitMode : SubmitMode
  submitSigned : String → String → σ → Except ε Bool × σ

/-- `PreSignedFlattenHolder`. -/
structure PreSignedFlattenHolder (σ ε : Type) where
  submitter : BlockEngineSubmitter σ ε
  held : Table PreSignedFlatten.key

variable {σ ε : Type}

namespace PreSignedFlattenHolder

/-- `PreSignedFlattenHolder(submitter)`. -/
def new (submitter : BlockEngineSubmitter σ ε) : PreSignedFlattenHolder σ ε :=
  ⟨submitter, Table.empty⟩

/-- `upsert(flatten)`. -/
def upsert (h : PreSignedFlattenHolder σ ε) (flatten : PreSignedFlatten) :
    PreSignedFlattenHolder σ ε :=
  { h with held := h.held.upsert flatten }

/-- `remove(mint)`. -/
def remove (h : PreSignedFlattenHolder σ ε) (mint : String) : PreSignedFlattenHolder σ ε :=
  { h with held := h.held.remove mint }

end PreSignedFlattenHolder

/-- A submission: the flatten, the reason that went with it, and what came of it. -/
structure Attempt (ε : Type) where
  flatten : PreSignedFlatten
  reason : String
  answer : Except ε Bool

/-- The bytes were transmitted. -/
def Attempt.transmitted (a : Attempt ε) : Prop := a.answer = .ok true

/-- The submitter refused to send. -/
def Attempt.refused (a : Attempt ε) : Prop := a.answer = .ok false

/-- What the submission raised. -/
def Attempt.error? (a : Attempt ε) : Option ε :=
  match a.answer with
  | .error e => some e
  | .ok _ => none

/-- The submitter and `first_error`, with the submissions so far. -/
structure FlattenPass (σ ε : Type) where
  submitter : σ
  firstError : Option ε := none
  attempts : List (Attempt ε) := []

/-- The body of the loop. -/
def FlattenPass.submit (submitter : BlockEngineSubmitter σ ε) (reason : String)
    (p : FlattenPass σ ε) (flatten : PreSignedFlatten) : FlattenPass σ ε :=
  let reason := reason ++ "|mint=" ++ flatten.mint
  let (answer, state) := submitter.submitSigned flatten.signedTxB64 reason p.submitter
  { submitter := state
    firstError :=
      match answer with
      | .error e => if p.firstError.isNone = true then some e else p.firstError
      | .ok _ => p.firstError
    attempts := p.attempts ++ [⟨flatten, reason, answer⟩] }

/-- `emergency_flatten(reason)`, and the pass it made. -/
def PreSignedFlattenHolder.emergencyFlatten (h : PreSignedFlattenHolder σ ε) (reason : String)
    (state : σ) : Except ε Unit × FlattenPass σ ε :=
  let p := h.held.rows.foldl (FlattenPass.submit h.submitter reason) { submitter := state }
  match p.firstError with
  | some e => (.error e, p)
  | none => (.ok (), p)

/-- The reason of a fire; `seconds` writes three decimals. -/
def fireReason (seconds : ℚ → String) (age tDms : ℚ) : String :=
  "aats_dms_service: heartbeat_age=" ++ seconds age ++ "s > T_DMS=" ++ seconds tDms ++
    "s — flattening all open positions"

/-- What a check comes to, with the watchdog it leaves and the pass it made. -/
structure CheckOutcome (σ ε : Type) where
  result : Except ε Bool
  watchdog : DmsWatchdog
  pass : Option (FlattenPass σ ε)

/-- `DmsWatchdog.check()` with the holder as its venue. -/
def DmsWatchdog.checkHolder (w : DmsWatchdog) (h : PreSignedFlattenHolder σ ε)
    (seconds : ℚ → String) (read : Option Heartbeat) (r : Reading) (state : σ) :
    CheckOutcome σ ε :=
  let (age, w) := w.ageLocked read r
  if w.armed = false ∨ w.fired = true then ⟨.ok false, w, none⟩
  else if age ≤ w.tDms then ⟨.ok false, w, none⟩
  else
    let w := { w with fired := true }
    let (flattened, p) := h.emergencyFlatten (fireReason seconds age w.tDms) state
    ⟨flattened.map fun _ => true, w, some p⟩

/-- `DryRunBlockEngineSubmitter`; its state is `submitted_reasons`. -/
def dryRunBlockEngineSubmitter : BlockEngineSubmitter (List String) ε where
  submitMode := .dryRun
  submitSigned := fun _ reason submittedReasons => (.ok false, submittedReasons ++ [reason])

variable {submitter : BlockEngineSubmitter σ ε} {reason : String} {p : FlattenPass σ ε}

/-- The first error of a list of submissions. -/
def firstRaised (attempts : List (Attempt ε)) : Option ε := attempts.findSome? Attempt.error?

variable (submitter reason) in
/-- One submission more. -/
theorem attempts_submit (p : FlattenPass σ ε) (flatten : PreSignedFlatten) :
    ∃ a : Attempt ε, (p.submit submitter reason flatten).attempts = p.attempts ++ [a] ∧
      a.flatten = flatten ∧
      (p.submit submitter reason flatten).firstError = p.firstError.or a.error? := by
  refine ⟨_, rfl, rfl, ?_⟩
  unfold FlattenPass.submit Attempt.error?
  dsimp only
  cases (submitter.submitSigned flatten.signedTxB64 (reason ++ "|mint=" ++ flatten.mint)
    p.submitter).1 with
  | ok b =>
      cases p.firstError with
      | none => rfl
      | some e => rfl
  | error e =>
      cases p.firstError with
      | none => rfl
      | some e => rfl

/-- **A pass submits every flatten once, in order, and keeps the first error.** -/
theorem pass_spec (submitter : BlockEngineSubmitter σ ε) (reason : String)
    (flattens : List PreSignedFlatten) (state : σ) :
    let p := flattens.foldl (FlattenPass.submit submitter reason) { submitter := state }
    p.attempts.map (·.flatten) = flattens ∧ p.firstError = firstRaised p.attempts := by
  induction flattens using List.reverseRecOn with
  | nil => exact ⟨rfl, rfl⟩
  | append_singleton flattens flatten ih =>
      obtain ⟨hflattens, hfirst⟩ := ih
      rw [List.foldl_append, List.foldl_cons, List.foldl_nil]
      generalize flattens.foldl (FlattenPass.submit submitter reason) { submitter := state } = p
        at hflattens hfirst
      obtain ⟨a, hattempts, ha, herror⟩ := attempts_submit submitter reason p flatten
      dsimp only
      rw [hattempts, herror, hfirst, List.map_append, hflattens, List.map_singleton, ha]
      refine ⟨rfl, ?_⟩
      rw [firstRaised, firstRaised, List.findSome?_append, List.findSome?_singleton]

/-- What a flatten of the book has done. -/
structure CoversBook (h : PreSignedFlattenHolder σ ε) (result : Except ε Unit)
    (p : FlattenPass σ ε) : Prop where
  /-- Every flatten held was submitted, and no other. -/
  attempted : p.attempts.map (·.flatten) = h.held.rows
  /-- None was submitted twice. -/
  once : (p.attempts.map (·.flatten.mint)).Nodup
  /-- The first error is raised. -/
  raises : ∀ e, firstRaised p.attempts = some e → result = .error e
  /-- Where none is refused, it returns iff all were transmitted. -/
  returns : (∀ a ∈ p.attempts, ¬ a.refused) →
    (result = .ok () ↔ ∀ a ∈ p.attempts, a.transmitted)

/-- What `emergency_flatten` comes to. -/
theorem emergencyFlatten_fst (h : PreSignedFlattenHolder σ ε) (reason : String) (state : σ) :
    (h.emergencyFlatten reason state).1 =
      match firstRaised (h.emergencyFlatten reason state).2.attempts with
      | some e => .error e
      | none => .ok () := by
  have hspec := (pass_spec h.submitter reason h.held.rows state).2
  unfold PreSignedFlattenHolder.emergencyFlatten
  dsimp only at hspec ⊢
  split
  · next e he => rw [← hspec, he]
  · next hnone => rw [← hspec, hnone]

theorem emergencyFlatten_snd (h : PreSignedFlattenHolder σ ε) (reason : String) (state : σ) :
    (h.emergencyFlatten reason state).2 =
      h.held.rows.foldl (FlattenPass.submit h.submitter reason) { submitter := state } := by
  unfold PreSignedFlattenHolder.emergencyFlatten
  dsimp only
  split
  · rfl
  · rfl

/-- A submission was transmitted, refused or raised. -/
theorem Attempt.transmitted_of_not {a : Attempt ε} (hrefused : ¬ a.refused)
    (herror : a.error? = none) : a.transmitted := by
  obtain ⟨flatten, reason, answer⟩ := a
  match answer with
  | .ok true => exact rfl
  | .ok false => exact absurd rfl hrefused
  | .error e => cases herror

theorem emergencyFlatten_covers (h : PreSignedFlattenHolder σ ε) (reason : String) (state : σ) :
    CoversBook h (h.emergencyFlatten reason state).1 (h.emergencyFlatten reason state).2 := by
  have hattempted : (h.emergencyFlatten reason state).2.attempts.map (·.flatten) = h.held.rows := by
    rw [emergencyFlatten_snd]
    exact (pass_spec h.submitter reason h.held.rows state).1
  refine ⟨hattempted, ?_, fun e he => ?_, fun hrefused => ?_⟩
  · have hmints := h.held.distinct
    rw [← hattempted, List.map_map] at hmints
    exact hmints
  · rw [emergencyFlatten_fst, he]
  · rw [emergencyFlatten_fst]
    cases hfirst : firstRaised (h.emergencyFlatten reason state).2.attempts with
    | none =>
        have hnone := List.findSome?_eq_none_iff.1 hfirst
        exact ⟨fun _ a ha => Attempt.transmitted_of_not (hrefused a ha) (hnone a ha), fun _ => rfl⟩
    | some e =>
        refine ⟨nofun, fun hall => ?_⟩
        obtain ⟨a, ha, herror⟩ := List.exists_of_findSome?_eq_some hfirst
        rw [Attempt.error?, hall a ha] at herror
        cases herror

/-- What holds of every answer of the submitter holds in a pass. -/
theorem pass_answers (submitter : BlockEngineSubmitter σ ε) {P : Except ε Bool → Prop}
    (hanswers : ∀ tx reason state, P (submitter.submitSigned tx reason state).1) (reason : String)
    (flattens : List PreSignedFlatten) (state : σ) :
    ∀ a ∈ (flattens.foldl (FlattenPass.submit submitter reason)
      { submitter := state }).attempts, P a.answer := by
  induction flattens using List.reverseRecOn with
  | nil => nofun
  | append_singleton flattens flatten ih =>
      rw [List.foldl_append, List.foldl_cons, List.foldl_nil]
      intro a ha
      rcases List.mem_append.1 ha with ha | ha
      · exact ih a ha
      · obtain rfl := List.mem_singleton.1 ha
        exact hanswers _ _ _

/-- A dry run refuses every flatten, and returns. -/
theorem dryRun_returns (held : Table PreSignedFlatten.key) (reason : String)
    (state : List String) :
    let h : PreSignedFlattenHolder (List String) ε := ⟨dryRunBlockEngineSubmitter, held⟩
    (h.emergencyFlatten reason state).1 = .ok () ∧
      ∀ a ∈ (h.emergencyFlatten reason state).2.attempts, a.refused := by
  intro h
  have hrefused : ∀ a ∈ (h.emergencyFlatten reason state).2.attempts, a.refused := by
    rw [emergencyFlatten_snd]
    exact pass_answers h.submitter (P := fun answer => answer = .ok false)
      (fun _ _ _ => rfl) reason held.rows state
  have hnone : firstRaised (h.emergencyFlatten reason state).2.attempts = none := by
    refine List.findSome?_eq_none_iff.2 fun a ha => ?_
    rw [Attempt.error?, hrefused a ha]
  refine ⟨?_, hrefused⟩
  rw [emergencyFlatten_fst, hnone]

/-- What a check with the holder as its venue has done. -/
structure CheckCovers (w : DmsWatchdog) (h : PreSignedFlattenHolder σ ε) (read : Option Heartbeat)
    (r : Reading) (o : CheckOutcome σ ε) : Prop where
  /-- The venue has no part in the watchdog that is left. -/
  watchdog : o.watchdog = (w.check read r).2
  /-- A check that does not fire leaves the book. -/
  quiet : (w.check read r).1 = false → o.result = .ok false ∧ o.pass = none
  /-- One that fires leaves the latch set, whatever the flatten comes to. -/
  latched : (w.check read r).1 = true → o.watchdog.fired = true
  /-- It covers the book, and returns or raises as the flatten does. -/
  fires : (w.check read r).1 = true → ∃ result p, o.pass = some p ∧ CoversBook h result p ∧
    o.result = result.map fun _ => true

theorem checkHolder_covers (w : DmsWatchdog) (h : PreSignedFlattenHolder σ ε)
    (seconds : ℚ → String) (read : Option Heartbeat) (r : Reading) (state : σ) :
    CheckCovers w h read r (w.checkHolder h seconds read r state) := by
  have hquiet : ∀ w', w.check read r = (false, w') → CheckCovers w h read r ⟨.ok false, w', none⟩ :=
    fun w' hcheck => by
      refine ⟨by rw [hcheck], fun _ => ⟨rfl, rfl⟩, ?_, ?_⟩
      · rw [hcheck]
        exact fun hfired => absurd hfired Bool.false_ne_true
      · rw [hcheck]
        exact fun hfired => absurd hfired Bool.false_ne_true
  unfold DmsWatchdog.checkHolder
  dsimp only
  split_ifs with hlatched hage
  · exact hquiet _ (if_pos hlatched)
  · exact hquiet _ ((if_neg hlatched).trans (if_pos hage))
  · have hcheck : w.check read r = (true, { (w.ageLocked read r).2 with fired := true }) :=
      (if_neg hlatched).trans (if_neg hage)
    refine ⟨by rw [hcheck], ?_, fun _ => rfl, fun _ => ?_⟩
    · rw [hcheck]
      exact fun hquiet => absurd hquiet.symm Bool.false_ne_true
    · exact ⟨_, _, rfl, emergencyFlatten_covers h _ state, rfl⟩

/-- **A flatten covers the book.**  Every flatten held is submitted once; an error that a submission
raised is raised in the end; where none is refused, the flatten returns iff all were
transmitted.  The dry-run submitter refuses all, and the flatten returns.  A check that fires
covers the book, with its latch set before, and raises what the flatten raises. -/
theorem flatten_covers_book :
    (∀ (h : PreSignedFlattenHolder σ ε) reason state,
      CoversBook h (h.emergencyFlatten reason state).1 (h.emergencyFlatten reason state).2) ∧
    (∀ held reason state,
      let h : PreSignedFlattenHolder (List String) ε := ⟨dryRunBlockEngineSubmitter, held⟩
      (h.emergencyFlatten reason state).1 = .ok () ∧
        ∀ a ∈ (h.emergencyFlatten reason state).2.attempts, a.refused) ∧
    ∀ w (h : PreSignedFlattenHolder σ ε) seconds read r state,
      CheckCovers w h read r (w.checkHolder h seconds read r state) :=
  ⟨emergencyFlatten_covers, dryRun_returns, checkHolder_covers⟩

/-- A book of one, in a dry run. -/
def dryBook : PreSignedFlattenHolder (List String) Empty :=
  (PreSignedFlattenHolder.new dryRunBlockEngineSubmitter).upsert ⟨⟨"mint", "SIGNED", 10000, 0⟩, rfl⟩

/-- It is flattened, and the watchdog fires and latches, with nothing transmitted. -/
theorem dry_flatten_latches :
    ((dryBook.emergencyFlatten "reason" []).1 = .ok () ∧
      ¬ ∀ a ∈ (dryBook.emergencyFlatten "reason" []).2.attempts, a.transmitted) ∧
    let o := (DmsWatchdog.new 60 sixty_pos 0).checkHolder dryBook (fun _ => "61.000") none
      ⟨61000, 61, true⟩ []
    o.result = .ok true ∧ o.watchdog.fired = true ∧
      ∃ p, o.pass = some p ∧ ¬ ∀ a ∈ p.attempts, a.transmitted := by
  have hrefused (reason : String) :
      ¬ ∀ a ∈ (dryBook.emergencyFlatten reason []).2.attempts, a.transmitted := by
    intro hall
    exact absurd (hall _ List.mem_cons_self) nofun
  refine ⟨⟨rfl, hrefused _⟩, ?_⟩
  have hage : ¬ ((61 : ℚ) - 0 ≤ 60) := by norm_num
  have hfires : (DmsWatchdog.new 60 sixty_pos 0).checkHolder dryBook (fun _ => "61.000") none
      ⟨61000, 61, true⟩ [] =
        ⟨.ok true, { DmsWatchdog.new 60 sixty_pos 0 with fired := true },
          some (dryBook.emergencyFlatten (fireReason (fun _ => "61.000") (61 - 0) 60) []).2⟩ :=
    if_neg hage
  rw [hfires]
  exact ⟨rfl, rfl, _, rfl, hrefused _⟩

end Dms
end AatsSniper

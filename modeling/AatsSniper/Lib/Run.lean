/-
# Runs of a fallible step function

`runSteps step s inputs` feeds a list of inputs to a machine whose step may raise; it
stops at the first step that does.  `runSteps_history` is the induction rule: what
holds of the start with no input, and is carried over by every step with that
step's input appended, holds of every state reached with the inputs that led to
it.  `runSteps_invariant` is the case where the inputs are forgotten.

`EveryStep` is a condition on every step of a run and `EveryState` one on every state
it passes; `everyState_iff_everyStep` turns the second into the first, where
one step keeps the second iff it meets the first.  `everyStep_congr` exchanges two
conditions on the steps that agree under an invariant.

`runLeaving` is the loop whose body may raise half-way and leaves the state it was in:
`runLeaving_invariant` is its induction rule and `runLeaving_raised` says where it raised.
-/

import AatsSniper.Lib.Except
import Mathlib.Data.List.Induction

namespace AatsSniper

variable {ε σ ι : Type*}

/-- Feed the inputs one after the other. -/
def runSteps (step : σ → ι → Except ε σ) (s : σ) (inputs : List ι) : Except ε σ :=
  inputs.foldlM step s

variable {step : σ → ι → Except ε σ}

theorem runSteps_snoc (s : σ) (inputs : List ι) (input : ι) :
    runSteps step s (inputs ++ [input]) = runSteps step s inputs >>= fun s' => step s' input := by
  unfold runSteps
  rw [List.foldlM_append]
  refine congrArg _ (funext fun s' => ?_)
  simp [List.foldlM]

/-- A run of one more step. -/
theorem runSteps_snoc_eq_ok {s s'' : σ} {inputs : List ι} {input : ι}
    (h : runSteps step s (inputs ++ [input]) = .ok s'') :
    ∃ s', runSteps step s inputs = .ok s' ∧ step s' input = .ok s'' := by
  rw [runSteps_snoc] at h
  exact ok_of_bind h

/-- **Invariants that speak of the inputs so far.** -/
theorem runSteps_history {s₀ : σ} {P : List ι → σ → Prop} (hinit : P [] s₀)
    (hstep : ∀ inputs s input s', P inputs s → step s input = .ok s' → P (inputs ++ [input]) s') :
    ∀ {inputs : List ι} {s : σ}, runSteps step s₀ inputs = .ok s → P inputs s := by
  intro inputs
  induction inputs using List.reverseRecOn with
  | nil =>
      intro s h
      obtain rfl := Except.ok.inj h
      exact hinit
  | append_singleton inputs input ih =>
      intro s h
      obtain ⟨s', hrun, hlast⟩ := runSteps_snoc_eq_ok h
      exact hstep inputs s' input s (ih hrun) hlast

/-- **Invariants.** -/
theorem runSteps_invariant {s₀ : σ} {P : σ → Prop} (hinit : P s₀)
    (hstep : ∀ s input s', P s → step s input = .ok s' → P s') {inputs : List ι} {s : σ}
    (h : runSteps step s₀ inputs = .ok s) : P s :=
  runSteps_history hinit (fun _ s input s' => hstep s input s') h

/-- `P` holds at every step, of the inputs before it, the state it finds and its input. -/
def EveryStep (step : σ → ι → Except ε σ) (P : List ι → σ → ι → Prop) (s₀ : σ)
    (inputs : List ι) : Prop :=
  ∀ before input after s, inputs = before ++ input :: after →
    runSteps step s₀ before = .ok s → P before s input

/-- `Q` holds of every state passed, with the inputs that led to it. -/
def EveryState (step : σ → ι → Except ε σ) (Q : List ι → σ → Prop) (s₀ : σ)
    (inputs : List ι) : Prop :=
  ∀ before after s, inputs = before ++ after → runSteps step s₀ before = .ok s → Q before s

variable {P : List ι → σ → ι → Prop} {Q : List ι → σ → Prop} {s₀ : σ}

/-- Where a list with a last element can be split. -/
theorem snoc_split {α : Type*} {xs before after : List α} {x y : α}
    (h : xs ++ [x] = before ++ y :: after) :
    (before = xs ∧ y = x ∧ after = []) ∨
      ∃ after', after = after' ++ [x] ∧ xs = before ++ y :: after' := by
  rcases List.eq_nil_or_concat after with rfl | ⟨after', last, rfl⟩
  · obtain ⟨hxs, hx⟩ := List.append_inj' h rfl
    exact .inl ⟨hxs.symm, (List.singleton_inj.1 hx).symm, rfl⟩
  · have h' : xs ++ [x] = (before ++ y :: after') ++ [last] := by
      rw [h, List.concat_eq_append, List.append_assoc, List.cons_append]
    obtain ⟨hxs, hx⟩ := List.append_inj' h' rfl
    obtain rfl := List.singleton_inj.1 hx
    exact .inr ⟨after', List.concat_eq_append, hxs⟩

theorem everyStep_nil : EveryStep step P s₀ [] := by
  intro before input after s h
  simp at h

theorem everyStep_snoc {inputs : List ι} {input : ι} :
    EveryStep step P s₀ (inputs ++ [input]) ↔
      EveryStep step P s₀ inputs ∧ ∀ s, runSteps step s₀ inputs = .ok s → P inputs s input := by
  constructor
  · intro h
    refine ⟨fun before i after s hsplit => h before i (after ++ [input]) s ?_,
      fun s => h inputs input [] s rfl⟩
    rw [hsplit, List.append_assoc, List.cons_append]
  · rintro ⟨hsteps, hlast⟩ before i after s hsplit hrun
    obtain ⟨rfl, rfl, rfl⟩ | ⟨after', -, hinputs⟩ := snoc_split hsplit
    · exact hlast s hrun
    · exact hsteps before i after' s hinputs hrun

theorem everyStep_singleton {input : ι} : EveryStep step P s₀ [input] ↔ P [] s₀ input := by
  rw [← List.nil_append [input], everyStep_snoc]
  refine ⟨fun h => h.2 s₀ rfl, fun h => ⟨everyStep_nil, fun s hrun => ?_⟩⟩
  obtain rfl := Except.ok.inj hrun
  exact h

/-- From the front: the first step, and those from the state it leaves. -/
theorem everyStep_cons {input : ι} {inputs : List ι} :
    EveryStep step P s₀ (input :: inputs) ↔ P [] s₀ input ∧
      ∀ s, step s₀ input = .ok s → EveryStep step (fun before => P (input :: before)) s inputs := by
  have hcons : ∀ {s : σ} {before : List ι}, step s₀ input = .ok s →
      runSteps step s₀ (input :: before) = runSteps step s before := by
    intro s before hs
    rw [runSteps, List.foldlM_cons, hs]
    rfl
  constructor
  · refine fun h => ⟨h [] input inputs s₀ rfl rfl, fun s hs before i after s' hsplit hrun => ?_⟩
    refine h (input :: before) i after s' ?_ ((hcons hs).trans hrun)
    rw [hsplit, List.cons_append]
  · rintro ⟨hfirst, hrest⟩ before i after s' hsplit hrun
    cases before with
    | nil =>
        obtain ⟨rfl, -⟩ := List.cons.inj hsplit
        obtain rfl := Except.ok.inj hrun
        exact hfirst
    | cons j before =>
        obtain ⟨rfl, hinputs⟩ := List.cons.inj hsplit
        cases hs : step s₀ input with
        | error e =>
            rw [runSteps, List.foldlM_cons, hs] at hrun
            cases hrun
        | ok s => exact hrest s hs before i after s' hinputs ((hcons hs).symm.trans hrun)

/-- A condition that can be checked can be checked along a run. -/
def decideEveryStep : ∀ (P : List ι → σ → ι → Prop) [∀ before s input, Decidable (P before s input)]
    (s₀ : σ) (inputs : List ι), Decidable (EveryStep step P s₀ inputs)
  | _, _, _, [] => .isTrue everyStep_nil
  | P, _, s₀, input :: inputs =>
      match hs : step s₀ input with
      | .error _ => decidable_of_iff (P [] s₀ input) (by simp [everyStep_cons, hs])
      | .ok s =>
          have := decideEveryStep (fun before => P (input :: before)) s inputs
          decidable_of_iff
            (P [] s₀ input ∧ EveryStep step (fun before => P (input :: before)) s inputs)
            (by simp [everyStep_cons, hs])

instance [∀ before s input, Decidable (P before s input)] {inputs : List ι} :
    Decidable (EveryStep step P s₀ inputs) := decideEveryStep P s₀ inputs

theorem everyState_nil (h : Q [] s₀) : EveryState step Q s₀ [] := by
  intro before after s hsplit hrun
  obtain ⟨rfl, rfl⟩ := List.append_eq_nil_iff.1 hsplit.symm
  obtain rfl := Except.ok.inj hrun
  exact h

theorem everyState_snoc {inputs : List ι} {input : ι} :
    EveryState step Q s₀ (inputs ++ [input]) ↔
      EveryState step Q s₀ inputs ∧
        ∀ s, runSteps step s₀ (inputs ++ [input]) = .ok s → Q (inputs ++ [input]) s := by
  constructor
  · intro h
    refine ⟨fun before after s hsplit => h before (after ++ [input]) s ?_,
      fun s => h _ [] s (List.append_nil _).symm⟩
    rw [hsplit, List.append_assoc]
  · rintro ⟨hstates, hlast⟩ before after s hsplit hrun
    cases after with
    | nil =>
        rw [List.append_nil] at hsplit
        subst hsplit
        exact hlast s hrun
    | cons i after =>
        obtain ⟨rfl, -, -⟩ | ⟨after', -, hinputs⟩ := snoc_split hsplit
        · exact hstates before [] s (List.append_nil _).symm hrun
        · exact hstates before (i :: after') s hinputs hrun

/-- **Invariants under a condition on the steps.** -/
theorem runSteps_history_of_everyStep (hinit : Q [] s₀)
    (hstep : ∀ inputs s input s', Q inputs s → P inputs s input → step s input = .ok s' →
      Q (inputs ++ [input]) s') :
    ∀ {inputs : List ι} {s : σ}, EveryStep step P s₀ inputs → runSteps step s₀ inputs = .ok s →
      Q inputs s := by
  intro inputs
  induction inputs using List.reverseRecOn with
  | nil =>
      intro s _ h
      obtain rfl := Except.ok.inj h
      exact hinit
  | append_singleton inputs input ih =>
      intro s hsteps h
      obtain ⟨s', hrun, hlast⟩ := runSteps_snoc_eq_ok h
      obtain ⟨hbefore, hcond⟩ := everyStep_snoc.1 hsteps
      exact hstep inputs s' input s (ih hbefore hrun) (hcond s' hrun) hlast

/-- What the steps that meet a condition carry over holds of every state of a run of such steps. -/
theorem EveryStep.everyState (hinit : Q [] s₀)
    (hstep : ∀ inputs s input s', Q inputs s → P inputs s input → step s input = .ok s' →
      Q (inputs ++ [input]) s')
    {inputs : List ι} (h : EveryStep step P s₀ inputs) : EveryState step Q s₀ inputs := by
  intro before after s hsplit hrun
  have hbefore : EveryStep step P s₀ before := by
    intro before' input after' s' hsplit'
    refine h before' input (after' ++ after) s' ?_
    rw [hsplit, hsplit', List.append_assoc, List.cons_append]
  exact runSteps_history_of_everyStep hinit hstep hbefore hrun

/-- **Conditions that agree under an invariant**, where the steps that meet one of them keep it. -/
theorem everyStep_congr {P' : List ι → σ → ι → Prop} {J : σ → Prop} (hinv : J s₀)
    (hiff : ∀ inputs s input, J s → (P inputs s input ↔ P' inputs s input))
    (hkeeps : ∀ inputs s input s', J s → P' inputs s input → step s input = .ok s' → J s')
    (inputs : List ι) : EveryStep step P s₀ inputs ↔ EveryStep step P' s₀ inputs := by
  induction inputs using List.reverseRecOn with
  | nil => exact ⟨fun _ => everyStep_nil, fun _ => everyStep_nil⟩
  | append_singleton inputs input ih =>
      rw [everyStep_snoc, everyStep_snoc, ih]
      refine and_congr_right fun hsteps => forall_congr' fun s => forall_congr' fun hrun => ?_
      have hs : J s := runSteps_history_of_everyStep (Q := fun _ s => J s) hinv hkeeps hsteps hrun
      exact hiff inputs s input hs

/-- **From steps to states.**  Where the steps do not raise, one of them keeps `Q` iff it meets `P`,
and those that meet `P` keep the invariant `J` the argument rests on: a run keeps `Q` throughout iff
every step meets `P`.  The invariant may speak of the inputs so far. -/
theorem everyState_iff_everyStep_history {J : List ι → σ → Prop} (hinit : Q [] s₀)
    (hinv : J [] s₀)
    (hstep : ∀ inputs s input, J inputs s → Q inputs s →
      ∃ s', step s input = .ok s' ∧ (Q (inputs ++ [input]) s' ↔ P inputs s input) ∧
        (P inputs s input → J (inputs ++ [input]) s'))
    (inputs : List ι) : EveryState step Q s₀ inputs ↔ EveryStep step P s₀ inputs := by
  suffices h : (EveryState step Q s₀ inputs ↔ EveryStep step P s₀ inputs) ∧
      (EveryStep step P s₀ inputs → ∃ s, runSteps step s₀ inputs = .ok s ∧ J inputs s) from h.1
  induction inputs using List.reverseRecOn with
  | nil => exact ⟨⟨fun _ => everyStep_nil, fun _ => everyState_nil hinit⟩, fun _ => ⟨s₀, rfl, hinv⟩⟩
  | append_singleton inputs input ih =>
      obtain ⟨ihiff, ihrun⟩ := ih
      rw [everyState_snoc, everyStep_snoc, ihiff]
      -- where the steps so far meet `P`, the run reached a state, and the next step is decided there
      have hlast : EveryStep step P s₀ inputs → ∃ s s', runSteps step s₀ inputs = .ok s ∧
          runSteps step s₀ (inputs ++ [input]) = .ok s' ∧
          (Q (inputs ++ [input]) s' ↔ P inputs s input) ∧
          (P inputs s input → J (inputs ++ [input]) s') := by
        intro hsteps
        obtain ⟨s, hrun, hs⟩ := ihrun hsteps
        obtain ⟨s', hs', hiff, hkeeps⟩ := hstep inputs s input hs
          (ihiff.2 hsteps inputs [] s (List.append_nil _).symm hrun)
        refine ⟨s, s', hrun, ?_, hiff, hkeeps⟩
        rw [runSteps_snoc, hrun]
        exact hs'
      constructor
      · refine and_congr_right fun hsteps => ?_
        obtain ⟨s, s', hrun, hrun', hiff, -⟩ := hlast hsteps
        constructor
        · intro hstates s₁ hrun₁
          rw [hrun] at hrun₁
          obtain rfl := Except.ok.inj hrun₁
          exact hiff.1 (hstates s' hrun')
        · intro hconds s₁ hrun₁
          rw [hrun'] at hrun₁
          obtain rfl := Except.ok.inj hrun₁
          exact hiff.2 (hconds s hrun)
      · rintro ⟨hsteps, hcond⟩
        obtain ⟨s, s', hrun, hrun', -, hkeeps⟩ := hlast hsteps
        exact ⟨s', hrun', hkeeps (hcond s hrun)⟩

/-- The same with an invariant of the states alone. -/
theorem everyState_iff_everyStep {J : σ → Prop} (hinit : Q [] s₀) (hinv : J s₀)
    (hstep : ∀ inputs s input, J s → Q inputs s →
      ∃ s', step s input = .ok s' ∧ (Q (inputs ++ [input]) s' ↔ P inputs s input) ∧
        (P inputs s input → J s'))
    (inputs : List ι) : EveryState step Q s₀ inputs ↔ EveryStep step P s₀ inputs :=
  everyState_iff_everyStep_history (J := fun _ => J) hinit hinv hstep inputs

/-- `for input in inputs: step(input)`, with the state left where a step raises. -/
def runLeaving (step : σ → ι → Except ε Unit × σ) (s : σ) : List ι → Except ε Unit × σ
  | [] => (.ok (), s)
  | input :: inputs =>
      match step s input with
      | (.error e, s') => (.error e, s')
      | (.ok _, s') => runLeaving step s' inputs

section Leaving

variable {body : σ → ι → Except ε Unit × σ}

theorem runLeaving_cons_ok {s s' : σ} {input : ι} {inputs : List ι}
    (h : body s input = (.ok (), s')) :
    runLeaving body s (input :: inputs) = runLeaving body s' inputs := by
  rw [runLeaving, h]

theorem runLeaving_cons_error {s s' : σ} {input : ι} {inputs : List ι} {e : ε}
    (h : body s input = (.error e, s')) :
    runLeaving body s (input :: inputs) = (.error e, s') := by
  rw [runLeaving, h]

theorem runLeaving_append_ok {s s' : σ} {before after : List ι}
    (h : runLeaving body s before = (.ok (), s')) :
    runLeaving body s (before ++ after) = runLeaving body s' after := by
  induction before generalizing s with
  | nil =>
      cases h
      rfl
  | cons input before ih =>
      rcases hstep : body s input with ⟨e | _, s₁⟩
      · rw [runLeaving_cons_error hstep] at h
        cases h
      · rw [runLeaving_cons_ok hstep] at h
        rw [List.cons_append, runLeaving_cons_ok hstep]
        exact ih h

/-- A loop that returns has returned from every part of it. -/
theorem ok_of_runLeaving_append {s s' : σ} {before after : List ι}
    (h : runLeaving body s (before ++ after) = (.ok (), s')) :
    ∃ s₁, runLeaving body s before = (.ok (), s₁) ∧ runLeaving body s₁ after = (.ok (), s') := by
  induction before generalizing s with
  | nil => exact ⟨s, rfl, h⟩
  | cons input before ih =>
      rw [List.cons_append] at h
      rcases hstep : body s input with ⟨e | _, s₂⟩
      · rw [runLeaving_cons_error hstep] at h
        cases h
      · rw [runLeaving_cons_ok hstep] at h ⊢
        exact ih h

/-- What holds where the first turn leaves off, and is kept by the loop over the others. -/
theorem runLeaving_cons {P : σ → Prop} {s : σ} {input : ι} {inputs : List ι}
    (hfirst : P (body s input).2)
    (hrest : P (body s input).2 → P (runLeaving body (body s input).2 inputs).2) :
    P (runLeaving body s (input :: inputs)).2 := by
  rcases h : body s input with ⟨e | _, s'⟩
  · rw [h] at hfirst
    rw [runLeaving_cons_error h]
    exact hfirst
  · rw [h] at hfirst hrest
    rw [runLeaving_cons_ok h]
    exact hrest hfirst

/-- **Invariants of a loop**, also where it raises. -/
theorem runLeaving_invariant {P : σ → Prop} {inputs : List ι} {s : σ} (hs : P s)
    (hbody : ∀ s, ∀ input ∈ inputs, P s → P (body s input).2) : P (runLeaving body s inputs).2 := by
  induction inputs generalizing s with
  | nil => exact hs
  | cons input inputs ih =>
      refine runLeaving_cons (hbody s input List.mem_cons_self hs) fun hnext => ?_
      exact ih hnext fun s i hi => hbody s i (List.mem_cons_of_mem input hi)

/-- Invariants of a loop whose turns meet a condition. -/
theorem runLeaving_invariant_of_turns {P : σ → Prop} {T : σ → ι → Prop} {inputs : List ι} {s : σ}
    (hs : P s)
    (hturns : ∀ before input after s', inputs = before ++ input :: after →
      runLeaving body s before = (.ok (), s') → T s' input)
    (hbody : ∀ s input, P s → T s input → P (body s input).2) :
    P (runLeaving body s inputs).2 := by
  induction inputs generalizing s with
  | nil => exact hs
  | cons input inputs ih =>
      have hnext := hbody s input hs (hturns [] input inputs s rfl rfl)
      rcases h : body s input with ⟨e | _, s'⟩
      · rw [runLeaving_cons_error h]
        rw [h] at hnext
        exact hnext
      · rw [runLeaving_cons_ok h]
        rw [h] at hnext
        refine ih hnext fun before i after s₁ hsplit hrun => ?_
        refine hturns (input :: before) i after s₁ (by rw [hsplit, List.cons_append]) ?_
        rw [runLeaving_cons_ok h]
        exact hrun

/-- Where a loop raised: the steps before returned, and one raised and left the state. -/
theorem runLeaving_raised {inputs : List ι} {s s' : σ} {e : ε}
    (h : runLeaving body s inputs = (.error e, s')) :
    ∃ before input after s₁, inputs = before ++ input :: after ∧
      runLeaving body s before = (.ok (), s₁) ∧ body s₁ input = (.error e, s') := by
  induction inputs generalizing s with
  | nil => cases h
  | cons input inputs ih =>
      rcases hstep : body s input with ⟨e' | _, s₂⟩
      · rw [runLeaving_cons_error hstep] at h
        cases h
        exact ⟨[], input, inputs, s, rfl, rfl, hstep⟩
      · rw [runLeaving_cons_ok hstep] at h
        obtain ⟨before, input', after, s₁, rfl, hbefore, hraised⟩ := ih h
        refine ⟨input :: before, input', after, s₁, rfl, ?_, hraised⟩
        rw [runLeaving_cons_ok hstep]
        exact hbefore

/-- A loop that returned has been through every input, and what each step established and the
others kept holds at the end. -/
theorem runLeaving_forall {R : ι → σ → Prop}
    (hstep : ∀ s input s', body s input = (.ok (), s') → R input s')
    (hkeep : ∀ s input other, R other s → R other (body s input).2) {inputs : List ι} {s s' : σ}
    (h : runLeaving body s inputs = (.ok (), s')) : ∀ input ∈ inputs, R input s' := by
  induction inputs generalizing s with
  | nil =>
      intro input hinput
      cases hinput
  | cons first inputs ih =>
      rcases hfirst : body s first with ⟨e | _, s₁⟩
      · rw [runLeaving_cons_error hfirst] at h
        cases h
      · rw [runLeaving_cons_ok hfirst] at h
        intro input hinput
        rcases List.mem_cons.1 hinput with rfl | hinput
        · have hlast := runLeaving_invariant (P := R input)
            (hstep s input s₁ hfirst) fun s i (_ : i ∈ inputs) => hkeep s i input
          rw [h] at hlast
          exact hlast
        · exact ih h input hinput

end Leaving

end AatsSniper

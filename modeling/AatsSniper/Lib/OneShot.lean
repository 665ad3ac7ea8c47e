/-
# Actions that latch before they run

A switch is polled; where its condition holds it sets its latch and calls an action,
which returns or raises.  A turn of a run is what one event is to the switch
(`Turn`), and a run is endless.  A run is `Latched` if a call finds the latch open
and sets it, and only a re-arm opens it.

`Latched.callsNoMore` is the whole of it: after a call, whether it returned or raised,
there is no other before a re-arm.  So failures are retried in no run in which there is
one to retry (`Latched.retriesFailures_iff`).
-/

import Mathlib.Data.Nat.Init
import Mathlib.Tactic.Common

namespace AatsSniper
namespace OneShot

/-- What a call of the action came to. -/
inductive Outcome
  | returned
  | raised
  deriving DecidableEq

/-- What one event is to the switch. -/
inductive Turn
  /-- It is polled: whether its condition holds, and the call it makes. -/
  | poll (due : Bool) (call : Option Outcome)
  | disarm
  | rearm
  | other
  deriving DecidableEq

/-- The call made in a turn. -/
def Turn.called : Turn → Option Outcome
  | .poll _ call => call
  | _ => none

/-- The states of an endless run. -/
def trajectory {σ ι : Type*} (next : σ → ι → σ) (s₀ : σ) (inputs : ℕ → ι) : ℕ → σ
  | 0 => s₀
  | n + 1 => next (trajectory next s₀ inputs n) (inputs n)

/-- After turn `n` the condition holds in every poll, the switch is not taken down or armed again,
and there is always another poll. -/
structure StaysDue (turns : ℕ → Turn) (n : ℕ) : Prop where
  armed : ∀ m > n, turns m ≠ .disarm ∧ turns m ≠ .rearm
  due : ∀ m > n, ∀ due call, turns m = .poll due call → due = true
  polled : ∀ k, ∃ m ≥ k, ∃ due call, turns m = .poll due call

/-- A call that raised is followed by another, if the condition goes on to hold. -/
def RetriesFailures (turns : ℕ → Turn) : Prop :=
  ∀ n, (turns n).called = some .raised → StaysDue turns n → ∃ m > n, (turns m).called.isSome = true

/-- A call, whether it returned or raised, is followed by no other before a re-arm. -/
def CallsNoMore (turns : ℕ → Turn) : Prop :=
  ∀ n, (turns n).called.isSome = true → ∀ m > n,
    (∀ l, n < l → l < m → turns l ≠ .rearm) → (turns m).called = none

/-- The latch before each turn. -/
structure Latched (turns : ℕ → Turn) (fired : ℕ → Bool) : Prop where
  call_open : ∀ n, (turns n).called.isSome = true → fired n = false
  call_sets : ∀ n, (turns n).called.isSome = true → fired (n + 1) = true
  stays_set : ∀ n, fired n = true → turns n ≠ .rearm → fired (n + 1) = true

/-- **From one step to the run.** -/
theorem latched_of_step {σ ι : Type*} {next : σ → ι → σ} {turn : σ → ι → Turn} {fired : σ → Bool}
    (hcall : ∀ s i, (turn s i).called.isSome = true → fired s = false ∧ fired (next s i) = true)
    (hset : ∀ s i, fired s = true → turn s i ≠ .rearm → fired (next s i) = true) (s₀ : σ)
    (inputs : ℕ → ι) :
    Latched (fun n => turn (trajectory next s₀ inputs n) (inputs n))
      (fun n => fired (trajectory next s₀ inputs n)) where
  call_open _ h := (hcall _ _ h).1
  call_sets _ h := (hcall _ _ h).2
  stays_set _ h hrearm := hset _ _ h hrearm

namespace Latched

variable {turns : ℕ → Turn} {fired : ℕ → Bool} {n m : ℕ}

/-- The latch stays set until a re-arm. -/
theorem fired_of_called (h : Latched turns fired) (hcall : (turns n).called.isSome = true)
    (hlt : n < m) (hrearm : ∀ l, n < l → l < m → turns l ≠ .rearm) : fired m = true := by
  induction m, hlt using Nat.le_induction with
  | base => exact h.call_sets n hcall
  | succ m hlt ih =>
      have hset := ih fun l hl hlm => hrearm l hl (Nat.lt_succ_of_lt hlm)
      exact h.stays_set m hset (hrearm m hlt (Nat.lt_succ_self m))

/-- **Once called, not called again before a re-arm.** -/
theorem callsNoMore (h : Latched turns fired) : CallsNoMore turns := by
  intro n hcall m hlt hrearm
  have hset := h.fired_of_called hcall hlt hrearm
  by_contra hagain
  have hopen := h.call_open m (Option.isSome_iff_ne_none.2 hagain)
  rw [hset] at hopen
  cases hopen

/-- **When failures are retried**: where there is none to retry. -/
theorem retriesFailures_iff (h : Latched turns fired) :
    RetriesFailures turns ↔ ∀ n, (turns n).called = some .raised → ¬ StaysDue turns n := by
  constructor
  · intro hretries n hcall hdue
    obtain ⟨m, hlt, hagain⟩ := hretries n hcall hdue
    have hnot : (turns m).called = none := by
      refine h.callsNoMore n ?_ m hlt fun l hl _ => (hdue.armed l hl).2
      rw [hcall]
      rfl
    rw [hnot] at hagain
    cases hagain
  · intro hnone n hcall hdue
    exact absurd hdue (hnone n hcall)

end Latched

end OneShot
end AatsSniper

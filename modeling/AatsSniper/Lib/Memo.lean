/-
# Computations that carry a cache

A function with a cache takes a state and returns its answer beside a new one.
`Computes I f b` says that from every state satisfying the invariant `I` it
answers `b` and leaves a state satisfying `I`: to a caller that only looks at
the answer, the cache is not there.
-/

import Mathlib.Order.Basic

namespace AatsSniper

variable {σ β : Type*} {I : σ → Prop}

/-- From every state satisfying `I`, `f` answers `b` and keeps `I`. -/
def Computes (I : σ → Prop) (f : σ → β × σ) (b : β) : Prop :=
  ∀ s, I s → (f s).1 = b ∧ I (f s).2

theorem Computes.pure (b : β) : Computes I (fun s => (b, s)) b := fun _ hs => ⟨rfl, hs⟩

end AatsSniper

/-
# Keys that expire

`Leases κ α τ` gives a key a value and the time from which it is gone.  `grant` writes a key
anew whatever was there, so that a grant may end sooner than the one it replaces.
`HeldUntil` is what a key keeps through that: one held until `t` stays so under grants that
end at `t` or later (`HeldUntil.grant`), and is read at every time before `t`
(`HeldUntil.read`).
-/

import Mathlib.Order.Lattice
import Mathlib.Logic.Function.Basic

namespace AatsSniper

/-- Values that are there until a time. -/
abbrev Leases (κ α τ : Type) : Type := κ → Option (α × τ)

namespace Leases

variable {κ α τ : Type}

/-- Write a key, until `expiry`. -/
def grant [DecidableEq κ] (L : Leases κ α τ) (k : κ) (a : α) (expiry : τ) : Leases κ α τ :=
  Function.update L k (some (a, expiry))

/-- What a key holds now. -/
def read [LT τ] [DecidableLT τ] (L : Leases κ α τ) (now : τ) (k : κ) : Option α :=
  ((L k).filter fun lease => decide (now < lease.2)).map Prod.fst

/-- What is read is written, and has not ended. -/
theorem read_eq_some [LT τ] [DecidableLT τ] {L : Leases κ α τ} {now : τ} {k : κ} {a : α} :
    L.read now k = some a ↔ ∃ expiry, L k = some (a, expiry) ∧ now < expiry := by
  unfold read
  constructor
  · intro h
    obtain ⟨⟨a', expiry⟩, hlease, rfl⟩ := Option.map_eq_some_iff.1 h
    obtain ⟨hlease, hlive⟩ := Option.filter_eq_some_iff.1 hlease
    exact ⟨expiry, hlease, of_decide_eq_true hlive⟩
  · rintro ⟨expiry, hlease, hlive⟩
    have hfilter : (L k).filter (fun lease => decide (now < lease.2)) = some (a, expiry) :=
      Option.filter_eq_some_iff.2 ⟨hlease, decide_eq_true hlive⟩
    rw [hfilter, Option.map_some]

/-- The key is written until `t` or later. -/
def HeldUntil [LE τ] (L : Leases κ α τ) (k : κ) (t : τ) : Prop :=
  ∃ lease, L k = some lease ∧ t ≤ lease.2

/-- A key that is held for longer. -/
theorem HeldUntil.mono [Preorder τ] {L : Leases κ α τ} {k : κ} {t t' : τ} (h : L.HeldUntil k t')
    (ht : t ≤ t') : L.HeldUntil k t := by
  obtain ⟨lease, hlease, hheld⟩ := h
  exact ⟨lease, hlease, ht.trans hheld⟩

section Grant

variable [DecidableEq κ] {L : Leases κ α τ} {k k' : κ} {a : α} {t expiry : τ}

@[simp] theorem grant_self : L.grant k a expiry k = some (a, expiry) := Function.update_self ..

@[simp] theorem grant_of_ne (h : k ≠ k') : L.grant k' a expiry k = L k := Function.update_of_ne h ..

/-- A key is held by its own grant. -/
theorem heldUntil_grant [LE τ] (h : t ≤ expiry) : (L.grant k a expiry).HeldUntil k t :=
  ⟨_, grant_self, h⟩

/-- **A key stays held** where what is written over it ends no sooner. -/
theorem HeldUntil.grant [LE τ] (h : L.HeldUntil k t) (hexpiry : k = k' → t ≤ expiry) :
    (L.grant k' a expiry).HeldUntil k t := by
  by_cases hk : k = k'
  · subst hk
    exact heldUntil_grant (hexpiry rfl)
  · obtain ⟨lease, hlease, ht⟩ := h
    exact ⟨lease, (grant_of_ne hk).trans hlease, ht⟩

end Grant

/-- **A held key is read** until its time. -/
theorem HeldUntil.read [LinearOrder τ] {L : Leases κ α τ} {k : κ} {t now : τ}
    (h : L.HeldUntil k t) (hnow : now < t) : (L.read now k).isSome = true := by
  obtain ⟨lease, hlease, ht⟩ := h
  have hlive : now < lease.2 := lt_of_lt_of_le hnow ht
  rw [read_eq_some.2 ⟨lease.2, hlease, hlive⟩, Option.isSome_some]

end Leases

end AatsSniper

/-
# Rolling windows over a time-stamped log

A log is a list of `(time, item)`.  `within w t log` is the part of it in the
window `(t - w, t]`.  A limiter that admits an item at time `now` looks only at
the window ending at `now`; what is wanted is a bound on every window.

`Bounded.append` is the step from one to the other.  A window ending before `now`
does not see the new item, and one ending at or after `now` sees nothing older
than what is remembered at `now`: with weights that are not negative, its total
is at most what the limiter checked.
-/

import Mathlib.Algebra.Order.BigOperators.Group.List
import Mathlib.Algebra.Order.Group.Basic
import Mathlib.Algebra.Group.Hom.Basic

namespace AatsSniper
namespace Window

variable {τ α M : Type*} [AddCommGroup τ] [LinearOrder τ]

/-- The entries of a log in the window `(t - w, t]`. -/
def within (w t : τ) (log : List (τ × α)) : List (τ × α) :=
  log.filter fun e => decide (t - w < e.1 ∧ e.1 ≤ t)

/-- The entries a limiter at time `now` still remembers. -/
def recent (w now : τ) (log : List (τ × α)) : List (τ × α) :=
  log.filter fun e => decide (now - w < e.1)

theorem recent_append (w now : τ) (log log' : List (τ × α)) :
    recent w now (log ++ log') = recent w now log ++ recent w now log' := List.filter_append ..

/-- What is remembered does not depend on the type the times are read in. -/
theorem recent_map {υ : Type*} [AddCommGroup υ] [LinearOrder υ] (f : τ →+ υ) (hf : StrictMono f)
    (w now : τ) (log : List (τ × α)) :
    recent (f w) (f now) (log.map (Prod.map f id)) = (recent w now log).map (Prod.map f id) := by
  unfold recent
  rw [List.filter_map]
  refine congrArg _ (List.filter_congr fun e _ => ?_)
  simp [← map_sub, hf.lt_iff_lt]

variable [IsOrderedAddMonoid τ]

/-- Forgetting at an earlier time first changes nothing. -/
theorem recent_recent {w t now : τ} (h : t ≤ now) (log : List (τ × α)) :
    recent w now (recent w t log) = recent w now log := by
  unfold recent
  rw [List.filter_filter]
  refine List.filter_congr fun e _ => ?_
  have : now - w < e.1 → t - w < e.1 := lt_of_le_of_lt (sub_le_sub_right h w)
  simpa using this

/-- A window past the end of the log sees at most what is remembered at `now`. -/
theorem within_sublist_recent {w t now : τ} (h : now ≤ t) (log : List (τ × α)) :
    (within w t log).Sublist (recent w now log) := by
  have hsplit : within w t log =
      (recent w now log).filter fun e => decide (t - w < e.1 ∧ e.1 ≤ t) := by
    unfold within recent
    rw [List.filter_filter]
    refine List.filter_congr fun e _ => ?_
    have hmono : t - w < e.1 → now - w < e.1 := lt_of_le_of_lt (sub_le_sub_right h w)
    by_cases hin : t - w < e.1
    · simp [hmono hin]
    · simp [hin]
  rw [hsplit]
  exact List.filter_sublist

section Bounds

variable [AddCommMonoid M] [PartialOrder M]

/-- Every window that holds an entry weighs at most `cap`. -/
def Bounded (w : τ) (weight : α → M) (cap : M) (log : List (τ × α)) : Prop :=
  ∀ t, within w t log ≠ [] → ((within w t log).map fun e => weight e.2).sum ≤ cap

omit [IsOrderedAddMonoid τ] in
theorem bounded_nil (w : τ) (weight : α → M) (cap : M) : Bounded w weight cap [] :=
  fun _ h => absurd rfl h

variable [IsOrderedAddMonoid M]

/-- **What the limiter checks bounds every window.**  If the windows of the log are
bounded and what is remembered of it at `now` has room for `a`, then the log with
`a` appended at `now` has all its windows bounded. -/
theorem Bounded.append {w now : τ} {weight : α → M} {cap : M} {log : List (τ × α)} {a : α}
    (hlog : Bounded w weight cap log)
    (hpos : ∀ e ∈ log ++ [(now, a)], 0 ≤ weight e.2)
    (hroom : ((recent w now log).map fun e => weight e.2).sum + weight a ≤ cap) :
    Bounded w weight cap (log ++ [(now, a)]) := by
  intro t ht
  rcases lt_or_ge t now with hlt | hge
  · -- the window ends before the new entry
    have hsame : within w t (log ++ [(now, a)]) = within w t log := by
      simp [within, not_le.mpr hlt]
    rw [hsame] at ht ⊢
    exact hlog t ht
  · -- the window ends at or after it
    have hrecent : (recent w now (log ++ [(now, a)])).Sublist (recent w now log ++ [(now, a)]) := by
      rw [recent_append]
      exact List.Sublist.append_left List.filter_sublist _
    have hsub := ((within_sublist_recent hge _).trans hrecent).map fun e => weight e.2
    have hnonneg : ∀ x ∈ (recent w now log ++ [(now, a)]).map fun e => weight e.2, 0 ≤ x := by
      intro x hx
      obtain ⟨e, he, rfl⟩ := List.mem_map.1 hx
      refine hpos e ?_
      rcases List.mem_append.1 he with he | he
      · exact List.mem_append_left _ (List.mem_of_mem_filter he)
      · exact List.mem_append_right _ he
    refine (hsub.sum_le_sum hnonneg).trans (le_of_eq_of_le ?_ hroom)
    simp

end Bounds

end Window
end AatsSniper

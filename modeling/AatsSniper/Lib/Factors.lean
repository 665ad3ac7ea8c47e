/-
# Products of factors between 0 and 1

A product of factors, each at least 0 and at most 1: it is such a number itself, it shrinks as
any of its factors does, and as there are more of them.
-/

import Mathlib.Algebra.Order.BigOperators.GroupWithZero.List
import Mathlib.Algebra.Order.BigOperators.Ring.Finset

namespace AatsSniper
namespace Factors

variable {α ι : Type*} [CommSemiring α] [LinearOrder α] [IsStrictOrderedRing α]

/-- At least 0 and at most 1. -/
def InUnit (x : α) : Prop := 0 ≤ x ∧ x ≤ 1

theorem InUnit.one : InUnit (1 : α) := ⟨zero_le_one, le_refl 1⟩

theorem InUnit.zero : InUnit (0 : α) := ⟨le_refl 0, zero_le_one⟩

theorem InUnit.mul {x y : α} (hx : InUnit x) (hy : InUnit y) : InUnit (x * y) :=
  ⟨mul_nonneg hx.1 hy.1, mul_le_one₀ hx.2 hy.1 hy.2⟩

/-- A list of such factors. -/
theorem InUnit.list_prod {factors : List α} (h : ∀ x ∈ factors, InUnit x) :
    InUnit factors.prod := by
  induction factors with
  | nil => exact InUnit.one
  | cons x rest ih =>
      rw [List.prod_cons]
      exact (h x List.mem_cons_self).mul (ih fun y hy => h y (List.mem_cons_of_mem x hy))

/-- More factors, and smaller ones, have a smaller product. -/
theorem prod_le_prod_of_subset {s t : Finset ι} {f g : ι → α} (hst : s ⊆ t)
    (hg : ∀ i ∈ t, InUnit (g i)) (hle : ∀ i ∈ s, g i ≤ f i) :
    ∏ i ∈ t, g i ≤ ∏ i ∈ s, f i := by
  classical
  have hrest : InUnit (∏ i ∈ t \ s, g i) := by
    constructor
    · exact Finset.prod_nonneg fun i hi => (hg i (Finset.mem_sdiff.1 hi).1).1
    · exact Finset.prod_le_one (fun i hi => (hg i (Finset.mem_sdiff.1 hi).1).1)
        fun i hi => (hg i (Finset.mem_sdiff.1 hi).1).2
  have hshared : ∏ i ∈ s, g i ≤ ∏ i ∈ s, f i :=
    Finset.prod_le_prod (fun i hi => (hg i (hst hi)).1) hle
  calc ∏ i ∈ t, g i = (∏ i ∈ t \ s, g i) * ∏ i ∈ s, g i := (Finset.prod_sdiff hst).symm
    _ ≤ 1 * ∏ i ∈ s, f i :=
        mul_le_mul hrest.2 hshared (Finset.prod_nonneg fun i hi => (hg i (hst hi)).1) zero_le_one
    _ = ∏ i ∈ s, f i := one_mul _

end Factors
end AatsSniper

/-
# Sorting by a key

`sorted(rows, key=key)`: insertion sort on the keys, which keeps the order of rows
with equal keys as Python's does.  `sortBy_perm` says that it only reorders,
`pairwise_sortBy` that the keys ascend, and `sortBy_eq_of_perm` that the order the rows came
in does not matter where no two have the same key.  Rows in order are cut at a key by counting
those before it (`take_countP`, `drop_countP`).
-/

import Mathlib.Data.List.Sort
import Mathlib.Data.Prod.Lex
import Mathlib.Order.MinMax

namespace AatsSniper

variable {α κ : Type*} [LinearOrder κ]

/-- `sorted(rows, key=key)`. -/
def sortBy (key : α → κ) (rows : List α) : List α :=
  rows.insertionSort fun a b => key a ≤ key b

theorem sortBy_perm (key : α → κ) (rows : List α) : (sortBy key rows).Perm rows :=
  List.perm_insertionSort _ rows

@[simp] theorem mem_sortBy {key : α → κ} {rows : List α} {a : α} :
    a ∈ sortBy key rows ↔ a ∈ rows :=
  (sortBy_perm key rows).mem_iff

@[simp] theorem length_sortBy (key : α → κ) (rows : List α) :
    (sortBy key rows).length = rows.length :=
  (sortBy_perm key rows).length_eq

theorem nodup_sortBy {key : α → κ} {rows : List α} : (sortBy key rows).Nodup ↔ rows.Nodup :=
  (sortBy_perm key rows).nodup_iff

/-- **The keys ascend.** -/
theorem pairwise_sortBy (key : α → κ) (rows : List α) :
    (sortBy key rows).Pairwise fun a b => key a ≤ key b := by
  have : Std.Total fun a b : α => key a ≤ key b := ⟨fun a b => le_total (key a) (key b)⟩
  have : IsTrans α fun a b => key a ≤ key b := ⟨fun _ _ _ => le_trans⟩
  exact List.pairwise_insertionSort _ rows

/-- The last of the rows in order has the greatest key. -/
theorem le_getLast_sortBy {key : α → κ} {rows : List α} {a last : α} (ha : a ∈ rows)
    (hlast : last ∈ (sortBy key rows).getLast?) : key a ≤ key last := by
  obtain ⟨front, hfront⟩ := List.getLast?_eq_some_iff.1 hlast
  have hsorted := pairwise_sortBy key rows
  have ha : a ∈ sortBy key rows := mem_sortBy.2 ha
  rw [hfront] at ha
  rw [hfront, List.pairwise_append] at hsorted
  rcases List.mem_append.1 ha with ha | ha
  · exact hsorted.2.2 a ha last List.mem_cons_self
  · rw [List.mem_singleton.1 ha]

/-- Of the rows in order, the first for which `f` has a value has the least key of those for which
it has one. -/
theorem least_of_findSome? {β : Type*} {key : α → κ} {f : α → Option β} {rows : List α} {b : β}
    (hrows : rows.Pairwise fun a a' => key a ≤ key a') (h : rows.findSome? f = some b) :
    ∃ a ∈ rows, f a = some b ∧ ∀ a' ∈ rows, (f a').isSome = true → key a ≤ key a' := by
  obtain ⟨before, a, after, rfl, ha, hbefore⟩ := List.findSome?_eq_some_iff.1 h
  refine ⟨a, by simp, ha, fun a' ha' hsome => ?_⟩
  rcases List.mem_append.1 ha' with ha' | ha'
  · rw [hbefore a' ha'] at hsome
    cases hsome
  · rcases List.mem_cons.1 ha' with rfl | ha'
    · exact le_rfl
    · exact (List.pairwise_cons.1 (List.pairwise_append.1 hrows).2.1).1 a' ha'

/-- **Rows with distinct keys sort to one list**, in whatever order they come. -/
theorem sortBy_eq_of_perm {key : α → κ} {rows rows' : List α} (hperm : rows.Perm rows')
    (hdistinct : ∀ a ∈ rows, ∀ b ∈ rows, key a = key b → a = b) :
    sortBy key rows = sortBy key rows' := by
  have hantisymm : ∀ a b, a ∈ sortBy key rows → b ∈ sortBy key rows' →
      key a ≤ key b → key b ≤ key a → a = b := by
    intro a b ha hb hab hba
    rw [mem_sortBy] at ha hb
    exact hdistinct a ha b (hperm.mem_iff.2 hb) (le_antisymm hab hba)
  exact List.Perm.eq_of_pairwise hantisymm (pairwise_sortBy key rows) (pairwise_sortBy key rows')
    ((sortBy_perm key rows).trans (hperm.trans (sortBy_perm key rows').symm))

/-- The keys in order are the same, in whatever order the rows come. -/
theorem map_key_sortBy_of_perm {key : α → κ} {rows rows' : List α} (hperm : rows.Perm rows') :
    (sortBy key rows).map key = (sortBy key rows').map key := by
  have hsorted : ∀ rows : List α, ((sortBy key rows).map key).Pairwise (· ≤ ·) := fun rows =>
    List.pairwise_map.2 (pairwise_sortBy key rows)
  exact List.Perm.eq_of_pairwise (fun _ _ _ _ => le_antisymm) (hsorted rows) (hsorted rows')
    (((sortBy_perm key rows).trans (hperm.trans (sortBy_perm key rows').symm)).map key)

section Cut

variable {key : α → κ} {rows : List α} {t : κ} {a : α}

/-- From the first row that is not before `t` on, none is. -/
theorem le_key_of_head (h : (a :: rows).Pairwise fun a b => key a ≤ key b) (ha : ¬ key a < t) :
    ∀ b ∈ a :: rows, t ≤ key b := by
  intro b hb
  rcases List.mem_cons.1 hb with rfl | hb
  · exact not_lt.1 ha
  · exact (not_lt.1 ha).trans ((List.pairwise_cons.1 h).1 b hb)

/-- The rows before `t` come first. -/
theorem take_countP (h : rows.Pairwise fun a b => key a ≤ key b) (t : κ) :
    rows.take (rows.countP fun a => decide (key a < t)) =
      rows.filter fun a => decide (key a < t) := by
  induction rows with
  | nil => rfl
  | cons a rows ih =>
      by_cases ha : key a < t
      · rw [List.countP_cons_of_pos (by simpa using ha), List.take_succ_cons,
          List.filter_cons_of_pos (by simpa using ha), ih (List.pairwise_cons.1 h).2]
      · have hnone : ∀ b ∈ a :: rows, ¬ decide (key b < t) = true := fun b hb => by
          simpa using le_key_of_head h ha b hb
        rw [List.countP_eq_zero.2 hnone, List.filter_eq_nil_iff.2 hnone, List.take_zero]

/-- The others follow them. -/
theorem drop_countP (h : rows.Pairwise fun a b => key a ≤ key b) (t : κ) :
    rows.drop (rows.countP fun a => decide (key a < t)) =
      rows.filter fun a => decide (t ≤ key a) := by
  induction rows with
  | nil => rfl
  | cons a rows ih =>
      by_cases ha : key a < t
      · rw [List.countP_cons_of_pos (by simpa using ha), List.drop_succ_cons,
          List.filter_cons_of_neg (by simpa using ha), ih (List.pairwise_cons.1 h).2]
      · have hall := le_key_of_head h ha
        have hnone : ∀ b ∈ a :: rows, ¬ decide (key b < t) = true := fun b hb => by
          simpa using hall b hb
        rw [List.countP_eq_zero.2 hnone, List.drop_zero,
          List.filter_eq_self.2 fun b hb => by simpa using hall b hb]

theorem exists_key_gt [Nonempty κ] [NoMaxOrder κ] (key : α → κ) (rows : List α) :
    ∃ t, ∀ a ∈ rows, key a < t := by
  induction rows with
  | nil => exact ⟨Classical.arbitrary κ, by simp⟩
  | cons a rows ih =>
      obtain ⟨t, ht⟩ := ih
      obtain ⟨u, hu⟩ := exists_gt (max (key a) t)
      obtain ⟨hau, htu⟩ := max_lt_iff.1 hu
      exact ⟨u, List.forall_mem_cons.2 ⟨hau, fun b hb => (ht b hb).trans htu⟩⟩

/-- A cut by count that separates the keys is a cut by a key. -/
theorem exists_cut_key [Nonempty κ] [NoMaxOrder κ] {k : ℕ} (hk : k ≤ rows.length)
    (h : rows.Pairwise fun a b => key a ≤ key b)
    (hcut : ∀ a ∈ rows.take k, ∀ b ∈ rows.drop k, key a < key b) :
    ∃ t, (rows.countP fun a => decide (key a < t)) = k := by
  have hcount : ∀ t, (∀ a ∈ rows.take k, key a < t) → (∀ b ∈ rows.drop k, t ≤ key b) →
      (rows.countP fun a => decide (key a < t)) = k := by
    intro t hbefore hbehind
    conv_lhs => rw [← List.take_append_drop k rows]
    rw [List.countP_append, List.countP_eq_length.2 fun a ha => by simpa using hbefore a ha,
      List.countP_eq_zero.2 fun b hb => by simpa using hbehind b hb, List.length_take,
      min_eq_left hk, Nat.add_zero]
  cases hdrop : rows.drop k with
  | nil =>
      obtain ⟨t, ht⟩ := exists_key_gt key (rows.take k)
      exact ⟨t, hcount t ht (by simp [hdrop])⟩
  | cons b behind =>
      have hsorted := h.sublist (List.drop_sublist k rows)
      rw [hdrop] at hsorted
      refine ⟨key b, hcount (key b) (fun a ha => hcut a ha b (by simp [hdrop])) fun c hc => ?_⟩
      rw [hdrop] at hc
      exact le_key_of_head hsorted (lt_irrefl _) c hc

end Cut

end AatsSniper

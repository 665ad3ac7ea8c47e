/-
# What was seen before

A set of keys already seen, of bounded size: where it grows past its capacity it forgets one
key, and which one is left open (`SeenPolicy`).  Such a set never holds a key that was
not seen (`SeenPolicy.mem_see`); whether it holds one that was is another matter.

`firstsBy key` is what an unbounded set would let through: the first row of each key.
Where the key determines the row, it only depends on which rows there are:
`perm_firstsBy`.
-/

import Mathlib.Data.Finset.Card
import Mathlib.Data.Int.Notation
import Mathlib.Data.List.Perm.Basic
import Mathlib.Data.List.Nodup
import Mathlib.Tactic.SplitIfs

namespace AatsSniper

variable {α κ : Type}

/-- A capacity, and which element of the set is forgotten. -/
structure SeenPolicy (κ : Type) where
  seenCapacity : ℤ
  first : List κ → κ

section SeenPolicy

variable [DecidableEq κ]

/-- Add a key, and forget one where the set has grown past its capacity. -/
def SeenPolicy.see (p : SeenPolicy κ) (seen : List κ) (key : κ) : List κ :=
  let seen := seen ++ [key]
  if (seen.length : ℤ) > p.seenCapacity then seen.erase (p.first seen) else seen

/-- What is seen was seen before, or just now. -/
theorem SeenPolicy.mem_see {p : SeenPolicy κ} {seen : List κ} {key k : κ}
    (h : k ∈ p.see seen key) : k ∈ seen ∨ k = key := by
  unfold SeenPolicy.see at h
  dsimp only at h
  split_ifs at h
  · simpa using List.mem_of_mem_erase h
  · simpa using h

/-- The keys that are forgotten as one is added. -/
def SeenPolicy.forgotten (p : SeenPolicy κ) (seen : List κ) (key : κ) : List κ :=
  (seen ++ [key]).filter fun k => decide (k ∉ p.see seen key)

/-- What was seen is still there, or forgotten now. -/
theorem SeenPolicy.mem_see_or_forgotten {p : SeenPolicy κ} {seen : List κ} {key k : κ} :
    k ∈ p.see seen key ∨ k ∈ p.forgotten seen key ↔ k ∈ seen ∨ k = key := by
  constructor
  · rintro (hsee | hforgotten)
    · exact SeenPolicy.mem_see hsee
    · simpa using (List.mem_filter.1 hforgotten).1
  · intro h
    by_cases hsee : k ∈ p.see seen key
    · exact .inl hsee
    · refine .inr (List.mem_filter.2 ⟨?_, decide_eq_true hsee⟩)
      simpa using h

/-- A set that forgets nothing below its capacity, and the oldest key from there on. -/
def SeenPolicy.oldest [Inhabited κ] (capacity : ℤ) : SeenPolicy κ :=
  ⟨capacity, fun seen => seen.headD default⟩

end SeenPolicy

variable [DecidableEq κ]

/-- The first row of each key. -/
def firstsBy (key : α → κ) : List α → List α
  | [] => []
  | a :: rows => a :: (firstsBy key rows).filter fun b => decide (key b ≠ key a)

variable {key : α → κ} {rows rows' : List α} {a b : α}

theorem mem_of_mem_firstsBy (h : a ∈ firstsBy key rows) : a ∈ rows := by
  induction rows with
  | nil => exact h
  | cons b rows ih =>
      rcases List.mem_cons.1 h with rfl | h
      · exact List.mem_cons_self
      · exact List.mem_cons_of_mem _ (ih (List.mem_of_mem_filter h))

/-- Every key keeps a row. -/
theorem exists_mem_firstsBy (h : a ∈ rows) : ∃ b ∈ firstsBy key rows, key b = key a := by
  induction rows with
  | nil => cases h
  | cons c rows ih =>
      by_cases hkey : key c = key a
      · exact ⟨c, List.mem_cons_self, hkey⟩
      · obtain rfl | h := List.mem_cons.1 h
        · exact absurd rfl hkey
        obtain ⟨b, hb, hba⟩ := ih h
        refine ⟨b, List.mem_cons_of_mem _ (List.mem_filter.2 ⟨hb, decide_eq_true ?_⟩), hba⟩
        rw [hba]
        exact fun heq => hkey heq.symm

/-- One row more. -/
theorem firstsBy_snoc (rows : List α) (a : α) :
    firstsBy key (rows ++ [a]) =
      if key a ∈ rows.map key then firstsBy key rows else firstsBy key rows ++ [a] := by
  induction rows with
  | nil => simp [firstsBy]
  | cons c rows ih =>
      rw [List.cons_append, firstsBy, ih, firstsBy, List.map_cons]
      by_cases hac : key a = key c
      · rw [if_pos (show key a ∈ key c :: rows.map key by simp [hac])]
        split_ifs
        · rfl
        · simp [List.filter_append, hac]
      · simp only [List.mem_cons, hac, false_or]
        split_ifs
        · rfl
        · simp [List.filter_append, hac]

/-- A change that leaves the keys. -/
theorem firstsBy_map {f : α → α} (hkey : ∀ a, key (f a) = key a) (rows : List α) :
    firstsBy key (rows.map f) = (firstsBy key rows).map f := by
  induction rows with
  | nil => rfl
  | cons a rows ih =>
      simp only [List.map_cons, firstsBy, ih, List.filter_map, hkey]
      simp [Function.comp_def, hkey]

theorem nodup_firstsBy : ((firstsBy key rows).map key).Nodup := by
  induction rows with
  | nil => exact List.nodup_nil
  | cons a rows ih =>
      rw [firstsBy, List.map_cons, List.nodup_cons]
      refine ⟨fun hmem => ?_, (List.filter_sublist.map key).nodup ih⟩
      obtain ⟨b, hb, hkey⟩ := List.mem_map.1 hmem
      exact of_decide_eq_true (List.mem_filter.1 hb).2 hkey

/-- Rows of distinct keys are all first. -/
theorem firstsBy_of_nodup (h : (rows.map key).Nodup) : firstsBy key rows = rows := by
  induction rows with
  | nil => rfl
  | cons a rows ih =>
      rw [List.map_cons, List.nodup_cons] at h
      rw [firstsBy, ih h.2, List.filter_eq_self.2]
      exact fun b hb => decide_eq_true fun heq => h.1 (heq ▸ List.mem_map_of_mem hb)

/-- The first row of its key: no row before it has the key. -/
theorem mem_firstsBy_iff : a ∈ firstsBy key rows ↔
    ∃ xs ys, rows = xs ++ a :: ys ∧ ∀ x ∈ xs, key x ≠ key a := by
  induction rows with
  | nil => simp [firstsBy]
  | cons c rows ih =>
      rw [firstsBy, List.mem_cons, List.mem_filter, ih, decide_eq_true_eq]
      constructor
      · rintro (rfl | ⟨⟨xs, ys, rfl, hxs⟩, hkey⟩)
        · exact ⟨[], rows, rfl, by simp⟩
        · exact ⟨c :: xs, ys, rfl, List.forall_mem_cons.2 ⟨fun h => hkey h.symm, hxs⟩⟩
      · rintro ⟨xs, ys, hrows, hxs⟩
        cases xs with
        | nil => exact .inl (List.cons.inj hrows).1.symm
        | cons x xs =>
            obtain ⟨rfl, rfl⟩ := List.cons.inj hrows
            obtain ⟨hc, hxs⟩ := List.forall_mem_cons.1 hxs
            exact .inr ⟨⟨xs, ys, rfl, hxs⟩, fun h => hc h.symm⟩

/-- Of two lists in a row, the second counts where the first has no row of the key. -/
theorem mem_firstsBy_append : a ∈ firstsBy key (rows ++ rows') ↔
    a ∈ firstsBy key rows ∨ (∀ b ∈ rows, key b ≠ key a) ∧ a ∈ firstsBy key rows' := by
  induction rows with
  | nil => simp [firstsBy]
  | cons c rows ih =>
      rw [List.cons_append, firstsBy, firstsBy, List.mem_cons, List.mem_cons, List.mem_filter,
        List.mem_filter, ih, List.forall_mem_cons, decide_eq_true_eq]
      constructor
      · rintro (rfl | ⟨h | ⟨hrows, h⟩, hkey⟩)
        · exact .inl (.inl rfl)
        · exact .inl (.inr ⟨h, hkey⟩)
        · exact .inr ⟨⟨fun hc => hkey hc.symm, hrows⟩, h⟩
      · rintro ((rfl | ⟨h, hkey⟩) | ⟨⟨hc, hrows⟩, h⟩)
        · exact .inl rfl
        · exact .inr ⟨.inl h, hkey⟩
        · exact .inr ⟨.inr ⟨hrows, h⟩, fun hkey => hc hkey.symm⟩

/-- **First rows of a kind are as many as the keys that have a row of the kind** where the
first row of every such key is of the kind. -/
theorem countP_firstsBy_eq_iff (p : α → Bool) :
    (firstsBy key rows).countP p = ((rows.filter p).map key).toFinset.card ↔
      ∀ a ∈ rows, p a = true → ∀ b ∈ firstsBy key rows, key b = key a → p b = true := by
  have hnodup : (((firstsBy key rows).filter p).map key).Nodup :=
    (List.filter_sublist.map key).nodup nodup_firstsBy
  have hsub : ∀ k ∈ ((firstsBy key rows).filter p).map key, k ∈ (rows.filter p).map key := by
    intro k hk
    obtain ⟨b, hb, rfl⟩ := List.mem_map.1 hk
    obtain ⟨hb, hpb⟩ := List.mem_filter.1 hb
    exact List.mem_map.2 ⟨b, List.mem_filter.2 ⟨mem_of_mem_firstsBy hb, hpb⟩, rfl⟩
  have hcard : (firstsBy key rows).countP p =
      (((firstsBy key rows).filter p).map key).toFinset.card := by
    rw [List.toFinset_card_of_nodup hnodup, List.length_map, List.countP_eq_length_filter]
  rw [hcard]
  constructor
  · intro heq a ha hpa b hb hkey
    have hfin := Finset.eq_of_subset_of_card_le
      (fun k hk => List.mem_toFinset.2 (hsub k (List.mem_toFinset.1 hk))) heq.ge
    have hmem : key a ∈ ((rows.filter p).map key).toFinset :=
      List.mem_toFinset.2 (List.mem_map.2 ⟨a, List.mem_filter.2 ⟨ha, hpa⟩, rfl⟩)
    rw [← hfin, List.mem_toFinset] at hmem
    obtain ⟨c, hc, hca⟩ := List.mem_map.1 hmem
    obtain ⟨hc, hpc⟩ := List.mem_filter.1 hc
    obtain rfl := List.inj_on_of_nodup_map nodup_firstsBy hb hc (hkey.trans hca.symm)
    exact hpc
  · intro hfirst
    refine congrArg Finset.card (Finset.Subset.antisymm ?_ ?_)
    · exact fun k hk => List.mem_toFinset.2 (hsub k (List.mem_toFinset.1 hk))
    · intro k hk
      obtain ⟨a, ha, rfl⟩ := List.mem_map.1 (List.mem_toFinset.1 hk)
      obtain ⟨ha, hpa⟩ := List.mem_filter.1 ha
      obtain ⟨b, hb, hkey⟩ : ∃ b ∈ firstsBy key rows, key b = key a := exists_mem_firstsBy ha
      have hpb := hfirst a ha hpa b hb hkey
      exact List.mem_toFinset.2 (List.mem_map.2 ⟨b, List.mem_filter.2 ⟨hb, hpb⟩, hkey⟩)

/-- **The first rows only depend on which rows there are**, where the key determines the row. -/
theorem perm_firstsBy (hkeys : ∀ a ∈ rows, ∀ b ∈ rows, key a = key b → a = b)
    (hsame : ∀ a, a ∈ rows ↔ a ∈ rows') : (firstsBy key rows).Perm (firstsBy key rows') := by
  have hmem : ∀ {xs : List α} (a : α), (∀ x ∈ xs, x ∈ rows) →
      (a ∈ firstsBy key xs ↔ a ∈ xs) := by
    intro xs a hsub
    refine ⟨mem_of_mem_firstsBy, fun ha => ?_⟩
    obtain ⟨b, hb, hkey⟩ : ∃ b ∈ firstsBy key xs, key b = key a := exists_mem_firstsBy ha
    obtain rfl := hkeys b (hsub b (mem_of_mem_firstsBy hb)) a (hsub a ha) hkey
    exact hb
  refine (List.perm_ext_iff_of_nodup (List.Nodup.of_map key nodup_firstsBy)
    (List.Nodup.of_map key nodup_firstsBy)).2 fun a => ?_
  rw [hmem a fun _ hx => hx, hmem a fun x hx => (hsame x).2 hx]
  exact hsame a

end AatsSniper

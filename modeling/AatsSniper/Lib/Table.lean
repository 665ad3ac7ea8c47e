/-
# Tables of records with a key

A `dict` whose values carry their own key: a list of rows with distinct keys, in
order of insertion.  `upsert` replaces the row of the same key where it stands, or
appends; `remove` drops it.  `get?_upsert` and `get?_remove` say what a table holds
afterwards, `upsert_perm` what its rows are, `sum_le_sum` and `sum_upsert_le` what they
come to.
-/

import Mathlib.Algebra.Order.BigOperators.Group.List
import Mathlib.Data.List.Nodup
import Mathlib.Data.List.Perm.Basic

namespace AatsSniper

/-- Rows with distinct keys. -/
@[ext]
structure Table {α κ : Type} (key : α → κ) where
  rows : List α
  distinct : (rows.map key).Nodup

namespace Table

variable {α κ : Type} [DecidableEq κ] {key : α → κ}

/-- No rows. -/
def empty : Table key := ⟨[], List.nodup_nil⟩

/-- The row of a key. -/
def get? (t : Table key) (k : κ) : Option α := t.rows.find? fun a => decide (key a = k)

@[simp] theorem get?_empty (k : κ) : (empty : Table key).get? k = none := rfl

/-- Drop the row of a key. -/
def remove (t : Table key) (k : κ) : Table key where
  rows := t.rows.filter fun a => decide (key a ≠ k)
  distinct := (List.filter_sublist.map key).nodup t.distinct

/-- The rows with the one of `a`'s key replaced by `a`. -/
def upsertRows (key : α → κ) (a : α) : List α → List α
  | [] => [a]
  | b :: rows => if key b = key a then a :: rows else b :: upsertRows key a rows

theorem filter_eq_self_of_notMem {k : κ} {rows : List α} (h : k ∉ rows.map key) :
    (rows.filter fun a => decide (key a ≠ k)) = rows := by
  rw [List.filter_eq_self]
  intro a ha
  rw [decide_eq_true_iff]
  rintro rfl
  exact h (List.mem_map_of_mem ha)

/-- A row and the rows of the other keys. -/
theorem perm_cons_filter {rows : List α} (h : (rows.map key).Nodup) {a : α} (ha : a ∈ rows) :
    rows.Perm (a :: rows.filter fun b => decide (key b ≠ key a)) := by
  induction rows with
  | nil => cases ha
  | cons b rows ih =>
      rw [List.map_cons, List.nodup_cons] at h
      rcases List.mem_cons.1 ha with rfl | ha
      · rw [List.filter_cons_of_neg (by simp), filter_eq_self_of_notMem h.1]
      · have hkey : key b ≠ key a := fun heq => h.1 (heq ▸ List.mem_map_of_mem ha)
        rw [List.filter_cons_of_pos (by simpa using hkey)]
        exact ((ih h.2 ha).cons b).trans (List.Perm.swap a b _)

/-- Replacing and appending leave the other rows. -/
theorem upsertRows_perm (a : α) {rows : List α} (h : (rows.map key).Nodup) :
    (upsertRows key a rows).Perm (a :: rows.filter fun b => decide (key b ≠ key a)) := by
  induction rows with
  | nil => exact List.Perm.refl _
  | cons b rows ih =>
      rw [List.map_cons, List.nodup_cons] at h
      unfold upsertRows
      split_ifs with hkey
      · rw [List.filter_cons_of_neg (by simpa using hkey)]
        rw [hkey] at h
        rw [filter_eq_self_of_notMem h.1]
      · rw [List.filter_cons_of_pos (by simpa using hkey)]
        exact ((ih h.2).cons b).trans (List.Perm.swap a b _)

/-- Put a row in. -/
def upsert (t : Table key) (a : α) : Table key where
  rows := upsertRows key a t.rows
  distinct := by
    rw [((upsertRows_perm a t.distinct).map key).nodup_iff, List.map_cons, List.nodup_cons]
    refine ⟨?_, (t.remove (key a)).distinct⟩
    intro hmem
    obtain ⟨b, hb, hkey⟩ := List.mem_map.1 hmem
    exact of_decide_eq_true (List.mem_filter.1 hb).2 hkey

theorem upsert_perm (t : Table key) (a : α) :
    (t.upsert a).rows.Perm (a :: (t.remove (key a)).rows) :=
  upsertRows_perm a t.distinct

/-- A row that was found is there, under that key. -/
theorem mem_of_get? {t : Table key} {k : κ} {a : α} (h : t.get? k = some a) :
    a ∈ t.rows ∧ key a = k := by
  have hkey := List.find?_some h
  exact ⟨List.mem_of_find?_eq_some h, of_decide_eq_true hkey⟩

theorem get?_eq_some {t : Table key} {k : κ} {a : α} :
    t.get? k = some a ↔ a ∈ t.rows ∧ key a = k := by
  refine ⟨mem_of_get?, fun ⟨hmem, hkey⟩ => ?_⟩
  have hfound : (t.get? k).isSome :=
    List.find?_isSome.2 ⟨a, hmem, decide_eq_true hkey⟩
  obtain ⟨b, hb⟩ := Option.isSome_iff_exists.1 hfound
  obtain ⟨hmem', hkey'⟩ := mem_of_get? hb
  rw [hb, List.inj_on_of_nodup_map t.distinct hmem' hmem (hkey'.trans hkey.symm)]

theorem get?_eq_none {t : Table key} {k : κ} : t.get? k = none ↔ ∀ a ∈ t.rows, key a ≠ k := by
  unfold get?
  simp [List.find?_eq_none]

/-- Tables that answer alike hold the same rows. -/
theorem rows_perm_of_get? {t t' : Table key} (h : ∀ k, t.get? k = t'.get? k) :
    t.rows.Perm t'.rows := by
  rw [List.perm_ext_iff_of_nodup t.distinct.of_map t'.distinct.of_map]
  intro a
  have ha := h (key a)
  constructor
  · intro hmem
    exact (mem_of_get? (ha ▸ get?_eq_some.2 ⟨hmem, rfl⟩)).1
  · intro hmem
    exact (mem_of_get? (ha.symm ▸ get?_eq_some.2 ⟨hmem, rfl⟩)).1

/-- Tables with the same rows answer alike. -/
theorem get?_congr {t t' : Table key} (h : ∀ a, a ∈ t.rows ↔ a ∈ t'.rows) (k : κ) :
    t.get? k = t'.get? k := by
  ext a
  rw [get?_eq_some, get?_eq_some, h]

@[simp] theorem mem_remove {t : Table key} {k : κ} {a : α} :
    a ∈ (t.remove k).rows ↔ a ∈ t.rows ∧ key a ≠ k := by
  simp [remove]

@[simp] theorem mem_upsert {t : Table key} {a b : α} :
    b ∈ (t.upsert a).rows ↔ b = a ∨ b ∈ t.rows ∧ key b ≠ key a := by
  rw [(upsert_perm t a).mem_iff, List.mem_cons, mem_remove]

@[simp, grind =] theorem get?_remove (t : Table key) (k k' : κ) :
    (t.remove k).get? k' = if k' = k then none else t.get? k' := by
  split_ifs with h
  · subst h
    rw [get?_eq_none]
    exact fun a ha => (mem_remove.1 ha).2
  · ext a
    rw [get?_eq_some, get?_eq_some, mem_remove]
    refine ⟨fun ha => ⟨ha.1.1, ha.2⟩, fun ha => ⟨⟨ha.1, ?_⟩, ha.2⟩⟩
    rw [ha.2]
    exact h

theorem get?_remove_self (t : Table key) (k : κ) : (t.remove k).get? k = none := by simp

theorem get?_remove_of_ne {t : Table key} {k k' : κ} (h : k' ≠ k) :
    (t.remove k).get? k' = t.get? k' := by simp [h]

@[simp, grind =] theorem get?_upsert (t : Table key) (a : α) (k : κ) :
    (t.upsert a).get? k = if k = key a then some a else t.get? k := by
  split_ifs with h
  · subst h
    rw [get?_eq_some, mem_upsert]
    exact ⟨.inl rfl, rfl⟩
  · ext b
    rw [get?_eq_some, get?_eq_some, mem_upsert]
    constructor
    · rintro ⟨rfl | hb, hkey⟩
      · exact absurd hkey.symm h
      · exact ⟨hb.1, hkey⟩
    · rintro ⟨hb, rfl⟩
      exact ⟨.inr ⟨hb, h⟩, rfl⟩

theorem get?_upsert_self (t : Table key) (a : α) : (t.upsert a).get? (key a) = some a := by simp

theorem get?_upsert_of_ne {t : Table key} {a : α} {k : κ} (h : k ≠ key a) :
    (t.upsert a).get? k = t.get? k := by simp [h]

theorem filter_upsertRows (a : α) (rows : List α) :
    (upsertRows key a rows).filter (fun b => decide (key b ≠ key a)) =
      rows.filter fun b => decide (key b ≠ key a) := by
  induction rows with
  | nil => simp [upsertRows]
  | cons b rows ih =>
      unfold upsertRows
      split_ifs with hkey
      · rw [List.filter_cons_of_neg (by simp), List.filter_cons_of_neg (by simpa using hkey)]
      · rw [List.filter_cons_of_pos (by simpa using hkey),
          List.filter_cons_of_pos (by simpa using hkey), ih]

/-- Dropping what was just put in. -/
@[simp] theorem remove_upsert (t : Table key) (a : α) :
    (t.upsert a).remove (key a) = t.remove (key a) :=
  Table.ext (filter_upsertRows a t.rows)

/-- Dropping a key that is not there. -/
theorem remove_of_get?_none {t : Table key} {k : κ} (h : t.get? k = none) : t.remove k = t := by
  refine Table.ext (filter_eq_self_of_notMem fun hmem => ?_)
  obtain ⟨a, ha, hkey⟩ := List.mem_map.1 hmem
  exact get?_eq_none.1 h a ha hkey

/-- Rows that are changed one by one, and keep their keys. -/
theorem map_upsertRows {β : Type} {key' : β → κ} {f : α → β} (hkey : ∀ a, key' (f a) = key a)
    (a : α) (rows : List α) :
    (upsertRows key a rows).map f = upsertRows key' (f a) (rows.map f) := by
  induction rows with
  | nil => rfl
  | cons b rows ih =>
      rw [List.map_cons, upsertRows, upsertRows, hkey, hkey]
      split_ifs
      · rfl
      · rw [List.map_cons, ih]

theorem upsertRows_upsertRows {a b : α} (h : key a = key b) (rows : List α) :
    upsertRows key b (upsertRows key a rows) = upsertRows key b rows := by
  induction rows with
  | nil => simp [upsertRows, h]
  | cons c rows ih =>
      by_cases hkey : key c = key a
      · simp [upsertRows, hkey, h]
      · have hkey' : key c ≠ key b := h ▸ hkey
        simp [upsertRows, hkey, hkey', ih]

/-- What is put in last stays. -/
theorem upsert_upsert {a b : α} (h : key a = key b) (t : Table key) :
    (t.upsert a).upsert b = t.upsert b :=
  Table.ext (upsertRows_upsertRows h t.rows)

theorem upsertRows_of_mem {a : α} {rows : List α} (hdistinct : (rows.map key).Nodup)
    (ha : a ∈ rows) : upsertRows key a rows = rows := by
  induction rows with
  | nil => cases ha
  | cons b rows ih =>
      rw [List.map_cons, List.nodup_cons] at hdistinct
      unfold upsertRows
      rcases List.mem_cons.1 ha with rfl | ha
      · rw [if_pos rfl]
      · have hkey : key b ≠ key a := fun heq => hdistinct.1 (heq ▸ List.mem_map_of_mem ha)
        rw [if_neg hkey, ih hdistinct.2 ha]

/-- Putting in what is there. -/
theorem upsert_of_get? {t : Table key} {a : α} (h : t.get? (key a) = some a) : t.upsert a = t :=
  Table.ext (upsertRows_of_mem t.distinct (mem_of_get? h).1)

theorem upsertRows_of_notMem {a : α} {rows : List α} (h : key a ∉ rows.map key) :
    upsertRows key a rows = rows ++ [a] := by
  induction rows with
  | nil => rfl
  | cons b rows ih =>
      rw [List.map_cons, List.mem_cons, not_or] at h
      rw [upsertRows, if_neg fun heq => h.1 heq.symm, ih h.2, List.cons_append]

/-- Rows of new keys are appended. -/
theorem rows_foldl_upsert {t : Table key} {rows : List α}
    (h : ((t.rows ++ rows).map key).Nodup) : (rows.foldl upsert t).rows = t.rows ++ rows := by
  induction rows generalizing t with
  | nil => exact (List.append_nil _).symm
  | cons a rows ih =>
      have hnew : key a ∉ t.rows.map key := by
        intro hmem
        rw [List.map_append, List.map_cons] at h
        exact List.disjoint_of_nodup_append h hmem List.mem_cons_self
      have hrows : (t.upsert a).rows = t.rows ++ [a] := upsertRows_of_notMem hnew
      rw [List.foldl_cons, ih (by rwa [hrows, List.append_assoc]), hrows, List.append_assoc]
      rfl

section Sums

variable {M : Type} [AddCommMonoid M] [PartialOrder M] [IsOrderedAddMonoid M] {f : α → M}

/-- Rows that a table has had under their key, and for as much, do not come to more. -/
theorem sum_le_sum {t t' : Table key} (hnonneg : ∀ a ∈ t.rows, 0 ≤ f a)
    (h : ∀ b ∈ t'.rows, ∃ a, t.get? (key b) = some a ∧ f a = f b) :
    (t'.rows.map f).sum ≤ (t.rows.map f).sum := by
  let pair (a : α) : κ × M := (key a, f a)
  have hnodup : (t'.rows.map pair).Nodup := by
    refine List.Nodup.of_map Prod.fst ?_
    rw [List.map_map]
    exact t'.distinct
  have hsubset : t'.rows.map pair ⊆ t.rows.map pair := by
    intro x hx
    obtain ⟨b, hb, rfl⟩ := List.mem_map.1 hx
    obtain ⟨a, hget, hf⟩ := h b hb
    obtain ⟨ha, hkey⟩ := mem_of_get? hget
    exact List.mem_map.2 ⟨a, ha, Prod.ext hkey hf⟩
  obtain ⟨rows, hperm, hsublist⟩ := List.subperm_of_subset hnodup hsubset
  have hsum : ∀ rows : List α, ((rows.map pair).map Prod.snd).sum = (rows.map f).sum := by
    intro rows
    rw [List.map_map]
    rfl
  rw [← hsum t'.rows, ← hsum t.rows, ← (hperm.map Prod.snd).sum_eq]
  refine (hsublist.map Prod.snd).sum_le_sum fun y hy => ?_
  rw [List.map_map] at hy
  obtain ⟨a, ha, rfl⟩ := List.mem_map.1 hy
  exact hnonneg a ha

/-- Putting a row in adds it at most. -/
theorem sum_upsert_le (t : Table key) (hnonneg : ∀ a ∈ t.rows, 0 ≤ f a) (a : α) :
    ((t.upsert a).rows.map f).sum ≤ f a + (t.rows.map f).sum := by
  rw [((upsert_perm t a).map f).sum_eq, List.map_cons, List.sum_cons]
  refine add_le_add le_rfl ?_
  refine (List.filter_sublist.map f).sum_le_sum fun y hy => ?_
  obtain ⟨b, hb, rfl⟩ := List.mem_map.1 hy
  exact hnonneg b hb

end Sums

end Table

end AatsSniper

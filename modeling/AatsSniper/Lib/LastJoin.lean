/-
# Joining rows to the last entry of their key

A `dict` filled from a list holds, under each key, the last entry of that key
(`get?_index`).  `join` gives every row the entry under its key and drops the rows
that have none.

What the rows get does not depend on the order of the entries as long as the entries
that meet a row look alike (`Agree.view_join_perm`), and where two of them differ some
order tells (`view_eq_of_join_subset`).
-/

import AatsSniper.Lib.Table
import Mathlib.Data.List.Induction
import Mathlib.Data.List.Perm.Basic

namespace AatsSniper
namespace LastJoin

variable {α β γ κ ν : Type} [DecidableEq κ] {rowKey : α → κ} {key : β → κ}

/-- `{key(b): b for b in entries}`. -/
def index (key : β → κ) (entries : List β) : Table key := entries.foldl Table.upsert Table.empty

theorem get?_index (entries : List β) (k : κ) :
    (index key entries).get? k = (entries.filter fun b => decide (key b = k)).getLast? := by
  induction entries using List.reverseRecOn with
  | nil => rfl
  | append_singleton entries b ih =>
      unfold index at *
      rw [List.foldl_append, List.foldl_cons, List.foldl_nil, Table.get?_upsert, ih,
        List.filter_append]
      by_cases hkey : key b = k
      · subst hkey
        simp
      · simp [hkey, Ne.symm hkey]

variable {entries entries' pre pre' : List β} {rows rows' : List α} {a : α} {b b' : β} {k : κ}

theorem mem_of_get?_index (h : (index key entries).get? k = some b) : b ∈ entries ∧ key b = k := by
  rw [get?_index] at h
  have hmem := List.mem_filter.1 (List.mem_of_getLast? h)
  exact ⟨hmem.1, of_decide_eq_true hmem.2⟩

theorem exists_get?_index (hb : b ∈ entries) : ∃ b', (index key entries).get? (key b) = some b' := by
  have hmem : b ∈ entries.filter fun c => decide (key c = key b) :=
    List.mem_filter.2 ⟨hb, decide_eq_true rfl⟩
  rw [get?_index, List.getLast?_eq_some_getLast (List.ne_nil_of_mem hmem)]
  exact ⟨_, rfl⟩

theorem get?_index_concat (pre : List β) (b : β) :
    (index key (pre ++ [b])).get? (key b) = some b := by
  rw [get?_index, List.filter_append]
  simp

/-- Each row that has an entry, with the last one. -/
def join (rowKey : α → κ) (key : β → κ) (rows : List α) (entries : List β) : List (α × β) :=
  rows.filterMap fun a => ((index key entries).get? (rowKey a)).map fun b => (a, b)

theorem mem_join : (a, b) ∈ join rowKey key rows entries ↔
    a ∈ rows ∧ (index key entries).get? (rowKey a) = some b := by
  simp only [join, List.mem_filterMap, Option.map_eq_some_iff, Prod.mk.injEq]
  constructor
  · rintro ⟨a, ha, b, hb, rfl, rfl⟩
    exact ⟨ha, hb⟩
  · rintro ⟨ha, hb⟩
    exact ⟨a, ha, b, hb, rfl, rfl⟩

/-- The entries that meet a row look alike. -/
def Agree (rowKey : α → κ) (key : β → κ) (view : β → ν) (rows : List α) (entries : List β) : Prop :=
  ∀ a ∈ rows, ∀ b ∈ entries, ∀ b' ∈ entries, key b = rowKey a → key b' = rowKey a →
    view b = view b'

variable {view : β → ν}

/-- What a row gets is what any entry under its key has. -/
theorem Agree.map_get?_index (h : Agree rowKey key view rows entries)
    (hperm : entries'.Perm entries) (ha : a ∈ rows) :
    ((index key entries').get? (rowKey a)).map view =
      ((index key entries).get? (rowKey a)).map view := by
  cases hget : (index key entries).get? (rowKey a) with
  | none =>
      cases hget' : (index key entries').get? (rowKey a) with
      | none => rfl
      | some b' =>
          obtain ⟨hb', hkey⟩ := mem_of_get?_index hget'
          obtain ⟨b, hb⟩ : ∃ b, (index key entries).get? (key b') = some b :=
            exists_get?_index (hperm.mem_iff.1 hb')
          rw [hkey, hget] at hb
          cases hb
  | some b =>
      obtain ⟨hb, hkey⟩ := mem_of_get?_index hget
      obtain ⟨b', hget'⟩ : ∃ b', (index key entries').get? (key b) = some b' :=
        exists_get?_index (hperm.mem_iff.2 hb)
      rw [hkey] at hget'
      obtain ⟨hb', hkey'⟩ := mem_of_get?_index hget'
      rw [hget', Option.map_some, Option.map_some,
        h a ha b' (hperm.mem_iff.1 hb') b hb hkey' hkey]

/-- **The order does not matter** where the entries that meet a row look alike. -/
theorem Agree.view_join_perm (h : Agree rowKey key view rows entries) (hrows : rows'.Perm rows)
    (hentries : entries'.Perm entries) (out : α → ν → γ) :
    ((join rowKey key rows' entries').map fun p => out p.1 (view p.2)).Perm
      ((join rowKey key rows entries).map fun p => out p.1 (view p.2)) := by
  have hjoin : ∀ (rows : List α) (entries : List β),
      ((join rowKey key rows entries).map fun p => out p.1 (view p.2)) =
        rows.filterMap fun a => (((index key entries).get? (rowKey a)).map view).map (out a) := by
    intro rows entries
    simp [join, List.map_filterMap, Function.comp_def]
  rw [hjoin, hjoin]
  refine (hrows.filterMap _).trans (List.Perm.of_eq (List.filterMap_congr fun a ha => ?_))
  rw [h.map_get?_index hentries ha]

/-- Any entry can be put last. -/
theorem exists_perm_concat (hb : b ∈ entries) : ∃ pre, (pre ++ [b]).Perm entries := by
  obtain ⟨s, t, rfl⟩ := List.append_of_mem hb
  exact ⟨s ++ t, (List.perm_append_singleton b (s ++ t)).trans List.perm_middle.symm⟩

variable (view) in
/-- **An order tells** two entries apart that meet one row, if what the row gets shows. -/
theorem view_eq_of_join_subset (out : α → ν → γ)
    (hout : ∀ {a a' : α} {n n' : ν}, out a n = out a' n' → rowKey a = rowKey a' ∧ n = n')
    (ha : a ∈ rows) (hb : key b = rowKey a) (hb' : key b' = rowKey a)
    (hsubset : ((join rowKey key rows (pre ++ [b])).map fun p => out p.1 (view p.2)) ⊆
      (join rowKey key rows' (pre' ++ [b'])).map fun p => out p.1 (view p.2)) :
    view b = view b' := by
  have hmem : (a, b) ∈ join rowKey key rows (pre ++ [b]) :=
    mem_join.2 ⟨ha, hb ▸ get?_index_concat pre b⟩
  obtain ⟨⟨a', c⟩, hac, heq⟩ := List.mem_map.1 (hsubset (List.mem_map_of_mem hmem))
  obtain ⟨hkey, hview⟩ := hout heq
  have hget := (mem_join.1 hac).2
  rw [hkey, ← hb', get?_index_concat] at hget
  obtain rfl := Option.some.inj hget
  exact hview.symm

end LastJoin
end AatsSniper

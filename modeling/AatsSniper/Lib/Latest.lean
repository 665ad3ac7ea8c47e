/-
# The latest version of every key

A table that keeps, for each key, the row of the highest version it was given
(`putLatest`).  `Latest given t` says that `t` holds exactly these rows of the ones
given.  Where key and version determine a row, it only depends on which rows were
given, not on their order or number: `Latest.perm_closings`.
-/

import AatsSniper.Lib.Sort
import AatsSniper.Lib.Table
import Mathlib.Data.List.Dedup

namespace AatsSniper

variable {α κ ν : Type} [DecidableEq κ] [LinearOrder ν] {key : α → κ} {version : α → ν}

/-- Put a row in unless a newer one is there. -/
def putLatest (version : α → ν) (t : Table key) (a : α) : Table key :=
  match t.get? (key a) with
  | some b => if version a < version b then t else t.upsert a
  | none => t.upsert a

/-- `t` holds the row of the highest version of each key that was given. -/
structure Latest (version : α → ν) (given : List α) (t : Table key) : Prop where
  newest : ∀ a ∈ t.rows, a ∈ given ∧ ∀ b ∈ given, key b = key a → version b ≤ version a
  every : ∀ a ∈ given, ∃ b ∈ t.rows, key b = key a

omit [DecidableEq κ] in
theorem latest_empty : Latest version [] (Table.empty : Table key) :=
  ⟨by simp [Table.empty], by simp⟩

variable {given given' : List α} {t : Table key} {a : α}

omit [DecidableEq κ] in
/-- Only which rows were given matters. -/
theorem Latest.congr (h : Latest version given t) (hmem : ∀ x, x ∈ given ↔ x ∈ given') :
    Latest version given' t where
  newest b hb := ⟨(hmem b).1 (h.newest b hb).1, fun c hc => (h.newest b hb).2 c ((hmem c).2 hc)⟩
  every b hb := h.every b ((hmem b).2 hb)

/-- A row below the one that is there changes nothing. -/
theorem Latest.superseded (h : Latest version given t) {b : α} (hb : t.get? (key a) = some b)
    (hlt : version a < version b) : Latest version (given ++ [a]) t where
  newest c hc := by
    refine ⟨List.mem_append_left _ (h.newest c hc).1, fun x hx hkey => ?_⟩
    rcases List.mem_append.1 hx with hx | hx
    · exact (h.newest c hc).2 x hx hkey
    · obtain rfl := List.mem_singleton.1 hx
      have hcb : t.get? (key x) = some c := Table.get?_eq_some.2 ⟨hc, hkey.symm⟩
      obtain rfl := Option.some.inj (hb.symm.trans hcb)
      exact hlt.le
  every x hx := by
    rcases List.mem_append.1 hx with hx | hx
    · exact h.every x hx
    · obtain rfl := List.mem_singleton.1 hx
      exact ⟨b, Table.mem_of_get? hb⟩

/-- A row at least as new as the one that is there takes its place. -/
theorem Latest.upsert (h : Latest version given t)
    (hle : ∀ b, t.get? (key a) = some b → version b ≤ version a) :
    Latest version (given ++ [a]) (t.upsert a) where
  newest c hc := by
    rcases Table.mem_upsert.1 hc with rfl | ⟨hc, hne⟩
    · refine ⟨List.mem_append_right _ (List.mem_singleton_self c), fun x hx hkey => ?_⟩
      rcases List.mem_append.1 hx with hx | hx
      · obtain ⟨b, hb, hbkey⟩ := h.every x hx
        have hbc : t.get? (key c) = some b :=
          Table.get?_eq_some.2 ⟨hb, hbkey.trans hkey⟩
        exact ((h.newest b hb).2 x hx hbkey.symm).trans (hle b hbc)
      · rw [List.mem_singleton.1 hx]
    · refine ⟨List.mem_append_left _ (h.newest c hc).1, fun x hx hkey => ?_⟩
      rcases List.mem_append.1 hx with hx | hx
      · exact (h.newest c hc).2 x hx hkey
      · rw [List.mem_singleton.1 hx] at hkey
        exact absurd hkey.symm hne
  every x hx := by
    rcases List.mem_append.1 hx with hx | hx
    · obtain ⟨b, hb, hkey⟩ := h.every x hx
      by_cases hba : key b = key a
      · exact ⟨a, Table.mem_upsert.2 (.inl rfl), hba.symm.trans hkey⟩
      · exact ⟨b, Table.mem_upsert.2 (.inr ⟨hb, hba⟩), hkey⟩
    · obtain rfl := List.mem_singleton.1 hx
      exact ⟨x, Table.mem_upsert.2 (.inl rfl), rfl⟩

/-- **One row more.** -/
theorem Latest.put (h : Latest version given t) (a : α) :
    Latest version (given ++ [a]) (putLatest version t a) := by
  unfold putLatest
  split
  · rename_i b hb
    split_ifs with hlt
    · exact h.superseded hb hlt
    · refine h.upsert fun c hc => ?_
      obtain rfl := Option.some.inj (hb.symm.trans hc)
      exact not_lt.1 hlt
  · rename_i hnone
    refine h.upsert fun b hb => ?_
    rw [hnone] at hb
    cases hb

omit [DecidableEq κ] in
/-- The rows of a table have distinct keys. -/
theorem Table.eq_of_key {b : α} (t : Table key) (ha : a ∈ t.rows) (hb : b ∈ t.rows)
    (hkey : key a = key b) : a = b :=
  List.inj_on_of_nodup_map t.distinct ha hb hkey

/-- Key and version determine the row. -/
def Determined (key : α → κ) (version : α → ν) (given : List α) : Prop :=
  ∀ a ∈ given, ∀ b ∈ given, key a = key b → version a = version b → a = b

variable [DecidableEq α]

/-- The rows of the highest versions. -/
def closings (key : α → κ) (version : α → ν) (given : List α) : List α :=
  (given.filter fun a => given.all fun b => decide (key b = key a → version b ≤ version a)).dedup

theorem mem_closings : a ∈ closings key version given ↔
    a ∈ given ∧ ∀ b ∈ given, key b = key a → version b ≤ version a := by
  simp only [closings, List.mem_dedup, List.mem_filter, List.all_eq_true, decide_eq_true_eq]

theorem nodup_closings : (closings key version given).Nodup := List.nodup_dedup _

/-- **The table holds the closed form.** -/
theorem Latest.perm_closings (h : Latest version given t)
    (hdetermined : Determined key version given) :
    t.rows.Perm (closings key version given) := by
  refine (List.perm_ext_iff_of_nodup (List.Nodup.of_map key t.distinct)
    nodup_closings).2 fun a => ?_
  rw [mem_closings]
  refine ⟨h.newest a, fun ⟨ha, hmax⟩ => ?_⟩
  obtain ⟨b, hb, hkey⟩ := h.every a ha
  have hle := (h.newest b hb).2 a ha hkey.symm
  have hge := hmax b (h.newest b hb).1 hkey
  obtain rfl := hdetermined b (h.newest b hb).1 a ha hkey (le_antisymm hge hle)
  exact hb

end AatsSniper

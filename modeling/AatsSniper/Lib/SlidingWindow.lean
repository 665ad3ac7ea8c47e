/-
# The widest window over a sorted list

Two places move along a sorted list.  The left one takes every entry in turn; the right one is
moved on as long as what it meets is within reach of the left entry, and never goes back.  How far
apart they stand is how many entries the window of the left one holds.

The right place never has to go back because reach grows with the entry: what was within reach of
the entry before is within reach of this one (`slide_eq_widths`).  The widest window is then the
largest count of entries in a window that begins at an entry, in whatever order the entries are
counted (`foldr_max_slide`).
-/

import Mathlib.Data.List.Sort
import Mathlib.Order.Monotone.Basic

namespace AatsSniper
namespace SlidingWindow

variable {κ : Type*} [LinearOrder κ] {reach : κ → κ}

/-- The right place moved on while what it meets is at most `limit`: where it stops, and the
entries from there. -/
def advance (limit : κ) : ℕ → List κ → ℕ × List κ
  | j, [] => (j, [])
  | j, b :: ahead => if b ≤ limit then advance limit (j + 1) ahead else (j, b :: ahead)

/-- How far apart the places stand, for each entry from the left place on. -/
def slide (reach : κ → κ) : ℕ → List κ → ℕ → List κ → List ℕ
  | _, [], _, _ => []
  | i, a :: rows, j, ahead =>
      ((advance (reach a) j ahead).1 - i) ::
        slide reach (i + 1) rows (advance (reach a) j ahead).1 (advance (reach a) j ahead).2

/-- How many entries from each one on are within its reach. -/
def widths (reach : κ → κ) : List κ → List ℕ
  | [] => []
  | a :: rows => (a :: rows).countP (fun b => decide (b ≤ reach a)) :: widths reach rows

/-- How many entries the window of `a` holds. -/
def width (reach : κ → κ) (rows : List κ) (a : κ) : ℕ :=
  rows.countP fun b => decide (a ≤ b ∧ b ≤ reach a)

/-- How many entries the widest window holds. -/
def widest (reach : κ → κ) (rows : List κ) : ℕ := (rows.map (width reach rows)).foldr max 0

/-- The right place passes the entries within the limit and stops before one that is not. -/
theorem advance_eq (limit : κ) (j : ℕ) (ahead : List κ) :
    ∃ passed rest, ahead = passed ++ rest ∧ advance limit j ahead = (j + passed.length, rest) ∧
      (∀ b ∈ passed, b ≤ limit) ∧ ∀ b ∈ rest.head?, limit < b := by
  induction ahead generalizing j with
  | nil => exact ⟨[], [], rfl, rfl, by simp, by simp⟩
  | cons b ahead ih =>
      by_cases hb : b ≤ limit
      · obtain ⟨passed, rest, hsplit, hadvance, hpassed, hrest⟩ := ih (j + 1)
        refine ⟨b :: passed, rest, by rw [hsplit, List.cons_append], ?_, ?_, hrest⟩
        · rw [advance, if_pos hb, hadvance, List.length_cons]
          congr 1
          omega
        · intro c hc
          rcases List.mem_cons.1 hc with rfl | hc
          · exact hb
          · exact hpassed c hc
      · refine ⟨[], b :: ahead, rfl, by rw [advance, if_neg hb]; rfl, by simp, ?_⟩
        intro c hc
        rw [List.head?_cons, Option.mem_some_iff] at hc
        rw [← hc]
        exact not_le.1 hb

/-- Entries of a sorted list from one beyond the limit on are all beyond it. -/
theorem countP_of_beyond {limit : κ} {rest : List κ} (hsorted : rest.Pairwise (· ≤ ·))
    (hrest : ∀ b ∈ rest.head?, limit < b) : rest.countP (fun b => decide (b ≤ limit)) = 0 := by
  cases rest with
  | nil => rfl
  | cons b rest =>
      rw [List.pairwise_cons] at hsorted
      have hb : limit < b := hrest b rfl
      rw [List.countP_eq_zero]
      intro c hc
      rw [decide_eq_true_iff, not_le]
      rcases List.mem_cons.1 hc with rfl | hc
      · exact hb
      · exact hb.trans_le (hsorted.1 c hc)

/-- The two places, with `inner` between them, count what is within reach of each entry. -/
theorem slide_eq_widths (hmono : Monotone reach) (hself : ∀ a, a ≤ reach a) {rows : List κ}
    (hsorted : rows.Pairwise (· ≤ ·)) :
    ∀ {i j : ℕ} {inner ahead : List κ}, rows = inner ++ ahead → j = i + inner.length →
      (∀ a ∈ rows.head?, ∀ b ∈ inner, b ≤ reach a) →
      slide reach i rows j ahead = widths reach rows := by
  induction rows with
  | nil => intros; rfl
  | cons a rows ih =>
      intro i j inner ahead hrows hj hinner
      obtain ⟨passed, rest, hahead, hadvance, hpassed, hrest⟩ := advance_eq (reach a) j ahead
      have hall : a :: rows = (inner ++ passed) ++ rest := by
        rw [hrows, hahead, List.append_assoc]
      have hwithin : ∀ b ∈ inner ++ passed, b ≤ reach a := by
        intro b hb
        rcases List.mem_append.1 hb with hb | hb
        · exact hinner a rfl b hb
        · exact hpassed b hb
      have hsuffix : rest.Pairwise (· ≤ ·) := by
        rw [hall] at hsorted
        exact (List.pairwise_append.1 hsorted).2.1
      have hcount : (a :: rows).countP (fun b => decide (b ≤ reach a)) =
          inner.length + passed.length := by
        rw [hall, List.countP_append, countP_of_beyond hsuffix hrest, Nat.add_zero,
          List.countP_eq_length.2 fun b hb => decide_eq_true (hwithin b hb), List.length_append]
      -- the left entry is within its own reach, so the right place is past it
      obtain ⟨inner', hinner'⟩ : ∃ inner', inner ++ passed = a :: inner' := by
        cases hpast : inner ++ passed with
        | nil =>
            rw [hpast, List.nil_append] at hall
            exact absurd (hself a) (not_le.2 (hrest a (by rw [← hall]; rfl)))
        | cons b inner' =>
            rw [hpast, List.cons_append, List.cons.injEq] at hall
            exact ⟨inner', by rw [hall.1]⟩
      have hlength : inner.length + passed.length = inner'.length + 1 := by
        rw [← List.length_append, hinner', List.length_cons]
      rw [hinner', List.cons_append, List.cons.injEq] at hall
      rw [slide, widths, hadvance, hcount, hj]
      rw [List.pairwise_cons] at hsorted
      congr 1
      · omega
      · refine ih hsorted.2 hall.2 (by simp only []; omega) fun b hb c hc => ?_
        have hmem : c ∈ inner ++ passed := by
          rw [hinner']
          exact List.mem_cons_of_mem _ hc
        exact (hwithin c hmem).trans (hmono (hsorted.1 b (List.mem_of_mem_head? hb)))

/-- A largest entry is bounded by what bounds them all. -/
theorem foldr_max_le_iff {ws : List ℕ} {n : ℕ} : ws.foldr max 0 ≤ n ↔ ∀ w ∈ ws, w ≤ n := by
  induction ws with
  | nil => simp
  | cons w ws ih => simp [ih]

theorem le_foldr_max {ws : List ℕ} {w : ℕ} (hw : w ∈ ws) : w ≤ ws.foldr max 0 :=
  foldr_max_le_iff.1 le_rfl w hw

/-- In a sorted list an entry's window is among the entries from it on. -/
theorem width_cons_self {a : κ} {rows : List κ} (hsorted : (a :: rows).Pairwise (· ≤ ·)) :
    width reach (a :: rows) a = (a :: rows).countP fun b => decide (b ≤ reach a) := by
  refine List.countP_congr fun b hb => ?_
  have hab : a ≤ b := by
    rcases List.mem_cons.1 hb with rfl | hb
    · exact le_rfl
    · exact (List.pairwise_cons.1 hsorted).1 b hb
  simp [hab]

theorem foldr_max_widths {rows : List κ} (hsorted : rows.Pairwise (· ≤ ·)) :
    (widths reach rows).foldr max 0 = widest reach rows := by
  apply le_antisymm
  · rw [foldr_max_le_iff]
    -- what is counted from an entry on is at most what its window holds
    suffices h : ∀ suffix, suffix <:+ rows → ∀ w ∈ widths reach suffix, w ≤ widest reach rows from
      h rows List.suffix_rfl
    intro suffix
    induction suffix with
    | nil => simp [widths]
    | cons a suffix ih =>
        intro hsuffix w hw
        rcases List.mem_cons.1 hw with rfl | hw
        · have hpart := hsorted.sublist hsuffix.sublist
          have hmem : a ∈ rows := hsuffix.subset List.mem_cons_self
          rw [← width_cons_self hpart]
          exact (hsuffix.sublist.countP_le).trans (le_foldr_max (List.mem_map_of_mem hmem))
        · exact ih ((List.suffix_cons a suffix).trans hsuffix) w hw
  · rw [widest, foldr_max_le_iff]
    intro w hw
    obtain ⟨a, ha, rfl⟩ := List.mem_map.1 hw
    clear hw
    induction rows with
    | nil => cases ha
    | cons b rows ih =>
        rw [widths, List.foldr_cons]
        by_cases hab : a = b
        · subst hab
          rw [width_cons_self hsorted]
          exact le_max_left _ _
        · have hmem : a ∈ rows := (List.mem_cons.1 ha).resolve_left hab
          have hlt : b < a :=
            lt_of_le_of_ne ((List.pairwise_cons.1 hsorted).1 a hmem) (Ne.symm hab)
          have hskip : width reach (b :: rows) a = width reach rows a := by
            rw [width, List.countP_cons_of_neg (by simp [hlt])]
            rfl
          rw [hskip]
          exact (ih (List.pairwise_cons.1 hsorted).2 hmem).trans (le_max_right _ _)

/-- The widest the places stand apart is what the widest window holds. -/
theorem foldr_max_slide (hmono : Monotone reach) (hself : ∀ a, a ≤ reach a) {rows : List κ}
    (hsorted : rows.Pairwise (· ≤ ·)) :
    (slide reach 0 rows 0 rows).foldr max 0 = widest reach rows := by
  have hslide : slide reach 0 rows 0 rows = widths reach rows :=
    slide_eq_widths hmono hself hsorted (List.nil_append rows).symm rfl (by simp)
  rw [hslide, foldr_max_widths hsorted]

theorem widest_le_length (reach : κ → κ) (rows : List κ) : widest reach rows ≤ rows.length := by
  rw [widest, foldr_max_le_iff]
  intro w hw
  obtain ⟨a, -, rfl⟩ := List.mem_map.1 hw
  exact List.countP_le_length

/-- The widest window does not depend on the order of the entries. -/
theorem widest_perm {rows rows' : List κ} (hperm : rows.Perm rows') :
    widest reach rows = widest reach rows' := by
  have hwidth : width reach rows = width reach rows' := by
    funext a
    exact hperm.countP_eq _
  apply le_antisymm
  · rw [widest, foldr_max_le_iff, hwidth]
    exact fun w hw => le_foldr_max ((hperm.map _).mem_iff.1 hw)
  · rw [widest, foldr_max_le_iff, ← hwidth]
    exact fun w hw => le_foldr_max ((hperm.map _).mem_iff.2 hw)

end SlidingWindow
end AatsSniper

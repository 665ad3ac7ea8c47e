/-
# What accounts hold together

Writes to accounts, each of which leaves its account holding some amount for a group of accounts
(`Books`).  `holding` is what a group holds after a list of writes: the sum over the
accounts of what their last write left them, nothing for an account never written.
`swing` is by how much a group's closing holding of a period differs from the one before.

A write moves a holding by the difference of what it leaves and what was there (`moved`):
`holding_snoc`, and `swing_snoc` for the periods of a list of writes in order.
-/

import AatsSniper.Lib.Table
import Mathlib.Data.Int.ConditionallyCompleteOrder

namespace AatsSniper

/-- How writes are read: the account, what it then holds for each group, and when. -/
structure Books (α κ γ : Type) where
  account : α → κ
  held : α → γ → ℤ
  time : α → ℤ

namespace Books

variable {α κ γ : Type} [DecidableEq κ] (B : Books α κ γ)

/-- The last write of every account. -/
def lastWrites (writes : List α) : Table B.account := writes.foldl Table.upsert Table.empty

/-- What a group holds after some writes. -/
def holding (writes : List α) (group : γ) : ℤ :=
  ((B.lastWrites writes).rows.map fun write => B.held write group).sum

/-- What the account of a write held for a group before it. -/
def heldBefore (writes : List α) (write : α) (group : γ) : ℤ :=
  match (B.lastWrites writes).get? (B.account write) with
  | some last => B.held last group
  | none => 0

/-- By how much a write moves the holding of a group. -/
def moved (writes : List α) (write : α) (group : γ) : ℤ :=
  B.held write group - B.heldBefore writes write group

/-- The holding at the end of a period. -/
def closing (opened writes : List α) (period : ℤ) (group : γ) : ℤ :=
  B.holding (opened ++ writes.filter fun write => decide (B.time write ≤ period)) group

/-- The holding at the end of the one before. -/
def opening (opened writes : List α) (period : ℤ) (group : γ) : ℤ :=
  B.holding (opened ++ writes.filter fun write => decide (B.time write < period)) group

/-- By how much the closing holding of a period differs from the one before. -/
def swing (opened writes : List α) (period : ℤ) (group : γ) : ℤ :=
  B.closing opened writes period group - B.opening opened writes period group

variable {B} {opened writes : List α} {write : α} {group : γ} {period : ℤ}

theorem lastWrites_snoc :
    B.lastWrites (writes ++ [write]) = (B.lastWrites writes).upsert write := by
  simp [lastWrites]

/-- **One write more.** -/
theorem holding_snoc :
    B.holding (writes ++ [write]) group =
      B.holding writes group + B.moved writes write group := by
  have hbefore : B.holding writes group = B.heldBefore writes write group +
      (((B.lastWrites writes).remove (B.account write)).rows.map fun w => B.held w group).sum := by
    unfold holding heldBefore
    cases hlast : (B.lastWrites writes).get? (B.account write) with
    | none => simp [Table.remove_of_get?_none hlast]
    | some last =>
        obtain ⟨hmem, hkey⟩ := Table.mem_of_get? hlast
        have hperm := Table.perm_cons_filter (B.lastWrites writes).distinct hmem
        rw [(hperm.map fun w => B.held w group).sum_eq, hkey]
        simp [Table.remove]
  have hafter : B.holding (writes ++ [write]) group = B.held write group +
      (((B.lastWrites writes).remove (B.account write)).rows.map fun w => B.held w group).sum := by
    unfold holding
    rw [lastWrites_snoc,
      ((Table.upsert_perm (B.lastWrites writes) write).map fun w => B.held w group).sum_eq]
    simp
  unfold moved
  omega

@[simp] theorem swing_nil : B.swing opened [] period group = 0 := by
  simp [swing, closing, opening]

/-- The closing holding, one write later. -/
theorem closing_snoc (hlast : ∀ w ∈ writes, B.time w ≤ B.time write) :
    B.closing opened (writes ++ [write]) period group = B.closing opened writes period group +
      if B.time write ≤ period then B.moved (opened ++ writes) write group else 0 := by
  unfold closing
  rw [List.filter_append]
  split_ifs with hperiod
  · have hall : (writes.filter fun w => decide (B.time w ≤ period)) = writes := by
      rw [List.filter_eq_self]
      intro w hw
      exact decide_eq_true (le_trans (hlast w hw) hperiod)
    rw [hall, List.filter_cons_of_pos (by simpa using hperiod), List.filter_nil,
      ← List.append_assoc, holding_snoc]
  · rw [List.filter_cons_of_neg (by simpa using hperiod), List.filter_nil]
    simp

/-- The opening one. -/
theorem opening_snoc (hlast : ∀ w ∈ writes, B.time w ≤ B.time write) :
    B.opening opened (writes ++ [write]) period group = B.opening opened writes period group +
      if B.time write < period then B.moved (opened ++ writes) write group else 0 := by
  have hshift : ∀ ws, B.opening opened ws period group =
      B.closing opened ws (period - 1) group := by
    intro ws
    simp only [opening, closing, Int.le_sub_one_iff]
  rw [hshift, hshift, closing_snoc hlast]
  simp only [Int.le_sub_one_iff]

/-- **The swing of a period, one write later.** -/
theorem swing_snoc (hlast : ∀ w ∈ writes, B.time w ≤ B.time write) :
    B.swing opened (writes ++ [write]) period group = B.swing opened writes period group +
      if B.time write = period then B.moved (opened ++ writes) write group else 0 := by
  unfold swing
  rw [closing_snoc hlast, opening_snoc hlast]
  split_ifs <;> omega

end Books

end AatsSniper

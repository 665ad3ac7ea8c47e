/-
# A bounded set that forgets its least recently used key

An ordered dict of keys, the least recently used first: a key that is there moves to the end,
a new one is appended, and past the capacity the first is dropped (`touch`).

What it holds after a history of touches is a function of the history: the last `capacity` of
its distinct keys, in the order of their last touch (`touchAll_eq_rtake`).  So a key is
held exactly when it was touched, and fewer than `capacity` other keys since (`Recent`,
`mem_touchAll_iff`); where all the keys fit, that is always (`recent_of_few`).
-/

import Mathlib.Data.Finset.Card
import Mathlib.Data.List.Dedup
import Mathlib.Data.List.DropRight

namespace AatsSniper
namespace Lru

variable {κ : Type}

/-- The last `n` of a list that ends in `n` given ones. -/
theorem rtake_append_of_length {xs ys : List κ} {n : ℕ} (h : ys.length = n) :
    (xs ++ ys).rtake n = ys := by
  rw [List.rtake, List.length_append, h, Nat.add_sub_cancel, List.drop_left]

theorem rtake_of_length_le {xs : List κ} {n : ℕ} (h : xs.length ≤ n) : xs.rtake n = xs := by
  rw [List.rtake, Nat.sub_eq_zero_of_le h, List.drop_zero]

/-- A list is its last `n` after the others; there are others only where these are `n`. -/
theorem exists_eq_append_rtake (xs : List κ) (n : ℕ) :
    ∃ front, xs = front ++ xs.rtake n ∧ (xs.rtake n).length ≤ n ∧
      ((xs.rtake n).length < n → front = []) := by
  refine ⟨xs.take (xs.length - n), (List.take_append_drop _ _).symm, ?_, ?_⟩
  · rw [List.rtake, List.length_drop]
    omega
  · intro hlt
    rw [List.rtake, List.length_drop] at hlt
    rw [Nat.sub_eq_zero_of_le (by omega), List.take_zero]

/-- A key is among the last `n` where fewer than `n` stand after it. -/
theorem mem_rtake_iff {front rest : List κ} {k : κ} {n : ℕ} (hnodup : (front ++ k :: rest).Nodup) :
    k ∈ (front ++ k :: rest).rtake n ↔ rest.length < n := by
  have hrest : k ∉ rest := by
    have := (List.nodup_append.1 hnodup).2.1
    exact (List.nodup_cons.1 this).1
  rw [List.rtake, List.length_append, List.length_cons]
  by_cases hlt : rest.length < n
  · have hle : front.length + (rest.length + 1) - n ≤ front.length := by omega
    rw [List.drop_append_of_le_length hle]
    simp [hlt]
  · obtain ⟨m, hm⟩ : ∃ m, front.length + (rest.length + 1) - n = front.length + (m + 1) :=
      ⟨rest.length - n, by omega⟩
    rw [hm, List.drop_length_add_append, List.drop_succ_cons]
    simp only [hlt, iff_false]
    exact fun h => hrest (List.mem_of_mem_drop h)

/-- A key that was used has a last use. -/
theorem exists_last_use {history : List κ} {k : κ} (h : k ∈ history) :
    ∃ earlier later, history = earlier ++ k :: later ∧ k ∉ later := by
  obtain ⟨later, earlier, hsplit, hlater⟩ := List.eq_append_cons_of_mem (List.mem_reverse.2 h)
  refine ⟨earlier.reverse, later.reverse, ?_, fun hmem => hlater (List.mem_reverse.1 hmem)⟩
  rw [← List.reverse_reverse history, hsplit]
  simp

variable [DecidableEq κ]

/-- Use a key: move it to the end, or append it and drop the first past the capacity. -/
def touch (capacity : ℕ) (held : List κ) (k : κ) : List κ :=
  if k ∈ held then held.erase k ++ [k]
  else if capacity < (held ++ [k]).length then (held ++ [k]).tail
  else held ++ [k]

/-- What a history of uses leaves. -/
def touchAll (capacity : ℕ) (history : List κ) : List κ := history.foldl (touch capacity) []

theorem touchAll_snoc (capacity : ℕ) (history : List κ) (k : κ) :
    touchAll capacity (history ++ [k]) = touch capacity (touchAll capacity history) k :=
  List.foldl_concat ..

/-- The key was used, and fewer than `capacity` other keys since its last use. -/
def Recent (capacity : ℕ) (history : List κ) (k : κ) : Prop :=
  ∃ earlier later, history = earlier ++ k :: later ∧ k ∉ later ∧ later.toFinset.card < capacity

/-- A use makes its key the last one. -/
theorem dedup_snoc (history : List κ) (k : κ) :
    (history ++ [k]).dedup = history.dedup.erase k ++ [k] := by
  induction history with
  | nil => simp
  | cons a history ih =>
      rw [List.cons_append, List.dedup_cons, List.dedup_cons, ih]
      by_cases hak : a = k
      · subst hak
        have hmem : a ∈ history ++ [a] := by simp
        rw [if_pos hmem]
        by_cases ha : a ∈ history
        · rw [if_pos ha]
        · have hgone : a ∉ history.dedup := fun h => ha (List.mem_dedup.1 h)
          rw [if_neg ha, List.erase_cons_head, List.erase_of_not_mem hgone]
      · by_cases ha : a ∈ history
        · have hmem : a ∈ history ++ [k] := List.mem_append_left _ ha
          rw [if_pos ha, if_pos hmem]
        · have hmem : a ∉ history ++ [k] := by simp [ha, hak]
          rw [if_neg ha, if_neg hmem, List.erase_cons_tail (by simpa using hak), List.cons_append]

/-- A use of the last `capacity` keys leaves the last `capacity` keys. -/
theorem touch_rtake {distinct : List κ} (hnodup : distinct.Nodup) (capacity : ℕ) (k : κ) :
    touch capacity (distinct.rtake capacity) k = (distinct.erase k ++ [k]).rtake capacity := by
  obtain ⟨front, hsplit, hle, hshort⟩ := exists_eq_append_rtake distinct capacity
  generalize distinct.rtake capacity = held at hsplit hle hshort
  subst hsplit
  unfold touch
  by_cases hheld : k ∈ held
  · -- the key moves within what is held
    have hfront : k ∉ front := fun h => (List.disjoint_of_nodup_append hnodup) h hheld
    have hlength : (held.erase k ++ [k]).length = held.length := by
      rw [List.length_append, List.length_erase_of_mem hheld, List.length_singleton,
        Nat.sub_add_cancel (List.length_pos_of_mem hheld)]
    rw [if_pos hheld, List.erase_append_right _ hfront, List.append_assoc]
    rcases Nat.lt_or_eq_of_le hle with hlt | heq
    · rw [hshort hlt, List.nil_append, rtake_of_length_le (hlength.trans_le hle)]
    · exact (rtake_append_of_length (hlength.trans heq)).symm
  · have herase : (front ++ held).erase k = front.erase k ++ held := by
      by_cases hfront : k ∈ front
      · exact List.erase_append_left _ hfront
      · rw [List.erase_append_right _ hfront, List.erase_of_not_mem hheld,
          List.erase_of_not_mem hfront]
    rw [if_neg hheld, herase, List.append_assoc]
    rcases Nat.lt_or_eq_of_le hle with hlt | heq
    · -- there is room for it
      have hroom : (held ++ [k]).length ≤ capacity := by
        rw [List.length_append, List.length_singleton]
        exact hlt
      rw [if_neg (Nat.not_lt_of_le hroom), hshort hlt, List.erase_nil, List.nil_append,
        rtake_of_length_le hroom]
    · -- the oldest of what is held goes
      have hfull : capacity < (held ++ [k]).length := by
        rw [List.length_append, List.length_singleton, heq]
        exact Nat.lt_succ_self _
      rw [if_pos hfull]
      cases held with
      | nil =>
          obtain rfl : 0 = capacity := heq
          rw [List.rtake_zero]
          rfl
      | cons oldest held =>
          have htail : (held ++ [k]).length = capacity := by
            rw [List.length_append, List.length_singleton, ← heq, List.length_cons]
          have hsplit : front.erase k ++ (oldest :: held ++ [k]) =
              (front.erase k ++ [oldest]) ++ (held ++ [k]) := by
            rw [List.append_assoc, List.cons_append, List.singleton_append]
          rw [hsplit, rtake_append_of_length htail]
          rfl

/-- **What is held is the last `capacity` distinct keys, by last use.** -/
theorem touchAll_eq_rtake (capacity : ℕ) (history : List κ) :
    touchAll capacity history = history.dedup.rtake capacity := by
  induction history using List.reverseRecOn with
  | nil => simp [touchAll]
  | append_singleton history k ih =>
      rw [touchAll_snoc, ih, dedup_snoc, touch_rtake (List.nodup_dedup history)]

/-- The distinct keys since a last use stand at the end. -/
theorem exists_dedup_eq (earlier : List κ) {later : List κ} {k : κ} (h : k ∉ later) :
    ∃ front, (earlier ++ k :: later).dedup = front ++ k :: later.dedup := by
  have hcons : (k :: later).dedup = k :: later.dedup := List.dedup_cons_of_notMem h
  rw [List.dedup_append, hcons]
  obtain ⟨front, hfront⟩ := List.suffix_union_right earlier (k :: later.dedup)
  exact ⟨front, hfront.symm⟩

/-- **A key is held where it was used, and fewer than `capacity` other keys since.** -/
theorem mem_touchAll_iff {capacity : ℕ} {history : List κ} {k : κ} :
    k ∈ touchAll capacity history ↔ Recent capacity history k := by
  rw [touchAll_eq_rtake]
  constructor
  · intro hheld
    have hmem : k ∈ history := List.mem_dedup.1 (List.mem_of_mem_drop hheld)
    obtain ⟨earlier, later, rfl, hlater⟩ := exists_last_use hmem
    obtain ⟨front, hfront⟩ := exists_dedup_eq earlier hlater
    have hnodup := List.nodup_dedup (earlier ++ k :: later)
    rw [hfront] at hnodup hheld
    refine ⟨earlier, later, rfl, hlater, ?_⟩
    rw [List.card_toFinset]
    exact (mem_rtake_iff hnodup).1 hheld
  · rintro ⟨earlier, later, rfl, hlater, hcard⟩
    obtain ⟨front, hfront⟩ := exists_dedup_eq earlier hlater
    have hnodup := List.nodup_dedup (earlier ++ k :: later)
    rw [hfront] at hnodup ⊢
    rw [mem_rtake_iff hnodup, ← List.card_toFinset]
    exact hcard

/-- A recent key was used. -/
theorem Recent.mem {capacity : ℕ} {history : List κ} {k : κ} (h : Recent capacity history k) :
    k ∈ history := by
  obtain ⟨earlier, later, rfl, -, -⟩ := h
  exact List.mem_append_right _ List.mem_cons_self

/-- Where there are no more keys than there is room for, every key is recent. -/
theorem recent_of_few {capacity : ℕ} {history : List κ} {k : κ} (h : k ∈ history)
    (hfew : history.toFinset.card ≤ capacity) : Recent capacity history k := by
  obtain ⟨earlier, later, rfl, hlater⟩ := exists_last_use h
  refine ⟨earlier, later, rfl, hlater, lt_of_lt_of_le ?_ hfew⟩
  have hk : k ∉ later.toFinset := fun hmem => hlater (List.mem_toFinset.1 hmem)
  refine Finset.card_lt_card ((Finset.ssubset_insert hk).trans_subset fun x hx => ?_)
  rcases Finset.mem_insert.1 hx with rfl | hx
  · exact List.mem_toFinset.2 h
  · exact List.mem_toFinset.2
      (List.mem_append_right _ (List.mem_cons_of_mem _ (List.mem_toFinset.1 hx)))

end Lru
end AatsSniper

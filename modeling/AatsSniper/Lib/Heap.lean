/-
# Priority queues

A `heapq` heap, as its elements in ascending order of their keys: `heap[0]` is the head, a
push inserts, and popping while the head is due takes the due elements off the
front: `not_due_of_mem_dropWhile` says that none is left behind.
-/

import AatsSniper.Lib.Sort

namespace AatsSniper

variable {α κ : Type*} [LinearOrder κ]

/-- `heapq.heappush(heap, a)`. -/
def heapPush (key : α → κ) (heap : List α) (a : α) : List α :=
  heap.orderedInsert (fun a b => key a ≤ key b) a

theorem heapPush_perm (key : α → κ) (heap : List α) (a : α) :
    (heapPush key heap a).Perm (a :: heap) :=
  List.perm_orderedInsert _ a heap

/-- **A push keeps the heap in order.** -/
theorem pairwise_heapPush {key : α → κ} {heap : List α} {a : α}
    (h : heap.Pairwise fun a b => key a ≤ key b) :
    (heapPush key heap a).Pairwise fun a b => key a ≤ key b := by
  have : Std.Total fun a b : α => key a ≤ key b := ⟨fun a b => le_total (key a) (key b)⟩
  have : IsTrans α fun a b => key a ≤ key b := ⟨fun _ _ _ => le_trans⟩
  exact List.Pairwise.orderedInsert a heap h

variable {R : α → α → Prop} {due : α → Bool} {heap : List α}

/-- What stays behind the due front of an ordered list is not due. -/
theorem not_due_of_mem_dropWhile (h : heap.Pairwise R)
    (hdue : ∀ a b, R a b → due b = true → due a = true) {a : α}
    (ha : a ∈ heap.dropWhile due) : due a = false := by
  induction heap with
  | nil => cases ha
  | cons b heap ih =>
      rw [List.pairwise_cons] at h
      by_cases hb : due b = true
      · rw [List.dropWhile_cons_of_pos hb] at ha
        exact ih h.2 ha
      · rw [List.dropWhile_cons_of_neg hb] at ha
        rcases List.mem_cons.1 ha with rfl | ha
        · exact Bool.eq_false_iff.2 hb
        · exact Bool.eq_false_iff.2 fun hdue' => hb (hdue b a (h.1 a ha) hdue')

end AatsSniper

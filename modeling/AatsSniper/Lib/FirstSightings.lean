/-
# The first sighting of every key, in the order of their times

A bucket that keeps the first sighting of every key it is given and inserts it where
`bisect_left` finds its time.  The bucket is ascending, so the sightings before a time
are the ones `bisect_left` counts; and it holds exactly the first sightings given
(`FirstSightings.Holds`).

A sighting given first hides the others of its key: `hiddenBefore` are the keys seen before a
time whose first sighting is not.  What is visible and what is hidden before a time come
to the keys seen before it, whatever came at or after (`perm_visible_hidden`).
-/

import AatsSniper.Lib.Heap
import AatsSniper.Lib.Seen
import Mathlib.Data.List.Dedup
import Mathlib.Data.List.Induction
import Mathlib.Data.List.TakeWhile
import Mathlib.Tactic.Linarith

namespace AatsSniper

variable {σ κ : Type} {time : σ → ℕ}

/-- `bisect.bisect_left(times, t)`, where the times ascend. -/
def bisectLeft (times : List ℕ) (t : ℕ) : ℕ := (times.takeWhile fun x => decide (x < t)).length

/-- `bucket.insert(bisect_left(times, time), s)`. -/
def insertByTime (time : σ → ℕ) (bucket : List σ) (s : σ) : List σ :=
  bucket.insertIdx (bisectLeft (bucket.map time) (time s)) s

/-- The times ascend. -/
def Ascending (time : σ → ℕ) (bucket : List σ) : Prop :=
  bucket.Pairwise fun a b => time a ≤ time b

theorem bisectLeft_map (bucket : List σ) (t : ℕ) :
    bisectLeft (bucket.map time) t = (bucket.takeWhile fun s => decide (time s < t)).length := by
  rw [bisectLeft, List.takeWhile_map, List.length_map]
  rfl

/-- The sightings before a time come first. -/
theorem takeWhile_eq_filter {bucket : List σ} (h : Ascending time bucket) (t : ℕ) :
    (bucket.takeWhile fun s => decide (time s < t)) =
      bucket.filter fun s => decide (time s < t) := by
  induction bucket with
  | nil => rfl
  | cons s bucket ih =>
      obtain ⟨hle, hrest⟩ := List.pairwise_cons.1 h
      by_cases hs : time s < t
      · rw [List.takeWhile_cons_of_pos (by simpa using hs),
          List.filter_cons_of_pos (by simpa using hs), ih hrest]
      · rw [List.takeWhile_cons_of_neg (by simpa using hs),
          List.filter_cons_of_neg (by simpa using hs), eq_comm, List.filter_eq_nil_iff]
        intro b hb
        have := hle b hb
        simp only [decide_eq_true_eq]
        omega

/-- The insertion of an ordered list. -/
theorem insertByTime_eq (bucket : List σ) (s : σ) :
    insertByTime time bucket s = heapPush time bucket s := by
  rw [insertByTime, bisectLeft_map, heapPush]
  induction bucket with
  | nil => rfl
  | cons b bucket ih =>
      by_cases hb : time b < time s
      · rw [List.takeWhile_cons_of_pos (by simpa using hb), List.length_cons,
          List.insertIdx_succ_cons, ih, List.orderedInsert_cons, if_neg (by omega)]
      · rw [List.takeWhile_cons_of_neg (by simpa using hb), List.length_nil,
          List.insertIdx_zero, List.orderedInsert_cons, if_pos (by omega)]

/-- The bucket after the sightings given. -/
def sortedByTime (time : σ → ℕ) (given : List σ) : List σ := given.foldl (insertByTime time) []

theorem sortedByTime_snoc (given : List σ) (s : σ) :
    sortedByTime time (given ++ [s]) = insertByTime time (sortedByTime time given) s := by
  rw [sortedByTime, List.foldl_append]
  rfl

theorem perm_sortedByTime (given : List σ) : (sortedByTime time given).Perm given := by
  induction given using List.reverseRecOn with
  | nil => exact List.Perm.refl _
  | append_singleton given s ih =>
      rw [sortedByTime_snoc, insertByTime_eq]
      exact ((heapPush_perm time _ s).trans (ih.cons s)).trans (List.perm_append_singleton s _).symm

theorem ascending_sortedByTime (given : List σ) : Ascending time (sortedByTime time given) := by
  induction given using List.reverseRecOn with
  | nil => exact List.Pairwise.nil
  | append_singleton given s ih =>
      rw [sortedByTime_snoc, insertByTime_eq]
      exact pairwise_heapPush ih

variable (time) in
/-- The last sighting given comes before the others of its time. -/
theorem sortedByTime_snoc_eq (given : List σ) (s : σ) : ∃ xs ys,
    sortedByTime time (given ++ [s]) = xs ++ s :: ys ∧
      ∀ x ∈ xs, x ∈ given ∧ time x < time s := by
  rw [sortedByTime_snoc, insertByTime_eq, heapPush, List.orderedInsert_eq_take_drop]
  refine ⟨_, _, rfl, fun x hx => ⟨?_, ?_⟩⟩
  · exact (perm_sortedByTime given).mem_iff.1 ((List.takeWhile_prefix _).mem hx)
  · have := List.mem_takeWhile_imp hx
    simpa using this

theorem take_bisectLeft {bucket : List σ} (h : Ascending time bucket) (t : ℕ) :
    bucket.take (bisectLeft (bucket.map time) t) =
      bucket.filter fun s => decide (time s < t) := by
  rw [bisectLeft_map, ← List.prefix_iff_eq_take.1 (List.takeWhile_prefix _),
    takeWhile_eq_filter h]

/-- The sightings of a bucket before a time. -/
theorem mem_take_sortedByTime {s : σ} {given : List σ} {t : ℕ} :
    s ∈ (sortedByTime time given).take (bisectLeft ((sortedByTime time given).map time) t) ↔
      s ∈ given ∧ time s < t := by
  rw [take_bisectLeft (ascending_sortedByTime given), List.mem_filter, decide_eq_true_eq,
    (perm_sortedByTime given).mem_iff]

variable [DecidableEq κ]

/-- In an ascending list the first sighting of a key has its least time. -/
theorem Ascending.time_le_of_mem_firstsBy {key : σ → κ} {bucket : List σ} {a b : σ}
    (h : Ascending time bucket) (ha : a ∈ firstsBy key bucket) (hb : b ∈ bucket)
    (hkey : key b = key a) : time a ≤ time b := by
  obtain ⟨xs, ys, rfl, hxs⟩ := mem_firstsBy_iff.1 ha
  rcases List.mem_append.1 hb with hb | hb
  · exact absurd hkey (hxs b hb)
  rcases List.mem_cons.1 hb with rfl | hb
  · exact le_rfl
  · exact (List.pairwise_cons.1 (List.pairwise_append.1 h).2.1).1 b hb

/-- **The last sighting given is the first of its key** before a time, where the others of
its key there are no earlier. -/
theorem mem_firstsBy_take_snoc {key : σ → κ} {given : List σ} {s : σ} {t : ℕ} (hs : time s < t)
    (hleast : ∀ b ∈ given, time b < t → key b = key s → time s ≤ time b) :
    s ∈ firstsBy key ((sortedByTime time (given ++ [s])).take
      (bisectLeft ((sortedByTime time (given ++ [s])).map time) t)) := by
  rw [take_bisectLeft (ascending_sortedByTime _)]
  obtain ⟨xs, ys, heq, hxs⟩ := sortedByTime_snoc_eq time given s
  rw [heq, List.filter_append, List.filter_cons_of_pos (by simpa using hs)]
  refine mem_firstsBy_iff.2 ⟨_, _, rfl, fun x hx hkey => ?_⟩
  obtain ⟨hx, hxt⟩ := List.mem_filter.1 hx
  obtain ⟨hgiven, hlt⟩ := hxs x hx
  exact absurd hlt (not_lt.2 (hleast x hgiven (of_decide_eq_true hxt) hkey))

/-- The keys seen, and the first sighting of each. -/
structure FirstSightings (σ κ : Type) where
  seen : List κ := []
  bucket : List σ := []

/-- A sighting is kept unless its key was seen. -/
def FirstSightings.record (key : σ → κ) (time : σ → ℕ) (f : FirstSightings σ κ) (s : σ) :
    FirstSightings σ κ :=
  if key s ∈ f.seen then f
  else { seen := f.seen ++ [key s], bucket := insertByTime time f.bucket s }

/-- The bucket holds the first sightings, ascending. -/
structure FirstSightings.Holds (key : σ → κ) (time : σ → ℕ) (f : FirstSightings σ κ)
    (given : List σ) : Prop where
  seen : f.seen = (firstsBy key given).map key
  perm : f.bucket.Perm (firstsBy key given)
  ascending : Ascending time f.bucket

variable {key : σ → κ} {f : FirstSightings σ κ} {given given' : List σ} {t : ℕ}

theorem holds_empty : ({} : FirstSightings σ κ).Holds key time [] :=
  ⟨rfl, List.Perm.refl _, List.Pairwise.nil⟩

theorem map_firstsBy_mem_iff {k : κ} : k ∈ (firstsBy key given).map key ↔ k ∈ given.map key := by
  constructor
  · intro h
    obtain ⟨s, hs, rfl⟩ := List.mem_map.1 h
    exact List.mem_map.2 ⟨s, mem_of_mem_firstsBy hs, rfl⟩
  · intro h
    obtain ⟨s, hs, rfl⟩ := List.mem_map.1 h
    obtain ⟨b, hb, hkey⟩ := show ∃ b ∈ firstsBy key given, key b = key s from exists_mem_firstsBy hs
    exact List.mem_map.2 ⟨b, hb, hkey⟩

/-- **One sighting more.** -/
theorem FirstSightings.Holds.record (h : f.Holds key time given) (s : σ) :
    (f.record key time s).Holds key time (given ++ [s]) := by
  unfold FirstSightings.record
  have hseen : key s ∈ f.seen ↔ key s ∈ given.map key := by
    rw [h.seen, map_firstsBy_mem_iff]
  by_cases hmem : key s ∈ given.map key
  · rw [if_pos (hseen.2 hmem)]
    have hfirsts : firstsBy key (given ++ [s]) = firstsBy key given := by
      rw [firstsBy_snoc, if_pos hmem]
    exact ⟨hfirsts ▸ h.seen, hfirsts ▸ h.perm, h.ascending⟩
  · rw [if_neg fun hs => hmem (hseen.1 hs)]
    have hfirsts : firstsBy key (given ++ [s]) = firstsBy key given ++ [s] := by
      rw [firstsBy_snoc, if_neg hmem]
    refine ⟨?_, ?_, ?_⟩
    · rw [hfirsts, List.map_append, h.seen]
      rfl
    · rw [hfirsts, insertByTime_eq]
      refine (heapPush_perm time f.bucket s).trans ((h.perm.cons s).trans ?_)
      exact (List.perm_append_singleton s _).symm
    · rw [insertByTime_eq]
      exact pairwise_heapPush h.ascending

/-- The sightings before a time, of those kept. -/
def visibleBefore (key : σ → κ) (time : σ → ℕ) (t : ℕ) (given : List σ) : List σ :=
  (firstsBy key given).filter fun s => decide (time s < t)

/-- The first sightings that hide a sighting before the time. -/
def hiddenBefore (key : σ → κ) (time : σ → ℕ) (t : ℕ) (given : List σ) : List σ :=
  (firstsBy key given).filter fun s =>
    decide (t ≤ time s) && given.any fun b => decide (key b = key s ∧ time b < t)

/-- What `bisect_left` counts. -/
theorem FirstSightings.Holds.bisectLeft (h : f.Holds key time given) (t : ℕ) :
    bisectLeft (f.bucket.map time) t = (visibleBefore key time t given).length := by
  rw [bisectLeft_map, takeWhile_eq_filter h.ascending]
  exact (h.perm.filter _).length_eq

/-- The bucket up to there. -/
theorem FirstSightings.Holds.mem_take (h : f.Holds key time given) {s : σ} :
    s ∈ f.bucket.take (AatsSniper.bisectLeft (f.bucket.map time) t) ↔
      s ∈ visibleBefore key time t given := by
  rw [take_bisectLeft h.ascending]
  exact (h.perm.filter _).mem_iff

theorem mem_visibleBefore {s : σ} : s ∈ visibleBefore key time t given ↔
    s ∈ firstsBy key given ∧ time s < t := by
  simp [visibleBefore]

theorem mem_hiddenBefore {s : σ} : s ∈ hiddenBefore key time t given ↔
    s ∈ firstsBy key given ∧ t ≤ time s ∧ ∃ b ∈ given, key b = key s ∧ time b < t := by
  simp [hiddenBefore]

variable (key) in
/-- A sighting before the time is visible or hidden, by its key. -/
theorem visible_or_hidden {b : σ} (hb : b ∈ given) (ht : time b < t) :
    (∃ s ∈ visibleBefore key time t given, key s = key b) ∨
      ∃ s ∈ hiddenBefore key time t given, key s = key b := by
  obtain ⟨s, hs, hkey⟩ : ∃ s ∈ firstsBy key given, key s = key b := exists_mem_firstsBy hb
  by_cases hst : time s < t
  · exact .inl ⟨s, mem_visibleBefore.2 ⟨hs, hst⟩, hkey⟩
  · exact .inr ⟨s, mem_hiddenBefore.2 ⟨hs, not_lt.1 hst, b, hb, hkey.symm, ht⟩, hkey⟩

/-- A key is not both. -/
theorem key_ne_of_visible_hidden {a b : σ} (ha : a ∈ visibleBefore key time t given)
    (hb : b ∈ hiddenBefore key time t given) : key a ≠ key b := by
  intro hkey
  obtain ⟨ha, hat⟩ := mem_visibleBefore.1 ha
  obtain ⟨hb, hbt, -⟩ := mem_hiddenBefore.1 hb
  obtain rfl := List.inj_on_of_nodup_map nodup_firstsBy ha hb hkey
  omega

variable (time key given t) in
/-- **What is visible and what is hidden come to the keys before the time.** -/
theorem perm_visible_hidden : ((visibleBefore key time t given ++
    hiddenBefore key time t given).map key).Perm
      ((given.filter fun s => decide (time s < t)).map key).dedup := by
  have hnodup : ∀ p : σ → Bool, (((firstsBy key given).filter p).map key).Nodup :=
    fun p => (List.filter_sublist.map key).nodup nodup_firstsBy
  rw [List.map_append]
  refine (List.perm_ext_iff_of_nodup (List.nodup_append.2 ⟨hnodup _, hnodup _, ?_⟩)
    (List.nodup_dedup _)).2 fun k => ?_
  · rintro k hk k' hk' rfl
    obtain ⟨a, ha, rfl⟩ := List.mem_map.1 hk
    obtain ⟨b, hb, hkey⟩ := List.mem_map.1 hk'
    exact key_ne_of_visible_hidden ha hb hkey.symm
  · rw [List.mem_append, List.mem_dedup]
    constructor
    · rintro (hk | hk)
      · obtain ⟨s, hs, rfl⟩ := List.mem_map.1 hk
        obtain ⟨hs, hst⟩ := mem_visibleBefore.1 hs
        have hgiven := mem_of_mem_firstsBy hs
        exact List.mem_map.2 ⟨s, List.mem_filter.2 ⟨hgiven, decide_eq_true hst⟩, rfl⟩
      · obtain ⟨s, hs, rfl⟩ := List.mem_map.1 hk
        obtain ⟨-, -, b, hb, hkey, hbt⟩ := mem_hiddenBefore.1 hs
        exact List.mem_map.2 ⟨b, List.mem_filter.2 ⟨hb, decide_eq_true hbt⟩, hkey⟩
    · intro hk
      obtain ⟨b, hb, rfl⟩ := List.mem_map.1 hk
      obtain ⟨hb, hbt⟩ := List.mem_filter.1 hb
      refine (visible_or_hidden key hb (of_decide_eq_true hbt)).imp ?_ ?_
      · rintro ⟨s, hs, hkey⟩
        exact List.mem_map.2 ⟨s, hs, hkey⟩
      · rintro ⟨s, hs, hkey⟩
        exact List.mem_map.2 ⟨s, hs, hkey⟩

/-- The same sightings before the time. -/
def SamePast (time : σ → ℕ) (t : ℕ) (given given' : List σ) : Prop :=
  ∀ s, time s < t → (s ∈ given ↔ s ∈ given')

/-- With the same past, as much is visible iff as much is hidden. -/
theorem length_visible_eq_iff (h : SamePast time t given given') :
    (visibleBefore key time t given).length = (visibleBefore key time t given').length ↔
      (hiddenBefore key time t given).length = (hiddenBefore key time t given').length := by
  have hpast : ∀ k, k ∈ (given.filter fun s => decide (time s < t)).map key ↔
      k ∈ (given'.filter fun s => decide (time s < t)).map key := by
    intro k
    simp only [List.mem_map, List.mem_filter, decide_eq_true_eq]
    exact exists_congr fun s => and_congr_left fun _ => and_congr_left fun ht => h s ht
  have hdedup : ((given.filter fun s => decide (time s < t)).map key).dedup.Perm
      ((given'.filter fun s => decide (time s < t)).map key).dedup :=
    (List.perm_ext_iff_of_nodup (List.nodup_dedup _) (List.nodup_dedup _)).2
      fun k => (List.mem_dedup.trans (hpast k)).trans List.mem_dedup.symm
  have hsum := ((perm_visible_hidden time key given t).trans
    (hdedup.trans (perm_visible_hidden time key given' t).symm)).length_eq
  simp only [List.length_map, List.length_append] at hsum
  omega

end AatsSniper

/-
# Purged and embargoed walk-forward folds

`build_purged_embargoed_folds` of `aats/backtest/licensing.py`, and the assertion
`walk_forward_licensing` makes about its result.

The corpus is sorted by event time, ties by index, and cut by count into contiguous
chunks.  A member of a chunk is embargoed when its event time is within `embargo`
of the previous fold's end, and purged when its label horizon passes its own fold's
end.  Each fold looks at the fold before it only.

`Cutting.Sound` is what the loop keeps: the ends of the folds ascend, so a gap to the
fold before is a gap to every earlier one.
-/

import AatsSniper.Lib.Run
import AatsSniper.Lib.Sort
import Mathlib.Algebra.BigOperators.Group.List.Basic
import Mathlib.Algebra.Order.Ring.Nat
import Mathlib.Algebra.Order.Group.Unbundled.Int
import Mathlib.Tactic.Ring

namespace AatsSniper
namespace Backtest

/-- What the walk-forward raises. -/
inductive LicensingError
  | misaligned (eventTimes labelHorizonEnds : ℕ)
  | nFolds (got : ℤ)
  | indexError
  | purgeLeak (windowId i : ℕ)
  deriving DecidableEq

/-- The two aligned sequences the folds are cut from. -/
structure AlignedTimes where
  eventTimes : List ℤ
  labelHorizonEnds : List ℤ
  aligned : labelHorizonEnds.length = eventTimes.length

namespace AlignedTimes

/-- `n`. -/
def size (c : AlignedTimes) : ℕ := c.eventTimes.length

/-- `event_times[i]`: only members of `range(n)` are looked up. -/
def eventTime (c : AlignedTimes) (i : ℕ) : ℤ := c.eventTimes.getD i 0

/-- `label_horizon_ends[i]`. -/
def labelHorizonEnd (c : AlignedTimes) (i : ℕ) : ℤ := c.labelHorizonEnds.getD i 0

/-- `order`. -/
def order (c : AlignedTimes) : List ℕ :=
  sortBy (fun i => toLex (c.eventTime i, i)) (List.range c.size)

end AlignedTimes

/-- `WalkForwardFold`. -/
structure WalkForwardFold where
  windowId : ℕ
  testIdx : List ℕ
  testStartTime : ℤ
  testEndTime : ℤ
  nRaw : ℕ
  nPurged : ℕ
  nEmbargoed : ℕ
  embargo : ℤ
  deriving DecidableEq

/-- The members a fold accounts for. -/
def WalkForwardFold.members (fold : WalkForwardFold) : ℕ :=
  fold.testIdx.length + fold.nPurged + fold.nEmbargoed

/-! ### One chunk -/

/-- The two guards of the inner loop, in their order. -/
inductive Guard
  | keep
  | purge
  | embargo
  deriving DecidableEq

/-- The guard that decides on member `i`. -/
def AlignedTimes.guard (c : AlignedTimes) (prevTestEnd : Option ℤ) (embargo tHi : ℤ) (i : ℕ) :
    Guard :=
  if prevTestEnd.any fun prev => c.eventTime i ≤ prev + embargo then .embargo
  else if tHi < c.labelHorizonEnd i then .purge
  else .keep

/-- `kept`, `n_purged` and `n_embargoed`. -/
structure Sifted where
  kept : List ℕ := []
  nPurged : ℕ := 0
  nEmbargoed : ℕ := 0

/-- One turn of the inner loop. -/
def Sifted.add (guard : ℕ → Guard) (s : Sifted) (i : ℕ) : Sifted :=
  match guard i with
  | .embargo => { s with nEmbargoed := s.nEmbargoed + 1 }
  | .purge => { s with nPurged := s.nPurged + 1 }
  | .keep => { s with kept := s.kept ++ [i] }

/-- The inner loop. -/
def sift (guard : ℕ → Guard) (chunk : List ℕ) : Sifted := chunk.foldl (Sifted.add guard) {}

/-! ### The cut -/

/-- The variables of the outer loop. -/
structure Cutting where
  folds : List WalkForwardFold := []
  start : ℕ := 0
  prevTestEnd : Option ℤ := none
  wid : ℕ := 0

/-- `size`: the first `n % n_folds` chunks take one more. -/
def chunkSize (n nFolds f : ℕ) : ℕ := n / nFolds + if f < n % nFolds then 1 else 0

/-- One turn of the outer loop. -/
def Cutting.next (c : AlignedTimes) (nFolds : ℕ) (embargo : ℤ) (cut : Cutting) (f : ℕ) :
    Except LicensingError Cutting :=
  let size := chunkSize c.size nFolds f
  if size = 0 then .ok cut
  else
    let chunk := (c.order.drop cut.start).take size
    match chunk.head?, chunk.getLast? with
    | some first, some last =>
        let tHi := c.eventTime last
        let sifted := sift (c.guard cut.prevTestEnd embargo tHi) chunk
        .ok
          { folds := cut.folds ++
              [{ windowId := cut.wid
                 testIdx := sifted.kept
                 testStartTime := c.eventTime first
                 testEndTime := tHi
                 nRaw := size
                 nPurged := sifted.nPurged
                 nEmbargoed := sifted.nEmbargoed
                 embargo := embargo }]
            start := cut.start + size
            prevTestEnd := some tHi
            wid := cut.wid + 1 }
    | _, _ => .error .indexError

/-- `int(span * embargo_frac)` is `defaultEmbargo span`: a product of floats. -/
def AlignedTimes.embargoOf (c : AlignedTimes) (defaultEmbargo : ℤ → ℤ) (embargo : Option ℤ) : ℤ :=
  max 0 <| embargo.getD <| defaultEmbargo <|
    c.eventTime (c.order.getLastD 0) - c.eventTime (c.order.headD 0)

/-- `build_purged_embargoed_folds(...)`. -/
def buildPurgedEmbargoedFolds (defaultEmbargo : ℤ → ℤ) (eventTimes labelHorizonEnds : List ℤ)
    (nFolds : ℤ) (embargo : Option ℤ) : Except LicensingError (List WalkForwardFold) :=
  if aligned : labelHorizonEnds.length = eventTimes.length then do
    let c : AlignedTimes := ⟨eventTimes, labelHorizonEnds, aligned⟩
    require (1 ≤ nFolds) (.nFolds nFolds)
    if c.size = 0 then return []
    let cut ← runSteps (Cutting.next c nFolds.toNat (c.embargoOf defaultEmbargo embargo)) {}
      (List.range nFolds.toNat)
    return cut.folds
  else .error (.misaligned eventTimes.length labelHorizonEnds.length)

/-- `assert_purge_is_load_bearing(folds, label_horizon_ends)`. -/
def assertPurgeIsLoadBearing (labelHorizonEnds : List ℤ) (folds : List WalkForwardFold) :
    Except LicensingError Unit :=
  folds.forM fun fold => fold.testIdx.forM fun i =>
    require (labelHorizonEnds.getD i 0 ≤ fold.testEndTime) (.purgeLeak fold.windowId i)

/-! ### Sifting a chunk -/

section
variable {guard : ℕ → Guard}

theorem foldl_sifted_kept (s : Sifted) (chunk : List ℕ) :
    (chunk.foldl (Sifted.add guard) s).kept =
      s.kept ++ chunk.filter fun i => guard i = .keep := by
  induction chunk generalizing s with
  | nil => simp
  | cons i chunk ih =>
      rw [List.foldl_cons, ih]
      cases h : guard i <;> simp [Sifted.add, h]

theorem foldl_sifted_total (s : Sifted) (chunk : List ℕ) :
    (chunk.foldl (Sifted.add guard) s).kept.length +
        (chunk.foldl (Sifted.add guard) s).nPurged +
        (chunk.foldl (Sifted.add guard) s).nEmbargoed =
      s.kept.length + s.nPurged + s.nEmbargoed + chunk.length := by
  induction chunk generalizing s with
  | nil => simp
  | cons i chunk ih =>
      rw [List.foldl_cons, ih, List.length_cons]
      cases h : guard i <;> simp [Sifted.add, h] <;> omega

theorem sift_kept (chunk : List ℕ) :
    (sift guard chunk).kept = chunk.filter fun i => guard i = .keep := by
  rw [sift, foldl_sifted_kept, List.nil_append]

theorem sift_total (chunk : List ℕ) :
    (sift guard chunk).kept.length + (sift guard chunk).nPurged + (sift guard chunk).nEmbargoed =
      chunk.length := by
  rw [sift, foldl_sifted_total]
  simp

end

variable {c : AlignedTimes} {prevTestEnd : Option ℤ} {embargo tHi : ℤ} {i : ℕ}

/-- A member is kept when both guards let it pass. -/
theorem AlignedTimes.guard_eq_keep :
    c.guard prevTestEnd embargo tHi i = .keep ↔
      (∀ prev ∈ prevTestEnd, prev + embargo < c.eventTime i) ∧ c.labelHorizonEnd i ≤ tHi := by
  unfold AlignedTimes.guard
  cases prevTestEnd with
  | none => by_cases h : tHi < c.labelHorizonEnd i <;> simp [h]; omega
  | some prev =>
      by_cases he : c.eventTime i ≤ prev + embargo
      · simp [he]
      · by_cases h : tHi < c.labelHorizonEnd i <;> simp [he, h]; omega

/-- **A wider embargo keeps no more.** -/
theorem AlignedTimes.guard_keep_of_wider {wider : ℤ} (hle : embargo ≤ wider)
    (h : c.guard prevTestEnd wider tHi i = .keep) :
    c.guard prevTestEnd embargo tHi i = .keep := by
  rw [AlignedTimes.guard_eq_keep] at h ⊢
  refine ⟨fun prev hprev => ?_, h.2⟩
  have := h.1 prev hprev
  omega

/-! ### The order -/

theorem AlignedTimes.order_length (c : AlignedTimes) : c.order.length = c.size := by
  rw [AlignedTimes.order, length_sortBy, List.length_range]

theorem AlignedTimes.order_nodup (c : AlignedTimes) : c.order.Nodup :=
  nodup_sortBy.2 List.nodup_range

theorem AlignedTimes.lt_of_mem_order (h : i ∈ c.order) : i < c.size := by
  rwa [AlignedTimes.order, mem_sortBy, List.mem_range] at h

theorem AlignedTimes.order_sorted (c : AlignedTimes) :
    c.order.Pairwise fun i j => c.eventTime i ≤ c.eventTime j := by
  refine (pairwise_sortBy _ _).imp fun {i j} h => ?_
  rcases (Prod.Lex.toLex_le_toLex.1 h) with h | h
  · exact h.le
  · exact h.1.le

/-! ### The chunks -/

/-- The members the first `f` chunks cover. -/
def covered (n nFolds f : ℕ) : ℕ := f * (n / nFolds) + min f (n % nFolds)

theorem covered_succ (n nFolds f : ℕ) :
    covered n nFolds (f + 1) = covered n nFolds f + chunkSize n nFolds f := by
  unfold covered chunkSize
  rw [Nat.succ_mul]
  split <;> omega

theorem covered_mono (n nFolds : ℕ) : Monotone (covered n nFolds) :=
  monotone_nat_of_le_succ fun f => by rw [covered_succ]; omega

/-- The chunks cover the corpus. -/
theorem covered_all {n nFolds : ℕ} (h : 0 < nFolds) : covered n nFolds nFolds = n := by
  have hmod : n % nFolds < nFolds := Nat.mod_lt _ h
  have hdiv : nFolds * (n / nFolds) + n % nFolds = n := Nat.div_add_mod n nFolds
  unfold covered
  omega

/-- A chunk, its last member and what is left behind it. -/
theorem AlignedTimes.chunk_spec {start size : ℕ} (hpos : 0 < size) (hle : start + size ≤ c.size) :
    ∃ first last, ((c.order.drop start).take size).head? = some first ∧
      ((c.order.drop start).take size).getLast? = some last ∧
      ((c.order.drop start).take size).length = size ∧
      (∀ prev, (∀ j ∈ c.order.drop start, prev ≤ c.eventTime j) → prev ≤ c.eventTime last) ∧
      ∀ j ∈ c.order.drop (start + size), c.eventTime last ≤ c.eventTime j := by
  set chunk := (c.order.drop start).take size with hchunk
  have hlength : chunk.length = size := by
    rw [hchunk, List.length_take, List.length_drop, c.order_length]
    omega
  have hne : chunk ≠ [] := List.ne_nil_of_length_pos (by omega)
  have hsplit : chunk ++ c.order.drop (start + size) = c.order.drop start := by
    rw [hchunk, ← List.drop_drop, List.take_append_drop]
  have hsorted := c.order_sorted.sublist (List.drop_sublist start c.order)
  rw [← hsplit, List.pairwise_append] at hsorted
  refine ⟨chunk.head hne, chunk.getLast hne, List.head?_eq_some_head hne,
    List.getLast?_eq_some_getLast hne, hlength, fun prev hprev => ?_, fun j hj => ?_⟩
  · refine hprev _ ?_
    rw [← hsplit]
    exact List.mem_append_left _ (List.getLast_mem hne)
  · exact hsorted.2.2 _ (List.getLast_mem hne) j hj

/-! ### What the loop keeps -/

/-- What holds of the variables of the outer loop after `f` turns. -/
structure Cutting.Sound (c : AlignedTimes) (nFolds : ℕ) (embargo : ℤ) (f : ℕ) (cut : Cutting) :
    Prop where
  start_eq : cut.start = covered c.size nFolds f
  taken : (cut.folds.flatMap (·.testIdx)).Sublist (c.order.take cut.start)
  counted : (cut.folds.map (·.members)).sum = cut.start
  purged : ∀ fold ∈ cut.folds, ∀ i ∈ fold.testIdx, c.labelHorizonEnd i ≤ fold.testEndTime
  ended : ∀ fold ∈ cut.folds, ∃ prev, cut.prevTestEnd = some prev ∧ fold.testEndTime ≤ prev
  behind : ∀ prev, cut.prevTestEnd = some prev →
    ∀ j ∈ c.order.drop cut.start, prev ≤ c.eventTime j
  apart : cut.folds.Pairwise fun a b =>
    ∀ j ∈ b.testIdx, a.testEndTime + embargo < c.eventTime j

theorem Cutting.sound_init (c : AlignedTimes) (nFolds : ℕ) (embargo : ℤ) :
    Cutting.Sound c nFolds embargo 0 {} := by
  constructor <;> simp [covered]

/-- A turn that takes a chunk. -/
theorem Cutting.next_of_pos {nFolds f : ℕ} {cut : Cutting}
    (hsound : cut.Sound c nFolds embargo f) (hlt : f < nFolds)
    (hpos : 0 < chunkSize c.size nFolds f) :
    ∃ first last, ∃ chunk, chunk = (c.order.drop cut.start).take (chunkSize c.size nFolds f) ∧
      chunk.length = chunkSize c.size nFolds f ∧
      (∀ prev, cut.prevTestEnd = some prev → prev ≤ c.eventTime last) ∧
      (∀ j ∈ c.order.drop (cut.start + chunkSize c.size nFolds f),
        c.eventTime last ≤ c.eventTime j) ∧
      cut.next c nFolds embargo f = .ok
        { folds := cut.folds ++
            [{ windowId := cut.wid
               testIdx := chunk.filter fun i =>
                c.guard cut.prevTestEnd embargo (c.eventTime last) i = .keep
               testStartTime := c.eventTime first
               testEndTime := c.eventTime last
               nRaw := chunkSize c.size nFolds f
               nPurged := (sift (c.guard cut.prevTestEnd embargo (c.eventTime last)) chunk).nPurged
               nEmbargoed :=
                (sift (c.guard cut.prevTestEnd embargo (c.eventTime last)) chunk).nEmbargoed
               embargo := embargo }]
          start := cut.start + chunkSize c.size nFolds f
          prevTestEnd := some (c.eventTime last)
          wid := cut.wid + 1 } := by
  have hle : cut.start + chunkSize c.size nFolds f ≤ c.size := by
    rw [hsound.start_eq, ← covered_succ]
    exact (covered_mono c.size nFolds hlt).trans (covered_all (by omega)).le
  obtain ⟨first, last, hfirst, hlast, hlength, hreach, hbehind⟩ := c.chunk_spec hpos hle
  refine ⟨first, last, _, rfl, hlength, fun prev hprev => hreach prev (hsound.behind prev hprev),
    hbehind, ?_⟩
  simp only [Cutting.next, hpos.ne', if_false, hfirst, hlast, sift_kept]

/-- **One turn of the cut.**  It never fails, and what holds before holds after. -/
theorem Cutting.sound_next {nFolds f : ℕ} {cut : Cutting}
    (hsound : cut.Sound c nFolds embargo f) (hlt : f < nFolds) :
    ∃ cut', cut.next c nFolds embargo f = .ok cut' ∧ cut'.Sound c nFolds embargo (f + 1) := by
  rcases Nat.eq_zero_or_pos (chunkSize c.size nFolds f) with hzero | hpos
  · refine ⟨cut, by simp [Cutting.next, hzero], { hsound with start_eq := ?_ }⟩
    rw [covered_succ, hzero, hsound.start_eq, Nat.add_zero]
  obtain ⟨first, last, chunk, hchunk, hlength, hafter, hbehind, hnext⟩ :=
    Cutting.next_of_pos hsound hlt hpos
  refine ⟨_, hnext, ?_, ?_, ?_, ?_, ?_, ?_, ?_⟩
  · rw [covered_succ, ← hsound.start_eq]
  · rw [List.flatMap_append, List.take_add, ← hchunk]
    refine hsound.taken.append ?_
    simp
  · have htotal := @sift_total (c.guard cut.prevTestEnd embargo (c.eventTime last)) chunk
    rw [sift_kept] at htotal
    rw [List.map_append, List.sum_append, hsound.counted, List.map_singleton, List.sum_singleton]
    show cut.start + _ = _
    rw [WalkForwardFold.members, htotal, hlength]
  · intro fold hfold i hi
    rcases List.mem_append.1 hfold with hfold | hfold
    · exact hsound.purged fold hfold i hi
    · obtain rfl := List.mem_singleton.1 hfold
      exact (AlignedTimes.guard_eq_keep.1 (by simpa using (List.mem_filter.1 hi).2)).2
  · intro fold hfold
    refine ⟨_, rfl, ?_⟩
    rcases List.mem_append.1 hfold with hfold | hfold
    · obtain ⟨prev, hprev, hend⟩ := hsound.ended fold hfold
      exact hend.trans (hafter prev hprev)
    · obtain rfl := List.mem_singleton.1 hfold
      exact le_rfl
  · intro prev hprev j hj
    obtain rfl := Option.some.inj hprev
    exact hbehind j hj
  · refine List.pairwise_append.2 ⟨hsound.apart, List.pairwise_singleton _ _, ?_⟩
    -- the fold before is the furthest of the earlier ones
    intro a ha b hb j hj
    obtain rfl := List.mem_singleton.1 hb
    obtain ⟨prev, hprev, hend⟩ := hsound.ended a ha
    have hkept := AlignedTimes.guard_eq_keep.1 (by simpa using (List.mem_filter.1 hj).2)
    have := hkept.1 prev hprev
    omega

/-- **The whole cut.** -/
theorem cut_sound (c : AlignedTimes) (nFolds : ℕ) (embargo : ℤ) {f : ℕ} (hle : f ≤ nFolds) :
    ∃ cut, runSteps (Cutting.next c nFolds embargo) {} (List.range f) = .ok cut ∧
      cut.Sound c nFolds embargo f := by
  induction f with
  | zero => exact ⟨{}, rfl, Cutting.sound_init c nFolds embargo⟩
  | succ f ih =>
      obtain ⟨cut, hrun, hsound⟩ := ih (by omega)
      obtain ⟨cut', hnext, hsound'⟩ := Cutting.sound_next hsound (by omega)
      refine ⟨cut', ?_, hsound'⟩
      rw [List.range_succ, runSteps_snoc, hrun]
      exact hnext

/-! ### A wider embargo -/

/-- The same chunks, with no more kept in any. -/
structure Cutting.Narrows (cut cut' : Cutting) : Prop where
  start_eq : cut'.start = cut.start
  prev_eq : cut'.prevTestEnd = cut.prevTestEnd
  folds : List.Forall₂ (fun fold fold' => fold'.testEndTime = fold.testEndTime ∧
    fold'.testIdx.Sublist fold.testIdx) cut.folds cut'.folds

theorem Cutting.narrows_next {nFolds f : ℕ} {wider : ℤ} {cut cut' next next' : Cutting}
    (hle : embargo ≤ wider) (h : cut.Narrows cut')
    (hnext : cut.next c nFolds embargo f = .ok next)
    (hnext' : cut'.next c nFolds wider f = .ok next') : next.Narrows next' := by
  unfold Cutting.next at hnext hnext'
  rw [h.start_eq, h.prev_eq] at hnext'
  by_cases hzero : chunkSize c.size nFolds f = 0
  · simp only [hzero, if_true] at hnext hnext'
    obtain rfl := Except.ok.inj hnext
    obtain rfl := Except.ok.inj hnext'
    exact h
  simp only [hzero, if_false] at hnext hnext'
  set chunk := (c.order.drop cut.start).take (chunkSize c.size nFolds f) with hchunk
  cases hfirst : chunk.head? with
  | none => simp [hfirst] at hnext
  | some first =>
      cases hlast : chunk.getLast? with
      | none => simp [hfirst, hlast] at hnext
      | some last =>
          simp only [hfirst, hlast] at hnext hnext'
          obtain rfl := Except.ok.inj hnext
          obtain rfl := Except.ok.inj hnext'
          refine ⟨rfl, rfl, List.rel_append h.folds (.cons ⟨rfl, ?_⟩ .nil)⟩
          rw [sift_kept, sift_kept]
          refine List.monotone_filter_right chunk fun i hi => ?_
          simp only [decide_eq_true_eq] at hi ⊢
          exact AlignedTimes.guard_keep_of_wider hle hi

theorem cut_narrows {nFolds f : ℕ} {wider : ℤ} {cut cut' : Cutting} (hle : embargo ≤ wider)
    (hrun : runSteps (Cutting.next c nFolds embargo) {} (List.range f) = .ok cut)
    (hrun' : runSteps (Cutting.next c nFolds wider) {} (List.range f) = .ok cut') :
    cut.Narrows cut' := by
  induction f generalizing cut cut' with
  | zero =>
      obtain rfl := Except.ok.inj hrun
      obtain rfl := Except.ok.inj hrun'
      exact ⟨rfl, rfl, .nil⟩
  | succ f ih =>
      rw [List.range_succ] at hrun hrun'
      obtain ⟨before, hbefore, hnext⟩ := runSteps_snoc_eq_ok hrun
      obtain ⟨before', hbefore', hnext'⟩ := runSteps_snoc_eq_ok hrun'
      exact Cutting.narrows_next hle (ih hbefore hbefore') hnext hnext'

/-! ### The folds -/

/-- An empty corpus is cut into nothing. -/
theorem cut_empty {nFolds f : ℕ} (hempty : c.size = 0) :
    runSteps (Cutting.next c nFolds embargo) {} (List.range f) = .ok {} := by
  induction f with
  | zero => rfl
  | succ f ih =>
      have hsize : chunkSize c.size nFolds f = 0 := by simp [chunkSize, hempty]
      rw [List.range_succ, runSteps_snoc, ih]
      show Cutting.next c nFolds embargo {} f = .ok {}
      simp [Cutting.next, hsize]

/-- **The folds are those of a whole cut.** -/
theorem build_eq_cut {eventTimes labelHorizonEnds : List ℤ} {nFolds : ℤ}
    (defaultEmbargo : ℤ → ℤ) (embargo : Option ℤ)
    (aligned : labelHorizonEnds.length = eventTimes.length) (hpos : 1 ≤ nFolds)
    (hc : c = ⟨eventTimes, labelHorizonEnds, aligned⟩) :
    ∃ cut, runSteps (Cutting.next c nFolds.toNat (c.embargoOf defaultEmbargo embargo)) {}
        (List.range nFolds.toNat) = .ok cut ∧
      cut.Sound c nFolds.toNat (c.embargoOf defaultEmbargo embargo) nFolds.toNat ∧
      buildPurgedEmbargoedFolds defaultEmbargo eventTimes labelHorizonEnds nFolds embargo =
        .ok cut.folds := by
  obtain ⟨cut, hrun, hsound⟩ := cut_sound c nFolds.toNat (c.embargoOf defaultEmbargo embargo) le_rfl
  refine ⟨cut, hrun, hsound, ?_⟩
  subst hc
  simp only [buildPurgedEmbargoedFolds, aligned, dif_pos, require_bind hpos]
  split
  · rename_i hempty
    rw [cut_empty hempty] at hrun
    obtain rfl := Except.ok.inj hrun
    rfl
  · rw [hrun]
    rfl

/-- **Folds never overlap.**  For aligned corpora, at least one fold and any embargo: no index
is scored twice, every index is kept, purged or embargoed once, the labels kept in a fold
resolve by its end and the members of every later fold lie behind it by more than the
embargo; a wider embargo only removes kept indices. -/
theorem folds_never_overlap (defaultEmbargo : ℤ → ℤ) (eventTimes labelHorizonEnds : List ℤ)
    (nFolds embargo : ℤ) (aligned : labelHorizonEnds.length = eventTimes.length)
    (hfolds : 1 ≤ nFolds) (hembargo : 0 ≤ embargo) :
    ∃ folds, buildPurgedEmbargoedFolds defaultEmbargo eventTimes labelHorizonEnds nFolds
        (some embargo) = .ok folds ∧
      (folds.flatMap (·.testIdx)).Nodup ∧
      (∀ fold ∈ folds, ∀ i ∈ fold.testIdx, i < eventTimes.length) ∧
      (folds.map (·.members)).sum = eventTimes.length ∧
      (folds.Pairwise fun a b => ∀ i ∈ a.testIdx, ∀ j ∈ b.testIdx,
        labelHorizonEnds.getD i 0 ≤ a.testEndTime ∧
          a.testEndTime + embargo < eventTimes.getD j 0) ∧
      ∀ wider, embargo ≤ wider → ∃ folds', buildPurgedEmbargoedFolds defaultEmbargo eventTimes
          labelHorizonEnds nFolds (some wider) = .ok folds' ∧
        List.Forall₂ (fun fold fold' => fold'.testEndTime = fold.testEndTime ∧
          fold'.testIdx.Sublist fold.testIdx) folds folds' := by
  obtain ⟨c, hc⟩ : ∃ c : AlignedTimes, c = ⟨eventTimes, labelHorizonEnds, aligned⟩ := ⟨_, rfl⟩
  have hsize : c.size = eventTimes.length := by rw [hc]; rfl
  obtain ⟨cut, hrun, hsound, hbuild⟩ := build_eq_cut defaultEmbargo (some embargo) aligned hfolds hc
  have hembargo_eq : c.embargoOf defaultEmbargo (some embargo) = embargo := max_eq_right hembargo
  rw [hembargo_eq] at hrun hsound
  have hstart : cut.start = eventTimes.length := by
    rw [hsound.start_eq, covered_all (by omega), hsize]
  refine ⟨cut.folds, hbuild, ?_, ?_, ?_, ?_, ?_⟩
  · exact hsound.taken.nodup (c.order_nodup.sublist (List.take_sublist _ _))
  · intro fold hfold i hi
    rw [← hsize]
    refine AlignedTimes.lt_of_mem_order (List.mem_of_mem_take (hsound.taken.subset ?_))
    exact List.mem_flatMap.2 ⟨fold, hfold, hi⟩
  · rw [hsound.counted, hstart]
  · have hpurged := hsound.purged
    refine hsound.apart.imp_of_mem fun {a b} ha _ hab i hi j hj => ⟨?_, ?_⟩
    · have := hpurged a ha i hi
      rwa [hc] at this
    · have := hab j hj
      rwa [hc] at this
  · intro wider hle
    obtain ⟨cut', hrun', -, hbuild'⟩ := build_eq_cut defaultEmbargo (some wider) aligned hfolds hc
    have hwider_eq : c.embargoOf defaultEmbargo (some wider) = wider :=
      max_eq_right (hembargo.trans hle)
    rw [hwider_eq] at hrun'
    exact ⟨cut'.folds, hbuild', (cut_narrows hle hrun hrun').folds⟩

/-- Four decisions, two of them at one time, in three folds: one of the two is purged from the
first fold, and the last fold is embargoed. -/
theorem folds_never_overlap_four :
    ∃ folds, buildPurgedEmbargoedFolds (fun _ => 0) [30, 10, 10, 33] [30, 10, 40, 33] 3
        (some 5) = .ok folds ∧
      (folds.flatMap (·.testIdx)).Nodup ∧
      (∀ fold ∈ folds, ∀ i ∈ fold.testIdx, i < 4) ∧
      (folds.map (·.members)).sum = 4 ∧
      (folds.Pairwise fun a b => ∀ i ∈ a.testIdx, ∀ j ∈ b.testIdx,
        [30, 10, 40, 33].getD i 0 ≤ a.testEndTime ∧
          a.testEndTime + 5 < [30, 10, 10, 33].getD j 0) ∧
      ∀ wider, 5 ≤ wider → ∃ folds', buildPurgedEmbargoedFolds (fun _ => 0) [30, 10, 10, 33]
          [30, 10, 40, 33] 3 (some wider) = .ok folds' ∧
        List.Forall₂ (fun fold fold' => fold'.testEndTime = fold.testEndTime ∧
          fold'.testIdx.Sublist fold.testIdx) folds folds' :=
  folds_never_overlap (fun _ => 0) [30, 10, 10, 33] [30, 10, 40, 33] 3 5 rfl (by decide)
    (by decide)

/-- **The purge assertion never fires.** -/
theorem assertPurge_of_build {defaultEmbargo : ℤ → ℤ} {eventTimes labelHorizonEnds : List ℤ}
    {nFolds : ℤ} {embargo : Option ℤ} {folds : List WalkForwardFold}
    (h : buildPurgedEmbargoedFolds defaultEmbargo eventTimes labelHorizonEnds nFolds embargo =
      .ok folds) :
    assertPurgeIsLoadBearing labelHorizonEnds folds = .ok () := by
  by_cases aligned : labelHorizonEnds.length = eventTimes.length
  swap
  · simp [buildPurgedEmbargoedFolds, aligned] at h
  by_cases hpos : 1 ≤ nFolds
  swap
  · simp [buildPurgedEmbargoedFolds, aligned, require, hpos, bind, Except.bind] at h
  obtain ⟨cut, -, hsound, hbuild⟩ := build_eq_cut defaultEmbargo embargo aligned hpos rfl
  obtain rfl := Except.ok.inj (hbuild.symm.trans h)
  refine forM_eq_ok fun fold hfold => forM_eq_ok fun i hi => ?_
  exact require_eq_ok.2 (hsound.purged fold hfold i hi)

end Backtest
end AatsSniper

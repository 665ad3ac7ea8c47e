/-
# The last write and the latest one

A field that every event may overwrite holds what the last event wrote that wrote it (`written`,
`foldl_write`); one that is kept once it is set holds what the first event set (`foldl_keep`).
`latest` and `earliest` say the same of the events in the order of a key, whatever order they
arrived in: the latest is the value written at the highest key (`latest_eq_some_iff`).
-/

import AatsSniper.Lib.Sort

namespace AatsSniper
namespace LastWrite

variable {α β κ : Type*} [LinearOrder κ] {key : α → κ} {pick : α → Option β}
  {events events' : List α}

/-- What the last event wrote that wrote it. -/
def written (pick : α → Option β) (events : List α) : Option β := (events.filterMap pick).getLast?

/-- What was written at the highest key. -/
def latest (key : α → κ) (pick : α → Option β) (events : List α) : Option β :=
  written pick (sortBy key events)

/-- What was written at the lowest key. -/
def earliest (key : α → κ) (pick : α → Option β) (events : List α) : Option β :=
  (sortBy key events).findSome? pick

theorem written_cons (pick : α → Option β) (a : α) (events : List α) :
    written pick (a :: events) = (written pick events).or (pick a) := by
  unfold written
  cases hpick : pick a with
  | none => simp [hpick]
  | some b =>
      rw [List.filterMap_cons_some hpick, List.getLast?_cons]
      cases (events.filterMap pick).getLast? <;> rfl

section Fields

variable {σ : Type*} {step : σ → α → σ}

/-- A field that every event may overwrite holds the last write. -/
theorem foldl_write (field : σ → Option β)
    (hstep : ∀ s a, field (step s a) = (pick a).or (field s)) (events : List α) (s : σ) :
    field (events.foldl step s) = (written pick events).or (field s) := by
  induction events generalizing s with
  | nil => rfl
  | cons a events ih => rw [List.foldl_cons, ih, hstep, written_cons, Option.or_assoc]

theorem foldl_write_getD (field : σ → β)
    (hstep : ∀ s a, field (step s a) = (pick a).getD (field s)) (events : List α) (s : σ) :
    field (events.foldl step s) = (written pick events).getD (field s) := by
  have hsome : ∀ s a, some (field (step s a)) = (pick a).or (some (field s)) := by
    intro s a
    rw [hstep]
    cases pick a <;> rfl
  have hfold := foldl_write (fun s => some (field s)) hsome events s
  cases hwritten : written pick events with
  | none =>
      rw [hwritten, Option.none_or] at hfold
      exact Option.some.inj hfold
  | some b =>
      rw [hwritten, Option.some_or] at hfold
      exact Option.some.inj hfold

/-- A field that is kept once it is set holds the first value, where every step keeps what the
values depend on. -/
theorem foldl_keep (field : σ → Option β) {same : σ → Prop}
    (hsame : ∀ s a, same s → same (step s a))
    (hstep : ∀ s a, same s → field (step s a) = (field s).or (pick a)) (events : List α) {s : σ}
    (hs : same s) : field (events.foldl step s) = (field s).or (events.findSome? pick) := by
  induction events generalizing s with
  | nil => rw [List.foldl_nil, List.findSome?_nil, Option.or_none]
  | cons a events ih =>
      rw [List.foldl_cons, ih (hsame s a hs), hstep s a hs, List.findSome?_cons, Option.or_assoc]
      cases pick a <;> rfl

end Fields

theorem isSome_written : (written pick events).isSome = events.any fun a => (pick a).isSome := by
  induction events with
  | nil => rfl
  | cons a events ih =>
      rw [written_cons, Option.isSome_or, ih, List.any_cons, Bool.or_comm]

theorem isSome_latest : (latest key pick events).isSome = (written pick events).isSome := by
  unfold latest
  rw [isSome_written, isSome_written]
  exact (sortBy_perm key events).any_eq

/-- A field that holds the last write over a default holds the latest one over it if and only if
the two are the same write. -/
theorem eq_latest_iff (key : α → κ) (hperm : events'.Perm events) {field b : β}
    (hfield : field = (written pick events').getD b) :
    field = (latest key pick events).getD b ↔ written pick events' = latest key pick events := by
  have hsome : (written pick events').isSome = (latest key pick events).isSome := by
    rw [isSome_latest, isSome_written, isSome_written, hperm.any_eq]
  refine ⟨fun h => ?_, fun h => by rw [hfield, h]⟩
  rw [hfield] at h
  cases hwritten : written pick events' <;> cases hlatest : latest key pick events
  · rfl
  · rw [hwritten, hlatest] at hsome
    cases hsome
  · rw [hwritten, hlatest] at hsome
    cases hsome
  · rw [hwritten, hlatest] at h
    exact congrArg some h

/-- The event that wrote last. -/
theorem exists_of_written {b : β} (h : written pick events = some b) :
    ∃ before a behind, events = before ++ a :: behind ∧ pick a = some b ∧
      ∀ c ∈ behind, pick c = none := by
  induction events with
  | nil => cases h
  | cons a events ih =>
      rw [written_cons] at h
      cases hrest : written pick events with
      | some b' =>
          rw [hrest, Option.some_or] at h
          obtain ⟨before, c, behind, rfl, hc, hbehind⟩ := ih (hrest.trans h)
          exact ⟨a :: before, c, behind, rfl, hc, hbehind⟩
      | none =>
          rw [hrest, Option.none_or] at h
          refine ⟨[], a, events, rfl, h, fun c hc => ?_⟩
          have hnone : (written pick events).isSome = false := by rw [hrest]; rfl
          rw [isSome_written, List.any_eq_false] at hnone
          exact Option.not_isSome_iff_eq_none.1 (hnone c hc)

/-- The latest value is the one written at the highest key at which one was written. -/
theorem latest_eq_some_iff (hdistinct : (events.map key).Nodup) {b : β} :
    latest key pick events = some b ↔
      ∃ a ∈ events, pick a = some b ∧ ∀ a' ∈ events, (pick a').isSome = true → key a' ≤ key a := by
  have hhighest : ∀ {c}, latest key pick events = some c → ∃ a ∈ events, pick a = some c ∧
      ∀ a' ∈ events, (pick a').isSome = true → key a' ≤ key a := by
    intro c h
    obtain ⟨before, a, behind, hsplit, ha, hbehind⟩ := exists_of_written h
    have hsorted := pairwise_sortBy key events
    rw [hsplit, List.pairwise_append] at hsorted
    have hmem : ∀ x, x ∈ events ↔ x ∈ before ++ a :: behind := by
      intro x
      rw [← hsplit, mem_sortBy]
    refine ⟨a, (hmem a).2 (by simp), ha, fun a' ha' hsome => ?_⟩
    rcases List.mem_append.1 ((hmem a').1 ha') with hbefore | hrest
    · exact hsorted.2.2 a' hbefore a List.mem_cons_self
    · rcases List.mem_cons.1 hrest with rfl | hrest
      · exact le_rfl
      · rw [hbehind a' hrest] at hsome
        cases hsome
  refine ⟨hhighest, ?_⟩
  rintro ⟨a, ha, hpick, hmax⟩
  have hsome : (latest key pick events).isSome = true := by
    rw [isSome_latest, isSome_written, List.any_eq_true]
    exact ⟨a, ha, by rw [hpick]; rfl⟩
  obtain ⟨c, hc⟩ := Option.isSome_iff_exists.1 hsome
  obtain ⟨a', ha', hpick', hmax'⟩ := hhighest hc
  have hkey : key a = key a' :=
    le_antisymm (hmax' a ha (by rw [hpick]; rfl)) (hmax a' ha' (by rw [hpick']; rfl))
  obtain rfl := List.inj_on_of_nodup_map hdistinct ha ha' hkey
  rw [hc, ← hpick', hpick]

end LastWrite
end AatsSniper

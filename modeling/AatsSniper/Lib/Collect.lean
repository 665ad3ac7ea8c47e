/-
# Loops that leave out the rows they cannot use

`for row in rows: try: out.append(process(row)) except Caught as exc: left.append(exc)`:
`collect` keeps what `process` makes of the rows and, apart, the rows it raised on.  An exception
that is not caught ends the loop.

A row escapes if it raises such an exception.  The loop returns iff no row escapes
(`collect_returns_iff`), every row is then kept or left out (`collect_length`), and a row more that
cannot be used changes nothing of what is kept (`collect_insert`).
-/

import Mathlib.Data.List.Basic
import Mathlib.Tactic.SplitIfs

namespace AatsSniper

variable {ρ ω ε : Type}

/-- What is made of the rows, and the rows left out with what they raised. -/
def collect (process : ρ → Except ε ω) (caught : ε → Bool) :
    List ρ → Except ε (List ω × List (ρ × ε))
  | [] => .ok ([], [])
  | row :: rows =>
      match process row with
      | .ok out => (collect process caught rows).map fun r => (out :: r.1, r.2)
      | .error e =>
          if caught e then (collect process caught rows).map fun r => (r.1, (row, e) :: r.2)
          else .error e

/-- The row raises what is not caught. -/
def Escapes (process : ρ → Except ε ω) (caught : ε → Bool) (row : ρ) : Prop :=
  ∃ e, process row = .error e ∧ caught e = false

/-- The row cannot be used. -/
def Unusable (process : ρ → Except ε ω) (row : ρ) : Prop := ∃ e, process row = .error e

variable {process : ρ → Except ε ω} {caught : ε → Bool} {rows before after : List ρ} {row : ρ}

/-- **The first turn of a loop that returned** kept its row or left it out. -/
theorem collect_cons_eq_ok {r : List ω × List (ρ × ε)} :
    collect process caught (row :: rows) = .ok r ↔ ∃ r', collect process caught rows = .ok r' ∧
      ((∃ out, process row = .ok out ∧ r = (out :: r'.1, r'.2)) ∨
        ∃ e, process row = .error e ∧ caught e = true ∧ r = (r'.1, (row, e) :: r'.2)) := by
  rw [collect]
  constructor
  · intro h
    cases hrow : process row with
    | ok out =>
        rw [hrow] at h
        cases hrest : collect process caught rows with
        | ok r' =>
            rw [hrest] at h
            exact ⟨r', rfl, .inl ⟨out, rfl, (Except.ok.inj h).symm⟩⟩
        | error e =>
            rw [hrest] at h
            cases h
    | error e =>
        rw [hrow] at h
        dsimp only at h
        split_ifs at h with hcaught
        cases hrest : collect process caught rows with
        | ok r' =>
            rw [hrest] at h
            exact ⟨r', rfl, .inr ⟨e, rfl, hcaught, (Except.ok.inj h).symm⟩⟩
        | error e =>
            rw [hrest] at h
            cases h
  · rintro ⟨r', hrest, ⟨out, hrow, rfl⟩ | ⟨e, hrow, hcaught, rfl⟩⟩
    · rw [hrow, hrest]
      rfl
    · rw [hrow, hrest]
      exact if_pos hcaught

/-- **The loop returns iff no row escapes.** -/
theorem collect_returns_iff :
    (∃ r, collect process caught rows = .ok r) ↔ ∀ row ∈ rows, ¬Escapes process caught row := by
  induction rows with
  | nil => exact ⟨fun _ _ h => absurd h List.not_mem_nil, fun _ => ⟨_, rfl⟩⟩
  | cons row rows ih =>
      rw [List.forall_mem_cons, ← ih]
      constructor
      · rintro ⟨r, hr⟩
        obtain ⟨r', hr', hrow⟩ := collect_cons_eq_ok.1 hr
        refine ⟨?_, r', hr'⟩
        rintro ⟨e, he, hcaught⟩
        rcases hrow with ⟨out, hout, -⟩ | ⟨e', he', hcaught', -⟩
        · rw [he] at hout
          cases hout
        · rw [he] at he'
          cases he'
          rw [hcaught] at hcaught'
          cases hcaught'
      · rintro ⟨hrow, r', hr'⟩
        cases hprocess : process row with
        | ok out => exact ⟨_, collect_cons_eq_ok.2 ⟨r', hr', .inl ⟨out, hprocess, rfl⟩⟩⟩
        | error e =>
            have hcaught : caught e = true := by
              by_contra hcaught
              exact hrow ⟨e, hprocess, by simpa using hcaught⟩
            exact ⟨_, collect_cons_eq_ok.2 ⟨r', hr', .inr ⟨e, hprocess, hcaught, rfl⟩⟩⟩

/-- **What is kept** is what `process` made, in order. -/
theorem collect_kept {r : List ω × List (ρ × ε)} (h : collect process caught rows = .ok r) :
    r.1 = rows.filterMap fun row => (process row).toOption := by
  induction rows generalizing r with
  | nil =>
      cases h
      rfl
  | cons row rows ih =>
      obtain ⟨r', hr', ⟨out, hrow, rfl⟩ | ⟨e, hrow, -, rfl⟩⟩ := collect_cons_eq_ok.1 h
      · simp [hrow, Except.toOption, ih hr']
      · simp [hrow, Except.toOption, ih hr']

/-- **Every row is kept or left out.** -/
theorem collect_length {r : List ω × List (ρ × ε)} (h : collect process caught rows = .ok r) :
    r.1.length + r.2.length = rows.length := by
  induction rows generalizing r with
  | nil =>
      cases h
      rfl
  | cons row rows ih =>
      obtain ⟨r', hr', ⟨out, -, rfl⟩ | ⟨e, -, -, rfl⟩⟩ := collect_cons_eq_ok.1 h
      all_goals
        have hlen := ih hr'
        simp only [List.length_cons]
        omega

/-- **A row more that cannot be used** leaves what is kept as it is, where the loop returns. -/
theorem collect_insert {r : List ω × List (ρ × ε)} (hrow : Unusable process row)
    (h : collect process caught (before ++ row :: after) = .ok r) :
    ∃ r', collect process caught (before ++ after) = .ok r' ∧ r'.1 = r.1 ∧
      r'.2.length + 1 = r.2.length := by
  have hescapes := collect_returns_iff.1 ⟨r, h⟩
  obtain ⟨r', hr'⟩ : ∃ r', collect process caught (before ++ after) = .ok r' := by
    refine collect_returns_iff.2 fun row' hrow' => hescapes row' ?_
    rcases List.mem_append.1 hrow' with hmem | hmem
    · exact List.mem_append_left _ hmem
    · exact List.mem_append_right _ (List.mem_cons_of_mem _ hmem)
  obtain ⟨e, he⟩ := hrow
  have hkept : r'.1 = r.1 := by
    rw [collect_kept h, collect_kept hr']
    simp [he, Except.toOption]
  have hlen := collect_length h
  have hlen' := collect_length hr'
  rw [hkept] at hlen'
  simp only [List.length_append, List.length_cons] at hlen hlen'
  exact ⟨r', hr', hkept, by omega⟩

/-- Two steps make the same of the row, or both raise what is caught. -/
def Alike (process process' : ρ → Except ε ω) (caught : ε → Bool) (row : ρ) : Prop :=
  process row = process' row ∨ ∃ e e', process row = .error e ∧ process' row = .error e' ∧
    caught e = true ∧ caught e' = true

theorem collect_cons_error {e : ε} (hrow : process row = .error e) (hcaught : caught e = true)
    {kept : List ω} {left : List (ρ × ε)} (h : collect process caught rows = .ok (kept, left)) :
    collect process caught (row :: rows) = .ok (kept, (row, e) :: left) :=
  collect_cons_eq_ok.2 ⟨_, h, .inr ⟨e, hrow, hcaught, rfl⟩⟩

theorem collect_cons_escapes {e : ε} (hrow : process row = .error e) (hcaught : caught e = true)
    {e' : ε} (h : collect process caught rows = .error e') :
    collect process caught (row :: rows) = .error e' := by
  rw [collect, hrow]
  refine (if_pos hcaught).trans ?_
  rw [h]
  rfl

/-- **Loops whose steps are alike** raise the same, or keep the same and leave out the same rows. -/
theorem collect_congr {process' : ρ → Except ε ω}
    (h : ∀ row ∈ rows, Alike process process' caught row) :
    (∃ e, collect process caught rows = .error e ∧ collect process' caught rows = .error e) ∨
      ∃ kept left left', collect process caught rows = .ok (kept, left) ∧
        collect process' caught rows = .ok (kept, left') ∧
          left.map Prod.fst = left'.map Prod.fst := by
  induction rows with
  | nil => exact .inr ⟨[], [], [], rfl, rfl, rfl⟩
  | cons row rows ih =>
      obtain ⟨hrow, hrows⟩ := List.forall_mem_cons.1 h
      rcases hrow with heq | ⟨e, e', he, he', hcaught, hcaught'⟩
      · cases hprocess : process' row with
        | ok out =>
            rw [hprocess] at heq
            obtain ⟨e, hx, hx'⟩ | ⟨kept, left, left', hx, hx', hleft⟩ := ih hrows
            · refine .inl ⟨e, ?_, ?_⟩
              · rw [collect, heq, hx]
                rfl
              · rw [collect, hprocess, hx']
                rfl
            · exact .inr ⟨out :: kept, left, left',
                collect_cons_eq_ok.2 ⟨_, hx, .inl ⟨out, heq, rfl⟩⟩,
                collect_cons_eq_ok.2 ⟨_, hx', .inl ⟨out, hprocess, rfl⟩⟩, hleft⟩
        | error e =>
            rw [hprocess] at heq
            by_cases hcaught : caught e = true
            · obtain ⟨e', hx, hx'⟩ | ⟨kept, left, left', hx, hx', hleft⟩ := ih hrows
              · exact .inl ⟨e', collect_cons_escapes heq hcaught hx,
                  collect_cons_escapes hprocess hcaught hx'⟩
              · exact .inr ⟨kept, _, _, collect_cons_error heq hcaught hx,
                  collect_cons_error hprocess hcaught hx', congrArg (row :: ·) hleft⟩
            · refine .inl ⟨e, ?_, ?_⟩
              · rw [collect, heq]
                exact if_neg hcaught
              · rw [collect, hprocess]
                exact if_neg hcaught
      · obtain ⟨e₁, hx, hx'⟩ | ⟨kept, left, left', hx, hx', hleft⟩ := ih hrows
        · exact .inl ⟨e₁, collect_cons_escapes he hcaught hx, collect_cons_escapes he' hcaught' hx'⟩
        · exact .inr ⟨kept, _, _, collect_cons_error he hcaught hx,
            collect_cons_error he' hcaught' hx', congrArg (row :: ·) hleft⟩

end AatsSniper

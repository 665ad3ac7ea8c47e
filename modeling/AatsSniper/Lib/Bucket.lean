/-
# A memo keyed on a projection

A memo that keeps what was fetched for one input under a key other inputs share.  Only
a fetch that succeeds is kept, and what is kept is not replaced: after any history the
entry of a key is the first success among the inputs of that key (`after_eq_first`).

So an input is answered with its own fetch where its key has no success behind it, and
with another's otherwise.  Whether that can be told from outside is a matter of what
is looked at: `transparent_iff` says which observers cannot tell the memo from none, over
every history.
-/

import Mathlib.Data.List.Induction
import Mathlib.Logic.Function.Basic

namespace AatsSniper

/-- What inputs are looked up under, and what is fetched for them; an input without a key does not
reach the memo. -/
structure BucketMemo (ι κ ν : Type*) where
  key : ι → Option κ
  fetch : ι → Option ν

namespace BucketMemo

variable {ι κ ν ω : Type*} [DecidableEq κ] (m : BucketMemo ι κ ν)

/-- Look the input up, or fetch for it. -/
def ask (table : κ → Option ν) (i : ι) : Option ν × (κ → Option ν) :=
  match m.key i with
  | none => (none, table)
  | some k =>
      match table k with
      | some v => (some v, table)
      | none =>
          match m.fetch i with
          | some v => (some v, Function.update table k (some v))
          | none => (none, table)

/-- The table after a history. -/
def after (history : List ι) : κ → Option ν :=
  history.foldl (fun table i => (m.ask table i).2) fun _ => none

/-- The first success among the inputs of a key. -/
def first (history : List ι) (k : κ) : Option ν :=
  history.findSome? fun i => if m.key i = some k then m.fetch i else none

variable {m} {history : List ι} {i : ι} {k : κ} {v : ν}

theorem exists_of_first (h : m.first history k = some v) :
    ∃ j ∈ history, m.key j = some k ∧ m.fetch j = some v := by
  obtain ⟨j, hj, hfound⟩ := List.exists_of_findSome?_eq_some h
  split_ifs at hfound with hkey
  exact ⟨j, hj, hkey, hfound⟩

theorem first_snoc (history : List ι) (i : ι) (k : κ) :
    m.first (history ++ [i]) k =
      (m.first history k).or (if m.key i = some k then m.fetch i else none) := by
  rw [first, List.findSome?_append, List.findSome?_cons, List.findSome?_nil]
  cases (if m.key i = some k then m.fetch i else none) <;> rfl

/-- **The table holds first successes.** -/
theorem after_eq_first (history : List ι) : m.after history = m.first history := by
  induction history using List.reverseRecOn with
  | nil => rfl
  | append_singleton history i ih =>
      funext k
      rw [after, List.foldl_append, List.foldl_cons, List.foldl_nil, ← after, ih, first_snoc, ask]
      cases hkey : m.key i with
      | none => simp
      | some k' =>
          dsimp only
          by_cases hk : k' = k
          · subst hk
            cases hfirst : m.first history k' with
            | some v => simp [hfirst]
            | none => cases hfetch : m.fetch i <;> simp [hfirst]
          · have hne : ¬ some k' = some k := fun h => hk (Option.some.inj h)
            rw [if_neg hne, Option.or_none]
            cases m.first history k' with
            | some v => rfl
            | none =>
                cases m.fetch i with
                | none => rfl
                | some v => exact Function.update_of_ne (Ne.symm hk) _ _

/-- Without a success behind its key, an input is answered with its own fetch. -/
theorem ask_eq_fetch {table : κ → Option ν} (hkey : m.key i = some k) (hnone : table k = none) :
    (m.ask table i).1 = m.fetch i := by
  rw [ask, hkey]
  dsimp only
  rw [hnone]
  cases m.fetch i <;> rfl

/-- With one, it is answered with that. -/
theorem ask_eq_some {table : κ → Option ν} (hkey : m.key i = some k) (hsome : table k = some v) :
    m.ask table i = (some v, table) := by
  rw [ask, hkey]
  dsimp only
  rw [hsome]

/-- **Which observers cannot tell the memo from none**, over every history: those to whom a success
of one input of a key looks as the fetch of any other. -/
theorem transparent_iff (m : BucketMemo ι κ ν) (obs : ι → Option ν → ω) :
    (∀ history i, obs i (m.ask (m.after history) i).1 = obs i (m.ask (fun _ => none) i).1) ↔
      ∀ i j k v, m.key i = some k → m.key j = some k → m.fetch j = some v →
        obs i (some v) = obs i (m.fetch i) := by
  constructor
  · intro h i j k v hi hj hv
    have hstored : m.after [j] k = some v := by
      rw [after_eq_first]
      simp [first, hj, hv]
    have hsame := h [j] i
    rwa [ask_eq_some hi hstored, ask_eq_fetch hi rfl] at hsame
  · intro h history i
    cases hi : m.key i with
    | none => simp [ask, hi]
    | some k =>
        cases hstored : m.after history k with
        | none => rw [ask_eq_fetch hi hstored, ask_eq_fetch hi rfl]
        | some v =>
            rw [ask_eq_some hi hstored, ask_eq_fetch hi rfl]
            rw [after_eq_first] at hstored
            obtain ⟨j, -, hj, hv⟩ := exists_of_first hstored
            exact h i j k v hi hj hv

end BucketMemo
end AatsSniper

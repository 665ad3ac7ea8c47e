/-
# Regular expressions as Python matches them

A place in a text is what was passed and what is ahead.  `Regex.ends` gives the places where a
match that begins at a place may end, the preferred one first: a greedy repetition tries one more
before it stops, an alternative the left side before the right one, and what follows is tried at
each of them in turn, which is backtracking.  `finditer` takes the first of them at the leftmost
place that has one and goes on behind it.

A bounded repetition of a character between a look-behind and a look-ahead that refuse the same
characters finds the maximal runs of them whose length is within the bounds, and nothing inside a
longer run: at every place in a run but its first the look-behind refuses, and of the places where
the repetition may stop the look-ahead admits the end of the run alone
(`ends_boundedRun`, `finditer_boundedRun`).
-/

import Mathlib.Data.List.Basic
import Mathlib.Data.List.DropRight
import Mathlib.Data.List.TakeWhile

namespace AatsSniper

variable {α : Type}

/-- A place in a text: what was passed, the last first, and what is ahead. -/
@[ext]
structure Place (α : Type) where
  passed : List α
  ahead : List α
  deriving DecidableEq

/-- The syntax of the patterns. -/
inductive Regex (α : Type)
  | nothing
  | one (accepts : α → Bool)
  | seq (first second : Regex α)
  | alt (left right : Regex α)
  | greedy (body : Regex α) (least most : ℕ)
  | many (body : Regex α) (least : ℕ)
  | notBehind (accepts : α → Bool)
  | notAhead (accepts : α → Bool)
  | wordBoundary (isWord : α → Bool)
  | textStart
  | textEnd

namespace Place

/-- The start of a text. -/
def start (text : List α) : Place α := ⟨[], text⟩

/-- Past the next `n` characters. -/
def skip (p : Place α) (n : ℕ) : Place α := ⟨(p.ahead.take n).reverse ++ p.passed, p.ahead.drop n⟩

/-- Is there such a character right ahead? -/
def isAhead (p : Place α) (accepts : α → Bool) : Bool := p.ahead.head?.any accepts

/-- Is there such a character right behind? -/
def isBehind (p : Place α) (accepts : α → Bool) : Bool := p.passed.head?.any accepts

/-- The places where up to `most` steps may end, at least `least` of them, more steps first. -/
def repeated (step : Place α → List (Place α)) : ℕ → ℕ → Place α → List (Place α)
  | least, 0, p => if least = 0 then [p] else []
  | least, most + 1, p =>
      (step p).flatMap (repeated step (least - 1) most) ++ if least = 0 then [p] else []

end Place

namespace Regex

/-- Where a match that begins at a place may end, the preferred place first. -/
def ends : Regex α → Place α → List (Place α)
  | nothing, p => [p]
  | one accepts, p => if p.isAhead accepts then [p.skip 1] else []
  | seq first second, p => (first.ends p).flatMap second.ends
  | alt left right, p => left.ends p ++ right.ends p
  | greedy body least most, p => Place.repeated body.ends least most p
  -- a step that passes nothing is not repeated, so there are at most as many as characters ahead
  | many body least, p => Place.repeated body.ends least (least + p.ahead.length) p
  | notBehind accepts, p => if p.isBehind accepts then [] else [p]
  | notAhead accepts, p => if p.isAhead accepts then [] else [p]
  | wordBoundary isWord, p => if p.isBehind isWord == p.isAhead isWord then [] else [p]
  | textStart, p => if p.passed.isEmpty then [p] else []
  | textEnd, p => if p.ahead.isEmpty then [p] else []

/-- `re.match`: the end of the preferred match that begins at a place. -/
def matchAt (r : Regex α) (p : Place α) : Option (Place α) := (r.ends p).head?

/-- A match: where it begins and where it ends. -/
structure Match (α : Type) where
  start : Place α
  stop : Place α

/-- `match.group(0)`. -/
def Match.group (m : Match α) : List α :=
  (m.stop.passed.take (m.stop.passed.length - m.start.passed.length)).reverse

/-- The matches from a place on, for a pattern that matches no empty text. -/
def findFrom (r : Regex α) : ℕ → Place α → List (Match α)
  | 0, _ => []
  | fuel + 1, p =>
      match r.matchAt p with
      | some q => ⟨p, q⟩ :: findFrom r fuel q
      | none => if p.ahead.isEmpty then [] else findFrom r fuel (p.skip 1)

/-- `re.finditer(pattern, text)`. -/
def finditer (r : Regex α) (text : List α) : List (Match α) :=
  r.findFrom (text.length + 1) (Place.start text)

/-- Does `re.search(pattern, text)` find a match? -/
def search (r : Regex α) (text : List α) : Bool := !(r.finditer text).isEmpty

/-- A text, character by character. -/
def literal [DecidableEq α] : List α → Regex α
  | [] => nothing
  | c :: text => seq (one fun x => decide (x = c)) (literal text)

/-- One after the other. -/
def inOrder : List (Regex α) → Regex α
  | [] => nothing
  | [r] => r
  | r :: rs => seq r (inOrder rs)

/-- One of them, the first that fits. -/
def oneOf (r : Regex α) : List (Regex α) → Regex α
  | [] => r
  | s :: rs => alt r (oneOf s rs)

/-- At least `least` and at most `most` such characters with none right before or behind them. -/
def boundedRun (accepts : α → Bool) (least most : ℕ) : Regex α :=
  inOrder [notBehind accepts, greedy (one accepts) least most, notAhead accepts]

end Regex

/-- The maximal runs of such characters, in the order of the text. -/
def maximalRuns (accepts : α → Bool) (text : List α) : List (List α) :=
  (text.splitOnP fun c => !accepts c).filter fun run => !run.isEmpty

/-- A run of such characters that cannot be made longer at either end. -/
structure MaximalRun (accepts : α → Bool) (text run : List α) : Prop where
  ne_nil : run ≠ []
  accepted : ∀ c ∈ run, accepts c = true
  placed : ∃ before behind, text = before ++ run ++ behind ∧
    (∀ c ∈ before.getLast?, accepts c = false) ∧ ∀ c ∈ behind.head?, accepts c = false

section Runs

variable {accepts : α → Bool} {text run : List α} {c : α}

theorem maximalRuns_nil : maximalRuns accepts [] = [] := rfl

theorem maximalRuns_append_cons (before : List α) (hc : accepts c = false) (behind : List α) :
    maximalRuns accepts (before ++ c :: behind) =
      maximalRuns accepts before ++ maximalRuns accepts behind := by
  unfold maximalRuns
  rw [List.splitOnP_append_cons before behind (by simpa using hc), List.filter_append]

theorem maximalRuns_cons_of_not (hc : accepts c = false) (text : List α) :
    maximalRuns accepts (c :: text) = maximalRuns accepts text :=
  maximalRuns_append_cons [] hc text

/-- A run, and what stands behind it. -/
theorem maximalRuns_append (hne : run ≠ []) (hrun : ∀ c ∈ run, accepts c = true)
    {behind : List α} (hbehind : ∀ c ∈ behind.head?, accepts c = false) :
    maximalRuns accepts (run ++ behind) = run :: maximalRuns accepts behind := by
  have hone : maximalRuns accepts run = [run] := by
    unfold maximalRuns
    rw [List.splitOnP_eq_singleton (by simpa using hrun)]
    simp [hne]
  cases behind with
  | nil => rw [List.append_nil, hone, maximalRuns_nil]
  | cons c behind =>
      have hc : accepts c = false := hbehind c rfl
      rw [maximalRuns_append_cons run hc, hone, maximalRuns_cons_of_not hc, List.singleton_append]

theorem head?_dropWhile_not (text : List α) :
    ∀ c ∈ (text.dropWhile accepts).head?, accepts c = false := by
  intro c hc
  have h := List.head?_dropWhile_not accepts text
  rw [Option.mem_def.1 hc] at h
  simpa using h

/-- The first run of a text that begins with one. -/
theorem maximalRuns_cons (hc : accepts c = true) (text : List α) :
    maximalRuns accepts (c :: text) =
      (c :: text.takeWhile accepts) :: maximalRuns accepts (text.dropWhile accepts) := by
  have hsplit : c :: text = (c :: text.takeWhile accepts) ++ text.dropWhile accepts := by
    rw [List.cons_append, List.takeWhile_append_dropWhile]
  rw [hsplit, maximalRuns_append (List.cons_ne_nil _ _) ?_ (head?_dropWhile_not text)]
  intro d hd
  rcases List.mem_cons.1 hd with rfl | hd
  · exact hc
  · exact List.mem_takeWhile_imp hd

theorem MaximalRun.cons_of_not (h : MaximalRun accepts text run) (hc : accepts c = false) :
    MaximalRun accepts (c :: text) run := by
  obtain ⟨before, behind, rfl, hbefore, hbehind⟩ := h.placed
  refine ⟨h.ne_nil, h.accepted, c :: before, behind, rfl, fun d hd => ?_, hbehind⟩
  rw [List.getLast?_cons, Option.mem_some_iff] at hd
  cases hlast : before.getLast? with
  | none =>
      rw [hlast] at hd
      rwa [← hd]
  | some e =>
      rw [hlast] at hd
      exact hbefore d (by rw [hlast, ← hd]; rfl)

theorem maximalRun_takeWhile (hc : accepts c = true) (text : List α) :
    MaximalRun accepts (c :: text) (c :: text.takeWhile accepts) := by
  refine ⟨List.cons_ne_nil _ _, fun d hd => ?_, [], text.dropWhile accepts, ?_, by simp,
    head?_dropWhile_not text⟩
  · rcases List.mem_cons.1 hd with rfl | hd
    · exact hc
    · exact List.mem_takeWhile_imp hd
  · rw [List.nil_append, List.cons_append, List.takeWhile_append_dropWhile]

/-- A run behind the first one does not touch it. -/
theorem MaximalRun.of_dropWhile (h : MaximalRun accepts (text.dropWhile accepts) run) (c : α) :
    MaximalRun accepts (c :: text) run := by
  obtain ⟨before, behind, hsplit, hbefore, hbehind⟩ := h.placed
  refine ⟨h.ne_nil, h.accepted, c :: text.takeWhile accepts ++ before, behind, ?_, fun d hd => ?_,
    hbehind⟩
  · rw [List.append_assoc, List.append_assoc, ← List.append_assoc before, ← hsplit,
      List.cons_append, List.takeWhile_append_dropWhile]
  · cases before with
    | nil =>
        -- the run would begin with the first character that is refused
        obtain ⟨e, run', rfl⟩ := List.exists_cons_of_ne_nil h.ne_nil
        have hhead : accepts e = false := head?_dropWhile_not text e (by rw [hsplit]; rfl)
        rw [h.accepted e List.mem_cons_self] at hhead
        cases hhead
    | cons b before =>
        rw [List.getLast?_append_of_ne_nil _ (List.cons_ne_nil b before)] at hd
        exact hbefore d hd

/-- The maximal runs are the runs that are maximal. -/
theorem mem_maximalRuns : run ∈ maximalRuns accepts text ↔ MaximalRun accepts text run := by
  constructor
  · intro hmem
    induction hlength : text.length using Nat.strong_induction_on generalizing text with
    | _ n ih =>
        cases text with
        | nil => cases hmem
        | cons c text =>
            cases hc : accepts c with
            | false =>
                rw [maximalRuns_cons_of_not hc] at hmem
                exact (ih text.length (by simp [← hlength]) hmem rfl).cons_of_not hc
            | true =>
                rw [maximalRuns_cons hc] at hmem
                rcases List.mem_cons.1 hmem with rfl | hmem
                · exact maximalRun_takeWhile hc text
                · have hshorter := (List.dropWhile_sublist accepts (l := text)).length_le
                  rw [List.length_cons] at hlength
                  exact (ih _ (by omega) hmem rfl).of_dropWhile c
  · rintro ⟨hne, hrun, before, behind, rfl, hbefore, hbehind⟩
    rcases List.eq_nil_or_concat before with rfl | ⟨before, c, rfl⟩
    · rw [List.nil_append, maximalRuns_append hne hrun hbehind]
      exact List.mem_cons_self
    · rw [List.concat_eq_append] at hbefore ⊢
      have hc : accepts c = false := hbefore c (by simp)
      rw [List.append_assoc, List.append_assoc, List.singleton_append, maximalRuns_append_cons _ hc,
        maximalRuns_append hne hrun hbehind]
      exact List.mem_append_right _ List.mem_cons_self

end Runs

namespace Regex

variable {accepts : α → Bool} {least most : ℕ}

/-- How many such characters are ahead. -/
def runLength (accepts : α → Bool) (p : Place α) : ℕ := (p.ahead.takeWhile accepts).length

theorem runLength_of_isAhead {p : Place α} (h : p.isAhead accepts = true) :
    runLength accepts p = runLength accepts (p.skip 1) + 1 ∧
      ∀ n, (p.skip 1).skip n = p.skip (n + 1) := by
  obtain ⟨passed, ahead⟩ := p
  cases ahead with
  | nil => cases h
  | cons c ahead =>
      have hc : accepts c = true := h
      constructor
      · simp [runLength, Place.skip, hc]
      · intro n
        simp [Place.skip]

theorem runLength_of_not_isAhead {p : Place α} (h : p.isAhead accepts = false) :
    runLength accepts p = 0 := by
  obtain ⟨passed, ahead⟩ := p
  cases ahead with
  | nil => rfl
  | cons c ahead =>
      have hc : accepts c = false := h
      simp [runLength, hc]

/-- The repetition that stops here. -/
theorem stop_notAhead (p : Place α) :
    (if least = 0 then [p] else []).flatMap (notAhead accepts).ends =
      if least = 0 ∧ runLength accepts p = 0 then [p] else [] := by
  cases hahead : p.isAhead accepts with
  | false =>
      rw [runLength_of_not_isAhead hahead]
      by_cases hleast : least = 0 <;> simp [hleast, ends, hahead]
  | true =>
      have hpos := (runLength_of_isAhead hahead).1
      rw [if_neg (by omega : ¬ (least = 0 ∧ runLength accepts p = 0))]
      by_cases hleast : least = 0 <;> simp [hleast, ends, hahead]

/-- Of the places where a repetition may stop, the look-ahead admits the end of the run. -/
theorem repeated_notAhead (p : Place α) :
    (Place.repeated (one accepts).ends least most p).flatMap (notAhead accepts).ends =
      if least ≤ runLength accepts p ∧ runLength accepts p ≤ most
      then [p.skip (runLength accepts p)] else [] := by
  have hself : p.skip 0 = p := rfl
  induction most generalizing least p with
  | zero =>
      rw [Place.repeated, stop_notAhead]
      by_cases hzero : runLength accepts p = 0
      · rw [hzero, hself]
        simp
      · rw [if_neg (fun h => hzero h.2), if_neg (fun h => hzero (Nat.le_zero.1 h.2))]
  | succ most ih =>
      rw [Place.repeated, List.flatMap_append, stop_notAhead]
      cases hahead : p.isAhead accepts with
      | false =>
          rw [runLength_of_not_isAhead hahead, hself]
          simp [ends, hahead]
      | true =>
          obtain ⟨hlength, hskip⟩ := runLength_of_isAhead hahead
          have hstep : (one accepts).ends p = [p.skip 1] := if_pos hahead
          rw [hstep, List.flatMap_singleton, ih (p.skip 1) rfl, hskip, ← hlength,
            if_neg (by omega : ¬ (least = 0 ∧ runLength accepts p = 0)), List.append_nil]
          refine if_congr ?_ rfl rfl
          omega

/-- A bounded run matches at a place that no such character is behind, up to the end of the run,
where the run is within the bounds. -/
theorem ends_boundedRun (p : Place α) :
    (boundedRun accepts least most).ends p =
      if p.isBehind accepts = false ∧
          least ≤ runLength accepts p ∧ runLength accepts p ≤ most
      then [p.skip (runLength accepts p)] else [] := by
  have hends : (boundedRun accepts least most).ends p = ((notBehind accepts).ends p).flatMap
      fun q => (Place.repeated (one accepts).ends least most q).flatMap (notAhead accepts).ends :=
    rfl
  have hbegin : (notBehind accepts).ends p = if p.isBehind accepts then [] else [p] := rfl
  rw [hends, hbegin]
  cases hbehind : p.isBehind accepts with
  | false =>
      rw [if_neg Bool.false_ne_true, List.flatMap_singleton, repeated_notAhead]
      simp
  | true => simp

/-- The text that a search from a place has to do with: a run that was entered is left first. -/
def pending (accepts : α → Bool) (p : Place α) : List α :=
  if p.isBehind accepts then p.ahead.dropWhile accepts else p.ahead

/-- The end of the run. -/
theorem skip_runLength (p : Place α) : p.skip (runLength accepts p) =
    ⟨(p.ahead.takeWhile accepts).reverse ++ p.passed, p.ahead.dropWhile accepts⟩ := by
  have hsplit := List.takeWhile_append_dropWhile (p := accepts) (l := p.ahead)
  have htake : p.ahead.take (runLength accepts p) = p.ahead.takeWhile accepts := by
    conv_lhs => rw [← hsplit]
    rw [runLength, List.take_left]
  have hdrop : p.ahead.drop (runLength accepts p) = p.ahead.dropWhile accepts := by
    conv_lhs => rw [← hsplit]
    rw [runLength, List.drop_left]
  rw [Place.skip, htake, hdrop]

/-- The characters of a match of a run. -/
theorem group_skip (p : Place α) : Match.group ⟨p, p.skip (runLength accepts p)⟩ =
    p.ahead.takeWhile accepts := by
  rw [skip_runLength, Match.group, List.length_append, Nat.add_sub_cancel, List.take_left,
    List.reverse_reverse]

/-- At the end of a run the search is inside it. -/
theorem pending_skip {c : α} (passed ahead : List α) (hc : accepts c = true) :
    pending accepts (Place.skip ⟨passed, c :: ahead⟩ (runLength accepts ⟨passed, c :: ahead⟩)) =
      ahead.dropWhile accepts := by
  have hbehind : ((c :: ahead).takeWhile accepts).reverse.head?.any accepts = true := by
    rw [List.head?_reverse, List.takeWhile_cons_of_pos hc,
      List.getLast?_eq_some_getLast (List.cons_ne_nil _ _)]
    refine List.mem_takeWhile_imp (p := accepts) (l := c :: ahead) ?_
    rw [List.takeWhile_cons_of_pos hc]
    exact List.getLast_mem _
  have hinside : Place.isBehind
      ⟨((c :: ahead).takeWhile accepts).reverse ++ passed, (c :: ahead).dropWhile accepts⟩
      accepts = true := by
    rw [Place.isBehind, List.head?_append]
    cases hlast : ((c :: ahead).takeWhile accepts).reverse.head? with
    | none =>
        rw [hlast] at hbehind
        cases hbehind
    | some d =>
        rw [hlast] at hbehind
        exact hbehind
  rw [skip_runLength, pending, if_pos hinside]
  dsimp only
  rw [List.dropWhile_cons_of_pos hc, List.dropWhile_idempotent]

/-- A run within the bounds begins at the place. -/
def RunBegins (accepts : α → Bool) (least most : ℕ) (p : Place α) : Prop :=
  p.isBehind accepts = false ∧ least ≤ runLength accepts p ∧ runLength accepts p ≤ most

/-- The maximal runs within the bounds. -/
def boundedRuns (accepts : α → Bool) (least most : ℕ) (text : List α) : List (List α) :=
  (maximalRuns accepts text).filter fun run => decide (least ≤ run.length ∧ run.length ≤ most)

theorem matchAt_of_begins {p : Place α} (h : RunBegins accepts least most p) :
    (boundedRun accepts least most).matchAt p = some (p.skip (runLength accepts p)) := by
  rw [matchAt, (ends_boundedRun p).trans (if_pos h), List.head?_cons]

theorem matchAt_of_not_begins {p : Place α} (h : ¬ RunBegins accepts least most p) :
    (boundedRun accepts least most).matchAt p = none := by
  rw [matchAt, (ends_boundedRun p).trans (if_neg h), List.head?_nil]

theorem RunBegins.accepts_head {passed ahead : List α} {c : α} (hleast : 0 < least)
    (h : RunBegins accepts least most ⟨passed, c :: ahead⟩) : accepts c = true := by
  by_contra hc
  have hzero := runLength_of_not_isAhead (p := ⟨passed, c :: ahead⟩) (Bool.eq_false_iff.2 hc)
  have hlength := h.2.1
  omega

/-- The run that begins is the first, and the search goes on behind it. -/
theorem boundedRuns_of_begins {passed ahead : List α} {c : α} (hleast : 0 < least)
    (h : RunBegins accepts least most ⟨passed, c :: ahead⟩) :
    boundedRuns accepts least most (pending accepts ⟨passed, c :: ahead⟩) =
      (c :: ahead).takeWhile accepts :: boundedRuns accepts least most
        (pending accepts
          (Place.skip ⟨passed, c :: ahead⟩ (runLength accepts ⟨passed, c :: ahead⟩))) := by
  have hc := h.accepts_head hleast
  obtain ⟨hbegin, hwithin⟩ := h
  have hpending : pending accepts ⟨passed, c :: ahead⟩ = c :: ahead := by
    rw [pending, hbegin, if_neg Bool.false_ne_true]
  rw [runLength, List.takeWhile_cons_of_pos hc] at hwithin
  rw [pending_skip passed ahead hc, hpending, boundedRuns, maximalRuns_cons hc,
    List.takeWhile_cons_of_pos hc, List.filter_cons_of_pos (by simpa using hwithin), boundedRuns]

/-- Otherwise no run is lost with the next character. -/
theorem boundedRuns_of_not_begins {passed ahead : List α} {c : α}
    (h : ¬ RunBegins accepts least most ⟨passed, c :: ahead⟩) :
    boundedRuns accepts least most (pending accepts ⟨passed, c :: ahead⟩) =
      boundedRuns accepts least most (pending accepts ⟨c :: passed, ahead⟩) := by
  have hbehind : pending accepts ⟨c :: passed, ahead⟩ =
      if accepts c then ahead.dropWhile accepts else ahead := rfl
  rw [hbehind]
  cases hc : accepts c with
  | false =>
      have hpending : pending accepts ⟨passed, c :: ahead⟩ = c :: ahead := by
        unfold pending
        split_ifs <;> simp [hc]
      rw [hpending, boundedRuns, maximalRuns_cons_of_not hc]
      rfl
  | true =>
      rw [if_pos rfl]
      cases hbegin : Place.isBehind ⟨passed, c :: ahead⟩ accepts with
      | true => rw [pending, hbegin, if_pos rfl, List.dropWhile_cons_of_pos hc]
      | false =>
          -- a run that is too short or too long is passed character by character
          have hoff : ¬ (least ≤ (c :: ahead.takeWhile accepts).length ∧
              (c :: ahead.takeWhile accepts).length ≤ most) := by
            intro hwithin
            refine h ⟨hbegin, ?_⟩
            rwa [runLength, List.takeWhile_cons_of_pos hc]
          rw [pending, hbegin, if_neg Bool.false_ne_true, boundedRuns, maximalRuns_cons hc,
            List.filter_cons_of_neg (by simpa using hoff), boundedRuns]

/-- From a place in a text: the runs that begin there or later and are within the bounds. -/
theorem findFrom_boundedRun (hleast : 0 < least) (fuel : ℕ) :
    ∀ p : Place α, p.ahead.length < fuel →
      ((boundedRun accepts least most).findFrom fuel p).map Match.group =
        boundedRuns accepts least most (pending accepts p) := by
  induction fuel with
  | zero => intro p h; omega
  | succ fuel ih =>
      rintro ⟨passed, ahead⟩ hfuel
      cases ahead with
      | nil =>
          have hnone : ¬ RunBegins accepts least most ⟨passed, []⟩ := fun h =>
            hleast.ne' (Nat.le_zero.1 h.2.1)
          simp [findFrom, matchAt_of_not_begins hnone, pending, boundedRuns, maximalRuns_nil]
      | cons c ahead =>
          have hfuel' : ahead.length < fuel := Nat.lt_of_succ_lt_succ hfuel
          by_cases hbegins : RunBegins accepts least most ⟨passed, c :: ahead⟩
          · have hshorter := (List.dropWhile_sublist accepts (l := ahead)).length_le
            have hfuel'' : (Place.skip ⟨passed, c :: ahead⟩
                (runLength accepts ⟨passed, c :: ahead⟩)).ahead.length < fuel := by
              rw [skip_runLength]
              dsimp only
              rw [List.dropWhile_cons_of_pos (hbegins.accepts_head hleast)]
              omega
            rw [findFrom, matchAt_of_begins hbegins, List.map_cons, group_skip, ih _ hfuel'',
              boundedRuns_of_begins hleast hbegins]
          · have hnext : (boundedRun accepts least most).findFrom (fuel + 1)
                ⟨passed, c :: ahead⟩ =
                  (boundedRun accepts least most).findFrom fuel ⟨c :: passed, ahead⟩ := by
              rw [findFrom, matchAt_of_not_begins hbegins]
              rfl
            rw [hnext, ih ⟨c :: passed, ahead⟩ hfuel', boundedRuns_of_not_begins hbegins]

/-- **The maximal runs within the bounds**, in the order of the text. -/
theorem finditer_boundedRun (hleast : 0 < least) (text : List α) :
    ((boundedRun accepts least most).finditer text).map Match.group =
      (maximalRuns accepts text).filter
        fun run => decide (least ≤ run.length ∧ run.length ≤ most) :=
  findFrom_boundedRun hleast _ (Place.start text) (Nat.lt_succ_self _)

end Regex

end AatsSniper

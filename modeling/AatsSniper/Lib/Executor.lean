/-
# A pool of workers over jobs that keep to their own part

`Jobs`: steps on a shared state, where every job sees a part of its own (`view`), a step of the job
does to that part what `own` says, and a step of another job leaves it.  However the steps of the
jobs are mixed, the part of a job is what its own steps have made of it (`view_run`), so a job that
has come to its result has come to the one it comes to alone (`result_eq_alone`).

`Executor` is `ThreadPoolExecutor.map` and the loop over its results: `k` workers take the jobs
from a queue, and the caller takes the results in the order of the jobs.  At a result that raises it
cancels what is still queued, from the back.  `Sound` is kept by every turn; so an executor that is
done has the outcome of the loop without workers (`outcome_eq_sequentially`), for any number of
workers and any order of their turns.  Every turn that moves lowers a measure (`turn_eq_or_lt`), and
where no turn moves the executor is done (`finished_of_stuck`).
-/

import AatsSniper.Lib.Except
import Mathlib.Algebra.BigOperators.Fin
import Mathlib.Algebra.Order.BigOperators.Group.List
import Mathlib.Data.List.FinRange
import Mathlib.Dynamics.FixedPoints.Basic
import Mathlib.Tactic.Linarith

namespace AatsSniper

/-- Jobs on a shared state. -/
structure Jobs (α S V ε β : Type) where
  view : α → S → V
  step : α → S → S
  own : α → V → V
  result : V → Option (Except ε β)
  view_step : ∀ a s, view a (step a s) = own a (view a s)
  view_step_of_ne : ∀ {a b} s, a ≠ b → view b (step a s) = view b s
  own_of_result : ∀ {a v r}, result v = some r → own a v = v

namespace Jobs

variable {α S V ε β : Type} (j : Jobs α S V ε β)

/-- The shared state after the steps of some jobs. -/
def run (s : S) (order : List α) : S := order.foldl (fun s a => j.step a s) s

theorem run_snoc (s : S) (order : List α) (a : α) :
    j.run s (order ++ [a]) = j.step a (j.run s order) := by
  rw [run, List.foldl_append]
  rfl

theorem run_append (s : S) (order order' : List α) :
    j.run s (order ++ order') = j.run (j.run s order) order' := List.foldl_append

theorem run_replicate (s : S) (n : ℕ) (a : α) :
    j.run s (List.replicate n a) = (j.step a)^[n] s := by
  induction n generalizing s with
  | zero => rfl
  | succ n ih => exact ih (j.step a s)

/-- **The part of a job is what its own steps have made of it.** -/
theorem view_run [DecidableEq α] (s : S) (order : List α) (a : α) :
    j.view a (j.run s order) = (j.own a)^[order.count a] (j.view a s) := by
  induction order using List.reverseRecOn with
  | nil => rfl
  | append_singleton order b ih =>
      rw [run_snoc, List.count_append, List.count_singleton]
      by_cases hba : b = a
      · rw [hba, beq_self_eq_true, if_pos rfl, Function.iterate_succ_apply', j.view_step, ih]
      · rw [j.view_step_of_ne _ hba, beq_false_of_ne hba, ih]
        rfl

theorem exists_view_run (s : S) (order : List α) (a : α) :
    ∃ n, j.view a (j.run s order) = (j.own a)^[n] (j.view a s) := by
  classical
  exact ⟨order.count a, j.view_run s order a⟩

theorem view_iterate (s : S) (n : ℕ) (a : α) :
    j.view a ((j.step a)^[n] s) = (j.own a)^[n] (j.view a s) := by
  induction n with
  | zero => rfl
  | succ n ih =>
      rw [Function.iterate_succ_apply', Function.iterate_succ_apply', j.view_step, ih]

/-- What a job comes to by itself. -/
def Alone (s : S) (a : α) (r : Except ε β) : Prop :=
  ∃ n, j.result ((j.own a)^[n] (j.view a s)) = some r

/-- Two numbers of steps that come to a result come to the same part. -/
theorem own_iterate_eq {a : α} {v : V} {m n : ℕ} {r r' : Except ε β}
    (hm : j.result ((j.own a)^[m] v) = some r) (hn : j.result ((j.own a)^[n] v) = some r') :
    (j.own a)^[m] v = (j.own a)^[n] v := by
  have hle : ∀ {m n : ℕ} {r : Except ε β}, m ≤ n → j.result ((j.own a)^[m] v) = some r →
      (j.own a)^[m] v = (j.own a)^[n] v := by
    intro m n r hmn hr
    obtain ⟨d, rfl⟩ := Nat.exists_eq_add_of_le' hmn
    have hfixed : Function.IsFixedPt (j.own a) ((j.own a)^[m] v) := j.own_of_result hr
    rw [Function.iterate_add_apply]
    exact (hfixed.iterate d).symm
  rcases le_total m n with hmn | hnm
  · exact hle hmn hm
  · exact (hle hnm hn).symm

variable {j}

/-- **A result is the one the job comes to alone.** -/
theorem result_eq_alone {s : S} {order : List α} {a : α} {r r' : Except ε β}
    (hr : j.result (j.view a (j.run s order)) = some r) (halone : j.Alone s a r') : r = r' := by
  classical
  obtain ⟨n, hn⟩ := halone
  rw [j.view_run] at hr
  rw [j.own_iterate_eq hr hn, hn] at hr
  exact (Option.some.inj hr).symm

/-- Two runs that have both come to a result of a job agree on its part. -/
theorem view_eq_of_result {s : S} {order order' : List α} {a : α} {r r' : Except ε β}
    (hr : j.result (j.view a (j.run s order)) = some r)
    (hr' : j.result (j.view a (j.run s order')) = some r') :
    j.view a (j.run s order) = j.view a (j.run s order') := by
  classical
  rw [j.view_run] at hr hr'
  rw [j.view_run, j.view_run]
  exact j.own_iterate_eq hr hr'

/-- A job that has a result keeps it. -/
theorem result_step {s : S} {a b : α} {r : Except ε β} (hr : j.result (j.view b s) = some r) :
    j.result (j.view b (j.step a s)) = some r := by
  by_cases hab : a = b
  · subst hab
    rw [j.view_step, j.own_of_result hr, hr]
  · rw [j.view_step_of_ne s hab, hr]

theorem result_run {s : S} {b : α} {r : Except ε β} (hr : j.result (j.view b s) = some r)
    (order : List α) : j.result (j.view b (j.run s order)) = some r := by
  induction order using List.reverseRecOn with
  | nil => exact hr
  | append_singleton order a ih =>
      rw [run_snoc]
      exact result_step ih

/-- A job no step is of keeps its part. -/
theorem view_run_of_notMem {s : S} {order : List α} {a : α} (h : a ∉ order) :
    j.view a (j.run s order) = j.view a s := by
  classical
  rw [j.view_run, List.count_eq_zero_of_not_mem h]
  rfl

end Jobs

/-! ### The loop without workers -/

section Sequential

variable {α ε β : Type} {alone : α → Except ε β}

/-- `[(a, alone(a)) for a in jobs]`. -/
def sequentially (alone : α → Except ε β) : List α → Except ε (List (α × β))
  | [] => .ok []
  | a :: jobs => do
      let b ← alone a
      let later ← sequentially alone jobs
      return (a, b) :: later

theorem sequentially_append_ok {xs ys : List α} {out : List (α × β)}
    (hx : sequentially alone xs = .ok out) :
    sequentially alone (xs ++ ys) = (sequentially alone ys).map (out ++ ·) := by
  induction xs generalizing out with
  | nil =>
      obtain rfl := Except.ok.inj hx
      cases hy : sequentially alone ys <;> simp [Except.map, hy]
  | cons a xs ih =>
      rw [sequentially] at hx
      obtain ⟨b, hb, hx⟩ := ok_of_bind hx
      obtain ⟨later, hlater, hx⟩ := ok_of_bind hx
      obtain rfl := Except.ok.inj hx
      rw [List.cons_append, sequentially, hb, ih hlater]
      cases sequentially alone ys <;> rfl

/-- One job more. -/
theorem sequentially_snoc_ok {xs : List α} {out : List (α × β)} {a : α} {b : β}
    (hx : sequentially alone xs = .ok out) (ha : alone a = .ok b) :
    sequentially alone (xs ++ [a]) = .ok (out ++ [(a, b)]) := by
  rw [sequentially_append_ok hx, sequentially, ha]
  rfl

/-- The first job that raises ends the loop. -/
theorem sequentially_append_error {xs ys : List α} {out : List (α × β)} {a : α} {e : ε}
    (hx : sequentially alone xs = .ok out) (ha : alone a = .error e) :
    sequentially alone (xs ++ a :: ys) = .error e := by
  rw [sequentially_append_ok hx, sequentially, ha]
  rfl

/-- What a loop that returned has of a job. -/
theorem mem_of_sequentially {xs : List α} {out : List (α × β)}
    (h : sequentially alone xs = .ok out) {a : α} {b : β} :
    (a, b) ∈ out ↔ a ∈ xs ∧ alone a = .ok b := by
  induction xs generalizing out with
  | nil =>
      obtain rfl := Except.ok.inj h
      simp
  | cons c xs ih =>
      rw [sequentially] at h
      obtain ⟨d, hd, h⟩ := ok_of_bind h
      obtain ⟨later, hlater, h⟩ := ok_of_bind h
      obtain rfl := Except.ok.inj h
      rw [List.mem_cons, List.mem_cons, ih hlater, Prod.mk.injEq]
      constructor
      · rintro (⟨rfl, rfl⟩ | ⟨hmem, hb⟩)
        · exact ⟨.inl rfl, hd⟩
        · exact ⟨.inr hmem, hb⟩
      · rintro ⟨rfl | hmem, hb⟩
        · exact .inl ⟨rfl, Except.ok.inj (hb.symm.trans hd)⟩
        · exact .inr ⟨hmem, hb⟩

end Sequential

/-! ### The executor -/

/-- The shared state, the jobs still queued, what each worker is at, the jobs whose results the
caller still has to take, the results it has, and what was raised to it. -/
structure Executor (k : ℕ) (α S ε β : Type) where
  shared : S
  queue : List α
  busy : Fin k → Option α
  waiting : List α
  results : List (α × β)
  raised : Option ε

namespace Executor

variable {k : ℕ} {α S V ε β : Type} (j : Jobs α S V ε β)

/-- All jobs submitted, no worker busy. -/
def start (s : S) (jobs : List α) : Executor k α S ε β where
  shared := s
  queue := jobs
  busy := fun _ => none
  waiting := jobs
  results := []
  raised := none

/-- One turn of a worker: it takes a job, makes a step of it, or is done with it. -/
def workerTurn (p : Executor k α S ε β) (w : Fin k) : Executor k α S ε β :=
  match p.busy w with
  | none =>
      match p.queue with
      | [] => p
      | a :: queue => { p with queue := queue, busy := Function.update p.busy w (some a) }
  | some a =>
      match j.result (j.view a p.shared) with
      | some _ => { p with busy := Function.update p.busy w none }
      | none => { p with shared := j.step a p.shared }

/-- One turn of the caller: it takes the next result, or cancels the job queued last. -/
def callerTurn (p : Executor k α S ε β) : Executor k α S ε β :=
  match p.raised with
  | some _ => { p with queue := p.queue.dropLast }
  | none =>
      match p.waiting with
      | [] => p
      | a :: waiting =>
          match j.result (j.view a p.shared) with
          | none => p
          | some (.ok b) => { p with waiting := waiting, results := p.results ++ [(a, b)] }
          | some (.error e) => { p with waiting := waiting, raised := some e }

/-- One turn, of a worker or of the caller. -/
def turn (p : Executor k α S ε β) : Option (Fin k) → Executor k α S ε β
  | some w => workerTurn j p w
  | none => callerTurn j p

/-- The executor after the turns of a schedule. -/
def run (p : Executor k α S ε β) (schedule : List (Option (Fin k))) : Executor k α S ε β :=
  schedule.foldl (turn j) p

/-- Nothing is queued, no worker is busy, and the caller has all it will take. -/
structure Finished (p : Executor k α S ε β) : Prop where
  queue : p.queue = []
  busy : ∀ w, p.busy w = none
  waiting : p.raised = none → p.waiting = []

/-- What the caller comes to. -/
def outcome (p : Executor k α S ε β) : Except ε (List (α × β)) :=
  match p.raised with
  | some e => .error e
  | none => .ok p.results

theorem raised_of_outcome_ok {p : Executor k α S ε β} {out : List (α × β)}
    (h : p.outcome = .ok out) : p.raised = none := by
  obtain hnone | ⟨e, he⟩ := Option.eq_none_or_eq_some p.raised
  · exact hnone
  · rw [outcome, he] at h
    cases h

/-! #### Safety -/

variable {j} {s : S} {jobs : List α} {alone : α → Except ε β}

/-- What holds of an executor at every turn: its shared state is a run of the jobs, every job that is
not cancelled is queued, at a worker or done, and the caller has the results of the first jobs. -/
structure Sound (j : Jobs α S V ε β) (s : S) (jobs : List α) (alone : α → Except ε β)
    (p : Executor k α S ε β) : Prop where
  order : ∃ order, p.shared = j.run s order ∧ ∀ a ∈ order, a ∈ jobs
  queue : ∀ a ∈ p.queue, a ∈ jobs
  busy : ∀ w a, p.busy w = some a → a ∈ jobs
  placed : p.raised = none → ∀ a ∈ jobs,
    a ∈ p.queue ∨ (∃ w, p.busy w = some a) ∨ ∃ r, j.result (j.view a p.shared) = some r
  taken : p.raised = none → ∃ done, jobs = done ++ p.waiting ∧
    sequentially alone done = .ok p.results ∧
      ∀ a ∈ done, ∃ r, j.result (j.view a p.shared) = some r
  failed : ∀ e, p.raised = some e → sequentially alone jobs = .error e

theorem sound_start : Sound j s jobs alone (start s jobs : Executor k α S ε β) where
  order := ⟨[], rfl, by simp⟩
  queue := fun _ ha => ha
  busy := fun _ _ h => by cases h
  placed := fun _ _ ha => .inl ha
  taken := fun _ => ⟨[], rfl, rfl, by simp⟩
  failed := fun _ h => by cases h

variable {p : Executor k α S ε β}

/-- A worker takes a job. -/
theorem Sound.take (h : Sound j s jobs alone p) {w : Fin k} {a : α} {queue : List α}
    (hbusy : p.busy w = none) (hqueue : p.queue = a :: queue) :
    Sound j s jobs alone { p with queue := queue, busy := Function.update p.busy w (some a) } where
  order := h.order
  queue := fun b hb => h.queue b (hqueue ▸ List.mem_cons_of_mem _ hb)
  busy := by
    intro v b hv
    change Function.update p.busy w (some a) v = some b at hv
    by_cases hvw : v = w
    · rw [hvw, Function.update_self] at hv
      exact Option.some.inj hv ▸ h.queue a (hqueue ▸ List.mem_cons_self)
    · rw [Function.update_of_ne hvw] at hv
      exact h.busy v b hv
  placed := by
    intro hraised b hb
    rcases h.placed hraised b hb with hq | ⟨v, hv⟩ | hdone
    · rw [hqueue] at hq
      rcases List.mem_cons.1 hq with rfl | hq
      · exact .inr (.inl ⟨w, Function.update_self ..⟩)
      · exact .inl hq
    · have hvw : v ≠ w := fun heq => by rw [heq, hbusy] at hv; cases hv
      exact .inr (.inl ⟨v, (Function.update_of_ne hvw ..).trans hv⟩)
    · exact .inr (.inr hdone)
  taken := h.taken
  failed := h.failed

/-- A worker is done with its job. -/
theorem Sound.release (h : Sound j s jobs alone p) {w : Fin k} {a : α} {r : Except ε β}
    (hbusy : p.busy w = some a) (hr : j.result (j.view a p.shared) = some r) :
    Sound j s jobs alone { p with busy := Function.update p.busy w none } where
  order := h.order
  queue := h.queue
  busy := by
    intro v b hv
    change Function.update p.busy w none v = some b at hv
    by_cases hvw : v = w
    · rw [hvw, Function.update_self] at hv
      cases hv
    · rw [Function.update_of_ne hvw] at hv
      exact h.busy v b hv
  placed := by
    intro hraised b hb
    rcases h.placed hraised b hb with hq | ⟨v, hv⟩ | hdone
    · exact .inl hq
    · by_cases hvw : v = w
      · rw [hvw, hbusy] at hv
        obtain rfl := Option.some.inj hv
        exact .inr (.inr ⟨r, hr⟩)
      · exact .inr (.inl ⟨v, (Function.update_of_ne hvw ..).trans hv⟩)
    · exact .inr (.inr hdone)
  taken := h.taken
  failed := h.failed

/-- A worker makes a step of its job. -/
theorem Sound.step (h : Sound j s jobs alone p) {a : α} (ha : a ∈ jobs) :
    Sound j s jobs alone { p with shared := j.step a p.shared } where
  order := by
    obtain ⟨order, hshared, hmem⟩ := h.order
    refine ⟨order ++ [a], by rw [j.run_snoc, ← hshared], fun b hb => ?_⟩
    rcases List.mem_append.1 hb with hb | hb
    · exact hmem b hb
    · exact List.mem_singleton.1 hb ▸ ha
  queue := h.queue
  busy := h.busy
  placed := by
    intro hraised b hb
    rcases h.placed hraised b hb with hq | hv | ⟨r, hr⟩
    · exact .inl hq
    · exact .inr (.inl hv)
    · exact .inr (.inr ⟨r, Jobs.result_step hr⟩)
  taken := by
    intro hraised
    obtain ⟨done, hjobs, hseq, hdone⟩ := h.taken hraised
    refine ⟨done, hjobs, hseq, fun b hb => ?_⟩
    obtain ⟨r, hr⟩ := hdone b hb
    exact ⟨r, Jobs.result_step hr⟩
  failed := h.failed

/-- A result there is is the one the job comes to alone. -/
theorem Sound.result_eq (h : Sound j s jobs alone p) (halone : ∀ a ∈ jobs, j.Alone s a (alone a))
    {a : α} (ha : a ∈ jobs) {r : Except ε β} (hr : j.result (j.view a p.shared) = some r) :
    r = alone a := by
  obtain ⟨order, hshared, -⟩ := h.order
  rw [hshared] at hr
  exact Jobs.result_eq_alone hr (halone a ha)

theorem Sound.workerTurn (h : Sound j s jobs alone p) (w : Fin k) :
    Sound j s jobs alone (workerTurn j p w) := by
  unfold Executor.workerTurn
  cases hbusy : p.busy w with
  | none =>
      cases hqueue : p.queue with
      | nil => exact h
      | cons a queue => exact h.take hbusy hqueue
  | some a =>
      dsimp only
      cases hr : j.result (j.view a p.shared) with
      | none => exact h.step (h.busy w a hbusy)
      | some r => exact h.release hbusy hr

/-- The caller cancels a job. -/
theorem Sound.cancel (h : Sound j s jobs alone p) {e : ε} (hraised : p.raised = some e) :
    Sound j s jobs alone { p with queue := p.queue.dropLast } where
  order := h.order
  queue := fun a ha => h.queue a (List.mem_of_mem_dropLast ha)
  busy := h.busy
  placed := fun hnone => absurd (hraised.symm.trans hnone) (Option.some_ne_none e)
  taken := fun hnone => absurd (hraised.symm.trans hnone) (Option.some_ne_none e)
  failed := h.failed

/-- The caller takes a result. -/
theorem Sound.collect (h : Sound j s jobs alone p) (hraised : p.raised = none) {a : α} {b : β}
    {waiting : List α} (hwaiting : p.waiting = a :: waiting)
    (hr : j.result (j.view a p.shared) = some (.ok b)) (halone : alone a = .ok b) :
    Sound j s jobs alone { p with waiting := waiting, results := p.results ++ [(a, b)] } where
  order := h.order
  queue := h.queue
  busy := h.busy
  placed := h.placed
  taken := by
    intro _
    obtain ⟨done, hjobs, hseq, hdone⟩ := h.taken hraised
    refine ⟨done ++ [a], ?_, sequentially_snoc_ok hseq halone, fun c hc => ?_⟩
    · rw [hjobs, hwaiting, List.append_assoc]
      rfl
    · rcases List.mem_append.1 hc with hc | hc
      · exact hdone c hc
      · exact ⟨_, List.mem_singleton.1 hc ▸ hr⟩
  failed := h.failed

/-- The caller takes what raises. -/
theorem Sound.fail (h : Sound j s jobs alone p) (hraised : p.raised = none) {a : α} {e : ε}
    {waiting : List α} (hwaiting : p.waiting = a :: waiting) (halone : alone a = .error e) :
    Sound j s jobs alone { p with waiting := waiting, raised := some e } where
  order := h.order
  queue := h.queue
  busy := h.busy
  placed := fun hnone => absurd hnone (Option.some_ne_none e)
  taken := fun hnone => absurd hnone (Option.some_ne_none e)
  failed := by
    intro e' he
    obtain ⟨done, hjobs, hseq, -⟩ := h.taken hraised
    obtain rfl := Option.some.inj he
    rw [hjobs, hwaiting]
    exact sequentially_append_error hseq halone

/-- What a turn of the caller can do. -/
theorem callerTurn_cases (j : Jobs α S V ε β) (p : Executor k α S ε β) :
    callerTurn j p = p ∨
      (∃ e, p.raised = some e ∧ callerTurn j p = { p with queue := p.queue.dropLast }) ∨
      p.raised = none ∧ ∃ a waiting, p.waiting = a :: waiting ∧
        ((∃ b, j.result (j.view a p.shared) = some (.ok b) ∧ callerTurn j p =
            { p with waiting := waiting, results := p.results ++ [(a, b)] }) ∨
          ∃ e, j.result (j.view a p.shared) = some (.error e) ∧ callerTurn j p =
            { p with waiting := waiting, raised := some e }) := by
  unfold callerTurn
  obtain hraised | ⟨e, hraised⟩ := Option.eq_none_or_eq_some p.raised
  · rw [hraised]
    dsimp only
    cases hwaiting : p.waiting with
    | nil => exact .inl rfl
    | cons a waiting =>
        dsimp only
        cases hr : j.result (j.view a p.shared) with
        | none => exact .inl rfl
        | some r =>
            refine .inr (.inr ⟨rfl, a, waiting, rfl, ?_⟩)
            cases r with
            | ok b => exact .inl ⟨b, hr, rfl⟩
            | error e => exact .inr ⟨e, hr, rfl⟩
  · rw [hraised]
    exact .inr (.inl ⟨e, rfl, rfl⟩)

theorem Sound.callerTurn (h : Sound j s jobs alone p)
    (halone : ∀ a ∈ jobs, j.Alone s a (alone a)) : Sound j s jobs alone (callerTurn j p) := by
  obtain heq | ⟨e, hraised, heq⟩ | ⟨hraised, a, waiting, hwaiting, hr⟩ := callerTurn_cases j p
  · rwa [heq]
  · rw [heq]
    exact h.cancel hraised
  · obtain ⟨done, hjobs, -⟩ := h.taken hraised
    have ha : a ∈ jobs := by simp [hjobs, hwaiting]
    obtain ⟨b, hr, heq⟩ | ⟨e, hr, heq⟩ := hr
    · rw [heq]
      exact h.collect hraised hwaiting hr (h.result_eq halone ha hr).symm
    · rw [heq]
      exact h.fail hraised hwaiting (h.result_eq halone ha hr).symm

/-- **Every turn of every run keeps the executor sound.** -/
theorem sound_run (halone : ∀ a ∈ jobs, j.Alone s a (alone a))
    (schedule : List (Option (Fin k))) :
    Sound j s jobs alone (run j (start s jobs) schedule) := by
  induction schedule using List.reverseRecOn with
  | nil => exact sound_start
  | append_singleton schedule t ih =>
      rw [run, List.foldl_append]
      cases t with
      | none => exact ih.callerTurn halone
      | some w => exact ih.workerTurn w

/-- **An executor that is done has the outcome of the loop without workers.** -/
theorem Sound.outcome_eq_sequentially (h : Sound j s jobs alone p) (hfin : p.Finished) :
    p.outcome = sequentially alone jobs := by
  unfold outcome
  cases hraised : p.raised with
  | some e => exact (h.failed e hraised).symm
  | none =>
      obtain ⟨done, hjobs, hseq, -⟩ := h.taken hraised
      rw [hfin.waiting hraised, List.append_nil] at hjobs
      rw [hjobs, hseq]

/-- Where nothing was raised, every job is done in the end. -/
theorem Sound.done (h : Sound j s jobs alone p) (hfin : p.Finished) (hraised : p.raised = none)
    {a : α} (ha : a ∈ jobs) : ∃ r, j.result (j.view a p.shared) = some r := by
  rcases h.placed hraised a ha with hq | ⟨w, hw⟩ | hdone
  · rw [hfin.queue] at hq
    cases hq
  · rw [hfin.busy w] at hw
    cases hw
  · exact hdone

/-! #### Liveness -/

/-- The steps a job has before it, at most. -/
structure Weight (j : Jobs α S V ε β) where
  weight : V → ℕ
  own_lt : ∀ a v, j.result v = none → weight (j.own a v) < weight v

/-- The workers that are at a job. -/
def active (busy : Fin k → Option α) : ℕ := ∑ w, (busy w).isSome.toNat

theorem active_update (busy : Fin k → Option α) (w : Fin k) (o : Option α) :
    active (Function.update busy w o) + (busy w).isSome.toNat = active busy + o.isSome.toNat := by
  have hrest : ∀ v ∈ Finset.univ.erase w,
      (Function.update busy w o v).isSome.toNat = (busy v).isSome.toNat := by
    intro v hv
    rw [Function.update_of_ne (Finset.ne_of_mem_erase hv)]
  unfold active
  rw [← Finset.add_sum_erase _ _ (Finset.mem_univ w),
    ← Finset.add_sum_erase _ (fun v => (busy v).isSome.toNat) (Finset.mem_univ w),
    Finset.sum_congr rfl hrest, Function.update_self]
  omega

/-- The steps of the jobs, the jobs to be taken by a worker, the workers to be done, and the results
to be taken. -/
def measure (c : Weight j) (jobs : List α) (p : Executor k α S ε β) : ℕ :=
  (jobs.map fun a => c.weight (j.view a p.shared)).sum + 2 * p.queue.length + active p.busy +
    p.waiting.length

/-- A step of a job that is not done. -/
theorem weight_step_lt (c : Weight j) {a : α} (ha : a ∈ jobs) (s : S)
    (hr : j.result (j.view a s) = none) :
    (jobs.map fun b => c.weight (j.view b (j.step a s))).sum <
      (jobs.map fun b => c.weight (j.view b s)).sum := by
  have hlt : c.weight (j.view a (j.step a s)) < c.weight (j.view a s) := by
    rw [j.view_step]
    exact c.own_lt a _ hr
  refine List.sum_lt_sum _ _ (fun b _ => ?_) ⟨a, ha, hlt⟩
  by_cases hab : a = b
  · exact hab ▸ hlt.le
  · rw [j.view_step_of_ne s hab]

/-- **A turn that moves lowers the measure.** -/
theorem Sound.turn_eq_or_lt (h : Sound j s jobs alone p) (c : Weight j) (t : Option (Fin k)) :
    turn j p t = p ∨ measure c jobs (turn j p t) < measure c jobs p := by
  cases t with
  | some w =>
      simp only [turn, Executor.workerTurn]
      cases hbusy : p.busy w with
      | none =>
          cases hqueue : p.queue with
          | nil => exact .inl rfl
          | cons a queue =>
              refine .inr ?_
              have hsum := active_update p.busy w (some a)
              rw [hbusy, Option.isSome_none, Option.isSome_some, Bool.toNat_false,
                Bool.toNat_true] at hsum
              simp only [measure, hqueue, List.length_cons]
              omega
      | some a =>
          dsimp only
          cases hr : j.result (j.view a p.shared) with
          | none =>
              have hlt := weight_step_lt c (h.busy w a hbusy) p.shared hr
              refine .inr ?_
              simp only [measure]
              omega
          | some r =>
              refine .inr ?_
              have hsum := active_update p.busy w none
              rw [hbusy, Option.isSome_none, Option.isSome_some, Bool.toNat_false,
                Bool.toNat_true] at hsum
              simp only [measure]
              omega
  | none =>
      obtain heq | ⟨e, -, heq⟩ | ⟨-, a, waiting, hwaiting, ⟨b, -, heq⟩ | ⟨e, -, heq⟩⟩ :=
        callerTurn_cases j p
      · exact .inl heq
      · rw [turn, heq]
        rcases List.eq_nil_or_concat p.queue with hq | ⟨queue, a, hq⟩
        · refine .inl ?_
          rw [hq, List.dropLast_nil, ← hq]
        · refine .inr ?_
          simp only [measure, hq, List.concat_eq_append, List.dropLast_concat, List.length_append,
            List.length_singleton]
          omega
      · rw [turn, heq]
        refine .inr ?_
        simp only [measure, hwaiting, List.length_cons]
        omega
      · rw [turn, heq]
        refine .inr ?_
        simp only [measure, hwaiting, List.length_cons]
        omega

/-- **Where no turn moves, the executor is done**: it cannot hang. -/
theorem Sound.finished_of_stuck [NeZero k] (h : Sound j s jobs alone p) (c : Weight j)
    (hstuck : ∀ t, turn j p t = p) : p.Finished := by
  have hbusy : ∀ w, p.busy w = none := by
    intro w
    by_contra hne
    obtain ⟨a, ha⟩ := Option.ne_none_iff_exists'.1 hne
    have hw := hstuck (some w)
    simp only [turn, Executor.workerTurn, ha] at hw
    cases hr : j.result (j.view a p.shared) with
    | none =>
        rw [hr] at hw
        have hshared : j.step a p.shared = p.shared := congrArg Executor.shared hw
        have hlt := c.own_lt a _ hr
        rw [← j.view_step, hshared] at hlt
        exact lt_irrefl _ hlt
    | some r =>
        rw [hr] at hw
        have hbusy := congrFun (congrArg Executor.busy hw) w
        simp [ha] at hbusy
  have hqueue : p.queue = [] := by
    cases hq : p.queue with
    | nil => rfl
    | cons a queue =>
        have hw := hstuck (some 0)
        simp only [turn, Executor.workerTurn, hbusy 0, hq] at hw
        have hlen := congrArg (fun p => p.queue.length) hw
        simp [hq] at hlen
  refine ⟨hqueue, hbusy, fun hraised => ?_⟩
  cases hwaiting : p.waiting with
  | nil => rfl
  | cons a waiting =>
      exfalso
      obtain ⟨done, hjobs, -, -⟩ := h.taken hraised
      have ha : a ∈ jobs := by simp [hjobs, hwaiting]
      obtain ⟨r, hr⟩ : ∃ r, j.result (j.view a p.shared) = some r := by
        rcases h.placed hraised a ha with hq | ⟨w, hw⟩ | hdone
        · rw [hqueue] at hq
          cases hq
        · rw [hbusy w] at hw
          cases hw
        · exact hdone
      have hcaller := hstuck none
      simp only [turn, Executor.callerTurn, hraised, hwaiting, hr] at hcaller
      have hlen := congrArg (fun p => p.waiting.length) hcaller
      cases r <;> simp [hwaiting] at hlen

/-- Every turn of the schedule moves. -/
def Moving (j : Jobs α S V ε β) (p : Executor k α S ε β) : List (Option (Fin k)) → Prop
  | [] => True
  | t :: schedule => turn j p t ≠ p ∧ Moving j (turn j p t) schedule

theorem Sound.turn (h : Sound j s jobs alone p) (halone : ∀ a ∈ jobs, j.Alone s a (alone a))
    (t : Option (Fin k)) : Sound j s jobs alone (turn j p t) := by
  cases t with
  | none => exact h.callerTurn halone
  | some w => exact h.workerTurn w

/-- **No more turns move than the measure says.** -/
theorem Sound.length_le_of_moving (h : Sound j s jobs alone p)
    (halone : ∀ a ∈ jobs, j.Alone s a (alone a)) (c : Weight j)
    {schedule : List (Option (Fin k))} (hmoving : Moving j p schedule) :
    schedule.length ≤ measure c jobs p := by
  induction schedule generalizing p with
  | nil => exact Nat.zero_le _
  | cons t schedule ih =>
      have hlen := ih (h.turn halone t) hmoving.2
      have hlt := (h.turn_eq_or_lt c t).resolve_left hmoving.1
      rw [List.length_cons]
      omega

/-- No turn raises the measure. -/
theorem measure_run_le (halone : ∀ a ∈ jobs, j.Alone s a (alone a)) (c : Weight j)
    (schedule : List (Option (Fin k))) :
    measure c jobs (run j (start s jobs : Executor k α S ε β) schedule) ≤
      measure c jobs (start s jobs : Executor k α S ε β) := by
  induction schedule using List.reverseRecOn with
  | nil => exact le_rfl
  | append_singleton schedule t ih =>
      rw [run, List.foldl_append]
      change measure c jobs (Executor.turn j (run j (start s jobs) schedule) t) ≤ _
      obtain heq | hlt := (sound_run halone schedule).turn_eq_or_lt c t
      · rw [heq]
        exact ih
      · exact hlt.le.trans ih

/-- Every executor can be brought to its end. -/
theorem Sound.exists_finished [NeZero k] (h : Sound j s jobs alone p)
    (halone : ∀ a ∈ jobs, j.Alone s a (alone a)) (c : Weight j) :
    ∃ schedule, (run j p schedule).Finished := by
  induction hm : measure c jobs p using Nat.strong_induction_on generalizing p with
  | _ m ih =>
      by_cases hstuck : ∀ t, Executor.turn j p t = p
      · exact ⟨[], h.finished_of_stuck c hstuck⟩
      · obtain ⟨t, ht⟩ := not_forall.1 hstuck
        have hlt := (h.turn_eq_or_lt c t).resolve_left ht
        obtain ⟨schedule, hfin⟩ := ih _ (hm ▸ hlt) (h.turn halone t) rfl
        exact ⟨t :: schedule, hfin⟩

end Executor

end AatsSniper

/-
# Resolving a batch of signatures

`_resolve_one_with_backoff` and `resolve_block_times` of `aats/backtest/block_time_cache.py`.  The
inner resolver is a `Chain`: the answer to the `n`-th call for a signature.  `Batch.pool` is the
executor over the jobs, a turn being a read of the memo, a call or a write; `oneByOne` is the loop
without threads.

A job only reads and writes the entry of its signature (`jobs`), so a pool that is done has the
dict, the memo, the file and the calls of the loop, for any number of threads and any order of their
turns (`Batch.resolve_eq_plain`), and no order of turns hangs (`Batch.resolve_returns`).
-/

import AatsSniper.Backtest.BlockTimeCache
import AatsSniper.Lib.Executor

namespace AatsSniper
namespace Backtest
namespace Corpus

/-- What a call of the inner resolver comes to: a block time, a `BlockTimeUnavailable`, a
`RateLimitedError`, or another exception. -/
inductive Answer
  | value (blockTime : BlockTime)
  | unavailable
  | rateLimited
  | raised (name : String)

/-- The inner resolver: the answer to each call for a signature. -/
abbrev Chain := CodePoints → ℕ → Answer

/-- The parameters of the backoff. -/
structure Backoff where
  maxRetries : ℤ := 6
  baseDelayS : ℚ := 1 / 2
  maxDelayS : ℚ := 8

/-- The delay after a throttled attempt. -/
def Backoff.delay (cfg : Backoff) (attempt : ℕ) : ℚ :=
  min (cfg.baseDelayS * 2 ^ attempt) cfg.maxDelayS

/-- What a job does that is seen outside: a call of the inner resolver, or a sleep. -/
inductive Event
  | call
  | sleep (delayS : ℚ)
  deriving DecidableEq

/-- What `_work` comes to: the exception it lets through, a block time, or `None`. -/
abbrev WorkResult := Except String (Option BlockTime)

/-- `self._cache.get`, where there is a cache. -/
def held (cache : Option BlockTimeCache) (signature : CodePoints) : Option BlockTime :=
  cache.bind fun c => c.map.get signature

/-- `self._cache.put`, where there is a cache. -/
def store (cache : Option BlockTimeCache) (signature : CodePoints) (blockTime : BlockTime) :
    Option BlockTimeCache :=
  cache.map fun c => c.put signature blockTime

/-- Where a job is: before a read of the cache, before a call, before a write, or done. -/
inductive Phase
  | asking (attempt : ℕ)
  | missed (attempt : ℕ)
  | fetched (blockTime : BlockTime)
  | done (result : WorkResult)

/-- What the threads share, and the phase of every job. -/
structure Shared where
  cache : Option BlockTimeCache
  phase : CodePoints → Phase
  log : List (CodePoints × Event)

/-- What a job sees of it: whether there is a cache, its entry, its phase and its events. -/
structure Part where
  memo : Option (Option BlockTime)
  phase : Phase
  events : List Event

section Jobs

variable (cfg : Backoff) (chain : Chain)

/-- A phase, and the events that go with it. -/
def callPhase (signature : CodePoints) (attempt : ℕ) : Phase × List Event :=
  match chain signature attempt with
  | .value blockTime => (.fetched blockTime, [.call])
  | .unavailable => (.done (.ok none), [.call])
  | .raised name => (.done (.error name), [.call])
  | .rateLimited =>
      if cfg.maxRetries ≤ attempt then (.done (.ok none), [.call])
      else (.asking (attempt + 1), [.call, .sleep (cfg.delay attempt)])

/-- One step of a job. -/
def jobStep (signature : CodePoints) (s : Shared) : Shared :=
  match s.phase signature with
  | .asking attempt =>
      match held s.cache signature with
      | some blockTime =>
          { s with phase := Function.update s.phase signature (.done (.ok (some blockTime))) }
      | none => { s with phase := Function.update s.phase signature (.missed attempt) }
  | .missed attempt =>
      let next := callPhase cfg chain signature attempt
      { s with
        phase := Function.update s.phase signature next.1
        log := s.log ++ next.2.map fun e => (signature, e) }
  | .fetched blockTime =>
      { s with
        cache := store s.cache signature blockTime
        phase := Function.update s.phase signature (.done (.ok (some blockTime))) }
  | .done _ => s

/-- The step, on the part of the job. -/
def Part.own (signature : CodePoints) (v : Part) : Part :=
  match v.phase with
  | .asking attempt =>
      match v.memo with
      | some (some blockTime) => { v with phase := .done (.ok (some blockTime)) }
      | _ => { v with phase := .missed attempt }
  | .missed attempt =>
      let next := callPhase cfg chain signature attempt
      { v with phase := next.1, events := v.events ++ next.2 }
  | .fetched blockTime =>
      { v with memo := v.memo.map fun _ => some blockTime, phase := .done (.ok (some blockTime)) }
  | .done _ => v

/-- The events of a signature. -/
def eventsOf (signature : CodePoints) (log : List (CodePoints × Event)) : List Event :=
  (log.filter fun e => e.1 == signature).map Prod.snd

/-- The part of a job. -/
def partOf (signature : CodePoints) (s : Shared) : Part where
  memo := s.cache.map fun c => c.map.get signature
  phase := s.phase signature
  events := eventsOf signature s.log

/-- The result of a job that is done. -/
def Part.result (v : Part) : Option WorkResult :=
  match v.phase with
  | .done result => some result
  | _ => none

theorem eventsOf_append (signature : CodePoints) (log log' : List (CodePoints × Event)) :
    eventsOf signature (log ++ log') = eventsOf signature log ++ eventsOf signature log' := by
  rw [eventsOf, List.filter_append, List.map_append]
  rfl

theorem eventsOf_map (signature : CodePoints) (events : List Event) :
    eventsOf signature (events.map fun e => (signature, e)) = events := by
  induction events with
  | nil => rfl
  | cons e events ih => simpa [eventsOf] using ih

theorem eventsOf_map_of_ne {signature signature' : CodePoints} (h : signature ≠ signature')
    (events : List Event) : eventsOf signature' (events.map fun e => (signature, e)) = [] := by
  induction events with
  | nil => rfl
  | cons e events ih => simp [eventsOf, h]

theorem partOf_jobStep (signature : CodePoints) (s : Shared) :
    partOf signature (jobStep cfg chain signature s) =
      (partOf signature s).own cfg chain signature := by
  unfold jobStep Part.own
  cases hphase : s.phase signature with
  | asking attempt =>
      simp only [partOf, hphase]
      cases hcache : s.cache with
      | none => simp [held]
      | some c => cases hget : c.map.get signature <;> simp [held, hget]
  | missed attempt => simp [partOf, hphase, eventsOf_append, eventsOf_map]
  | fetched blockTime =>
      cases hcache : s.cache <;>
        simp [partOf, hphase, hcache, store, BlockTimeCache.get_put]
  | done result => simp [partOf, hphase]

theorem partOf_jobStep_of_ne {signature signature' : CodePoints} (s : Shared)
    (h : signature ≠ signature') :
    partOf signature' (jobStep cfg chain signature s) = partOf signature' s := by
  unfold jobStep
  cases hphase : s.phase signature with
  | asking attempt =>
      cases hheld : held s.cache signature <;>
        simp [partOf, Function.update_of_ne h.symm]
  | missed attempt =>
      simp [partOf, Function.update_of_ne h.symm, eventsOf_append, eventsOf_map_of_ne h]
  | fetched blockTime =>
      cases hcache : s.cache <;>
        simp [partOf, hcache, store, BlockTimeCache.get_put, h.symm]
  | done result => rfl

/-- **A job keeps to the entry of its signature.** -/
def jobs : Jobs CodePoints Shared Part String (Option BlockTime) where
  view := partOf
  step := jobStep cfg chain
  own := Part.own cfg chain
  result := Part.result
  view_step := partOf_jobStep cfg chain
  view_step_of_ne := fun s h => partOf_jobStep_of_ne cfg chain s h
  own_of_result := by
    intro signature v r h
    unfold Part.own
    unfold Part.result at h
    cases hphase : v.phase <;> rw [hphase] at h <;> simp_all

/-! ### The loop without threads -/

/-- The retries there are. -/
def Backoff.retries (cfg : Backoff) : ℕ := cfg.maxRetries.toNat

/-- What a job comes to: its result, the cache after it, and its events. -/
structure Job where
  result : WorkResult
  cache : Option BlockTimeCache
  events : List Event

/-- `_work(signature)`, from an attempt on, with the retries left: the resolver reads the cache at
every attempt. -/
def work (signature : CodePoints) (cache : Option BlockTimeCache) (left attempt : ℕ) : Job :=
  match held cache signature with
  | some blockTime => ⟨.ok (some blockTime), cache, []⟩
  | none =>
      match chain signature attempt with
      | .value blockTime => ⟨.ok (some blockTime), store cache signature blockTime, [.call]⟩
      | .unavailable => ⟨.ok none, cache, [.call]⟩
      | .raised name => ⟨.error name, cache, [.call]⟩
      | .rateLimited =>
          match left with
          | 0 => ⟨.ok none, cache, [.call]⟩
          | left + 1 =>
              let later := work signature cache left (attempt + 1)
              { later with events := .call :: .sleep (cfg.delay attempt) :: later.events }

/-- `_work(signature)`. -/
def firstWork (signature : CodePoints) (cache : Option BlockTimeCache) : Job :=
  work cfg chain signature cache cfg.retries 0

/-- What the jobs of a loop have come to: their results or what the last one raised, the cache and
the events. -/
structure Loop where
  outcome : Except String (List (CodePoints × Option BlockTime))
  cache : Option BlockTimeCache
  log : List (CodePoints × Event)

/-- The jobs one after the other, up to the first that raises. -/
def oneByOne : List CodePoints → Option BlockTimeCache → Loop
  | [], cache => ⟨.ok [], cache, []⟩
  | signature :: rest, cache =>
      let job := firstWork cfg chain signature cache
      let log := job.events.map fun e => (signature, e)
      match job.result with
      | .error e => ⟨.error e, job.cache, log⟩
      | .ok blockTime =>
          let later := oneByOne rest job.cache
          { outcome := later.outcome.map fun out => (signature, blockTime) :: out
            cache := later.cache
            log := log ++ later.log }

/-- A read that misses, and the call after it. -/
theorem jobStep_miss {signature : CodePoints} {s : Shared} {attempt : ℕ}
    (hphase : s.phase signature = .asking attempt) (hheld : held s.cache signature = none) :
    jobStep cfg chain signature (jobStep cfg chain signature s) =
      { s with
        phase := Function.update s.phase signature (callPhase cfg chain signature attempt).1
        log := s.log ++ (callPhase cfg chain signature attempt).2.map fun e => (signature, e) } := by
  have hmiss : jobStep cfg chain signature s =
      { s with phase := Function.update s.phase signature (.missed attempt) } := by
    rw [jobStep, hphase]
    simp only [hheld]
  rw [hmiss, jobStep]
  simp

/-- A job without interruption is steps of it. -/
theorem jobStep_iterate {signature : CodePoints} {s : Shared} (left attempt : ℕ)
    (hphase : s.phase signature = .asking attempt) (hleft : cfg.retries = attempt + left) :
    ∃ n, (jobStep cfg chain signature)^[n] s =
      { cache := (work cfg chain signature s.cache left attempt).cache
        phase := Function.update s.phase signature
          (.done (work cfg chain signature s.cache left attempt).result)
        log := s.log ++ (work cfg chain signature s.cache left attempt).events.map
          fun e => (signature, e) } := by
  have hretry : cfg.maxRetries ≤ attempt ↔ left = 0 := by
    unfold Backoff.retries at hleft
    omega
  cases hheld : held s.cache signature with
  | some blockTime =>
      refine ⟨1, ?_⟩
      rw [Function.iterate_one, jobStep, hphase, work.eq_def, hheld]
      simp
  | none =>
      have hcall := jobStep_miss cfg chain hphase hheld
      cases hanswer : chain signature attempt with
      | value blockTime =>
          refine ⟨3, ?_⟩
          change jobStep cfg chain signature (jobStep cfg chain signature
            (jobStep cfg chain signature s)) = _
          rw [hcall, jobStep, work.eq_def, hheld]
          simp [callPhase, hanswer]
      | unavailable =>
          refine ⟨2, ?_⟩
          change jobStep cfg chain signature (jobStep cfg chain signature s) = _
          rw [hcall, work.eq_def, hheld]
          simp [callPhase, hanswer]
      | raised name =>
          refine ⟨2, ?_⟩
          change jobStep cfg chain signature (jobStep cfg chain signature s) = _
          rw [hcall, work.eq_def, hheld]
          simp [callPhase, hanswer]
      | rateLimited =>
          cases left with
          | zero =>
              refine ⟨2, ?_⟩
              change jobStep cfg chain signature (jobStep cfg chain signature s) = _
              rw [hcall, work.eq_def, hheld]
              simp [callPhase, hanswer, hretry.2 rfl]
          | succ left =>
              have hmore : ¬ cfg.maxRetries ≤ attempt := fun hle => by simpa using hretry.1 hle
              have hasking : (jobStep cfg chain signature
                  (jobStep cfg chain signature s)).phase signature = .asking (attempt + 1) := by
                rw [hcall]
                simp [callPhase, hanswer, hmore]
              obtain ⟨n, hn⟩ := jobStep_iterate left (attempt + 1) hasking (by omega)
              refine ⟨n + 2, ?_⟩
              rw [Function.iterate_add_apply]
              refine hn.trans ?_
              rw [hcall]
              conv_rhs => rw [work.eq_def, hheld]
              simp [callPhase, hanswer, hmore]

/-- The shared state before any job. -/
def Shared.start (cache : Option BlockTimeCache) : Shared := ⟨cache, fun _ => .asking 0, []⟩

variable {cfg chain} {cache : Option BlockTimeCache}

/-- What a job comes to alone. -/
theorem alone_firstWork (cache : Option BlockTimeCache) (signature : CodePoints) :
    (jobs cfg chain).Alone (Shared.start cache) signature
      (firstWork cfg chain signature cache).result := by
  obtain ⟨n, hn⟩ := @jobStep_iterate cfg chain signature (Shared.start cache) cfg.retries 0 rfl
    (Nat.zero_add _).symm
  refine ⟨n, ?_⟩
  rw [← (jobs cfg chain).view_iterate]
  change Part.result (partOf signature ((jobStep cfg chain signature)^[n] _)) = _
  rw [hn]
  simp [Part.result, partOf, firstWork, Shared.start]

/-- **The loop is a run of the jobs**, its results those of the jobs alone. -/
theorem oneByOne_run (cache : Option BlockTimeCache) {rest order : List CodePoints}
    (hnew : ∀ a ∈ rest, a ∉ order) (hnodup : rest.Nodup) {s : Shared}
    (hs : s = (jobs cfg chain).run (Shared.start cache) order) :
    ∃ order' s', s' = (jobs cfg chain).run (Shared.start cache) (order ++ order') ∧
      (∀ a ∈ order', a ∈ rest) ∧ s'.cache = (oneByOne cfg chain rest s.cache).cache ∧
      s'.log = s.log ++ (oneByOne cfg chain rest s.cache).log ∧
      (oneByOne cfg chain rest s.cache).outcome =
        sequentially (fun a => (firstWork cfg chain a cache).result) rest ∧
      (∀ out, (oneByOne cfg chain rest s.cache).outcome = .ok out →
        ∀ a ∈ rest, ∃ r, (jobs cfg chain).result ((jobs cfg chain).view a s') = some r) := by
  induction rest generalizing order s with
  | nil =>
      refine ⟨[], s, by rw [List.append_nil]; exact hs, by simp, rfl, ?_, rfl, by simp⟩
      exact (List.append_nil _).symm
  | cons a rest ih =>
      have hphase : s.phase a = .asking 0 := by
        have hview := Jobs.view_run_of_notMem (j := jobs cfg chain) (s := Shared.start cache)
          (hnew a List.mem_cons_self)
        rw [← hs] at hview
        exact congrArg Part.phase hview
      obtain ⟨n, hn⟩ := jobStep_iterate cfg chain cfg.retries 0 hphase (Nat.zero_add _).symm
      have hrun : (jobs cfg chain).run (Shared.start cache) (order ++ List.replicate n a) =
          (jobStep cfg chain a)^[n] s := by
        rw [Jobs.run_append, ← hs, Jobs.run_replicate]
        rfl
      have hdone : (jobs cfg chain).result ((jobs cfg chain).view a
          ((jobs cfg chain).run (Shared.start cache) (order ++ List.replicate n a))) =
            some (firstWork cfg chain a s.cache).result := by
        rw [hrun, hn]
        simp [jobs, Part.result, partOf, firstWork]
      have hresult : (firstWork cfg chain a s.cache).result =
          (firstWork cfg chain a cache).result :=
        Jobs.result_eq_alone hdone (alone_firstWork cache a)
      cases hr : (firstWork cfg chain a s.cache).result with
      | error e =>
          refine ⟨List.replicate n a, _, rfl, ?_, ?_, ?_, ?_, ?_⟩
          · intro b hb
            rw [List.eq_of_mem_replicate hb]
            exact List.mem_cons_self
          · rw [hrun, hn, oneByOne, hr]
            rfl
          · rw [hrun, hn, oneByOne, hr]
            rfl
          · rw [oneByOne, hr, sequentially, ← hresult, hr]
            rfl
          · intro out hout
            rw [oneByOne, hr] at hout
            cases hout
      | ok blockTime =>
          obtain ⟨hfirst, hnodup⟩ := List.nodup_cons.1 hnodup
          have hnew' : ∀ b ∈ rest, b ∉ order ++ List.replicate n a := by
            intro b hb hmem
            rcases List.mem_append.1 hmem with hmem | hmem
            · exact hnew b (List.mem_cons_of_mem _ hb) hmem
            · exact hfirst (List.eq_of_mem_replicate hmem ▸ hb)
          obtain ⟨order', s', hs', hsub, hcache, hlog, hout, hall⟩ := ih hnew' hnodup rfl
          have hcacheEq : ((jobs cfg chain).run (Shared.start cache)
              (order ++ List.replicate n a)).cache = (firstWork cfg chain a s.cache).cache := by
            rw [hrun, hn]
            rfl
          have hlogEq : ((jobs cfg chain).run (Shared.start cache)
              (order ++ List.replicate n a)).log =
                s.log ++ (firstWork cfg chain a s.cache).events.map fun e => (a, e) := by
            rw [hrun, hn]
            rfl
          rw [hcacheEq] at hcache hlog hout hall
          rw [hlogEq] at hlog
          refine ⟨List.replicate n a ++ order', s', ?_, ?_, ?_, ?_, ?_, ?_⟩
          · rw [hs', List.append_assoc]
          · intro b hb
            rcases List.mem_append.1 hb with hb | hb
            · rw [List.eq_of_mem_replicate hb]
              exact List.mem_cons_self
            · exact List.mem_cons_of_mem _ (hsub b hb)
          · rw [hcache, oneByOne, hr]
          · rw [hlog, oneByOne, hr]
            exact List.append_assoc _ _ _
          · rw [oneByOne, hr, sequentially, ← hresult, hr]
            change Except.map _ (oneByOne cfg chain rest _).outcome = _
            rw [hout]
            cases sequentially (fun a => (firstWork cfg chain a cache).result) rest <;> rfl
          · intro out hok b hb
            rw [oneByOne, hr] at hok
            rcases List.mem_cons.1 hb with heq | hb
            · refine ⟨(firstWork cfg chain a s.cache).result, ?_⟩
              rw [heq, hs', Jobs.run_append]
              exact Jobs.result_run hdone order'
            · cases hlater : (oneByOne cfg chain rest
                (firstWork cfg chain a s.cache).cache).outcome with
              | error e =>
                  simp only [hlater] at hok
                  cases hok
              | ok later => exact hall later hlater b hb

/-! ### The memo -/

/-- The job found its signature missing, and has not put it in. -/
def Phase.Unheld (phase : Phase) : Prop :=
  (∃ attempt, phase = .missed attempt) ∨ ∃ blockTime, phase = .fetched blockTime

theorem Phase.not_unheld_asking (attempt : ℕ) : ¬ (Phase.asking attempt).Unheld := by
  simp [Phase.Unheld]

theorem Phase.not_unheld_done (result : WorkResult) : ¬ (Phase.done result).Unheld := by
  simp [Phase.Unheld]

/-- A memo that has kept its entries, and is dirty iff it was or has more. -/
structure Grown (c₀ c : BlockTimeCache) : Prop where
  kept : ∀ signature blockTime, c₀.map.get signature = some blockTime →
    c.map.get signature = some blockTime
  dirty : c.dirty = true ↔
    c₀.dirty = true ∨ ∃ signature, c.map.get signature ≠ c₀.map.get signature

theorem Grown.refl (c : BlockTimeCache) : Grown c c where
  kept := fun _ _ h => h
  dirty := by simp

/-- An entry more. -/
theorem Grown.put {c₀ c : BlockTimeCache} (h : Grown c₀ c) {signature : CodePoints}
    (hmiss : c.map.get signature = none) (blockTime : BlockTime) :
    Grown c₀ (c.put signature blockTime) := by
  have hold : c₀.map.get signature = none := by
    cases h₀ : c₀.map.get signature with
    | none => rfl
    | some b =>
        rw [h.kept signature b h₀] at hmiss
        cases hmiss
  constructor
  · intro signature' b hb
    rw [BlockTimeCache.get_put]
    split_ifs with heq
    · rw [heq, hold] at hb
      cases hb
    · exact h.kept signature' b hb
  · have hdirty : (c.put signature blockTime).dirty = true := by
      unfold BlockTimeCache.put
      rw [hmiss, if_pos (Option.some_ne_none _).symm]
    refine ⟨fun _ => .inr ⟨signature, ?_⟩, fun _ => hdirty⟩
    rw [BlockTimeCache.get_put, if_pos rfl, hold]
    exact Option.some_ne_none _

/-- What holds of the memo at every turn. -/
structure MemoSound (cache : Option BlockTimeCache) (s : Shared) : Prop where
  isSome : s.cache.isSome = cache.isSome
  grown : ∀ c₀ c, cache = some c₀ → s.cache = some c → Grown c₀ c
  unheld : ∀ signature, (s.phase signature).Unheld → held s.cache signature = none
  done : ∀ signature blockTime, s.phase signature = .done (.ok (some blockTime)) →
    s.cache.isSome = true → held s.cache signature = some blockTime

theorem memoSound_start (cache : Option BlockTimeCache) : MemoSound cache (Shared.start cache) where
  isSome := rfl
  grown := by
    intro c₀ c h₀ h
    obtain rfl := Option.some.inj (h₀.symm.trans h)
    exact Grown.refl c₀
  unheld := fun _ h => absurd h (Phase.not_unheld_asking 0)
  done := fun _ _ h => by cases h

/-- A call does not end a job with a block time: that is still to be written. -/
theorem callPhase_ne_done (signature : CodePoints) (attempt : ℕ) (blockTime : BlockTime) :
    (callPhase cfg chain signature attempt).1 ≠ .done (.ok (some blockTime)) := by
  unfold callPhase
  cases chain signature attempt with
  | value b => exact Phase.noConfusion
  | unavailable => simp
  | raised name => simp
  | rateLimited =>
      dsimp only
      split_ifs <;> simp

theorem MemoSound.step {s : Shared} (h : MemoSound cache s) (signature : CodePoints) :
    MemoSound cache (jobStep cfg chain signature s) := by
  have hmove : ∀ phase : Phase, (phase.Unheld → held s.cache signature = none) →
      (∀ blockTime, phase = .done (.ok (some blockTime)) →
        held s.cache signature = some blockTime) →
      ∀ log, MemoSound cache ⟨s.cache, Function.update s.phase signature phase, log⟩ := by
    intro phase hunheld hdone log
    refine ⟨h.isSome, h.grown, fun signature' hphase => ?_, fun signature' blockTime hphase => ?_⟩
    · by_cases heq : signature' = signature
      · rw [heq] at hphase ⊢
        exact hunheld (by simpa using hphase)
      · exact h.unheld signature' (by simpa [Function.update_of_ne heq] using hphase)
    · by_cases heq : signature' = signature
      · rw [heq] at hphase ⊢
        exact fun _ => hdone blockTime (by simpa using hphase)
      · exact h.done signature' blockTime (by simpa [Function.update_of_ne heq] using hphase)
  unfold jobStep
  cases hphase : s.phase signature with
  | asking attempt =>
      dsimp only
      cases hheld : held s.cache signature with
      | some blockTime =>
          refine hmove _ (fun hu => absurd hu (Phase.not_unheld_done _)) (fun b hb => ?_) _
          simp only [Phase.done.injEq, Except.ok.injEq, Option.some.injEq] at hb
          rw [hheld, hb]
      | none => exact hmove _ (fun _ => hheld) (fun b hb => by cases hb) _
  | missed attempt =>
      have hmiss : held s.cache signature = none := h.unheld signature (.inl ⟨attempt, hphase⟩)
      refine hmove _ (fun _ => hmiss) (fun b hb => ?_) _
      exact absurd hb (callPhase_ne_done signature attempt b)
  | done result => exact h
  | fetched blockTime =>
      have hmiss : held s.cache signature = none := h.unheld signature (.inr ⟨blockTime, hphase⟩)
      have hother : ∀ signature', signature' ≠ signature →
          held (store s.cache signature blockTime) signature' = held s.cache signature' := by
        intro signature' hne
        cases hcache : s.cache with
        | none => rfl
        | some c => exact (c.get_put signature signature' blockTime).trans (if_neg hne)
      dsimp only
      refine ⟨?_, fun c₀ c h₀ hc => ?_, fun signature' hunheld => ?_,
        fun signature' b hb hsome => ?_⟩
      · rw [← h.isSome]
        exact Option.isSome_map
      · obtain ⟨c', hc', rfl⟩ := Option.map_eq_some_iff.1 hc
        rw [hc'] at hmiss
        exact (h.grown c₀ c' h₀ hc').put hmiss blockTime
      · change (Function.update s.phase signature _ signature').Unheld at hunheld
        by_cases heq : signature' = signature
        · rw [heq, Function.update_self] at hunheld
          exact absurd hunheld (Phase.not_unheld_done _)
        · rw [Function.update_of_ne heq] at hunheld
          exact (hother signature' heq).trans (h.unheld signature' hunheld)
      · obtain ⟨c, hcache⟩ := Option.isSome_iff_exists.1 (Option.isSome_map.symm.trans hsome)
        change Function.update s.phase signature _ signature' = _ at hb
        by_cases heq : signature' = signature
        · rw [heq, Function.update_self] at hb
          simp only [Phase.done.injEq, Except.ok.injEq, Option.some.injEq] at hb
          rw [heq, hcache, ← hb]
          exact (c.get_put signature signature blockTime).trans (if_pos rfl)
        · rw [Function.update_of_ne heq] at hb
          exact (hother signature' heq).trans (h.done signature' b hb (by rw [hcache]; rfl))

theorem memoSound_run (cache : Option BlockTimeCache) (order : List CodePoints) :
    MemoSound cache ((jobs cfg chain).run (Shared.start cache) order) := by
  induction order using List.reverseRecOn with
  | nil => exact memoSound_start cache
  | append_singleton order a ih =>
      rw [Jobs.run_snoc]
      exact ih.step a

/-! ### Liveness -/

/-- The steps a job has before it. -/
def Phase.weight (cfg : Backoff) : Phase → ℕ
  | .asking attempt => 2 * (cfg.retries - attempt) + 3
  | .missed attempt => 2 * (cfg.retries - attempt) + 2
  | .fetched _ => 1
  | .done _ => 0

theorem weight_callPhase_lt (signature : CodePoints) (attempt : ℕ) :
    (callPhase cfg chain signature attempt).1.weight cfg < (Phase.missed attempt).weight cfg := by
  unfold callPhase
  cases chain signature attempt with
  | value blockTime => simp [Phase.weight]
  | unavailable => simp [Phase.weight]
  | raised name => simp [Phase.weight]
  | rateLimited =>
      dsimp only
      split_ifs with hretry
      · simp [Phase.weight]
      · have hlt : attempt < cfg.retries := by
          unfold Backoff.retries
          omega
        simp only [Phase.weight]
        omega

theorem weight_own_lt (signature : CodePoints) (v : Part) (h : v.result = none) :
    (v.own cfg chain signature).phase.weight cfg < v.phase.weight cfg := by
  obtain ⟨memo, phase, events⟩ := v
  cases phase with
  | asking attempt =>
      rcases memo with _ | _ | blockTime <;> simp [Part.own, Phase.weight]
  | missed attempt => exact weight_callPhase_lt signature attempt
  | fetched blockTime => simp [Part.own, Phase.weight]
  | done result => cases h

/-- The jobs come to an end. -/
def weight (cfg : Backoff) (chain : Chain) : Executor.Weight (jobs cfg chain) :=
  ⟨fun v => v.phase.weight cfg, weight_own_lt⟩

end Jobs

/-! ### The batch -/

/-- The arguments of `resolve_block_times` beside the cache. -/
structure Batch where
  signatures : List CodePoints
  chain : Chain
  cfg : Backoff := {}
  maxInFlight : ℤ := 16
  flush : Bool := true

namespace Batch

/-- `list(dict.fromkeys(signatures))`. -/
def unique (b : Batch) : List CodePoints := firstsBy id b.signatures

/-- `max(1, min(max_in_flight, len(unique)))`. -/
def workers (b : Batch) : ℕ := (max 1 (min b.maxInFlight b.unique.length)).toNat

instance (b : Batch) : NeZero b.workers := ⟨by unfold workers; omega⟩

/-- The order of the turns, of the workers and of the caller. -/
abbrev Schedule (b : Batch) := List (Option (Fin b.workers))

/-- `ThreadPoolExecutor(max_workers=workers)` after the turns of a schedule. -/
def pool (b : Batch) (cache : Option BlockTimeCache) (schedule : b.Schedule) :
    Executor b.workers CodePoints Shared String (Option BlockTime) :=
  Executor.run (jobs b.cfg b.chain) (Executor.start (Shared.start cache) b.unique) schedule

/-- The loop without threads. -/
def loop (b : Batch) (cache : Option BlockTimeCache) : Loop :=
  oneByOne b.cfg b.chain b.unique cache

end Batch

/-- What `resolve_block_times` raises: what the resolver did, or the flush. -/
inductive ResolveError
  | resolver (name : String)
  | flush (e : PyError)

/-- The dict or what was raised, the cache and the file. -/
structure Resolved where
  result : Except ResolveError BlockTimes
  cache : Option BlockTimeCache
  file : Option Bytes

/-- `if block_time is not None: resolved[signature] = block_time`. -/
def addFound (resolved : BlockTimes) (r : CodePoints × Option BlockTime) : BlockTimes :=
  match r.2 with
  | some blockTime => resolved.upsert (r.1, blockTime)
  | none => resolved

/-- `resolved`: the block times that were found. -/
def toDict (results : List (CodePoints × Option BlockTime)) : BlockTimes :=
  results.foldl addFound Table.empty

namespace Batch

/-- What comes after the jobs. -/
def finish (b : Batch) (file : Option Bytes)
    (outcome : Except String (List (CodePoints × Option BlockTime)))
    (cache : Option BlockTimeCache) : Resolved :=
  if b.unique.isEmpty then ⟨.ok Table.empty, cache, file⟩
  else
    match outcome with
    | .error name => ⟨.error (.resolver name), cache, file⟩
    | .ok results =>
        match cache with
        | none => ⟨.ok (toDict results), none, file⟩
        | some c =>
            if !b.flush then ⟨.ok (toDict results), some c, file⟩
            else
              match c.flush file with
              | .ok (file, c) => ⟨.ok (toDict results), some c, file⟩
              | .error e => ⟨.error (.flush e), some c, file⟩

/-- `resolve_block_times(signatures)`, under a schedule. -/
def resolve (b : Batch) (cache : Option BlockTimeCache) (file : Option Bytes)
    (schedule : b.Schedule) : Resolved :=
  b.finish file (b.pool cache schedule).outcome (b.pool cache schedule).shared.cache

/-- `resolve_block_times(signatures)`, without threads. -/
def resolvePlain (b : Batch) (cache : Option BlockTimeCache) (file : Option Bytes) : Resolved :=
  b.finish file (b.loop cache).outcome (b.loop cache).cache

variable {b : Batch} {cache : Option BlockTimeCache} {file : Option Bytes} {schedule : b.Schedule}

theorem nodup_unique (b : Batch) : b.unique.Nodup := by
  have h : (b.unique.map id).Nodup := nodup_firstsBy
  rwa [List.map_id] at h

theorem sound_pool (b : Batch) (cache : Option BlockTimeCache) (schedule : b.Schedule) :
    Executor.Sound (jobs b.cfg b.chain) (Shared.start cache) b.unique
      (fun a => (firstWork b.cfg b.chain a cache).result) (b.pool cache schedule) :=
  Executor.sound_run (fun a _ => alone_firstWork cache a) schedule

theorem outcome_pool (hfin : (b.pool cache schedule).Finished) :
    (b.pool cache schedule).outcome = (b.loop cache).outcome := by
  obtain ⟨_, _, -, -, -, -, hloop, -⟩ := @oneByOne_run b.cfg b.chain cache b.unique []
    (by simp) b.nodup_unique _ rfl
  exact ((b.sound_pool cache schedule).outcome_eq_sequentially hfin).trans hloop.symm

/-- A pool that is done and raised nothing has the parts of the loop. -/
theorem partOf_pool (hfin : (b.pool cache schedule).Finished)
    {out : List (CodePoints × Option BlockTime)} (hout : (b.loop cache).outcome = .ok out) :
    ∃ s, s.cache = (b.loop cache).cache ∧ s.log = (b.loop cache).log ∧ MemoSound cache s ∧
      MemoSound cache (b.pool cache schedule).shared ∧
      ∀ signature, partOf signature (b.pool cache schedule).shared = partOf signature s := by
  obtain ⟨order', s, hs, hsub', hcache, hlog, -, hdone'⟩ := @oneByOne_run b.cfg b.chain cache
    b.unique [] (by simp) b.nodup_unique _ rfl
  rw [List.nil_append] at hs
  have hsound := b.sound_pool cache schedule
  obtain ⟨order, hshared, hsub⟩ := hsound.order
  have hraised : (b.pool cache schedule).raised = none :=
    Executor.raised_of_outcome_ok ((outcome_pool hfin).trans hout)
  refine ⟨s, hcache, hlog, ?_, ?_, fun signature => ?_⟩
  · rw [hs]
    exact memoSound_run cache order'
  · rw [hshared]
    exact memoSound_run cache order
  · by_cases hmem : signature ∈ b.unique
    · obtain ⟨r, hr⟩ := hsound.done hfin hraised hmem
      obtain ⟨r', hr'⟩ := hdone' out hout signature hmem
      rw [hshared] at hr ⊢
      rw [hs] at hr' ⊢
      exact Jobs.view_eq_of_result hr hr'
    · rw [hshared, hs]
      exact (Jobs.view_run_of_notMem (j := jobs b.cfg b.chain) fun h => hmem (hsub _ h)).trans
        (Jobs.view_run_of_notMem (j := jobs b.cfg b.chain) fun h => hmem (hsub' _ h)).symm

/-- The memos of two sound states with the same parts are flushed alike. -/
theorem finish_congr (b : Batch) (file : Option Bytes) {s s' : Shared} (h : MemoSound cache s)
    (h' : MemoSound cache s')
    (hpart : ∀ signature, partOf signature s = partOf signature s')
    (outcome : Except String (List (CodePoints × Option BlockTime))) :
    (b.finish file outcome s.cache).result = (b.finish file outcome s'.cache).result ∧
      (b.finish file outcome s.cache).file = (b.finish file outcome s'.cache).file ∧
      ∀ signature, held (b.finish file outcome s.cache).cache signature =
        held (b.finish file outcome s'.cache).cache signature := by
  have hmemo : ∀ signature, s.cache.map (fun c => c.map.get signature) =
      s'.cache.map fun c => c.map.get signature := fun signature =>
    congrArg Part.memo (hpart signature)
  cases hc : s.cache with
  | none =>
      have hc' : s'.cache = none := by
        rw [← Option.isNone_iff_eq_none, ← Option.not_isSome, h'.isSome, ← h.isSome, hc]
        rfl
      rw [hc']
      exact ⟨rfl, rfl, fun _ => rfl⟩
  | some c =>
      obtain ⟨c', hc'⟩ : ∃ c', s'.cache = some c' := by
        rw [← Option.isSome_iff_exists, h'.isSome, ← h.isSome, hc]
        rfl
      obtain ⟨c₀, hc₀⟩ : ∃ c₀, cache = some c₀ := by
        rw [← Option.isSome_iff_exists, ← h.isSome, hc]
        rfl
      have hget : ∀ signature, c.map.get signature = c'.map.get signature := by
        intro signature
        have := hmemo signature
        rw [hc, hc'] at this
        exact Option.some.inj this
      have hdirty : c.dirty = c'.dirty := by
        rw [Bool.eq_iff_iff, (h.grown c₀ c hc₀ hc).dirty, (h'.grown c₀ c' hc₀ hc').dirty]
        simp only [hget]
      rw [hc']
      unfold finish
      split_ifs
      · exact ⟨rfl, rfl, hget⟩
      · cases outcome <;> exact ⟨rfl, rfl, hget⟩
      · cases outcome with
        | error name => exact ⟨rfl, rfl, hget⟩
        | ok results =>
            dsimp only
            obtain ⟨e, he, he'⟩ | ⟨file', hf, hf'⟩ := BlockTimeCache.flush_congr hget hdirty file
            · rw [he, he']
              exact ⟨rfl, rfl, hget⟩
            · rw [hf, hf']
              exact ⟨rfl, rfl, hget⟩

/-- What a batch returns. -/
theorem finish_result {outcome : Except String (List (CodePoints × Option BlockTime))}
    {resolved : BlockTimes} (h : (b.finish file outcome cache).result = .ok resolved) :
    (b.unique = [] ∧ resolved = Table.empty) ∨
      ∃ out, outcome = .ok out ∧ resolved = toDict out := by
  unfold finish at h
  split_ifs at h with hempty
  · exact .inl ⟨List.isEmpty_iff.1 hempty, (Except.ok.inj h).symm⟩
  · cases outcome with
    | error name => cases h
    | ok out =>
        refine .inr ⟨out, rfl, ?_⟩
        cases cache <;> exact (Except.ok.inj h).symm
  · cases outcome with
    | error name => cases h
    | ok out =>
        refine .inr ⟨out, rfl, ?_⟩
        cases cache with
        | none => exact (Except.ok.inj h).symm
        | some c =>
            dsimp only at h
            cases hflush : c.flush file with
            | error e =>
                rw [hflush] at h
                cases h
            | ok r =>
                rw [hflush] at h
                exact (Except.ok.inj h).symm

/-- **Threads change nothing**: however many workers there are and however their turns are mixed,
a batch that is done has the dict or the exception of the loop without threads, and leaves the same
file; and where nothing is raised, the same memo, with the same calls and sleeps of every
signature in the same order. -/
theorem resolve_eq_plain (b : Batch) (cache : Option BlockTimeCache) (file : Option Bytes)
    (schedule : b.Schedule) (hfin : (b.pool cache schedule).Finished) :
    (b.resolve cache file schedule).result = (b.resolvePlain cache file).result ∧
      (b.resolve cache file schedule).file = (b.resolvePlain cache file).file ∧
      ∀ out, (b.loop cache).outcome = .ok out → ∀ signature,
        held (b.resolve cache file schedule).cache signature =
            held (b.resolvePlain cache file).cache signature ∧
          eventsOf signature (b.pool cache schedule).shared.log =
            eventsOf signature (b.loop cache).log := by
  unfold resolve resolvePlain
  rw [outcome_pool hfin]
  cases hout : (b.loop cache).outcome with
  | error name =>
      have hfinish : ∀ c, (b.finish file (.error name) c).result =
            (if b.unique.isEmpty then .ok Table.empty else .error (.resolver name)) ∧
          (b.finish file (.error name) c).file = file := by
        intro c
        unfold finish
        split_ifs <;> exact ⟨rfl, rfl⟩
      refine ⟨?_, ?_, fun out hok => by cases hok⟩
      · rw [(hfinish _).1, (hfinish _).1]
      · rw [(hfinish _).2, (hfinish _).2]
  | ok out =>
      obtain ⟨s, hcache, hlog, hsound', hsound, hpart⟩ := partOf_pool hfin hout
      obtain ⟨hresult, hfile, hheld⟩ := finish_congr b file hsound hsound' hpart
        (.ok out)
      rw [hcache] at hresult hfile hheld
      refine ⟨hresult, hfile, fun _ _ signature => ⟨hheld signature, ?_⟩⟩
      rw [← hlog]
      exact congrArg Part.events (hpart signature)

/-- **No order of the turns hangs**: after any turns, no more of them can move than the jobs, their
retries and their calls come to; a pool none can move is done, and every pool can be brought
there. -/
theorem resolve_returns (b : Batch) (cache : Option BlockTimeCache) (schedule : b.Schedule) :
    (∀ later, Executor.Moving (jobs b.cfg b.chain) (b.pool cache schedule) later →
        later.length ≤ b.unique.length * (2 * b.cfg.retries + 6)) ∧
      ((∀ t, Executor.turn (jobs b.cfg b.chain) (b.pool cache schedule) t =
        b.pool cache schedule) → (b.pool cache schedule).Finished) ∧
      ∃ later, (b.pool cache (schedule ++ later)).Finished := by
  have halone : ∀ a ∈ b.unique, (jobs b.cfg b.chain).Alone (Shared.start cache) a
      (firstWork b.cfg b.chain a cache).result := fun a _ => alone_firstWork cache a
  have hsound := b.sound_pool cache schedule
  refine ⟨fun later hmoving => ?_, hsound.finished_of_stuck (weight b.cfg b.chain), ?_⟩
  · have hstart : Executor.measure (weight b.cfg b.chain) b.unique
        (Executor.start (Shared.start cache) b.unique :
          Executor b.workers CodePoints Shared String (Option BlockTime)) =
        b.unique.length * (2 * b.cfg.retries + 6) := by
      have hweight : ∀ a : CodePoints, (weight b.cfg b.chain).weight
          ((jobs b.cfg b.chain).view a (Shared.start cache)) = 2 * b.cfg.retries + 3 :=
        fun _ => rfl
      simp only [Executor.measure, Executor.start, hweight, List.map_const', List.sum_replicate,
        Executor.active, Option.isSome_none, Bool.toNat_false, Finset.sum_const_zero, smul_eq_mul]
      ring
    calc later.length ≤ Executor.measure (weight b.cfg b.chain) b.unique (b.pool cache schedule) :=
          hsound.length_le_of_moving halone (weight b.cfg b.chain) hmoving
      _ ≤ _ := Executor.measure_run_le halone (weight b.cfg b.chain) schedule
      _ = _ := hstart
  · obtain ⟨later, hfin⟩ := hsound.exists_finished halone (weight b.cfg b.chain)
    refine ⟨later, ?_⟩
    rw [pool, Executor.run, List.foldl_append]
    exact hfin

end Batch

/-- Two signatures, one twice: a throttled one, and one that is not found. -/
def sampleBatch : Batch where
  signatures := [[65], [66], [65]]
  chain
    | [66], _ => .unavailable
    | _, 0 => .rateLimited
    | _, _ => .value ⟨1, 1000⟩

/-- Two workers and the caller in turn. -/
def sampleSchedule : sampleBatch.Schedule :=
  (List.replicate 8 [some ⟨0, by decide⟩, some ⟨1, by decide⟩, none]).flatten

theorem finished_sample : (sampleBatch.pool (some {}) sampleSchedule).Finished where
  queue := by decide
  busy := by decide
  waiting := fun _ => by decide

/-- `resolve_eq_plain` applies. -/
theorem resolve_eq_plain_sample :
    (sampleBatch.resolve (some {}) none sampleSchedule).result =
        (sampleBatch.resolvePlain (some {}) none).result ∧
      (sampleBatch.resolve (some {}) none sampleSchedule).file =
        (sampleBatch.resolvePlain (some {}) none).file :=
  have h := Batch.resolve_eq_plain sampleBatch (some {}) none sampleSchedule finished_sample
  ⟨h.1, h.2.1⟩

end Corpus
end Backtest
end AatsSniper

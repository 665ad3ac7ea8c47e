/-
# Sessions over one cache file

The processes of `run_edge_proof` one after the other: each loads the file into a new
`BlockTimeCache`, resolves a batch and flushes, or is killed before the file is replaced.  The
resolvers, the backoff, the number of threads and the order of their turns differ from session to
session.

A session leaves what the file holds and, where it flushes, adds what it resolved
(`resolve_written`).  So what a session has resolved is not asked for again, whatever later sessions
there are, and every one of them has the same block time (`resolved_once`).
-/

import AatsSniper.Backtest.Prefetch

namespace AatsSniper
namespace Backtest
namespace Corpus

/-- A process, under the order of the turns of its threads. -/
structure Session where
  batch : Batch
  schedule : batch.Schedule
  killed : Bool

/-- `BlockTimeCache(path)`. -/
def openCache (depthLimit : ℕ) (file : Option Bytes) : Except CacheLoadError BlockTimeCache :=
  BlockTimeCache.load depthLimit {} file

/-- The file a session leaves. -/
def Session.leaves (depthLimit : ℕ) (file : Option Bytes) (s : Session) : Option Bytes :=
  match openCache depthLimit file with
  | .error _ => file
  | .ok c => if s.killed then file else (s.batch.resolve (some c) file s.schedule).file

/-- The file after some sessions, with none at first. -/
def fileAfter (depthLimit : ℕ) (sessions : List Session) : Option Bytes :=
  sessions.foldl (Session.leaves depthLimit) none

/-- A file a flush has written, or none, with what it holds. -/
inductive Written : Option Bytes → BlockTimes → Prop
  | absent : Written none Table.empty
  | flushed {map : BlockTimes} (hkeys : ∀ e ∈ map.rows, Json.Whole e.1)
      (hprint : ∀ e ∈ map.rows, Printable e.2) : Written (some (flushed map)) map

variable {depthLimit : ℕ} {file : Option Bytes} {map : BlockTimes}

/-- A written file loads as what it holds. -/
theorem Written.opened (hdepth : 3 ≤ depthLimit) (h : Written file map) :
    ∃ c, openCache depthLimit file = .ok c ∧
      ∀ signature, c.map.get signature = map.get signature := by
  cases h with
  | absent => exact ⟨{}, rfl, fun _ => rfl⟩
  | flushed hkeys hprint =>
      obtain ⟨map', hload, hrows⟩ := load_flushed hdepth hkeys hprint
      refine ⟨⟨map', false⟩, hload, fun signature => ?_⟩
      have hmem : ∀ e, e ∈ map'.rows ↔ e ∈ map.rows := by
        intro e
        rw [hrows, mem_sortBy]
      exact congrArg (Option.map Prod.snd) (Table.get?_congr hmem signature)

theorem Written.whole (h : Written file map) {signature : CodePoints} {blockTime : BlockTime}
    (hget : map.get signature = some blockTime) : Json.Whole signature := by
  have hget? := map.get?_eq signature
  rw [hget] at hget?
  obtain ⟨hmem, -⟩ := Table.mem_of_get? hget?
  cases h with
  | absent => cases hmem
  | flushed hkeys hprint => exact hkeys _ hmem

section Pool

variable {b : Batch} {c : BlockTimeCache} {schedule : b.Schedule}

/-- The memo of a pool: the one it was given, with more entries, all of the batch. -/
theorem memo_pool (b : Batch) (c : BlockTimeCache) (schedule : b.Schedule) :
    ∃ c', (b.pool (some c) schedule).shared.cache = some c' ∧ Grown c c' ∧
      (∀ signature, signature ∉ b.unique → c'.map.get signature = c.map.get signature) ∧
      ∀ signature blockTime, (b.pool (some c) schedule).shared.phase signature =
        .done (.ok (some blockTime)) → c'.map.get signature = some blockTime := by
  obtain ⟨order, hshared, hsub⟩ := (b.sound_pool (some c) schedule).order
  have hmemo : MemoSound (some c) (b.pool (some c) schedule).shared := by
    rw [hshared]
    exact memoSound_run (some c) order
  obtain ⟨c', hc'⟩ := Option.isSome_iff_exists.1 hmemo.isSome
  refine ⟨c', hc', hmemo.grown c c' rfl hc', fun signature hnot => ?_,
    fun signature blockTime hphase => ?_⟩
  · have hview := Jobs.view_run_of_notMem (j := jobs b.cfg b.chain) (s := Shared.start (some c))
      (fun h => hnot (hsub signature h))
    rw [← hshared] at hview
    have hpart := congrArg Part.memo hview
    change Option.map _ (b.pool (some c) schedule).shared.cache = _ at hpart
    rw [hc'] at hpart
    exact Option.some.inj hpart
  · have hheld := hmemo.done signature blockTime hphase (by rw [hc']; rfl)
    rw [hc'] at hheld
    exact hheld

/-- A job whose signature is held makes no call, and comes to the block time held. -/
theorem partOf_held {signature : CodePoints} {blockTime : BlockTime}
    (hget : c.map.get signature = some blockTime) (schedule : b.Schedule) :
    ∃ phase, partOf signature (b.pool (some c) schedule).shared =
        ⟨some (some blockTime), phase, []⟩ ∧
      (phase = .asking 0 ∨ phase = .done (.ok (some blockTime))) := by
  obtain ⟨order, hshared, -⟩ := (b.sound_pool (some c) schedule).order
  obtain ⟨steps, hview⟩ := (jobs b.cfg b.chain).exists_view_run (Shared.start (some c)) order
    signature
  rw [← hshared] at hview
  have hiterate : ∀ n, ∃ phase, ((Part.own b.cfg b.chain signature)^[n]
      (partOf signature (Shared.start (some c)))) = ⟨some (some blockTime), phase, []⟩ ∧
        (phase = .asking 0 ∨ phase = .done (.ok (some blockTime))) := by
    intro n
    induction n with
    | zero =>
        refine ⟨.asking 0, ?_, .inl rfl⟩
        change Part.mk (some (c.map.get signature)) (.asking 0) [] = _
        rw [hget]
    | succ n ih =>
        obtain ⟨phase, hpart, rfl | rfl⟩ := ih
        · refine ⟨_, ?_, .inr rfl⟩
          rw [Function.iterate_succ_apply', hpart]
          rfl
        · refine ⟨_, ?_, .inr rfl⟩
          rw [Function.iterate_succ_apply', hpart]
          rfl
  obtain ⟨phase, hpart, hphase⟩ := hiterate steps
  exact ⟨phase, hview.trans hpart, hphase⟩

theorem result_view_iff {s : Shared} {signature : CodePoints} {r : WorkResult} :
    (jobs b.cfg b.chain).result ((jobs b.cfg b.chain).view signature s) = some r ↔
      s.phase signature = .done r := by
  change Part.result (partOf signature s) = some r ↔ _
  unfold Part.result partOf
  cases s.phase signature <;> simp

/-- A pool that is done has done every job. -/
theorem exists_done {cache : Option BlockTimeCache} (hfin : (b.pool cache schedule).Finished)
    {out : List (CodePoints × Option BlockTime)}
    (hout : (b.pool cache schedule).outcome = .ok out) {signature : CodePoints}
    (hmem : signature ∈ b.unique) :
    ∃ r, (b.pool cache schedule).shared.phase signature = .done r := by
  obtain ⟨r, hr⟩ := (b.sound_pool cache schedule).done hfin
    (Executor.raised_of_outcome_ok hout) hmem
  exact ⟨r, result_view_iff.1 hr⟩

/-- The results of a pool that is done. -/
theorem mem_outcome_iff {cache : Option BlockTimeCache} (hfin : (b.pool cache schedule).Finished)
    {out : List (CodePoints × Option BlockTime)}
    (hout : (b.pool cache schedule).outcome = .ok out) {signature : CodePoints}
    {found : Option BlockTime} : (signature, found) ∈ out ↔
      signature ∈ b.unique ∧
        (b.pool cache schedule).shared.phase signature = .done (.ok found) := by
  have hsound := b.sound_pool cache schedule
  have hseq := hout
  rw [hsound.outcome_eq_sequentially hfin] at hseq
  rw [mem_of_sequentially hseq, ← result_view_iff]
  refine and_congr_right fun hmem => ?_
  obtain ⟨r, hr⟩ := hsound.done hfin (Executor.raised_of_outcome_ok hout) hmem
  rw [hr, hsound.result_eq (fun a _ => alone_firstWork cache a) hmem hr, Option.some.injEq]

/-- What the dict has of a signature. -/
theorem get_toDict {out : List (CodePoints × Option BlockTime)}
    (hkeys : ∀ r ∈ out, ∀ r' ∈ out, r.1 = r'.1 → r.2 = r'.2) {signature : CodePoints}
    {blockTime : BlockTime} :
    (toDict out).get signature = some blockTime ↔ (signature, some blockTime) ∈ out := by
  induction out using List.reverseRecOn with
  | nil => simp [toDict]
  | append_singleton out r ih =>
      have ih := ih fun r hr r' hr' => hkeys r (List.mem_append_left _ hr) r'
        (List.mem_append_left _ hr')
      have hlast : r ∈ out ++ [r] := List.mem_append_right _ (List.mem_singleton_self r)
      have hsnoc : toDict (out ++ [r]) = addFound (toDict out) r := List.foldl_append
      rw [hsnoc, List.mem_append, List.mem_singleton, ← ih]
      obtain ⟨signature', _ | blockTime'⟩ := r
      · simp [addFound]
      · change BlockTimes.get ((toDict out).upsert (signature', blockTime')) signature = _ ↔ _
        rw [BlockTimes.get_upsert]
        by_cases heq : signature = signature'
        · rw [if_pos heq, heq]
          refine ⟨fun h => .inr (by rw [h]), fun h => ?_⟩
          rcases h with h | h
          · have hmem : (signature', some blockTime) ∈ out := by
              rw [← heq] at h ⊢
              exact ih.1 h
            exact (hkeys _ (List.mem_append_left _ hmem) _ hlast rfl).symm
          · exact (congrArg Prod.snd h).symm
        · rw [if_neg heq]
          exact ⟨.inl, fun h => h.resolve_right fun h => heq (congrArg Prod.fst h)⟩

/-- The block times of a pool that is done and returned. -/
theorem get_resolved_iff {cache : Option BlockTimeCache} {file : Option Bytes}
    (hfin : (b.pool cache schedule).Finished) {resolved : BlockTimes}
    (hresult : (b.resolve cache file schedule).result = .ok resolved) {signature : CodePoints}
    {blockTime : BlockTime} : resolved.get signature = some blockTime ↔
      signature ∈ b.unique ∧
        (b.pool cache schedule).shared.phase signature = .done (.ok (some blockTime)) := by
  obtain ⟨hempty, rfl⟩ | ⟨out, hout, rfl⟩ := Batch.finish_result hresult
  · simp [hempty]
  · rw [get_toDict fun r hr r' hr' hkey => ?_, mem_outcome_iff hfin hout]
    have hphase := ((mem_outcome_iff hfin hout).1 hr).2
    have hphase' := ((mem_outcome_iff hfin hout).1 hr').2
    rw [hkey, hphase'] at hphase
    exact (Except.ok.inj (Phase.done.inj hphase)).symm

/-- The file of a batch: as it was, where nothing was to be written, or the one of the memo. -/
theorem file_resolve (file : Option Bytes) {c' : BlockTimeCache}
    (hc' : (b.pool (some c) schedule).shared.cache = some c') :
    ((b.resolve (some c) file schedule).file = file ∧
        (b.flush = true → ∀ resolved, (b.resolve (some c) file schedule).result = .ok resolved →
          c'.dirty = false ∨ b.unique = [])) ∨
      ((b.resolve (some c) file schedule).file = some (flushed c'.map) ∧
        ∀ e ∈ c'.map.rows, Printable e.2) := by
  unfold Batch.resolve Batch.finish
  rw [hc']
  split_ifs with hempty hflush
  · exact .inl ⟨rfl, fun _ _ _ => .inr (List.isEmpty_iff.1 hempty)⟩
  · refine .inl ⟨?_, fun hf => ?_⟩
    · cases (b.pool (some c) schedule).outcome <;> rfl
    · rw [hf] at hflush
      cases hflush
  · cases (b.pool (some c) schedule).outcome with
    | error name => exact .inl ⟨rfl, fun _ _ hr => by cases hr⟩
    | ok out =>
        dsimp only
        unfold BlockTimeCache.flush
        split_ifs with hdirty hprint
        · exact .inl ⟨rfl, fun _ _ _ => .inl (by simpa using hdirty)⟩
        · exact .inr ⟨rfl, hprint⟩
        · exact .inl ⟨rfl, fun _ _ hr => by cases hr⟩

/-- **What a session makes of a written file**: it keeps what the file holds, and where the session
flushes and returns, the file holds what it resolved. -/
theorem resolve_written (h : Written file map)
    (hsame : ∀ signature, c.map.get signature = map.get signature)
    (hwhole : ∀ signature ∈ b.signatures, Json.Whole signature) (schedule : b.Schedule) :
    ∃ map', Written (b.resolve (some c) file schedule).file map' ∧
      (∀ signature blockTime, map.get signature = some blockTime →
        map'.get signature = some blockTime) ∧
      (b.flush = true → (b.pool (some c) schedule).Finished → ∀ resolved,
        (b.resolve (some c) file schedule).result = .ok resolved →
          ∀ signature blockTime, resolved.get signature = some blockTime →
            map'.get signature = some blockTime) := by
  obtain ⟨c', hc', hgrown, hother, hdone⟩ := memo_pool b c schedule
  have hresolved : (b.pool (some c) schedule).Finished → ∀ resolved,
      (b.resolve (some c) file schedule).result = .ok resolved →
        ∀ signature blockTime, resolved.get signature = some blockTime →
          c'.map.get signature = some blockTime := by
    intro hfin resolved hresult signature blockTime hget
    exact hdone signature blockTime ((get_resolved_iff hfin hresult).1 hget).2
  have hkept : ∀ signature blockTime, map.get signature = some blockTime →
      c'.map.get signature = some blockTime := by
    intro signature blockTime hget
    exact hgrown.kept signature blockTime ((hsame signature).trans hget)
  have hkeys : ∀ e ∈ c'.map.rows, Json.Whole e.1 := by
    intro e he
    have hget : c'.map.get e.1 = some e.2 := congrArg (Option.map Prod.snd)
      (Table.get?_eq_some.2 ⟨he, rfl⟩)
    by_cases hmem : e.1 ∈ b.unique
    · exact hwhole _ (mem_of_mem_firstsBy hmem)
    · rw [hother _ hmem, hsame] at hget
      exact h.whole hget
  rcases file_resolve file hc' with ⟨hfile, hunchanged⟩ | ⟨hfile, hprint⟩
  · rw [hfile]
    refine ⟨map, h, fun _ _ hget => hget, fun hflush hfin resolved hresult signature b hget => ?_⟩
    rcases hunchanged hflush resolved hresult with hdirty | hempty
    · have hnone : ¬ ∃ signature, c'.map.get signature ≠ c.map.get signature := by
        intro hne
        have hd := hgrown.dirty.2 (.inr hne)
        rw [hdirty] at hd
        cases hd
      have heq := not_not.1 (not_exists.1 hnone signature)
      rw [← hsame, ← heq]
      exact hresolved hfin resolved hresult signature b hget
    · have hmem := ((get_resolved_iff hfin hresult).1 hget).1
      rw [hempty] at hmem
      cases hmem
  · rw [hfile]
    exact ⟨c'.map, .flushed hkeys hprint, hkept, fun _ hfin => hresolved hfin⟩

end Pool

/-- A written file is left written, with what it held. -/
theorem Written.leaves (hdepth : 3 ≤ depthLimit) (h : Written file map) {s : Session}
    (hwhole : ∀ signature ∈ s.batch.signatures, Json.Whole signature) :
    ∃ map', Written (s.leaves depthLimit file) map' ∧ ∀ signature blockTime,
      map.get signature = some blockTime → map'.get signature = some blockTime := by
  obtain ⟨c, hopen, hsame⟩ := h.opened hdepth
  rw [Session.leaves, hopen]
  dsimp only
  split_ifs
  · exact ⟨map, h, fun _ _ hget => hget⟩
  · obtain ⟨map', hwritten, hkept, -⟩ := resolve_written h hsame hwhole s.schedule
    exact ⟨map', hwritten, hkept⟩

theorem Written.foldl_leaves (hdepth : 3 ≤ depthLimit) {sessions : List Session}
    (hwhole : ∀ s ∈ sessions, ∀ signature ∈ s.batch.signatures, Json.Whole signature)
    (h : Written file map) :
    ∃ map', Written (sessions.foldl (Session.leaves depthLimit) file) map' ∧
      ∀ signature blockTime, map.get signature = some blockTime →
        map'.get signature = some blockTime := by
  induction sessions generalizing file map with
  | nil => exact ⟨map, h, fun _ _ hget => hget⟩
  | cons s sessions ih =>
      obtain ⟨hfirst, hrest⟩ := List.forall_mem_cons.1 hwhole
      obtain ⟨map₁, hwritten, hkept⟩ := h.leaves hdepth hfirst
      obtain ⟨map₂, hwritten₂, hkept₂⟩ := ih hrest hwritten
      exact ⟨map₂, hwritten₂, fun signature blockTime hget =>
        hkept₂ signature blockTime (hkept signature blockTime hget)⟩

/-- **What is resolved once is never asked for again.**  In any sequence of sessions, some of them
killed, with resolvers, threads and orders of turns of their own: what a flushed session returns for
a signature, every later session loads; under no order of its turns does it call the resolver for
the signature, and it returns the same block time. -/
theorem resolved_once (hdepth : 3 ≤ depthLimit) (before after : List Session) (s : Session)
    (hwhole : ∀ t ∈ before ++ s :: after, ∀ signature ∈ t.batch.signatures, Json.Whole signature)
    {c : BlockTimeCache} (hopen : openCache depthLimit (fileAfter depthLimit before) = .ok c)
    (hlive : s.killed = false) (hflush : s.batch.flush = true)
    (hfin : (s.batch.pool (some c) s.schedule).Finished) {resolved : BlockTimes}
    (hresult : (s.batch.resolve (some c) (fileAfter depthLimit before) s.schedule).result =
      .ok resolved) {signature : CodePoints} {blockTime : BlockTime}
    (hget : resolved.get signature = some blockTime) :
    ∃ c', openCache depthLimit (fileAfter depthLimit (before ++ s :: after)) = .ok c' ∧
      ∀ (b : Batch) (schedule : b.Schedule),
        eventsOf signature (b.pool (some c') schedule).shared.log = [] ∧
          ((b.pool (some c') schedule).Finished → signature ∈ b.unique →
            ∀ file resolved', (b.resolve (some c') file schedule).result = .ok resolved' →
              resolved'.get signature = some blockTime) := by
  have hbefore : ∀ t ∈ before, ∀ signature ∈ t.batch.signatures, Json.Whole signature :=
    fun t ht => hwhole t (List.mem_append_left _ ht)
  obtain ⟨hs, hafter⟩ := List.forall_mem_cons.1 fun t ht => hwhole t (List.mem_append_right _ ht)
  obtain ⟨map, hwritten, -⟩ := Written.absent.foldl_leaves hdepth hbefore
  change Written (fileAfter depthLimit before) map at hwritten
  obtain ⟨c₁, hopen₁, hsame⟩ := hwritten.opened hdepth
  obtain rfl := Except.ok.inj (hopen₁.symm.trans hopen)
  obtain ⟨map₁, hwritten₁, -, hresolved⟩ := resolve_written hwritten hsame hs s.schedule
  have hleaves : (s.batch.resolve (some c₁) (fileAfter depthLimit before) s.schedule).file =
      s.leaves depthLimit (fileAfter depthLimit before) := by
    rw [Session.leaves, hopen]
    simp only [hlive, Bool.false_eq_true, if_false]
  rw [hleaves] at hwritten₁
  obtain ⟨map₂, hwritten₂, hkept₂⟩ := hwritten₁.foldl_leaves hdepth hafter
  have hlast : (after.foldl (Session.leaves depthLimit)
      (s.leaves depthLimit (fileAfter depthLimit before))) =
        fileAfter depthLimit (before ++ s :: after) := by
    rw [fileAfter, fileAfter, List.foldl_append]
    rfl
  rw [hlast] at hwritten₂
  obtain ⟨c', hopen', hsame'⟩ := hwritten₂.opened hdepth
  have hheld : c'.map.get signature = some blockTime := by
    rw [hsame']
    exact hkept₂ signature blockTime
      (hresolved hflush hfin resolved hresult signature blockTime hget)
  refine ⟨c', hopen', fun b schedule => ?_⟩
  obtain ⟨phase, hpart, hphase⟩ := partOf_held (b := b) hheld schedule
  refine ⟨congrArg Part.events hpart, fun hfin' hmem file resolved' hresult' => ?_⟩
  have hnow : (b.pool (some c') schedule).shared.phase signature = phase :=
    congrArg Part.phase hpart
  refine (get_resolved_iff hfin' hresult').2 ⟨hmem, ?_⟩
  obtain ⟨hempty, -⟩ | ⟨out, hout, -⟩ := Batch.finish_result hresult'
  · rw [hempty] at hmem
    cases hmem
  · obtain ⟨r, hr⟩ := exists_done hfin' hout hmem
    rcases hphase with rfl | rfl
    · rw [hnow] at hr
      cases hr
    · exact hnow

/-- The sample batch, resolved and flushed. -/
def sampleSession : Session := ⟨sampleBatch, sampleSchedule, false⟩

/-- The same, killed before the file is replaced. -/
def killedSession : Session := ⟨sampleBatch, sampleSchedule, true⟩

theorem whole_sample : ∀ t ∈ [killedSession] ++ sampleSession :: [sampleSession],
    ∀ signature ∈ t.batch.signatures, Json.Whole signature := by
  have hA : Json.Whole [65] := Json.whole_codePoints "A"
  have hB : Json.Whole [66] := Json.whole_codePoints "B"
  simp [killedSession, sampleSession, sampleBatch, hA, hB]

/-- A session is killed, the next resolves the batch, and a third comes after it. -/
theorem resolved_once_sample :
    ∃ c', openCache 10 (fileAfter 10 ([killedSession] ++ sampleSession :: [sampleSession])) =
        .ok c' ∧
      ∀ (b : Batch) (schedule : b.Schedule),
        eventsOf [65] (b.pool (some c') schedule).shared.log = [] ∧
          ((b.pool (some c') schedule).Finished → [65] ∈ b.unique →
            ∀ file resolved', (b.resolve (some c') file schedule).result = .ok resolved' →
              resolved'.get [65] = some ⟨1, 1000⟩) :=
  resolved_once (by decide) [killedSession] [sampleSession] sampleSession whole_sample rfl rfl rfl
    finished_sample (show _ = Except.ok (toDict [([65], some ⟨1, 1000⟩), ([66], none)]) from rfl) rfl

end Corpus
end Backtest
end AatsSniper

/-
# The harnesses over a prefetched corpus

`prefetch_from_corpus` of `aats/backtest/block_time_cache.py`: the signatures of the corpus are
resolved in one batch, and `PrefetchedBlockTimeResolver` answers from the dict.  The launch and the
momentum harness then have the outcomes and the counts they have with the resolver itself
(`reports_prefetched`), where its answers come after no more throttled calls than there are retries
and the cache holds none but its block times.  Only the texts of the censor reasons differ.
-/

import AatsSniper.Backtest.MomentumHarness
import AatsSniper.Backtest.Sessions

namespace AatsSniper
namespace Backtest
namespace Corpus

/-- `PrefetchedBlockTimeResolver.resolve`. -/
def prefetched (resolved : BlockTimes) : BlockTimeResolver := fun signature =>
  match resolved.get signature with
  | some blockTime => .ok blockTime
  | none => .error (codePoints "no prefetched block_time for " ++ signature.take 12 ++
      codePoints "... (CENSORED, fail-closed)")

/-- The batch of `prefetch_from_corpus(corpus_path)`. -/
def corpusBatch (p : Printer) (records : List CorpusRecord) (chain : Chain) (cfg : Backoff)
    (maxInFlight : ℤ) : Batch where
  signatures := records.map fun record => record.signature p
  chain := chain
  cfg := cfg
  maxInFlight := maxInFlight

/-- The answer to a call that is not throttled. -/
def answerOf : Except CodePoints BlockTime → Answer
  | .ok blockTime => .value blockTime
  | .error _ => .unavailable

/-- The calls are answered as the resolver does, after no more throttled ones than there are
retries. -/
def Serves (cfg : Backoff) (chain : Chain) (resolver : BlockTimeResolver) : Prop :=
  ∀ signature, ∃ n ≤ cfg.retries, (∀ m < n, chain signature m = .rateLimited) ∧
    chain signature n = answerOf (resolver signature)

/-- The cache holds no other block times than the resolver has. -/
def Agrees (cache : Option BlockTimeCache) (resolver : BlockTimeResolver) : Prop :=
  ∀ signature blockTime, held cache signature = some blockTime →
    resolver signature = .ok blockTime

section Work

variable {cfg : Backoff} {chain : Chain} {resolver : BlockTimeResolver}
  {cache : Option BlockTimeCache}

/-- A job comes to the answer behind the throttled calls. -/
theorem result_work {signature : CodePoints} {n left attempt : ℕ}
    (hthrottled : ∀ m < n, chain signature m = .rateLimited)
    (hanswer : chain signature n = answerOf (resolver signature))
    (hheld : held cache signature = none) (hle : attempt ≤ n) (hlt : n ≤ attempt + left) :
    (work cfg chain signature cache left attempt).result =
      .ok (resolver signature).toOption := by
  induction left generalizing attempt with
  | zero =>
      obtain rfl : attempt = n := by omega
      rw [work.eq_def, hheld]
      dsimp only
      rw [hanswer]
      cases resolver signature <;> rfl
  | succ left ih =>
      rw [work.eq_def, hheld]
      dsimp only
      rcases hle.eq_or_lt with rfl | hmore
      · rw [hanswer]
        cases resolver signature <;> rfl
      · rw [hthrottled attempt hmore]
        exact ih hmore (by omega)

/-- A job comes to what the resolver has. -/
theorem result_firstWork (hserves : Serves cfg chain resolver) (hcache : Agrees cache resolver)
    (signature : CodePoints) :
    (firstWork cfg chain signature cache).result = .ok (resolver signature).toOption := by
  cases hheld : held cache signature with
  | some blockTime =>
      rw [firstWork, work.eq_def, hheld, hcache signature blockTime hheld]
      rfl
  | none =>
      obtain ⟨n, hn, hthrottled, hanswer⟩ := hserves signature
      exact result_work hthrottled hanswer hheld (Nat.zero_le n) (by omega)

/-- What the dict of a batch has. -/
theorem get_resolved {b : Batch} {schedule : b.Schedule} {file : Option Bytes}
    (hserves : Serves b.cfg b.chain resolver) (hcache : Agrees cache resolver)
    (hfin : (b.pool cache schedule).Finished) {resolved : BlockTimes}
    (hresult : (b.resolve cache file schedule).result = .ok resolved) {signature : CodePoints}
    (hmem : signature ∈ b.unique) : resolved.get signature = (resolver signature).toOption := by
  obtain ⟨hempty, -⟩ | ⟨out, hout, -⟩ := Batch.finish_result hresult
  · rw [hempty] at hmem
    cases hmem
  · obtain ⟨r, hr⟩ := exists_done hfin hout hmem
    have halone := (b.sound_pool cache schedule).result_eq (fun a _ => alone_firstWork cache a)
      hmem (result_view_iff.2 hr)
    rw [result_firstWork hserves hcache signature] at halone
    rw [halone] at hr
    ext blockTime
    rw [get_resolved_iff hfin hresult, hr]
    simp [hmem]

end Work

section Harness

variable {p : Printer} {resolver resolver' : BlockTimeResolver} {records : List CorpusRecord}

/-- Two resolvers have the same block times for the records. -/
def SameTimes (p : Printer) (resolver resolver' : BlockTimeResolver)
    (records : List CorpusRecord) : Prop :=
  ∀ record ∈ records, (resolver (record.signature p)).toOption =
    (resolver' (record.signature p)).toOption

/-- Steps that start with the block time. -/
theorem alike_bind {ω : Type} (hsame : SameTimes p resolver resolver' records)
    (next : CorpusRecord → BlockTime → Except HarnessError ω) {record : CorpusRecord}
    (hmem : record ∈ records) :
    Alike
      (fun record => (resolver (record.signature p)).mapError .blockTimeUnavailable >>= next record)
      (fun record => (resolver' (record.signature p)).mapError .blockTimeUnavailable >>= next record)
      launchCaught record := by
  have htimes := hsame record hmem
  unfold Alike
  dsimp only
  cases hr : resolver (record.signature p) with
  | ok blockTime =>
      cases hr' : resolver' (record.signature p) with
      | ok blockTime' =>
          rw [hr, hr'] at htimes
          obtain rfl := Option.some.inj htimes
          exact .inl rfl
      | error text' =>
          rw [hr, hr'] at htimes
          cases htimes
  | error text =>
      cases hr' : resolver' (record.signature p) with
      | ok blockTime' =>
          rw [hr, hr'] at htimes
          cases htimes
      | error text' =>
          exact .inr ⟨.blockTimeUnavailable text, .blockTimeUnavailable text', rfl, rfl, rfl, rfl⟩

/-- The launch harness, but for the texts of the censor reasons. -/
theorem buildTradeOutcomes_congr (hsame : SameTimes p resolver resolver' records)
    (steps : LaunchSteps) :
    (buildTradeOutcomes p resolver steps records).map
        (fun r => (r.1, { r.2 with censorReasons := [] })) =
      (buildTradeOutcomes p resolver' steps records).map
        fun r => (r.1, { r.2 with censorReasons := [] }) := by
  have halike : ∀ record ∈ records, Alike (tradeOutcome p resolver steps)
      (tradeOutcome p resolver' steps) launchCaught record :=
    fun record hmem => alike_bind hsame _ hmem
  unfold buildTradeOutcomes
  obtain ⟨e, hc, hc'⟩ | ⟨kept, left, left', hc, hc', hleft⟩ := collect_congr halike
  · rw [hc, hc']
  · have hlen : left.length = left'.length := by simpa using congrArg List.length hleft
    rw [hc, hc']
    change Except.ok _ = Except.ok _
    simp only [hlen]

/-- The momentum harness, but for the texts of the censor reasons. -/
theorem buildMomentumOutcomes_congr (hsame : SameTimes p resolver resolver' records)
    (steps : MomentumSteps) (entryHorizonS : ℤ) :
    (buildMomentumOutcomes p resolver steps entryHorizonS records).map
        (fun r => (r.1, { r.2 with censorReasons := [] })) =
      (buildMomentumOutcomes p resolver' steps entryHorizonS records).map
        fun r => (r.1, { r.2 with censorReasons := [] }) := by
  have halike : ∀ record ∈ records, Alike (momentumOutcome p resolver steps entryHorizonS)
      (momentumOutcome p resolver' steps entryHorizonS) launchCaught record :=
    fun record hmem => alike_bind hsame _ hmem
  unfold buildMomentumOutcomes
  obtain ⟨e, hc, hc'⟩ | ⟨kept, left, left', hc, hc', hleft⟩ := collect_congr halike
  · rw [hc, hc']
  · have hlen : left.length = left'.length := by simpa using congrArg List.length hleft
    rw [hc, hc']
    change Except.ok _ = Except.ok _
    simp only [hlen]

/-- Both harnesses have the same outcomes and counts, or raise the same, over the two resolvers. -/
def SameReports (p : Printer) (resolver resolver' : BlockTimeResolver)
    (records : List CorpusRecord) : Prop :=
  (∀ steps, (buildTradeOutcomes p resolver steps records).map
      (fun r => (r.1, { r.2 with censorReasons := [] })) =
    (buildTradeOutcomes p resolver' steps records).map
      fun r => (r.1, { r.2 with censorReasons := [] })) ∧
  ∀ steps entryHorizonS, (buildMomentumOutcomes p resolver steps entryHorizonS records).map
      (fun r => (r.1, { r.2 with censorReasons := [] })) =
    (buildMomentumOutcomes p resolver' steps entryHorizonS records).map
      fun r => (r.1, { r.2 with censorReasons := [] })

/-- **The harnesses over a prefetched corpus** have the outcomes and the counts of the harnesses
that ask the resolver record by record, under any number of threads and any order of their turns. -/
theorem reports_prefetched (p : Printer) (records : List CorpusRecord) (chain : Chain)
    (cfg : Backoff) (maxInFlight : ℤ) (resolver : BlockTimeResolver)
    (cache : Option BlockTimeCache) (file : Option Bytes)
    (schedule : (corpusBatch p records chain cfg maxInFlight).Schedule)
    (hserves : Serves cfg chain resolver) (hcache : Agrees cache resolver)
    (hfin : ((corpusBatch p records chain cfg maxInFlight).pool cache schedule).Finished)
    {resolved : BlockTimes}
    (hresult : ((corpusBatch p records chain cfg maxInFlight).resolve cache file schedule).result =
      .ok resolved) :
    SameReports p (prefetched resolved) resolver records := by
  have hsame : SameTimes p (prefetched resolved) resolver records := by
    intro record hmem
    have hunique : record.signature p ∈ (corpusBatch p records chain cfg maxInFlight).unique := by
      obtain ⟨a, ha, heq⟩ : ∃ a ∈ firstsBy id (records.map fun record => record.signature p),
          id a = id (record.signature p) := exists_mem_firstsBy (List.mem_map_of_mem hmem)
      exact (show a = record.signature p from heq) ▸ ha
    have hget := get_resolved hserves hcache hfin hresult hunique
    rw [← hget, prefetched]
    cases resolved.get (record.signature p) <;> rfl
  exact ⟨buildTradeOutcomes_congr hsame, buildMomentumOutcomes_congr hsame⟩

end Harness

/-- A transaction that is not found, and others. -/
def sampleTimes : BlockTimeResolver
  | [66] => .error (codePoints "tx not found")
  | _ => .ok ⟨1, 1000⟩

/-- The first call for every signature is throttled. -/
def sampleChain : Chain
  | _, 0 => .rateLimited
  | signature, _ => answerOf (sampleTimes signature)

/-- A complete record with one forward observation. -/
def completeRecord (signature : CodePoints) : CorpusRecord where
  entry := [(codePoints "signature", .str signature), (codePoints "mint", .str (codePoints "m")),
    (codePoints "solAmount", .int 1), (codePoints "vSolInBondingCurve", .int 30),
    (codePoints "vTokensInBondingCurve", .int 1000), (codePoints "marketCapSol", .int 28),
    (codePoints "initialBuy", .int 5)]
  forward := [.obj [(codePoints "horizon_s", .int 60)]]

/-- Two records: the one is resolved, and the other censored, as its transaction is not found. -/
def sampleRecords : List CorpusRecord := [completeRecord [65], completeRecord [66]]

/-- Every launch is bought at a lamport of risk and breaks even. -/
def sampleSteps : LaunchSteps where
  decideEntry := fun _ => .ok ⟨true, true, 1⟩
  resolveOutcome := fun _ _ _ => .ok 0

/-- A printer no record of the sample reaches. -/
def noPrinter : Printer := ⟨fun _ => [], fun _ => []⟩

/-- The sample corpus, with two workers. -/
def sampleCorpusBatch : Batch := corpusBatch noPrinter sampleRecords sampleChain {} 16

/-- Two workers and the caller in turn. -/
def sampleCorpusSchedule : sampleCorpusBatch.Schedule :=
  (List.replicate 9 [some ⟨0, by decide⟩, some ⟨1, by decide⟩, none]).flatten

theorem serves_sample : Serves {} sampleChain sampleTimes := by
  intro signature
  refine ⟨1, by decide, fun m hm => ?_, rfl⟩
  obtain rfl : m = 0 := by omega
  rfl

theorem finished_corpus_sample : (sampleCorpusBatch.pool none sampleCorpusSchedule).Finished where
  queue := by decide +kernel
  busy := by decide +kernel
  waiting := fun _ => by decide +kernel

/-- The reports of the two records over the prefetched block times, with one trade and one censored
record in them. -/
theorem reports_prefetched_sample :
    SameReports noPrinter (prefetched (toDict [([65], some ⟨1, 1000⟩), ([66], none)])) sampleTimes
        sampleRecords ∧
      (buildTradeOutcomes noPrinter sampleTimes sampleSteps sampleRecords).toOption.map
        (fun r => (r.2.nResolved, r.2.nCensored)) = some (1, 1) :=
  ⟨reports_prefetched noPrinter sampleRecords sampleChain {} 16 sampleTimes none none
    sampleCorpusSchedule serves_sample (fun _ _ h => by cases h) finished_corpus_sample
    (show _ = Except.ok (toDict [([65], some ⟨1, 1000⟩), ([66], none)]) from rfl),
    by decide +kernel⟩

end Corpus
end Backtest
end AatsSniper

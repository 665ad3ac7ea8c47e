/-
# Calls extracted from posts

`aats/sentiment/call_extract.py`: the mint addresses a text names, the direction of a call, and the
call a post makes, if it makes one.

The mint pattern finds exactly the maximal runs of base58 characters that are 32 to 44 long
(`mem_extractMintCandidates`), and the batch, which repeats the decision of the single post with
three counters, emits exactly what the single posts do (`extractCallerCalls_eq`).

`str.lower` and `str.isalnum` are tables of the interpreter's Unicode data; they are parameters
here, and nothing below depends on them.
-/

import AatsSniper.Lib.PyValue
import AatsSniper.Lib.Regex

namespace AatsSniper
namespace Sentiment

/-- `BASE58_ALPHABET`. -/
def base58Alphabet : CodePoints :=
  codePoints "123456789ABCDEFGHJKLMNPQRSTUVWXYZabcdefghijkmnopqrstuvwxyz"

/-- `_BASE58_CHAR_CLASS`: `[1-9A-HJ-NP-Za-km-z]`. -/
def base58CharClass (c : ℕ) : Bool :=
  decide (49 ≤ c ∧ c ≤ 57 ∨ 65 ≤ c ∧ c ≤ 72 ∨ 74 ≤ c ∧ c ≤ 78 ∨ 80 ≤ c ∧ c ≤ 90 ∨
    97 ≤ c ∧ c ≤ 107 ∨ 109 ≤ c ∧ c ≤ 122)

def mintMinLen : ℕ := 32
def mintMaxLen : ℕ := 44

/-- `_MINT_CANDIDATE_RE`. -/
def mintCandidateRe : Regex ℕ := Regex.boundedRun base58CharClass mintMinLen mintMaxLen

/-- One turn of the loop of `extract_mint_candidates`. -/
def seeCandidate (seen : List CodePoints) (candidate : CodePoints) : List CodePoints :=
  if seen.contains candidate then seen else seen ++ [candidate]

/-- `extract_mint_candidates(text)`. -/
def extractMintCandidates (text : CodePoints) : List CodePoints :=
  ((mintCandidateRe.finditer text).map Regex.Match.group).foldl seeCandidate []

/-- The tables of `str.lower` and `str.isalnum`. -/
structure UnicodeTables where
  lower : CodePoints → CodePoints
  isAlnum : ℕ → Bool

/-- `DirectionLabel`. -/
inductive DirectionLabel
  | long
  | avoid
  deriving DecidableEq

section Patterns

variable (u : UnicodeTables)

/-- `\w`. -/
def isWordChar (c : ℕ) : Bool := u.isAlnum c || c == 95

/-- The characters of a text as a pattern. -/
def lit (s : String) : Regex ℕ := .literal (codePoints s)

/-- `\s*`. -/
def anySpace : Regex ℕ := .many (.one PyText.isSpace) 0

/-- `\s+`. -/
def someSpace : Regex ℕ := .many (.one PyText.isSpace) 1

/-- `\w*`. -/
def anyWord : Regex ℕ := .many (.one (isWordChar u)) 0

/-- `(?:r)?`. -/
def optional (r : Regex ℕ) : Regex ℕ := .greedy r 0 1

/-- `\b`, the parts, `\b`. -/
def bounded (parts : List (Regex ℕ)) : Regex ℕ :=
  .inOrder (.wordBoundary (isWordChar u) :: parts ++ [.wordBoundary (isWordChar u)])

/-- Words with `\s+` between them. -/
def phrase (words : List String) : Regex ℕ := bounded u ((words.map lit).intersperse someSpace)

/-- An entry of `_LONG_PATTERNS`, and whether it is one of `_NEGATABLE_LONG_PATTERNS`. -/
structure LongPattern where
  regex : Regex ℕ
  negatable : Bool

/-- `_LONG_PATTERNS`. -/
def longPatterns : List LongPattern :=
  [⟨bounded u [lit "ape", optional (.oneOf (lit "s") [lit "d", lit "ing"]), anySpace, lit "in"],
      false⟩,
    ⟨bounded u [lit "send", optional (lit "ing"), someSpace, lit "it"], false⟩,
    ⟨bounded u [lit "load", optional (lit "ing"), someSpace, lit "up"], false⟩,
    ⟨phrase u ["loading", "bags"], false⟩,
    ⟨phrase u ["filling", "bags"], false⟩,
    ⟨bounded u [lit "accumulat", anyWord u], false⟩,
    ⟨phrase u ["buy", "the", "dip"], false⟩,
    ⟨phrase u ["buy", "now"], false⟩,
    ⟨phrase u ["buy", "signal"], false⟩,
    ⟨phrase u ["strong", "buy"], false⟩,
    ⟨bounded u [lit "get", someSpace, lit "in", someSpace, .oneOf (lit "now") [lit "early"]],
      false⟩,
    ⟨phrase u ["gem", "alert"], false⟩,
    ⟨phrase u ["early", "gem"], false⟩,
    ⟨phrase u ["undervalued", "gem"], false⟩,
    ⟨phrase u ["100x"], true⟩,
    ⟨phrase u ["next", "100x"], true⟩,
    ⟨bounded u [lit "moon", optional (lit "ing")], true⟩,
    ⟨phrase u ["bullish"], true⟩,
    ⟨phrase u ["going", "long"], true⟩,
    ⟨phrase u ["long", "this"], true⟩,
    ⟨phrase u ["great", "entry"], false⟩,
    ⟨phrase u ["entry", "here"], false⟩]

/-- The apostrophe. -/
def apostrophe : ℕ := 39

/-- `_NEGATION_CUE_RE`. -/
def negationCueRe : Regex ℕ :=
  let contracted (s : String) : Regex ℕ :=
    .inOrder [lit s, optional (.one fun c => decide (c = apostrophe)), lit "t"]
  .inOrder [.textStart,
    .oneOf (lit "not") [lit "no", lit "never", lit "none", contracted "ain", contracted "isn",
      contracted "aren", contracted "wasn", contracted "weren", contracted "don",
      contracted "doesn", contracted "didn", contracted "won", contracted "wouldn",
      contracted "can", lit "cannot", contracted "couldn", contracted "shouldn"],
    .textEnd]

def negationWindowWords : ℕ := 4

/-- `_WORD_RE`: `[a-z0-9']+`. -/
def wordRe : Regex ℕ :=
  .many (.one fun c => decide (97 ≤ c ∧ c ≤ 122 ∨ 48 ≤ c ∧ c ≤ 57 ∨ c = apostrophe)) 1

/-- The characters of `".!?;,"`. -/
def endsClause (c : ℕ) : Bool := (codePoints ".!?;,").contains c

/-- `_negation_governs(text_lower, match_start)`, for the place where the match begins. -/
def negationGoverns (place : Place ℕ) : Bool :=
  -- what was passed has its last character first
  let windowText := (place.passed.takeWhile fun c => !endsClause c).reverse
  let words := (wordRe.finditer windowText).map Regex.Match.group
  (words.drop (words.length - negationWindowWords)).any fun word =>
    (negationCueRe.matchAt (Place.start word)).isSome

/-- `_AVOID_PATTERNS`. -/
def avoidPatterns : List (Regex ℕ) :=
  [phrase u ["avoid"],
    bounded u [lit "rug", anySpace, lit "pull", anyWord u],
    phrase u ["rugged"],
    phrase u ["honeypot"],
    phrase u ["scam"],
    phrase u ["ponzi"],
    bounded u [lit "exit", anySpace, lit "scam"],
    phrase u ["stay", "away"],
    phrase u ["red", "flag"],
    bounded u [lit "don", optional (.one fun c => decide (c = apostrophe)), lit "t", someSpace,
      lit "buy"],
    phrase u ["do", "not", "buy"],
    phrase u ["not", "a", "buy"],
    phrase u ["no", "buy"],
    phrase u ["sell", "now"],
    phrase u ["sell", "signal"],
    bounded u [lit "dump", optional (lit "ing"), someSpace, lit "incoming"],
    bounded u [lit "dev", someSpace, optional (.inOrder [lit "is", someSpace]), lit "dump",
      optional (lit "ing")],
    bounded u [lit "insider", someSpace, lit "dump", anyWord u],
    phrase u ["liquidity", "pulled"],
    phrase u ["warning"],
    phrase u ["caution"],
    phrase u ["too", "risky"],
    phrase u ["risky", "af"]]

/-- `_long_pattern_hit(text_lower)`. -/
def longPatternHit (textLower : CodePoints) : Bool :=
  (longPatterns u).any fun pattern =>
    if pattern.negatable then
      (pattern.regex.finditer textLower).any fun m => !negationGoverns m.start
    else pattern.regex.search textLower

/-- `classify_direction(text)`. -/
def classifyDirection (text : CodePoints) : Option DirectionLabel :=
  let textLower := u.lower text
  let longHit := longPatternHit u textLower
  let avoidHit := (avoidPatterns u).any fun pattern => pattern.search textLower
  if longHit && !avoidHit then some .long
  else if avoidHit && !longHit then some .avoid
  else none

end Patterns

/-- `RawPost`, as far as a call is made from it. -/
structure RawPost where
  source : String
  authorId : String
  text : CodePoints
  eventTimeMs : ℤ

/-- `CallerCall`. -/
structure CallerCall where
  callerId : String
  callEventTimeMs : ℤ
  asset : CodePoints
  direction : DirectionLabel
  source : String

/-- `_CALL_CHANNEL_SOURCES`. -/
def callChannelSources : List String := ["telegram", "discord", "x"]

/-- `extract_caller_call(post)`. -/
def extractCallerCall (u : UnicodeTables) (post : RawPost) : Option CallerCall :=
  if post.source ∉ callChannelSources then none
  else
    match extractMintCandidates post.text with
    | [asset] =>
        match classifyDirection u post.text with
        | none => none
        | some direction =>
            some ⟨post.authorId, post.eventTimeMs, asset, direction, post.source⟩
    | _ => none

/-- `CallExtractionResult`. -/
structure CallExtractionResult where
  calls : List CallerCall
  totalPosts : ℕ
  droppedUnsupportedSource : ℕ
  droppedNoOrAmbiguousCa : ℕ
  droppedNoOrAmbiguousDirection : ℕ

/-- One turn of the loop of `extract_caller_calls`. -/
def extractTurn (u : UnicodeTables) (r : CallExtractionResult) (post : RawPost) :
    CallExtractionResult :=
  if post.source ∉ callChannelSources then
    { r with droppedUnsupportedSource := r.droppedUnsupportedSource + 1 }
  else
    match extractMintCandidates post.text with
    | [asset] =>
        match classifyDirection u post.text with
        | none =>
            { r with droppedNoOrAmbiguousDirection := r.droppedNoOrAmbiguousDirection + 1 }
        | some direction =>
            { r with
              calls := r.calls ++
                [⟨post.authorId, post.eventTimeMs, asset, direction, post.source⟩] }
    | _ => { r with droppedNoOrAmbiguousCa := r.droppedNoOrAmbiguousCa + 1 }

/-- `extract_caller_calls(posts)`. -/
def extractCallerCalls (u : UnicodeTables) (posts : List RawPost) : CallExtractionResult :=
  posts.foldl (extractTurn u) ⟨[], posts.length, 0, 0, 0⟩

/-- A maximal run of base58 characters that is as long as an address. -/
def MintRun (text run : CodePoints) : Prop :=
  MaximalRun (fun c => base58Alphabet.contains c) text run ∧ 32 ≤ run.length ∧ run.length ≤ 44

/-- The characters of the class are those of the alphabet. -/
theorem base58CharClass_eq : base58CharClass = fun c => base58Alphabet.contains c := by
  funext c
  by_cases hc : c < 123
  · have hall : ∀ c < 123, base58CharClass c = base58Alphabet.contains c := by decide +kernel
    exact hall c hc
  · have hbound : ∀ d ∈ base58Alphabet, d < 123 := by decide +kernel
    have hclass : base58CharClass c = false := by
      rw [base58CharClass, decide_eq_false_iff_not]
      omega
    rw [hclass, eq_comm, Bool.eq_false_iff]
    intro h
    exact hc (hbound c (List.contains_iff_mem.1 h))

theorem foldl_seeCandidate (found seen : List CodePoints) :
    found.foldl seeCandidate seen.eraseDups = (seen ++ found).eraseDups := by
  induction found generalizing seen with
  | nil => rw [List.append_nil, List.foldl_nil]
  | cons candidate found ih =>
      have hsee : seeCandidate seen.eraseDups candidate = (seen ++ [candidate]).eraseDups := by
        rw [List.eraseDups_append, seeCandidate]
        by_cases hmem : candidate ∈ seen
        · rw [if_pos (List.contains_iff_mem.2 (List.mem_eraseDups.2 hmem))]
          simp [List.removeAll, hmem]
        · rw [if_neg fun h => hmem (List.mem_eraseDups.1 (List.contains_iff_mem.1 h))]
          simp [List.removeAll, hmem, List.eraseDups_cons]
      rw [List.foldl_cons, hsee, ih, List.append_assoc, List.singleton_append]

/-- The distinct maximal runs of the length of an address, in order of first appearance. -/
theorem extractMintCandidates_eq (text : CodePoints) :
    extractMintCandidates text =
      ((maximalRuns (fun c => base58Alphabet.contains c) text).filter
        fun run => decide (32 ≤ run.length ∧ run.length ≤ 44)).eraseDups := by
  have hruns : (mintCandidateRe.finditer text).map Regex.Match.group =
      (maximalRuns base58CharClass text).filter
        fun run => decide (mintMinLen ≤ run.length ∧ run.length ≤ mintMaxLen) :=
    Regex.finditer_boundedRun (Nat.succ_pos 31) text
  have hfold := foldl_seeCandidate ((mintCandidateRe.finditer text).map Regex.Match.group) []
  rw [List.nil_append, hruns, base58CharClass_eq] at hfold
  rw [extractMintCandidates, hruns, base58CharClass_eq]
  exact hfold

theorem mem_extractMintCandidates {text run : CodePoints} :
    run ∈ extractMintCandidates text ↔ MintRun text run := by
  rw [extractMintCandidates_eq, List.mem_eraseDups, List.mem_filter, mem_maximalRuns,
    decide_eq_true_iff]
  rfl

/-- The number of posts that were dropped. -/
def CallExtractionResult.dropped (r : CallExtractionResult) : ℕ :=
  r.droppedUnsupportedSource + r.droppedNoOrAmbiguousCa + r.droppedNoOrAmbiguousDirection

/-- A turn emits what the single post does, or counts it. -/
theorem extractTurn_spec (u : UnicodeTables) (r : CallExtractionResult) (post : RawPost) :
    (extractTurn u r post).calls = r.calls ++ (extractCallerCall u post).toList ∧
      (extractTurn u r post).calls.length + (extractTurn u r post).dropped =
        r.calls.length + r.dropped + 1 ∧
      (extractTurn u r post).totalPosts = r.totalPosts := by
  unfold extractTurn extractCallerCall CallExtractionResult.dropped
  by_cases hsource : post.source ∉ callChannelSources
  · simp only [if_pos hsource, Option.toList_none, List.append_nil, true_and, and_true]
    omega
  · simp only [if_neg hsource]
    rcases hcandidates : extractMintCandidates post.text with _ | ⟨asset, _ | ⟨other, more⟩⟩
    · simp only [Option.toList_none, List.append_nil, true_and, and_true]
      omega
    · cases hdirection : classifyDirection u post.text with
      | none =>
          simp only [Option.toList_none, List.append_nil, true_and, and_true]
          omega
      | some direction =>
          simp only [Option.toList_some, List.length_append, List.length_singleton, true_and,
            and_true]
          omega
    · simp only [Option.toList_none, List.append_nil, true_and, and_true]
      omega

theorem foldl_extractTurn (u : UnicodeTables) (posts : List RawPost) (r : CallExtractionResult) :
    (posts.foldl (extractTurn u) r).calls = r.calls ++ posts.filterMap (extractCallerCall u) ∧
      (posts.foldl (extractTurn u) r).calls.length + (posts.foldl (extractTurn u) r).dropped =
        r.calls.length + r.dropped + posts.length ∧
      (posts.foldl (extractTurn u) r).totalPosts = r.totalPosts := by
  induction posts generalizing r with
  | nil => exact ⟨(List.append_nil _).symm, rfl, rfl⟩
  | cons post posts ih =>
      obtain ⟨hcalls, hcount, htotal⟩ := extractTurn_spec u r post
      obtain ⟨hcalls', hcount', htotal'⟩ := ih (extractTurn u r post)
      rw [List.foldl_cons]
      refine ⟨?_, ?_, htotal'.trans htotal⟩
      · rw [hcalls', hcalls, List.append_assoc]
        cases hcall : extractCallerCall u post <;> simp [hcall]
      · rw [hcount', hcount, List.length_cons]
        omega

/-- The batch emits exactly what the single posts do, and counts the others. -/
theorem extractCallerCalls_eq (u : UnicodeTables) (posts : List RawPost) :
    (extractCallerCalls u posts).calls = posts.filterMap (extractCallerCall u) ∧
      (extractCallerCalls u posts).calls.length + (extractCallerCalls u posts).dropped =
        posts.length ∧
      (extractCallerCalls u posts).totalPosts = posts.length := by
  obtain ⟨hcalls, hcount, htotal⟩ := foldl_extractTurn u posts ⟨[], posts.length, 0, 0, 0⟩
  exact ⟨hcalls, hcount.trans (Nat.zero_add _), htotal⟩

/-- The asset of a call is the only address in its text. -/
theorem mintRun_of_extractCallerCall {u : UnicodeTables} {post : RawPost} {call : CallerCall}
    (h : extractCallerCall u post = some call) :
    MintRun post.text call.asset ∧ ∀ run, MintRun post.text run → run = call.asset := by
  have hone : extractMintCandidates post.text = [call.asset] := by
    unfold extractCallerCall at h
    split_ifs at h with hsource
    rcases hcandidates : extractMintCandidates post.text with _ | ⟨asset, _ | ⟨other, more⟩⟩
    · simp [hcandidates] at h
    · simp only [hcandidates] at h
      cases hdirection : classifyDirection u post.text with
      | none => simp [hdirection] at h
      | some direction =>
          simp only [hdirection, Option.some.injEq] at h
          rw [← h]
    · simp [hcandidates] at h
  have hmem : ∀ run, MintRun post.text run ↔ run = call.asset := by
    intro run
    rw [← mem_extractMintCandidates, hone, List.mem_singleton]
  exact ⟨(hmem _).2 rfl, fun run => (hmem run).1⟩

/-- **No mint is guessed.**  The candidates of a text are its distinct maximal base58 runs of 32 to
44 characters in order of first appearance; and the calls of a batch are those of its posts, with
every other post counted once. -/
theorem extraction_exact :
    (∀ text, extractMintCandidates text =
        ((maximalRuns (fun c => base58Alphabet.contains c) text).filter
          fun run => decide (32 ≤ run.length ∧ run.length ≤ 44)).eraseDups ∧
      ∀ run, run ∈ extractMintCandidates text ↔ MintRun text run) ∧
    ∀ (u : UnicodeTables) (posts : List RawPost),
      (extractCallerCalls u posts).calls = posts.filterMap (extractCallerCall u) ∧
      (extractCallerCalls u posts).calls.length +
        (extractCallerCalls u posts).droppedUnsupportedSource +
        (extractCallerCalls u posts).droppedNoOrAmbiguousCa +
        (extractCallerCalls u posts).droppedNoOrAmbiguousDirection = posts.length ∧
      (extractCallerCalls u posts).totalPosts = posts.length := by
  refine ⟨fun text => ⟨extractMintCandidates_eq text, fun run => mem_extractMintCandidates⟩,
    fun u posts => ?_⟩
  obtain ⟨hcalls, hcount, htotal⟩ := extractCallerCalls_eq u posts
  refine ⟨hcalls, ?_, htotal⟩
  rw [CallExtractionResult.dropped] at hcount
  omega

end Sentiment
end AatsSniper

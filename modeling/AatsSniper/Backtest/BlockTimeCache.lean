/-
# The block-time memo and its file

`BlockTimeCache` of `aats/backtest/block_time_cache.py`: a dict from signatures to block times, the
flag that it changed, and the file it is loaded from and flushed to.  A file is its bytes, or
`none` where it is absent; the replacement is atomic.

What `flush` writes, `load` reads back (`load_flushed`): the text of the encoder decodes to the
same entries, in the order of their signatures.
-/

import AatsSniper.Backtest.OutcomeHarness
import AatsSniper.Lib.JsonRoundTrip
import AatsSniper.Lib.Seen
import AatsSniper.Lib.Sort
import AatsSniper.Lib.Table
import Mathlib.Data.List.Lex

namespace AatsSniper
namespace Backtest
namespace Corpus

deriving instance DecidableEq for BlockTime

/-- `dict[str, BlockTime]`. -/
abbrev BlockTimes := Table (Prod.fst : CodePoints × BlockTime → CodePoints)

/-- `d.get(signature)`. -/
def BlockTimes.get (map : BlockTimes) (signature : CodePoints) : Option BlockTime :=
  (map.get? signature).map Prod.snd

/-- `BlockTimeCache`: `_map` and `_dirty`. -/
structure BlockTimeCache where
  map : BlockTimes := Table.empty
  dirty : Bool := false

/-- `put(signature, block_time)`. -/
def BlockTimeCache.put (c : BlockTimeCache) (signature : CodePoints) (blockTime : BlockTime) :
    BlockTimeCache :=
  if c.map.get signature ≠ some blockTime then ⟨c.map.upsert (signature, blockTime), true⟩ else c

@[simp] theorem BlockTimes.get_empty (signature : CodePoints) :
    BlockTimes.get Table.empty signature = none := rfl

@[simp] theorem BlockTimes.get_upsert (map : BlockTimes) (signature signature' : CodePoints)
    (blockTime : BlockTime) : BlockTimes.get (map.upsert (signature, blockTime)) signature' =
      if signature' = signature then some blockTime else map.get signature' := by
  unfold BlockTimes.get
  rw [Table.get?_upsert]
  split_ifs <;> rfl

/-- The row of a signature. -/
theorem BlockTimes.get?_eq (map : BlockTimes) (signature : CodePoints) :
    map.get? signature = (map.get signature).map fun blockTime => (signature, blockTime) := by
  unfold BlockTimes.get
  cases h : map.get? signature with
  | none => rfl
  | some e =>
      obtain ⟨-, hkey⟩ := Table.mem_of_get? h
      rw [← hkey]
      rfl

/-- What a memo holds after a put. -/
theorem BlockTimeCache.get_put (c : BlockTimeCache) (signature signature' : CodePoints)
    (blockTime : BlockTime) : (c.put signature blockTime).map.get signature' =
      if signature' = signature then some blockTime else c.map.get signature' := by
  unfold put
  by_cases h : c.map.get signature = some blockTime
  · rw [if_neg (not_not.2 h)]
    split_ifs with heq
    · rw [heq, h]
    · rfl
  · rw [if_pos h, BlockTimes.get_upsert]

/-- What loading raises beside what it ignores. -/
inductive CacheLoadError
  | json (e : Json.LoadError)
  | python (e : PyError)
  deriving DecidableEq

/-- `BlockTime(slot=int(val["slot"]), block_time_ms=int(val["block_time_ms"]))`; what has no items
raises a `TypeError`. -/
def parseBlockTime : Json → Except PyError BlockTime
  | .obj val => do
      let slot ← (← Json.item val "slot").toInt
      let blockTimeMs ← (← Json.item val "block_time_ms").toInt
      return ⟨slot, blockTimeMs⟩
  | _ => .error .typeError

/-- One entry of the file: skipped on a `KeyError`, a `TypeError` and a `ValueError`. -/
def loadEntry (entry : CodePoints × Json) :
    Except CacheLoadError (Option (CodePoints × BlockTime)) :=
  match parseBlockTime entry.2 with
  | .ok blockTime => .ok (some (entry.1, blockTime))
  | .error .keyError => .ok none
  | .error .typeError => .ok none
  | .error .valueError => .ok none
  | .error e => .error (.python e)

/-- `d.items()` of a decoded object: each key once, with its last value. -/
def dictItems (members : List (CodePoints × Json)) : List (CodePoints × Json) :=
  (firstsBy Prod.fst members).map fun m => (m.1, (Json.get members m.1).getD m.2)

/-- The entries of a decoded file. -/
def loadEntries (raw : Json) : Except CacheLoadError (List (CodePoints × BlockTime)) :=
  let entries :=
    match raw with
    | .obj members => Json.getD members "entries" (.obj [])
    | _ => .obj []
  match entries with
  | .obj members => do
      let loaded ← (dictItems members).mapM loadEntry
      return loaded.filterMap id
  | _ => .error (.python .attributeError)

/-- `json.loads(path.read_text(encoding="utf-8"))`: a text that is no JSON counts as absent. -/
def readFile (depthLimit : ℕ) (file : Bytes) : Except CacheLoadError (Option Json) :=
  match Text.decode .utf8 file with
  | none => .error (.json .unicodeDecodeError)
  | some text =>
      match Json.decodeText depthLimit text with
      | .ok raw => .ok (some raw)
      | .error .jsonDecodeError => .ok none
      | .error e => .error (.json e)

/-- `load()`. -/
def BlockTimeCache.load (depthLimit : ℕ) (c : BlockTimeCache) :
    Option Bytes → Except CacheLoadError BlockTimeCache
  | none => .ok c
  | some file => do
      match ← readFile depthLimit file with
      | none => return c
      | some raw =>
          let loaded ← loadEntries raw
          return { c with map := loaded.foldl Table.upsert c.map }

/-- A block time as `flush` writes it. -/
def blockTimeJson (blockTime : BlockTime) : Json :=
  .obj [(codePoints "block_time_ms", .int blockTime.blockTimeMs),
    (codePoints "slot", .int blockTime.slot)]

/-- `payload`, its keys sorted. -/
def flushPayload (map : BlockTimes) : Json :=
  .obj [(codePoints "entries",
      .obj ((sortBy Prod.fst map.rows).map fun e => (e.1, blockTimeJson e.2))),
    (codePoints "version", .int 1)]

/-- The file that is written. -/
def flushed (map : BlockTimes) : Bytes := Json.asciiBytes (Json.dumps .compact (flushPayload map))

/-- The integers `json.dumps` can print. -/
def Printable (blockTime : BlockTime) : Prop :=
  (Json.decimal blockTime.slot.natAbs).length ≤ 4300 ∧
    (Json.decimal blockTime.blockTimeMs.natAbs).length ≤ 4300

instance (blockTime : BlockTime) : Decidable (Printable blockTime) :=
  inferInstanceAs (Decidable (_ ∧ _))

/-- `flush()`: the file and the memo after it, or the `ValueError` of an integer too long. -/
def BlockTimeCache.flush (c : BlockTimeCache) (file : Option Bytes) :
    Except PyError (Option Bytes × BlockTimeCache) :=
  if !c.dirty then .ok (file, c)
  else if ∀ e ∈ c.map.rows, Printable e.2 then
    .ok (some (flushed c.map), { c with dirty := false })
  else .error .valueError

section RoundTrip

variable {depthLimit : ℕ} {map : BlockTimes}

theorem readable_blockTimeJson {depth : ℕ} {blockTime : BlockTime} (h : Printable blockTime) :
    Json.Readable (depth + 1) (blockTimeJson blockTime) := by
  refine .obj ?_ ?_
  · simp only [List.forall_mem_cons, List.not_mem_nil, false_imp_iff, imp_true_iff, and_true]
    exact ⟨Json.whole_codePoints _, Json.whole_codePoints _⟩
  · simp only [List.forall_mem_cons, List.not_mem_nil, false_imp_iff, imp_true_iff, and_true]
    exact ⟨.int h.2, .int h.1⟩

/-- The payload can be read back. -/
theorem readable_flushPayload (hdepth : 3 ≤ depthLimit)
    (hkeys : ∀ e ∈ map.rows, Json.Whole e.1) (hprint : ∀ e ∈ map.rows, Printable e.2) :
    Json.Readable depthLimit (flushPayload map) := by
  obtain ⟨depth, rfl⟩ := Nat.exists_eq_add_of_le' hdepth
  have hentries : Json.Readable (depth + 2)
      (.obj ((sortBy Prod.fst map.rows).map fun e => (e.1, blockTimeJson e.2))) := by
    refine .obj (fun m hm => ?_) fun m hm => ?_
    · obtain ⟨e, he, rfl⟩ := List.mem_map.1 hm
      exact hkeys e (mem_sortBy.1 he)
    · obtain ⟨e, he, rfl⟩ := List.mem_map.1 hm
      exact readable_blockTimeJson (hprint e (mem_sortBy.1 he))
  refine .obj ?_ ?_
  · simp only [List.forall_mem_cons, List.not_mem_nil, false_imp_iff, imp_true_iff, and_true]
    exact ⟨Json.whole_codePoints _, Json.whole_codePoints _⟩
  · simp only [List.forall_mem_cons, List.not_mem_nil, false_imp_iff, imp_true_iff, and_true]
    exact ⟨hentries, .int (by decide +kernel)⟩

/-- The file decodes to the payload. -/
theorem readFile_flushed (hdepth : 3 ≤ depthLimit) (hkeys : ∀ e ∈ map.rows, Json.Whole e.1)
    (hprint : ∀ e ∈ map.rows, Printable e.2) :
    readFile depthLimit (flushed map) = .ok (some (flushPayload map)) := by
  have hreadable := readable_flushPayload hdepth hkeys hprint
  have hdecode : Text.decode .utf8 (flushed map) =
      some (Json.dumps .compact (flushPayload map)) :=
    Json.decodeUtf8_asciiBytes (Json.ascii_dumps .compact hreadable)
  rw [readFile, hdecode]
  dsimp only
  rw [Json.decodeText_dumps hreadable]

theorem parseBlockTime_blockTimeJson (blockTime : BlockTime) :
    parseBlockTime (blockTimeJson blockTime) = .ok blockTime := by
  have hslot : Json.item [(codePoints "block_time_ms", .int blockTime.blockTimeMs),
      (codePoints "slot", .int blockTime.slot)] "slot" = .ok (.int blockTime.slot) := by
    simp [Json.item, Json.get]
  have htime : Json.item [(codePoints "block_time_ms", .int blockTime.blockTimeMs),
      (codePoints "slot", .int blockTime.slot)] "block_time_ms" =
        .ok (.int blockTime.blockTimeMs) := by
    have hne : (codePoints "slot" == codePoints "block_time_ms") = false := by decide
    simp [Json.item, Json.get, hne]
  rw [blockTimeJson, parseBlockTime, hslot, htime]
  rfl

/-- A dict of distinct keys has its own items. -/
theorem dictItems_of_nodup {members : List (CodePoints × Json)}
    (h : (members.map Prod.fst).Nodup) : dictItems members = members := by
  have hget : ∀ m ∈ members, Json.get members m.1 = some m.2 := by
    intro m hm
    have hfound : (members.reverse.find? fun m' => m'.1 == m.1).isSome :=
      List.find?_isSome.2 ⟨m, List.mem_reverse.2 hm, beq_self_eq_true _⟩
    obtain ⟨m', hm'⟩ := Option.isSome_iff_exists.1 hfound
    have hbeq := List.find?_some hm'
    have hkey : m'.1 = m.1 := eq_of_beq hbeq
    have hmem : m' ∈ members := List.mem_reverse.1 (List.mem_of_find?_eq_some hm')
    rw [Json.get, hm', Option.map_some, List.inj_on_of_nodup_map h hmem hm hkey]
  rw [dictItems, firstsBy_of_nodup h]
  refine (List.map_congr_left fun m hm => ?_).trans (List.map_id _)
  rw [hget m hm, Option.getD_some]
  rfl

theorem mapM_loadEntry (rows : List (CodePoints × BlockTime)) :
    (rows.map fun e => (e.1, blockTimeJson e.2)).mapM loadEntry = .ok (rows.map some) := by
  induction rows with
  | nil => rfl
  | cons e rows ih =>
      have hentry : loadEntry (e.1, blockTimeJson e.2) = .ok (some e) := by
        rw [loadEntry, parseBlockTime_blockTimeJson]
      rw [List.map_cons, List.mapM_cons, hentry, ih]
      rfl

/-- The entries of the payload, in the order of their signatures. -/
theorem loadEntries_flushPayload (map : BlockTimes) :
    loadEntries (flushPayload map) = .ok (sortBy Prod.fst map.rows) := by
  have hnodup : (((sortBy Prod.fst map.rows).map fun e => (e.1, blockTimeJson e.2)).map
      Prod.fst).Nodup := by
    rw [List.map_map]
    exact ((sortBy_perm Prod.fst map.rows).map Prod.fst).nodup_iff.2 map.distinct
  have hentries : Json.getD [(codePoints "entries",
      .obj ((sortBy Prod.fst map.rows).map fun e => (e.1, blockTimeJson e.2))),
      (codePoints "version", .int 1)] "entries" (.obj []) =
        .obj ((sortBy Prod.fst map.rows).map fun e => (e.1, blockTimeJson e.2)) := by
    have hne : (codePoints "version" == codePoints "entries") = false := by decide
    simp [Json.getD, Json.get, hne]
  unfold loadEntries flushPayload
  dsimp only
  rw [hentries]
  dsimp only
  rw [dictItems_of_nodup hnodup, mapM_loadEntry]
  change Except.ok (((sortBy Prod.fst map.rows).map some).filterMap id) = _
  rw [List.filterMap_map]
  exact congrArg _ (List.filterMap_some)

/-- **What is flushed is read back**: a new memo that loads the file of an old one answers as it
did. -/
theorem load_flushed (hdepth : 3 ≤ depthLimit) (hkeys : ∀ e ∈ map.rows, Json.Whole e.1)
    (hprint : ∀ e ∈ map.rows, Printable e.2) :
    ∃ map', BlockTimeCache.load depthLimit {} (some (flushed map)) = .ok ⟨map', false⟩ ∧
      map'.rows = sortBy Prod.fst map.rows := by
  refine ⟨(sortBy Prod.fst map.rows).foldl Table.upsert Table.empty, ?_, ?_⟩
  · rw [BlockTimeCache.load, readFile_flushed hdepth hkeys hprint]
    change (do
      let loaded ← loadEntries (flushPayload map)
      return _) = _
    rw [loadEntries_flushPayload]
    rfl
  · exact Table.rows_foldl_upsert
      (((sortBy_perm Prod.fst map.rows).map Prod.fst).nodup_iff.2 map.distinct)

/-- The file of a memo only depends on what the memo answers. -/
theorem flushed_congr {map map' : BlockTimes} (h : ∀ signature, map.get? signature =
    map'.get? signature) : flushed map = flushed map' := by
  have hsorted : sortBy Prod.fst map.rows = sortBy Prod.fst map'.rows :=
    sortBy_eq_of_perm (Table.rows_perm_of_get? h)
      fun _ ha _ hb heq => List.inj_on_of_nodup_map map.distinct ha hb heq
  unfold flushed flushPayload
  rw [hsorted]

/-- Memos that answer alike are flushed alike. -/
theorem BlockTimeCache.flush_congr {c c' : BlockTimeCache}
    (hget : ∀ signature, c.map.get signature = c'.map.get signature) (hdirty : c.dirty = c'.dirty)
    (file : Option Bytes) :
    (∃ e, c.flush file = .error e ∧ c'.flush file = .error e) ∨
      ∃ file', c.flush file = .ok (file', { c with dirty := false }) ∧
        c'.flush file = .ok (file', { c' with dirty := false }) := by
  have hget? : ∀ signature, c.map.get? signature = c'.map.get? signature := by
    intro signature
    rw [BlockTimes.get?_eq, BlockTimes.get?_eq, hget]
  have hprint : (∀ e ∈ c.map.rows, Printable e.2) ↔ ∀ e ∈ c'.map.rows, Printable e.2 := by
    have hperm := Table.rows_perm_of_get? hget?
    exact ⟨fun h e he => h e (hperm.mem_iff.2 he), fun h e he => h e (hperm.mem_iff.1 he)⟩
  unfold flush
  rw [hdirty, flushed_congr hget?]
  by_cases hclean : c'.dirty = true
  · rw [hclean, Bool.not_true, if_neg Bool.false_ne_true, if_neg Bool.false_ne_true]
    by_cases h : ∀ e ∈ c'.map.rows, Printable e.2
    · rw [if_pos h, if_pos (hprint.2 h)]
      exact .inr ⟨_, rfl, rfl⟩
    · rw [if_neg h, if_neg fun h' => h (hprint.1 h')]
      exact .inl ⟨_, rfl, rfl⟩
  · rw [Bool.not_eq_true] at hclean
    rw [hclean, Bool.not_false, if_pos rfl, if_pos rfl, ← hclean]
    refine .inr ⟨file, ?_, rfl⟩
    rw [← hdirty]

end RoundTrip

end Corpus
end Backtest
end AatsSniper

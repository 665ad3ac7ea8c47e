/-
# The message bus

`BusConsumer` of `aats/ingestion/bus.py` on a Redis stream with a consumer group.

What the consumer asks of the service is `StreamOps`, and what it relies on are the laws of
`StreamService`: reading and claiming return entries of the stream, what was delivered and
is not acknowledged is pending, and a crash of a consumer loses nothing of it.  `Redis`
keeps them: a stream is the list of all entries ever added, the oldest `trimmed` of them
gone, and an entry's id is its place in that list.

A consumer is an object in a process: its generator first asks for the pending entries
(`XPENDING`, at most 1000), claims them (`XCLAIM`) and yields them, then reads new ones
(`XREADGROUP`) and yields those whose key it has not in its bounded `_seen`.

`step` takes one event: a command and whether it failed, one turn of the generator, an
acknowledgement, or something others do.  What `Process` keeps beyond the source's
attributes (`backlog`, `yielded`, `drained`, `evicted`) is what the statements about
runs speak of.
-/

import AatsSniper.Lib.PyValue
import AatsSniper.Lib.Run
import AatsSniper.Lib.Seen

namespace AatsSniper
namespace Ingestion

/-- The fields of a stream entry. -/
structure Fields where
  event : Option String := none
  sig : Option String := none
  ixIdx : Option String := none
  ingestTimeMs : Option String := none
  deriving DecidableEq

/-- An entry as `XCLAIM` and `XREADGROUP` return it. -/
structure Entry where
  id : ℕ
  fields : Fields
  deriving DecidableEq

/-- `BusMessage`. -/
structure BusMessage (π : Type) where
  streamId : ℕ
  payload : π
  ingestTimeMs : ℤ
  sourceSignature : String
  instructionIndex : ℤ
  deriving DecidableEq

/-- `dedup_key`. -/
def BusMessage.dedupKey {π : Type} (m : BusMessage π) : String × ℤ :=
  (m.sourceSignature, m.instructionIndex)

/-- `int(s)`. -/
def pyInt (s : String) : Option ℤ := PyText.toInt (codePoints s)

variable {π : Type}

/-- `_parse_entry(entry_id, fields)`, with `LaunchEvent.model_validate_json` as a parameter; `none`
also where it raises. -/
def parseEntry (modelValidateJson : String → Option π) (e : Entry) : Option (BusMessage π) := do
  let eventJson ← e.fields.event.filter (· ≠ "")
  let payload ← modelValidateJson eventJson
  let sig := e.fields.sig.getD ""
  let ixIdx ← pyInt ((e.fields.ixIdx.filter (· ≠ "")).getD "0")
  let ingestMs ← pyInt ((e.fields.ingestTimeMs.filter (· ≠ "")).getD "0")
  return { streamId := e.id
           payload := payload
           ingestTimeMs := ingestMs
           sourceSignature := sig
           instructionIndex := ixIdx }

theorem streamId_of_parseEntry {modelValidateJson : String → Option π} {e : Entry}
    {m : BusMessage π} (h : parseEntry modelValidateJson e = some m) : m.streamId = e.id := by
  unfold parseEntry at h
  simp only [Option.bind_eq_bind, Option.bind_eq_some_iff, Option.pure_def, Option.some.injEq] at h
  obtain ⟨_, -, _, -, _, -, _, -, rfl⟩ := h
  rfl

/-- What is done with a stream and a group, as far as one consumer is concerned. -/
class StreamOps (ρ : Type) where
  /-- A new stream. -/
  empty : ρ
  /-- The number of entries ever added; the next one has this id. -/
  added : ρ → ℕ
  /-- The entry of an id, also where it has been trimmed. -/
  entryAt : ρ → ℕ → Option Entry
  /-- The entry of an id has not been trimmed. -/
  inStream : ρ → ℕ → Bool
  /-- The group has been delivered all entries before this id. -/
  delivered : ρ → ℕ
  /-- The ids of the entries delivered to this consumer and not acknowledged, oldest first. -/
  pending : ρ → List ℕ
  /-- `XADD` with `MAXLEN ~`, trimming some of the oldest entries; an error where the service does not
  trim so many. -/
  xadd : ρ → ℕ → Fields → ℕ → Except Unit ρ
  /-- `XREADGROUP` of new entries by this consumer. -/
  xreadgroup : ρ → ℕ → List Entry × ρ
  /-- `XREADGROUP` of new entries by another consumer of the group. -/
  readByOther : ρ → ℕ → ρ
  /-- `XCLAIM`: the entries that are pending and in the stream. -/
  xclaim : ρ → List ℕ → List Entry × ρ
  /-- `XACK`. -/
  xack : ρ → ℕ → ρ

/-- No entry is added or changed, and the group is delivered no less. -/
structure StreamOps.Keeps {ρ : Type} [StreamOps ρ] (r r' : ρ) : Prop where
  entryAt : ∀ id, entryAt r' id = entryAt r id
  added : added r' = added r
  delivered : delivered r ≤ delivered r'

/-- The laws of a stream and its group. -/
class StreamService (ρ : Type) extends StreamOps ρ where
  pending_empty : pending empty = []
  id_of_entryAt {r : ρ} {id : ℕ} {e : Entry} : entryAt r id = some e → e.id = id
  lt_added {r : ρ} {id : ℕ} {e : Entry} : entryAt r id = some e → id < added r
  added_le_of_xadd {r r' : ρ} {maxlen trim : ℕ} {fields : Fields} :
    xadd r maxlen fields trim = .ok r' → added r ≤ added r'
  /-- An entry that was added before is not touched by the next. -/
  entryAt_of_xadd {r r' : ρ} {maxlen trim id : ℕ} {fields : Fields} :
    xadd r maxlen fields trim = .ok r' → id < added r → entryAt r' id = entryAt r id
  /-- An entry that is added is delivered to nobody. -/
  delivered_of_xadd {r r' : ρ} {maxlen trim : ℕ} {fields : Fields} :
    xadd r maxlen fields trim = .ok r' → pending r' = pending r ∧ delivered r' = delivered r
  xreadgroup_keeps (r : ρ) (count : ℕ) : StreamOps.Keeps r (xreadgroup r count).2
  /-- What is read was not delivered before, and is now. -/
  id_of_xreadgroup {r : ρ} {count : ℕ} {e : Entry} : e ∈ (xreadgroup r count).1 →
    delivered r ≤ e.id ∧ e.id < delivered (xreadgroup r count).2 ∧ e.id < added r
  mem_pending_xreadgroup {r : ρ} {count id : ℕ} : id ∈ pending (xreadgroup r count).2 ↔
    id ∈ pending r ∨ ∃ e ∈ (xreadgroup r count).1, e.id = id
  readByOther_keeps (r : ρ) (count : ℕ) : StreamOps.Keeps r (readByOther r count)
  /-- What another consumer reads is not pending for this one. -/
  pending_readByOther (r : ρ) (count : ℕ) : pending (readByOther r count) = pending r
  xclaim_keeps (r : ρ) (ids : List ℕ) : StreamOps.Keeps r (xclaim r ids).2
  mem_xclaim {r : ρ} {ids : List ℕ} {e : Entry} : e ∈ (xclaim r ids).1 ↔
    e.id ∈ ids ∧ e.id ∈ pending r ∧ inStream r e.id = true ∧ entryAt r e.id = some e
  /-- A pending id whose entry was trimmed is no longer pending once it is claimed. -/
  mem_pending_xclaim {r : ρ} {ids : List ℕ} {id : ℕ} : id ∈ pending (xclaim r ids).2 ↔
    id ∈ pending r ∧ (id ∈ ids → inStream r id = true)
  xack_keeps (r : ρ) (id : ℕ) : StreamOps.Keeps r (xack r id)
  mem_pending_xack {r : ρ} {id id' : ℕ} : id' ∈ pending (xack r id) ↔ id' ∈ pending r ∧ id' ≠ id

/-- A Redis stream with a group. -/
structure Redis where
  log : List Fields := []
  trimmed : ℕ := 0
  delivered : ℕ := 0
  pending : List ℕ := []
  deriving DecidableEq

namespace Redis

/-- The entry of an id. -/
def entryAt (r : Redis) (id : ℕ) : Option Entry := (r.log[id]?).map fun fields => ⟨id, fields⟩

/-- `XADD`, which trims an entry only where more than `maxlen` are left. -/
def xadd (r : Redis) (maxlen : ℕ) (fields : Fields) (trim : ℕ) : Except Unit Redis := do
  require (trim = 0 ∨ maxlen + r.trimmed + trim ≤ r.log.length + 1) ()
  return { r with log := r.log ++ [fields], trimmed := r.trimmed + trim }

/-- The ids an `XREADGROUP` of `count` new entries returns. -/
def newIds (r : Redis) (count : ℕ) : List ℕ :=
  (List.range' r.delivered (r.log.length - r.delivered)).filter (fun id => decide (r.trimmed ≤ id))
    |>.take count

/-- The group once these new ids are delivered. -/
def deliver (r : Redis) (ids : List ℕ) : Redis :=
  { r with delivered := (ids.getLast?.map (· + 1)).getD r.delivered }

/-- `XREADGROUP` of new entries by this consumer. -/
def xreadgroup (r : Redis) (count : ℕ) : List Entry × Redis :=
  let ids := r.newIds count
  (ids.filterMap r.entryAt, { r.deliver ids with pending := r.pending ++ ids })

/-- `XREADGROUP` of new entries by another consumer of the group. -/
def readByOther (r : Redis) (count : ℕ) : Redis := r.deliver (r.newIds count)

/-- `XCLAIM`: the entries that are pending and in the stream; a pending id whose entry was trimmed is
no longer pending. -/
def xclaim (r : Redis) (ids : List ℕ) : List Entry × Redis :=
  ((ids.filter fun id => decide (id ∈ r.pending ∧ r.trimmed ≤ id)).filterMap r.entryAt,
    { r with pending := r.pending.filter fun id => decide (id ∈ ids → r.trimmed ≤ id) })

/-- `XACK`. -/
def xack (r : Redis) (id : ℕ) : Redis := { r with pending := r.pending.filter (· ≠ id) }

instance : StreamOps Redis where
  empty := {}
  added r := r.log.length
  entryAt := entryAt
  inStream r id := decide (r.trimmed ≤ id)
  delivered := delivered
  pending := pending
  xadd := xadd
  xreadgroup := xreadgroup
  readByOther := readByOther
  xclaim := xclaim
  xack := xack

variable {r r' : Redis} {id count : ℕ}

theorem inStream_iff : StreamOps.inStream r id = true ↔ r.trimmed ≤ id := decide_eq_true_iff

theorem mem_newIds (h : id ∈ r.newIds count) : r.delivered ≤ id ∧ id < r.log.length := by
  have hmem := (List.mem_filter.1 (List.mem_of_mem_take h)).1
  rw [List.mem_range'_1] at hmem
  omega

theorem pairwise_newIds (r : Redis) (count : ℕ) : (r.newIds count).Pairwise (· < ·) := by
  have hrange : (List.range' r.delivered (r.log.length - r.delivered)).Pairwise (· < ·) :=
    List.pairwise_lt_range'
  exact (hrange.filter _).sublist (List.take_sublist _ _)

/-- The group is delivered past what it reads. -/
theorem delivered_deliver (r : Redis) (count : ℕ) :
    r.delivered ≤ (r.deliver (r.newIds count)).delivered ∧
      ∀ id ∈ r.newIds count, id < (r.deliver (r.newIds count)).delivered := by
  have hsorted := pairwise_newIds r count
  have hfrom : ∀ id ∈ r.newIds count, r.delivered ≤ id := fun id hid => (mem_newIds hid).1
  unfold deliver
  generalize r.newIds count = ids at hsorted hfrom
  induction ids using List.reverseRecOn with
  | nil => simp
  | append_singleton ids last _ =>
      have hlast := hfrom last (by simp)
      rw [List.pairwise_append] at hsorted
      simp only [List.getLast?_append, List.getLast?_singleton, Option.some_or, Option.map_some,
        Option.getD_some]
      refine ⟨by omega, fun id hid => ?_⟩
      rcases List.mem_append.1 hid with hid | hid
      · have := hsorted.2.2 id hid last (by simp)
        omega
      · obtain rfl := List.mem_singleton.1 hid
        omega

theorem id_of_entryAt {e : Entry} (h : r.entryAt id = some e) : e.id = id := by
  obtain ⟨fields, -, rfl⟩ := Option.map_eq_some_iff.1 h
  rfl

theorem lt_of_entryAt {e : Entry} (h : r.entryAt id = some e) : id < r.log.length := by
  obtain ⟨fields, hfields, -⟩ := Option.map_eq_some_iff.1 h
  exact (List.getElem?_eq_some_iff.1 hfields).1

/-- The entries at some ids. -/
theorem mem_filterMap_entryAt {ids : List ℕ} {e : Entry} :
    e ∈ ids.filterMap r.entryAt ↔ e.id ∈ ids ∧ r.entryAt e.id = some e := by
  rw [List.mem_filterMap]
  constructor
  · rintro ⟨id, hid, he⟩
    obtain rfl := id_of_entryAt he
    exact ⟨hid, he⟩
  · rintro ⟨hid, he⟩
    exact ⟨e.id, hid, he⟩

theorem xadd_eq_ok {maxlen trim : ℕ} {fields : Fields} (h : r.xadd maxlen fields trim = .ok r') :
    r' = { r with log := r.log ++ [fields], trimmed := r.trimmed + trim } := by
  obtain ⟨-, h⟩ := ok_of_require h
  exact (Except.ok.inj h).symm

/-- **A Redis stream keeps the laws.** -/
instance : StreamService Redis where
  pending_empty := rfl
  id_of_entryAt := id_of_entryAt
  lt_added := lt_of_entryAt
  added_le_of_xadd h := by
    obtain rfl := xadd_eq_ok h
    simp [StreamOps.added]
  entryAt_of_xadd h hid := by
    obtain rfl := xadd_eq_ok h
    show Option.map _ _ = Option.map _ _
    rw [List.getElem?_append_left hid]
  delivered_of_xadd h := by
    obtain rfl := xadd_eq_ok h
    exact ⟨rfl, rfl⟩
  xreadgroup_keeps r count := ⟨fun _ => rfl, rfl, (delivered_deliver r count).1⟩
  id_of_xreadgroup {r count _} he := by
    have hid := (mem_filterMap_entryAt.1 he).1
    exact ⟨(mem_newIds hid).1, (delivered_deliver r count).2 _ hid, (mem_newIds hid).2⟩
  mem_pending_xreadgroup {r count id} := by
    refine List.mem_append.trans (or_congr_right ?_)
    constructor
    · intro hid
      have hlog := List.getElem?_eq_getElem (mem_newIds hid).2
      exact ⟨⟨id, _⟩, List.mem_filterMap.2 ⟨id, hid, by rw [entryAt, hlog]; rfl⟩, rfl⟩
    · rintro ⟨e, he, rfl⟩
      exact (mem_filterMap_entryAt.1 he).1
  readByOther_keeps r count := ⟨fun _ => rfl, rfl, (delivered_deliver r count).1⟩
  pending_readByOther _ _ := rfl
  xclaim_keeps _ _ := ⟨fun _ => rfl, rfl, le_rfl⟩
  mem_xclaim := by
    intro r ids e
    rw [inStream_iff]
    refine mem_filterMap_entryAt.trans ?_
    rw [List.mem_filter, decide_eq_true_iff, and_assoc, and_assoc]
    rfl
  mem_pending_xclaim := by
    intro r ids id
    rw [inStream_iff]
    exact List.mem_filter.trans (and_congr_right fun _ => decide_eq_true_iff)
  xack_keeps _ _ := ⟨fun _ => rfl, rfl, le_rfl⟩
  mem_pending_xack := by
    intro r id id'
    exact List.mem_filter.trans (and_congr_right fun _ => decide_eq_true_iff)

end Redis

/-- Where the generator of `consume_launch_events` stands: it is not running, it is about to ask for
the pending entries, to claim them, or it has entries to go through, claimed or read; where it has
gone through those it has read, it reads again. -/
inductive Phase
  | idle
  | asking
  | claiming (ids : List ℕ)
  | draining (entries : List Entry)
  | reading (entries : List Entry)
  deriving DecidableEq

/-- A `BusConsumer`: its `_seen` and its generator; and, for the statements, the ids that were
pending when it was made, the messages it has yielded, and the keys it has drained and those it has
evicted. -/
structure Process (π : Type) where
  seen : List (String × ℤ) := []
  phase : Phase := .idle
  backlog : List ℕ := []
  yielded : List (BusMessage π) := []
  drained : List (String × ℤ) := []
  evicted : List (String × ℤ) := []
  deriving DecidableEq

/-- The bus, over any service. -/
structure BusState (ρ π : Type) where
  redis : ρ
  process : Process π
  deriving DecidableEq

/-- A new stream and a new consumer. -/
def BusState.start {ρ π : Type} [StreamOps ρ] : BusState ρ π := ⟨StreamOps.empty, {}⟩

/-- What can happen. -/
inductive BusEvent (π : Type)
  /-- A producer adds an entry. -/
  | xadd (fields : Fields) (trim : ℕ)
  /-- Another consumer of the group reads. -/
  | readByOther (count : ℕ)
  /-- The process crashes, and a new one is started. -/
  | restart
  /-- `consume_launch_events` is called. -/
  | consume
  /-- The generator is closed. -/
  | close
  /-- `XPENDING`, which may fail. -/
  | xpending (ok : Bool)
  /-- `XCLAIM`, which may fail. -/
  | xclaim (ok : Bool)
  /-- `XREADGROUP`, which may fail. -/
  | xreadgroup (ok : Bool)
  /-- The generator takes up the next entry; an acknowledgement it sends may fail. -/
  | next (ackOk : Bool)
  /-- The consumer's user acknowledges a message, which may fail. -/
  | ack (m : BusMessage π) (ok : Bool)

/-- What a consumer is made with. -/
structure BusConfig (π : Type) where
  modelValidateJson : String → Option π
  policy : SeenPolicy (String × ℤ)
  batchSize : ℕ

/-- `MAXLEN_LAUNCH_EVENTS`. -/
def maxlenLaunchEvents : ℕ := 100000

/-- The `count` of `_drain_pending`. -/
def drainCount : ℕ := 1000

/-- A message is yielded from the backlog. -/
def Process.drain (p : Process π) (rest : List Entry) (m : BusMessage π) : Process π :=
  { p with phase := .draining rest
           yielded := p.yielded ++ [m]
           drained := p.drained ++ [m.dedupKey] }

/-- A message is yielded from the stream. -/
def Process.deliver (policy : SeenPolicy (String × ℤ)) (p : Process π) (rest : List Entry)
    (m : BusMessage π) : Process π :=
  { p with phase := .reading rest
           seen := policy.see p.seen m.dedupKey
           yielded := p.yielded ++ [m]
           evicted := p.evicted ++ policy.forgotten p.seen m.dedupKey }

open StreamOps (pending)

variable {ρ : Type} [DecidableEq π]

/-- One event; an error where it cannot happen. -/
def step [StreamOps ρ] (c : BusConfig π) (s : BusState ρ π) :
    BusEvent π → Except Unit (BusState ρ π)
  | .xadd fields trim => do
      let redis ← StreamOps.xadd s.redis maxlenLaunchEvents fields trim
      return { s with redis := redis }
  | .readByOther count => .ok { s with redis := StreamOps.readByOther s.redis count }
  | .restart => .ok { s with process := { backlog := pending s.redis } }
  | .close => .ok { s with process := { s.process with phase := .idle } }
  | .consume =>
      match s.process.phase with
      | .idle => .ok { s with process := { s.process with phase := .asking } }
      | _ => .error ()
  | .xpending ok =>
      match s.process.phase with
      | .asking =>
          let page := (pending s.redis).take drainCount
          if ok = true ∧ page ≠ [] then
            .ok { s with process := { s.process with phase := .claiming page } }
          else .ok { s with process := { s.process with phase := .reading [] } }
      | _ => .error ()
  | .xclaim ok =>
      match s.process.phase with
      | .claiming ids =>
          if ok = true then
            let (claimed, redis) := StreamOps.xclaim s.redis ids
            .ok { redis := redis, process := { s.process with phase := .draining claimed } }
          else .ok { s with process := { s.process with phase := .reading [] } }
      | _ => .error ()
  | .xreadgroup ok =>
      match s.process.phase with
      | .reading [] =>
          if ok = true then
            let (entries, redis) := StreamOps.xreadgroup s.redis c.batchSize
            .ok { redis := redis, process := { s.process with phase := .reading entries } }
          else .ok { s with process := { s.process with phase := .idle } }
      | _ => .error ()
  | .next ackOk =>
      match s.process.phase with
      | .draining [] => .ok { s with process := { s.process with phase := .reading [] } }
      | .draining (e :: rest) =>
          match parseEntry c.modelValidateJson e with
          | none => .ok { s with process := { s.process with phase := .draining rest } }
          | some m => .ok { s with process := s.process.drain rest m }
      | .reading (e :: rest) =>
          match parseEntry c.modelValidateJson e with
          | none => .ok { s with process := { s.process with phase := .reading rest } }
          | some m =>
              if m.dedupKey ∈ s.process.seen then
                .ok { redis := if ackOk then StreamOps.xack s.redis m.streamId else s.redis
                      process := { s.process with phase := .reading rest } }
              else .ok { s with process := s.process.deliver c.policy rest m }
      | _ => .error ()
  | .ack m ok => do
      require (m ∈ s.process.yielded) ()
      return { s with redis := if ok then StreamOps.xack s.redis m.streamId else s.redis }

variable [StreamOps ρ] {c : BusConfig π} {s s' : BusState ρ π} {ok : Bool}

theorem consume_eq_ok (h : step c s .consume = .ok s') :
    s.process.phase = .idle ∧ s' = { s with process := { s.process with phase := .asking } } := by
  unfold step at h
  cases hphase : s.process.phase with
  | idle =>
      rw [hphase] at h
      exact ⟨rfl, (Except.ok.inj h).symm⟩
  | _ =>
      rw [hphase] at h
      cases h

/-- The first page is to be claimed; without one, the stream is read. -/
theorem xpending_eq_ok (h : step c s (.xpending ok) = .ok s') :
    s.process.phase = .asking ∧
      ((ok = true ∧ (pending s.redis).take drainCount ≠ [] ∧ s' = { s with process :=
          { s.process with phase := .claiming ((pending s.redis).take drainCount) } }) ∨
        ((ok = true → (pending s.redis).take drainCount = []) ∧
          s' = { s with process := { s.process with phase := .reading [] } })) := by
  unfold step at h
  cases hphase : s.process.phase with
  | asking =>
      rw [hphase] at h
      dsimp only at h
      refine ⟨rfl, ?_⟩
      split_ifs at h with hpage
      · exact .inl ⟨hpage.1, hpage.2, (Except.ok.inj h).symm⟩
      · exact .inr ⟨fun hok => not_not.1 fun hne => hpage ⟨hok, hne⟩, (Except.ok.inj h).symm⟩
  | _ =>
      rw [hphase] at h
      cases h

theorem xclaim_eq_ok (h : step c s (.xclaim ok) = .ok s') :
    ∃ ids, s.process.phase = .claiming ids ∧
      ((ok = true ∧ s' = { redis := (StreamOps.xclaim s.redis ids).2, process :=
          { s.process with phase := .draining (StreamOps.xclaim s.redis ids).1 } }) ∨
        (ok = false ∧ s' = { s with process := { s.process with phase := .reading [] } })) := by
  unfold step at h
  cases hphase : s.process.phase with
  | claiming ids =>
      rw [hphase] at h
      dsimp only at h
      refine ⟨ids, rfl, ?_⟩
      split_ifs at h with hok
      · exact .inl ⟨hok, (Except.ok.inj h).symm⟩
      · exact .inr ⟨Bool.eq_false_iff.2 hok, (Except.ok.inj h).symm⟩
  | _ =>
      rw [hphase] at h
      cases h

theorem xreadgroup_eq_ok (h : step c s (.xreadgroup ok) = .ok s') :
    s.process.phase = .reading [] ∧
      ((ok = true ∧ s' = { redis := (StreamOps.xreadgroup s.redis c.batchSize).2, process :=
          { s.process with phase := .reading (StreamOps.xreadgroup s.redis c.batchSize).1 } }) ∨
        (ok = false ∧ s' = { s with process := { s.process with phase := .idle } })) := by
  dsimp only [step] at h
  split at h
  · rename_i hphase
    refine ⟨hphase, ?_⟩
    split_ifs at h with hok
    · exact .inl ⟨hok, (Except.ok.inj h).symm⟩
    · exact .inr ⟨Bool.eq_false_iff.2 hok, (Except.ok.inj h).symm⟩
  · cases h

/-- One turn of the generator. -/
inductive Turn (c : BusConfig π) (s : BusState ρ π) : BusState ρ π → Prop
  | drainedAll (hphase : s.process.phase = .draining []) :
      Turn c s { s with process := { s.process with phase := .reading [] } }
  | passed (e : Entry) (rest : List Entry) (hphase : s.process.phase = .draining (e :: rest))
      (hparse : parseEntry c.modelValidateJson e = none) :
      Turn c s { s with process := { s.process with phase := .draining rest } }
  | drained (e : Entry) (rest : List Entry) (m : BusMessage π)
      (hphase : s.process.phase = .draining (e :: rest))
      (hparse : parseEntry c.modelValidateJson e = some m) :
      Turn c s { s with process := s.process.drain rest m }
  | skipped (e : Entry) (rest : List Entry) (hphase : s.process.phase = .reading (e :: rest))
      (hparse : parseEntry c.modelValidateJson e = none) :
      Turn c s { s with process := { s.process with phase := .reading rest } }
  | repeated (e : Entry) (rest : List Entry) (m : BusMessage π) (ackOk : Bool)
      (hphase : s.process.phase = .reading (e :: rest))
      (hparse : parseEntry c.modelValidateJson e = some m) (hseen : m.dedupKey ∈ s.process.seen) :
      Turn c s { redis := if ackOk then StreamOps.xack s.redis m.streamId else s.redis
                 process := { s.process with phase := .reading rest } }
  | delivered (e : Entry) (rest : List Entry) (m : BusMessage π)
      (hphase : s.process.phase = .reading (e :: rest))
      (hparse : parseEntry c.modelValidateJson e = some m) (hseen : m.dedupKey ∉ s.process.seen) :
      Turn c s { s with process := s.process.deliver c.policy rest m }

theorem turn_of_next {ackOk : Bool} (h : step c s (.next ackOk) = .ok s') : Turn c s s' := by
  dsimp only [step] at h
  split at h
  · rename_i hphase
    obtain rfl := Except.ok.inj h
    exact .drainedAll hphase
  · rename_i e rest hphase
    cases hparse : parseEntry c.modelValidateJson e with
    | none =>
        rw [hparse] at h
        obtain rfl := Except.ok.inj h
        exact .passed e rest hphase hparse
    | some m =>
        rw [hparse] at h
        obtain rfl := Except.ok.inj h
        exact .drained e rest m hphase hparse
  · rename_i e rest hphase
    cases hparse : parseEntry c.modelValidateJson e with
    | none =>
        rw [hparse] at h
        obtain rfl := Except.ok.inj h
        exact .skipped e rest hphase hparse
    | some m =>
        rw [hparse] at h
        dsimp only at h
        by_cases hseen : m.dedupKey ∈ s.process.seen
        · rw [if_pos hseen] at h
          obtain rfl := Except.ok.inj h
          exact .repeated e rest m ackOk hphase hparse hseen
        · rw [if_neg hseen] at h
          obtain rfl := Except.ok.inj h
          exact .delivered e rest m hphase hparse hseen
  · cases h

/-- One event. -/
inductive Moves (c : BusConfig π) (s : BusState ρ π) :
    BusEvent π → BusState ρ π → Prop
  | xadd (fields : Fields) (trim : ℕ) {redis : ρ}
      (hadd : StreamOps.xadd s.redis maxlenLaunchEvents fields trim = .ok redis) :
      Moves c s (.xadd fields trim) { s with redis := redis }
  | readByOther (count : ℕ) :
      Moves c s (.readByOther count) { s with redis := StreamOps.readByOther s.redis count }
  | restart : Moves c s .restart { s with process := { backlog := pending s.redis } }
  | close : Moves c s .close { s with process := { s.process with phase := .idle } }
  | consume (hphase : s.process.phase = .idle) :
      Moves c s .consume { s with process := { s.process with phase := .asking } }
  | page (hphase : s.process.phase = .asking) (hpage : (pending s.redis).take drainCount ≠ []) :
      Moves c s (.xpending true) { s with process :=
        { s.process with phase := .claiming ((pending s.redis).take drainCount) } }
  | noPage (ok : Bool) (hphase : s.process.phase = .asking)
      (hnone : ok = true → (pending s.redis).take drainCount = []) :
      Moves c s (.xpending ok) { s with process := { s.process with phase := .reading [] } }
  | claimed (ids : List ℕ) (hphase : s.process.phase = .claiming ids) :
      Moves c s (.xclaim true) { redis := (StreamOps.xclaim s.redis ids).2, process :=
        { s.process with phase := .draining (StreamOps.xclaim s.redis ids).1 } }
  | unclaimed (ids : List ℕ) (hphase : s.process.phase = .claiming ids) :
      Moves c s (.xclaim false) { s with process := { s.process with phase := .reading [] } }
  | read (hphase : s.process.phase = .reading []) :
      Moves c s (.xreadgroup true) { redis := (StreamOps.xreadgroup s.redis c.batchSize).2, process :=
        { s.process with phase := .reading (StreamOps.xreadgroup s.redis c.batchSize).1 } }
  | unread (hphase : s.process.phase = .reading []) :
      Moves c s (.xreadgroup false) { s with process := { s.process with phase := .idle } }
  | turn (ackOk : Bool) {s' : BusState ρ π} (hturn : Turn c s s') : Moves c s (.next ackOk) s'
  | ack (m : BusMessage π) (ok : Bool) (hm : m ∈ s.process.yielded) :
      Moves c s (.ack m ok)
        { s with redis := if ok then StreamOps.xack s.redis m.streamId else s.redis }

/-- **What a step can do.** -/
theorem moves_of_step {event : BusEvent π} (h : step c s event = .ok s') :
    Moves c s event s' := by
  cases event with
  | xadd fields trim =>
      obtain ⟨redis, hadd, h⟩ := ok_of_bind h
      obtain rfl := Except.ok.inj h
      exact .xadd fields trim hadd
  | readByOther count =>
      obtain rfl := Except.ok.inj h
      exact .readByOther count
  | restart =>
      obtain rfl := Except.ok.inj h
      exact .restart
  | close =>
      obtain rfl := Except.ok.inj h
      exact .close
  | consume =>
      obtain ⟨hphase, rfl⟩ := consume_eq_ok h
      exact .consume hphase
  | xpending ok =>
      obtain ⟨hphase, ⟨rfl, hpage, rfl⟩ | ⟨hnone, rfl⟩⟩ := xpending_eq_ok h
      · exact .page hphase hpage
      · exact .noPage ok hphase hnone
  | xclaim ok =>
      obtain ⟨ids, hphase, ⟨rfl, rfl⟩ | ⟨rfl, rfl⟩⟩ := xclaim_eq_ok h
      · exact .claimed ids hphase
      · exact .unclaimed ids hphase
  | xreadgroup ok =>
      obtain ⟨hphase, ⟨rfl, rfl⟩ | ⟨rfl, rfl⟩⟩ := xreadgroup_eq_ok h
      · exact .read hphase
      · exact .unread hphase
  | next ackOk => exact .turn ackOk (turn_of_next h)
  | ack m ok =>
      obtain ⟨hm, h⟩ := ok_of_require h
      obtain rfl := Except.ok.inj h
      exact .ack m ok hm

end Ingestion
end AatsSniper

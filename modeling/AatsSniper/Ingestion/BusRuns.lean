/-
# What a consumer of the bus recovers and repeats

A process owes its user the parseable entries that were pending when it was made
(`Owed`).  Over a run with crashes at any point, it has yielded them all by the time it
reads the stream, and no key twice, if every step meets `StepOk` (`runs_safe`): the
pending entries are asked for and claimed without an error, those owed are among the
first 1000 and still in the stream, those drained have keys of their own, and none is
read whose key was drained, or evicted and not seen since.  The drain asks once, for one
page, and neither looks into `_seen` nor adds to it; `_seen` forgets.

All of it holds over any service that keeps the laws of `StreamService`; the runs on fixed
inputs are over `Redis`.
-/

import AatsSniper.Ingestion.Bus

namespace AatsSniper
namespace Ingestion

open StreamOps (added delivered entryAt inStream pending Keeps)

variable {ρ π : Type} [StreamService ρ] {c : BusConfig π} {s s' : BusState ρ π} {id : ℕ}

/-- The entry of the id parses. -/
def Parseable (c : BusConfig π) (r : ρ) (id : ℕ) : Prop :=
  ∃ e, entryAt r id = some e ∧ (parseEntry c.modelValidateJson e).isSome = true

/-- Delivered and not acknowledged when the process was made, and not yielded by it. -/
structure Owed (c : BusConfig π) (s : BusState ρ π) (id : ℕ) : Prop where
  backlog : id ∈ s.process.backlog
  parseable : Parseable c s.redis id
  notYielded : ∀ m ∈ s.process.yielded, m.streamId ≠ id

/-- Nothing is owed once the stream is read. -/
def Recovers (c : BusConfig π) (s : BusState ρ π) : Prop :=
  ∀ entries, s.process.phase = .reading entries → ∀ id, ¬ Owed c s id

/-- The process has yielded no key twice. -/
def YieldsOnce (s : BusState ρ π) : Prop := (s.process.yielded.map BusMessage.dedupKey).Nodup

/-- The key of an entry drained is one the process has not met; the key of an entry read is not one
it has drained or evicted, unless it is in `_seen`. -/
def KeyOk (c : BusConfig π) (s : BusState ρ π) : Prop :=
  match s.process.phase with
  | .draining (e :: _) => ∀ m, parseEntry c.modelValidateJson e = some m →
      m.dedupKey ∉ s.process.drained ∧ m.dedupKey ∉ s.process.seen ∧
        m.dedupKey ∉ s.process.evicted
  | .reading (e :: _) => ∀ m, parseEntry c.modelValidateJson e = some m →
      m.dedupKey ∉ s.process.seen →
        m.dedupKey ∉ s.process.drained ∧ m.dedupKey ∉ s.process.evicted
  | _ => True

/-- What a step has to meet. -/
def StepOk (c : BusConfig π) (s : BusState ρ π) : BusEvent π → Prop
  | .xpending ok => ∀ id, Owed c s id → ok = true ∧ id ∈ (pending s.redis).take drainCount
  | .xclaim ok => ∀ id, Owed c s id → ok = true ∧ inStream s.redis id = true
  | .next _ => KeyOk c s
  | _ => True

section Decisions

variable {r : ρ} {event : BusEvent π}

instance : Decidable (Parseable c r id) :=
  decidable_of_iff ((entryAt r id).any fun e => (parseEntry c.modelValidateJson e).isSome)
    (by simp [Parseable, Option.any_eq_true])

instance : Decidable (Owed c s id) :=
  decidable_of_iff (id ∈ s.process.backlog ∧ Parseable c s.redis id ∧
      ∀ m ∈ s.process.yielded, m.streamId ≠ id)
    ⟨fun h => ⟨h.1, h.2.1, h.2.2⟩, fun h => ⟨h.backlog, h.parseable, h.notYielded⟩⟩

theorem forall_owed {q : ℕ → Prop} :
    (∀ id ∈ s.process.backlog, Owed c s id → q id) ↔ ∀ id, Owed c s id → q id :=
  ⟨fun h id howed => h id howed.backlog howed, fun h id _ => h id⟩

omit [StreamService ρ] in
theorem keyOk_draining {e : Entry} {rest : List Entry}
    (hphase : s.process.phase = .draining (e :: rest)) :
    (∀ m ∈ parseEntry c.modelValidateJson e, m.dedupKey ∉ s.process.drained ∧
      m.dedupKey ∉ s.process.seen ∧ m.dedupKey ∉ s.process.evicted) ↔ KeyOk c s := by
  rw [KeyOk, hphase]
  rfl

omit [StreamService ρ] in
theorem keyOk_reading {e : Entry} {rest : List Entry}
    (hphase : s.process.phase = .reading (e :: rest)) :
    (∀ m ∈ parseEntry c.modelValidateJson e, m.dedupKey ∉ s.process.seen →
      m.dedupKey ∉ s.process.drained ∧ m.dedupKey ∉ s.process.evicted) ↔ KeyOk c s := by
  rw [KeyOk, hphase]
  rfl

omit [StreamService ρ] in
/-- Where the generator has no entry to take up. -/
theorem keyOk_of_phase {phase : Phase} (hphase : s.process.phase = phase)
    (hnone : ∀ e rest, phase ≠ .draining (e :: rest) ∧ phase ≠ .reading (e :: rest)) :
    KeyOk c s := by
  unfold KeyOk
  split
  · rename_i e rest h
    exact absurd (hphase.symm.trans h) (hnone e rest).1
  · rename_i e rest h
    exact absurd (hphase.symm.trans h) (hnone e rest).2
  · trivial

local instance lawfulBEq_key : LawfulBEq (String × ℤ) := inferInstance

instance : Decidable (KeyOk c s) :=
  match hphase : s.process.phase with
  | .draining (_ :: _) => decidable_of_iff _ (keyOk_draining hphase)
  | .reading (_ :: _) => decidable_of_iff _ (keyOk_reading hphase)
  | .idle | .asking | .claiming _ | .draining [] | .reading [] =>
      .isTrue (keyOk_of_phase hphase fun _ _ => ⟨nofun, nofun⟩)

instance : Decidable (StepOk c s event) :=
  match event with
  | .xpending _ => decidable_of_iff _ forall_owed
  | .xclaim _ => decidable_of_iff _ forall_owed
  | .next _ => inferInstanceAs (Decidable (KeyOk c s))
  | .xadd _ _ | .readByOther _ | .restart | .consume | .close | .xreadgroup _ | .ack _ _ =>
      .isTrue trivial

instance : Decidable (YieldsOnce s) := inferInstanceAs (Decidable (List.Nodup _))

end Decisions

/-! ### What is owed -/

/-- Where what is owed will come from. -/
def Covered (c : BusConfig π) (s : BusState ρ π) : Prop :=
  match s.process.phase with
  | .claiming ids => ∀ id, Owed c s id → id ∈ ids
  | .draining entries => ∀ id e, Owed c s id → entryAt s.redis id = some e → e ∈ entries
  | .reading _ => ∀ id, ¬ Owed c s id
  | _ => True

/-- What is owed is pending, and on its way. -/
structure OwedInv (c : BusConfig π) (s : BusState ρ π) : Prop where
  pending_lt : ∀ id ∈ pending s.redis, id < added s.redis
  backlog_lt : ∀ id ∈ s.process.backlog, id < added s.redis
  owed_pending : ∀ id, Owed c s id → id ∈ pending s.redis
  covered : Covered c s

/-- What is owed depends on the log, on what was pending and on what was yielded. -/
theorem Owed.congr (h : Owed c s' id) (hentry : entryAt s'.redis id = entryAt s.redis id)
    (hbacklog : s'.process.backlog = s.process.backlog)
    (hyielded : ∀ m ∈ s.process.yielded, m ∈ s'.process.yielded) : Owed c s id := by
  refine ⟨hbacklog ▸ h.backlog, ?_, fun m hm => h.notYielded m (hyielded m hm)⟩
  obtain ⟨e, he, hparse⟩ := h.parseable
  exact ⟨e, hentry ▸ he, hparse⟩

/-- Where less is owed, it is covered as before. -/
theorem Covered.congr (h : Covered c s) (hphase : s'.process.phase = s.process.phase)
    (howed : ∀ id, Owed c s' id → Owed c s id)
    (hentry : ∀ id, Owed c s' id → entryAt s'.redis id = entryAt s.redis id) : Covered c s' := by
  unfold Covered at h ⊢
  rw [hphase]
  cases hcase : s.process.phase with
  | idle => trivial
  | asking => trivial
  | claiming ids =>
      rw [hcase] at h
      exact fun id hid => h id (howed id hid)
  | draining entries =>
      rw [hcase] at h
      exact fun id e hid he => h id e (howed id hid) (hentry id hid ▸ he)
  | reading entries =>
      rw [hcase] at h
      exact fun id hid => h id (howed id hid)

/-- Nothing is owed that was not owed. -/
theorem OwedInv.of_owed (h : OwedInv c s)
    (hpending_lt : ∀ id ∈ pending s'.redis, id < added s'.redis)
    (hadded : added s.redis ≤ added s'.redis)
    (hbacklog : s'.process.backlog = s.process.backlog)
    (howed : ∀ id, Owed c s' id → Owed c s id)
    (hpending : ∀ id, Owed c s' id → id ∈ pending s.redis → id ∈ pending s'.redis)
    (hcovered : Covered c s') : OwedInv c s' where
  pending_lt := hpending_lt
  backlog_lt id hid := Nat.lt_of_lt_of_le (h.backlog_lt id (hbacklog ▸ hid)) hadded
  owed_pending id hid := hpending id hid (h.owed_pending id (howed id hid))
  covered := hcovered

section Steps

/-- Only the process moves on, to where what is owed is still covered. -/
theorem OwedInv.move (h : OwedInv c s) {p : Process π} (hbacklog : p.backlog = s.process.backlog)
    (hyielded : ∀ m ∈ s.process.yielded, m ∈ p.yielded)
    (hcovered : Covered c { s with process := p }) : OwedInv c { s with process := p } :=
  h.of_owed h.pending_lt (Nat.le_refl _) hbacklog (fun _ howed => howed.congr rfl hbacklog hyielded)
    (fun _ _ hid => hid) hcovered

/-- The service does something to its entries that leaves them as they are. -/
theorem OwedInv.keep (h : OwedInv c s) {r : ρ} (hkeeps : Keeps s.redis r)
    (hsubset : ∀ id ∈ pending r, id ∈ pending s.redis)
    (hpending : ∀ id, Owed c s id → id ∈ pending s.redis → id ∈ pending r) :
    OwedInv c { s with redis := r } := by
  have howed : ∀ id, Owed c { s with redis := r } id → Owed c s id :=
    fun id hid => hid.congr (hkeeps.entryAt id) rfl fun _ hm => hm
  refine h.of_owed (fun id hid => ?_) hkeeps.added.ge rfl howed
    (fun id hid => hpending id (howed id hid)) (h.covered.congr rfl howed fun id _ =>
      hkeeps.entryAt id)
  rw [hkeeps.added]
  exact h.pending_lt id (hsubset id hid)

theorem OwedInv.xadd (h : OwedInv c s) {maxlen trim : ℕ} {fields : Fields} {r : ρ}
    (hadd : StreamOps.xadd s.redis maxlen fields trim = .ok r) :
    OwedInv c { s with redis := r } := by
  have hadded := StreamService.added_le_of_xadd hadd
  have hpending := (StreamService.delivered_of_xadd hadd).1
  have howed : ∀ id, Owed c { s with redis := r } id → Owed c s id := fun id hid =>
    hid.congr (StreamService.entryAt_of_xadd hadd (h.backlog_lt id hid.backlog)) rfl fun _ hm => hm
  refine h.of_owed (fun id hid => ?_) hadded rfl howed (fun id _ hid => hpending ▸ hid) ?_
  · exact Nat.lt_of_lt_of_le (h.pending_lt id (hpending ▸ hid)) hadded
  · exact h.covered.congr rfl howed fun id hid =>
      StreamService.entryAt_of_xadd hadd (h.backlog_lt id hid.backlog)

/-- An id that is not owed is no longer pending. -/
theorem OwedInv.xack (h : OwedInv c s) {id : ℕ} (hid : ¬ Owed c s id) :
    OwedInv c { s with redis := StreamOps.xack s.redis id } := by
  refine h.keep (StreamService.xack_keeps s.redis id)
    (fun j hj => (StreamService.mem_pending_xack.1 hj).1) fun j hj hpending => ?_
  refine StreamService.mem_pending_xack.2 ⟨hpending, ?_⟩
  rintro rfl
  exact hid hj

/-- Another consumer takes entries that are not this one's. -/
theorem OwedInv.readByOther (h : OwedInv c s) (count : ℕ) :
    OwedInv c { s with redis := StreamOps.readByOther s.redis count } := by
  have hpending := StreamService.pending_readByOther s.redis count
  exact h.keep (StreamService.readByOther_keeps s.redis count) (fun id hid => hpending ▸ hid)
    fun id _ hid => hpending ▸ hid

/-- New entries are read where nothing is owed. -/
theorem OwedInv.xreadgroup (h : OwedInv c s) (hnone : ∀ id, ¬ Owed c s id) (count : ℕ) :
    OwedInv c { redis := (StreamOps.xreadgroup s.redis count).2, process :=
      { s.process with phase := .reading (StreamOps.xreadgroup s.redis count).1 } } := by
  have hkeeps := StreamService.xreadgroup_keeps s.redis count
  have hnone' : ∀ id, ¬ Owed c { redis := (StreamOps.xreadgroup s.redis count).2, process :=
      { s.process with phase := .reading (StreamOps.xreadgroup s.redis count).1 } } id :=
    fun id hid => hnone id (hid.congr (hkeeps.entryAt id) rfl fun _ hm => hm)
  refine ⟨fun id hid => ?_, fun id hid => ?_, fun id hid => absurd hid (hnone' id), hnone'⟩
  · show id < added (StreamOps.xreadgroup s.redis count).2
    rw [hkeeps.added]
    rcases StreamService.mem_pending_xreadgroup.1 hid with hid | ⟨e, he, rfl⟩
    · exact h.pending_lt id hid
    · exact (StreamService.id_of_xreadgroup he).2.2
  · show id < added (StreamOps.xreadgroup s.redis count).2
    rw [hkeeps.added]
    exact h.backlog_lt id hid

/-- What is owed and still in the stream is claimed. -/
theorem OwedInv.xclaim (h : OwedInv c s) {ids : List ℕ} (hids : ∀ id, Owed c s id → id ∈ ids)
    (hstream : ∀ id, Owed c s id → inStream s.redis id = true) :
    OwedInv c { redis := (StreamOps.xclaim s.redis ids).2, process :=
      { s.process with phase := .draining (StreamOps.xclaim s.redis ids).1 } } := by
  have hkeeps := StreamService.xclaim_keeps s.redis ids
  have howed : ∀ id, Owed c { redis := (StreamOps.xclaim s.redis ids).2, process :=
      { s.process with phase := .draining (StreamOps.xclaim s.redis ids).1 } } id → Owed c s id :=
    fun id hid => hid.congr (hkeeps.entryAt id) rfl fun _ hm => hm
  refine h.of_owed (fun id hid => ?_) hkeeps.added.ge rfl howed (fun id hid hpending => ?_)
    fun id e hid he => ?_
  · show id < added (StreamOps.xclaim s.redis ids).2
    rw [hkeeps.added]
    exact h.pending_lt id (StreamService.mem_pending_xclaim.1 hid).1
  · exact StreamService.mem_pending_xclaim.2 ⟨hpending, fun _ => hstream id (howed id hid)⟩
  · have hid' := howed id hid
    have he' : entryAt s.redis id = some e := (hkeeps.entryAt id).symm.trans he
    obtain rfl := StreamService.id_of_entryAt he'
    exact StreamService.mem_xclaim.2
      ⟨hids _ hid', h.owed_pending _ hid', hstream _ hid', he'⟩

/-- The generator passes an entry by, or yields it: what is owed is among the others. -/
theorem OwedInv.drained (h : OwedInv c s) {e : Entry} {rest : List Entry} {p : Process π}
    (hphase : s.process.phase = .draining (e :: rest)) (hbacklog : p.backlog = s.process.backlog)
    (hyielded : ∀ m ∈ s.process.yielded, m ∈ p.yielded) (hp : p.phase = .draining rest)
    (he : ∀ id, Owed c { s with process := p } id → entryAt s.redis id ≠ some e) :
    OwedInv c { s with process := p } := by
  refine h.move hbacklog hyielded ?_
  have hcovered := h.covered
  unfold Covered at hcovered ⊢
  rw [hphase] at hcovered
  dsimp only at hcovered ⊢
  rw [hp]
  intro id e' hid he'
  rcases List.mem_cons.1 (hcovered id e' (hid.congr rfl hbacklog hyielded) he') with rfl | hrest
  · exact absurd he' (he id hid)
  · exact hrest

/-- The process made anew owes what is pending. -/
theorem OwedInv.restart (h : OwedInv c s) :
    OwedInv c { s with process := { backlog := pending s.redis } } :=
  ⟨h.pending_lt, h.pending_lt, fun _ hid => hid.backlog, trivial⟩

/-- One turn of the generator. -/
theorem OwedInv.turn (h : OwedInv c s) (hturn : Turn c s s') : OwedInv c s' := by
  have hcovered := h.covered
  unfold Covered at hcovered
  cases hturn with
  | drainedAll hphase =>
      rw [hphase] at hcovered
      refine h.move rfl (fun _ hm => hm) fun id hid => ?_
      have hid' : Owed c s id := hid.congr rfl rfl fun _ hm => hm
      obtain ⟨e, he, -⟩ := hid'.parseable
      cases hcovered id e hid' he
  | passed e rest hphase hparse =>
      refine h.drained hphase rfl (fun _ hm => hm) rfl fun id hid he => ?_
      obtain ⟨e', he', hsome⟩ := hid.parseable
      obtain rfl := Option.some.inj (he.symm.trans he')
      rw [hparse] at hsome
      cases hsome
  | drained e rest m hphase hparse =>
      refine h.drained hphase rfl (fun _ hm => List.mem_append_left _ hm) rfl fun id hid he => ?_
      refine hid.notYielded m (List.mem_append_right _ List.mem_cons_self) ?_
      rw [streamId_of_parseEntry hparse, StreamService.id_of_entryAt he]
  | skipped e rest hphase hparse =>
      rw [hphase] at hcovered
      exact h.move rfl (fun _ hm => hm) fun id hid => hcovered id (hid.congr rfl rfl fun _ hm => hm)
  | repeated e rest m ackOk hphase hparse hseen =>
      rw [hphase] at hcovered
      have hread : OwedInv c { s with process := { s.process with phase := .reading rest } } :=
        h.move rfl (fun _ hm => hm) fun id hid => hcovered id (hid.congr rfl rfl fun _ hm => hm)
      cases ackOk with
      | false => exact hread
      | true => exact hread.xack fun hid => hcovered _ (hid.congr rfl rfl fun _ hm => hm)
  | delivered e rest m hphase hparse hseen =>
      rw [hphase] at hcovered
      have hyielded : ∀ m' ∈ s.process.yielded,
          m' ∈ (s.process.deliver c.policy rest m).yielded := fun m' hm => List.mem_append_left _ hm
      exact h.move rfl hyielded fun id hid => hcovered id (hid.congr rfl rfl hyielded)

variable [DecidableEq π]

/-- **One step.** -/
theorem OwedInv.step (h : OwedInv c s) {event : BusEvent π} (hok : StepOk c s event)
    (hstep : step c s event = .ok s') : OwedInv c s' := by
  have hcovered := h.covered
  unfold Covered at hcovered
  cases moves_of_step hstep with
  | xadd fields trim hadd => exact h.xadd hadd
  | readByOther count => exact h.readByOther count
  | restart => exact h.restart
  | close => exact h.move rfl (fun _ hm => hm) trivial
  | consume _ => exact h.move rfl (fun _ hm => hm) trivial
  | page _ _ =>
      exact h.move rfl (fun _ hm => hm) fun id hid =>
        (hok id (hid.congr rfl rfl fun _ hm => hm)).2
  | noPage ok _ hnone =>
      refine h.move rfl (fun _ hm => hm) fun id hid => ?_
      obtain ⟨hsent, hpage⟩ := hok id (hid.congr rfl rfl fun _ hm => hm)
      rw [hnone hsent] at hpage
      cases hpage
  | claimed ids hphase =>
      rw [hphase] at hcovered
      exact h.xclaim hcovered fun id hid => (hok id hid).2
  | unclaimed ids _ =>
      refine h.move rfl (fun _ hm => hm) fun id hid => ?_
      cases (hok id (hid.congr rfl rfl fun _ hm => hm)).1
  | read hphase =>
      rw [hphase] at hcovered
      exact h.xreadgroup hcovered c.batchSize
  | unread _ => exact h.move rfl (fun _ hm => hm) trivial
  | turn ackOk hturn => exact h.turn hturn
  | ack m ok hm =>
      cases ok with
      | false => exact h
      | true => exact h.xack fun howed => howed.notYielded m hm rfl

end Steps

/-! ### What is repeated -/

/-- The keys a process has met are those it has drained, has in `_seen` or has evicted. -/
def KeysKnown (s : BusState ρ π) : Prop :=
  ∀ k, (∃ m ∈ s.process.yielded, m.dedupKey = k) ↔
    k ∈ s.process.drained ∨ k ∈ s.process.seen ∨ k ∈ s.process.evicted

/-- One message more is yielded once iff its key was not met. -/
theorem yieldsOnce_snoc {yielded : List (BusMessage π)} {m : BusMessage π} :
    ((yielded ++ [m]).map BusMessage.dedupKey).Nodup ↔
      (yielded.map BusMessage.dedupKey).Nodup ∧ ¬ ∃ m' ∈ yielded, m'.dedupKey = m.dedupKey := by
  rw [List.map_append, List.map_singleton, List.nodup_append']
  simp

theorem exists_mem_snoc {yielded : List (BusMessage π)} {m : BusMessage π} {k : String × ℤ} :
    (∃ m' ∈ yielded ++ [m], m'.dedupKey = k) ↔
      (∃ m' ∈ yielded, m'.dedupKey = k) ∨ k = m.dedupKey := by
  simp only [List.mem_append, List.mem_singleton, or_and_right, exists_or, exists_eq_left,
    eq_comm (a := k)]

theorem keysKnown_turn (h : KeysKnown s) (hturn : Turn c s s') : KeysKnown s' := by
  intro k
  cases hturn with
  | drainedAll hphase => exact h k
  | passed e rest hphase hparse => exact h k
  | skipped e rest hphase hparse => exact h k
  | repeated e rest m ackOk hphase hparse hseen => exact h k
  | drained e rest m hphase hparse =>
      refine exists_mem_snoc.trans ?_
      rw [h k]
      simp only [Process.drain, List.mem_append, List.mem_singleton]
      exact or_right_comm
  | delivered e rest m hphase hparse hseen =>
      -- what `_seen` forgets for the new key is evicted
      have hsee : k ∈ c.policy.see s.process.seen m.dedupKey ∨
          k ∈ c.policy.forgotten s.process.seen m.dedupKey ↔
            k ∈ s.process.seen ∨ k = m.dedupKey := SeenPolicy.mem_see_or_forgotten
      refine exists_mem_snoc.trans ?_
      rw [h k]
      simp only [Process.deliver, List.mem_append]
      rw [or_assoc, or_right_comm (a := k ∈ s.process.seen), ← hsee, or_right_comm,
        or_assoc (c := k ∈ c.policy.forgotten s.process.seen m.dedupKey)]

/-- A turn keeps the keys apart iff it takes up an entry of the right key. -/
theorem yieldsOnce_turn (hkeys : KeysKnown s) (honce : YieldsOnce s) (hturn : Turn c s s') :
    YieldsOnce s' ↔ KeyOk c s := by
  unfold KeyOk
  cases hturn with
  | drainedAll hphase => simpa [hphase, YieldsOnce] using honce
  | passed e rest hphase hparse => simpa [hphase, hparse, YieldsOnce] using honce
  | skipped e rest hphase hparse => simpa [hphase, hparse, YieldsOnce] using honce
  | repeated e rest m ackOk hphase hparse hseen =>
      simpa [hphase, hparse, hseen, YieldsOnce] using honce
  | drained e rest m hphase hparse =>
      have hsnoc : YieldsOnce { s with process := s.process.drain rest m } ↔
          YieldsOnce s ∧ ¬ ∃ m' ∈ s.process.yielded, m'.dedupKey = m.dedupKey := yieldsOnce_snoc
      rw [hsnoc, hkeys m.dedupKey]
      simp [hphase, hparse, honce]
  | delivered e rest m hphase hparse hseen =>
      have hsnoc : YieldsOnce { s with process := s.process.deliver c.policy rest m } ↔
          YieldsOnce s ∧ ¬ ∃ m' ∈ s.process.yielded, m'.dedupKey = m.dedupKey := yieldsOnce_snoc
      rw [hsnoc, hkeys m.dedupKey]
      simp [hphase, hparse, hseen, honce]

section Runs

variable [DecidableEq π]

/-- A step that is not a turn yields nothing, and leaves what was met as it was; a restart forgets
all. -/
theorem process_of_step {event : BusEvent π} (hstep : step c s event = .ok s') :
    (∃ ackOk, event = .next ackOk ∧ Turn c s s') ∨ s'.process = { backlog := pending s.redis } ∨
      ∃ phase, s'.process = { s.process with phase := phase } := by
  cases moves_of_step hstep with
  | turn ackOk hturn => exact .inl ⟨ackOk, rfl, hturn⟩
  | restart => exact .inr (.inl rfl)
  | _ => exact .inr (.inr ⟨_, rfl⟩)

/-- The keys met are known throughout. -/
theorem KeysKnown.step (h : KeysKnown s) {event : BusEvent π} (hstep : step c s event = .ok s') :
    KeysKnown s' := by
  obtain ⟨ackOk, -, hturn⟩ | hprocess | ⟨phase, hprocess⟩ := process_of_step hstep
  · exact keysKnown_turn h hturn
  · simp [KeysKnown, hprocess]
  · simpa [KeysKnown, hprocess] using h

theorem YieldsOnce.step (h : YieldsOnce s) (hkeys : KeysKnown s) {event : BusEvent π}
    (hok : StepOk c s event) (hstep : Ingestion.step c s event = .ok s') : YieldsOnce s' := by
  obtain ⟨ackOk, rfl, hturn⟩ | hprocess | ⟨phase, hprocess⟩ := process_of_step hstep
  · exact (yieldsOnce_turn hkeys h hturn).2 hok
  · simp [YieldsOnce, hprocess]
  · simpa [YieldsOnce, hprocess] using h

/-- **A run loses nothing and repeats nothing**, over any service that keeps the laws and with crashes
at any point, if every step finds what it needs: in every state of the run nothing is owed once the
stream is read, and no key was yielded twice. -/
theorem runs_safe (c : BusConfig π) (events : List (BusEvent π))
    (h : EveryStep (step c) (fun _ s event => StepOk c s event) (.start : BusState ρ π) events) :
    EveryState (step c) (fun _ s => Recovers c s ∧ YieldsOnce s) (.start : BusState ρ π) events := by
  have hinit : OwedInv c (.start : BusState ρ π) := by
    refine ⟨fun id hid => ?_, fun id hid => absurd hid List.not_mem_nil,
      fun id howed => absurd howed.backlog List.not_mem_nil, trivial⟩
    have hnone : id ∈ ([] : List ℕ) := StreamService.pending_empty (ρ := ρ) ▸ hid
    cases hnone
  have hrun : EveryState (step c)
      (fun _ s => OwedInv c s ∧ KeysKnown s ∧ YieldsOnce s) (.start : BusState ρ π) events := by
    refine h.everyState ⟨hinit, by simp [KeysKnown, BusState.start], by simp [YieldsOnce, BusState.start]⟩ ?_
    rintro - s event s' ⟨howed, hkeys, honce⟩ hok hstep
    exact ⟨howed.step hok hstep, hkeys.step hstep, honce.step hkeys hok hstep⟩
  intro before after s hsplit hreach
  obtain ⟨howed, -, honce⟩ := hrun before after s hsplit hreach
  refine ⟨fun entries hphase => ?_, honce⟩
  have hcovered := howed.covered
  rw [Covered, hphase] at hcovered
  exact hcovered

/-- One entry, delivered to a process that crashes, and drained by the next. -/
theorem runs_safe_recovered :
    EveryState (step (⟨some, .oldest 10000, 100⟩ : BusConfig String))
      (fun _ s => Recovers (⟨some, .oldest 10000, 100⟩ : BusConfig String) s ∧ YieldsOnce s)
      (.start : BusState Redis String)
      [.xadd { event := some "\x7b\x7d", sig := some "s", ixIdx := some "0" } 0, .consume,
        .xpending true, .xreadgroup true, .next true, .restart, .consume, .xpending true,
        .xclaim true, .next true, .next true] :=
  runs_safe _ _ (by decide +kernel)

/-- **An event published twice.**  Both entries are pending when the process crashes, and the next
one yields both. -/
theorem drain_repeats :
    ∃ s, runSteps (step (⟨some, .oldest 10000, 100⟩ : BusConfig String))
      (.start : BusState Redis String)
      [.xadd { event := some "\x7b\x7d", sig := some "s", ixIdx := some "0" } 0,
        .xadd { event := some "\x7b\x7d", sig := some "s", ixIdx := some "0" } 0, .consume,
        .xpending true, .xreadgroup true, .next true, .restart, .consume, .xpending true,
        .xclaim true, .next true, .next true] = .ok s ∧ ¬ YieldsOnce s :=
  ⟨_, rfl, by decide +kernel⟩

end Runs

/-! ### What the page leaves out -/

/-- An acknowledgement, sent or failed. -/
theorem keeps_ack (r : ρ) (id : ℕ) (ok : Bool) :
    Keeps r (if ok then StreamOps.xack r id else r) := by
  cases ok with
  | false => exact ⟨fun _ => rfl, rfl, Nat.le_refl _⟩
  | true => exact StreamService.xack_keeps r id

theorem mem_pending_of_ack {r : ρ} {id id' : ℕ} {ok : Bool}
    (h : id' ∈ pending (if ok then StreamOps.xack r id else r)) : id' ∈ pending r := by
  cases ok with
  | false => exact h
  | true => exact (StreamService.mem_pending_xack.1 h).1

/-- Where the generator has no entry of the id before it. -/
def PassedBy (id : ℕ) : Phase → Prop
  | .idle => True
  | .asking => False
  | .claiming ids => id ∉ ids
  | .draining entries => ∀ e ∈ entries, e.id ≠ id
  | .reading entries => ∀ e ∈ entries, e.id ≠ id

/-- Owed, delivered before, and not on its way. -/
structure LeftOut (c : BusConfig π) (s : BusState ρ π) (id : ℕ) : Prop where
  owed : Owed c s id
  old : id < delivered s.redis
  passedBy : PassedBy id s.process.phase

/-- Nothing was yielded but what was passed by, and nothing has come before the generator. -/
theorem LeftOut.keep (h : LeftOut c s id) (hentry : entryAt s'.redis id = entryAt s.redis id)
    (hdelivered : delivered s.redis ≤ delivered s'.redis)
    (hbacklog : s'.process.backlog = s.process.backlog)
    (hyielded : ∀ m ∈ s'.process.yielded, m ∈ s.process.yielded ∨ m.streamId ≠ id)
    (hpassed : PassedBy id s'.process.phase) : LeftOut c s' id := by
  refine ⟨⟨hbacklog ▸ h.owed.backlog, ?_, fun m hm => ?_⟩,
    Nat.lt_of_lt_of_le h.old hdelivered, hpassed⟩
  · obtain ⟨e, he, hparse⟩ := h.owed.parseable
    exact ⟨e, hentry.trans he, hparse⟩
  · rcases hyielded m hm with hm | hm
    · exact h.owed.notYielded m hm
    · exact hm

/-- The process moves on without yielding. -/
theorem LeftOut.move (h : LeftOut c s id) {phase : Phase} (hpassed : PassedBy id phase) :
    LeftOut c { s with process := { s.process with phase := phase } } id :=
  h.keep rfl (Nat.le_refl _) rfl (fun _ hm => .inl hm) hpassed

theorem LeftOut.turn (h : LeftOut c s id) (hturn : Turn c s s') : LeftOut c s' id := by
  have hpassed := h.passedBy
  have hyielded : ∀ {e : Entry} {m : BusMessage π}, e.id ≠ id →
      parseEntry c.modelValidateJson e = some m →
        ∀ m' ∈ s.process.yielded ++ [m], m' ∈ s.process.yielded ∨ m'.streamId ≠ id := by
    intro e m he hparse m' hm'
    rcases List.mem_append.1 hm' with hm' | hm'
    · exact .inl hm'
    · obtain rfl := List.mem_singleton.1 hm'
      exact .inr (by rwa [streamId_of_parseEntry hparse])
  cases hturn with
  | drainedAll hphase => exact h.move nofun
  | passed e rest hphase hparse =>
      rw [hphase] at hpassed
      exact h.move fun e' he' => hpassed e' (List.mem_cons_of_mem _ he')
  | drained e rest m hphase hparse =>
      rw [hphase] at hpassed
      exact h.keep rfl (Nat.le_refl _) rfl (hyielded (hpassed e List.mem_cons_self) hparse)
        fun e' he' => hpassed e' (List.mem_cons_of_mem _ he')
  | skipped e rest hphase hparse =>
      rw [hphase] at hpassed
      exact h.move fun e' he' => hpassed e' (List.mem_cons_of_mem _ he')
  | repeated e rest m ackOk hphase hparse hseen =>
      rw [hphase] at hpassed
      have hkeeps := keeps_ack s.redis m.streamId ackOk
      exact h.keep (hkeeps.entryAt id) hkeeps.delivered rfl (fun _ hm => .inl hm)
        fun e' he' => hpassed e' (List.mem_cons_of_mem _ he')
  | delivered e rest m hphase hparse hseen =>
      rw [hphase] at hpassed
      exact h.keep rfl (Nat.le_refl _) rfl (hyielded (hpassed e List.mem_cons_self) hparse)
        fun e' he' => hpassed e' (List.mem_cons_of_mem _ he')

/-- What is pending, and what was when the process was made, was delivered. -/
structure DeliveredInv (s : BusState ρ π) : Prop where
  pending_lt : ∀ id ∈ pending s.redis, id < delivered s.redis
  backlog_lt : ∀ id ∈ s.process.backlog, id < delivered s.redis

theorem deliveredInv_start : DeliveredInv (.start : BusState ρ π) where
  pending_lt id hid := by
    have hnone : id ∈ ([] : List ℕ) := StreamService.pending_empty (ρ := ρ) ▸ hid
    cases hnone
  backlog_lt id hid := absurd hid List.not_mem_nil

/-- Less is pending of what was delivered. -/
theorem DeliveredInv.keep (h : DeliveredInv s)
    (hpending : ∀ id ∈ pending s'.redis, id ∈ pending s.redis)
    (hdelivered : delivered s.redis ≤ delivered s'.redis)
    (hbacklog : s'.process.backlog = s.process.backlog) : DeliveredInv s' where
  pending_lt id hid := Nat.lt_of_lt_of_le (h.pending_lt id (hpending id hid)) hdelivered
  backlog_lt id hid := Nat.lt_of_lt_of_le (h.backlog_lt id (hbacklog ▸ hid)) hdelivered

theorem DeliveredInv.turn (h : DeliveredInv s) (hturn : Turn c s s') : DeliveredInv s' := by
  cases hturn with
  | repeated e rest m ackOk _ _ _ =>
      exact h.keep (fun _ hid => mem_pending_of_ack hid)
        (keeps_ack s.redis m.streamId ackOk).delivered rfl
  | _ => exact h.keep (fun _ hid => hid) (Nat.le_refl _) rfl

section Pages

variable [DecidableEq π]

/-- What was left out stays owed while the generator goes on. -/
theorem LeftOut.step (h : LeftOut c s id) {event : BusEvent π} (hrestart : event ≠ .restart)
    (hconsume : event ≠ .consume) (hstep : Ingestion.step c s event = .ok s') :
    LeftOut c s' id := by
  have hpassed := h.passedBy
  cases moves_of_step hstep with
  | restart => exact absurd rfl hrestart
  | consume _ => exact absurd rfl hconsume
  | turn ackOk hturn => exact h.turn hturn
  | xadd fields trim hadd =>
      obtain ⟨e, he, -⟩ := h.owed.parseable
      exact h.keep (StreamService.entryAt_of_xadd hadd (StreamService.lt_added he))
        (StreamService.delivered_of_xadd hadd).2.ge rfl (fun _ hm => .inl hm) hpassed
  | readByOther count =>
      have hkeeps := StreamService.readByOther_keeps s.redis count
      exact h.keep (hkeeps.entryAt id) hkeeps.delivered rfl (fun _ hm => .inl hm) hpassed
  | close => exact h.move trivial
  | page hphase _ =>
      rw [hphase] at hpassed
      exact hpassed.elim
  | noPage ok _ _ => exact h.move nofun
  | claimed ids hphase =>
      rw [hphase] at hpassed
      have hkeeps := StreamService.xclaim_keeps s.redis ids
      refine h.keep (hkeeps.entryAt id) hkeeps.delivered rfl (fun _ hm => .inl hm) ?_
      rintro e he rfl
      exact hpassed (StreamService.mem_xclaim.1 he).1
  | unclaimed ids _ => exact h.move nofun
  | read _ =>
      have hkeeps := StreamService.xreadgroup_keeps s.redis c.batchSize
      refine h.keep (hkeeps.entryAt id) hkeeps.delivered rfl (fun _ hm => .inl hm) ?_
      rintro e he rfl
      exact absurd (StreamService.id_of_xreadgroup he).1 (Nat.not_le.2 h.old)
  | unread _ => exact h.move trivial
  | ack m ok _ =>
      have hkeeps := keeps_ack s.redis m.streamId ok
      exact h.keep (hkeeps.entryAt id) hkeeps.delivered rfl (fun _ hm => .inl hm) hpassed

theorem DeliveredInv.step (h : DeliveredInv s) {event : BusEvent π}
    (hstep : Ingestion.step c s event = .ok s') : DeliveredInv s' := by
  cases moves_of_step hstep with
  | restart => exact ⟨h.pending_lt, h.pending_lt⟩
  | turn ackOk hturn => exact h.turn hturn
  | xadd fields trim hadd =>
      obtain ⟨hpending, hdelivered⟩ := StreamService.delivered_of_xadd hadd
      exact h.keep (fun _ hid => hpending ▸ hid) hdelivered.ge rfl
  | readByOther count =>
      have hpending := StreamService.pending_readByOther s.redis count
      exact h.keep (fun _ hid => hpending ▸ hid)
        (StreamService.readByOther_keeps s.redis count).delivered rfl
  | claimed ids _ =>
      exact h.keep (fun _ hid => (StreamService.mem_pending_xclaim.1 hid).1)
        (StreamService.xclaim_keeps s.redis ids).delivered rfl
  | read _ =>
      have hmore := (StreamService.xreadgroup_keeps s.redis c.batchSize).delivered
      refine ⟨fun id hid => ?_, fun id hid => Nat.lt_of_lt_of_le (h.backlog_lt id hid) hmore⟩
      rcases StreamService.mem_pending_xreadgroup.1 hid with hid | ⟨e, he, rfl⟩
      · exact Nat.lt_of_lt_of_le (h.pending_lt id hid) hmore
      · exact (StreamService.id_of_xreadgroup he).2.1
  | ack m ok _ =>
      exact h.keep (fun _ hid => mem_pending_of_ack hid)
        (keeps_ack s.redis m.streamId ok).delivered rfl
  | _ => exact h.keep (fun _ hid => hid) (Nat.le_refl _) rfl

/-- **What is not on the first page is not yielded**, however long the generator runs: the pending
entries are asked for once. -/
theorem page_leaves_out {before events : List (BusEvent π)} {s₁ : BusState ρ π}
    (hreach : runSteps (step c) .start before = .ok s) (howed : Owed c s id)
    (hpage : id ∉ (pending s.redis).take drainCount) (hasked : step c s (.xpending true) = .ok s₁)
    (hevents : ∀ event ∈ events, event ≠ .restart ∧ event ≠ .consume)
    (hrun : runSteps (step c) s₁ events = .ok s') : Owed c s' id := by
  have hdelivered : DeliveredInv s :=
    runSteps_invariant deliveredInv_start (fun _ _ _ h hstep => h.step hstep) hreach
  have hstart : LeftOut c s₁ id := by
    cases moves_of_step hasked with
    | page _ _ => exact ⟨⟨howed.backlog, howed.parseable, howed.notYielded⟩,
        hdelivered.backlog_lt id howed.backlog, hpage⟩
    | noPage _ _ _ => exact ⟨⟨howed.backlog, howed.parseable, howed.notYielded⟩,
        hdelivered.backlog_lt id howed.backlog, nofun⟩
  have hsteps : EveryStep (step c) (fun _ _ event => event ≠ .restart ∧ event ≠ .consume) s₁
      events := by
    intro front event back s₂ hsplit _
    exact hevents event (by simp [hsplit])
  exact (runSteps_history_of_everyStep (Q := fun _ s => LeftOut c s id) hstart
    (fun _ _ _ _ h hevent hstep => h.step hevent.1 hevent.2 hstep) hsteps hrun).owed

end Pages

end Ingestion
end AatsSniper

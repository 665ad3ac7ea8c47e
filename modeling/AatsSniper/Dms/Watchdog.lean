/-
# The watchdog of the dead-man's switch

`DmsWatchdog` of `aats/risk/dms_service.py`, the store it reads, and the FAST-loop
processes that beat into it (`_emit_heartbeat_safe` of
`aats/controller/enforcer_wiring.py`), each numbering its beats from 1.

Seconds are rationals; what the clocks show, and whether the store can be reached, is
given with each event.  The latch is set before the flatten is submitted, so whether
the venue raises does not matter here.

The watchdog is to fire iff no new heartbeat was read for longer than `tDms`, or the
one it reads is older than that (`Lost`).  What was read is told from the events alone
(`observe`): a write is new until it is read.  The watchdog tells it from the number
of the heartbeat, and takes one that is not above the last for a stuck one; a loop that
was started again is such a one.  `fires_iff_lost` is for the runs in which every new
heartbeat that is read has a higher number than the last (`Advances`).
-/

import AatsSniper.Lib.Run
import Mathlib.Algebra.Order.Field.Rat
import Mathlib.Logic.Function.Basic
import Mathlib.Tactic.Linarith

namespace AatsSniper
namespace Dms

/-! ### The heartbeat -/

/-- `Heartbeat`. -/
structure Heartbeat where
  epochMs : ℕ
  seq : ℕ
  deriving DecidableEq

/-- What the clocks of the watchdog show as it reads, and whether it can reach the store. -/
structure Reading where
  wallEpochMs : ℤ
  mono : ℚ
  reachable : Bool := true

/-- The cross-process wall age, in seconds. -/
def wallAge (hb : Heartbeat) (r : Reading) : ℚ := max 0 ((r.wallEpochMs - hb.epochMs : ℤ) / 1000)

/-! ### The watchdog -/

/-- `DmsWatchdog`. -/
structure DmsWatchdog where
  tDms : ℚ
  t_pos : 0 < tDms
  fired : Bool
  armed : Bool
  lastFreshMono : ℚ
  lastSeq : Option ℕ

namespace DmsWatchdog

/-- `DmsWatchdog(venue, store, t_dms_seconds)`, at a reading of the monotonic clock. -/
def new (tDms : ℚ) (t_pos : 0 < tDms) (mono : ℚ) : DmsWatchdog where
  tDms := tDms
  t_pos := t_pos
  fired := false
  armed := true
  lastFreshMono := mono
  lastSeq := none

/-- The sequence number has advanced. -/
def isFresh (w : DmsWatchdog) (hb : Heartbeat) : Bool :=
  match w.lastSeq with
  | none => true
  | some seq => decide (seq < hb.seq)

/-- `_age_locked()`, with the heartbeat that was read. -/
def ageLocked (w : DmsWatchdog) (read : Option Heartbeat) (r : Reading) : ℚ × DmsWatchdog :=
  match read with
  | none => (r.mono - w.lastFreshMono, w)
  | some hb =>
      let w' :=
        if w.isFresh hb = true then { w with lastSeq := some hb.seq, lastFreshMono := r.mono } else w
      (max (wallAge hb r) (r.mono - w'.lastFreshMono), w')

/-- `check()`: whether it fired, and the watchdog it leaves. -/
def check (w : DmsWatchdog) (read : Option Heartbeat) (r : Reading) : Bool × DmsWatchdog :=
  let (age, w') := w.ageLocked read r
  if w'.armed = false ∨ w'.fired = true then (false, w')
  else if age ≤ w'.tDms then (false, w')
  else (true, { w' with fired := true })

/-- `stand_down(token)`. -/
def standDown (w : DmsWatchdog) : DmsWatchdog := { w with armed := false }

/-- `rearm(token)`. -/
def rearm (w : DmsWatchdog) (mono : ℚ) : DmsWatchdog :=
  { w with armed := true, fired := false, lastFreshMono := mono, lastSeq := none }

end DmsWatchdog

/-! ### Runs -/

/-- What happens: a process beats, the watchdog is called, or the operator takes it down and arms it
again.  A beat carries what the writer's wall clock and the watchdog's monotonic clock show, and
whether the store took it. -/
inductive DmsEvent
  | beat (process : ℕ) (epochMs : ℕ) (mono : ℚ) (stored : Bool)
  | check (r : Reading)
  | heartbeatAgeSeconds (r : Reading)
  | standDown
  | rearm (mono : ℚ)

/-- The processes by their `_seq`, the store and the watchdog. -/
structure DmsSystem where
  seqs : ℕ → ℕ
  stored : Option Heartbeat
  watchdog : DmsWatchdog

/-- `store.read()`. -/
def DmsSystem.read (s : DmsSystem) (r : Reading) : Option Heartbeat :=
  if r.reachable = true then s.stored else none

/-- `_emit_heartbeat_safe()` of a process. -/
def DmsSystem.emitHeartbeatSafe (s : DmsSystem) (process epochMs : ℕ) (stored : Bool) : DmsSystem :=
  let seq := s.seqs process + 1
  { s with
    seqs := Function.update s.seqs process seq
    stored := if stored = true then some ⟨epochMs, seq⟩ else s.stored }

/-- The system after an event. -/
def DmsSystem.next (s : DmsSystem) : DmsEvent → DmsSystem
  | .beat process epochMs _ stored => s.emitHeartbeatSafe process epochMs stored
  | .check r => { s with watchdog := (s.watchdog.check (s.read r) r).2 }
  | .heartbeatAgeSeconds r => { s with watchdog := (s.watchdog.ageLocked (s.read r) r).2 }
  | .standDown => { s with watchdog := s.watchdog.standDown }
  | .rearm mono => { s with watchdog := s.watchdog.rearm mono }

/-- The step of a run; no event raises to the run. -/
def dmsStep (s : DmsSystem) (e : DmsEvent) : Except Empty DmsSystem := .ok (s.next e)

/-- A new watchdog, beside processes that have beaten so often into the store. -/
def DmsSystem.start (tDms : ℚ) (t_pos : 0 < tDms) (mono : ℚ) (seqs : ℕ → ℕ)
    (stored : Option Heartbeat) : DmsSystem :=
  ⟨seqs, stored, .new tDms t_pos mono⟩

/-! ### What was read -/

/-- The writes so far are numbered; what was in the store at the start has the number 0. -/
structure Observed where
  /-- The number of the latest write, and the monotonic clock at it. -/
  written : ℕ
  writtenAt : ℚ
  /-- The write read last since the watchdog was armed. -/
  seen : Option ℕ
  /-- When that was read first, or when the watchdog was armed. -/
  since : ℚ
  /-- The latest reading of the monotonic clock. -/
  clock : ℚ
  /-- Something is in the store. -/
  present : Bool

namespace Observed

/-- Nothing read yet. -/
def start (mono : ℚ) (present : Bool) : Observed := ⟨0, mono, none, mono, mono, present⟩

/-- There is a write to be read that was not read before. -/
def hasNew (o : Observed) (r : Reading) : Bool :=
  r.reachable && o.present && decide (o.seen ≠ some o.written)

/-- The store is read. -/
def reads (o : Observed) (r : Reading) : Observed :=
  if o.hasNew r = true then { o with seen := some o.written, since := r.mono, clock := r.mono }
  else { o with clock := r.mono }

/-- After an event. -/
def next (o : Observed) : DmsEvent → Observed
  | .beat _ _ mono stored =>
      if stored = true then
        { o with written := o.written + 1, writtenAt := mono, clock := mono, present := true }
      else { o with clock := mono }
  | .check r => o.reads r
  | .heartbeatAgeSeconds r => o.reads r
  | .standDown => o
  | .rearm mono => { o with seen := none, since := mono, clock := mono }

end Observed

/-- What was read in a run. -/
def observe (o : Observed) (events : List DmsEvent) : Observed := events.foldl Observed.next o

theorem observe_snoc (o : Observed) (events : List DmsEvent) (e : DmsEvent) :
    observe o (events ++ [e]) = (observe o events).next e := by
  simp [observe]

/-! ### The condition and the property -/

/-- The reading an event takes. -/
def DmsEvent.reading : DmsEvent → Option Reading
  | .check r => some r
  | .heartbeatAgeSeconds r => some r
  | _ => none

/-- No new heartbeat was read for longer than `tDms`, or the one that is read is older. -/
def Lost (s : DmsSystem) (o : Observed) (r : Reading) : Prop :=
  s.watchdog.tDms < r.mono - (o.reads r).since ∨
    ∃ hb, s.read r = some hb ∧ s.watchdog.tDms < wallAge hb r

/-- An armed watchdog that has not fired fires in a check iff the heartbeat is lost. -/
def FiresRightly (o : Observed) (before : List DmsEvent) (s : DmsSystem) (e : DmsEvent) : Prop :=
  ∀ r, e = .check r → s.watchdog.armed = true → s.watchdog.fired = false →
    ((s.watchdog.check (s.read r) r).1 = true ↔ Lost s (observe o before) r)

/-- A new heartbeat that is read has a higher number than the last. -/
def Advances (o : Observed) (before : List DmsEvent) (s : DmsSystem) (e : DmsEvent) : Prop :=
  ∀ r, e.reading = some r → (observe o before).hasNew r = true →
    ∀ hb, s.read r = some hb → ∀ seq, s.watchdog.lastSeq = some seq → seq < hb.seq

/-- What the watchdog holds is what was read. -/
structure Tracks (o : Observed) (s : DmsSystem) : Prop where
  present : o.present = s.stored.isSome
  since : s.watchdog.lastFreshMono = o.since
  unseen : o.seen = none → s.watchdog.lastSeq = none
  seen_le : ∀ n, o.seen = some n → n ≤ o.written
  current : o.seen = some o.written → ∀ hb, s.stored = some hb → s.watchdog.lastSeq = some hb.seq

section Steps

variable {o : Observed} {s : DmsSystem} {r : Reading} {hb : Heartbeat}

theorem read_eq_some : s.read r = some hb ↔ r.reachable = true ∧ s.stored = some hb := by
  unfold DmsSystem.read
  split_ifs with h
  · simp [h]
  · simp [h]

theorem Tracks.hasNew_of_none (h : Tracks o s) (hread : s.read r = none) : o.hasNew r = false := by
  unfold Observed.hasNew
  rw [h.present]
  cases hreach : r.reachable with
  | false => rfl
  | true =>
      have hstored : s.stored = none := by
        unfold DmsSystem.read at hread
        rw [if_pos hreach] at hread
        exact hread
      rw [hstored]
      rfl

/-- The number has advanced iff the write is new. -/
theorem Tracks.isFresh_eq (h : Tracks o s) (hread : s.read r = some hb)
    (hadvances : o.hasNew r = true → ∀ seq, s.watchdog.lastSeq = some seq → seq < hb.seq) :
    s.watchdog.isFresh hb = o.hasNew r := by
  obtain ⟨hreach, hstored⟩ := read_eq_some.1 hread
  have hnew : o.hasNew r = decide (o.seen ≠ some o.written) := by
    unfold Observed.hasNew
    rw [hreach, h.present, hstored]
    rfl
  unfold DmsWatchdog.isFresh
  by_cases hseen : o.seen = some o.written
  · rw [h.current hseen hb hstored, hnew, hseen]
    simp
  · have htrue : o.hasNew r = true := by
      rw [hnew]
      exact decide_eq_true hseen
    rw [htrue]
    cases hlast : s.watchdog.lastSeq with
    | none => rfl
    | some seq => exact decide_eq_true (hadvances htrue seq hlast)

/-- What reading the store leaves in the watchdog. -/
theorem Tracks.ageLocked_snd (h : Tracks o s)
    (hadvances : o.hasNew r = true → ∀ hb, s.read r = some hb →
      ∀ seq, s.watchdog.lastSeq = some seq → seq < hb.seq) :
    (s.watchdog.ageLocked (s.read r) r).2 =
      if o.hasNew r = true then
        { s.watchdog with lastSeq := s.stored.map Heartbeat.seq, lastFreshMono := r.mono }
      else s.watchdog := by
  unfold DmsWatchdog.ageLocked
  cases hread : s.read r with
  | none => rw [h.hasNew_of_none hread, if_neg Bool.false_ne_true]
  | some hb =>
      obtain ⟨-, hstored⟩ := read_eq_some.1 hread
      dsimp only
      rw [h.isFresh_eq hread fun hnew => hadvances hnew hb hread, hstored]
      rfl

theorem Tracks.reads (h : Tracks o s) {w : DmsWatchdog}
    (hw : (w.lastSeq, w.lastFreshMono) =
      if o.hasNew r = true then (s.stored.map Heartbeat.seq, r.mono)
      else (s.watchdog.lastSeq, s.watchdog.lastFreshMono)) :
    Tracks (o.reads r) { s with watchdog := w } := by
  unfold Observed.reads
  split_ifs at hw ⊢ with hnew
  · obtain ⟨hseq, hmono⟩ := Prod.mk.inj hw
    refine ⟨h.present, hmono, fun hnone => ?_, fun n hn => ?_, fun _ hb hstored => ?_⟩
    · cases hnone
    · exact (Option.some.inj hn).ge
    · rw [show s.stored = some hb from hstored] at hseq
      exact hseq
  · obtain ⟨hseq, hmono⟩ := Prod.mk.inj hw
    refine ⟨h.present, hmono.trans h.since, fun hnone => hseq.trans (h.unseen hnone), h.seen_le,
      fun hseen hb hstored => hseq.trans (h.current hseen hb hstored)⟩

/-- The age is past `tDms` iff the heartbeat is lost. -/
theorem Tracks.lt_age_iff (h : Tracks o s)
    (hadvances : o.hasNew r = true → ∀ hb, s.read r = some hb →
      ∀ seq, s.watchdog.lastSeq = some seq → seq < hb.seq) :
    s.watchdog.tDms < (s.watchdog.ageLocked (s.read r) r).1 ↔ Lost s o r := by
  have hsince : (s.watchdog.ageLocked (s.read r) r).2.lastFreshMono = (o.reads r).since := by
    rw [h.ageLocked_snd hadvances]
    unfold Observed.reads
    split_ifs
    · rfl
    · exact h.since
  have hage : (s.watchdog.ageLocked (s.read r) r).1 =
      match s.read r with
      | none => r.mono - (s.watchdog.ageLocked (s.read r) r).2.lastFreshMono
      | some hb =>
          max (wallAge hb r) (r.mono - (s.watchdog.ageLocked (s.read r) r).2.lastFreshMono) := by
    unfold DmsWatchdog.ageLocked
    cases s.read r with
    | none => rfl
    | some hb => rfl
  unfold Lost
  rw [hage, hsince]
  cases hread : s.read r with
  | none => simp
  | some hb =>
      simp only [lt_max_iff, Option.some.injEq, exists_eq_left']
      exact or_comm

theorem ageLocked_keeps (w : DmsWatchdog) (read : Option Heartbeat) :
    (w.ageLocked read r).2.armed = w.armed ∧ (w.ageLocked read r).2.fired = w.fired ∧
      (w.ageLocked read r).2.tDms = w.tDms := by
  unfold DmsWatchdog.ageLocked
  cases read with
  | none => exact ⟨rfl, rfl, rfl⟩
  | some hb =>
      dsimp only
      split_ifs
      · exact ⟨rfl, rfl, rfl⟩
      · exact ⟨rfl, rfl, rfl⟩

theorem check_fst_iff (w : DmsWatchdog) (read : Option Heartbeat) :
    (w.check read r).1 = true ↔
      w.armed = true ∧ w.fired = false ∧ w.tDms < (w.ageLocked read r).1 := by
  obtain ⟨harmed, hfired, htDms⟩ := ageLocked_keeps (r := r) w read
  unfold DmsWatchdog.check
  dsimp only
  split_ifs with hlatched hle
  · rw [harmed, hfired] at hlatched
    rcases hlatched with h | h
    · simp [h]
    · simp [h]
  · rw [htDms] at hle
    simp [hle]
  · rw [harmed, hfired] at hlatched
    rw [htDms] at hle
    simpa [not_le.1 hle] using hlatched

/-- A check leaves the numbers that reading the age leaves. -/
theorem check_snd (w : DmsWatchdog) (read : Option Heartbeat) :
    (w.check read r).2.lastSeq = (w.ageLocked read r).2.lastSeq ∧
      (w.check read r).2.lastFreshMono = (w.ageLocked read r).2.lastFreshMono ∧
      (w.check read r).2.tDms = (w.ageLocked read r).2.tDms := by
  unfold DmsWatchdog.check
  dsimp only
  split_ifs
  · exact ⟨rfl, rfl, rfl⟩
  · exact ⟨rfl, rfl, rfl⟩
  · exact ⟨rfl, rfl, rfl⟩

/-- **One event.**  Where a new heartbeat has a higher number, the watchdog keeps to what was
read. -/
theorem Tracks.next {before : List DmsEvent} {o₀ : Observed} {e : DmsEvent}
    (h : Tracks (observe o₀ before) s) (hadvances : Advances o₀ before s e) :
    Tracks (observe o₀ (before ++ [e])) (s.next e) := by
  rw [observe_snoc]
  cases e with
  | beat process epochMs mono stored =>
      unfold Observed.next DmsSystem.next DmsSystem.emitHeartbeatSafe
      dsimp only
      split_ifs with hstored
      · refine ⟨rfl, h.since, h.unseen, fun n hn => (h.seen_le n hn).trans (Nat.le_succ _), ?_⟩
        intro hseen
        have := h.seen_le _ hseen
        dsimp only at this
        omega
      · exact ⟨h.present, h.since, h.unseen, h.seen_le, h.current⟩
  | check r =>
      refine h.reads ?_
      obtain ⟨hseq, hmono, -⟩ := check_snd (r := r) s.watchdog (s.read r)
      rw [hseq, hmono, h.ageLocked_snd (hadvances r rfl)]
      split_ifs <;> rfl
  | heartbeatAgeSeconds r =>
      refine h.reads ?_
      rw [h.ageLocked_snd (hadvances r rfl)]
      split_ifs <;> rfl
  | standDown => exact ⟨h.present, h.since, h.unseen, h.seen_le, h.current⟩
  | rearm mono =>
      refine ⟨h.present, rfl, fun _ => rfl, fun n hn => ?_, fun hseen => ?_⟩
      · cases hn
      · cases hseen

end Steps

/-! ### Runs that keep beating -/

/-- The monotonic clock does not run back, and every check reads a heartbeat that was written no
longer than `tDms` ago, by that clock and by the wall clocks. -/
def KeepsBeating (o : Observed) (before : List DmsEvent) (s : DmsSystem) : DmsEvent → Prop
  | .beat _ _ mono _ => (observe o before).clock ≤ mono
  | .check r =>
      (observe o before).clock ≤ r.mono ∧ r.mono - (observe o before).writtenAt ≤ s.watchdog.tDms ∧
        ∃ hb, s.read r = some hb ∧ wallAge hb r ≤ s.watchdog.tDms
  | .heartbeatAgeSeconds r => (observe o before).clock ≤ r.mono
  | .standDown => True
  | .rearm mono => (observe o before).clock ≤ mono

/-- A write is read after it is made. -/
structure InTime (o : Observed) : Prop where
  writtenAt_le : o.writtenAt ≤ o.clock
  since_ge : o.seen = some o.written → o.writtenAt ≤ o.since
  seen_le : ∀ n, o.seen = some n → n ≤ o.written

theorem InTime.reads {o : Observed} (h : InTime o) {r : Reading} (hclock : o.clock ≤ r.mono) :
    InTime (o.reads r) := by
  unfold Observed.reads
  split_ifs
  · exact ⟨h.writtenAt_le.trans hclock, fun _ => h.writtenAt_le.trans hclock,
      fun n hn => (Option.some.inj hn).ge⟩
  · exact ⟨h.writtenAt_le.trans hclock, h.since_ge, h.seen_le⟩

theorem InTime.next {o₀ : Observed} {before : List DmsEvent} {s : DmsSystem} {e : DmsEvent}
    (h : InTime (observe o₀ before)) (hbeats : KeepsBeating o₀ before s e) :
    InTime (observe o₀ (before ++ [e])) := by
  rw [observe_snoc]
  cases e with
  | beat process epochMs mono stored =>
      unfold Observed.next
      dsimp only
      split_ifs
      · refine ⟨le_rfl, fun hseen => ?_, fun n hn => (h.seen_le n hn).trans (Nat.le_succ _)⟩
        have := h.seen_le _ hseen
        dsimp only at this
        omega
      · exact ⟨h.writtenAt_le.trans hbeats, h.since_ge, h.seen_le⟩
  | check r => exact h.reads hbeats.1
  | heartbeatAgeSeconds r => exact h.reads hbeats
  | standDown => exact h
  | rearm mono =>
      refine ⟨h.writtenAt_le.trans hbeats, fun hseen => ?_, fun n hn => ?_⟩
      · cases hseen
      · cases hn

/-- A loop that keeps beating is not lost. -/
theorem not_lost_of_keepsBeating {o₀ : Observed} {before : List DmsEvent} {s : DmsSystem}
    {r : Reading} (h : InTime (observe o₀ before)) (htracks : Tracks (observe o₀ before) s)
    (hbeats : KeepsBeating o₀ before s (.check r)) : ¬ Lost s (observe o₀ before) r := by
  obtain ⟨-, hwritten, hb, hread, hwall⟩ := hbeats
  rintro (hmono | ⟨hb', hread', hwall'⟩)
  · unfold Observed.reads at hmono
    split_ifs at hmono with hnew
    · rw [sub_self] at hmono
      exact lt_asymm hmono s.watchdog.t_pos
    · -- the latest write has been read, after it was made
      obtain ⟨hreach, hstored⟩ := read_eq_some.1 hread
      have hseen : (observe o₀ before).seen = some (observe o₀ before).written := by
        by_contra hne
        refine hnew ?_
        unfold Observed.hasNew
        rw [hreach, htracks.present, hstored]
        exact decide_eq_true hne
      have hsince := h.since_ge hseen
      dsimp only at hmono
      linarith
  · rw [hread] at hread'
    obtain rfl := Option.some.inj hread'
    exact not_lt.2 hwall hwall'

/-! ### One process -/

/-- Only one process writes. -/
def WritesAlone (process : ℕ) : DmsEvent → Prop
  | .beat p _ _ _ => p = process
  | _ => True

/-- The numbers rise from the last one read to the one in the store and on to the process. -/
structure Numbered (process : ℕ) (o : Observed) (s : DmsSystem) : Prop where
  tracks : Tracks o s
  stored_le : ∀ hb, s.stored = some hb → hb.seq ≤ s.seqs process
  last_lt : o.seen ≠ some o.written → ∀ hb, s.stored = some hb →
    ∀ seq, s.watchdog.lastSeq = some seq → seq < hb.seq
  last_le : ∀ seq, s.watchdog.lastSeq = some seq → seq ≤ s.seqs process

section OneProcess

variable {process : ℕ} {o o₀ : Observed} {s : DmsSystem} {before : List DmsEvent} {e : DmsEvent}

theorem Numbered.advances (h : Numbered process (observe o₀ before) s) :
    Advances o₀ before s e := by
  intro r _ hnew hb hread seq hseq
  have hseen : (observe o₀ before).seen ≠ some (observe o₀ before).written := by
    unfold Observed.hasNew at hnew
    simp only [Bool.and_eq_true, decide_eq_true_eq] at hnew
    exact hnew.2
  exact h.last_lt hseen hb (read_eq_some.1 hread).2 seq hseq

theorem Numbered.reads {r : Reading} {w : DmsWatchdog} (h : Numbered process o s)
    (htracks : Tracks (o.reads r) { s with watchdog := w })
    (hw : w.lastSeq = if o.hasNew r = true then s.stored.map Heartbeat.seq else s.watchdog.lastSeq) :
    Numbered process (o.reads r) { s with watchdog := w } := by
  refine ⟨htracks, h.stored_le, ?_, ?_⟩
  · intro hseen hb hstored seq hseq
    unfold Observed.reads at hseen
    dsimp only at hseq hstored
    split_ifs at hw hseen with hnew
    · exact absurd rfl hseen
    · rw [hw] at hseq
      exact h.last_lt hseen hb hstored seq hseq
  · intro seq hseq
    dsimp only at hseq
    split_ifs at hw with hnew
    · rw [hw] at hseq
      obtain ⟨hb, hstored, rfl⟩ := Option.map_eq_some_iff.1 hseq
      exact h.stored_le hb hstored
    · rw [hw] at hseq
      exact h.last_le seq hseq

theorem Numbered.next (h : Numbered process (observe o₀ before) s) (halone : WritesAlone process e) :
    Numbered process (observe o₀ (before ++ [e])) (s.next e) := by
  have htracks := h.tracks.next (e := e) h.advances
  cases e with
  | beat p epochMs mono stored =>
      obtain rfl : p = process := halone
      have hcount : (s.next (.beat p epochMs mono stored)).seqs p = s.seqs p + 1 :=
        Function.update_self _ _ _
      have hlast : ∀ seq, s.watchdog.lastSeq = some seq → seq < s.seqs p + 1 :=
        fun seq hseq => Nat.lt_succ_of_le (h.last_le seq hseq)
      refine ⟨htracks, fun hb hstored => ?_, fun hseen hb hstored seq hseq => ?_,
        fun seq hseq => hcount ▸ (hlast seq hseq).le⟩
      · rw [hcount]
        cases stored with
        | true =>
            obtain rfl := Option.some.inj hstored
            exact le_rfl
        | false => exact (h.stored_le hb hstored).trans (Nat.le_succ _)
      · rw [observe_snoc] at hseen
        cases stored with
        | true =>
            obtain rfl := Option.some.inj hstored
            exact hlast seq hseq
        | false => exact h.last_lt hseen hb hstored seq hseq
  | check r =>
      rw [observe_snoc] at htracks ⊢
      refine h.reads htracks ?_
      rw [(check_snd (r := r) s.watchdog (s.read r)).1,
        h.tracks.ageLocked_snd (h.advances (e := .check r) r rfl)]
      split_ifs <;> rfl
  | heartbeatAgeSeconds r =>
      rw [observe_snoc] at htracks ⊢
      refine h.reads htracks ?_
      rw [h.tracks.ageLocked_snd (h.advances (e := .heartbeatAgeSeconds r) r rfl)]
      split_ifs <;> rfl
  | standDown =>
      rw [observe_snoc] at htracks ⊢
      exact ⟨htracks, h.stored_le, h.last_lt, h.last_le⟩
  | rearm mono =>
      refine ⟨htracks, h.stored_le, fun _ _ _ seq hseq => ?_, fun seq hseq => ?_⟩
      · cases hseq
      · cases hseq

end OneProcess

/-- **One process numbers its beats upwards**, so while no other one writes, every new heartbeat that
is read has a higher number. -/
theorem advances_of_writesAlone {tDms : ℚ} {t_pos : 0 < tDms} {mono : ℚ} {seqs : ℕ → ℕ}
    {stored : Option Heartbeat} {events : List DmsEvent} (process : ℕ)
    (hstored : ∀ hb, stored = some hb → hb.seq ≤ seqs process)
    (halone : ∀ e ∈ events, WritesAlone process e) :
    EveryStep dmsStep (Advances (.start mono stored.isSome))
      (.start tDms t_pos mono seqs stored) events := by
  have hnumbered : EveryState dmsStep
      (fun before s => Numbered process (observe (.start mono stored.isSome) before) s)
      (.start tDms t_pos mono seqs stored) events := by
    have hsteps : EveryStep dmsStep (fun _ _ e => WritesAlone process e)
        (.start tDms t_pos mono seqs stored) events := by
      intro before e after s hsplit _
      refine halone e ?_
      rw [hsplit]
      exact List.mem_append_right _ List.mem_cons_self
    refine hsteps.everyState ?_ ?_
    · refine ⟨⟨rfl, rfl, fun _ => rfl, fun n hn => ?_, fun hseen => ?_⟩, hstored,
        fun _ _ _ seq hseq => ?_, fun seq hseq => ?_⟩
      · cases hn
      · cases hseen
      · cases hseq
      · cases hseq
    · intro before s e s' h hstep hnext
      obtain rfl := Except.ok.inj hnext
      exact h.next hstep
  intro before e after s hsplit hrun
  exact (hnumbered before _ s hsplit hrun).advances

/-! ### The theorem -/

/-- **When the watchdog fires exactly on lost liveness.**  In a run in which every new heartbeat that
is read has a higher number than the last one read, an armed watchdog that has not fired fires in a
check iff the heartbeat is lost; and if the loop keeps beating, no check fires. -/
theorem fires_iff_lost (tDms : ℚ) (t_pos : 0 < tDms) (mono : ℚ) (seqs : ℕ → ℕ)
    (stored : Option Heartbeat) (events : List DmsEvent)
    (hadvances : EveryStep dmsStep (Advances (.start mono stored.isSome))
      (.start tDms t_pos mono seqs stored) events) :
    EveryStep dmsStep (FiresRightly (.start mono stored.isSome))
        (.start tDms t_pos mono seqs stored) events ∧
      (EveryStep dmsStep (KeepsBeating (.start mono stored.isSome))
          (.start tDms t_pos mono seqs stored) events →
        EveryStep dmsStep (fun _ s e => ∀ r, e = .check r → (s.watchdog.check (s.read r) r).1 = false)
          (.start tDms t_pos mono seqs stored) events) := by
  have htracks : EveryState dmsStep
      (fun before s => Tracks (observe (.start mono stored.isSome) before) s)
      (.start tDms t_pos mono seqs stored) events := by
    refine hadvances.everyState ?_ ?_
    · refine ⟨rfl, rfl, fun _ => rfl, fun n hn => ?_, fun hseen => ?_⟩
      · cases hn
      · cases hseen
    · intro before s e s' h hstep hnext
      obtain rfl := Except.ok.inj hnext
      exact h.next hstep
  have hfires : EveryStep dmsStep (FiresRightly (.start mono stored.isSome))
      (.start tDms t_pos mono seqs stored) events := by
    intro before e after s hsplit hrun r he harmed hfired
    subst he
    rw [check_fst_iff,
      (htracks before _ s hsplit hrun).lt_age_iff (hadvances before _ after s hsplit hrun r rfl)]
    exact ⟨fun h => h.2.2, fun h => ⟨harmed, hfired, h⟩⟩
  refine ⟨hfires, fun hbeats => ?_⟩
  have hintime : EveryState dmsStep
      (fun before _ => InTime (observe (.start mono stored.isSome) before))
      (.start tDms t_pos mono seqs stored) events := by
    refine hbeats.everyState ?_ ?_
    · refine ⟨le_rfl, fun hseen => ?_, fun n hn => ?_⟩
      · cases hseen
      · cases hn
    · intro before s e s' h hstep _
      exact h.next hstep
  rintro before e after s hsplit hrun r rfl
  have hlost := not_lost_of_keepsBeating (hintime before _ s hsplit hrun)
    (htracks before _ s hsplit hrun) (hbeats before _ after s hsplit hrun)
  rw [← Bool.not_eq_true, check_fst_iff,
    (htracks before _ s hsplit hrun).lt_age_iff (hadvances before _ after s hsplit hrun r rfl)]
  exact fun h => hlost h.2.2

/-- A process that beats, is checked, and beats no more. -/
def silencedRun : List DmsEvent :=
  [.beat 0 1000 1 true, .check ⟨2000, 2, true⟩, .check ⟨64000, 64, true⟩]

/-- A process beats twice and is checked, and the one started after it beats. -/
def restartedRun : List DmsEvent :=
  [.beat 0 1000 1 true, .beat 0 2000 2 true, .check ⟨3000, 3, true⟩, .beat 1 40000 40 true,
    .check ⟨64000, 64, true⟩]

theorem sixty_pos : (0 : ℚ) < 60 := by norm_num

/-- A new watchdog at an empty store. -/
def sampleSystem : DmsSystem := .start 60 sixty_pos 0 (fun _ => 0) none

theorem fires_iff_lost_silenced :
    (∀ e ∈ silencedRun, WritesAlone 0 e) ∧
      EveryStep dmsStep (FiresRightly (.start 0 false)) sampleSystem silencedRun := by
  have halone : ∀ e ∈ silencedRun, WritesAlone 0 e := by
    simp [silencedRun, WritesAlone]
  refine ⟨halone, (fires_iff_lost 60 sixty_pos 0 (fun _ => 0) none silencedRun ?_).1⟩
  refine advances_of_writesAlone 0 (fun hb h => ?_) halone
  cases h

/-- The loop that was started again keeps beating, and is flattened. -/
theorem restarted_loop_flattened :
    EveryStep dmsStep (KeepsBeating (.start 0 false)) sampleSystem restartedRun ∧
      ¬ EveryStep dmsStep (FiresRightly (.start 0 false)) sampleSystem restartedRun ∧
      ¬ EveryStep dmsStep
        (fun _ s e => ∀ r, e = .check r → (s.watchdog.check (s.read r) r).1 = false)
        sampleSystem restartedRun := by
  refine ⟨?_, fun h => ?_, fun h => ?_⟩
  · have hrun : restartedRun = [] ++ [.beat 0 1000 1 true] ++ [.beat 0 2000 2 true] ++
        [.check ⟨3000, 3, true⟩] ++ [.beat 1 40000 40 true] ++ [.check ⟨64000, 64, true⟩] := rfl
    rw [hrun, everyStep_snoc, everyStep_snoc, everyStep_snoc, everyStep_snoc, everyStep_snoc]
    refine ⟨⟨⟨⟨⟨everyStep_nil, fun s hs => ?_⟩, fun s hs => ?_⟩, fun s hs => ?_⟩, fun s hs => ?_⟩,
      fun s hs => ?_⟩
    · exact show (0 : ℚ) ≤ 1 by norm_num
    · exact show (1 : ℚ) ≤ 2 by norm_num
    · obtain rfl := Except.ok.inj hs
      refine ⟨by decide +kernel, by decide +kernel, ⟨2000, 2⟩, rfl, by decide +kernel⟩
    · exact show (3 : ℚ) ≤ 40 by norm_num
    · obtain rfl := Except.ok.inj hs
      refine ⟨by decide +kernel, by decide +kernel, ⟨40000, 1⟩, rfl, by decide +kernel⟩
  · have hlast := h (restartedRun.take 4) (.check ⟨64000, 64, true⟩) [] _ rfl rfl
    have hlost := (hlast _ rfl (by decide +kernel) (by decide +kernel)).1 (by decide +kernel)
    rcases hlost with hmono | ⟨hb, hread, hwall⟩
    · revert hmono
      decide +kernel
    · obtain rfl := Option.some.inj hread
      revert hwall
      decide +kernel
  · have hlast := h (restartedRun.take 4) (.check ⟨64000, 64, true⟩) [] _ rfl rfl _ rfl
    revert hlast
    decide +kernel

end Dms
end AatsSniper

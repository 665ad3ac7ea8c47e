/-
# The shadow recorder

`ShadowRecorder` of `aats/ingestion/store.py`: the first slots of every launch, collected in one
window a mint and flushed as a snapshot.

What is read of an event is its mint, its slot and its block time; the rest of its row is
carried along.  The log lines and the wall clock of a snapshot are left out, and the
storage backend is the in-memory one.

`collect` reads something off all snapshots, flushed or open: each operation on the
recorder is stated by what it does to that.
-/

import AatsSniper.Lib.Run
import AatsSniper.Lib.Table

namespace AatsSniper
namespace Ingestion

/-- `EventKind`. -/
inductive EventKind
  | create
  | buy
  | sell
  | swap
  | withdraw
  | init
  | unknown
  deriving DecidableEq

/-- `kind in WINDOW_OPENING_KINDS`. -/
def EventKind.opensWindow : EventKind → Bool
  | .create | .withdraw | .init => true
  | _ => false

/-- `QUOTE_MINTS`. -/
def quoteMints : List String :=
  ["EPjFWdd5AufqSSqeM2qN1xzybapC8G4wEGGkZwyTDt1v",
    "Es9vMFrzaCERmJfrF4H2FYD4KCoNkY11McCe8BenwNYB",
    "So11111111111111111111111111111111111111112"]

/-- `LaunchEvent`, with its `EventTime`: `row` is the rest of what is recorded. -/
structure LaunchEvent (ρ : Type) where
  mint : String
  slot : ℕ
  blockTimeMs : ℕ
  row : ρ
  deriving DecidableEq

/-- `ShadowSnapshot`. -/
structure ShadowSnapshot (ρ : Type) where
  mint : String
  eventTimeSlot : ℕ
  eventTimeBlockTimeMs : ℕ
  firstKSlots : ℕ
  events : List (LaunchEvent ρ)

/-- A row of the `shadow_snapshots` dataset. -/
structure SnapshotRow (ρ : Type) extends ShadowSnapshot ρ where
  completenessStatus : String

/-- What a call raises: a date past the year 9999, and `next` of an empty iterator. -/
inductive ShadowError
  | eventDate
  | stopIteration
  deriving DecidableEq

/-- `first_k_slots` and `max_open_windows`. -/
structure RecorderConfig where
  firstKSlots : ℕ := 10
  maxOpenWindows : ℕ := 1000

/-- `ShadowRecorder`: the open windows in the order they were opened, and the rows flushed. -/
structure ShadowRecorder (ρ : Type) where
  openWindows : Table (@ShadowSnapshot.mint ρ) := Table.empty
  rows : List (SnapshotRow ρ) := []
  orphanEventsTotal : ℕ := 0

variable {ρ : Type}

/-- `_event_date` returns: `utcfromtimestamp` raises from the year 10000 on. -/
def ShadowSnapshot.hasEventDate (w : ShadowSnapshot ρ) : Prop :=
  w.eventTimeBlockTimeMs < 253402300800000

instance (w : ShadowSnapshot ρ) : Decidable w.hasEventDate := Nat.decLt _ _

/-- The slot is past the window. -/
def ShadowSnapshot.isPast (w : ShadowSnapshot ρ) (slot : ℕ) : Prop :=
  w.eventTimeSlot + w.firstKSlots < slot

instance (w : ShadowSnapshot ρ) (slot : ℕ) : Decidable (w.isPast slot) := Nat.decLt _ _

/-- `self._open.pop(mint)`. -/
def ShadowRecorder.drop (r : ShadowRecorder ρ) (mint : String) : ShadowRecorder ρ :=
  { r with openWindows := r.openWindows.remove mint }

/-- `append_row(...)` of a snapshot. -/
def ShadowRecorder.appendRow (r : ShadowRecorder ρ) (w : ShadowSnapshot ρ) (status : String) :
    ShadowRecorder ρ :=
  { r with rows := r.rows ++ [{ w with completenessStatus := status }] }

/-- `self._open[mint] = window`. -/
def ShadowRecorder.put (r : ShadowRecorder ρ) (w : ShadowSnapshot ρ) : ShadowRecorder ρ :=
  { r with openWindows := r.openWindows.upsert w }

/-- `_flush(mint, status)`. -/
def ShadowRecorder.flush (status : String) (r : ShadowRecorder ρ) (mint : String) :
    Except ShadowError Unit × ShadowRecorder ρ :=
  match r.openWindows.get? mint with
  | none => (.ok (), r)
  | some w =>
      if w.hasEventDate then (.ok (), (r.drop mint).appendRow w status)
      else (.error .eventDate, r.drop mint)

/-- `flush_all(status)`. -/
def ShadowRecorder.flushAll (r : ShadowRecorder ρ) (status : String) :
    Except ShadowError Unit × ShadowRecorder ρ :=
  runLeaving (ShadowRecorder.flush status) r (r.openWindows.rows.map (·.mint))

/-- An event that is no launch and has no window. -/
def ShadowRecorder.orphan (r : ShadowRecorder ρ) : ShadowRecorder ρ :=
  { r with orphanEventsTotal := r.orphanEventsTotal + 1 }

/-- The window an event opens. -/
def LaunchEvent.window (config : RecorderConfig) (event : LaunchEvent ρ) : ShadowSnapshot ρ where
  mint := event.mint
  eventTimeSlot := event.slot
  eventTimeBlockTimeMs := event.blockTimeMs
  firstKSlots := config.firstKSlots
  events := []

/-- A window is opened; where there are too many, the oldest one is flushed first. -/
def ShadowRecorder.openWindow (config : RecorderConfig) (r : ShadowRecorder ρ)
    (event : LaunchEvent ρ) : Except ShadowError Unit × ShadowRecorder ρ :=
  if r.openWindows.rows.length ≥ config.maxOpenWindows then
    match r.openWindows.rows.head? with
    | none => (.error .stopIteration, r)
    | some oldest =>
        match r.flush "CENSORED" oldest.mint with
        | (.error e, r) => (.error e, r)
        | (.ok _, r) => (.ok (), r.put (event.window config))
  else (.ok (), r.put (event.window config))

/-- The event is recorded in its window, or flushes it. -/
def ShadowRecorder.attribute (r : ShadowRecorder ρ) (event : LaunchEvent ρ) :
    Except ShadowError Unit × ShadowRecorder ρ :=
  match r.openWindows.get? event.mint with
  | none => (.ok (), r)
  | some w =>
      if w.isPast event.slot then r.flush "complete" event.mint
      else (.ok (), r.put { w with events := w.events ++ [event] })

/-- `may_open_window`: callers that give no kind open always. -/
def mayOpenWindow (eventKind : Option EventKind) : Bool := eventKind.all EventKind.opensWindow

/-- `observe(event, event_kind)`. -/
def ShadowRecorder.observe (config : RecorderConfig) (r : ShadowRecorder ρ)
    (event : LaunchEvent ρ) (eventKind : Option EventKind) :
    Except ShadowError Unit × ShadowRecorder ρ :=
  if event.mint ∈ quoteMints then (.ok (), r.orphan)
  else if (r.openWindows.get? event.mint).isNone then
    if mayOpenWindow eventKind then
      match r.openWindow config event with
      | (.error e, r) => (.error e, r)
      | (.ok _, r) => r.attribute event
    else (.ok (), r.orphan)
  else r.attribute event

/-- `on_reconnect()`. -/
def ShadowRecorder.onReconnect (r : ShadowRecorder ρ) :
    Except ShadowError Unit × ShadowRecorder ρ :=
  r.flushAll "CENSORED"

/-- The calls a recorder takes. -/
inductive RecorderCall (ρ : Type)
  | observe (event : LaunchEvent ρ) (eventKind : Option EventKind)
  | onReconnect
  | flushAll (status : String)
  deriving DecidableEq

/-- A call, for the recorder it leaves. -/
def ShadowRecorder.serve (config : RecorderConfig) (r : ShadowRecorder ρ) :
    RecorderCall ρ → Except ShadowError (ShadowRecorder ρ)
  | .observe event eventKind => .ok (r.observe config event eventKind).2
  | .onReconnect => .ok r.onReconnect.2
  | .flushAll status => .ok (r.flushAll status).2

/-- The snapshots, flushed or still open. -/
def ShadowRecorder.snapshots (r : ShadowRecorder ρ) : List (ShadowSnapshot ρ) :=
  r.rows.map (·.toShadowSnapshot) ++ r.openWindows.rows

/-- Something read off every snapshot. -/
def ShadowRecorder.collect {β : Type} (g : ShadowSnapshot ρ → List β) (r : ShadowRecorder ρ) :
    List β :=
  r.snapshots.flatMap g

/-- The events recorded. -/
def ShadowRecorder.recorded (r : ShadowRecorder ρ) : List (LaunchEvent ρ) :=
  r.collect (·.events)

/-- The first event of every snapshot. -/
def ShadowRecorder.openers (r : ShadowRecorder ρ) : List (LaunchEvent ρ) :=
  r.collect fun w => w.events.head?.toList

section Collect

variable {β : Type} (g : ShadowSnapshot ρ → List β) {r : ShadowRecorder ρ} {w : ShadowSnapshot ρ}
  {mint : String}

theorem collect_appendRow (status : String) :
    ((r.appendRow w status).collect g).Perm (g w ++ r.collect g) := by
  simp only [ShadowRecorder.collect, ShadowRecorder.snapshots, ShadowRecorder.appendRow,
    List.map_append, List.map_singleton, List.append_assoc, List.flatMap_append,
    List.flatMap_singleton]
  rw [← List.append_assoc, ← List.append_assoc]
  exact List.perm_append_comm.append_right _

theorem collect_drop (h : r.openWindows.get? mint = some w) :
    (r.collect g).Perm (g w ++ (r.drop mint).collect g) := by
  obtain ⟨hmem, rfl⟩ := Table.mem_of_get? h
  have hperm := (Table.perm_cons_filter r.openWindows.distinct hmem).flatMap_right g
  simp only [ShadowRecorder.collect, ShadowRecorder.snapshots, ShadowRecorder.drop,
    List.flatMap_append]
  refine (hperm.append_left _).trans ?_
  rw [List.flatMap_cons]
  exact List.perm_append_comm_assoc _ _ _

theorem collect_put : ((r.put w).collect g).Perm (g w ++ (r.drop w.mint).collect g) := by
  have hperm := (Table.upsert_perm r.openWindows w).flatMap_right g
  simp only [ShadowRecorder.collect, ShadowRecorder.snapshots, ShadowRecorder.put,
    ShadowRecorder.drop, List.flatMap_append]
  refine (hperm.append_left _).trans ?_
  rw [List.flatMap_cons]
  exact List.perm_append_comm_assoc _ _ _

/-- A flush moves the window. -/
theorem collect_flushed (h : r.openWindows.get? mint = some w) (status : String) :
    (((r.drop mint).appendRow w status).collect g).Perm (r.collect g) :=
  (collect_appendRow g status).trans (collect_drop g h).symm

end Collect

section Flush

variable {r : ShadowRecorder ρ} {w : ShadowSnapshot ρ} {mint status : String}

theorem flush_of_get? (status : String) (h : r.openWindows.get? mint = some w) :
    r.flush status mint =
      if w.hasEventDate then (.ok (), (r.drop mint).appendRow w status)
      else (.error .eventDate, r.drop mint) := by
  simp only [ShadowRecorder.flush, h]

theorem get?_head {windows : List (ShadowSnapshot ρ)} (h : r.openWindows.rows = w :: windows) :
    r.openWindows.get? w.mint = some w :=
  Table.get?_eq_some.2 ⟨h ▸ List.mem_cons_self, rfl⟩

/-- The other windows keep their order. -/
theorem drop_head {windows : List (ShadowSnapshot ρ)} (h : r.openWindows.rows = w :: windows) :
    (r.drop w.mint).openWindows.rows = windows := by
  have hdistinct := r.openWindows.distinct
  rw [h, List.map_cons, List.nodup_cons] at hdistinct
  show r.openWindows.rows.filter _ = windows
  rw [h, List.filter_cons_of_neg (by simp)]
  exact Table.filter_eq_self_of_notMem hdistinct.1

theorem flushAll_nil (h : r.openWindows.rows = []) : r.flushAll status = (.ok (), r) := by
  rw [ShadowRecorder.flushAll, h]
  rfl

theorem flushAll_cons {windows : List (ShadowSnapshot ρ)}
    (h : r.openWindows.rows = w :: windows) :
    r.flushAll status =
      if w.hasEventDate then ((r.drop w.mint).appendRow w status).flushAll status
      else (.error .eventDate, r.drop w.mint) := by
  have hflush := flush_of_get? status (get?_head h)
  rw [ShadowRecorder.flushAll, h, List.map_cons]
  split_ifs with hdate
  · rw [if_pos hdate] at hflush
    rw [runLeaving_cons_ok hflush, ShadowRecorder.flushAll]
    exact congrArg _ (congrArg _ (drop_head h).symm)
  · rw [if_neg hdate] at hflush
    exact runLeaving_cons_error hflush

/-- Every window is flushed, where all dates are in range. -/
theorem flushAll_dated (status : String) {windows : List (ShadowSnapshot ρ)}
    (hrows : r.openWindows.rows = windows)
    (hdates : ∀ w ∈ windows, w.hasEventDate) :
    (r.flushAll status).2.openWindows.rows = [] ∧
      (r.flushAll status).2.rows =
        r.rows ++ windows.map fun w => { w with completenessStatus := status } := by
  induction windows generalizing r with
  | nil =>
      rw [flushAll_nil hrows]
      simp [hrows]
  | cons w windows ih =>
      rw [flushAll_cons hrows, if_pos (hdates w List.mem_cons_self)]
      obtain ⟨hopen, hflushed⟩ := ih (r := (r.drop w.mint).appendRow w status) (drop_head hrows)
        fun w' hw' => hdates w' (List.mem_cons_of_mem _ hw')
      refine ⟨hopen, hflushed.trans ?_⟩
      simp [ShadowRecorder.appendRow, ShadowRecorder.drop]

/-- The first window whose date is out of range is lost. -/
theorem flushAll_undated (status : String) {windows : List (ShadowSnapshot ρ)}
    (hrows : r.openWindows.rows = windows) (hdates : ¬∀ w ∈ windows, w.hasEventDate) :
    ∃ w ∈ windows, ∀ {β : Type} (g : ShadowSnapshot ρ → List β),
      (r.collect g).Perm (g w ++ (r.flushAll status).2.collect g) := by
  induction windows generalizing r with
  | nil => exact absurd (fun w hw => absurd hw List.not_mem_nil) hdates
  | cons w windows ih =>
      rw [flushAll_cons hrows]
      by_cases hdate : w.hasEventDate
      · rw [if_pos hdate]
        obtain ⟨lost, hlost, hperm⟩ := ih (r := (r.drop w.mint).appendRow w status)
          (drop_head hrows) fun hall => hdates fun w' hw' =>
            (List.mem_cons.1 hw').elim (fun heq => heq ▸ hdate) (hall w')
        exact ⟨lost, List.mem_cons_of_mem _ hlost, fun g =>
          (collect_flushed g (get?_head hrows) status).symm.trans (hperm g)⟩
      · rw [if_neg hdate]
        exact ⟨w, List.mem_cons_self, fun g => collect_drop g (get?_head hrows)⟩

end Flush

end Ingestion
end AatsSniper

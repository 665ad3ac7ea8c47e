/-
# The aggregate exposure

`process_event` sizes an entry by what the positions in the store leave of the cap, so an
entry that has landed counts as long as its record is there.  The record is overwritten by
a second entry of the mint, deleted by a veto, a timeout or a flatten while the entry may
still land, and dropped by an exit that was refused.

`aggregate_exposure_contained` is what is left: where the calls of a run do none of that
to an entry that has landed, every such entry has its record, and the records stay under
the cap.  The entries are a ghost beside the controller: what was handed to the venue,
whether it has landed there and whether it was sold.
-/

import AatsSniper.Controller.Exits
import AatsSniper.Controller.InFlight
import AatsSniper.Controller.Sizes

namespace AatsSniper
namespace Controller

variable {E : Type} {c c' : FastLoop} {m mint : String}

/-! ### The entries -/

/-- An entry that was handed to the venue: what it spends, whether it has landed, and whether what it
bought has been sold. -/
structure Entry where
  solInLamports : ℤ
  landed : Bool
  exited : Bool

namespace Entry

/-- It has landed and is not yet exited. -/
def exposed (e : Entry) : Bool := e.landed && !e.exited

/-- It lands. -/
def land (e : Entry) : Entry := { e with landed := true }

/-- All that was bought is sold. -/
def sell (e : Entry) : Entry := { e with exited := e.exited || e.landed }

theorem not_exposed_sell (e : Entry) : e.sell.exposed = false := by
  obtain ⟨_, landed, exited⟩ := e
  cases landed <;> cases exited <;> rfl

theorem land_of_landed {e : Entry} (h : e.landed = true) : e.land = e := by
  unfold land
  rw [← h]

end Entry

/-- The entries of every mint, the last one first. -/
abbrev Entries := String → List Entry

namespace Entries

variable (es : Entries)

/-- An entry is submitted. -/
def submit (m : String) (e : Entry) : Entries := Function.update es m (e :: es m)

/-- The entry of the mint with `n` younger ones lands. -/
def land (m : String) (n : ℕ) : Entries := Function.update es m ((es m).modify n Entry.land)

/-- What a launch submits. -/
def launch (m : String) (size : Except SnipeSkipReason ℤ) : SnipeResult → Entries
  | .skipped _ => es
  | .filled fill =>
      match size with
      | .error _ => es
      | .ok solIn => es.submit m ⟨solIn, fill.landed, false⟩

/-- What these mints had is sold. -/
def sell (sold : String → Bool) : Entries := fun m => if sold m then (es m).map Entry.sell else es m

/-- Some entry of the mint has landed and is not yet exited. -/
def Exposed (m : String) : Prop := ∃ e ∈ es m, e.exposed = true

end Entries

/-- A full exit of the mint landed in the call. -/
def FastLoop.sells (c : FastLoop) (m : String) : Bool :=
  c.exits.any fun call => call.mint = m && call.fractionBps = 10000 && call.landed

theorem sells_iff : c.sells m = true ↔ LandedExit c.ledger m := by
  unfold FastLoop.sells LandedExit
  simp only [List.any_eq_true, Bool.and_eq_true, decide_eq_true_eq, and_assoc]
  rfl

/-! ### Runs -/

variable (E) in
/-- What can happen to the exposure: the calls on a controller, and an entry that lands at the venue,
known to the controller or not. -/
inductive ExposureEvent
  | processEvent (call : SnipeCall E)
  | reconcileFill (now : ℤ) (mint : String) (fill : FillResult)
  | tick (input : TickInput)
  | continuousReconcileTick (now currentSlot : ℤ)
  | flattenOne (lands : Answers) (mint : String)
  | emergencyFlattenAll (lands : Answers)
  | lands (mint : String) (n : ℕ)

section Runs

variable (cfg : ControllerConfig E)

/-- The controller after the event; the calls of the venue are recorded event by event. -/
def FastLoop.after (c : FastLoop) : ExposureEvent E → FastLoop
  | .processEvent call => next cfg c.unlogged (.processEvent call)
  | .reconcileFill now mint fill => next cfg c.unlogged (.reconcileFill now mint fill)
  | .tick input => next cfg c.unlogged (.tick input)
  | .continuousReconcileTick now currentSlot =>
      next cfg c.unlogged (.continuousReconcileTick now currentSlot)
  | .flattenOne lands mint => next cfg c.unlogged (.flattenOne lands mint)
  | .emergencyFlattenAll lands => next cfg c.unlogged (.emergencyFlattenAll lands)
  | .lands _ _ => c

/-- The entries after it: one is submitted, one lands or is reported to have, or some are sold. -/
def Entries.after (es : Entries) (c c' : FastLoop) : ExposureEvent E → Entries
  | .processEvent call =>
      es.launch call.event.mint (cfg.snipe.screen c.store call) (cfg.snipe.processEvent c.store call).1
  | .reconcileFill _ mint fill => if fill.landed then es.land mint 0 else es
  | .lands mint n => es.land mint n
  | _ => es.sell c'.sells

/-- The step of a run. -/
def exposureStep (x : FastLoop × Entries) (event : ExposureEvent E) :
    Except FastError (FastLoop × Entries) :=
  let c' := x.1.after cfg event
  .ok (c', x.2.after cfg x.1 c' event)

/-- The aggregate is under the cap, and what is exposed of a mint is one entry at most, which the
aggregate counts. -/
structure Contained (x : FastLoop × Entries) : Prop where
  capped : x.1.store.getAggregateOpenLamports ≤ cfg.snipe.config.maxAggregateLamports
  counted : ∀ m, (x.2 m).filter Entry.exposed = [] ∨ ∃ e pos, (x.2 m).filter Entry.exposed = [e] ∧
    x.1.store.loadPosition m = some pos ∧ pos.solInLamports = e.solInLamports

/-- An entry that has landed, and that the store still has `ENTERING`. -/
def Unconfirmed (c : FastLoop) (es : Entries) (m : String) (pos : Position) : Prop :=
  es.Exposed m ∧ c.store.loadPosition m = some pos ∧ pos.fsmState = .entering

/-- The entry that lands now is the last one of its mint, and its record is in the store. -/
def LandsRecorded (c : FastLoop) (es : Entries) (m : String) (n : ℕ) : Prop :=
  ∀ e, (es m)[n]? = some e → e.landed = false → n = 0 ∧ (c.store.loadPosition m).isSome

/-- The event leaves every entry that has landed its record: no entry of its mint is submitted over it,
no exit of it is dropped, nothing gives it up while it is unconfirmed, and one whose record is gone
does not land. -/
def KeepsExposure (x : FastLoop × Entries) : ExposureEvent E → Prop
  | .processEvent call =>
      cfg.snipe.PassesChecks x.1.store call →
        x.1.store.lockHeld call.now call.event.mint = false →
        ¬ x.2.Exposed call.event.mint ∧
          ∀ pos, x.1.store.loadPosition call.event.mint = some pos → pos.fsmState.live = false
  | .reconcileFill _ m fill =>
      if fill.landed then LandsRecorded x.1 x.2 m 0 else ∀ pos, ¬ Unconfirmed x.1 x.2 m pos
  | .tick input =>
      LandsAsked cfg.fast x.1.unlogged (.tick input) ∧
        (TickTrips cfg.fast input x.1.unlogged → ∀ m pos, ¬ Unconfirmed x.1 x.2 m pos)
  | .continuousReconcileTick _ currentSlot =>
      ∀ m pos, Unconfirmed x.1 x.2 m pos → ¬ timedOut cfg currentSlot pos
  | .flattenOne _ m => ∀ pos, ¬ Unconfirmed x.1 x.2 m pos
  | .emergencyFlattenAll _ => ∀ m pos, ¬ Unconfirmed x.1 x.2 m pos
  | .lands m n => LandsRecorded x.1 x.2 m n

end Runs

/-! ### One mint -/

/-- What a loop holds of a mint, and its entries: a record is one of the last entry, and no other entry
is exposed, nor is the last one without a record. -/
structure Accounted (v : Holding) (entries : List Entry) : Prop where
  agrees : ∀ q, v.registered = some q → q.fsmState.live = true → v.position = some q
  recorded : ∀ p, v.position = some p → 0 ≤ p.solInLamports ∧
    ∃ e older, entries = e :: older ∧ e.solInLamports = p.solInLamports
  older : ∀ e ∈ entries.tail, e.exposed = false
  newest : ∀ e older, entries = e :: older → e.exposed = true → v.position.isSome

variable {v v' : Holding} {entries entries' : List Entry}

theorem Accounted.sized (h : Accounted v entries) : v.Sized v.size := .of_agrees h.agrees

/-- An exposed entry is the last one. -/
theorem Accounted.exposed (h : Accounted v entries) {e : Entry} (he : e ∈ entries)
    (hexposed : e.exposed = true) : ∃ older, entries = e :: older := by
  cases entries with
  | nil => cases he
  | cons newest older =>
      rcases List.mem_cons.1 he with rfl | he
      · exact ⟨older, rfl⟩
      · have hnot := h.older e he
        rw [hexposed] at hnot
        cases hnot

/-- **One exposed entry at most**, with its record. -/
theorem Accounted.counted (h : Accounted v entries) :
    entries.filter Entry.exposed = [] ∨ ∃ e pos, entries.filter Entry.exposed = [e] ∧
      v.position = some pos ∧ pos.solInLamports = e.solInLamports := by
  cases entries with
  | nil => exact .inl rfl
  | cons e older =>
      have holder : older.filter Entry.exposed = [] := by
        rw [List.filter_eq_nil_iff]
        intro e' he'
        rw [h.older e' he']
        exact Bool.false_ne_true
      by_cases hexposed : e.exposed = true
      · obtain ⟨pos, hpos⟩ := Option.isSome_iff_exists.1 (h.newest e older rfl hexposed)
        obtain ⟨-, e', older', heq, hsize⟩ := h.recorded pos hpos
        obtain ⟨rfl, -⟩ := List.cons.inj heq
        refine .inr ⟨e, pos, ?_, hpos, hsize.symm⟩
        rw [List.filter_cons_of_pos hexposed, holder]
      · refine .inl ?_
        rw [List.filter_cons_of_neg hexposed, holder]

/-- **A mint whose position is not new or resized** stays accounted for, if what is exposed keeps a
record. -/
theorem Accounted.of_sized (h : Accounted v entries) (hsized : v'.Sized v.size)
    (hkept : ∀ e older, entries = e :: older → e.exposed = true → v'.position.isSome) :
    Accounted v' entries where
  agrees := hsized.agrees
  recorded p hp := by
    obtain ⟨p', hp', heq⟩ := Option.map_eq_some_iff.1 (hsized.position p hp)
    rw [← heq]
    exact h.recorded p' hp'
  older := h.older
  newest := hkept

/-- All is sold. -/
theorem Accounted.sell (h : Accounted v entries) (hsized : v'.Sized v.size) :
    Accounted v' (entries.map Entry.sell) where
  agrees := hsized.agrees
  recorded p hp := by
    obtain ⟨p', hp', heq⟩ := Option.map_eq_some_iff.1 (hsized.position p hp)
    obtain ⟨hnonneg, e, older, rfl, hsize⟩ := h.recorded p' hp'
    exact ⟨heq ▸ hnonneg, e.sell, older.map Entry.sell, rfl, hsize.trans heq⟩
  older e he := by
    rw [← List.map_tail] at he
    obtain ⟨e', -, rfl⟩ := List.mem_map.1 he
    exact e'.not_exposed_sell
  newest e older heq hexposed := by
    obtain ⟨e', -, rfl⟩ := List.mem_map.1 (heq ▸ List.mem_cons_self : e ∈ entries.map Entry.sell)
    rw [e'.not_exposed_sell] at hexposed
    cases hexposed

/-- The last entry lands, with a record. -/
theorem Accounted.land {e : Entry} {older : List Entry} (h : Accounted v (e :: older))
    (hrecord : v.position.isSome) : Accounted v (e.land :: older) where
  agrees := h.agrees
  recorded p hp := by
    obtain ⟨hnonneg, e', older', heq, hsize⟩ := h.recorded p hp
    obtain ⟨rfl, -⟩ := List.cons.inj heq
    exact ⟨hnonneg, _, older, rfl, hsize⟩
  older := h.older
  newest _ _ _ _ := hrecord

/-- Landing an entry that had landed changes nothing. -/
theorem modify_land_of_landed {n : ℕ} (h : ∀ e, entries[n]? = some e → e.landed = true) :
    entries.modify n Entry.land = entries := by
  refine List.ext_getElem? fun i => ?_
  rw [List.getElem?_modify]
  split_ifs with hi
  · subst hi
    cases hget : entries[n]? with
    | none => rfl
    | some e =>
        rw [Option.map_eq_map, Option.map_some, Entry.land_of_landed (h e hget)]
  · cases entries[i]? <;> rfl

/-- **An entry lands**, recorded. -/
theorem Accounted.lands {es : Entries} {n : ℕ} (h : Accounted (c.holding m) (es m))
    (hrecorded : LandsRecorded c es mint n) : Accounted (c.holding m) (es.land mint n m) := by
  unfold Entries.land
  by_cases hm : m = mint
  · subst hm
    rw [Function.update_self]
    by_cases hnew : ∃ e, (es m)[n]? = some e ∧ e.landed = false
    · obtain ⟨e, hget, hlanded⟩ := hnew
      obtain ⟨rfl, hrecord⟩ := hrecorded e hget hlanded
      cases hes : es m with
      | nil =>
          rw [hes] at hget
          cases hget
      | cons newest older =>
          rw [hes] at h
          exact h.land hrecord
    · rw [modify_land_of_landed fun e hget => ?_]
      · exact h
      · by_contra hlanded
        exact hnew ⟨e, hget, Bool.eq_false_iff.2 hlanded⟩
  · rw [Function.update_of_ne hm]
    exact h

/-! ### Entries -/

namespace SnipeLoop

variable {loop : SnipeLoop E} {st : StateStore} {call : SnipeCall E}

/-- **The fallback size** is what is left of the cap at most. -/
theorem screen_size (hsizing : loop.sizing = none) {solIn : ℤ}
    (h : loop.screen st call = .ok solIn) :
    0 < solIn ∧ solIn + st.getAggregateOpenLamports ≤ loop.config.maxAggregateLamports := by
  unfold screen at h
  obtain ⟨-, h⟩ := ok_of_require h
  obtain ⟨-, h⟩ := ok_of_require h
  split at h
  · cases h
  · obtain ⟨-, h⟩ := ok_of_require h
    obtain ⟨-, h⟩ := ok_of_require h
    obtain ⟨-, h⟩ := ok_of_require h
    obtain ⟨-, h⟩ := ok_of_require h
    obtain ⟨hpositive, h⟩ := ok_of_require h
    obtain rfl := Except.ok.inj h
    refine ⟨hpositive, ?_⟩
    unfold size at hpositive ⊢
    rw [hsizing] at hpositive ⊢
    dsimp only at hpositive ⊢
    omega

/-- What is handed to the venue is of the size that was computed, and so is its record. -/
theorem processEvent_size (loop : SnipeLoop E) (st : StateStore) (call : SnipeCall E)
    (fill : FillResult) (h : (loop.processEvent st call).1 = .filled fill) :
    ∃ solIn, loop.screen st call = .ok solIn ∧
      ((loop.processEvent st call).2.positions.get? call.event.mint).map Position.solInLamports =
        some solIn := by
  unfold processEvent at h ⊢
  cases hscreen : loop.screen st call with
  | error reason =>
      rw [hscreen] at h
      cases h
  | ok solIn =>
      rw [hscreen] at h
      refine ⟨solIn, rfl, ?_⟩
      dsimp only at h ⊢
      split at h
      · cases h
      · split at h
        · cases h
        · split at h
          · cases h
          · split_ifs at h with hedge hbudget
            rw [if_neg hedge, if_neg hbudget]
            dsimp only
            unfold PositionFSM.createEntering StateStore.savePosition
            dsimp only
            rw [Table.get?_upsert_self]
            rfl

end SnipeLoop

/-! ### Exits -/

/-- **What was bought keeps its record** over a call that exits, or a full exit of it landed. -/
theorem exitNext_keeps {cfg : FastConfig} {op : ExitOp} (hland : LandsAsked cfg c.unlogged op)
    {pos : Position} (hpos : c.store.positions.get? m = some pos)
    (hentered : pos.fsmState ≠ .entering) :
    (∃ q, (exitNext cfg c.unlogged op).store.positions.get? m = some q) ∨
      LandedExit (exitNext cfg c.unlogged op).ledger m := by
  obtain rfl := mint_of_get? hpos
  let opened : Position := { pos with fsmState := .opened }
  have hopened : ((Table.empty : Table Position.mint).upsert opened).get? pos.mint = some opened :=
    Table.get?_upsert_self _ _
  let l₀ : Ledger :=
    { c.unlogged.ledger with positions := Table.empty.upsert opened, armed := fun _ => false }
  have hstart : KeptFrom l₀ c.unlogged.ledger := by
    refine ⟨fun m q hq _ => .inl ⟨pos, ?_, hentered⟩, nofun⟩
    have hm : m = opened.mint := by
      by_contra hm
      rw [show l₀.positions.get? m = _ from Table.get?_upsert_of_ne hm] at hq
      cases hq
    rw [hm]
    exact hpos
  have hlanded : UncheckedLanded (exitNext cfg c.unlogged op).ledger := by
    obtain ⟨calls, hexits, hcalls⟩ := exitNext_landed cfg c.unlogged op hland
    intro call hcall
    have hcall : call ∈ (exitNext cfg c.unlogged op).exits := hcall
    rw [hexits] at hcall
    exact hcalls call hcall
  have hkept := ((exitNext_moves cfg c.unlogged op).kept hlanded hstart).held pos.mint opened
    hopened (.inl rfl)
  rcases hkept with ⟨q, hq, -⟩ | hexit
  · exact .inl ⟨q, hq⟩
  · exact .inr hexit

/-- **A call that exits** keeps a mint accounted for, where an exposed entry keeps its record or is
sold. -/
theorem Accounted.exits {es : Entries} (h : Accounted v (es m)) (hsized : v'.Sized v.size)
    (hkept : es.Exposed m → ∀ pos, v.position = some pos →
      v'.position.isSome ∨ c'.sells m = true) : Accounted v' (es.sell c'.sells m) := by
  unfold Entries.sell
  split_ifs with hsold
  · exact h.sell hsized
  · refine h.of_sized hsized fun e older heq hexposed => ?_
    obtain ⟨pos, hpos⟩ := Option.isSome_iff_exists.1 (h.newest e older heq hexposed)
    refine (hkept ⟨e, ?_, hexposed⟩ pos hpos).resolve_right hsold
    rw [heq]
    exact List.mem_cons_self

/-- **So it does**, if it leaves an entry in flight that has landed alone. -/
theorem exitNext_accounted (cfg : FastConfig) (op : ExitOp) {es : Entries}
    (h : Accounted (c.holding m) (es m))
    (hsized : ((exitNext cfg c.unlogged op).holding m).Sized (c.holding m).size)
    (hland : LandsAsked cfg c.unlogged op)
    (hentering : ∀ pos, Unconfirmed c es m pos →
      (exitNext cfg c.unlogged op).store.positions.get? m = some pos) :
    Accounted ((exitNext cfg c.unlogged op).holding m)
      (es.sell (exitNext cfg c.unlogged op).sells m) := by
  have hkept : es.Exposed m → ∀ pos, c.store.positions.get? m = some pos →
      ((exitNext cfg c.unlogged op).store.positions.get? m).isSome ∨
        (exitNext cfg c.unlogged op).sells m = true := by
    intro hexposed pos hpos
    by_cases hstate : pos.fsmState = .entering
    · rw [hentering pos ⟨hexposed, hpos, hstate⟩]
      exact .inl rfl
    · rcases exitNext_keeps hland hpos hstate with ⟨q, hq⟩ | hexit
      · rw [hq]
        exact .inl rfl
      · exact .inr (sells_iff.2 hexit)
  exact h.exits hsized hkept

/-! ### Events -/

section Events

variable {cfg : ControllerConfig E} {es : Entries}

/-- **Other events than launches** make no position new and resize none. -/
theorem after_sized {event : ExposureEvent E} (hevent : ∀ call, event ≠ .processEvent call)
    (h : Accounted (c.holding m) entries) :
    ((c.after cfg event).holding m).Sized (c.holding m).size := by
  have hc : (c.unlogged.holding m).Sized (c.holding m).size := h.sized
  cases event with
  | processEvent call => exact absurd rfl (hevent call)
  | reconcileFill now mint fill => exact reconcileFill_sized now mint fill hc
  | tick input => exact tick_sized cfg.fast input hc
  | continuousReconcileTick now currentSlot =>
      exact continuousReconcileTick_sized now currentSlot hc
  | flattenOne lands mint => exact flattenOne_sized lands mint hc
  | emergencyFlattenAll lands => exact emergencyFlattenAll_sized lands hc
  | lands mint n => exact hc

/-- A fill that landed deletes no record. -/
theorem reconcileFill_recorded {cfg : FastConfig} {now : ℤ} {fill : FillResult}
    (hlanded : fill.landed = true) {pos : Position} (hpos : c.store.positions.get? m = some pos) :
    ∃ q, (c.reconcileFill cfg now mint fill).2.store.positions.get? m = some q := by
  have hreconciled := reconciled cfg now fill c mint
  by_cases hm : m = mint
  · subst hm
    generalize (c.reconcileFill cfg now m fill).2 = left at hreconciled
    cases hreconciled with
    | ignored _ => exact ⟨pos, hpos⟩
    | @opened p q _ _ hmint _ _ _ =>
        obtain ⟨hstore, -⟩ := track_store cfg fill (c.filled q fill) (q.filled fill)
        rw [hstore]
        exact ⟨q.filled fill, (Table.get?_upsert _ _ _).trans (if_pos hmint.symm)⟩
    | abandoned _ _ _ hfailed =>
        rw [hfailed] at hlanded
        cases hlanded
  · exact ⟨pos, (hreconciled.untouched cfg now fill hm).position.trans hpos⟩

/-- **A fill report** lands the last entry of its mint, or gives an entry up that has not landed. -/
theorem reconcileFill_accounted {now : ℤ} {fill : FillResult}
    (hkeeps : KeepsExposure cfg (c, es) (.reconcileFill now mint fill))
    (h : Accounted (c.holding m) (es m)) :
    Accounted ((c.after cfg (.reconcileFill now mint fill)).holding m)
      (es.after cfg c (c.after cfg (.reconcileFill now mint fill))
        (.reconcileFill now mint fill) m) := by
  have hc : (c.unlogged.holding m).Sized (c.holding m).size := h.sized
  have hsized : ((c.unlogged.reconcileFill cfg.fast now mint fill).2.holding m).Sized
      (c.holding m).size := reconcileFill_sized now mint fill hc
  unfold KeepsExposure at hkeeps
  unfold FastLoop.after next Entries.after
  dsimp only at hkeeps ⊢
  by_cases hlanded : fill.landed = true
  · rw [if_pos hlanded] at hkeeps ⊢
    have hlands : Accounted (c.holding m) (es.land mint 0 m) := h.lands hkeeps
    refine hlands.of_sized hsized fun e older heq hexposed => ?_
    obtain ⟨pos, hpos⟩ := Option.isSome_iff_exists.1 (hlands.newest e older heq hexposed)
    exact Option.isSome_iff_exists.2 (reconcileFill_recorded (c := c.unlogged) hlanded hpos)
  · rw [if_neg hlanded] at hkeeps ⊢
    refine h.of_sized hsized fun e older heq hexposed => ?_
    obtain ⟨pos, hpos⟩ := Option.isSome_iff_exists.1 (h.newest e older heq hexposed)
    refine Option.isSome_iff_exists.2 ⟨pos, ?_⟩
    by_cases hm : m = mint
    · subst hm
      have hmem : e ∈ es m := List.mem_of_mem_head? (congrArg List.head? heq)
      have hignored : (c.unlogged.reconcileFill cfg.fast now m fill).2 = c.unlogged :=
        reconcileFill_ignored fun p hp hentering => hkeeps p ⟨⟨e, hmem, hexposed⟩, hp, hentering⟩
      rw [hignored]
      exact hpos
    · have hreconciled := reconciled cfg.fast now fill c.unlogged mint
      exact (hreconciled.untouched cfg.fast now fill hm).position.trans hpos

/-- A store with the same record of the mint. -/
theorem Accounted.store_kept {st' : StateStore} (h : Accounted (c.holding m) (es m))
    (hposition : st'.positions.get? m = c.store.positions.get? m) :
    Accounted (({ c.unlogged with store := st' } : FastLoop).holding m) (es m) := by
  refine ⟨fun q hq hlive => hposition.trans (h.agrees q hq hlive),
    fun p hp => h.recorded p (hposition.symm.trans hp), h.older, fun e older heq hexposed => ?_⟩
  unfold FastLoop.holding
  dsimp only
  rw [hposition]
  exact h.newest e older heq hexposed

/-- **A launch** submits an entry of a mint of which nothing is exposed or live. -/
theorem processEvent_accounted {call : SnipeCall E}
    (hkeeps : KeepsExposure cfg (c, es) (.processEvent call)) (hsizing : cfg.snipe.sizing = none)
    (h : Accounted (c.holding m) (es m)) :
    Accounted ((c.after cfg (.processEvent call)).holding m)
      (es.after cfg c (c.after cfg (.processEvent call)) (.processEvent call) m) := by
  have hprocessed := SnipeLoop.processed cfg.snipe c.store call
  have hsize := SnipeLoop.processEvent_size cfg.snipe c.store call
  unfold KeepsExposure at hkeeps
  unfold FastLoop.after next Entries.after
  dsimp only at hkeeps ⊢
  rw [show c.unlogged.store = c.store from rfl]
  generalize cfg.snipe.processEvent c.store call = result at hprocessed hsize
  have hkept : ∀ st' : StateStore, st'.positions.get? m = c.store.positions.get? m →
      Accounted (({ c.unlogged with store := st' } : FastLoop).holding m) (es m) :=
    fun _ => h.store_kept
  -- nothing live is registered of a mint that is entered
  have hregistered : cfg.snipe.PassesChecks c.store call →
      c.store.lockHeld call.now call.event.mint = false → m = call.event.mint →
      ∀ q, (c.holding m).registered = some q → q.fsmState.live = false := by
    rintro hpasses hlock rfl q hq
    rw [Bool.eq_false_iff]
    intro hlive
    rw [(hkeeps hpasses hlock).2 q (h.agrees q hq hlive)] at hlive
    cases hlive
  cases hprocessed with
  | dropped _ _ hpositions _ => exact hkept _ (congrArg (Table.get? · m) hpositions)
  | released _ _ hpositions _ => exact hkept _ (congrArg (Table.get? · m) hpositions)
  | @aborted st' _ hpositions hpasses hlock =>
      have hget := congrArg (Table.get? · m) hpositions
      by_cases hm : m = call.event.mint
      · have hnone : st'.positions.get? m = none :=
          hget.trans ((Table.get?_remove _ _ _).trans (if_pos hm))
        refine ⟨fun q hq hlive => ?_, fun p hp => ?_, h.older, fun e older heq hexposed => ?_⟩
        · rw [hregistered hpasses hlock hm q hq] at hlive
          cases hlive
        · have hp : st'.positions.get? m = some p := hp
          rw [hnone] at hp
          cases hp
        · refine absurd ⟨e, ?_, hexposed⟩ (hkeeps hpasses hlock).1
          rw [← hm]
          exact List.mem_of_mem_head? (congrArg List.head? heq)
      · exact hkept st' (hget.trans (Table.get?_remove_of_ne hm))
  | @entered pos lock st' hmint hstate _ hpositions hpasses hlock =>
      obtain ⟨solIn, hscreen, hrecord⟩ := hsize call.fill rfl
      have hpositive := (SnipeLoop.screen_size hsizing hscreen).1
      have hget : st'.positions.get? call.event.mint = some pos := by
        rw [hpositions, Table.get?_upsert, if_pos hmint.symm]
      have hsol : pos.solInLamports = solIn := by
        rw [hget] at hrecord
        exact Option.some.inj hrecord
      rw [hscreen]
      unfold Entries.launch Entries.submit
      dsimp only
      by_cases hm : m = call.event.mint
      · subst hm
        rw [Function.update_self]
        refine ⟨fun q hq hlive => ?_, fun p hp => ?_, fun e he => ?_, fun _ _ _ _ => ?_⟩
        · rw [hregistered hpasses hlock rfl q hq] at hlive
          cases hlive
        · obtain rfl := Option.some.inj (hget.symm.trans hp)
          exact ⟨hsol ▸ hpositive.le, _, _, rfl, hsol.symm⟩
        · rw [Bool.eq_false_iff]
          exact fun hexposed => (hkeeps hpasses hlock).1 ⟨e, he, hexposed⟩
        · exact Option.isSome_iff_exists.2 ⟨pos, hget⟩
      · rw [Function.update_of_ne hm]
        refine hkept st' ?_
        rw [hpositions]
        exact Table.get?_upsert_of_ne (hmint ▸ hm)

/-- **The reconciler** spares what is unconfirmed. -/
theorem continuousReconcileTick_accounted {now currentSlot : ℤ}
    (hkeeps : KeepsExposure cfg (c, es) (.continuousReconcileTick now currentSlot))
    (h : Accounted (c.holding m) (es m)) :
    Accounted ((c.after cfg (.continuousReconcileTick now currentSlot)).holding m)
      (es.sell (c.after cfg (.continuousReconcileTick now currentSlot)).sells m) := by
  have hc : (c.unlogged.holding m).Sized (c.holding m).size := h.sized
  have hsized : ((c.after cfg (.continuousReconcileTick now currentSlot)).holding m).Sized
      (c.holding m).size := continuousReconcileTick_sized now currentSlot hc
  refine h.exits hsized fun hexposed pos hpos => .inl ?_
  have hspares : ∀ p, c.unlogged.store.positions.get? m = some p →
      ¬ (p.fsmState = .entering ∧ timedOut cfg currentSlot p) :=
    fun p hp htimeout => hkeeps m p ⟨hexposed, hp, htimeout.1⟩ htimeout.2
  have huntouched : Untouched m c.unlogged
      (continuousReconcileTick cfg now currentSlot c.unlogged) :=
    continuousReconcileTick_untouched cfg hspares
  exact Option.isSome_iff_exists.2 ⟨pos, huntouched.position.trans hpos⟩

/-- **Every event** keeps every mint accounted for. -/
theorem after_accounted {event : ExposureEvent E} (hkeeps : KeepsExposure cfg (c, es) event)
    (hsizing : cfg.snipe.sizing = none) (h : Accounted (c.holding m) (es m)) :
    Accounted ((c.after cfg event).holding m)
      (es.after cfg c (c.after cfg event) event m) := by
  have hc : (c.unlogged.holding m).Sized (c.holding m).size := h.sized
  cases event with
  | processEvent call => exact processEvent_accounted hkeeps hsizing h
  | reconcileFill now mint fill => exact reconcileFill_accounted hkeeps h
  | tick input =>
      have hafter := exitNext_accounted cfg.fast (.tick input) h
      unfold exitNext at hafter
      unfold FastLoop.after next Entries.after
      refine hafter (tick_sized cfg.fast input hc) hkeeps.1 ?_
      rintro pos ⟨hexposed, hpos, hentering⟩
      exact tick_entering cfg.fast input
        (fun htrips => hkeeps.2 htrips m pos ⟨hexposed, hpos, hentering⟩) hc hpos hentering
  | continuousReconcileTick now currentSlot =>
      exact continuousReconcileTick_accounted hkeeps h
  | flattenOne lands mint =>
      have hafter := exitNext_accounted cfg.fast (.flattenOne lands mint) h
      unfold exitNext at hafter
      unfold FastLoop.after next Entries.after
      refine hafter (flattenOne_sized lands mint hc) trivial ?_
      rintro pos ⟨hexposed, hpos, hentering⟩
      have hne : mint ≠ m := by
        rintro rfl
        exact hkeeps pos ⟨hexposed, hpos, hentering⟩
      exact (flattenOne_untouched (c := c.unlogged) hne).position.trans hpos
  | emergencyFlattenAll lands =>
      have hafter := exitNext_accounted cfg.fast (.emergencyFlattenAll lands) h
      unfold exitNext at hafter
      unfold FastLoop.after next Entries.after
      exact hafter (emergencyFlattenAll_sized lands hc) trivial fun pos hpos =>
        absurd hpos (hkeeps m pos)
  | lands mint n => exact h.lands hkeeps

/-- **Every event** keeps the aggregate under the cap. -/
theorem after_capped {event : ExposureEvent E} (hsizing : cfg.snipe.sizing = none)
    (h : ∀ m, Accounted (c.holding m) (es m))
    (hcapped : c.store.getAggregateOpenLamports ≤ cfg.snipe.config.maxAggregateLamports) :
    (c.after cfg event).store.getAggregateOpenLamports ≤ cfg.snipe.config.maxAggregateLamports := by
  have hnonneg : ∀ p ∈ c.store.positions.rows, 0 ≤ p.solInLamports := fun p hp =>
    ((h p.mint).recorded p (get?_of_mem hp)).1
  by_cases hevent : ∃ call, event = .processEvent call
  · obtain ⟨call, rfl⟩ := hevent
    have hprocessed := SnipeLoop.processed cfg.snipe c.store call
    have hsize := SnipeLoop.processEvent_size cfg.snipe c.store call
    show (cfg.snipe.processEvent c.store call).2.getAggregateOpenLamports ≤ _
    generalize cfg.snipe.processEvent c.store call = result at hprocessed hsize
    unfold StateStore.getAggregateOpenLamports at hcapped ⊢
    cases hprocessed with
    | dropped _ _ hpositions _ =>
        dsimp only
        rw [hpositions]
        exact hcapped
    | released _ _ hpositions _ =>
        dsimp only
        rw [hpositions]
        exact hcapped
    | aborted _ hpositions _ _ =>
        refine le_trans (Table.sum_le_sum (t := c.store.positions) hnonneg fun p hp => ?_) hcapped
        dsimp only at hp
        rw [hpositions] at hp
        exact ⟨p, get?_of_mem (Table.mem_remove.1 hp).1, rfl⟩
    | @entered pos lock st' hmint _ _ hpositions _ _ =>
        obtain ⟨solIn, hscreen, hrecord⟩ := hsize call.fill rfl
        have hroom := (SnipeLoop.screen_size hsizing hscreen).2
        have hsol : pos.solInLamports = solIn := by
          rw [hpositions, Table.get?_upsert, if_pos hmint.symm] at hrecord
          exact Option.some.inj hrecord
        dsimp only
        rw [hpositions]
        refine (Table.sum_upsert_le c.store.positions hnonneg pos).trans ?_
        rw [hsol]
        exact hroom
  · refine (aggregate_le hnonneg fun m => ?_).trans hcapped
    exact after_sized (fun call heq => hevent ⟨call, heq⟩) (h m)

/-- **The exposure is contained** in every run from an empty store, where every event leaves the
entries that have landed their records. -/
theorem aggregate_exposure_contained (cfg : ControllerConfig E) (hsizing : cfg.snipe.sizing = none)
    (hcap : 0 ≤ cfg.snipe.config.maxAggregateLamports) (breaker : Breaker.CircuitBreaker)
    (stops : Option (String → Option RegisteredStop)) (events : List (ExposureEvent E))
    (hkeeps : EveryStep (exposureStep cfg) (fun _ x event => KeepsExposure cfg x event)
      (.start breaker stops, fun _ => []) events) :
    EveryState (exposureStep cfg) (fun _ x => Contained cfg x) (.start breaker stops, fun _ => [])
      events := by
  have hall : EveryState (exposureStep cfg) (fun _ x =>
      (∀ m, Accounted (x.1.holding m) (x.2 m)) ∧
        x.1.store.getAggregateOpenLamports ≤ cfg.snipe.config.maxAggregateLamports)
      (.start breaker stops, fun _ => []) events := by
    have hempty : ∀ m, Accounted ((FastLoop.start breaker stops).holding m) [] := fun m =>
      ⟨of_none_eq_some, of_none_eq_some, nofun, nofun⟩
    refine hkeeps.everyState ⟨hempty, hcap⟩ ?_
    rintro _ ⟨c, es⟩ event x ⟨haccounted, hcapped⟩ hkeeps hstep
    obtain rfl := Except.ok.inj hstep
    exact ⟨fun m => after_accounted hkeeps hsizing (haccounted m),
      after_capped hsizing haccounted hcapped⟩
  intro before after x hsplit hrun
  obtain ⟨haccounted, hcapped⟩ := hall before after x hsplit hrun
  exact ⟨hcapped, fun m => (haccounted m).counted⟩

end Events

/-! ### Uncounted, and above the cap -/

/-- A new controller, with no entries. -/
def unexposed : FastLoop × Entries := (.start (Breaker.firstBoot []) none, fun _ => [])

/-- A launch of the mint whose outcome is not known yet. -/
def launchOf (mint : String) (slot now : ℤ) : SnipeCall Unit :=
  { launch slot now with event := ⟨mint, slot, 0, ()⟩, fill := { landed := false } }

theorem aggregate_exposure_contained_reported :
    EveryState (exposureStep plainController) (fun _ x => Contained plainController x) unexposed
      [.processEvent (launchOf "m" 1 0), .lands "m" 0, .reconcileFill 100 "m" sampleFill] := by
  refine aggregate_exposure_contained plainController rfl (by decide +kernel) (Breaker.firstBoot [])
    none _ ?_
  let first : List (ExposureEvent Unit) := [.processEvent (launchOf "m" 1 0)]
  show EveryStep _ _ _ ((first ++ [.lands "m" 0]) ++ [.reconcileFill 100 "m" sampleFill])
  refine everyStep_snoc.2 ⟨everyStep_snoc.2 ⟨everyStep_singleton.2 ?_, ?_⟩, ?_⟩
  · refine fun _ _ => ⟨?_, of_none_eq_some⟩
    rintro ⟨e, he, -⟩
    cases he
  · intro x hrun
    obtain rfl := Except.ok.inj hrun
    exact fun e _ _ => ⟨rfl, by decide +kernel⟩
  · intro x hrun
    have hrecorded : LandsRecorded x.1 x.2 "m" 0 := by
      obtain rfl := Except.ok.inj hrun
      exact fun e _ _ => ⟨rfl, by decide +kernel⟩
    unfold KeepsExposure
    dsimp only
    rw [if_pos (show sampleFill.landed = true from rfl)]
    exact hrecorded

/-- What is exposed of a mint is at most one entry, and none without a record. -/
def CountsAt (x : FastLoop × Entries) (mint : String) : Prop :=
  ((x.2 mint).filter Entry.exposed).length ≤ 1 ∧
    ((x.2 mint).any Entry.exposed = true → (x.1.store.loadPosition mint).isSome = true)

instance (x : FastLoop × Entries) (mint : String) : Decidable (CountsAt x mint) :=
  inferInstanceAs (Decidable (_ ∧ _))

theorem Contained.countsAt {cfg : ControllerConfig E} {x : FastLoop × Entries} (h : Contained cfg x)
    (mint : String) : CountsAt x mint := by
  rcases h.counted mint with hnone | ⟨e, pos, hone, hpos, -⟩
  · refine ⟨?_, fun hany => ?_⟩
    · rw [hnone]
      exact Nat.zero_le 1
    · obtain ⟨e, he, hexposed⟩ := List.any_eq_true.1 hany
      rw [List.filter_eq_nil_iff] at hnone
      exact absurd hexposed (hnone e he)
  · refine ⟨?_, fun _ => Option.isSome_iff_exists.2 ⟨pos, hpos⟩⟩
    rw [hone]
    exact le_rfl

theorem tightConfig_valid :
    ({ maxAggregateLamports := 25000000 } : Breaker.RiskParams).floorInvariants = .ok () := by
  decide +kernel

/-- A cap that is no multiple of the size of an entry. -/
def tightController : ControllerConfig Unit :=
  { plainController with
    snipe :=
      { plainController.snipe with config := ⟨{ maxAggregateLamports := 25000000 }, tightConfig_valid⟩ } }

/-- A second entry overwrites the record of one that has landed; an entry lands that has timed out; a
refused exit drops the position; and a tick writes the position back that an entry of half its size
had overwritten, when others had taken what that left of the cap. -/
theorem aggregate_exposure_escapes :
    ¬ EveryState (exposureStep plainController) (fun _ x => Contained plainController x) unexposed
        [.processEvent (launch 1 0), .reconcileFill 100 "m" sampleFill,
          .processEvent (launch 2 1000)] ∧
      ¬ EveryState (exposureStep plainController) (fun _ x => Contained plainController x) unexposed
        [.processEvent (launchOf "m" 1 0), .continuousReconcileTick 100 77, .lands "m" 0] ∧
      ¬ EveryState (exposureStep plainController) (fun _ x => Contained plainController x) unexposed
        [.processEvent (launch 1 0), .reconcileFill 100 "m" sampleFill, .tick (unmarkedTick false)] ∧
      ¬ EveryState (exposureStep tightController) (fun _ x => Contained tightController x) unexposed
        [.processEvent (launchOf "m" 1 0), .reconcileFill 100 "m" sampleFill,
          .processEvent (launchOf "n" 1 0), .processEvent (launchOf "m" 2 1000),
          .processEvent (launchOf "o" 1 1000),
          .tick { unmarkedTick true with marks := fun _ => some (6 / 5) }] := by
  have hescapes : ∀ events : List (ExposureEvent Unit), ∀ x,
      runSteps (exposureStep plainController) unexposed events = .ok x → ¬ CountsAt x "m" →
        ¬ EveryState (exposureStep plainController) (fun _ x => Contained plainController x) unexposed
          events :=
    fun events x hrun hnot h => hnot ((h events [] x (List.append_nil _).symm hrun).countsAt "m")
  refine ⟨hescapes _ _ rfl ?_, hescapes _ _ rfl ?_, hescapes _ _ rfl ?_, fun h => ?_⟩
  · decide +kernel
  · decide +kernel
  · decide +kernel
  · have hcapped := (h _ [] _ (List.append_nil _).symm rfl).capped
    revert hcapped
    decide +kernel

end Controller
end AatsSniper

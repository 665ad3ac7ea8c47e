/-
# A fill of an entry in flight

An entry waits `ENTERING` for its fill.  A failed fill, the timeout of the reconciler, a
startup that finds no fill and a flatten all delete the record, although the
transaction may still land; `reconcile_fill` then finds no record and drops the fill.
It drops it as well where the registry still has the closed `PositionFSM` of an
earlier position of the mint.

`landed_fill_not_lost` says that nothing else loses it: in a run whose events spare the
entry while it waits, the store has the position open with the tokens of the fill once the
fill was delivered, until an exit or a startup takes it from there.
-/

import AatsSniper.Controller.Entries

namespace AatsSniper
namespace Controller

variable {E : Type} {c c' c₀ : FastLoop} {pos : Position} {mint m : String} {fill : FillResult}

/-- What can happen to an entry in flight. -/
inductive EntryEvent
  | fill (now : ℤ) (mint : String) (fill : FillResult)
  | reconcileTick (now currentSlot : ℤ)
  | startup (now : ℤ) (venue : VenueState)
  | flattenOne (lands : Answers) (mint : String)
  | emergencyFlattenAll (lands : Answers)

/-- The call it is. -/
def EntryEvent.op : EntryEvent → ControllerOp E
  | .fill now mint fill => .reconcileFill now mint fill
  | .reconcileTick now currentSlot => .continuousReconcileTick now currentSlot
  | .startup now venue => .startup now venue
  | .flattenOne lands mint => .flattenOne lands mint
  | .emergencyFlattenAll lands => .emergencyFlattenAll lands

section Runs

variable (cfg : ControllerConfig E)

/-- The step of a run of events. -/
def entryStep (c : FastLoop) (event : EntryEvent) : Except FastError FastLoop :=
  step cfg c event.op

/-- The store holds the entry, waiting for its fill. -/
def Waits (c : FastLoop) (mint : String) (pos : Position) : Prop :=
  c.store.positions.get? mint = some pos ∧ pos.fsmState = .entering

/-- The store holds the mint open, with the tokens of the fill. -/
def OpenWith (c : FastLoop) (mint : String) (fill : FillResult) : Prop :=
  ∃ pos, c.store.loadPosition mint = some pos ∧ pos.fsmState = .opened ∧
    pos.tokensOutBase = fill.tokensOut

/-- Can the event close an open position of the mint? -/
def EntryEvent.Exits (mint : String) : EntryEvent → Prop
  | .fill _ _ _ | .reconcileTick _ _ => False
  | .flattenOne _ m => m = mint
  | .startup _ _ | .emergencyFlattenAll _ => True

/-- The mint is open with the tokens of the fill, or was until an event that can close it. -/
def OpenOrLater (c₀ : FastLoop) (mint : String) (fill : FillResult) (events : List EntryEvent)
    (c : FastLoop) : Prop :=
  OpenWith c mint fill ∨
    ∃ before event after c₁, events = before ++ event :: after ∧
      runSteps (entryStep cfg) c₀ before = .ok c₁ ∧ OpenWith c₁ mint fill ∧ event.Exits mint

/-- The fill has been handed to `reconcile_fill`. -/
def Delivered (mint : String) (fill : FillResult) (events : List EntryEvent) : Prop :=
  ∃ now, EntryEvent.fill now mint fill ∈ events

/-- The event does not give a waiting entry up: no other result than the fill is delivered for it,
and to no `PositionFSM` of an earlier position; it has not timed out; a startup finds the fill; and
it is not flattened. -/
def SparesEntry (mint : String) (fill : FillResult) (c : FastLoop) (event : EntryEvent) : Prop :=
  ∀ pos, Waits c mint pos →
    match event with
    | .fill _ m result => m = mint → result = fill ∧
        ∀ q, c.fsmRegistry.get? mint = some q → q.fsmState = .entering
    | .reconcileTick _ currentSlot => ¬ timedOut cfg currentSlot pos
    | .startup _ venue =>
        venue.getFillForMint mint (makeClientIntentId mint pos.entrySlot "ENTRY") = some fill
    | .flattenOne _ m => m ≠ mint
    | .emergencyFlattenAll _ => False

theorem Untouched.waits (h : Untouched mint c c') (hwaits : Waits c mint pos) :
    Waits c' mint pos :=
  ⟨h.position.trans hwaits.1, hwaits.2⟩

theorem Untouched.openWith (h : Untouched mint c c') (hopen : OpenWith c mint fill) :
    OpenWith c' mint fill := by
  obtain ⟨q, hq, hstate⟩ := hopen
  exact ⟨q, h.position.trans hq, hstate⟩

/-- A delivery opens the position. -/
theorem Reconciled.openWith (hlanded : fill.landed = true)
    (hwaits : Waits c mint pos)
    (hregistry : ∀ q, c.fsmRegistry.get? mint = some q → q.fsmState = .entering) {now : ℤ}
    {cfg : FastConfig} (h : Reconciled cfg now fill c mint c') : OpenWith c' mint fill := by
  cases h with
  | ignored h =>
      obtain ⟨-, q, hq, hstate⟩ := h pos hwaits.1 hwaits.2
      exact absurd (hregistry q hq) hstate
  | @opened pos q _ _ hmint _ _ _ =>
      refine ⟨q.filled fill, ?_, rfl, rfl⟩
      unfold StateStore.loadPosition
      rw [(track_store cfg fill (c.filled q fill) (q.filled fill)).1]
      exact (Table.get?_upsert _ _ _).trans (if_pos hmint.symm)
  | abandoned _ _ _ hfailed =>
      rw [hlanded] at hfailed
      cases hfailed

/-- A delivery to an open position, or to another mint, is not about it. -/
theorem Reconciled.keeps_open (hopen : OpenWith c mint fill) {now : ℤ} {cfg : FastConfig}
    {result : FillResult} (h : Reconciled cfg now result c m c') : OpenWith c' mint fill := by
  by_cases hm : mint = m
  · subst hm
    obtain ⟨p, hp, hstate, -⟩ := id hopen
    have hnot : ∀ {q}, c.store.positions.get? mint = some q → q.fsmState ≠ .entering := by
      intro q hq hentering
      obtain rfl : p = q := Option.some.inj (hp.symm.trans hq)
      rw [hstate] at hentering
      cases hentering
    cases h with
    | ignored _ => exact hopen
    | opened hpos hentering hmint _ _ _ => exact absurd hentering (hnot (hmint ▸ hpos))
    | abandoned hpos hentering hmint _ => exact absurd hentering (hnot (hmint ▸ hpos))
  · exact (h.untouched cfg now result hm).openWith hopen

/-- The timeouts of the others. -/
theorem continuousReconcileTick_untouched {now currentSlot : ℤ}
    (hspares : ∀ p, c.store.positions.get? mint = some p →
      ¬ (p.fsmState = .entering ∧ timedOut cfg currentSlot p)) :
    Untouched mint c (continuousReconcileTick cfg now currentSlot c) := by
  unfold continuousReconcileTick
  refine List.foldlRecOn c.store.positions.rows (reconcileTimeout cfg now currentSlot)
    (motive := fun c' => Untouched mint c c') ⟨rfl, rfl⟩ ?_
  intro c' huntouched row hrow
  unfold reconcileTimeout
  split_ifs with htimeout
  · have hne : mint ≠ row.mint := by
      rintro rfl
      exact hspares row (get?_of_mem hrow) htimeout
    have hturn := (reconciled cfg.fast now { landed := false, reason := "entering_timed_out" } c'
      row.mint).untouched cfg.fast now _ hne
    exact ⟨hturn.position.trans huntouched.position, hturn.registered.trans huntouched.registered⟩
  · exact huntouched

theorem flattenOne_untouched {lands : Answers} (hne : m ≠ mint) :
    Untouched mint c (c.flattenOne lands m).2 := by
  unfold FastLoop.flattenOne
  split
  · exact ⟨rfl, rfl⟩
  · rename_i row hrow
    have hmint := mint_of_get? hrow
    subst hmint
    exact flattenPosition_untouched lands (Ne.symm hne)

/-- At startup the fill that the venue reports is delivered. -/
theorem reconcileAtStartup_of_found {now : ℤ} {venue : VenueState} (hlanded : fill.landed = true)
    (hentering : pos.fsmState = .entering)
    (hfound : venue.getFillForMint pos.mint (makeClientIntentId pos.mint pos.entrySlot "ENTRY") =
      some fill) :
    (reconcileAtStartup cfg now venue c pos).2 =
      (c.reconcileFill cfg.fast now pos.mint fill).2 := by
  unfold reconcileAtStartup
  simp only [hentering, hfound, Option.filter_some, hlanded, if_true, Option.getD_some]

/-- A startup that finds the fill has opened the position, unless it raised before. -/
theorem startupReconcile_waits (now : ℤ) {venue : VenueState} (hlanded : fill.landed = true)
    (hwaits : Waits c mint pos)
    (hfound : venue.getFillForMint mint (makeClientIntentId mint pos.entrySlot "ENTRY") =
      some fill) :
    Waits (startupReconcile cfg now venue c.reboot).2 mint pos ∨
      OpenWith (startupReconcile cfg now venue c.reboot).2 mint fill := by
  -- a new loop has nothing registered, so the delivery cannot be refused
  suffices hloop : (Waits (startupReconcile cfg now venue c.reboot).2 mint pos ∧
      (startupReconcile cfg now venue c.reboot).2.fsmRegistry.get? mint = none) ∨
        OpenWith (startupReconcile cfg now venue c.reboot).2 mint fill from hloop.imp_left And.left
  unfold startupReconcile
  refine runLeaving_invariant
    (P := fun c' => (Waits c' mint pos ∧ c'.fsmRegistry.get? mint = none) ∨ OpenWith c' mint fill)
    (.inl ⟨hwaits, rfl⟩) ?_
  intro c' row hrow hstate
  by_cases hne : mint = row.mint
  · obtain rfl : row = pos :=
      Option.some.inj ((get?_of_mem hrow).symm.trans (hne ▸ hwaits.1))
    subst hne
    have hfill := reconciled cfg.fast now fill c' row.mint
    rw [← reconcileAtStartup_of_found cfg hlanded hwaits.2 hfound] at hfill
    rcases hstate with ⟨hwaits', hnew⟩ | hopen
    · refine .inr (hfill.openWith hlanded hwaits' fun q hq => ?_)
      rw [hnew] at hq
      cases hq
    · exact .inr (hfill.keeps_open hopen)
  · have huntouched := reconcileAtStartup_untouched (c := c') cfg now venue hne
    rcases hstate with ⟨hwaits', hnew⟩ | hopen
    · exact .inl ⟨huntouched.waits hwaits', huntouched.registered.trans hnew⟩
    · exact .inr (huntouched.openWith hopen)

/-- What an event that spares the entry does to it. -/
theorem next_waits {event : EntryEvent} (hlanded : fill.landed = true) (hwaits : Waits c mint pos)
    (hspares : SparesEntry cfg mint fill c event) :
    (Waits (next cfg c event.op) mint pos ∧ ∀ now, event ≠ .fill now mint fill) ∨
      OpenWith (next cfg c event.op) mint fill := by
  have hspares := hspares pos hwaits
  cases event with
  | fill now m result =>
      have hfill := reconciled cfg.fast now result c m
      by_cases hm : m = mint
      · obtain ⟨rfl, hregistry⟩ := hspares hm
        subst hm
        exact .inr (hfill.openWith hlanded hwaits hregistry)
      · refine .inl ⟨(hfill.untouched cfg.fast now result (Ne.symm hm)).waits hwaits, ?_⟩
        rintro now' heq
        exact hm (EntryEvent.fill.inj heq).2.1
  | reconcileTick now currentSlot =>
      have huntouched : Untouched mint c (continuousReconcileTick cfg now currentSlot c) := by
        refine continuousReconcileTick_untouched cfg fun p hp htimeout => ?_
        obtain rfl : p = pos := Option.some.inj (hp.symm.trans hwaits.1)
        exact hspares htimeout.2
      exact .inl ⟨huntouched.waits hwaits, fun _ => nofun⟩
  | startup now venue =>
      rcases startupReconcile_waits cfg now hlanded hwaits hspares with hwaits' | hopen
      · exact .inl ⟨hwaits', fun _ => nofun⟩
      · exact .inr hopen
  | flattenOne lands m => exact .inl ⟨(flattenOne_untouched hspares).waits hwaits, fun _ => nofun⟩
  | emergencyFlattenAll lands => exact hspares.elim

/-- An event that is no exit leaves an open position open. -/
theorem next_openWith {event : EntryEvent} (hopen : OpenWith c mint fill)
    (hexits : ¬ event.Exits mint) : OpenWith (next cfg c event.op) mint fill := by
  cases event with
  | fill now m result => exact (reconciled cfg.fast now result c m).keeps_open hopen
  | reconcileTick now currentSlot =>
      refine (continuousReconcileTick_untouched cfg fun p hp htimeout => ?_).openWith hopen
      obtain ⟨q, hq, hstate, -⟩ := hopen
      obtain rfl : p = q := Option.some.inj (hp.symm.trans hq)
      rw [hstate] at htimeout
      cases htimeout.1
  | flattenOne lands m => exact (flattenOne_untouched hexits).openWith hopen
  | startup now venue => exact absurd trivial hexits
  | emergencyFlattenAll lands => exact absurd trivial hexits

variable {cfg} {events : List EntryEvent} {event : EntryEvent}

theorem OpenOrLater.step (hrun : runSteps (entryStep cfg) c₀ events = .ok c)
    (h : OpenOrLater cfg c₀ mint fill events c) :
    OpenOrLater cfg c₀ mint fill (events ++ [event]) (next cfg c event.op) := by
  rcases h with hopen | ⟨before, exit, after, c₁, rfl, hbefore, hopen, hexits⟩
  · by_cases hexits : event.Exits mint
    · exact .inr ⟨events, event, [], c, rfl, hrun, hopen, hexits⟩
    · exact .inl (next_openWith cfg hopen hexits)
  · refine .inr ⟨before, exit, after ++ [event], c₁, ?_, hbefore, hopen, hexits⟩
    rw [List.append_assoc, List.cons_append]

theorem delivered_snoc : Delivered mint fill (events ++ [event]) ↔
    Delivered mint fill events ∨ ∃ now, event = .fill now mint fill := by
  unfold Delivered
  simp only [List.mem_append, List.mem_singleton, exists_or, eq_comm]

/-- **A landed fill is not lost** in a run whose events spare the entry: the entry waits until the
position is open with the tokens of the fill, and once the fill was delivered it is, or was until an
event that can close it. -/
theorem landed_fill_not_lost (hwaits : Waits c₀ mint pos) (hlanded : fill.landed = true)
    (hspares : EveryStep (entryStep cfg)
      (fun _ c event => SparesEntry cfg mint fill c event) c₀ events) :
    EveryState (entryStep cfg) (fun events c =>
        (Waits c mint pos ∨ OpenOrLater cfg c₀ mint fill events c) ∧
        (Delivered mint fill events → OpenOrLater cfg c₀ mint fill events c)) c₀ events := by
  have hstates : EveryState (entryStep cfg) (fun events c =>
      runSteps (entryStep cfg) c₀ events = .ok c ∧
        ((Waits c mint pos ∧ ¬ Delivered mint fill events) ∨
          OpenOrLater cfg c₀ mint fill events c)) c₀ events := by
    have hnone : ¬ Delivered mint fill [] := by
      rintro ⟨now, hmem⟩
      cases hmem
    refine hspares.everyState ⟨rfl, .inl ⟨hwaits, hnone⟩⟩ ?_
    rintro events c event c' ⟨hrun, hstate⟩ hspares hstep
    obtain rfl := Except.ok.inj hstep
    refine ⟨?_, ?_⟩
    · rw [runSteps_snoc, hrun]
      rfl
    rcases hstate with ⟨hwaits', hnot⟩ | hlater
    · rcases next_waits cfg hlanded hwaits' hspares with ⟨hwaits'', hevent⟩ | hopen
      · refine .inl ⟨hwaits'', fun hdelivered => ?_⟩
        rcases delivered_snoc.1 hdelivered with hdelivered | ⟨now, heq⟩
        · exact hnot hdelivered
        · exact hevent now heq
      · exact .inr (.inl hopen)
    · exact .inr (hlater.step hrun)
  intro before after c hsplit hrun
  rcases (hstates before after c hsplit hrun).2 with ⟨hwaits', hnot⟩ | hlater
  · exact ⟨.inl hwaits', fun hdelivered => absurd hdelivered hnot⟩
  · exact ⟨.inr hlater, fun _ => hlater⟩

end Runs

/-- A controller that has submitted its first entry. -/
def submitted : FastLoop :=
  next plainController (.start (Breaker.firstBoot []) none) (.processEvent (launch 1 0))

theorem landed_fill_not_lost_sample :
    ∃ pos, Waits submitted "m" pos ∧
      EveryState (entryStep plainController) (fun events c =>
          (Waits c "m" pos ∨ OpenOrLater plainController submitted "m" sampleFill events c) ∧
          (Delivered "m" sampleFill events →
            OpenOrLater plainController submitted "m" sampleFill events c))
        submitted [.fill 100 "m" sampleFill] := by
  have hwaits : (submitted.store.positions.get? "m").map Position.fsmState = some .entering := by
    decide +kernel
  obtain ⟨pos, hpos, hentering⟩ := Option.map_eq_some_iff.1 hwaits
  refine ⟨pos, ⟨hpos, hentering⟩, landed_fill_not_lost ⟨hpos, hentering⟩ rfl ?_⟩
  refine everyStep_singleton.2 fun _ _ _ => ⟨rfl, fun q hq => ?_⟩
  cases hq

/-- Not even in passing has the mint been open. -/
theorem not_openOrLater {first second : EntryEvent}
    (hnever : ∀ c ∈ [submitted, next plainController submitted first.op,
        next plainController (next plainController submitted first.op) second.op],
      (c.store.loadPosition "m").map Position.fsmState ≠ some .opened) :
    ¬ OpenOrLater plainController submitted "m" sampleFill [first, second]
      (next plainController (next plainController submitted first.op) second.op) := by
  have hclosed : ∀ c ∈ [submitted, next plainController submitted first.op,
        next plainController (next plainController submitted first.op) second.op],
      ¬ OpenWith c "m" sampleFill := by
    rintro c hc ⟨pos, hpos, hstate, -⟩
    exact hnever c hc (by rw [hpos, Option.map_some, hstate])
  rintro (hopen | ⟨before, event, after, c₁, hsplit, hrun, hopen, -⟩)
  · exact hclosed _ (by simp) hopen
  · refine hclosed c₁ ?_ hopen
    match before with
    | [] =>
        obtain rfl := Except.ok.inj hrun
        exact List.mem_cons_self
    | [e] =>
        obtain ⟨rfl, -⟩ := List.cons.inj hsplit
        obtain rfl := Except.ok.inj hrun
        exact List.mem_cons_of_mem _ List.mem_cons_self
    | e :: e' :: before => simp at hsplit

/-- Once delivered, the fill of the first entry is open or later. -/
def FillKept (events : List EntryEvent) : Prop :=
  EveryState (entryStep plainController) (fun events c => Delivered "m" sampleFill events →
    OpenOrLater plainController submitted "m" sampleFill events c) submitted events

theorem not_fillKept {event : EntryEvent} {now : ℤ}
    (hnever : ∀ c ∈ [submitted, next plainController submitted event.op,
        next plainController (next plainController submitted event.op)
          (.reconcileFill now "m" sampleFill)],
      (c.store.loadPosition "m").map Position.fsmState ≠ some .opened) :
    ¬ FillKept [event, .fill now "m" sampleFill] := by
  intro h
  have hdelivered : Delivered "m" sampleFill [event, .fill now "m" sampleFill] := ⟨now, by simp⟩
  exact not_openOrLater hnever (h _ [] _ (List.append_nil _).symm rfl hdelivered)

/-- A fill that lands after a flatten, a timeout or a startup that did not find it is dropped. -/
theorem landed_fill_dropped :
    ¬ FillKept [.emergencyFlattenAll fun _ _ _ => true, .fill 200 "m" sampleFill] ∧
      ¬ FillKept [.reconcileTick 100 77, .fill 200 "m" sampleFill] ∧
      ¬ FillKept [.startup 100 ⟨fun _ _ => none, []⟩, .fill 200 "m" sampleFill] := by
  refine ⟨not_fillKept ?_, not_fillKept ?_, not_fillKept ?_⟩
  · decide +kernel
  · decide +kernel
  · decide +kernel

end Controller
end AatsSniper

/-
# Closed only by a landed exit

The flatten handler closes a position if its exit landed.  The other three paths of a
full exit, the engine's, the one for a missing mark and the Layer-2 stop, do not look
at the answer of the venue: they close the position and disarm its stop in any case.

`closed_only_by_landed_exit` is what is left: in a run where the venue lands every exit
that the ticks ask for on these three paths, a position leaves the store, and a stop is
disarmed, only after a full exit of the mint landed.  `Asks` says from the loop after
the sync which exits a tick may ask for.
-/

import AatsSniper.Controller.Turns

namespace AatsSniper
namespace Controller

variable {l l' : Ledger} {c : FastLoop}

/-- A full exit of the mint landed. -/
def LandedExit (l : Ledger) (mint : String) : Prop :=
  ∃ call ∈ l.exits, call.mint = mint ∧ call.fractionBps = 10000 ∧ call.landed = true

/-- The venue landed every exit on these paths. -/
def UncheckedLanded (l : Ledger) : Prop :=
  ∀ call ∈ l.exits, call.path.unchecked = true → call.landed = true

theorem LandedExit.mono {m : String} (h : LandedExit l m) (hexits : l.exits <+: l'.exits) :
    LandedExit l' m := by
  obtain ⟨call, hmem, hcall⟩ := h
  exact ⟨call, hexits.subset hmem, hcall⟩

theorem Called.landedExit {path : ExitPath} {m : String} (h : Called l path m true) :
    LandedExit l m := by
  obtain ⟨call, hmem, _, hmint, hfraction, hlanded⟩ := h
  exact ⟨call, hmem, hmint, hfraction, hlanded rfl⟩

/-- On an unchecked path, where these land. -/
theorem Called.landedExit_of_unchecked {path : ExitPath} {m : String} {landed : Bool}
    (h : Called l path m landed) (hpath : path.unchecked = true) (hland : UncheckedLanded l) :
    LandedExit l m := by
  obtain ⟨call, hmem, rfl, hmint, hfraction, _⟩ := h
  exact ⟨call, hmem, hmint, hfraction, hland call hmem hpath⟩

/-- What was bought is in the store and what was armed is armed, or a full exit landed. -/
structure KeptFrom (l₀ l : Ledger) : Prop where
  held : ∀ m pos, l₀.positions.get? m = some pos → pos.fsmState.bought →
    (∃ q, l.positions.get? m = some q ∧ q.fsmState ≠ .entering) ∨ LandedExit l m
  armed : ∀ m, l₀.armed m = true → l.armed m = true ∨ LandedExit l m

theorem KeptFrom.refl (l : Ledger) : KeptFrom l l where
  held m pos hpos hbought := by
    refine .inl ⟨pos, hpos, ?_⟩
    rcases hbought with h | h
    · rw [h]
      exact nofun
    · rw [h]
      exact nofun
  armed _ harmed := .inl harmed

variable {l₀ : Ledger}

/-- A move that keeps what is held and armed, or lands an exit of the mint. -/
theorem KeptFrom.step (h : KeptFrom l₀ l) (hexits : l.exits <+: l'.exits)
    (hheld : ∀ m q, l.positions.get? m = some q → q.fsmState ≠ .entering →
      (∃ p, l'.positions.get? m = some p ∧ p.fsmState ≠ .entering) ∨ LandedExit l' m)
    (harmed : ∀ m, l.armed m = true → l'.armed m = true ∨ LandedExit l' m) : KeptFrom l₀ l' where
  held m pos hpos hbought := by
    rcases h.held m pos hpos hbought with ⟨q, hq, hstate⟩ | hlanded
    · exact hheld m q hq hstate
    · exact .inr (hlanded.mono hexits)
  armed m hm := by
    rcases h.armed m hm with hm | hlanded
    · exact harmed m hm
    · exact .inr (hlanded.mono hexits)

/-- Writing a position that has entered keeps every other one. -/
theorem entered_upsert {t : Table Position.mint} {p q : Position} {m : String}
    (hp : p.fsmState ≠ .entering) (hq : t.get? m = some q) (hstate : q.fsmState ≠ .entering) :
    ∃ p', (t.upsert p).get? m = some p' ∧ p'.fsmState ≠ .entering := by
  rw [Table.get?_upsert]
  split_ifs
  · exact ⟨p, rfl, hp⟩
  · exact ⟨q, hq, hstate⟩

/-- What closing a position leaves, if an exit of it landed. -/
theorem entered_close {p q : Position} {m : String} (hlanded : LandedExit l' q.mint)
    (hp : l.positions.get? m = some p) (hstate : p.fsmState ≠ .entering) :
    (∃ p', (l.close q).positions.get? m = some p' ∧ p'.fsmState ≠ .entering) ∨ LandedExit l' m := by
  by_cases hm : m = q.mint
  · subst hm
    exact .inr hlanded
  · exact .inl ⟨p, (Ledger.close_positions_of_ne l hm).trans hp, hstate⟩

theorem armed_disarm {armed : String → Bool} {m mint : String}
    (hlanded : LandedExit l' mint) (hm : armed m = true) :
    Function.update armed mint false m = true ∨ LandedExit l' m := by
  by_cases heq : m = mint
  · subst heq
    exact .inr hlanded
  · rw [Function.update_of_ne heq]
    exact .inl hm

/-- **A move keeps what is held**, where the unchecked exits land. -/
theorem ExitMove.kept (h : ExitMove l l') (hland : UncheckedLanded l') (hl : KeptFrom l₀ l) :
    KeptFrom l₀ l' := by
  have hexits := h.exits_prefix
  cases h with
  | adopt _ _ => exact hl.step hexits (fun m q hq hstate => .inl ⟨q, hq, hstate⟩) fun m hm => .inl hm
  | unregister _ =>
      exact hl.step hexits (fun m q hq hstate => .inl ⟨q, hq, hstate⟩) fun m hm => .inl hm
  | @value q _ _ hopen =>
      have hentered : q.fsmState ≠ .entering := by
        rw [hopen]
        exact nofun
      exact hl.step hexits (fun m p hp hstate => .inl (entered_upsert hentered hp hstate))
        fun m hm => .inl hm
  | @scaleOut q _ _ _ hentered =>
      exact hl.step hexits (fun m p hp hstate => .inl (entered_upsert hentered hp hstate))
        fun m hm => .inl hm
  | @exitAndClose q path landed hpath _ =>
      have hunchecked : path.unchecked = true := by
        rcases hpath with rfl | rfl
        · rfl
        · rfl
      have hcalled : Called ((((l.log path q.mint 10000 landed).close q).unregister q.mint).disarm
          q.mint) path q.mint landed := by
        refine (called_log l path q.mint landed).of_exits ?_
        unfold Ledger.disarm Ledger.unregister
        rw [Ledger.close_eq]
      have hlanded := hcalled.landedExit_of_unchecked hunchecked hland
      refine hl.step hexits (fun m p hp hstate => ?_) fun m hm => ?_
      · exact entered_close (l := l.log path q.mint 10000 landed) hlanded hp hstate
      · have harmed : (((l.log path q.mint 10000 landed).close q).unregister q.mint).armed =
            l.armed := by
          rw [Ledger.close_eq]
          rfl
        unfold Ledger.disarm
        rw [harmed]
        exact armed_disarm hlanded hm
  | stop mint landed =>
      have hcalled : Called ((l.log .layer2 mint 10000 landed).disarm mint) .layer2 mint landed :=
        called_log l .layer2 mint landed
      have hlanded := hcalled.landedExit_of_unchecked rfl hland
      exact hl.step hexits (fun m p hp hstate => .inl ⟨p, hp, hstate⟩)
        fun m hm => armed_disarm hlanded hm
  | @closeFired q _ hcalled =>
      have hlanded := (hcalled.of_exits hexits).landedExit_of_unchecked rfl hland
      refine hl.step hexits (fun m p hp hstate => entered_close hlanded hp hstate) fun m hm => ?_
      rw [Ledger.close_eq]
      exact .inl hm
  | flatten _ _ _ =>
      exact hl.step hexits (fun m q hq hstate => .inl ⟨q, hq, hstate⟩) fun m hm => .inl hm
  | @closing q _ _ =>
      exact hl.step hexits
        (fun m p hp hstate => .inl (entered_upsert (p := q.asClosing) nofun hp hstate))
        fun m hm => .inl hm
  | @closed q _ _ hcalled =>
      refine hl.step hexits (fun m p hp hstate => ?_) fun m hm => .inl hm
      by_cases hm : m = q.mint
      · subst hm
        exact .inr (hcalled.of_exits hexits).landedExit
      · exact .inl ⟨p, (Table.get?_remove_of_ne hm).trans hp, hstate⟩
  | @veto pos hpos hentering =>
      refine hl.step hexits (fun m p hp hstate => ?_) fun m hm => .inl hm
      have hm : m ≠ pos.mint := by
        rintro rfl
        obtain rfl : pos = p := Option.some.inj (hpos.symm.trans hp)
        exact hstate hentering
      exact .inl ⟨p, (Table.get?_remove_of_ne hm).trans hp, hstate⟩

/-- **So does a call.** -/
theorem ExitMoves.kept (h : ExitMoves l l') (hland : UncheckedLanded l') (hl : KeptFrom l₀ l) :
    KeptFrom l₀ l' := by
  induction h with
  | refl => exact hl
  | @tail l₁ l₂ _ hmove ih =>
      have hbefore : UncheckedLanded l₁ := fun call hcall =>
        hland call (hmove.exits_prefix.subset hcall)
      exact hmove.kept hland (ih hbefore)

/-- The calls that exit. -/
inductive ExitOp
  | tick (input : TickInput)
  | flattenOne (lands : Answers) (mint : String)
  | emergencyFlattenAll (lands : Answers)

section Runs

variable (cfg : FastConfig)

/-- The loop after a call, whether it returned or raised. -/
def exitNext (c : FastLoop) : ExitOp → FastLoop
  | .tick input => (c.tick cfg input).2
  | .flattenOne lands mint => (c.flattenOne lands mint).2
  | .emergencyFlattenAll lands => c.emergencyFlattenAll lands

/-- The step of a run. -/
def exitStep (c : FastLoop) (op : ExitOp) : Except FastError FastLoop := .ok (exitNext cfg c op)

/-- The venue lands the exits that a tick asks for without looking at the answer: of an open position
without a mark, with a full exit of the engine, or with a breached stop. -/
def LandsAsked (c : FastLoop) : ExitOp → Prop
  | .tick input => ∀ path mint n, Asks cfg input (c.synced cfg) path mint →
      input.lands path mint n = true
  | _ => True

/-- Since then: a position that was open or closing has left the store, or a stop that was armed is
gone, only after a full exit of the mint landed. -/
def ClosedByLanded (c₀ c : FastLoop) : Prop :=
  ∀ mint,
    ((∃ pos, c₀.store.loadPosition mint = some pos ∧ pos.fsmState.bought) →
        c.store.loadPosition mint = none → LandedExit c.ledger mint) ∧
      ((c₀.stopOf mint).isSome → c.stopOf mint = none → LandedExit c.ledger mint)

theorem exitNext_moves (c : FastLoop) (op : ExitOp) :
    ExitMoves c.ledger (exitNext cfg c op).ledger := by
  cases op with
  | tick input => exact tick_moves cfg input c
  | flattenOne lands mint => exact flattenOne_moves lands c mint
  | emergencyFlattenAll lands => exact emergencyFlattenAll_moves lands c

/-- The calls of one step. -/
theorem exitNext_landed (c : FastLoop) (op : ExitOp) (hland : LandsAsked cfg c op) :
    Adds (fun call => call.path.unchecked = true → call.landed = true) c (exitNext cfg c op) := by
  have hflatten : ∀ call : ExitCall, call.path = .flatten → call.path.unchecked = true →
      call.landed = true := by
    intro call hpath hunchecked
    rw [checked_of_flatten hpath] at hunchecked
    cases hunchecked
  cases op with
  | tick input =>
      refine (tick_asks cfg input c).mono fun call hcall hpath => ?_
      obtain ⟨hasks, n, hlanded⟩ := hcall hpath
      rw [hlanded]
      exact hland call.path call.mint n hasks
  | flattenOne lands mint =>
      unfold exitNext FastLoop.flattenOne
      dsimp only
      split
      · exact .none rfl
      · exact (flattenPosition_adds lands c _).mono hflatten
  | emergencyFlattenAll lands => exact (emergencyFlattenAll_adds lands c).mono hflatten

/-- The loop with no calls recorded yet. -/
def FastLoop.unlogged (c : FastLoop) : FastLoop := { c with exits := [] }

/-- **Closed only by a landed exit.**  In a run of ticks and flattens from any loop, where the venue
lands the exits that the ticks ask for without looking at the answer, every position that has left
the store and every stop that is gone has had a full exit that landed. -/
theorem closed_only_by_landed_exit (c₀ : FastLoop) (ops : List ExitOp)
    (hland : EveryStep (exitStep cfg) (fun _ c op => LandsAsked cfg c op) c₀.unlogged ops) :
    EveryState (exitStep cfg) (fun _ c => ClosedByLanded c₀ c) c₀.unlogged ops := by
  have hkept : EveryState (exitStep cfg)
      (fun _ c => KeptFrom c₀.unlogged.ledger c.ledger ∧ UncheckedLanded c.ledger) c₀.unlogged
      ops := by
    refine EveryStep.everyState (P := fun _ c op => LandsAsked cfg c op) ?_ ?_ hland
    · refine ⟨.refl _, ?_⟩
      intro call hcall
      cases hcall
    · rintro _ c op c' ⟨hkept, hlanded⟩ hland hstep
      obtain rfl := Except.ok.inj hstep
      have hlanded' : UncheckedLanded (exitNext cfg c op).ledger := by
        obtain ⟨calls, hexits, hcalls⟩ := exitNext_landed cfg c op hland
        intro call hcall
        have hcall : call ∈ (exitNext cfg c op).exits := hcall
        rw [hexits] at hcall
        rcases List.mem_append.1 hcall with hcall | hcall
        · exact hlanded call hcall
        · exact hcalls call hcall
      exact ⟨(exitNext_moves cfg c op).kept hlanded' hkept, hlanded'⟩
  intro before after c hsplit hrun mint
  obtain ⟨hheld, harmed⟩ := (hkept before after c hsplit hrun).1
  constructor
  · rintro ⟨pos, hpos, hbought⟩ hnone
    refine (hheld mint pos hpos hbought).resolve_left ?_
    rintro ⟨q, hq, -⟩
    rw [show c.ledger.positions.get? mint = none from hnone] at hq
    cases hq
  · intro hsome hnone
    refine (harmed mint hsome).resolve_left fun harmed => ?_
    rw [show c.ledger.armed mint = _ from congrArg Option.isSome hnone] at harmed
    cases harmed

end Runs

/-- A position bought for 1000 lamports. -/
def samplePosition (mint : String) (state : FSMState) : Position where
  mint := mint
  fsmState := state
  entrySlot := 1
  solInLamports := 1000
  tokensOutBase := 1000
  entrySlippageBps := 0
  tpHit := 0
  realizedPnlNetLamports := none
  unrealizedPnlNetLamports := 0

/-- A loop over a store that holds one open position. -/
def sampleLoop : FastLoop :=
  { FastLoop.start (Breaker.firstBoot []) none with
    store := StateStore.empty.savePosition (samplePosition "m" .opened) }

/-- A tick without marks, where the venue gives one answer to all. -/
def unmarkedTick (lands : Bool) : TickInput where
  now := 0
  blockTimeMs := 0
  marks := fun _ => none
  lands := fun _ _ _ => lands

theorem closed_only_by_landed_exit_sample :
    EveryState (exitStep defaultFastConfig) (fun _ c => ClosedByLanded sampleLoop c)
        sampleLoop.unlogged [.tick (unmarkedTick true)] ∧
      (exitNext defaultFastConfig sampleLoop.unlogged (.tick (unmarkedTick true))).store.loadPosition
        "m" = none := by
  refine ⟨closed_only_by_landed_exit defaultFastConfig sampleLoop [.tick (unmarkedTick true)] ?_,
    by decide +kernel⟩
  exact everyStep_singleton.2 fun _ _ _ _ => rfl

/-- Without a mark the position is deleted although the venue refused its exit. -/
theorem closed_by_refused_exit :
    ¬ EveryState (exitStep defaultFastConfig) (fun _ c => ClosedByLanded sampleLoop c)
      sampleLoop.unlogged [.tick (unmarkedTick false)] := by
  intro h
  have hclosed := (h [.tick (unmarkedTick false)] [] _ rfl rfl "m").1
    ⟨samplePosition "m" .opened, by decide +kernel, .inl rfl⟩ (by decide +kernel)
  obtain ⟨call, hcall, -, -, hlanded⟩ := hclosed
  have hrefused : ∀ call ∈ (exitNext defaultFastConfig sampleLoop.unlogged
      (.tick (unmarkedTick false))).exits, call.landed = false := by decide +kernel
  rw [hrefused call hcall] at hlanded
  cases hlanded

end Controller
end AatsSniper

/-
# What the controller does to its positions

The `Ledger` is what the results about the controller speak of: the positions and the
entry locks of the store, the registry, the mints with an armed stop and the calls of
the venue.  `ExitMove` lists the small changes the FAST tick and the flatten handler
make to it, `Move` those of the fills and the startup as well.  Every call is a sequence
of them, also where it raises (`tick_moves`, `next_moves`), so an invariant of the
controller is a case analysis on the moves.
-/

import AatsSniper.Controller.FastLoop
import Mathlib.Logic.Relation

namespace AatsSniper
namespace Controller

/-- Positions, locks, registry, armed stops and calls of the venue. -/
structure Ledger where
  positions : Table Position.mint
  locks : String → Option (String × ℤ)
  registry : Table Position.mint
  armed : String → Bool
  exits : List ExitCall

namespace Ledger

/-- A call of the venue, with the state the mint is held in. -/
def log (l : Ledger) (path : ExitPath) (mint : String) (fractionBps : ℤ) (landed : Bool) : Ledger :=
  let held := (l.positions.get? mint).map Position.fsmState
  { l with exits := l.exits ++ [⟨path, mint, fractionBps, landed, held⟩] }

/-- A registered position, written through to the store. -/
def save (l : Ledger) (q : Position) : Ledger :=
  { l with positions := l.positions.upsert q, registry := l.registry.upsert q }

/-- A mint leaves the registry. -/
def unregister (l : Ledger) (mint : String) : Ledger :=
  { l with registry := l.registry.remove mint }

/-- The stop of a mint is gone. -/
def disarm (l : Ledger) (mint : String) : Ledger :=
  { l with armed := Function.update l.armed mint false }

/-- An open position leaves the store; the transitions refuse any other. -/
def close (l : Ledger) (q : Position) : Ledger :=
  if q.fsmState = .opened then { l with positions := l.positions.remove q.mint } else l

/-- Only the positions change. -/
theorem close_eq (l : Ledger) (q : Position) :
    l.close q = { l with positions := (l.close q).positions } := by
  unfold close
  split_ifs
  · rfl
  · rfl

theorem get?_of_close {l : Ledger} {q pos : Position} {m : String}
    (h : (l.close q).positions.get? m = some pos) : l.positions.get? m = some pos := by
  unfold close at h
  split_ifs at h
  · rw [Table.get?_remove] at h
    split_ifs at h
    exact h
  · exact h

theorem close_positions_of_ne (l : Ledger) {q : Position} {m : String} (h : m ≠ q.mint) :
    (l.close q).positions.get? m = l.positions.get? m := by
  unfold close
  split_ifs
  · exact Table.get?_remove_of_ne h
  · rfl

end Ledger

/-- The ledger of a controller. -/
def FastLoop.ledger (c : FastLoop) : Ledger where
  positions := c.store.positions
  locks := c.store.fsmLocks
  registry := c.fsmRegistry
  armed := fun mint => (c.stops.bind fun stops => stops mint).isSome
  exits := c.exits

/-- `OPEN` or `CLOSING`: bought, and not yet sold. -/
def FSMState.bought (state : FSMState) : Prop := state = .opened ∨ state = .closing

theorem live_iff {state : FSMState} : state.live = true ↔ state = .entering ∨ state.bought := by
  unfold FSMState.bought
  cases state <;> decide

/-- A full exit of the mint by the path is among the calls. -/
def Called (l : Ledger) (path : ExitPath) (mint : String) (landed : Bool) : Prop :=
  ∃ call ∈ l.exits, call.path = path ∧ call.mint = mint ∧ call.fractionBps = 10000 ∧
    (landed = true → call.landed = true)

variable {l l' : Ledger} {c : FastLoop} {pos q : Position} {mint : String}

/-- What a tick and the flatten handler are made of. -/
inductive ExitMove : Ledger → Ledger → Prop
  /-- A position of the store is registered. -/
  | adopt {l : Ledger} {pos : Position} (hpos : l.positions.get? pos.mint = some pos)
      (hnew : l.registry.get? pos.mint = none) :
      ExitMove l { l with registry := l.registry.upsert pos }
  | unregister (l : Ledger) (mint : String) : ExitMove l (l.unregister mint)
  /-- An open position is marked to market. -/
  | value {l : Ledger} {q : Position} (unrealized : ℤ) (hq : l.registry.get? q.mint = some q)
      (hopen : q.fsmState = .opened) :
      ExitMove l (l.save { q with unrealizedPnlNetLamports := unrealized })
  /-- A rung is sold, whatever has become of the position since the decision. -/
  | scaleOut {l : Ledger} {q : Position} (fractionBps : ℤ) (landed : Bool)
      (hq : l.registry.get? q.mint = some q) (hstate : q.fsmState ≠ .entering) :
      ExitMove l ((l.log .scaleOut q.mint fractionBps landed).save { q with tpHit := q.tpHit + 1 })
  /-- Everything is sold and the position closed, whether the exit landed or not. -/
  | exitAndClose {l : Ledger} {q : Position} (path : ExitPath) (landed : Bool)
      (hpath : path = .engine ∨ path = .markUnavailable) (hq : l.registry.get? q.mint = some q) :
      ExitMove l
        ((((l.log path q.mint 10000 landed).close q).unregister q.mint).disarm q.mint)
  /-- A Layer-2 stop fires. -/
  | stop (l : Ledger) (mint : String) (landed : Bool) :
      ExitMove l ((l.log .layer2 mint 10000 landed).disarm mint)
  /-- A position whose stop fired is closed. -/
  | closeFired {l : Ledger} {q : Position} (hq : l.registry.get? q.mint = some q)
      (hcalled : Called l .layer2 q.mint false) : ExitMove l ((l.close q).unregister q.mint)
  /-- The flatten handler sells everything. -/
  | flatten {l : Ledger} {pos : Position} (landed : Bool)
      (hpos : l.positions.get? pos.mint = some pos)
      (hstate : pos.fsmState = .opened ∨ pos.fsmState = .closing) :
      ExitMove l (l.log .flatten pos.mint 10000 landed)
  | closing {l : Ledger} {q : Position} (hq : l.registry.get? q.mint = some q)
      (hopen : q.fsmState = .opened) : ExitMove l (l.save { q with fsmState := .closing })
  /-- A position is closed because its flatten landed. -/
  | closed {l : Ledger} {q : Position} (hq : l.registry.get? q.mint = some q)
      (hclosing : q.fsmState = .closing) (hcalled : Called l .flatten q.mint true) :
      ExitMove l
        { l with
          positions := l.positions.remove q.mint
          registry := l.registry.upsert
            { q with fsmState := .closed, realizedPnlNetLamports := some 0 } }
  /-- An entry is given up. -/
  | veto {l : Ledger} {pos : Position} (hpos : l.positions.get? pos.mint = some pos)
      (hentering : pos.fsmState = .entering) :
      ExitMove l
        { l with
          positions := l.positions.remove pos.mint
          locks := Function.update l.locks pos.mint none
          registry := l.registry.remove pos.mint }

/-- What all calls but `process_event` are made of. -/
inductive Move : Ledger → Ledger → Prop
  | exit {l l' : Ledger} (h : ExitMove l l') : Move l l'
  /-- An entry has filled. -/
  | fill {l : Ledger} {pos q : Position} (hpos : l.positions.get? q.mint = some pos)
      (hentering : pos.fsmState = .entering) (hopen : q.fsmState = .opened) :
      Move l
        { l with
          positions := l.positions.upsert q
          locks := Function.update l.locks q.mint none
          registry := l.registry.upsert q }
  | arm (l : Ledger) (mint : String) : Move l { l with armed := Function.update l.armed mint true }
  /-- A new `FastLoop`. -/
  | reboot (l : Ledger) :
      Move l { l with registry := Table.empty, armed := fun _ => false }
  /-- The startup drops a position that is not registered. -/
  | vanish {l : Ledger} {mint : String} (hnew : l.registry.get? mint = none) :
      Move l { l with positions := l.positions.remove mint }

/-- Some exit moves, one after the other. -/
abbrev ExitMoves : Ledger → Ledger → Prop := Relation.ReflTransGen ExitMove

/-- Some moves, one after the other. -/
abbrev Moves : Ledger → Ledger → Prop := Relation.ReflTransGen Move

theorem ExitMoves.moves (h : ExitMoves l l') : Moves l l' :=
  Relation.ReflTransGen.mono (fun _ _ hmove => Move.exit hmove) _ _ h

theorem mint_of_get? {t : Table Position.mint} (h : t.get? mint = some q) : q.mint = mint :=
  (Table.mem_of_get? h).2

theorem ledger_venueExit (lands : Answers) (c : FastLoop) (path : ExitPath) (mint : String)
    (fractionBps : ℤ) :
    (c.venueExit lands path mint fractionBps).2.ledger =
      c.ledger.log path mint fractionBps (lands path mint c.exits.length) :=
  rfl

theorem ledger_deregister (c : FastLoop) (mint : String) :
    (c.deregister mint).ledger = c.ledger.disarm mint := by
  have harmed : (c.deregister mint).ledger.armed =
      Function.update c.ledger.armed mint false := by
    funext m
    cases hstops : c.stops with
    | none => by_cases hm : m = mint <;> simp [FastLoop.ledger, FastLoop.deregister, hstops, hm]
    | some stops =>
        by_cases hm : m = mint <;> simp [FastLoop.ledger, FastLoop.deregister, hstops, hm]
  unfold Ledger.disarm
  rw [← harmed]
  rfl

/-- What the two transitions of a full exit leave of the store. -/
theorem closeFsm_store (st : StateStore) (q : Position) :
    (FastLoop.closeFsm st q).1 =
      if q.fsmState = .opened then { st with positions := st.positions.remove q.mint } else st := by
  unfold FastLoop.closeFsm
  obtain ⟨mint, state, _, _, _, _, _, _, _⟩ := q
  cases state
  case opened =>
    show { st with positions := Table.remove (Table.upsert (Table.upsert _ _) _) mint } = _
    rw [if_pos rfl]
    congr 1
    exact (Table.remove_upsert _ _).trans (Table.remove_upsert _ _)
  all_goals rfl

/-- A veto goes through iff the position is `ENTERING`. -/
theorem vetoed_store (st : StateStore) (q : Position) :
    (FastLoop.suppress st q (PositionFSM.transitionToVetoed st q)).1 =
      if q.fsmState = .entering then
        { st with
          positions := st.positions.remove q.mint
          fsmLocks := Function.update st.fsmLocks q.mint none }
      else st := by
  obtain ⟨mint, state, _, _, _, _, _, _, _⟩ := q
  cases state
  case entering =>
    show { st with
      positions := Table.remove (Table.upsert _ _) mint
      fsmLocks := Function.update st.fsmLocks mint none } = _
    rw [if_pos rfl]
    congr 1
    exact Table.remove_upsert _ _
  all_goals rfl

/-- The position in `CLOSING`. -/
def Position.asClosing (q : Position) : Position := { q with fsmState := .closing }

/-- The position in `CLOSED`. -/
def Position.asClosed (q : Position) : Position :=
  { q with fsmState := .closed, realizedPnlNetLamports := some 0 }

theorem toClosing_eq (st : StateStore) (q : Position) :
    FastLoop.suppress st q (PositionFSM.transitionToClosing st q) =
      if q.fsmState = .opened then (st.savePosition q.asClosing, q.asClosing) else (st, q) := by
  obtain ⟨mint, state, _, _, _, _, _, _, _⟩ := q
  cases state <;> rfl

theorem toClosed_eq (st : StateStore) (q : Position) :
    FastLoop.suppress st q (PositionFSM.transitionToClosed st q 0) =
      if q.fsmState = .closing then (st.deletePosition q.mint, q.asClosed) else (st, q) := by
  obtain ⟨mint, state, _, _, _, _, _, _, _⟩ := q
  cases state
  case closing =>
    rw [if_pos rfl]
    refine Prod.ext ?_ rfl
    show { st with positions := Table.remove (Table.upsert _ _) mint } = _
    unfold StateStore.deletePosition
    congr 1
    exact Table.remove_upsert _ _
  all_goals rfl

/-- The `PositionFSM` of a position of the store, registered or transient, is of its mint. -/
theorem mint_of_getD (c : FastLoop) (pos : Position) :
    ((c.fsmRegistry.get? pos.mint).getD pos).mint = pos.mint := by
  cases hget : c.fsmRegistry.get? pos.mint with
  | none => rfl
  | some q => exact mint_of_get? hget

/-- An entry is given up, or the transition is refused; the registry forgets it in any case. -/
theorem abandon_moves (hpos : c.store.positions.get? pos.mint = some pos)
    (hentering : pos.fsmState = .entering) : ExitMoves c.ledger (c.abandon pos).ledger := by
  unfold FastLoop.abandon
  dsimp only
  rw [vetoed_store, mint_of_getD]
  split_ifs
  · exact .single (.veto hpos hentering)
  · exact .single (.unregister c.ledger pos.mint)

theorem ledger_untrack (c : FastLoop) (now cooldownSeconds : ℤ) (mint : String) :
    (c.untrack now cooldownSeconds mint).ledger = c.ledger.unregister mint :=
  rfl

theorem withFsm_eq {p : Position} (hq : c.fsmRegistry.get? q.mint = some p) (st : StateStore) :
    c.withFsm st q = { c with store := st, fsmRegistry := c.fsmRegistry.upsert q } := by
  unfold FastLoop.withFsm
  rw [hq]
  rfl

/-- A transition that was refused. -/
theorem withFsm_self (hq : c.fsmRegistry.get? q.mint = some q) : c.withFsm c.store q = c := by
  rw [withFsm_eq hq, Table.upsert_of_get? hq]

/-- What a call for another mint leaves alone. -/
structure Untouched (m : String) (c c' : FastLoop) : Prop where
  position : c'.store.positions.get? m = c.store.positions.get? m
  registered : c'.fsmRegistry.get? m = c.fsmRegistry.get? m

theorem abandon_untouched {m : String} (h : m ≠ pos.mint) : Untouched m c (c.abandon pos) := by
  refine ⟨?_, Table.get?_remove_of_ne h⟩
  unfold FastLoop.abandon
  dsimp only
  rw [vetoed_store, mint_of_getD]
  split_ifs
  · exact Table.get?_remove_of_ne h
  · rfl

theorem called_log (l : Ledger) (path : ExitPath) (mint : String) (landed : Bool) :
    Called (l.log path mint 10000 landed) path mint landed :=
  ⟨_, List.mem_append_right _ (List.mem_singleton_self _), rfl, rfl, rfl, id⟩

theorem Called.weaken {path : ExitPath} {landed : Bool} (h : Called l path mint landed) :
    Called l path mint false := by
  obtain ⟨call, hmem, hpath, hmint, hfraction, -⟩ := h
  exact ⟨call, hmem, hpath, hmint, hfraction, nofun⟩

theorem Called.of_exits {path : ExitPath} {landed : Bool} (h : Called l path mint landed)
    (hexits : l.exits <+: l'.exits) : Called l' path mint landed := by
  obtain ⟨call, hmem, hcall⟩ := h
  exact ⟨call, hexits.subset hmem, hcall⟩

/-- The calls are only added to. -/
theorem ExitMove.exits_prefix (h : ExitMove l l') : l.exits <+: l'.exits := by
  cases h with
  | adopt | unregister | value | closing | closed | veto => exact List.prefix_refl _
  | scaleOut | stop | flatten => exact List.prefix_append _ _
  | exitAndClose =>
      unfold Ledger.disarm Ledger.unregister
      rw [Ledger.close_eq]
      exact List.prefix_append _ _
  | closeFired =>
      unfold Ledger.unregister
      rw [Ledger.close_eq]

end Controller
end AatsSniper

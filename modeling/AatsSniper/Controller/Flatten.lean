/-
# The flatten handler

What `emergency_flatten_all` and `flatten_one` do.  `Sold` is what can become of one open or
closing position; a position is flattened in the state in which the store held it
when the handler was called (`flattenAll_induction`).
-/

import AatsSniper.Controller.Ledger

namespace AatsSniper
namespace Controller

variable {c : FastLoop} {pos q : Position} {mint : String}

/-- The venue has been called for a flatten. -/
def FastLoop.flattening (lands : Answers) (c : FastLoop) (mint : String) : FastLoop :=
  (c.venueExit lands .flatten mint 10000).2

/-- What the flatten handler can do with an open or closing position. -/
inductive Sold (lands : Answers) (c : FastLoop) (pos : Position) : FastLoop → Prop
  /-- Nothing but the call: the mint is not registered, the transition is refused, or the exit of a
  closing position did not land. -/
  | called (h : c.fsmRegistry.get? pos.mint = some pos → lands .flatten pos.mint c.exits.length = false) :
      Sold lands c pos (c.flattening lands pos.mint)
  /-- To `CLOSING`, as the exit did not land. -/
  | closing {q : Position} (hq : c.fsmRegistry.get? q.mint = some q) (hmint : q.mint = pos.mint)
      (hopen : q.fsmState = .opened) (hlanded : lands .flatten pos.mint c.exits.length = false) :
      Sold lands c pos
        { c.flattening lands pos.mint with
          store := c.store.savePosition q.asClosing
          fsmRegistry := c.fsmRegistry.upsert q.asClosing }
  /-- To `CLOSED`, as it did. -/
  | closed {q : Position} (hq : c.fsmRegistry.get? q.mint = some q) (hmint : q.mint = pos.mint)
      (hstate : q.fsmState = .opened ∨ q.fsmState = .closing)
      (hlanded : lands .flatten pos.mint c.exits.length = true) :
      Sold lands c pos
        { c.flattening lands pos.mint with
          store := c.store.deletePosition q.mint
          fsmRegistry := c.fsmRegistry.upsert q.asClosed }

/-- **What the flatten handler does** with an open or closing position. -/
theorem sold (lands : Answers) (hstate : pos.fsmState = .opened ∨ pos.fsmState = .closing) :
    Sold lands c pos (c.sellAll lands pos) := by
  have hlands : (c.venueExit lands .flatten pos.mint 10000).1 = lands .flatten pos.mint c.exits.length := rfl
  unfold FastLoop.sellAll
  dsimp only
  rw [hlands]
  cases hget : c.fsmRegistry.get? pos.mint with
  | none =>
      refine .called fun hself => ?_
      rw [hget] at hself
      cases hself
  | some q =>
      have hmint := mint_of_get? hget
      have hq : c.fsmRegistry.get? q.mint = some q := hmint ▸ hget
      have hrefused : (c.venueExit lands .flatten pos.mint 10000).2.withFsm c.store q =
          c.flattening lands pos.mint := withFsm_self hq
      dsimp only
      by_cases hopen : pos.fsmState = .opened ∧ q.fsmState = .opened
      · rw [if_pos hopen.1, toClosing_eq, if_pos hopen.2]
        split_ifs with hlanded
        · have hdeleted : (c.store.savePosition q.asClosing).deletePosition q.mint =
              c.store.deletePosition q.mint := by
            unfold StateStore.savePosition StateStore.deletePosition
            congr 1
            exact Table.remove_upsert _ _
          have hsecond : FastLoop.suppress (c.store.savePosition q.asClosing) q.asClosing
              (PositionFSM.transitionToClosed (c.store.savePosition q.asClosing) q.asClosing 0) =
              ((c.store.savePosition q.asClosing).deletePosition q.mint, q.asClosed) :=
            (toClosed_eq _ _).trans (if_pos rfl)
          dsimp only
          rw [hsecond]
          show Sold lands c pos ((c.flattening lands pos.mint).withFsm
            ((c.store.savePosition q.asClosing).deletePosition q.mint) q.asClosed)
          rw [hdeleted, withFsm_eq (c := c.flattening lands pos.mint) (q := q.asClosed) hq]
          exact .closed hq hmint (.inl hopen.2) hlanded
        · show Sold lands c pos ((c.flattening lands pos.mint).withFsm
            (c.store.savePosition q.asClosing) q.asClosing)
          rw [withFsm_eq (c := c.flattening lands pos.mint) (q := q.asClosing) hq]
          exact .closing hq hmint hopen.2 (Bool.not_eq_true _ ▸ hlanded)
      · -- the position stays, or is closed from `CLOSING`
        have hclosing : (if pos.fsmState = .opened then
            FastLoop.suppress c.store q (PositionFSM.transitionToClosing c.store q)
            else (c.store, q)) = (c.store, q) := by
          split_ifs with hpos
          · rw [toClosing_eq, if_neg fun hq => hopen ⟨hpos, hq⟩]
          · rfl
        rw [hclosing, toClosed_eq]
        by_cases hclosed : lands .flatten pos.mint c.exits.length = true ∧ q.fsmState = .closing
        · rw [if_pos hclosed.1, if_pos hclosed.2]
          show Sold lands c pos ((c.flattening lands pos.mint).withFsm
            (c.store.deletePosition q.mint) q.asClosed)
          rw [withFsm_eq (c := c.flattening lands pos.mint) (q := q.asClosed) hq]
          exact .closed hq hmint (.inr hclosed.2) hclosed.1
        · have hstays : (if lands .flatten pos.mint c.exits.length = true then
              if q.fsmState = .closing then (c.store.deletePosition q.mint, q.asClosed)
              else (c.store, q) else (c.store, q)) = (c.store, q) := by
            split_ifs with hlanded hq
            · exact absurd ⟨hlanded, hq⟩ hclosed
            · rfl
            · rfl
          rw [hstays, hrefused]
          refine .called fun hself => ?_
          obtain rfl : q = pos := Option.some.inj (hget.symm.trans hself)
          rw [Bool.eq_false_iff]
          intro hlanded
          rcases hstate with hpos | hpos
          · exact hopen ⟨hpos, hpos⟩
          · exact hclosed ⟨hlanded, hpos⟩

theorem Sold.moves {lands : Answers} {c' : FastLoop} (h : Sold lands c pos c')
    (hpos : c.store.positions.get? pos.mint = some pos)
    (hstate : pos.fsmState = .opened ∨ pos.fsmState = .closing) :
    ExitMoves c.ledger c'.ledger := by
  have hcalled : ExitMove c.ledger (c.flattening lands pos.mint).ledger := .flatten _ hpos hstate
  refine .head hcalled ?_
  cases h with
  | called _ => exact .refl
  | closing hq _ hopen _ => exact .single (.closing hq hopen)
  | @closed q hq hmint hstate hlanded =>
      have hlanded : Called (c.flattening lands pos.mint).ledger .flatten q.mint true := by
        rw [hmint, ← hlanded]
        exact called_log c.ledger .flatten pos.mint (lands .flatten pos.mint c.exits.length)
      rcases hstate with hopen | hclosing
      · -- through `CLOSING`
        refine .head (.closing hq hopen) ?_
        have hregistered : (c.fsmRegistry.upsert q.asClosing).get? q.mint = some q.asClosing :=
          Table.get?_upsert_self _ _
        have hlast := ExitMove.closed (l := (c.flattening lands pos.mint).ledger.save q.asClosing)
          (q := q.asClosing) hregistered rfl hlanded
        have hpositions : (c.store.positions.upsert q.asClosing).remove q.mint =
            c.store.positions.remove q.mint := Table.remove_upsert _ _
        have hregistry : (c.fsmRegistry.upsert q.asClosing).upsert q.asClosed =
            c.fsmRegistry.upsert q.asClosed :=
          Table.upsert_upsert (a := q.asClosing) (b := q.asClosed) rfl _
        refine .single ?_
        show ExitMove _ (Ledger.mk (c.store.positions.remove q.mint) _
          (c.fsmRegistry.upsert q.asClosed) _ _)
        rw [← hpositions, ← hregistry]
        exact hlast
      · exact .single (.closed hq hclosing hlanded)

/-- **Flattening one position.** -/
theorem flattenPosition_moves (lands : Answers)
    (hpos : c.store.positions.get? pos.mint = some pos) :
    ExitMoves c.ledger (c.flattenPosition lands pos).ledger := by
  unfold FastLoop.flattenPosition
  split
  · exact abandon_moves hpos (by assumption)
  · exact (sold lands (.inl (by assumption))).moves hpos (.inl (by assumption))
  · exact (sold lands (.inr (by assumption))).moves hpos (.inr (by assumption))
  · exact .refl

theorem Sold.untouched {lands : Answers} {c' : FastLoop} {m : String} (h : Sold lands c pos c')
    (hne : m ≠ pos.mint) : Untouched m c c' := by
  cases h with
  | called _ => exact ⟨rfl, rfl⟩
  | @closing q _ hmint _ _ =>
      have hne' : m ≠ q.asClosing.mint := hmint.symm ▸ hne
      exact ⟨Table.get?_upsert_of_ne hne', Table.get?_upsert_of_ne hne'⟩
  | @closed q _ hmint _ _ =>
      have hne' : m ≠ q.asClosed.mint := hmint.symm ▸ hne
      exact ⟨Table.get?_remove_of_ne hne', Table.get?_upsert_of_ne hne'⟩

theorem flattenPosition_untouched (lands : Answers) {m : String} (h : m ≠ pos.mint) :
    Untouched m c (c.flattenPosition lands pos) := by
  unfold FastLoop.flattenPosition
  split
  · exact abandon_untouched h
  · exact (sold lands (.inl (by assumption))).untouched h
  · exact (sold lands (.inr (by assumption))).untouched h
  · exact ⟨rfl, rfl⟩

/-- Positions of distinct mints are flattened one after the other: each is still in the store at its
turn. -/
theorem flattenAll_induction {P : FastLoop → Prop} (lands : Answers) {rows : List Position}
    (hdistinct : (rows.map Position.mint).Nodup)
    (hrows : ∀ pos ∈ rows, c.store.positions.get? pos.mint = some pos) (hc : P c)
    (hstep : ∀ c, ∀ pos ∈ rows, c.store.positions.get? pos.mint = some pos → P c →
      P (c.flattenPosition lands pos)) :
    P (rows.foldl (FastLoop.flattenPosition lands) c) := by
  induction rows generalizing c with
  | nil => exact hc
  | cons first rows ih =>
      rw [List.map_cons, List.nodup_cons] at hdistinct
      refine ih hdistinct.2 (fun pos hpos => ?_)
        (hstep c first List.mem_cons_self (hrows first List.mem_cons_self) hc)
        fun c pos hpos => hstep c pos (List.mem_cons_of_mem first hpos)
      have hne : pos.mint ≠ first.mint := by
        intro heq
        exact hdistinct.1 (heq ▸ List.mem_map_of_mem hpos)
      rw [(flattenPosition_untouched lands hne).position]
      exact hrows pos (List.mem_cons_of_mem first hpos)

theorem get?_of_mem {t : Table Position.mint} (h : pos ∈ t.rows) : t.get? pos.mint = some pos :=
  Table.get?_eq_some.2 ⟨h, rfl⟩

/-- **Flattening all positions.** -/
theorem emergencyFlattenAll_moves (lands : Answers) (c : FastLoop) :
    ExitMoves c.ledger (c.emergencyFlattenAll lands).ledger := by
  unfold FastLoop.emergencyFlattenAll
  refine flattenAll_induction (P := fun c' => ExitMoves c.ledger c'.ledger) lands
    c.store.positions.distinct (fun pos hpos => get?_of_mem hpos) .refl ?_
  intro c' pos _ hpos hmoves
  exact hmoves.trans (flattenPosition_moves lands hpos)

theorem flattenOne_moves (lands : Answers) (c : FastLoop) (mint : String) :
    ExitMoves c.ledger (c.flattenOne lands mint).2.ledger := by
  unfold FastLoop.flattenOne
  split
  · exact .refl
  · rename_i pos hload
    have hmint := mint_of_get? hload
    exact flattenPosition_moves lands (hmint.symm ▸ hload)

/-- What has become of a registered position is registered, and has entered. -/
def Registered (m : String) (c : FastLoop) : Prop :=
  ∃ q, c.fsmRegistry.get? m = some q ∧ q.fsmState ≠ .entering

theorem Sold.registered {lands : Answers} {c' : FastLoop} (h : Sold lands c pos c')
    (hm : Registered pos.mint c) : Registered pos.mint c' := by
  cases h with
  | called _ => exact hm
  | @closing q _ hmint _ _ =>
      exact ⟨q.asClosing, (Table.get?_upsert _ _ _).trans (if_pos hmint.symm), nofun⟩
  | @closed q _ hmint _ _ =>
      exact ⟨q.asClosed, (Table.get?_upsert _ _ _).trans (if_pos hmint.symm), nofun⟩

/-- A flatten keeps a position that has entered registered. -/
theorem emergencyFlattenAll_registered (lands : Answers) {m : String} (hm : Registered m c)
    (hpos : ∀ pos, c.store.positions.get? m = some pos → pos.fsmState ≠ .entering) :
    Registered m (c.emergencyFlattenAll lands) := by
  refine flattenAll_induction lands c.store.positions.distinct
    (fun pos hpos => get?_of_mem hpos) hm fun c' pos hrow _ hc' => ?_
  by_cases hmint : m = pos.mint
  · subst hmint
    have hentered := hpos pos (get?_of_mem hrow)
    unfold FastLoop.flattenPosition
    split
    · exact absurd (by assumption) hentered
    · exact (sold lands (.inl (by assumption))).registered hc'
    · exact (sold lands (.inr (by assumption))).registered hc'
    · exact hc'
  · obtain ⟨q, hq, hstate⟩ := hc'
    exact ⟨q, (flattenPosition_untouched lands hmint).registered.trans hq, hstate⟩

end Controller
end AatsSniper

/-
# The books of a position

`Books` keep what the breaker cannot see: the price a position was bought at, what is
still held of it and what the rest brought.  `Books.pnl` is what was made on the part
that is sold, and on the rest at the last mark.

The breaker is told of the whole position instead, from the entry price of the engine.
The two agree where they must (`breaker_pnl_is_position_pnl`): while nothing has been sold
away from the mark, while the entry price is that of the fill, and where the tick values
the position at all.
-/

import AatsSniper.Controller.Restart
import AatsSniper.Controller.Told
import Mathlib.Tactic.Linarith
import Mathlib.Tactic.Ring

namespace AatsSniper
namespace Controller

open Exit (ExitState)

variable {c : FastLoop} {q : Position} {m mint : String} {fill : FillResult}

/-- The books of a position: its price and tokens, the share of them that is still held, what the
rest brought, the last mark, and what the breaker has taken in how many ticks. -/
structure Books where
  price : ℚ
  tokens : ℤ
  held : ℚ
  proceeds : ℚ
  mark : ℚ
  recorded : ℤ
  ticks : ℕ

namespace Books

/-- Bought at a price. -/
def opened (price : ℚ) (tokens : ℤ) : Books where
  price := price
  tokens := tokens
  held := 1
  proceeds := 0
  mark := price
  recorded := 0
  ticks := 0

/-- Bought by a fill. -/
def ofFill (fill : FillResult) : Books :=
  opened ((FastLoop.entryPrice fill).toOption.getD 0) fill.tokensOut

/-- An exit that lands sells its fraction of what is held. -/
def sold (price : ℚ) (b : Books) (call : ExitCall) : Books :=
  if call.landed = true then
    let share := b.held * call.fractionBps / 10000
    { b with held := b.held - share, proceeds := b.proceeds + share * b.tokens * price }
  else b

/-- What was made on what is sold, and on what is held at a mark. -/
def pnlAt (b : Books) (mark : ℚ) : ℚ :=
  (b.proceeds - (1 - b.held) * b.tokens * b.price) + b.held * b.tokens * (mark - b.price)

/-- The position's PnL, at the last mark. -/
def pnl (b : Books) : ℚ := b.pnlAt b.mark

/-- The breaker has recorded it, up to a lamport for each tick. -/
def Balanced (b : Books) : Prop := |(b.recorded : ℚ) - b.pnl| ≤ b.ticks

/-- What is told of the whole position, from an entry price, is off by this: the difference of the
prices, and what was sold at what it would bring now. -/
def drift (b : Books) (entry mark : ℚ) : ℚ :=
  b.tokens * (b.price - entry) + ((1 - b.held) * b.tokens * mark - b.proceeds)

variable {b : Books}

/-- Selling at a mark makes nothing there. -/
theorem sold_pnlAt (price : ℚ) (b : Books) (call : ExitCall) :
    (b.sold price call).pnlAt price = b.pnlAt price := by
  unfold sold
  split_ifs
  · unfold pnlAt
    ring
  · rfl

/-- Exits at one price leave the PnL there, and the record. -/
theorem foldl_sold (price : ℚ) (exits : List ExitCall) (b : Books) :
    let b' := exits.foldl (sold price) b
    b'.pnlAt price = b.pnlAt price ∧ b'.price = b.price ∧ b'.tokens = b.tokens ∧ b'.mark = b.mark ∧
      b'.recorded = b.recorded ∧ b'.ticks = b.ticks := by
  refine List.foldlRecOn exits (sold price) (motive := fun b' : Books =>
    b'.pnlAt price = b.pnlAt price ∧ b'.price = b.price ∧ b'.tokens = b.tokens ∧ b'.mark = b.mark ∧
      b'.recorded = b.recorded ∧ b'.ticks = b.ticks) ⟨rfl, rfl, rfl, rfl, rfl, rfl⟩ ?_
  rintro b' ⟨hpnl, hprice, htokens, hmark, hrecorded, hticks⟩ call -
  rw [sold_pnlAt]
  unfold sold
  split_ifs
  · exact ⟨hpnl, hprice, htokens, hmark, hrecorded, hticks⟩
  · exact ⟨hpnl, hprice, htokens, hmark, hrecorded, hticks⟩

/-- The whole position, less the drift. -/
theorem pnlAt_eq (b : Books) (entry mark : ℚ) :
    b.pnlAt mark = b.tokens * (mark - entry) - b.drift entry mark := by
  unfold pnlAt drift
  ring

/-- Another mark is worth as much more as is held. -/
theorem pnlAt_sub (b : Books) (mark mark' : ℚ) :
    b.pnlAt mark' - b.pnlAt mark = b.held * b.tokens * (mark' - mark) := by
  unfold pnlAt
  ring

theorem ofFill_balanced (fill : FillResult) : (ofFill fill).Balanced := by
  have hpnl : (ofFill fill).pnl = 0 := by
    unfold pnl pnlAt ofFill opened
    ring
  unfold Balanced
  rw [hpnl]
  simp [ofFill, opened]

end Books

section Runs

variable {E : Type}

/-- What the exits of a mint in a call sell at: the mark of the tick, or the last one. -/
def exitPrice (m : String) (b : Books) : ControllerOp E → ℚ
  | .tick input => (input.marks m).getD b.mark
  | _ => b.mark

/-- The books after a call: its exits are filled, and a tick is marked and recorded. -/
def Books.after (cfg : FastConfig) (m : String) (c c' : FastLoop) (b : Books)
    (op : ControllerOp E) : Books :=
  let exits := (c'.exits.drop c.exits.length).filter fun call => call.mint = m
  let b' := exits.foldl (Books.sold (exitPrice m b op)) b
  match op with
  | .tick input =>
      { b' with
        mark := exitPrice m b op
        recorded := b'.recorded + totalOf m (c.recordedByTick cfg input)
        ticks := b'.ticks + 1 }
  | _ => b'

/-- The step of a run with the books of one mint. -/
def bookedStep (cfg : ControllerConfig E) (m : String) (x : FastLoop × Books)
    (op : ControllerOp E) : Except FastError (FastLoop × Books) :=
  .ok (next cfg x.1 op, x.2.after cfg.fast m x.1 (next cfg x.1 op) op)

/-- The call opens the mint, which has been entered again. -/
def Reopens (m : String) (c : FastLoop) : ControllerOp E → Prop
  | .reconcileFill _ mint fill => mint = m ∧ fill.landed = true ∧
      ∃ pos, c.store.loadPosition m = some pos ∧ pos.fsmState = .entering
  | .startup _ venue => (∃ fill, venue.Filled m fill) ∧
      ∃ pos, c.store.loadPosition m = some pos ∧ pos.fsmState = .entering
  | _ => False

/-- A valuation that the books bear out, up to a lamport for each tick before; the difference of the
prices has no more digits than a `Decimal`, and the year is at most 9999. -/
structure BorneOut (b : Books) (input : TickInput) (exitState : ExitState) (mark : ℚ) : Prop where
  drift : |b.drift exitState.entryFillPrice mark| ≤ b.ticks
  fits : Decimal.Fits (mark - exitState.entryFillPrice)
  small : |(mark - exitState.entryFillPrice) * b.tokens| < 10 ^ 28
  dated : input.blockTimeMs < Breaker.endOfYear9999

/-- A tick values the position rightly, or what is held of it is worth as much as before. -/
def KeepsBooks (cfg : FastConfig) (m : String) (x : FastLoop × Books) : ControllerOp E → Prop
  | .tick input =>
      (∀ q mark exitState, q.mint = m → Values cfg input x.1 q mark exitState →
        BorneOut x.2 input exitState mark) ∧
      ((∀ q mark exitState, q.mint = m → ¬ Values cfg input x.1 q mark exitState) →
        ∀ mark, input.marks m = some mark → |x.2.held * x.2.tokens * (mark - x.2.mark)| ≤ 1)
  | _ => True

/-- The touches of a startup. -/
def Touch.AtStartup : Touch → Prop
  | .reboot => True
  | .giveUp => True
  | .vanish => True
  | .fill _ => True
  | _ => False

/-- A startup does not open what is not being entered. -/
theorem HoldingMoves.shows_at_startup {cfg : FastConfig} {tokens unrealized : ℤ} {v v' : Holding}
    (h : HoldingMoves cfg m (fun t _ => t.AtStartup) v v')
    (hnot : ∀ p, v.position = some p → p.fsmState ≠ .entering) (hv : v.Shows tokens unrealized) :
    v'.Shows tokens unrealized := by
  refine (h.invariant (P := fun v : Holding => v.Shows tokens unrealized ∧
    ∀ p, v.position = some p → p.fsmState ≠ .entering) ⟨hv, hnot⟩ ?_).1
  rintro t v v' ⟨hv, hnot⟩ ht hmove
  cases hmove with
  | reboot => exact ⟨⟨hv.stored, of_none_eq_some⟩, hnot⟩
  | abandon hpos hentering _ => exact absurd hentering (hnot _ hpos)
  | fail hpos hentering _ => exact absurd hentering (hnot _ hpos)
  | vanish _ => exact ⟨⟨of_none_eq_some, hv.registered⟩, of_none_eq_some⟩
  | fill hpos hentering _ _ _ => exact absurd hentering (hnot _ hpos)
  | adopt _ _ => exact ht.elim
  | drop _ => exact ht.elim
  | step _ _ _ _ => exact ht.elim
  | value _ _ _ => exact ht.elim
  | scaleOut _ _ => exact ht.elim
  | exit _ => exact ht.elim
  | disarm _ => exact ht.elim
  | closing _ _ => exact ht.elim
  | closed _ _ => exact ht.elim
  | enter _ => exact ht.elim
  | blown => exact ht.elim

variable {cfg : ControllerConfig E}

/-- **A call that is no tick** leaves what the position shows, unless it opens the mint. -/
theorem next_shows {op : ControllerOp E} (htick : ∀ input, op ≠ .tick input)
    (hsame : ¬ Reopens m c op) {tokens unrealized : ℤ} (h : (c.holding m).Shows tokens unrealized) :
    ((next cfg c op).holding m).Shows tokens unrealized := by
  cases op with
  | tick input => exact absurd rfl (htick input)
  | processEvent call =>
      have hmoves : HoldingMoves cfg.fast m (fun t _ => t.Quiet) (c.holding m)
          ((next cfg c (.processEvent call)).holding m) :=
        processEvent_holdings cfg c call fun _ _ _ => trivial
      exact hmoves.shows h
  | reconcileFill now mint fill =>
      by_cases hentering : ∀ pos, c.store.loadPosition mint = some pos → pos.fsmState ≠ .entering
      · rw [show next cfg c (.reconcileFill now mint fill) = c from reconcileFill_ignored hentering]
        exact h
      · push Not at hentering
        have hmoves : HoldingMoves cfg.fast m (fun t _ => t.Quiet) (c.holding m)
            ((c.reconcileFill cfg.fast now mint fill).2.holding m) := by
          refine (reconciled cfg.fast now fill c mint).holdings (fun _ _ => trivial) ?_
          rintro rfl hlanded
          exact hsame ⟨rfl, hlanded, hentering⟩
        exact hmoves.shows h
  | continuousReconcileTick now currentSlot =>
      have hmoves : HoldingMoves cfg.fast m (fun t _ => t.Quiet) (c.holding m)
          ((continuousReconcileTick cfg now currentSlot c).holding m) :=
        continuousReconcileTick_holdings cfg now currentSlot c fun _ => trivial
      exact hmoves.shows h
  | startup now venue =>
      by_cases hfilled : ∃ fill, venue.Filled m fill
      · have hmoves : HoldingMoves cfg.fast m (fun t _ => t.AtStartup) (c.holding m)
            ((startupReconcile cfg now venue c.reboot).2.holding m) :=
          startupReconcile_holdings cfg now venue c trivial (fun _ => trivial) (fun _ => trivial)
            fun _ _ _ => trivial
        exact hmoves.shows_at_startup (fun p hp hentering => hsame ⟨hfilled, p, hp, hentering⟩) h
      · have hmoves : HoldingMoves cfg.fast m (fun t _ => t.Quiet) (c.holding m)
            ((startupReconcile cfg now venue c.reboot).2.holding m) :=
          startupReconcile_holdings cfg now venue c trivial (fun _ => trivial) (fun _ => trivial)
            fun fill _ hfill => absurd ⟨fill, hfill⟩ hfilled
        exact hmoves.shows h
  | flattenOne lands mint =>
      have hmoves : HoldingMoves cfg.fast m (fun t _ => t.Quiet) (c.holding m)
          ((c.flattenOne lands mint).2.holding m) :=
        flattenOne_holdings lands c mint fun _ => ⟨trivial, trivial⟩
      exact hmoves.shows h
  | emergencyFlattenAll lands =>
      have hmoves : HoldingMoves cfg.fast m (fun t _ => t.Quiet) (c.holding m)
          ((c.emergencyFlattenAll lands).holding m) :=
        emergencyFlattenAll_holdings lands c ⟨trivial, trivial⟩
      exact hmoves.shows h

/-- What the tick tells of the position. -/
theorem BorneOut.recorded {b : Books} {input : TickInput} {exitState : ExitState} {mark : ℚ}
    (h : BorneOut b input exitState mark) (htokens : q.tokensOutBase = b.tokens) :
    |(FastLoop.unrealizedPnl q exitState mark : ℚ) - b.pnlAt mark| ≤ b.ticks + 1 := by
  have hexact : FastLoop.unrealizedPnl q exitState mark =
      truncate (Decimal.round ((mark - exitState.entryFillPrice) * b.tokens)) := by
    unfold FastLoop.unrealizedPnl Decimal.mul Decimal.sub
    rw [Decimal.round_eq_self h.fits, htokens]
  have hround := Decimal.truncate_round h.small
  have hdrift := h.drift
  rw [hexact, b.pnlAt_eq exitState.entryFillPrice]
  rw [abs_le] at hround hdrift ⊢
  constructor
  · linarith
  · linarith

/-- Where nothing is valued the PnL is worth a lamport more or less. -/
theorem pnlAt_near {b : Books} {input : TickInput}
    (h : ∀ mark, input.marks m = some mark → |b.held * b.tokens * (mark - b.mark)| ≤ 1) :
    |b.pnlAt ((input.marks m).getD b.mark) - b.pnl| ≤ 1 := by
  unfold Books.pnl
  rw [Books.pnlAt_sub]
  cases hmark : input.marks m with
  | none => simp
  | some mark => exact h mark hmark

/-- **A tick** keeps the books balanced. -/
theorem tick_balanced {cfg : FastConfig} {input : TickInput} {b : Books} {c' : FastLoop}
    (hkeeps : KeepsBooks cfg m (c, b) (.tick input : ControllerOp E))
    (h : (c.holding m).Shows b.tokens b.recorded) (hbalanced : b.Balanced) :
    let b' := b.after cfg m c c' (.tick input : ControllerOp E)
    ((c.tick cfg input).2.holding m).Shows b'.tokens b'.recorded ∧ b'.Balanced := by
  obtain ⟨hright, hnear⟩ := hkeeps
  let price := (input.marks m).getD b.mark
  let exits := (c'.exits.drop c.exits.length).filter fun call => call.mint = m
  obtain ⟨hpnl, -, htokens, -, hrecorded, hticks⟩ := Books.foldl_sold price exits b
  let total := totalOf m (c.recordedByTick cfg input)
  have hshows : ((c.tick cfg input).2.holding m).Shows b.tokens (b.recorded + total) := by
    refine tick_shows (fun q mark exitState hmint hvalues => ?_) h
    exact (hright q mark exitState hmint hvalues).dated
  -- the PnL at the mark is that of before, whatever is sold there
  have hbooks : |((b.recorded + total : ℤ) : ℚ) - b.pnlAt price| ≤ ((b.ticks + 1 : ℕ) : ℚ) := by
    rw [Nat.cast_add, Nat.cast_one]
    by_cases hvalues : ∃ q mark exitState, q.mint = m ∧ Values cfg input c q mark exitState
    · obtain ⟨q, mark, exitState, rfl, hvalues⟩ := hvalues
      have hborne := hright q mark exitState rfl hvalues
      obtain ⟨htokens, hvalue⟩ := hvalues.recorded hborne.dated h
      obtain ⟨s, -, hvalued⟩ := hvalues
      obtain ⟨decision, hjudged⟩ := hvalued.judged
      have hprice : price = mark := congrArg (fun o : Option ℚ => o.getD b.mark) hjudged.marked
      rw [hprice, hvalue]
      exact hborne.recorded htokens
    · have hnot : ∀ q mark exitState, q.mint = m → ¬ Values cfg input c q mark exitState :=
        fun q mark exitState hmint hv => hvalues ⟨q, mark, exitState, hmint, hv⟩
      have htotal : total = 0 := totalOf_recordedByTick_of_not hnot
      have hclose : |b.pnlAt price - b.pnl| ≤ 1 := pnlAt_near (hnear hnot)
      have hbefore : |(b.recorded : ℚ) - b.pnl| ≤ b.ticks := hbalanced
      rw [htotal, add_zero]
      rw [abs_le] at hclose hbefore ⊢
      constructor
      · linarith
      · linarith
  refine ⟨?_, ?_⟩
  · show ((c.tick cfg input).2.holding m).Shows (exits.foldl (Books.sold price) b).tokens
      ((exits.foldl (Books.sold price) b).recorded + total)
    rw [htokens, hrecorded]
    exact hshows
  · show |(((exits.foldl (Books.sold price) b).recorded + total : ℤ) : ℚ) -
      (exits.foldl (Books.sold price) b).pnlAt price| ≤
        (((exits.foldl (Books.sold price) b).ticks + 1 : ℕ) : ℚ)
    rw [hrecorded, hticks, hpnl]
    exact hbooks

/-- **One call** keeps the books balanced. -/
theorem next_balanced {op : ControllerOp E} {b : Books} (hsame : ¬ Reopens m c op)
    (hkeeps : KeepsBooks cfg.fast m (c, b) op) (h : (c.holding m).Shows b.tokens b.recorded)
    (hbalanced : b.Balanced) :
    let b' := b.after cfg.fast m c (next cfg c op) op
    ((next cfg c op).holding m).Shows b'.tokens b'.recorded ∧ b'.Balanced := by
  obtain ⟨hpnl, -, htokens, hmark, hrecorded, hticks⟩ := Books.foldl_sold (exitPrice m b op)
    (((next cfg c op).exits.drop c.exits.length).filter fun call => call.mint = m) b
  by_cases htick : ∃ input, op = .tick input
  · obtain ⟨input, rfl⟩ := htick
    exact tick_balanced hkeeps h hbalanced
  · have hafter : b.after cfg.fast m c (next cfg c op) op =
        (((next cfg c op).exits.drop c.exits.length).filter fun call => call.mint = m).foldl
          (Books.sold b.mark) b := by
      cases op with
      | tick input => exact absurd ⟨input, rfl⟩ htick
      | _ => rfl
    have hprice : exitPrice m b op = b.mark := by
      cases op with
      | tick input => exact absurd ⟨input, rfl⟩ htick
      | _ => rfl
    rw [hprice] at hpnl htokens hmark hrecorded hticks
    dsimp only
    rw [hafter, htokens, hrecorded]
    refine ⟨next_shows (fun input heq => htick ⟨input, heq⟩) hsame h, ?_⟩
    unfold Books.Balanced Books.pnl
    rw [hrecorded, hticks, hmark, hpnl]
    exact hbalanced

/-- A position that has just opened shows its tokens. -/
theorem reconcileFill_opens {cfg : FastConfig} {now : ℤ}
    (hopened : (c.reconcileFill cfg now m fill).1 = .ok true) (hlanded : fill.landed = true) :
    ((c.reconcileFill cfg now m fill).2.holding m).Shows fill.tokensOut 0 := by
  unfold FastLoop.reconcileFill at hopened ⊢
  split
  · rename_i hnone
    rw [hnone] at hopened
    cases hopened
  · rename_i pos hpos
    rw [hpos] at hopened
    obtain rfl := mint_of_get? hpos
    dsimp only at hopened
    by_cases hentering : pos.fsmState = .entering
    · rw [if_pos hentering, if_pos hlanded] at hopened ⊢
      dsimp only at hopened ⊢
      rw [toOpen_eq] at hopened ⊢
      by_cases hstate : ((c.fsmRegistry.get? pos.mint).getD pos).fsmState = .entering
      · rw [if_pos hstate]
        let q := (c.fsmRegistry.get? pos.mint).getD pos
        have hmint : q.mint = pos.mint := mint_of_getD c pos
        have hself : ∀ t : Table Position.mint, (t.upsert (q.filled fill)).get? pos.mint =
            some (q.filled fill) := fun t => (Table.get?_upsert _ _ _).trans (if_pos hmint.symm)
        have hsaved : ((c.filled q fill).holding pos.mint).Shows fill.tokensOut 0 :=
          .of_position (hself _) (hself _) ⟨rfl, rfl⟩
        have htracked := holding_track cfg (c.filled q fill) (q.filled fill) fill pos.mint
        rw [if_pos (show pos.mint = (q.filled fill).mint from hmint.symm)] at htracked
        show ((FastLoop.track cfg (c.filled q fill) (q.filled fill) fill).2.holding pos.mint).Shows _ _
        rw [htracked]
        exact hsaved.tracked cfg pos.mint _ fill
      · rw [if_neg hstate] at hopened
        cases hopened
    · rw [if_neg hentering] at hopened
      cases hopened

/-- **The breaker records the PnL of the position**, up to a lamport for each tick, after every call of
a run over one position, if every tick with a mark values it where it is held, at the entry price of
its fill, and what was sold would bring as much at the mark. -/
theorem breaker_pnl_is_position_pnl (cfg : ControllerConfig E) (c₀ : FastLoop) (now : ℤ)
    (m : String) (fill : FillResult) (hlanded : fill.landed = true)
    (hopened : (c₀.reconcileFill cfg.fast now m fill).1 = .ok true) (ops : List (ControllerOp E))
    (hsame : EveryStep (bookedStep cfg m) (fun _ x op => ¬ Reopens m x.1 op)
      ((c₀.reconcileFill cfg.fast now m fill).2, .ofFill fill) ops)
    (hkeeps : EveryStep (bookedStep cfg m) (fun _ x op => KeepsBooks cfg.fast m x op)
      ((c₀.reconcileFill cfg.fast now m fill).2, .ofFill fill) ops) :
    EveryState (bookedStep cfg m) (fun _ x => x.2.Balanced)
      ((c₀.reconcileFill cfg.fast now m fill).2, .ofFill fill) ops := by
  have hboth : EveryStep (bookedStep cfg m)
      (fun _ x op => ¬ Reopens m x.1 op ∧ KeepsBooks cfg.fast m x op)
      ((c₀.reconcileFill cfg.fast now m fill).2, .ofFill fill) ops :=
    fun before op after x hsplit hrun =>
      ⟨hsame before op after x hsplit hrun, hkeeps before op after x hsplit hrun⟩
  have hall : EveryState (bookedStep cfg m) (fun _ x =>
      (x.1.holding m).Shows x.2.tokens x.2.recorded ∧ x.2.Balanced)
      ((c₀.reconcileFill cfg.fast now m fill).2, .ofFill fill) ops := by
    refine hboth.everyState ⟨reconcileFill_opens hopened hlanded, Books.ofFill_balanced fill⟩ ?_
    rintro _ ⟨c, b⟩ op x ⟨hshows, hbalanced⟩ ⟨hsame, hkeeps⟩ hstep
    obtain rfl := Except.ok.inj hstep
    exact next_balanced hsame hkeeps hshows hbalanced
  exact fun before after x hsplit hrun => (hall before after x hsplit hrun).2

end Runs

/-- The loop of a position of 1000 tokens, and its books. -/
def booked (fill : FillResult) : FastLoop × Books :=
  (((waiting none).reconcileFill plainController.fast 100 "m" fill).2, .ofFill fill)

/-- The tick comes to the position. -/
theorem comesTo_booked : ComesTo plainController.fast (markedTick (6 / 5)) (booked sampleFill).1 "m"
    ⟨(booked sampleFill).1.synced plainController.fast, []⟩ := by
  obtain ⟨_, hsync, -⟩ := exists_ok_of_any
    (x := ((booked sampleFill).1.syncRegistry plainController.fast).1) (p := fun _ => true)
    (by decide +kernel)
  exact ⟨hsync, [], [], by decide +kernel, rfl⟩

theorem breaker_pnl_is_position_pnl_valued :
    EveryState (bookedStep plainController "m") (fun _ x => x.2.Balanced) (booked sampleFill)
      [.tick (markedTick (6 / 5))] := by
  obtain ⟨opens, hopened, rfl⟩ := exists_ok_of_any (p := fun opens => opens)
    (x := ((waiting none).reconcileFill plainController.fast 100 "m" sampleFill).1)
    (by decide +kernel)
  refine breaker_pnl_is_position_pnl plainController (waiting none) 100 "m" sampleFill rfl hopened _
    (everyStep_singleton.2 nofun) (everyStep_singleton.2 ⟨?_, ?_⟩)
  · rintro q mark exitState hmint ⟨s, ⟨-, before, after, hsplit, hrun⟩, ⟨⟨decision, hjudged⟩, -, -⟩⟩
    have hrows : (((booked sampleFill).1.synced plainController.fast).fsmRegistry.rows.map
        Position.mint).length = 1 := by decide +kernel
    obtain rfl : before = [] := by
      have hlength := hrows.symm.trans (congrArg List.length hsplit)
      rw [List.length_append, List.length_cons] at hlength
      exact List.eq_nil_of_length_eq_zero (by omega)
    obtain ⟨-, rfl⟩ := Prod.mk.inj hrun
    have htracked : ((booked sampleFill).1.synced plainController.fast).exitStates "m" =
        some exitState := hmint ▸ hjudged.tracked
    have hprices : (((booked sampleFill).1.synced plainController.fast).exitStates "m").all
        (fun exitState => exitState.entryFillPrice = 1) = true := by decide +kernel
    rw [htracked] at hprices
    have hprice : exitState.entryFillPrice = 1 := of_decide_eq_true hprices
    obtain rfl : 6 / 5 = mark := Option.some.inj hjudged.marked
    refine ⟨?_, ?_, ?_, by decide +kernel⟩
    · rw [hprice]
      decide +kernel
    · rw [hprice]
      exact ⟨2, -1, by norm_num, by norm_num⟩
    · rw [hprice]
      decide +kernel
  · intro hnot
    have htold : (((booked sampleFill).1.synced plainController.fast).told plainController.fast
        (markedTick (6 / 5)) "m").isSome = true := by decide +kernel
    obtain ⟨delta, htold⟩ := Option.isSome_iff_exists.1 htold
    obtain ⟨q, mark, exitState, hmint, hvalued, -⟩ := valued_of_told htold
    exact absurd ⟨_, hmint ▸ comesTo_booked, hvalued⟩ (hnot q mark exitState hmint)

/-- A rung sells 30 % at 1.5, and the rest is marked at 1.3: the breaker has 300 of the 360 lamports.
And a position bought at 1.2 for a budget of 1000 lamports is entered anew at 1 by a restart. -/
theorem sold_at_a_better_mark :
    ¬ EveryState (bookedStep plainController "m") (fun _ x => x.2.Balanced) (booked sampleFill)
      [.tick (markedTick (3 / 2)), .tick (markedTick (13 / 10))] ∧
    ¬ EveryState (bookedStep plainController "m") (fun _ x => x.2.Balanced)
      (booked { sampleFill with effectivePriceDecimal := .decimal (6 / 5) })
      [.startup 200 ⟨fun _ _ => none, ["m"]⟩, .tick (markedTick (6 / 5))] := by
  constructor
  · intro h
    have hbalanced := h [.tick (markedTick (3 / 2)), .tick (markedTick (13 / 10))] [] _ rfl rfl
    revert hbalanced
    unfold Books.Balanced
    decide +kernel
  · intro h
    have hbalanced := h [.startup 200 ⟨fun _ _ => none, ["m"]⟩, .tick (markedTick (6 / 5))] [] _
      rfl rfl
    revert hbalanced
    unfold Books.Balanced
    decide +kernel

end Controller
end AatsSniper

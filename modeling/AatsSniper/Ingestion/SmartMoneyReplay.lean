/-
# Smart-money events under replay

A run of a smart-money feed: the start-up snapshot, then the account writes in the order of their
(slot, write version), and at any point a reconnect after which some suffix of what
was delivered comes again (`SmartMoneyRun.step`).

`Exact` is what such a feed is for: of every (wallet, mint, slot) one event where the wallet's
closing holding of the mint differs from the one before, with that difference, and no
other.  `Attributable` says of one step that it does not break this.
-/

import AatsSniper.Ingestion.SmartMoney
import AatsSniper.Lib.Holdings
import AatsSniper.Lib.Run
import Mathlib.Data.Set.Card

namespace AatsSniper
namespace Ingestion

/-! ### What a turn does -/

/-- The write of a tracked wallet's token account: whose, of what mint, and the amount. -/
def RawAccountUpdate.tokenWrite (walletAddresses : List String) (acc : RawAccountUpdate) :
    Option ((String × String) × ℕ) :=
  if acc.pubkey ∈ walletAddresses then none
  else
    match decodeSplTokenAccount acc.data with
    | none => none
    | some (mint, owner, amount) =>
        if owner ∈ walletAddresses then some ((owner, mint), amount) else none

/-- The amount remembered of a (wallet, mint). -/
def SmartMoneyFeed.remembered (feed : SmartMoneyFeed) (key : String × String) : Option ℕ :=
  (feed.backend.tokenBaseline.get? key).map Prod.snd

/-- A token write that makes no event. -/
def SmartMoneyFeed.Quiet (feed : SmartMoneyFeed) (resolver : Option BlockTimeResolver)
    (acc : RawAccountUpdate) (key : String × String) (amount : ℕ) : Prop :=
  acc.isStartup = true ∨ feed.remembered key = none ∨ feed.remembered key = some amount ∨
    (key.1, key.2, acc.slot) ∈ feed.stream.seen ∨
    ∀ time, fillBlockTime resolver acc.slot = some time → time ≤ 0

section Turn

variable {config : SmartWalletConfig} {first : List FillKey → FillKey} {feed : SmartMoneyFeed}
  {resolver : Option BlockTimeResolver} {nowMs : ℤ} {acc : RawAccountUpdate}
  {wallets : List String} {key : String × String} {amount : ℕ}

theorem toWalletUpdate_of_none {backend : GeyserSmartWalletBackend}
    (h : acc.tokenWrite wallets = none) :
    (backend.toWalletUpdate resolver nowMs acc wallets).1 = none := by
  unfold RawAccountUpdate.tokenWrite at h
  unfold GeyserSmartWalletBackend.toWalletUpdate
  by_cases hwallet : acc.pubkey ∈ wallets
  · rw [if_pos hwallet]
  · rw [if_neg hwallet] at h ⊢
    cases hdata : decodeSplTokenAccount acc.data with
    | none => rfl
    | some decoded =>
        obtain ⟨mint, owner, amount⟩ := decoded
        rw [hdata] at h
        by_cases howner : owner ∈ wallets
        · simp [howner] at h
        · simp [howner]

/-- The update of a token write that is no first one and moves what is remembered by `delta`. -/
def RawAccountUpdate.walletUpdate (acc : RawAccountUpdate) (resolver : Option BlockTimeResolver)
    (nowMs : ℤ) (key : String × String) (delta : ℤ) : RawWalletUpdate where
  wallet := key.1
  mint := key.2
  fillSlot := acc.slot
  fillBlockTimeMs := fillBlockTime resolver acc.slot
  observationSlot := acc.slot
  observationWallMs := nowMs
  isBuy := decide (0 < delta)
  solDeltaLamports := 0
  tokenDeltaBase := |delta|
  source := "accounts_subscribe"

/-- A token write against what is remembered. -/
theorem toWalletUpdate_of_some {backend : GeyserSmartWalletBackend}
    (h : acc.tokenWrite wallets = some (key, amount)) :
    (backend.toWalletUpdate resolver nowMs acc wallets).1 =
      match backend.tokenBaseline.get? key with
      | none => none
      | some (_, prior) =>
          if acc.isStartup then none
          else if (amount : ℤ) - prior = 0 then none
          else some (acc.walletUpdate resolver nowMs key ((amount : ℤ) - prior)) := by
  unfold RawAccountUpdate.tokenWrite at h
  unfold GeyserSmartWalletBackend.toWalletUpdate
  by_cases hwallet : acc.pubkey ∈ wallets
  · rw [if_pos hwallet] at h
    cases h
  rw [if_neg hwallet] at h ⊢
  cases hdata : decodeSplTokenAccount acc.data with
  | none => simp [hdata] at h
  | some decoded =>
      obtain ⟨mint, owner, amount'⟩ := decoded
      simp only [hdata] at h
      split_ifs at h with howner
      cases h
      simp only [howner, not_true_eq_false, if_false]
      cases backend.tokenBaseline.get? (owner, mint) with
      | none => rfl
      | some row =>
          obtain ⟨-, prior⟩ := row
          dsimp only
          split_ifs <;> rfl

/-- A write that is not quiet differs from what is remembered. -/
theorem sub_ne_zero_of_loud {prior : ℕ} (hprior : feed.remembered key = some prior)
    (hloud : ¬feed.Quiet resolver acc key amount) : (amount : ℤ) - prior ≠ 0 := by
  intro hdelta
  have hsame : feed.remembered key = some amount := by
    rw [hprior]
    exact congrArg some (by omega)
  exact hloud (.inr (.inr (.inl hsame)))

variable (feed resolver nowMs) in
/-- A token write makes no update and is quiet, or makes one by its difference from the amount
remembered. -/
theorem update_of_write (h : acc.tokenWrite wallets = some (key, amount)) :
    ((feed.backend.toWalletUpdate resolver nowMs acc wallets).1 = none ∧
      feed.Quiet resolver acc key amount) ∨
    ∃ prior : ℕ, feed.remembered key = some prior ∧ acc.isStartup ≠ true ∧
      (amount : ℤ) - prior ≠ 0 ∧ (feed.backend.toWalletUpdate resolver nowMs acc wallets).1 =
        some (acc.walletUpdate resolver nowMs key ((amount : ℤ) - prior)) := by
  rw [toWalletUpdate_of_some h]
  cases hprior : feed.backend.tokenBaseline.get? key with
  | none =>
      have hnone : feed.remembered key = none := by simp [SmartMoneyFeed.remembered, hprior]
      exact .inl ⟨rfl, .inr (.inl hnone)⟩
  | some row =>
      obtain ⟨key', prior⟩ := row
      have hremembered : feed.remembered key = some prior := by
        simp [SmartMoneyFeed.remembered, hprior]
      dsimp only
      split_ifs with hstartup hdelta
      · exact .inl ⟨rfl, .inl hstartup⟩
      · have hsame : feed.remembered key = some amount := by
          rw [hremembered]
          exact congrArg some (by omega)
        exact .inl ⟨rfl, .inr (.inr (.inl hsame))⟩
      · exact .inr ⟨prior, hremembered, hstartup, hdelta, rfl⟩

/-- An update whose block time is not known. -/
theorem decode_pending {update : RawWalletUpdate}
    (h : ∀ time, update.fillBlockTimeMs = some time → time ≤ 0) : update.decode = .ok none := by
  unfold RawWalletUpdate.decode
  cases htime : update.fillBlockTimeMs with
  | none => rfl
  | some time => simp [h time htime]

/-- One whose block time is. -/
theorem decode_confirmed {update : RawWalletUpdate} {time : ℤ}
    (htime : update.fillBlockTimeMs = some time) (hpos : 0 < time)
    (hslot : update.fillSlot ≤ update.observationSlot) (hsol : 0 ≤ update.solDeltaLamports)
    (htoken : 0 ≤ update.tokenDeltaBase) :
    ∃ ev, update.decode = .ok (some ev) ∧ ev.wallet = update.wallet ∧ ev.mint = update.mint ∧
      ev.theirFillSlot = update.fillSlot ∧ ev.isBuy = update.isBuy ∧
      ev.tokenAmountBase = update.tokenDeltaBase := by
  have hlag : max 0 (update.observationSlot - update.fillSlot) =
      update.observationSlot - update.fillSlot := by omega
  unfold RawWalletUpdate.decode SmartMoneyEvent.postInit
  simp only [htime, if_neg (not_le.2 hpos), dif_pos hslot, dif_pos hlag, dif_pos hsol,
    dif_pos htoken, dif_pos (le_max_left 0 (update.observationWallMs - time))]
  exact ⟨_, rfl, rfl, rfl, rfl, rfl, rfl⟩

/-- An update through the stream: skipped, or made an event and remembered. -/
theorem handle_yields (stream : SmartWalletStream) (update : RawWalletUpdate)
    (hslot : update.fillSlot ≤ update.observationSlot) (hsol : 0 ≤ update.solDeltaLamports)
    (htoken : 0 ≤ update.tokenDeltaBase) :
    ((stream.handle first update).1 = none ∧ (stream.handle first update).2.seen = stream.seen ∧
      ((update.wallet, update.mint, update.fillSlot) ∈ stream.seen ∨
        ∀ time, update.fillBlockTimeMs = some time → time ≤ 0)) ∨
    ((update.wallet, update.mint, update.fillSlot) ∉ stream.seen ∧
      (∃ time, update.fillBlockTimeMs = some time ∧ 0 < time) ∧
      (stream.handle first update).2.seen =
        (seenFills first).see stream.seen (update.wallet, update.mint, update.fillSlot) ∧
      ∃ ev, (stream.handle first update).1 = some ev ∧ ev.wallet = update.wallet ∧
        ev.mint = update.mint ∧ ev.theirFillSlot = update.fillSlot ∧ ev.isBuy = update.isBuy ∧
        ev.tokenAmountBase = update.tokenDeltaBase) := by
  unfold SmartWalletStream.handle
  by_cases hseen : (update.wallet, update.mint, update.fillSlot) ∈ stream.seen
  · rw [if_pos hseen]
    exact .inl ⟨rfl, rfl, .inl hseen⟩
  rw [if_neg hseen]
  by_cases hpending : ∀ time, update.fillBlockTimeMs = some time → time ≤ 0
  · rw [decode_pending hpending]
    exact .inl ⟨rfl, rfl, .inr hpending⟩
  · obtain ⟨time, htime, hpos⟩ : ∃ time, update.fillBlockTimeMs = some time ∧ 0 < time := by
      simpa using hpending
    obtain ⟨ev, hdecode, hev⟩ := decode_confirmed htime hpos hslot hsol htoken
    rw [hdecode]
    exact .inr ⟨hseen, ⟨time, htime, hpos⟩, rfl, ev, rfl, hev⟩

/-- **What a turn yields.**  Either nothing, and then no token write but a quiet one came, or the
event of a token write that was not, with the difference from what was remembered; only
then does the stream remember another key. -/
theorem pull_yields (config : SmartWalletConfig) (first : List FillKey → FillKey)
    (feed : SmartMoneyFeed) (resolver : Option BlockTimeResolver) (nowMs : ℤ)
    (acc : RawAccountUpdate) :
    ((feed.pull config first resolver nowMs acc).1 = none ∧
      (feed.pull config first resolver nowMs acc).2.stream.seen = feed.stream.seen ∧
      (config.subscribes = true → ∀ key amount,
        acc.tokenWrite config.walletAddresses = some (key, amount) →
          feed.Quiet resolver acc key amount)) ∨
    ∃ key amount prior ev, (feed.pull config first resolver nowMs acc).1 = some ev ∧
      (feed.pull config first resolver nowMs acc).2.stream.seen =
        (seenFills first).see feed.stream.seen (key.1, key.2, acc.slot) ∧
      config.subscribes = true ∧ acc.tokenWrite config.walletAddresses = some (key, amount) ∧
      ¬feed.Quiet resolver acc key amount ∧ feed.remembered key = some prior ∧
      (∃ time, fillBlockTime resolver acc.slot = some time ∧ 0 < time) ∧
      ev.wallet = key.1 ∧ ev.mint = key.2 ∧ ev.theirFillSlot = acc.slot ∧
      ev.isBuy = decide (0 < (amount : ℤ) - prior) ∧
      ev.tokenAmountBase = |(amount : ℤ) - prior| := by
  unfold SmartMoneyFeed.pull
  by_cases hsub : config.subscribes = true
  swap
  · rw [if_neg hsub]
    exact .inl ⟨rfl, rfl, fun h => absurd h hsub⟩
  rw [if_pos hsub]
  rcases hupdate : feed.backend.toWalletUpdate resolver nowMs acc config.walletAddresses with
    ⟨update, backend⟩
  have hfirst : (feed.backend.toWalletUpdate resolver nowMs acc config.walletAddresses).1 =
      update := by rw [hupdate]
  by_cases hnone : acc.tokenWrite config.walletAddresses = none
  · rw [toWalletUpdate_of_none hnone] at hfirst
    subst hfirst
    refine .inl ⟨rfl, rfl, fun _ key amount h => ?_⟩
    rw [hnone] at h
    cases h
  obtain ⟨⟨key, amount⟩, hwrite⟩ := Option.ne_none_iff_exists'.1 hnone
  have hquiet (hq : feed.Quiet resolver acc key amount) (_ : config.subscribes = true) :
      ∀ key' amount', acc.tokenWrite config.walletAddresses = some (key', amount') →
        feed.Quiet resolver acc key' amount' := by
    intro key' amount' h
    rw [hwrite] at h
    cases h
    exact hq
  rcases update_of_write feed resolver nowMs hwrite with
    ⟨hmade, hq⟩ | ⟨prior, hremembered, hstartup, hdelta, hmade⟩
  · obtain rfl := hfirst.symm.trans hmade
    exact .inl ⟨rfl, rfl, hquiet hq⟩
  · obtain rfl := hfirst.symm.trans hmade
    rcases handle_yields feed.stream (acc.walletUpdate resolver nowMs key ((amount : ℤ) - prior))
        (le_refl acc.slot) (le_refl 0) (abs_nonneg _) with
      ⟨hyield, hseen, hskipped⟩ | ⟨hnew, ⟨time, htime, hpos⟩, hseen, ev, hyield, hev⟩
    · exact .inl ⟨hyield, hseen, hquiet (.inr (.inr (.inr hskipped)))⟩
    · refine .inr ⟨key, amount, prior, ev, hyield, hseen, hsub, hwrite, ?_, hremembered,
        ⟨time, htime, hpos⟩, hev⟩
      rintro (h | h | h | h | h)
      · exact hstartup h
      · rw [hremembered] at h
        cases h
      · rw [hremembered] at h
        cases h
        exact hdelta (sub_self _)
      · exact hnew h
      · exact absurd (h time htime) (not_le.2 hpos)

end Turn

/-! ### Runs -/

/-- The clock and the block-time resolver, as they answer at some moment. -/
structure Moment where
  nowMs : ℤ
  resolver : Option BlockTimeResolver

/-- Not later in the order of (slot, write version). -/
def RawAccountUpdate.notAfter (w acc : RawAccountUpdate) : Prop :=
  w.slot < acc.slot ∨ w.slot = acc.slot ∧ w.writeVersion ≤ acc.writeVersion

instance (w acc : RawAccountUpdate) : Decidable (w.notAfter acc) :=
  inferInstanceAs (Decidable (_ ∨ _))

/-- What the source of account writes does next. -/
inductive AccountDelivery
  | snapshot (moment : Moment) (acc : RawAccountUpdate)
  | live (moment : Moment) (acc : RawAccountUpdate)
  | reconnect (resumeAt : ℕ)
  | replayed (moment : Moment)

/-- A feed with what was delivered to it: the start-up snapshot, the account writes since, those of
both that are still to come again after a reconnect, and the events yielded. -/
structure SmartMoneyRun where
  snapshot : List RawAccountUpdate := []
  log : List RawAccountUpdate := []
  pending : List RawAccountUpdate := []
  feed : SmartMoneyFeed := {}
  emitted : List SmartMoneyEvent := []

variable {config : SmartWalletConfig} {first : List FillKey → FillKey}

/-- The feed pulls a write. -/
def SmartMoneyRun.deliver (config : SmartWalletConfig) (first : List FillKey → FillKey)
    (r : SmartMoneyRun) (moment : Moment) (acc : RawAccountUpdate) : SmartMoneyRun :=
  let (event, feed) := r.feed.pull config first moment.resolver moment.nowMs acc
  { r with feed := feed, emitted := r.emitted ++ event.toList }

/-- The write can be the next one of the snapshot. -/
def SmartMoneyRun.Starts (r : SmartMoneyRun) (acc : RawAccountUpdate) : Prop :=
  acc.isStartup = true ∧ r.log = [] ∧ r.pending = []

/-- The write can be the next one after the snapshot. -/
def SmartMoneyRun.Continues (r : SmartMoneyRun) (acc : RawAccountUpdate) : Prop :=
  acc.isStartup = false ∧ r.pending = [] ∧ ∀ w ∈ r.log, w.notAfter acc

instance (r : SmartMoneyRun) (acc : RawAccountUpdate) : Decidable (r.Starts acc) :=
  inferInstanceAs (Decidable (_ ∧ _))

instance (r : SmartMoneyRun) (acc : RawAccountUpdate) : Decidable (r.Continues acc) :=
  inferInstanceAs (Decidable (_ ∧ _))

/-- One delivery.  One that cannot come then is none. -/
def SmartMoneyRun.step (config : SmartWalletConfig) (first : List FillKey → FillKey)
    (r : SmartMoneyRun) : AccountDelivery → Except Empty SmartMoneyRun
  | .snapshot moment acc =>
      if r.Starts acc then
        .ok ({ r with snapshot := r.snapshot ++ [acc] }.deliver config first moment acc)
      else .ok r
  | .live moment acc =>
      if r.Continues acc then
        .ok ({ r with log := r.log ++ [acc] }.deliver config first moment acc)
      else .ok r
  | .reconnect resumeAt => .ok { r with pending := (r.snapshot ++ r.log).drop resumeAt }
  | .replayed moment =>
      match r.pending with
      | [] => .ok r
      | acc :: rest => .ok ({ r with pending := rest }.deliver config first moment acc)

/-- What the source asks for after a reconnect: the writes from the last slot on. -/
def resumeFrom (lastSlot : ℤ) (updates : List RawAccountUpdate) : List RawAccountUpdate :=
  updates.filter fun acc => decide (lastSlot ≤ acc.slot)

theorem resumeFrom_eq_drop (lastSlot : ℤ) {updates : List RawAccountUpdate}
    (h : updates.Pairwise RawAccountUpdate.notAfter) :
    ∃ n, resumeFrom lastSlot updates = updates.drop n := by
  induction updates with
  | nil => exact ⟨0, rfl⟩
  | cons acc rest ih =>
      rw [List.pairwise_cons] at h
      obtain ⟨hacc, hrest⟩ := h
      by_cases hslot : lastSlot ≤ acc.slot
      · refine ⟨0, List.filter_eq_self.2 fun w hw => decide_eq_true ?_⟩
        rcases List.mem_cons.1 hw with rfl | hw
        · exact hslot
        · rcases hacc w hw with hlt | ⟨heq, -⟩ <;> omega
      · obtain ⟨n, hn⟩ := ih hrest
        refine ⟨n + 1, ?_⟩
        rw [List.drop_succ_cons, ← hn]
        exact List.filter_cons_of_neg (by simpa using hslot)

/-- The writes of a run come in order. -/
theorem log_in_order {deliveries : List AccountDelivery} {r : SmartMoneyRun}
    (h : runSteps (SmartMoneyRun.step config first) {} deliveries = .ok r) :
    r.log.Pairwise RawAccountUpdate.notAfter := by
  refine runSteps_invariant (P := fun r => r.log.Pairwise RawAccountUpdate.notAfter)
    List.Pairwise.nil ?_ h
  intro r delivery r' hr hstep
  cases delivery with
  | snapshot moment acc =>
      rw [SmartMoneyRun.step] at hstep
      split_ifs at hstep <;> cases hstep <;> exact hr
  | live moment acc =>
      rw [SmartMoneyRun.step] at hstep
      split_ifs at hstep with hacc <;> cases hstep
      · refine List.pairwise_append.2 ⟨hr, List.pairwise_singleton .., fun w hw acc' hacc' => ?_⟩
        rw [List.mem_singleton.1 hacc']
        exact hacc.2.2 w hw
      · exact hr
  | reconnect resumeAt =>
      cases hstep
      exact hr
  | replayed moment =>
      rw [SmartMoneyRun.step] at hstep
      split at hstep <;> cases hstep <;> exact hr

/-- **A reconnect of the source is one of a run.** -/
theorem resumeFrom_reconnect {deliveries : List AccountDelivery} {r : SmartMoneyRun}
    (h : runSteps (SmartMoneyRun.step config first) {} deliveries = .ok r) (lastSlot : ℤ) :
    ∃ resumeAt, SmartMoneyRun.step config first r (.reconnect resumeAt) =
      .ok { r with pending := resumeFrom lastSlot r.log } := by
  obtain ⟨n, hn⟩ := resumeFrom_eq_drop lastSlot (log_in_order h)
  refine ⟨r.snapshot.length + n, ?_⟩
  rw [SmartMoneyRun.step, List.drop_length_add_append, hn]

/-! ### What a run should have yielded -/

/-- Token accounts, what each holds for a (wallet, mint), and the slot of a write. -/
def tokenBooks (walletAddresses : List String) :
    Books RawAccountUpdate String (String × String) where
  account := RawAccountUpdate.pubkey
  held acc key :=
    match acc.tokenWrite walletAddresses with
    | some (key', amount) => if key' = key then amount else 0
    | none => 0
  time := RawAccountUpdate.slot

/-- By how much the closing holding of a tracked wallet differs from the one before. -/
def SmartMoneyRun.swing (config : SmartWalletConfig) (r : SmartMoneyRun) (slot : ℤ)
    (key : String × String) : ℤ :=
  if key.1 ∈ config.walletAddresses then
    (tokenBooks config.walletAddresses).swing r.snapshot r.log slot key
  else 0

/-- By how much a write moves the holding of a tracked wallet. -/
def SmartMoneyRun.moved (config : SmartWalletConfig) (r : SmartMoneyRun) (acc : RawAccountUpdate)
    (key : String × String) : ℤ :=
  if key.1 ∈ config.walletAddresses then
    (tokenBooks config.walletAddresses).moved (r.snapshot ++ r.log) acc key
  else 0

/-- The directions and amounts of the events of a (wallet, mint, slot). -/
def tradesAt (events : List SmartMoneyEvent) (slot : ℤ) (key : String × String) :
    List (Bool × ℤ) :=
  (events.filter fun ev => decide (ev.wallet = key.1 ∧ ev.mint = key.2 ∧
    ev.theirFillSlot = slot)).map fun ev => (ev.isBuy, ev.tokenAmountBase)

/-- The direction and the amount of a change, where there is one. -/
def tradeOf (change : ℤ) : List (Bool × ℤ) :=
  if change = 0 then [] else [(decide (0 < change), |change|)]

/-- **Exactly the events due.** -/
def SmartMoneyRun.Exact (config : SmartWalletConfig) (r : SmartMoneyRun) : Prop :=
  ∀ slot key, tradesAt r.emitted slot key = tradeOf (r.swing config slot key)

/-- A delivery after which the events still are the events due.

A live write that moves a holding is the first of its slot to do so, by as much as its amount
differs from the one remembered, and has a block time; every other write is quiet. -/
def SmartMoneyRun.Attributable (config : SmartWalletConfig) (r : SmartMoneyRun) :
    AccountDelivery → Prop
  | .snapshot _ _ => True
  | .live moment acc => r.Continues acc → ∀ key,
      if r.moved config acc key = 0 then
        config.subscribes = true → ∀ amount,
          acc.tokenWrite config.walletAddresses = some (key, amount) →
            r.feed.Quiet moment.resolver acc key amount
      else
        config.subscribes = true ∧ r.swing config acc.slot key = 0 ∧
          ∃ amount prior time, acc.tokenWrite config.walletAddresses = some (key, amount) ∧
            r.feed.remembered key = some prior ∧
            (amount : ℤ) - prior = r.moved config acc key ∧
            fillBlockTime moment.resolver acc.slot = some time ∧ 0 < time
  | .reconnect _ => True
  | .replayed moment => ∀ acc rest, r.pending = acc :: rest →
      config.subscribes = true → ∀ key amount,
        acc.tokenWrite config.walletAddresses = some (key, amount) →
          r.feed.Quiet moment.resolver acc key amount

/-! ### Trades -/

section Trades

variable {c d e slot slot' : ℤ} {key key' : String × String} {ev : SmartMoneyEvent}
  {events more : List SmartMoneyEvent}

@[simp] theorem tradeOf_zero : tradeOf 0 = [] := rfl

theorem tradeOf_of_ne (h : c ≠ 0) : tradeOf c = [(decide (0 < c), |c|)] := if_neg h

@[simp] theorem tradeOf_eq_nil : tradeOf c = [] ↔ c = 0 := by
  unfold tradeOf
  split_ifs with h <;> simp [h]

/-- The direction and the amount determine the change. -/
theorem tradeOf_inj : tradeOf c = tradeOf d ↔ c = d := by
  refine ⟨fun h => ?_, congrArg tradeOf⟩
  by_cases hd : d = 0
  · rw [hd, tradeOf_zero, tradeOf_eq_nil] at h
    rw [h, hd]
  have hc : c ≠ 0 := by
    rintro rfl
    exact hd (tradeOf_eq_nil.1 h.symm)
  rw [tradeOf_of_ne hc, tradeOf_of_ne hd] at h
  simp only [List.cons.injEq, Prod.mk.injEq, decide_eq_decide, and_true] at h
  obtain ⟨hsign, habs⟩ := h
  rcases abs_eq_abs.1 habs with h | h <;> omega

/-- A trade more is what a change more is due only where there was none. -/
theorem tradeOf_append (hd : d ≠ 0) :
    tradeOf c ++ tradeOf d = tradeOf (c + e) ↔ c = 0 ∧ e = d := by
  constructor
  · intro h
    have hlen : (tradeOf (c + e)).length ≤ 1 := by
      unfold tradeOf
      split_ifs <;> simp
    have hc : c = 0 := by
      by_contra hc
      rw [← h, tradeOf_of_ne hc, tradeOf_of_ne hd] at hlen
      simp at hlen
    rw [hc, tradeOf_zero, List.nil_append, zero_add, tradeOf_inj] at h
    exact ⟨hc, h.symm⟩
  · rintro ⟨rfl, rfl⟩
    simp

theorem tradesAt_append :
    tradesAt (events ++ more) slot key = tradesAt events slot key ++ tradesAt more slot key := by
  simp [tradesAt]

@[simp] theorem tradesAt_nil : tradesAt [] slot key = [] := rfl

theorem tradesAt_singleton (hwallet : ev.wallet = key'.1) (hmint : ev.mint = key'.2)
    (hslot : ev.theirFillSlot = slot') (hbuy : ev.isBuy = decide (0 < d))
    (hamount : ev.tokenAmountBase = |d|) (hd : d ≠ 0) :
    tradesAt [ev] slot key = if slot = slot' ∧ key = key' then tradeOf d else [] := by
  unfold tradesAt
  split_ifs with h
  · obtain ⟨rfl, rfl⟩ := h
    rw [tradeOf_of_ne hd, List.filter_cons_of_pos (by simp [hwallet, hmint, hslot]), hbuy.symm,
      hamount.symm]
    rfl
  · rw [List.filter_cons_of_neg]
    · rfl
    · rw [decide_eq_true_iff, hwallet, hmint, hslot]
      rintro ⟨h₁, h₂, h₃⟩
      exact h ⟨h₃.symm, Prod.ext h₁.symm h₂.symm⟩

theorem tradesAt_ne_nil (hev : ev ∈ events) :
    tradesAt events ev.theirFillSlot (ev.wallet, ev.mint) ≠ [] := by
  have hmem : (ev.isBuy, ev.tokenAmountBase) ∈
      tradesAt events ev.theirFillSlot (ev.wallet, ev.mint) :=
    List.mem_map.2 ⟨ev, List.mem_filter.2 ⟨hev, by simp⟩, rfl⟩
  exact List.ne_nil_of_mem hmem

theorem mem_tradesAt {buy : Bool} {amount : ℤ} :
    (buy, amount) ∈ tradesAt events slot key ↔ ∃ ev ∈ events, ev.wallet = key.1 ∧
      ev.mint = key.2 ∧ ev.theirFillSlot = slot ∧ ev.isBuy = buy ∧ ev.tokenAmountBase = amount := by
  simp [tradesAt, and_assoc]

theorem mem_tradeOf {buy : Bool} {amount : ℤ} :
    (buy, amount) ∈ tradeOf c ↔ c ≠ 0 ∧ buy = decide (0 < c) ∧ amount = |c| := by
  unfold tradeOf
  split_ifs with h <;> simp [h]

end Trades

/-! ### One delivery -/

section Deliver

variable {r r₁ : SmartMoneyRun} {moment : Moment} {acc : RawAccountUpdate}
  {change : ℤ → String × String → ℤ}

/-- A delivery that yields nothing. -/
theorem exact_deliver_none (hexact : r.Exact config)
    (hswing : ∀ slot key, r₁.swing config slot key = r.swing config slot key + change slot key)
    (hfeed : r₁.feed = r.feed) (hemitted : r₁.emitted = r.emitted)
    (hyield : (r.feed.pull config first moment.resolver moment.nowMs acc).1 = none) :
    (r₁.deliver config first moment acc).Exact config ↔ ∀ slot key, change slot key = 0 := by
  refine forall_congr' fun slot => forall_congr' fun key => ?_
  have htrades : tradesAt (r₁.deliver config first moment acc).emitted slot key =
      tradeOf (r.swing config slot key) := by
    simp [SmartMoneyRun.deliver, hfeed, hemitted, hyield, hexact slot key]
  have hdue : (r₁.deliver config first moment acc).swing config slot key =
      r.swing config slot key + change slot key := hswing slot key
  rw [htrades, hdue, tradeOf_inj]
  omega

/-- A delivery that yields an event. -/
theorem exact_deliver_some {fill : String × String} {d : ℤ} {ev : SmartMoneyEvent}
    (hexact : r.Exact config)
    (hswing : ∀ slot key, r₁.swing config slot key = r.swing config slot key + change slot key)
    (hfeed : r₁.feed = r.feed) (hemitted : r₁.emitted = r.emitted)
    (hyield : (r.feed.pull config first moment.resolver moment.nowMs acc).1 = some ev)
    (hwallet : ev.wallet = fill.1) (hmint : ev.mint = fill.2) (hslot : ev.theirFillSlot = acc.slot)
    (hbuy : ev.isBuy = decide (0 < d)) (hamount : ev.tokenAmountBase = |d|) (hd : d ≠ 0) :
    (r₁.deliver config first moment acc).Exact config ↔
      ∀ slot key, if slot = acc.slot ∧ key = fill then
        r.swing config slot key = 0 ∧ change slot key = d else change slot key = 0 := by
  refine forall_congr' fun slot => forall_congr' fun key => ?_
  have htrades : tradesAt (r₁.deliver config first moment acc).emitted slot key =
      tradeOf (r.swing config slot key) ++
        if slot = acc.slot ∧ key = fill then tradeOf d else [] := by
    rw [← tradesAt_singleton hwallet hmint hslot hbuy hamount hd, ← hexact slot key,
      ← tradesAt_append]
    simp [SmartMoneyRun.deliver, hfeed, hemitted, hyield]
  have hdue : (r₁.deliver config first moment acc).swing config slot key =
      r.swing config slot key + change slot key := hswing slot key
  rw [htrades, hdue]
  split_ifs with h
  · exact tradeOf_append hd
  · rw [List.append_nil, tradeOf_inj]
    omega

/-- What the stream remembers has been yielded. -/
def SmartMoneyRun.Backed (r : SmartMoneyRun) : Prop :=
  ∀ fill ∈ r.feed.stream.seen, ∃ ev ∈ r.emitted, (ev.wallet, ev.mint, ev.theirFillSlot) = fill

theorem Backed.deliver (h : r.Backed) (hfeed : r₁.feed = r.feed)
    (hemitted : r₁.emitted = r.emitted) : (r₁.deliver config first moment acc).Backed := by
  intro fill hfill
  rcases pull_yields config first r.feed moment.resolver moment.nowMs acc with
    ⟨hyield, hseen, -⟩ | ⟨key, amount, prior, ev, hyield, hseen, -, -, -, -, -, hw, hm, hs, -⟩
  · have hfill' : fill ∈ r.feed.stream.seen := by
      rw [← hseen]
      simpa [SmartMoneyRun.deliver, hfeed] using hfill
    simpa [SmartMoneyRun.deliver, hfeed, hemitted, hyield] using h fill hfill'
  · have hfill' : fill ∈ (seenFills first).see r.feed.stream.seen (key.1, key.2, acc.slot) := by
      rw [← hseen]
      simpa [SmartMoneyRun.deliver, hfeed] using hfill
    have hevents : (r₁.deliver config first moment acc).emitted = r.emitted ++ [ev] := by
      simp [SmartMoneyRun.deliver, hfeed, hemitted, hyield]
    rw [hevents]
    rcases SeenPolicy.mem_see hfill' with hbefore | rfl
    · obtain ⟨old, hold, hkey⟩ := h fill hbefore
      exact ⟨old, List.mem_append_left _ hold, hkey⟩
    · exact ⟨ev, List.mem_append_right _ (List.mem_singleton_self ev), by rw [hw, hm, hs]⟩

theorem swing_live (config : SmartWalletConfig) (hlog : ∀ w ∈ r.log, w.notAfter acc) (slot : ℤ)
    (key : String × String) :
    { r with log := r.log ++ [acc] }.swing config slot key =
      r.swing config slot key + if acc.slot = slot then r.moved config acc key else 0 := by
  have hlast : ∀ w ∈ r.log, (tokenBooks config.walletAddresses).time w ≤
      (tokenBooks config.walletAddresses).time acc := by
    intro w hw
    rcases hlog w hw with h | ⟨h, -⟩
    · exact le_of_lt h
    · exact le_of_eq h
  unfold SmartMoneyRun.swing SmartMoneyRun.moved
  by_cases htracked : key.1 ∈ config.walletAddresses
  · simp only [if_pos htracked, Books.swing_snoc hlast]
    rfl
  · simp [htracked]

theorem swing_snapshot (hlog : r.log = []) (slot : ℤ) (key : String × String) :
    { r with snapshot := r.snapshot ++ [acc] }.swing config slot key =
      r.swing config slot key := by
  simp [SmartMoneyRun.swing, hlog]

/-- A write that changes no closing holding leaves the events due iff it is quiet. -/
theorem exact_deliver_silent (r₁ : SmartMoneyRun) (hexact : r.Exact config)
    (hswing : ∀ slot key, r₁.swing config slot key = r.swing config slot key)
    (hfeed : r₁.feed = r.feed) (hemitted : r₁.emitted = r.emitted) :
    (r₁.deliver config first moment acc).Exact config ↔
      (config.subscribes = true → ∀ key amount,
        acc.tokenWrite config.walletAddresses = some (key, amount) →
          r.feed.Quiet moment.resolver acc key amount) := by
  have hswing' : ∀ slot key,
      r₁.swing config slot key = r.swing config slot key + (fun _ _ => 0) slot key := by
    intro slot key
    rw [hswing, add_zero]
  rcases pull_yields config first r.feed moment.resolver moment.nowMs acc with
    ⟨hyield, -, hquiet⟩ |
      ⟨key, amount, prior, ev, hyield, -, hsub, hwrite, hloud, hprior, -, hw, hm, hs, hb, ha⟩
  · rw [exact_deliver_none hexact hswing' hfeed hemitted hyield]
    exact ⟨fun _ => hquiet, fun _ _ _ => rfl⟩
  · have hdelta := sub_ne_zero_of_loud hprior hloud
    rw [exact_deliver_some hexact hswing' hfeed hemitted hyield hw hm hs hb ha hdelta]
    constructor
    · intro h
      have hfill := h acc.slot key
      rw [if_pos ⟨rfl, rfl⟩] at hfill
      exact absurd hfill.2.symm hdelta
    · intro h
      exact absurd (h hsub key amount hwrite) hloud

/-- The first write of its slot that moves what is remembered, with a block time, is not quiet: were
its slot remembered, an event of it would have been yielded. -/
theorem loud_of_first {key : String × String} {amount prior : ℕ} {time : ℤ} (hexact : r.Exact config)
    (hbacked : r.Backed) (hstartup : acc.isStartup = false)
    (hprior : r.feed.remembered key = some prior) (hdelta : (amount : ℤ) - prior ≠ 0)
    (hfirst : r.swing config acc.slot key = 0)
    (htime : fillBlockTime moment.resolver acc.slot = some time) (hpos : 0 < time) :
    ¬r.feed.Quiet moment.resolver acc key amount := by
  rintro (h | h | h | h | h)
  · rw [hstartup] at h
    cases h
  · rw [hprior] at h
    cases h
  · rw [hprior] at h
    cases h
    exact hdelta (sub_self _)
  · obtain ⟨ev, hev, hfill⟩ := hbacked _ h
    have htrades := tradesAt_ne_nil hev
    rw [Prod.mk.injEq, Prod.mk.injEq] at hfill
    obtain ⟨hwallet, hmint, hslot⟩ := hfill
    rw [hwallet, hmint, hslot, hexact, hfirst] at htrades
    exact htrades rfl
  · exact absurd (h time htime) (not_le.2 hpos)

/-- Where the write yields nothing, the condition is that it moves nothing. -/
theorem attributable_iff_of_quiet (hexact : r.Exact config) (hbacked : r.Backed)
    (hacc : r.Continues acc)
    (hquiet : config.subscribes = true → ∀ key amount,
      acc.tokenWrite config.walletAddresses = some (key, amount) →
        r.feed.Quiet moment.resolver acc key amount) :
    r.Attributable config (.live moment acc) ↔ ∀ key, r.moved config acc key = 0 := by
  constructor
  · intro h key
    by_contra hmoved
    have hkey := h hacc key
    rw [if_neg hmoved] at hkey
    obtain ⟨hsub, hfirst, amount, prior, time, hwrite, hprior, hdelta, htime, hpos⟩ := hkey
    exact loud_of_first hexact hbacked hacc.1 hprior (hdelta ▸ hmoved) hfirst htime hpos
      (hquiet hsub key amount hwrite)
  · intro h _ key
    rw [if_pos (h key)]
    exact fun hsub amount hwrite => hquiet hsub key amount hwrite

/-- Where it yields an event, that it moves nothing else, and this for the first time in its slot. -/
theorem attributable_iff_of_loud {key : String × String} {amount prior : ℕ} {time : ℤ}
    (hacc : r.Continues acc) (hsub : config.subscribes = true)
    (hwrite : acc.tokenWrite config.walletAddresses = some (key, amount))
    (hloud : ¬r.feed.Quiet moment.resolver acc key amount)
    (hprior : r.feed.remembered key = some prior)
    (htime : fillBlockTime moment.resolver acc.slot = some time) (hpos : 0 < time) :
    r.Attributable config (.live moment acc) ↔ r.swing config acc.slot key = 0 ∧
      r.moved config acc key = (amount : ℤ) - prior ∧
      ∀ key', key' ≠ key → r.moved config acc key' = 0 := by
  have hdelta := sub_ne_zero_of_loud hprior hloud
  constructor
  · intro h
    have hmoved : r.moved config acc key ≠ 0 := by
      intro hzero
      have hkey := h hacc key
      rw [if_pos hzero] at hkey
      exact hloud (hkey hsub amount hwrite)
    have hkey := h hacc key
    rw [if_neg hmoved] at hkey
    obtain ⟨-, hfirst, amount', prior', -, hwrite', hprior', hdelta', -⟩ := hkey
    cases hwrite.symm.trans hwrite'
    cases hprior.symm.trans hprior'
    refine ⟨hfirst, hdelta'.symm, fun key' hne => ?_⟩
    by_contra hmoved'
    have hkey' := h hacc key'
    rw [if_neg hmoved'] at hkey'
    obtain ⟨-, -, amount'', -, -, hwrite'', -⟩ := hkey'
    cases hwrite.symm.trans hwrite''
    exact hne rfl
  · rintro ⟨hfirst, hmoved, hothers⟩ _ key'
    by_cases heq : key' = key
    · subst heq
      rw [if_neg (hmoved ▸ hdelta)]
      exact ⟨hsub, hfirst, amount, prior, time, hwrite, hprior, hmoved.symm, htime, hpos⟩
    · rw [if_pos (hothers key' heq)]
      intro _ amount' hwrite'
      cases hwrite.symm.trans hwrite'
      exact absurd rfl heq

/-- **A live write.** -/
theorem exact_deliver_live (hexact : r.Exact config) (hbacked : r.Backed)
    (hacc : r.Continues acc) :
    ({ r with log := r.log ++ [acc] }.deliver config first moment acc).Exact config ↔
      r.Attributable config (.live moment acc) := by
  have hswing := swing_live config hacc.2.2
  rcases pull_yields config first r.feed moment.resolver moment.nowMs acc with
    ⟨hyield, -, hquiet⟩ | ⟨key, amount, prior, ev, hyield, -, hsub, hwrite, hloud, hprior,
      ⟨time, htime, hpos⟩, hw, hm, hs, hb, ha⟩
  · rw [exact_deliver_none hexact hswing rfl rfl hyield,
      attributable_iff_of_quiet hexact hbacked hacc hquiet]
    constructor
    · intro h key
      have hkey := h acc.slot key
      rw [if_pos rfl] at hkey
      exact hkey
    · intro h slot key
      rw [h key, ite_self]
  · have hdelta := sub_ne_zero_of_loud hprior hloud
    rw [exact_deliver_some hexact hswing rfl rfl hyield hw hm hs hb ha hdelta,
      attributable_iff_of_loud hacc hsub hwrite hloud hprior htime hpos]
    constructor
    · intro h
      have hkey := h acc.slot key
      rw [if_pos ⟨rfl, rfl⟩, if_pos rfl] at hkey
      refine ⟨hkey.1, hkey.2, fun key' hne => ?_⟩
      have hkey' := h acc.slot key'
      rw [if_neg (fun hsame => hne hsame.2), if_pos rfl] at hkey'
      exact hkey'
    · rintro ⟨hfirst, hmoved, hothers⟩ slot key'
      by_cases hslot : slot = acc.slot
      · subst hslot
        by_cases heq : key' = key
        · subst heq
          rw [if_pos ⟨rfl, rfl⟩, if_pos rfl]
          exact ⟨hfirst, hmoved⟩
        · rw [if_neg (fun h => heq h.2), if_pos rfl]
          exact hothers key' heq
      · rw [if_neg (fun h => hslot h.1), if_neg (Ne.symm hslot)]

end Deliver

/-! ### The run -/

/-- **Exactly the events due.**  In a run of a feed, whatever reconnects and failing block times it
goes through, the events yielded are at every point exactly the events due iff every delivery
is attributable. -/
theorem smart_money_exact_iff (config : SmartWalletConfig) (first : List FillKey → FillKey)
    (deliveries : List AccountDelivery) :
    EveryState (SmartMoneyRun.step config first) (fun _ r => r.Exact config) {} deliveries ↔
      EveryStep (SmartMoneyRun.step config first) (fun _ r => r.Attributable config) {}
        deliveries := by
  refine everyState_iff_everyStep (J := SmartMoneyRun.Backed) ?_ ?_ ?_ deliveries
  · intro slot key
    simp [SmartMoneyRun.swing]
  · intro fill hfill
    cases hfill
  · intro _ r delivery hbacked hexact
    cases delivery with
    | snapshot moment acc =>
        by_cases hacc : r.Starts acc
        · obtain ⟨hstartup, hlog, -⟩ := id hacc
          refine ⟨_, if_pos hacc, ⟨fun _ => trivial, fun _ => ?_⟩,
            fun _ => Backed.deliver hbacked rfl rfl⟩
          rw [exact_deliver_silent { r with snapshot := r.snapshot ++ [acc] } hexact
            (swing_snapshot hlog) rfl rfl]
          exact fun _ _ _ _ => .inl hstartup
        · exact ⟨r, if_neg hacc, ⟨fun _ => trivial, fun _ => hexact⟩, fun _ => hbacked⟩
    | live moment acc =>
        by_cases hacc : r.Continues acc
        · refine ⟨_, if_pos hacc, exact_deliver_live hexact hbacked hacc, fun _ => ?_⟩
          exact Backed.deliver hbacked rfl rfl
        · exact ⟨r, if_neg hacc, ⟨fun _ h => absurd h hacc, fun _ => hexact⟩, fun _ => hbacked⟩
    | reconnect resumeAt =>
        exact ⟨_, rfl, ⟨fun _ => trivial, fun _ => hexact⟩, fun _ => hbacked⟩
    | replayed moment =>
        cases hpending : r.pending with
        | nil =>
            refine ⟨r, by rw [SmartMoneyRun.step, hpending], ⟨fun _ acc rest h => ?_,
              fun _ => hexact⟩, fun _ => hbacked⟩
            rw [hpending] at h
            cases h
        | cons acc rest =>
            refine ⟨{ r with pending := rest }.deliver config first moment acc,
              by rw [SmartMoneyRun.step, hpending], ?_, fun _ => Backed.deliver hbacked rfl rfl⟩
            rw [exact_deliver_silent { r with pending := rest } hexact (fun _ _ => rfl) rfl rfl]
            constructor
            · intro h acc' rest' hsplit
              rw [hpending] at hsplit
              cases hsplit
              exact h
            · exact fun h => h acc rest hpending

/-- **What the count then counts:** the wallets whose closing holding of the mint has risen in a
slot of the window. -/
theorem countSmartWalletsIn_of_exact {r : SmartMoneyRun} (h : r.Exact config) (mint : String)
    (launchSlot firstKSlots : ℤ) :
    countSmartWalletsIn r.emitted mint launchSlot firstKSlots =
      {wallet | ∃ slot, launchSlot ≤ slot ∧ slot ≤ launchSlot + firstKSlots ∧
        0 < r.swing config slot (wallet, mint)}.ncard := by
  unfold countSmartWalletsIn
  dsimp only
  rw [← List.card_toFinset, ← Set.ncard_coe_finset]
  congr 1
  ext wallet
  simp only [List.coe_toFinset, List.mem_map, List.mem_filter, decide_eq_true_eq,
    Set.mem_ofPred_eq]
  constructor
  · rintro ⟨ev, ⟨hev, rfl, hbuy, hfrom, hto⟩, rfl⟩
    have hmem : (true, ev.tokenAmountBase) ∈
        tradesAt r.emitted ev.theirFillSlot (ev.wallet, ev.mint) :=
      mem_tradesAt.2 ⟨ev, hev, rfl, rfl, rfl, hbuy, rfl⟩
    rw [h, mem_tradeOf] at hmem
    exact ⟨ev.theirFillSlot, hfrom, hto, of_decide_eq_true hmem.2.1.symm⟩
  · rintro ⟨slot, hfrom, hto, hrise⟩
    have hmem : (true, |r.swing config slot (wallet, mint)|) ∈
        tradesAt r.emitted slot (wallet, mint) := by
      rw [h, mem_tradeOf]
      exact ⟨hrise.ne', (decide_eq_true hrise).symm, rfl⟩
    obtain ⟨ev, hev, hwallet, hmint, rfl, hbuy, -⟩ := mem_tradesAt.1 hmem
    exact ⟨ev, ⟨hev, hmint, hbuy, hfrom, hto⟩, hwallet⟩

/-- A write to a token account that leaves it with `amount`. -/
def boughtWrite (slot : ℤ) (amount : UInt8) : RawAccountUpdate :=
  { pubkey := "token account", slot := slot, lamports := 2039280,
    data := List.replicate 32 2 ++ List.replicate 32 1 ++ [amount, 0, 0, 0, 0, 0, 0, 0],
    writeVersion := 0, isStartup := false }

/-- A tracked wallet. -/
def trackedConfig : SmartWalletConfig :=
  .postInit true [bytesToBase58 (List.replicate 32 1)] 10

/-- Its block times are all known. -/
def resolvedMoment : Moment := ⟨1700000001000, some fun _ => .ok (some 1700000000000)⟩

/-- The first buy into a token account that was not there at the start makes no event. -/
theorem smart_money_first_buy_lost : ¬EveryState (SmartMoneyRun.step trackedConfig List.headI)
    (fun _ r => r.Exact trackedConfig) {} [.live resolvedMoment (boughtWrite 5 100)] := by
  intro h
  let r : SmartMoneyRun := { log := [boughtWrite 5 100] }
  have hlast := h _ [] (r.deliver trackedConfig List.headI resolvedMoment (boughtWrite 5 100))
    (List.append_nil _).symm rfl 5
    (bytesToBase58 (List.replicate 32 1), bytesToBase58 (List.replicate 32 2))
  revert hlast
  decide +kernel

/-- A write that left the amount as it was makes a sale where it is replayed. -/
example : (runSteps (SmartMoneyRun.step trackedConfig List.headI) {}
      [.snapshot resolvedMoment { boughtWrite 0 0 with isStartup := true },
        .live resolvedMoment (boughtWrite 5 100), .live resolvedMoment (boughtWrite 6 100),
        .live resolvedMoment (boughtWrite 7 150), .reconnect 2, .replayed resolvedMoment]
    ).toOption.map (fun r => tradesAt r.emitted 6
      (bytesToBase58 (List.replicate 32 1), bytesToBase58 (List.replicate 32 2))) =
    some [(false, 50)] := by decide +kernel

end Ingestion
end AatsSniper

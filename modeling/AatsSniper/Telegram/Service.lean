/-
# The alert service

`TelegramAlertService` of `aats/telegram/service.py`.  An operation is a call of
`process_event` or of `poll_breaker`, with what the outside answers: the reading of the breaker,
and whether the client's send returns.  `run` makes a sequence of them (`runOps`).

What an operation calls for depends on the operations before it only through the last reading
of the breaker (`calledFor`), and the dedupe set only on the keys of what was called for.  So an
alert that is called for is attempted, once, unless its key was called for before with fewer
than 4096 other keys since (`alert_attempted_iff`); with no more keys than that in a run, the
attempts are the first alert of each key (`attempts_eq_firstsBy`).
-/

import AatsSniper.Lib.Lru
import AatsSniper.Lib.Ticket
import AatsSniper.Telegram.Alerts

namespace AatsSniper
namespace Telegram

/-- `_DEDUPE_CAPACITY`. -/
def dedupeCapacity : ℕ := 4096

/-- The length of `_sent_log`. -/
def sentLogMaxlen : ℕ := 256

/-- `TelegramAlertService`: `_dedupe`, the latch of the breaker, and the categories sent. -/
structure AlertService where
  seen : List CodePoints := []
  breakerWasTripped : Bool := false
  sentLog : List AlertCategory := []

/-- A call, with what the outside answers: no reading where there is no signal or it raises. -/
inductive AlertOp
  | processEvent (event : Json) (sends : Bool)
  | pollBreaker (reading : Option BreakerSnapshot) (sends : Bool)

/-- The client's send returns. -/
def AlertOp.sends : AlertOp → Bool
  | .processEvent _ sends => sends
  | .pollBreaker _ sends => sends

/-- The reading of a poll. -/
def AlertOp.reading : AlertOp → Option BreakerSnapshot
  | .processEvent _ _ => none
  | .pollBreaker reading _ => reading

/-- What a call comes to: the service after it, the alert handed to the client, and the result. -/
structure AlertTurn where
  service : AlertService
  attempted : Option AlertMessage := none
  returned : Option AlertMessage := none

namespace AlertService

/-- `_send(alert)`, with what both paths return of it. -/
def send (s : AlertService) (alert : AlertMessage) (sends : Bool) : AlertTurn :=
  if sends then
    ⟨{ s with sentLog := (s.sentLog ++ [alert.category]).rtake sentLogMaxlen }, some alert, some alert⟩
  else ⟨s, some alert, none⟩

/-- Both paths from the formatted alert on: `seen_before`, then `_send`. -/
def dispatch (s : AlertService) (alert : AlertMessage) (sends : Bool) : AlertTurn :=
  let s' := { s with seen := Lru.touch dedupeCapacity s.seen alert.dedupeKey }
  if s.seen.contains alert.dedupeKey then ⟨s', none, none⟩ else s'.send alert sends

section Turn

variable (repr : Json → CodePoints)

/-- `process_event(event)`. -/
def processEvent (s : AlertService) (event : Json) (sends : Bool) : AlertTurn :=
  match eventAlert repr event with
  | none => ⟨s, none, none⟩
  | some alert => s.dispatch alert sends

/-- `poll_breaker()`. -/
def pollBreaker (s : AlertService) (reading : Option BreakerSnapshot) (sends : Bool) : AlertTurn :=
  match reading with
  | none => ⟨s, none, none⟩
  | some snap =>
      if !snap.tripped then ⟨{ s with breakerWasTripped := false }, none, none⟩
      else if s.breakerWasTripped then ⟨s, none, none⟩
      else
        let s := { s with breakerWasTripped := true }
        match (formatBreakerTrip snap).toOption with
        | none => ⟨s, none, none⟩
        | some alert => s.dispatch alert sends

/-- One call. -/
def turn (s : AlertService) : AlertOp → AlertTurn
  | .processEvent event sends => s.processEvent repr event sends
  | .pollBreaker reading sends => s.pollBreaker reading sends

/-- The service after a sequence of calls. -/
def afterAll (ops : List AlertOp) : AlertService :=
  ops.foldl (fun s op => (s.turn repr op).service) {}

end Turn

end AlertService

/-- An event of the feed, with what happens from its arrival to the next: the stop event set, the
sends, and the reading of the poll after it. -/
structure FeedItem where
  event : Json
  stopped : Bool
  sends : Bool
  reading : Option BreakerSnapshot
  pollSends : Bool

/-- The calls of `run(feed, poll_breaker_each_event, stop_event)`. -/
def runOps (pollBreakerEachEvent : Bool) (first : Option BreakerSnapshot) (firstSends : Bool)
    (feed : List FeedItem) : List AlertOp :=
  (if pollBreakerEachEvent then [.pollBreaker first firstSends] else []) ++
    (feed.takeWhile fun item => !item.stopped).flatMap fun item =>
      .processEvent item.event item.sends ::
        if pollBreakerEachEvent then [.pollBreaker item.reading item.pollSends] else []

/-- The last reading of the breaker says tripped. -/
def lastTripped (ops : List AlertOp) : Bool :=
  ((ops.filterMap AlertOp.reading).getLast?.map BreakerSnapshot.tripped).getD false

section CalledFor

variable (repr : Json → CodePoints)

/-- The alert a call asks for: that of its event, or that of a trip the last reading did not show. -/
def calledFor (earlier : List AlertOp) : AlertOp → Option AlertMessage
  | .processEvent event _ => eventAlert repr event
  | .pollBreaker none _ => none
  | .pollBreaker (some snap) _ =>
      if snap.tripped && !lastTripped earlier then (formatBreakerTrip snap).toOption else none

/-- The alerts the calls of `ops` ask for, after `earlier`. -/
def calledAfter (earlier : List AlertOp) : List AlertOp → List AlertMessage
  | [] => []
  | op :: rest => (calledFor repr earlier op).toList ++ calledAfter (earlier ++ [op]) rest

/-- The alerts a run asks for. -/
def calledAlerts (ops : List AlertOp) : List AlertMessage := calledAfter repr [] ops

theorem calledAfter_snoc (earlier ops : List AlertOp) (op : AlertOp) :
    calledAfter repr earlier (ops ++ [op]) =
      calledAfter repr earlier ops ++ (calledFor repr (earlier ++ ops) op).toList := by
  induction ops generalizing earlier with
  | nil => simp [calledAfter]
  | cons first ops ih =>
      rw [List.cons_append, calledAfter, ih, calledAfter, List.append_assoc, List.append_assoc,
        List.singleton_append]

theorem calledAlerts_snoc (ops : List AlertOp) (op : AlertOp) :
    calledAlerts repr (ops ++ [op]) = calledAlerts repr ops ++ (calledFor repr ops op).toList := by
  rw [calledAlerts, calledAfter_snoc, List.nil_append]
  rfl

theorem lastTripped_snoc (ops : List AlertOp) (op : AlertOp) :
    lastTripped (ops ++ [op]) = (op.reading.map BreakerSnapshot.tripped).getD (lastTripped ops) := by
  unfold lastTripped
  rw [List.filterMap_append]
  cases hreading : op.reading with
  | none => simp [hreading]
  | some snap => simp [hreading]

end CalledFor

/-- What the service remembers of a history. -/
structure AlertService.Tracks (repr : Json → CodePoints) (ops : List AlertOp) (s : AlertService) :
    Prop where
  seen : s.seen =
    Lru.touchAll dedupeCapacity ((calledAlerts repr ops).map AlertMessage.dedupeKey)
  latch : s.breakerWasTripped = lastTripped ops

/-- What a call makes of the alert it asks for: attempted unless its key is held, and returned
where the client sends it. -/
def AlertService.Answers (s : AlertService) (sends : Bool) (t : AlertTurn) :
    Option AlertMessage → Prop
  | none => t.service.seen = s.seen ∧ t.attempted = none ∧ t.returned = none
  | some alert =>
      t.service.seen = Lru.touch dedupeCapacity s.seen alert.dedupeKey ∧
        (alert.dedupeKey ∈ s.seen → t.attempted = none) ∧
        (alert.dedupeKey ∉ s.seen → t.attempted = some alert) ∧
        t.returned = if sends then t.attempted else none

section Service

variable {repr : Json → CodePoints} {s : AlertService} {ops : List AlertOp}

theorem AlertService.dispatch_spec (s : AlertService) (alert : AlertMessage) (sends : Bool) :
    (s.dispatch alert sends).service.breakerWasTripped = s.breakerWasTripped ∧
      s.Answers sends (s.dispatch alert sends) (some alert) := by
  unfold dispatch Answers
  by_cases hseen : alert.dedupeKey ∈ s.seen
  · simp [hseen]
  · cases sends with
    | true => simp [hseen, send]
    | false => simp [hseen, send]

variable (repr) in
/-- **One call**: the latch follows the reading, and the alert asked for is answered. -/
theorem AlertService.turn_spec (hlatch : s.breakerWasTripped = lastTripped ops) (op : AlertOp) :
    (s.turn repr op).service.breakerWasTripped = lastTripped (ops ++ [op]) ∧
      s.Answers op.sends (s.turn repr op) (calledFor repr ops op) := by
  rw [lastTripped_snoc, ← hlatch]
  cases op with
  | processEvent event sends =>
      simp only [turn, AlertService.processEvent, calledFor]
      cases eventAlert repr event with
      | none => exact ⟨rfl, rfl, rfl, rfl⟩
      | some alert => exact s.dispatch_spec alert sends
  | pollBreaker reading sends =>
      simp only [turn, AlertService.pollBreaker]
      cases reading with
      | none => exact ⟨rfl, rfl, rfl, rfl⟩
      | some snap =>
          simp only [calledFor, AlertOp.reading, Option.map_some, Option.getD_some, ← hlatch]
          cases htripped : snap.tripped with
          | false => exact ⟨rfl, rfl, rfl, rfl⟩
          | true =>
              cases hwas : s.breakerWasTripped with
              | true => exact ⟨hwas, rfl, rfl, rfl⟩
              | false =>
                  -- the rising edge: the latch is set before the alert is formatted
                  simp only [Bool.not_true, Bool.not_false, Bool.and_self, Bool.false_eq_true,
                    if_false, if_true]
                  cases (formatBreakerTrip snap).toOption with
                  | none => exact ⟨rfl, rfl, rfl, rfl⟩
                  | some alert => exact dispatch_spec { s with breakerWasTripped := true } alert sends

theorem afterAll_snoc (ops : List AlertOp) (op : AlertOp) :
    AlertService.afterAll repr (ops ++ [op]) =
      ((AlertService.afterAll repr ops).turn repr op).service :=
  List.foldl_concat ..

variable (repr) in
/-- **The service tracks its history**, whatever the calls. -/
theorem afterAll_tracks (ops : List AlertOp) :
    (AlertService.afterAll repr ops).Tracks repr ops := by
  induction ops using List.reverseRecOn with
  | nil => exact ⟨rfl, rfl⟩
  | append_singleton ops op ih =>
      obtain ⟨hlatch, hanswers⟩ := AlertService.turn_spec repr ih.latch op
      rw [afterAll_snoc]
      refine ⟨?_, hlatch⟩
      rw [calledAlerts_snoc]
      cases hcalled : calledFor repr ops op with
      | none =>
          rw [hcalled] at hanswers
          rw [hanswers.1, ih.seen, Option.toList_none, List.append_nil]
      | some alert =>
          rw [hcalled] at hanswers
          rw [hanswers.1, ih.seen, Option.toList_some, List.map_append, List.map_singleton,
            Lru.touchAll_snoc]

/-- **When an alert is attempted.**  After any calls, with any events, readings and failures of the
client, a call hands the client the alert it asks for unless an alert with its key was asked for
before, and fewer than 4096 other keys since; it returns it where the client sends it. -/
theorem alert_attempted_iff (repr : Json → CodePoints) (ops : List AlertOp) (op : AlertOp)
    (a : AlertMessage) :
    (((AlertService.afterAll repr ops).turn repr op).attempted = some a ↔
      calledFor repr ops op = some a ∧ ¬ Lru.Recent dedupeCapacity
        ((calledAlerts repr ops).map AlertMessage.dedupeKey) a.dedupeKey) ∧
    (((AlertService.afterAll repr ops).turn repr op).returned = some a ↔
      ((AlertService.afterAll repr ops).turn repr op).attempted = some a ∧ op.sends = true) := by
  have htracks := afterAll_tracks repr ops
  obtain ⟨-, hanswers⟩ := AlertService.turn_spec repr htracks.latch op
  cases hcalled : calledFor repr ops op with
  | none =>
      rw [hcalled] at hanswers
      obtain ⟨-, hattempted, hreturned⟩ := hanswers
      simp [hattempted, hreturned]
  | some alert =>
      rw [hcalled] at hanswers
      obtain ⟨-, hsilent, hspeaks, hreturned⟩ := hanswers
      have hheld : alert.dedupeKey ∈ (AlertService.afterAll repr ops).seen ↔
          Lru.Recent dedupeCapacity ((calledAlerts repr ops).map AlertMessage.dedupeKey)
            alert.dedupeKey := by
        rw [htracks.seen, Lru.mem_touchAll_iff]
      constructor
      · by_cases hseen : alert.dedupeKey ∈ (AlertService.afterAll repr ops).seen
        · rw [hsilent hseen]
          constructor
          · rintro ⟨⟩
          · rintro ⟨⟨⟩, hnot⟩
            exact absurd (hheld.1 hseen) hnot
        · rw [hspeaks hseen]
          constructor
          · rintro ⟨⟩
            exact ⟨rfl, fun hrecent => hseen (hheld.2 hrecent)⟩
          · rintro ⟨⟨⟩, -⟩
            rfl
      · rw [hreturned]
        cases op.sends <;> simp

/-- The alerts a run hands the client. -/
def attempts (repr : Json → CodePoints) (ops : List AlertOp) : List AlertMessage :=
  (Ticket.outputs (fun s op => (s.turn repr op).service)
    (fun (s : AlertService) op => (s.turn repr op).attempted) {} ops).filterMap id

theorem attempts_snoc (ops : List AlertOp) (op : AlertOp) :
    attempts repr (ops ++ [op]) =
      attempts repr ops ++ ((AlertService.afterAll repr ops).turn repr op).attempted.toList := by
  unfold attempts
  rw [Ticket.outputs_snoc, List.filterMap_append]
  cases h : ((AlertService.afterAll repr ops).turn repr op).attempted with
  | none =>
      simp only [AlertService.afterAll] at h
      simp [h]
  | some alert =>
      simp only [AlertService.afterAll] at h
      simp [h]

/-- **In a run of no more than 4096 keys the alerts attempted are the first of each key**, in order:
a redelivered event, and a trip that is read again, alert once. -/
theorem attempts_eq_firstsBy (repr : Json → CodePoints) (ops : List AlertOp)
    (hfew : ((calledAlerts repr ops).map AlertMessage.dedupeKey).toFinset.card ≤ dedupeCapacity) :
    attempts repr ops = firstsBy AlertMessage.dedupeKey (calledAlerts repr ops) := by
  induction ops using List.reverseRecOn with
  | nil => rfl
  | append_singleton ops op ih =>
      rw [calledAlerts_snoc] at hfew ⊢
      rw [List.map_append, List.toFinset_append] at hfew
      have hattempted := fun a => (alert_attempted_iff repr ops op a).1
      rw [attempts_snoc, ih ((Finset.card_le_card Finset.subset_union_left).trans hfew)]
      cases hcalled : calledFor repr ops op with
      | none =>
          have hnone : ((AlertService.afterAll repr ops).turn repr op).attempted = none := by
            refine Option.eq_none_iff_forall_ne_some.2 fun a ha => ?_
            have hcalled' := ((hattempted a).1 ha).1
            rw [hcalled] at hcalled'
            cases hcalled'
          rw [hnone, Option.toList_none, List.append_nil, List.append_nil]
      | some alert =>
          rw [Option.toList_some, firstsBy_snoc]
          rw [hcalled, Option.toList_some, List.map_singleton] at hfew
          by_cases hkey : alert.dedupeKey ∈ (calledAlerts repr ops).map AlertMessage.dedupeKey
          · -- no key is forgotten, so this one is not attempted again
            have hrecent := Lru.recent_of_few hkey
              ((Finset.card_le_card Finset.subset_union_left).trans hfew)
            have hnone : ((AlertService.afterAll repr ops).turn repr op).attempted = none := by
              refine Option.eq_none_iff_forall_ne_some.2 fun a ha => ?_
              obtain ⟨hcalled', hnot⟩ := (hattempted a).1 ha
              obtain rfl : alert = a := Option.some.inj (hcalled.symm.trans hcalled')
              exact hnot hrecent
            rw [hnone, if_pos hkey, Option.toList_none, List.append_nil]
          · have hsome : ((AlertService.afterAll repr ops).turn repr op).attempted = some alert :=
              (hattempted alert).2 ⟨hcalled, fun hrecent => hkey hrecent.mem⟩
            rw [hsome, if_neg hkey, Option.toList_some]

/-- A bot that starts on a tripped breaker and has one fill delivered twice sends two alerts. -/
example :
    let trip : BreakerSnapshot :=
      { tripped := true, dailyNetPnlLamports := .int (-300000000), dailyLossLimitSol := codePoints "-0.30",
        trippedAtUtc := none, dryRunEnabled := true }
    let fill : Json := .obj [(codePoints "action", .str (codePoints "sniped")),
      (codePoints "id", .int 7)]
    let item : FeedItem :=
      { event := fill, stopped := false, sends := true, reading := some trip, pollSends := true }
    (attempts (fun _ => []) (runOps true (some trip) true [item, item])).map AlertMessage.category =
      [.breakerTrip, .fill] := by
  decide +kernel

end Service

end Telegram
end AatsSniper

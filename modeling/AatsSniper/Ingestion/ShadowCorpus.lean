/-
# What the shadow corpus keeps

Over a run of calls of a `ShadowRecorder`: every launch is recorded once, every window opened is
flushed or still open, and a snapshot is complete only where an event past its window was seen
(`Kept`).  A launch past the open window of its own mint only flushes that window and is
lost, and a shutdown flushes every window as complete; `Safe` says that no
call does this, nor flushes a window whose date is out of range.

Events are told apart by their position in the run (`numbered`), which the recorder never reads.
A window is named by the event that opened it, the first one of its snapshot.
-/

import AatsSniper.Ingestion.ShadowRecorder
import Mathlib.Data.List.TakeWhile

namespace AatsSniper
namespace Ingestion

variable {ρ : Type}

/-- A window-opening event: CREATE, WITHDRAW or INIT of a mint that is no quote mint. -/
def LaunchEvent.isLaunch (event : LaunchEvent ρ) (eventKind : Option EventKind) : Prop :=
  event.mint ∉ quoteMints ∧ eventKind.any EventKind.opensWindow = true

/-- The event opens a window. -/
def ShadowRecorder.Opens (config : RecorderConfig) (r : ShadowRecorder ρ) (event : LaunchEvent ρ)
    (eventKind : Option EventKind) : Prop :=
  event.mint ∉ quoteMints ∧ mayOpenWindow eventKind = true ∧
    r.openWindows.get? event.mint = none ∧
    (config.maxOpenWindows ≤ r.openWindows.rows.length →
      ∃ oldest, r.openWindows.rows.head? = some oldest ∧ oldest.hasEventDate)

/-- The event opened a window in the run. -/
def OpenedBy (config : RecorderConfig) (calls : List (RecorderCall ρ)) (event : LaunchEvent ρ) :
    Prop :=
  ∃ before eventKind after r, calls = before ++ .observe event eventKind :: after ∧
    runSteps (ShadowRecorder.serve config) {} before = .ok r ∧ r.Opens config event eventKind

/-- The event of a call. -/
def RecorderCall.event? : RecorderCall ρ → Option (LaunchEvent ρ)
  | .observe event _ => some event
  | _ => none

/-- A reconnect or a shutdown. -/
def RecorderCall.interrupts : RecorderCall ρ → Bool
  | .observe _ _ => false
  | _ => true

/-- An event of the window's mint past its end. -/
def RecorderCall.IsPastFor (w : ShadowSnapshot ρ) : RecorderCall ρ → Prop
  | .observe event _ => event.mint = w.mint ∧ w.isPast event.slot
  | _ => False

section Kept

variable [DecidableEq ρ]

/-- The calls after the one that brought the event. -/
def sinceEvent (event : LaunchEvent ρ) (calls : List (RecorderCall ρ)) : List (RecorderCall ρ) :=
  (calls.dropWhile fun call => decide (call.event? ≠ some event)).tail

/-- An event past the window was seen after it was opened and before any reconnect or shutdown. -/
def SeenPast (calls : List (RecorderCall ρ)) (w : ShadowSnapshot ρ) : Prop :=
  ∃ opener, w.events.head? = some opener ∧
    ∃ call ∈ (sinceEvent opener calls).takeWhile fun call => !call.interrupts, call.IsPastFor w

/-- What the corpus keeps of a run. -/
structure Kept (config : RecorderConfig) (calls : List (RecorderCall ρ)) (r : ShadowRecorder ρ) :
    Prop where
  launches : ∀ event eventKind, .observe event eventKind ∈ calls → event.isLaunch eventKind →
    event ∈ r.recorded
  windows : ∀ event, OpenedBy config calls event → event ∈ r.openers
  once : r.recorded.Nodup
  complete : ∀ row ∈ r.rows, row.completenessStatus = "complete" →
    SeenPast calls row.toShadowSnapshot

end Kept

/-- A call that loses nothing and labels nothing wrongly. -/
def ShadowRecorder.Safe (config : RecorderConfig) (r : ShadowRecorder ρ) : RecorderCall ρ → Prop
  | .observe event eventKind => event.mint ∉ quoteMints →
      match r.openWindows.get? event.mint with
      | some w => w.isPast event.slot →
          eventKind.any EventKind.opensWindow = false ∧ w.hasEventDate
      | none => mayOpenWindow eventKind = true →
          config.maxOpenWindows ≤ r.openWindows.rows.length →
          match r.openWindows.rows.head? with
          | some oldest => oldest.hasEventDate
          | none => eventKind.any EventKind.opensWindow = false
  | .onReconnect => ∀ w ∈ r.openWindows.rows, w.hasEventDate
  | .flushAll status => (∀ w ∈ r.openWindows.rows, w.hasEventDate) ∧
      (status = "complete" → r.openWindows.rows = [])

/-! ### The calls since an event -/

section Since

variable [DecidableEq ρ] {event : LaunchEvent ρ} {calls : List (RecorderCall ρ)}
  {call : RecorderCall ρ} {w : ShadowSnapshot ρ}

/-- The events of a run. -/
def eventsOf (calls : List (RecorderCall ρ)) : List (LaunchEvent ρ) :=
  calls.filterMap RecorderCall.event?

omit [DecidableEq ρ] in
theorem eventsOf_snoc : eventsOf (calls ++ [call]) = eventsOf calls ++ call.event?.toList := by
  unfold eventsOf
  rw [List.filterMap_append]
  cases hevent : call.event? <;> simp [hevent]

theorem dropWhile_of_notMem (h : event ∉ eventsOf calls) :
    calls.dropWhile (fun call => decide (call.event? ≠ some event)) = [] := by
  rw [List.dropWhile_eq_nil_iff]
  intro call hcall
  exact decide_eq_true fun heq => h (List.mem_filterMap.2 ⟨call, hcall, heq⟩)

theorem sinceEvent_snoc (h : event ∈ eventsOf calls) :
    sinceEvent event (calls ++ [call]) = sinceEvent event calls ++ [call] := by
  obtain ⟨found, hfound, hevent⟩ := List.mem_filterMap.1 h
  have hne : calls.dropWhile (fun call => decide (call.event? ≠ some event)) ≠ [] := by
    intro hnil
    have hall := List.dropWhile_eq_nil_iff.1 hnil found hfound
    simp [hevent] at hall
  unfold sinceEvent
  rw [List.dropWhile_append, if_neg (by simpa using hne), List.tail_append_of_ne_nil hne]

theorem sinceEvent_new (hnew : event ∉ eventsOf calls) (hevent : call.event? = some event) :
    sinceEvent event (calls ++ [call]) = [] := by
  unfold sinceEvent
  rw [List.dropWhile_append, dropWhile_of_notMem hnew]
  simp [hevent]

/-- What was seen stays seen. -/
theorem SeenPast.snoc (h : SeenPast calls w) : SeenPast (calls ++ [call]) w := by
  obtain ⟨opener, hopener, past, hpast, hisPast⟩ := h
  refine ⟨opener, hopener, past, ?_, hisPast⟩
  have hmem : opener ∈ eventsOf calls := by
    by_contra hnot
    rw [sinceEvent, dropWhile_of_notMem hnot] at hpast
    simp at hpast
  rw [sinceEvent_snoc hmem, List.takeWhile_append]
  split_ifs with hall
  · have heq : (sinceEvent opener calls).takeWhile (fun call => !call.interrupts) =
        sinceEvent opener calls :=
      (List.takeWhile_prefix _).eq_of_length hall
    rw [heq] at hpast
    exact List.mem_append_left _ hpast
  · exact hpast

/-- The run opened the window, and neither an interruption nor an event past it came since. -/
structure OpenSince (config : RecorderConfig) (calls : List (RecorderCall ρ))
    (w : ShadowSnapshot ρ) (opener : LaunchEvent ρ) : Prop where
  head : w.events.head? = some opener
  opened : OpenedBy config calls opener
  mint : w.mint = opener.mint
  since : ∀ call ∈ sinceEvent opener calls, call.interrupts = false ∧ ¬call.IsPastFor w

omit [DecidableEq ρ] in
theorem OpenedBy.mem {config : RecorderConfig} (h : OpenedBy config calls event) :
    event ∈ eventsOf calls := by
  obtain ⟨before, eventKind, after, r, rfl, -⟩ := h
  exact List.mem_filterMap.2 ⟨_, List.mem_append_right _ List.mem_cons_self, rfl⟩

omit [DecidableEq ρ] in
theorem OpenedBy.notMem_quoteMints {config : RecorderConfig} (h : OpenedBy config calls event) :
    event.mint ∉ quoteMints := by
  obtain ⟨before, eventKind, after, r, -, -, hopens⟩ := h
  exact hopens.1

omit [DecidableEq ρ] in
theorem openedBy_snoc {config : RecorderConfig} {r : ShadowRecorder ρ}
    (hrun : runSteps (ShadowRecorder.serve config) {} calls = .ok r) :
    OpenedBy config (calls ++ [call]) event ↔ OpenedBy config calls event ∨
      ∃ eventKind, call = .observe event eventKind ∧ r.Opens config event eventKind := by
  constructor
  · rintro ⟨before, eventKind, after, s, hsplit, hs, hopens⟩
    rcases snoc_split hsplit with ⟨rfl, rfl, rfl⟩ | ⟨after', rfl, rfl⟩
    · rw [hrun] at hs
      obtain rfl := Except.ok.inj hs
      exact .inr ⟨eventKind, rfl, hopens⟩
    · exact .inl ⟨before, eventKind, after', s, rfl, hs, hopens⟩
  · rintro (⟨before, eventKind, after, s, rfl, hs, hopens⟩ | ⟨eventKind, rfl, hopens⟩)
    · exact ⟨before, eventKind, after ++ [call], s, by simp, hs, hopens⟩
    · exact ⟨calls, eventKind, [], r, rfl, hrun, hopens⟩

omit [DecidableEq ρ] in
theorem OpenedBy.snoc {config : RecorderConfig} (h : OpenedBy config calls event) :
    OpenedBy config (calls ++ [call]) event := by
  obtain ⟨before, eventKind, after, s, rfl, hs, hopens⟩ := h
  exact ⟨before, eventKind, after ++ [call], s, by simp, hs, hopens⟩

/-- A call that neither interrupts nor is past the window. -/
theorem OpenSince.snoc {config : RecorderConfig} {opener : LaunchEvent ρ}
    (h : OpenSince config calls w opener) (hcall : call.interrupts = false)
    (hpast : ¬call.IsPastFor w) : OpenSince config (calls ++ [call]) w opener := by
  refine ⟨h.head, h.opened.snoc, h.mint, fun c hc => ?_⟩
  rw [sinceEvent_snoc h.opened.mem] at hc
  rcases List.mem_append.1 hc with hc | hc
  · exact h.since c hc
  · obtain rfl := List.mem_singleton.1 hc
    exact ⟨hcall, hpast⟩

end Since

/-! ### The invariant -/

section Invariant

variable [DecidableEq ρ] {config : RecorderConfig} {calls : List (RecorderCall ρ)}
  {call : RecorderCall ρ} {r r' : ShadowRecorder ρ} {w : ShadowSnapshot ρ}
  {event : LaunchEvent ρ} {eventKind : Option EventKind}

/-- What holds of a recorder after the calls, as long as nothing was lost. -/
structure Follows (config : RecorderConfig) (calls : List (RecorderCall ρ))
    (r : ShadowRecorder ρ) : Prop where
  run : runSteps (ShadowRecorder.serve config) {} calls = .ok r
  recorded : ∀ event ∈ r.recorded, event ∈ eventsOf calls
  once : r.recorded.Nodup
  windows : ∀ w ∈ r.openWindows.rows, ∃ opener, OpenSince config calls w opener

omit [DecidableEq ρ] in
/-- An opener is recorded. -/
theorem mem_recorded_of_mem_openers (h : event ∈ r.openers) : event ∈ r.recorded := by
  obtain ⟨w, hw, hhead⟩ := List.mem_flatMap.1 h
  exact List.mem_flatMap.2 ⟨w, hw, List.mem_of_mem_head? (Option.mem_toList.1 hhead)⟩

/-- A window lost is a launch lost. -/
theorem not_kept_of_lost (h : Follows config calls r) (hw : w ∈ r.openWindows.rows)
    (hlost : r.recorded.Perm (w.events ++ r'.recorded)) : ¬Kept config (calls ++ [call]) r' := by
  intro hkept
  obtain ⟨opener, hopen⟩ := h.windows w hw
  have hmem := mem_recorded_of_mem_openers (hkept.windows opener hopen.opened.snoc)
  have hdisjoint := List.disjoint_of_nodup_append (hlost.nodup_iff.1 h.once)
  exact hdisjoint (List.mem_of_mem_head? hopen.head) hmem

/-- A new event is not recorded yet. -/
theorem Follows.notMem_recorded (h : Follows config calls r)
    (hnew : (eventsOf (calls ++ [.observe event eventKind])).Nodup) :
    event ∉ eventsOf calls ∧ event ∉ r.recorded := by
  rw [eventsOf_snoc] at hnew
  have hnot : event ∉ eventsOf calls := fun hmem =>
    List.disjoint_of_nodup_append hnew hmem (List.mem_singleton_self event)
  exact ⟨hnot, fun hmem => hnot (h.recorded event hmem)⟩

/-- The launches and openings of one call more. -/
theorem Kept.snoc (h : Kept config calls r)
    (hrun : runSteps (ShadowRecorder.serve config) {} calls = .ok r)
    (hrecorded : ∀ e ∈ r.recorded, e ∈ r'.recorded) (hopeners : ∀ e ∈ r.openers, e ∈ r'.openers)
    (honce : r'.recorded.Nodup)
    (hlaunch : ∀ e k, call = .observe e k → e.isLaunch k → e ∈ r'.recorded)
    (hopens : ∀ e k, call = .observe e k → r.Opens config e k → e ∈ r'.openers)
    (hcomplete : ∀ row ∈ r'.rows, row ∈ r.rows ∨ (row.completenessStatus = "complete" →
      SeenPast (calls ++ [call]) row.toShadowSnapshot)) :
    Kept config (calls ++ [call]) r' where
  launches e k hmem hlaunch' := by
    rcases List.mem_append.1 hmem with hmem | hmem
    · exact hrecorded e (h.launches e k hmem hlaunch')
    · exact hlaunch e k (List.mem_singleton.1 hmem).symm hlaunch'
  windows e hopened := by
    rcases (openedBy_snoc hrun).1 hopened with hold | ⟨k, hcall, hnew⟩
    · exact hopeners e (h.windows e hold)
    · exact hopens e k hcall hnew
  once := honce
  complete row hrow hstatus := by
    rcases hcomplete row hrow with hold | hnew
    · exact (h.complete row hold hstatus).snoc
    · exact hnew hstatus

/-- One call more, that records nothing but its own event. -/
theorem Follows.snoc (h : Follows config calls r) (hserve : r.serve config call = .ok r')
    (hrecorded : ∀ e ∈ r'.recorded, call.event? = some e ∨ e ∈ r.recorded)
    (honce : r'.recorded.Nodup)
    (hwindows : ∀ w ∈ r'.openWindows.rows, ∃ opener, OpenSince config (calls ++ [call]) w opener) :
    Follows config (calls ++ [call]) r' where
  run := by
    rw [runSteps_snoc, h.run]
    exact hserve
  recorded e he := by
    rw [eventsOf_snoc]
    rcases hrecorded e he with hnew | hold
    · exact List.mem_append_right _ (Option.mem_toList.2 hnew)
    · exact List.mem_append_left _ (h.recorded e hold)
  once := honce
  windows := hwindows

/-- Nothing past an open window has come, nor comes with a call that carries no event. -/
theorem Follows.not_seenPast (h : Follows config calls r) (hw : w ∈ r.openWindows.rows)
    (hcall : call.event? = none) : ¬SeenPast (calls ++ [call]) w := by
  rintro ⟨opener', hopener', past, hpast, hisPast⟩
  obtain ⟨opener, hsince⟩ := h.windows w hw
  obtain rfl := Option.some.inj (hsince.head.symm.trans hopener')
  rw [sinceEvent_snoc hsince.opened.mem] at hpast
  rcases List.mem_append.1 ((List.takeWhile_prefix _).subset hpast) with hbefore | hlast
  · exact (hsince.since past hbefore).2 hisPast
  · obtain rfl := List.mem_singleton.1 hlast
    cases past with
    | observe e k => cases hcall
    | onReconnect => exact hisPast
    | flushAll status => exact hisPast

/-! ### One observation -/

/-- An event that is counted as an orphan. -/
theorem observe_ignored (h : Follows config calls r) (hkept : Kept config calls r)
    (hserve : r.serve config (.observe event eventKind) = .ok r') (hrows : r'.rows = r.rows)
    (hopen : r'.openWindows = r.openWindows) (hlaunch : ¬event.isLaunch eventKind)
    (hopens : ¬r.Opens config event eventKind)
    (hpast : ∀ w ∈ r.openWindows.rows, event.mint ≠ w.mint) :
    Kept config (calls ++ [.observe event eventKind]) r' ∧
      Follows config (calls ++ [.observe event eventKind]) r' := by
  have hcollect : ∀ {β : Type} (g : ShadowSnapshot ρ → List β), r'.collect g = r.collect g := by
    intro β g
    rw [ShadowRecorder.collect, ShadowRecorder.snapshots, hrows, hopen]
    rfl
  have hrecorded : r'.recorded = r.recorded := hcollect _
  have hopeners : r'.openers = r.openers := hcollect _
  constructor
  · refine hkept.snoc h.run (fun e he => hrecorded ▸ he) (fun e he => hopeners ▸ he)
      (hrecorded ▸ h.once) (fun e k hcall hl => ?_) (fun e k hcall ho => ?_)
      fun row hrow => .inl (hrows ▸ hrow)
    · cases hcall
      exact absurd hl hlaunch
    · cases hcall
      exact absurd ho hopens
  · refine h.snoc hserve (fun e he => .inr (hrecorded ▸ he)) (hrecorded ▸ h.once) fun w hw => ?_
    rw [hopen] at hw
    obtain ⟨opener, hsince⟩ := h.windows w hw
    exact ⟨opener, hsince.snoc rfl fun hp => hpast w hw hp.1⟩

/-- An event that is recorded in its window. -/
theorem observe_recorded (h : Follows config calls r) (hkept : Kept config calls r)
    (hserve : r.serve config (.observe event eventKind) =
      .ok (r.put { w with events := w.events ++ [event] }))
    (hw : r.openWindows.get? event.mint = some w) (hpast : ¬w.isPast event.slot)
    (hnew : (eventsOf (calls ++ [.observe event eventKind])).Nodup) :
    Kept config (calls ++ [.observe event eventKind])
        (r.put { w with events := w.events ++ [event] }) ∧
      Follows config (calls ++ [.observe event eventKind])
        (r.put { w with events := w.events ++ [event] }) := by
  obtain ⟨hmem, hmint⟩ := Table.mem_of_get? hw
  obtain ⟨opener, hsince⟩ := h.windows w hmem
  obtain ⟨hnotObserved, hnotRecorded⟩ := h.notMem_recorded hnew
  have hperm : (r.put { w with events := w.events ++ [event] }).recorded.Perm
      (event :: r.recorded) := by
    refine (collect_put _).trans ?_
    have hdrop := collect_drop (fun w : ShadowSnapshot ρ => w.events) hw
    show ((w.events ++ [event]) ++ (r.drop w.mint).collect _).Perm _
    rw [hmint, List.append_assoc]
    exact List.perm_middle.trans (hdrop.symm.cons event)
  have hhead : (w.events ++ [event]).head?.toList = w.events.head?.toList := by
    rw [List.head?_append, hsince.head]
    rfl
  have hopeners : (r.put { w with events := w.events ++ [event] }).openers.Perm r.openers := by
    refine (collect_put _).trans ?_
    have hdrop := collect_drop (fun w : ShadowSnapshot ρ => w.events.head?.toList) hw
    show ((w.events ++ [event]).head?.toList ++ (r.drop w.mint).collect _).Perm _
    rw [hhead, hmint]
    exact hdrop.symm
  have honce : (r.put { w with events := w.events ++ [event] }).recorded.Nodup :=
    hperm.nodup_iff.2 (List.nodup_cons.2 ⟨hnotRecorded, h.once⟩)
  constructor
  · refine hkept.snoc h.run (fun e he => hperm.mem_iff.2 (List.mem_cons_of_mem _ he))
      (fun e he => hopeners.mem_iff.2 he) honce (fun e k hcall _ => ?_) (fun e k hcall ho => ?_)
      fun row hrow => .inl hrow
    · cases hcall
      exact hperm.mem_iff.2 List.mem_cons_self
    · cases hcall
      rw [ho.2.2.1] at hw
      cases hw
  · refine h.snoc hserve (fun e he => ?_) honce fun w' hw' => ?_
    · exact (List.mem_cons.1 (hperm.mem_iff.1 he)).imp_left fun heq => congrArg some heq.symm
    · rcases Table.mem_upsert.1 hw' with rfl | ⟨hold, hother⟩
      · have hopen : OpenSince config (calls ++ [.observe event eventKind]) w opener :=
          hsince.snoc rfl fun hp => hpast hp.2
        refine ⟨opener, ?_, hopen.opened, hopen.mint, hopen.since⟩
        rw [List.head?_append, hsince.head]
        rfl
      · obtain ⟨opener', hsince'⟩ := h.windows w' hold
        exact ⟨opener', hsince'.snoc rfl fun hp => hother (hp.1.symm.trans hmint.symm)⟩

/-- An event past its window flushes it, and is recorded nowhere. -/
theorem observe_past (h : Follows config calls r) (hkept : Kept config calls r)
    (hserve : r.serve config (.observe event eventKind) =
      .ok ((r.drop event.mint).appendRow w "complete"))
    (hw : r.openWindows.get? event.mint = some w) (hpast : w.isPast event.slot)
    (hquote : event.mint ∉ quoteMints)
    (hnew : (eventsOf (calls ++ [.observe event eventKind])).Nodup) :
    (Kept config (calls ++ [.observe event eventKind])
        ((r.drop event.mint).appendRow w "complete") ↔
      eventKind.any EventKind.opensWindow = false) ∧
      Follows config (calls ++ [.observe event eventKind])
        ((r.drop event.mint).appendRow w "complete") := by
  obtain ⟨hmem, hmint⟩ := Table.mem_of_get? hw
  obtain ⟨opener, hsince⟩ := h.windows w hmem
  obtain ⟨hnotObserved, hnotRecorded⟩ := h.notMem_recorded hnew
  have hrecorded : ((r.drop event.mint).appendRow w "complete").recorded.Perm r.recorded :=
    collect_flushed _ hw _
  have hopeners : ((r.drop event.mint).appendRow w "complete").openers.Perm r.openers :=
    collect_flushed _ hw _
  constructor
  · constructor
    · intro hkept'
      by_contra hany
      have hlaunch := hkept'.launches event eventKind
        (List.mem_append_right _ (List.mem_singleton_self _))
        ⟨hquote, by simpa using hany⟩
      exact hnotRecorded (hrecorded.mem_iff.1 hlaunch)
    · intro hany
      refine hkept.snoc h.run (fun e he => hrecorded.mem_iff.2 he)
        (fun e he => hopeners.mem_iff.2 he) (hrecorded.nodup_iff.2 h.once)
        (fun e k hcall hl => ?_) (fun e k hcall ho => ?_) fun row hrow => ?_
      · cases hcall
        rw [hl.2] at hany
        cases hany
      · cases hcall
        rw [ho.2.2.1] at hw
        cases hw
      · rcases List.mem_append.1 hrow with hold | hflushed
        · exact .inl hold
        · obtain rfl := List.mem_singleton.1 hflushed
          -- the window was open without interruption until this event
          refine .inr fun _ =>
            ⟨opener, hsince.head, .observe event eventKind, ?_, hmint.symm, hpast⟩
          rw [sinceEvent_snoc hsince.opened.mem, List.takeWhile_append_of_pos]
          · exact List.mem_append_right _ (by simp [RecorderCall.interrupts])
          · intro c hc
            simp [(hsince.since c hc).1]
  · refine h.snoc hserve (fun e he => .inr (hrecorded.mem_iff.1 he)) (hrecorded.nodup_iff.2 h.once)
      fun w' hw' => ?_
    obtain ⟨hold, hother⟩ := Table.mem_remove.1 hw'
    obtain ⟨opener', hsince'⟩ := h.windows w' hold
    exact ⟨opener', hsince'.snoc rfl fun hp => hother hp.1.symm⟩

/-- The window an event opens, with the event in it. -/
def LaunchEvent.opened (config : RecorderConfig) (event : LaunchEvent ρ) : ShadowSnapshot ρ :=
  { event.window config with events := [event] }

/-- An event that opens a window. -/
theorem observe_opened {r₁ : ShadowRecorder ρ} (h : Follows config calls r)
    (hkept : Kept config calls r)
    (hserve : r.serve config (.observe event eventKind) = .ok (r₁.put (event.opened config)))
    (hcollect : ∀ {β : Type} (g : ShadowSnapshot ρ → List β),
      (r₁.collect g).Perm (r.collect g))
    (hwindows : ∀ w ∈ r₁.openWindows.rows, w ∈ r.openWindows.rows)
    (hrows : ∀ row ∈ r₁.rows, row ∈ r.rows ∨ row.completenessStatus ≠ "complete")
    (hnone : r₁.openWindows.get? event.mint = none) (hopens : r.Opens config event eventKind)
    (hnew : (eventsOf (calls ++ [.observe event eventKind])).Nodup) :
    Kept config (calls ++ [.observe event eventKind]) (r₁.put (event.opened config)) ∧
      Follows config (calls ++ [.observe event eventKind]) (r₁.put (event.opened config)) := by
  obtain ⟨hnotObserved, hnotRecorded⟩ := h.notMem_recorded hnew
  have hdrop : r₁.drop event.mint = r₁ := by
    rw [ShadowRecorder.drop, Table.remove_of_get?_none hnone]
  have hperm : ∀ (g : ShadowSnapshot ρ → List (LaunchEvent ρ)), g (event.opened config) = [event] →
      ((r₁.put (event.opened config)).collect g).Perm (event :: r.collect g) := by
    intro g hg
    refine (collect_put g).trans ?_
    show (g (event.opened config) ++ (r₁.drop event.mint).collect g).Perm _
    rw [hg, hdrop]
    exact (hcollect g).cons event
  have hrecorded : (r₁.put (event.opened config)).recorded.Perm (event :: r.recorded) :=
    hperm _ rfl
  have hopeners : (r₁.put (event.opened config)).openers.Perm (event :: r.openers) := hperm _ rfl
  have honce : (r₁.put (event.opened config)).recorded.Nodup :=
    hrecorded.nodup_iff.2 (List.nodup_cons.2 ⟨hnotRecorded, h.once⟩)
  constructor
  · refine hkept.snoc h.run (fun e he => hrecorded.mem_iff.2 (List.mem_cons_of_mem _ he))
      (fun e he => hopeners.mem_iff.2 (List.mem_cons_of_mem _ he)) honce
      (fun e k hcall _ => ?_) (fun e k hcall _ => ?_) fun row hrow =>
        (hrows row hrow).imp_right fun hne hstatus => absurd hstatus hne
    · cases hcall
      exact hrecorded.mem_iff.2 List.mem_cons_self
    · cases hcall
      exact hopeners.mem_iff.2 List.mem_cons_self
  · refine h.snoc hserve (fun e he => ?_) honce fun w hw => ?_
    · exact (List.mem_cons.1 (hrecorded.mem_iff.1 he)).imp_left fun heq => congrArg some heq.symm
    · rcases Table.mem_upsert.1 hw with rfl | ⟨hold, hother⟩
      · refine ⟨event, rfl, (openedBy_snoc h.run).2 (.inr ⟨eventKind, rfl, hopens⟩), rfl, ?_⟩
        rw [sinceEvent_new hnotObserved rfl]
        exact fun c hc => absurd hc List.not_mem_nil
      · obtain ⟨opener, hsince⟩ := h.windows w (hwindows w hold)
        exact ⟨opener, hsince.snoc rfl fun hp => hother hp.1.symm⟩

/-! ### Shutdown and reconnect -/

/-- A flush of windows that are all dated loses none; only its label may be wrong. -/
theorem flushAll_dated_step (call : RecorderCall ρ) {status : String} (h : Follows config calls r)
    (hkept : Kept config calls r)
    (hserve : r.serve config call = .ok (r.flushAll status).2) (hcall : call.event? = none)
    (hdates : ∀ w ∈ r.openWindows.rows, w.hasEventDate) :
    (Kept config (calls ++ [call]) (r.flushAll status).2 ↔
      (status = "complete" → r.openWindows.rows = [])) ∧
      Follows config (calls ++ [call]) (r.flushAll status).2 := by
  obtain ⟨hopen, hrows⟩ := flushAll_dated status rfl hdates
  have hcollect : ∀ {β : Type} (g : ShadowSnapshot ρ → List β),
      (r.flushAll status).2.collect g = r.collect g := by
    intro β g
    simp [ShadowRecorder.collect, ShadowRecorder.snapshots, hopen, hrows, Function.comp_def]
  have hrecorded : (r.flushAll status).2.recorded = r.recorded := hcollect _
  have hopeners : (r.flushAll status).2.openers = r.openers := hcollect _
  have hnot : ∀ e k, call ≠ .observe e k := by
    rintro e k rfl
    cases hcall
  constructor
  · constructor
    · intro hkept' hstatus
      by_contra hne
      obtain ⟨w, hw⟩ := List.exists_mem_of_ne_nil _ hne
      exact h.not_seenPast hw hcall (hkept'.complete { w with completenessStatus := status }
        (hrows ▸ List.mem_append_right _ (List.mem_map.2 ⟨w, hw, rfl⟩)) hstatus)
    · intro hempty
      refine hkept.snoc h.run (fun e he => hrecorded ▸ he) (fun e he => hopeners ▸ he)
        (hrecorded ▸ h.once) (fun e k heq => absurd heq (hnot e k))
        (fun e k heq => absurd heq (hnot e k)) fun row hrow => ?_
      rw [hrows] at hrow
      rcases List.mem_append.1 hrow with hold | hflushed
      · exact .inl hold
      · refine .inr fun hstatus => ?_
        obtain ⟨w, hw, rfl⟩ := List.mem_map.1 hflushed
        rw [hempty hstatus] at hw
        cases hw
  · refine h.snoc hserve (fun e he => .inr (hrecorded ▸ he)) (hrecorded ▸ h.once) fun w hw => ?_
    rw [hopen] at hw
    cases hw

/-- A flush of everything. -/
theorem flushAll_step (call : RecorderCall ρ) {status : String} (h : Follows config calls r)
    (hkept : Kept config calls r)
    (hserve : r.serve config call = .ok (r.flushAll status).2) (hcall : call.event? = none) :
    (Kept config (calls ++ [call]) (r.flushAll status).2 ↔
      (∀ w ∈ r.openWindows.rows, w.hasEventDate) ∧
        (status = "complete" → r.openWindows.rows = [])) ∧
      ((∀ w ∈ r.openWindows.rows, w.hasEventDate) →
        Follows config (calls ++ [call]) (r.flushAll status).2) := by
  by_cases hdates : ∀ w ∈ r.openWindows.rows, w.hasEventDate
  · obtain ⟨hkept', hfollows⟩ := flushAll_dated_step call h hkept hserve hcall hdates
    exact ⟨hkept'.trans (and_iff_right hdates).symm, fun _ => hfollows⟩
  · obtain ⟨w, hw, hlost⟩ := flushAll_undated status rfl hdates
    exact ⟨iff_of_false (not_kept_of_lost h hw (hlost _)) fun hsafe => hdates hsafe.1,
      fun hall => absurd hall hdates⟩

/-! ### Every call -/

variable (config) in
omit [DecidableEq ρ] in
/-- What `observe` does where no window of the mint is open and one may be. -/
theorem observe_new (hquote : event.mint ∉ quoteMints)
    (hnone : r.openWindows.get? event.mint = none) (hmay : mayOpenWindow eventKind = true) :
    r.serve config (.observe event eventKind) =
      if config.maxOpenWindows ≤ r.openWindows.rows.length then
        match r.openWindows.rows.head? with
        | none => .ok r
        | some oldest =>
            if oldest.hasEventDate then
              .ok (((r.drop oldest.mint).appendRow oldest "CENSORED").put (event.opened config))
            else .ok (r.drop oldest.mint)
      else .ok (r.put (event.opened config)) := by
  have hattribute : ∀ r : ShadowRecorder ρ, ((r.put (event.window config)).attribute event).2 =
      r.put (event.opened config) := by
    intro r
    have hget : (r.put (event.window config)).openWindows.get? event.mint =
        some (event.window config) := by
      rw [ShadowRecorder.put, Table.get?_upsert]
      exact if_pos rfl
    have hpast : ¬(event.window config).isPast event.slot :=
      not_lt.2 (Nat.le_add_right event.slot config.firstKSlots)
    rw [ShadowRecorder.attribute, hget]
    dsimp only
    rw [if_neg hpast]
    have hupsert : (r.openWindows.upsert (event.window config)).upsert (event.opened config) =
        r.openWindows.upsert (event.opened config) :=
      Table.upsert_upsert (show (event.window config).mint = (event.opened config).mint from rfl) _
    exact congrArg (fun t => ({ r with openWindows := t } : ShadowRecorder ρ)) hupsert
  simp only [ShadowRecorder.serve, ShadowRecorder.observe, if_neg hquote, hnone, hmay,
    Option.isNone_none, if_true, ShadowRecorder.openWindow, ge_iff_le]
  split_ifs with hroom
  · cases hhead : r.openWindows.rows.head? with
    | none => rfl
    | some oldest =>
        obtain ⟨windows, hwindows⟩ := List.head?_eq_some_iff.1 hhead
        dsimp only
        rw [flush_of_get? "CENSORED" (get?_head hwindows)]
        split_ifs with hdate
        · exact congrArg _ (hattribute _)
        · rfl
  · exact congrArg _ (hattribute _)

/-- An event whose mint has an open window. -/
theorem observe_open (h : Follows config calls r) (hkept : Kept config calls r)
    (hquote : event.mint ∉ quoteMints) (hw : r.openWindows.get? event.mint = some w)
    (hnew : (eventsOf (calls ++ [.observe event eventKind])).Nodup) :
    ∃ r', r.serve config (.observe event eventKind) = .ok r' ∧
      (Kept config (calls ++ [.observe event eventKind]) r' ↔
        r.Safe config (.observe event eventKind)) ∧
      (r.Safe config (.observe event eventKind) →
        Follows config (calls ++ [.observe event eventKind]) r') := by
  have hserve : r.serve config (.observe event eventKind) = .ok (r.attribute event).2 := by
    simp only [ShadowRecorder.serve, ShadowRecorder.observe, if_neg hquote, hw, Option.isNone_some,
      Bool.false_eq_true, if_false]
  have hsafe : r.Safe config (.observe event eventKind) ↔ (w.isPast event.slot →
      eventKind.any EventKind.opensWindow = false ∧ w.hasEventDate) := by
    simp only [ShadowRecorder.Safe, hw]
    exact ⟨fun hs => hs hquote, fun hs _ => hs⟩
  rw [ShadowRecorder.attribute, hw] at hserve
  dsimp only at hserve
  rw [hsafe]
  by_cases hpast : w.isPast event.slot
  · rw [if_pos hpast, flush_of_get? "complete" hw] at hserve
    by_cases hdate : w.hasEventDate
    · rw [if_pos hdate] at hserve
      obtain ⟨hkeeps, hfollows⟩ := observe_past h hkept hserve hw hpast hquote hnew
      refine ⟨_, hserve, hkeeps.trans ?_, fun _ => hfollows⟩
      exact ⟨fun hany _ => ⟨hany, hdate⟩, fun hs => (hs hpast).1⟩
    · rw [if_neg hdate] at hserve
      have hlost := collect_drop (fun w : ShadowSnapshot ρ => w.events) hw
      exact ⟨_, hserve, iff_of_false (not_kept_of_lost h (Table.mem_of_get? hw).1 hlost)
        fun hs => hdate (hs hpast).2, fun hs => absurd (hs hpast).2 hdate⟩
  · rw [if_neg hpast] at hserve
    obtain ⟨hkept', hfollows⟩ := observe_recorded h hkept hserve hw hpast hnew
    exact ⟨_, hserve, iff_of_true hkept' fun hp => absurd hp hpast, fun _ => hfollows⟩

/-- An event that opens a window in the place of the oldest, which is flushed. -/
theorem observe_evicting {oldest : ShadowSnapshot ρ} (h : Follows config calls r)
    (hkept : Kept config calls r) (hhead : r.openWindows.rows.head? = some oldest)
    (hserve : r.serve config (.observe event eventKind) =
      .ok (((r.drop oldest.mint).appendRow oldest "CENSORED").put (event.opened config)))
    (hopens : r.Opens config event eventKind)
    (hnew : (eventsOf (calls ++ [.observe event eventKind])).Nodup) :
    Kept config (calls ++ [.observe event eventKind])
        (((r.drop oldest.mint).appendRow oldest "CENSORED").put (event.opened config)) ∧
      Follows config (calls ++ [.observe event eventKind])
        (((r.drop oldest.mint).appendRow oldest "CENSORED").put (event.opened config)) := by
  obtain ⟨windows, hwindows⟩ := List.head?_eq_some_iff.1 hhead
  have hget := get?_head hwindows
  have hnone : (r.openWindows.remove oldest.mint).get? event.mint = none := by
    rw [Table.get?_remove, hopens.2.2.1]
    exact ite_self none
  refine observe_opened h hkept hserve (fun g => collect_flushed g hget _)
    (fun w hw => (Table.mem_remove.1 hw).1) (fun row hrow => ?_) hnone hopens hnew
  refine (List.mem_append.1 hrow).imp_right fun hflushed => ?_
  rw [List.mem_singleton.1 hflushed]
  show "CENSORED" ≠ "complete"
  decide

/-- An event whose mint has no open window, and may open one. -/
theorem observe_closed (h : Follows config calls r) (hkept : Kept config calls r)
    (hquote : event.mint ∉ quoteMints) (hnone : r.openWindows.get? event.mint = none)
    (hmay : mayOpenWindow eventKind = true)
    (hnew : (eventsOf (calls ++ [.observe event eventKind])).Nodup) :
    ∃ r', r.serve config (.observe event eventKind) = .ok r' ∧
      (Kept config (calls ++ [.observe event eventKind]) r' ↔
        r.Safe config (.observe event eventKind)) ∧
      (r.Safe config (.observe event eventKind) →
        Follows config (calls ++ [.observe event eventKind]) r') := by
  have hserve := observe_new config hquote hnone hmay
  have hsafe : r.Safe config (.observe event eventKind) ↔
      (config.maxOpenWindows ≤ r.openWindows.rows.length →
        match r.openWindows.rows.head? with
        | some oldest => oldest.hasEventDate
        | none => eventKind.any EventKind.opensWindow = false) := by
    simp only [ShadowRecorder.Safe, hnone]
    exact ⟨fun hs => hs hquote hmay, fun hs _ _ => hs⟩
  rw [hsafe]
  by_cases hroom : config.maxOpenWindows ≤ r.openWindows.rows.length
  · rw [if_pos hroom] at hserve
    cases hhead : r.openWindows.rows.head? with
    | none =>
        -- no window may be open: `next` raises, and the event is recorded nowhere
        rw [hhead] at hserve
        have hnil := List.head?_eq_none_iff.1 hhead
        refine ⟨r, hserve, ?_⟩
        cases hany : eventKind.any EventKind.opensWindow with
        | true =>
            refine ⟨iff_of_false (fun hkept' => ?_) fun hs => ?_, fun hs => ?_⟩
            · exact (h.notMem_recorded hnew).2 (hkept'.launches event eventKind
                (List.mem_append_right _ (List.mem_singleton_self _)) ⟨hquote, hany⟩)
            · cases hs hroom
            · cases hs hroom
        | false =>
            obtain ⟨hkept', hfollows⟩ := observe_ignored h hkept hserve rfl rfl
              (fun hl => by rw [hl.2] at hany; cases hany)
              (fun ho => by
                obtain ⟨oldest, holdest, -⟩ := ho.2.2.2 hroom
                rw [hhead] at holdest
                cases holdest)
              (fun w hw => by rw [hnil] at hw; cases hw)
            exact ⟨iff_of_true hkept' fun _ => rfl, fun _ => hfollows⟩
    | some oldest =>
        rw [hhead] at hserve
        dsimp only at hserve
        by_cases hdate : oldest.hasEventDate
        · rw [if_pos hdate] at hserve
          obtain ⟨hkept', hfollows⟩ := observe_evicting h hkept hhead hserve
            ⟨hquote, hmay, hnone, fun _ => ⟨oldest, hhead, hdate⟩⟩ hnew
          exact ⟨_, hserve, iff_of_true hkept' fun _ => hdate, fun _ => hfollows⟩
        · rw [if_neg hdate] at hserve
          obtain ⟨windows, hwindows⟩ := List.head?_eq_some_iff.1 hhead
          have hget := get?_head hwindows
          have hlost := collect_drop (fun w : ShadowSnapshot ρ => w.events) hget
          exact ⟨_, hserve, iff_of_false (not_kept_of_lost h (Table.mem_of_get? hget).1 hlost)
            fun hs => hdate (hs hroom), fun hs => absurd (hs hroom) hdate⟩
  · rw [if_neg hroom] at hserve
    obtain ⟨hkept', hfollows⟩ := observe_opened h hkept hserve (fun g => List.Perm.refl _)
      (fun w hw => hw) (fun row hrow => .inl hrow) hnone
      ⟨hquote, hmay, hnone, fun hfull => absurd hfull hroom⟩ hnew
    exact ⟨_, hserve, iff_of_true hkept' fun hfull => absurd hfull hroom, fun _ => hfollows⟩

/-- **One call** keeps the corpus iff it is safe. -/
theorem serve_kept (call : RecorderCall ρ) (h : Follows config calls r)
    (hkept : Kept config calls r) (hnew : (eventsOf (calls ++ [call])).Nodup) :
    ∃ r', r.serve config call = .ok r' ∧
      (Kept config (calls ++ [call]) r' ↔ r.Safe config call) ∧
      (r.Safe config call → Follows config (calls ++ [call]) r') := by
  cases call with
  | onReconnect =>
      obtain ⟨hkeeps, hfollows⟩ := flushAll_step .onReconnect h hkept rfl rfl
      refine ⟨_, rfl, hkeeps.trans ?_, hfollows⟩
      exact and_iff_left fun heq => absurd heq (by decide)
  | flushAll status =>
      obtain ⟨hkeeps, hfollows⟩ := flushAll_step (.flushAll status) h hkept rfl rfl
      exact ⟨_, rfl, hkeeps, fun hsafe => hfollows hsafe.1⟩
  | observe event eventKind =>
      by_cases hquote : event.mint ∈ quoteMints
      · have hserve : r.serve config (.observe event eventKind) = .ok r.orphan := by
          simp only [ShadowRecorder.serve, ShadowRecorder.observe, if_pos hquote]
        obtain ⟨hkept', hfollows⟩ := observe_ignored h hkept hserve rfl rfl
          (fun hl => hl.1 hquote) (fun ho => ho.1 hquote) fun w hw heq => by
            obtain ⟨opener, hsince⟩ := h.windows w hw
            rw [heq, hsince.mint] at hquote
            exact hsince.opened.notMem_quoteMints hquote
        exact ⟨_, hserve, iff_of_true hkept' fun hq => absurd hquote hq, fun _ => hfollows⟩
      cases hget : r.openWindows.get? event.mint with
      | some w => exact observe_open h hkept hquote hget hnew
      | none =>
          by_cases hmay : mayOpenWindow eventKind = true
          · exact observe_closed h hkept hquote hget hmay hnew
          · have hserve : r.serve config (.observe event eventKind) = .ok r.orphan := by
              simp only [ShadowRecorder.serve, ShadowRecorder.observe, if_neg hquote, hget,
                Option.isNone_none, if_true, if_neg hmay]
            have hany : ¬eventKind.any EventKind.opensWindow = true := by
              cases eventKind with
              | none => simp
              | some k => exact hmay
            obtain ⟨hkept', hfollows⟩ := observe_ignored h hkept hserve rfl rfl
              (fun hl => hany hl.2) (fun ho => hmay ho.2.1) fun w hw heq =>
                Table.get?_eq_none.1 hget w hw heq.symm
            refine ⟨_, hserve, iff_of_true hkept' fun _ => ?_, fun _ => hfollows⟩
            rw [hget]
            exact fun hm => absurd hm hmay

end Invariant

/-! ### Runs -/

/-- The calls before have distinct events, too. -/
theorem nodup_eventsOf_of_append {before after : List (RecorderCall ρ)}
    (h : (eventsOf (before ++ after)).Nodup) : (eventsOf before).Nodup := by
  rw [eventsOf, List.filterMap_append] at h
  exact h.of_append_left

/-- Where the events of a run are distinct: **kept throughout iff every call is safe.** -/
theorem everyState_kept_iff [DecidableEq ρ] (config : RecorderConfig)
    {calls : List (RecorderCall ρ)} (hdistinct : (eventsOf calls).Nodup) :
    EveryState (ShadowRecorder.serve config) (Kept config) {} calls ↔
      EveryStep (ShadowRecorder.serve config) (fun _ r call => r.Safe config call) {} calls := by
  -- runs of any events, of which only those with distinct events are asked
  have hguarded : EveryState (ShadowRecorder.serve config)
      (fun calls r => (eventsOf calls).Nodup → Kept config calls r) {} calls ↔
      EveryStep (ShadowRecorder.serve config)
        (fun calls r call => (eventsOf (calls ++ [call])).Nodup → r.Safe config call) {} calls := by
    refine everyState_iff_everyStep_history
      (J := fun calls r => (eventsOf calls).Nodup → Follows config calls r) (fun _ => ?_)
      (fun _ => ?_) (fun before r call hfollows hkept => ?_) calls
    · exact ⟨by simp, fun e h => absurd h.mem (by simp [eventsOf]), List.nodup_nil, by simp⟩
    · exact ⟨rfl, by simp [ShadowRecorder.recorded, ShadowRecorder.collect,
        ShadowRecorder.snapshots, Table.empty], List.nodup_nil, by simp [Table.empty]⟩
    · by_cases hnew : (eventsOf (before ++ [call])).Nodup
      · have hbefore := nodup_eventsOf_of_append hnew
        obtain ⟨r', hserve, hiff, hnext⟩ :=
          serve_kept call (hfollows hbefore) (hkept hbefore) hnew
        refine ⟨r', hserve, ?_, fun hsafe _ => hnext (hsafe hnew)⟩
        simpa only [hnew, true_imp_iff] using hiff
      · obtain ⟨r', hserve⟩ : ∃ r', r.serve config call = .ok r' := by
          cases call <;> exact ⟨_, rfl⟩
        exact ⟨r', hserve, iff_of_true (fun h => absurd h hnew) fun h => absurd h hnew,
          fun _ h => absurd h hnew⟩
  constructor
  · intro h before call after r hsplit hrun
    refine hguarded.1 (fun before after r hsplit hrun _ => h before after r hsplit hrun) before call
      after r hsplit hrun ?_
    rw [hsplit, ← List.singleton_append, ← List.append_assoc] at hdistinct
    exact nodup_eventsOf_of_append hdistinct
  · intro h before after r hsplit hrun
    refine hguarded.2 (fun before call after r hsplit hrun _ => h before call after r hsplit hrun)
      before after r hsplit hrun ?_
    rw [hsplit] at hdistinct
    exact nodup_eventsOf_of_append hdistinct

/-- The event of a call, with the call's position. -/
def RecorderCall.number (position : ℕ) : RecorderCall ρ → RecorderCall (ℕ × ρ)
  | .observe event eventKind => .observe { event with row := (position, event.row) } eventKind
  | .onReconnect => .onReconnect
  | .flushAll status => .flushAll status

/-- The run with its events told apart. -/
def numbered (calls : List (RecorderCall ρ)) : List (RecorderCall (ℕ × ρ)) :=
  calls.mapIdx RecorderCall.number

theorem numbered_snoc (calls : List (RecorderCall ρ)) (call : RecorderCall ρ) :
    numbered (calls ++ [call]) = numbered calls ++ [call.number calls.length] := by
  simp [numbered, List.mapIdx_append]

theorem nodup_numbered (calls : List (RecorderCall ρ)) : (eventsOf (numbered calls)).Nodup := by
  suffices h : (eventsOf (numbered calls)).Nodup ∧
      ∀ event ∈ eventsOf (numbered calls), event.row.1 < calls.length from h.1
  induction calls using List.reverseRecOn with
  | nil => exact ⟨List.nodup_nil, by simp [numbered, eventsOf]⟩
  | append_singleton calls call ih =>
      rw [numbered_snoc, eventsOf_snoc, List.length_append, List.length_singleton]
      obtain ⟨hnodup, hlt⟩ := ih
      cases call with
      | observe event eventKind =>
          have hevent : (RecorderCall.number calls.length (.observe event eventKind)).event? =
              some { event with row := (calls.length, event.row) } := rfl
          rw [hevent, Option.toList_some]
          constructor
          · refine List.nodup_append.2 ⟨hnodup, List.nodup_singleton _, fun a ha b hb heq => ?_⟩
            have hrow := hlt a ha
            rw [heq, List.mem_singleton.1 hb] at hrow
            exact absurd hrow (lt_irrefl _)
          · intro e he
            rcases List.mem_append.1 he with he | he
            · exact (hlt e he).trans (Nat.lt_succ_self _)
            · rw [List.mem_singleton.1 he]
              exact Nat.lt_succ_self _
      | _ =>
          refine ⟨by simpa [RecorderCall.number, RecorderCall.event?] using hnodup, fun e he => ?_⟩
          exact (hlt e (by simpa [RecorderCall.number, RecorderCall.event?] using he)).trans
            (Nat.lt_succ_self _)

/-- **No launch disappears iff every call is safe.**  In every state of a run every launch is
recorded in exactly one snapshot, every window opened is flushed or open, once, and
every complete snapshot has seen an event past its window, iff no call of the run is a launch
past the open window of its mint, a shutdown as complete with windows open, or a flush of a
window whose date is out of range. -/
theorem shadow_corpus_kept_iff [DecidableEq ρ] (config : RecorderConfig)
    (calls : List (RecorderCall ρ)) :
    EveryState (ShadowRecorder.serve config) (Kept config) {} (numbered calls) ↔
      EveryStep (ShadowRecorder.serve config) (fun _ r call => r.Safe config call) {}
        (numbered calls) :=
  everyState_kept_iff config (nodup_numbered calls)

/-- An event of a mint at a slot. -/
def exampleEvent (slot : ℕ) : LaunchEvent Unit := ⟨"mint", slot, 1, ()⟩

/-- The migration of a token whose window is past is lost; and a shutdown labels a window that saw
one event complete. -/
theorem shadow_corpus_loses_launch :
    ¬EveryState (ShadowRecorder.serve {}) (Kept {}) {}
      (numbered [.observe (exampleEvent 100) (some .create),
        .observe (exampleEvent 200) (some .withdraw)]) ∧
    ¬EveryState (ShadowRecorder.serve {}) (Kept {}) {}
      (numbered [.observe (exampleEvent 100) (some .create), .flushAll "complete"]) := by
  constructor
  · intro h
    have hsteps := (everyState_kept_iff _ (nodup_numbered _)).1 h
    have hsafe := hsteps [_] _ [] _ rfl rfl (by decide)
    exact absurd (hsafe (by decide)).1 (by decide)
  · intro h
    have hsteps := (everyState_kept_iff _ (nodup_numbered _)).1 h
    have hsafe := hsteps [_] _ [] _ rfl rfl
    exact absurd (hsafe.2 rfl) (by decide)

end Ingestion
end AatsSniper

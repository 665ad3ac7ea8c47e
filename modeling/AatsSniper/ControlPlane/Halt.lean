/-
# What the operator halts stays halted

Interleavings of requests and calls of the loops (`PlaneOp`), of any length and in any order.

A kill sells what is open in its own call, and nothing is entered after it (`killed_for_good`).  A
breaker that has tripped keeps every event out until the operator resets it
(`halted_until_reset`): the SNIPE loop reads the copy in the store, and no call leaves a trip that
the copy does not tell (`Told`).  The mode is live only where both tokens were shown
(`live_needs_both_tokens`).
-/

import AatsSniper.Controller.Admission
import AatsSniper.Controller.ForcedExit
import AatsSniper.Controller.Projection
import AatsSniper.ControlPlane.Server

namespace AatsSniper
namespace ControlPlane

open Controller (Answers FastLoop Orchestrator OrchestratorConfig OrchestratorOp Outside Projects
  Sells TickCall emergencyFlattenAll_sells loop_orchestrate next_projects orchestrate orchestrateAll
  otherLaunch outside_orchestrate plainOrchestrator sampleLoop samplePosition silentVenue solLoop
  switches_orchestrate)

variable {E : Type} {cfg : OrchestratorConfig E} {config : ControlPlaneConfig} {rt : Runtime}
  {plane : Plane} {o : Orchestrator}

/-- A call enters nothing where the orchestrator is killed, or the store says that the breaker
tripped. -/
theorem entries_of_halted (h : o.killed = true ∨ o.loop.saysTripped) (op : OrchestratorOp E) :
    (orchestrate cfg o op).entries = o.entries := by
  have houtside : Outside cfg o op (orchestrate cfg o op).outside := outside_orchestrate op
  show (orchestrate cfg o op).outside.1 = o.entries
  generalize (orchestrate cfg o op).outside = outside at houtside
  cases houtside with
  | same _ => rfl
  | started => rfl
  | killed => rfl
  | entered hadmitted =>
      exfalso
      rcases h with hkilled | ⟨s, hs, htripped⟩
      · have halive := hadmitted.alive
        rw [hkilled] at halive
        cases halive
      · exact hadmitted.untripped s hs htripped

/-- What an orchestrator is killed in, it stays killed in, with the entries it has. -/
theorem killed_orchestrateAll (cfg : OrchestratorConfig E) (hkilled : o.killed = true)
    (calls : List (OrchestratorOp E)) :
    (orchestrateAll cfg o calls).killed = true ∧
      (orchestrateAll cfg o calls).entries = o.entries := by
  refine List.foldlRecOn calls (orchestrate cfg)
    (motive := fun o' : Orchestrator => o'.killed = true ∧ o'.entries = o.entries)
    ⟨hkilled, rfl⟩ ?_
  rintro o' ⟨hkilled', hentries⟩ op _
  exact ⟨(switches_orchestrate cfg o' op).1 (.inl hkilled'),
    (entries_of_halted (.inl hkilled') op).trans hentries⟩

/-- A trip of the breaker is told by the copy in the store. -/
def Told (o : Orchestrator) : Prop := o.loop.tripped → o.loop.saysTripped

/-- A call that is no reset leaves the breaker and its copy as they are, or the copy made anew. -/
theorem orchestrate_projects (op : OrchestratorOp E) (hop : ∀ token, op ≠ .breakerReset token) :
    Projects cfg.controller.fast o.loop (orchestrate cfg o op).loop := by
  rw [loop_orchestrate cfg o op hop]
  refine List.foldlRecOn _ (Controller.next cfg.controller)
    (motive := fun c : FastLoop => Projects cfg.controller.fast o.loop c) (.refl o.loop) ?_
  exact fun c hc call _ => hc.trans (next_projects cfg.controller c call)

theorem Told.of_projects {c c' : FastLoop} {cfg : Controller.FastConfig}
    (h : c.tripped → c.saysTripped) (hprojects : Projects cfg c c') :
    c'.tripped → c'.saysTripped := by
  intro htripped
  rcases hprojects.told with ⟨hstate, hcopy⟩ | hanew
  · have hbefore : c.tripped := by
      unfold FastLoop.tripped at htripped ⊢
      rw [← hstate]
      exact htripped
    exact (Controller.saysTripped_congr hcopy).2 (h hbefore)
  · exact ⟨_, hanew, htripped⟩

/-- **A call hides no trip.** -/
theorem told_orchestrate (h : Told o) (op : OrchestratorOp E) : Told (orchestrate cfg o op) := by
  by_cases hop : ∃ token, op = .breakerReset token
  · obtain ⟨token, rfl⟩ := hop
    intro htripped
    change (Breaker.reset o.loop.breaker token).2.state.state = .tripped at htripped
    unfold Breaker.reset at htripped
    split_ifs at htripped with hbefore
    · cases htripped
    · exact absurd htripped hbefore
  · exact Told.of_projects h (orchestrate_projects op fun token heq => hop ⟨token, heq⟩)

theorem told_orchestrateAll (h : Told o) (calls : List (OrchestratorOp E)) :
    Told (orchestrateAll cfg o calls) :=
  List.foldlRecOn calls (orchestrate cfg) (motive := Told) h fun _ ho op _ => told_orchestrate ho op

/-- A trip that is told stays, with the entries, through calls that are no reset. -/
theorem tripped_orchestrateAll (cfg : OrchestratorConfig E) (htold : Told o)
    (htripped : o.loop.tripped) (calls : List (OrchestratorOp E))
    (hcalls : ∀ call ∈ calls, ∀ token, call ≠ .breakerReset token) :
    (orchestrateAll cfg o calls).loop.tripped ∧
      (orchestrateAll cfg o calls).entries = o.entries := by
  have hall : Told (orchestrateAll cfg o calls) ∧ (orchestrateAll cfg o calls).loop.tripped ∧
      (orchestrateAll cfg o calls).entries = o.entries := by
    refine List.foldlRecOn calls (orchestrate cfg) (motive := fun o' : Orchestrator =>
      Told o' ∧ o'.loop.tripped ∧ o'.entries = o.entries) ⟨htold, htripped, rfl⟩ ?_
    rintro o' ⟨htold', htripped', hentries⟩ op hmem
    exact ⟨told_orchestrate htold' op, (orchestrate_projects op (hcalls op hmem)).stays htripped',
      (entries_of_halted (.inr (htold' htripped')) op).trans hentries⟩
  exact hall.2

/-- Only a request of the operator comes to a reset. -/
theorem not_reset_of_calls {op : PlaneOp E}
    (hop : ∀ headers, op = .request headers .breakerReset → ¬ config.IsOperator headers) :
    ∀ call ∈ op.calls config o, ∀ token, call ≠ .breakerReset token := by
  rintro call hcall token rfl
  cases op with
  | loop op hauto =>
      obtain rfl := List.mem_singleton.1 hcall
      exact hauto
  | request headers post =>
      change _ ∈ if config.IsOperator headers then post.calls o else [] at hcall
      split_ifs at hcall with hoperator
      · cases post with
        | breakerReset => exact hop headers rfl hoperator
        | riskConfig body => cases hcall
        | kill lands => simp [Post.calls] at hcall
        | flattenAll lands => simp [Post.calls] at hcall
        | flattenMint lands mint =>
            unfold Post.calls at hcall
            dsimp only at hcall
            split_ifs at hcall <;> simp at hcall
        | mode proposed => cases hcall
      · cases hcall

/-- No call of an interleaving hides a trip. -/
theorem told_serveAll (htold : Told plane.orchestrator) (ops : List (PlaneOp E)) :
    Told (serveAll cfg config rt plane ops).orchestrator := by
  refine List.foldlRecOn ops (serve cfg config rt)
    (motive := fun plane : Plane => Told plane.orchestrator) htold ?_
  intro plane htold op _
  rw [orchestrator_serve]
  exact told_orchestrateAll htold _

/-- A trip that is told stays, with the entries, through an interleaving without a reset. -/
theorem tripped_serveAll {ops : List (PlaneOp E)} (htold : Told plane.orchestrator)
    (htripped : plane.orchestrator.loop.tripped)
    (hreset : ∀ headers, .request headers .breakerReset ∈ ops → ¬ config.IsOperator headers) :
    (serveAll cfg config rt plane ops).orchestrator.loop.tripped ∧
      (serveAll cfg config rt plane ops).orchestrator.entries = plane.orchestrator.entries := by
  have hall := List.foldlRecOn ops (serve cfg config rt) (motive := fun plane' : Plane =>
    Told plane'.orchestrator ∧ plane'.orchestrator.loop.tripped ∧
      plane'.orchestrator.entries = plane.orchestrator.entries) ⟨htold, htripped, rfl⟩ (by
    rintro plane' ⟨htold', htripped', hentries⟩ op hmem
    rw [orchestrator_serve]
    have hcalls : ∀ call ∈ op.calls config plane'.orchestrator, ∀ token,
        call ≠ .breakerReset token :=
      not_reset_of_calls fun headers heq => hreset headers (heq ▸ hmem)
    obtain ⟨hstays, hsame⟩ := tripped_orchestrateAll cfg htold' htripped' _ hcalls
    exact ⟨told_orchestrateAll htold' _, hstays, hsame.trans hentries⟩)
  exact hall.2

/-- **A tripped breaker halts until the operator resets it.**  From a process whose store tells the
state of its breaker, in any interleaving: once the breaker has tripped it stays so, and no event is
handed to the venue, whatever is requested and whatever the loops do, as long as no request for its
reset shows the operator's token. -/
theorem halted_until_reset {before ops : List (PlaneOp E)} (hstart : Told plane.orchestrator)
    (htripped : (serveAll cfg config rt plane before).orchestrator.loop.tripped)
    (hreset : ∀ headers, .request headers .breakerReset ∈ ops → ¬ config.IsOperator headers) :
    (serveAll cfg config rt plane (before ++ ops)).orchestrator.loop.tripped ∧
      (serveAll cfg config rt plane (before ++ ops)).orchestrator.entries =
        (serveAll cfg config rt plane before).orchestrator.entries := by
  have hsplit : serveAll cfg config rt plane (before ++ ops) =
      serveAll cfg config rt (serveAll cfg config rt plane before) ops := List.foldl_append
  rw [hsplit]
  exact tripped_serveAll (told_serveAll hstart before) htripped hreset

/-- The server over the loops of `plainOrchestrator`. -/
def plainPlane (loop : FastLoop) : Plane where
  orchestrator := .start loop
  mode := .paper
  riskConfig := makeRiskConfig

/-- What the operator shows. -/
def operatorHeaders : Headers := { authorization := "Bearer dev-token" }

/-- A position falls by 2 %, and the tick trips the breaker.  A request with a wrong token for the
reset, a launch and another tick come after it. -/
theorem halted_until_reset_sample :
    let tick (mark : ℚ) : TickCall :=
      { now := 0, blockTimeMs := 0, currentSlot := 7, marks := fun _ => some mark,
        lands := fun _ _ _ => true }
    let before : List (PlaneOp Unit) :=
      [.loop (.startup 0 silentVenue) trivial, .loop (.tick (tick (49 / 50))) trivial]
    let ops : List (PlaneOp Unit) :=
      [.request { authorization := "Bearer guess" } .breakerReset,
        .loop (.launch (otherLaunch 2000)) trivial, .loop (.tick (tick 1)) trivial]
    let serveAll := serveAll plainOrchestrator {} wholeNumbers (plainPlane (solLoop 0))
    (serveAll (before ++ ops)).orchestrator.loop.tripped ∧
      (serveAll (before ++ ops)).orchestrator.entries = (serveAll before).orchestrator.entries := by
  intro tick before ops serveAll
  have htripped : (serveAll before).orchestrator.loop.breaker.state.state = .tripped := by
    decide +kernel
  refine halted_until_reset (fun h => absurd h ?_) htripped ?_
  · show ¬ ((solLoop 0).breaker.state.state = .tripped)
    decide +kernel
  · rintro headers hmem
    rcases List.mem_cons.1 hmem with heq | hmem
    · obtain ⟨rfl, -⟩ := PlaneOp.request.inj heq
      decide
    · simp at hmem

/-- **Killed for good.**  The operator's kill sells every position that is open or closing in its own
call; after it, in any interleaving, the switch stays set and no launch event is handed to the venue
any more.  Exits go on: a tick still sells what is left of a position. -/
theorem killed_for_good {headers : Headers} (hoperator : config.IsOperator headers)
    (lands : Answers) (ops : List (PlaneOp E)) :
    let killed := serve cfg config rt plane (.request headers (.kill lands))
    (∀ m pos, plane.orchestrator.loop.store.loadPosition m = some pos →
        pos.fsmState = .opened ∨ pos.fsmState = .closing →
        Sells m plane.orchestrator.loop killed.orchestrator.loop) ∧
      (serveAll cfg config rt killed ops).orchestrator.killed = true ∧
      (serveAll cfg config rt killed ops).orchestrator.entries = plane.orchestrator.entries := by
  intro killed
  have hkilled : killed.orchestrator =
      orchestrate cfg (orchestrate cfg plane.orchestrator .kill) (.flattenAll lands) := by
    show (serve cfg config rt plane (.request headers (.kill lands))).orchestrator = _
    rw [orchestrator_serve]
    show orchestrateAll cfg plane.orchestrator (if config.IsOperator headers then _ else []) = _
    rw [if_pos hoperator]
    rfl
  refine ⟨fun m pos hpos hstate => ?_, ?_⟩
  · rw [hkilled]
    exact emergencyFlattenAll_sells lands hpos hstate
  · refine List.foldlRecOn ops (serve cfg config rt) (motive := fun plane' : Plane =>
      plane'.orchestrator.killed = true ∧
        plane'.orchestrator.entries = plane.orchestrator.entries) ?_ ?_
    · rw [hkilled]
      exact ⟨rfl, rfl⟩
    · rintro plane' ⟨hkilled', hentries⟩ op _
      rw [orchestrator_serve]
      obtain ⟨hstays, hsame⟩ :=
        killed_orchestrateAll cfg hkilled' (op.calls config plane'.orchestrator)
      exact ⟨hstays, hsame.trans hentries⟩

/-- The operator kills a process that holds an open position; then an event of its mint comes. -/
theorem killed_for_good_sample :
    let killed := serve plainOrchestrator {} wholeNumbers (plainPlane sampleLoop)
      (.request operatorHeaders (.kill fun _ _ _ => true))
    Sells "m" (plainPlane sampleLoop).orchestrator.loop killed.orchestrator.loop ∧
      (serveAll plainOrchestrator {} wholeNumbers killed
        [.loop (.startup 0 silentVenue) trivial, .loop (.launch (otherLaunch 10)) trivial]
          ).orchestrator.entries = [] := by
  have hoperator : ({} : ControlPlaneConfig).IsOperator operatorHeaders := by decide
  obtain ⟨hsells, -, hentries⟩ := @killed_for_good Unit plainOrchestrator {} wholeNumbers
    (plainPlane sampleLoop) operatorHeaders hoperator (fun _ _ _ => true)
    [.loop (.startup 0 silentVenue) trivial, .loop (.launch (otherLaunch 10)) trivial]
  exact ⟨hsells "m" (samplePosition "m" .opened) (by decide +kernel) (.inl rfl), hentries⟩

/-- A call leaves the mode, or is a request of the operator for it; one for the live mode shows the
token of the CEO too, to a server that is not held to dry runs. -/
theorem mode_serve (cfg : OrchestratorConfig E) (config : ControlPlaneConfig) (rt : Runtime)
    (plane : Plane) (op : PlaneOp E) : (serve cfg config rt plane op).mode = plane.mode ∨
    ∃ headers proposed, op = .request headers (.mode (some proposed)) ∧
      (serve cfg config rt plane op).mode = proposed ∧ config.IsOperator headers ∧
      (proposed = .live → config.dryRunEnabled = false ∧ config.IsCeo headers) := by
  cases op with
  | loop op hop => exact .inl rfl
  | request headers post =>
      show (respond cfg config rt plane headers post).2.mode = plane.mode ∨ ∃ headers' proposed, _ ∧
        (respond cfg config rt plane headers post).2.mode = proposed ∧ _
      by_cases hoperator : config.IsOperator headers
      · unfold respond
        rw [if_pos hoperator]
        cases post with
        | riskConfig body => exact .inl rfl
        | kill lands => exact .inl rfl
        | flattenAll lands => exact .inl rfl
        | flattenMint lands mint =>
            left
            show (postFlattenMint cfg plane lands mint).2.mode = plane.mode
            unfold postFlattenMint
            split <;> rfl
        | breakerReset =>
            left
            show (postBreakerReset cfg plane).2.mode = plane.mode
            unfold postBreakerReset
            split_ifs
            · split <;> rfl
            · rfl
        | mode proposed =>
            cases proposed with
            | none => exact .inl rfl
            | some proposed =>
                show (postMode config plane headers (some proposed)).2.mode = plane.mode ∨ _
                dsimp only
                unfold postMode
                dsimp only
                split_ifs with hfenced
                · exact .inl rfl
                · refine .inr ⟨headers, proposed, rfl, rfl, hoperator, ?_⟩
                  rintro rfl
                  -- nothing is above the live mode
                  have hup : modeIsDownward plane.mode .live = false := by
                    cases plane.mode <;> rfl
                  have hshown : ¬ (config.dryRunEnabled = true ∨ ¬ config.IsCeo headers) :=
                    fun h => hfenced ⟨hup, rfl, h⟩
                  exact ⟨Bool.eq_false_iff.2 fun h => hshown (.inl h),
                    not_not.1 fun h => hshown (.inr h)⟩
      · rw [respond_of_not_operator cfg config rt plane hoperator]
        exact .inl rfl

/-- **The live mode needs both tokens.**  In any interleaving from a mode that is not live: if the
mode is live in the end, the server is not held to dry runs, and a request for the live mode showed
the operator's token and the one of the CEO. -/
theorem live_needs_both_tokens {ops : List (PlaneOp E)} (hstart : plane.mode ≠ .live)
    (hlive : (serveAll cfg config rt plane ops).mode = .live) :
    config.dryRunEnabled = false ∧ ∃ headers, .request headers (.mode (some .live)) ∈ ops ∧
      config.IsOperator headers ∧ config.IsCeo headers := by
  induction ops using List.reverseRecOn with
  | nil => exact absurd hlive hstart
  | append_singleton ops op ih =>
      unfold serveAll at hlive ih
      rw [List.foldl_append] at hlive
      rcases mode_serve cfg config rt _ op with hsame | ⟨headers, proposed, rfl, hmode, hshown⟩
      · obtain ⟨hdry, headers, hmem, hboth⟩ := ih (hsame ▸ hlive)
        exact ⟨hdry, headers, List.mem_append_left _ hmem, hboth⟩
      · obtain rfl : proposed = .live := hmode.symm.trans hlive
        obtain ⟨hdry, hceo⟩ := hshown.2 rfl
        exact ⟨hdry, headers, List.mem_append_right _ (List.mem_singleton_self _), hshown.1, hceo⟩

/-- A server that is not held to dry runs, and a request with both tokens. -/
theorem live_needs_both_tokens_sample :
    let config : ControlPlaneConfig := { ceoToken := "ceo", dryRunEnabled := false }
    let headers : Headers := { authorization := "Bearer dev-token", ceoAuth := "ceo" }
    let ops : List (PlaneOp Unit) := [.request headers (.mode (some .live))]
    config.dryRunEnabled = false ∧ ∃ headers, .request headers (.mode (some .live)) ∈ ops ∧
      config.IsOperator headers ∧ config.IsCeo headers := by
  intro config headers ops
  have hlive : (serveAll plainOrchestrator config wholeNumbers (plainPlane sampleLoop) ops).mode =
      .live := by decide +kernel
  exact live_needs_both_tokens (by decide) hlive

end ControlPlane
end AatsSniper

/-
# The bot over the control plane

`HttpControlPlaneClient` of `aats/telegram/control_plane_client.py` between the command bot and the
server: its four calls as requests, with the operator's token in the header.  `quote` of a mint is
undone by the server.

A `BotSystem` is the bot and the process that it commands; messages of any senders and the calls of
the loops come in any order.  `bot_only_derisks` is that none of them can be used to raise a limit,
to climb the ladder of modes or to release the breaker, whatever is written to the bot.
-/

import AatsSniper.ControlPlane.Halt
import AatsSniper.Telegram.Commands

namespace AatsSniper
namespace Telegram

open Controller (Answers OrchestratorConfig OrchestratorOp)
open ControlPlane (AgentMode ControlPlaneConfig Headers IsAutomatic Plane PlaneOp Post Runtime Told
  mode_serve respond serve serveAll tripped_serveAll)

variable {E : Type}

/-- `_auth_headers`. -/
def authHeaders (token : String) : Headers := { authorization := "Bearer " ++ token }

/-- `PAUSE_TARGET_MODE`. -/
def pauseTargetMode : AgentMode := .shadow

/-- The `POST` of a call; `get_status()` makes none. -/
def ClientCall.post (lands : Answers) : ClientCall → Option Post
  | .getStatus => none
  | .kill => some (.kill lands)
  | .flattenMint mint => some (.flattenMint lands (String.ofList (mint.map Char.ofNat)))
  | .pause => some (.mode (some pauseTargetMode))

/-- A request that the client could have made, or a call of the loops. -/
def FromBot : PlaneOp E → Prop
  | .loop _ _ => True
  | .request _ post => ∃ (call : ClientCall) (lands : Answers), call.post lands = some post

/-- The bot and the process. -/
structure BotSystem where
  pending : Pending
  plane : Plane

variable (E) in
/-- A message to the bot, with what the venue would answer to a flatten, or a call of the loops. -/
inductive SystemOp
  | message (msg : Message) (lands : Answers)
  | loop (op : OrchestratorOp E) (hop : IsAutomatic op)

section System

variable (cfg : OrchestratorConfig E) (config : ControlPlaneConfig) (rt : Runtime)
  (commands : CommandConfig) (token : String)

/-- What it comes to at the control plane. -/
def SystemOp.planeOps (pending : Pending) : SystemOp E → List (PlaneOp E)
  | .message msg lands =>
      (((handleUpdate commands pending msg).call.bind fun call => call.post lands).map
        (PlaneOp.request (authHeaders token))).toList
  | .loop op hop => [.loop op hop]

/-- The system after it. -/
def systemStep (s : BotSystem) (op : SystemOp E) : BotSystem where
  pending :=
    match op with
    | .message msg _ => nextPending commands s.pending msg
    | .loop _ _ => s.pending
  plane := serveAll cfg config rt s.plane (op.planeOps commands token s.pending)

/-- The system after some of them. -/
def systemAll (s : BotSystem) (ops : List (SystemOp E)) : BotSystem :=
  ops.foldl (systemStep cfg config rt commands token) s

/-- What the bot sends is what its client can send. -/
theorem fromBot_planeOps (pending : Pending) (op : SystemOp E) :
    ∀ planeOp ∈ op.planeOps commands token pending, FromBot planeOp := by
  intro planeOp hmem
  cases op with
  | loop op hop =>
      obtain rfl := List.mem_singleton.1 hmem
      trivial
  | message msg lands =>
      obtain ⟨post, hpost, rfl⟩ := Option.map_eq_some_iff.1 (Option.mem_toList.1 hmem)
      obtain ⟨call, -, hcall⟩ := Option.bind_eq_some_iff.1 hpost
      exact ⟨call, lands, hcall⟩

/-- **The process behind the bot** serves requests of its client and calls of the loops. -/
theorem plane_systemAll (s : BotSystem) (ops : List (SystemOp E)) :
    ∃ planeOps : List (PlaneOp E), (∀ planeOp ∈ planeOps, FromBot planeOp) ∧
      (systemAll cfg config rt commands token s ops).plane =
        serveAll cfg config rt s.plane planeOps := by
  induction ops generalizing s with
  | nil => exact ⟨[], fun _ hmem => absurd hmem List.not_mem_nil, rfl⟩
  | cons op ops ih =>
      obtain ⟨planeOps, hbot, hplane⟩ := ih (systemStep cfg config rt commands token s op)
      refine ⟨op.planeOps commands token s.pending ++ planeOps, ?_, ?_⟩
      · intro planeOp hmem
        rcases List.mem_append.1 hmem with h | h
        · exact fromBot_planeOps commands token s.pending op planeOp h
        · exact hbot planeOp h
      · have hserved : serveAll cfg config rt s.plane
            (op.planeOps commands token s.pending ++ planeOps) =
            serveAll cfg config rt (systemStep cfg config rt commands token s op).plane planeOps :=
          List.foldl_append
        rw [hserved, ← hplane]
        unfold systemAll
        rw [List.foldl_cons]

end System

variable (cfg : OrchestratorConfig E) (config : ControlPlaneConfig) (rt : Runtime)

/-- A request of the client leaves the limits alone, and the mode no higher. -/
theorem derisks_serve (plane : Plane) {op : PlaneOp E} (h : FromBot op) :
    (serve cfg config rt plane op).riskConfig = plane.riskConfig ∧
      (serve cfg config rt plane op).mode.order ≤ plane.mode.order := by
  cases op with
  | loop op hop => exact ⟨rfl, le_refl _⟩
  | request headers post =>
      obtain ⟨call, lands, hpost⟩ := h
      constructor
      · show (respond cfg config rt plane headers post).2.riskConfig = plane.riskConfig
        unfold respond
        split_ifs
        · cases call with
          | getStatus => cases hpost
          | kill =>
              obtain rfl := Option.some.inj hpost
              rfl
          | flattenMint mint =>
              obtain rfl := Option.some.inj hpost
              show (ControlPlane.postFlattenMint cfg plane lands _).2.riskConfig = plane.riskConfig
              unfold ControlPlane.postFlattenMint
              split <;> rfl
          | pause =>
              obtain rfl := Option.some.inj hpost
              show (ControlPlane.postMode config plane headers (some pauseTargetMode)).2.riskConfig =
                plane.riskConfig
              unfold ControlPlane.postMode
              dsimp only
              split_ifs <;> rfl
        · rfl
      · rcases mode_serve cfg config rt plane (.request headers post) with
          hsame | ⟨_, proposed, hop, hmode, -⟩
        · exact hsame ▸ le_refl _
        · obtain ⟨-, rfl⟩ := PlaneOp.request.inj hop
          have hshadow : proposed = .shadow := by
            cases call with
            | pause => exact (Option.some.inj (Post.mode.inj (Option.some.inj hpost))).symm
            | _ => cases hpost
          rw [hmode, hshadow]
          exact Nat.zero_le _

/-- The client has no request that resets the breaker. -/
theorem not_reset_of_fromBot {headers : Headers} :
    ¬ FromBot (.request headers .breakerReset : PlaneOp E) := by
  rintro ⟨call, lands, hpost⟩
  cases call with
  | getStatus => cases hpost
  | kill => cases hpost
  | flattenMint mint => cases hpost
  | pause => cases hpost

/-- **The bot can only take risk away.**  Whatever is written to it by whom, between whatever calls of
the loops: the limits stay, the mode is no higher than before, and a breaker that has tripped stays
so with nothing entered, where the store of the process tells the trip at the start.  (A process that
was booted over a store without the copy does not tell it, and enters.) -/
theorem bot_only_derisks (commands : CommandConfig) (token : String) (s : BotSystem)
    (ops : List (SystemOp E)) :
    let after := (systemAll cfg config rt commands token s ops).plane
    after.riskConfig = s.plane.riskConfig ∧ after.mode.order ≤ s.plane.mode.order ∧
      (Told s.plane.orchestrator → s.plane.orchestrator.loop.tripped →
        after.orchestrator.loop.tripped ∧
          after.orchestrator.entries = s.plane.orchestrator.entries) := by
  intro after
  obtain ⟨planeOps, hbot, hplane⟩ := plane_systemAll cfg config rt commands token s ops
  have hafter : after = serveAll cfg config rt s.plane planeOps := hplane
  rw [hafter]
  have hderisks := List.foldlRecOn planeOps (serve cfg config rt) (motive := fun plane : Plane =>
      plane.riskConfig = s.plane.riskConfig ∧ plane.mode.order ≤ s.plane.mode.order)
    ⟨rfl, le_refl _⟩ (by
      rintro plane ⟨hlimits, hmode⟩ op hmem
      obtain ⟨hlimits', hmode'⟩ := derisks_serve cfg config rt plane (hbot op hmem)
      exact ⟨hlimits'.trans hlimits, hmode'.trans hmode⟩)
  refine ⟨hderisks.1, hderisks.2, fun htold htripped => ?_⟩
  have hreset : ∀ headers, .request headers .breakerReset ∈ planeOps →
      ¬ config.IsOperator headers := fun headers hmem _ =>
    not_reset_of_fromBot (hbot _ hmem)
  exact tripped_serveAll htold htripped hreset

/-- A position falls by 2 %, and a tick trips the breaker.  Then the operator pauses the bot, a launch
comes, and the operator kills with a confirmation after a wrong sender tried to. -/
theorem bot_only_derisks_sample :
    let fall : Controller.TickCall :=
      { now := 0, blockTimeMs := 0, currentSlot := 7, marks := fun _ => some (49 / 50),
        lands := fun _ _ _ => true }
    let plane := serveAll Controller.plainOrchestrator {} ControlPlane.wholeNumbers
      (ControlPlane.plainPlane (Controller.solLoop 0))
      [.loop (.startup 0 Controller.silentVenue) trivial, .loop (.tick fall) trivial]
    let say (sender : ℤ) (text : String) : SystemOp Unit :=
      .message { sender := some sender, text := some (codePoints text), evictAt := 0, now := 0,
                 nonce := [97] } fun _ _ _ => true
    let after := (systemAll Controller.plainOrchestrator {} ControlPlane.wholeNumbers
      { operatorUserIds := [7] } "dev-token" ⟨Table.empty, plane⟩
      [say 7 "/pause", .loop (.launch (Controller.otherLaunch 2000)) trivial, say 9 "/kill",
        say 7 "/kill", say 7 "/confirm a"]).plane
    (after.riskConfig = plane.riskConfig ∧ after.mode.order ≤ plane.mode.order) ∧
      plane.orchestrator.loop.tripped ∧ after.orchestrator.loop.tripped ∧
      after.orchestrator.entries = plane.orchestrator.entries ∧
      after.orchestrator.killed = true := by
  intro fall plane say after
  have htripped : plane.orchestrator.loop.breaker.state.state = .tripped := by decide +kernel
  have htold : Told plane.orchestrator :=
    ControlPlane.told_serveAll (fun h => absurd h (by
      show ¬ (Controller.solLoop 0).breaker.state.state = .tripped
      decide +kernel)) _
  obtain ⟨hlimits, hmode, hhalted⟩ := bot_only_derisks Controller.plainOrchestrator {}
    ControlPlane.wholeNumbers { operatorUserIds := [7] } "dev-token" ⟨Table.empty, plane⟩
    [say 7 "/pause", .loop (.launch (Controller.otherLaunch 2000)) trivial, say 9 "/kill",
      say 7 "/kill", say 7 "/confirm a"]
  obtain ⟨hstays, hentries⟩ := hhalted htold htripped
  exact ⟨⟨hlimits, hmode⟩, htripped, hstays, hentries, by decide +kernel⟩

end Telegram
end AatsSniper

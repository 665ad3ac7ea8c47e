/-
# The control plane server

The `POST` endpoints of `build_app` in `aats/control_plane/server.py`, over the loops that
`aats/controller/__main__.py` wires to it: they share the kill switch, the breaker, the store and the
flatten handler of one process, and no two of them run at once.  A `PlaneOp` is a request, or a call
that the loops make by themselves; they come in any order, and `serve` is what one of them leaves.

A request whose header is not the operator's changes nothing, so that it may be left out of any run
(`serveAll_filter`).
-/

import AatsSniper.ControlPlane.RiskConfig
import AatsSniper.Controller.Orchestrator

namespace AatsSniper
namespace ControlPlane

open Breaker (OperatorResetToken)
open Controller (Answers Orchestrator OrchestratorConfig OrchestratorOp orchestrate)

/-- `AgentMode`. -/
inductive AgentMode
  | shadow
  | paper
  | liveDryRun
  | live
  deriving DecidableEq

/-- `_MODE_ORDER`. -/
def AgentMode.order : AgentMode → ℕ
  | .shadow => 0
  | .paper => 1
  | .liveDryRun => 2
  | .live => 3

/-- `_mode_is_downward(current_mode, proposed_mode)`. -/
def modeIsDownward (current proposed : AgentMode) : Bool :=
  decide (proposed.order < current.order)

/-- `ControlPlaneConfig`, of what no request changes. -/
structure ControlPlaneConfig where
  operatorToken : String := "dev-token"
  ceoToken : String := ""
  dryRunEnabled : Bool := true

/-- The headers that are read, empty where they are absent. -/
structure Headers where
  authorization : String := ""
  ceoAuth : String := ""

/-- The bodies of the endpoints, and for those that flatten what the venue answers.  A mode is
absent where `ModeRequest(**body)` raises. -/
inductive Post
  | riskConfig (body : Body)
  | kill (lands : Answers)
  | flattenAll (lands : Answers)
  | flattenMint (lands : Answers) (mint : String)
  | breakerReset
  | mode (proposed : Option AgentMode)

/-- The answers. -/
inductive Reply
  | riskConfig (body : Body)
  | halting
  | flattening (mint : Option String)
  | armed
  | mode (mode : AgentMode) (dryRunEnabled : Bool)

/-- The codes of the error envelopes. -/
inductive ApiError
  | operatorAuthRequired
  | liveRequiresDryRunDisabledAndCeoAuth
  | riskConfig (e : PostError)
  | positionNotFound (mint : String)
  | breakerNotTripped
  | invalidModeRequest

namespace ControlPlaneConfig

variable (config : ControlPlaneConfig)

/-- What `_check_operator_auth(request)` asks for. -/
def IsOperator (headers : Headers) : Prop :=
  config.operatorToken ≠ "" ∧ "Bearer ".toList <+: headers.authorization.toList ∧
    headers.authorization.toList.drop 7 = config.operatorToken.toList

instance (headers : Headers) : Decidable (config.IsOperator headers) :=
  inferInstanceAs (Decidable (_ ∧ _ ∧ _))

/-- What `_check_ceo_auth(request)` asks for. -/
def IsCeo (headers : Headers) : Prop :=
  config.ceoToken ≠ "" ∧ headers.ceoAuth = config.ceoToken

instance (headers : Headers) : Decidable (config.IsCeo headers) :=
  inferInstanceAs (Decidable (_ ∧ _))

/-- The operator's header is the token after `Bearer `. -/
theorem isOperator_iff {headers : Headers} : config.IsOperator headers ↔
    config.operatorToken ≠ "" ∧
      headers.authorization.toList = "Bearer ".toList ++ config.operatorToken.toList := by
  unfold IsOperator
  refine and_congr_right fun _ => ⟨?_, ?_⟩
  · rintro ⟨⟨token, htoken⟩, hdrop⟩
    rw [← htoken] at hdrop ⊢
    rw [show ("Bearer ".toList ++ token).drop 7 = token from List.drop_left' rfl] at hdrop
    rw [hdrop]
  · intro h
    rw [h]
    exact ⟨List.prefix_append _ _, List.drop_left' rfl⟩

end ControlPlaneConfig

/-- The process behind the server: the loops, `cfg.agent_mode` and `_risk_config_box`. -/
structure Plane where
  orchestrator : Orchestrator
  mode : AgentMode
  riskConfig : Body

variable {E : Type}

section Endpoints

variable (cfg : OrchestratorConfig E) (config : ControlPlaneConfig) (rt : Runtime) (plane : Plane)

/-- The plane after a call on its orchestrator. -/
def Plane.called (op : OrchestratorOp E) : Plane :=
  { plane with orchestrator := orchestrate cfg plane.orchestrator op }

/-- `post_risk_config(request)`, for the operator. -/
def postRiskConfig (body : Body) : Except ApiError Reply × Plane :=
  let posted := rt.postRiskConfig plane.riskConfig ⟨true, body⟩
  (match posted.1 with
    | .ok stored => .ok (.riskConfig stored)
    | .error e => .error (.riskConfig e),
    { plane with riskConfig := posted.2 })

/-- `post_kill(request)`, for the operator. -/
def postKill (lands : Answers) : Except ApiError Reply × Plane :=
  (.ok .halting, (plane.called cfg .kill).called cfg (.flattenAll lands))

/-- `post_flatten_all(request)`, for the operator. -/
def postFlattenAll (lands : Answers) : Except ApiError Reply × Plane :=
  (.ok (.flattening none), plane.called cfg (.flattenAll lands))

/-- `post_flatten_mint(mint, request)`, for the operator. -/
def postFlattenMint (lands : Answers) (mint : String) : Except ApiError Reply × Plane :=
  match plane.orchestrator.loop.store.loadPosition mint with
  | none => (.error (.positionNotFound mint), plane)
  | some _ => (.ok (.flattening (some mint)), plane.called cfg (.flattenOne lands mint))

/-- The breaker is tripped, or the store says so. -/
def Plane.isTripped : Prop :=
  plane.orchestrator.loop.breaker.state.state = .tripped ∨
    ∃ s ∈ plane.orchestrator.loop.store.breaker, s.state = .tripped

instance : Decidable plane.isTripped := inferInstanceAs (Decidable (_ ∨ _))

/-- `mint_operator_reset_token("operator")`. -/
def resetToken : OperatorResetToken := ⟨"operator", by decide⟩

/-- `post_breaker_reset(request)`, for the operator. -/
def postBreakerReset : Except ApiError Reply × Plane :=
  if plane.isTripped then
    match (Breaker.reset plane.orchestrator.loop.breaker resetToken).1 with
    | .ok _ => (.ok .armed, plane.called cfg (.breakerReset resetToken))
    | .error _ => (.error .breakerNotTripped, plane)
  else (.error .breakerNotTripped, plane)

/-- `post_mode(request)`, for the operator. -/
def postMode (headers : Headers) (proposed : Option AgentMode) : Except ApiError Reply × Plane :=
  match proposed with
  | none => (.error .invalidModeRequest, plane)
  | some proposed =>
      if modeIsDownward plane.mode proposed = false ∧ proposed = .live ∧
          (config.dryRunEnabled = true ∨ ¬ config.IsCeo headers) then
        (.error .liveRequiresDryRunDisabledAndCeoAuth, plane)
      else
        (.ok (.mode proposed config.dryRunEnabled), { plane with mode := proposed })

/-- A request: the answer, and what it leaves. -/
def respond (headers : Headers) (post : Post) : Except ApiError Reply × Plane :=
  if config.IsOperator headers then
    match post with
    | .riskConfig body => postRiskConfig rt plane body
    | .kill lands => postKill cfg plane lands
    | .flattenAll lands => postFlattenAll cfg plane lands
    | .flattenMint lands mint => postFlattenMint cfg plane lands mint
    | .breakerReset => postBreakerReset cfg plane
    | .mode proposed => postMode config plane headers proposed
  else (.error .operatorAuthRequired, plane)

/-- Without the operator's token a request is refused. -/
theorem respond_of_not_operator {headers : Headers} (h : ¬ config.IsOperator headers)
    (post : Post) :
    respond cfg config rt plane headers post = (.error .operatorAuthRequired, plane) :=
  if_neg h

end Endpoints

/-- The loops make the call by themselves. -/
def IsAutomatic : OrchestratorOp E → Prop
  | .kill => False
  | .flattenAll _ => False
  | .flattenOne _ _ => False
  | .breakerReset _ => False
  | _ => True

variable (E) in
/-- What may happen: a request, or a call of the loops. -/
inductive PlaneOp
  | request (headers : Headers) (post : Post)
  | loop (op : OrchestratorOp E) (hop : IsAutomatic op)

section Runs

variable (cfg : OrchestratorConfig E) (config : ControlPlaneConfig) (rt : Runtime)

/-- What it leaves. -/
def serve (plane : Plane) : PlaneOp E → Plane
  | .request headers post => (respond cfg config rt plane headers post).2
  | .loop op _ => plane.called cfg op

/-- Some of them, one after the other. -/
def serveAll (plane : Plane) (ops : List (PlaneOp E)) : Plane :=
  ops.foldl (serve cfg config rt) plane

/-- It is no request, or one of the operator. -/
def PlaneOp.authorized : PlaneOp E → Bool
  | .request headers _ => decide (config.IsOperator headers)
  | .loop _ _ => true

/-- **Requests without the operator's token do nothing**: a run ends where it ends without them. -/
theorem serveAll_filter (plane : Plane) (ops : List (PlaneOp E)) :
    serveAll cfg config rt plane (ops.filter (PlaneOp.authorized config)) =
      serveAll cfg config rt plane ops := by
  unfold serveAll
  rw [List.foldl_filter]
  congr 1
  funext plane op
  split_ifs with hauthorized
  · rfl
  · cases op with
    | request headers post =>
        have hnot : ¬ config.IsOperator headers := fun h => hauthorized (decide_eq_true h)
        show plane = (respond cfg config rt plane headers post).2
        rw [respond_of_not_operator cfg config rt plane hnot]
    | loop op hop => exact absurd rfl hauthorized

/-- The calls on the orchestrator that a request of the operator comes to. -/
def Post.calls (o : Orchestrator) : Post → List (OrchestratorOp E)
  | .kill lands => [.kill, .flattenAll lands]
  | .flattenAll lands => [.flattenAll lands]
  | .flattenMint lands mint =>
      if (o.loop.store.loadPosition mint).isSome = true then [.flattenOne lands mint] else []
  | .breakerReset =>
      if o.loop.breaker.state.state = .tripped then [.breakerReset resetToken] else []
  | _ => []

/-- The calls on the orchestrator that it comes to. -/
def PlaneOp.calls (o : Orchestrator) : PlaneOp E → List (OrchestratorOp E)
  | .loop op _ => [op]
  | .request headers post => if config.IsOperator headers then post.calls o else []

/-- **The orchestrator under a plane** goes through calls. -/
theorem orchestrator_serve (plane : Plane) (op : PlaneOp E) :
    (serve cfg config rt plane op).orchestrator =
      Controller.orchestrateAll cfg plane.orchestrator (op.calls config plane.orchestrator) := by
  cases op with
  | loop op hop => rfl
  | request headers post =>
      show (respond cfg config rt plane headers post).2.orchestrator =
        Controller.orchestrateAll cfg plane.orchestrator
          (if config.IsOperator headers then post.calls plane.orchestrator else [])
      unfold respond
      by_cases hoperator : config.IsOperator headers
      · rw [if_pos hoperator, if_pos hoperator]
        cases post with
        | riskConfig body => rfl
        | kill lands => rfl
        | flattenAll lands => rfl
        | flattenMint lands mint =>
            show (postFlattenMint cfg plane lands mint).2.orchestrator = _
            unfold postFlattenMint Post.calls
            dsimp only
            cases hfound : plane.orchestrator.loop.store.loadPosition mint with
            | none => rfl
            | some pos => rfl
        | breakerReset =>
            show (postBreakerReset cfg plane).2.orchestrator = _
            unfold postBreakerReset Breaker.reset Post.calls
            dsimp only
            by_cases htripped : plane.orchestrator.loop.breaker.state.state = .tripped
            · have his : plane.isTripped := .inl htripped
              rw [if_pos his, if_pos htripped, if_pos htripped]
              rfl
            · rw [if_neg htripped, if_neg htripped]
              split_ifs <;> rfl
        | mode proposed =>
            show (postMode config plane headers proposed).2.orchestrator = _
            unfold postMode
            split
            · rfl
            · split_ifs <;> rfl
      · rw [if_neg hoperator, if_neg hoperator]
        rfl

end Runs

end ControlPlane
end AatsSniper

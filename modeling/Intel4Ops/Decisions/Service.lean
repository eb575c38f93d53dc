import Intel4Ops.Decisions.Scenarios

/-!
# Recommendations, their approval and their conversion

`RecommendationService` and `DecisionApprovalService` of
`app/services/decision_intelligence_service.py`, and the requests of the whole service. Requests to
the operational actions are served in between, on the tables that a conversion writes to.
-/

namespace Intel4Ops.Decisions

open Lib ActionService Table Prod

/-! ## Recommendations -/

/-- `RecommendationService.create`. -/
def createRecommendation (db : Db) (org : UUID) (payload : DecisionRecommendationCreate)
    (actor id : UUID) : Except DecisionError (Db × DecisionRecommendation) := do
  let solution ← getTenant db.solutions (·.id) (·.organizationId) org payload.solutionId
    "solution_not_found"
  let alternative ← getTenant db.alternatives (·.id) (·.organizationId) org
    payload.selectedAlternativeId "alternative_not_found"
  ensure (alternative.solutionId = solution.id)
    (.service "alternative does not belong to solution" "alternative_solution_mismatch" 409)
  match db.recommendations.find? fun r =>
      r.organizationId = org ∧ r.idempotencyKey = payload.idempotencyKey with
  | some existing =>
    ensure (existing.solutionId = payload.solutionId ∧
        existing.selectedAlternativeId = payload.selectedAlternativeId)
      (.service "idempotency key was reused for a different recommendation"
        "idempotency_conflict" 409)
    return (db, existing)
  | none =>
    let recommendation : DecisionRecommendation :=
      { id, organizationId := org, solutionId := payload.solutionId
        selectedAlternativeId := payload.selectedAlternativeId, lifecycleStatus := .proposed
        title := payload.title, idempotencyKey := payload.idempotencyKey
        createdByUserId := actor }
    let recommendations ← orFail (insert (fun a b => a.id = b.id) recommendation
      db.recommendations) (.integrity "decision_recommendations")
    return ({ db with recommendations }, recommendation)

def getRecommendation (db : Db) (org recommendationId : UUID) :
    Except DecisionError DecisionRecommendation :=
  orFail (db.recommendations.find? fun r => r.id = recommendationId ∧ r.organizationId = org)
    (.service "recommendation not found" "recommendation_not_found" 404)

/-! ## Decisions -/

/-- The statuses in which no decision is recorded any more. -/
def terminalStatuses : List RecommendationStatus := [.convertedToAction, .superseded, .expired]

def DecisionRecommendation.decided (approval : DecisionApproval)
    (recommendation : DecisionRecommendation) : DecisionRecommendation :=
  match approval.decision with
  | .approve => { recommendation with
      approvedByApprovalId := some approval.id, lifecycleStatus := .approved }
  | .reject => { recommendation with approvedByApprovalId := none, lifecycleStatus := .rejected }
  | .defer | .requestChanges => { recommendation with
      approvedByApprovalId := none, lifecycleStatus := .reviewed }

/-- The row of a decision. -/
def approvalOf (recommendation : DecisionRecommendation) (payload : DecisionApprovalCreate)
    (actor : UUID) (actorRole : String) (id : UUID) : DecisionApproval where
  id
  organizationId := recommendation.organizationId
  recommendationId := recommendation.id
  decision := payload.decision
  reviewerUserId := actor
  reviewerRole := actorRole
  idempotencyKey := payload.idempotencyKey

def recordDecision (env : Env) (db : Db) (recommendation : DecisionRecommendation)
    (approval : DecisionApproval) : Except DecisionError (Db × DecisionApproval) := do
  ensure (recommendation.lifecycleStatus ∉ terminalStatuses)
    (.service "recommendation is terminal" "terminal_recommendation" 409)
  let approvals ← orFail (insert (fun a b => a.id = b.id) approval db.approvals)
    (.integrity "decision_approvals")
  let auditEvents ← orFail (audit db
      { organizationId := approval.organizationId, eventType := "recommendation_decided"
        entityType := "decision_recommendation", entityId := recommendation.id
        actorUserId := approval.reviewerUserId
        summary := "Recommendation decision: " ++ approval.decision.value
        idempotencyKey := "approval:" ++ env.idText approval.id })
    (.integrity "uq_decision_audit_idempotency")
  return ({ db with
    recommendations := update (·.id = recommendation.id) (.decided approval) db.recommendations
    approvals, auditEvents }, approval)

/-- `DecisionApprovalService.decide`. -/
def decide (env : Env) (db : Db) (org recommendationId : UUID) (payload : DecisionApprovalCreate)
    (actor : UUID) (actorRole : String) (id : UUID) :
    Except DecisionError (Db × DecisionApproval) := do
  let recommendation ← getRecommendation db org recommendationId
  match db.approvals.find? fun a =>
      a.organizationId = org ∧ a.idempotencyKey = payload.idempotencyKey with
  | some existing =>
    ensure (existing.recommendationId = recommendationId ∧ existing.decision = payload.decision)
      (.service "idempotency key was reused for a different approval" "idempotency_conflict" 409)
    return (db, existing)
  | none => recordDecision env db recommendation (approvalOf recommendation payload actor actorRole
      id)

/-! ## Conversion -/

/-- The approval that authorizes a conversion. -/
def governingApproval (db : Db) (recommendation : DecisionRecommendation) :
    Except DecisionError DecisionApproval := do
  let notApproved :=
    .service "recommendation is not currently approved" "recommendation_not_approved" 409
  ensure (recommendation.lifecycleStatus = .approved) notApproved
  let approvalId ← orFail recommendation.approvedByApprovalId notApproved
  let approval ← orFail (db.approvals.find? fun a => a.id = approvalId ∧
      a.organizationId = recommendation.organizationId ∧ a.recommendationId = recommendation.id)
    (.service "the governing approval does not belong to this recommendation" "approval_mismatch"
      409)
  ensure (approval.decision = .approve)
    (.service "the referenced approval is no longer the recommendation's governing decision"
      "recommendation_approval_stale" 409)
  return approval

def convertedAction (env : Env) (recommendation : DecisionRecommendation)
    (approval : DecisionApproval) (alternative : DecisionAlternative) (actor id : UUID) :
    OperationalAction where
  id
  organizationId := recommendation.organizationId
  sourceType := "decision_recommendation"
  sourceReference := env.idText recommendation.id
  reliabilityExecutionId := none
  findingId := none
  forecastExecutionId := none
  orchestrationRequestId := none
  recommendationType := "decision_optimization"
  recommendationRuleVersion := "WP-2.14B"
  priority := "high"
  priorityScore := 75
  status := .approved
  approvalRequired := true
  approvalLevel := "organization"
  approvalRole := "organization_admin"
  approvalStatus := "approved"
  assignedUserId := none
  assignedRole := none
  assignedTeam := none
  verificationRequired := true
  dueAt := none
  completedAt := none
  verifiedAt := none
  expectedAvoidedCost := alternative.expectedValue
  expectedInterventionCost := alternative.expectedCost
  currencyCode := alternative.currencyCode
  confidenceScore := none
  limitations := []
  idempotencyFingerprint :=
    env.actionDigest recommendation.organizationId recommendation.id approval.id
  createdByUserId := actor

/-- The tasks that the solution puts in order, when it has such a list. -/
def orderedTasks (solution : DecisionSolution) : List Json :=
  match Json.field solution.variableValues "ordered_task_ids" with
  | some (.arr items) => items
  | _ => []

/-- One step for each task of the solution, numbered from one. -/
def planStepsOf (env : Env) (org actionId : UUID) (solution : DecisionSolution) :
    List ActionPlanStep :=
  (orderedTasks solution).zipIdx.map fun (task, index) =>
    { organizationId := org, actionId, sequenceNumber := index + 1
      title := "Execute task " ++ env.valueText task
      description := "Sequenced by the governed decision solution." }

def DecisionRecommendation.converted (actionId : UUID) (recommendation : DecisionRecommendation) :
    DecisionRecommendation :=
  { recommendation with convertedActionId := some actionId, lifecycleStatus := .convertedToAction }

/-- The rest of what a conversion writes, unless a constraint of a table is violated. -/
def commitConversion (env : Env) (db : Db) (recommendation : DecisionRecommendation)
    (approval : DecisionApproval) (alternative : DecisionAlternative)
    (actions : List OperationalAction) (actionId : UUID) (steps : List ActionPlanStep)
    (actor : UUID) : Option Db := do
  let planSteps ← insertAll
    (fun a b => a.actionId = b.actionId ∧ a.sequenceNumber = b.sequenceNumber) steps
    db.actions.planSteps
  let auditEvents ← audit db
    { organizationId := recommendation.organizationId, eventType := "recommendation_converted"
      entityType := "decision_recommendation", entityId := recommendation.id, actorUserId := actor
      summary := "Approved recommendation converted to an operational action"
      idempotencyKey := "recommendation:" ++ env.idText recommendation.id ++ ":converted"
      eventMetadata := [("approval_id", env.idText approval.id),
        ("action_id", env.idText actionId)] }
  return { db with
    recommendations := update (·.id = recommendation.id) (.converted actionId) db.recommendations
    outcomeLinks := db.outcomeLinks ++ [{
      organizationId := recommendation.organizationId, recommendationId := recommendation.id
      operationalActionId := actionId, verificationStatus := "pending_verification"
      reconciliationStatus := "pending"
      expectedValueReference := "decision_alternative:" ++ env.idText alternative.id }]
    auditEvents
    actions := { db.actions with actions, planSteps } }

def findByFingerprint (db : Db) (org : UUID) (fingerprint : String) : Option OperationalAction :=
  db.actions.actions.find? fun a =>
    a.organizationId = org ∧ a.idempotencyFingerprint = fingerprint

def convert (env : Env) (db : Db) (recommendation : DecisionRecommendation) (actor id : UUID) :
    Except DecisionError (Db × OperationalAction) := do
  let org := recommendation.organizationId
  let approval ← governingApproval db recommendation
  let alternative ← getTenant db.alternatives (·.id) (·.organizationId) org
    recommendation.selectedAlternativeId "alternative_not_found"
  let action := convertedAction env recommendation approval alternative actor id
  let actions ← orFail (insert (fun a b => a.id = b.id ∨ a.organizationId = b.organizationId ∧
      a.idempotencyFingerprint = b.idempotencyFingerprint) action db.actions.actions)
    (.integrity "uq_action_idempotency")
  let solution ← getTenant db.solutions (·.id) (·.organizationId) org recommendation.solutionId
    "solution_not_found"
  let steps := planStepsOf env org action.id solution
  ensure (∀ step ∈ steps, step.title.length ≤ 250) (.dataError "title")
  match commitConversion env db recommendation approval alternative actions action.id steps actor
  with
  | some db' => return (db', action)
  | none =>
    let existing ← orFail (findByFingerprint db org action.idempotencyFingerprint)
      (.service "concurrent action conversion conflict" "conversion_conflict" 409)
    return (db, existing)

/-- `DecisionApprovalService.convert_to_action`. -/
def convertToAction (env : Env) (db : Db) (org recommendationId actor id : UUID) :
    Except DecisionError (Db × OperationalAction) := do
  let recommendation ← getRecommendation db org recommendationId
  match recommendation.convertedActionId with
  | some actionId =>
    let action ← getTenant db.actions.actions (·.id) (·.organizationId) org actionId
      "converted_action_not_found"
    return (db, action)
  | none => convert env db recommendation actor id

/-! ## Requests -/

inductive Request
  | createScenario (payload : DecisionScenarioCreate)
  | addInput (scenarioId : UUID) (payload : DecisionScenarioInputCreate)
  | validate (scenarioId : UUID)
  | execute (scenarioId : UUID) (payload : DecisionExecutionCreate)
  | createRecommendation (payload : DecisionRecommendationCreate)
  | decide (recommendationId : UUID) (payload : DecisionApprovalCreate)
  | convertToAction (recommendationId : UUID)
  | action (context : ActionService.Context) (request : ActionService.Request)

/-- A request of an organization's member, with the time it is served, the identifiers drawn and
the definitions then stored. -/
structure Call where
  (organizationId actor : UUID)
  actorRole : String
  now : Instant
  drawn : Drawn
  definitions : Definitions
  request : Request

inductive Reply
  | scenario (row : DecisionScenario)
  | input (row : DecisionScenarioInput)
  | execution (row : DecisionExecution)
  | recommendation (row : DecisionRecommendation)
  | approval (row : DecisionApproval)
  | converted (row : OperationalAction)
  | action (reply : ActionService.Reply)

/-- A request to the operational actions. -/
def serveAction (env : Env) (db : Db) (call : ActionService.Call) :
    Except DecisionError (Db × ActionService.Reply) :=
  match ActionService.serve env.fingerprint db.actions call with
  | .ok (actions, reply) => .ok ({ db with actions }, reply)
  | .error e => .error (.action e)

/-- Serve one request in a transaction of its own. -/
def serve (env : Env) : Service Db Call Reply DecisionError := fun db call =>
  let org := call.organizationId
  match call.request with
  | .createScenario payload =>
    (createScenario env call.definitions db org payload call.actor call.drawn.first).map
      (map id .scenario)
  | .addInput scenarioId payload =>
    (addInput db org scenarioId payload call.drawn.first).map (map id .input)
  | .validate scenarioId => (validate env db org scenarioId).map (map id .scenario)
  | .execute scenarioId payload =>
    (execute env call.definitions db org scenarioId payload call.actor call.drawn).map
      (map id .execution)
  | .createRecommendation payload =>
    (createRecommendation db org payload call.actor call.drawn.first).map (map id .recommendation)
  | .decide recommendationId payload =>
    (decide env db org recommendationId payload call.actor call.actorRole call.drawn.first).map
      (map id .approval)
  | .convertToAction recommendationId =>
    (convertToAction env db org recommendationId call.actor call.drawn.first).map
      (map id .converted)
  | .action context request =>
    (serveAction env db
      ⟨org, call.actor, call.actorRole, call.now, call.drawn.first, context, request⟩).map
      (map id .action)

end Intel4Ops.Decisions
